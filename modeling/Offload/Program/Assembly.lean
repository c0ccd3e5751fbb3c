import Offload.Numeral.Integer
import Offload.Program
import Offload.Text.Lines

/-!
# Program text

One item a line: a mnemonic and its operands in decimal, with blanks between them. `#` starts a
comment, and a line without words stands for nothing. The count of a launch's arguments is not
written, it follows from the line. Assembly works line by line, and a fault names the first line
that is wrong.
-/

namespace Offload

/-- What is wrong with a line of program text. -/
inductive LineProblem where
  | unknownMnemonic (name : String)
  | operandCount (mnemonic : String) (expected found : Nat)
  | tooFewOperands (mnemonic : String) (least found : Nat)
  | invalidNumber (word : String)
  | outOfRange (value : Int)
  | invalidArgument (word : String)
  | argumentOnly (mnemonic : String)
  | stated (text : String)
  deriving DecidableEq, Repr

def LineProblem.message : LineProblem → String
  | .unknownMnemonic name => "unknown mnemonic `" ++ name ++ "`"
  | .operandCount mnemonic expected found =>
    mnemonic ++ " takes " ++ toString expected ++ " operands, found " ++ toString found
  | .tooFewOperands mnemonic least found =>
    mnemonic ++ " takes at least " ++ toString least ++ " operands, found " ++ toString found
  | .invalidNumber word => "invalid number `" ++ word ++ "`"
  | .outOfRange value => "operand " ++ toString value ++ " out of range"
  | .invalidArgument word => "invalid launch argument `" ++ word ++ "`"
  | .argumentOnly mnemonic => mnemonic ++ " is only valid as a LAUNCH argument"
  | .stated text => text

/-- A problem and the number of its line, counted from one. -/
structure AssemblyFault where
  line : Nat
  problem : LineProblem
  deriving DecidableEq, Repr

def AssemblyFault.message (f : AssemblyFault) : String :=
  "line " ++ toString f.line ++ ": " ++ f.problem.message

/-- What a line of program text stands for. -/
inductive Item where
  | setup (devices tasks eventLists : Nat)
  | context (device : Nat)
  | enter
  | instruction (i : Instruction)
  deriving DecidableEq, Repr

def Item.encode : Item → Bytes
  | .setup devices tasks eventLists =>
    Opcode.setup.byte :: (Instruction.encodeIndex devices ++ Instruction.encodeIndex tasks ++
      Instruction.encodeIndex eventLists)
  | .context device => Opcode.context.byte :: Instruction.encodeIndex device
  | .enter => [Opcode.enter.byte]
  | .instruction i => i.encode

namespace Assembly

/-- A number between two bounds. -/
def number (least most : Int) (word : List Char) : Except LineProblem Int :=
  match Numeral.signed? 64 word with
  | none => .error (.invalidNumber (String.ofList word))
  | some value => if value < least ∨ most < value then .error (.outOfRange value) else .ok value

def index (word : List Char) : Except LineProblem Nat := do
  let value ← number 0 (Numeral.greatest 32) word
  return value.toNat

def eventList (word : List Char) : Except LineProblem (Option Nat) := do
  let value ← number (-1) (Numeral.greatest 32) word
  return if value = -1 then none else some value.toNat

def window (offset size : List Char) : Except LineProblem Window := do
  let o ← number 0 (Numeral.greatest 64) offset
  let s ← number 0 (Numeral.greatest 64) size
  return ⟨o.toNat, s.toNat⟩

/-- A launch argument: a letter for its kind and an index. -/
def argument (word : List Char) : Except LineProblem Argument :=
  let indexed (digits : List Char) (make : Nat → Argument) : Except LineProblem Argument :=
    match (Numeral.signed? 32 digits).filter (0 ≤ ·) with
    | some i => .ok (make i.toNat)
    | none => .error (.invalidArgument (String.ofList word))
  match word with
  | 'c' :: digits | 'C' :: digits => indexed digits .constant
  | 'r' :: digits | 'R' :: digits => indexed digits .reference
  | _ => .error (.invalidArgument (String.ofList word))

/-- Launch arguments, from the first to the last. -/
def arguments : List (List Char) → Except LineProblem (List Argument)
  | [] => .ok []
  | word :: words => do
    let first ← argument word
    let others ← arguments words
    return first :: others

/-- The item of an opcode and its operands; `name` is the mnemonic as it was written. -/
def item (name : String) (op : Opcode) (words : List (List Char)) : Except LineProblem Item :=
  let count (expected : Nat) : Except LineProblem Item :=
    .error (.operandCount name expected words.length)
  match op, words with
  | .enter, [] => .ok .enter
  | .enter, _ => count 0
  | .finish, [] => .ok (.instruction .finish)
  | .finish, _ => count 0
  | .context, [d] => do
    let device ← index d
    return .context device
  | .context, _ => count 1
  | .addDep, [l] => do
    let events ← index l
    return .instruction (.addDep events)
  | .addDep, _ => count 1
  | .barrier, [l] => do
    let events ← eventList l
    return .instruction (.barrier events)
  | .barrier, _ => count 1
  | .setup, [d, t, l] => do
    let devices ← index d
    let tasks ← index t
    let eventLists ← index l
    return .setup devices tasks eventLists
  | .setup, _ => count 3
  | .allocate false, [o, d] => do
    let object ← index o
    let device ← index d
    return .instruction (.allocate object device none)
  | .allocate false, _ => count 2
  | .allocate true, [o, d, offset, size] => do
    let object ← index o
    let device ← index d
    let w ← window offset size
    return .instruction (.allocate object device (some w))
  | .allocate true, _ => count 4
  | .transfer kind false, [o, d, l] => do
    let object ← index o
    let device ← index d
    let events ← eventList l
    return .instruction (.transfer kind object device events none)
  | .transfer _ false, _ => count 3
  | .transfer kind true, [o, d, l, offset, size] => do
    let object ← index o
    let device ← index d
    let events ← eventList l
    let w ← window offset size
    return .instruction (.transfer kind object device events (some w))
  | .transfer _ true, _ => count 5
  | .launch false, f :: d :: t :: l :: args => do
    let frame ← index f
    let device ← index d
    let task ← index t
    let events ← eventList l
    let args ← arguments args
    return .instruction (.launch frame device task events none args)
  | .launch false, _ => .error (.tooFewOperands name 4 words.length)
  | .launch true, f :: d :: t :: l :: offset :: size :: args => do
    let frame ← index f
    let device ← index d
    let task ← index t
    let events ← eventList l
    let w ← window offset size
    let args ← arguments args
    return .instruction (.launch frame device task events (some w) args)
  | .launch true, _ => .error (.tooFewOperands name 6 words.length)
  | .constantArg, _ => .error (.argumentOnly name)
  | .referenceArg, _ => .error (.argumentOnly name)

def line (text : List Char) : Except LineProblem (Option Item) :=
  match Text.words (Text.uncomment text) with
  | [] => .ok none
  | name :: words =>
    match Opcode.ofMnemonic? name with
    | none => .error (.unknownMnemonic (String.ofList name))
    | some op => (item (String.ofList name) op words).map some

def lineBytes (text : List Char) : Except LineProblem Bytes :=
  (line text).map fun found =>
    match found with
    | none => []
    | some item => item.encode

/-- The bytes of lines, the first of which has the given number. -/
def linesBytes : (number : Nat) → List (List Char) → Except AssemblyFault Bytes
  | _, [] => .ok []
  | number, text :: texts =>
    match lineBytes text with
    | .error problem => .error ⟨number, problem⟩
    | .ok bytes => (linesBytes (number + 1) texts).map (bytes ++ ·)

end Assembly

def assemble (text : String) : Except AssemblyFault Bytes :=
  Assembly.linesBytes 1 (Text.lines text.toList)

end Offload
