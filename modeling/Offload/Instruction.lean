import Offload.Bytes
import Offload.Opcode
import Offload.Window

/-!
# Instructions

The instructions of a program body, their operands as text, and their bytes. An instruction with a
window has the batched opcode. In the stream an index takes four bytes and the two numbers of a
window eight each; a missing event list is written as minus one.
-/

namespace Offload

/-- An argument of a launch: a constant or an object, by index. -/
inductive Argument where
  | constant (index : Nat)
  | reference (index : Nat)
  deriving DecidableEq, Repr

namespace Argument

def opcode : Argument → Opcode
  | .constant _ => .constantArg
  | .reference _ => .referenceArg

def index : Argument → Nat
  | .constant i => i
  | .reference i => i

/-- An argument as text: `c3` or `r0`. -/
def text : Argument → String
  | .constant i => "c" ++ toString i
  | .reference i => "r" ++ toString i

end Argument

/-- An instruction of a program body. -/
inductive Instruction where
  | allocate (object device : Nat) (window : Option Window)
  | transfer (kind : Transfer) (object device : Nat) (events : Option Nat) (window : Option Window)
  | launch (frame device task : Nat) (events : Option Nat) (window : Option Window)
      (arguments : List Argument)
  | addDep (events : Nat)
  | barrier (events : Option Nat)
  | finish
  deriving DecidableEq, Repr

namespace Instruction

def opcode : Instruction → Opcode
  | .allocate _ _ window => .allocate window.isSome
  | .transfer kind _ _ _ window => .transfer kind window.isSome
  | .launch _ _ _ _ window _ => .launch window.isSome
  | .addDep _ => .addDep
  | .barrier _ => .barrier
  | .finish => .finish

/-- An event list as an operand, minus one for none. -/
def listOperand : Option Nat → Int
  | none => -1
  | some list => list

def windowOperands : Option Window → List String
  | none => []
  | some w => [toString w.offset, toString w.size]

/-- The operands in the order in which program text gives them. -/
def operands : Instruction → List String
  | .allocate object device window =>
    [toString object, toString device] ++ windowOperands window
  | .transfer _ object device events window =>
    [toString object, toString device, toString (listOperand events)] ++ windowOperands window
  | .launch frame device task events window arguments =>
    [toString frame, toString device, toString task, toString (listOperand events)] ++
      windowOperands window ++ arguments.map Argument.text
  | .addDep events => [toString events]
  | .barrier events => [toString (listOperand events)]
  | .finish => []

def text (i : Instruction) : String := String.intercalate " " (i.opcode.mnemonic :: i.operands)

def encodeIndex (n : Nat) : Bytes := Bytes.ofNat 4 n

def encodeList : Option Nat → Bytes
  | none => Bytes.ofNat 4 (Numeral.pow2 32 - 1)
  | some list => encodeIndex list

def encodeWindow : Option Window → Bytes
  | none => []
  | some w => Bytes.ofNat 8 w.offset ++ Bytes.ofNat 8 w.size

def encodeArgument (a : Argument) : Bytes := a.opcode.byte :: encodeIndex a.index

def encodeOperands : Instruction → Bytes
  | .allocate object device window =>
    encodeIndex object ++ encodeIndex device ++ encodeWindow window
  | .transfer _ object device events window =>
    encodeIndex object ++ encodeIndex device ++ encodeList events ++ encodeWindow window
  | .launch frame device task events window arguments =>
    encodeIndex frame ++ encodeIndex device ++ encodeIndex task ++ encodeIndex arguments.length ++
      encodeList events ++ encodeWindow window ++ arguments.flatMap encodeArgument
  | .addDep events => encodeIndex events
  | .barrier events => encodeList events
  | .finish => []

def encode (i : Instruction) : Bytes := i.opcode.byte :: i.encodeOperands

end Instruction

end Offload
