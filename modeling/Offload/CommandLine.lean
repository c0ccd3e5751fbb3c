import Offload.Numeral.Integer

/-!
# Command lines

A command line names a command and its manifest and sets options. Options start with `--`; one that
takes a value has it behind `=` or as the next word, and the word `--` ends the options. The options
for the form of the output and for the journal may stand before or behind the command; the others
belong to the command. An option or operand is checked when the words behind it show that it is
complete, or at the end.
-/

namespace Offload

/-- The form of reports and faults. -/
inductive OutputFormat where
  | json
  | human
  deriving DecidableEq, Repr

namespace OutputFormat

def name : OutputFormat → String
  | .json => "json"
  | .human => "human"

def ofName? (name : String) : Option OutputFormat :=
  [json, human].find? fun f => f.name == name

end OutputFormat

/-- Why a command line is not carried out. -/
inductive UsageProblem where
  | help
  | version
  | helpOnMissing
  | missingArgument
  | missingCommand
  | invalidCommand
  | unknownArgument
  | invalidNumber
  | invalidValue
  | repeated
  | needlessValue
  deriving DecidableEq, Repr

/-- The exit code: asking for help or for the version is no fault. -/
def UsageProblem.exitCode : UsageProblem → Nat
  | .help | .version => 0
  | _ => 2

/-- The settings of a run. -/
structure RunOptions where
  iterations : Nat := 1
  warmup : Bool := false
  batched : Bool := false
  invalidate : Bool := false
  deriving DecidableEq, Repr

/-- The commands. -/
inductive Verb where
  | run
  | disasm
  | check
  deriving DecidableEq, Repr

namespace Verb

def name : Verb → String
  | .run => "run"
  | .disasm => "disasm"
  | .check => "check"

def ofName? (name : String) : Option Verb := [run, disasm, check].find? fun v => v.name == name

end Verb

/-- What a command line asks for. -/
structure CommandLine where
  verb : Verb
  manifest : String
  options : RunOptions := {}
  output : OutputFormat := .human
  logLevel : String := "warn"
  deriving DecidableEq, Repr

namespace CommandLine

/-- What can be set on a command line. -/
inductive Parameter where
  | output
  | logLevel
  | iterations
  | warmup
  | batched
  | invalidate
  | help
  | version
  | manifest
  deriving DecidableEq, Repr

namespace Parameter

/-- Whether a value belongs to the parameter. -/
def takesValue : Parameter → Bool
  | .output | .logLevel | .iterations | .manifest => true
  | _ => false

def ofLong? : String → Option Parameter
  | "output" => some .output
  | "log-level" => some .logLevel
  | "iterations" => some .iterations
  | "warmup" => some .warmup
  | "batched" => some .batched
  | "invalidate" => some .invalidate
  | "help" => some .help
  | "version" => some .version
  | _ => none

def ofShort? : Char → Option Parameter
  | 'h' => some .help
  | 'V' => some .version
  | _ => none

/-- Whether the parameter may be set in a place: before the command, or behind a given one. -/
def allowed (place : Option Verb) : Parameter → Bool
  | .output | .logLevel | .help => true
  | .version => place.isNone
  | .manifest => place.isSome
  | .iterations | .warmup | .batched | .invalidate => place == some .run

end Parameter

/-- The number of passes that a word asks for: from one to the largest word of 64 bits. -/
def iterations? (word : String) : Option Nat :=
  let digits :=
    match word.toList with
    | '+' :: ds => ds
    | ds => ds
  (Numeral.natural? digits).filter fun n => 1 ≤ n && n < Numeral.pow2 64

def check (p : Parameter) (value : String) : Except UsageProblem Unit :=
  match p with
  | .output => if (OutputFormat.ofName? value).isSome then .ok () else .error .invalidValue
  | .iterations => if (iterations? value).isSome then .ok () else .error .invalidNumber
  | .manifest => if value.isEmpty then .error .invalidValue else .ok ()
  | _ => .ok ()

/-- The words of one place, as far as they are read. -/
structure Scan where
  /-- What is set and checked. -/
  given : List (Parameter × String) := []
  /-- What was met last and is not checked yet, with its value if that was met too. -/
  pending : Option (Parameter × Option String) := none
  /-- The next word is the value of the option that is pending. -/
  awaiting : Bool := false
  /-- No options follow. -/
  operandsOnly : Bool := false
  /-- The manifest was met. -/
  hasOperand : Bool := false
  deriving DecidableEq, Repr

namespace Scan

/-- Set a parameter, once. -/
def give (s : Scan) (p : Parameter) (value : String) : Except UsageProblem Scan := do
  if (s.given.lookup p).isSome then throw .repeated
  check p value
  return { s with given := s.given ++ [(p, value)] }

/-- Check what is pending. -/
def settle (s : Scan) : Except UsageProblem Scan :=
  let cleared := { s with pending := none, awaiting := false }
  match s.pending with
  | none => .ok cleared
  | some (_, none) => .error .invalidValue
  | some (p, some value) => cleared.give p value

/-- Meet a flag. -/
def flag (s : Scan) (p : Parameter) : Except UsageProblem Scan := do
  let s ← s.settle
  match p with
  | .help => throw .help
  | .version => throw .version
  | _ => s.give p "true"

/-- Meet a long option, with the value behind `=` if there is one. -/
def long (s : Scan) (place : Option Verb) (name : String) (value : Option String) :
    Except UsageProblem Scan :=
  match (Parameter.ofLong? name).filter (Parameter.allowed place) with
  | none => .error .unknownArgument
  | some p =>
    match p.takesValue, value with
    | true, some value => do
      let s ← s.settle
      s.give p value
    | true, none => do
      let s ← s.settle
      return { s with pending := some (p, none), awaiting := true }
    | false, some _ => .error .needlessValue
    | false, none => s.flag p

/-- Meet one-letter options. None of them leaves anything to read behind it. -/
def short (s : Scan) (place : Option Verb) (letter : Char) : Except UsageProblem Scan :=
  match (Parameter.ofShort? letter).filter (Parameter.allowed place) with
  | none => .error .unknownArgument
  | some p => s.flag p

/-- Meet an operand. The first one behind a command is the manifest. -/
def operand (s : Scan) (place : Option Verb) (word : String) : Except UsageProblem Scan :=
  if place.isSome && !s.hasOperand then do
    let s ← s.settle
    return { s with pending := some (.manifest, some word), hasOperand := true }
  else if place.isSome then .error .unknownArgument
  else if s.operandsOnly && ((Verb.ofName? word).isSome || word == "help") then
    .error .unknownArgument
  else .error .invalidCommand

def word (s : Scan) (place : Option Verb) (w : String) : Except UsageProblem Scan :=
  if s.operandsOnly then s.operand place w
  else
    match w.toList with
    | ['-', '-'] => .ok { s with operandsOnly := true }
    | '-' :: '-' :: cs =>
      let name := cs.takeWhile (· != '=')
      let value := if name.length < cs.length then some (cs.drop (name.length + 1)) else none
      s.long place (String.ofList name) (value.map String.ofList)
    | '-' :: letter :: _ => s.short place letter
    | _ =>
      match s.awaiting, s.pending with
      | true, some (p, _) => .ok { s with pending := some (p, some w), awaiting := false }
      | _, _ => s.operand place w

def words (place : Option Verb) : List String → Scan → Except UsageProblem Scan
  | [], s => s.settle
  | w :: ws, s => do
    let s ← s.word place w
    words place ws s

def get? (s : Scan) (p : Parameter) : Option String := s.given.lookup p

end Scan

/-- Asking for help on commands: no more than one, and help itself is one. -/
def helpOn : List String → UsageProblem
  | [] => .help
  | [w] => if (Verb.ofName? w).isSome || w == "help" then .help else .invalidCommand
  | _ => .invalidCommand

/-- The words behind a command. `before` is what stood before it, which is checked last. -/
def behind (v : Verb) (before : Scan) (ws : List String) : Except UsageProblem CommandLine := do
  let s ← Scan.words (some v) ws {}
  match s.get? .manifest with
  | none => throw .missingArgument
  | some manifest =>
    let before ← before.settle
    let setting (p : Parameter) : Option String := (s.get? p).or (before.get? p)
    return {
      verb := v
      manifest
      options := {
        iterations := ((s.get? .iterations).bind iterations?).getD 1
        warmup := (s.get? .warmup).isSome
        batched := (s.get? .batched).isSome
        invalidate := (s.get? .invalidate).isSome }
      output := ((setting .output).bind OutputFormat.ofName?).getD .human
      logLevel := (setting .logLevel).getD "warn" }

/-- The words up to the command, and those behind it. -/
def before : List String → Scan → Except UsageProblem CommandLine
  | [], s => do
    let s ← s.settle
    if s.given.isEmpty then throw .helpOnMissing else throw .missingCommand
  | w :: ws, s =>
    if s.operandsOnly || s.awaiting then do
      let s ← s.word none w
      before ws s
    else if w == "help" then .error (helpOn ws)
    else
      match Verb.ofName? w with
      | some v => behind v s ws
      | none => do
        let s ← s.word none w
        before ws s

def parse (words : List String) : Except UsageProblem CommandLine := before words {}

end CommandLine

end Offload
