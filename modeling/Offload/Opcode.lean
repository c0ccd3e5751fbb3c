/-!
# Opcodes

The first byte of every item of a program: its value in the stream, its mnemonic in program text,
and the family of passes that accepts it.
-/

namespace Offload

/-- How the bytes of an object travel: to the device unless it holds them already, to the device in
any case, or back to the host. -/
inductive Transfer where
  | copyIn
  | streamIn
  | streamOut (blocking : Bool)
  deriving DecidableEq, Repr

/-- The opcodes. A batched one works on a window of an object. -/
inductive Opcode where
  | allocate (batched : Bool)
  | transfer (kind : Transfer) (batched : Bool)
  | launch (batched : Bool)
  | barrier
  | setup
  | enter
  | addDep
  | context
  | finish
  | constantArg
  | referenceArg
  deriving DecidableEq, Repr

namespace Opcode

/-- All opcodes, in the order of their bytes. -/
def all : List Opcode := [
  .allocate false, .transfer .copyIn false, .transfer .streamIn false,
  .transfer (.streamOut false) false, .transfer (.streamOut true) false, .launch false,
  .barrier, .setup, .enter, .addDep, .context, .finish, .constantArg, .referenceArg,
  .allocate true, .transfer .copyIn true, .transfer .streamIn true,
  .transfer (.streamOut false) true, .transfer (.streamOut true) true, .launch true]

def byte : Opcode → UInt8
  | .allocate false => 10
  | .transfer .copyIn false => 11
  | .transfer .streamIn false => 12
  | .transfer (.streamOut false) false => 13
  | .transfer (.streamOut true) false => 14
  | .launch false => 15
  | .barrier => 16
  | .setup => 17
  | .enter => 18
  | .addDep => 19
  | .context => 20
  | .finish => 21
  | .constantArg => 22
  | .referenceArg => 23
  | .allocate true => 24
  | .transfer .copyIn true => 25
  | .transfer .streamIn true => 26
  | .transfer (.streamOut false) true => 27
  | .transfer (.streamOut true) true => 28
  | .launch true => 29

def mnemonic : Opcode → String
  | .allocate false => "ALLOCATE"
  | .transfer .copyIn false => "COPY_IN"
  | .transfer .streamIn false => "STREAM_IN"
  | .transfer (.streamOut false) false => "STREAM_OUT"
  | .transfer (.streamOut true) false => "STREAM_OUT_BLOCKING"
  | .launch false => "LAUNCH"
  | .barrier => "BARRIER"
  | .setup => "SETUP"
  | .enter => "BEGIN"
  | .addDep => "ADD_DEP"
  | .context => "CONTEXT"
  | .finish => "END"
  | .constantArg => "CONSTANT_ARG"
  | .referenceArg => "REFERENCE_ARG"
  | .allocate true => "ALLOCATE_BATCH"
  | .transfer .copyIn true => "COPYIN_BATCH"
  | .transfer .streamIn true => "STREAM_IN_BATCH"
  | .transfer (.streamOut false) true => "STREAM_OUT_BATCH"
  | .transfer (.streamOut true) true => "STREAM_OUT_BLOCKING_BATCH"
  | .launch true => "LAUNCH_BATCH"

def ofByte? (b : UInt8) : Option Opcode := all.find? fun op => op.byte == b

/-- The opcode of a mnemonic, in any mixture of upper and lower case letters `a` to `z`. -/
def ofMnemonic? (name : List Char) : Option Opcode :=
  all.find? fun op => op.mnemonic.toList == name.map Char.toUpper

/-- Whether the opcode works on a window. -/
def isBatched : Opcode → Bool
  | .allocate batched => batched
  | .transfer _ batched => batched
  | .launch batched => batched
  | _ => false

/-- Whether passes of both families accept the opcode. -/
def isCommon : Opcode → Bool
  | .addDep | .barrier | .finish => true
  | _ => false

end Opcode

/-- The families of passes: over whole objects or over windows of them. -/
inductive PassKind where
  | plain
  | batched
  deriving DecidableEq, Repr

namespace PassKind

def name : PassKind → String
  | .plain => "plain"
  | .batched => "batched"

/-- Whether an opcode may stand in the body that such a pass runs. -/
def accepts (kind : PassKind) (op : Opcode) : Bool :=
  op.isCommon || op.isBatched == (kind == .batched)

end PassKind

namespace Opcode

@[simp] theorem ofByte?_byte (op : Opcode) : ofByte? op.byte = some op := by
  rcases op with b | ⟨t, b⟩ | b | _ | _ | _ | _ | _ | _ | _ | _ <;>
    (try cases b) <;> (try rcases t with _ | _ | c) <;> (try cases c) <;> decide

theorem byte_of_ofByte? {b : UInt8} {op : Opcode} (h : ofByte? b = some op) : op.byte = b := by
  simpa using List.find?_some h

end Opcode

end Offload
