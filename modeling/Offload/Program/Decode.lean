import Offload.Action
import Offload.Fault
import Offload.Program

/-!
# Reading programs

A cursor stands in a stream of bytes. Reading moves it forward; when the bytes are not a program the
fault names the offset of the first field that cannot be right. A reader keeps the whole stream and
a mark to which it can return, so that a body can be read again and again.
-/

namespace Offload

/-- A place in a stream: the bytes from there on and the number of bytes before. -/
structure Cursor where
  rest : Bytes
  offset : Nat
  deriving DecidableEq, Repr

abbrev Reading := Action Cursor Fault

namespace Reading

def position : Reading Nat := fun c => (.ok c.offset, c)

def remaining : Reading Nat := fun c => (.ok c.rest.length, c)

def atEnd : Reading Bool := fun c => (.ok c.rest.isEmpty, c)

def take (n : Nat) : Reading Bytes := fun c =>
  let bytes := c.rest.take n
  if bytes.length < n then (.error (.decode c.offset .endOfData), c)
  else (.ok bytes, ⟨c.rest.drop n, c.offset + n⟩)

def byte : Reading UInt8 := do
  let bytes ← take 1
  return bytes.headD 0

def number (width : Nat) : Reading Int := do
  let bytes ← take width
  return Bytes.signed (8 * width) (Bytes.toNat bytes)

def int32 : Reading Int := number 4

def int64 : Reading Int := number 8

/-- An index: a number of four bytes that is not negative. -/
def index (what : String) : Reading Nat := do
  let start ← position
  let value ← int32
  if value < 0 then throw (.decode start (.negativeIndex what value)) else return value.toNat

/-- An event list operand, minus one for none. -/
def eventList : Reading (Option Nat) := do
  let start ← position
  let value ← int32
  if value = -1 then return none
  else if 0 ≤ value then return some value.toNat
  else throw (.decode start (.invalidEventList value))

/-- A window: its offset and its size. -/
def window : Reading Window := do
  let start ← position
  let offset ← int64
  let size ← int64
  if offset < 0 ∨ size < 0 then throw (.decode start (.negativeWindow offset size))
  else return ⟨offset.toNat, size.toNat⟩

/-- A window where the opcode asks for one. -/
def windowIf (batched : Bool) : Reading (Option Window) :=
  if batched then do
    let w ← window
    return some w
  else return none

/-- A launch argument: the byte of its kind and an index. -/
def argument : Reading Argument := do
  let start ← position
  let kind ← byte
  match Opcode.ofByte? kind with
  | some .constantArg =>
    let i ← index "argument"
    return .constant i
  | some .referenceArg =>
    let i ← index "argument"
    return .reference i
  | _ => throw (.decode start .argumentKind)

def arguments : Nat → Reading (List Argument)
  | 0 => return []
  | count + 1 => do
    let first ← argument
    let others ← arguments count
    return first :: others

/-- The operands of an opcode that was found at offset `start`. An argument takes five bytes, so a
count that the rest of the stream cannot hold is refused before any argument is read. -/
def operands (start : Nat) (op : Opcode) : Reading Instruction :=
  match op with
  | .allocate batched => do
    let object ← index "object"
    let device ← index "device"
    let w ← windowIf batched
    return .allocate object device w
  | .transfer kind batched => do
    let object ← index "object"
    let device ← index "device"
    let events ← eventList
    let w ← windowIf batched
    return .transfer kind object device events w
  | .launch batched => do
    let frame ← index "frame"
    let device ← index "device"
    let task ← index "task"
    let count ← index "argument count"
    let events ← eventList
    let w ← windowIf batched
    let left ← remaining
    if left / 5 < count then throw (.decode start (.argumentCount count))
    let args ← arguments count
    return .launch frame device task events w args
  | .addDep => do
    let events ← index "event list"
    return .addDep events
  | .barrier => do
    let events ← eventList
    return .barrier events
  | .finish => return .finish
  | .setup | .enter | .context | .constantArg | .referenceArg =>
    throw (.unknownOpcode op.byte start)

def instruction : Reading Instruction := do
  let start ← position
  let done ← atEnd
  if done then throw (.missingEnd start)
  let b ← byte
  match Opcode.ofByte? b with
  | some op => operands start op
  | none => throw (.unknownOpcode b start)

/-- The devices to load, up to the start of the body. Every one of them takes bytes, so a stream of
`fuel` bytes holds no more than `fuel` of them. -/
def contexts : (fuel : Nat) → Reading (List Nat)
  | 0 => do
    let start ← position
    throw (.decode start .endOfData)
  | fuel + 1 => do
    let start ← position
    let b ← byte
    if b = Opcode.enter.byte then return []
    if b ≠ Opcode.context.byte then throw (.missingMarker .contextOrBegin b start)
    let device ← index "device"
    let others ← contexts fuel
    return device :: others

def header : Reading Header := do
  let start ← position
  let b ← byte
  if b ≠ Opcode.setup.byte then throw (.missingMarker .setup b start)
  let devices ← index "device count"
  let tasks ← index "task count"
  let eventLists ← index "event list count"
  let left ← remaining
  let loaded ← contexts left
  return { devices, tasks, eventLists, contexts := loaded }

/-- The instructions up to and including the first END. Every instruction takes a byte at least, so
a stream of `fuel` bytes holds no more than `fuel` of them. -/
def body : (fuel : Nat) → Reading (List Instruction)
  | 0 => do
    let start ← position
    throw (.missingEnd start)
  | fuel + 1 => do
    let i ← instruction
    if i = .finish then return [.finish]
    let others ← body fuel
    return i :: others

def program : Reading Program := do
  let h ← header
  let left ← remaining
  let is ← body left
  return ⟨h, is⟩

/-- The lines of the instructions up to and including the first END, with as much fuel as for
`body`. -/
def bodyLines : (fuel : Nat) → Reading (List String)
  | 0 => do
    let start ← position
    throw (.missingEnd start)
  | fuel + 1 => do
    let i ← instruction
    if i = .finish then return [i.text]
    let others ← bodyLines fuel
    return i.text :: others

/-- The listing of a whole program, written while it is read. -/
def listing : Reading String := do
  let h ← header
  let left ← remaining
  let lines ← bodyLines left
  return Text.paragraph (h.lines ++ lines)

end Reading

namespace Cursor

def ofBytes (code : Bytes) : Cursor := ⟨code, 0⟩

end Cursor

/-- A stream with a cursor and a mark to return to. -/
structure Reader where
  stream : Bytes
  cursor : Cursor
  mark : Cursor
  deriving DecidableEq, Repr

namespace Reader

def ofBytes (code : Bytes) : Reader := ⟨code, .ofBytes code, .ofBytes code⟩

/-- Remember the present place. -/
def setMark (r : Reader) : Reader := { r with mark := r.cursor }

/-- Return to the marked place. -/
def reset (r : Reader) : Reader := { r with cursor := r.mark }

def position (r : Reader) : Nat := r.cursor.offset

def remaining (r : Reader) : Nat := r.cursor.rest.length

def read {α : Type} (x : Reading α) : Action Reader Fault α :=
  Action.focus Reader.cursor (fun c r => { r with cursor := c }) x

end Reader

namespace Program

/-- Read a program from its bytes. Bytes behind the first END are not looked at. -/
def decode (code : Bytes) : Except Fault Program := Reading.program.outcome (.ofBytes code)

/-- The listing of the program in a stream of bytes. -/
def disassemble (code : Bytes) : Except Fault String := Reading.listing.outcome (.ofBytes code)

end Program

end Offload
