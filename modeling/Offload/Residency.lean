import Offload.Context

/-!
# Residency

A table says for every object and every device whether the device has a buffer for the object,
whether the buffer holds the object's bytes, and whether a launch has changed them there. A store is
a context with such a table. Its operations move bytes between the host and the devices and keep the
table in step; an operation that is refused because of an index, a window or a record changes
nothing.
-/

namespace Offload

/-- A buffer that was made for an object, and its size. -/
structure Allocation where
  buffer : BufferId
  bytes : Nat
  deriving DecidableEq, Repr

/-- What one device has of one object. -/
structure Record where
  allocation : Option Allocation := none
  /-- The buffer holds the bytes of the object, or newer ones. -/
  valid : Bool := false
  /-- A launch has written the buffer since the last transfer. -/
  modified : Bool := false
  /-- The window that was last sent to the device; none is the whole object. -/
  window : Option Window := none
  deriving DecidableEq, Repr

namespace Record

def buffer (r : Record) : Option BufferId := r.allocation.map Allocation.buffer

/-- The size of the buffer, zero if there is none. -/
def bytes (r : Record) : Nat :=
  match r.allocation with
  | some a => a.bytes
  | none => 0

/-- Whether the device holds the bytes of a window. -/
def holds (r : Record) (window : Option Window) : Bool := r.valid && r.window == window

/-- Forget what the buffer holds. -/
def invalidate (r : Record) : Record := { allocation := r.allocation }

/-- The record after a window was sent to the device. -/
def sent (r : Record) (window : Option Window) : Record :=
  { r with valid := true, modified := false, window }

/-- The record after the buffer was read back. -/
def fetched (r : Record) : Record := { r with modified := false }

/-- The record after a launch has written the buffer. -/
def written (r : Record) : Record := { r with modified := true, valid := r.allocation.isSome }

def text (r : Record) : String :=
  let state :=
    match r.allocation with
    | some a =>
      "buffer=" ++ Numeral.hex a.buffer ++ " bytes=" ++ toString a.bytes ++ " valid=" ++
        toString r.valid ++ " modified=" ++ toString r.modified
    | none => "unallocated"
  match r.window with
  | some w => state ++ " window=" ++ w.text
  | none => state

end Record

/-- What the devices have of one object, and which of them a launch last wrote it on. -/
structure Row where
  owner : Option Nat := none
  records : List Record
  deriving DecidableEq, Repr

/-- A row for every object. -/
structure Table where
  rows : List Row
  deriving DecidableEq, Repr

namespace Table

/-- A table in which no device has anything. -/
def new (objects devices : Nat) : Table :=
  ⟨List.replicate objects { records := List.replicate devices {} }⟩

def row (t : Table) (object : Nat) : Except Fault Row := lookup .object t.rows object

def record (t : Table) (object device : Nat) : Except Fault Record := do
  let row ← t.row object
  lookup .device row.records device

def update (t : Table) (object device : Nat) (f : Record → Record) : Table :=
  ⟨t.rows.modify object fun row => { row with records := row.records.modify device f }⟩

def setOwner (t : Table) (object device : Nat) : Table :=
  ⟨t.rows.modify object fun row => { row with owner := some device }⟩

/-- Forget what the buffers hold and who owns the objects. The buffers stay. -/
def invalidate (t : Table) : Table :=
  ⟨t.rows.map fun row => { records := row.records.map Record.invalidate }⟩

end Table

/-- A context and the table of what its devices hold. -/
structure Store where
  context : Context
  table : Table

abbrev StoreAction := Action Store Fault

namespace Store

/-- A store in which no device has anything. -/
def new (c : Context) : Store := ⟨c, .new c.places.length c.devices.length⟩

/-- Act on the context alone. -/
def inContext {α : Type} (x : Action Context Fault α) : StoreAction α :=
  Action.focus Store.context (fun c s => { s with context := c }) x

def log (level : Level) (text : String) : StoreAction Unit :=
  inContext (modify fun c => c.log level text)

/-- Where the object of an index is stored. -/
def place (index : Nat) : StoreAction Nat := do
  let s ← get
  Action.ofExcept (s.context.place index)

def host (place : Nat) : StoreAction HostObject := do
  let s ← get
  return objectAt s.context.objects place

def label (index : Nat) : StoreAction String := do
  let place ← Store.place index
  let host ← Store.host place
  return host.label

def requireDevice (index : Nat) : StoreAction Unit := do
  let s ← get
  let _ ← Action.ofExcept (s.context.device index)
  return ()

def record (object device : Nat) : StoreAction Record := do
  let s ← get
  Action.ofExcept (s.table.record object device)

def update (object device : Nat) (f : Record → Record) : StoreAction Unit :=
  modify fun s => { s with table := s.table.update object device f }

def note (label : String) (object device : Nat) : StoreAction Unit := do
  let r ← record object device
  log .trace ("residency: " ++ label ++ " on device " ++ toString device ++ ": " ++ r.text)

/-- Refuse a window that does not fit its object. -/
def checkWindow (object length : Nat) (window : Option Window) : StoreAction Unit :=
  match window with
  | some w => if w.fits length then return () else throw (.windowOutOfRange object w length)
  | none => return ()

/-- Make a buffer for an object that has none on a device. Gives its event. -/
def provide (label : String) (place object device bytes : Nat) : StoreAction EventId := do
  let (buffer, event) ← inContext (Context.onDevice device (Station.allocate place bytes))
  update object device fun r => { r with allocation := some ⟨buffer, bytes⟩ }
  note label object device
  return event

/-- Give up the buffer that a device has for an object. -/
def discard (buffer : BufferId) (object device : Nat) : StoreAction Unit := do
  inContext (Context.onDevice device (Station.release buffer))
  update object device fun _ => {}

/-- Make sure that a device has a buffer that is large enough for a window of an object, or for all
of it. A buffer that is too small is replaced. Gives the event of a new buffer. -/
def allocate (object device : Nat) (window : Option Window) : StoreAction (Option EventId) := do
  let place ← Store.place object
  let host ← Store.host place
  requireDevice device
  checkWindow object host.length window
  let required := (window.getD (.whole host.length)).size
  let r ← record object device
  match r.allocation with
  | some a =>
    if required ≤ a.bytes then return none
    log .trace ("residency: grow " ++ host.label ++ " on device " ++ toString device ++ " from " ++
      toString a.bytes ++ " to " ++ toString required ++ " bytes")
    discard a.buffer object device
  | none => pure ()
  let event ← provide host.label place object device required
  return some event

def bufferOf (label : String) (object device : Nat) : StoreAction BufferId := do
  let r ← record object device
  match r.buffer with
  | some buffer => return buffer
  | none => throw (.objectNotAllocated object label device)

/-- Send a window of an object, or all of it, to a device, which gets a buffer first if need be. -/
def streamIn (object device : Nat) (window : Option Window) (wait : List EventId) :
    StoreAction EventId := do
  let _ ← allocate object device window
  let place ← Store.place object
  let host ← Store.host place
  let buffer ← bufferOf host.label object device
  let event ← inContext (Context.onDevice device (Station.write buffer place window wait))
  update object device fun r => r.sent window
  note host.label object device
  return event

/-- Send a window of an object to a device unless the device holds it already. -/
def copyIn (object device : Nat) (window : Option Window) (wait : List EventId) :
    StoreAction (Option EventId) := do
  let r ← record object device
  if r.holds window then
    log .trace ("residency: object " ++ toString object ++ " already valid on device " ++
      toString device)
    return none
  let event ← streamIn object device window wait
  return some event

/-- Read a window of an object, or all of it, back from a device. -/
def streamOut (object device : Nat) (window : Option Window) (wait : List EventId)
    (blocking : Bool) : StoreAction EventId := do
  let place ← Store.place object
  let host ← Store.host place
  requireDevice device
  checkWindow object host.length window
  let buffer ← bufferOf host.label object device
  let event ← inContext (Context.onDevice device (Station.read buffer place window wait blocking))
  update object device Record.fetched
  note host.label object device
  return event

/-- The buffer of an object that a launch on a device is to use. -/
def validBuffer (object device : Nat) : StoreAction BufferId := do
  let r ← record object device
  match r.buffer, r.valid with
  | some buffer, true => return buffer
  | _, _ =>
    let label ← Store.label object
    throw (.objectNotValid object label device r.text)

/-- Note that a launch on a device writes an object. -/
def claim (object device : Nat) : StoreAction Unit := do
  let _ ← record object device
  update object device Record.written
  modify fun s => { s with table := s.table.setOwner object device }
  log .trace ("residency: object " ++ toString object ++ " now owned by device " ++ toString device)

/-- Forget what the devices hold. -/
def invalidate (s : Store) : Store := { s with table := s.table.invalidate }

end Store

end Offload
