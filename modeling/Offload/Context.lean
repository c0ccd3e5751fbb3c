import Offload.Device.Station
import Offload.Program.Decode
import Offload.Task

/-!
# Contexts

A context is what the indices of a program refer to: devices, host objects, constants and tasks. It
also carries the journal of the run. The devices are distinct, so an operation of one changes no
other. Two object indices may name the same stored object, and then what is written through one of
them is seen through the other.
-/

namespace Offload

/-- What a program works on. -/
structure Context where
  /-- The devices index by index. Two indices never name the same device, as two object indices may
  name the same stored object: what is said of all contexts is said of distinct devices. -/
  devices : List Device
  /-- The stored objects. -/
  objects : List HostObject
  constants : List Scalar
  tasks : List Task
  journal : Journal := {}
  /-- The place of the stored object that each index names. -/
  places : List Nat := List.range objects.length

namespace Context

def device (c : Context) (index : Nat) : Except Fault Device := lookup .device c.devices index

/-- Where the object of an index is stored. -/
def place (c : Context) (index : Nat) : Except Fault Nat := lookup .object c.places index

def constant (c : Context) (index : Nat) : Except Fault Scalar := lookup .constant c.constants index

def task (c : Context) (index : Nat) : Except Fault Task := lookup .task c.tasks index

/-- The objects index by index. -/
def hosts (c : Context) : List HostObject := c.places.map (objectAt c.objects)

def log (c : Context) (level : Level) (text : String) : Context :=
  { c with journal := c.journal.add level text }

/-- The context with the objects, the journal and one device taken from a station. -/
def withStation (c : Context) (index : Nat) (s : Station) : Context :=
  { c with devices := c.devices.set index s.device, objects := s.objects, journal := s.journal }

/-- Operate the device of an index; it is a fault if there is none. -/
def onDevice {α : Type} (index : Nat) (x : DeviceAction α) : Action Context Fault α := fun c =>
  match c.device index with
  | .error fault => (.error fault, c)
  | .ok d =>
    let (result, s) := x.run ⟨d, c.objects, c.journal⟩
    (result.mapError .device, c.withStation index s)

def writeObject (c : Context) (index offset : Nat) (bytes : Bytes) : Context :=
  match c.places[index]? with
  | some place => { c with objects := c.objects.modify place fun o => o.write offset bytes }
  | none => c

def describe (c : Context) : String :=
  Text.record "ExecutionContext" [
    ("devices", toString c.devices.length),
    ("objects", Text.bracketed (c.hosts.map HostObject.describe)),
    ("constants", Text.bracketed (c.constants.map Scalar.describe)),
    ("tasks", Text.bracketed (c.tasks.map Task.describe))]

end Context

/-- Check the counts and the devices of a header against a context. -/
def Header.check (h : Header) (c : Context) : Except Fault Unit := do
  if h.devices ≠ c.devices.length then
    throw (.headerMismatch .devices h.devices c.devices.length)
  if h.tasks ≠ c.tasks.length then
    throw (.headerMismatch .tasks h.tasks c.tasks.length)
  match h.contexts.find? (c.devices.length ≤ ·) with
  | some index => throw (.indexOutOfRange .device index c.devices.length)
  | none => return ()

/-- Read a whole program and check its header against a context. -/
def Context.validate (c : Context) (code : Bytes) : Except Fault Header := do
  let p ← Program.decode code
  p.header.check c
  return p.header

end Offload
