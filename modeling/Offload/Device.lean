import Offload.CallFrame
import Offload.EventLog
import Offload.HostObject
import Offload.Kernel

/-!
# Devices

A device has a memory of buffers, a log of events and a queue of commands. An eager device runs a
command when it is submitted; a deferred one keeps it in the queue until something waits for it.
Commands run in the order of submission. What a command does to memory and to host objects is
decided when it runs.
-/

namespace Offload

/-- How a device behaves. -/
structure DeviceOptions where
  /-- Commands wait in the queue. -/
  deferred : Bool := false
  /-- The device keeps the arguments of a launch. -/
  retainCallFrames : Bool := false
  deriving DecidableEq, Repr

/-- How many operations of each sort were asked for. -/
structure Counters where
  allocations : Nat := 0
  writes : Nat := 0
  reads : Nat := 0
  launches : Nat := 0
  markers : Nat := 0
  flushes : Nat := 0
  compilations : Nat := 0
  deriving DecidableEq, Repr

/-- A command. Objects are named by their place among the stored objects. -/
inductive Command where
  | write (buffer : BufferId) (object : Nat) (window : Option Window)
  | read (buffer : BufferId) (object : Nat) (window : Option Window)
  | launch (name : String) (kernel : Kernel) (arguments : List KernelArgument)
      (window : Option Window)
  | marker

/-- A command that waits, with its event. -/
structure Pending where
  event : EventId
  command : Command

/-- Code installed on a device: a kernel under the name of its task. -/
structure InstalledCode where
  name : String
  kernel : Kernel

/-- A device. -/
structure Device where
  name : String
  options : DeviceOptions := {}
  kernels : Registry := .builtin
  loaded : Bool := false
  memory : Memory := {}
  nextBuffer : BufferId := 0
  log : EventLog := {}
  queue : List Pending := []
  counters : Counters := {}

namespace Device

def event? (d : Device) (id : EventId) : Option Event :=
  (d.log.get? id).map fun r => { id := some id, kind := r.kind, status := r.status }

def events (d : Device) : List Event :=
  d.log.records.zipIdx.map fun (r, id) => { id := some id, kind := r.kind, status := r.status }

/-- Add an event, whose command is not run yet. -/
def record (d : Device) (kind : EventKind) (label : String) (waitList : List EventId)
    (status : EventStatus := .queued) : Device :=
  { d with log := d.log.add { kind, status, label, waitList } }

def setStatus (d : Device) (id : EventId) (status : EventStatus) : Device :=
  { d with log := d.log.setStatus id status }

/-- Whether a command of the queue has the event. -/
def isQueued (d : Device) (id : EventId) : Bool := d.queue.any fun p => p.event == id

/-- Add a kernel. Code that is installed already keeps its own. -/
def register (d : Device) (name : String) (k : Kernel) : Device :=
  { d with kernels := d.kernels.register name k }

def describe (d : Device) : String :=
  Text.record "HostDevice" [
    ("name", Text.quoted d.name),
    ("options", Text.record "HostDeviceOptions" [
      ("deferred", toString d.options.deferred),
      ("retain_call_frames", toString d.options.retainCallFrames)]),
    ("kernels", Text.enclosed "\x7b" "\x7d" (d.kernels.names.map Text.quoted))]

/-- The device's name as one of several devices. -/
def handle (d : Device) : String := "Device(" ++ d.name ++ ")"

end Device

/-- The object at a place; a place without an object reads as an object of no bytes. -/
def objectAt (objects : List HostObject) (place : Nat) : HostObject :=
  objects[place]?.getD ⟨"", []⟩

namespace Command

/-- How a command ends, and the memory and the host objects after it. A write copies a window of the
object over the start of the buffer; a read copies the start of the buffer over a window of the
object, as far as both reach. -/
def execute (c : Command) (memory : Memory) (objects : List HostObject) :
    Except DeviceFault Unit × Memory × List HostObject :=
  match c with
  | .write buffer object window =>
    match memory.get? buffer with
    | none => (.error (.unknownBuffer buffer), memory, objects)
    | some target =>
      let source := (objectAt objects object).bytes
      let range := window.getD (.whole source.length)
      if !range.fits source.length then (.error (.outOfBounds range source.length), memory, objects)
      else
        let bytes := (source.take range.stop).drop range.offset
        if target.length < bytes.length then
          (.error (.outOfBounds (.whole bytes.length) target.length), memory, objects)
        else (.ok (), memory.set buffer (Bytes.overwrite target 0 bytes), objects)
  | .read buffer object window =>
    match memory.get? buffer with
    | none => (.error (.unknownBuffer buffer), memory, objects)
    | some source =>
      let length := (objectAt objects object).length
      let range := window.getD (.whole length)
      if !range.fits length then (.error (.outOfBounds range length), memory, objects)
      else
        (.ok (), memory, objects.modify object fun o =>
          o.write range.offset (source.take range.size))
  | .launch name kernel arguments window =>
    let call : Invocation := { kernel := name, arguments, memory, window }
    match kernel.run call with
    | .ok memory => (.ok (), memory, objects)
    | .error (.kernelFailed failed reason) =>
      (.error (.kernelFailed failed reason), kernel.remains call, objects)
    | .error fault => (.error (.kernelFailed name fault.message), kernel.remains call, objects)
  | .marker => (.ok (), memory, objects)

end Command

end Offload
