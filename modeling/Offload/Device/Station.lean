import Offload.Action
import Offload.Device
import Offload.Journal

/-!
# Operating a device

A station is a device with the host objects that it exchanges bytes with and the journal of the run.
The operations of a device act on its station. An operation that is refused leaves no event; one
whose command fails leaves a failed event and reports the fault.
-/

namespace Offload

/-- A device at work. -/
structure Station where
  device : Device
  objects : List HostObject
  journal : Journal := {}

abbrev DeviceAction := Action Station DeviceFault

namespace Station

/-- No buffer may be as large as this. -/
def memoryLimit : Nat := Numeral.pow2 40

/-- The station with its device changed. -/
def onDevice (s : Station) (f : Device → Device) : Station := { s with device := f s.device }

def count (f : Counters → Counters) : DeviceAction Unit :=
  modify fun s => s.onDevice fun d => { d with counters := f d.counters }

/-- Run the command of an event and note how it ended. -/
def perform (event : EventId) (c : Command) : DeviceAction Unit := fun s =>
  let (result, memory, objects) := c.execute s.device.memory s.objects
  let status : EventStatus := if result.isOk then .complete else .failed
  (result, { s with device := { s.device.setStatus event status with memory }, objects })

/-- Record an event and its command. A deferred device queues the command, an eager one runs it. -/
def submit (kind : EventKind) (label : String) (wait : List EventId) (c : Command) :
    DeviceAction EventId := do
  let s ← get
  let event := s.device.log.size
  let text := "host: submit #" ++ toString event ++ " " ++ kind.operation
  set { s with
    device := s.device.record kind label wait
    journal := s.journal.add .trace text }
  if s.device.options.deferred then
    modify fun s => s.onDevice fun d => { d with queue := d.queue ++ [⟨event, c⟩] }
  else perform event c
  return event

/-- Run the commands of a list in order, through the one of event `last` if that is given, and leave
the others as the queue. All of them are run even if some fail; the first fault is given back. -/
def runThrough (last : Option EventId) : List Pending → Station → Option DeviceFault × Station
  | [], s => (none, s.onDevice fun d => { d with queue := [] })
  | p :: rest, s =>
    let (result, s) := perform p.event p.command (s.onDevice fun d => { d with queue := rest })
    let fault :=
      match result with
      | .ok _ => none
      | .error fault => some fault
    if last = some p.event then (fault, s)
    else
      let (later, s) := runThrough last rest s
      (fault.or later, s)

/-- Run queued commands: all, or those through one event. -/
def drain (last : Option EventId) : DeviceAction Unit := fun s =>
  match runThrough last s.device.queue s with
  | (none, s) => (.ok (), s)
  | (some fault, s) => (.error fault, s)

/-- Make the device ready. -/
def load : DeviceAction Unit := modify fun s => s.onDevice fun d => { d with loaded := true }

/-- Make a buffer of zero bytes for an object. The event is complete at once. -/
def allocate (object bytes : Nat) : DeviceAction (BufferId × EventId) := do
  if memoryLimit ≤ bytes then throw (.outOfMemory bytes)
  let s ← get
  let buffer := s.device.nextBuffer
  let event := s.device.log.size
  let label :=
    "allocate " ++ (objectAt s.objects object).label ++ " (" ++ toString bytes ++ " bytes)"
  modify fun s => s.onDevice fun d =>
    { d with memory := d.memory.insert buffer (List.replicate bytes 0), nextBuffer := buffer + 1 }
  count fun c => { c with allocations := c.allocations + 1 }
  modify fun s => s.onDevice fun d => d.record .allocate label [] .complete
  return (buffer, event)

/-- Give up a buffer. Commands that may still use it are run first. -/
def release (buffer : BufferId) : DeviceAction Unit := do
  drain none
  let s ← get
  if (s.device.memory.get? buffer).isSome then
    modify fun s => s.onDevice fun d => { d with memory := d.memory.erase buffer }
  else throw (.unknownBuffer buffer)

def checkWindow (object : Nat) (window : Option Window) : DeviceAction Unit := do
  let s ← get
  let length := (objectAt s.objects object).length
  match window with
  | some w => Action.ofExcept (w.check length)
  | none => return ()

/-- Copy a window of an object, or all of it, over the start of a buffer. -/
def write (buffer : BufferId) (object : Nat) (window : Option Window) (wait : List EventId) :
    DeviceAction EventId := do
  checkWindow object window
  count fun c => { c with writes := c.writes + 1 }
  let s ← get
  submit .write ("write " ++ (objectAt s.objects object).label) wait (.write buffer object window)

/-- Copy the start of a buffer over a window of an object, or over all of it. A blocking read has
been run when it returns. -/
def read (buffer : BufferId) (object : Nat) (window : Option Window) (wait : List EventId)
    (blocking : Bool) : DeviceAction EventId := do
  checkWindow object window
  count fun c => { c with reads := c.reads + 1 }
  let s ← get
  let event ← submit .read ("read " ++ (objectAt s.objects object).label) wait
    (.read buffer object window)
  if blocking then drain (some event)
  return event

/-- Compile a task: look up its kernel by name. -/
def install (task : String) : DeviceAction InstalledCode := do
  count fun c => { c with compilations := c.compilations + 1 }
  let s ← get
  match s.device.kernels.get? task with
  | some kernel => return ⟨task, kernel⟩
  | none => throw (.unknownKernel task)

/-- A frame's argument as the kernel will see it. -/
def argumentOf : FrameArgument → KernelArgument
  | .constant value => .scalar value
  | .reference _ buffer _ => .buffer buffer

/-- Launch code with the arguments of a frame. Gives the event and the frame, which a device that
retains frames has marked as its own. -/
def launch (code : InstalledCode) (frame : CallFrame) (task : String) (window : Option Window)
    (wait : List EventId) : DeviceAction (EventId × CallFrame) := do
  count fun c => { c with launches := c.launches + 1 }
  let event ← submit .launch ("launch " ++ task) wait
    (.launch code.name code.kernel (frame.arguments.map argumentOf) window)
  let s ← get
  return (event, if s.device.options.retainCallFrames then frame.markOnDevice else frame)

/-- Submit a command that does nothing. -/
def marker (wait : List EventId) : DeviceAction EventId := do
  count fun c => { c with markers := c.markers + 1 }
  submit .marker "marker" wait .marker

def inspect (event : EventId) : DeviceAction Event := do
  let s ← get
  match s.device.event? event with
  | some e => return e
  | none => throw (.unknownEvent event)

/-- Wait for an event, running the queue through it. -/
def resolve (event : EventId) : DeviceAction Event := do
  let s ← get
  if s.device.isQueued event then drain (some event)
  inspect event

/-- Run the whole queue. -/
def flush : DeviceAction Unit := do
  count fun c => { c with flushes := c.flushes + 1 }
  drain none

end Station

end Offload
