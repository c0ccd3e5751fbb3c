import Offload.CodeCache
import Offload.Config
import Offload.EventLedger
import Offload.Program.Decode
import Offload.Residency
import Offload.Timing

/-!
# Machines

A machine runs one program over one context. The header is read once, when the machine is made;
every pass reads the body anew from the mark behind the header. The machine keeps the frames, the
event lists and the code of the program from pass to pass.
-/

namespace Offload

/-- Why an instruction did less than its name says. -/
inductive Note where
  | alreadyAllocated
  | alreadyValid
  | dependenciesDisabled
  | noEvent
  | warmup
  | notCompiled
  deriving DecidableEq, Repr

def Note.text : Note → String
  | .alreadyAllocated => "already allocated"
  | .alreadyValid => "valid, skipped"
  | .dependenciesDisabled => "dependencies disabled"
  | .noEvent => "no event"
  | .warmup => "warm-up"
  | .notCompiled => "not compiled, skipped"

/-- An instruction that was carried out, and a note on it. -/
structure TraceEntry where
  instruction : Instruction
  note : Option Note := none
  deriving DecidableEq, Repr

/-- The line of a trace; the note is a comment of program text. -/
def TraceEntry.text (e : TraceEntry) : String :=
  match e.note with
  | some note => e.instruction.text ++ " # " ++ note.text
  | none => e.instruction.text

/-- A launch whose profile is taken at the end of the pass. -/
structure PendingProfile where
  task : Nat
  device : Nat
  event : EventId
  deriving DecidableEq, Repr

/-- A machine. -/
structure Machine where
  store : Store
  config : Config
  reader : Reader
  header : Header
  frames : FramePool
  ledger : EventLedger
  code : CodeCache
  timing : Timing := {}
  profiles : List LaunchProfile := []
  pending : List PendingProfile := []
  /-- What the last pass has carried out. -/
  trace : List TraceEntry := []
  /-- The event of the last operation that had one. -/
  lastEvent : Option EventId := none

abbrev MachineAction := Action Machine Fault

namespace Machine

def context (m : Machine) : Context := m.store.context

/-- Act on the store alone. -/
def inStore {α : Type} (x : StoreAction α) : MachineAction α :=
  Action.focus Machine.store (fun s m => { m with store := s }) x

def onDevice {α : Type} (index : Nat) (x : DeviceAction α) : MachineAction α :=
  inStore (Store.inContext (Context.onDevice index x))

def read {α : Type} (x : Reading α) : MachineAction α :=
  Action.focus Machine.reader (fun r m => { m with reader := r }) (Reader.read x)

def log (level : Level) (text : String) : MachineAction Unit := inStore (Store.log level text)

def load : List Nat → Action Context Fault Unit
  | [] => return ()
  | index :: others => do
    Context.onDevice index Station.load
    let c ← get
    let d ← Action.ofExcept (c.device index)
    modify fun c => c.log .debug
      ("vm: loaded device " ++ toString index ++ " (" ++ d.name ++ ") in 0ns")
    load others

/-- Read the header of a program, which has to fit the context, and load the devices that it names.
Gives the header and the reader behind it. -/
def start (code : Bytes) : Action Context Fault (Header × Reader) := do
  let (header, reader) ←
    match (Reader.read Reading.header).run (.ofBytes code) with
    | (.ok header, reader) => pure (header, reader)
    | (.error fault, _) => throw fault
  let c ← get
  Action.ofExcept (header.check c)
  load header.contexts
  return (header, reader)

/-- A machine before its first pass. -/
def initial (c : Context) (config : Config) (header : Header) (reader : Reader) : Machine where
  store := .new c
  config
  reader := reader.setMark
  header
  frames := .new header.tasks
  ledger := .new header.eventLists config.useDependencies
  code := .new header.tasks

/-- Make a machine that takes over a context. -/
def create (code : Bytes) (config : Config) : Action Context Fault Machine := do
  let (header, reader) ← start code
  let c ← get
  return initial c config header reader

/-- Forget what the devices hold. -/
def invalidate (m : Machine) : Machine := { m with store := m.store.invalidate }

def clearTiming (m : Machine) : Machine := { m with timing := {} }

def clearProfiles (m : Machine) : Machine := { m with profiles := [] }

def reportTiming : MachineAction Timing := do
  let m ← get
  log .info m.timing.text
  return m.timing

def reportProfiles : MachineAction (List LaunchProfile) := do
  let m ← get
  m.profiles.forM fun p => log .info ("vm: " ++ p.text)
  return m.profiles

/-- The events of all devices, each with the index of its device. -/
def events (m : Machine) : List (Nat × Event) :=
  m.context.devices.zipIdx.flatMap fun (d, index) => d.events.map fun e => (index, e)

/-- The line of the journal for an event of a device. -/
def eventLine (index : Nat) (name : String) (e : Event) : String :=
  let id := Text.optional (e.id.map fun id => "EventId(" ++ toString id ++ ")")
  "vm: device " ++ toString index ++ " (" ++ name ++ ") event " ++ id ++ " " ++
  e.kind.name ++ " " ++
    e.status.name ++ " submit " ++ toString e.span.submit ++ " start " ++ toString e.span.start ++
    " end " ++ toString e.span.stop

/-- Write all events to the journal. There are none unless the machine keeps profiles. -/
def reportEvents : MachineAction (List (Nat × Event)) := do
  let m ← get
  if m.config.profiling then
    m.context.devices.zipIdx.forM fun (d, index) =>
      d.events.forM fun e => log .info (eventLine index d.name e)
    return m.events
  else
    log .info "vm: profiling is disabled, no events recorded"
    return []

end Machine

end Offload
