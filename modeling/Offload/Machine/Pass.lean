import Offload.Machine

/-!
# Passes

A pass carries out the body of a program up to END. A warm-up pass compiles the tasks and makes the
call frames and touches no device memory; a normal pass does all the work, ends with a barrier and
is counted. A pass that fails empties the event lists, and the machine is ready for the next pass.
-/

namespace Offload

/-- What a pass may do. -/
inductive PassMode where
  | warmup
  | normal
  deriving DecidableEq, Repr

def PassMode.name : PassMode → String
  | .warmup => "Warmup"
  | .normal => "Normal"

namespace Machine

/-- The next instruction of the body, which has to be of the family of the pass. -/
def fetch (kind : PassKind) : MachineAction Instruction := do
  let m ← get
  let offset := m.reader.position
  let i ← read Reading.instruction
  if !kind.accepts i.opcode then throw (.unexpectedOpcode i.opcode.mnemonic kind.name offset)
  if m.config.debug then
    log .debug ("vm: [" ++ Numeral.hexWide 4 offset ++ "] " ++ i.text)
  return i

def record (i : Instruction) (note : Option Note) : MachineAction Unit :=
  modify fun m => { m with trace := m.trace ++ [⟨i, note⟩] }

def setLastEvent (event : Option EventId) : MachineAction Unit :=
  modify fun m => { m with lastEvent := event }

/-- The events that an operation naming the list waits for. -/
def waitList (list : Option Nat) : MachineAction (List EventId) := do
  let m ← get
  Action.ofExcept (m.ledger.waitList list)

def resetList (list : Option Nat) : MachineAction Unit := do
  let m ← get
  let ledger ← Action.ofExcept (m.ledger.reset list)
  modify fun m => { m with ledger }

/-- Compile a task for a device. There is no code after a failure that the configuration
tolerates. -/
def compile (task device : Nat) : MachineAction (Option CacheEntry) := do
  let m ← get
  let _ ← Action.ofExcept (m.context.device device)
  let t ← Action.ofExcept (m.context.task task)
  inStore (Store.inContext (modify fun c =>
    { c with tasks := c.tasks.modify task fun t => t.bind device }))
  let described := toString task ++ " (" ++ t.name ++ ")"
  match ← Action.attempt (onDevice device (Station.install t.name)) with
  | .ok code =>
    if m.config.printCompileTimes then
      log .info ("vm: compiled task " ++ described ++ " for device " ++ toString device ++
        " in 0 us")
    let entry : CacheEntry := { code, device }
    modify fun m => { m with code := m.code.install task entry }
    return some entry
  | .error (.device source) =>
    modify fun m => { m with code := m.code.recordFailure task }
    log .error ("vm: unable to compile task " ++ described ++ ": " ++ source.message)
    match m.config.compileFailurePolicy with
    | .strict => throw (.compilation t.name source)
    | .lenient => return none
  | .error fault => throw fault

/-- The code of a task, compiled for a device if there is none yet. -/
def resolveCode (task device : Nat) : MachineAction (Option CacheEntry) := do
  let m ← get
  match m.code.get? task with
  | some entry => return some entry
  | none => compile task device

def resolveFrame (frame count : Nat) : MachineAction CallFrame := do
  let m ← get
  let (f, frames) ← Action.ofExcept (m.frames.resolve frame count m.config.redeployOnDevice)
  modify fun m => { m with frames }
  return f

def putFrame (id : Nat) (f : CallFrame) : MachineAction Unit :=
  modify fun m => { m with frames := m.frames.put id f }

def pushArgument (id : Nat) (f : CallFrame) (a : FrameArgument) : MachineAction CallFrame := do
  let f ← Action.ofExcept (f.push id a)
  putFrame id f
  return f

/-- Add the arguments of a launch to a frame; the first of them has the given place. An object that
the task writes is claimed for the device. -/
def marshal (task : Task) (id device : Nat) :
    (place : Nat) → List Argument → CallFrame → MachineAction CallFrame
  | _, [], f => return f
  | place, .constant index :: others, f => do
    let m ← get
    let value ← Action.ofExcept (m.context.constant index)
    let f ← pushArgument id f (.constant value)
    marshal task id device (place + 1) others f
  | place, .reference index :: others, f => do
    let buffer ← inStore (Store.validBuffer index device)
    let label ← inStore (Store.label index)
    let f ← pushArgument id f (.reference index buffer label)
    if (task.access place).writes then inStore (Store.claim index device)
    marshal task id device (place + 1) others f

/-- A frame with the arguments of a launch. One that the device still holds is used as it is. -/
def fillFrame (t : Task) (frame device : Nat) (arguments : List Argument) (f : CallFrame) :
    MachineAction CallFrame :=
  if f.isOnDevice then return f
  else do
    putFrame frame f.reset
    marshal t frame device 0 arguments f.reset

/-- Submit a launch to the device for which its code was compiled. -/
def submitLaunch (entry : CacheEntry) (t : Task) (frame device task : Nat) (events : Option Nat)
    (window : Option Window) (f : CallFrame) : MachineAction Unit := do
  let m ← get
  let wait ← waitList events
  let wait := if m.config.useDependencies then wait else []
  let (event, f) ← onDevice entry.device (Station.launch entry.code f t.name window wait)
  putFrame frame f
  resetList events
  setLastEvent (some event)
  if m.config.profiling && t.profiling then
    modify fun m => { m with pending := m.pending ++ [⟨task, device, event⟩] }

/-- Carry out a launch, up to its frame in a warm-up pass. -/
def launch (mode : PassMode) (frame device task : Nat) (events : Option Nat)
    (window : Option Window) (arguments : List Argument) : MachineAction (Option Note) := do
  let m ← get
  let _ ← Action.ofExcept (m.context.device device)
  let code ← resolveCode task device
  let f ← resolveFrame frame arguments.length
  if mode = .warmup then return some .warmup
  match code with
  | none =>
    log .warn ("vm: skipping launch of task " ++ toString task ++ ", no installed code")
    return some .notCompiled
  | some entry =>
    let m ← get
    let t ← Action.ofExcept (m.context.task task)
    let f ← fillFrame t frame device arguments f
    submitLaunch entry t frame device task events window f
    return none

/-- Carry out an instruction of a normal pass other than a launch or END. -/
def perform : Instruction → MachineAction (Option Note)
  | .allocate object device window => do
    let event ← inStore (Store.allocate object device window)
    setLastEvent event
    return if event.isNone then some .alreadyAllocated else none
  | .transfer .copyIn object device events window => do
    let wait ← waitList events
    let event ← inStore (Store.copyIn object device window wait)
    setLastEvent event
    resetList events
    return if event.isNone then some .alreadyValid else none
  | .transfer .streamIn object device events window => do
    let wait ← waitList events
    let event ← inStore (Store.streamIn object device window wait)
    resetList events
    setLastEvent (some event)
    return none
  | .transfer (.streamOut blocking) object device events window => do
    let wait ← waitList events
    let event ← inStore (Store.streamOut object device window wait blocking)
    resetList events
    setLastEvent (some event)
    return none
  | .addDep events => do
    let m ← get
    match m.lastEvent with
    | none => return some .noEvent
    | some event =>
      if !m.ledger.enabled then return some .dependenciesDisabled
      let ledger ← Action.ofExcept (m.ledger.append events event)
      modify fun m => { m with ledger }
      return none
  | .barrier events => do
    let m ← get
    let devices := m.context.devices.length
    if 1 < devices then throw (.multiDeviceBarrier devices)
    let wait ← waitList events
    let event ← onDevice 0 (Station.marker wait)
    setLastEvent (some event)
    resetList events
    return none
  | .launch .. | .finish => return none

/-- Carry out the next instruction. Says whether it was END. -/
def step (mode : PassMode) (kind : PassKind) : MachineAction Bool := do
  let i ← fetch kind
  match i with
  | .finish =>
    record i none
    return true
  | .launch frame device task events window arguments =>
    let note ← launch mode frame device task events window arguments
    record i note
    return false
  | _ =>
    if mode = .normal then
      let note ← perform i
      record i note
    return false

/-- Carry out the instructions through END. Every instruction takes a byte at least, so a body of
`fuel` bytes is read through in `fuel` steps. -/
def runBody (mode : PassMode) (kind : PassKind) : (fuel : Nat) → MachineAction Unit
  | 0 => do
    let m ← get
    throw (.missingEnd m.reader.position)
  | fuel + 1 => do
    let done ← step mode kind
    if done then return () else runBody mode kind fuel

/-- Put a marker behind all that was submitted to a device and wait for it. Without dependencies
there is no marker, and the event stays the one given. -/
def awaitMarker (config : Config) (device : Nat) (barrier : Event) : MachineAction Event :=
  if config.useDependencies then do
    let marker ← onDevice device (Station.marker [])
    onDevice device (Station.resolve marker)
  else return barrier

/-- Flush a device if the configuration asks for that at the end of a pass. -/
def flushDevice (config : Config) (device : Nat) : MachineAction Unit :=
  if config.flushOnCompletion then onDevice device Station.flush else return ()

/-- Wait for the devices of a list at the end of a normal pass. Gives the event of the last
marker. -/
def settle (config : Config) (barrier : Event) : List Nat → MachineAction Event
  | [] => return barrier
  | device :: others => do
    let barrier ← awaitMarker config device barrier
    flushDevice config device
    settle config barrier others

/-- Take the profiles of launches that are complete. -/
def collect : List PendingProfile → MachineAction Unit
  | [] => return ()
  | p :: others => do
    let event ← onDevice p.device (Station.resolve p.event)
    if event.isComplete then
      let m ← get
      let t ← Action.ofExcept (m.context.task p.task)
      modify fun m => { m with
        profiles := m.profiles ++ [⟨p.task, t.name, p.device, p.event, event.span⟩] }
    collect others

/-- The end of a normal pass. -/
def finish : MachineAction Event := do
  let m ← get
  let barrier ← settle m.config .empty (List.range m.context.devices.length)
  let m ← get
  set { m with pending := [] }
  collect m.pending
  return barrier

/-- Carry out the body and, in a normal pass, its end. The reader goes back to the mark in
between. -/
def runThrough (mode : PassMode) (kind : PassKind) : MachineAction Event := do
  let m ← get
  let body ← Action.attempt (runBody mode kind m.reader.remaining)
  modify fun m => { m with reader := m.reader.reset }
  Action.ofExcept body
  match mode with
  | .normal => finish
  | .warmup => return .empty

def reportTrace (mode : PassMode) (kind : PassKind) : MachineAction Unit := do
  let m ← get
  if m.config.printBytecodes then
    log .info ("vm: bytecodes (" ++ kind.name ++ " " ++ mode.name ++ " pass):\n" ++
      String.intercalate "\n" (m.trace.map TraceEntry.text))

/-- Note how a pass ended. A normal pass is counted; one that failed leaves no events in the
lists. -/
def conclude (mode : PassMode) (kind : PassKind) : Except Fault Event → MachineAction Unit
  | .ok _ => do
    if mode = .normal then
      modify fun m => { m with timing := m.timing.record 0 }
  | .error fault => do
    modify fun m => { m with ledger := m.ledger.clear, pending := [] }
    log .debug ("vm: " ++ kind.name ++ " pass aborted: " ++ fault.message)

/-- Run a pass. Gives the event of its barrier. -/
def runPass (mode : PassMode) (kind : PassKind) : MachineAction Event := do
  modify fun m => { m with trace := [], lastEvent := none }
  let result ← Action.attempt (runThrough mode kind)
  conclude mode kind result
  reportTrace mode kind
  Action.ofExcept result

end Machine

end Offload
