import Offload.Directory
import Offload.Machine.Pass
import Offload.Report
import Offload.RunFault

/-!
# Commands

The three commands: run the program of a manifest, list it, or check it against the manifest. A
command gives its report or its fault, and the journal that was written on the way.
-/

namespace Offload

namespace Command

/-- Read a manifest from the outcome of reading its file. -/
def manifest (path : String) (file : Except FileProblem String) : Except RunFault Manifest :=
  match file with
  | .error .notFound => .error (.manifestNotFound path)
  | .error .unreadable => .error .manifestUnreadable
  | .ok text =>
    match Manifest.parse? text with
    | some m => .ok m
    | none => .error .manifestSyntax

/-- Run `left` passes after `done` ones. -/
def passes (o : RunOptions) (kind : PassKind) :
    (left done : Nat) → Action Machine RunFault Unit
  | 0, _ => return ()
  | left + 1, done => do
    if o.invalidate && done != 0 then modify Machine.invalidate
    let _ ← (Machine.runPass .normal kind).mapFault (.execution (done + 1))
    let text := "hetvm-run: pass " ++ toString (done + 1) ++ " of " ++ toString o.iterations ++
      " complete"
    (Machine.log .info text).mapFault (.execution (done + 1))
    passes o kind left (done + 1)

/-- The seconds of a time, as a floating-point pattern. -/
def seconds (nanoseconds : Nat) : UInt64 := UInt64.ofNat (secondsBits nanoseconds)

/-- The report of a machine that has run. The elements say how to read its objects. -/
def report (o : RunOptions) (elements : List Element) (m : Machine) : RunReport where
  options := o
  mean := seconds m.timing.mean
  total := seconds m.timing.total
  timing := m.timing.text
  objects := List.zipWith (fun (object : HostObject) element =>
    { label := object.label, element, words := object.words }) m.context.hosts elements
  compile :=
    let s := m.code.stats
    { installed := s.installed, attempts := s.attempts, failures := s.failures
      time := s.compileTime / 1000 }
  devices := m.context.devices.map fun d => { name := d.name, counters := d.counters }
  profiles := m.profiles.map fun p =>
    { task := p.task, name := p.name, device := p.device, time := p.span.duration }

def session (o : RunOptions) : Action Machine RunFault Unit := do
  let kind : PassKind := if o.batched then .batched else .plain
  if o.warmup then
    let _ ← (Machine.runPass .warmup kind).mapFault .warmup
  passes o kind o.iterations 0

def run (o : RunOptions) (m : Manifest) : Except RunFault RunReport × Journal :=
  match m.instantiate with
  | .error fault => (.error (.ofInstance fault), {})
  | .ok i =>
    match (Machine.create i.code m.config).run i.context with
    | (.error fault, c) => (.error (.invalidProgram fault), c.journal)
    | (.ok machine, _) =>
      match (session o).run machine with
      | (.error fault, machine) => (.error fault, machine.context.journal)
      | (.ok _, machine) =>
        let machine := Machine.reportTiming.after machine
        let machine := Machine.reportEvents.after machine
        let machine := Machine.reportProfiles.after machine
        (.ok (report o (m.objects.map ObjectSpec.element) machine), machine.context.journal)

def disasm (m : Manifest) : Except RunFault String := do
  let code ← (assemble m.program).mapError .assembly
  (Program.disassemble code).mapError .invalidProgram

/-- Check the program of a manifest against its context. -/
def check (m : Manifest) : Except RunFault CheckReport := do
  let i ← m.instantiate.mapError .ofInstance
  let p ← (Program.decode i.code).mapError .invalidProgram
  (p.header.check i.context).mapError .invalidProgram
  return ⟨p.header, p.body.length⟩

end Command

namespace CommandLine

/-- Carry out a command line, given the outcome of reading the file of its manifest. -/
def execute (c : CommandLine) (file : Except FileProblem String) :
    Except RunFault Report × Journal :=
  match Command.manifest c.manifest file with
  | .error fault => (.error fault, {})
  | .ok m =>
    match c.verb with
    | .run =>
      let (result, journal) := Command.run c.options m
      (result.map .run, journal)
    | .disasm => ((Command.disasm m).map .listing, {})
    | .check => ((Command.check m).map .check, {})

end CommandLine

end Offload
