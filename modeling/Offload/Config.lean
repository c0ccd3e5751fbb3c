/-!
# Configuration

The switches of a machine.
-/

namespace Offload

/-- What happens when a task does not compile: the pass ends, or the launch is left out. -/
inductive CompileFailurePolicy where
  | strict
  | lenient
  deriving DecidableEq, Repr

def CompileFailurePolicy.name : CompileFailurePolicy → String
  | .strict => "strict"
  | .lenient => "lenient"

/-- The configuration of a machine. -/
structure Config where
  /-- Hand the event lists to the devices and wait for a marker at the end of a pass. -/
  useDependencies : Bool := false
  /-- Run all queues at the end of a pass. -/
  flushOnCompletion : Bool := true
  /-- Make new call frames for every launch. -/
  redeployOnDevice : Bool := false
  /-- Write every instruction to the journal. -/
  debug : Bool := false
  /-- Write the trace of every pass to the journal. -/
  printBytecodes : Bool := false
  /-- Write compile times to the journal. -/
  printCompileTimes : Bool := false
  /-- Keep profiles of launches. -/
  profiling : Bool := false
  compileFailurePolicy : CompileFailurePolicy := .strict
  deriving DecidableEq, Repr

/-- The default configuration with dependencies. -/
def Config.withDependencies : Config := { useDependencies := true }

end Offload
