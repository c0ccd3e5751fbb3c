import Offload.CommandLine
import Offload.Manifest.Instance
import Offload.Text.Json

/-!
# Faults of a command

Everything that can end a command before its report is there. A manifest or a program that cannot be
used has exit code two, a pass that fails has exit code one.
-/

namespace Offload

/-- Why a command has no report. -/
inductive RunFault where
  | manifestNotFound (path : String)
  | manifestUnreadable
  | manifestSyntax
  | invalidManifest (problem : ManifestProblem)
  | assembly (fault : AssemblyFault)
  | invalidProgram (fault : Fault)
  | warmup (fault : Fault)
  | execution (pass : Nat) (fault : Fault)
  deriving DecidableEq, Repr

namespace RunFault

def ofInstance : InstanceFault → RunFault
  | .manifest problem => .invalidManifest problem
  | .assembly fault => .assembly fault

def message : RunFault → String
  | .manifestNotFound path => "Manifest not found: " ++ path
  | .manifestUnreadable => "IO error: manifest cannot be read"
  | .manifestSyntax => "Manifest parse error: invalid TOML"
  | .invalidManifest problem => "Invalid manifest: " ++ problem.message
  | .assembly fault => "Assembly error: " ++ fault.message
  | .invalidProgram fault => "Invalid program: " ++ fault.message
  | .warmup fault => "Warm-up failed: " ++ fault.message
  | .execution pass fault =>
    "Execution failed in pass " ++ toString pass ++ ": " ++ fault.message

def exitCode : RunFault → Nat
  | .warmup _ | .execution .. => 1
  | _ => 2

/-- The fault of a machine behind this one. -/
def source? : RunFault → Option Fault
  | .invalidProgram fault | .warmup fault | .execution _ fault => some fault
  | _ => none

def category? (f : RunFault) : Option FaultCategory := f.source?.map Fault.category

/-- The pass that failed, counted from one. -/
def pass? : RunFault → Option Nat
  | .execution pass _ => some pass
  | _ => none

def json (f : RunFault) : Text.Json :=
  let category :=
    match f.category? with
    | some category => [("category", Text.Json.text category.name)]
    | none => []
  let pass :=
    match f.pass? with
    | some pass => [("pass", Text.Json.ofNat pass)]
    | none => []
  .object ([("error", .text f.message), ("exit_code", .ofNat f.exitCode)] ++ category ++ pass)

def render (f : RunFault) : OutputFormat → String
  | .human => "error: " ++ f.message
  | .json => f.json.render

end RunFault

end Offload
