import Offload.Manifest

/-!
# Instances

What a manifest describes, made: a context and the code of the program.
-/

namespace Offload

/-- What is wrong with a manifest that can be read. -/
inductive ManifestProblem where
  | noDevice
  | noContents (label : String)
  | lengthMismatch (label : String) (declared found : Nat)
  | notInteger (label : String)
  | unknownAccess (task name : String)
  | stated (text : String)
  deriving DecidableEq, Repr

def ManifestProblem.message : ManifestProblem → String
  | .noDevice => "at least one device is required"
  | .noContents label => "object `" ++ label ++ "` needs `values` or `len`"
  | .lengthMismatch label declared found =>
    "object `" ++ label ++ "` declares len " ++ toString declared ++ " but has " ++
      toString found ++ " values"
  | .notInteger label =>
    "object `" ++ label ++ "` has non-integer values for element type i32"
  | .unknownAccess task name => "task `" ++ task ++ "` has unknown access mode `" ++ name ++ "`"
  | .stated text => text

/-- Why a manifest has no instance. -/
inductive InstanceFault where
  | manifest (problem : ManifestProblem)
  | assembly (fault : AssemblyFault)
  deriving DecidableEq, Repr

/-- The integer that a floating-point number of 64 bits is, if it is one. -/
def wholeNumber? (bits : UInt64) : Option Int :=
  match Numeral.BinaryFormat.double.read bits.toNat with
  | .finite negative mantissa exponent =>
    let signed (n : Nat) : Int := if negative then -n else n
    let unit := Numeral.pow2 (-exponent).toNat
    if 0 ≤ exponent then some (signed (mantissa * Numeral.pow2 exponent.toNat))
    else if mantissa % unit = 0 then some (signed (mantissa / unit))
    else none
  | _ => none

/-- The 32-bit integer that a floating-point number is, as a word. -/
def integerWord? (bits : UInt64) : Option UInt32 := do
  let n ← wholeNumber? bits
  if Numeral.fits 32 n then some (Int32.ofInt n).toUInt32 else none

/-- The floating-point number of 32 bits nearest to one of 64, as a word. -/
def singleWord (bits : UInt64) : UInt32 :=
  UInt32.ofNat (Numeral.BinaryFormat.convert .double .single bits.toNat)

def ObjectSpec.toObject (o : ObjectSpec) : Except ManifestProblem HostObject :=
  match o.values, o.length with
  | [], none => .error (.noContents o.label)
  | [], some length => .ok (.zeroed o.label (4 * length))
  | values, length =>
    if (length.getD values.length) ≠ values.length then
      .error (.lengthMismatch o.label (length.getD 0) values.length)
    else
      match o.element with
      | .i32 =>
        match values.mapM integerWord? with
        | some words => .ok (.ofWords o.label words)
        | none => .error (.notInteger o.label)
      | .f32 => .ok (.ofWords o.label (values.map singleWord))

def TaskSpec.toAccesses (t : TaskSpec) : List String → Except ManifestProblem (List Access)
  | [] => .ok []
  | name :: others =>
    match Access.ofName? name with
    | none => .error (.unknownAccess t.name name)
    | some a => (t.toAccesses others).map (a :: ·)

def TaskSpec.toTask (t : TaskSpec) : Except ManifestProblem Task :=
  (t.toAccesses t.access).map fun accesses => { name := t.name, accesses, profiling := t.profiling }

/-- A context and the code to run over it. -/
structure Instance where
  context : Context
  code : Bytes

namespace Manifest

/-- Make the instance. The first thing that is wrong, in the order devices, program, objects, tasks,
is the fault. -/
def instantiate (m : Manifest) : Except InstanceFault Instance := do
  if m.devices.isEmpty then throw (.manifest .noDevice)
  let code ← (assemble m.program).mapError .assembly
  let objects ← (m.objects.mapM ObjectSpec.toObject).mapError .manifest
  let tasks ← (m.tasks.mapM TaskSpec.toTask).mapError .manifest
  let devices := m.devices.map fun d => { name := d.name, options := d.options }
  return { context := { devices, objects, constants := m.constants, tasks }, code }

end Manifest

end Offload
