import Offload.Text.Quoted

/-!
# Tasks

A task names a kernel and says how the kernel uses each of its arguments.
-/

namespace Offload

/-- How a kernel uses an argument. -/
inductive Access where
  | read
  | write
  | readWrite
  deriving DecidableEq, Repr

namespace Access

/-- The mode as flags: reading is one, writing is two. -/
def bits : Access → Nat
  | .read => 1
  | .write => 2
  | .readWrite => 3

def writes : Access → Bool
  | .read => false
  | .write | .readWrite => true

/-- Read the name of a mode, in any mixture of upper and lower case. -/
def ofName? (name : String) : Option Access :=
  match String.ofList (name.toList.map Char.toLower) with
  | "read" | "r" => some .read
  | "write" | "w" => some .write
  | "read_write" | "readwrite" | "rw" => some .readWrite
  | _ => none

def describe : Access → String
  | .read => "Access(READ)"
  | .write => "Access(WRITE)"
  | .readWrite => "Access(READ | WRITE)"

end Access

/-- A unit of work. -/
structure Task where
  name : String
  accesses : List Access
  /-- The device for which the task was last compiled. -/
  device : Option Nat := none
  /-- Whether its launches are profiled. -/
  profiling : Bool := false
  deriving DecidableEq, Repr

namespace Task

/-- How argument `index` is used. Arguments beyond the list are only read. -/
def access (t : Task) (index : Nat) : Access := t.accesses[index]?.getD .read

def bind (t : Task) (device : Nat) : Task := { t with device := some device }

def describe (t : Task) : String :=
  Text.record "Task" [
    ("name", Text.quoted t.name),
    ("accesses", Text.bracketed (t.accesses.map Access.describe)),
    ("device", Text.optional (t.device.map toString)),
    ("profiling", toString t.profiling)]

end Task

end Offload
