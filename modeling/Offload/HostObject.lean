import Offload.Bytes
import Offload.Text.Quoted

/-!
# Host objects

A labelled byte string on the host, which programs move to devices and back. Writing never changes
its length.
-/

namespace Offload

/-- A labelled byte string. -/
structure HostObject where
  label : String
  bytes : Bytes
  deriving DecidableEq, Repr, Inhabited

namespace HostObject

def zeroed (label : String) (length : Nat) : HostObject := ⟨label, List.replicate length 0⟩

def ofWords (label : String) (words : List UInt32) : HostObject := ⟨label, Bytes.ofWords words⟩

def length (o : HostObject) : Nat := o.bytes.length

def words (o : HostObject) : List UInt32 := Bytes.toWords o.bytes

/-- Overwrite the bytes from `offset` on. Bytes past the end are dropped. -/
def write (o : HostObject) (offset : Nat) (src : Bytes) : HostObject :=
  { o with bytes := Bytes.overwrite o.bytes offset src }

/-- Overwrite the object from its start with words. -/
def setWords (o : HostObject) (words : List UInt32) : HostObject := o.write 0 (Bytes.ofWords words)

def fill (o : HostObject) (b : UInt8) : HostObject := { o with bytes := o.bytes.map fun _ => b }

def describe (o : HostObject) : String :=
  Text.record "HostObject" [("label", Text.quoted o.label), ("len", toString o.length)]

@[simp] theorem length_write (o : HostObject) (offset : Nat) (src : Bytes) :
    (o.write offset src).length = o.length := by
  simp [write, length]

@[simp] theorem label_write (o : HostObject) (offset : Nat) (src : Bytes) :
    (o.write offset src).label = o.label := rfl

end HostObject

end Offload
