import Offload.Device.Memory
import Offload.Fault
import Offload.Scalar

/-!
# Call frames

A frame collects the arguments of a launch. It holds at most `capacity` arguments, and it knows
whether the device still has them from an earlier launch. A pool keeps one frame for every number
that a program may use.
-/

namespace Offload

/-- An argument in a frame: a constant, or the buffer of an object. -/
inductive FrameArgument where
  | constant (value : Scalar)
  | reference (object : Nat) (buffer : BufferId) (label : String)
  deriving DecidableEq, Repr

/-- The state of a frame: without arguments, with arguments, or held by the device. -/
inductive FrameState where
  | fresh
  | populated
  | onDevice
  deriving DecidableEq, Repr

def FrameState.name : FrameState → String
  | .fresh => "fresh"
  | .populated => "populated"
  | .onDevice => "on-device"

/-- A frame. -/
structure CallFrame where
  capacity : Nat
  arguments : List FrameArgument := []
  state : FrameState := .fresh
  deriving DecidableEq, Repr

namespace CallFrame

/-- Add an argument; `id` is the number of the frame in its pool. -/
def push (f : CallFrame) (id : Nat) (a : FrameArgument) : Except Fault CallFrame :=
  if f.capacity ≤ f.arguments.length then .error (.frameOverflow id f.capacity)
  else .ok { f with arguments := f.arguments ++ [a], state := .populated }

def reset (f : CallFrame) : CallFrame := { f with arguments := [], state := .fresh }

/-- Note that the device holds the arguments. -/
def markOnDevice (f : CallFrame) : CallFrame := { f with state := .onDevice }

def isOnDevice (f : CallFrame) : Bool := f.state == .onDevice

end CallFrame

/-- One place for each frame number. -/
structure FramePool where
  slots : List (Option CallFrame)
  deriving DecidableEq, Repr

namespace FramePool

def new (count : Nat) : FramePool := ⟨List.replicate count none⟩

/-- The frame of a number, if it was made. -/
def get? (p : FramePool) (id : Nat) : Option CallFrame := p.slots[id]?.join

def put (p : FramePool) (id : Nat) (f : CallFrame) : FramePool := ⟨p.slots.set id (some f)⟩

/-- The frame of a number, for a launch with `count` arguments. A new frame is made when there is
none, when the present one is too small, or when `recreate` asks for it. -/
def resolve (p : FramePool) (id count : Nat) (recreate : Bool) :
    Except Fault (CallFrame × FramePool) := do
  let slot ← lookup .frame p.slots id
  let fresh : CallFrame := { capacity := count }
  match slot with
  | some f =>
    if recreate || f.capacity < count then return (fresh, p.put id fresh) else return (f, p)
  | none => return (fresh, p.put id fresh)

def clear (p : FramePool) : FramePool := ⟨p.slots.map fun _ => none⟩

end FramePool

end Offload
