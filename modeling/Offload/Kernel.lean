import Offload.Device.Memory
import Offload.Fault
import Offload.Scalar

/-!
# Kernels

A kernel computes on the bytes of its buffer arguments. There are four common ones, which check all
they need before they write, and any number of others, which are given by their programs. Integers
wrap at 32 bits.
-/

namespace Offload

/-- An argument as a kernel sees it. -/
inductive KernelArgument where
  | scalar (value : Scalar)
  | buffer (id : BufferId)
  deriving DecidableEq, Repr

/-- A call of a kernel: the name it was installed under, its arguments, the memory of its device,
and the window of a batched launch. -/
structure Invocation where
  kernel : String
  arguments : List KernelArgument
  memory : Memory
  window : Option Window := none
  deriving DecidableEq, Repr

namespace Invocation

def expect (v : Invocation) (n : Nat) : Except DeviceFault Unit :=
  if v.arguments.length < n then
    .error (.badArgument v.kernel v.arguments.length (.tooFew n v.arguments.length))
  else .ok ()

/-- The constant at a place of the argument list. -/
def scalar (v : Invocation) (index : Nat) : Except DeviceFault Scalar :=
  match v.arguments[index]? with
  | some (.scalar value) => .ok value
  | some (.buffer _) => .error (.badArgument v.kernel index .notConstant)
  | none => .error (.badArgument v.kernel index .missing)

def buffer (v : Invocation) (index : Nat) : Except DeviceFault BufferId :=
  match v.arguments[index]? with
  | some (.buffer id) => .ok id
  | some (.scalar _) => .error (.badArgument v.kernel index .notBuffer)
  | none => .error (.badArgument v.kernel index .missing)

/-- The contents of the buffer at a place of the argument list. -/
def bytes (v : Invocation) (index : Nat) : Except DeviceFault Bytes := do
  let id ← v.buffer index
  match v.memory.get? id with
  | some bytes => return bytes
  | none => throw (.unknownBuffer id)

/-- The memory with the buffer at a place of the argument list changed. -/
def update (v : Invocation) (index : Nat) (f : Bytes → Bytes) : Except DeviceFault Memory := do
  let id ← v.buffer index
  match v.memory.get? id with
  | some bytes => return v.memory.set id (f bytes)
  | none => throw (.unknownBuffer id)

/-- The whole words of the buffer at a place of the argument list. -/
def words (v : Invocation) (index : Nat) : Except DeviceFault (List UInt32) := do
  let bytes ← v.bytes index
  return Bytes.toWords bytes

/-- The memory with words written over the start of a buffer, as many as it has whole ones. -/
def writeWords (v : Invocation) (index : Nat) (words : List UInt32) : Except DeviceFault Memory :=
  v.update index fun bytes => Bytes.setWords bytes words

end Invocation

/-- Product of two floating-point numbers of 32 bits. -/
def mulSingle (a b : UInt32) : UInt32 := (Float32.ofBits a * Float32.ofBits b).toBits

/-- Sum of two floating-point numbers of 32 bits. -/
def addSingle (a b : UInt32) : UInt32 := (Float32.ofBits a + Float32.ofBits b).toBits

/-- What a kernel does that is not one of the common ones: it looks at the bytes of its buffer
arguments, puts bytes over the start of them, and ends. It reaches no other buffer and cannot make
one longer or shorter. -/
inductive KernelProgram where
  | done (result : Except DeviceFault Unit)
  | look (index : Nat) (next : Except DeviceFault Bytes → KernelProgram)
  | put (index : Nat) (bytes : Bytes) (next : Except DeviceFault Unit → KernelProgram)

namespace KernelProgram

/-- Run a program. What it has put into buffers stays, also when it ends in a fault. -/
def run : KernelProgram → Invocation → Except DeviceFault Unit × Memory
  | .done result, v => (result, v.memory)
  | .look index next, v => (next (v.bytes index)).run v
  | .put index bytes next, v =>
    match v.update index fun old => Bytes.overwrite old 0 bytes with
    | .ok memory => (next (.ok ())).run { v with memory }
    | .error fault => (next (.error fault)).run v

end KernelProgram

/-- The kernels: those that every device knows, and any program over the arguments of its call. -/
inductive Kernel where
  | addOne
  | vectorAdd
  | scale
  | saxpy
  | custom (program : String → List KernelArgument → Option Window → KernelProgram)

namespace Kernel

/-- The kernels that every device knows, by name. -/
def builtins : List (String × Kernel) :=
  [("add_one", .addOne), ("vector_add", .vectorAdd), ("scale", .scale), ("saxpy", .saxpy)]

def ofName? (name : String) : Option Kernel := builtins.lookup name

/-- The memory after a call that succeeds. `addOne` adds one to every word of its argument;
`vectorAdd` puts the sums of the first two arguments into the third; `scale` multiplies its first
argument by its second; `saxpy` adds the multiples of the second argument by the first to the
third. -/
def run (k : Kernel) (v : Invocation) : Except DeviceFault Memory :=
  match k with
  | .addOne => do
    v.expect 1
    let a ← v.words 0
    v.writeWords 0 (a.map (· + 1))
  | .vectorAdd => do
    v.expect 3
    let a ← v.words 0
    let b ← v.words 1
    v.writeWords 2 (List.zipWith (· + ·) a b)
  | .scale => do
    v.expect 2
    let factor ← v.scalar 1
    let x ← v.words 0
    v.writeWords 0 (x.map (mulSingle · factor.toF32))
  | .saxpy => do
    v.expect 3
    let alpha ← v.scalar 0
    let x ← v.words 1
    let y ← v.words 2
    v.writeWords 2 (List.zipWith (fun x y => addSingle (mulSingle alpha.toF32 x) y) x y)
  | .custom program =>
    let (result, memory) := (program v.kernel v.arguments v.window).run v
    result.map fun _ => memory

/-- The memory that a call leaves when it fails. The kernels that every device knows check before
they write. -/
def remains (k : Kernel) (v : Invocation) : Memory :=
  match k with
  | .custom program => ((program v.kernel v.arguments v.window).run v).2
  | _ => v.memory

end Kernel

/-- Kernels by the task names under which they can be installed. -/
structure Registry where
  kernels : List (String × Kernel) := []

namespace Registry

/-- Add a kernel, or replace the one of the same name. -/
def register (r : Registry) (name : String) (k : Kernel) : Registry :=
  ⟨r.kernels.filter (·.1 ≠ name) ++ [(name, k)]⟩

def get? (r : Registry) (name : String) : Option Kernel := r.kernels.lookup name

def names (r : Registry) : List String :=
  (r.kernels.map (·.1)).mergeSort fun a b => decide (a ≤ b)

def ofList (entries : List (String × Kernel)) : Registry :=
  entries.foldl (fun r entry => r.register entry.1 entry.2) {}

/-- The registry of the common kernels under their own names. -/
def builtin : Registry := ofList Kernel.builtins

end Registry

end Offload
