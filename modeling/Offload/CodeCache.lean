import Offload.Device

/-!
# Compiled code

One slot for each task of a program. A slot is filled once and keeps its code from then on; a failed
compilation leaves it empty, so that the next launch tries again. Every slot counts both.
-/

namespace Offload

/-- Code, the device it was compiled for, and the time that took in nanoseconds. -/
structure CacheEntry where
  code : InstalledCode
  device : Nat
  compileTime : Nat := 0

/-- The place of a task. Its counters have 32 bits: they go back to zero behind the last number. -/
structure CodeSlot where
  entry : Option CacheEntry := none
  tries : UInt32 := 0
  faults : UInt32 := 0

/-- How many compilations are counted, and how many of them have failed. -/
def CodeSlot.attempts (slot : CodeSlot) : Nat := slot.tries.toNat

def CodeSlot.failures (slot : CodeSlot) : Nat := slot.faults.toNat

/-- Totals over all slots. -/
structure CompileStats where
  installed : Nat
  attempts : Nat
  failures : Nat
  compileTime : Nat
  deriving DecidableEq, Repr

/-- The slots of a program's tasks. -/
structure CodeCache where
  slots : List CodeSlot

namespace CodeCache

def new (tasks : Nat) : CodeCache := ⟨List.replicate tasks {}⟩

def get? (c : CodeCache) (task : Nat) : Option CacheEntry := do
  let slot ← c.slots[task]?
  slot.entry

def isInstalled (c : CodeCache) (task : Nat) : Bool := (c.get? task).isSome

/-- Count a compilation that succeeded, and keep its code if the slot is empty. -/
def install (c : CodeCache) (task : Nat) (e : CacheEntry) : CodeCache :=
  ⟨c.slots.modify task fun slot =>
    { slot with entry := slot.entry.or (some e), tries := slot.tries + 1 }⟩

def recordFailure (c : CodeCache) (task : Nat) : CodeCache :=
  ⟨c.slots.modify task fun slot =>
    { slot with tries := slot.tries + 1, faults := slot.faults + 1 }⟩

/-- The filled slots with their tasks, in the order of the tasks. -/
def entries (c : CodeCache) : List (Nat × CacheEntry) :=
  c.slots.zipIdx.filterMap fun (slot, task) => slot.entry.map fun e => (task, e)

def total {α : Type} (measure : α → Nat) : List α → Nat
  | [] => 0
  | a :: as => measure a + total measure as

/-- The totals. -/
def stats (c : CodeCache) : CompileStats where
  installed := c.entries.length
  attempts := total CodeSlot.attempts c.slots
  failures := total CodeSlot.failures c.slots
  compileTime := total (fun e => e.2.compileTime) c.entries

@[simp] theorem length_slots_install (c : CodeCache) (task : Nat) (e : CacheEntry) :
    (c.install task e).slots.length = c.slots.length := by
  simp [install]

@[simp] theorem length_slots_recordFailure (c : CodeCache) (task : Nat) :
    (c.recordFailure task).slots.length = c.slots.length := by
  simp [recordFailure]

end CodeCache

end Offload
