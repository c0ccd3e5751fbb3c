import Offload.Bytes

/-!
# Device memory

Numbered buffers, in increasing order of their numbers.
-/

namespace Offload

abbrev BufferId := Nat

/-- The live buffers of a device with their contents. -/
structure Memory where
  buffers : List (BufferId × Bytes) := []
  deriving DecidableEq, Repr

namespace Memory

/-- Put an entry before the first one with a larger number. -/
def place (b : BufferId) (bytes : Bytes) : List (BufferId × Bytes) → List (BufferId × Bytes)
  | [] => [(b, bytes)]
  | entry :: rest =>
    if b < entry.1 then (b, bytes) :: entry :: rest
    else if b = entry.1 then (b, bytes) :: rest
    else entry :: place b bytes rest

def get? (m : Memory) (b : BufferId) : Option Bytes := m.buffers.lookup b

/-- Add a buffer, or replace the contents of one. -/
def insert (m : Memory) (b : BufferId) (bytes : Bytes) : Memory := ⟨place b bytes m.buffers⟩

def set (m : Memory) (b : BufferId) (bytes : Bytes) : Memory :=
  ⟨m.buffers.map fun entry => if entry.1 = b then (b, bytes) else entry⟩

def erase (m : Memory) (b : BufferId) : Memory := ⟨m.buffers.filter fun entry => entry.1 ≠ b⟩

def ofList (entries : List (BufferId × Bytes)) : Memory :=
  entries.foldl (fun m entry => m.insert entry.1 entry.2) {}

theorem get?_set (m : Memory) (b c : BufferId) (bytes : Bytes) :
    (m.set b bytes).get? c = if c = b then (m.get? b).map (fun _ => bytes) else m.get? c := by
  obtain ⟨entries⟩ := m
  simp only [set, get?]
  induction entries with
  | nil => simp
  | cons entry rest ih =>
    obtain ⟨k, old⟩ := entry
    rw [List.map_cons]
    by_cases hk : k = b <;> by_cases hc : c = b <;> by_cases hck : c = k <;>
      grind

theorem get?_erase (m : Memory) (b c : BufferId) :
    (m.erase b).get? c = if c = b then none else m.get? c := by
  obtain ⟨entries⟩ := m
  simp only [erase, get?]
  induction entries with
  | nil => simp
  | cons entry rest ih =>
    obtain ⟨k, old⟩ := entry
    rw [List.filter_cons]
    by_cases hk : k = b <;> by_cases hc : c = b <;> by_cases hck : c = k <;>
      grind

theorem get?_insert (m : Memory) (b c : BufferId) (bytes : Bytes) :
    (m.insert b bytes).get? c = if c = b then some bytes else m.get? c := by
  obtain ⟨entries⟩ := m
  simp only [insert, get?]
  induction entries with
  | nil => simp [place, List.lookup_cons]; grind
  | cons entry rest ih =>
    obtain ⟨k, old⟩ := entry
    rw [place]
    by_cases hlt : b < k <;> by_cases heq : b = k <;> by_cases hc : c = b <;>
      by_cases hck : c = k <;> grind

end Memory

end Offload
