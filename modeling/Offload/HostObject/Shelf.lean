import Offload.HostObject

/-!
# Shelves of host objects

Several handles may name the same object. What is written through one of them is seen through all.
-/

namespace Offload

/-- Objects, and handles that name them by their place. -/
structure Shelf where
  objects : List HostObject
  handles : List Nat
  deriving DecidableEq, Repr

namespace Shelf

/-- A shelf with one object and one handle on it. -/
def single (o : HostObject) : Shelf := ⟨[o], [0]⟩

def object? (s : Shelf) (handle : Nat) : Option HostObject := do
  let place ← s.handles[handle]?
  s.objects[place]?

def update (s : Shelf) (handle : Nat) (f : HostObject → HostObject) : Shelf :=
  match s.handles[handle]? with
  | some place => { s with objects := s.objects.modify place f }
  | none => s

def share (s : Shelf) (handle : Nat) : Shelf :=
  match s.handles[handle]? with
  | some place => { s with handles := s.handles ++ [place] }
  | none => s

/-- Add a handle on a new object with the same label and bytes. -/
def copy (s : Shelf) (handle : Nat) : Shelf :=
  match s.object? handle with
  | some o => ⟨s.objects ++ [o], s.handles ++ [s.objects.length]⟩
  | none => s

def same (s : Shelf) (a b : Nat) : Bool := s.handles[a]? == s.handles[b]?

/-- The objects that the handles name, handle by handle. -/
def views (s : Shelf) : List HostObject := s.handles.filterMap (s.objects[·]?)

end Shelf

end Offload
