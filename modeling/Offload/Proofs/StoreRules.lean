import Offload.Proofs.StoreAgreement

/-!
# Rules for the operations of a store

A store reaches its devices through four operations, and for the rest it changes its table and the
journal. What these upheld the operations of the store uphold, and there is one rule for each of
them. The rules are for what does not depend on the records of the table.
-/

namespace Offload

open Offload.Action

namespace Store

variable {α : Type} {W : List EventId → Prop} {I E : Store → Prop}

/-- What the parts of all operations of a store keep unless they end in a fault. The commands that
wait do so for events in `W`. -/
structure Upkeep (W : List EventId → Prop) (I E : Store → Prop) : Prop where
  fault : ∀ s, I s → E s
  noted : ∀ s level text, I s → I { s with context := s.context.log level text }
  table : ∀ s t, I s → I { s with table := t }
  allocate : ∀ device place bytes,
    Upholds I E (inContext (Context.onDevice device (Station.allocate place bytes)))
  release : ∀ device buffer,
    Upholds I E (inContext (Context.onDevice device (Station.release buffer)))
  write : ∀ device buffer place window wait, W wait →
    Upholds I E (inContext (Context.onDevice device (Station.write buffer place window wait)))
  read : ∀ device buffer place window wait blocking, W wait →
    Upholds I E
    (inContext (Context.onDevice device (Station.read buffer place window wait blocking)))

namespace Upkeep

theorem log (h : Upkeep W I E) (level : Level) (text : String) : Upholds I E (log level text) :=
  fun s hs => h.noted s level text hs

theorem place (h : Upkeep W I E) (index : Nat) : Upholds I E (place index) :=
  upholds_get fun _ => upholds_ofExcept h.fault

theorem host (_h : Upkeep W I E) (place : Nat) : Upholds I E (host place) :=
  upholds_get fun _ => upholds_pure

theorem requireDevice (h : Upkeep W I E) (index : Nat) : Upholds I E (requireDevice index) :=
  upholds_get fun _ => upholds_bind (upholds_ofExcept h.fault) fun _ =>
    upholds_pure

theorem record (h : Upkeep W I E) (object device : Nat) : Upholds I E (record object device) :=
  upholds_get fun _ => upholds_ofExcept h.fault

theorem update (h : Upkeep W I E) (object device : Nat) (f : Record → Record) :
    Upholds I E (update object device f) :=
  upholds_modify fun s hs => h.table s _ hs

theorem note (h : Upkeep W I E) (label : String) (object device : Nat) :
    Upholds I E (note label object device) :=
  upholds_bind (h.record object device) fun _ => h.log _ _

theorem setOwner (h : Upkeep W I E) {s s' : Store} (hs : Kept I s s') (object device : Nat) :
    Kept I { s with table := s.table.setOwner object device }
      { s' with table := s'.table.setOwner object device } := by
  obtain ⟨rfl, hs⟩ := hs
  exact ⟨rfl, h.table s _ hs⟩

/-- The work for an object on a device, seen twice. -/
theorem site (h : Upkeep W I E) (object device : Nat) :
    Site (.single fun _ => E) (Kept I) (fun _ => True) (fun w w' => w = w' ∧ W w) Eq object
      device := by
  refine site_of_seat
    (seat_of_parts ⟨fun _ hs _ => h.fault _ hs.2, goes_weaken (h.place object).goes fun _ _ heq =>
      ⟨heq, trivial⟩,
    fun _ => goes_weaken (h.host _).goes fun _ _ heq => heq ▸ ⟨rfl, rfl⟩, fun _ => (h.log _ _).goes,
    fun label => (h.note label object device).goes,
    goes_weaken (h.record object device).goes fun _ _ heq => heq ▸ ⟨rfl, fun _ _ => trivial⟩,
    fun _ _ => (h.update object device _).goes, fun hs => h.setOwner hs object device⟩
    (h.requireDevice device).goes (fun _ => (h.update object device _).goes)
    (fun _ bytes => goes_weaken (h.allocate device _ bytes).goes fun _ _ heq => heq ▸ ⟨rfl, rfl⟩)
    (fun buffer => (h.release device buffer).goes)) (fun _ hs _ => h.fault _ hs.2) ?_ ?_
  · rintro wait _ p buffer window - ⟨rfl, hwait⟩
    exact (h.write device buffer p window wait hwait).goes
  · rintro wait _ p buffer window blocking - ⟨rfl, hwait⟩
    exact (h.read device buffer p window wait blocking hwait).goes

section Operations

variable (h : Upkeep W I E) (object device : Nat) {wait : List EventId} (window : Option Window)

include h

theorem checkWindow (length : Nat) (window : Option Window) :
    Upholds I E (checkWindow object length window) :=
  upholds_of_goes ((h.site object 0).checkWindow length window)

theorem bufferOf (label : String) : Upholds I E (bufferOf label object device) :=
  upholds_of_goes ((h.site object device).bufferOf (fun _ hs _ => h.fault _ hs.2) label)

theorem discard (buffer : BufferId) : Upholds I E (discard buffer object device) :=
  upholds_of_goes ((h.site object device).discard buffer)

theorem ensure : Upholds I E (Store.allocate object device window) :=
  upholds_of_goes ((h.site object device).allocate window)

theorem streamIn (hwait : W wait) : Upholds I E (streamIn object device window wait) :=
  upholds_of_goes ((h.site object device).streamIn window ⟨rfl, hwait⟩)

theorem copyIn (hwait : W wait) : Upholds I E (copyIn object device window wait) :=
  upholds_of_goes ((h.site object device).copyIn window ⟨rfl, hwait⟩)

theorem streamOut (hwait : W wait) (blocking : Bool) :
    Upholds I E (streamOut object device window wait blocking) :=
  upholds_of_goes ((h.site object device).streamOut window ⟨rfl, hwait⟩ blocking)

theorem validBuffer : Upholds I E (validBuffer object device) :=
  upholds_of_goes (h.site object device).validBuffer

theorem claim : Upholds I E (claim object device) := upholds_of_goes (h.site object device).claim

end Operations

end Upkeep

end Store

end Offload
