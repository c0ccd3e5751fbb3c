import Offload.Proofs.AskedOperations
import Offload.Proofs.QueueOrder

/-!
# The lengths of objects

Commands overwrite bytes of objects and never add or remove any. So whatever is asked of a store,
with any outcome and on any sort of device, the objects stay where they are stored and as long as
they are.
-/

namespace Offload

open Offload.Action

variable {α : Type}

/-! ## Devices -/

namespace Station

variable {length : Nat → Nat}

/-- The lengths of the stored objects. -/
abbrev Measures (length : Nat → Nat) (s : Station) : Prop := Command.lengths s.objects = length

theorem upkeep_measures : Upkeep (Measures length) where
  device _ _ _ _ _ _ _ _ hs := hs
  perform _ c s hs := (c.lengths_execute s.device.memory s.objects).trans hs

end Station

/-! ## Stores -/

/-- Where the objects of a context are stored, and how long what is stored there is. -/
def Context.extents (c : Context) : List Nat × (Nat → Nat) := (c.places, Command.lengths c.objects)

/-- The constants of a context and the extents of its objects. -/
def Context.grounds (c : Context) : List Scalar × List Nat × (Nat → Nat) := (c.constants, c.extents)

namespace Store

variable {grounds : List Scalar × List Nat × (Nat → Nat)}

theorem keeps_grounds_onDevice {device : Nat} {x : DeviceAction α}
    (hx : ∀ length, Keeps (Station.Measures length) x) :
    Keeps (fun s => s.context.grounds = grounds) (inContext (Context.onDevice device x)) := by
  refine meets_inContext (P := fun c => c.grounds = grounds) (Q := fun _ c => c.grounds = grounds)
    (E := fun c => c.grounds = grounds) ?_
  refine Context.meets_onDevice (fun _ => id) fun c d hc hd => ?_
  refine meets_iff_after.2 ?_
  rintro _ rfl
  have hafter := meets_iff_after.1 (hx _) ⟨d, c.objects, c.journal⟩ rfl
  rw [← hc]
  exact congrArg (fun lengths => (c.constants, c.places, lengths)) hafter

theorem upkeep_grounds (W : List EventId → Prop) (grounds : List Scalar × List Nat × (Nat → Nat)) :
    Upkeep W (fun s => s.context.grounds = grounds) (fun s => s.context.grounds = grounds) where
  fault _ hs := hs
  noted _ _ _ hs := hs
  table _ _ hs := hs
  allocate _ place bytes := keeps_grounds_onDevice fun _ =>
    Station.upkeep_measures.allocate place bytes
  release _ buffer := keeps_grounds_onDevice fun _ => Station.upkeep_measures.release buffer
  write _ buffer place window wait _ :=
    keeps_grounds_onDevice fun _ => Station.upkeep_measures.write buffer place window wait
  read _ buffer place window wait blocking _ :=
    keeps_grounds_onDevice fun _ => Station.upkeep_measures.read buffer place window wait blocking

/-- What a store keeps whatever its devices and its table come to, its operations keep. -/
theorem Upkeep.keeps_operate {I : Store → Prop} (h : Upkeep (fun _ => True) I I) (op : Operation) :
    Keeps I (operate op) := by
  cases op with
  | allocate object device window => exact h.ensure object device window
  | copyIn object device window wait => exact h.copyIn object device window trivial
  | streamIn object device window wait =>
    exact keeps_bind (h.streamIn object device window trivial) fun _ => keeps_pure
  | streamOut object device window wait blocking =>
    exact keeps_bind (h.streamOut object device window trivial blocking) fun _ => keeps_pure
  | validBuffer object device =>
    exact keeps_bind (h.validBuffer object device) fun _ => keeps_pure
  | claim object device => exact keeps_bind (h.claim object device) fun _ => keeps_pure
  | invalidate =>
    exact keeps_bind (keeps_modify fun s hs => h.table s _ hs) fun _ => keeps_pure

theorem extents_operate (op : Operation) (s : Store) :
    ((operate op).run s).2.context.extents = s.context.extents :=
  congrArg Prod.snd
    (meets_iff_after.1 ((upkeep_grounds _ s.context.grounds).keeps_operate op) s rfl)

theorem extents_operated (ops : List Operation) (s : Store) :
    (operated ops s).context.extents = s.context.extents := by
  induction ops generalizing s with
  | nil => rfl
  | cons op others ih => exact (ih _).trans (extents_operate op s)

theorem bytesOf_of_extents {s s' : Store} (h : s'.context.extents = s.context.extents)
    (object : Nat) (window : Option Window) :
    s'.bytesOf object window = s.bytesOf object window := by
  obtain ⟨hplaces, hlengths⟩ := Prod.mk.inj h
  rw [bytesOf, bytesOf, Context.place, Context.place, hplaces]
  cases lookup .object s.context.places object with
  | error fault => rfl
  | ok place =>
    have hlength : (objectAt s'.context.objects place).length =
        (objectAt s.context.objects place).length :=
      congrFun hlengths place
    simp only [hlength]

end Store

end Offload
