import Offload.Proofs.DeviceGuises
import Offload.Proofs.StoreAgreement

/-!
# Stores with and without retention

A device that retains call frames does to memory, to the host objects and to its log what a device
does that is the same but for the retention. Stores over such devices stay alike: their tables
differ at most in the marks that launches leave, which say that a buffer was written and where. A
mark stands only on a buffer that holds its object, so no refusal depends on it.
-/

namespace Offload

open Offload.Action

variable {α β : Type}

/-! ## Devices -/

/-- The device with call frames retained or not. -/
def Device.withRetention (d : Device) (retain : Bool) : Device :=
  { d with options := { d.options with retainCallFrames := retain } }

namespace Station

/-- The second station is the first one without retention, with a journal of its own. -/
def Twin (s t : Station) : Prop :=
  ∃ journal, t = ⟨s.device.withRetention false, s.objects, journal⟩

/-- The guise of a device without retention. -/
def unretained : Guise where
  options o := { o with retainCallFrames := false }
  counters := id
  deferred_eq _ := rfl
  counted _ _ _ := rfl

theorem respects_twin {x : DeviceAction α} (h : Respects (Image unretained) x) :
    Respects Twin x :=
  h

end Station

/-! ## Contexts -/

/-- The context with call frames retained on every device, or on none. -/
def Context.withRetention (c : Context) (retain : Bool) : Context :=
  { c with devices := c.devices.map fun d => d.withRetention retain }

namespace Context

/-- The second context is the first one without retention, with a journal of its own. -/
def Twin (c c' : Context) : Prop := ∃ journal, c' = { c.withRetention false with journal }

theorem agreement_twin : Agreement Twin Station.Twin where
  length_eq := by
    rintro c _ ⟨journal, rfl⟩
    exact List.length_map _
  objects := by
    rintro c _ ⟨journal, rfl⟩
    rfl
  places := by
    rintro c _ ⟨journal, rfl⟩
    rfl
  journals := by
    rintro c _ journal journal' ⟨_, rfl⟩
    exact ⟨journal', rfl⟩
  station := by
    rintro c _ index d d' ⟨journal, rfl⟩ hd hd'
    have hmap : (c.withRetention false).devices[index]? = some (d.withRetention false) := by
      simp [withRetention, hd]
    cases hmap.symm.trans hd'
    exact ⟨journal, rfl⟩
  withStation := by
    rintro c _ s _ index ⟨journal, rfl⟩ ⟨journal', rfl⟩
    refine ⟨journal', ?_⟩
    simp only [Context.withStation, withRetention, List.map_set]

end Context

/-! ## Tables -/

namespace Table

/-- The records without marks. The owners are left out. -/
def unmarked (t : Table) : List (List Record) := t.rows.map fun row =>
      row.records.map Record.unmarked

/-- Two tables that differ in marks and owners only. -/
abbrev Twin (t t' : Table) : Prop := t'.unmarked = t.unmarked

theorem Twin.alike_record {t t' : Table} (h : Twin t t') (object device : Nat) :
    Alike (fun r r' => r'.unmarked = r.unmarked) (t.record object device)
      (t'.record object device) :=
  (alike_lookup .object h object).bind fun _ _ _ _ hrow => alike_lookup .device hrow device

theorem unmarked_update {f : Record → Record} (hf : Record.Blind f) (t : Table)
    (object device : Nat) :
    (t.update object device f).unmarked =
      t.unmarked.modify object fun records => records.modify device fun r => (f r).unmarked :=
  map_modify_of_comm (g := fun row : Row => row.records.map Record.unmarked) (fun row =>
    map_modify_of_comm (l := row.records) (f := f) (fun r => (hf r).symm) device) object

theorem Twin.update {t t' : Table} (h : Twin t t') {f : Record → Record} (hf : Record.Blind f)
    (object device : Nat) : Twin (t.update object device f) (t'.update object device f) := by
  rw [Twin, unmarked_update hf, unmarked_update hf, h]

@[simp] theorem unmarked_setOwner (t : Table) (object device : Nat) :
    (t.setOwner object device).unmarked = t.unmarked := by
  have hmap := map_modify_of_comm (l := t.rows) (f := fun row => { row with owner := some device })
    (g := fun row : Row => row.records.map Record.unmarked) (h := id) (fun _ => rfl) object
  rw [List.modify_id] at hmap
  exact hmap

theorem unmarked_invalidate (t : Table) :
    t.invalidate.unmarked = t.unmarked.map fun records => records.map fun r =>
      r.invalidate.unmarked := by
  simp only [unmarked, invalidate, List.map_map]
  refine List.map_congr_left fun row _ => ?_
  simp only [Function.comp_apply, List.map_map]
  exact List.map_congr_left fun r _ => (Record.blind_invalidate r).symm

theorem Twin.invalidate {t t' : Table} (h : Twin t t') : Twin t.invalidate t'.invalidate := by
  rw [Twin, unmarked_invalidate, unmarked_invalidate, h]

/-- A mark on a buffer that holds its object is all that a launch leaves. -/
theorem unmarked_written {t : Table} {object device : Nat} {r : Record}
    (hget : t.get? object device = some r) (hvalid : (r.valid && r.allocation.isSome) = true) :
    (t.update object device Record.written).unmarked = t.unmarked := by
  rw [unmarked_update Record.blind_written]
  refine modify_eq_self fun records hrecords => modify_eq_self fun r' hr' => ?_
  rw [unmarked, List.getElem?_map] at hrecords
  obtain ⟨row, hrow, rfl⟩ := Option.map_eq_some_iff.1 hrecords
  rw [List.getElem?_map] at hr'
  obtain ⟨r'', hr'', rfl⟩ := Option.map_eq_some_iff.1 hr'
  obtain rfl : r'' = r := by
    rw [get?, hrow] at hget
    exact Option.some.inj (hr''.symm.trans hget)
  rw [Record.blind_written, Record.unmarked_written hvalid]

end Table

/-! ## Stores -/

namespace Store

/-- The second store is the first one without retention, up to marks and owners. -/
structure Twin (s s' : Store) : Prop where
  context : s.context.Twin s'.context
  table : s.table.Twin s'.table

theorem agreement_twin : Agreement Twin Context.Twin Station.Twin Eq Eq where
  toAgreement := Context.agreement_twin
  context h := h.context
  withContext h hc := ⟨hc, h.table⟩
  record object device h := h.table.alike_record object device
  update object device hf := respects_modify fun _ _ h =>
    ⟨h.context, h.table.update hf object device⟩
  setOwner object device h := by
    refine ⟨h.context, ?_⟩
    rw [Table.Twin, Table.unmarked_setOwner, Table.unmarked_setOwner]
    exact h.table
  allocateBuffer place bytes := by
    refine goes_weaken (Station.respects_twin (Station.respects_image_allocate place bytes)) ?_
    rintro a _ rfl
    exact ⟨rfl, rfl⟩
  release buffer := Station.respects_twin (Station.respects_image_release buffer)
  write {wait _} buffer place window hwait :=
    hwait ▸ Station.respects_twin (Station.respects_image_write buffer place window wait)
  read {wait _} buffer place window blocking hwait :=
    hwait ▸ Station.respects_twin (Station.respects_image_read buffer place window wait blocking)

/-- An object whose buffer holds it may be claimed in the second store alone. -/
theorem Twin.claim {s s' : Store} (h : s.Twin s') {object device : Nat} {r : Record}
    (hr : s'.table.get? object device = some r) (hholds : (r.valid && r.allocation.isSome) = true)
    (text : String) :
    s.Twin ⟨s'.context.log .trace text, (s'.table.update object device Record.written).setOwner
      object device⟩ := by
  constructor
  · obtain ⟨journal, hcontext⟩ := h.context
    rw [hcontext]
    exact ⟨_, rfl⟩
  · rw [Table.Twin, Table.unmarked_setOwner, Table.unmarked_written hr hholds]
    exact h.table

end Store

end Offload
