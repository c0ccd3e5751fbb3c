import Offload.Machine.Pass
import Offload.Proofs.DeviceSafety
import Offload.Proofs.FaultKinds

/-!
# The table and the memories of the devices

The table of a store matches what its devices hold: a flag is set only where there is a buffer, a
recorded buffer is live with the recorded size, no buffer is recorded twice, and a device has no
buffer that is not recorded. The store's operations keep the match, also when they fail half-way,
and so do whole passes.
-/

namespace Offload

variable {f : Record → Record} {r : Record} {t : Table} {c : Context} {object device : Nat}

theorem modify_eq_self {α : Type} {l : List α} {index : Nat} {f : α → α}
    (h : ∀ a, l[index]? = some a → f a = a) : l.modify index f = l := by
  apply List.ext_getElem?
  intro i
  rw [List.getElem?_modify]
  cases hl : l[i]? with
  | none => rfl
  | some a =>
    by_cases hi : index = i
    · subst hi
      simp [h a hl]
    · simp [hi]

/-! ## Tables -/

/-- A record whose flags speak of a buffer that is there. -/
structure Record.Coherent (r : Record) : Prop where
  allocated : r.valid = true → r.allocation.isSome = true
  modified_valid : r.modified = true → r.valid = true
  window_valid : r.window.isSome = true → r.valid = true

namespace Record

theorem coherent_empty : Coherent {} := ⟨nofun, nofun, nofun⟩

theorem coherent_invalidate (r : Record) : r.invalidate.Coherent := ⟨nofun, nofun, nofun⟩

theorem Coherent.fetched (h : r.Coherent) : r.fetched.Coherent :=
  ⟨h.allocated, nofun, h.window_valid⟩

theorem coherent_sent (hr : r.allocation.isSome = true) (window : Option Window) :
    (r.sent window).Coherent :=
  ⟨fun _ => hr, nofun, fun _ => rfl⟩

theorem coherent_written (hr : r.allocation.isSome = true) : r.written.Coherent :=
  ⟨fun h => h, fun _ => hr, fun _ => hr⟩

end Record

namespace Table

/-- The record of an object on a device, if the table has one. -/
def get? (t : Table) (object device : Nat) : Option Record :=
  t.rows[object]?.bind fun row => row.records[device]?

/-- The buffer that the table records for an object on a device. -/
def allocation? (t : Table) (object device : Nat) : Option Allocation :=
  (t.get? object device).bind Record.allocation

theorem record_eq_ok : t.record object device = .ok r ↔ t.get? object device = some r := by
  rw [record, row, get?]
  cases hrow : t.rows[object]? with
  | none => simp [lookup, hrow, bind, Except.bind]
  | some row =>
    rw [lookup_eq_ok.2 hrow]
    exact lookup_eq_ok

theorem get?_update (t : Table) (object device o d : Nat) (f : Record → Record) :
    (t.update object device f).get? o d =
      if o = object ∧ d = device then (t.get? object device).map f else t.get? o d := by
  simp only [update, get?, List.getElem?_modify]
  by_cases ho : object = o
  · subst ho
    cases t.rows[object]? with
    | none => simp
    | some row =>
      by_cases hd : device = d
      · simp [hd]
      · simp [hd, Ne.symm hd]
  · simp [ho, Ne.symm ho]

@[simp] theorem get?_setOwner (t : Table) (object device o d : Nat) :
    (t.setOwner object device).get? o d = t.get? o d := by
  simp only [setOwner, get?, List.getElem?_modify]
  by_cases ho : object = o
  · cases t.rows[o]? <;> simp [ho]
  · simp [ho]

@[simp] theorem get?_invalidate (t : Table) (o d : Nat) :
    t.invalidate.get? o d = (t.get? o d).map Record.invalidate := by
  simp only [invalidate, get?, List.getElem?_map]
  cases t.rows[o]? <;> simp

theorem get?_new (objects devices o d : Nat) :
    (new objects devices).get? o d = if o < objects ∧ d < devices then some {} else none := by
  simp only [new, get?, List.getElem?_replicate]
  by_cases ho : o < objects
  · simp [ho, List.getElem?_replicate]
  · simp [ho]

theorem isSome_get?_update (t : Table) (object device o d : Nat) (f : Record → Record) :
    ((t.update object device f).get? o d).isSome = (t.get? o d).isSome := by
  rw [get?_update]
  split_ifs with hod
  · rw [hod.1, hod.2, Option.isSome_map]
  · rfl

/-- An update that leaves the buffer of its record alone leaves all of them alone. -/
theorem allocation?_update_of_eq
    (hf : ∀ r, t.get? object device = some r → (f r).allocation = r.allocation) :
    (t.update object device f).allocation? = t.allocation? := by
  funext o d
  simp only [allocation?, get?_update]
  split_ifs with hod
  · obtain ⟨rfl, rfl⟩ := hod
    cases hr : t.get? o d with
    | none => rfl
    | some r => exact hf r hr
  · rfl

theorem allocation?_update_self (t : Table) (object device : Nat) (f : Record → Record) :
    (t.update object device f).allocation? object device =
      (t.get? object device).bind fun r => (f r).allocation := by
  rw [allocation?, get?_update, if_pos ⟨rfl, rfl⟩]
  cases t.get? object device <;> rfl

theorem allocation?_update_of_ne {o d : Nat} (h : ¬(o = object ∧ d = device)) :
    (t.update object device f).allocation? o d = t.allocation? o d := by
  rw [allocation?, get?_update, if_neg h, allocation?]

end Table

/-! ## Layouts -/

/-- What a table is about: how many devices there are, the sizes of the buffers of each, the lengths
of the stored objects, and where the object of each index is stored. -/
structure Layout where
  devices : Nat
  size : Nat → BufferId → Option Nat
  length : Nat → Nat
  places : List Nat

namespace Layout

/-- The length of the object of an index. -/
def lengthOf (l : Layout) (object : Nat) : Option Nat := l.places[object]?.map l.length

/-- The layout with the size of one buffer changed. -/
def resize (l : Layout) (device : Nat) (b : BufferId) (n : Option Nat) : Layout :=
  { l with size := Function.update l.size device (Function.update (l.size device) b n) }

theorem size_resize (l : Layout) (device d : Nat) (b c : BufferId) (n : Option Nat) :
    (l.resize device b n).size d c = if d = device ∧ c = b then n else l.size d c := by
  simp only [resize, Function.update_apply]
  by_cases hd : d = device
  · subst hd
    simp [Function.update_apply]
  · simp [hd]

end Layout

/-- A table that is in step with a layout. -/
structure Table.Matches (t : Table) (l : Layout) : Prop where
  total : ∀ o d, (t.get? o d).isSome = true ↔ o < l.places.length ∧ d < l.devices
  coherent : ∀ o d r, t.get? o d = some r → r.Coherent
  live : ∀ o d a, t.allocation? o d = some a → l.size d a.buffer = some a.bytes ∧
    ∃ n, l.lengthOf o = some n ∧ a.bytes ≤ n
  apart : ∀ o o' d a a', t.allocation? o d = some a → t.allocation? o' d = some a' →
    a.buffer = a'.buffer → o = o'
  recorded : ∀ d b n, l.size d b = some n → ∃ o a, t.allocation? o d = some a ∧ a.buffer = b

namespace Table.Matches

variable {l : Layout}

theorem update_flags (h : t.Matches l)
    (hf : ∀ r, t.get? object device = some r → (f r).allocation = r.allocation ∧ (f r).Coherent) :
    (t.update object device f).Matches l := by
  have hallocation := allocation?_update_of_eq fun r hr => (hf r hr).1
  refine ⟨?_, ?_, ?_, ?_, ?_⟩
  · intro o d
    rw [isSome_get?_update]
    exact h.total o d
  · intro o d r hr
    rw [get?_update] at hr
    split_ifs at hr
    · obtain ⟨old, hold, rfl⟩ := Option.map_eq_some_iff.1 hr
      exact (hf old hold).2
    · exact h.coherent o d r hr
  · rw [hallocation]
    exact h.live
  · rw [hallocation]
    exact h.apart
  · rw [hallocation]
    exact h.recorded

theorem discard (h : t.Matches l) {a : Allocation} (ha : t.allocation? object device = some a) :
    (t.update object device fun _ => {}).Matches (l.resize device a.buffer none) := by
  have hself : (t.update object device fun _ => {}).allocation? object device = none := by
    rw [allocation?_update_self]
    cases t.get? object device <;> rfl
  -- What the new table records is recorded in the old one, and for another object or device.
  have hold : ∀ {o d a'}, (t.update object device fun _ => {}).allocation? o d = some a' →
      ¬(o = object ∧ d = device) ∧ t.allocation? o d = some a' := by
    intro o d a' ha'
    by_cases hod : o = object ∧ d = device
    · rw [hod.1, hod.2, hself] at ha'
      cases ha'
    · exact ⟨hod, allocation?_update_of_ne hod ▸ ha'⟩
  refine ⟨?_, ?_, ?_, ?_, ?_⟩
  · intro o d
    rw [isSome_get?_update]
    exact h.total o d
  · intro o d r hr
    rw [get?_update] at hr
    split_ifs at hr
    · obtain ⟨_, _, rfl⟩ := Option.map_eq_some_iff.1 hr
      exact Record.coherent_empty
    · exact h.coherent o d r hr
  · intro o d a' ha'
    obtain ⟨hod, hbefore⟩ := hold ha'
    obtain ⟨hsize, hlength⟩ := h.live o d a' hbefore
    refine ⟨?_, hlength⟩
    rw [Layout.size_resize, if_neg, hsize]
    rintro ⟨rfl, hbuffer⟩
    exact hod ⟨h.apart _ _ _ _ _ hbefore ha hbuffer, rfl⟩
  · intro o o' d a₁ a₂ h₁ h₂ hbuffer
    exact h.apart o o' d a₁ a₂ (hold h₁).2 (hold h₂).2 hbuffer
  · intro d b n hb
    rw [Layout.size_resize] at hb
    split_ifs at hb with hdb
    obtain ⟨o, a', ha', rfl⟩ := h.recorded d b n hb
    have hod : ¬(o = object ∧ d = device) := by
      rintro ⟨rfl, rfl⟩
      rw [ha] at ha'
      exact hdb ⟨rfl, congrArg Allocation.buffer (Option.some.inj ha').symm⟩
    exact ⟨o, a', (allocation?_update_of_ne hod).trans ha', rfl⟩

theorem provide (h : t.Matches l) {b : BufferId} {n length : Nat}
    (hr : t.get? object device = some r) (hnone : r.allocation = none)
    (hfree : l.size device b = none) (hlength : l.lengthOf object = some length) (hn : n ≤ length) :
    (t.update object device fun r => { r with allocation := some ⟨b, n⟩ }).Matches
      (l.resize device b (some n)) := by
  have hself : (t.update object device fun r => { r with allocation := some ⟨b, n⟩ }).allocation?
      object device = some ⟨b, n⟩ := by
    rw [allocation?_update_self, hr, Option.bind_some]
  have hother : ∀ {o d}, ¬(o = object ∧ d = device) →
      (t.update object device fun r => { r with allocation := some ⟨b, n⟩ }).allocation? o d =
        t.allocation? o d := fun hod => allocation?_update_of_ne hod
  -- The number is that of no buffer of the device, so no record of the device had it.
  have hfresh : ∀ {o a}, t.allocation? o device = some a → a.buffer ≠ b := by
    rintro o a ha rfl
    rw [(h.live o device a ha).1] at hfree
    cases hfree
  have hbefore : t.allocation? object device = none := by
    rw [allocation?, hr, Option.bind_some, hnone]
  refine ⟨?_, ?_, ?_, ?_, ?_⟩
  · intro o d
    rw [isSome_get?_update]
    exact h.total o d
  · intro o d r' hr'
    rw [get?_update] at hr'
    split_ifs at hr'
    · rw [hr] at hr'
      cases hr'
      have hc := h.coherent object device r hr
      exact ⟨fun _ => rfl, hc.modified_valid, hc.window_valid⟩
    · exact h.coherent o d r' hr'
  · intro o d a ha
    by_cases hod : o = object ∧ d = device
    · obtain ⟨rfl, rfl⟩ := hod
      rw [hself] at ha
      cases ha
      exact ⟨by rw [Layout.size_resize, if_pos ⟨rfl, rfl⟩], length, hlength, hn⟩
    · rw [hother hod] at ha
      obtain ⟨hsize, hlength⟩ := h.live o d a ha
      refine ⟨?_, hlength⟩
      rw [Layout.size_resize, if_neg, hsize]
      rintro ⟨rfl, hbuffer⟩
      exact hfresh ha hbuffer
  · intro o o' d a a' ha ha' hbuffer
    by_cases hod : o = object ∧ d = device <;> by_cases hod' : o' = object ∧ d = device
    · rw [hod.1, hod'.1]
    · obtain ⟨rfl, rfl⟩ := hod
      rw [hself] at ha
      rw [hother hod'] at ha'
      cases ha
      exact absurd hbuffer.symm (hfresh ha')
    · obtain ⟨rfl, rfl⟩ := hod'
      rw [hself] at ha'
      rw [hother hod] at ha
      cases ha'
      exact absurd hbuffer (hfresh ha)
    · rw [hother hod] at ha
      rw [hother hod'] at ha'
      exact h.apart o o' d a a' ha ha' hbuffer
  · intro d c m hc
    rw [Layout.size_resize] at hc
    split_ifs at hc with hdc
    · exact ⟨object, ⟨b, n⟩, hdc.1 ▸ hself, hdc.2.symm⟩
    · obtain ⟨o, a, ha, rfl⟩ := h.recorded d c m hc
      have hod : ¬(o = object ∧ d = device) := by
        rintro ⟨rfl, rfl⟩
        rw [hbefore] at ha
        cases ha
      exact ⟨o, a, (hother hod).trans ha, rfl⟩

theorem setOwner (h : t.Matches l) (object device : Nat) :
    (t.setOwner object device).Matches l := by
  have hget : (t.setOwner object device).get? = t.get? := by
    funext o d
    exact get?_setOwner t object device o d
  have hallocation : (t.setOwner object device).allocation? = t.allocation? := by
    funext o d
    rw [allocation?, allocation?, hget]
  exact ⟨hget ▸ h.total, hget ▸ h.coherent, hallocation ▸ h.live, hallocation ▸ h.apart,
    hallocation ▸ h.recorded⟩

theorem invalidate (h : t.Matches l) : t.invalidate.Matches l := by
  have hallocation : t.invalidate.allocation? = t.allocation? := by
    funext o d
    rw [allocation?, allocation?, get?_invalidate]
    cases t.get? o d <;> rfl
  refine ⟨?_, ?_, hallocation ▸ h.live, hallocation ▸ h.apart, hallocation ▸ h.recorded⟩
  · intro o d
    rw [get?_invalidate, Option.isSome_map]
    exact h.total o d
  · intro o d r hr
    rw [get?_invalidate] at hr
    obtain ⟨old, -, rfl⟩ := Option.map_eq_some_iff.1 hr
    exact old.coherent_invalidate

theorem new (hl : ∀ d b, l.size d b = none) : (Table.new l.places.length l.devices).Matches l := by
  have hnone : ∀ o d, (Table.new l.places.length l.devices).allocation? o d = none := by
    intro o d
    rw [allocation?, get?_new]
    split_ifs <;> rfl
  refine ⟨?_, ?_, ?_, ?_, ?_⟩
  · intro o d
    rw [get?_new]
    split_ifs with hod <;> simp [hod]
  · intro o d r hr
    rw [get?_new] at hr
    split_ifs at hr
    rw [← Option.some.inj hr]
    exact Record.coherent_empty
  · intro o d a ha
    rw [hnone] at ha
    cases ha
  · intro o o' d a a' ha
    rw [hnone] at ha
    cases ha
  · intro d b n hb
    rw [hl] at hb
    cases hb

end Table.Matches

/-! ## Contexts -/

namespace Context

def layout (c : Context) : Layout where
  devices := c.devices.length
  size d b := c.devices[d]?.bind fun device => device.memory.size? b
  length := Command.lengths c.objects
  places := c.places

theorem size_layout (c : Context) (d : Nat) (b : BufferId) :
    c.layout.size d b = c.devices[d]?.bind fun device => device.memory.size? b := rfl

/-- A context whose devices are sound, with its layout. -/
structure SoundAt (l : Layout) (c : Context) : Prop where
  layout_eq : c.layout = l
  sound : ∀ d ∈ c.devices, d.Sound l.length

variable {l : Layout} {index : Nat}

theorem SoundAt.station {d : Device} (hc : c.SoundAt l) (hd : c.devices[index]? = some d) :
    Station.SoundAt (l.size index) l.length ⟨d, c.objects, c.journal⟩ := by
  obtain ⟨rfl, hsound⟩ := hc
  refine ⟨?_, rfl, hsound d (List.mem_of_getElem? hd)⟩
  funext b
  rw [size_layout, hd, Option.bind_some]

theorem SoundAt.withStation {d : Device} {s : Station} {size : BufferId → Option Nat}
    (hc : c.SoundAt l) (hd : c.devices[index]? = some d) (hs : s.SoundAt size l.length) :
    (c.withStation index s).SoundAt { l with size := Function.update l.size index size } := by
  obtain ⟨rfl, hsound⟩ := hc
  have hlt := (List.getElem?_eq_some_iff.1 hd).1
  refine ⟨?_, ?_⟩
  · have hsize : (c.withStation index s).layout.size =
        Function.update c.layout.size index size := by
      funext d' b
      simp only [layout, Context.withStation, Function.update_apply, List.getElem?_set]
      by_cases hd' : index = d'
      · subst hd'
        simp [hlt, hs.size_eq]
      · simp [hd', Ne.symm hd']
    have hlength : (c.withStation index s).layout.length = c.layout.length := hs.lengths_eq
    have hdevices : (c.withStation index s).layout.devices = c.layout.devices := List.length_set
    rw [← hsize, ← hlength, ← hdevices]
    rfl
  · intro d' hd'
    rcases List.mem_or_eq_of_mem_set hd' with hd' | rfl
    · exact hsound d' hd'
    · exact hs.sound

theorem keeps_onDevice {α : Type} {x : DeviceAction α}
    (hx : Action.Keeps (Station.SoundAt (l.size index) l.length) x) :
    Action.Keeps (SoundAt l) (onDevice index x) := by
  refine meets_onDevice (fun _ => id) fun c d hc hd => ?_
  have hback : ∀ s, s.SoundAt (l.size index) l.length → (c.withStation index s).SoundAt l := by
    intro s hs
    have hback := hc.withStation hd hs
    rwa [Function.update_eq_self] at hback
  refine Action.meets_weaken hx ?_ (fun _ => hback) hback
  rintro s rfl
  exact hc.station hd

theorem SoundAt.log (hc : c.SoundAt l) (level : Level) (text : String) :
    (c.log level text).SoundAt l :=
  ⟨hc.layout_eq, hc.sound⟩

end Context

end Offload
