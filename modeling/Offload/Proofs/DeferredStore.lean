import Offload.Proofs.DeferredDevice
import Offload.Proofs.StoreAgreement

/-!
# Stores over a deferred device

Two stores over one device each, of which one device runs a command when it is submitted and the
other keeps it in its queue. What the operations of the deferred store do follows what those of the
eager one do: they give the same values and keep the same table, and every buffer that the table
records was made before the next one, so a buffer that is made later is not one that a queued
command names.
-/

namespace Offload

open Offload.Action

/-! ## Contexts -/

namespace Context

/-- Two contexts of one device each that differ in nothing but their stations, which are related. -/
def Single (P : Station → Station → Prop) (e c : Context) : Prop :=
  ∃ d' objects journal d, c.devices = [d] ∧ P ⟨d', objects, journal⟩ ⟨d, c.objects, c.journal⟩ ∧
    e = { c with devices := [d'], objects, journal }

variable {α β : Type} {P Q : Station → Station → Prop} {e c : Context}

theorem Single.mono (h : Single P e c) (hPQ : ∀ s t, P s t → Q s t) : Single Q e c := by
  obtain ⟨d', objects, journal, d, hd, hP, rfl⟩ := h
  exact ⟨d', objects, journal, d, hd, hPQ _ _ hP, rfl⟩

theorem Single.length_devices (h : Single P e c) : c.devices.length = e.devices.length := by
  obtain ⟨d', objects, journal, d, hd, -, rfl⟩ := h
  rw [hd]
  rfl

theorem Single.devices_or_none (h : Single P e c) (index : Nat) :
    (∃ d' d, e.devices[index]? = some d' ∧ c.devices[index]? = some d ∧
        P ⟨d', e.objects, e.journal⟩ ⟨d, c.objects, c.journal⟩) ∨
      e.devices[index]? = none ∧ c.devices[index]? = none := by
  obtain ⟨d', objects, journal, d, hd, hP, rfl⟩ := h
  cases index with
  | zero => exact .inl ⟨d', d, rfl, by rw [hd]; rfl, hP⟩
  | succ index => exact .inr ⟨rfl, by rw [hd]; rfl⟩

theorem Single.alike_device (h : Single P e c) (index : Nat) :
    Alike (fun _ _ => True) (e.device index) (c.device index) := by
  rw [Context.device, Context.device, lookup, lookup]
  rcases h.devices_or_none index with ⟨d', d, hd', hd, -⟩ | ⟨hd', hd⟩
  · rw [hd', hd]
    trivial
  · rw [hd', hd, h.length_devices]
    rfl

theorem Single.withStation (h : Single P e c) {index : Nat} {d : Device}
    (hd : e.devices[index]? = some d) {s t : Station} (hst : Q s t) :
    Single Q (e.withStation index s) (c.withStation index t) := by
  obtain ⟨d', objects, journal, d, hone, -, rfl⟩ := h
  cases index with
  | zero =>
    exact ⟨s.device, s.objects, s.journal, t.device, by rw [Context.withStation, hone]; rfl, hst,
      rfl⟩
  | succ index => cases hd

theorem couples_single {index : Nat} {x : DeviceAction α} {y : DeviceAction β} {V : α → β → Prop}
    {S : α → β → Station → Station → Prop}
    (h : Couples .lenient P x y fun a b s t => V a b ∧ S a b s t) :
    Couples .lenient (Single P) (onDevice index x) (onDevice index y) fun a b e c => V a b ∧
      Single (S a b) e c :=
  couples_onDevice h (fun hc => hc.devices_or_none index)
    (fun hc hd hab => ⟨hab.1, hc.withStation hd hab.2⟩) False.elim

end Context

/-! ## Tables -/

/-- The buffers that a table records have numbers below `n`. -/
def Table.Below (n : BufferId) (t : Table) : Prop :=
  ∀ o d a, t.allocation? o d = some a → a.buffer < n

namespace Table.Below

variable {n k : BufferId} {t : Table} {object device : Nat}

theorem mono (h : t.Below n) (hnk : n ≤ k) : t.Below k :=
  fun o d a ha => Nat.lt_of_lt_of_le (h o d a ha) hnk

theorem update (h : t.Below n) {f : Record → Record}
    (hf : ∀ r a, t.get? object device = some r → (f r).allocation = some a → a.buffer < n) :
    (t.update object device f).Below n := by
  intro o d a ha
  by_cases hod : o = object ∧ d = device
  · obtain ⟨rfl, rfl⟩ := hod
    rw [allocation?_update_self] at ha
    obtain ⟨r, hr, ha⟩ := Option.bind_eq_some_iff.1 ha
    exact hf r a hr ha
  · rw [allocation?_update_of_ne hod] at ha
    exact h o d a ha

theorem setOwner (h : t.Below n) (object device : Nat) : (t.setOwner object device).Below n := by
  intro o d a ha
  rw [allocation?, get?_setOwner] at ha
  exact h o d a ha

theorem invalidate (h : t.Below n) : t.invalidate.Below n := by
  intro o d a ha
  rw [allocation?, get?_invalidate] at ha
  obtain ⟨r, hr, ha⟩ := Option.bind_eq_some_iff.1 ha
  obtain ⟨old, hold, rfl⟩ := Option.map_eq_some_iff.1 hr
  exact h o d a (by rw [allocation?, hold]; exact ha)

theorem new (objects devices : Nat) : (Table.new objects devices).Below n := by
  intro o d a ha
  rw [allocation?, get?_new] at ha
  split_ifs at ha
  · cases ha
  · cases ha

end Table.Below

/-! ## Stores -/

namespace Store

/-- Two stores over one device each with the same table, whose buffers have numbers below `n`. -/
def Single (n : BufferId) (P : Station → Station → Prop) (e s : Store) : Prop :=
  ∃ context, Context.Single P context s.context ∧ s.table.Below n ∧ e = { s with context }

/-- The store `s` is behind the store `e`, and the next buffer is `n`. -/
abbrev Behind (n : BufferId) : Store → Store → Prop := Single n (Station.Behind n)

/-- The store `s` is behind the store `e`, and the next buffer is `n` or a later one. -/
def BehindFrom (n : BufferId) (e s : Store) : Prop := ∃ k, n ≤ k ∧ Behind k e s

variable {α β : Type} {n : BufferId} {P Q : Station → Station → Prop} {V : α → β → Prop}

theorem Single.mono {k : BufferId} {e s : Store} (h : Single n P e s) (hnk : n ≤ k)
    (hPQ : ∀ e s, P e s → Q e s) : Single k Q e s := by
  obtain ⟨context, hcontext, htable, rfl⟩ := h
  exact ⟨context, hcontext.mono hPQ, htable.mono hnk, rfl⟩

theorem Single.invalidate {e s : Store} (h : Single n P e s) :
    Single n P e.invalidate s.invalidate := by
  obtain ⟨context, hcontext, htable, rfl⟩ := h
  exact ⟨context, hcontext, htable.invalidate, rfl⟩

/-- What is done from some later buffer on. -/
theorem leads_behindFrom {x : StoreAction α} {y : StoreAction β}
    (h : ∀ k, Couples .lenient (Behind k) x y fun a b e s => V a b ∧ BehindFrom k e s) :
    Leads (BehindFrom n) x y V := by
  rintro e s ⟨k, hnk, hes⟩
  refine couples_weaken (h k) (fun _ _ => id) ?_ e s hes
  rintro a b e' s' ⟨hab, l, hkl, hes'⟩
  exact ⟨hab, l, Nat.le_trans hnk hkl, hes'⟩

theorem leads_from {x : StoreAction α} {y : StoreAction β} (h : ∀ k, Leads (Behind k) x y V) :
    Leads (BehindFrom n) x y V :=
  leads_behindFrom fun k => couples_weaken (h k) (fun _ _ => id) fun _ _ _ _ hes =>
    ⟨hes.1, k, Nat.le_refl k, hes.2⟩

theorem couples_onDevice {index : Nat} {x : DeviceAction α} {y : DeviceAction β}
    {S : α → β → Station → Station → Prop}
    (h : Couples .lenient P x y fun a b s t => V a b ∧ S a b s t) :
    Couples .lenient (Single n P) (inContext (Context.onDevice index x))
      (inContext (Context.onDevice index y)) fun a b e s => V a b ∧ Single n (S a b) e s := by
  refine couples_focus (Context.couples_single h) ?_ ?_ False.elim
  · rintro _ s ⟨context, hcontext, -, rfl⟩
    exact hcontext
  · rintro a b _ s e' c' ⟨context, -, htable, rfl⟩ hab
    exact ⟨hab.1, e', hab.2, htable, rfl⟩

theorem tracks_log (hP : Station.Steady P) (level : Level) (text : String) :
    Tracks (Single n P) (log level text) := by
  refine goes_modify ?_
  rintro _ s ⟨_, ⟨d', objects, journal, d, hd, hes, rfl⟩, htable, rfl⟩
  exact ⟨_, ⟨d', objects, journal.add level text, d, hd, hP.journal hes fun j =>
    j.add level text, rfl⟩, htable, rfl⟩

theorem tracks_requireDevice (index : Nat) : Tracks (Single n P) (requireDevice index) := by
  refine goes_get ?_
  rintro _ s ⟨context, hcontext, htable, rfl⟩
  exact goes_bind (goes_ofExcept (hcontext.alike_device index) fun _ _ _ _ _ => False.elim)
    fun _ _ _ => goes_pure rfl

theorem tracks_update {object device : Nat} {f : Record → Record}
    (hf : ∀ t : Table, t.Below n → (t.update object device f).Below n) :
    Tracks (Single n P) (update object device f) := by
  refine goes_modify ?_
  rintro _ s ⟨context, hcontext, htable, rfl⟩
  exact ⟨context, hcontext, hf s.table htable, rfl⟩

/-- What is used of an object, its label and its length, is the same on both sides, and the buffer
of a record is below `n`. -/
theorem sight (n : BufferId) (object device : Nat) :
    Sight .lenient (Behind n) (fun _ => True) (· < n) object device := by
  have hlook : Leads (Behind n) (record object device) (record object device)
      fun r r' => r = r' ∧ ∀ a, r.allocation = some a → a.buffer < n := by
    refine goes_get ?_
    rintro _ s ⟨context, hcontext, htable, rfl⟩
    refine leads_ofExcept fun r hr => ⟨r, hr, rfl, fun a ha => htable object device a ?_⟩
    rw [Table.allocation?, Table.record_eq_ok.1 hr]
    exact ha
  refine ⟨fun _ _ => False.elim, goes_get ?_, fun _ =>
    goes_get ?_, tracks_log (Station.steady_behind n) _, ?_, goes_weaken hlook ?_, ?_, ?_⟩
  · rintro _ s ⟨_, ⟨d', objects, journal, d, hd, hP, rfl⟩, htable, rfl⟩
    exact leads_ofExcept fun p hp => ⟨p, hp, rfl, trivial⟩
  · rintro _ s ⟨_, ⟨d', objects, journal, d, hd, ⟨b, hlags, hb⟩, rfl⟩, htable, rfl⟩
    cases hb
    have hobject := Bench.objectAt_replay hlags.replays
    exact goes_pure ⟨(hobject _).1.symm, (hobject _).2.symm⟩
  · refine fun label => goes_bind hlook ?_
    rintro r _ ⟨rfl, -⟩
    exact tracks_log (Station.steady_behind n) _ _
  · rintro r _ ⟨rfl, hr⟩
    exact ⟨rfl, hr⟩
  · refine fun {f} _ hspares => tracks_update fun t ht => ht.update fun r a hr ha => ?_
    rcases hspares r with hkept | hnone
    · exact ht object device a (by rw [Table.allocation?, hr]; exact hkept.symm.trans ha)
    · cases hnone.symm.trans ha
  · rintro _ s ⟨context, hcontext, htable, rfl⟩
    exact ⟨context, hcontext, htable.setOwner object device, rfl⟩

/-- A new buffer is the next one, and it is recorded. -/
theorem couples_provide (label : String) (place object device bytes : Nat) :
    Follows (Behind n) (provide label place object device bytes)
      (provide label place object device bytes) fun _ => BehindFrom n := by
  refine couples_bind (couples_onDevice (couples_weaken (Station.follows_allocate place bytes)
    (fun _ _ => id) (Q := fun a b e s => (a = b ∧ a.1 = n) ∧ Station.Behind (n + 1) e s)
    fun _ _ _ _ hes => ⟨⟨hes.1, hes.2.2⟩, hes.2.1⟩)) ?_
  rintro ⟨buffer, event⟩ _
  refine couples_of_fact ?_
  rintro ⟨rfl, rfl⟩
  -- The new buffer is `n`, so from here on the numbers in use are those below `n + 1`.
  have hrecord : Tracks (Behind (buffer + 1)) (do
      update object device fun r => { r with allocation := some ⟨buffer, bytes⟩ }
      note label object device
      return event : StoreAction EventId) := by
    refine goes_then (tracks_update fun t ht => ht.update fun r a _ ha => ?_) fun _ => ?_
    · cases ha
      exact Nat.lt_succ_self buffer
    · exact goes_then ((sight _ object device).note label) fun _ => goes_pure rfl
  exact couples_weaken hrecord (fun _ _ hes => hes.mono (Nat.le_succ buffer) fun _ _ => id)
    fun _ _ _ _ hes => ⟨hes.1, buffer + 1, Nat.le_succ buffer, hes.2⟩

theorem site (n : BufferId) (object device : Nat) :
    Site .lenient (BehindFrom n) (fun _ => True) Eq Eq object device where
  fault _ _ := False.elim
  place := leads_from fun k => (sight k object device).place
  host hp := leads_from fun k => (sight k object device).host hp
  log text := leads_from fun k => (sight k object device).log text
  note label := leads_from fun k => (sight k object device).note label
  look := leads_from fun k => goes_weaken (sight k object device).look fun _ _ hr =>
    ⟨hr.1, fun _ _ => trivial⟩
  update hf hspares := leads_from fun k => (sight k object device).update hf hspares
  setOwner hs := by
    obtain ⟨k, hnk, hes⟩ := hs
    exact ⟨k, hnk, (sight k object device).setOwner hes⟩
  requireDevice := leads_from fun _ => tracks_requireDevice device
  provide _ label bytes := leads_behindFrom fun _ => couples_provide label _ object device bytes
  release buffer := leads_from fun _ => couples_onDevice (Station.tracks_release buffer)
  write label window _ hwait := leads_from fun k => by
    obtain rfl := hwait
    refine goes_bind ((sight k object device).bufferOf (fun _ _ => False.elim) label) ?_
    rintro b _ ⟨rfl, hb⟩
    exact couples_onDevice (Station.tracks_write hb _ window _)
  read label window blocking _ hwait := leads_from fun k => by
    obtain rfl := hwait
    refine goes_bind ((sight k object device).bufferOf (fun _ _ => False.elim) label) ?_
    rintro b _ ⟨rfl, hb⟩
    exact couples_onDevice (Station.tracks_read hb _ window _ blocking)

end Store

end Offload
