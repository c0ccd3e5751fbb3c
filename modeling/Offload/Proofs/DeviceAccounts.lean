import Offload.Proofs.DeferredPass
import Offload.Proofs.MachineMoves

/-!
# The account of a device

An operation that succeeds makes only moves in which commands do their work. So an event that waited
before it, or was issued by it, waits after it or is complete, and no other event has changed.
Waiting for a marker that was put behind all commands of a device leaves nothing that waits.
-/

namespace Offload

open Offload.Action

open EventStatus (Succeeded Ended)

variable {W : List EventId → Prop} {F : EventStatus → Prop}

namespace EventLog

theorem get?_add (l : EventLog) (r : EventRecord) (id : Nat) :
    (l.add r).get? id = if id = l.size then some r else l.get? id := by
  rw [get?_eq, get?_eq, records_add, List.getElem?_append, length_records]
  rcases Nat.lt_trichotomy id l.size with hlt | heq | hgt
  · simp [hlt, Nat.ne_of_lt hlt]
  · simp [heq]
  · have hout : ¬id < l.size := by omega
    have hsub : id - l.size = (id - l.size - 1) + 1 := by omega
    have hnone : l.records[id]? = none := by
      rw [List.getElem?_eq_none]
      rw [length_records]
      omega
    rw [if_neg hout, if_neg (Nat.ne_of_gt hgt), hsub, hnone]
    rfl

theorem get?_setStatus (l : EventLog) (id : EventId) (status : EventStatus) (other : EventId) :
    (l.setStatus id status).get? other =
      (l.get? other).map fun r => if id = other then { r with status } else r := by
  rw [get?_eq, get?_eq, records_setStatus, List.getElem?_modify]
  by_cases hother : id = other
  · simp [hother]
  · simp [hother]

theorem get?_add_setStatus (l : EventLog) (r : EventRecord) (status : EventStatus) (id : Nat) :
    ((l.add r).setStatus l.size status).get? id =
      if id = l.size then some { r with status } else l.get? id := by
  rw [get?_setStatus, get?_add]
  by_cases hid : id = l.size
  · simp [hid]
  · have hne : l.size ≠ id := fun h => hid h.symm
    simp [hid, hne]

theorem exists_get? {l : EventLog} {id : Nat} (hid : id < l.size) : ∃ r, l.get? id = some r := by
  rw [get?_eq]
  rw [← length_records] at hid
  exact ⟨l.records[id], List.getElem?_eq_getElem hid⟩

end EventLog

namespace Device

variable {d d' : Device}

/-- A device as its operations leave it: what waits is in the log, and an eager device has nothing
that waits. -/
structure Orderly (d : Device) : Prop where
  logged : ∀ p ∈ d.queue, p.event < d.log.size
  eager : d.options.deferred = false → d.queue = []

/-- The command of an event was run between two times of a device: it waited or was yet to be
issued, and now it does not wait. -/
def Ran (d d' : Device) (id : EventId) : Prop :=
  id < d'.log.size ∧ (d.log.size ≤ id ∨ d.isQueued id = true) ∧ d'.isQueued id = false

/-- What the passing from `d` to `d'` did to the events: each that waited or was issued waits or is
complete, and all others are as they were. -/
structure Accounted (d d' : Device) : Prop where
  settled : ∀ id, id < d'.log.size → d.log.size ≤ id ∨ d.isQueued id = true →
    d'.isQueued id = true ∨ (d'.log.get? id).map EventRecord.status = some .complete
  kept : ∀ id, id < d.log.size → d.isQueued id = false →
    d'.isQueued id = false ∧ d'.log.get? id = d.log.get? id

theorem Move.orderly (h : d.Move W F d') (hd : d.Orderly) : d'.Orderly := by
  cases h with
  | aside hlog hqueue hoptions =>
    refine ⟨?_, ?_⟩
    · rw [hqueue, hlog]
      exact hd.logged
    · rw [hqueue, hoptions]
      exact hd.eager
  | allocated label =>
    refine ⟨fun p hp => ?_, hd.eager⟩
    simp only [record, EventLog.size_add]
    exact Nat.lt_succ_of_lt (hd.logged p hp)
  | queued kind label wait c hdeferred =>
    refine ⟨fun p hp => ?_, fun heager => ?_⟩
    · simp only [record, EventLog.size_add]
      rcases List.mem_append.1 hp with hp | hp
      · exact Nat.lt_succ_of_lt (hd.logged p hp)
      · rw [List.mem_singleton.1 hp]
        exact Nat.lt_succ_self _
    · rw [show d.options.deferred = false from heager] at hdeferred
      cases hdeferred
  | ran kind label wait status =>
    refine ⟨fun p hp => ?_, hd.eager⟩
    simp only [record, setStatus, EventLog.size_setStatus, EventLog.size_add]
    exact Nat.lt_succ_of_lt (hd.logged p hp)
  | taken p rest status hqueue =>
    refine ⟨fun q hq => ?_, fun heager => ?_⟩
    · simp only [setStatus, EventLog.size_setStatus]
      exact hd.logged q (hqueue ▸ List.mem_cons_of_mem p hq)
    · have hempty := hd.eager heager
      rw [hqueue] at hempty
      cases hempty

theorem Moves.orderly (h : d.Moves W F d') (hd : d.Orderly) : d'.Orderly := by
  induction h with
  | refl => exact hd
  | tail _ hmove ih => exact hmove.orderly ih

theorem Moves.options_eq (h : d.Moves W F d') : d'.options = d.options := by
  induction h with
  | refl => rfl
  | tail _ hmove ih =>
    rw [← ih]
    cases hmove with
    | aside _ _ hoptions => exact hoptions
    | allocated | queued | ran | taken => rfl

/-- What a move in which no command fails does to an event: nothing, or it is issued or runs now. -/
theorem Move.event (h : d.Move W Succeeded d') {id : EventId} (hid : id < d'.log.size) :
    (id < d.log.size ∧ d'.isQueued id = d.isQueued id ∧ d'.log.get? id = d.log.get? id) ∨
      (d.log.size ≤ id ∨ d.isQueued id = true) ∧
        (d'.isQueued id = true ∨ (d'.log.get? id).map EventRecord.status = some .complete) := by
  -- An event that is issued is complete at once, or it waits.
  have hadded : ∀ {d' : Device} {r : EventRecord}, d'.queue = d.queue → r.status = .complete →
      d'.log.get? id = (if id = d.log.size then some r else d.log.get? id) → id < d.log.size + 1 →
      (id < d.log.size ∧ d'.isQueued id = d.isQueued id ∧ d'.log.get? id = d.log.get? id) ∨
        (d.log.size ≤ id ∨ d.isQueued id = true) ∧
          (d'.isQueued id = true ∨ (d'.log.get? id).map EventRecord.status = some .complete) := by
    intro d' r hqueue hstatus hget hid
    rw [isQueued, isQueued, hqueue, hget]
    by_cases hnew : id = d.log.size
    · exact .inr ⟨.inl hnew.ge, .inr (by rw [if_pos hnew, Option.map_some, hstatus])⟩
    · exact .inl ⟨Nat.lt_of_le_of_ne (Nat.lt_succ_iff.1 hid) hnew, rfl, if_neg hnew⟩
  cases h with
  | aside hlog hqueue => exact .inl ⟨hlog ▸ hid, by rw [isQueued, isQueued, hqueue], by rw [hlog]⟩
  | allocated label => exact hadded rfl rfl (EventLog.get?_add ..) hid
  | ran kind label wait status _ _ _ hstatus =>
    obtain rfl : status = .complete := hstatus
    exact hadded rfl rfl (EventLog.get?_add_setStatus ..) (by simpa [record, setStatus] using hid)
  | queued kind label wait c =>
    simp only [record, EventLog.size_add] at hid
    simp only [record, isQueued, List.any_append, EventLog.get?_add]
    by_cases hnew : id = d.log.size
    · exact .inr ⟨.inl hnew.ge, .inl (by simp [hnew])⟩
    · exact .inl ⟨Nat.lt_of_le_of_ne (Nat.lt_succ_iff.1 hid) hnew, by simp [Ne.symm hnew],
        if_neg hnew⟩
  | taken p rest status hqueue hstatus =>
    obtain rfl : status = .complete := hstatus
    simp only [setStatus, EventLog.size_setStatus] at hid
    obtain ⟨r, hr⟩ := EventLog.exists_get? hid
    simp only [setStatus, isQueued, hqueue, List.any_cons, EventLog.get?_setStatus, hr]
    by_cases htaken : p.event = id
    · exact .inr ⟨.inr (by simp [htaken]), .inr (by simp [htaken])⟩
    · exact .inl ⟨hid, by simp [htaken], by simp [htaken]⟩

theorem Moves.accounted (h : d.Moves W Succeeded d') : d.Accounted d' := by
  induction h with
  | refl =>
    refine ⟨fun id hid hsince => .inl (hsince.resolve_left (Nat.not_le.2 hid)), ?_⟩
    exact fun id _ hqueued => ⟨hqueued, rfl⟩
  | @tail d₁ d₂ hmoves hmove ih =>
    have hle := Moves.size_le hmoves
    have hle' : d₁.log.size ≤ d₂.log.size := Moves.size_le (.single hmove)
    refine ⟨fun id hid hsince => ?_, fun id hid hold => ?_⟩
    · obtain ⟨hlt, hqueued, hrecord⟩ | ⟨-, hgood⟩ := hmove.event hid
      · rw [hqueued, hrecord]
        exact ih.settled id hlt hsince
      · exact hgood
    · obtain ⟨hfree, hrecord⟩ := ih.kept id hid hold
      obtain ⟨-, hqueued, hsame⟩ | ⟨hnew | hqueued, -⟩ := hmove.event (by omega : id < d₂.log.size)
      · exact ⟨hqueued.trans hfree, hsame.trans hrecord⟩
      · omega
      · cases hfree.symm.trans hqueued

end Device

/-! ## Waiting for the devices -/

namespace Station

/-- What is submitted is the newest command of the queue, if there is a queue at all. -/
theorem meets_submit {kind : EventKind} (label : String) (wait : List EventId) (c : Command)
    (hkind : kind ≠ .allocate) :
    Meets (fun s => s.device.Orderly) (submit kind label wait c)
      (fun event s => s.device.queue = [] ∨ s.Newest event) (fun _ => True) := by
  intro s hs
  cases hdeferred : s.device.options.deferred with
  | true =>
    rw [run_submit_deferred kind label wait c hdeferred]
    refine .inr ⟨s.device.queue, ⟨s.device.log.size, c⟩, rfl, rfl, ?_⟩
    exact fun q hq => Nat.ne_of_lt (hs.logged q hq)
  | false =>
    have hadvances : Advances (fun _ => True) (submit kind label wait c) :=
      advances_submit label c hkind trivial
    have hmoves := hadvances.moves s
    have hqueue := (Device.Moves.orderly hmoves hs).eager
      (by rw [Device.Moves.options_eq hmoves, hdeferred])
    revert hqueue
    rcases (submit kind label wait c).run s with ⟨r, t⟩
    cases r with
    | error fault => exact fun _ => trivial
    | ok event => exact .inl

theorem meets_marker (wait : List EventId) :
    Meets (fun s => s.device.Orderly) (marker wait)
      (fun event s => s.device.queue = [] ∨ s.Newest event) (fun _ => True) :=
  meets_bind (Q := fun _ s => s.device.Orderly)
    (meets_modify fun _ hs => ⟨hs.logged, hs.eager⟩) fun _ =>
    meets_submit "marker" wait .marker (by decide)

/-- Waiting for the newest command empties the queue. -/
theorem meets_resolve (event : EventId) :
    Meets (fun s => s.device.queue = [] ∨ s.Newest event) (resolve event)
      (fun _ s => s.device.queue = []) (fun _ => True) := by
  have hinspect : Keeps (fun s => s.device.queue = []) (inspect event) := keeps_inspect event
  refine meets_get fun s hs => ?_
  split
  · rename_i hqueued
    have hdrain : Meets (· = s) (drain (some event)) (fun _ s => s.device.queue = [])
        (fun s => s.device.queue = []) := by
      refine meets_iff_after.2 fun t ht => ?_
      subst ht
      rcases hs with hempty | ⟨queue, p, hqueue, rfl, hne⟩
      · simp [Device.isQueued, hempty] at hqueued
      · rw [snd_drain, hqueue, runThrough_newest hne]
        exact queue_runThrough_none _ _
    refine meets_then hdrain (fun _ _ => trivial) fun _ => ?_
    exact meets_imp hinspect (fun _ _ => id) fun _ _ => trivial
  · rename_i hqueued
    refine meets_weaken hinspect (fun t ht => ?_) (fun _ _ => id) fun _ _ => trivial
    subst ht
    rcases hs with hempty | ⟨queue, p, hqueue, rfl, -⟩
    · exact hempty
    · simp [Device.isQueued, hqueue] at hqueued

theorem meets_flush :
    Meets (fun _ => True) flush (fun _ s => s.device.queue = []) (fun _ => True) := by
  have hdrain : Meets (fun _ => True) (drain none) (fun _ s => s.device.queue = [])
      (fun s => s.device.queue = []) := by
    refine meets_iff_after.2 fun s _ => ?_
    rw [snd_drain]
    exact queue_runThrough_none _ _
  refine meets_bind (Q := fun _ _ => True) (meets_modify fun _ _ => trivial) fun _ => ?_
  exact meets_imp hdrain (fun _ _ => id) fun _ _ => trivial

end Station

namespace Context

theorem Moves.orderly {c c' : Context} (h : c.Moves W F c') (hc : ∀ d ∈ c.devices, d.Orderly) :
    ∀ d ∈ c'.devices, d.Orderly := by
  intro d' hd'
  obtain ⟨index, hd'⟩ := List.mem_iff_getElem?.1 hd'
  have hlt : index < c.devices.length := by
    rw [← h.length_eq]
    exact (List.getElem?_eq_some_iff.1 hd').1
  have hd := List.getElem?_eq_getElem hlt
  exact Device.Moves.orderly (h.device hd hd') (hc _ (List.mem_of_getElem? hd))

theorem meets_device {α : Type} {index : Nat} {x : DeviceAction α} {A : Device → Prop}
    {B : α → Device → Prop}
    (hx : Meets (fun s => A s.device) x (fun a s => B a s.device) (fun _ => True)) :
    Meets (fun c => ∀ d, c.devices[index]? = some d → A d) (onDevice index x)
      (fun a c => ∀ d, c.devices[index]? = some d → B a d) (fun _ => True) := by
  refine Context.meets_onDevice (fun _ _ => trivial) fun c d hc hd => ?_
  refine meets_weaken hx ?_ (fun a s hs d' hd' => ?_) fun _ => id
  · rintro _ rfl
    exact hc d hd
  · have hlt := (List.getElem?_eq_some_iff.1 hd).1
    simp only [Context.withStation, List.getElem?_set, hlt, if_true] at hd'
    exact Option.some.inj hd' ▸ hs

end Context

namespace Machine

theorem meets_onDevice {α : Type} {index : Nat} {x : DeviceAction α} {P E : Context → Prop}
    {Q : α → Context → Prop} (hx : Meets P (Context.onDevice index x) Q E) :
    Meets (fun m => P m.context) (onDevice index x) (fun a m => Q a m.context)
      (fun m => E m.context) :=
  meets_inStore (Store.meets_inContext hx)

theorem onDevice_bind {α β : Type} (index : Nat) (x : DeviceAction α) (f : α → DeviceAction β) :
    onDevice index (x >>= f) = onDevice index x >>= fun a => onDevice index (f a) := by
  funext m
  show (onDevice index (x >>= f)).run m =
    (onDevice index x >>= fun a => onDevice index (f a) : MachineAction β).run m
  simp only [onDevice, inStore, Store.inContext, Context.onDevice_bind, run_bind, run_focus]
  rcases (Context.onDevice index x).run m.store.context with ⟨r, c⟩
  cases r <;> rfl

end Machine

end Offload
