import Offload.Proofs.DeviceAccounts
import Offload.Proofs.StoreAgreement

/-!
# Stores up to their events

What a command does to memory and to the host objects does not depend on the number of its event, on
the events that it waits for or on anything else in a log. Two stores are akin if their data are the
same and the same commands wait on their devices, under whatever events. Operations on akin stores
end in the same way and leave akin stores, also if they are given different events to wait for.
-/

namespace Offload

open Offload.Action

variable {α β : Type}

/-! ## Devices -/

namespace Device

/-- The second device has the data of the first one. Their logs, queues and counters may differ. -/
def Matches (d d' : Device) : Prop := ∃ log queue counters, d' = { d with log, queue, counters }

/-- The second device has the data of the first one, and the same commands wait in the same
order. -/
structure Akin (d d' : Device) : Prop where
  same : d.Matches d'
  commands : d'.queue.map Pending.command = d.queue.map Pending.command
  orderly : d.Orderly
  orderly' : d'.Orderly

theorem Matches.options_eq {d d' : Device} (h : d.Matches d') : d'.options = d.options := by
  obtain ⟨log, queue, counters, rfl⟩ := h
  rfl

theorem Matches.memory_eq {d d' : Device} (h : d.Matches d') : d'.memory = d.memory := by
  obtain ⟨log, queue, counters, rfl⟩ := h
  rfl

theorem Matches.kernels_eq {d d' : Device} (h : d.Matches d') : d'.kernels = d.kernels := by
  obtain ⟨log, queue, counters, rfl⟩ := h
  rfl

theorem Akin.refl {d : Device} (hd : d.Orderly) : d.Akin d := ⟨⟨_, _, _, rfl⟩, rfl, hd, hd⟩

end Device

namespace Station

/-- The devices of two stations have the same data, and the objects are the same. -/
structure Matches (s t : Station) : Prop where
  device : s.device.Matches t.device
  objects : t.objects = s.objects

/-- Two stations with the same data whose devices are to run the same commands. -/
structure Akin (s t : Station) : Prop where
  device : s.device.Akin t.device
  objects : t.objects = s.objects

variable {s t : Station}

theorem Akin.matches (h : s.Akin t) : s.Matches t := ⟨h.device.same, h.objects⟩

theorem Matches.exists_eq (h : s.Matches t) :
    ∃ log queue counters journal,
      t = ⟨{ s.device with log, queue, counters }, s.objects, journal⟩ := by
  obtain ⟨⟨log, queue, counters, hdevice⟩, hobjects⟩ := h
  obtain ⟨device, objects, journal⟩ := t
  obtain rfl : device = { s.device with log, queue, counters } := hdevice
  obtain rfl : objects = s.objects := hobjects
  exact ⟨log, queue, counters, journal, rfl⟩

/-! ## Running commands -/

/-- A command does the same to the data of both stations, whatever its event. -/
theorem Matches.perform (h : s.Matches t) (event event' : EventId) (c : Command) :
    (Station.perform event c s).1 = (Station.perform event' c t).1 ∧
      (Station.perform event c s).2.Matches (Station.perform event' c t).2 := by
  obtain ⟨log, queue, counters, journal, rfl⟩ := h.exists_eq
  exact ⟨rfl, ⟨_, _, _, rfl⟩, rfl⟩

theorem Matches.left {u : Station} (h : u.Matches s) (h' : u.Matches t) : s.Matches t := by
  obtain ⟨log, queue, counters, journal, rfl⟩ := h.exists_eq
  obtain ⟨log', queue', counters', journal', rfl⟩ := h'.exists_eq
  exact ⟨⟨_, _, _, rfl⟩, rfl⟩

/-- Queues and counters are no data. -/
theorem Matches.onDevice (h : s.Matches t) {f g : Device → Device}
    (hf : ∀ d : Device, d.Matches (f d)) (hg : ∀ d : Device, d.Matches (g d)) :
    (s.onDevice f).Matches (t.onDevice g) := by
  obtain ⟨log, queue, counters, hdevice⟩ := h.device
  obtain ⟨log₁, queue₁, counters₁, hfd⟩ := hf s.device
  obtain ⟨log₂, queue₂, counters₂, hgd⟩ := hg t.device
  refine ⟨⟨log₂, queue₂, counters₂, ?_⟩, h.objects⟩
  rw [Station.onDevice, Station.onDevice, hfd, hgd, hdevice]

theorem matches_queue (d : Device) (queue : List Pending) :
    d.Matches { d with queue } := ⟨_, _, _, rfl⟩

theorem Matches.runThrough_markers (h : s.Matches t) {markers : List Pending}
    (hmarkers : ∀ p ∈ markers, p.command = .marker) :
    (runThrough none markers s).1 = none ∧ (runThrough none markers s).2.Matches t := by
  induction markers generalizing s with
  | nil => exact ⟨rfl, h.onDevice (fun d => matches_queue d []) fun d => ⟨_, _, _, rfl⟩⟩
  | cons p rest ih =>
    obtain ⟨hp, hrest⟩ := List.forall_mem_cons.1 hmarkers
    have hnext : (Station.perform p.event p.command
        (s.onDevice fun d => { d with queue := rest })).2.Matches t := by
      rw [hp]
      obtain ⟨log, queue, counters, hdevice⟩ := h.device
      exact ⟨⟨log, queue, counters, hdevice⟩, h.objects⟩
    obtain ⟨hfault, hstation⟩ := ih hnext hrest
    rw [runThrough]
    rw [hp] at hfault hstation ⊢
    exact ⟨by simpa [Station.perform, Command.execute] using hfault, hstation⟩

/-- Queues with the same commands do the same, also if one of them has some markers more at its
end. -/
theorem Matches.runThrough {queue queue' markers : List Pending}
    (hqueue : queue'.map Pending.command = queue.map Pending.command)
    (hmarkers : ∀ p ∈ markers, p.command = .marker) (h : s.Matches t) :
    (Station.runThrough none (queue ++ markers) s).1 = (Station.runThrough none queue' t).1 ∧
      (Station.runThrough none (queue ++ markers) s).2.Matches
      (Station.runThrough none queue' t).2 := by
  induction queue generalizing queue' s t with
  | nil =>
    obtain rfl : queue' = [] := List.map_eq_nil_iff.1 hqueue
    exact (h.onDevice (fun d => ⟨_, _, _, rfl⟩) fun d => matches_queue d []).runThrough_markers
      hmarkers
  | cons p rest ih =>
    obtain ⟨p', rest', rfl, hp, hrest⟩ := List.map_eq_cons_iff.1 hqueue
    have hstart := h.onDevice (fun d => matches_queue d (rest ++ markers)) fun d =>
      matches_queue d rest'
    obtain ⟨houtcome, hstation⟩ := hstart.perform p.event p'.event p.command
    obtain ⟨hfault, hlater⟩ := ih hrest hstation
    rw [List.cons_append, Station.runThrough, Station.runThrough, hp]
    simp only [reduceCtorEq, if_false]
    rw [houtcome, hfault]
    exact ⟨rfl, hlater⟩

theorem run_drain_eq {last last' : Option EventId} {queue queue' : List Pending}
    (hqueue : s.device.queue = queue) (hqueue' : t.device.queue = queue')
    (h : (Station.runThrough last queue s).1 = (Station.runThrough last' queue' t).1) :
    ((drain last).run s).1 = ((drain last').run t).1 := by
  subst hqueue hqueue'
  rw [Action.run, Action.run, drain, drain]
  revert h
  rcases Station.runThrough last s.device.queue s with ⟨fault, s'⟩
  rcases Station.runThrough last' t.device.queue t with ⟨fault', t'⟩
  rintro rfl
  cases fault <;> rfl

/-- Waiting for the newest command is waiting for all of them, also if there is none. -/
theorem run_drain_newest_eq {event : EventId} (h : s.device.queue = [] ∨ s.Newest event) :
    (drain (some event)).run s = (drain none).run s := by
  rw [Action.run, Action.run, drain, drain]
  rcases h with hempty | ⟨queue, p, hqueue, rfl, hne⟩
  · rw [hempty]
    rfl
  · rw [hqueue, runThrough_newest hne]

/-- A marker goes to the end of the queue, or it is run at once. -/
theorem run_marker_eq_ok {wait : List EventId} {event : EventId} {s s' : Station}
    (hrun : (marker wait).run s = (.ok event, s')) :
    s.Matches s' ∧ ∃ markers : List Pending, (∀ p ∈ markers, p.command = .marker) ∧
      s'.device.queue = s.device.queue ++ markers := by
  have hsubmit : ∀ {s : Station}, (submit .marker "marker" wait .marker).run s = (.ok event, s') →
      s.Matches s' ∧ ∃ markers : List Pending, (∀ p ∈ markers, p.command = .marker) ∧
        s'.device.queue = s.device.queue ++ markers := by
    intro s hrun
    cases hdeferred : s.device.options.deferred with
    | true =>
      rw [run_submit_deferred .marker "marker" wait .marker hdeferred] at hrun
      cases hrun
      exact ⟨⟨⟨_, _, _, rfl⟩, rfl⟩, [⟨s.device.log.size, .marker⟩], by simp, rfl⟩
    | false =>
      rw [run_submit_eager .marker "marker" wait .marker hdeferred] at hrun
      cases hrun
      exact ⟨⟨⟨_, _, _, rfl⟩, rfl⟩, [], nofun, (List.append_nil _).symm⟩
  -- Counting the marker comes first and is no data.
  obtain ⟨⟨⟨log, queue, counters, hdevice⟩, hobjects⟩, hmarkers⟩ := hsubmit hrun
  exact ⟨⟨⟨log, queue, counters, hdevice⟩, hobjects⟩, hmarkers⟩

theorem run_drain_of_queue {s : Station} (h : s.device.queue = []) (last : Option EventId) :
    (drain last).run s = (.ok (), s) := by
  have hkept : s.onDevice (fun d => { d with queue := [] }) = s := by rw [onDevice, ← h]
  simp only [Action.run, drain, h, Station.runThrough, hkept]

/-- Waiting for the newest event runs the queue. -/
theorem run_drain_of_resolve {event : EventId} {e : Event} {s s' : Station}
    (h : s.device.queue = [] ∨ s.Newest event) (hrun : (resolve event).run s = (.ok e, s')) :
    (drain none).run s = (.ok (), s') := by
  have hinspect : ∀ {u : Station}, (inspect event).run u = (.ok e, s') → u = s' := by
    intro u hu
    simp only [inspect, run_bind, run_get] at hu
    split at hu
    · exact (Prod.mk.inj hu).2
    · cases (Prod.mk.inj hu).1
  cases hqueued : s.device.isQueued event with
  | true =>
    have hresolve : (resolve event).run s =
        (drain (some event) >>= fun _ => inspect event : DeviceAction Event).run s := by
      simp only [resolve, run_bind, run_get, hqueued, if_true]
    rw [hresolve, run_bind, run_drain_newest_eq h] at hrun
    rcases hdrain : (drain none).run s with ⟨r, u⟩
    rw [hdrain] at hrun
    cases r with
    | ok v => rw [hinspect hrun]
    | error fault => cases (Prod.mk.inj hrun).1
  | false =>
    have hempty : s.device.queue = [] := by
      rcases h with hempty | ⟨queue, p, hqueue, rfl, -⟩
      · exact hempty
      · simp [Device.isQueued, hqueue] at hqueued
    have hresolve : (resolve event).run s = (inspect event).run s := by
      simp only [resolve, run_bind, run_get, hqueued, Bool.false_eq_true, if_false]
    rw [hresolve] at hrun
    rw [run_drain_of_queue hempty, hinspect hrun]

/-- The station after an operation that makes moves. -/
theorem Advances.orderly {x : DeviceAction α} (hx : Advances (fun _ => True) x) {s s' : Station}
    {r : Except DeviceFault α} (hs : s.device.Orderly) (hrun : x.run s = (r, s')) :
    s'.device.Orderly := by
  have hmoves := hx.moves s
  rw [hrun] at hmoves
  exact Device.Moves.orderly hmoves hs

/-- Operations that make moves keep stations akin if they do the same to the data and to the
commands. -/
theorem agrees_of_matches {x : DeviceAction α} {y : DeviceAction β} {V : α → β → Prop}
    (hx : Advances (fun _ => True) x) (hy : Advances (fun _ => True) y)
    (h : ∀ s t, s.Akin t → Alike V (x.run s).1 (y.run t).1 ∧ (x.run s).2.Matches (y.run t).2 ∧
      (y.run t).2.device.queue.map Pending.command = (x.run s).2.device.queue.map Pending.command) :
    Agrees Akin x y V := by
  refine agrees_iff.2 fun s t hst => ?_
  obtain ⟨houtcome, hmatches, hcommands⟩ := h s t hst
  have hs := hx.orderly hst.device.orderly rfl
  have ht := hy.orderly hst.device.orderly' rfl
  exact ⟨houtcome, ⟨hmatches.device, hcommands, hs, ht⟩, hmatches.objects⟩

namespace Akin

variable (buffer : BufferId) (object : Nat) (window : Option Window) (wait wait' : List EventId)

theorem respects_count (f : Counters → Counters) : Respects Akin (count f) := by
  refine agrees_of_matches (advances_count f) (advances_count f) fun s t h =>
    ⟨rfl, ?_, h.device.commands⟩
  exact h.matches.onDevice (fun _ => ⟨_, _, _, rfl⟩) fun _ => ⟨_, _, _, rfl⟩

theorem respects_drain : Respects Akin (drain none) := by
  refine agrees_of_matches (advances_drain none) (advances_drain none) fun s t h => ?_
  have hnone : ∀ p ∈ ([] : List Pending), p.command = .marker := nofun
  obtain ⟨hfault, hmatches⟩ := h.matches.runThrough h.device.commands hnone
  rw [List.append_nil] at hfault hmatches
  rw [snd_drain, snd_drain, queue_runThrough_none, queue_runThrough_none, alike_eq_iff]
  exact ⟨run_drain_eq rfl rfl hfault, hmatches, rfl⟩

/-- The same command may be submitted with different events to wait for. -/
theorem agrees_submit {kind : EventKind} (hkind : kind ≠ .allocate) (label : String)
    (wait wait' : List EventId) (c : Command) :
    Agrees Akin (submit kind label wait c) (submit kind label wait' c) fun _ _ => True := by
  refine agrees_of_matches (advances_submit label c hkind trivial)
    (advances_submit label c hkind trivial) fun s t h => ?_
  have hoptions := h.device.same.options_eq
  have hrecorded : (s.recorded kind label wait).Matches (t.recorded kind label wait') := by
    obtain ⟨log, queue, counters, journal, rfl⟩ := h.matches.exists_eq
    exact ⟨⟨_, _, _, rfl⟩, rfl⟩
  cases hs : s.device.options.deferred with
  | true =>
    rw [run_submit_deferred kind label wait c hs,
      run_submit_deferred kind label wait' c (by rw [hoptions, hs])]
    refine ⟨trivial, hrecorded.onDevice (fun _ => ⟨_, _, _, rfl⟩) fun _ => ⟨_, _, _, rfl⟩, ?_⟩
    simp [Station.onDevice, recorded, Device.record, h.device.commands]
  | false =>
    rw [run_submit_eager kind label wait c hs,
      run_submit_eager kind label wait' c (by rw [hoptions, hs])]
    obtain ⟨houtcome, hmatches⟩ := hrecorded.perform s.device.log.size t.device.log.size c
    refine alike_bind (R := fun s t => s.Matches t ∧
      t.device.queue.map Pending.command = s.device.queue.map Pending.command)
      ⟨alike_eq_iff.2 houtcome, hmatches, h.device.commands⟩ ?_
    intro _ _ s' t' _ _ _ hst
    exact ⟨trivial, hst⟩

theorem agrees_allocate (bytes : Nat) :
    Agrees Akin (allocate object bytes) (allocate object bytes) fun a b => b.1 = a.1 := by
  by_cases hbytes : bytes < memoryLimit
  · refine agrees_of_matches (advances_allocate object bytes) (advances_allocate object bytes)
      fun s t h => ?_
    rw [run_allocate object hbytes, run_allocate object hbytes]
    have hcommands := h.device.commands
    obtain ⟨log, queue, counters, journal, rfl⟩ := h.matches.exists_eq
    exact ⟨rfl, ⟨⟨_, _, _, rfl⟩, rfl⟩, hcommands⟩
  · rw [allocate, if_pos (Nat.not_lt.1 hbytes)]
    exact agrees_throw_bind

theorem respects_release : Respects Akin (release buffer) := by
  refine respects_bind respects_drain fun _ => goes_get fun s t h => ?_
  rw [h.device.same.memory_eq]
  show Respects Akin _
  split
  · refine respects_modify fun s t h => ?_
    obtain ⟨-, hcommands, horderly, horderly'⟩ := h.device
    obtain ⟨log, queue, counters, journal, rfl⟩ := h.matches.exists_eq
    exact ⟨⟨⟨_, _, _, rfl⟩, hcommands, ⟨horderly.logged, horderly.eager⟩,
      ⟨horderly'.logged, horderly'.eager⟩⟩, rfl⟩
  · exact respects_throw

theorem respects_checkWindow : Respects Akin (checkWindow object window) := by
  refine goes_get fun s t h => ?_
  rw [h.objects]
  cases window with
  | none => exact respects_pure
  | some w => exact respects_ofExcept

theorem agrees_write :
    Agrees Akin (write buffer object window wait) (write buffer object window wait')
      fun _ _ => True := by
  refine (respects_checkWindow object window).bind fun _ => ?_
  refine (respects_count _).bind fun _ => goes_get fun s t h => ?_
  rw [h.objects]
  exact agrees_submit (by decide) _ wait wait' _

/-- Waiting for the command that was just submitted runs the whole queue. -/
theorem agrees_submit_drain {kind : EventKind} (hkind : kind ≠ .allocate) (label : String)
    (wait wait' : List EventId) (c : Command) :
    Agrees Akin
      (do let event ← submit kind label wait c; drain (some event); return event)
      (do let event ← submit kind label wait' c; drain (some event); return event)
      fun _ _ => True := by
  refine agrees_iff.2 fun s t h =>
    alike_bind (agrees_iff.1 (agrees_submit hkind label wait wait' c) s t h) ?_
  intro event event' s' t' hs ht _ h'
  have hnewest := meets_submit label wait c hkind s h.device.orderly
  have hnewest' := meets_submit label wait' c hkind t h.device.orderly'
  rw [hs] at hnewest
  rw [ht] at hnewest'
  have hdrain := agrees_iff.1 respects_drain s' t' h'
  rw [← run_drain_newest_eq hnewest, ← run_drain_newest_eq hnewest'] at hdrain
  refine alike_bind hdrain ?_
  intro _ _ _ _ _ _ _ hst
  exact ⟨trivial, hst⟩

theorem agrees_read (blocking : Bool) :
    Agrees Akin (read buffer object window wait blocking)
      (read buffer object window wait' blocking) fun _ _ => True := by
  refine (respects_checkWindow object window).bind fun _ => ?_
  refine (respects_count _).bind fun _ => goes_get fun s t h => ?_
  rw [h.objects]
  cases blocking with
  | true => exact agrees_submit_drain (by decide) _ wait wait' _
  | false =>
    refine goes_bind (agrees_submit (by decide) _ wait wait' _) fun _ _ _ => ?_
    exact goes_pure trivial

theorem agrees_launch (code : InstalledCode) (frame : CallFrame) (task : String)
    (window : Option Window) (wait wait' : List EventId) :
    Agrees Akin (launch code frame task window wait) (launch code frame task window wait')
      fun a b => b.2 = a.2 := by
  refine (respects_count _).bind fun _ => ?_
  refine goes_bind (agrees_submit (by decide) _ wait wait' _) fun event event' _ => ?_
  refine goes_get fun s t h => ?_
  rw [h.device.same.options_eq]
  exact goes_pure rfl

theorem agrees_marker : Agrees Akin (marker wait) (marker wait') fun _ _ => True :=
  (respects_count _).bind fun _ => agrees_submit (by decide) _ wait wait' _

/-- Waiting for a marker and flushing does to the data what flushing does. -/
theorem leads_flush :
    Leads Akin
      (do let event ← marker []; let _ ← resolve event; flush : DeviceAction Unit) flush Eq := by
  refine couples_lenient_iff.2 fun s t h u s₃ hrun => ?_
  obtain ⟨event, s₁, hmarker, hrun⟩ := run_bind_eq_ok.1 hrun
  obtain ⟨e, s₂, hresolve, hflush⟩ := run_bind_eq_ok.1 hrun
  have horderly₁ := (advances_marker (W := fun _ => True) trivial).orderly h.device.orderly hmarker
  have horderly₂ := (advances_resolve event).orderly horderly₁ hresolve
  have horderly₃ := advances_flush.orderly horderly₂ hflush
  -- The queue is run when the marker is waited for, and the flush finds nothing in it.
  have hnewest := meets_marker [] s h.device.orderly
  rw [hmarker] at hnewest
  have hdrain := run_drain_of_resolve hnewest hresolve
  have hstation : s₂ = (Station.runThrough none s₁.device.queue s₁).2 := by rw [← snd_drain, hdrain]
  have hempty : s₂.device.queue = [] := hstation ▸ queue_runThrough_none _ _
  have hflushed := run_drain_of_queue (s := s₂.onDevice fun d =>
    { d with counters := { d.counters with flushes := d.counters.flushes + 1 } }) hempty none
  cases hflush.symm.trans hflushed
  -- The other side runs the same commands without the marker.
  obtain ⟨hmatches, markers, hmarkers, hqueue⟩ := run_marker_eq_ok hmarker
  let t₁ := t.onDevice fun d =>
    { d with counters := { d.counters with flushes := d.counters.flushes + 1 } }
  have hstart : s₁.Matches t₁ :=
    (hmatches.left h.matches).onDevice (fun d => ⟨_, _, _, rfl⟩) fun d => ⟨_, _, _, rfl⟩
  obtain ⟨hfault, hend⟩ := hstart.runThrough h.device.commands hmarkers
  have houtcome : ((drain none).run t₁).1 = .ok () := by
    rw [← run_drain_eq hqueue rfl hfault, hdrain]
  rcases hother : (drain none).run t₁ with ⟨r, t₂⟩
  obtain rfl : r = .ok () := by
    rw [hother] at houtcome
    exact houtcome
  have ht₂ : t₂ = (Station.runThrough none t.device.queue t₁).2 := by
    rw [show t.device.queue = t₁.device.queue from rfl, ← snd_drain, hother]
  have hlast : s₂.Matches t₂ := by
    rw [hstation, hqueue, ht₂]
    exact hend
  refine ⟨(), t₂, hother, rfl, ⟨?_, ?_, horderly₃, ?_⟩, hlast.objects⟩
  · obtain ⟨log, queue, counters, hdevice⟩ := hlast.device
    exact ⟨log, queue, counters, hdevice⟩
  · rw [ht₂, queue_runThrough_none]
    simp [Station.onDevice, hempty]
  · exact advances_flush.orderly h.device.orderly' hother

end Akin

end Station

/-! ## Contexts -/

namespace Context

/-- Two contexts with the same data whose devices are akin. The journals may differ. -/
structure Akin (c c' : Context) : Prop where
  length_eq : c'.devices.length = c.devices.length
  device : ∀ {index : Nat} {d d' : Device}, c.devices[index]? = some d →
    c'.devices[index]? = some d' → d.Akin d'
  objects : c'.objects = c.objects
  constants : c'.constants = c.constants
  tasks : c'.tasks = c.tasks
  places : c'.places = c.places

theorem Akin.refl {c : Context} (hc : ∀ d ∈ c.devices, d.Orderly) : c.Akin c := by
  refine ⟨rfl, fun {index d d'} hd hd' => ?_, rfl, rfl, rfl, rfl⟩
  cases hd.symm.trans hd'
  exact .refl (hc d (List.mem_of_getElem? hd))

namespace Akin

variable {c c' : Context}

theorem withStation (h : c.Akin c') {s t : Station} (hst : s.Akin t) (index : Nat) :
    (c.withStation index s).Akin (c'.withStation index t) := by
  refine ⟨by simpa [Context.withStation] using h.length_eq, fun {i d d'} hd hd' => ?_, hst.objects,
    h.constants, h.tasks, h.places⟩
  simp only [Context.withStation, List.getElem?_set, h.length_eq] at hd hd'
  split_ifs at hd hd' with hi hlt
  · cases hd
    cases hd'
    exact hst.device
  · exact h.device hd hd'

theorem withJournals (h : c.Akin c') (journal journal' : Journal) :
    Akin { c with journal } { c' with journal := journal' } :=
  ⟨h.length_eq, h.device, h.objects, h.constants, h.tasks, h.places⟩

end Akin

theorem agreement_akin : Agreement Akin Station.Akin where
  length_eq h := h.length_eq
  objects h := h.objects
  places h := h.places
  journals journal journal' h := h.withJournals journal journal'
  station h hd hd' := ⟨h.device hd hd', h.objects⟩
  withStation index h hst := h.withStation hst index

end Context

/-! ## Stores -/

namespace Store

/-- Two stores with akin contexts and the same table. -/
structure Akin (s s' : Store) : Prop where
  context : s.context.Akin s'.context
  table : s'.table = s.table

theorem agreement_akin :
    Agreement Akin Context.Akin Station.Akin (fun _ _ => True) fun _ _ => True where
  toAgreement := Context.agreement_akin
  context h := h.context
  withContext h hc := ⟨hc, h.table⟩
  record object device h := by
    rw [h.table]
    exact (alike_eq_iff.2 rfl).mono fun _ _ hr => hr ▸ rfl
  update object device _ := by
    refine respects_modify fun s s' h => ⟨h.context, ?_⟩
    rw [h.table]
  setOwner object device h := by
    refine ⟨h.context, ?_⟩
    rw [h.table]
  allocateBuffer place bytes :=
    goes_weaken (Station.Akin.agrees_allocate place bytes) fun _ _ hab => ⟨hab, trivial⟩
  release := Station.Akin.respects_release
  write {wait wait'} buffer place window _ :=
    Station.Akin.agrees_write buffer place window wait wait'
  read {wait wait'} buffer place window blocking _ :=
    Station.Akin.agrees_read buffer place window wait wait' blocking

theorem Akin.leads_onDevice {x : DeviceAction α} {y : DeviceAction β} {V : α → β → Prop}
    (h : Leads Station.Akin x y V) (index : Nat) :
    Leads Akin (inContext (Context.onDevice index x)) (inContext (Context.onDevice index y)) V :=
  goes_focus (Context.agreement_akin.leads_onDevice h index) (fun _ _ hs => hs.context)
    (fun _ _ _ _ hs hc => ⟨hc, hs.table⟩) False.elim

end Store

end Offload
