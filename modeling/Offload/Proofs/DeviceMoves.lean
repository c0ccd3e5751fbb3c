import Offload.Proofs.DeferredDevice

/-!
# What happens to a device

All that ever happens to the log and the queue of a device is one of a few moves: a buffer is made,
a command is queued, a command is run at once, or the first command of the queue is run. Every
operation of a device is a sequence of such moves. An operation that succeeds has run no command
that failed, and this is what makes a failure visible to the caller.
-/

namespace Offload

open Offload.Action

variable {W : List EventId → Prop} {F : EventStatus → Prop} {d d' : Device}

/-- A command has done its work. -/
def EventStatus.Succeeded (status : EventStatus) : Prop := status = .complete

/-- A command was run, with or without a fault. -/
def EventStatus.Ended (status : EventStatus) : Prop := status = .complete ∨ status = .failed

theorem EventStatus.Succeeded.ended {status : EventStatus} (h : status.Succeeded) :
    status.Ended := .inl h

/-- One thing that happens to a device. Commands are submitted with wait lists in `W`, and those
that are run end with a status in `F`. -/
inductive Device.Move (W : List EventId → Prop) (F : EventStatus → Prop) : Device → Device → Prop
  /-- Neither the log nor the queue changes. -/
  | aside {d d' : Device} (hlog : d'.log = d.log) (hqueue : d'.queue = d.queue)
      (hoptions : d'.options = d.options) : Move W F d d'
  | allocated (d : Device) (label : String) :
      Move W F d (d.record .allocate label [] .complete)
  /-- A deferred device queues a command. -/
  | queued (d : Device) (kind : EventKind) (label : String) (wait : List EventId) (c : Command)
      (hdeferred : d.options.deferred = true) (hkind : kind ≠ .allocate) (hwait : W wait) :
      Move W F d { d.record kind label wait with queue := d.queue ++ [⟨d.log.size, c⟩] }
  /-- An eager device runs a command. -/
  | ran (d : Device) (kind : EventKind) (label : String) (wait : List EventId)
    (status : EventStatus)
      (heager : d.options.deferred = false) (hkind : kind ≠ .allocate) (hwait : W wait)
      (hstatus : F status) : Move W F d ((d.record kind label wait).setStatus d.log.size status)
  /-- The first command of the queue is run. -/
  | taken (d : Device) (p : Pending) (rest : List Pending) (status : EventStatus)
      (hqueue : d.queue = p :: rest) (hstatus : F status) :
      Move W F d (Device.setStatus { d with queue := rest } p.event status)

/-- What happens to a device in the course of time. -/
abbrev Device.Moves (W : List EventId → Prop) (F : EventStatus → Prop) : Device → Device → Prop :=
  Relation.ReflTransGen (Device.Move W F)

section Weakening

variable {W' : List EventId → Prop} {F' : EventStatus → Prop}

theorem Device.Move.mono (h : d.Move W F d') (hW : ∀ wait, W wait → W' wait)
    (hF : ∀ status, F status → F' status) : d.Move W' F' d' := by
  cases h with
  | aside hlog hqueue hoptions => exact .aside hlog hqueue hoptions
  | allocated label => exact .allocated d label
  | queued kind label wait c hdeferred hkind hwait =>
    exact .queued d kind label wait c hdeferred hkind (hW wait hwait)
  | ran kind label wait status heager hkind hwait hstatus =>
    exact .ran d kind label wait status heager hkind (hW wait hwait) (hF status hstatus)
  | taken p rest status hqueue hstatus => exact .taken d p rest status hqueue (hF status hstatus)

theorem Device.Moves.mono (h : d.Moves W F d') (hW : ∀ wait, W wait → W' wait)
    (hF : ∀ status, F status → F' status) : d.Moves W' F' d' := by
  have hmove : Device.Move W F ≤ Device.Move W' F' := fun _ _ hmove => hmove.mono hW hF
  exact Relation.ReflTransGen.mono hmove d d' h

theorem Device.Moves.ended (h : d.Moves W EventStatus.Succeeded d') :
    d.Moves W EventStatus.Ended d' :=
  h.mono (fun _ => id) fun _ hstatus => hstatus.ended

end Weakening

/-! ## Records -/

/-- What was asked for: the kinds and the wait lists of the events of a log. -/
def EventLog.issued (l : EventLog) : List (EventKind × List EventId) :=
  l.records.map fun r => (r.kind, r.waitList)

namespace EventLog

@[simp] theorem issued_add (l : EventLog) (r : EventRecord) :
    (l.add r).issued = l.issued ++ [(r.kind, r.waitList)] := by
  simp [issued]

@[simp] theorem issued_setStatus (l : EventLog) (id : EventId) (status : EventStatus) :
    (l.setStatus id status).issued = l.issued := by
  apply List.ext_getElem?
  intro i
  simp only [issued, records_setStatus, List.getElem?_map, List.getElem?_modify]
  by_cases hi : id = i
  · cases l.records[i]? <;> simp [hi]
  · simp [hi]

end EventLog

theorem Device.Move.issued (h : d.Move W F d') : ∃ new, d'.log.issued = d.log.issued ++ new ∧
      ∀ e ∈ new, if e.1 = .allocate then e.2 = [] else W e.2 := by
  cases h with
  | aside hlog => exact ⟨[], by simp [hlog], nofun⟩
  | allocated label =>
    exact ⟨[(.allocate, [])], by simp [Device.record], by simp⟩
  | queued kind label wait c _ hkind hwait =>
    exact ⟨[(kind, wait)], by simp [Device.record], by simp [hkind, hwait]⟩
  | ran kind label wait status _ hkind hwait =>
    exact ⟨[(kind, wait)], by simp [Device.record, Device.setStatus], by simp [hkind, hwait]⟩
  | taken p rest status => exact ⟨[], by simp [Device.setStatus], nofun⟩

/-- The log only grows, and all that is added waits as `W` says; a new buffer waits for nothing. -/
theorem Device.Moves.issued (h : d.Moves W F d') : ∃ new, d'.log.issued = d.log.issued ++ new ∧
      ∀ e ∈ new, if e.1 = .allocate then e.2 = [] else W e.2 := by
  induction h with
  | refl => exact ⟨[], by simp, nofun⟩
  | tail _ hmove ih =>
    obtain ⟨new, hnew, hwaits⟩ := ih
    obtain ⟨more, hmore, hwaits'⟩ := hmove.issued
    refine ⟨new ++ more, by rw [hmore, hnew, List.append_assoc], fun e he => ?_⟩
    rcases List.mem_append.1 he with he | he
    · exact hwaits e he
    · exact hwaits' e he

theorem Device.Moves.size_le (h : d.Moves W F d') : d.log.size ≤ d'.log.size := by
  obtain ⟨new, hnew, -⟩ := Device.Moves.issued h
  have hlength := congrArg List.length hnew
  simp only [EventLog.issued, List.length_map, List.length_append,
    EventLog.length_records] at hlength
  omega

namespace Station

variable {α : Type} (buffer : BufferId) (object : Nat) (event : EventId) (window : Option Window)

/-- An operation of a device is a sequence of moves, in which no command fails unless the operation
does. -/
def Advances (W : List EventId → Prop) (x : DeviceAction α) : Prop :=
  ∀ d : Device, Upholds (fun s => d.Moves W EventStatus.Succeeded s.device)
    (fun s => d.Moves W EventStatus.Ended s.device) x

theorem Advances.moves {x : DeviceAction α} (hx : Advances W x) (s : Station) :
    s.device.Moves W EventStatus.Ended (x.run s).2.device :=
  (hx s.device).after .refl (fun _ _ hs => hs.ended) fun _ => id

/-- A fault that is reported before anything else happens. -/
theorem ended_of_succeeded (s : Station) (hs : d.Moves W EventStatus.Succeeded s.device) :
    d.Moves W EventStatus.Ended s.device :=
  hs.ended

theorem keeps_moves_count (f : Counters → Counters) :
    Keeps (fun s => d.Moves W F s.device) (count f) :=
  keeps_modify fun _ hs => hs.tail (.aside rfl rfl rfl)

theorem advances_count (f : Counters → Counters) : Advances W (count f) := fun _ =>
  (keeps_moves_count f).upholds ended_of_succeeded

theorem device_perform (c : Command) (s : Station) :
    ∃ status memory, (perform event c s).2.device =
        { s.device.setStatus event status with memory } ∧
      (status = .complete ∨ status = .failed ∧ ∃ fault, (perform event c s).1 = .error fault) := by
  refine ⟨if (c.execute s.device.memory s.objects).1.isOk then .complete else .failed,
    (c.execute s.device.memory s.objects).2.1, rfl, ?_⟩
  change _ ∨ _ ∧ ∃ fault, (c.execute s.device.memory s.objects).1 = .error fault
  cases (c.execute s.device.memory s.objects).1 with
  | ok u => exact .inl rfl
  | error fault => exact .inr ⟨rfl, fault, rfl⟩

variable {wait : List EventId}

theorem advances_submit {kind : EventKind} (label : String) (c : Command) (hkind : kind ≠ .allocate)
    (hwait : W wait) : Advances W (submit kind label wait c) := by
  intro d s hs
  cases hdeferred : s.device.options.deferred with
  | true =>
    rw [run_submit_deferred kind label wait c hdeferred]
    exact hs.tail (.queued s.device kind label wait c hdeferred hkind hwait)
  | false =>
    rw [run_submit_performed kind label wait c hdeferred]
    obtain ⟨status, memory, hdevice, hstatus⟩ :=
      device_perform s.device.log.size c (s.recorded kind label wait)
    -- The event is recorded and noted in one move; the new memory is another.
    have hran : ∀ {F : EventStatus → Prop}, d.Moves W F s.device → F status →
        d.Moves W F (perform s.device.log.size c (s.recorded kind label wait)).2.device := by
      intro F hs hF
      rw [hdevice]
      exact (hs.tail (.ran s.device kind label wait status hdeferred hkind hwait hF)).tail
        (.aside rfl rfl rfl)
    have hfault : status = .complete ∨
        status = .failed ∧ ∃ fault, (c.execute s.device.memory s.objects).1 = .error fault :=
        hstatus
    cases hresult : (c.execute s.device.memory s.objects).1 with
    | ok u =>
      rcases hfault with rfl | ⟨-, fault, hfault⟩
      · exact hran hs rfl
      · cases hresult.symm.trans hfault
    | error fault => exact hran hs.ended (hfault.imp id And.left)

/-- The commands of the queue are run one by one, and none of them fails if no fault is given
back. -/
theorem moves_runThrough (last : Option EventId) {queue : List Pending} {s : Station}
    (hs : d.Moves W F s.device) (hqueue : s.device.queue = queue) (hcomplete : F .complete)
    (hfailed : (runThrough last queue s).1 = none ∨ F .failed) :
    d.Moves W F (runThrough last queue s).2.device := by
  induction queue generalizing s with
  | nil => exact hs.tail (.aside rfl hqueue.symm rfl)
  | cons p rest ih =>
    obtain ⟨status, memory, hdevice, hstatus⟩ :=
      device_perform p.event p.command (s.onDevice fun d => { d with queue := rest })
    have hqueue' : (perform p.event p.command
        (s.onDevice fun d => { d with queue := rest })).2.device.queue = rest := by
      rw [hdevice]
      rfl
    have htaken : F status → d.Moves W F
        (perform p.event p.command (s.onDevice fun d => { d with queue := rest })).2.device := by
      intro hF
      rw [hdevice]
      exact (hs.tail (.taken s.device p rest status hqueue hF)).tail (.aside rfl rfl rfl)
    simp only [runThrough] at hfailed ⊢
    revert hstatus hqueue' htaken hfailed
    rcases perform p.event p.command (s.onDevice fun d => { d with queue := rest }) with ⟨result, t⟩
    intro hstatus hqueue' htaken hfailed
    have hF : F status := by
      rcases hstatus with rfl | ⟨rfl, fault, rfl⟩
      · exact hcomplete
      · rcases hfailed with hfailed | hfailed
        · split_ifs at hfailed
          cases hfailed
        · exact hfailed
    split_ifs at hfailed ⊢ with hlast
    · exact htaken hF
    · refine ih (htaken hF) hqueue' (hfailed.imp_left fun hnone => ?_)
      exact (Option.or_eq_none_iff.1 hnone).2

theorem advances_drain (last : Option EventId) : Advances W (drain last) := by
  intro d s hs
  have hended := moves_runThrough last hs.ended rfl (.inl rfl) (.inr (.inr rfl))
  have hsucceeded := moves_runThrough (F := EventStatus.Succeeded) last hs rfl rfl
  rw [Action.run, drain]
  revert hended hsucceeded
  rcases runThrough last s.device.queue s with ⟨fault, t⟩
  cases fault with
  | none => exact fun _ hsucceeded => hsucceeded (.inl rfl)
  | some fault => exact fun hended _ => hended

/-! ## The operations -/

theorem advances_allocate (bytes : Nat) : Advances W (allocate object bytes) := by
  intro d
  unfold allocate
  split
  · exact upholds_throw_bind ended_of_succeeded
  · intro s hs
    let grown : Device := { s.device with
      memory := s.device.memory.insert s.device.nextBuffer (List.replicate bytes 0)
      nextBuffer := s.device.nextBuffer + 1
      counters := { s.device.counters with allocations := s.device.counters.allocations + 1 } }
    have hgrown : d.Moves W EventStatus.Succeeded grown := hs.tail (.aside rfl rfl rfl)
    exact hgrown.tail (.allocated grown
      ("allocate " ++ (objectAt s.objects object).label ++ " (" ++ toString bytes ++ " bytes)"))

theorem advances_release : Advances W (release buffer) := by
  intro d
  refine upholds_bind (advances_drain none d) fun _ => upholds_get fun s => ?_
  split
  · exact upholds_modify fun _ hs => hs.tail (.aside rfl rfl rfl)
  · exact upholds_throw ended_of_succeeded

theorem advances_checkWindow : Advances W (checkWindow object window) := by
  intro d
  refine upholds_get fun s => ?_
  cases window with
  | none => exact upholds_pure
  | some w => exact upholds_ofExcept ended_of_succeeded

theorem advances_write (hwait : W wait) : Advances W (write buffer object window wait) := by
  intro d
  refine upholds_bind (advances_checkWindow object window d) fun _ => ?_
  refine upholds_bind (advances_count _ d) fun _ => upholds_get fun s => ?_
  exact advances_submit _ _ (by decide) hwait d

theorem advances_read (hwait : W wait) (blocking : Bool) :
    Advances W (read buffer object window wait blocking) := by
  intro d
  refine upholds_bind (advances_checkWindow object window d) fun _ => ?_
  refine upholds_bind (advances_count _ d) fun _ => upholds_get fun s => ?_
  refine upholds_bind (advances_submit _ _ (by decide) hwait d) fun event => ?_
  split
  · exact upholds_bind (advances_drain _ d) fun _ => upholds_pure
  · exact upholds_pure

/-- A compilation that fails is no failure of a command. -/
theorem keeps_moves_install (task : String) :
    Keeps (fun s => d.Moves W F s.device) (install task) :=
  keeps_install_of_count (keeps_moves_count _) task

theorem advances_launch (code : InstalledCode) (frame : CallFrame) (task : String)
    (window : Option Window) (hwait : W wait) :
    Advances W (launch code frame task window wait) := by
  intro d
  refine upholds_bind (advances_count _ d) fun _ => ?_
  refine upholds_bind (advances_submit _ _ (by decide) hwait d) fun event => ?_
  exact upholds_get fun s => upholds_pure

theorem advances_marker (hwait : W wait) : Advances W (marker wait) := fun d =>
  upholds_bind (advances_count _ d) fun _ => advances_submit _ _ (by decide) hwait d

theorem advances_inspect : Advances W (inspect event) := by
  intro d
  refine upholds_get fun s => ?_
  split
  · exact upholds_pure
  · exact upholds_throw ended_of_succeeded

theorem advances_resolve : Advances W (resolve event) := by
  intro d
  refine upholds_get fun s => ?_
  split
  · exact upholds_bind (advances_drain _ d) fun _ => advances_inspect event d
  · exact advances_inspect event d

theorem advances_flush : Advances W flush := fun d =>
  upholds_bind (advances_count _ d) fun _ => advances_drain none d

end Station

end Offload
