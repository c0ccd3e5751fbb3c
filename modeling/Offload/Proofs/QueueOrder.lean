import Offload.Proofs.DeviceAccounts
import Offload.Proofs.LaunchDevice

/-!
# The queue of a device is in order

Whatever is asked of a device, in any order and with any outcome, its queue lists the events that
wait, the oldest first, and nothing but an allocation is done before an older event that waits. An
event that has ended stays as it is. This is proved for each of the moves of a device and so holds
of all its operations. The counters are not part of the moves: every operation that counts also
submits, whether it succeeds or not, and so each counter is the number of the events of its kind.
-/

namespace Offload

open Offload.Action

open EventStatus (Ended)

/-- How many operations of a kind were asked for. -/
def Counters.of (c : Counters) : EventKind → Nat
  | .allocate => c.allocations
  | .write => c.writes
  | .read => c.reads
  | .launch => c.launches
  | .marker => c.markers

/-- How far an event has come. -/
def Device.status? (d : Device) (id : EventId) : Option EventStatus :=
  (d.log.get? id).map EventRecord.status

/-! ## Operations -/

namespace Station

/-- What may be asked of a device and of the code that is installed on it. Between the operations
kernels may be registered and the host objects may be changed by others. -/
inductive Operation where
  | load
  | allocate (object bytes : Nat)
  | release (buffer : BufferId)
  | write (buffer : BufferId) (object : Nat) (window : Option Window) (wait : List EventId)
  | read (buffer : BufferId) (object : Nat) (window : Option Window) (wait : List EventId)
      (blocking : Bool)
  | install (task : String)
  | launch (code : InstalledCode) (frame : CallFrame) (task : String) (window : Option Window)
      (wait : List EventId)
  | marker (wait : List EventId)
  | resolve (event : EventId)
  | flush
  | register (name : String) (k : Kernel)
  | outside (objects : List HostObject)

/-- Carry out an operation. Gives the event that it has submitted. -/
def operate : Operation → DeviceAction (Option EventId)
  | .load => do
    load
    return none
  | .allocate object bytes => do
    let a ← allocate object bytes
    return some a.2
  | .release buffer => do
    release buffer
    return none
  | .write buffer object window wait => do
    let event ← write buffer object window wait
    return some event
  | .read buffer object window wait blocking => do
    let event ← read buffer object window wait blocking
    return some event
  | .install task => do
    let _ ← install task
    return none
  | .launch code frame task window wait => do
    let a ← launch code frame task window wait
    return some a.1
  | .marker wait => do
    let event ← marker wait
    return some event
  | .resolve event => do
    let _ ← resolve event
    return none
  | .flush => do
    flush
    return none
  | .register name k => do
    modify fun s => s.onDevice fun d => d.register name k
    return none
  | .outside objects => do
    modify fun s => { s with objects }
    return none

/-- The station after some operations, whatever their outcomes. -/
def operated : List Operation → Station → Station
  | [], s => s
  | op :: others, s => operated others ((operate op).run s).2

/-- A station with a new device. -/
def opened (name : String) (options : DeviceOptions) (kernels : Registry)
    (objects : List HostObject) :
    Station :=
  ⟨{ name, options, kernels, log := ⟨[], 0, [], size_eq_of_empty⟩ }, objects, {}⟩

end Station

/-! ## Log and queue -/

namespace Device

/-- The queue of a device in line with its log: it has the events that wait, in the order of their
numbers, and all later events but allocations wait too. -/
structure InLine (d : Device) : Prop where
  queue_eq : d.queue.map Pending.event =
    (List.range d.log.size).filter fun id => d.status? id = some .queued
  waiting : ∀ {id later : EventId} {r : EventRecord}, id < later → d.status? id = some .queued →
    d.log.get? later = some r → r.kind ≠ .allocate → r.status = .queued
  settled : ∀ {id : EventId} {r : EventRecord}, d.log.get? id = some r →
    r.status = .queued ∨ r.status.Ended
  eager : d.options.deferred = false → d.queue = []

section InLine

variable {d d' : Device} {W : List EventId → Prop}

variable {id : EventId} {status : EventStatus}

theorem lt_size_of_status? (h : d.status? id = some status) : id < d.log.size := by
  obtain ⟨r, hr, -⟩ := Option.map_eq_some_iff.1 h
  rw [EventLog.get?_eq] at hr
  have hlt := (List.getElem?_eq_some_iff.1 hr).1
  simpa using hlt

theorem InLine.mem_queue_iff (hd : d.InLine) :
    id ∈ d.queue.map Pending.event ↔ d.status? id = some .queued := by
  rw [hd.queue_eq, List.mem_filter, List.mem_range, decide_eq_true_iff]
  exact and_iff_right_of_imp lt_size_of_status?

theorem InLine.aside (hd : d.InLine) (hlog : d'.log = d.log) (hqueue : d'.queue = d.queue)
    (hoptions : d'.options = d.options) : d'.InLine := by
  have hstatus : d'.status? = d.status? := by
    funext id
    rw [status?, status?, hlog]
  refine ⟨?_, ?_, ?_, ?_⟩
  · rw [hqueue, hlog, hstatus]
    exact hd.queue_eq
  · rw [hstatus, hlog]
    exact hd.waiting
  · rw [hlog]
    exact hd.settled
  · rw [hqueue, hoptions]
    exact hd.eager

/-- A new event takes its place behind the others: it waits, it is an allocation, or nothing waits
that it could overtake. -/
theorem InLine.add (hd : d.InLine) {r : EventRecord} (hsize : d'.log.size = d.log.size + 1)
    (hlog : ∀ id : EventId, d'.log.get? id = if id = d.log.size then some r else d.log.get? id)
    (hqueue : d'.queue.map Pending.event =
      d.queue.map Pending.event ++ if r.status = .queued then [d.log.size] else [])
    (hstatus : r.status = .queued ∨ r.status.Ended)
    (hturn : r.status = .queued ∨ r.kind = .allocate ∨ d.queue = [])
    (heager : d'.options.deferred = false → d'.queue = []) : d'.InLine := by
  have hold : ∀ id : EventId, id < d.log.size → d'.status? id = d.status? id := by
    intro id hid
    rw [status?, hlog, if_neg (Nat.ne_of_lt hid), status?]
  have hnew : d'.status? d.log.size = some r.status := by
    rw [status?, hlog, if_pos rfl, Option.map_some]
  refine ⟨?_, ?_, ?_, heager⟩
  · have hbefore : (List.range d.log.size).filter (fun id => d'.status? id = some .queued) =
        (List.range d.log.size).filter fun id => d.status? id = some .queued := by
      apply List.filter_congr
      intro id hid
      rw [hold id (List.mem_range.1 hid)]
    rw [hqueue, hd.queue_eq, hsize, List.range_succ, List.filter_append, hbefore]
    by_cases hwaits : r.status = .queued
    · simp [hnew, hwaits]
    · simp [hnew, hwaits]
  · intro id later r' hid hqueued hr' hkind
    have hrecorded : d'.status? later = some r'.status := by rw [status?, hr', Option.map_some]
    have hlater : later < d.log.size + 1 := hsize ▸ lt_size_of_status? hrecorded
    have hidlt : id < d.log.size := Nat.lt_of_lt_of_le hid (Nat.le_of_lt_succ hlater)
    rw [hold id hidlt] at hqueued
    rw [hlog] at hr'
    by_cases heq : later = d.log.size
    · rw [if_pos heq] at hr'
      cases hr'
      rcases hturn with hwaits | hallocate | hempty
      · exact hwaits
      · exact absurd hallocate hkind
      · have hmem := hd.mem_queue_iff.2 hqueued
        simp [hempty] at hmem
    · rw [if_neg heq] at hr'
      exact hd.waiting hid hqueued hr' hkind
  · intro id r' hr'
    rw [hlog] at hr'
    split_ifs at hr'
    · cases hr'
      exact hstatus
    · exact hd.settled hr'

theorem status?_setStatus_queue (d : Device) (rest : List Pending) (event : EventId)
    (status : EventStatus) (id : EventId) :
    (Device.setStatus { d with queue := rest } event status).status? id =
      if event = id then (d.status? id).map fun _ => status else d.status? id := by
  simp only [status?, setStatus, EventLog.get?_setStatus]
  cases d.log.get? id with
  | none => simp
  | some r => by_cases hid : event = id <;> simp [hid]

variable {p : Pending} {rest : List Pending}

/-- The queue is sorted, so its first event has the smallest number. -/
theorem InLine.head_lt (hd : d.InLine) (hqueue : d.queue = p :: rest)
    (hid : id ∈ rest.map Pending.event) :
    p.event < id := by
  have hsorted : (d.queue.map Pending.event).Pairwise (· < ·) := by
    rw [hd.queue_eq]
    exact List.pairwise_lt_range.filter _
  rw [hqueue, List.map_cons] at hsorted
  exact (List.pairwise_cons.1 hsorted).1 id hid

/-- The oldest event that waits has ended, so the others are those that wait now. -/
theorem InLine.queue_take (hd : d.InLine) (hqueue : d.queue = p :: rest)
    (hwaits : status ≠ .queued) :
    rest.map Pending.event = (List.range d.log.size).filter fun id =>
      (Device.setStatus { d with queue := rest } p.event status).status? id = some .queued := by
  have hfilter : (List.range d.log.size).filter (fun id =>
      (Device.setStatus { d with queue := rest } p.event status).status? id = some .queued) =
      ((List.range d.log.size).filter fun id => d.status? id = some .queued).filter
        fun id => id ≠ p.event := by
    rw [List.filter_filter]
    apply List.filter_congr
    intro id _
    rw [status?_setStatus_queue]
    by_cases hid : p.event = id
    · cases d.status? id <;> simp [hid, hwaits]
    · simp [hid, Ne.symm hid]
  have hothers : (rest.map Pending.event).filter (fun id => id ≠ p.event) =
      rest.map Pending.event := by
    apply List.filter_eq_self.2
    intro id hid
    simpa using Nat.ne_of_gt (hd.head_lt hqueue hid)
  rw [hfilter, ← hd.queue_eq, hqueue, List.map_cons, List.filter_cons]
  simpa using hothers.symm

theorem InLine.take (hd : d.InLine) (hqueue : d.queue = p :: rest) (hstatus : status.Ended) :
    (Device.setStatus { d with queue := rest } p.event status).InLine := by
  have hwaits : status ≠ .queued := by
    rintro rfl
    simp [Ended] at hstatus
  have hsize : (Device.setStatus { d with queue := rest } p.event status).log.size = d.log.size :=
    EventLog.size_setStatus _ _ _
  refine ⟨?_, ?_, ?_, ?_⟩
  · rw [hsize]
    exact hd.queue_take hqueue hwaits
  · intro id later r hid hqueued hr hkind
    rw [status?_setStatus_queue] at hqueued
    have hne : p.event ≠ id := by
      rintro rfl
      cases hold : d.status? p.event <;> simp [hold, hwaits] at hqueued
    rw [if_neg hne] at hqueued
    have hmem : id ∈ rest.map Pending.event := by
      have hmem := hd.mem_queue_iff.2 hqueued
      rw [hqueue, List.map_cons, List.mem_cons] at hmem
      exact hmem.resolve_left (Ne.symm hne)
    have hlater : p.event ≠ later := Nat.ne_of_lt ((hd.head_lt hqueue hmem).trans hid)
    simp only [setStatus, EventLog.get?_setStatus, hlater, if_false] at hr
    exact hd.waiting hid hqueued (by simpa using hr) hkind
  · intro id r hr
    simp only [setStatus, EventLog.get?_setStatus] at hr
    obtain ⟨old, hold, rfl⟩ := Option.map_eq_some_iff.1 hr
    by_cases hid : p.event = id
    · simp [hid, hstatus]
    · simpa [hid] using hd.settled hold
  · intro heager
    have hempty := hd.eager heager
    simp [hqueue] at hempty

theorem Move.inLine (h : d.Move W Ended d') (hd : d.InLine) : d'.InLine := by
  cases h with
  | aside hlog hqueue hoptions => exact hd.aside hlog hqueue hoptions
  | allocated label =>
    exact hd.add (r := ⟨.allocate, .complete, label, []⟩) rfl (EventLog.get?_add d.log _)
      (by simp [record]) (.inr (.inl rfl)) (.inr (.inl rfl)) hd.eager
  | queued kind label wait c hdeferred =>
    have heager : ¬d.options.deferred = false := by simp [hdeferred]
    exact hd.add (r := ⟨kind, .queued, label, wait⟩) rfl (EventLog.get?_add d.log _)
      (by simp) (.inl rfl) (.inl rfl) fun h => absurd h heager
  | ran kind label wait status heager _ _ hstatus =>
    have hempty := hd.eager heager
    have hwaits : status ≠ .queued := by
      rintro rfl
      simp [Ended] at hstatus
    exact hd.add (r := ⟨kind, status, label, wait⟩) (by simp [record, setStatus])
      (EventLog.get?_add_setStatus d.log _ _) (by simp [record, setStatus, hwaits]) (.inr hstatus)
      (.inr (.inr hempty)) hd.eager
  | taken p rest status hqueue hstatus => exact hd.take hqueue hstatus

/-- An event that has ended stays as it is. -/
theorem Move.status?_eq (h : d.Move W Ended d') (hd : d.InLine) (hended : status.Ended)
    (hstatus : d.status? id = some status) : d'.status? id = some status := by
  have hne : id ≠ d.log.size := Nat.ne_of_lt (lt_size_of_status? hstatus)
  cases h with
  | aside hlog => rw [status?, hlog, ← status?, hstatus]
  | allocated label => rw [status?, record, EventLog.get?_add, if_neg hne, ← status?, hstatus]
  | queued kind label wait c =>
    rw [status?, record, EventLog.get?_add, if_neg hne, ← status?, hstatus]
  | ran kind label wait status' =>
    rw [status?, record, setStatus, EventLog.get?_add_setStatus, if_neg hne, ← status?, hstatus]
  | taken p rest status' hqueue =>
    -- What is taken from the queue was waiting.
    have hother : p.event ≠ id := by
      rintro rfl
      have hqueued := hd.mem_queue_iff.1 (hqueue ▸ List.mem_map_of_mem List.mem_cons_self)
      rw [hstatus] at hqueued
      cases hqueued
      simp [Ended] at hended
    rw [status?_setStatus_queue, if_neg hother, hstatus]

theorem Moves.inLine (h : d.Moves W Ended d') (hd : d.InLine) : d'.InLine := by
  induction h with
  | refl => exact hd
  | tail _ hmove ih => exact hmove.inLine ih

theorem Moves.status?_eq (h : d.Moves W Ended d') (hd : d.InLine) (hended : status.Ended)
    (hstatus : d.status? id = some status) : d'.status? id = some status := by
  induction h with
  | refl => exact hstatus
  | tail hmoves hmove ih => exact hmove.status?_eq (Moves.inLine hmoves hd) hended ih

end InLine

end Device

variable {s : Station}

namespace Station

variable (buffer : BufferId) (object : Nat)

theorem advances_operate (op : Operation) : Advances (fun _ => True) (operate op) := by
  have hmodify : ∀ {f : Station → Station}, (∀ s, (f s).device.log = s.device.log ∧
      (f s).device.queue = s.device.queue ∧ (f s).device.options = s.device.options) →
      Advances (fun _ => True) (do
        modify f
        return (none : Option EventId)) := by
    intro f hf d
    refine upholds_bind (upholds_modify fun s hs => ?_) fun _ => upholds_pure
    obtain ⟨hlog, hqueue, hoptions⟩ := hf s
    exact hs.tail (.aside hlog hqueue hoptions)
  have hthen : ∀ {α : Type} {x : DeviceAction α} (f : α → Option EventId),
      Advances (fun _ => True) x → Advances (fun _ => True) (do
        let a ← x
        return f a) := fun f hx d =>
    upholds_bind (hx d) fun _ => upholds_pure
  cases op with
  | load => exact hmodify fun s => ⟨rfl, rfl, rfl⟩
  | allocate object bytes => exact hthen _ (advances_allocate object bytes)
  | release buffer => exact hthen (fun _ => none) (advances_release buffer)
  | write buffer object window wait =>
    exact hthen some (advances_write buffer object window trivial)
  | read buffer object window wait blocking =>
    exact hthen some (advances_read buffer object window trivial blocking)
  | install task =>
    have hinstall : Advances (fun _ => True) (install task) := fun d =>
      Keeps.upholds (keeps_moves_install task) ended_of_succeeded
    exact hthen (fun _ => none) hinstall
  | launch code frame task window wait =>
    exact hthen _ (advances_launch code frame task window trivial)
  | marker wait => exact hthen some (advances_marker trivial)
  | resolve event => exact hthen (fun _ => none) (advances_resolve event)
  | flush => exact hthen (fun _ => none) advances_flush
  | register name k => exact hmodify fun s => ⟨rfl, rfl, rfl⟩
  | outside objects => exact hmodify fun s => ⟨rfl, rfl, rfl⟩

theorem moves_operate (op : Operation) (s : Station) :
    s.device.Moves (fun _ => True) Ended ((operate op).run s).2.device :=
  (advances_operate op).moves s

theorem moves_operated (ops : List Operation) (s : Station) :
    s.device.Moves (fun _ => True) Ended (operated ops s).device := by
  induction ops generalizing s with
  | nil => exact .refl
  | cons op others ih => exact (moves_operate op s).trans (ih _)

/-! ## Counters -/

/-- The log has `n` events, and the counters agree with it but for the kinds in `ahead`, which are
counted and not recorded yet. -/
structure Tallies (ahead : List EventKind) (n : Nat) (s : Station) : Prop where
  size_eq : s.device.log.size = n
  counted : ∀ kind, s.device.counters.of kind = s.device.log.kinds.count kind + ahead.count kind

variable {ahead : List EventKind} {n : Nat}

/-- A change of a device that touches neither its counters nor the kinds of its events. -/
theorem Tallies.congr {t : Station} (hs : s.Tallies ahead n)
    (hkinds : t.device.log.kinds = s.device.log.kinds)
    (hcounters : t.device.counters = s.device.counters) : t.Tallies ahead n := by
  refine ⟨?_, ?_⟩
  · rw [← EventLog.length_kinds, hkinds, EventLog.length_kinds, hs.size_eq]
  · rw [hkinds, hcounters]
    exact hs.counted

theorem Tallies.perform (hs : s.Tallies ahead n) (event : EventId) (c : Command) :
    (Station.perform event c s).2.Tallies ahead n := by
  obtain ⟨status, memory, hdevice, -⟩ := device_perform event c s
  refine hs.congr ?_ ?_
  · rw [hdevice]
    exact EventLog.kinds_setStatus _ _ _
  · rw [hdevice]
    rfl

theorem keeps_tallies_drain (last : Option EventId) : Keeps (Tallies ahead n) (drain last) :=
  keeps_drain_of_perform (fun _ _ hs => hs.congr rfl rfl)
    (fun event c _ hs => hs.perform event c) last

/-- One operation more of a kind is counted. -/
theorem meets_tallies_count (kind : EventKind) {f : Counters → Counters} {E : Station → Prop}
    (hf : ∀ c k, (f c).of k = c.of k + [kind].count k) :
    Meets (Tallies [] n) (count f) (fun _ => Tallies [kind] n) E := by
  refine meets_modify fun s hs => ⟨hs.size_eq, fun k => ?_⟩
  have hcounted := hs.counted k
  change (f s.device.counters).of k = _
  rw [hf, hcounted]
  rfl

/-- What is counted are not operations with an event. -/
theorem keeps_tallies_count {f : Counters → Counters} (hf : ∀ c k, (f c).of k = c.of k) :
    Keeps (Tallies ahead n) (count f) := by
  refine keeps_modify fun s hs => ⟨hs.size_eq, fun k => ?_⟩
  have hcounted := hs.counted k
  change (f s.device.counters).of k = _
  rw [hf, hcounted]
  rfl

/-- An operation that was counted is recorded; its event has the next number. -/
theorem meets_tallies_submit (kind : EventKind) (label : String) (wait : List EventId)
    (c : Command) :
    Meets (Tallies [kind] n) (submit kind label wait c)
      (fun event s => s.Tallies [] (n + 1) ∧ event = n) (Tallies [] (n + 1)) := by
  intro s hs
  have hrecorded : (s.recorded kind label wait).Tallies [] (n + 1) := by
    refine ⟨?_, fun k => ?_⟩
    · rw [← hs.size_eq]
      rfl
    · have hkinds : (s.recorded kind label wait).device.log.kinds = s.device.log.kinds ++ [kind] :=
        EventLog.kinds_add _ _
      rw [hkinds, List.count_append]
      exact hs.counted k
  cases hdeferred : s.device.options.deferred with
  | true =>
    rw [run_submit_deferred kind label wait c hdeferred]
    exact ⟨hrecorded.congr rfl rfl, hs.size_eq⟩
  | false =>
    have hperform := hrecorded.perform s.device.log.size c
    rw [run_submit_performed kind label wait c hdeferred]
    cases (c.execute s.device.memory s.objects).1 with
    | ok u => exact ⟨hperform, hs.size_eq⟩
    | error fault => exact hperform

/-- The counters and the log agree. -/
def Tallied (s : Station) : Prop := ∃ n, s.Tallies [] n

theorem Tallies.tallied (hs : s.Tallies [] n) : s.Tallied := ⟨n, hs⟩

/-! ### Operations without an event -/

theorem keeps_tallies_release : Keeps (Tallies ahead n) (release buffer) :=
  keeps_release_of_drain keeps_tallies_drain fun _ hs => hs.congr rfl rfl

theorem keeps_tallies_install (task : String) : Keeps (Tallies ahead n) (install task) := by
  refine keeps_install_of_count (keeps_tallies_count fun c k => ?_) task
  cases k <;> rfl

theorem keeps_tallies_resolve (event : EventId) : Keeps (Tallies ahead n) (resolve event) :=
  keeps_resolve_of_drain keeps_tallies_drain event

theorem keeps_tallies_flush : Keeps (Tallies ahead n) flush := by
  refine keeps_bind (keeps_tallies_count fun c k => ?_) fun _ => keeps_tallies_drain none
  cases k <;> rfl

/-! ### Operations with an event -/

theorem meets_tallies_allocate (bytes : Nat) :
    Meets (Tallies [] n) (allocate object bytes)
      (fun made s => s.Tallies [] (n + 1) ∧ made.2 = n) Tallied := by
  intro s hs
  by_cases hbytes : bytes < memoryLimit
  · rw [run_allocate object hbytes]
    refine ⟨⟨?_, fun k => ?_⟩, hs.size_eq⟩
    · rw [← hs.size_eq]
      rfl
    · have hcounted := hs.counted k
      simp only [EventLog.kinds_add, List.count_append, allocationRecord]
      cases k <;> simp_all [Counters.of]
  · simp only [allocate, if_pos (Nat.not_lt.1 hbytes)]
    exact hs.tallied

theorem meets_tallies_write (window : Option Window) (wait : List EventId) :
    Meets (Tallies [] n) (write buffer object window wait)
      (fun event s => s.Tallies [] (n + 1) ∧ event = n) Tallied := by
  refine meets_then (keeps_checkWindow object window) (fun _ hs => hs.tallied) fun _ => ?_
  refine meets_bind (meets_tallies_count .write ?_) fun _ => meets_look fun s => ?_
  · intro c k
    cases k <;> rfl
  · exact meets_imp (meets_tallies_submit _ _ _ _) (fun _ _ => id) fun _ hs => hs.tallied

theorem meets_tallies_read (window : Option Window) (wait : List EventId) (blocking : Bool) :
    Meets (Tallies [] n) (read buffer object window wait blocking)
      (fun event s => s.Tallies [] (n + 1) ∧ event = n) Tallied := by
  refine meets_then (keeps_checkWindow object window) (fun _ hs => hs.tallied) fun _ => ?_
  refine meets_bind (meets_tallies_count .read ?_) fun _ => meets_look fun s => ?_
  · intro c k
    cases k <;> rfl
  · refine meets_then (meets_tallies_submit _ _ _ _) (fun _ hs => hs.tallied) fun event =>
      meets_of_fact fun hevent => ?_
    split
    · refine meets_then (keeps_tallies_drain _) (fun _ hs => hs.tallied) fun _ => ?_
      exact meets_pure fun s hs => ⟨hs, hevent⟩
    · exact meets_pure fun s hs => ⟨hs, hevent⟩

theorem meets_tallies_launch (code : InstalledCode) (frame : CallFrame) (task : String)
    (window : Option Window) (wait : List EventId) :
    Meets (Tallies [] n) (launch code frame task window wait)
      (fun made s => s.Tallies [] (n + 1) ∧ made.1 = n) Tallied := by
  refine meets_bind (meets_tallies_count .launch ?_) fun _ => ?_
  · intro c k
    cases k <;> rfl
  · refine meets_then (meets_tallies_submit _ _ _ _) (fun _ hs => hs.tallied) fun event =>
      meets_of_fact fun hevent => ?_
    exact meets_look fun s => meets_pure fun s hs => ⟨hs, hevent⟩

theorem meets_tallies_marker (wait : List EventId) :
    Meets (Tallies [] n) (marker wait) (fun event s => s.Tallies [] (n + 1) ∧ event = n)
      Tallied := by
  refine meets_bind (meets_tallies_count .marker ?_) fun _ => ?_
  · intro c k
    cases k <;> rfl
  · exact meets_imp (meets_tallies_submit _ _ _ _) (fun _ _ => id) fun _ hs => hs.tallied

/-- An operation submits nothing or one event, of the next number. -/
theorem meets_tallies_operate (op : Operation) :
    Meets (Tallies [] n) (operate op)
      (fun event s => s.Tallied ∧ ∀ id, event = some id → id = n ∧ s.Tallies [] (n + 1))
      Tallied := by
  have hquiet : ∀ {α : Type} {x : DeviceAction α}, Keeps (Tallies [] n) x →
      Meets (Tallies [] n)
        (do
          let _ ← x
          return (none : Option EventId))
        (fun event s => s.Tallied ∧ ∀ id, event = some id → id = n ∧ s.Tallies [] (n + 1))
        Tallied := by
    intro α x hx
    refine meets_then hx (fun _ hs => hs.tallied) fun _ => ?_
    exact meets_pure fun s hs => ⟨hs.tallied, nofun⟩
  have hsubmitted : ∀ {α : Type} {x : DeviceAction α} {f : α → EventId},
      Meets (Tallies [] n) x (fun a s => s.Tallies [] (n + 1) ∧ f a = n) Tallied →
      Meets (Tallies [] n)
        (do
          let a ← x
          return some (f a))
        (fun event s => s.Tallied ∧ ∀ id, event = some id → id = n ∧ s.Tallies [] (n + 1))
        Tallied := by
    intro α x f hx
    refine meets_bind hx fun a => meets_pure fun s hs => ⟨hs.1.tallied, ?_⟩
    rintro _ ⟨⟩
    exact ⟨hs.2, hs.1⟩
  cases op with
  | load => exact hquiet (keeps_modify fun s hs => hs.congr rfl rfl)
  | register name k => exact hquiet (keeps_modify fun s hs => hs.congr rfl rfl)
  | outside objects => exact hquiet (keeps_modify fun s hs => hs.congr rfl rfl)
  | release buffer => exact hquiet (keeps_tallies_release buffer)
  | install task => exact hquiet (keeps_tallies_install task)
  | resolve event => exact hquiet (keeps_tallies_resolve event)
  | flush => exact hquiet keeps_tallies_flush
  | allocate object bytes => exact hsubmitted (meets_tallies_allocate object bytes)
  | write buffer object window wait =>
    exact hsubmitted (f := id) (meets_tallies_write buffer object window wait)
  | read buffer object window wait blocking =>
    exact hsubmitted (f := id) (meets_tallies_read buffer object window wait blocking)
  | launch code frame task window wait =>
    exact hsubmitted (meets_tallies_launch code frame task window wait)
  | marker wait => exact hsubmitted (f := id) (meets_tallies_marker wait)

theorem Tallied.operated (hs : s.Tallied) (ops : List Operation) :
    (Station.operated ops s).Tallied := by
  induction ops generalizing s with
  | nil => exact hs
  | cons op others ih =>
    obtain ⟨n, hs⟩ := hs
    have hop : Meets (Tallies [] n) (operate op) (fun _ => Tallied) Tallied :=
      meets_post (meets_tallies_operate op) fun _ _ hs => hs.1
    exact ih (meets_iff_after.1 hop s hs)

end Station

/-! ## All together -/

/-- A device whose events, queue and counters are in order. -/
structure Device.InOrder (d : Device) : Prop where
  /-- The events are numbered from zero on. -/
  numbered : d.events.map Event.id = (List.range d.log.size).map some
  /-- The queue holds exactly the events that wait, each once, in the order of their numbers. -/
  queue_eq : d.queue.map Pending.event =
    (List.range d.log.size).filter fun id => d.status? id = some .queued
  /-- Nothing but an allocation overtakes an event that waits. -/
  waiting : ∀ (id later : EventId) (r : EventRecord), id < later → d.status? id = some .queued →
    d.log.get? later = some r → r.kind ≠ .allocate → r.status = .queued
  known : ∀ r ∈ d.log.records, r.status ≠ .running ∧ r.status ≠ .unknown
  /-- Every counter is the number of the events of its kind. -/
  counted : ∀ kind, d.counters.of kind = d.log.kinds.count kind
  eager : d.options.deferred = false → d.queue = []

namespace Station

theorem opened_inLine (name : String) (options : DeviceOptions) (kernels : Registry)
    (objects : List HostObject) : (opened name options kernels objects).device.InLine := by
  have hnone : ∀ id, (opened name options kernels objects).device.log.get? id = none := fun _ => rfl
  refine ⟨rfl, ?_, ?_, fun _ => rfl⟩
  · intro id later r _ _ hr
    simp [hnone] at hr
  · intro id r hr
    simp [hnone] at hr

theorem opened_tallied (name : String) (options : DeviceOptions) (kernels : Registry)
    (objects : List HostObject) : (opened name options kernels objects).Tallied := by
  refine ⟨0, rfl, fun kind => ?_⟩
  cases kind <;> rfl

theorem inOrder_of_inLine (hline : s.device.InLine) (htally : s.Tallied) : s.device.InOrder := by
  obtain ⟨n, htally⟩ := htally
  refine ⟨?_, hline.queue_eq, fun id later r => hline.waiting, fun r hr => ?_, ?_, hline.eager⟩
  · apply List.ext_getElem?
    intro i
    simp only [Device.events, List.map_map, List.getElem?_map, List.getElem?_zipIdx]
    by_cases hi : i < s.device.log.size <;> simp [hi]
  · obtain ⟨id, hid⟩ := List.mem_iff_getElem?.1 hr
    rw [← EventLog.get?_eq] at hid
    rcases hline.settled hid with hstatus | hstatus | hstatus <;> simp [hstatus]
  · simpa using htally.counted

/-- A device keeps its queue in order, whatever is asked of it. At every time its events are
numbered in the order of submission, its queue lists those that wait, nothing overtakes them but
allocations, and the counters are right. The next operation that submits an event gives it the next
number. Later, the log has the same events in the same places, and those that had ended are as they
were. -/
theorem operated_inOrder (name : String) (options : DeviceOptions) (kernels : Registry)
    (objects : List HostObject) (ops : List Operation) :
    let s := operated ops (opened name options kernels objects)
    s.device.InOrder ∧
      (∀ op id t, (operate op).run s = (.ok (some id), t) →
        id = s.device.log.size ∧ t.device.log.size = id + 1) ∧
      ∀ later, s.device.log.issued <+: (operated later s).device.log.issued ∧
        ∀ id status, status = .complete ∨ status = .failed → s.device.status? id = some status →
          (operated later s).device.status? id = some status := by
  intro s
  have hline : s.device.InLine := Device.Moves.inLine (moves_operated ops _) (opened_inLine ..)
  have htally : s.Tallied := Tallied.operated (opened_tallied ..) ops
  refine ⟨inOrder_of_inLine hline htally, fun op id t hrun => ?_, fun later => ⟨?_, ?_⟩⟩
  · obtain ⟨n, htally⟩ := htally
    have hoperate := meets_tallies_operate op s htally
    rw [hrun] at hoperate
    obtain ⟨hid, hnext⟩ := hoperate.2 id rfl
    exact ⟨by rw [hid, htally.size_eq], by rw [hid, hnext.size_eq]⟩
  · obtain ⟨new, hnew, -⟩ := (moves_operated later s).issued
    exact ⟨new, hnew.symm⟩
  · intro id status hended hstatus
    exact Device.Moves.status?_eq (moves_operated later s) hline hended hstatus

/-- A write is run by a flush and a second one waits behind it. The first one stays complete from
then on. -/
theorem operated_inOrder_flushed :
    let s := operated [.allocate 0 4, .write 0 0 none [], .flush, .write 0 0 none [1]]
      (opened "d" { deferred := true } .builtin [⟨"a", [1, 2, 3, 4]⟩])
    s.device.InOrder ∧ s.device.queue.map Pending.event = [2] ∧
      s.device.status? 1 = some .complete ∧
      ∀ later, (operated later s).device.status? 1 = some .complete := by
  intro s
  obtain ⟨horder, -, hlater⟩ :=
    operated_inOrder "d" { deferred := true } .builtin [⟨"a", [1, 2, 3, 4]⟩]
      [.allocate 0 4, .write 0 0 none [], .flush, .write 0 0 none [1]]
  have hqueue : s.device.queue.map Pending.event = [2] := by decide +kernel
  have hstatus : s.device.status? 1 = some .complete := by decide +kernel
  exact ⟨horder, hqueue, hstatus, fun later => (hlater later).2 1 .complete (.inl rfl) hstatus⟩

end Station

end Offload
