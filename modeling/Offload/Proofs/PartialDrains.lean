import Offload.Proofs.QueueOrder

/-!
# Draining a queue in steps

A queue may be drained at once or in steps, each step through some event that waits. Either way the
commands are carried out in the order of the queue, each on what those before it have left and
whatever has become of them. So the station is the same in the end. A step tells the first fault
among the commands that it has carried out; asked again for the same event, the device has nothing
to do and tells how it ended.
-/

namespace Offload

open Offload.Action

variable {f : Device → Device} {last : Option EventId} {before after : List Pending} {p : Pending}

/-- The device with what commands may change in it. -/
def Device.worked (d : Device) (memory : Memory) (log : EventLog) : Device := { d with memory, log }

/-- A change of a device that its commands neither see nor undo. -/
def Device.Unseen (f : Device → Device) : Prop :=
  ∀ (d : Device) (memory : Memory) (log : EventLog),
    f (d.worked memory log) = (f d).worked memory log

namespace Station

variable (event : EventId) (s : Station)

/-- The station with another queue. -/
def withQueue (s : Station) (queue : List Pending) : Station := s.onDevice fun d => { d with queue }

/-- Carry out commands one after another, whatever becomes of each. Gives their outcomes in order
and the station after all of them. -/
def performEach : List Pending → Station → List (Except DeviceFault Unit) × Station
  | [], s => ([], s)
  | p :: rest, s =>
    let (result, s) := perform p.event p.command s
    let (results, s) := performEach rest s
    (result :: results, s)

/-- The fault of a command, if it has failed. -/
def faultOf : Except DeviceFault Unit → Option DeviceFault
  | .ok _ => none
  | .error fault => some fault

/-- The fault of the first command that has failed. -/
def firstFault (results : List (Except DeviceFault Unit)) :
    Option DeviceFault := results.findSome? faultOf

theorem firstFault_nil : firstFault [] = none := rfl

theorem firstFault_cons (result : Except DeviceFault Unit)
    (results : List (Except DeviceFault Unit)) :
    firstFault (result :: results) = (faultOf result).or (firstFault results) := by
  rw [firstFault, List.findSome?_cons]
  cases faultOf result <;> rfl

theorem firstFault_append (results later : List (Except DeviceFault Unit)) :
    firstFault (results ++ later) = (firstFault results).or (firstFault later) :=
  List.findSome?_append

/-! ## Carrying out commands -/

theorem perform_onDevice (hf : Device.Unseen f) (event : EventId) (c : Command) (s : Station) :
    perform event c (s.onDevice f) = ((perform event c s).1, (perform event c s).2.onDevice f) := by
  have hself : f s.device = (f s.device).worked s.device.memory s.device.log :=
    hf s.device s.device.memory s.device.log
  have hmemory : (f s.device).memory = s.device.memory := by
    rw [hself]
    rfl
  have hlog : (f s.device).log = s.device.log := by
    rw [hself]
    rfl
  have hafter : f (perform event c s).2.device =
      (f s.device).worked (perform event c s).2.device.memory (perform event c s).2.device.log :=
    hf s.device _ _
  rw [onDevice, onDevice, hafter]
  simp only [perform, Device.setStatus, Device.worked, hmemory, hlog]

theorem performEach_onDevice (hf : Device.Unseen f) (run : List Pending) (s : Station) :
    performEach run (s.onDevice f) = ((performEach run s).1, (performEach run s).2.onDevice f) := by
  induction run generalizing s with
  | nil => rfl
  | cons p rest ih => simp only [performEach, perform_onDevice hf, ih]

theorem performEach_append (run later : List Pending) (s : Station) :
    performEach (run ++ later) s =
      ((performEach run s).1 ++ (performEach later (performEach run s).2).1,
        (performEach later (performEach run s).2).2) := by
  induction run generalizing s with
  | nil => rfl
  | cons p rest ih => simp only [List.cons_append, performEach, ih]

/-- The commands of a queue do not see what waits behind them. -/
theorem unseen_queue (queue : List Pending) : Device.Unseen fun d => { d with queue } :=
  fun _ _ _ => rfl

theorem performEach_withQueue (run queue : List Pending) (s : Station) :
    performEach run (s.withQueue queue) =
      ((performEach run s).1, (performEach run s).2.withQueue queue) :=
  performEach_onDevice (unseen_queue queue) run s

theorem unseen_counters (f : Counters → Counters) :
    Device.Unseen fun d => { d with counters := f d.counters } := fun _ _ _ => rfl

/-! ## Running a queue -/

/-- What is run is the list that is given, not the queue of the station. -/
theorem runThrough_withQueue (last : Option EventId) (run queue : List Pending) (s : Station) :
    runThrough last run (s.withQueue queue) = runThrough last run s := by
  cases run <;> rfl

theorem runThrough_cons (last : Option EventId) (p : Pending) (rest : List Pending) (s : Station) :
    runThrough last (p :: rest) s =
      if last = some p.event then
        (faultOf (perform p.event p.command s).1, (perform p.event p.command s).2.withQueue rest)
      else
        ((faultOf (perform p.event p.command s).1).or
            (runThrough last rest (perform p.event p.command s).2).1,
          (runThrough last rest (perform p.event p.command s).2).2) := by
  rw [runThrough, perform_onDevice (unseen_queue rest)]
  rcases perform p.event p.command s with ⟨result, t⟩
  have hrest : runThrough last rest (t.onDevice fun d => { d with queue := rest }) =
      runThrough last rest t := runThrough_withQueue last rest rest t
  cases result with
  | ok u => simp only [faultOf, hrest, withQueue]
  | error fault => simp only [faultOf, hrest, withQueue]

/-- The commands in front of the one at which the run stops are carried out in order. -/
theorem runThrough_append (hbefore : ∀ q ∈ before, last ≠ some q.event) (queue : List Pending)
    (s : Station) :
    runThrough last (before ++ queue) s =
      ((firstFault (performEach before s).1).or (runThrough last queue (performEach before s).2).1,
        (runThrough last queue (performEach before s).2).2) := by
  induction before generalizing s with
  | nil => simp only [performEach, firstFault_nil, Option.none_or, List.nil_append]
  | cons q rest ih =>
    have hrest : ∀ q ∈ rest, last ≠ some q.event := fun q hq =>
      hbefore q (List.mem_cons_of_mem _ hq)
    rw [List.cons_append, runThrough_cons, if_neg (hbefore q List.mem_cons_self), ih hrest]
    simp only [performEach, firstFault_cons, Option.or_assoc]

theorem runThrough_none (queue : List Pending) (s : Station) :
    runThrough none queue s =
      (firstFault (performEach queue s).1, (performEach queue s).2.withQueue []) := by
  have hopen : ∀ q ∈ queue, none ≠ some q.event := fun _ _ => by simp
  have happend := runThrough_append hopen [] s
  rw [List.append_nil] at happend
  rw [happend, runThrough, Option.or_none]
  rfl

theorem runThrough_through (hbefore : ∀ q ∈ before, q.event ≠ p.event) (after : List Pending)
    (s : Station) :
    runThrough (some p.event) (before ++ p :: after) s =
      (firstFault (performEach (before ++ [p]) s).1,
        (performEach (before ++ [p]) s).2.withQueue after) := by
  have hlast : ∀ q ∈ before, some p.event ≠ some q.event := fun q hq h =>
    hbefore q hq (Option.some.inj h).symm
  rw [runThrough_append hlast, runThrough_cons, if_pos rfl, performEach_append, firstFault_append]
  simp only [performEach, firstFault_cons, firstFault_nil, Option.or_none]

/-! ## Waiting for an event -/

theorem run_drain (last : Option EventId) (s : Station) :
    (drain last).run s =
      ((runThrough last s.device.queue s).1.elim (.ok ()) .error,
        (runThrough last s.device.queue s).2) := by
  rw [Action.run, drain]
  rcases runThrough last s.device.queue s with ⟨fault, t⟩
  cases fault <;> rfl

theorem run_inspect :
    (inspect event).run s =
      ((s.device.event? event).elim (.error (.unknownEvent event)) .ok, s) := by
  simp only [inspect, run_bind, run_get]
  cases s.device.event? event <;> rfl

theorem run_resolve_of_not_queued {s : Station} {event : EventId}
    (h : s.device.isQueued event = false) :
    (resolve event).run s = (inspect event).run s := by
  simp [resolve, run_bind, run_get, h]

theorem run_resolve_of_queued {s : Station} (hqueue : s.device.queue = before ++ p :: after)
    (hbefore : ∀ q ∈ before, q.event ≠ p.event) :
    let done := performEach (before ++ [p]) s
    (resolve p.event).run s =
      ((firstFault done.1).elim ((inspect p.event).run (done.2.withQueue after)).1 .error,
        done.2.withQueue after) := by
  intro done
  have hqueued : s.device.isQueued p.event = true := by simp [Device.isQueued, hqueue]
  have hdrain : (drain (some p.event)).run s =
      ((firstFault done.1).elim (.ok ()) .error, done.2.withQueue after) := by
    rw [run_drain, hqueue, runThrough_through hbefore]
  have hresolve : (resolve p.event).run s =
      ((drain (some p.event)) >>= fun _ => inspect p.event).run s := by
    simp [resolve, run_bind, run_get, hqueued]
  rw [hresolve, run_bind, hdrain]
  cases firstFault done.1 with
  | none =>
    have hsame : ((inspect p.event).run (done.2.withQueue after)).2 = done.2.withQueue after := by
      rw [run_inspect]
    exact Prod.ext rfl hsame
  | some fault => rfl

theorem exists_first_of_isQueued {d : Device} {event : EventId} (h : d.isQueued event = true) :
    ∃ before p after, d.queue = before ++ p :: after ∧ p.event = event ∧
      ∀ q ∈ before, q.event ≠ p.event := by
  have hsome : (d.queue.find? fun p => p.event == event).isSome := by
    simpa [Device.isQueued] using h
  obtain ⟨p, hp⟩ := Option.isSome_iff_exists.1 hsome
  obtain ⟨hevent, before, after, hqueue, hbefore⟩ := List.find?_eq_some_iff_append.1 hp
  obtain rfl : p.event = event := by simpa using hevent
  exact ⟨before, p, after, hqueue, rfl, fun q hq => by simpa using hbefore q hq⟩

/-- Waiting for an event carries out some of the commands that wait, the oldest ones, and leaves the
others in the queue. -/
theorem snd_resolve :
    ∃ run rest, s.device.queue = run ++ rest ∧
      ((resolve event).run s).2 = (performEach run s).2.withQueue rest := by
  cases hqueued : s.device.isQueued event with
  | false =>
    refine ⟨[], s.device.queue, rfl, ?_⟩
    rw [run_resolve_of_not_queued hqueued, run_inspect]
    rfl
  | true =>
    obtain ⟨before, p, after, hqueue, rfl, hbefore⟩ := exists_first_of_isQueued hqueued
    refine ⟨before ++ [p], after, by simp [hqueue], ?_⟩
    rw [run_resolve_of_queued hqueue hbefore]

theorem snd_flush :
    (flush.run s).2 =
      ((performEach s.device.queue s).2.withQueue []).onDevice fun d =>
        { d with counters := { d.counters with flushes := d.counters.flushes + 1 } } := by
  have hcount := performEach_onDevice (unseen_counters fun c => { c with flushes := c.flushes + 1 })
    s.device.queue s
  have hflush : flush.run s = (drain none).run (s.onDevice fun d =>
      { d with counters := { d.counters with flushes := d.counters.flushes + 1 } }) := rfl
  rw [hflush, run_drain, runThrough_none]
  change (performEach s.device.queue _).2.withQueue [] = _
  rw [hcount]
  rfl

theorem snd_flush_resolve : (flush.run ((resolve event).run s).2).2 = (flush.run s).2 := by
  obtain ⟨run, rest, hqueue, hresolve⟩ := snd_resolve event s
  have hrest : (performEach rest ((performEach run s).2.withQueue rest)).2.withQueue [] =
      (performEach (run ++ rest) s).2.withQueue [] := by
    rw [performEach_append, performEach_withQueue]
    rfl
  have hwaits : ((performEach run s).2.withQueue rest).device.queue = rest := rfl
  rw [hresolve, snd_flush, snd_flush, hwaits, hrest, hqueue]

theorem snd_flush_resolves (events : List EventId) (s : Station) :
    (flush.run (operated (events.map .resolve) s)).2 = (flush.run s).2 := by
  induction events generalizing s with
  | nil => rfl
  | cons event others ih =>
    have hoperate : ((operate (.resolve event)).run s).2 = ((resolve event).run s).2 := by
      simp only [operate, run_bind]
      rcases (resolve event).run s with ⟨r, t⟩
      cases r <;> rfl
    rw [List.map_cons, operated, ih, hoperate, snd_flush_resolve]

/-! ## The record of an event -/

/-- How an event ends whose command has this outcome. -/
def ending (result : Except DeviceFault Unit) :
    EventStatus := if result.isOk then .complete else .failed

theorem event?_perform (c : Command) (s : Station) (id : EventId) :
    (perform event c s).2.device.event? id = (s.device.event? id).map fun e =>
      if event = id then { e with status := ending (perform event c s).1 } else e := by
  have hlog : (perform event c s).2.device.log =
      s.device.log.setStatus event (ending (perform event c s).1) := rfl
  simp only [Device.event?, hlog, EventLog.get?_setStatus, Option.map_map]
  congr 1
  funext r
  by_cases hid : event = id <;> simp [hid]

theorem event?_performEach {id : EventId} {run : List Pending} (hrun : ∀ q ∈ run, q.event ≠ id)
    (s : Station) : (performEach run s).2.device.event? id = s.device.event? id := by
  induction run generalizing s with
  | nil => rfl
  | cons q rest ih =>
    have hq : q.event ≠ id := hrun q List.mem_cons_self
    simp only [performEach]
    rw [ih fun q hq => hrun q (List.mem_cons_of_mem _ hq), event?_perform]
    simp only [if_neg hq, Option.map_id']

theorem ending_of_faultOf {result : Except DeviceFault Unit} (h : faultOf result = none) :
    ending result = .complete := by
  cases result with
  | ok u => rfl
  | error fault => cases h

end Station

namespace Device

variable {d : Device}

theorem InLine.ne_of_queue (hd : d.InLine) (hqueue : d.queue = before ++ p :: after) :
    (∀ q ∈ before, q.event ≠ p.event) ∧ ∀ q ∈ after, q.event ≠ p.event := by
  have hnodup : (d.queue.map Pending.event).Nodup := by
    rw [hd.queue_eq]
    exact List.nodup_range.filter _
  rw [hqueue, List.map_append, List.map_cons, List.nodup_middle, List.nodup_cons] at hnodup
  have hmem := hnodup.1
  refine ⟨fun q hq heq => hmem ?_, fun q hq heq => hmem ?_⟩
  · exact List.mem_append_left _ (heq ▸ List.mem_map_of_mem hq)
  · exact List.mem_append_right _ (heq ▸ List.mem_map_of_mem hq)

theorem InLine.event?_of_queue (hd : d.InLine) (hqueue : d.queue = before ++ p :: after) :
    ∃ e, d.event? p.event = some e ∧ e.status = .queued := by
  have hwaits : d.status? p.event = some .queued := hd.mem_queue_iff.1 (by simp [hqueue])
  obtain ⟨r, hr, hstatus⟩ := Option.map_eq_some_iff.1 hwaits
  exact ⟨_, by rw [event?, hr, Option.map_some], hstatus⟩

end Device

namespace Station

/-- Waiting for an event that waits: its command and those before it are carried out, and the first
fault among them is told, or else the event, which is complete. -/
theorem run_resolve_first {s : Station} {e : Event} (hqueue : s.device.queue = before ++ p :: after)
    (hbefore : ∀ q ∈ before, q.event ≠ p.event) (he : s.device.event? p.event = some e) :
    let done := performEach (before ++ [p]) s
    let t := done.2.withQueue after
    ∃ result, done.1.getLast? = some result ∧
      (inspect p.event).run t = (.ok { e with status := ending result }, t) ∧
      (resolve p.event).run s =
      ((firstFault done.1).elim (.ok { e with status := .complete }) .error, t) := by
  intro done t
  set result := (perform p.event p.command (performEach before s).2).1
  have hdone : done.1 = (performEach before s).1 ++ [result] :=
    congrArg Prod.fst (performEach_append before [p] s)
  have hrecord : t.device.event? p.event = some { e with status := ending result } := by
    have hlast : done.2 = (perform p.event p.command (performEach before s).2).2 :=
      congrArg Prod.snd (performEach_append before [p] s)
    change done.2.device.event? p.event = _
    rw [hlast, event?_perform, event?_performEach hbefore, he, Option.map_some, if_pos rfl]
  have hinspect : (inspect p.event).run t = (.ok { e with status := ending result }, t) := by
    rw [run_inspect, hrecord]
    rfl
  refine ⟨result, by rw [hdone, List.getLast?_concat], hinspect, ?_⟩
  rw [run_resolve_of_queued hqueue hbefore]
  change ((firstFault done.1).elim ((inspect p.event).run t).1 .error, t) = _
  rw [hinspect]
  cases hfault : firstFault done.1 with
  | some fault => rfl
  | none =>
    rw [hdone, firstFault_append, Option.or_eq_none_iff] at hfault
    have hok : faultOf result = none := by
      simpa [firstFault_cons, firstFault_nil] using hfault.2
    rw [ending_of_faultOf hok]

/-- A queue may be drained in steps. Take a station after any operations, on a device of any
options. Wait for any events one after another and flush: the station is the one that a flush alone
leaves. Wait for an event in the queue: its command and those before it are carried out in order,
whatever becomes of each, and those behind it still wait. The first fault among them is told, or
else the event, which is complete. Wait for it once more: nothing happens, and the event is told as
it has ended. -/
theorem drained_in_steps (name : String) (options : DeviceOptions) (kernels : Registry)
    (objects : List HostObject) (ops : List Operation) :
    let s := operated ops (opened name options kernels objects)
    (∀ events : List EventId,
      (flush.run (operated (events.map .resolve) s)).2 = (flush.run s).2) ∧
    ∀ before p after, s.device.queue = before ++ p :: after →
      let done := performEach (before ++ [p]) s
      let t := done.2.withQueue after
      ∃ e result, s.device.event? p.event = some e ∧ e.status = .queued ∧
        done.1.getLast? = some result ∧
        (resolve p.event).run s =
          ((firstFault done.1).elim (.ok { e with status := .complete }) .error, t) ∧
        (resolve p.event).run t = (.ok { e with status := ending result }, t) := by
  intro s
  have hline : s.device.InLine := Device.Moves.inLine (moves_operated ops _) (opened_inLine ..)
  refine ⟨fun events => snd_flush_resolves events s, fun before p after hqueue => ?_⟩
  intro done t
  obtain ⟨hbefore, hafter⟩ := hline.ne_of_queue hqueue
  obtain ⟨e, he, hstatus⟩ := hline.event?_of_queue hqueue
  obtain ⟨result, hresult, hinspect, hresolve⟩ := run_resolve_first hqueue hbefore he
  refine ⟨e, result, he, hstatus, hresult, hresolve, ?_⟩
  have hqueued : t.device.isQueued p.event = false := by
    have hwaits : t.device.queue = after := rfl
    simpa [Device.isQueued, hwaits] using hafter
  rw [run_resolve_of_not_queued hqueued, hinspect]

/-- A deferred device with two writes and a marker in its queue; the first write is to no buffer. -/
def backlog : Station :=
  operated [.allocate 0 2, .write 5 0 none [], .write 0 0 none [], .marker []]
    (opened "gpu" { deferred := true } .builtin [⟨"a", [7, 9]⟩])

/-- The second write is carried out although the first has failed, and the marker still waits. -/
theorem drained_in_steps_backlog :
    backlog.device.queue = [⟨1, .write 5 0 none⟩] ++ ⟨2, .write 0 0 none⟩ :: [⟨3, .marker⟩] ∧
      ((resolve 2).run backlog).1 = .error (.unknownBuffer 5) ∧
      ((resolve 2).run ((resolve 2).run backlog).2).1 = .ok ⟨some 2, .write, .complete, {}⟩ ∧
      ((resolve 2).run backlog).2.device.queue = [⟨3, .marker⟩] ∧
      ((resolve 2).run backlog).2.device.memory.get? 0 = some [7, 9] := by
  have hqueue : backlog.device.queue =
      [⟨1, .write 5 0 none⟩] ++ ⟨2, .write 0 0 none⟩ :: [⟨3, .marker⟩] := rfl
  obtain ⟨e, result, he, -, hresult, hfirst, hsecond⟩ :=
    (drained_in_steps "gpu" { deferred := true } .builtin [⟨"a", [7, 9]⟩]
      [.allocate 0 2, .write 5 0 none [], .write 0 0 none [], .marker []]).2 _ _ _ hqueue
  change (resolve 2).run backlog = _ at hfirst
  obtain rfl : (⟨some 2, .write, .queued, {}⟩ : Event) = e := Option.some.inj he
  obtain rfl : Except.ok () = result := Option.some.inj hresult
  refine ⟨hqueue, ?_, ?_, ?_, ?_⟩
  · rw [hfirst]
    rfl
  · rw [hfirst]
    exact congrArg Prod.fst hsecond
  · rw [hfirst]
    rfl
  · rw [hfirst]
    rfl

end Station

end Offload
