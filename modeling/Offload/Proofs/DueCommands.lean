import Offload.Proofs.DeferredDevice
import Offload.Proofs.PendingProfiles

/-!
# What is due

A deferred station comes to some memory and some objects when its queue has run; an eager one is
there already. The outlook of a station is what it will have then. Every operation that has what it
needs succeeds, and the outlook after it follows from the outlook before it, in the same way for
deferred and for eager devices. An operation that waits leaves a station with an empty queue, which
is what its outlook says.
-/

namespace Offload

open Offload.Action

/-! ## Actions that succeed -/

namespace Action

variable {σ ε α β : Type}

/-- Started where `P` holds, `x` ends in a value, and then `Q` holds. -/
def Attains (P : σ → Prop) (x : Action σ ε α) (Q : α → σ → Prop) : Prop :=
  ∀ s, P s → ∃ a t, x.run s = (.ok a, t) ∧ Q a t

variable {P P' : σ → Prop} {Q Q' : α → σ → Prop} {R : β → σ → Prop}
variable {x : Action σ ε α} {f : α → Action σ ε β}

theorem attains_weaken (h : Attains P' x Q') (hP : ∀ s, P s → P' s) (hQ : ∀ a s, Q' a s → Q a s) :
    Attains P x Q := by
  intro s hs
  obtain ⟨a, t, hrun, ht⟩ := h s (hP s hs)
  exact ⟨a, t, hrun, hQ a t ht⟩

theorem attains_pure {a : α} (h : ∀ s, P s → Q a s) : Attains P (pure a : Action σ ε α) Q :=
  fun s hs => ⟨a, s, rfl, h s hs⟩

theorem attains_modify {g : σ → σ} {Q : PUnit → σ → Prop} (h : ∀ s, P s → Q ⟨⟩ (g s)) :
    Attains P (modify g : Action σ ε PUnit) Q :=
  fun s hs => ⟨⟨⟩, g s, rfl, h s hs⟩

theorem attains_bind (hx : Attains P x Q) (hf : ∀ a, Attains (Q a) (f a) R) :
    Attains P (x >>= f) R := by
  intro s hs
  obtain ⟨a, t, hrun, ht⟩ := hx s hs
  rw [run_bind_of_ok hrun]
  exact hf a t ht

theorem attains_get {g : σ → Action σ ε β}
    (h : ∀ s, P s → ∃ b t, (g s).run s = (.ok b, t) ∧ R b t) :
    Attains P (get >>= g) R :=
  h

end Action

/-! ## Outlooks -/

/-- What a station will have when its queue has run, and what stays as it is until then. -/
structure Outlook where
  memory : Memory
  objects : List HostObject
  options : DeviceOptions
  kernels : Registry
  /-- The number of the next buffer. -/
  next : BufferId
  /-- The number of events in the log. -/
  events : Nat
  counters : Counters

namespace Outlook

/-- The outlook with one more command, which leaves the given memory and objects. -/
def submitted (o : Outlook) (memory : Memory) (objects : List HostObject) : Outlook :=
  { o with memory, objects, events := o.events + 1 }

def counted (o : Outlook) (f : Counters → Counters) : Outlook := { o with counters := f o.counters }

/-- The outlook with a new buffer. -/
def provided (o : Outlook) (bytes : Nat) : Outlook :=
  { o with
    memory := o.memory.insert o.next (List.replicate bytes 0)
    next := o.next + 1
    events := o.events + 1
    counters := { o.counters with allocations := o.counters.allocations + 1 } }

end Outlook

namespace Station

/-- The queue of a station runs without a fault, and then the station is as its outlook says. -/
structure Due (o : Outlook) (s : Station) : Prop where
  replays : ∃ log, s.bench.replay s.device.queue = some ⟨o.memory, o.objects, log⟩
  queued : ∀ p ∈ s.device.queue, p.event < o.events
  eager : o.options.deferred = false → s.device.queue = []
  options : s.device.options = o.options
  kernels : s.device.kernels = o.kernels
  next : s.device.nextBuffer = o.next
  events : s.device.log.size = o.events
  counters : s.device.counters = o.counters

/-- No command waits, and the station is as its outlook says. -/
def Rests (o : Outlook) (s : Station) : Prop := s.Due o ∧ s.device.queue = []

/-- The event of the command that was submitted last, which may have run. -/
def Last (event : EventId) (s : Station) : Prop := s.device.queue = [] ∨ s.Newest event

variable {o : Outlook} {s : Station}

theorem Rests.memory (h : s.Rests o) : s.device.memory = o.memory := by
  obtain ⟨log, hreplay⟩ := h.1.replays
  rw [h.2] at hreplay
  exact congrArg Bench.memory (Option.some.inj hreplay)

theorem Rests.objects (h : s.Rests o) : s.objects = o.objects := by
  obtain ⟨log, hreplay⟩ := h.1.replays
  rw [h.2] at hreplay
  exact congrArg Bench.objects (Option.some.inj hreplay)

/-- The label and the length of an object do not wait for the queue. -/
theorem Due.objectAt (h : s.Due o) (place : Nat) :
    (objectAt s.objects place).label = (objectAt o.objects place).label ∧
      (objectAt s.objects place).length = (objectAt o.objects place).length := by
  obtain ⟨log, hreplay⟩ := h.replays
  obtain ⟨hlabel, hlength⟩ := Bench.objectAt_replay hreplay place
  exact ⟨hlabel.symm, hlength.symm⟩

theorem Due.journal (h : s.Due o) (journal : Journal) : Due o { s with journal } :=
  ⟨h.replays, h.queued, h.eager, h.options, h.kernels, h.next, h.events, h.counters⟩

theorem Due.counted (h : s.Due o) (f : Counters → Counters) :
    (s.onDevice fun d => { d with counters := f d.counters }).Due (o.counted f) :=
  ⟨h.replays, h.queued, h.eager, h.options, h.kernels, h.next, h.events, congrArg f h.counters⟩

theorem attains_count (f : Counters → Counters) :
    Attains (Due o) (count f) fun _ => Due (o.counted f) :=
  attains_modify fun _ hs => hs.counted f

/-! ## Running the queue -/

/-- A station whose queue has run is at its outlook. -/
theorem Due.caughtUp (h : s.Due o) {log : EventLog}
    (hreplay : s.bench.replay s.device.queue = some ⟨o.memory, o.objects, log⟩) :
    (s.caughtUp ⟨o.memory, o.objects, log⟩).Rests o :=
  ⟨⟨⟨log, rfl⟩, fun _ hp => absurd hp List.not_mem_nil, fun _ => rfl, h.options, h.kernels, h.next,
    (Bench.size_log_replay hreplay).trans h.events, h.counters⟩, rfl⟩

theorem attains_drain_none : Attains (Due o) (drain none) fun _ => Rests o := by
  intro s h
  obtain ⟨log, hreplay⟩ := h.replays
  have hrun := runThrough_of_replay hreplay
  exact ⟨(), _, by simp only [Action.run, drain, hrun], h.caughtUp hreplay⟩

theorem attains_drain_last (event : EventId) :
    Attains (fun s => s.Due o ∧ s.Last event) (drain (some event)) fun _ => Rests o := by
  rintro s ⟨h, hlast⟩
  rcases hlast with hqueue | ⟨queue, p, hqueue, rfl, hne⟩
  · refine ⟨(), s.onDevice fun d => { d with queue := [] }, ?_, ?_⟩
    · simp only [Action.run, drain, hqueue, runThrough]
    · obtain ⟨log, hreplay⟩ := h.replays
      rw [hqueue] at hreplay
      exact ⟨⟨⟨log, hreplay⟩, fun _ hp => absurd hp List.not_mem_nil, fun _ =>
        rfl, h.options, h.kernels, h.next, h.events, h.counters⟩, rfl⟩
  · obtain ⟨log, hreplay⟩ := h.replays
    have hrun := runThrough_of_replay hreplay
    rw [hqueue] at hrun
    exact ⟨(), _, by simp only [Action.run, drain, hqueue, runThrough_newest hne, hrun],
      h.caughtUp hreplay⟩

/-! ## Commands -/

section Submission

variable {c : Command} {memory : Memory} {objects : List HostObject}

theorem step_of_execute (hc : c.execute o.memory o.objects = (.ok (), memory, objects))
    (log : EventLog) (event : EventId) :
    Bench.step ⟨o.memory, o.objects, log⟩ ⟨event, c⟩ =
      some ⟨memory, objects, log.setStatus event .complete⟩ := by
  simp only [Bench.step, hc]

theorem Due.exists_submit_deferred (h : s.Due o) (hdeferred : s.device.options.deferred = true)
    (hc : c.execute o.memory o.objects = (.ok (), memory, objects)) (kind : EventKind)
    (label : String) (wait : List EventId) :
    ∃ s', (submit kind label wait c).run s = (.ok s.device.log.size, s') ∧
      s'.Due (o.submitted memory objects) ∧ s'.Last s.device.log.size := by
  obtain ⟨log, hreplay⟩ := h.replays
  have hqueued : ∀ p ∈ s.device.queue, p.event < s.device.log.size := fun p hp =>
    lt_of_lt_of_eq (h.queued p hp) h.events.symm
  refine ⟨_, run_submit_deferred kind label wait c hdeferred,
    ⟨⟨(log.add ⟨kind, .queued, label, wait⟩).setStatus s.device.log.size .complete, ?_⟩, ?_,
      ?_, h.options, h.kernels, h.next, congrArg (· + 1) h.events, h.counters⟩,
    .inr ⟨s.device.queue, _, rfl, rfl, fun q hq => (hqueued q hq).ne⟩⟩
  · -- The queue runs as before, and the new command runs on what is due.
    change (s.bench.record ⟨kind, .queued, label, wait⟩).replay
      (s.device.queue ++ [⟨s.device.log.size, c⟩]) = _
    rw [Bench.replay_append, Bench.replay_record hqueued, hreplay, Option.map_some,
      Option.bind_some, Bench.replay_singleton]
    exact step_of_execute hc _ _
  · intro p hp
    rcases List.mem_append.1 hp with hp | hp
    · exact Nat.lt_succ_of_lt (h.queued p hp)
    · rw [List.mem_singleton.1 hp]
      exact lt_of_eq_of_lt h.events (Nat.lt_succ_self _)
  · intro heager
    rw [h.options] at hdeferred
    exact absurd hdeferred (Bool.eq_false_iff.1 heager)

theorem Due.exists_submit_eager (h : s.Due o) (heager : s.device.options.deferred = false)
    (hc : c.execute o.memory o.objects = (.ok (), memory, objects)) (kind : EventKind)
    (label : String) (wait : List EventId) :
    ∃ s', (submit kind label wait c).run s = (.ok s.device.log.size, s') ∧
      s'.Due (o.submitted memory objects) ∧ s'.Last s.device.log.size := by
  have hqueue : s.device.queue = [] := h.eager (h.options ▸ heager)
  have hrests : s.Rests o := ⟨h, hqueue⟩
  have hbench : (s.recorded kind label wait).bench =
      ⟨o.memory, o.objects, (s.recorded kind label wait).device.log⟩ := by
    rw [← hrests.memory, ← hrests.objects]
    rfl
  have hstep := step_of_execute hc (s.recorded kind label wait).device.log s.device.log.size
  rw [← hbench] at hstep
  have hsize : ((s.recorded kind label wait).device.log.setStatus s.device.log.size
      .complete).size = o.events + 1 := by
    rw [EventLog.size_setStatus]
    exact congrArg (· + 1) h.events
  have hrun : (submit kind label wait c).run s =
      (.ok s.device.log.size, (s.recorded kind label wait).withBench
        ⟨memory, objects, (s.recorded kind label wait).device.log.setStatus s.device.log.size
          .complete⟩) :=
    (run_submit_eager kind label wait c heager).trans (run_bind_of_ok (perform_of_step hstep))
  generalize (s.recorded kind label wait).device.log.setStatus s.device.log.size .complete =
    log' at hrun hsize
  refine ⟨_, hrun, ⟨⟨log', ?_⟩, ?_, fun _ => hqueue, h.options, h.kernels, h.next, hsize,
    h.counters⟩, .inl hqueue⟩
  · change Bench.replay _ s.device.queue = _
    rw [hqueue]
    rfl
  · change ∀ p ∈ s.device.queue, _
    simp [hqueue]

/-- A command that does not fail on what is due can be submitted. -/
theorem attains_submit (kind : EventKind) (label : String) (wait : List EventId)
    (hc : c.execute o.memory o.objects = (.ok (), memory, objects)) :
    Attains (Due o) (submit kind label wait c)
      fun event s => event = o.events ∧ s.Due (o.submitted memory objects) ∧ s.Last event := by
  intro s h
  cases hdeferred : s.device.options.deferred with
  | true =>
    obtain ⟨s', hrun, hdue, hlast⟩ := h.exists_submit_deferred hdeferred hc kind label wait
    exact ⟨_, s', hrun, h.events, hdue, hlast⟩
  | false =>
    obtain ⟨s', hrun, hdue, hlast⟩ := h.exists_submit_eager hdeferred hc kind label wait
    exact ⟨_, s', hrun, h.events, hdue, hlast⟩

end Submission

variable {object : Nat} {window : Option Window}

theorem attains_checkWindow
    (hfits : ∀ w ∈ window, w.fits (objectAt o.objects object).length = true) :
    Attains (Due o) (checkWindow object window) fun _ => Due o := by
  refine attains_get fun s h => ?_
  cases window with
  | none => exact ⟨(), s, rfl, h⟩
  | some w =>
    refine ⟨(), s, ?_, h⟩
    dsimp only
    rw [(h.objectAt object).2, Window.check, if_pos (hfits w rfl)]
    rfl

variable {buffer : BufferId}

theorem attains_write (wait : List EventId) {memory : Memory} {objects : List HostObject}
    (hfits : ∀ w ∈ window, w.fits (objectAt o.objects object).length = true)
    (hc : (Command.write buffer object window).execute o.memory o.objects =
      (.ok (), memory, objects)) :
    Attains (Due o) (write buffer object window wait) fun _ =>
      Due ((o.counted fun c => { c with writes := c.writes + 1 }).submitted memory objects) := by
  refine attains_bind (attains_checkWindow hfits) fun _ => ?_
  refine attains_bind (attains_count _) fun _ => attains_get fun s h => ?_
  obtain ⟨event, t, hrun, -, ht, -⟩ := attains_submit .write _ wait (o := o.counted _) hc s h
  exact ⟨event, t, hrun, ht⟩

/-- A read that waits leaves nothing in the queue. -/
theorem attains_read (wait : List EventId) {memory : Memory} {objects : List HostObject}
    (hfits : ∀ w ∈ window, w.fits (objectAt o.objects object).length = true)
    (hc : (Command.read buffer object window).execute o.memory o.objects =
      (.ok (), memory, objects)) :
    Attains (Due o) (read buffer object window wait true) fun _ =>
      Rests ((o.counted fun c => { c with reads := c.reads + 1 }).submitted memory objects) := by
  refine attains_bind (attains_checkWindow hfits) fun _ => ?_
  refine attains_bind (attains_count _) fun _ => attains_get fun s h => ?_
  refine attains_bind (attains_submit .read _ wait (o := o.counted _) hc) (fun event => ?_) s h
  refine attains_bind (Q := fun _ => Rests _) ?_ fun _ => attains_pure fun _ => id
  exact attains_weaken (attains_drain_last event) (fun _ hs => hs.2) fun _ _ => id

theorem attains_launch (code : InstalledCode) {frame : CallFrame} (task : String)
    (wait : List EventId) {memory : Memory} {objects : List HostObject}
    (hc : (Command.launch code.name code.kernel (frame.arguments.map argumentOf) window).execute
      o.memory o.objects = (.ok (), memory, objects)) :
    Attains (Due o) (launch code frame task window wait) fun a s => a.1 = o.events ∧
      a.2 = (if o.options.retainCallFrames then frame.markOnDevice else frame) ∧
      s.Due
      ((o.counted fun c => { c with launches := c.launches + 1 }).submitted memory objects) := by
  refine attains_bind (attains_count _) fun _ => ?_
  refine attains_bind (attains_submit .launch _ wait (o := o.counted _) hc) fun event => ?_
  refine attains_get fun s hs => ⟨_, s, rfl, hs.1, ?_, hs.2.1⟩
  rw [hs.2.1.options]
  rfl

theorem attains_marker (wait : List EventId) :
    Attains (Due o) (marker wait) fun event s => event = o.events ∧
      s.Due
      ((o.counted fun c => { c with markers := c.markers + 1 }).submitted o.memory o.objects) ∧
      s.Last event :=
  attains_bind (attains_count _) fun _ =>
    attains_submit .marker "marker" wait (o := o.counted _) rfl

/-- Waiting for the newest event runs the whole queue. -/
theorem attains_resolve {event : EventId} (hevent : event < o.events) :
    Attains (fun s => s.Due o ∧ s.Last event) (resolve event) fun _ => Rests o := by
  have hinspect : Attains (Rests o) (inspect event) fun _ => Rests o := by
    refine attains_get fun s hs => ?_
    obtain ⟨e, he⟩ := Device.exists_event?_of_lt (lt_of_lt_of_eq hevent hs.1.events.symm)
    exact ⟨e, s, by rw [he]; rfl, hs⟩
  refine attains_get fun s hs => ?_
  cases hqueued : s.device.isQueued event with
  | true => exact attains_bind (attains_drain_last event) (fun _ => hinspect) s hs
  | false =>
    refine hinspect s ⟨hs.1, ?_⟩
    rcases hs.2 with hqueue | ⟨queue, p, hqueue, rfl, -⟩
    · exact hqueue
    · simp [Device.isQueued, hqueue] at hqueued

theorem attains_flush : Attains (Due o) flush fun _ =>
    Rests (o.counted fun c => { c with flushes := c.flushes + 1 }) :=
  attains_bind (attains_count _) fun _ => attains_drain_none

/-! ## Buffers -/

theorem attains_allocate (object : Nat) {bytes : Nat} (hbytes : bytes < memoryLimit) :
    Attains (Rests o) (allocate object bytes) fun a s => a.1 = o.next ∧
      s.Rests (o.provided bytes) := by
  intro s hs
  refine ⟨_, _, run_allocate object hbytes s, hs.1.next,
    ⟨⟨s.device.log.add (s.allocationRecord object bytes), ?_⟩, ?_, fun _ =>
      hs.2, hs.1.options, hs.1.kernels, congrArg (· + 1) hs.1.next, congrArg (· + 1) hs.1.events,
        ?_⟩, hs.2⟩
  · change Bench.replay _ s.device.queue = _
    rw [hs.2, Outlook.provided, ← hs.memory, ← hs.objects, ← hs.1.next]
    rfl
  · change ∀ p ∈ s.device.queue, _
    rw [hs.2]
    simp
  · rw [Outlook.provided, ← hs.1.counters]

theorem attains_release (hbuffer : (o.memory.get? buffer).isSome) :
    Attains (Rests o) (release buffer) fun _ =>
      Rests { o with memory := o.memory.erase buffer } := by
  have hdrain : Attains (Rests o) (drain none) fun _ => Rests o :=
    attains_weaken attains_drain_none (fun _ hs => hs.1) fun _ _ => id
  refine attains_bind hdrain fun _ => attains_get fun s hs => ?_
  rw [← hs.memory] at hbuffer
  rw [if_pos hbuffer]
  refine ⟨(), _, rfl,
    ⟨⟨s.device.log, ?_⟩, hs.1.queued, hs.1.eager, hs.1.options, hs.1.kernels, hs.1.next,
      hs.1.events, hs.1.counters⟩, hs.2⟩
  change Bench.replay _ s.device.queue = _
  rw [hs.2, ← hs.memory, ← hs.objects]
  rfl

end Station

end Offload
