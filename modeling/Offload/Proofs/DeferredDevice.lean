import Offload.Proofs.Replay

/-!
# Deferred and eager devices

A deferred station is behind an eager one if it will be in the eager one's state once its queue has
run. Every operation that succeeds on the eager station succeeds on the deferred one with the same
value, and the deferred station is behind again; after an operation that waits for the newest
command or for the whole queue, it has caught up.
-/

namespace Offload

open Offload.Action

/-- The arguments of a frame name buffers with numbers below `n`. -/
def CallFrame.Below (n : BufferId) (f : CallFrame) : Prop :=
  ∀ object i label, FrameArgument.reference object i label ∈ f.arguments → i < n

/-- The device with what a replay gives, with an empty queue, and eager. -/
def Device.settled (d : Device) (b : Bench) : Device :=
  { d with
    memory := b.memory, log := b.log, queue := [],
    options := { d.options with deferred := false } }

namespace Station

variable (kind : EventKind) (object : Nat) (label : String) (wait : List EventId)

def bench (s : Station) : Bench := ⟨s.device.memory, s.objects, s.device.log⟩

/-- The eager station that a deferred one comes to when its queue runs with the result `b`. -/
def settled (s : Station) (b : Bench) : Station :=
  { s with device := s.device.settled b, objects := b.objects }

/-- The station with other memory, objects and log. -/
def withBench (s : Station) (b : Bench) : Station :=
  { s with device := { s.device with memory := b.memory, log := b.log }, objects := b.objects }

/-- The deferred station itself when its queue has run with the result `b`. -/
def caughtUp (s : Station) (b : Bench) : Station :=
  (s.withBench b).onDevice fun d => { d with queue := [] }

/-- A deferred station whose queue runs without a fault, with the result `b`. What is queued is in
the log and names buffers with numbers below the next one, which is `n`. -/
structure Lags (n : BufferId) (s : Station) (b : Bench) : Prop where
  deferred : s.device.options.deferred = true
  next : s.device.nextBuffer = n
  replays : s.bench.replay s.device.queue = some b
  events : ∀ p ∈ s.device.queue, p.event < s.device.log.size
  buffers : ∀ p ∈ s.device.queue, ∀ i ∈ p.command.buffers, i < n

/-- The deferred station `s` is behind the eager station `e`. -/
def Behind (n : BufferId) (e s : Station) : Prop := ∃ b, s.Lags n b ∧ e = s.settled b

variable {n : BufferId} {s : Station} {b : Bench}

/-! ## Running the queue -/

variable {event : EventId} {c : Command}

theorem perform_of_step (h : s.bench.step ⟨event, c⟩ = some b) :
    perform event c s = (.ok (), s.withBench b) := by
  obtain ⟨hexecute, hlog⟩ := Bench.step_eq_some h
  have hperform : perform event c s =
      ((c.execute s.device.memory s.objects).1, s.withBench
        ⟨(c.execute s.device.memory s.objects).2.1, (c.execute s.device.memory s.objects).2.2,
          s.device.log.setStatus event
            (if (c.execute s.device.memory s.objects).1.isOk then .complete else .failed)⟩) := rfl
  rw [hperform, show c.execute s.device.memory s.objects = (.ok (), b.memory, b.objects) from
    hexecute]
  obtain ⟨memory, objects, log⟩ := b
  obtain rfl : log = s.bench.log.setStatus event .complete := hlog
  rfl

variable {t : Station}

theorem step_of_perform {u : Unit} (h : perform event c s = (.ok u, t)) :
    s.bench.step ⟨event, c⟩ = some t.bench ∧ t = s.withBench t.bench := by
  rcases hexecute : c.execute s.device.memory s.objects with ⟨result, memory, objects⟩
  simp only [perform, hexecute] at h
  cases h
  refine ⟨?_, rfl⟩
  simp only [Bench.step, bench, hexecute]
  rfl

theorem runThrough_of_replay {queue : List Pending} (h : s.bench.replay queue = some b) :
    runThrough none queue s = (none, s.caughtUp b) := by
  induction queue generalizing s with
  | nil =>
    cases h
    rfl
  | cons p rest ih =>
    rw [Bench.replay_cons] at h
    obtain ⟨c, hc, hrest⟩ := Option.bind_eq_some_iff.1 h
    have hperform : perform p.event p.command (s.onDevice fun d => { d with queue := rest }) =
        (.ok (), (s.onDevice fun d => { d with queue := rest }).withBench c) := perform_of_step hc
    have hqueue := ih (s := (s.onDevice fun d => { d with queue := rest }).withBench c) hrest
    simp only [runThrough, hperform, hqueue]
    rfl

/-- Waiting for the newest command is waiting for all of them. -/
theorem runThrough_newest {queue : List Pending} {p : Pending}
    (hqueue : ∀ q ∈ queue, q.event ≠ p.event) (s : Station) :
    runThrough (some p.event) (queue ++ [p]) s = runThrough none (queue ++ [p]) s := by
  induction queue generalizing s with
  | nil =>
    simp only [List.nil_append, runThrough, if_true, reduceCtorEq, if_false, Option.or_none]
    rfl
  | cons q rest ih =>
    have hne : some p.event ≠ some q.event := by
      intro h
      exact hqueue q List.mem_cons_self (Option.some.inj h).symm
    simp only [List.cons_append, runThrough, if_neg hne, reduceCtorEq, if_false]
    rw [ih fun q hq => hqueue q (List.mem_cons_of_mem _ hq)]

/-- The event of the command that was submitted last. -/
def Newest (event : EventId) (s : Station) : Prop :=
  ∃ queue p, s.device.queue = queue ++ [p] ∧ p.event = event ∧ ∀ q ∈ queue, q.event ≠ event

theorem run_drain_none (h : s.Lags n b) : (drain none).run s = (.ok (), s.caughtUp b) := by
  simp only [Action.run, drain, runThrough_of_replay h.replays]

theorem run_drain_newest (h : s.Lags n b) (hnewest : s.Newest event) :
    (drain (some event)).run s = (.ok (), s.caughtUp b) := by
  obtain ⟨queue, p, hqueue, rfl, hne⟩ := hnewest
  have hrun := runThrough_of_replay h.replays
  rw [hqueue] at hrun
  simp only [Action.run, drain, hqueue, runThrough_newest hne, hrun]

theorem run_drain_settled (last : Option EventId) :
    (drain last).run (s.settled b) = (.ok (), s.settled b) := rfl

theorem Lags.caughtUp (h : s.Lags n b) : (s.caughtUp b).Lags n b :=
  ⟨h.deferred, h.next, rfl, nofun, nofun⟩

/-! ## The operations -/

theorem tracks_count (f : Counters → Counters) : Tracks (Behind n) (count f) := by
  refine goes_modify ?_
  rintro e s ⟨b, h, rfl⟩
  exact ⟨b, ⟨h.deferred, h.next, h.replays, h.events, h.buffers⟩, rfl⟩

/-- What is written down about a new event. -/
def recorded (kind : EventKind) (label : String) (wait : List EventId) (s : Station) : Station :=
  { s with
    device := s.device.record kind label wait
    journal := s.journal.add .trace
      ("host: submit #" ++ toString s.device.log.size ++ " " ++ kind.operation) }

variable {e : Station}

theorem run_submit_eager (c : Command) (heager : e.device.options.deferred = false) :
    (submit kind label wait c).run e =
      (perform e.device.log.size c >>= fun _ => pure e.device.log.size : DeviceAction EventId).run
        (e.recorded kind label wait) := by
  simp only [submit, run_bind, run_get, run_set, heager, Bool.false_eq_true, if_false]
  rfl

/-- An eager station gives the event of a command if running the command succeeds. -/
theorem run_submit_performed (c : Command) (heager : e.device.options.deferred = false) :
    (submit kind label wait c).run e =
      ((c.execute e.device.memory e.objects).1.map fun _ => e.device.log.size,
        (perform e.device.log.size c (e.recorded kind label wait)).2) := by
  have hperform : (perform e.device.log.size c).run (e.recorded kind label wait) =
      ((c.execute e.device.memory e.objects).1,
        (perform e.device.log.size c (e.recorded kind label wait)).2) := rfl
  rw [run_submit_eager kind label wait c heager, run_bind, hperform]
  cases (c.execute e.device.memory e.objects).1 <;> rfl

theorem run_submit_deferred (c : Command) (hdeferred : s.device.options.deferred = true) :
    (submit kind label wait c).run s =
      (.ok s.device.log.size, (s.recorded kind label wait).onDevice fun d =>
        { d with queue := d.queue ++ [⟨s.device.log.size, c⟩] }) := by
  simp only [submit, run_bind, run_get, run_set, hdeferred, if_true]
  rfl

/-- A command that an eager station has run is the newest in the queue of the station behind it. -/
theorem follows_submit {kind : EventKind} {label : String} {wait : List EventId}
    (hc : ∀ i ∈ c.buffers, i < n) :
    Follows (Behind n) (submit kind label wait c) (submit kind label wait c)
      fun event e s => Behind n e s ∧ s.Newest event := by
  refine follows_iff.2 ?_
  rintro e s ⟨b, h, rfl⟩ event e' hrun
  have hsize : (s.settled b).device.log.size = s.device.log.size := Bench.size_log_replay h.replays
  rw [run_submit_eager kind label wait c rfl] at hrun
  obtain ⟨u, t, hperform, hpure⟩ := run_bind_eq_ok.1 hrun
  obtain ⟨hevent, rfl⟩ := Prod.mk.inj hpure
  cases hevent
  obtain ⟨hstep, ht⟩ := step_of_perform hperform
  rw [hsize] at hstep ⊢
  -- The queue runs to `b` and the record is added; then the new command runs as it did over there.
  have hreplay : (s.bench.record ⟨kind, .queued, label, wait⟩).replay
      (s.device.queue ++ [⟨s.device.log.size, c⟩]) = some t.bench := by
    rw [Bench.replay_append, Bench.replay_record h.events, h.replays, Option.map_some,
      Option.bind_some, Bench.replay_singleton]
    exact hstep
  refine ⟨_, run_submit_deferred kind label wait c h.deferred, ⟨t.bench, ?_, ?_⟩, ?_⟩
  · refine ⟨h.deferred, h.next, hreplay, ?_, ?_⟩
    · intro p hp
      rcases List.mem_append.1 hp with hp | hp
      · exact Nat.lt_succ_of_lt (h.events p hp)
      · rw [List.mem_singleton.1 hp]
        exact Nat.lt_succ_self _
    · intro p hp
      rcases List.mem_append.1 hp with hp | hp
      · exact h.buffers p hp
      · rw [List.mem_singleton.1 hp]
        exact hc
  · rw [ht, recorded, hsize]
    rfl
  · exact ⟨s.device.queue, _, rfl, rfl, fun q hq => (h.events q hq).ne⟩

theorem tracks_checkWindow (window : Option Window) :
    Tracks (Behind n) (checkWindow object window) := by
  refine goes_get ?_
  rintro e s ⟨b, h, rfl⟩
  have hlength := (Bench.objectAt_replay h.replays object).2
  cases window with
  | none => exact goes_pure rfl
  | some w =>
    change Leads _ (Action.ofExcept (w.check (objectAt b.objects object).length)) _ _
    rw [hlength]
    exact tracks_ofExcept

theorem tracks_write {buffer : BufferId} (hbuffer : buffer < n) (object : Nat)
    (window : Option Window) (wait : List EventId) :
    Tracks (Behind n) (write buffer object window wait) := by
  refine goes_then (tracks_checkWindow object window) fun _ => ?_
  refine goes_then (tracks_count _) fun _ => goes_get ?_
  rintro e s ⟨b, h, rfl⟩
  have hlabel : (objectAt (s.settled b).objects object).label = (objectAt s.objects object).label :=
    (Bench.objectAt_replay h.replays object).1
  rw [hlabel]
  refine couples_weaken (follows_submit ?_) (fun _ _ => id) fun _ _ _ _ hes => ⟨hes.1, hes.2.1⟩
  simpa [Command.buffers] using hbuffer

/-- A station behind another one that has caught up. -/
def Abreast (n : BufferId) (e s : Station) : Prop := Behind n e s ∧ s.device.queue = []

theorem Abreast.eq (h : Abreast n e s) : e = s.settled s.bench := by
  obtain ⟨⟨b, h, rfl⟩, hqueue⟩ := h
  have hreplay := h.replays
  rw [hqueue] at hreplay
  rw [Option.some.inj hreplay]

theorem Abreast.of_queue (hdeferred : s.device.options.deferred = true)
    (hnext : s.device.nextBuffer = n) (hqueue : s.device.queue = []) :
    Abreast n (s.settled s.bench) s := by
  refine ⟨⟨s.bench, ⟨hdeferred, hnext, ?_, ?_, ?_⟩, rfl⟩, hqueue⟩
  · rw [hqueue]
    rfl
  · simp [hqueue]
  · simp [hqueue]

theorem follows_drain_none :
    Follows (Behind n) (drain none) (drain none) fun _ => Abreast n := by
  refine follows_iff.2 ?_
  rintro e s ⟨b, h, rfl⟩ u e' hrun
  rw [run_drain_settled] at hrun
  cases hrun
  exact ⟨s.caughtUp b, run_drain_none h, ⟨b, h.caughtUp, rfl⟩, rfl⟩

theorem follows_drain_newest (event : EventId) :
    Follows (fun e s => Behind n e s ∧ s.Newest event) (drain (some event)) (drain (some event))
      fun _ => Abreast n := by
  refine follows_iff.2 ?_
  rintro e s ⟨⟨b, h, rfl⟩, hnewest⟩ u e' hrun
  rw [run_drain_settled] at hrun
  cases hrun
  exact ⟨s.caughtUp b, run_drain_newest h hnewest, ⟨b, h.caughtUp, rfl⟩, rfl⟩

theorem tracks_read {buffer : BufferId} (hbuffer : buffer < n) (object : Nat)
    (window : Option Window) (wait : List EventId) (blocking : Bool) :
    Tracks (Behind n) (read buffer object window wait blocking) := by
  refine goes_then (tracks_checkWindow object window) fun _ => ?_
  refine goes_then (tracks_count _) fun _ => goes_get ?_
  rintro e s ⟨b, h, rfl⟩
  have hlabel : (objectAt (s.settled b).objects object).label = (objectAt s.objects object).label :=
    (Bench.objectAt_replay h.replays object).1
  rw [hlabel]
  have hbuffers : ∀ i ∈ (Command.read buffer object window).buffers, i < n := by
    simpa [Command.buffers] using hbuffer
  refine follows_bind (follows_submit hbuffers) fun event => ?_
  split
  · refine follows_bind (follows_drain_newest event) fun _ => ?_
    exact follows_pure fun _ _ hes => hes.1
  · exact follows_pure fun _ _ hes => hes.1

theorem follows_flush : Follows (Behind n) flush flush fun _ => Abreast n :=
  follows_bind (tracks_count _) fun _ => follows_drain_none

theorem follows_marker :
    Follows (Behind n) (marker wait) (marker wait)
      fun event e s => Behind n e s ∧ s.Newest event :=
  follows_bind (tracks_count _) fun _ => follows_submit nofun

/-- An event is the same on both sides once the queue has run. -/
theorem tracks_inspect (event : EventId) : Tracks (Abreast n) (inspect event) := by
  refine goes_get ?_
  intro e s habreast
  have hlog : e.device.event? event = s.device.event? event := by
    rw [habreast.eq]
    rfl
  rw [hlog]
  split
  · exact goes_pure rfl
  · exact leads_throw

/-- Waiting for the newest event. The eager station has it already; the other one runs its queue. -/
theorem follows_resolve_newest (event : EventId) :
    Follows (fun e s => Behind n e s ∧ s.Newest event) (resolve event) (resolve event)
      fun _ => Abreast n := by
  refine follows_iff.2 ?_
  rintro e s ⟨⟨b, h, rfl⟩, hnewest⟩ a e' hrun
  have hqueued : s.device.isQueued event = true := by
    obtain ⟨queue, p, hqueue, rfl, -⟩ := hnewest
    simp [Device.isQueued, hqueue]
  have hdeferred : (resolve event).run s = (inspect event).run (s.caughtUp b) := by
    simp only [resolve, run_bind, run_get, hqueued, if_true, run_drain_newest h hnewest]
  rw [hdeferred]
  exact follows_iff.1 (tracks_inspect event) (s.settled b) (s.caughtUp b)
    ⟨⟨b, h.caughtUp, rfl⟩, rfl⟩ a e' hrun

theorem tracks_resolve_abreast (event : EventId) : Tracks (Abreast n) (resolve event) := by
  refine follows_iff.2 ?_
  rintro e s habreast a e' hrun
  obtain ⟨⟨b, h, rfl⟩, hqueue⟩ := habreast
  have hqueued : s.device.isQueued event = false := by
    simp [Device.isQueued, hqueue]
  have hdeferred : (resolve event).run s = (inspect event).run s := by
    simp only [resolve, run_bind, run_get, hqueued, Bool.false_eq_true, if_false]
  rw [hdeferred]
  exact follows_iff.1 (tracks_inspect event) (s.settled b) s ⟨⟨b, h, rfl⟩, hqueue⟩ a e' hrun

theorem tracks_load : Tracks (Abreast n) load := by
  refine goes_modify ?_
  intro e s habreast
  rw [habreast.eq]
  obtain ⟨⟨b, h, -⟩, hqueue⟩ := habreast
  exact Abreast.of_queue (s := s.onDevice fun d => { d with loaded := true }) h.deferred
    h.next hqueue

/-- The record of an allocation, which is complete at once. -/
def allocationRecord (s : Station) (object bytes : Nat) : EventRecord where
  kind := .allocate
  status := .complete
  label := "allocate " ++ (objectAt s.objects object).label ++ " (" ++ toString bytes ++ " bytes)"
  waitList := []

theorem run_allocate {bytes : Nat} (hbytes : bytes < memoryLimit) (s : Station) :
    (allocate object bytes).run s =
      (.ok (s.device.nextBuffer, s.device.log.size), { s with
        device := { s.device with
          memory := s.device.memory.insert s.device.nextBuffer (List.replicate bytes 0)
          nextBuffer := s.device.nextBuffer + 1
          counters := { s.device.counters with allocations := s.device.counters.allocations + 1 }
          log := s.device.log.add (s.allocationRecord object bytes) } }) := by
  simp only [allocate, if_neg (Nat.not_le.2 hbytes)]
  rfl

theorem lt_of_run_allocate {object bytes : Nat} {s : Station} {a : BufferId × EventId}
    (h : (allocate object bytes).run s = (.ok a, t)) : bytes < memoryLimit := by
  by_contra hbytes
  simp only [allocate, if_pos (Nat.not_lt.1 hbytes)] at h
  cases (Prod.mk.inj h).1

/-- A new buffer has the same number on both sides, and no queued command names it. -/
theorem follows_allocate (bytes : Nat) :
    Follows (Behind n) (allocate object bytes) (allocate object bytes)
      fun a e s => Behind (n + 1) e s ∧ a.1 = n := by
  refine follows_iff.2 ?_
  rintro e s ⟨b, h, rfl⟩ a e' hrun
  have hbytes := lt_of_run_allocate hrun
  have hsize : (s.settled b).device.log.size = s.device.log.size := Bench.size_log_replay h.replays
  have hrecord : (s.settled b).allocationRecord object bytes = s.allocationRecord object bytes := by
    have hlabel : (objectAt (s.settled b).objects object).label =
        (objectAt s.objects object).label :=
      (Bench.objectAt_replay h.replays object).1
    rw [allocationRecord, hlabel, allocationRecord]
  rw [run_allocate object hbytes, hsize, hrecord] at hrun
  obtain ⟨ha, rfl⟩ := Prod.mk.inj hrun
  cases ha
  obtain ⟨hdeferred, rfl, hreplays, hevents, hbuffers⟩ := h
  have hunnamed : ∀ p ∈ s.device.queue, s.device.nextBuffer ∉ p.command.buffers := by
    intro p hp hi
    exact Nat.lt_irrefl _ (hbuffers p hp _ hi)
  have hreplay : ((s.bench.insert s.device.nextBuffer (List.replicate bytes 0)).record
      (s.allocationRecord object bytes)).replay s.device.queue =
      some ((b.insert s.device.nextBuffer (List.replicate bytes 0)).record
        (s.allocationRecord object bytes)) := by
    rw [Bench.replay_record hevents, Bench.replay_insert hunnamed, hreplays]
    rfl
  refine ⟨_, run_allocate object hbytes s, ⟨_, ⟨hdeferred, rfl, hreplay, ?_, ?_⟩, rfl⟩, rfl⟩
  · intro p hp
    exact Nat.lt_succ_of_lt (hevents p hp)
  · intro p hp i hi
    exact Nat.lt_succ_of_lt (hbuffers p hp i hi)

/-- Giving up a buffer runs the queue first, so the deferred station catches up. -/
theorem tracks_release (buffer : BufferId) : Tracks (Behind n) (release buffer) := by
  refine follows_bind follows_drain_none fun _ => goes_get ?_
  intro e s habreast
  have hbuffer : e.device.memory.get? buffer = s.device.memory.get? buffer := by
    rw [habreast.eq]
    rfl
  rw [hbuffer]
  split
  · intro e s habreast
    refine ⟨rfl, ?_⟩
    rw [habreast.eq]
    obtain ⟨⟨b, h, -⟩, hqueue⟩ := habreast
    exact (Abreast.of_queue (s := s.onDevice fun d => { d with memory := d.memory.erase buffer })
      h.deferred h.next hqueue).1
  · exact leads_throw

/-- A relation of stations that a line in the journal and a compilation keep. -/
structure Steady (P : Station → Station → Prop) : Prop where
  journal : ∀ {e s}, P e s → ∀ write : Journal → Journal,
    P { e with journal := write e.journal } { s with journal := write s.journal }
  kernels : ∀ {e s}, P e s → s.device.kernels = e.device.kernels
  count : ∀ {e s}, P e s → ∀ f : Counters → Counters,
    P (e.onDevice fun d => { d with counters := f d.counters })
      (s.onDevice fun d => { d with counters := f d.counters })

theorem steady_behind (n : BufferId) : Steady (Behind n) := by
  refine ⟨?_, ?_, ?_⟩
  · rintro e s ⟨b, h, rfl⟩ write
    exact ⟨b, ⟨h.deferred, h.next, h.replays, h.events, h.buffers⟩, rfl⟩
  · rintro e s ⟨b, h, rfl⟩
    rfl
  · rintro e s ⟨b, h, rfl⟩ f
    exact ⟨b, ⟨h.deferred, h.next, h.replays, h.events, h.buffers⟩, rfl⟩

theorem steady_abreast (n : BufferId) : Steady (Abreast n) where
  journal h write := ⟨(steady_behind n).journal h.1 write, h.2⟩
  kernels h := (steady_behind n).kernels h.1
  count h f := ⟨(steady_behind n).count h.1 f, h.2⟩

theorem follows_launch {code : InstalledCode} {frame : CallFrame} (hframe : frame.Below n)
    (task : String) (window : Option Window) (wait : List EventId) :
    Follows (Behind n) (launch code frame task window wait)
      (launch code frame task window wait)
      fun a e s => Behind n e s ∧ a.2.arguments = frame.arguments := by
  refine follows_bind (tracks_count _) fun _ => ?_
  refine follows_bind (follows_submit ?_) fun event => goes_get ?_
  · intro i hi
    simp only [Command.buffers, List.mem_filterMap, List.mem_map] at hi
    obtain ⟨a, ⟨f, hf, rfl⟩, hi⟩ := hi
    cases f with
    | constant value => cases hi
    | reference object buffer label =>
      obtain rfl := Option.some.inj hi
      exact hframe object buffer label hf
  · rintro e s ⟨⟨b, h, rfl⟩, -⟩
    refine follows_pure fun _ _ hes => ⟨hes.1, ?_⟩
    split <;> rfl

end Station

end Offload
