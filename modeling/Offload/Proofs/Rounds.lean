import Offload.Proofs.WorkpieceMachine

/-!
# Rounds of work

A pass over a list of instructions is a course through states: each instruction leads from the
states of one property to those of the next, and reading, tracing and logging in between disturb
none of them. A body of rounds, each of which makes a buffer for a window, fills it, launches the
kernel that adds one and reads the window back, is such a course over workpieces, and a pass over it
ends well.
-/

namespace Offload

open Offload.Action

namespace Machine

variable {S : Scene} {k : Workpiece} {m : Machine} {G G' : Workpiece → Prop} {P Q : Machine → Prop}

/-! ## Courses -/

/-- A property that does not change when instructions are read and noted. -/
def Detached (P : Machine → Prop) : Prop :=
  ∀ m reader trace journal, P m →
    P { m with
      reader, trace, store := { m.store with context := { m.store.context with journal } } }

/-- Instructions that lead from one property to another and do not fail. -/
inductive Course (mode : PassMode) :
    (Machine → Prop) → List Instruction → (Machine → Prop) → Prop where
  | done {P : Machine → Prop} (hP : Detached P) : Course mode P [] P
  | step {P Q R : Machine → Prop} {i : Instruction} {is : List Instruction} (hP : Detached P)
      (hi : Attains P (effect mode i) fun _ => Q) (h : Course mode Q is R) : Course mode P
      (i :: is) R

variable {mode : PassMode} {is : List Instruction}

theorem Course.append {R : Machine → Prop} {js : List Instruction} (h : Course mode P is Q)
    (h' : Course mode Q js R) : Course mode P (is ++ js) R := by
  induction h with
  | done => exact h'
  | step hP hi _ ih => exact .step hP hi (ih h')

theorem Course.detached (h : Course mode P is Q) : Detached P ∧ Detached Q := by
  induction h with
  | done hP => exact ⟨hP, hP⟩
  | step hP _ _ ih => exact ⟨hP, ih.2⟩

theorem Detached.noted (hP : Detached P) (hm : P m) (mode : PassMode) (i : Instruction)
    (note : Option Note) : P (m.noted mode i note) := by
  unfold Machine.noted
  split
  · exact hP m m.reader _ m.store.context.journal hm
  · exact hm

/-- A body whose script is a course and END goes through the course. -/
theorem Course.attains_runBody {kind : PassKind} (h : Course mode P is Q)
    (haccepts : ∀ i ∈ is, kind.accepts i.opcode = true ∧ i ≠ .finish) (fuel : Nat) :
    Attains (fun m => P m ∧ Reading.script fuel m.reader.cursor = ⟨is ++ [.finish], none⟩)
      (runBody mode kind fuel) fun _ => Q := by
  induction h generalizing fuel with
  | done hP =>
    rintro m ⟨hm, hscript⟩
    have hend : kind.accepts Instruction.finish.opcode = true := by cases kind <;> rfl
    obtain ⟨fuel₁, reader, journal, hstep⟩ := run_runBody_of_script mode hscript hend
    have heffect : ∀ m', (effect mode .finish).run m' = (.ok none, m') :=
      fun _ => by cases mode <;> rfl
    exact ⟨(), _, (hstep none _ (heffect _)).1 rfl,
      hP.noted (hP m reader m.trace journal hm) mode .finish none⟩
  | @step P Q R i is hP hi hcourse ih =>
    rintro m ⟨hm, hscript⟩
    obtain ⟨⟨hhead, hne⟩, htail⟩ := List.forall_mem_cons.1 haccepts
    obtain ⟨fuel₁, reader, journal, hstep⟩ := run_runBody_of_script mode hscript hhead
    obtain ⟨note, m', hrun, hm'⟩ := hi _ (hP m reader m.trace journal hm)
    obtain ⟨hscript', hbody⟩ := (hstep note m' hrun).2 hne
    rw [hbody]
    exact ih htail fuel₁ _ ⟨hcourse.detached.1.noted hm' mode i note, hscript'⟩

/-! ## The end of a pass -/

/-- The marker at the end of a pass, if there is one, is waited for. -/
theorem Rests.exists_run_awaitMarker (h : m.Rests S k) (config : Config) (barrier : Event) :
    ∃ event s, (awaitMarker config 0 barrier).run m = (.ok event, { m with store := s }) ∧
      Rests S k { m with store := s } := by
  rw [awaitMarker]
  cases config.useDependencies with
  | false => exact ⟨barrier, m.store, rfl, h⟩
  | true =>
    obtain ⟨e, ⟨st, o, r, hstore⟩, hpending⟩ := h.1.store
    obtain ⟨marker, st₁, hmarker, hevent, hdue₁, hlast⟩ := Station.attains_marker [] st hstore.due
    obtain ⟨s₁, hrun₁, hstore₁⟩ :=
      hstore.exists_run_onDevice hmarker hdue₁ (Nat.le_succ _) hstore.piece.marked
    have hissued : marker <
        ((o.counted fun c => { c with markers := c.markers + 1 }).submitted o.memory
          o.objects).events := lt_of_eq_of_lt hevent (Nat.lt_succ_self _)
    obtain ⟨event, st₂, hresolve, hrests⟩ := Station.attains_resolve hissued st₁ ⟨hdue₁, hlast⟩
    obtain ⟨s₂, hrun₂, hstore₂⟩ :=
      hstore₁.exists_run_onDevice hresolve hrests.1 le_rfl hstore₁.piece
    refine ⟨event, s₂, ?_, ?_, hstore₂.idle hrests.2⟩
    · exact (run_bind_of_ok (run_onDevice_of_store hrun₁)).trans (run_onDevice_of_store hrun₂)
    · exact h.1.withStore ⟨st₂, _, r, hstore₂⟩ hpending rfl (fun _ c hc => ⟨c, hc, rfl⟩) m.lastEvent

theorem Rests.exists_run_flushDevice (h : m.Rests S k) (config : Config) :
    ∃ s, (flushDevice config 0).run m = (.ok (), { m with store := s }) ∧
      Rests S k { m with store := s } := by
  rw [flushDevice]
  cases config.flushOnCompletion with
  | false => exact ⟨m.store, rfl, h⟩
  | true =>
    obtain ⟨e, ⟨st, o, r, hstore⟩, hpending⟩ := h.1.store
    obtain ⟨_, st', hflush, hrests⟩ := Station.attains_flush st hstore.due
    obtain ⟨s, hrun, hstore'⟩ :=
      hstore.exists_run_onDevice hflush hrests.1 le_rfl hstore.piece.flushed
    refine ⟨s, run_onDevice_of_store hrun, ?_, hstore'.idle hrests.2⟩
    exact h.1.withStore ⟨st', _, r, hstore'⟩ hpending rfl (fun _ c hc => ⟨c, hc, rfl⟩) m.lastEvent

/-- The profiles of the launches can be taken, since the device has their events. -/
theorem Rests.exists_run_collect (h : m.Rests S k) :
    ∃ profiles, (collect m.pending).run { m with pending := [] } =
      (.ok (), { m with pending := [], profiles }) := by
  obtain ⟨e, ⟨st, o, r, hstore⟩, hpending⟩ := h.1.store
  obtain ⟨c, hc, -, t, ht, -⟩ := hstore.context
  have hdevices : m.context.devices = [st.device] := hstore.device
  obtain ⟨r, profiles, hrun, houtcome⟩ :=
    run_collect_of_queues (m := { m with pending := [] }) h.2 m.pending
  have hoffers : ∀ p ∈ m.pending, Offers { m with pending := [] } p := by
    intro p hp
    obtain ⟨htask, hdevice, -⟩ := hpending p hp
    refine ⟨?_, ?_⟩
    · have htasks : m.context.tasks = c.tasks := by
        rw [context, hc]
        rfl
      change p.task < m.context.tasks.length
      rw [htask, htasks]
      exact (List.getElem?_eq_some_iff.1 ht).1
    · change p.device < m.context.devices.length
      rw [hdevice, hdevices]
      exact Nat.zero_lt_one
  obtain ⟨_, rfl⟩ | ⟨p, hp, -, hnot⟩ := houtcome hoffers
  · exact ⟨profiles, hrun⟩
  · obtain ⟨-, hdevice, hevent⟩ := hpending p hp
    refine absurd (Context.has_iff.2 ⟨st.device, ?_, ?_⟩) hnot
    · change m.context.devices[p.device]? = _
      rw [hdevice, hdevices]
      rfl
    · exact hstore.due.events ▸ lt_of_lt_of_le hevent hstore.events

theorem attains_finish : Attains (Rests S k) finish fun _ => Rests S k := by
  intro m h
  obtain ⟨e, ⟨st, o, r, hstore⟩, -⟩ := h.1.store
  have hdevices : m.context.devices = [st.device] := hstore.device
  obtain ⟨event, s₁, hmarker, h₁⟩ := h.exists_run_awaitMarker m.config .empty
  obtain ⟨s₂, hflush, h₂⟩ := h₁.exists_run_flushDevice m.config
  obtain ⟨profiles, hcollect⟩ := h₂.exists_run_collect
  have hsettle : (settle m.config .empty (List.range m.context.devices.length)).run m =
      (.ok event, { m with store := s₂ }) := by
    rw [hdevices]
    exact (run_bind_of_ok hmarker).trans (run_bind_of_ok hflush)
  refine ⟨event, { m with store := s₂, pending := [], profiles }, ?_,
    ⟨?_, h₂.1.code, h₂.1.slots, h₂.1.pool, h₂.1.frames⟩, h₂.2⟩
  · rw [finish, run_bind, run_get]
    dsimp only
    rw [run_bind_of_ok hsettle]
    exact run_bind_of_ok hcollect
  · obtain ⟨e, hbears, -⟩ := h₂.1.store
    exact ⟨e, hbears, by simp⟩

/-! ## Passes -/

/-- The machine bears a workpiece with a property. -/
def Borne (S : Scene) (G : Workpiece → Prop) (m : Machine) : Prop := ∃ k, G k ∧ m.Bears S k

/-- The machine bears a workpiece with a property, and no command waits. -/
def AtRest (S : Scene) (G : Workpiece → Prop) (m : Machine) : Prop := ∃ k, G k ∧ m.Rests S k

theorem Bears.detached (h : m.Bears S k) (reader : Reader) (trace : List TraceEntry)
    (journal : Journal) :
    Bears S k { m with
      reader, trace, store := { m.store with context := { m.store.context with journal } } } := by
  obtain ⟨e, ⟨st, o, r, hstore⟩, hpending⟩ := h.store
  exact ⟨⟨e, ⟨_, o, r, hstore.withJournal journal⟩, hpending⟩, h.code, h.slots, h.pool, h.frames⟩

theorem detached_borne : Detached (Borne S G) := by
  rintro m reader trace journal ⟨k, hk, h⟩
  exact ⟨k, hk, h.detached reader trace journal⟩

theorem detached_atRest : Detached (AtRest S G) := by
  rintro m reader trace journal ⟨k, hk, h⟩
  exact ⟨k, hk, h.1.detached reader trace journal, h.2⟩

theorem AtRest.begun (h : m.AtRest S G) : m.begun.AtRest S G := by
  obtain ⟨k, hk, h⟩ := h
  exact ⟨k, hk, ⟨h.1.store, h.1.code, h.1.slots, h.1.pool, h.1.frames⟩, h.2⟩

theorem attains_completion (mode : PassMode) :
    Attains (AtRest S G) (completion mode (.ok ())) fun _ => AtRest S G := by
  refine attains_bind (Q := fun _ => AtRest S G) (attains_modify fun m hm => ?_) fun _ => ?_
  · exact detached_atRest m m.reader.reset m.trace m.store.context.journal hm
  · cases mode with
    | warmup => exact attains_pure fun _ => id
    | normal =>
      rintro m ⟨k, hk, h⟩
      obtain ⟨event, m', hrun, hm'⟩ := attains_finish m h
      exact ⟨event, m', hrun, k, hk, hm'⟩

theorem keeps_concluding_atRest (mode : PassMode) (kind : PassKind) (result : Except Fault Event) :
    Keeps (AtRest S G) (concluding mode kind result) := by
  refine keeps_concluding_of_log (fun level text => ?_) ?_ ?_ mode kind result
  · exact meets_iff_after.2 fun m hm => detached_atRest m m.reader m.trace _ hm
  · rintro m timing ⟨k, hk, h⟩
    exact ⟨k, hk, ⟨h.1.store, h.1.code, h.1.slots, h.1.pool, h.1.frames⟩, h.2⟩
  · rintro m ⟨k, hk, h⟩
    obtain ⟨e, hstore, -⟩ := h.1.store
    exact ⟨k, hk, ⟨⟨e, hstore, by simp⟩, h.1.code, h.1.slots, h.1.pool, h.1.frames⟩, h.2⟩

/-- A pass over a course ends well, and the next one can start where it started. -/
theorem Course.attains_serve {kind : PassKind} (h : Course mode (AtRest S G) is (AtRest S G'))
    (haccepts : ∀ i ∈ is, kind.accepts i.opcode = true ∧ i ≠ .finish) :
    Attains (fun m => m.AtRest S G ∧ m.Reads (is ++ [.finish])) (serve (.pass mode kind))
      fun _ m => m.AtRest S G' ∧ m.Reads (is ++ [.finish]) := by
  rintro m ⟨hm, hreads⟩
  obtain ⟨_, m₁, hbody, h₁⟩ := h.attains_runBody haccepts m.reader.remaining m.begun
    ⟨hm.begun, hreads.2⟩
  obtain ⟨event, m₂, hcompletion, h₂⟩ := attains_completion mode m₁ h₁
  have houtcome := outcome_concluding mode kind (.ok event) m₂
  have hafter := meets_iff_after.1 (keeps_concluding_atRest mode kind (.ok event)) m₂ h₂
  have hrun : (serve (.pass mode kind)).run m = (concluding mode kind (.ok event)).run m₂ := by
    have hpass : (m.body mode kind) = (.ok (), m₁) := hbody
    rw [serve, run_runPass, hpass, run_closing, hcompletion]
  have hagain := hreads.serve (.pass mode kind)
  rw [hrun] at hagain ⊢
  exact ⟨event, _, Prod.ext houtcome rfl, hafter, hagain⟩

theorem session_replicate {P : Nat → Machine → Prop} {request : Request}
    (h : ∀ n, Attains (P n) (serve request) fun _ => P (n + 1)) (count n : Nat) (hm : P n m) :
    (∀ outcome ∈ (session (List.replicate count request) m).1, outcome.isOk = true) ∧
      P (n + count) (session (List.replicate count request) m).2 := by
  induction count generalizing n m with
  | zero => exact ⟨by simp [session], hm⟩
  | succ count ih =>
    obtain ⟨event, m', hrun, hm'⟩ := h n m hm
    obtain ⟨houtcomes, hend⟩ := ih (n + 1) hm'
    rw [List.replicate_succ, session, hrun]
    refine ⟨List.forall_mem_cons.2 ⟨rfl, houtcomes⟩, ?_⟩
    rw [Nat.add_right_comm] at hend
    exact hend

end Machine

/-! ## Rounds -/

/-- A round of work on the first object: make a buffer for a window, fill it, lazily or in any case,
launch the first task on it, and read the window back. -/
def Instruction.round (lazily : Bool) (window : Option Window) : List Instruction :=
  [.allocate 0 0 window, .transfer (if lazily then .copyIn else .streamIn) 0 0 none window,
    .launch 0 0 0 none window [.reference 0], .transfer (.streamOut true) 0 0 none window]

/-- A round is for passes without windows or for passes with windows, and END is none of its
instructions. -/
theorem Instruction.accepts_round (lazily : Bool) (window : Option Window) :
    ∀ i ∈ round lazily window,
      PassKind.accepts (if window.isSome then .batched else .plain) i.opcode = true ∧
      i ≠ .finish := by
  intro i hi
  cases lazily <;> cases window <;> fin_cases hi <;> exact ⟨rfl, by simp⟩

namespace Machine

/-- A window that a round can work on: it lies in the object, its size can be allocated, and a
device that retains frames need not replace the buffer. -/
structure Workable (S : Scene) (window : Option Window) (k : Workpiece) : Prop where
  fits : (k.range window).fits k.bytes.length = true
  size : (k.range window).size < Station.memoryLimit
  keeps : S.options.retainCallFrames = true → k.copy = none ∨ k.hasRoom window = true

theorem course_round {lazily : Bool} {window : Option Window} (hG : ∀ k, G k → Workable S window k)
    (hround : ∀ k id, G k → G' (k.round id lazily window)) :
    Course .normal (AtRest S G) (Instruction.round lazily window) (AtRest S G') := by
  refine .step (Q := AtRest S fun k' => ∃ k id, G k ∧ k' = k.allocate id window)
    detached_atRest ?_ <|
    .step (Q := Borne S fun k' => ∃ k id, G k ∧ k' = (k.allocate id window).send lazily window)
    detached_atRest ?_ <|
    .step (Q := Borne S fun k' => ∃ k id, G k ∧
      k' = ((k.allocate id window).send lazily window).launch) detached_borne ?_ <|
    .step detached_borne ?_ (.done detached_atRest)
  · rintro m ⟨k, hk, h⟩
    obtain ⟨hfits, hsize, hkeeps⟩ := hG k hk
    obtain ⟨note, m', hrun, id, hm'⟩ := attains_allocate hfits hsize hkeeps m h
    exact ⟨note, m', hrun, _, ⟨k, id, hk, rfl⟩, hm'⟩
  · rintro m ⟨_, ⟨k, id, hk, rfl⟩, h⟩
    have hfits := (hG k hk).fits
    rw [← Workpiece.range_of_bytes (Workpiece.bytes_allocate id window k),
      ← Workpiece.bytes_allocate id window k] at hfits
    obtain ⟨note, m', hrun, hm'⟩ := attains_send hfits (k.hasRoom_allocate id window) lazily m h.1
    exact ⟨note, m', hrun, _, ⟨k, id, hk, rfl⟩, hm'⟩
  · rintro m ⟨_, ⟨k, id, hk, rfl⟩, h⟩
    obtain ⟨c, hc, -⟩ := k.exists_copy_allocate id window
    obtain ⟨bytes, hsent, -⟩ := Workpiece.exists_copy_send hc lazily window
    obtain ⟨note, m', hrun, hm'⟩ := attains_launch hsent (by simp) window m h
    exact ⟨note, m', hrun, _, ⟨k, id, hk, rfl⟩, hm'⟩
  · rintro m ⟨_, ⟨k, id, hk, rfl⟩, h⟩
    have hbytes : ((k.allocate id window).send lazily window).launch.bytes = k.bytes := by simp
    have hfits := (hG k hk).fits
    rw [← Workpiece.range_of_bytes hbytes, ← hbytes] at hfits
    obtain ⟨c, hc, -⟩ := k.exists_copy_allocate id window
    obtain ⟨bytes, hsent, -⟩ := Workpiece.exists_copy_send hc lazily window
    obtain ⟨note, m', hrun, hm'⟩ := attains_fetch hfits (congrArg (Option.map _) hsent) m h
    exact ⟨note, m', hrun, _, hround k id hk, hm'⟩

/-- A warm-up pass compiles the task and leaves the rest of the workpiece as it is. -/
theorem course_round_warmup {lazily : Bool} {window : Option Window}
    (hcompile : ∀ k, G k → G' k.compile) :
    Course .warmup (AtRest S G) (Instruction.round lazily window) (AtRest S G') := by
  have hskip : ∀ {G i}, effect .warmup i = pure none →
      Attains (AtRest S G) (effect .warmup i) fun _ => AtRest S G := by
    intro G i hi
    rw [hi]
    exact attains_pure fun _ => id
  refine .step detached_atRest (hskip rfl) <| .step detached_atRest (hskip rfl) <|
    .step detached_atRest ?_ <| .step detached_atRest (hskip rfl) (.done detached_atRest)
  rintro m ⟨k, hk, h⟩
  obtain ⟨note, m', hrun, hm'⟩ := attains_launch_warmup window m h
  exact ⟨note, m', hrun, _, hcompile k hk, hm'⟩

end Machine

end Offload
