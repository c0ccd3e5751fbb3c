import Offload.Command
import Offload.Proofs.Listing
import Offload.Proofs.Readiness

/-!
# Agreement of the commands

The three commands come to the program of a manifest in different ways: `check` decodes it before
anything else, `disasm` writes its lines while it reads, and `run` reads the header and then every
instruction in the pass that carries it out. Still they agree. What `check` accepts can be listed,
with one line for every part that it has counted, and a run of it fails in a pass or not at all.
What `run` has run through once, `check` accepts.
-/

namespace Offload

open Offload.Action

namespace Action

variable {σ ε δ α β : Type}

theorem run_mapFault (f : ε → δ) (x : Action σ ε α) (s : σ) :
    (x.mapFault f).run s = ((x.run s).1.mapError f, (x.run s).2) := by
  unfold mapFault run
  dsimp only
  rcases x s with ⟨r, t⟩
  cases r <;> rfl

theorem keeps_forM {I : σ → Prop} {f : β → Action σ ε PUnit} (hf : ∀ b, Keeps I (f b))
    (l : List β) :
    Keeps I (l.forM f) := by
  induction l with
  | nil => exact keeps_pure
  | cons b l ih => exact keeps_bind (hf b) fun _ => ih

end Action

/-! ## Lines of a listing -/

/-- A listing has a line for the setup, for every context, for the entry and for every
instruction. -/
theorem Program.exists_listing {code : Bytes} {p : Program} (hp : decode code = .ok p) :
    ∃ ls : List String, disassemble code = .ok (Text.paragraph ls) ∧ (∀ l ∈ ls, '\n' ∉ l.toList) ∧
      ls.length = 2 + p.header.contexts.length + p.body.length := by
  have hencodable := ((decode_eq_ok_iff_starts code p).1 hp).1
  refine ⟨p.lines, ?_, Assembly.newline_not_mem_of_assembles (assembles_lines p hencodable), ?_⟩
  · rw [disassemble_eq, hp]
    rfl
  · simp only [lines, Header.lines, List.length_append, List.length_cons, List.length_map,
      List.length_nil]
    omega

/-! ## Passes of a run -/

variable {m : Manifest} {fault : RunFault}

namespace Command

open Machine (runPass)

/-- The warm-up that the options ask for, and the first `count` passes. -/
def upTo (o : RunOptions) (count : Nat) : Action Machine RunFault Unit := do
  let kind : PassKind := if o.batched then .batched else .plain
  if o.warmup then
    let _ ← (runPass .warmup kind).mapFault .warmup
  passes o kind count 0

theorem session_eq_upTo (o : RunOptions) : session o = upTo o o.iterations := rfl

/-- The machine before a pass that has `done` passes before it. -/
def readied (o : RunOptions) (done : Nat) (m : Machine) : Machine :=
  if o.invalidate && done != 0 then m.invalidate else m

/-- The machine with a message about a pass. -/
def noticed (o : RunOptions) (done : Nat) (m : Machine) : Machine :=
  ((Machine.log .info
    ("hetvm-run: pass " ++ toString (done + 1) ++ " of " ++ toString o.iterations ++
      " complete")).run m).2

/-- A pass that fails ends the run; after any other the run goes on. -/
theorem run_passes_succ (o : RunOptions) (kind : PassKind) (left done : Nat) (m : Machine) :
    (passes o kind (left + 1) done).run m =
      match (runPass .normal kind).run (readied o done m) with
      | (.error fault, m) => (.error (.execution (done + 1) fault), m)
      | (.ok _, m) => (passes o kind left (done + 1)).run (noticed o done m) := by
  have hready : (passes o kind (left + 1) done).run m = (do
      let _ ← (runPass .normal kind).mapFault (.execution (done + 1))
      (Machine.log .info
        ("hetvm-run: pass " ++ toString (done + 1) ++ " of " ++ toString o.iterations ++
          " complete")).mapFault (.execution (done + 1))
      passes o kind left (done + 1) : Action Machine RunFault Unit).run (readied o done m) := by
    rw [passes, readied]
    split <;> rfl
  rw [hready, run_bind, run_mapFault]
  rcases (runPass .normal kind).run (readied o done m) with ⟨r, m⟩
  cases r with
  | error fault => rfl
  | ok event => rfl

/-- Either all passes end well, or one of them fails: then all passes before it have ended well, and
it is the one that the fault names. -/
theorem outcome_passes (o : RunOptions) (kind : PassKind) (left done : Nat) (m : Machine) :
    ((passes o kind left done).run m).1 = .ok () ∨
      ∃ k < left, ∃ fault,
      ((passes o kind left done).run m).1 = .error (.execution (done + k + 1) fault) ∧
        ((passes o kind (k + 1) done).run m).1 = .error (.execution (done + k + 1) fault) ∧
        ∀ j ≤ k, ((passes o kind j done).run m).1 = .ok () := by
  induction left generalizing done m with
  | zero => exact .inl rfl
  | succ left ih =>
    rcases hpass : (runPass .normal kind).run (readied o done m) with ⟨r, m₁⟩
    cases r with
    | error fault =>
      have hstop : ∀ n, (passes o kind (n + 1) done).run m =
          (.error (.execution (done + 1) fault), m₁) := by
        intro n
        rw [run_passes_succ, hpass]
      refine .inr ⟨0, by omega, fault, ?_, ?_, fun j hj => ?_⟩
      · rw [hstop]
      · rw [hstop]
      · obtain rfl : j = 0 := by omega
        rfl
    | ok event =>
      have hgo : ∀ n, (passes o kind (n + 1) done).run m =
          (passes o kind n (done + 1)).run (noticed o done m₁) := by
        intro n
        rw [run_passes_succ, hpass]
      rcases ih (done + 1) (noticed o done m₁) with hall | ⟨k, hk, fault, hfault, hthat, hbefore⟩
      · refine .inl ?_
        rw [hgo]
        exact hall
      · have hnumber : done + 1 + k + 1 = done + (k + 1) + 1 := by omega
        rw [hnumber] at hfault hthat
        refine .inr ⟨k + 1, by omega, fault, ?_, ?_, fun j hj => ?_⟩
        · rw [hgo]
          exact hfault
        · rw [hgo]
          exact hthat
        · cases j with
          | zero => rfl
          | succ j =>
            rw [hgo]
            exact hbefore j (by omega)

theorem invocations_passes {o : RunOptions} {kind : PassKind} {left done : Nat} {m n : Machine}
    (h : (passes o kind left done).run m = (.ok (), n)) :
    n.timing.invocations = m.timing.invocations + left := by
  induction left generalizing done m with
  | zero =>
    cases h
    rfl
  | succ left ih =>
    have htiming := Machine.timing_runPass .normal kind (readied o done m)
    rw [run_passes_succ] at h
    revert h htiming
    rcases (runPass .normal kind).run (readied o done m) with ⟨r, m₁⟩
    intro h htiming
    cases r with
    | error fault => cases h
    | ok event =>
      have hready : (readied o done m).timing = m.timing := by
        rw [readied]
        split <;> rfl
      have hnotice : (noticed o done m₁).timing = m₁.timing := rfl
      have hpass : m₁.timing = m.timing.record 0 := by
        rw [← hready]
        exact htiming
      rw [ih h, hnotice, hpass]
      dsimp only [Timing.record]
      omega

/-! ## A run and its fault -/

variable {o : RunOptions}

/-- A run fails in the warm-up that was asked for or in one of its passes. -/
theorem fault_of_session {m : Machine} (h : ((session o).run m).1 = .error fault) :
    (o.warmup = true ∧ ∃ f, fault = .warmup f) ∨
      ∃ pass f, fault = .execution pass f ∧ 1 ≤ pass ∧ pass ≤ o.iterations ∧
        ((upTo o pass).run m).1 = .error fault ∧ ∀ k < pass, ((upTo o k).run m).1 = .ok () := by
  -- After the warm-up, `upTo` is nothing but passes.
  have hpasses : ∀ m', (∀ k, (upTo o k).run m =
        (passes o (if o.batched then .batched else .plain) k 0).run m') →
      ∃ pass f, fault = .execution pass f ∧ 1 ≤ pass ∧ pass ≤ o.iterations ∧
        ((upTo o pass).run m).1 = .error fault ∧ ∀ k < pass, ((upTo o k).run m).1 = .ok () := by
    intro m' hrun
    rw [session_eq_upTo, hrun] at h
    rcases outcome_passes o (if o.batched then .batched else .plain) o.iterations 0 m' with
      hall | ⟨k, hk, f, hfault, hthat, hbefore⟩
    · rw [hall] at h
      cases h
    · obtain rfl : RunFault.execution (0 + k + 1) f = fault :=
        Except.error.inj (hfault.symm.trans h)
      refine ⟨k + 1, f, by rw [Nat.zero_add], by omega, by omega, ?_, fun j hj => ?_⟩
      · rw [hrun]
        exact hthat
      · rw [hrun]
        exact hbefore j (by omega)
  cases hwarmup : o.warmup with
  | false =>
    refine .inr (hpasses m fun k => ?_)
    rw [upTo, hwarmup]
    rfl
  | true =>
    have hrun : ∀ k, (upTo o k).run m = (do
        let _ ← (runPass .warmup (if o.batched then .batched else .plain)).mapFault .warmup
        passes o (if o.batched then .batched else .plain) k 0 : Action Machine RunFault Unit).run
        m := by
      intro k
      rw [upTo, hwarmup]
      rfl
    simp only [run_bind, run_mapFault] at hrun
    revert hrun
    rcases (runPass .warmup (if o.batched then .batched else .plain)).run m with ⟨r, m'⟩
    intro hrun
    cases r with
    | error f =>
      refine .inl ⟨rfl, f, ?_⟩
      rw [session_eq_upTo, hrun] at h
      exact (Except.error.inj h).symm
    | ok event => exact .inr (hpasses m' hrun)

/-- The machine that a run starts with, where `i` comes from the manifest. -/
abbrev Starts (m : Manifest) (i : Instance) (machine : Machine) : Prop :=
  ∃ c, (Machine.create i.code m.config).run i.context = (.ok machine, c)

variable {machine : Machine} {i : Instance}

theorem run_of_starts (hi : m.instantiate = .ok i) (hm : Starts m i machine) :
    (run o m).1 = .error fault ↔ ((session o).run machine).1 = .error fault := by
  obtain ⟨c, hm⟩ := hm
  rw [run, hi]
  dsimp only
  rw [hm]
  dsimp only
  rcases (session o).run machine with ⟨r, n⟩
  cases r with
  | error f => simp
  | ok u => simp

theorem timing_reported (n : Machine) :
    (Machine.reportProfiles.after
      (Machine.reportEvents.after (Machine.reportTiming.after n))).timing =
      n.timing := by
  let Same (m : Machine) : Prop := m.timing = n.timing
  have hlog : ∀ level text, Keeps Same (Machine.log level text) := fun _ _ =>
    meets_iff_after.2 fun _ => id
  have htiming : Keeps Same Machine.reportTiming :=
    keeps_get fun _ => keeps_bind (hlog _ _) fun _ => keeps_pure
  have hevents : Keeps Same Machine.reportEvents := by
    refine keeps_get fun m => ?_
    split
    · refine keeps_bind (keeps_forM (fun d => ?_) _) fun _ => keeps_pure
      exact keeps_forM (fun e => hlog _ _) _
    · exact keeps_bind (hlog _ _) fun _ => keeps_pure
  have hprofiles : Keeps Same Machine.reportProfiles :=
    keeps_get fun m => keeps_bind (keeps_forM (fun p => hlog _ _) _) fun _ =>
      keeps_pure
  exact meets_iff_after.1 hprofiles _ (meets_iff_after.1 hevents _
    (meets_iff_after.1 htiming n rfl))

/-- What stands behind the report of a run. -/
theorem run_eq_ok {r : RunReport} (h : (run o m).1 = .ok r) :
    ∃ i machine n, m.instantiate = .ok i ∧ Starts m i machine ∧
      (session o).run machine = (.ok (), n) ∧ r.mean = seconds n.timing.mean ∧
      r.total = seconds n.timing.total ∧ r.timing = n.timing.text := by
  unfold run at h
  cases hi : m.instantiate with
  | error fault =>
    rw [hi] at h
    cases h
  | ok i =>
    rw [hi] at h
    dsimp only at h
    rcases hm : (Machine.create i.code m.config).run i.context with ⟨r', c⟩
    rw [hm] at h
    cases r' with
    | error fault => cases h
    | ok machine =>
      dsimp only at h
      rcases hsession : (session o).run machine with ⟨r', n⟩
      rw [hsession] at h
      cases r' with
      | error fault => cases h
      | ok u =>
        cases h
        have htiming := timing_reported n
        refine ⟨i, machine, n, rfl, ⟨c, hm⟩, hsession, ?_, ?_, ?_⟩
        · rw [← htiming]
          rfl
        · rw [← htiming]
          rfl
        · rw [← htiming]
          rfl

variable {r : CheckReport}

theorem check_eq_ok_iff :
    check m = .ok r ↔ ∃ i p, m.instantiate = .ok i ∧ Program.decode i.code = .ok p ∧
      p.header.check i.context = .ok () ∧ r = ⟨p.header, p.body.length⟩ := by
  unfold check
  cases hi : m.instantiate with
  | error fault => simp [Except.mapError, bind, Except.bind]
  | ok i =>
    cases hp : Program.decode i.code with
    | error fault => simp [Except.mapError, bind, Except.bind, hp]
    | ok p =>
      cases hc : p.header.check i.context with
      | error fault => simp [Except.mapError, bind, Except.bind, hp, hc]
      | ok u => simp [Except.mapError, bind, Except.bind, pure, Except.pure, hp, hc, eq_comm]

theorem assemble_of_instantiate (h : m.instantiate = .ok i) : assemble m.program = .ok i.code := by
  unfold Manifest.instantiate at h
  split at h
  · cases h
  · cases hcode : assemble m.program with
    | error fault => simp [hcode, Except.mapError, bind, Except.bind] at h
    | ok code =>
      cases hobjects : m.objects.mapM ObjectSpec.toObject with
      | error fault => simp [hcode, hobjects, Except.mapError, bind, Except.bind] at h
      | ok objects =>
        cases htasks : m.tasks.mapM TaskSpec.toTask with
        | error fault => simp [hcode, hobjects, htasks, Except.mapError, bind, Except.bind] at h
        | ok tasks =>
          simp only [hcode, hobjects, htasks, Except.mapError, bind, Except.bind] at h
          cases h
          rfl

theorem disasm_of_check (h : check m = .ok r) :
    ∃ ls : List String, disasm m = .ok (Text.paragraph ls) ∧ (∀ l ∈ ls, '\n' ∉ l.toList) ∧
      ls.length = 2 + r.header.contexts.length + r.instructions := by
  obtain ⟨i, p, hi, hp, -, rfl⟩ := check_eq_ok_iff.1 h
  obtain ⟨ls, hlisting, hlines, hlength⟩ := Program.exists_listing hp
  refine ⟨ls, ?_, hlines, hlength⟩
  simp [disasm, assemble_of_instantiate hi, hlisting, Except.mapError, bind, Except.bind]

theorem starts_of_check (h : check m = .ok r) :
    ∃ i machine, m.instantiate = .ok i ∧ Starts m i machine := by
  obtain ⟨i, p, hi, hp, hcheck, -⟩ := check_eq_ok_iff.1 h
  have hvalid : i.context.validate i.code = .ok p.header := by
    simp [Context.validate, hp, hcheck, bind, Except.bind, pure, Except.pure]
  obtain ⟨machine, c, hm, -⟩ := Machine.create_of_validate hvalid m.config
  exact ⟨i, machine, hi, c, hm⟩

/-- A first pass that ends well has decoded the program. -/
theorem check_of_pass (hi : m.instantiate = .ok i) (hm : Starts m i machine)
    {requests : List Request} {kind : PassKind} {event : Event}
    (hpass : ((runPass .normal kind).run (Machine.session requests machine).2).1 = .ok event) :
    ∃ r, check m = .ok r := by
  obtain ⟨c, hm⟩ := hm
  obtain ⟨-, -, hcheck, -, -⟩ := Machine.start_of_create hm
  have henacts := Machine.enacts_body hm requests .normal kind
  obtain ⟨hnone, -, -⟩ := henacts.through (Machine.body_of_closing hpass)
  have hdecode := Machine.decode_of_create hm
  rw [Script.outcome, hnone] at hdecode
  exact ⟨_, check_eq_ok_iff.2 ⟨i, _, hi, hdecode, hcheck, rfl⟩⟩

theorem pass_of_session {n : Machine} (h : (session o).run machine = (.ok (), n))
    (hone : 1 ≤ o.iterations) :
    ∃ requests kind event,
      ((runPass .normal kind).run (Machine.session requests machine).2).1 = .ok event := by
  obtain ⟨left, hleft⟩ : ∃ left, o.iterations = left + 1 := ⟨o.iterations - 1, by omega⟩
  have hfirst : ∀ {m' : Machine} {kind : PassKind},
      (passes o kind o.iterations 0).run m' = (.ok (), n) →
      ∃ event, ((runPass .normal kind).run m').1 = .ok event := by
    intro m' kind hpasses
    have hready : readied o 0 m' = m' := by simp [readied]
    rw [hleft, run_passes_succ, hready] at hpasses
    revert hpasses
    rcases (runPass .normal kind).run m' with ⟨r, m₁⟩
    intro hpasses
    cases r with
    | error fault => cases hpasses
    | ok event => exact ⟨event, rfl⟩
  unfold session at h
  dsimp only at h
  split at h
  · obtain ⟨event, m', hwarmup, hpasses⟩ := run_bind_eq_ok.1 h
    rw [run_mapFault] at hwarmup
    obtain ⟨-, rfl⟩ := Prod.mk.inj hwarmup
    obtain ⟨event, hevent⟩ := hfirst hpasses
    exact ⟨[.pass .warmup _], _, event, hevent⟩
  · obtain ⟨event, hevent⟩ := hfirst h
    exact ⟨[], _, event, hevent⟩

theorem invocations_session {n : Machine} (h : (session o).run machine = (.ok (), n))
    (hnew : machine.timing.invocations = 0) : n.timing.invocations = o.iterations := by
  unfold session at h
  dsimp only at h
  split at h
  · obtain ⟨event, m', hwarmup, hpasses⟩ := run_bind_eq_ok.1 h
    rw [run_mapFault] at hwarmup
    obtain ⟨-, rfl⟩ := Prod.mk.inj hwarmup
    rw [invocations_passes hpasses, Machine.timing_runPass, if_neg (by simp), hnew, Nat.zero_add]
  · rw [invocations_passes h, hnew, Nat.zero_add]

end Command

theorem map_eq_ok_iff {ε α β : Type} {r : Except ε α} {f : α → β} {b : β} :
    r.map f = .ok b ↔ ∃ a, r = .ok a ∧ f a = b := by
  cases r <;> simp [Except.map]

theorem map_eq_error_iff {ε α β : Type} {r : Except ε α} {f : α → β} {e : ε} :
    r.map f = .error e ↔ r = .error e := by
  cases r <;> simp [Except.map]

namespace CommandLine

/-- The outcome of a command, once the manifest is read. -/
def outcome (c : CommandLine) (m : Manifest) : Except RunFault Report :=
  match c.verb with
  | .run => (Command.run c.options m).1.map .run
  | .disasm => (Command.disasm m).map .listing
  | .check => (Command.check m).map .check

variable {file : Except FileProblem String}

theorem execute_of_manifest {c : CommandLine} (hfile : Command.manifest c.manifest file = .ok m) :
    (c.execute file).1 = c.outcome m := by
  rw [execute, hfile, outcome]
  cases c.verb <;> rfl

theorem execute_of_fault {c : CommandLine}
    (hfile : Command.manifest c.manifest file = .error fault) :
    (c.execute file).1 = .error fault := by
  rw [execute, hfile]

open Command in
/-- The commands agree on every manifest file. What `check` accepts, `disasm` lists, one line for
every part that was counted; and `run`, whatever its options, can fail only in the warm-up or in a
pass, where all the passes before it have ended well. What `run` has run at least once, `check`
accepts, and the passes that the timing of the report counts are those that were asked for. -/
theorem commands_agree (c : CommandLine) (file : Except FileProblem String) :
    (∀ r, ({ c with verb := .check }.execute file).1 = .ok (.check r) →
      (∃ ls : List String,
        ({ c with verb := .disasm }.execute file).1 = .ok (.listing (Text.paragraph ls)) ∧
        (∀ l ∈ ls, '\n' ∉ l.toList) ∧ ls.length = 2 + r.header.contexts.length + r.instructions) ∧
      ∃ m i machine, Command.manifest c.manifest file = .ok m ∧ m.instantiate = .ok i ∧
        Starts m i machine ∧
        ∀ options fault, ({ c with verb := .run, options }.execute file).1 = .error fault →
          fault.exitCode = 1 ∧
          ((options.warmup = true ∧ ∃ f, fault = .warmup f) ∨
            ∃ pass f, fault = .execution pass f ∧ 1 ≤ pass ∧ pass ≤ options.iterations ∧
              ((upTo options pass).run machine).1 = .error fault ∧
              ∀ k < pass, ((upTo options k).run machine).1 = .ok ())) ∧
    ∀ r, ({ c with verb := .run }.execute file).1 = .ok (.run r) → 1 ≤ c.options.iterations →
      (∃ r', ({ c with verb := .check }.execute file).1 = .ok (.check r')) ∧
      ∃ t : Timing, t.invocations = c.options.iterations ∧ r.timing = t.text ∧
      r.mean = seconds t.mean ∧
        r.total = seconds t.total := by
  cases hfile : Command.manifest c.manifest file with
  | error fault =>
    have hfault : ∀ verb options, ({ c with verb, options }.execute file).1 = .error fault :=
      fun verb options => execute_of_fault (c := { c with verb, options }) hfile
    constructor
    · intro r hcheck
      cases (hfault .check c.options).symm.trans hcheck
    · intro r hrun
      cases (hfault .run c.options).symm.trans hrun
  | ok m =>
    have hcommand : ∀ verb options, ({ c with verb, options }.execute file).1 =
        { c with verb, options }.outcome m :=
      fun verb options => execute_of_manifest (c := { c with verb, options }) hfile
    constructor
    · intro r hcheck
      obtain ⟨_, hr, hreport⟩ := map_eq_ok_iff.1 ((hcommand .check c.options).symm.trans hcheck)
      obtain rfl := Report.check.inj hreport
      obtain ⟨ls, hlisting, hlines, hlength⟩ := disasm_of_check hr
      obtain ⟨i, machine, hi, hm⟩ := starts_of_check hr
      refine ⟨⟨ls, (hcommand .disasm c.options).trans ?_, hlines, hlength⟩, m, i, machine,
        rfl, hi, hm, fun options fault hrun => ?_⟩
      · exact map_eq_ok_iff.2 ⟨_, hlisting, rfl⟩
      · have hfault := map_eq_error_iff.1 ((hcommand .run options).symm.trans hrun)
        have hcases := fault_of_session ((run_of_starts hi hm).1 hfault)
        refine ⟨?_, hcases⟩
        rcases hcases with ⟨-, f, rfl⟩ | ⟨pass, f, rfl, -⟩
        · rfl
        · rfl
    · intro r hrun hone
      obtain ⟨_, hr, hreport⟩ := map_eq_ok_iff.1 ((hcommand .run c.options).symm.trans hrun)
      obtain rfl := Report.run.inj hreport
      obtain ⟨i, machine, n, hi, hm, hsession, hmean, htotal, htiming⟩ := run_eq_ok hr
      obtain ⟨requests, kind, event, hpass⟩ := pass_of_session hsession hone
      obtain ⟨r', hcheck⟩ := check_of_pass hi hm hpass
      have hnew : machine.timing.invocations = 0 := by
        obtain ⟨c', hm⟩ := hm
        exact (Machine.ready_create hm).counted
      refine ⟨⟨r', (hcommand .check c.options).trans ?_⟩, n.timing,
        invocations_session hsession hnew, htiming, hmean, htotal⟩
      exact map_eq_ok_iff.2 ⟨_, hcheck, rfl⟩

open Command in
/-- Every pass adds an event to a list with room for thirty-two: the program is listed in full, one
pass of it ends well and is counted, and of forty passes the one after thirty-two fails. -/
theorem commands_agree_full_list :
    let program := "SETUP 1 0 1\nCONTEXT 0\nBEGIN\nBARRIER -1\nADD_DEP 0\nEND"
    let file : Except FileProblem String := .ok ("program = \"\"\"" ++ program ++
      "\"\"\"\nconfig = [true]\n[[devices]]\nname = \"d\"")
    let line (verb : Verb) (iterations : Nat) : CommandLine :=
      { verb, manifest := "m.toml", options := { iterations } }
    let report : RunReport := {
      options := { iterations := 1 }, mean := 0, total := 0
      timing := "vm: complete 1 iterations - 0.000000000 s mean and 0.000000000 s total"
      objects := [], compile := ⟨0, 0, 0, 0⟩, devices := [⟨"d", { markers := 2, flushes := 1 }⟩]
      profiles := [] }
    let fault : RunFault := .execution 33 (.eventListFull 0 32)
    ((line .check 1).execute file).1 = .ok (.check ⟨⟨1, 0, 1, [0]⟩, 3⟩) ∧
    ((line .run 40).execute file).1 = .error fault ∧
    ((line .run 1).execute file).1 = .ok (.run report) ∧
    (∃ ls : List String, ((line .disasm 1).execute file).1 = .ok (.listing (Text.paragraph ls)) ∧
      ls.length = 6) ∧
    (∃ machine, ((upTo { iterations := 40 } 33).run machine).1 = .error fault ∧
      ∀ k < 33, ((upTo { iterations := 40 } k).run machine).1 = .ok ()) ∧
    ∃ t : Timing, t.invocations = 1 ∧ report.timing = t.text := by
  intro program file line report fault
  let m : Manifest := { program, config := .withDependencies, devices := [{ name := "d" }] }
  have hfile : Command.manifest "m.toml" file = .ok m := by decide +kernel
  have hcommand : ∀ verb iterations,
      ((line verb iterations).execute file).1 = (line verb iterations).outcome m :=
    fun verb iterations => execute_of_manifest hfile
  have hcheck : (line .check 1).outcome m = .ok (.check ⟨⟨1, 0, 1, [0]⟩, 3⟩) := by decide +kernel
  have hfails : (line .run 40).outcome m = .error fault := by decide +kernel
  have hruns : (line .run 1).outcome m = .ok (.run report) := by decide +kernel
  rw [← hcommand] at hcheck hfails hruns
  -- From here on the content of the file does not matter.
  clear_value file
  have hagree := commands_agree (line .run 1) file
  obtain ⟨⟨ls, hlisting, -, hlength⟩, m, i, machine, -, -, -, hrun⟩ := hagree.1 _ hcheck
  obtain ⟨-, ⟨hwarmup, -⟩ | ⟨pass, f, hpass, -, -, hthat, hbefore⟩⟩ :=
    hrun { iterations := 40 } fault hfails
  · cases hwarmup
  · obtain ⟨rfl, -⟩ := RunFault.execution.inj hpass
    obtain ⟨-, t, hcount, htiming, -⟩ := hagree.2 report hruns le_rfl
    exact ⟨hcheck, hfails, hruns, ⟨ls, hlisting, hlength⟩, ⟨machine, hthat, hbefore⟩, t,
      hcount, htiming⟩

end CommandLine

end Offload
