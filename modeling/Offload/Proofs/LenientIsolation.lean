import Offload.Proofs.WarmStart

/-!
# Tasks that no device can compile

Under the lenient policy a launch of a task of whose name no device has a kernel is skipped, and
tried again in the next pass. It counts a compilation, binds the task and may make or enlarge a
frame, and no later instruction can tell. So the program without these launches has passes that end
well where those of the program end well, and after each of them the host objects, the devices, the
table and the events are the same.
-/

namespace Offload

open Offload.Action

/-! ## Programs without futile launches -/

/-- There is such a task, and no device has a kernel of its name. -/
def Context.uncompilable (c : Context) (task : Nat) : Bool :=
  c.tasks[task]?.any fun t => c.devices.all fun d => (d.kernels.get? t.name).isNone

/-- An instruction that launches a task that no device can compile. -/
def Context.futile (c : Context) : Instruction → Bool
  | .launch _ _ task _ _ _ => c.uncompilable task
  | .allocate .. | .transfer .. | .addDep _ | .barrier _ | .finish => false

variable {task : Nat}

theorem Context.uncompilable_iff {c : Context} :
    c.uncompilable task = true ↔
      ∃ t, c.tasks[task]? = some t ∧ ∀ d ∈ c.devices, d.kernels.get? t.name = none := by
  simp [uncompilable, Option.any_eq_true]

variable {code : Bytes}

namespace Program

/-- The program without the launches of tasks that no device can compile. -/
def pruned (c : Context) (p : Program) : Program :=
  { p with body := p.body.filter fun i => !c.futile i }

variable {c : Context} {p : Program}

theorem encodable_pruned (hp : p.Encodable) : (p.pruned c).Encodable where
  header := hp.header
  body i hi := hp.body i (List.mem_of_mem_filter hi)
  ends := by
    obtain ⟨before, hbody, hnot⟩ := hp.ends
    refine ⟨before.filter fun i => !c.futile i, ?_, fun hmem => hnot (List.mem_of_mem_filter hmem)⟩
    simp [pruned, hbody, Context.futile]

theorem decode_pruned (hp : decode code = .ok p) :
    decode (p.pruned c).encode = .ok (p.pruned c) := by
  have hencodable := ((decode_eq_ok_iff_starts code p).1 hp).1
  exact (decode_eq_ok_iff_starts _ _).2 ⟨encodable_pruned hencodable, List.prefix_rfl⟩

end Program

/-! ## Code -/

namespace CodeCache

/-- The code of the tasks, whatever it took to get it. -/
def contents (c : CodeCache) : List (Option CacheEntry) := c.slots.map CodeSlot.entry

theorem get?_eq_contents (c : CodeCache) (task : Nat) : c.get? task = c.contents[task]?.join := by
  cases hslot : c.slots[task]? <;> simp [get?, contents, hslot]

theorem contents_tried (c : CodeCache) (task device : Nat) (found : Option InstalledCode) :
    (c.tried task device found).contents =
      c.contents.modify task fun entry => entry.or (found.map fun code => { code, device }) := by
  rw [contents, slots_tried, contents]
  apply map_modify_of_comm
  intro slot
  cases found <;> simp [CodeSlot.tried]

theorem contents_tried_none (c : CodeCache) (task device : Nat) :
    (c.tried task device none).contents = c.contents := by
  have hsame : (fun entry : Option CacheEntry => entry.or none) = id := by
    funext entry
    simp
  rw [contents_tried, Option.map_none, hsame, List.modify_id]

end CodeCache

namespace Machine

variable {c : Context} {m m' w : Machine} {kind : PassKind}

/-! ## What futile launches leave alone -/

namespace Plan

/-- The devices have the kernels of a context and the tasks have their names, and the tasks that no
device can compile have no code. -/
structure Spares (c : Context) (p : Plan) : Prop where
  kernels : p.outline.builds.map Device.Build.kernels = c.devices.map Device.kernels
  names : p.outline.tasks.map Task.name = c.tasks.map Task.name
  policy : p.config.compileFailurePolicy = .lenient
  code : ∀ task, c.uncompilable task = true → p.code.get? task = none

end Plan

variable {device : Nat} {d : Device}

/-- A task that no device can compile: it is there, and a device of the machine has no kernel of its
name. -/
theorem kernel_of_spares (hs : m.plan.Spares c) (htask : c.uncompilable task = true)
    (hd : m.context.devices[device]? = some d) :
    ∃ t, m.context.tasks[task]? = some t ∧ d.kernels.get? t.name = none := by
  obtain ⟨t₀, ht₀, hnone⟩ := Context.uncompilable_iff.1 htask
  have hnames := congrArg (fun l : List String => l[task]?) hs.names
  have hkernels := congrArg (fun l : List Registry => l[device]?) hs.kernels
  simp only [plan, Context.outline, List.getElem?_map, ht₀, hd, Option.map_some] at hnames hkernels
  obtain ⟨t, ht, hname⟩ := Option.map_eq_some_iff.1 hnames
  obtain ⟨d₀, hd₀, hkernel⟩ := Option.map_eq_some_iff.1 hkernels.symm
  have hsame : d₀.kernels = d.kernels := hkernel
  refine ⟨t, ht, ?_⟩
  rw [hname, ← hsame]
  exact hnone d₀ (List.mem_of_getElem? hd₀)

/-- Compilation gives no code to a task that no device can compile. -/
theorem spares_compiled (hs : m.plan.Spares c) {t : Task} (hd : m.context.devices[device]? = some d)
    (ht : m.context.tasks[task]? = some t) (journal : Journal) :
    (m.compiled task device d ((d.kernels.get? t.name).map (InstalledCode.mk t.name))
      journal).plan.Spares c where
  kernels := by
    have hbuilds : (m.context.devices.set device (asked d)).map Device.build =
        m.context.devices.map Device.build := map_set_of_eq hd rfl
    exact (congrArg (List.map Device.Build.kernels) hbuilds).trans hs.kernels
  names := by
    have hnames := map_modify_of_comm (l := m.context.tasks) (f := fun t => t.bind device)
      (g := Task.name) (h := id) (fun _ => rfl) task
    rw [List.modify_id] at hnames
    exact hnames.trans hs.names
  policy := hs.policy
  code task' htask' := by
    change (m.code.tried task device _).get? task' = none
    have hnone : m.code.get? task' = none := hs.code task' htask'
    cases hkernel : d.kernels.get? t.name with
    | none => exact (CodeCache.get?_recordFailure m.code task task').trans hnone
    | some kernel =>
      by_contra hsome
      obtain ⟨entry, hentry⟩ := Option.ne_none_iff_exists'.1 hsome
      rcases CodeCache.get?_of_install hentry with hold | ⟨rfl, -⟩
      · cases hnone.symm.trans hold
      · obtain ⟨t', ht', hkernel'⟩ := kernel_of_spares hs htask' hd
        cases ht.symm.trans ht'
        cases hkernel.symm.trans hkernel'

theorem Resolving.spares {v : Except Fault (Option CacheEntry)} (h : m.Resolving task device v m')
    (hs : m.plan.Spares c) : m'.plan.Spares c := by
  cases h with
  | found | missing => exact hs
  | compiled hcode hd ht hfound =>
    subst hfound
    exact spares_compiled hs hd ht _

theorem keeps_spares_effect (mode : PassMode) (i : Instruction) :
    Keeps (PlanOf (Plan.Spares c)) (effect mode i) := by
  have hperform : Keeps (PlanOf (Plan.Spares c)) (perform i) := keeps_plan_perform i
  cases i with
  | launch =>
    exact frameKeeps_plan.launch
      (keeps_of_run fun m v m' hs hcode => (resolving_of_run hcode).spares hs)
  | _ =>
    cases mode with
    | normal => exact hperform
    | warmup => exact keeps_pure

/-! ## Machines side by side -/

/-- Two machines that differ in no more than what futile launches change, and in what they read. -/
def Isolated (m w : Machine) : Prop :=
  ∃ store frames code reader trace, w = { m with store, frames, code, reader, trace } ∧
    m.store.Level store ∧ m.frames.Level frames ∧ code.contents = m.code.contents

theorem levelling_isolated : Levelling Isolated where
  toAccord := by
    refine accord_level ?_ ?_ ?_ ?_
    · rintro m _ ⟨store, frames, code, reader, trace, rfl, hs, -, -⟩
      exact hs
    · rintro m _ s s' ⟨store, frames, code, reader, trace, rfl, -, hp, hc⟩ hs
      exact ⟨s', frames, code, reader, trace, rfl, hs, hp, hc⟩
    · rintro m _ ⟨store, frames, code, reader, trace, rfl, -, -, -⟩
      exact ⟨store, frames, code, reader, trace, rfl⟩
    · rintro m _ ledger lastEvent pending timing profiles
        ⟨store, frames, code, reader, trace, rfl, hs, hp, hc⟩
      exact ⟨store, frames, code, reader, trace, rfl, hs, hp, hc⟩
  frames := by
    rintro m _ ⟨store, frames, code, reader, trace, rfl, -, hp, -⟩
    exact hp
  withFrames := by
    rintro m _ p q ⟨store, frames, code, reader, trace, rfl, hs, -, hc⟩ hp
    exact ⟨store, q, code, reader, trace, rfl, hs, hp, hc⟩

namespace Isolated

/-- What either machine reads, traces and logs is its own affair. -/
theorem aside (h : Isolated m w) (reader reader' : Reader) (trace trace' : List TraceEntry)
    (journal journal' : Journal) :
    Isolated
      { m with
        reader, trace, store := { m.store with context := { m.store.context with journal } } }
      { w with
        reader := reader', trace := trace'
        store := { w.store with context := { w.store.context with journal := journal' } } } := by
  obtain ⟨store, frames, code, reader₀, trace₀, rfl, hs, hp, hc⟩ := h
  exact ⟨_, frames, code, reader', trace', rfl, hs.of_core rfl rfl rfl rfl, hp, hc⟩

theorem contents_eq (h : Isolated m w) : w.code.contents = m.code.contents := by
  obtain ⟨store, frames, code, reader, trace, rfl, -, -, hc⟩ := h
  exact hc

theorem config_eq (h : Isolated m w) : w.config = m.config := by
  obtain ⟨store, frames, code, reader, trace, rfl, -, -, -⟩ := h
  rfl

theorem core_eq (h : Isolated m w) : w.context.core = m.context.core := by
  obtain ⟨store, frames, code, reader, trace, rfl, hs, -, -⟩ := h
  exact hs.context.core

theorem get?_eq (h : Isolated m w) (task : Nat) : w.code.get? task = m.code.get? task := by
  rw [CodeCache.get?_eq_contents, CodeCache.get?_eq_contents, h.contents_eq]

/-- Both machines compile, and find the same. -/
theorem compiled (h : Isolated m w) {d' : Device} (hd : m.context.devices[device]? = some d)
    (hd' : w.context.devices[device]? = some d') (found : Option InstalledCode)
    (journal journal' : Journal) :
    Isolated (m.compiled task device d found journal)
      (w.compiled task device d' found journal') := by
  have hcontents : (w.code.tried task device found).contents =
      (m.code.tried task device found).contents := by
    rw [CodeCache.contents_tried, CodeCache.contents_tried, h.contents_eq]
  obtain ⟨store, frames, code, reader, trace, rfl, hs, hp, -⟩ := h
  exact ⟨_, frames, _, reader, trace, rfl, hs.of_core (core_compiled task hd found journal)
    (core_compiled task hd' found journal') rfl rfl, hp, hcontents⟩

/-- Only the first machine compiles, and finds nothing. -/
theorem compiled_left (h : Isolated m w) (task : Nat) (hd : m.context.devices[device]? = some d)
    (journal : Journal) : Isolated (m.compiled task device d none journal) w := by
  obtain ⟨store, frames, code, reader, trace, rfl, hs, hp, hc⟩ := h
  exact ⟨store, frames, code, reader, trace, rfl,
    hs.of_core (core_compiled task hd none journal) rfl rfl rfl, hp,
    hc.trans (CodeCache.contents_tried_none m.code task device).symm⟩

/-- Only the first machine looks for a frame. -/
theorem reframed_left (h : Isolated m w) {frames : FramePool} {frame count : Nat} {recreate : Bool}
    (hframes : frames = m.frames ∨ ∃ f, m.frames.resolve frame count recreate = .ok (f, frames))
    (journal : Journal) :
    Isolated { m with frames, store := ⟨{ m.context with journal }, m.store.table⟩ } w := by
  obtain ⟨store, frames', code, reader, trace, rfl, hs, hp, hc⟩ := h
  refine ⟨store, frames', code, reader, trace, rfl, hs.of_core rfl rfl rfl rfl, ?_, hc⟩
  obtain rfl | ⟨f, hresolve⟩ := hframes
  · exact hp
  · exact ⟨hp.length_eq.trans (FramePool.length_slots_resolve hresolve).symm,
      (hp.free.resolve rfl hresolve).2, hp.free'⟩

theorem respects_resolveCode (task device : Nat) : Respects Isolated (resolveCode task device) := by
  refine goes_resolveCode (fun _ h _ => ⟨rfl, h⟩) (fun h => ?_) (fun {m w} h => ?_)
    (fun {m w} h => ?_) fun found write h hd hd' => h.compiled hd hd' found _ _
  · rw [h.config_eq]
    exact ⟨h.get?_eq task, rfl, rfl⟩
  · have hkernels := congrArg (fun k : Context.Core => k.devices[device]?.map Device.kernels)
      h.core_eq
    have hlength := congrArg (fun k : Context.Core => k.devices.length) h.core_eq
    simp only [Context.core, List.getElem?_map, Option.map_map, List.length_map] at hkernels hlength
    exact ⟨hkernels, hlength⟩
  · have hnames := congrArg (fun k : Context.Core => k.tasks.map Task.name) h.core_eq
    simpa [Context.core, Function.comp_def, Task.unbound] using hnames

variable {note : Option Note}

/-- What there is of code for a task that no device can compile, and what is left then. -/
theorem resolved_left (h : Isolated m w) (hs : m.plan.Spares c) (htask : c.uncompilable task = true)
    {code : Option CacheEntry} (hcode : m.Resolving task device (.ok code) m') :
    code = none ∧ Isolated m' w := by
  generalize hv : Except.ok code = v at hcode
  cases hcode with
  | found hcode => cases hcode.symm.trans (hs.code task htask)
  | missing => cases hv
  | compiled hcode hd ht hfound =>
    obtain ⟨t', ht', hkernel⟩ := kernel_of_spares hs htask hd
    cases ht.symm.trans ht'
    rw [hkernel] at hfound
    subst hfound
    exact ⟨verdict_eq_ok hv.symm, h.compiled_left task hd _⟩

/-- A launch of a task that no device can compile changes nothing that matters. -/
theorem skipped (h : Isolated m w) (hs : m.plan.Spares c) {frame : Nat} {events : Option Nat}
    {window : Option Window} {arguments : List Argument} (htask : c.uncompilable task = true)
    (hrun : (launch .normal frame device task events window arguments).run m = (.ok note, m')) :
    Isolated m' w := by
  generalize hr : Except.ok note = r at hrun
  cases launching_of_run hrun with
  | absent | uncoded | unfilled => cases hr
  | stopped m₁ frames journal hcode hframes =>
    exact (h.resolved_left hs htask (resolving_of_run hcode)).2.reframed_left hframes journal
  | submitted hcode => cases (h.resolved_left hs htask (resolving_of_run hcode)).1

theorem skipped_effect (h : Isolated m w) (hs : m.plan.Spares c) {i : Instruction}
    (hi : c.futile i = true) (hrun : (effect .normal i).run m = (.ok note, m')) :
    Isolated m' w := by
  cases i with
  | launch => exact h.skipped hs hi hrun
  | allocate | transfer | addDep | barrier | finish => cases hi

theorem respects_launch (frame device task : Nat) (events : Option Nat) (window : Option Window)
    (arguments : List Argument) :
    Respects Isolated (launch .normal frame device task events window arguments) :=
  goes_launch levelling_isolated.conduct.fault
    (fun h => Context.agreement_level.alike_device (levelling_isolated.context h) device)
    (respects_resolveCode task device)
    (levelling_isolated.launchWith frame device task events window arguments)

theorem effect (h : Isolated m w) (i : Instruction)
    (hrun : (effect .normal i).run m = (.ok note, m')) :
    ∃ w', (Machine.effect .normal i).run w = (.ok note, w') ∧ Isolated m' w' := by
  have hperform : Respects Isolated (perform i) := levelling_isolated.perform i
  cases i with
  | launch frame device task events window arguments =>
    exact (respects_launch frame device task events window arguments).exists_run h hrun
  | _ => exact hperform.exists_run h hrun

theorem noted (h : Isolated m w) (i : Instruction) (note : Option Note) :
    Isolated (m.noted .normal i note) (w.noted .normal i note) := by
  rw [Machine.noted, Machine.noted]
  split
  · exact h.aside _ _ _ _ _ _
  · exact h

theorem noted_left (h : Isolated m w) (i : Instruction) (note : Option Note) :
    Isolated (m.noted .normal i note) w := by
  rw [Machine.noted]
  split
  · exact h.aside _ _ _ _ _ _
  · exact h

end Isolated

theorem spares_noted (hs : m.plan.Spares c) (mode : PassMode) (i : Instruction)
    (note : Option Note) :
    (m.noted mode i note).plan.Spares c := by
  rw [noted]
  split
  · exact hs
  · exact hs

theorem spares_fetch (hs : m.plan.Spares c) (kind : PassKind) :
    ((fetch kind).run m).2.plan.Spares c := by
  obtain ⟨reader, journal, hfetch⟩ := after_fetch kind m
  rw [hfetch]
  exact ⟨hs.kernels, hs.names, hs.policy, hs.code⟩

theorem Isolated.fetch_left (h : Isolated m w) (kind : PassKind) :
    Isolated ((fetch kind).run m).2 w := by
  obtain ⟨reader, journal, hfetch⟩ := after_fetch kind m
  rw [hfetch]
  exact h.aside _ _ _ _ _ _

/-! ## Passes -/

/-- The second machine goes through what the first one reads, but for the futile launches. The
induction is on what the first machine has left to read; at a futile launch the second one stands
still. -/
theorem Isolated.runBody {fuel fuel' : Nat} {is : List Instruction} (h : Isolated m w)
    (hs : m.plan.Spares c) (hscript : Reading.script fuel m.reader.cursor = ⟨is, none⟩)
    (hscript' : Reading.script fuel' w.reader.cursor = ⟨is.filter fun i => !c.futile i, none⟩)
    (hrun : (runBody .normal kind fuel).run m = (.ok (), m')) :
    ∃ w', (Machine.runBody .normal kind fuel').run w = (.ok (), w') ∧ Isolated m' w' ∧
      m'.plan.Spares c := by
  induction fuel generalizing m w is fuel' with
  | zero => cases hrun
  | succ fuel ih =>
    obtain ⟨i, rest, note, m₁, m₂, rfl, hfetch, heffect, hend⟩ := step_of_runBody hscript hrun
    have h₁ := h.fetch_left kind
    have hs₁ := spares_fetch hs kind
    rw [hfetch] at h₁ hs₁
    have hs₂ : (m₂.noted .normal i note).plan.Spares c :=
      spares_noted ((keeps_spares_effect .normal i).of_run heffect hs₁) .normal i note
    by_cases hfutile : c.futile i = true
    · rw [List.filter_cons_of_neg (by simp [hfutile])] at hscript'
      have h₂ := (h₁.skipped_effect hs₁ hfutile heffect).noted_left i note
      rcases hend with ⟨rfl, -⟩ | ⟨-, hnext, hrest⟩
      · cases hfutile
      · exact ih h₂ hs₂ hnext hscript' hrest
    · rw [List.filter_cons_of_pos (by simp [hfutile])] at hscript'
      obtain ⟨fuel₁, reader, journal, hstep⟩ :=
        run_runBody_of_script .normal hscript' (accepts_of_fetch hfetch)
      obtain ⟨w₂, heffect', h₂⟩ :=
        (h₁.aside m₁.reader reader m₁.trace w.trace m₁.context.journal journal).effect i heffect
      obtain ⟨hlast, hgo⟩ := hstep note w₂ heffect'
      rcases hend with ⟨hfinish, rfl⟩ | ⟨hfinish, hnext, hrest⟩
      · exact ⟨_, hlast hfinish, h₂.noted i note, hs₂⟩
      · obtain ⟨hnext', hrest'⟩ := hgo hfinish
        rw [hrest']
        exact ih (h₂.noted i note) hs₂ hnext hnext' hrest

theorem Isolated.begun (h : Isolated m w) : Isolated m.begun w.begun := by
  obtain ⟨store, frames, code, reader, trace, rfl, hs, hp, hc⟩ := h
  exact ⟨store, frames, code, reader, [], rfl, hs, hp, hc⟩

theorem respects_closing (mode : PassMode) (kind : PassKind) (body : Except Fault Unit) :
    Respects Isolated (closing mode kind body) := by
  refine levelling_isolated.closing_of_reset (fun {m m'} h => ?_) mode kind body
  exact h.aside m.reader.reset m'.reader.reset m.trace m'.trace m.context.journal m'.context.journal

/-- Two machines between passes, of which the second one is about to read what the first one reads
without the futile launches. -/
structure Parallel (c : Context) (is : List Instruction) (m w : Machine) : Prop where
  isolated : Isolated m w
  spares : m.plan.Spares c
  reads : m.Reads is
  reads' : w.Reads (is.filter fun i => !c.futile i)

namespace Parallel

variable {is : List Instruction}

theorem runPass (h : Parallel c is m w) {event : Event}
    (hok : ((Machine.runPass .normal kind).run m).1 = .ok event) :
    ((Machine.runPass .normal kind).run w).1 = .ok event ∧
      Parallel c is ((Machine.runPass .normal kind).run m).2
      ((Machine.runPass .normal kind).run w).2 := by
  have hreads : ((Machine.runPass .normal kind).run m).2.Reads is :=
    h.reads.serve (.pass .normal kind)
  have hreads' : ((Machine.runPass .normal kind).run w).2.Reads (is.filter fun i => !c.futile i) :=
    h.reads'.serve (.pass .normal kind)
  rcases hbody : m.body .normal kind with ⟨r, m₁⟩
  have hrun : (Machine.runPass .normal kind).run m = (closing .normal kind r).run m₁ := by
    rw [run_runPass, hbody]
  rw [hrun] at hok
  obtain rfl : r = .ok () := body_of_closing hok
  obtain ⟨w₁, hbody', hisolated, hspares⟩ :=
    h.isolated.begun.runBody h.spares h.reads.2 h.reads'.2 hbody
  have hrun' : (Machine.runPass .normal kind).run w = (closing .normal kind (.ok ())).run w₁ := by
    rw [run_runPass, show w.body .normal kind = (.ok (), w₁) from hbody']
  obtain ⟨houtcome, hafter⟩ :=
    respects_iff.1 (respects_closing .normal kind (.ok ())) m₁ w₁ hisolated
  rw [hrun] at hreads ⊢
  rw [hrun'] at hreads' ⊢
  refine ⟨houtcome.symm.trans hok, hafter, ?_, hreads, hreads'⟩
  rw [plan_closing]
  exact ⟨hspares.kernels, hspares.names, hspares.policy, hspares.code⟩

/-- Passes that end well on the first machine do so on the second one. -/
theorem session (h : Parallel c is m w) (kinds : List PassKind)
    (hok : ∀ r ∈ (session (kinds.map (.pass .normal)) m).1, r.isOk = true) :
    (session (kinds.map (.pass .normal)) w).1 = (session (kinds.map (.pass .normal)) m).1 ∧
      Parallel c is (session (kinds.map (.pass .normal)) m).2
      (session (kinds.map (.pass .normal)) w).2 := by
  induction kinds generalizing m w with
  | nil => exact ⟨rfl, h⟩
  | cons kind kinds ih =>
    have hall : ∀ r ∈ ((Machine.runPass .normal kind).run m).1 ::
        (Machine.session (kinds.map (.pass .normal)) ((Machine.runPass .normal kind).run m).2).1,
        r.isOk = true := hok
    obtain ⟨hfirst, hothers⟩ := List.forall_mem_cons.1 hall
    obtain ⟨event, hevent⟩ : ∃ event, ((Machine.runPass .normal kind).run m).1 = .ok event := by
      cases hr : ((Machine.runPass .normal kind).run m).1 with
      | ok event => exact ⟨event, rfl⟩
      | error fault =>
        rw [hr] at hfirst
        cases hfirst
    obtain ⟨hevent', hnext⟩ := h.runPass hevent
    obtain ⟨houtcomes, hend⟩ := ih hnext hothers
    exact ⟨congrArg₂ List.cons (hevent'.trans hevent.symm) houtcomes, hend⟩

end Parallel

/-! ## Machines that are made -/

theorem spares_create {config : Config} {c c' : Context} {m : Machine}
    (hpolicy : config.compileFailurePolicy = .lenient)
    (hm : (create code config).run c = (.ok m, c')) :
    m.plan.Spares c := by
  have hview := view_create (f := Device.kernels) (fun _ => rfl) hm
  obtain ⟨header, reader, hinitial⟩ := eq_initial_of_create hm
  constructor
  · have hkernels : m.context.devices.map Device.kernels = c.devices.map Device.kernels :=
      congrArg Context.View.devices hview
    rw [← hkernels]
    simp [plan, Context.outline, Function.comp_def, Device.build]
  · exact congrArg (fun v : Context.View Registry => v.tasks.map Task.name) hview
  · rw [hinitial]
    exact hpolicy
  · intro task _
    rw [hinitial]
    exact CodeCache.get?_new _ task

/-- The program without its futile launches makes a machine wherever the program does. -/
theorem exists_create_pruned {config : Config} {c c' : Context} {m : Machine} {p : Program}
    (hfree : ∀ d ∈ c.devices, d.options.retainCallFrames = false)
    (hpolicy : config.compileFailurePolicy = .lenient) (hp : Program.decode code = .ok p)
    (hm : (create code config).run c = (.ok m, c')) :
    ∃ w, (create (p.pruned c).encode config).run c = (.ok w, c') ∧ Parallel c p.body m w := by
  have hheader : p.header = m.header := by
    have hdecode := (decode_of_create hm).symm.trans hp
    rw [script_of_decode hm hp] at hdecode
    exact (congrArg Program.header (Except.ok.inj hdecode)).symm
  obtain ⟨cursor, -, hcheck, hload, hinitial⟩ := start_of_create hm
  have hpruned : Program.decode (p.pruned c).encode = .ok (p.pruned c) := Program.decode_pruned hp
  obtain ⟨w, c'', hw, hsame, -⟩ := create_of_validate
    (Context.validate_of_decode hpruned (show p.header.check c = .ok () from hheader ▸ hcheck))
    config
  obtain ⟨cursor', -, -, hload', hinitial'⟩ := start_of_create hw
  have hheader' : w.header = m.header := hsame.trans hheader
  rw [hheader', hload] at hload'
  cases hload'
  refine ⟨w, hw, ?_, spares_create hpolicy hm, reads_create hm hp, reads_create hw hpruned⟩
  have hframes : m.frames.Free := by
    rw [hinitial]
    exact FramePool.all_new _ _
  have hcore := free_create hfree hm
  rw [hinitial', hheader', hinitial]
  rw [hinitial] at hframes hcore
  exact ⟨_, _, _, _, _, rfl, ⟨⟨rfl, hcore⟩, rfl⟩, ⟨rfl, hframes, hframes⟩, rfl⟩

/-- The lenient policy isolates tasks that no device can compile. Over devices that retain no
frames, take normal passes over a program that all end well, and the program without the launches of
tasks of whose name no device has a kernel. It makes a machine too, and the same passes end well on
it, with the same events. After each of them both machines have the same host objects, table, event
lists and last event, and the devices are the same but for the number of their compilations. -/
theorem lenient_isolates {code : Bytes} {config : Config} {c c' : Context} {m : Machine}
    {p : Program} (hfree : ∀ d ∈ c.devices, d.options.retainCallFrames = false)
    (hpolicy : config.compileFailurePolicy = .lenient) (hp : Program.decode code = .ok p)
    (hm : (create code config).run c = (.ok m, c')) {kinds : List PassKind}
    (hok : ∀ r ∈ (session (kinds.map (.pass .normal)) m).1, r.isOk = true) :
    Program.decode (p.pruned c).encode = .ok (p.pruned c) ∧
    ∃ w, (create (p.pruned c).encode config).run c = (.ok w, c') ∧
      ∀ done, done <+: kinds →
        let whole := session (done.map (.pass .normal)) m
        let pruned := session (done.map (.pass .normal)) w
        (∀ r ∈ pruned.1, r.isOk = true) ∧ pruned.1 = whole.1 ∧
          pruned.2.context.objects = whole.2.context.objects ∧
          pruned.2.context.devices.map Device.uncompiled =
          whole.2.context.devices.map Device.uncompiled ∧
          pruned.2.store.table = whole.2.store.table ∧ pruned.2.ledger = whole.2.ledger ∧
          pruned.2.lastEvent = whole.2.lastEvent := by
  obtain ⟨w, hw, hparallel⟩ := exists_create_pruned hfree hpolicy hp hm
  refine ⟨Program.decode_pruned hp, w, hw, ?_⟩
  rintro done ⟨others, rfl⟩ whole pruned
  have hdone : ∀ r ∈ whole.1, r.isOk = true := by
    intro r hr
    rw [List.map_append, session_append] at hok
    exact hok r (List.mem_append_left _ hr)
  obtain ⟨houtcomes, hend⟩ := hparallel.session done hdone
  have houtcomes : pruned.1 = whole.1 := houtcomes
  obtain ⟨store, frames, code, reader, trace, heq, hs, -, -⟩ := hend.isolated
  rw [houtcomes, show pruned.2 = _ from heq]
  exact ⟨hdone, rfl, congrArg Context.Core.objects hs.context.core,
    congrArg Context.Core.devices hs.context.core, hs.table, rfl, rfl⟩

/-- A launch of an unknown task before one that shares its frame. Without it two passes add one
twice, as they do with it. -/
theorem lenient_isolates_shared :
    let p : Program := ⟨⟨1, 2, 1, [0]⟩,
      [.transfer .copyIn 0 0 none none, .addDep 0,
        .launch 0 0 1 (some 0) none [.reference 0, .reference 0], .launch 0 0 0 (some 0) none
        [.reference 0], .transfer (.streamOut true) 0 0 none none, .finish]⟩
    let q : Program := ⟨⟨1, 2, 1, [0]⟩,
      [.transfer .copyIn 0 0 none none, .addDep 0, .launch 0 0 0 (some 0) none [.reference 0],
        .transfer (.streamOut true) 0 0 none none, .finish]⟩
    let config : Config := { compileFailurePolicy := .lenient }
    let c : Context := {
      devices := [{ name := "d0" }]
      objects := [⟨"a", [1, 0, 0, 0]⟩]
      constants := []
      tasks :=
        [{ name := "add_one", accesses := [.readWrite] }, { name := "unknown", accesses := [] }] }
    p.pruned c = q ∧ ∃ w c', (create q.encode config).run c = (.ok w, c') ∧
      (session [.pass .normal .plain, .pass .normal .plain] w).1.map Except.isOk = [true, true] ∧
      (session [.pass .normal .plain, .pass .normal .plain] w).2.context.objects =
        [⟨"a", [3, 0, 0, 0]⟩] := by
  intro p q config c
  have hread : (((create p.encode config).outcome c).toOption.map fun m =>
      ((session [.pass .normal .plain, .pass .normal .plain] m).1.map Except.isOk,
        (session [.pass .normal .plain, .pass .normal .plain] m).2.context.objects)) =
      some ([true, true], [⟨"a", [3, 0, 0, 0]⟩]) := by
    decide +kernel
  obtain ⟨m, c', hm, hread⟩ := Action.exists_run_of_read hread
  obtain ⟨houtcomes, hobjects⟩ := Prod.mk.inj hread
  have hok : ∀ r ∈ (session (List.map (.pass .normal) [.plain, .plain]) m).1, r.isOk = true := by
    intro r hr
    have hmem : r.isOk ∈ [true, true] := houtcomes ▸ List.mem_map_of_mem hr
    simpa using hmem
  have hp : Program.decode p.encode = .ok p := by decide +kernel
  have hpruned : p.pruned c = q := by decide +kernel
  obtain ⟨-, w, hw, hall⟩ := lenient_isolates (by decide) rfl hp hm hok
  obtain ⟨-, hsame, hobjects', -⟩ := hall _ List.prefix_rfl
  rw [hpruned] at hw
  exact ⟨hpruned, w, c', hw, (congrArg (List.map Except.isOk) hsame).trans houtcomes,
    hobjects'.trans hobjects⟩

end Machine

end Offload
