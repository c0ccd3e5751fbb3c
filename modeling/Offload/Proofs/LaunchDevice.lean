import Offload.Proofs.MachineMoves

/-!
# Where a launch runs

Code is compiled once for each task, and a launch goes to the device for which its code was
compiled. That is the device of the first launch of the task that got as far as the compiler. It is
the device that the launch names as long as all launches of the task name the same one; otherwise
the launch runs on a device that it does not name, with the numbers of buffers of the one it names.
-/

namespace Offload

open Offload.Action

variable {α : Type}

variable {index : Nat} {kinds more : List EventKind}

namespace Device

/-- The device of an index has `kinds` more events in its log, and every other device is
unchanged. -/
def Grew (index : Nat) (kinds : List EventKind) (devices devices' : List Device) : Prop :=
  devices'[index]?.map (fun d => d.log.kinds) =
    devices[index]?.map (fun d => d.log.kinds ++ kinds) ∧ ∀ other, other ≠ index →
    devices'[other]? = devices[other]?

theorem Grew.refl (index : Nat) (devices : List Device) : Grew index [] devices devices := by
  simp [Grew]

theorem Grew.trans {devices₀ devices devices' : List Device} (h : Grew index kinds devices₀ devices)
    (h' : Grew index more devices devices') : Grew index (kinds ++ more) devices₀ devices' := by
  obtain ⟨hkinds, hothers⟩ := h
  obtain ⟨hkinds', hothers'⟩ := h'
  refine ⟨?_, fun other hother => (hothers' other hother).trans (hothers other hother)⟩
  rw [hkinds']
  cases hd : devices[index]? with
  | none =>
    cases hd₀ : devices₀[index]? with
    | none => rfl
    | some d₀ => simp [hd, hd₀] at hkinds
  | some d =>
    cases hd₀ : devices₀[index]? with
    | none => simp [hd, hd₀] at hkinds
    | some d₀ =>
      have hlog : d.log.kinds = d₀.log.kinds ++ kinds := by simpa [hd, hd₀] using hkinds
      simp [hlog]

end Device

namespace Station

/-- A command that is submitted is recorded, also if it is run at once and fails. -/
theorem issued_submit (kind : EventKind) (label : String) (wait : List EventId) (c : Command)
    (s : Station) :
    ((submit kind label wait c).run s).2.device.log.issued = s.device.log.issued ++
      [(kind, wait)] := by
  cases hdeferred : s.device.options.deferred with
  | true =>
    rw [run_submit_deferred kind label wait c hdeferred]
    exact EventLog.issued_add _ _
  | false =>
    obtain ⟨status, memory, hdevice, -⟩ :=
      device_perform s.device.log.size c (s.recorded kind label wait)
    rw [run_submit_performed kind label wait c hdeferred]
    rw [hdevice]
    simp [recorded, Device.record, Device.setStatus]

theorem kinds_submit (kind : EventKind) (label : String) (wait : List EventId) (c : Command)
    (s : Station) :
    ((submit kind label wait c).run s).2.device.log.kinds = s.device.log.kinds ++ [kind] := by
  have hissued := congrArg (List.map Prod.fst) (issued_submit kind label wait c s)
  simpa [EventLog.issued, EventLog.kinds, Function.comp_def] using hissued

theorem kinds_launch (code : InstalledCode) (frame : CallFrame) (task : String)
    (window : Option Window) (wait : List EventId) (s : Station) :
    ((launch code frame task window wait).run s).2.device.log.kinds =
      s.device.log.kinds ++ [.launch] := by
  have hsubmit : ∀ label c, Meets (fun t => t.device.log.kinds = s.device.log.kinds)
      (submit .launch label wait c)
      (fun _ t => t.device.log.kinds = s.device.log.kinds ++ [.launch])
      (fun t => t.device.log.kinds = s.device.log.kinds ++ [.launch]) := by
    intro label c
    refine meets_iff_after.2 fun t ht => ?_
    rw [kinds_submit, ht]
  have hlaunch : Meets (fun t => t.device.log.kinds = s.device.log.kinds)
      (launch code frame task window wait)
      (fun _ t => t.device.log.kinds = s.device.log.kinds ++ [.launch])
      (fun t => t.device.log.kinds = s.device.log.kinds ++ [.launch]) := by
    refine meets_bind (Q := fun _ t => t.device.log.kinds = s.device.log.kinds)
      (meets_modify fun _ => id) fun _ => ?_
    refine meets_bind (hsubmit _ _) fun event => ?_
    exact meets_look fun t => meets_pure fun _ => id
  exact meets_iff_after.1 hlaunch s rfl

end Station

theorem Store.grew_launch {s s' : Store} {v : Except Fault (EventId × CallFrame)}
    {code : InstalledCode} {f : CallFrame} {name : String} {window : Option Window}
    {wait : List EventId}
    (h : (inContext (Context.onDevice index (Station.launch code f name window wait))).run s =
      (v, s')) :
    (Device.Grew index [.launch] s.context.devices s'.context.devices ∧ s'.table = s.table) ∨
      s' = s ∧ v = .error (.indexOutOfRange .device index s.context.devices.length) := by
  rcases onDevice_cases h with habsent | ⟨d, hd, -, rfl⟩
  · exact .inr habsent
  · refine .inl ⟨⟨?_, fun other hother => List.getElem?_set_ne (Ne.symm hother)⟩, rfl⟩
    rw [hd, onStation, Context.withStation,
      List.getElem?_set_self (List.getElem?_eq_some_iff.1 hd).1, Option.map_some, Option.map_some,
      Station.kinds_launch]
    rfl

/-! ## Code -/

/-- Code is installed for a task and a device at most, and all other code is kept. -/
def CodeCache.Grew (task device : Nat) (c c' : CodeCache) : Prop :=
  ∀ t e, c'.get? t = some e → c.get? t = some e ∨ t = task ∧ e.device = device

variable {task device : Nat}

namespace CodeCache

theorem Grew.refl (task device : Nat) (c : CodeCache) : Grew task device c c := fun _ _ h => .inl h

@[simp] theorem get?_new (tasks task : Nat) : (new tasks).get? task = none := by
  by_cases htask : task < tasks <;> simp [get?, new, htask]

/-- Code that is found after an installation was there before or is what was installed. -/
theorem get?_of_install {c : CodeCache} {t : Nat} {e e' : CacheEntry}
    (h : (c.install task e).get? t = some e') :
    c.get? t = some e' ∨ t = task ∧ e' = e := by
  by_cases ht : task = t
  · subst ht
    cases hslot : c.slots[task]? with
    | none => simp [get?, install, hslot] at h
    | some slot =>
      cases hentry : slot.entry with
      | none =>
        simp [get?, install, hslot, hentry] at h
        exact .inr ⟨rfl, h.symm⟩
      | some old =>
        simp [get?, install, hslot, hentry] at h
        exact .inl (by simp [get?, hslot, hentry, h])
  · simp only [get?, install, List.getElem?_modify, ht] at h
    exact .inl (by simpa [get?] using h)

theorem grew_install (c : CodeCache) (task device : Nat) {e : CacheEntry} (he : e.device = device) :
    Grew task device c (c.install task e) := by
  intro t e' h
  rcases get?_of_install h with hold | ⟨ht, rfl⟩
  · exact .inl hold
  · exact .inr ⟨ht, he⟩

theorem get?_recordFailure (c : CodeCache) (task t : Nat) :
    (c.recordFailure task).get? t = c.get? t := by
  simp only [get?, recordFailure, List.getElem?_modify]
  by_cases ht : task = t
  · cases hslot : c.slots[t]? <;> simp [ht]
  · simp [ht]

end CodeCache

variable {m : Machine} {window : Option Window} {arguments : List Argument}

namespace Machine

/-! ## Instructions other than launches, and the end of a pass -/

variable {C : CodeCache → Prop}

theorem keeps_code_inStore (x : StoreAction α) : Keeps (fun m => C m.code) (inStore x) :=
  meets_iff_after.2 fun _ => id

/-- Only launches compile. -/
theorem keeps_code_perform (i : Instruction) : Keeps (fun m => C m.code) (perform i) :=
  keeps_perform_of_work (fun _ _ _ => id) fun _ => keeps_code_inStore _

theorem keeps_code_closing (mode : PassMode) (kind : PassKind) (body : Except Fault Unit) :
    Keeps (fun m => C m.code) (closing mode kind body) := by
  have hend : EndKeeps fun m => C m.code :=
    ⟨fun _ => keeps_code_inStore _, fun _ _ => keeps_code_inStore _, fun _ => keeps_code_inStore _,
      fun _ => id, fun _ _ => id⟩
  exact hend.closing (fun _ _ => keeps_code_inStore _) (fun _ _ _ _ => id) mode kind body

/-! ## Launches -/

/-- The device to which a launch goes that names a task and a device. -/
def home (m : Machine) (task device : Nat) : Nat :=
  match m.code.get? task with
  | some entry => entry.device
  | none => device

/-- `kinds` were submitted to the home of a launch, and no code was installed but that of its task,
for the device that it names. -/
def Landed (m : Machine) (task device : Nat) (kinds : List EventKind) (m' : Machine) : Prop :=
  Device.Grew (m.home task device) kinds m.context.devices m'.context.devices ∧
    CodeCache.Grew task device m.code m'.code

theorem Landed.now (m : Machine) (task device : Nat) : m.Landed task device [] m :=
  ⟨.refl _ _, .refl _ _ _⟩

/-- A compilation submits nothing, and its code is for the device that the launch names. -/
theorem Landed.compiled {d : Device} (hcode : m.code.get? task = none)
    (hd : m.context.devices[device]? = some d) (found : Option InstalledCode) (journal : Journal) :
    m.Landed task device [] (m.compiled task device d found journal) := by
  have hhome : m.home task device = device := by rw [home, hcode]
  constructor
  · rw [hhome]
    refine ⟨?_, fun other hother => List.getElem?_set_ne (Ne.symm hother)⟩
    rw [hd, context, Machine.compiled, List.getElem?_set_self (List.getElem?_eq_some_iff.1 hd).1]
    simp [asked]
  · cases found with
    | some code => exact CodeCache.grew_install m.code task device rfl
    | none =>
      intro t e he
      exact .inl (CodeCache.get?_recordFailure m.code task t ▸ he)

theorem Resolving.landed {v : Except Fault (Option CacheEntry)} {m' : Machine}
    (h : m.Resolving task device v m') :
    m.Landed task device [] m' := by
  cases h with
  | found | missing => exact .now m task device
  | compiled hcode hd => exact .compiled hcode hd _ _

/-- The code of a launch is for its home. -/
theorem Resolving.device_eq {entry : CacheEntry} {m' : Machine}
    (h : m.Resolving task device (.ok (some entry)) m') : entry.device = m.home task device := by
  generalize hv : Except.ok (some entry) = v at h
  cases h with
  | found hcode =>
    cases hv
    rw [home, hcode]
  | missing => cases hv
  | compiled hcode hd ht hfound =>
    obtain ⟨code, -, rfl⟩ := Option.map_eq_some_iff.1 (verdict_eq_ok hv.symm).symm
    rw [home, hcode]

/-- A launch submits one command, to its home, unless it is skipped or refused. -/
theorem landed_launch (m : Machine) (mode : PassMode) (frame device task : Nat)
    (events : Option Nat) (window : Option Window) (arguments : List Argument) :
    m.Landed task device [.launch]
      ((launch mode frame device task events window arguments).run m).2 ∨
      ((launch mode frame device task events window arguments).run m).1 ≠ .ok none ∧
        m.Landed task device []
        ((launch mode frame device task events window arguments).run m).2 := by
  rcases hrun : (launch mode frame device task events window arguments).run m with ⟨r, m'⟩
  obtain ⟨m₁, hcode, ⟨frames, table, journal, rfl⟩, hr⟩ |
    ⟨entry, m₁, t, _, f, v, hcode, -, -, ⟨frames, table, journal, rfl⟩, rfl, hsubmit⟩ :=
      (launching_of_run hrun).cases_submitted
  · refine .inr ⟨fun hnone => by simpa using hr none hnone, ?_⟩
    obtain rfl | ⟨v, hcode⟩ := hcode
    · exact .now m₁ task device
    · exact (resolving_of_run hcode).landed
  · have hcode := resolving_of_run hcode
    obtain ⟨hgrew, hknown⟩ := hcode.landed
    rw [← hcode.device_eq] at hgrew
    rcases submitLaunch_cases entry t frame device task events window f
        { m₁ with frames, store := ⟨{ m₁.context with journal }, table⟩ } with
      ⟨e, -, hrun'⟩ | ⟨wait, -, ⟨e, s, hx, hrun'⟩ | ⟨q, s, ledger, hx, -, hrun'⟩⟩ <;>
      cases hrun'.symm.trans hsubmit
    · exact .inr ⟨by simp [Except.map], hcode.landed⟩
    · rcases Store.grew_launch hx with ⟨hlaunched, -⟩ | ⟨rfl, -⟩
      · exact .inl ⟨hcode.device_eq ▸ hgrew.trans hlaunched, hknown⟩
      · exact .inr ⟨by simp [Except.map], hcode.landed⟩
    · rcases Store.grew_launch hx with ⟨hlaunched, -⟩ | ⟨-, hfault⟩
      · exact .inl ⟨hcode.device_eq ▸ hgrew.trans hlaunched, hknown⟩
      · cases hfault

theorem grew_launch (m : Machine) (mode : PassMode) (frame device task : Nat) (events : Option Nat)
    (window : Option Window) (arguments : List Argument) :
    ∃ kinds, (kinds = [.launch] ∨ kinds = [] ∧
        ((launch mode frame device task events window arguments).run m).1 ≠ .ok none) ∧
      Device.Grew (m.home task device) kinds m.context.devices
        ((launch mode frame device task events window arguments).run m).2.context.devices := by
  rcases landed_launch m mode frame device task events window arguments with
    hlanded | ⟨hne, hlanded⟩
  · exact ⟨_, .inl rfl, hlanded.1⟩
  · exact ⟨_, .inr ⟨rfl, hne⟩, hlanded.1⟩

theorem exists_device_of_launch {mode : PassMode} {frame : Nat} {events : Option Nat}
    {note : Option Note}
    (h : ((launch mode frame device task events window arguments).run m).1 = .ok note) :
    ∃ d, m.context.devices[device]? = some d := by
  cases hd : m.context.devices[device]? with
  | some d => exact ⟨d, rfl⟩
  | none =>
    rw [run_launch_of_none hd] at h
    cases h

end Machine

/-! ## Sessions -/

/-- The task that an instruction launches and the device that it names. -/
def Instruction.launched? : Instruction → Option (Nat × Nat)
  | .launch _ device task _ _ _ => some (task, device)
  | .allocate .. | .transfer .. | .addDep _ | .barrier _ | .finish => none

/-- A launch of a task that names a device, in a warm-up pass or in a normal one. -/
def Moment.Launches (x : Moment) (task device : Nat) : Prop :=
  ∃ mode frame events window arguments outcome,
    x.deed = .instruction mode (.launch frame device task events window arguments) outcome

variable {x : Moment}

theorem Moment.Launches.device_eq {other : Nat} (h : x.Launches task device)
    (h' : x.Launches task other) :
    device = other := by
  obtain ⟨mode, frame, events, window, arguments, outcome, hdeed⟩ := h
  obtain ⟨mode', frame', events', window', arguments', outcome', hdeed'⟩ := h'
  rw [hdeed] at hdeed'
  cases hdeed'
  rfl

namespace Machine

/-- All code was compiled for a device that a launch of its task has named. -/
def Traced (past : List Moment) (m : Machine) : Prop :=
  ∀ task entry, m.code.get? task = some entry → ∃ y ∈ past, y.Launches task entry.device

variable {past : List Moment}

theorem Traced.later {m' : Machine} (h : Traced past m) (x : Moment) (hcode : m'.code = m.code) :
    Traced (past ++ [x]) m' := by
  intro task entry hentry
  rw [hcode] at hentry
  obtain ⟨y, hy, hlaunches⟩ := h task entry hentry
  exact ⟨y, List.mem_append_left _ hy, hlaunches⟩

theorem Traced.carry (h : Traced past m) (mode : PassMode) (i : Instruction) :
    Traced (past ++ [.carry mode i m]) ((effect mode i).run m).2 := by
  cases i with
  | launch frame device task events window arguments =>
    intro task' entry hentry
    have hgrew : CodeCache.Grew task device m.code
        ((launch mode frame device task events window arguments).run m).2.code :=
      (landed_launch m mode frame device task events window arguments).elim And.right fun h => h.2.2
    rcases hgrew task' entry hentry with hold | ⟨rfl, rfl⟩
    · obtain ⟨y, hy, hlaunches⟩ := h task' entry hold
      exact ⟨y, List.mem_append_left _ hy, hlaunches⟩
    · exact ⟨_, List.mem_append_right _ (List.mem_singleton_self _), mode, frame, events, window,
        arguments, _, rfl⟩
  | _ =>
    refine h.later _ ?_
    cases mode with
    | warmup => rfl
    | normal =>
      dsimp only [effect]
      rw [if_pos rfl]
      exact meets_iff_after.1 (keeps_code_perform (C := (· = m.code)) _) m rfl

theorem lasting_traced : Lasting Traced :=
  lasting_of_aside (fun _ _ _ _ _ => id) (fun mode i h => h.carry mode i)
    (fun {_ m} mode kind body h =>
      h.later _ (meets_iff_after.1 (keeps_code_closing (C := (· = m.code)) mode kind body) m rfl))
    fun h => h.later _ rfl

/-- The home of a launch was named by it or by an earlier launch of its task. -/
theorem Traced.home (h : Traced past x.before) (hx : x.Launches task device) :
    ∃ y ∈ past ++ [x], y.Launches task (x.before.home task device) := by
  rw [Machine.home]
  split
  · rename_i entry hentry
    obtain ⟨y, hy, hlaunches⟩ := h task entry hentry
    exact ⟨y, List.mem_append_left _ hy, hlaunches⟩
  · exact ⟨x, List.mem_append_right _ (List.mem_singleton_self x), hx⟩

theorem traced_create {code : Bytes} {config : Config} {c c' : Context}
    (hm : (create code config).run c = (.ok m, c')) : Traced [] m := by
  obtain ⟨header, reader, rfl⟩ := eq_initial_of_create hm
  intro task entry hentry
  cases (CodeCache.get?_new header.tasks task).symm.trans hentry

theorem eq_launch_of_deed {requests : List Request} {future : List Moment}
    (hx : timeline requests m = past ++ x :: future) {mode : PassMode} {frame : Nat}
    {events : Option Nat} {outcome : Except Fault (Option Note)}
    (hdeed : x.deed = .instruction mode (.launch frame device task events window arguments)
      outcome) :
    outcome = ((launch mode frame device task events window arguments).run x.before).1 ∧
      x.after = ((launch mode frame device task events window arguments).run x.before).2 := by
  have hrun := run_effect_of_deed hx hdeed
  exact ⟨(congrArg Prod.fst hrun).symm, (congrArg Prod.snd hrun).symm⟩

/-- A launch submits one command at most, to one device, and changes no other device. The device was
named by this launch or by an earlier one of the same task. A launch that is carried out runs on the
device that it names exactly if there is no code yet or the code is for that device, and so it does
whenever all launches of its task before it have named that device. -/
theorem launch_lands {code : Bytes} {config : Config} {c c' : Context} {m : Machine}
    (hm : (create code config).run c = (.ok m, c')) {requests : List Request}
    {past future : List Moment} {x : Moment} (hx : timeline requests m = past ++ x :: future)
    {mode : PassMode} {frame device task : Nat} {events : Option Nat} {window : Option Window}
    {arguments : List Argument} {outcome : Except Fault (Option Note)}
    (hdeed : x.deed = .instruction mode (.launch frame device task events window arguments)
      outcome) :
    (∃ kinds, (kinds = [.launch] ∨ kinds = [] ∧ outcome ≠ .ok none) ∧
      Device.Grew (x.before.home task device) kinds x.before.context.devices
      x.after.context.devices) ∧
    (∃ y ∈ past ++ [x], y.Launches task (x.before.home task device)) ∧
    (outcome = .ok none →
      (Device.Grew device [.launch] x.before.context.devices x.after.context.devices ↔
        x.before.home task device = device)) ∧
    ((∀ y ∈ past, ∀ other, y.Launches task other → other = device) →
      x.before.home task device = device) := by
  have hlaunches : x.Launches task device :=
    ⟨mode, frame, events, window, arguments, outcome, hdeed⟩
  have hnamed := (lasting_traced.before (traced_create hm) hx).home hlaunches
  obtain ⟨houtcome, hafter⟩ := eq_launch_of_deed hx hdeed
  obtain ⟨kinds, hkinds, hgrew⟩ :=
    grew_launch x.before mode frame device task events window arguments
  rw [← hafter] at hgrew
  rw [← houtcome] at hkinds
  refine ⟨⟨kinds, hkinds, hgrew⟩, hnamed, fun hok => ⟨fun hdevice => ?_, fun hhome => ?_⟩,
    fun hsame => ?_⟩
  · obtain ⟨d, hd⟩ := exists_device_of_launch (houtcome.symm.trans hok)
    by_contra hother
    -- The device that the launch names is not its home, so its log has not grown.
    have hkept := hgrew.2 device (Ne.symm hother)
    have hlog := hdevice.1
    rw [hkept, hd] at hlog
    simp at hlog
  · obtain rfl | ⟨-, hne⟩ := hkinds
    · rw [hhome] at hgrew
      exact hgrew
    · exact absurd hok hne
  · obtain ⟨y, hy, hyhome⟩ := hnamed
    rcases List.mem_append.1 hy with hy | hy
    · exact hsame y hy _ hyhome
    · obtain rfl := List.mem_singleton.1 hy
      exact hyhome.device_eq hlaunches

/-- The second launch of a task on the second device runs there, as the first one did. -/
theorem launch_lands_twice :
    let p : Program := ⟨⟨2, 1, 0, [0, 1]⟩,
      [.transfer .copyIn 0 1 none none, .launch 0 1 0 none none [.reference 0],
        .launch 0 1 0 none none [.reference 0], .finish]⟩
    let c : Context := {
      devices := [{ name := "d0" }, { name := "d1" }]
      objects := [⟨"a", [1, 0, 0, 0]⟩]
      constants := []
      tasks := [{ name := "add_one", accesses := [.readWrite] }] }
    ∃ m c' past x future, (create p.encode {}).run c = (.ok m, c') ∧
      timeline [.pass .normal .plain] m = past ++ x :: future ∧ past.length = 2 ∧
      x.deed = .instruction .normal (.launch 0 1 0 none none [.reference 0]) (.ok none) ∧
      Device.Grew 1 [.launch] x.before.context.devices x.after.context.devices := by
  intro p c
  have hrun : (((create p.encode {}).outcome c).toOption.map fun m =>
      ((timeline [.pass .normal .plain] m)[2]?.map fun x => (x.deed, x.before.home 0 1))) =
      some
      (some (.instruction .normal (.launch 0 1 0 none none [.reference 0]) (.ok none), 1)) := by
    decide +kernel
  obtain ⟨m, c', hm, hread⟩ := Action.exists_run_of_read hrun
  obtain ⟨x, hx, hlaunch⟩ := Option.map_eq_some_iff.1 hread
  obtain ⟨hdeed, hhome⟩ := Prod.mk.inj hlaunch
  obtain ⟨past, future, htimeline, hlength⟩ := exists_split_at hx
  refine ⟨m, c', _, x, _, hm, htimeline, hlength, hdeed, ?_⟩
  exact ((launch_lands hm htimeline hdeed).2.2.1 rfl).2 hhome

/-- Launches of one task that name two devices both run on the first of them; the buffer of the
second device is not touched. -/
theorem launch_lands_elsewhere :
    let p : Program := ⟨⟨2, 1, 0, [0, 1]⟩,
      [.transfer .copyIn 0 0 none none, .transfer .copyIn 0 1 none none,
        .launch 0 0 0 none none [.reference 0], .launch 0 1 0 none none [.reference 0], .finish]⟩
    let c : Context := {
      devices := [{ name := "d0" }, { name := "d1" }]
      objects := [⟨"a", [1, 0, 0, 0]⟩]
      constants := []
      tasks := [{ name := "add_one", accesses := [.readWrite] }] }
    ((create p.encode {}).outcome c).toOption.map (fun m =>
        ((session [.pass .normal .plain] m).1.map Except.isOk,
          (session [.pass .normal .plain] m).2.context.devices.map fun d =>
          (d.log.kinds, d.memory))) =
      some ([true],
        [([.allocate, .write, .launch, .launch], ⟨[(0, [3, 0, 0, 0])]⟩),
          ([.allocate, .write], ⟨[(0, [1, 0, 0, 0])]⟩)]) := by
  decide +kernel

end Machine

end Offload
