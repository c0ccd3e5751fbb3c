import Offload.Proofs.PassRules
import Offload.Proofs.StoreSafety

/-!
# Rules for launches

A launch looks for its device, gets its code, which may have to be compiled, and then does the rest:
it takes a frame, fills it and submits the command. The rest changes frames, events and records and
has one operation of a device; what these keep the rest keeps.
-/

namespace Offload

open Offload.Action

variable {m m' : Machine} {f : CallFrame} {d : Device}

/-- The slots after a compilation for a device, which has or has not found a kernel. -/
def CodeCache.tried (c : CodeCache) (task device : Nat) (found : Option InstalledCode) :
    CodeCache :=
  match found with
  | some code => c.install task { code, device }
  | none => c.recordFailure task

@[simp] theorem CodeCache.length_slots_tried (c : CodeCache) (task device : Nat)
    (found : Option InstalledCode) :
    (c.tried task device found).slots.length = c.slots.length := by
  cases found with
  | some code => exact c.length_slots_install task _
  | none => exact c.length_slots_recordFailure task

/-- A device gives the frame of a launch back, and it may hold the frame from then on. -/
theorem Store.meets_launch_frame (index : Nat) (code : InstalledCode) (f : CallFrame)
    (name : String) (window : Option Window) (wait : List EventId) :
    Meets (fun _ => True)
      (inContext (Context.onDevice index (Station.launch code f name window wait)))
      (fun r s => ∃ d, s.context.devices[index]? = some d ∧
        r.2 = if d.options.retainCallFrames then f.markOnDevice else f) (fun _ => True) := by
  refine meets_of_run (fun s r s' _ hrun => ?_) fun _ _ _ _ _ => trivial
  obtain ⟨-, hr⟩ | ⟨d, hd, hr, rfl⟩ := onDevice_cases hrun
  · cases hr
  · rcases hlaunch : (Station.launch code f name window wait).run (s.context.station d) with ⟨v, st⟩
    rw [hlaunch] at hr
    cases v with
    | error fault => cases hr
    | ok q =>
      cases hr
      obtain ⟨_, _, -, hlaunch⟩ := run_bind_eq_ok.1 hlaunch
      obtain ⟨event, _, -, hlaunch⟩ := run_bind_eq_ok.1 hlaunch
      cases hlaunch
      exact ⟨st.device, List.getElem?_set_self (List.getElem?_eq_some_iff.1 hd).1, rfl⟩

/-- The frame with an argument more. -/
def CallFrame.pushed (f : CallFrame) (a : FrameArgument) : CallFrame :=
  { f with arguments := f.arguments ++ [a], state := .populated }

namespace Machine

variable {I : Machine → Prop}

/-- The machine with another context. -/
def withContext (m : Machine) (c : Context) :
    Machine := { m with store := { m.store with context := c } }

/-- The device after a compilation. -/
def asked (d : Device) : Device :=
  { d with counters := { d.counters with compilations := d.counters.compilations + 1 } }

/-- What a compilation gives. -/
def verdict (config : Config) (name : String) (device : Nat) :
    Option InstalledCode → Except Fault (Option CacheEntry)
  | some code => .ok (some { code, device })
  | none =>
    match config.compileFailurePolicy with
    | .strict => .error (.compilation name (.unknownKernel name))
    | .lenient => .ok none

/-- What the journal says about a compilation. -/
def reported (config : Config) (name : String) (task device : Nat) (found : Option InstalledCode)
    (journal : Journal) : Journal :=
  match found with
  | some _ =>
    if config.printCompileTimes then
      journal.add .info
        ("vm: compiled task " ++ (toString task ++ " (" ++ name ++ ")") ++ " for device " ++
          toString device ++ " in 0 us")
    else journal
  | none =>
    journal.add .error
      ("vm: unable to compile task " ++ (toString task ++ " (" ++ name ++ ")") ++ ": " ++
        (DeviceFault.unknownKernel name).message)

/-- The machine after a compilation for the device `d`. -/
def compiled (m : Machine) (task device : Nat) (d : Device) (found : Option InstalledCode)
    (journal : Journal) : Machine :=
  { m with
    store := { m.store with context := { m.context with
      devices := m.context.devices.set device (asked d)
      tasks := m.context.tasks.modify task fun t => t.bind device
      journal } }
    code := m.code.tried task device found }

variable {mode : PassMode} {frame device task : Nat} {events : Option Nat} {window : Option Window}
  {arguments : List Argument}

theorem run_device_of_some (hd : m.context.devices[device]? = some d) :
    (Action.ofExcept (m.context.device device) : MachineAction Device).run m = (.ok d, m) := by
  rw [Context.device, lookup_eq_ok.2 hd]
  rfl

theorem run_device_of_none (hd : m.context.devices[device]? = none) :
    (Action.ofExcept (m.context.device device) : MachineAction Device).run m =
      (.error (.indexOutOfRange .device device m.context.devices.length), m) := by
  rw [Context.device, lookup, hd]
  rfl

theorem run_launch_of_device (hd : m.context.devices[device]? = some d) :
    (launch mode frame device task events window arguments).run m =
      (do
        let code ← resolveCode task device
        launchWith mode frame device task events window arguments code).run m := by
  rw [launch, run_bind, run_get]
  exact run_bind_of_ok (run_device_of_some hd)

theorem run_launch_of_none (hd : m.context.devices[device]? = none) :
    (launch mode frame device task events window arguments).run m =
      (.error (.indexOutOfRange .device device m.context.devices.length), m) := by
  rw [launch, run_bind, run_get]
  dsimp only
  rw [run_bind, run_device_of_none hd]

theorem resolveFrame_cases {count : Nat} {v : Except Fault CallFrame}
    (h : (resolveFrame frame count).run m = (v, m')) :
    (∃ fault, m.frames.resolve frame count m.config.redeployOnDevice = .error fault ∧
      v = .error fault ∧ m' = m) ∨
    ∃ f frames, m.frames.resolve frame count m.config.redeployOnDevice = .ok (f, frames) ∧
    v = .ok f ∧
      m' = { m with frames } := by
  rw [resolveFrame, run_bind, run_get] at h
  dsimp only at h
  cases hresolve : m.frames.resolve frame count m.config.redeployOnDevice with
  | error fault =>
    rw [hresolve] at h
    cases h
    exact .inl ⟨fault, rfl, rfl, rfl⟩
  | ok found =>
    rw [hresolve] at h
    cases h
    exact .inr ⟨found.1, found.2, rfl, rfl, rfl⟩

theorem resolve_of_resolveFrame {count : Nat} (h : (resolveFrame frame count).run m = (.ok f, m')) :
    ∃ frames, m.frames.resolve frame count m.config.redeployOnDevice = .ok (f, frames) ∧
      m' = { m with frames } := by
  obtain ⟨_, _, ⟨⟩, _⟩ | ⟨_, frames, hresolve, ⟨⟩, rfl⟩ := resolveFrame_cases h
  exact ⟨frames, hresolve, rfl⟩

/-- A launch gets a frame of the pool or a new one. -/
theorem meets_resolveFrame {I : Machine → Prop} {F : CallFrame → Prop}
    (hfresh : ∀ count, F { capacity := count }) (hframes : ∀ m, I m → m.frames.All F)
    (haside : ∀ m frames, I m → frames.All F →
      frames.slots.length = m.frames.slots.length → I { m with frames }) (frame count : Nat) :
    Meets I (resolveFrame frame count) (fun f m => I m ∧ F f) I := by
  refine meets_of_run (fun m f m' hm hrun => ?_) fun m fault m' hm hrun => ?_
  · obtain ⟨frames, hresolve, rfl⟩ := resolve_of_resolveFrame hrun
    obtain ⟨hf, hall⟩ := (hframes m hm).resolve (hfresh count) hresolve
    exact ⟨haside m frames hm hall (FramePool.length_slots_resolve hresolve), hf⟩
  · obtain ⟨_, -, -, rfl⟩ | ⟨_, _, -, ⟨⟩, -⟩ := resolveFrame_cases hrun
    exact hm

/-- What a compilation gives and leaves, where there are such a device and such a task. -/
theorem run_compile {t : Task} (hd : m.context.devices[device]? = some d)
    (ht : m.context.tasks[task]? = some t) :
    ∃ journal, (compile task device).run m =
      (verdict m.config t.name device ((d.kernels.get? t.name).map (InstalledCode.mk t.name)),
        m.compiled task device d ((d.kernels.get? t.name).map (InstalledCode.mk t.name)) journal) ∧
      journal = reported m.config t.name task device
      ((d.kernels.get? t.name).map (InstalledCode.mk t.name))
        m.context.journal := by
  refine ⟨_, ?_, rfl⟩
  have hnamed : (Action.ofExcept (m.context.task task) : MachineAction Task).run m =
      (.ok t, m) := by
    rw [Context.task, lookup_eq_ok.2 ht]
    rfl
  have hbind : (inStore (Store.inContext (modify fun c =>
      { c with tasks := c.tasks.modify task fun t => t.bind device }))).run m =
        (.ok (), m.withContext
          { m.context with tasks := m.context.tasks.modify task fun t => t.bind device }) := rfl
  have hinstall := Context.run_onDevice (Station.install t.name)
    (c := { m.context with tasks := m.context.tasks.modify task fun t => t.bind device }) hd
  rw [Station.run_install] at hinstall
  have hattempt : (Action.attempt (onDevice device (Station.install t.name))).run
      (m.withContext { m.context with
        tasks := m.context.tasks.modify task fun t => t.bind device }) =
      (.ok (((d.kernels.get? t.name).elim (.error (.unknownKernel t.name)) fun kernel =>
          .ok ⟨t.name, kernel⟩ : Except DeviceFault InstalledCode).mapError .device),
        m.withContext { m.context with
          devices := m.context.devices.set device (asked d)
          tasks := m.context.tasks.modify task fun t => t.bind device }) := by
    have hfst := congrArg Prod.fst hinstall
    have hsnd := congrArg (fun r => m.withContext r.2) hinstall
    exact Prod.ext (congrArg Except.ok hfst) hsnd
  rw [compile, run_bind, run_get]
  dsimp only
  rw [run_bind_of_ok (run_device_of_some hd), run_bind_of_ok hnamed, run_bind_of_ok hbind,
    run_bind_of_ok hattempt]
  cases d.kernels.get? t.name with
  | some kernel =>
    dsimp only [Option.elim, Except.mapError, Option.map, reported]
    split <;> rfl
  | none =>
    dsimp only [Option.elim, Except.mapError, Option.map, verdict, reported]
    cases m.config.compileFailurePolicy <;> rfl

theorem run_compile_of_none (hd : m.context.devices[device]? = some d)
    (ht : m.context.tasks[task]? = none) :
    (compile task device).run m =
      (.error (.indexOutOfRange .task task m.context.tasks.length), m) := by
  have hnamed : (Action.ofExcept (m.context.task task) : MachineAction Task).run m =
      (.error (.indexOutOfRange .task task m.context.tasks.length), m) := by
    rw [Context.task, lookup, ht]
    rfl
  rw [compile, run_bind, run_get]
  dsimp only
  rw [run_bind_of_ok (run_device_of_some hd), run_bind, hnamed]

theorem run_compile_of_no_device (hd : m.context.devices[device]? = none) :
    (compile task device).run m =
      (.error (.indexOutOfRange .device device m.context.devices.length), m) := by
  rw [compile, run_bind, run_get]
  dsimp only
  rw [run_bind, run_device_of_none hd]

theorem run_resolveCode_of_some {entry : CacheEntry} (hcode : m.code.get? task = some entry) :
    (resolveCode task device).run m = (.ok (some entry), m) := by
  rw [resolveCode, run_bind, run_get]
  dsimp only
  rw [hcode]
  rfl

theorem run_resolveCode_of_none (hcode : m.code.get? task = none) :
    (resolveCode task device).run m = (compile task device).run m := by
  rw [resolveCode, run_bind, run_get]
  dsimp only
  rw [hcode]

theorem verdict_eq_ok {config : Config} {name : String} {found : Option InstalledCode}
    {code : Option CacheEntry} (h : verdict config name device found = .ok code) :
    code = found.map fun c => { code := c, device } := by
  cases found with
  | some c => exact (Except.ok.inj h).symm
  | none =>
    rw [verdict] at h
    cases hpolicy : config.compileFailurePolicy <;> rw [hpolicy] at h <;> cases h
    rfl

/-- What looking for code finds and leaves: there is some, something is missing, or the task is
compiled. -/
inductive Resolving (m : Machine) (task device : Nat) :
    Except Fault (Option CacheEntry) → Machine → Prop
  | found {entry : CacheEntry} (hcode : m.code.get? task = some entry) :
    Resolving m task device (.ok (some entry)) m
  | missing {fault : Fault} (hcode : m.code.get? task = none)
    (hmissing : m.context.devices[device]? = none ∨ m.context.tasks[task]? = none)
    (hfault : fault.isRoutine) :
    Resolving m task device (.error fault) m
  | compiled {d : Device} {t : Task} {found : Option InstalledCode} {journal : Journal}
    (hcode : m.code.get? task = none) (hd : m.context.devices[device]? = some d)
    (ht : m.context.tasks[task]? = some t)
    (hfound : found = (d.kernels.get? t.name).map (InstalledCode.mk t.name)) :
    Resolving m task device (verdict m.config t.name device found)
    (m.compiled task device d found journal)

theorem resolving_of_run {v : Except Fault (Option CacheEntry)}
    (h : (resolveCode task device).run m = (v, m')) : m.Resolving task device v m' := by
  cases hcode : m.code.get? task with
  | some entry =>
    rw [run_resolveCode_of_some hcode] at h
    cases h
    exact .found hcode
  | none =>
    rw [run_resolveCode_of_none hcode] at h
    cases hd : m.context.devices[device]? with
    | none =>
      rw [run_compile_of_no_device hd] at h
      cases h
      exact .missing hcode (.inl hd) rfl
    | some d =>
      cases ht : m.context.tasks[task]? with
      | none =>
        rw [run_compile_of_none hd ht] at h
        cases h
        exact .missing hcode (.inr ht) rfl
      | some t =>
        obtain ⟨journal, hrun, -⟩ := run_compile hd ht
        cases hrun.symm.trans h
        exact .compiled hcode hd ht rfl

/-- Looking for code keeps what compilations of tasks without code keep. -/
theorem keeps_resolveCode_of_compiled
    (hcompiled : ∀ m d found journal, m.code.get? task = none →
      m.context.devices[device]? = some d → I m → I (m.compiled task device d found journal)) :
    Keeps I (resolveCode task device) := by
  refine keeps_of_run fun m v m' hm hrun => ?_
  cases resolving_of_run hrun with
  | found hcode => exact hm
  | missing => exact hm
  | compiled hcode hd => exact hcompiled m _ _ _ hcode hd hm

/-- Compilation binds the task, looks for a kernel and fills a slot. -/
theorem keeps_resolveCode_of_install
    (hbind : Keeps I (inStore (Store.inContext (modify fun c =>
      { c with tasks := c.tasks.modify task fun t => t.bind device }))))
    (hinstall : ∀ name, Keeps I (onDevice device (Station.install name)))
    (haside : ∀ m journal code, I m → I { m with
      code, store := { m.store with context := { m.store.context with journal } } }) :
    Keeps I (resolveCode task device) := by
  refine keeps_resolveCode_of_compiled fun m d found journal _ hd hm => ?_
  have hbound := meets_iff_after.1 hbind m hm
  have hinstalled := meets_iff_after.1 (hinstall "") _ hbound
  have hd' : (m.withContext { m.context with
      tasks := m.context.tasks.modify task fun t =>
        t.bind device }).store.context.devices[device]? = some d := hd
  have hafter : ((onDevice device (Station.install "")).run (m.withContext { m.context with
      tasks := m.context.tasks.modify task fun t => t.bind device })).2 =
        m.withContext { m.context with
        devices := m.context.devices.set device (asked d)
        tasks := m.context.tasks.modify task fun t => t.bind device } := by
    rw [onDevice, inStore, run_focus, Store.inContext, run_focus, Context.run_onDevice _ hd',
      Station.run_install]
    rfl
  exact haside _ journal _ (hafter ▸ hinstalled)

/-- Compilations fill slots with the same verdict where the devices have the same kernels. -/
theorem goes_resolveCode {T : Terms Machine Fault} {R : Machine → Machine → Prop}
    (hfault : ∀ {e : Fault} {m m'}, e.isRoutine → R m m' → T.strict → T.fault e e m m')
    (hcode : ∀ {m m'}, R m m' → m'.code.get? task = m.code.get? task ∧
      m'.config.compileFailurePolicy = m.config.compileFailurePolicy ∧
      m'.config.printCompileTimes = m.config.printCompileTimes)
    (hdevice : ∀ {m m'}, R m m' → m'.context.devices[device]?.map Device.kernels =
      m.context.devices[device]?.map Device.kernels ∧
      m'.context.devices.length = m.context.devices.length)
    (htask : ∀ {m m'}, R m m' → m'.context.tasks.map Task.name = m.context.tasks.map Task.name)
    (hcompiled : ∀ {m m' d d'} found (write : Journal → Journal), R m m' →
      m.context.devices[device]? = some d → m'.context.devices[device]? = some d' →
      R (m.compiled task device d found (write m.context.journal))
        (m'.compiled task device d' found (write m'.context.journal))) :
    Goes T R (resolveCode task device) (resolveCode task device) Eq := by
  intro m m' hm
  obtain ⟨hslot, hpolicy, hprint⟩ := hcode hm
  obtain ⟨hkernels, hlength⟩ := hdevice hm
  cases hfound : m.code.get? task with
  | some entry =>
    rw [run_resolveCode_of_some hfound, run_resolveCode_of_some (hslot.trans hfound)]
    exact ⟨rfl, hm⟩
  | none =>
    rw [run_resolveCode_of_none hfound, run_resolveCode_of_none (hslot.trans hfound)]
    cases hd : m.context.devices[device]? with
    | none =>
      have hd' : m'.context.devices[device]? = none := by simpa [hd] using hkernels
      rw [run_compile_of_no_device hd, run_compile_of_no_device hd', hlength]
      exact hfault rfl hm
    | some d =>
      obtain ⟨d', hd', hsame⟩ : ∃ d', m'.context.devices[device]? = some d' ∧
          d'.kernels = d.kernels := by
        simpa [hd] using hkernels
      have hname : m'.context.tasks[task]?.map Task.name =
          m.context.tasks[task]?.map Task.name := by
        rw [← List.getElem?_map, htask hm, List.getElem?_map]
      cases ht : m.context.tasks[task]? with
      | none =>
        have ht' : m'.context.tasks[task]? = none := by simpa [ht] using hname
        have hlength : m'.context.tasks.length = m.context.tasks.length := by
          simpa using congrArg List.length (htask hm)
        rw [run_compile_of_none hd ht, run_compile_of_none hd' ht', hlength]
        exact hfault rfl hm
      | some t =>
        rw [ht] at hname
        obtain ⟨t', ht', hname⟩ := Option.map_eq_some_iff.1 hname
        obtain ⟨_, hrun, rfl⟩ := run_compile hd ht
        obtain ⟨_, hrun', rfl⟩ := run_compile hd' ht'
        have hwrite : ∀ found, reported m'.config t.name task device found =
            reported m.config t.name task device found := by
          intro found
          funext journal
          simp only [reported, hprint]
        rw [hrun, hrun', hname, hsame, hwrite]
        have hnext := fun found =>
          hcompiled found (reported m.config t.name task device found) hm hd hd'
        cases d.kernels.get? t.name with
        | some kernel => exact ⟨rfl, hnext _⟩
        | none =>
          dsimp only [Option.map, verdict]
          rw [hpolicy]
          cases m.config.compileFailurePolicy with
          | strict => exact hfault rfl (hnext none)
          | lenient => exact ⟨rfl, hnext none⟩

/-- What the parts of a launch keep once its code is found, where the frames that they pass on and
put into the pool all have the property `F`. -/
structure FrameKeeps (I : Machine → Prop) (F : CallFrame → Prop) : Prop where
  log : ∀ level text, Keeps I (log level text)
  claim : ∀ object device, Keeps I (inStore (Store.claim object device))
  put : ∀ id f, F f → Keeps I (putFrame id f)
  resolve : ∀ frame count, Meets I (resolveFrame frame count) (fun f m => I m ∧ F f) I
  reset : ∀ f, F f → F f.reset
  push : ∀ (f : CallFrame) id a g, f.push id a = .ok g → F g
  submit : ∀ index code f name window wait, F f →
    Meets I (onDevice index (Station.launch code f name window wait))
      (fun r m => I { m with lastEvent := some r.1 } ∧ F r.2) I
  lists : ∀ list, Keeps I (resetList list)
  aside : ∀ m pending, I m → I { m with pending }

namespace FrameKeeps

variable {F : CallFrame → Prop}

theorem fillFrame (h : FrameKeeps I F) (t : Task) (frame device : Nat) (arguments : List Argument)
    (hf : F f) : Meets I (fillFrame t frame device arguments f) (fun g m => I m ∧ F g) I :=
  meets_of_goes ((filling_of_upholds (fun _ => id) (h.put frame) (fun f a g => h.push f frame a g)
    (h.claim · device)).fillFrame rfl rfl ⟨rfl, hf⟩ ⟨rfl, h.reset f hf⟩)

theorem submitLaunch (h : FrameKeeps I F) (entry : CacheEntry) (t : Task) (frame device task : Nat)
    (events : Option Nat) (window : Option Window) (hf : F f) :
    Keeps I (submitLaunch entry t frame device task events window f) := by
  rw [submitLaunch_eq]
  refine keeps_get fun m => ?_
  refine keeps_bind (keeps_get fun _ => keeps_ofExcept) fun wait => ?_
  refine meets_bind (h.submit _ _ f _ _ _ hf) fun r => ?_
  refine meets_bind (Q := fun _ m => I m ∧ F r.2) (meets_modify fun _ => id) fun _ =>
    meets_of_fact fun hr => ?_
  refine keeps_bind (h.put frame r.2 hr) fun _ => keeps_bind (h.lists events) fun _ => ?_
  rw [pend]
  split
  · exact keeps_modify fun m hm => h.aside m _ hm
  · exact keeps_pure

theorem launchWith (h : FrameKeeps I F) (mode : PassMode) (frame device task : Nat)
    (events : Option Nat) (window : Option Window) (arguments : List Argument)
    (code : Option CacheEntry) :
    Keeps I (launchWith mode frame device task events window arguments code) := by
  refine meets_bind (h.resolve frame _) fun f => meets_of_fact fun hf => ?_
  split
  · exact keeps_pure
  · split
    · exact keeps_bind (h.log _ _) fun _ => keeps_pure
    · refine keeps_get fun m => keeps_bind keeps_ofExcept fun t => ?_
      refine meets_bind (h.fillFrame t frame device arguments hf) fun g =>
        meets_of_fact fun hg => ?_
      exact keeps_bind (h.submitLaunch _ _ _ _ _ _ _ hg) fun _ => keeps_pure

theorem launch (h : FrameKeeps I F) {mode : PassMode} {frame device task : Nat}
    {events : Option Nat} {window : Option Window} {arguments : List Argument}
    (hcode : Keeps I (resolveCode task device)) :
    Keeps I (launch mode frame device task events window arguments) :=
  keeps_get fun _ => keeps_bind keeps_ofExcept fun _ =>
    keeps_bind hcode fun code => h.launchWith mode frame device task events window arguments code

end FrameKeeps

/-- What the parts of a launch keep whatever the frames are. -/
structure LaunchKeeps (I : Machine → Prop) : Prop where
  log : ∀ level text, Keeps I (log level text)
  claim : ∀ object device, Keeps I (inStore (Store.claim object device))
  submit : ∀ index code f name window wait,
    Meets I (onDevice index (Station.launch code f name window wait))
    (fun r m => I { m with lastEvent := some r.1 }) I
  aside : ∀ m frames ledger pending, I m → I { m with frames, ledger, pending }

theorem LaunchKeeps.frameKeeps (h : LaunchKeeps I) : FrameKeeps I fun _ => True where
  log := h.log
  claim := h.claim
  put _ _ _ := keeps_modify fun m hm => h.aside m _ m.ledger m.pending hm
  resolve := meets_resolveFrame (fun _ => trivial) (fun _ _ _ _ => trivial)
    fun m frames hm _ _ => h.aside m frames m.ledger m.pending hm
  reset _ _ := trivial
  push _ _ _ _ _ := trivial
  submit index code f name window wait _ :=
    meets_post (h.submit index code f name window wait) fun _ _ hm => ⟨hm, trivial⟩
  lists _ := keeps_get fun _ => keeps_bind keeps_ofExcept fun ledger =>
    keeps_modify fun m hm => h.aside m m.frames ledger m.pending hm
  aside m pending hm := h.aside m m.frames m.ledger pending hm

/-! ### One argument -/

/-- What a launch on a device puts into its frame for an argument. -/
inductive Grants (m : Machine) (device : Nat) : Argument → FrameArgument → Prop
  | constant {index : Nat} {value : Scalar} (hvalue : m.context.constants[index]? = some value) :
    Grants m device (.constant index) (.constant value)
  | reference {object place : Nat} {r : Record} {a : Allocation}
    (hrecord : m.store.table.get? object device = some r) (hbuffer : r.allocation = some a)
    (hvalid : r.valid = true) (hplace : m.context.places[object]? = some place) :
    Grants m device (.reference object)
    (.reference object a.buffer (objectAt m.context.objects place).label)

theorem Grants.eq {device : Nat} {argument : Argument} {a a' : FrameArgument}
    (h : m.Grants device argument a) (h' : m.Grants device argument a') : a = a' := by
  cases h <;> cases h' <;> simp_all

/-- What has become of the store when an argument was put into the frame: an object that the task
writes is claimed. -/
def Claims (device : Nat) (argument : Argument) (writes : Bool) (s s' : Store) : Prop :=
  (s' = s ∧ ∀ object, argument = .reference object → writes = false) ∨
    ∃ object text, argument = .reference object ∧ writes = true ∧ s' = ⟨s.context.log .trace text,
      (s.table.update object device Record.written).setOwner object device⟩

theorem pushArgument_cases (m : Machine) (id : Nat) (f : CallFrame) (a : FrameArgument)
    (next : CallFrame → MachineAction CallFrame) :
    (f.capacity ≤ f.arguments.length ∧
      ∃ fault, (pushArgument id f a >>= next).run m = (.error fault, m)) ∨
      f.arguments.length < f.capacity ∧ (pushArgument id f a >>= next).run m =
        (next (f.pushed a)).run { m with frames := m.frames.put id (f.pushed a) } := by
  by_cases hfull : f.capacity ≤ f.arguments.length
  · refine .inl ⟨hfull, .frameOverflow id f.capacity, ?_⟩
    rw [pushArgument, CallFrame.push, if_pos hfull]
    rfl
  · refine .inr ⟨Nat.lt_of_not_le hfull, ?_⟩
    rw [pushArgument, CallFrame.push, if_neg hfull]
    rfl

/-- The first of the arguments is refused and nothing has changed, or it is in the frame and the
rest follows. -/
theorem marshal_cons_cases (m : Machine) (t : Task) (id device place : Nat) (argument : Argument)
    (others : List Argument) (f : CallFrame) :
    (∃ fault, (∀ a, m.Grants device argument a → f.capacity ≤ f.arguments.length) ∧
      (marshal t id device place (argument :: others) f).run m = (.error fault, m)) ∨
    ∃ a s, m.Grants device argument a ∧ f.arguments.length < f.capacity ∧
      Claims device argument (t.access place).writes m.store s ∧
      (marshal t id device place (argument :: others) f).run m =
        (marshal t id device (place + 1) others (f.pushed a)).run
          { m with store := s, frames := m.frames.put id (f.pushed a) } := by
  cases argument with
  | constant index =>
    rw [marshal, run_bind_of_ok (run_get m), Context.constant, lookup]
    cases hvalue : m.context.constants[index]? with
    | none =>
      refine .inl ⟨_, ?_, rfl⟩
      rintro _ ⟨hvalue'⟩
      cases hvalue.symm.trans hvalue'
    | some value =>
      rw [run_bind_of_ok (run_ofExcept (.ok value) m)]
      rcases pushArgument_cases m id f (.constant value) _ with ⟨hfull, fault, hrun⟩ | ⟨hroom, hrun⟩
      · exact .inl ⟨fault, fun _ _ => hfull, hrun⟩
      · exact .inr ⟨_, m.store, .constant hvalue, hroom, .inl ⟨rfl, by simp⟩, hrun⟩
  | reference object =>
    have hlook : ∀ {β : Type} {x : StoreAction β} {v : Except Fault β},
        x.run m.store = (v, m.store) → (inStore x).run m = (v, m) :=
        fun hx => by rw [inStore, run_focus, hx]
    rw [marshal]
    rcases m.store.validBuffer_cases object device with
      ⟨fault, hfault⟩ | ⟨r, a, hr, ha, hvalid, hbuffer⟩
    · refine .inl ⟨fault, ?_, run_bind_of_error (hlook hfault)⟩
      rintro _ (_ | ⟨hr, ha, hvalid, -⟩)
      cases (Prod.mk.inj (hfault.symm.trans (Store.run_validBuffer_of_get? hr ha hvalid))).1
    rw [run_bind_of_ok (hlook hbuffer)]
    rcases m.store.label_cases object with ⟨hnone, fault, hfault⟩ | ⟨place', hplace, hlabel⟩
    · refine .inl ⟨fault, ?_, run_bind_of_error (hlook hfault)⟩
      rintro _ (_ | ⟨-, -, -, hplace⟩)
      cases hnone.symm.trans hplace
    · rw [run_bind_of_ok (hlook hlabel)]
      have hgrants : m.Grants device (.reference object) _ := .reference hr ha hvalid hplace
      rcases pushArgument_cases m id f _ _ with ⟨hfull, fault, hrun⟩ | ⟨hroom, hrun⟩
      · exact .inl ⟨fault, fun _ _ => hfull, hrun⟩
      by_cases hwrites : (t.access place).writes = true
      · obtain ⟨text, hclaim⟩ := Store.run_claim_of_get? hr
        refine .inr ⟨_, _, hgrants, hroom, .inr ⟨object, text, rfl, hwrites, rfl⟩, hrun.trans ?_⟩
        rw [if_pos hwrites, run_bind, inStore, run_focus, hclaim]
        rfl
      · refine .inr ⟨_, m.store, hgrants, hroom, .inl ⟨rfl, fun _ _ => by simpa using hwrites⟩,
          hrun.trans ?_⟩
        rw [if_neg hwrites]
        rfl

theorem code_launchWith (mode : PassMode) (frame device task : Nat) (events : Option Nat)
    (window : Option Window) (arguments : List Argument) (code : Option CacheEntry) (m : Machine) :
    ((launchWith mode frame device task events window arguments code).run m).2.code = m.code := by
  have hstore : ∀ {β : Type} (x : StoreAction β), Keeps (fun n => n.code = m.code) (inStore x) :=
    fun x => meets_iff_after.2 fun _ => id
  have hkeeps : LaunchKeeps (fun n => n.code = m.code) :=
    ⟨fun _ _ => hstore _, fun _ _ => hstore _, fun _ _ _ _ _ _ => hstore _, fun _ _ _ _ => id⟩
  exact meets_iff_after.1
    (hkeeps.frameKeeps.launchWith mode frame device task events window arguments code) m rfl

/-! ### What a launch can do -/

/-- The second machine differs in frames, records and messages alone. -/
def Reframed (m m' : Machine) : Prop :=
  ∃ frames table journal, m' = { m with frames, store := ⟨{ m.context with journal }, table⟩ }

theorem Reframed.refl (m : Machine) :
    m.Reframed m := ⟨m.frames, m.store.table, m.context.journal, rfl⟩

theorem reframed_of_fillFrame {t : Task} {v : Except Fault CallFrame}
    (h : (fillFrame t frame device arguments f).run m = (v, m')) : m.Reframed m' := by
  refine (keeps_fillFrame_of_claim (I := m.Reframed) (fun id f => keeps_modify ?_)
    (fun object device => ?_) t frame device arguments f).of_run h (.refl m)
  · rintro _ ⟨frames, table, journal, rfl⟩
    exact ⟨_, table, journal, rfl⟩
  · refine meets_iff_after.2 ?_
    rintro _ ⟨frames, table, journal, rfl⟩
    rw [inStore, run_focus]
    rcases Store.claim_cases ⟨{ m.context with journal }, table⟩ object device with
      ⟨fault, hrun⟩ | ⟨text, hrun⟩
    · exact ⟨frames, table, journal, by rw [hrun]⟩
    · exact ⟨frames, _, _, by rw [hrun]; rfl⟩

/-- How a launch ends: there is no such device, it gets no verdict about its code, it does not come
to its arguments, one of these is refused, or its command is submitted. -/
inductive Launching (m : Machine) (mode : PassMode) (frame device task : Nat) (events : Option Nat)
    (window : Option Window) (arguments : List Argument) :
    Except Fault (Option Note) → Machine → Prop
  | absent {fault : Fault} (hd : m.context.devices[device]? = none) :
    Launching m mode frame device task events window arguments (.error fault) m
  | uncoded {fault : Fault} {m' : Machine}
    (hcode : (resolveCode task device).run m = (.error fault, m')) :
    Launching m mode frame device task events window arguments (.error fault) m'
  | stopped {code : Option CacheEntry} (m₁ : Machine) (frames : FramePool) (journal : Journal)
    {r : Except Fault (Option Note)} (hcode : (resolveCode task device).run m = (.ok code, m₁))
    (hframes : frames = m₁.frames ∨
      ∃ f, m₁.frames.resolve frame arguments.length m₁.config.redeployOnDevice = .ok (f, frames))
    (hreason : mode = .warmup ∨ code = none ∨ m₁.context.tasks[task]? = none ∨
      ∀ found, m₁.frames.resolve frame arguments.length m₁.config.redeployOnDevice ≠ .ok found)
    (hr : ∀ note, r = .ok note →
      mode = .warmup ∧ note = some .warmup ∨ code = none ∧ note = some .notCompiled) :
    Launching m mode frame device task events window arguments r
      { m₁ with frames, store := ⟨{ m₁.context with journal }, m₁.store.table⟩ }
  | unfilled {entry : CacheEntry} {m₁ m' : Machine} {t : Task} {f : CallFrame} {frames : FramePool}
    {fault : Fault} (hcode : (resolveCode task device).run m = (.ok (some entry), m₁))
    (hmode : mode = .normal) (ht : m₁.context.tasks[task]? = some t)
    (hframe : m₁.frames.resolve frame arguments.length m₁.config.redeployOnDevice = .ok (f, frames))
    (hfill : (fillFrame t frame device arguments f).run { m₁ with frames } = (.error fault, m'))
    {d : Device} (hd : m.context.devices[device]? = some d) :
    Launching m mode frame device task events window arguments (.error fault) m'
  | submitted {entry : CacheEntry} {m₁ m₂ m' : Machine} {t : Task} {f g : CallFrame}
    {frames : FramePool} {v : Except Fault Unit}
    (hcode : (resolveCode task device).run m = (.ok (some entry), m₁)) (hmode : mode = .normal)
    (ht : m₁.context.tasks[task]? = some t)
    (hframe : m₁.frames.resolve frame arguments.length m₁.config.redeployOnDevice = .ok (f, frames))
    (hfill : (fillFrame t frame device arguments f).run { m₁ with frames } = (.ok g, m₂))
    (hsubmit : (submitLaunch entry t frame device task events window g).run m₂ = (v, m'))
    {d : Device} (hd : m.context.devices[device]? = some d) :
    Launching m mode frame device task events window arguments (v.map fun _ => none) m'

theorem launching_of_run {r : Except Fault (Option Note)}
    (h : (launch mode frame device task events window arguments).run m = (r, m')) :
    m.Launching mode frame device task events window arguments r m' := by
  cases hd : m.context.devices[device]? with
  | none =>
    rw [run_launch_of_none hd] at h
    cases h
    exact .absent hd
  | some d =>
    rw [run_launch_of_device hd] at h
    obtain ⟨fault, hcode, rfl⟩ | ⟨code, m₁, hcode, h⟩ := run_bind_cases h
    · exact .uncoded hcode
    obtain ⟨fault, hframe, rfl⟩ | ⟨f, m₂, hframe, h⟩ := run_bind_cases h
    · obtain ⟨e, hresolve, -, rfl⟩ | ⟨_, _, -, ⟨⟩, -⟩ := resolveFrame_cases hframe
      refine .stopped m' m'.frames m'.context.journal hcode (.inl rfl)
        (.inr (.inr (.inr fun found hfound => ?_))) fun _ hr => by cases hr
      cases hresolve.symm.trans hfound
    obtain ⟨frames, hresolve, rfl⟩ := resolve_of_resolveFrame hframe
    cases mode with
    | warmup =>
      cases h
      exact .stopped m₁ frames m₁.context.journal hcode (.inr ⟨f, hresolve⟩) (.inl rfl) fun _ hr =>
        .inl ⟨rfl, (Except.ok.inj hr).symm⟩
    | normal =>
      rw [if_neg (by decide)] at h
      cases code with
      | none =>
        cases h
        exact .stopped m₁ frames _ hcode (.inr ⟨f, hresolve⟩) (.inr (.inl rfl)) fun _ hr =>
          .inr ⟨rfl, (Except.ok.inj hr).symm⟩
      | some entry =>
        rw [run_bind, run_get] at h
        obtain ⟨fault, htask, rfl⟩ | ⟨t, _, htask, h⟩ := run_bind_cases h
        · obtain ⟨hlookup, rfl⟩ := Prod.mk.inj ((run_ofExcept ..).symm.trans htask)
          have hnone : m₁.context.tasks[task]? = none :=
            Option.eq_none_iff_forall_ne_some.2 fun t ht => by
            cases (lookup_eq_ok.2 ht).symm.trans hlookup
          exact .stopped m₁ frames m₁.context.journal hcode (.inr ⟨f, hresolve⟩)
            (.inr (.inr (.inl hnone))) fun _ hr => by cases hr
        obtain ⟨hlookup, rfl⟩ := Prod.mk.inj ((run_ofExcept ..).symm.trans htask)
        have ht : m₁.context.tasks[task]? = some t := lookup_eq_ok.1 hlookup
        obtain ⟨fault, hfill, rfl⟩ | ⟨g, m₂, hfill, h⟩ := run_bind_cases h
        · exact .unfilled hcode rfl ht hresolve hfill hd
        obtain ⟨fault, hsubmit, rfl⟩ | ⟨_, m₃, hsubmit, h⟩ := run_bind_cases h
        · exact .submitted hcode rfl ht hresolve hfill hsubmit hd
        · cases h
          exact .submitted hcode rfl ht hresolve hfill hsubmit hd

/-- A launch whose command is not submitted may have compiled its task and leaves the rest aside;
one whose command is submitted has found the code and the task. -/
theorem Launching.cases_submitted {r : Except Fault (Option Note)}
    (h : m.Launching mode frame device task events window arguments r m') :
    (∃ m₁, (m₁ = m ∨ ∃ v, (resolveCode task device).run m = (v, m₁)) ∧ m₁.Reframed m' ∧
      ∀ note, r = .ok note → mode = .warmup ∧ note = some .warmup ∨ note = some .notCompiled) ∨
    ∃ entry m₁ t m₂ g v, (resolveCode task device).run m = (.ok (some entry), m₁) ∧
    m₁.context.tasks[task]? = some t ∧
      mode = .normal ∧ m₁.Reframed m₂ ∧ r = v.map (fun _ => none) ∧
      (submitLaunch entry t frame device task events window g).run m₂ = (v, m') := by
  cases h with
  | absent hd => exact .inl ⟨m, .inl rfl, .refl m, fun _ hr => by cases hr⟩
  | uncoded hcode => exact .inl ⟨m', .inr ⟨_, hcode⟩, .refl m', fun _ hr => by cases hr⟩
  | stopped _ _ _ hcode hframes hreason hr =>
    exact .inl ⟨_, .inr ⟨_, hcode⟩, ⟨_, _, _, rfl⟩, fun note hnote =>
      (hr note hnote).imp_right And.right⟩
  | unfilled hcode hmode ht hframe hfill =>
    obtain ⟨frames, table, journal, rfl⟩ := reframed_of_fillFrame hfill
    exact .inl ⟨_, .inr ⟨_, hcode⟩, ⟨frames, table, journal, rfl⟩, fun _ hr => by cases hr⟩
  | submitted hcode hmode ht hframe hfill hsubmit =>
    obtain ⟨frames, table, journal, rfl⟩ := reframed_of_fillFrame hfill
    exact .inr ⟨_, _, _, _, _, _, hcode, ht, hmode, ⟨frames, table, journal, rfl⟩, rfl, hsubmit⟩

/-- An instruction keeps what depends neither on the store nor on the events, the code and the
frames. -/
theorem keeps_effect_of_rest
    (haside : ∀ m store ledger code frames pending lastEvent, I m →
      I { m with store, ledger, code, frames, pending, lastEvent })
    (mode : PassMode) (i : Instruction) : Keeps I (effect mode i) := by
  have hstore : ∀ {β : Type} (x : StoreAction β), Keeps I (inStore x) := fun x =>
    meets_iff_after.2 fun m hm => haside m _ m.ledger m.code m.frames m.pending m.lastEvent hm
  have hrest : LaunchKeeps I :=
    ⟨fun _ _ => hstore _, fun _ _ => hstore _, fun _ _ _ _ _ _ => meets_post (hstore _)
      fun _ m hm => haside m m.store m.ledger m.code m.frames m.pending _ hm,
      fun m frames ledger pending hm =>
      haside m m.store ledger m.code frames pending m.lastEvent hm⟩
  exact keeps_effect_of_work
    (fun m lastEvent ledger hm => haside m m.store ledger m.code m.frames m.pending lastEvent hm)
    (fun _ => hstore _) fun _ _ _ _ _ _ =>
    hrest.frameKeeps.launch (keeps_resolveCode_of_compiled fun m _ _ _ _ _ hm =>
      haside m _ m.ledger _ m.frames m.pending m.lastEvent hm)

end Machine

end Offload
