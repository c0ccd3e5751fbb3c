import Offload.Proofs.PendingProfiles
import Offload.Proofs.UntrackedStore

/-!
# Passes with and without dependencies

A machine that keeps no event lists does to the data what a machine that keeps them does, as long as
the latter does not fail. The numbers of events may differ, for the markers at the end of a pass are
left out. Only when the profiles are taken are numbers of events looked up, and only there may the
machine without lists fail alone.
-/

namespace Offload

open Offload.Action

variable {α β : Type}

namespace Machine

/-- What the instructions of a pass read and change, apart from events and their lists. -/
def gear (m : Machine) : Store × FramePool × CodeCache × Reader × Config :=
  (m.store, m.frames, m.code, m.reader, m.config)

/-- The machine `m` keeps event lists and `m'` does not; all else that instructions work with is
akin. -/
structure Akin (m m' : Machine) : Prop where
  store : m.store.Akin m'.store
  frames : m'.frames = m.frames
  code : m'.code = m.code
  reader : m'.reader = m.reader
  config : m'.config = { m.config with useDependencies := false }
  tracking : m.config.useDependencies = true
  flush : m.config.flushOnCompletion = true
  disabled : m'.ledger.enabled = false

namespace Akin

variable {m m' n n' : Machine}

theorem congr (h : m.Akin m') (hn : n.gear = m.gear) (hn' : n'.gear = m'.gear)
    (henabled : n'.ledger.enabled = m'.ledger.enabled) : n.Akin n' := by
  simp only [gear, Prod.mk.injEq] at hn hn'
  obtain ⟨hstore, hframes, hcode, hreader, hconfig⟩ := hn
  obtain ⟨hstore', hframes', hcode', hreader', hconfig'⟩ := hn'
  refine ⟨?_, ?_, ?_, ?_, ?_, ?_, ?_, henabled.trans h.disabled⟩
  · rw [hstore, hstore']
    exact h.store
  · rw [hframes, hframes', h.frames]
  · rw [hcode, hcode', h.code]
  · rw [hreader, hreader', h.reader]
  · rw [hconfig, hconfig', h.config]
  · rw [hconfig]
    exact h.tracking
  · rw [hconfig]
    exact h.flush

theorem task_eq (h : m.Akin m') (task : Nat) : m'.context.task task = m.context.task task := by
  rw [Context.task, Context.task, context, context, h.store.context.tasks]

theorem constant_eq (h : m.Akin m') (index : Nat) :
    m'.context.constant index = m.context.constant index := by
  rw [Context.constant, Context.constant, context, context, h.store.context.constants]

theorem length_devices (h : m.Akin m') : m'.context.devices.length = m.context.devices.length :=
  h.store.context.length_eq

/-! ## Parts -/

theorem leads_inStore {T : Terms Store Fault} {x : StoreAction α} {y : StoreAction β}
    {V : α → β → Prop} (h : Goes T Store.Akin x y V) : Leads Akin (inStore x) (inStore y) V :=
  goes_focus h (fun _ _ hm => hm.store) (fun _ _ _ _ hm hs =>
    ⟨hs, hm.frames, hm.code, hm.reader, hm.config, hm.tracking, hm.flush, hm.disabled⟩) False.elim

theorem leads_onDevice {x : DeviceAction α} {y : DeviceAction β} {V : α → β → Prop}
    (h : Leads Station.Akin x y V) (index : Nat) :
    Leads Akin (onDevice index x) (onDevice index y) V :=
  leads_inStore (Store.Akin.leads_onDevice h index)

theorem log_left (h : m.Akin m') (level : Level) (text : String) :
    ((log level text).run m).2.Akin m' :=
  ⟨⟨h.store.context.withJournals _ _, h.store.table⟩, h.frames, h.code, h.reader,
    h.config, h.tracking, h.flush, h.disabled⟩

theorem log_right (h : m.Akin m') (level : Level) (text : String) :
    m.Akin ((log level text).run m').2 :=
  ⟨⟨h.store.context.withJournals _ _, h.store.table⟩, h.frames, h.code, h.reader,
    h.config, h.tracking, h.flush, h.disabled⟩

theorem leads_log (level : Level) (text : String) :
    Leads Akin (log level text) (log level text) Eq :=
  fun _ _ h => ⟨rfl, (h.log_left level text).log_right level text⟩

theorem leads_fetch (kind : PassKind) : Leads Akin (fetch kind) (fetch kind) Eq :=
  goes_fetch (fun _ => False.elim) (fun h => ⟨h.reader, by rw [h.config]⟩)
    (fun _ h => ⟨h.store, h.frames, h.code, rfl, h.config, h.tracking, h.flush, h.disabled⟩)
    (leads_log _) kind

/-- Without event lists there is nothing to wait for, whatever list is named. -/
theorem conduct : Conduct .lenient Akin fun _ _ => True where
  fault _ _ := False.elim
  length_devices := length_devices
  waitList list := by
    refine goes_get fun m m' h => leads_ofExcept fun _ _ => ⟨[], ?_, trivial⟩
    cases list with
    | none => rfl
    | some list => rw [EventLedger.waitList, h.disabled, if_neg Bool.false_ne_true]
  resetList list := by
    refine goes_get fun m m' h => ?_
    have hoff : m'.ledger.reset list = .ok m'.ledger := by
      cases list with
      | none => rfl
      | some list => rw [EventLedger.reset, h.disabled, if_neg Bool.false_ne_true]
    refine goes_bind (V := fun _ ledger => ledger.enabled = false)
      (leads_ofExcept fun _ _ => ⟨m'.ledger, hoff, h.disabled⟩) fun ledger ledger' hledger => ?_
    refine goes_modify fun n n' hn => ?_
    exact ⟨hn.store, hn.frames, hn.code, hn.reader, hn.config, hn.tracking, hn.flush, hledger⟩

/-! ## Launches -/

theorem leads_resolveCode (task device : Nat) :
    Leads Akin (resolveCode task device) (resolveCode task device) Eq := by
  refine goes_resolveCode (fun _ _ => False.elim) (fun {m m'} h => ?_) (fun {m m'} h => ?_)
    (fun h => congrArg (List.map Task.name) h.store.context.tasks)
    fun {m m' d d'} found write h hd hd' => ?_
  · rw [h.code, h.config]
    exact ⟨rfl, rfl, rfl⟩
  · refine ⟨?_, h.length_devices⟩
    rcases Context.agreement_akin.devices_or_none h.store.context device with
      ⟨d, d', hd, hd', hdd'⟩ | ⟨hd, hd'⟩
    · rw [context, context, hd, hd', Option.map_some, Option.map_some, hdd'.device.same.kernels_eq]
    · rw [context, context, hd, hd']
  · have hdevice := h.store.context.device hd hd'
    have hasked : (asked d).Akin (asked d') := by
      obtain ⟨hsame, hcommands, horderly, horderly'⟩ := hdevice
      obtain ⟨log, queue, counters, rfl⟩ := hsame
      exact ⟨⟨_, _, _, rfl⟩, hcommands, ⟨horderly.logged, horderly.eager⟩,
        ⟨horderly'.logged, horderly'.eager⟩⟩
    have hcontext :=
      h.store.context.withStation (s := ⟨asked d, m.context.objects, write m.context.journal⟩)
        (t := ⟨asked d', m'.context.objects, write m'.context.journal⟩)
        ⟨hasked, h.store.context.objects⟩ device
    refine ⟨⟨⟨hcontext.length_eq, hcontext.device, hcontext.objects, hcontext.constants, ?_,
      hcontext.places⟩, h.store.table⟩, h.frames,
      congrArg (CodeCache.tried · task device found) h.code, h.reader, h.config, h.tracking,
      h.flush, h.disabled⟩
    exact congrArg (List.modify · task fun t => t.bind device) h.store.context.tasks

theorem leads_putFrame (id : Nat) (f : CallFrame) : Leads Akin (putFrame id f) (putFrame id f) Eq :=
  goes_modify fun _ _ h => ⟨h.store, congrArg (FramePool.put · id f) h.frames, h.code, h.reader,
    h.config, h.tracking, h.flush, h.disabled⟩

theorem leads_resolveFrame (frame count : Nat) :
    Leads Akin (resolveFrame frame count) (resolveFrame frame count) Eq := by
  refine goes_get fun m m' h => ?_
  rw [h.frames, h.config]
  refine goes_then (leads_ofExcept fun a ha => ⟨a, ha, rfl⟩) fun a => ?_
  refine goes_then (goes_modify fun n n' hn => ?_) fun _ => goes_pure rfl
  exact ⟨hn.store, rfl, hn.code, hn.reader, hn.config, hn.tracking, hn.flush, hn.disabled⟩

theorem filling (frame device : Nat) :
    Filling .lenient Akin (fun _ => True) (fun _ => Eq) frame device where
  fault _ _ := False.elim
  constant index h := h.constant_eq index
  buffer object := leads_inStore (Store.agreement_akin.site object device).validBuffer
  label object := leads_inStore (Store.agreement_akin.label object)
  claim object := leads_inStore (Store.agreement_akin.site object device).claim
  push _ hf := hf ▸ alike_eq_iff.2 rfl
  overflow _ _ _ := False.elim
  put hf := hf ▸ leads_putFrame frame _

theorem leads_submitLaunch {entry : CacheEntry} {t t' : Task} (ht : t'.unbound = t.unbound)
    {frame device task : Nat} {events : Option Nat} {window : Option Window} {f : CallFrame} :
    Leads Akin (submitLaunch entry t frame device task events window f)
      (submitLaunch entry t' frame device task events window f) Eq := by
  refine conduct.submitLaunch (X := fun a b => b.2 = a.2) (fun _ _ => ?_)
    (fun hX => hX ▸ leads_putFrame frame _) fun h _ => ?_
  · rw [Task.name_eq ht]
    exact couples_weaken
      (leads_onDevice (Station.Akin.agrees_launch _ f _ window _ _).leads entry.device)
      (fun _ _ => id) fun _ _ _ _ h => ⟨h.1, h.2.congr rfl rfl rfl⟩
  · rw [pend, pend, Task.profiling_eq ht, h.config]
    split
    · exact goes_modify fun _ _ h => h.congr rfl rfl rfl
    · exact goes_pure rfl

theorem leads_launch (mode : PassMode) (frame device task : Nat) (events : Option Nat)
    (window : Option Window) (arguments : List Argument) :
    Leads Akin (launch mode frame device task events window arguments)
      (launch mode frame device task events window arguments) fun _ _ => True := by
  refine goes_launch (fun _ _ => False.elim)
    (fun h => Context.agreement_akin.alike_device h.store.context device)
    (leads_resolveCode task device)
    (goes_launchWith (G := Eq) (H := Eq) (fun _ => trivial) (fun _ _ => False.elim)
      (leads_resolveFrame frame arguments.length) (leads_log _) (fun h => ?_)
      (fun _ _ _ _ _ ht hf => ?_) fun _ _ _ _ _ _ ht hf => hf ▸ leads_submitLaunch ht)
  · rw [h.task_eq task]
    exact (alike_eq_iff.2 rfl).mono fun _ _ ht => ht ▸ rfl
  · exact hf ▸ (filling frame device).fillFrame ht rfl rfl rfl

/-! ## Instructions -/

/-- Without event lists ADD_DEP does nothing. -/
theorem leads_addDep (events : Nat) :
    Leads Akin (perform (.addDep events)) (perform (.addDep events)) fun _ _ => True := by
  have hoff : ∀ {m' : Machine}, m'.ledger.enabled = false →
      ∃ note, (perform (.addDep events)).run m' = (.ok note, m') := by
    intro m' hdisabled
    rw [run_addDep, hdisabled]
    cases m'.lastEvent with
    | none => exact ⟨_, rfl⟩
    | some event => exact ⟨_, rfl⟩
  refine couples_lenient_iff.2 fun m m' h note n hrun => ?_
  obtain ⟨note', hsame⟩ := hoff h.disabled
  refine ⟨note', m', hsame, trivial, ?_⟩
  have hkeeps : Keeps (fun n : Machine => n.Akin m') (perform (.addDep events)) :=
    keeps_perform_of_work (fun _ _ _ hn => hn.congr rfl rfl rfl) fun _ =>
      keeps_inStore_of_look fun _ => keeps_pure
  exact hkeeps.of_run hrun h

theorem leads_effect (mode : PassMode) (i : Instruction) :
    Leads Akin (effect mode i) (effect mode i) fun _ _ => True := by
  refine goes_effect (fun _ => trivial) (fun _ _ _ _ _ _ _ => leads_launch _ _ _ _ _ _ _)
    fun _ => ?_
  refine conduct.performs (E := fun _ _ => True) (fun _ => trivial) (fun wait wait' hwait => ?_)
    (fun _ h => h.congr rfl rfl rfl) fun list hi => hi ▸ leads_addDep list
  exact leads_inStore (i.goes_work Store.agreement_akin.site
    (fun _ => Store.agreement_akin.onDeviceOf (Station.Akin.agrees_marker _ _) 0) hwait)

theorem leads_runBody (mode : PassMode) (kind : PassKind) (fuel : Nat) :
    Leads Akin (runBody mode kind fuel) (runBody mode kind fuel) Eq := by
  refine goes_runBody (fun h => ⟨by rw [h.reader], False.elim⟩) (leads_fetch kind)
    (leads_effect mode) (fun i _ h => ?_) fuel
  unfold Machine.noted
  split
  · exact h.congr rfl rfl rfl
  · exact h

end Akin

/-! ## The end of a pass -/

namespace Akin

variable {m m' n n' : Machine}

/-- One device is waited for: on the one side there is a marker, on the other there is none. -/
theorem leads_settle_single {config : Config} (htracking : config.useDependencies = true)
    (hflush : config.flushOnCompletion = true) (barrier barrier' : Event) (device : Nat) :
    Leads Akin (settle config barrier [device])
      (settle { config with useDependencies := false } barrier' [device]) fun _ _ => True := by
  refine couples_lenient_iff.2 fun m m' h e n hrun => ?_
  rw [settle, awaitMarker, if_pos htracking, flushDevice, if_pos hflush] at hrun
  obtain ⟨e', m₂, hawait, hrest⟩ := run_bind_eq_ok.1 hrun
  obtain ⟨event, m₁, hmarker, hresolve⟩ := run_bind_eq_ok.1 hawait
  obtain ⟨u, m₃, hflushed, hlast⟩ := run_bind_eq_ok.1 hrest
  obtain ⟨-, rfl⟩ := Prod.mk.inj hlast
  have hturn : (onDevice device (do
      let event ← Station.marker []
      let _ ← Station.resolve event
      Station.flush)).run m = (.ok u, m₃) := by
    simp only [onDevice_bind]
    exact run_bind_eq_ok.2 ⟨event, m₁, hmarker, run_bind_eq_ok.2 ⟨e', m₂, hresolve, hflushed⟩⟩
  obtain ⟨u', n', hoff, -, hn⟩ := (leads_onDevice Station.Akin.leads_flush device).of_ok h hturn
  refine ⟨barrier', n', ?_, trivial, hn⟩
  rw [settle, awaitMarker, if_neg Bool.false_ne_true, flushDevice, if_pos hflush]
  exact run_bind_eq_ok.2 ⟨barrier', m', rfl, run_bind_eq_ok.2 ⟨u', n', hoff, rfl⟩⟩

theorem leads_settle {config : Config} (htracking : config.useDependencies = true)
    (hflush : config.flushOnCompletion = true) (barrier barrier' : Event) (devices : List Nat) :
    Leads Akin (settle config barrier devices)
      (settle { config with useDependencies := false } barrier' devices) fun _ _ => True := by
  induction devices generalizing barrier barrier' with
  | nil => exact goes_pure trivial
  | cons device others ih =>
    rw [← List.singleton_append, settle_append, settle_append]
    exact goes_bind (leads_settle_single htracking hflush barrier barrier' device)
      fun barrier barrier' _ => ih barrier barrier'

theorem settled (h : m.Akin m') {k : Nat} {barrier : Event} (hok : (m.settled k).1 = .ok barrier) :
    ∃ barrier', (m'.settled k).1 = .ok barrier' ∧ (m.settled k).2.Akin (m'.settled k).2 := by
  have hsettle := leads_settle h.tracking h.flush .empty .empty (List.range k)
  rw [← h.config] at hsettle
  obtain ⟨barrier', n', hrun, -, hn⟩ := hsettle.of_ok h (Prod.ext hok rfl)
  have hoff : m'.settled k = (.ok barrier', n') := hrun
  rw [hoff]
  exact ⟨barrier', rfl, hn⟩

end Akin

namespace Akin

variable {m m' n n' : Machine}

theorem orderly (h : m.Akin m') : ∀ d ∈ m.context.devices, d.Orderly := by
  intro d hd
  obtain ⟨index, hd⟩ := List.mem_iff_getElem?.1 hd
  rcases Context.agreement_akin.devices_or_none h.store.context index with
    ⟨d₁, d', hd₁, -, hakin⟩ | ⟨hnone, -⟩
  · cases hd.symm.trans hd₁
    exact hakin.device.orderly
  · cases hd.symm.trans hnone

theorem orderly' (h : m.Akin m') : ∀ d ∈ m'.context.devices, d.Orderly := by
  intro d hd
  obtain ⟨index, hd⟩ := List.mem_iff_getElem?.1 hd
  rcases Context.agreement_akin.devices_or_none h.store.context index with
    ⟨d₁, d', -, hd', hakin⟩ | ⟨-, hnone⟩
  · cases hd.symm.trans hd'
    exact hakin.device.orderly'
  · cases hd.symm.trans hnone

/-- Noting how a pass ended keeps machines akin, even if it has ended well on one side only. -/
theorem concluding (h : m.Akin m') (kind : PassKind) (result result' : Except Fault Event) :
    ((concluding .normal kind result).run m).2.Akin
      ((Machine.concluding .normal kind result').run m').2 := by
  have hleft : Keeps (Akin · m') (Machine.concluding .normal kind result) :=
    keeps_concluding_of_log
      (fun level text => meets_iff_after.2 fun n hn => hn.log_left level text)
      (fun n _ hn => hn.congr rfl rfl rfl) (fun n hn => hn.congr rfl rfl rfl) .normal kind result
  have hright : Keeps (Akin ((Machine.concluding .normal kind result).run m).2)
      (Machine.concluding .normal kind result') :=
    keeps_concluding_of_log
      (fun level text => meets_iff_after.2 fun n hn => hn.log_right level text)
      (fun n _ hn => hn.congr rfl rfl rfl) (fun n hn => hn.congr rfl rfl rfl) .normal kind result'
  exact meets_iff_after.1 hright m' (meets_iff_after.1 hleft m h)

theorem finish (h : m.Akin m') (hoffers : ∀ p ∈ m'.pending, m'.Offers p) {event : Event}
    (hrun : (finish.run m).1 = .ok event) :
    (finish.run m).2.Akin (Machine.finish.run m').2 ∧
      m'.CollectsTo m'.pending (Machine.finish.run m').1 := by
  obtain ⟨barrier, hok⟩ := settled_of_finish (Prod.ext hrun rfl)
  obtain ⟨barrier', hok', hsettled⟩ := h.settled hok
  rw [← h.length_devices] at hok'
  have hsettles' : m'.config.Settles := by
    rw [h.config]
    exact .inl h.flush
  obtain ⟨profiles, hon, -⟩ := run_finish (.inl h.flush) h.orderly hok
  obtain ⟨profiles', hoff, hcollects⟩ := run_finish hsettles' h.orderly' hok'
  rw [hon, hoff, h.length_devices]
  exact ⟨hsettled.congr rfl rfl rfl, hcollects hoffers⟩

/-- The end of a pass. If it succeeds with event lists, it succeeds without them, unless a device is
asked for the profile of an event that it does not have. -/
theorem closing (h : m.Akin m') (hoffers : ∀ p ∈ m'.pending, m'.Offers p) {kind : PassKind}
    {event : Event} (hrun : (closing .normal kind (.ok ())).run m = (.ok event, n)) :
    let done := (Machine.closing .normal kind (.ok ())).run m'
    n.Akin done.2 ∧ m'.CollectsTo m'.pending done.1 := by
  intro done
  have hrewound : m.rewound.Akin m'.rewound :=
    ⟨h.store, h.frames, h.code, congrArg Reader.reset h.reader, h.config, h.tracking,
      h.flush, h.disabled⟩
  have hcompletion : ∀ m : Machine,
      (completion .normal (.ok ())).run m = Machine.finish.run m.rewound := fun _ => rfl
  have hdone : done = (Machine.concluding .normal kind (Machine.finish.run m'.rewound).1).run
      (Machine.finish.run m'.rewound).2 := rfl
  rw [run_closing, hcompletion] at hrun
  have hfinish : (Machine.finish.run m.rewound).1 = .ok event := by
    rw [← outcome_concluding .normal kind (Machine.finish.run m.rewound).1, hrun]
  obtain ⟨hakin, houtcome⟩ := hrewound.finish hoffers hfinish
  have hn := hakin.concluding kind (Machine.finish.run m.rewound).1
    (Machine.finish.run m'.rewound).1
  rw [hrun, ← hdone] at hn
  refine ⟨hn, ?_⟩
  rw [hdone, outcome_concluding]
  exact houtcome

/-- A normal pass that succeeds with event lists, on the machine without them. -/
theorem runPass (h : m.Akin m') {kind : PassKind}
    (hoffers : ∀ p ∈ (m'.body .normal kind).2.pending, (m'.body .normal kind).2.Offers p)
    {event : Event} (hrun : (runPass .normal kind).run m = (.ok event, n)) :
    n.Akin ((Machine.runPass .normal kind).run m').2 ∧
      (m'.body .normal kind).2.CollectsTo (m'.body .normal kind).2.pending
        ((Machine.runPass .normal kind).run m').1 := by
  have hbegun : m.begun.Akin m'.begun := h.congr rfl rfl rfl
  rw [run_runPass] at hrun
  rcases hbody : m.body .normal kind with ⟨r, m₁⟩
  rw [hbody] at hrun
  cases r with
  | error fault =>
    have hfault := run_closing_error .normal kind fault m₁
    rw [hrun] at hfault
    cases hfault
  | ok _ =>
    obtain ⟨u, m₁', hbody', -, hakin⟩ :=
      (leads_runBody .normal kind m.reader.remaining).of_ok hbegun hbody
    rw [← h.reader] at hbody'
    have hoff : m'.body .normal kind = (.ok (), m₁') := hbody'
    rw [run_runPass, hoff]
    rw [hoff] at hoffers
    exact hakin.closing hoffers hrun

end Akin

end Machine

end Offload
