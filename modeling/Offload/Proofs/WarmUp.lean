import Offload.Proofs.Agreement
import Offload.Proofs.Outline

/-!
# Warm-up passes

A warm-up pass compiles and makes frames, and all else stays as it is, whether the pass ends well or
not. It compiles what a normal pass would compile: compilation depends on nothing that the other
work of a normal pass changes, so that a normal pass and a warm-up pass go through the same launches
with the same code.
-/

namespace Offload

open Offload.Action

variable {α : Type} {kind : PassKind} {m : Machine}

/-- A device but for the number of its compilations. -/
def Device.uncompiled (d : Device) : Device :=
  { d with counters := { d.counters with compilations := 0 } }

/-- A slot with code does not see what is done to a slot without. -/
theorem CodeCache.slot_modify_of_empty {c : CodeCache} {task task' : Nat} {slot : CodeSlot}
    (f : CodeSlot → CodeSlot) (hempty : c.get? task = none) (hslot : c.slots[task']? = some slot)
    (hentry : slot.entry.isSome) : (c.slots.modify task f)[task']? = some slot := by
  have hne : task ≠ task' := by
    rintro rfl
    simp [get?, hslot, Option.isSome_iff_ne_none.1 hentry] at hempty
  simp [hne, hslot]

namespace Machine

variable {m₀ : Machine}

/-- A machine after work that was no more than compilation: the devices, the objects and the table
are as they were, and so is all code that was there. -/
structure Undisturbed (m m' : Machine) : Prop where
  devices : m'.context.devices.map Device.uncompiled = m.context.devices.map Device.uncompiled
  objects : m'.context.objects = m.context.objects
  constants : m'.context.constants = m.context.constants
  places : m'.context.places = m.context.places
  table : m'.store.table = m.store.table
  config : m'.config = m.config
  header : m'.header = m.header
  timing : m'.timing = m.timing
  profiles : m'.profiles = m.profiles
  installed : ∀ (task : Nat) (slot : CodeSlot), m.code.slots[task]? = some slot →
    slot.entry.isSome → m'.code.slots[task]? = some slot

/-- A machine during a warm-up pass: the event lists too are as they were. -/
structure Warming (m₀ m : Machine) : Prop where
  undisturbed : m₀.Undisturbed m
  ledger : m.ledger = m₀.ledger

theorem Warming.refl (m : Machine) : m.Warming m :=
  ⟨⟨rfl, rfl, rfl, rfl, rfl, rfl, rfl, rfl, rfl, fun _ _ h _ => h⟩, rfl⟩

/-! ## What a warm-up pass does -/

/-- The task of a compilation has no code yet. -/
theorem keeps_warming_resolveCode (task device : Nat) :
    Keeps (Warming m₀) (resolveCode task device) := by
  refine keeps_resolveCode_of_compiled fun m d found journal hempty hd hm => ?_
  have hdevices : (m.context.devices.set device (asked d)).map Device.uncompiled =
      m.context.devices.map Device.uncompiled := map_set_of_eq hd rfl
  refine ⟨{ hm.undisturbed with
    devices := hdevices.trans hm.undisturbed.devices
    installed := fun task' slot hslot hentry => ?_ }, hm.ledger⟩
  have hkept := hm.undisturbed.installed task' slot hslot hentry
  cases found with
  | some code => exact CodeCache.slot_modify_of_empty _ hempty hkept hentry
  | none => exact CodeCache.slot_modify_of_empty _ hempty hkept hentry

theorem keeps_warming_resolveFrame (frame count : Nat) :
    Keeps (Warming m₀) (resolveFrame frame count) := by
  refine keeps_get fun m => keeps_bind keeps_ofExcept fun r => ?_
  refine keeps_bind (keeps_modify fun _ hm => ?_) fun _ => keeps_pure
  exact ⟨{ hm.undisturbed with }, hm.ledger⟩

theorem keeps_warming_effect (i : Instruction) : Keeps (Warming m₀) (effect .warmup i) := by
  cases i with
  | launch frame device task events window arguments =>
    refine keeps_get fun m => keeps_bind keeps_ofExcept fun _ => ?_
    refine keeps_bind (keeps_warming_resolveCode task device) fun code => ?_
    exact keeps_bind (keeps_warming_resolveFrame frame arguments.length) fun f =>
      keeps_pure
  | _ => exact keeps_pure

theorem keeps_warming_runBody (kind : PassKind) (fuel : Nat) :
    Keeps (Warming m₀) (runBody .warmup kind fuel) := by
  apply keeps_runBody_of_effect
  · refine meets_iff_after.2 fun m hm => ?_
    obtain ⟨reader, journal, hfetch⟩ := after_fetch kind m
    rw [hfetch]
    exact ⟨{ hm.undisturbed with }, hm.ledger⟩
  · exact keeps_warming_effect
  · intro i note m hm
    rw [noted]
    split_ifs
    · exact ⟨{ hm.undisturbed with }, hm.ledger⟩
    · exact hm

/-- A warm-up pass whose body went through goes back to the mark, and may write its trace. -/
theorem run_closing_warmup (kind : PassKind) (u : Machine) :
    ∃ journal, (closing .warmup kind (.ok ())).run u = (.ok .empty, { u with
      reader := u.reader.reset
      store := { u.store with context := { u.store.context with journal } } }) := by
  have hreport : (closing .warmup kind (.ok ())).run u =
      (do
        reportTrace .warmup kind
        return .empty : MachineAction Event).run { u with reader := u.reader.reset } := rfl
  rw [hreport, run_bind, reportTrace, run_bind, run_get]
  dsimp only
  split_ifs
  · exact ⟨_, rfl⟩
  · exact ⟨u.store.context.journal, rfl⟩

theorem meets_closing_warming (kind : PassKind) :
    Meets (Warming m₀) (closing .warmup kind (.ok ()))
      (fun event m => event = .empty ∧ Warming m₀ m) (fun _ => False) := by
  intro m hm
  obtain ⟨journal, hrun⟩ := run_closing_warmup kind m
  rw [hrun]
  exact ⟨rfl, { hm.undisturbed with }, hm.ledger⟩

/-- A warm-up pass whose body has failed empties the event lists. -/
theorem meets_closing_failed (kind : PassKind) (fault : Fault) :
    Meets (Warming m₀) (closing .warmup kind (.error fault)) (fun _ _ => False)
      (fun m => m₀.Undisturbed m ∧ m.ledger = m₀.ledger.clear) := by
  let Cleared (m : Machine) : Prop := m₀.Undisturbed m ∧ m.ledger = m₀.ledger.clear
  have hlog : ∀ level text, Keeps Cleared (log level text) := fun level text =>
    meets_iff_after.2 fun _ hm => ⟨{ hm.1 with }, hm.2⟩
  have hreport : Meets Cleared
      (do
        log .debug ("vm: " ++ kind.name ++ " pass aborted: " ++ fault.message)
        reportTrace .warmup kind
        throw fault : MachineAction Event)
      (fun _ _ => False) Cleared := by
    refine meets_bind (hlog _ _) fun _ => ?_
    refine meets_bind (Q := fun _ => Cleared) (meets_look fun m => ?_)
      fun _ => meets_throw fun _ => id
    split
    · exact hlog _ _
    · exact keeps_pure
  intro m hm
  have hcleared : Cleared { m with
      reader := m.reader.reset, ledger := m.ledger.clear, pending := [] } := by
    refine ⟨{ hm.undisturbed with }, ?_⟩
    rw [← hm.ledger]
  exact hreport _ hcleared

/-! ## What a warm-up pass compiles -/

/-- Two machines that decide alike about instructions, code and frames. -/
abbrev SamePlan (m m' : Machine) : Prop := m.plan = m'.plan

theorem tracks_plan_log (level : Level) (text : String) : Tracks SamePlan (log level text) :=
  goes_modify fun _ _ => id

theorem tracks_plan_fetch (kind : PassKind) : Tracks SamePlan (fetch kind) := by
  refine goes_fetch (fun _ => False.elim) (fun {m m'} h => ⟨(congrArg Plan.reader h).symm, ?_⟩)
    (fun reader h => congrArg (fun p : Plan => { p with reader }) h) (tracks_plan_log _) kind
  exact congrArg (fun p => p.config.debug) h.symm

theorem build_eq_of_samePlan {m' : Machine} (h : SamePlan m m') (index : Nat) :
    m.context.devices[index]?.map Device.build = m'.context.devices[index]?.map Device.build := by
  have hbuilds : m.context.devices.map Device.build = m'.context.devices.map Device.build :=
    congrArg (fun p => p.outline.builds) h
  rw [← List.getElem?_map, ← List.getElem?_map, hbuilds]

/-- The outcome of a compilation depends on the kernels of the device. -/
theorem tracks_plan_resolveCode (task device : Nat) :
    Tracks SamePlan (resolveCode task device) := by
  refine goes_resolveCode (fun _ _ => False.elim) (fun {m m'} h => ?_) (fun {m m'} h => ⟨?_, ?_⟩)
    (fun h => congrArg (fun p => p.outline.tasks.map Task.name) h.symm)
    fun {m m' d d'} found write h hd hd' => ?_
  · have hcode : m.code = m'.code := congrArg Plan.code h
    have hconfig : m.config = m'.config := congrArg Plan.config h
    rw [hcode, hconfig]
    exact ⟨rfl, rfl, rfl⟩
  · have hbuild := congrArg (Option.map Device.Build.kernels) (build_eq_of_samePlan h device)
    rw [Option.map_map, Option.map_map] at hbuild
    exact hbuild.symm
  · simpa [plan, Context.outline] using congrArg (fun p => p.outline.builds.length) h.symm
  · exact (plan_compiled hd _ _).trans (h ▸ (plan_compiled hd' _ _).symm)

theorem leads_plan_resolveFrame (frame count : Nat) :
    Leads SamePlan (resolveFrame frame count) (resolveFrame frame count) fun _ _ => True := by
  have hkept : ∀ m, ((resolveFrame frame count).run m).2.plan = m.plan := fun m =>
    (frameKeeps_plan (P := (· = m.plan)).resolve frame count).after rfl (fun _ _ h => h.1) fun _ =>
      id
  refine couples_lenient_iff.2 fun m m' h f m₁ hrun => ?_
  have hframes : m.frames.slots.length = m'.frames.slots.length := congrArg Plan.frames h
  obtain ⟨frames, hfound, -⟩ := resolve_of_resolveFrame hrun
  have hresolve : ∃ r, m.frames.resolve frame count m.config.redeployOnDevice = .ok r := ⟨_, hfound⟩
  rw [FramePool.exists_resolve_iff, hframes] at hresolve
  obtain ⟨r, hr⟩ := FramePool.exists_resolve_iff.2 hresolve
  have hrun' : (resolveFrame frame count).run m' = (.ok r.1, { m' with frames := r.2 }) := by
    rw [resolveFrame, run_bind, run_get]
    dsimp only
    rw [hr]
    rfl
  refine ⟨_, _, hrun', trivial, ?_⟩
  have hplan := hkept m
  have hplan' := hkept m'
  rw [hrun] at hplan
  rw [hrun'] at hplan'
  exact hplan.trans (h.trans hplan'.symm)

/-- What leaves the plan alone may be left out. -/
theorem leads_plan_pure {α β : Type} {x : MachineAction α} {b : β} (hx : ∀ P, Keeps (PlanOf P) x) :
    Leads SamePlan x (pure b) fun _ _ => True := by
  refine couples_lenient_iff.2 fun m m' h a m₁ hrun => ⟨b, m', rfl, trivial, ?_⟩
  have hkept : PlanOf (· = m.plan) m₁ := Keeps.of_run (hx _) hrun rfl
  exact hkept.trans h

/-- Where a normal pass gets through a launch, a warm-up pass does so too, with the same code. -/
theorem leads_plan_launch (frame device task : Nat) (events : Option Nat) (window : Option Window)
    (arguments : List Argument) :
    Leads SamePlan (launch .normal frame device task events window arguments)
      (launch .warmup frame device task events window arguments) fun _ _ => True := by
  refine goes_get fun m m' h => goes_bind (V := fun _ _ => True) (leads_ofExcept fun d hd => ?_)
    fun _ _ _ => ?_
  · have hbuild := build_eq_of_samePlan h device
    rw [lookup_eq_ok.1 hd] at hbuild
    obtain ⟨d', hd', -⟩ := Option.map_eq_some_iff.1 hbuild.symm
    exact ⟨d', lookup_eq_ok.2 hd', trivial⟩
  · refine goes_then (tracks_plan_resolveCode task device) fun code => ?_
    refine goes_bind (leads_plan_resolveFrame frame _) fun f f' _ => leads_plan_pure fun P => ?_
    -- What a normal launch does once it has its code and its frame leaves the plan alone.
    rw [if_neg nofun]
    cases code with
    | none => exact keeps_bind (keeps_plan_log _ _) fun _ => keeps_pure
    | some entry =>
      refine keeps_get fun m => keeps_bind keeps_ofExcept fun t => ?_
      refine keeps_bind (keeps_plan_fillFrame _ _ _ _ _) fun f => ?_
      exact keeps_bind (keeps_plan_submitLaunch _ _ _ _ _ _ _ _) fun _ => keeps_pure

/-- Where a normal pass gets through an instruction, a warm-up pass does so too. -/
theorem leads_plan_effect (i : Instruction) :
    Leads SamePlan (effect .normal i) (effect .warmup i) fun _ _ => True := by
  cases i with
  | launch => exact leads_plan_launch _ _ _ _ _ _
  | _ =>
    dsimp only [effect]
    rw [if_pos rfl, if_neg nofun]
    exact leads_plan_pure fun _ => keeps_plan_perform _

theorem plan_noted (mode : PassMode) (i : Instruction) (note : Option Note) (m : Machine) :
    (m.noted mode i note).plan = m.plan := by
  rw [noted]
  split_ifs
  · rfl
  · rfl

/-- Where a normal pass gets through a body, a warm-up pass does so too. -/
theorem leads_plan_runBody (kind : PassKind) (fuel : Nat) :
    Leads SamePlan (runBody .normal kind fuel) (runBody .warmup kind fuel) Eq := by
  refine goes_runBody (fun {m m'} h => ⟨?_, False.elim⟩) (tracks_plan_fetch kind) leads_plan_effect
    (fun i _ h => ?_) fuel
  · have hreader : m.reader = m'.reader := congrArg Plan.reader h
    rw [hreader]
  · rw [SamePlan, plan_noted, plan_noted, h]

/-! ## Together -/

theorem body_of_runPass {m₁ : Machine} {event : Event}
    (hrun : (runPass .normal kind).run m = (.ok event, m₁)) : (m.body .normal kind).1 = .ok () :=
  body_of_closing (congrArg Prod.fst hrun)

theorem warming_body (kind : PassKind) (m : Machine) : Warming m (m.body .warmup kind).2 := by
  have hbegun : Warming m m.begun := ⟨{ (Warming.refl m).undisturbed with }, rfl⟩
  exact meets_iff_after.1 (keeps_warming_runBody kind _) _ hbegun

theorem run_warmup_of_ok (hbody : (m.body .warmup kind).1 = .ok ()) :
    ∃ m', (runPass .warmup kind).run m = (.ok .empty, m') ∧ Warming m m' := by
  have hclosing := meets_closing_warming kind _ (warming_body kind m)
  rw [run_runPass, hbody]
  revert hclosing
  rcases (closing .warmup kind (.ok ())).run (m.body .warmup kind).2 with ⟨r, m'⟩
  intro hclosing
  cases r with
  | error fault => exact hclosing.elim
  | ok event =>
    obtain ⟨rfl, hwarming⟩ := hclosing
    exact ⟨m', rfl, hwarming⟩

theorem run_warmup_of_error {fault : Fault} (hbody : (m.body .warmup kind).1 = .error fault) :
    ∃ fault' m', (runPass .warmup kind).run m = (.error fault', m') ∧ m.Undisturbed m' ∧
      m'.ledger = m.ledger.clear := by
  have hclosing := meets_closing_failed kind fault _ (warming_body kind m)
  rw [run_runPass, hbody]
  revert hclosing
  rcases (closing .warmup kind (.error fault)).run (m.body .warmup kind).2 with ⟨r, m'⟩
  intro hclosing
  cases r with
  | ok event => exact hclosing.elim
  | error fault' => exact ⟨fault', m', rfl, hclosing⟩

/-- A normal pass that ends well and the warm-up pass in its place leave the same code and tasks. -/
theorem run_warmup_of_normal {m₁ : Machine} {event : Event}
    (hrun : (runPass .normal kind).run m = (.ok event, m₁)) :
    ∃ m₂, (runPass .warmup kind).run m = (.ok .empty, m₂) ∧ SamePlan m₁ m₂ := by
  have hnormal : (runBody .normal kind m.reader.remaining).run m.begun =
      (.ok (), (m.body .normal kind).2) := Prod.ext (body_of_runPass hrun) rfl
  obtain ⟨_, m', hbody, -, hsame⟩ := (leads_plan_runBody kind _).of_ok rfl hnormal
  have hok : (m.body .warmup kind).1 = .ok () := congrArg Prod.fst hbody
  obtain ⟨m₂, hwarmup, -⟩ := run_warmup_of_ok hok
  refine ⟨m₂, hwarmup, ?_⟩
  have hplan := plan_closing .normal kind (m.body .normal kind).1 (m.body .normal kind).2
  have hplan' := plan_closing .warmup kind (m.body .warmup kind).1 (m.body .warmup kind).2
  rw [← run_runPass, hrun] at hplan
  rw [← run_runPass, hwarmup] at hplan'
  have hend : (m.body .warmup kind).2 = m' := congrArg Prod.snd hbody
  have hreader : (m.body .normal kind).2.reader = m'.reader := congrArg Plan.reader hsame
  rw [SamePlan, hplan, hplan', hend, hsame, hreader]

/-- A warm-up pass does no work but compilation. However it ends, the devices, the objects, the
table, the timing, the profiles and all code that was there are as they were; the event lists are
too if the pass ends well, and they are empty if it does not. It ends well whenever a normal pass
would, and leaves the code and the bindings of the tasks that the normal pass would leave. -/
theorem runPass_warmup (kind : PassKind) (m : Machine) :
    m.Undisturbed ((runPass .warmup kind).after m) ∧
      ((runPass .warmup kind).after m).ledger =
        (if ((runPass .warmup kind).outcome m).isOk then m.ledger else m.ledger.clear) ∧
      (∀ list ∈ m.ledger.clear.lists, list = []) ∧
      ∀ event m₁, (runPass .normal kind).run m = (.ok event, m₁) →
        ∃ m₂, (runPass .warmup kind).run m = (.ok .empty, m₂) ∧ m₂.code = m₁.code ∧
          m₂.context.tasks = m₁.context.tasks := by
  have hends : m.Undisturbed ((runPass .warmup kind).run m).2 ∧
      ((runPass .warmup kind).run m).2.ledger =
        (if ((runPass .warmup kind).run m).1.isOk then m.ledger else m.ledger.clear) := by
    cases hbody : (m.body .warmup kind).1 with
    | ok u =>
      obtain ⟨m', hrun, hwarming⟩ := run_warmup_of_ok hbody
      rw [hrun]
      exact ⟨hwarming.undisturbed, hwarming.ledger⟩
    | error fault =>
      obtain ⟨fault', m', hrun, hundisturbed, hledger⟩ := run_warmup_of_error hbody
      rw [hrun]
      exact ⟨hundisturbed, hledger⟩
  refine ⟨hends.1, hends.2, m.ledger.lists_clear, fun event m₁ hrun => ?_⟩
  obtain ⟨m₂, hwarmup, hsame⟩ := run_warmup_of_normal hrun
  have hcode : m₁.code = m₂.code := congrArg Plan.code hsame
  have htasks : m₁.context.tasks = m₂.context.tasks := congrArg (fun p => p.outline.tasks) hsame
  exact ⟨m₂, hwarmup, hcode.symm, htasks.symm⟩

/-- Two launches of one task: the warm-up pass compiles it once for the second device, as a normal
pass does, and submits nothing. -/
theorem runPass_warmup_twice :
    let p : Program := ⟨⟨2, 1, 0, [0, 1]⟩,
      [.transfer .copyIn 0 1 none none, .launch 0 1 0 none none [.reference 0],
        .launch 0 1 0 none none [.reference 0], .finish]⟩
    let c : Context := {
      devices := [{ name := "d0" }, { name := "d1" }]
      objects := [⟨"a", [1, 0, 0, 0]⟩]
      constants := []
      tasks := [{ name := "add_one", accesses := [.readWrite] }] }
    ∃ m c' event m₁ m₂, (create p.encode {}).run c = (.ok m, c') ∧
      (runPass .normal .plain).run m = (.ok event, m₁) ∧
      (m₁.code.get? 0).map CacheEntry.device = some 1 ∧
      (runPass .warmup .plain).run m = (.ok .empty, m₂) ∧ m₂.code = m₁.code ∧
      m₂.context.tasks = m₁.context.tasks := by
  intro p c
  have hread : (((create p.encode {}).outcome c).toOption.map fun m =>
      (((runPass .normal .plain).outcome m).toOption.isSome,
        (((runPass .normal .plain).after m).code.get? 0).map CacheEntry.device)) =
      some (true, some 1) := by
    decide +kernel
  obtain ⟨m, c', hm, hread⟩ := Action.exists_run_of_read hread
  obtain ⟨hok, hdevice⟩ := Prod.mk.inj hread
  obtain ⟨event, hevent⟩ := Option.isSome_iff_exists.1 hok
  have hrun : (runPass .normal .plain).run m = (.ok event, (runPass .normal .plain).after m) :=
    Prod.ext (eq_ok_of_toOption hevent) rfl
  obtain ⟨m₂, hwarmup, hcode, htasks⟩ := (runPass_warmup .plain m).2.2.2 event _ hrun
  exact ⟨m, c', event, _, m₂, hm, hrun, hdevice, hwarmup, hcode, htasks⟩

end Machine

end Offload
