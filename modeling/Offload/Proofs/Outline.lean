import Offload.Proofs.DeviceViews
import Offload.Proofs.LaunchDevice
import Offload.Proofs.LaunchRules

/-!
# What work on devices leaves alone

The operations of a device change its memory, its log, its queue and its counters, and nothing else.
So the instructions of a pass, launches apart from their compilation, leave alone all that
compilation depends on: the kernels of the devices, the tasks, the code and the configuration.
-/

namespace Offload

open Offload.Action

variable {α : Type}

/-- What no operation changes about a device. -/
structure Device.Build where
  name : String
  options : DeviceOptions
  kernels : Registry
  loaded : Bool

def Device.build (d : Device) : Build := ⟨d.name, d.options, d.kernels, d.loaded⟩

/-! ## Devices -/

namespace Station

variable {B : Device.Build → Prop}

/-- What is known of the build of a device. -/
abbrev BuildOf (B : Device.Build → Prop) (s : Station) : Prop := B s.device.build

theorem aloof_build : Device.Aloof Device.build := fun _ _ _ _ _ _ _ => rfl

theorem upkeep_build : Upkeep (BuildOf B) := upkeep_seen aloof_build

/-- A compilation is counted, and that is not a matter of the build. -/
theorem keeps_build_install (task : String) : Keeps (BuildOf B) (install task) :=
  keeps_install_of_count (keeps_modify fun _ => id) task

end Station

/-! ## Stores -/

/-- What no operation of a store changes about its context. -/
structure Context.Outline where
  builds : List Device.Build
  constants : List Scalar
  tasks : List Task
  places : List Nat

namespace Context

def outline (c : Context) : Outline := ⟨c.devices.map Device.build, c.constants, c.tasks, c.places⟩

end Context

namespace Store

variable {O : Context.Outline → Prop}

/-- What is known of the outline of a store. -/
abbrev OutlineOf (O : Context.Outline → Prop) (s : Store) : Prop := O s.context.outline

/-- The outline is a matter of the builds of the devices. -/
abbrev ofView (O : Context.Outline → Prop) (v : Context.View Device.Build) : Prop :=
  O ⟨v.devices, v.constants, v.tasks, v.places⟩

theorem keeps_outline_onDevice {index : Nat} {x : DeviceAction α}
    (hx : ∀ B, Keeps (Station.BuildOf B) x) :
    Keeps (OutlineOf O) (inContext (Context.onDevice index x)) :=
  keeps_view_onDevice (C := ofView O) hx

theorem keeps_outline_log (level : Level) (text : String) :
    Keeps (OutlineOf O) (log level text) :=
  meets_iff_after.2 fun _ => id

/-- The operations of a store leave its outline alone. -/
theorem upkeep_outline : Upkeep (fun _ => True) (OutlineOf O) (OutlineOf O) :=
  upkeep_view (C := ofView O) Station.aloof_build _

theorem keeps_outline_work (i : Instruction) (wait : List EventId) :
    Keeps (OutlineOf O) (i.work wait) :=
  upkeep_outline.work (fun wait _ => keeps_outline_onDevice fun _ =>
    Station.upkeep_build.marker wait) i trivial

theorem keeps_outline_claim (object device : Nat) :
    Keeps (OutlineOf O) (claim object device) :=
  upkeep_outline.claim object device

end Store

/-! ## Machines -/

namespace Machine

/-- What decides about the instructions that a pass reads, and about the code and the frames of its
launches. -/
structure Plan where
  outline : Context.Outline
  config : Config
  reader : Reader
  code : CodeCache
  frames : Nat

def plan (m : Machine) :
    Plan := ⟨m.context.outline, m.config, m.reader, m.code, m.frames.slots.length⟩

/-- The plan after a compilation, which has or has not found a kernel. -/
def Plan.tried (p : Plan) (task device : Nat) (found : Option InstalledCode) : Plan :=
  { p with
    outline := { p.outline with tasks := p.outline.tasks.modify task fun t => t.bind device }
    code := p.code.tried task device found }

theorem plan_compiled {m : Machine} {task device : Nat} {d : Device}
    (hd : m.context.devices[device]? = some d) (found : Option InstalledCode) (journal : Journal) :
    (m.compiled task device d found journal).plan = m.plan.tried task device found := by
  have hbuilds : (m.context.devices.set device (asked d)).map Device.build =
      m.context.devices.map Device.build :=
    map_set_of_eq hd rfl
  exact congrArg (fun builds => { m.plan.tried task device found with
    outline := { (m.plan.tried task device found).outline with builds } }) hbuilds

variable {P : Plan → Prop}

/-- What is known of the plan of a machine. -/
abbrev PlanOf (P : Plan → Prop) (m : Machine) : Prop := P m.plan

theorem keeps_plan_inStore {x : StoreAction α} (hx : ∀ O, Keeps (Store.OutlineOf O) x) :
    Keeps (PlanOf P) (inStore x) := by
  refine meets_focus fun m hm => ?_
  refine meets_weaken (hx fun o => P { m.plan with outline := o }) ?_ (fun _ _ => id)
    fun _ => id
  rintro _ rfl
  exact hm

theorem keeps_plan_onDevice {index : Nat} {x : DeviceAction α}
    (hx : ∀ B, Keeps (Station.BuildOf B) x) : Keeps (PlanOf P) (onDevice index x) :=
  keeps_plan_inStore fun _ => Store.keeps_outline_onDevice hx

theorem keeps_plan_log (level : Level) (text : String) : Keeps (PlanOf P) (log level text) :=
  keeps_plan_inStore fun _ => Store.keeps_outline_log level text

theorem keeps_plan_resetList (list : Option Nat) : Keeps (PlanOf P) (resetList list) :=
  keeps_get fun _ => keeps_bind keeps_ofExcept fun _ =>
    keeps_modify fun _ => id

theorem PlanOf.reframed {m : Machine} {frames : FramePool} (hm : m.PlanOf P)
    (hlength : frames.slots.length = m.frames.slots.length) : PlanOf P { m with frames } := by
  have hplan : { m with frames }.plan = m.plan := by simp [plan, hlength, context]
  rwa [PlanOf, hplan]

/-- Once a launch has its code, it leaves the plan alone. -/
theorem frameKeeps_plan : FrameKeeps (PlanOf P) fun _ => True where
  log := keeps_plan_log
  claim object device := keeps_plan_inStore fun _ => Store.keeps_outline_claim object device
  put id f _ := keeps_modify fun m hm => hm.reframed (by simp [FramePool.put])
  resolve := meets_resolveFrame (fun _ => trivial) (fun _ _ _ _ => trivial)
    fun _ _ hm _ hlength => hm.reframed hlength
  reset _ _ := trivial
  push _ _ _ _ _ := trivial
  submit _ code f name window wait _ :=
    meets_post (keeps_plan_onDevice fun _ => Station.upkeep_build.launch code f name window wait)
      fun _ _ hm => ⟨hm, trivial⟩
  lists := keeps_plan_resetList
  aside _ _ hm := hm

theorem keeps_plan_fillFrame (t : Task) (frame device : Nat) (arguments : List Argument)
    (f : CallFrame) : Keeps (PlanOf P) (fillFrame t frame device arguments f) :=
  meets_post (frameKeeps_plan.fillFrame t frame device arguments trivial) fun _ _ hm => hm.1

theorem keeps_plan_submitLaunch (entry : CacheEntry) (t : Task) (frame device task : Nat)
    (events : Option Nat) (window : Option Window) (f : CallFrame) :
    Keeps (PlanOf P) (submitLaunch entry t frame device task events window f) :=
  frameKeeps_plan.submitLaunch entry t frame device task events window trivial

theorem keeps_plan_perform (i : Instruction) : Keeps (PlanOf P) (perform i) :=
  keeps_perform_of_work (fun _ _ _ => id) fun wait =>
    keeps_plan_inStore fun _ => Store.keeps_outline_work i wait

theorem endKeeps_plan : EndKeeps (PlanOf P) where
  marker _ := keeps_plan_onDevice fun _ => Station.upkeep_build.marker []
  resolve _ event := keeps_plan_onDevice fun _ => Station.upkeep_build.resolve event
  flush _ := keeps_plan_onDevice fun _ => Station.upkeep_build.flush
  emptied _ hm := hm
  profiled _ _ hm := hm

/-- At the end of a pass the reader goes back to the mark. -/
theorem plan_closing (mode : PassMode) (kind : PassKind) (body : Except Fault Unit) (m : Machine) :
    ((closing mode kind body).run m).2.plan = { m.plan with reader := m.reader.reset } := by
  let Back : Machine → Prop := PlanOf (· = { m.plan with reader := m.reader.reset })
  have hcompletion : Meets (· = m) (completion mode body) (fun _ => Back) Back := by
    refine meets_bind (Q := fun _ => Back) (meets_modify fun _ hm => hm ▸ rfl) fun _ => ?_
    refine keeps_bind keeps_ofExcept fun _ => ?_
    cases mode with
    | normal => exact endKeeps_plan.finish
    | warmup => exact keeps_pure
  have hclosing : Meets (· = m) (closing mode kind body) (fun _ => Back) Back := by
    refine meets_attempt_bind hcompletion (fun event => ?_) fun fault => ?_
    all_goals
      refine keeps_bind ?_ fun _ => keeps_bind (keeps_get fun m => ?_) fun _ =>
        keeps_ofExcept
    · rw [conclude]
      split
      · exact keeps_modify fun _ => id
      · exact keeps_pure
    · split
      · exact keeps_plan_log _ _
      · exact keeps_pure
    · exact keeps_bind (keeps_modify fun _ => id) fun _ => keeps_plan_log _ _
    · split
      · exact keeps_plan_log _ _
      · exact keeps_pure
  exact meets_iff_after.1 hclosing m rfl

end Machine

end Offload
