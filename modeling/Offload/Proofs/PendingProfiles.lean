import Offload.Proofs.Outline
import Offload.Proofs.RunOrder

/-!
# Profiles of launches

At the end of a normal pass the events of its launches are looked up, each on the device that the
launch has named. When nothing waits on the devices, this adds profiles and does nothing else. The
event of a launch was issued by the device for which its code was compiled. So a look-up fails only
if that is not the device that the launch has named, and then two launches of the task have named
different devices.
-/

namespace Offload

open Offload.Action

variable {α : Type} {m : Machine} {d : Device}

/-! ## Looking events up -/

theorem Station.run_resolve_of_queue {s : Station} (h : s.device.queue = []) (event : EventId) :
    (resolve event).run s =
      ((s.device.event? event).elim (.error (.unknownEvent event)) .ok, s) := by
  simp only [resolve, inspect, run_bind, run_get, Device.isQueued, h, List.any_nil,
    Bool.false_eq_true, if_false]
  cases s.device.event? event <;> rfl

theorem Device.exists_event?_of_lt {event : EventId} (h : event < d.log.size) :
    ∃ e, d.event? event = some e := by
  obtain ⟨r, hr⟩ := EventLog.exists_get? h
  exact ⟨_, by rw [event?, hr]; rfl⟩

namespace Context

theorem withStation_self {c : Context} {index : Nat} (hd : c.devices[index]? = some d) :
    c.withStation index ⟨d, c.objects, c.journal⟩ = c := by
  have hset : c.devices.set index d = c.devices := by
    obtain ⟨hlt, rfl⟩ := List.getElem?_eq_some_iff.1 hd
    exact List.set_getElem_self hlt
  rw [withStation, hset]

theorem Records.has {K : EventKind → List EventId → Prop} {index : Nat} {event : EventId}
    {c c' : Context} (h : c.Records K index c' event) : c'.Has index event := by
  obtain ⟨d, d', kind, wait, -, hd', -, -, hissued⟩ := h
  have hlt := (List.getElem?_eq_some_iff.1 hissued).1
  exact has_iff.2 ⟨d', hd', by simpa [EventLog.issued] using hlt⟩

end Context

namespace Machine

theorem run_resolve_of_queues (h : ∀ d ∈ m.context.devices, d.queue = []) {index : Nat}
    (hd : m.context.devices[index]? = some d) (event : EventId) :
    (onDevice index (Station.resolve event)).run m =
      ((d.event? event).elim (.error (.device (.unknownEvent event))) .ok, m) := by
  have hqueue := h d (List.mem_of_getElem? hd)
  have hcontext : (Context.onDevice index (Station.resolve event)).run m.context =
      ((d.event? event).elim (.error (.device (.unknownEvent event))) .ok, m.context) := by
    rw [Context.run_onDevice _ hd, Station.run_resolve_of_queue hqueue, Context.withStation_self hd]
    cases d.event? event <;> rfl
  rw [onDevice, inStore, Store.inContext, run_focus, run_focus]
  rw [show (Context.onDevice index (Station.resolve event)).run m.store.context = _ from hcontext]
  rfl

/-- The task and the device of a profile are there. -/
def Offers (m : Machine) (p : PendingProfile) : Prop :=
  p.task < m.context.tasks.length ∧ p.device < m.context.devices.length

/-- Taking a list of profiles may have this outcome: all is well, or a device does not have the
event of one of them. -/
def CollectsTo (m : Machine) (pending : List PendingProfile) (r : Except Fault α) : Prop :=
  (∃ a, r = .ok a) ∨ ∃ p ∈ pending, r = .error (.device (.unknownEvent p.event)) ∧
    ¬ m.context.Has p.device p.event

theorem CollectsTo.cons {others : List PendingProfile} {r : Except Fault α}
    (h : m.CollectsTo others r) (p : PendingProfile) : m.CollectsTo (p :: others) r := by
  obtain hok | ⟨q, hq, hfault⟩ := h
  · exact .inl hok
  · exact .inr ⟨q, List.mem_cons_of_mem p hq, hfault⟩

theorem run_collect_cons_none {p : PendingProfile} (hd : m.context.devices[p.device]? = none)
    (others : List PendingProfile) :
    (collect (p :: others)).run m =
      (.error (.indexOutOfRange .device p.device m.context.devices.length), m) := by
  have hresolve : (onDevice p.device (Station.resolve p.event)).run m =
      (.error (.indexOutOfRange .device p.device m.context.devices.length), m) := by
    rw [onDevice, inStore, Store.inContext, run_focus, run_focus]
    rw [Context.run_onDevice_none (c := m.store.context) _ hd]
    rfl
  rw [collect, run_bind, hresolve]

/-- With nothing waiting, taking profiles adds to the profiles at most. It fails only for an event
that the device does not have. -/
theorem run_collect_of_queues (h : ∀ d ∈ m.context.devices, d.queue = [])
    (pending : List PendingProfile) :
    ∃ r profiles, (collect pending).run m = (r, { m with profiles }) ∧
      ((∀ p ∈ pending, m.Offers p) → m.CollectsTo pending r) := by
  induction pending generalizing m with
  | nil => exact ⟨.ok (), m.profiles, rfl, fun _ => .inl ⟨(), rfl⟩⟩
  | cons p others ih =>
    cases hd : m.context.devices[p.device]? with
    | none =>
      refine ⟨_, m.profiles, run_collect_cons_none hd others, fun hvalid => ?_⟩
      have hlt := (hvalid p List.mem_cons_self).2
      rw [List.getElem?_eq_none_iff] at hd
      omega
    | some d =>
      have hresolve := run_resolve_of_queues h hd p.event
      cases he : d.event? p.event with
      | none =>
        rw [he] at hresolve
        refine ⟨_, m.profiles, by rw [collect, run_bind, hresolve]; rfl, fun _ => ?_⟩
        refine .inr ⟨p, List.mem_cons_self, rfl, fun hhas => ?_⟩
        obtain ⟨d', hd', hlt⟩ := Context.has_iff.1 hhas
        cases hd.symm.trans hd'
        obtain ⟨e, he'⟩ := Device.exists_event?_of_lt hlt
        rw [he] at he'
        cases he'
      | some e =>
        rw [he] at hresolve
        have hothers : ∀ profiles, ∃ r profiles', (collect others).run { m with profiles } =
            (r, { m with profiles := profiles' }) ∧
            ((∀ q ∈ p :: others, m.Offers q) → m.CollectsTo (p :: others) r) := by
          intro profiles
          obtain ⟨r, profiles', hrun, houtcome⟩ := ih (m := { m with profiles }) h
          refine ⟨r, profiles', hrun, fun hvalid => ?_⟩
          exact CollectsTo.cons (houtcome (List.forall_mem_cons.1 hvalid).2) p
        rw [collect, run_bind, hresolve]
        dsimp only [Option.elim]
        split
        · rw [run_bind, run_get]
          dsimp only
          cases ht : m.context.task p.task with
          | ok t => exact hothers (m.profiles ++ [⟨p.task, t.name, p.device, p.event, e.span⟩])
          | error fault =>
            refine ⟨.error fault, m.profiles, rfl, fun hvalid => ?_⟩
            have hlt := (hvalid p List.mem_cons_self).1
            rw [Context.task, lookup, List.getElem?_eq_getElem hlt] at ht
            cases ht
        · exact hothers m.profiles

/-! ## Where profiles come from -/

/-- Since `m` no profile has been added, and the tasks and the configuration are the same. -/
structure Unprofiled (m m' : Machine) : Prop where
  profiles : m'.profiles = m.profiles
  pending : m'.pending = m.pending
  tasks : m'.context.tasks.map Task.unbound = m.context.tasks.map Task.unbound
  config : m'.config = m.config

end Machine

/-- The task and the device of a launch that was submitted. -/
def Deed.submitted? : Deed → Option (Nat × Nat)
  | .instruction _ i (.ok none) => i.launched?
  | .instruction _ _ (.ok (some _)) | .instruction _ _ (.error _) | .ending .. | .invalidation =>
    none

theorem Deed.submitted?_of_launched? {mode : PassMode} {i : Instruction} (h : i.launched? = none)
    (outcome : Except Fault (Option Note)) :
    (Deed.instruction mode i outcome).submitted? = none := by
  rcases outcome with fault | (_ | note)
  · rfl
  · exact h
  · rfl

/-- The profile of a launch of a profiled task. Its event is the last one once it is submitted. -/
def Moment.profile? (x : Moment) : Option LaunchProfile :=
  x.deed.submitted?.bind fun l => (x.before.context.tasks[l.1]?.filter Task.profiling).bind fun t =>
    x.after.lastEvent.map fun event => ⟨l.1, t.name, l.2, event, {}⟩

def LaunchProfile.pending (q : LaunchProfile) : PendingProfile := ⟨q.task, q.device, q.event⟩

/-- What a moment adds to the profiles that are to be taken: that of its launch, whose event it has
recorded at the home of the task. -/
structure Moment.Noted (x : Moment) : Prop where
  profiles : x.after.profiles = x.before.profiles
  tasks : x.after.context.tasks.map Task.unbound = x.before.context.tasks.map Task.unbound
  config : x.after.config = x.before.config
  pending : x.after.pending = x.before.pending ++
    if x.before.config.profiling then (x.profile?.map LaunchProfile.pending).toList else []
  launches : ∀ q, x.profile? = some q → x.Launches q.task q.device ∧
    q.device < x.before.context.devices.length ∧ ∃ t, x.before.context.tasks[q.task]? = some t ∧
    t.name = q.name
  records : ∀ q, x.profile? = some q → ∀ c : Context, c.Later x.before.context →
    c.Records (fun _ _ => True) (x.before.home q.task q.device) x.after.context q.event

namespace Machine

section Launches

theorem Unprofiled.noted {x : Moment} (h : x.before.Unprofiled x.after)
    (hnone : x.deed.submitted? = none) :
    x.Noted := by
  have hnone : x.profile? = none := by rw [Moment.profile?, hnone, Option.bind_none]
  refine ⟨h.profiles, h.tasks, h.config, by simp [hnone, h.pending], fun q hq => ?_, fun q hq => ?_⟩
  · cases hnone.symm.trans hq
  · cases hnone.symm.trans hq

theorem keeps_unprofiled_inStore {x : StoreAction α} (hx : ∀ O, Keeps (Store.OutlineOf O) x) :
    Keeps m.Unprofiled (inStore x) := by
  have hplan : Keeps (PlanOf fun p =>
      p.outline.tasks.map Task.unbound = m.context.tasks.map Task.unbound ∧ p.config = m.config)
        (inStore x) := keeps_plan_inStore hx
  refine meets_iff_after.2 fun m' hm' => ?_
  obtain ⟨htasks, hconfig⟩ := meets_iff_after.1 hplan m' ⟨hm'.tasks, hm'.config⟩
  exact ⟨hm'.profiles, hm'.pending, htasks, hconfig⟩

theorem keeps_unprofiled_resolveCode (task device : Nat) :
    Keeps m.Unprofiled (resolveCode task device) := by
  refine keeps_resolveCode_of_install ?_ (fun name => ?_) fun _ _ _ hm' =>
    ⟨hm'.profiles, hm'.pending, hm'.tasks, hm'.config⟩
  · refine meets_iff_after.2 fun m' hm' => ⟨hm'.profiles, hm'.pending, ?_, hm'.config⟩
    exact (Task.map_unbound_modify ..).trans hm'.tasks
  · exact keeps_unprofiled_inStore fun _ =>
      Store.keeps_outline_onDevice fun _ => Station.keeps_build_install name

theorem keeps_unprofiled_perform (i : Instruction) : Keeps m.Unprofiled (perform i) :=
  keeps_perform_of_work (fun _ _ _ hm' => ⟨hm'.profiles, hm'.pending, hm'.tasks, hm'.config⟩)
    fun wait => keeps_unprofiled_inStore fun _ => Store.keeps_outline_work i wait

theorem noted_launch (m : Machine) (mode : PassMode) (frame device task : Nat) (events : Option Nat)
    (window : Option Window) (arguments : List Argument) :
    (Moment.carry mode (.launch frame device task events window arguments) m).Noted := by
  rcases hrun : (launch mode frame device task events window arguments).run m with ⟨r, m'⟩
  rw [Moment.carry, show (effect mode (.launch frame device task events window arguments)).run m =
    _ from hrun]
  have hcode : ∀ {v m₁}, (resolveCode task device).run m = (v, m₁) → m.Unprofiled m₁ :=
    fun hfound => (keeps_unprofiled_resolveCode task device).of_run hfound ⟨rfl, rfl, rfl, rfl⟩
  obtain ⟨m₁, hfound, ⟨frames, table, journal, rfl⟩, hr⟩ |
    ⟨entry, m₁, t, m₂, f, v, hfound, ht, -, haside, rfl, hsubmit⟩ :=
    (launching_of_run hrun).cases_submitted
  · have hnone : Deed.submitted?
        (.instruction mode (.launch frame device task events window arguments) r) =
        none := by
      cases r with
      | error fault => rfl
      | ok note => obtain ⟨-, rfl⟩ | rfl := hr note rfl <;> rfl
    refine Unprofiled.noted ?_ hnone
    obtain rfl | ⟨v, hfound⟩ := hfound
    · exact ⟨rfl, rfl, rfl, rfl⟩
    · obtain ⟨hprofiles, hpending, htasks, hconfig⟩ := hcode hfound
      exact ⟨hprofiles, hpending, htasks, hconfig⟩
  · obtain ⟨t₀, ht₀, hunbound⟩ := Task.exists_of_map_unbound (hcode hfound).tasks ht
    have hm₂ : m.Unprofiled m₂ := by
      obtain ⟨hprofiles, hpending, htasks, hconfig⟩ := hcode hfound
      obtain ⟨frames, table, journal, rfl⟩ := haside
      exact ⟨hprofiles, hpending, htasks, hconfig⟩
    have hkept : ∀ {wait r s}, (Store.inContext (Context.onDevice entry.device
        (Station.launch entry.code f t.name window wait))).run m₂.store = (r, s) →
        m.Unprofiled { m₂ with store := s } := fun {wait r s} hx =>
      (keeps_unprofiled_inStore fun _ => Store.keeps_outline_onDevice fun _ =>
        Station.upkeep_build.launch entry.code f t.name window wait).of_run
          (by rw [inStore, run_focus, hx]) hm₂
    rcases submitLaunch_cases entry t frame device task events window f m₂ with
      ⟨e, -, hs⟩ | ⟨wait, -, ⟨e, s, hx, hs⟩ | ⟨r, s, ledger, hx, -, hs⟩⟩
    · cases hsubmit.symm.trans hs
      exact hm₂.noted rfl
    · cases hsubmit.symm.trans hs
      exact (hkept hx).noted rfl
    · obtain ⟨rfl, hm'⟩ := Prod.mk.inj (hsubmit.symm.trans hs)
      obtain ⟨hprofiles, hpending, htasks, hconfig⟩ := hkept hx
      obtain ⟨d, hd⟩ := exists_device_of_launch (congrArg Prod.fst hrun)
      have hlast : m'.lastEvent = some r.1 := hm' ▸ rfl
      let x : Moment :=
        ⟨.instruction mode (.launch frame device task events window arguments) (.ok none), m, m'⟩
      change x.Noted
      have hprofile : x.profile? = if t₀.profiling then some
          ⟨task, t₀.name, device, r.1, {}⟩ else none := by
        rw [Moment.profile?, Deed.submitted?, Instruction.launched?, Option.bind_some, ht₀,
          Option.filter_some, hlast]
        split_ifs <;> rfl
      have hafter : x.after = _ := hm'
      refine ⟨by rw [hafter]; exact hprofiles, by rw [hafter]; exact htasks,
        by rw [hafter]; exact hconfig, ?_, fun q hq => ?_, fun q hq c hlater => ?_⟩
      · rw [hprofile, hafter, hm₂.config, Task.profiling_eq hunbound, hm₂.pending]
        cases m.config.profiling <;> cases t₀.profiling <;> simp [x, LaunchProfile.pending]
      all_goals
        rw [hprofile] at hq
        split_ifs at hq
        cases hq
      · exact ⟨⟨_, _, _, _, _, _, rfl⟩, (List.getElem?_eq_some_iff.1 hd).1, t₀, ht₀, rfl⟩
      · have hcompiled := Since.of_reframed (W := fun _ => True) (.inr ⟨_, hfound⟩) haside
        rw [hafter, show x.before.home task device = _ from
          (resolving_of_run hfound).device_eq.symm]
        exact (Store.meets_inContext
          (Context.meets_onDevice_records (Station.issues_launch trivial entry.code f t.name window)
            c)).of_ok hx (hlater.trans hcompiled.moves.ended)

theorem noted_carry (mode : PassMode) (i : Instruction) (m : Machine) :
    (Moment.carry mode i m).Noted := by
  cases i with
  | launch frame device task events window arguments =>
    exact noted_launch m mode frame device task events window arguments
  | _ =>
    refine Unprofiled.noted ?_ (Deed.submitted?_of_launched? rfl _)
    cases mode with
    | warmup => exact ⟨rfl, rfl, rfl, rfl⟩
    | normal =>
      dsimp only [Moment.carry, effect]
      rw [if_pos rfl]
      exact meets_iff_after.1 (keeps_unprofiled_perform _) m ⟨rfl, rfl, rfl, rfl⟩

end Launches

/-! ## The end of a pass -/

/-- Waiting for the devices leaves the profiles that are to be taken. -/
theorem unprofiled_settled (m : Machine) (k : Nat) : m.Unprofiled (m.settled k).2 := by
  have hdevice : ∀ {γ : Type} {x : DeviceAction γ}, (∀ B, Keeps (Station.BuildOf B) x) →
      ∀ index, Keeps m.Unprofiled (onDevice index x) := fun hx index =>
    keeps_unprofiled_inStore fun _ => Store.keeps_outline_onDevice hx
  have hsettle : Keeps m.Unprofiled (settle m.config .empty (List.range k)) :=
    upholds_settle_of_devices
      (fun index _ => hdevice (fun _ => Station.upkeep_build.marker []) index)
      (fun index _ event => hdevice (fun _ => Station.upkeep_build.resolve event) index)
      (fun index _ => hdevice (fun _ => Station.upkeep_build.flush) index) m.config .empty
  exact meets_iff_after.1 hsettle m ⟨rfl, rfl, rfl, rfl⟩

theorem settled_of_finish {n : Machine} {event : Event} (h : finish.run m = (.ok event, n)) :
    ∃ barrier, (m.settled m.context.devices.length).1 = .ok barrier := by
  cases hsettled : (m.settled m.context.devices.length).1 with
  | ok barrier => exact ⟨barrier, rfl⟩
  | error fault => cases (run_finish_of_error hsettled).symm.trans h

theorem queues_settled (hsettles : m.config.Settles) (horderly : ∀ d ∈ m.context.devices, d.Orderly)
    {barrier : Event} (hok : (m.settled m.context.devices.length).1 = .ok barrier) :
    ∀ d ∈ (m.settled m.context.devices.length).2.context.devices, d.queue = [] := by
  intro d hd
  obtain ⟨index, hd⟩ := List.mem_iff_getElem?.1 hd
  have hlength := (later_settled m m.context.devices.length).length_eq
  exact queue_settled hsettles horderly hok ((List.getElem?_eq_some_iff.1 hd).1.trans_eq hlength) hd

theorem run_finish (hsettles : m.config.Settles) (horderly : ∀ d ∈ m.context.devices, d.Orderly)
    {barrier : Event} (hok : (m.settled m.context.devices.length).1 = .ok barrier) :
    ∃ profiles, (finish.run m).2 =
        { (m.settled m.context.devices.length).2 with pending := [], profiles } ∧
      ((∀ p ∈ m.pending, m.Offers p) → m.CollectsTo m.pending (finish.run m).1) := by
  have hlater := later_settled m m.context.devices.length
  have hsame := unprofiled_settled m m.context.devices.length
  have hqueues := queues_settled hsettles horderly hok
  have hrun := run_finish_of_ok hok
  rw [hsame.pending] at hrun
  generalize (m.settled m.context.devices.length).2 = n at hlater hsame hqueues hrun
  obtain ⟨r, profiles, hcollect, hcollects⟩ :=
    run_collect_of_queues (m := { n with pending := [] }) hqueues m.pending
  have hfinish : finish.run m = (r.map fun _ => barrier, { n with pending := [], profiles }) := by
    rw [hrun, run_bind, hcollect]
    cases r <;> rfl
  rw [hfinish]
  refine ⟨profiles, rfl, fun hoffers => ?_⟩
  have hthere : ∀ p ∈ m.pending, Offers { n with pending := [] } p := by
    intro p hp
    obtain ⟨htask, hdevice⟩ := hoffers p hp
    exact ⟨htask.trans_eq (Task.length_eq hsame.tasks).symm, hdevice.trans_eq hlater.length_eq.symm⟩
  obtain ⟨u, rfl⟩ | ⟨p, hp, rfl, hnot⟩ := hcollects hthere
  · exact .inl ⟨barrier, rfl⟩
  · exact .inr ⟨p, hp, rfl, fun hhas => hnot (hhas.later hlater)⟩

end Machine

/-! ## Sessions -/

/-- Launches of one task have named two devices. -/
def Moment.Scattered (past : List Moment) : Prop :=
  ∃ x ∈ past, ∃ y ∈ past, ∃ task device other,
    x.Launches task device ∧ y.Launches task other ∧ device ≠ other

theorem Moment.Scattered.mono {past past' : List Moment} (h : Scattered past)
    (hpast : ∀ x ∈ past, x ∈ past') : Scattered past' := by
  obtain ⟨x, hx, y, hy, hdevices⟩ := h
  exact ⟨x, hpast x hx, y, hpast y hy, hdevices⟩

/-- A profile that is to be taken: of a launch that has named its device, with an event of a device
that a launch of the same task has named. -/
structure PendingProfile.Due (past : List Moment) (m : Machine) (p : PendingProfile) : Prop where
  offered : m.Offers p
  profiling : m.config.profiling = true
  launched : ∃ y ∈ past, y.Launches p.task p.device
  issued : ∃ home, m.context.Has home p.event ∧ ∃ y ∈ past, y.Launches p.task home

namespace PendingProfile.Due

variable {past past' : List Moment} {m' : Machine} {p : PendingProfile}

theorem later (h : p.Due past m) (hpast : ∀ y ∈ past, y ∈ past')
    (htasks : m'.context.tasks.length = m.context.tasks.length) (hconfig : m'.config = m.config)
    (hlater : m.context.Later m'.context) : p.Due past' m' := by
  obtain ⟨⟨htask, hdevice⟩, hprofiling, ⟨y, hy, hlaunches⟩, home, hhas, z, hz, hhome⟩ := h
  refine ⟨⟨?_, ?_⟩, ?_, ⟨y, hpast y hy, hlaunches⟩, home, hhas.later hlater, z, hpast z hz, hhome⟩
  · rw [htasks]
    exact htask
  · rw [hlater.length_eq]
    exact hdevice
  · rw [hconfig]
    exact hprofiling

/-- An event that is looked up in vain is on another device, and a launch of the task has named that
one. -/
theorem scattered (h : p.Due past m) (hnot : ¬ m.context.Has p.device p.event) :
    Moment.Scattered past := by
  obtain ⟨x, hx, hlaunches⟩ := h.launched
  obtain ⟨home, hhas, y, hy, hhome⟩ := h.issued
  refine ⟨x, hx, y, hy, p.task, p.device, home, hlaunches, hhome, fun heq => hnot ?_⟩
  rw [heq]
  exact hhas

end PendingProfile.Due

namespace Machine

/-- All profiles that a machine is to take are due, and its code is traced. -/
structure Accountable (past : List Moment) (m : Machine) : Prop where
  traced : Traced past m
  due : ∀ p ∈ m.pending, p.Due past m

theorem pending_closing (mode : PassMode) (kind : PassKind) (body : Except Fault Unit)
    (m : Machine) :
    ∀ p ∈ ((closing mode kind body).run m).2.pending, p ∈ m.pending := by
  have hkeeps : Keeps (fun m' => ∀ p ∈ m'.pending, p ∈ m.pending) (closing mode kind body) :=
    keeps_closing_of_rest (fun _ _ _ _ _ _ => id) (fun _ _ => nofun) mode kind body
  exact meets_iff_after.1 hkeeps m fun _ => id

/-- What was due stays due, and the launch of the moment leaves a profile that is due. -/
theorem Accountable.due_after {past : List Moment} {x : Moment} (h : Accountable past x.before)
    (hx : x.Noted) (hlater : x.before.context.Later x.after.context) :
    ∀ p ∈ x.after.pending, p.Due (past ++ [x]) x.after := by
  intro p hp
  rw [hx.pending] at hp
  rcases List.mem_append.1 hp with hold | hnew
  · exact (h.due p hold).later (fun y hy => List.mem_append_left _ hy) (Task.length_eq hx.tasks)
      hx.config hlater
  · split_ifs at hnew with hprofiling
    · obtain ⟨q, hq, rfl⟩ := Option.map_eq_some_iff.1 (Option.mem_toList.1 hnew)
      obtain ⟨hlaunches, hdevice, t, ht, -⟩ := hx.launches q hq
      refine ⟨⟨?_, hdevice.trans_eq hlater.length_eq.symm⟩, hx.config ▸ hprofiling,
        ⟨x, List.mem_append_right _ (List.mem_singleton_self _), hlaunches⟩, _,
        (hx.records q hq _ (.refl _)).has, h.traced.home hlaunches⟩
      exact (List.getElem?_eq_some_iff.1 ht).1.trans_eq (Task.length_eq hx.tasks).symm
    · cases hnew

theorem lasting_accountable : Lasting Accountable := by
  refine lasting_of_aside (fun _ _ _ _ _ h => ⟨h.traced, fun p hp => ?_⟩)
    (fun mode i h =>
      ⟨lasting_traced.carry mode i h.traced, h.due_after (noted_carry mode i _)
        (fresh_effect mode i _).later⟩)
    (fun {past m} mode kind body h =>
      ⟨lasting_traced.close mode kind body h.traced, fun p hp => ?_⟩)
    fun h => ⟨lasting_traced.forget h.traced, fun p hp => ?_⟩
  · exact (h.due p hp).later (fun _ => id) rfl rfl ((Context.Moves.refl _).congr rfl)
  · have hplan := plan_closing mode kind body m
    have hlater : m.context.Later ((closing mode kind body).run m).2.context :=
      (moves_closing mode kind body m).mono (fun _ _ => trivial) fun _ => id
    refine (h.due p (pending_closing mode kind body m p hp)).later
      (fun y hy => List.mem_append_left _ hy) ?_ ?_ hlater
    · exact congrArg (fun plan : Plan => plan.outline.tasks.length) hplan
    · exact congrArg Plan.config hplan
  · exact (h.due p hp).later (fun y hy => List.mem_append_left _ hy) rfl rfl (.refl _)

theorem accountable_create {code : Bytes} {config : Config} {c c' : Context}
    (hm : (create code config).run c = (.ok m, c')) : Accountable [] m := by
  refine ⟨traced_create hm, ?_⟩
  obtain ⟨header, reader, rfl⟩ := eq_initial_of_create hm
  exact nofun

end Machine

end Offload
