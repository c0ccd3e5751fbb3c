import Offload.Proofs.DeferredPass

/-!
# Sessions on a deferred device

One context, run once with an eager device and once with a deferred one. The machines that are made
over the two are abreast from the start and stay so through every request that succeeds on the eager
device, and machines that are abreast differ in nothing but the switch. So a session that succeeds
on the eager device succeeds on the deferred one, with the same outcomes and the same machine after
every request.
-/

namespace Offload

open Offload.Action

namespace Machine

/-- The machines stay abreast for as long as the eager one succeeds. -/
theorem session_abreast {requests : List Request} {e m : Machine} (h : Abreast e m)
    (hok : ∀ outcome ∈ (session requests e).1, outcome.isOk = true) :
    (session requests m).1 = (session requests e).1 ∧
      Abreast (session requests e).2 (session requests m).2 := by
  induction requests generalizing e m with
  | nil => exact ⟨rfl, h⟩
  | cons request others ih =>
    rcases hserve : (serve request).run e with ⟨outcome, e'⟩
    simp only [session, hserve, List.mem_cons, forall_eq_or_imp] at hok ⊢
    cases outcome with
    | error fault => cases hok.1
    | ok event =>
      -- The machines are abreast again, which is what the next request starts from.
      obtain ⟨_, m', hserve', rfl, habreast⟩ := (tracks_serve request).of_ok h hserve
      obtain ⟨houtcomes, hlast⟩ := ih habreast hok.2
      simp only [hserve', houtcomes, true_and]
      exact hlast

end Machine

/-! ## The same context, deferred or not -/

def Device.withDeferred (d : Device) (deferred : Bool) : Device :=
  { d with options := { d.options with deferred } }

/-- The context with all of its devices deferred, or all of them eager. -/
def Context.withDeferred (c : Context) (deferred : Bool) : Context :=
  { c with devices := c.devices.map fun d => d.withDeferred deferred }

/-- The machine with all of its devices deferred, or all of them eager. -/
def Machine.withDeferred (m : Machine) (deferred : Bool) : Machine :=
  { m with store := { m.store with context := m.store.context.withDeferred deferred } }

theorem Machine.objects_withDeferred (m : Machine) (deferred : Bool) :
    (m.withDeferred deferred).context.objects = m.context.objects := rfl

namespace Device

variable {d : Device} {objects : List HostObject}

theorem settled_withDeferred (hqueue : d.queue = []) :
    (d.withDeferred true).settled ⟨d.memory, objects, d.log⟩ = d.withDeferred false := by
  rw [settled, withDeferred, withDeferred, ← hqueue]

theorem withDeferred_settled (hqueue : d.queue = []) (hdeferred : d.options.deferred = true) :
    (d.settled ⟨d.memory, objects, d.log⟩).withDeferred true = d := by
  rw [settled, withDeferred, ← hqueue, ← hdeferred]

end Device

/-- A context of one device with nothing in its queue is abreast of itself. -/
theorem Context.single_abreast {c : Context} {d : Device} (hdevice : c.devices = [d])
    (hqueue : d.queue = []) :
    Single (Station.Abreast d.nextBuffer) (c.withDeferred false) (c.withDeferred true) := by
  refine ⟨d.withDeferred false, c.objects, c.journal, d.withDeferred true, ?_, ?_, ?_⟩
  · rw [withDeferred, hdevice]
    rfl
  · have habreast := Station.Abreast.of_queue (s := ⟨d.withDeferred true, c.objects, c.journal⟩) rfl
      rfl hqueue
    have hstation : Station.settled ⟨d.withDeferred true, c.objects, c.journal⟩
        ⟨d.memory, c.objects, d.log⟩ = ⟨d.withDeferred false, c.objects, c.journal⟩ := by
      rw [Station.settled, Device.settled_withDeferred hqueue]
    rw [← hstation]
    exact habreast
  · rw [withDeferred, hdevice]
    rfl

namespace Machine

/-- Machines that are abreast are the same but for the switch. -/
theorem Abreast.eq {e m : Machine} (h : Abreast e m) :
    m = e.withDeferred true ∧ ∀ d ∈ m.context.devices, d.queue = [] := by
  obtain ⟨n, store, ⟨context, ⟨d', objects, journal, d, hd, habreast, rfl⟩, -, rfl⟩, -, -, rfl⟩ := h
  have hqueue : d.queue = [] := habreast.2
  cases habreast.eq
  obtain ⟨⟨_, hlags, -⟩, -⟩ := habreast
  have hdeferred : d.options.deferred = true := hlags.deferred
  refine ⟨?_, ?_⟩
  · have hdevice : (d.settled ⟨d.memory, m.context.objects, d.log⟩).withDeferred true = d :=
      Device.withDeferred_settled hqueue hdeferred
    have hcontext : m.store.context = { m.store.context with devices := [d] } := by rw [← hd]
    rw [← hdevice] at hcontext
    exact congrArg (fun context => { m with store := { m.store with context } }) hcontext
  · intro d₀ hd₀
    rw [show m.context.devices = [d] from hd] at hd₀
    rw [List.mem_singleton.1 hd₀]
    exact hqueue

theorem tracks_load {n : BufferId} (indices : List Nat) :
    Tracks (Context.Single (Station.Abreast n)) (load indices) := by
  induction indices with
  | nil => exact goes_pure rfl
  | cons index others ih =>
    refine goes_then (Context.couples_single Station.tracks_load) fun _ => goes_get ?_
    rintro e c ⟨d', objects, journal, d, hd, habreast, rfl⟩
    refine goes_bind (V := fun d' d : Device => d'.name = d.name) (leads_ofExcept fun a ha => ?_)
      fun a b hname => ?_
    · cases index with
      | succ index => cases ha
      | zero =>
        cases ha
        refine ⟨d, by rw [Context.device, hd]; rfl, ?_⟩
        rw [(Station.mk.inj habreast.eq).1]
        rfl
    · rw [hname]
      refine goes_then (goes_modify ?_) fun _ => ih
      rintro e c ⟨d', objects, journal, d, hd, habreast, rfl⟩
      exact ⟨d', objects, _, d, hd, (Station.steady_abreast n).journal habreast fun j =>
        j.add _ _, rfl⟩

theorem tracks_start {n : BufferId} (code : Bytes) :
    Tracks (Context.Single (Station.Abreast n)) (start code) := by
  rw [start]
  split
  · rename_i header reader _
    refine goes_then (goes_pure rfl) fun start => goes_get fun e c hec => ?_
    have hcheck : start.1.check e = start.1.check c := by
      have hdevices := hec.length_devices
      obtain ⟨_, _, _, _, _, _, rfl⟩ := hec
      rw [Header.check, ← hdevices, Header.check]
    rw [hcheck]
    exact goes_then tracks_ofExcept fun _ => goes_then (tracks_load _) fun _ => goes_pure rfl
  · exact goes_throw_bind fun _ _ _ => False.elim

theorem create_abreast {code : Bytes} {config : Config} {n : BufferId} {e c e' : Context}
    {m : Machine} (habreast : Context.Single (Station.Abreast n) e c) (hconfig : config.Settles)
    (hm : (create code config).run e = (.ok m, e')) :
    ∃ m' c', (create code config).run c = (.ok m', c') ∧ Abreast m m' := by
  obtain ⟨⟨header, reader⟩, e', hstart, hm⟩ := run_bind_eq_ok.1 hm
  obtain ⟨hvalue, rfl⟩ := Prod.mk.inj hm
  cases hvalue
  obtain ⟨_, c', hstart', rfl, habreast'⟩ := (tracks_start code).of_ok habreast hstart
  refine ⟨initial c' config header reader, c', run_bind_eq_ok.2 ⟨_, c', hstart', rfl⟩, ?_⟩
  have hdevices := habreast'.length_devices
  refine ⟨n, .new e', ⟨e', habreast', .new _ _, ?_⟩, FramePool.all_new _ _, hconfig, rfl⟩
  obtain ⟨_, _, _, _, _, _, rfl⟩ := habreast'
  rw [Store.new, ← hdevices]
  rfl

/-- A deferred device computes what an eager device computes. Take a context of one device with
nothing in its queue, any program, and a configuration that flushes the device or waits for a marker
at the end of a pass. If every request of a session succeeds while the device is eager, then the
session on the deferred device has the same outcomes, and after every request the machine is the
same in all its parts, with nothing left in the queue. -/
theorem session_withDeferred {code : Bytes} {config : Config} {c c' : Context} {d : Device}
    {m : Machine} {requests : List Request} (hdevice : c.devices = [d]) (hqueue : d.queue = [])
    (hconfig : config.flushOnCompletion = true ∨ config.useDependencies = true)
    (hm : (create code config).run (c.withDeferred false) = (.ok m, c'))
    (hok : ∀ outcome ∈ (session requests m).1, outcome.isOk = true) :
    (create code config).outcome (c.withDeferred true) = .ok (m.withDeferred true) ∧
      ∀ served, served <+: requests →
        session served (m.withDeferred true) =
          ((session served m).1, (session served m).2.withDeferred true) ∧
        ∀ d ∈ (session served (m.withDeferred true)).2.context.devices, d.queue = [] := by
  obtain ⟨m', c'', hm', habreast⟩ :=
    create_abreast (Context.single_abreast hdevice hqueue) hconfig hm
  obtain ⟨rfl, -⟩ := habreast.eq
  refine ⟨congrArg Prod.fst hm', ?_⟩
  rintro served ⟨others, rfl⟩
  have hserved : ∀ outcome ∈ (session served m).1, outcome.isOk = true := by
    intro outcome houtcome
    apply hok outcome
    rw [session_append]
    exact List.mem_append_left _ houtcome
  obtain ⟨houtcomes, hend⟩ := session_abreast habreast hserved
  exact ⟨Prod.ext houtcomes hend.eq.1, hend.eq.2⟩

/-- A warm-up pass and two normal passes that add one to a word on the deferred device. The read
that brings the word back does not block; the marker at the end of the pass makes it run. -/
theorem session_withDeferred_add_one :
    let p : Program := ⟨⟨1, 1, 0, [0]⟩,
      [.transfer .copyIn 0 0 none none, .launch 0 0 0 none none [.reference 0],
        .transfer (.streamOut false) 0 0 none none, .finish]⟩
    let c : Context := {
      devices := [{ name := "d" }]
      objects := [⟨"a", [1, 0, 0, 0]⟩]
      constants := []
      tasks := [{ name := "add_one", accesses := [.readWrite] }] }
    let config : Config := { useDependencies := true, flushOnCompletion := false }
    let requests : List Request :=
      [.pass .warmup .plain, .pass .normal .plain, .invalidate, .pass .normal .plain]
    ∃ m c', (create p.encode config).run (c.withDeferred false) = (.ok m, c') ∧
      (create p.encode config).outcome (c.withDeferred true) = .ok (m.withDeferred true) ∧
      (session requests (m.withDeferred true)).1 = (session requests m).1 ∧
      (session requests (m.withDeferred true)).2.context.objects.map HostObject.bytes =
        [[3, 0, 0, 0]] := by
  intro p c config requests
  have hrun : (match (create p.encode config).run (c.withDeferred false) with
      | (.ok m, _) => ((session requests m).1.all Except.isOk,
        (session requests m).2.context.objects.map HostObject.bytes)
      | _ => (false, [])) = (true, [[3, 0, 0, 0]]) := by
    decide +kernel
  rcases hm : (create p.encode config).run (c.withDeferred false) with ⟨r, c'⟩
  rw [hm] at hrun
  cases r with
  | error fault => cases hrun
  | ok m =>
    obtain ⟨hall, hobjects⟩ := Prod.mk.inj hrun
    obtain ⟨hcreate, hsession⟩ := session_withDeferred (c := c) rfl rfl (Or.inr rfl) hm
      (List.all_eq_true.1 hall)
    have hserved := (hsession requests List.prefix_rfl).1
    refine ⟨m, c', rfl, hcreate, ?_, ?_⟩
    · rw [hserved]
    · rw [hserved, objects_withDeferred]
      exact hobjects

end Machine

end Offload
