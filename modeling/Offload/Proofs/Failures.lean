import Offload.Proofs.PendingProfiles

/-!
# No failure is lost

A normal pass that succeeds has run no command that failed, not even one that an earlier pass had
left in a queue, and it leaves no command waiting if the configuration makes it wait for the
devices. Both follow from the moves of a device: an operation that succeeds makes only moves in
which commands do their work.
-/

namespace Offload

open Offload.Action

open EventStatus (Succeeded)

namespace Machine

/-- A normal pass that succeeds: its body has ended, all devices have been waited for, and the
profiles have been taken. -/
theorem finished_of_runPass {kind : PassKind} {event : Event} {m m' : Machine}
    (hpass : (runPass .normal kind).run m = (.ok event, m')) :
    ∃ n n', m.body .normal kind = (.ok (), n) ∧
      (closing .normal kind (.ok ())).run n = (.ok event, m') ∧
      finish.run n.rewound = (.ok event, n') := by
  rw [run_runPass] at hpass
  rcases hbody : m.body .normal kind with ⟨r, n⟩
  rw [hbody] at hpass
  cases r with
  | error fault =>
    have hfault := run_closing_error .normal kind fault n
    rw [hpass] at hfault
    cases hfault
  | ok u =>
    have houtcome := outcome_concluding .normal kind (finish.run n.rewound).1
      (finish.run n.rewound).2
    have hclosing : (concluding .normal kind (finish.run n.rewound).1).run
        (finish.run n.rewound).2 = (.ok event, m') := hpass
    rw [hclosing] at houtcome
    exact ⟨n, (finish.run n.rewound).2, rfl, hpass, Prod.ext houtcome.symm rfl⟩

/-- No failure of a device is lost. In a normal pass that succeeds, after any session over any
devices, every command that was run has done its work, also one that an earlier pass had left
waiting; all other events are as they were. If the pass waits for the devices at its end, nothing
waits any longer. -/
theorem runPass_complete {code : Bytes} {config : Config} {c c' : Context} {m m' : Machine}
    (hc : ∀ d ∈ c.devices, d.Orderly) (hm : (create code config).run c = (.ok m, c'))
    (requests : List Request) {kind : PassKind} {event : Event}
    (hpass : (runPass .normal kind).run (session requests m).2 = (.ok event, m')) :
    m'.context.devices.length = (session requests m).2.context.devices.length ∧
    ∀ (index : Nat) (d d' : Device), (session requests m).2.context.devices[index]? = some d →
      m'.context.devices[index]? = some d' →
      (∀ id, d.Ran d' id → (d'.log.get? id).map EventRecord.status = some .complete) ∧
      (∀ id, id < d.log.size → d.isQueued id = false → d'.log.get? id = d.log.get? id) ∧
      (config.flushOnCompletion = true ∨ config.useDependencies = true → d'.queue = []) := by
  have hconfig : m.config = config := by
    obtain ⟨header, reader, hinitial⟩ := eq_initial_of_create hm
    exact congrArg Machine.config hinitial
  have hallows : ∀ config : Config, config.Allows fun _ => True := fun _ =>
    ⟨trivial, fun _ _ => trivial⟩
  have hsession := session_standing (hallows m.config) (standing_create hm) requests
  have horderly := (moves_of_create hm).trans hsession.moves |>.orderly hc
  generalize (session requests m).2 = m₁ at hpass hsession horderly ⊢
  -- The body of the pass and its end have succeeded, so all their moves are good.
  obtain ⟨m₂, n, hrun, hclosing, hfinish⟩ := finished_of_runPass hpass
  have hbegun : Standing (fun _ => True) Succeeded m₁ m₁.begun :=
    ⟨.refl _, rfl, by rw [hsession.config_eq]; exact hsession.ledger⟩
  have hbody : Standing (fun _ => True) Succeeded m₁ m₂ := Standing.runBody (hallows _) hbegun hrun
  have hclosed := (hbody.closing (hallows _) .normal kind (.ok ())).of_ok hclosing rfl fun _ => id
  refine ⟨hclosed.moves.length_eq, fun index d d' hd hd' => ?_⟩
  have haccounted := Device.Moves.accounted (hclosed.moves.device hd hd')
  refine ⟨fun id hran => ?_, fun id hid hold => (haccounted.kept id hid hold).2, fun hsettles => ?_⟩
  · obtain ⟨hid, hsince, hdone⟩ := hran
    refine (haccounted.settled id hid hsince).resolve_left fun hqueued => ?_
    rw [hdone] at hqueued
    cases hqueued
  · have hsettles : m₂.rewound.config.Settles := by
      rw [show m₂.rewound.config = config from (hbody.config_eq.trans hsession.config_eq).trans
        hconfig]
      exact hsettles
    have horderly₂ : ∀ d ∈ m₂.rewound.context.devices, d.Orderly := hbody.moves.orderly horderly
    obtain ⟨barrier, hok⟩ := settled_of_finish hfinish
    obtain ⟨profiles, hn, -⟩ := run_finish hsettles horderly₂ hok
    have hdevices := devices_closing .normal kind (.ok ()) m₂
    rw [hclosing, show (completion .normal (.ok ())).run m₂ = _ from hfinish] at hdevices
    rw [hfinish] at hn
    refine queues_settled hsettles horderly₂ hok d' ?_
    rw [hdevices, hn] at hd'
    exact List.mem_of_getElem? hd'

/-- On a deferred device a marker still waits from before; the pass runs it before its own
commands. -/
theorem runPass_complete_leftover :
    let p : Program := ⟨⟨1, 1, 0, [0]⟩,
      [.transfer .copyIn 0 0 none none, .launch 0 0 0 none none [.reference 0], .finish]⟩
    let leftover : EventLog := EventLog.add {} ⟨.marker, .queued, "marker", []⟩
    let d : Device :=
      { name := "d", options := { deferred := true }, log := leftover, queue := [⟨0, .marker⟩] }
    let c : Context := {
      devices := [d]
      objects := [⟨"a", [1, 0, 0, 0]⟩]
      constants := []
      tasks := [{ name := "add_one", accesses := [.readWrite] }] }
    (∀ d ∈ c.devices, d.Orderly) ∧
      ∃ m c' event m', (create p.encode {}).run c = (.ok m, c') ∧
        (runPass .normal .plain).run (session [.pass .warmup .plain] m).2 = (.ok event, m') ∧
        (∀ d d' : Device, (session [.pass .warmup .plain] m).2.context.devices[0]? = some d →
          m'.context.devices[0]? = some d' →
          (∀ id, d.Ran d' id → (d'.log.get? id).map EventRecord.status = some .complete) ∧
            d'.queue = []) ∧
        (session [.pass .warmup .plain] m).2.context.devices.map (fun d => d.queue.length) = [1] ∧
        m'.context.devices.map (fun d => d.log.records.map EventRecord.status) =
          [[.complete, .complete, .complete, .complete]] := by
  intro p leftover d c
  have hc : ∀ d ∈ c.devices, d.Orderly := by
    intro d' hd'
    rw [List.mem_singleton.1 hd']
    refine ⟨fun q hq => ?_, nofun⟩
    rw [List.mem_singleton.1 hq]
    decide
  refine ⟨hc, ?_⟩
  let rewarmed (m : Machine) : Machine := (session [.pass .warmup .plain] m).2
  have hrun : (((create p.encode {}).outcome c).toOption.map fun m =>
      ((rewarmed m).context.devices.map fun d => d.queue.length,
        ((runPass .normal .plain).outcome (rewarmed m)).toOption.map fun _ =>
          ((runPass .normal .plain).after (rewarmed m)).context.devices.map fun d =>
            d.log.records.map EventRecord.status)) =
      some ([1], some [[.complete, .complete, .complete, .complete]]) := by
    decide +kernel
  obtain ⟨m, c', hm, hread⟩ := Action.exists_run_of_read hrun
  obtain ⟨hqueue, hpassed⟩ := Prod.mk.inj hread
  obtain ⟨event, m', hpass, hstatus⟩ := Action.exists_run_of_read hpassed
  have hafter : (runPass .normal .plain).after (rewarmed m) = m' := congrArg Prod.snd hpass
  rw [hafter] at hstatus
  refine ⟨m, c', event, m', hm, hpass, fun d d' hd hd' => ?_, hqueue, hstatus⟩
  have hcomplete := (runPass_complete hc hm [.pass .warmup .plain] hpass).2 0 d d' hd hd'
  exact ⟨hcomplete.1, hcomplete.2.2 (.inl rfl)⟩

end Machine

end Offload
