import Offload.Proofs.UntrackedPass

/-!
# Sessions with and without dependencies

Normal passes that succeed with event lists do the same to the data without them, pass after pass. A
pass without event lists may still fail, at its very end and for a profile only: the device that a
launch has named is asked for an event that another device has issued, since the code of a task is
kept for one device.
-/

namespace Offload

open EventStatus (Ended)

namespace Machine

/-- Normal passes, one after the other. -/
def passes (kinds : List PassKind) : List Request := kinds.map (.pass .normal)

/-- The bytes of the objects, the buffers of all devices, the residency table and the code are the
same. -/
structure SameData (m m' : Machine) : Prop where
  objects : m'.context.objects = m.context.objects
  memory : m'.context.devices.map Device.memory = m.context.devices.map Device.memory
  table : m'.store.table = m.store.table
  code : m'.code = m.code

variable {m m' : Machine}

theorem Akin.sameData (h : m.Akin m') : m.SameData m' := by
  refine ⟨h.store.context.objects, List.ext_getElem? fun index => ?_, h.store.table, h.code⟩
  rw [List.getElem?_map, List.getElem?_map]
  rcases Context.agreement_akin.devices_or_none h.store.context index with
    ⟨d, d', hd, hd', hakin⟩ | ⟨hd, hd'⟩
  · rw [context, context, hd, hd', Option.map_some, Option.map_some, hakin.device.same.memory_eq]
  · rw [context, context, hd, hd']

/-! ## Machines before their first pass -/

variable {code : Bytes} {config : Config}

theorem run_create_config {c c' : Context} (hm : (create code config).run c = (.ok m, c')) :
    ∃ header reader, m = initial c' config header reader ∧
      ∀ config', (create code config').run c = (.ok (initial c' config' header reader), c') := by
  obtain ⟨⟨header, reader⟩, c₁, hstart, hrest⟩ := Action.run_bind_eq_ok.1 hm
  obtain ⟨hinitial, rfl⟩ := Prod.mk.inj hrest
  refine ⟨header, reader, (Except.ok.inj hinitial).symm, fun config' => ?_⟩
  exact Action.run_bind_eq_ok.2 ⟨(header, reader), c₁, hstart, rfl⟩

theorem akin_initial {c : Context} (hc : ∀ d ∈ c.devices, d.Orderly)
    (hflush : config.flushOnCompletion = true) (header : Header) (reader : Reader) :
    (initial c { config with useDependencies := true } header reader).Akin
      (initial c { config with useDependencies := false } header reader) where
  store := ⟨.refl hc, rfl⟩
  frames := rfl
  code := rfl
  reader := rfl
  config := rfl
  tracking := rfl
  flush := hflush
  disabled := rfl

/-! ## Passes of a session -/

/-- What is to be profiled at the end of a pass of a session is due, the configuration is the one
that the machine was made with, and the devices have moved on. -/
theorem due_body {c c' : Context} (hm : (create code config).run c = (.ok m, c'))
    (done : List Request) (kind : PassKind) :
    let n := ((session done m).2.body .normal kind).2
    (∀ p ∈ n.pending, p.Due (timeline (done ++ [.pass .normal kind]) m) n) ∧ n.config = config ∧
      m.context.Later n.context := by
  intro n
  let earlier := timeline done m ++
    bodyMoments .normal kind (session done m).2.reader.remaining (session done m).2.begun
  have htimeline : timeline (done ++ [.pass .normal kind]) m =
      earlier ++ .close .normal kind ((session done m).2.body .normal kind).1 n :: [] := by
    rw [timeline_append, timeline, timeline, moments, List.append_nil, ← List.append_assoc]
  have haccountable : Accountable earlier n :=
    lasting_accountable.before (accountable_create hm) htimeline
  have hstanding : Standing (fun _ => True) Ended m n :=
    (lasting_standing ⟨trivial, fun _ _ => trivial⟩).before (standing_create hm) htimeline
  refine ⟨fun p hp => (haccountable.due p hp).later (fun x hx => ?_) rfl rfl (.refl _), ?_,
    hstanding.moves⟩
  · rw [htimeline]
    exact List.mem_append_left _ hx
  · obtain ⟨header, reader, rfl⟩ := eq_initial_of_create hm
    exact hstanding.config_eq

theorem passes_concat (kinds : List PassKind) (kind : PassKind) :
    passes (kinds ++ [kind]) = passes kinds ++ [.pass .normal kind] :=
  List.map_append

theorem session_concat (done : List Request) (request : Request) (m : Machine) :
    session (done ++ [request]) m =
      ((session done m).1 ++ [((serve request).run (session done m).2).1],
        ((serve request).run (session done m).2).2) :=
  session_append done [request] m

/-- The outcome of a pass after all that is in `past`: a profile is looked up in vain, and launches
of one task have named two devices. -/
def MissesProfile (config : Config) (past : List Moment) (r : Except Fault Event) : Prop :=
  (∃ id, r = .error (.device (.unknownEvent id))) ∧ config.profiling = true ∧ Moment.Scattered past

theorem Akin.session {c c' : Context} (h : m.Akin m')
    (hm' : (create code config).run c = (.ok m', c')) (kinds : List PassKind)
    (hok : ∀ r ∈ (session (passes kinds) m).1, ∃ event, r = .ok event) :
    (session (passes kinds) m).2.Akin (Machine.session (passes kinds) m').2 ∧
      ∀ r ∈ (Machine.session (passes kinds) m').1,
        (∃ event, r = .ok event) ∨ MissesProfile config (timeline (passes kinds) m') r := by
  induction kinds using List.reverseRecOn with
  | nil => exact ⟨h, nofun⟩
  | append_singleton done kind ih =>
    rw [passes_concat] at hok ⊢
    rw [session_concat] at hok
    rw [session_concat, session_concat]
    obtain ⟨hakin, houtcomes⟩ := ih fun r hr => hok r (List.mem_append_left _ hr)
    obtain ⟨event, hevent⟩ := hok _ (List.mem_append_right _ (List.mem_singleton_self _))
    obtain ⟨hdue, hconfig, -⟩ := due_body hm' (passes done) kind
    obtain ⟨hnext, hcollects⟩ :=
      hakin.runPass (fun p hp => (hdue p hp).offered) (Prod.ext hevent rfl)
    refine ⟨hnext, fun r hr => ?_⟩
    rcases List.mem_append.1 hr with hold | hnew
    · obtain hr | ⟨hfault, hprofiling, hscattered⟩ := houtcomes r hold
      · exact .inl hr
      · refine .inr ⟨hfault, hprofiling, hscattered.mono fun x hx => ?_⟩
        rw [timeline_append]
        exact List.mem_append_left _ hx
    · obtain rfl := List.mem_singleton.1 hnew
      obtain hr | ⟨p, hp, hfault, hnot⟩ := hcollects
      · exact .inl hr
      · exact .inr ⟨⟨p.event, hfault⟩, hconfig ▸ (hdue p hp).profiling, (hdue p hp).scattered hnot⟩

/-- If normal passes all succeed with dependencies, they leave the same data without them, one after
the other. They succeed as well, unless launches are profiled and those of one task have named two
devices. -/
theorem session_without_dependencies {code : Bytes} {config : Config} {c c' : Context}
    (hc : ∀ d ∈ c.devices, d.Orderly) (hflush : config.flushOnCompletion = true)
    (hm : (create code { config with useDependencies := true }).run c = (.ok m, c')) :
    ∃ m', (create code { config with useDependencies := false }).run c = (.ok m', c') ∧
      ∀ kinds : List PassKind, (∀ r ∈ (session (passes kinds) m).1, ∃ event, r = .ok event) →
        ∀ done, done <+: kinds →
          SameData (session (passes done) m).2 (session (passes done) m').2 ∧
          ∀ r ∈ (session (passes done) m').1,
            (∃ event, r = .ok event) ∨ MissesProfile config (timeline (passes done) m') r := by
  have horderly : ∀ d ∈ m.context.devices, d.Orderly :=
    (moves_of_create (W := fun _ => True) (F := Ended) hm).orderly hc
  obtain ⟨header, reader, rfl, hcreate⟩ := run_create_config hm
  have hakin := akin_initial horderly hflush header reader
  have hoff := hcreate { config with useDependencies := false }
  refine ⟨_, hoff, ?_⟩
  rintro _ hok done ⟨left, rfl⟩
  rw [passes, List.map_append, session_append] at hok
  obtain ⟨hdone, houtcomes⟩ := hakin.session hoff done fun r hr => hok r (List.mem_append_left _ hr)
  exact ⟨hdone.sameData, houtcomes⟩

/-- Two passes over a deferred and an eager device. Without dependencies neither the waits nor the
markers at the ends of the passes are there, and the data is. -/
theorem session_without_dependencies_twice :
    let p : Program := ⟨⟨2, 1, 1, [0]⟩,
      [.transfer .copyIn 0 0 none none, .addDep 0, .launch 0 0 0 (some 0) none [.reference 0],
        .addDep 0, .transfer (.streamOut true) 0 0 (some 0) none, .transfer .streamIn 0 1 none none,
        .finish]⟩
    let c : Context := {
      devices := [(Station.opened "first" { deferred := true } .builtin []).device,
        (Station.opened "second" {} .builtin []).device]
      objects := [⟨"a", [1, 0, 0, 0]⟩]
      constants := []
      tasks := [{ name := "add_one", accesses := [.readWrite] }] }
    ∃ m m' c', (create p.encode { useDependencies := true }).run c = (.ok m, c') ∧
      (create p.encode { useDependencies := false }).run c = (.ok m', c') ∧
      SameData (session (passes [.plain]) m).2 (session (passes [.plain]) m').2 ∧
      SameData (session (passes [.plain, .plain]) m).2 (session (passes [.plain, .plain]) m').2 ∧
      (∀ r ∈ (session (passes [.plain, .plain]) m').1, ∃ event, r = .ok event) ∧
      (session (passes [.plain, .plain]) m).2.context.objects = [⟨"a", [3, 0, 0, 0]⟩] ∧
      (session (passes [.plain, .plain]) m).2.context.devices.map (fun d => d.log.size) = [8, 5] ∧
      (session (passes [.plain, .plain]) m').2.context.devices.map (fun d => d.log.size) =
      [6, 3] := by
  intro p c
  let twice (m : Machine) := session (passes [.plain, .plain]) m
  have hrun : (((create p.encode { useDependencies := true }).outcome c).toOption.map fun m =>
      decide ( (twice m).1 =
        [.ok ⟨some 2, .marker, .complete, {}⟩, .ok ⟨some 4, .marker, .complete, {}⟩] ∧
      (twice m).2.context.objects = [⟨"a", [3, 0, 0, 0]⟩] ∧
      (twice m).2.context.devices.map (fun d => d.log.size) = [8, 5])) = some true := by
    decide +kernel
  have hrun' : (((create p.encode { useDependencies := false }).outcome c).toOption.map fun m' =>
      (twice m').2.context.devices.map fun d => d.log.size) = some [6, 3] := by
    decide +kernel
  obtain ⟨m, c', hm, hread⟩ := Action.exists_run_of_read hrun
  obtain ⟨houtcomes, hobjects, hsizes⟩ := of_decide_eq_true hread
  have hc : ∀ d ∈ c.devices, d.Orderly :=
    List.forall_mem_cons.2 ⟨(Station.opened_inLine _ _ _ _).orderly,
      List.forall_mem_singleton.2 (Station.opened_inLine _ _ _ _).orderly⟩
  have hok : ∀ r ∈ (twice m).1, ∃ event, r = .ok event := by
    rw [houtcomes]
    exact List.forall_mem_cons.2 ⟨⟨_, rfl⟩, List.forall_mem_singleton.2 ⟨_, rfl⟩⟩
  obtain ⟨m', hm', hsame⟩ :=
    session_without_dependencies hc (rfl : ({} : Config).flushOnCompletion = true) hm
  obtain ⟨m₁, c₁, hm₁, hsizes'⟩ := Action.exists_run_of_read hrun'
  cases congrArg Prod.fst (hm'.symm.trans hm₁)
  have hboth := hsame [.plain, .plain] hok [.plain, .plain] List.prefix_rfl
  refine ⟨m, m', c', hm, hm', (hsame _ hok [.plain] (List.prefix_append _ _)).1, hboth.1,
    ?_, hobjects, hsizes, hsizes'⟩
  intro r hr
  obtain hsuccess | hmisses := hboth.2 r hr
  · exact hsuccess
  · cases hmisses.2.1

/-- Two launches of a task name two devices and run on the first of them. Its last event is looked
up for a profile on the second device, which has as many events only if a marker was submitted to
it. -/
theorem session_without_marker :
    let p : Program := ⟨⟨2, 1, 0, []⟩,
      [.transfer .copyIn 0 0 none none, .transfer .streamIn 0 1 none none,
        .transfer .streamIn 0 1 none none, .launch 0 0 0 none none [.reference 0],
        .launch 0 1 0 none none [.reference 0], .finish]⟩
    let c : Context := {
      devices := [{ name := "d0" }, { name := "d1" }]
      objects := [⟨"a", [1, 0, 0, 0]⟩]
      constants := []
      tasks := [{ name := "add_one", accesses := [.readWrite], profiling := true }] }
    let outcomes (useDependencies : Bool) :=
      ((create p.encode { profiling := true, useDependencies }).outcome c).toOption.map fun m =>
        (session (passes [.plain]) m).1
    outcomes true = some [.ok ⟨some 3, .marker, .complete, {}⟩] ∧
      outcomes false = some [.error (.device (.unknownEvent 3))] := by
  decide +kernel

end Machine

end Offload
