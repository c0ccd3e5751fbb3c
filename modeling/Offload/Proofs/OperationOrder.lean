import Offload.Proofs.AskedOperations

/-!
# The order of operations

What a pass adds to the log of a device is, one after the other, what its instructions ask of this
device, and a marker at the end if the machine minds dependencies. This holds of programs that
launch no task on two devices, so that every launch runs on the device that it names.
-/

namespace Offload

open Offload.Action

variable {α : Type}

/-! ## Passes -/

namespace Context

/-- Between two times each device was asked for the operations that `f` gives for its index. -/
def Logged (c : Context) (f : Nat → List AskedOperation) (c' : Context) : Prop :=
  ∀ index, c'.devices[index]?.map (fun d => d.log.operations) =
    c.devices[index]?.map fun d => d.log.operations ++ f index

variable {c c' c'' : Context} {f g : Nat → List AskedOperation}

theorem Logged.refl (c : Context) : c.Logged (fun _ => []) c := by
  intro index
  simp

theorem Logged.trans (h : c.Logged f c') (h' : c'.Logged g c'') :
    c.Logged (fun index => f index ++ g index) c'' := by
  intro index
  have hc := h index
  have hc' := h' index
  revert hc hc'
  rcases c.devices[index]? with _ | d <;> rcases c'.devices[index]? with _ | d' <;>
    simp +contextual

theorem Logged.congr (h : c.Logged f c') (hdevices : c''.devices = c'.devices)
    (hfg : ∀ index < c.devices.length, f index = g index) : c.Logged g c'' := by
  intro index
  rw [hdevices, h index]
  cases hd : c.devices[index]? with
  | none => rfl
  | some d => rw [Option.map_some, Option.map_some, hfg index (List.getElem?_eq_some_iff.1 hd).1]

theorem Asked.logged {index : Nat} {ops : List AskedOperation} (h : c.Asked index ops c') :
    c.Logged (fun i => if i = index then ops else []) c' := by
  intro i
  dsimp only
  split_ifs with hi
  · rw [hi, h.log]
  · rw [h.others i hi]
    simp

end Context

/-- No task is launched on two different devices. -/
def Program.SingleHomed (p : Program) : Prop :=
  ∀ a ∈ p.body.filterMap Instruction.launched?, ∀ b ∈ p.body.filterMap Instruction.launched?,
    a.1 = b.1 → a.2 = b.2

namespace Moment

/-- What the instruction of a moment asks of the device of an index. -/
def asksOf (x : Moment) (index : Nat) : List AskedOperation :=
  match x.deed with
  | .instruction _ i _ => if i.device? = some index then x.before.asks i else []
  | .ending .. | .invalidation => []

/-- If the moment is a launch, the code is for the device that it names, or there is none yet. -/
def AtHome (x : Moment) : Prop := ∀ task device, x.Launches task device →
      x.before.home task device = device

theorem logged_carry {i : Instruction} {m m' : Machine} {note : Option Note}
    (hrun : (Machine.effect .normal i).run m = (.ok note, m'))
    (hhome : (carry .normal i m).AtHome) :
    m.context.Logged (carry .normal i m).asksOf m'.context := by
  have hnamed : ∀ frame device task events window arguments,
      i = .launch frame device task events window arguments → m.home task device = device := by
    rintro frame device task events window arguments rfl
    exact hhome task device ⟨.normal, frame, events, window, arguments, _, rfl⟩
  have heffect := Machine.meets_effect_asked i hnamed m rfl
  rw [hrun] at heffect
  have hasked : m.context.Asked (i.device?.getD 0) (m.asks i) m'.context := heffect
  refine hasked.logged.congr rfl fun index _ => ?_
  show _ = if i.device? = some index then m.asks i else []
  cases hdevice : i.device? with
  | some device => simp [eq_comm]
  | none =>
    have hnothing : m.asks i = [] := by cases i <;> first | rfl | cases hdevice
    simp [hnothing]

end Moment

namespace Machine

open Moment

variable {m : Machine} {c c' : Context} {x : Moment}

/-- The body of a pass asks for what its instructions ask for, one after the other. -/
theorem logged_runBody {kind : PassKind} {fuel : Nat} {m m' : Machine}
    (hrun : (runBody .normal kind fuel).run m = (.ok (), m'))
    (hhome : ∀ x ∈ bodyMoments .normal kind fuel m, x.AtHome) :
    m.context.Logged (fun index => (bodyMoments .normal kind fuel m).flatMap (·.asksOf index))
      m'.context := by
  induction fuel generalizing m with
  | zero => cases hrun
  | succ fuel ih =>
    rw [run_runBody_succ] at hrun
    simp only [bodyMoments] at hhome ⊢
    obtain ⟨reader, journal, hfetch⟩ := after_fetch kind m
    revert hrun hhome hfetch
    rcases (fetch kind).run m with ⟨r, m₁⟩
    cases r with
    | error fault => exact fun hrun => by cases hrun
    | ok i =>
      dsimp only
      rcases heffect : (effect .normal i).run m₁ with ⟨r, m₂⟩
      cases r with
      | error fault => exact fun hrun => by cases hrun
      | ok note =>
        intro hrun hhome hfetch
        simp only [List.mem_cons, forall_eq_or_imp] at hhome
        have hdevices : m₁.context.devices = m.context.devices := by
          rw [hfetch]
          rfl
        have hnoted : (m₂.noted .normal i note).context = m₂.context := by
          rw [noted]
          split <;> rfl
        have hfirst : m.context.Logged (carry .normal i m₁).asksOf
            (m₂.noted .normal i note).context := by
          intro index
          rw [hnoted, logged_carry heffect hhome.1 index, hdevices]
        by_cases hfinish : i = .finish
        · subst hfinish
          simp only [if_true] at hrun ⊢
          cases hrun
          exact hfirst.congr rfl fun index _ => by simp
        · simp only [hfinish, if_false] at hrun hhome ⊢
          exact (hfirst.trans (ih hrun hhome.2)).congr rfl fun index _ => by simp

/-! ### The end -/

/-- What is known of the operations of all devices since `m`. -/
abbrev LoggedOf (m : Machine) (f : Nat → List AskedOperation) (m' : Machine) : Prop :=
  m.context.Logged f m'.context

variable {f : Nat → List AskedOperation} {more : List AskedOperation}

theorem meets_onDevice_logged {x : DeviceAction α} (hx : ∀ labels, Station.Adds labels more x)
    (index : Nat) :
    Meets (m.LoggedOf f) (onDevice index x)
      (fun _ => m.LoggedOf fun i => f i ++ if i = index then more else []) (fun _ => True) := by
  intro m' hm'
  have hasked : Meets (m'.AskedOf index []) (onDevice index x) (fun _ => m'.AskedOf index more)
      fun _ => True :=
    meets_inStore (Store.meets_onDevice_asked (hx _))
  rcases hrun : (onDevice index x).run m' with ⟨r, m''⟩
  cases r with
  | error fault => trivial
  | ok a => exact hm'.trans (hasked.of_ok hrun (.refl _ _)).logged

/-- What the end of a pass asks of each device. -/
def lastMarker (config : Config) : List AskedOperation :=
  if config.useDependencies then [⟨.marker, "marker"⟩] else []

theorem meets_settle_logged (config : Config) (barrier : Event) (devices : List Nat)
    (f : Nat → List AskedOperation) :
    Meets (m.LoggedOf f) (settle config barrier devices)
      (fun _ => m.LoggedOf fun i =>
        f i ++ (List.replicate (devices.count i) (lastMarker config)).flatten)
      (fun _ => True) := by
  induction devices generalizing barrier f with
  | nil => exact meets_pure fun m' hm' => hm'.congr rfl fun i _ => by simp
  | cons device others ih =>
    have hmarker : Meets (m.LoggedOf f) (awaitMarker config device barrier)
        (fun _ => m.LoggedOf fun i => f i ++ if i = device then lastMarker config else [])
        (fun _ => True) := by
      rw [awaitMarker, lastMarker]
      split
      · refine meets_bind (meets_onDevice_logged (fun _ => Station.adds_marker []) device)
          fun marker => ?_
        refine meets_weaken (meets_onDevice_logged (fun _ => Station.adds_resolve marker) device)
          (fun _ => id) (fun _ _ h => h.congr rfl fun i _ => by simp) fun _ => id
      · exact meets_pure fun m' hm' => hm'.congr rfl fun i _ => by simp
    have hflush : ∀ g, Meets (m.LoggedOf g) (flushDevice config device)
        (fun _ => m.LoggedOf g) (fun _ => True) := by
      intro g
      rw [flushDevice]
      split
      · exact meets_weaken (meets_onDevice_logged (fun _ => Station.adds_flush) device)
          (fun _ => id) (fun _ _ h => h.congr rfl fun i _ => by simp) fun _ => id
      · exact meets_pure fun _ => id
    refine meets_bind hmarker fun barrier => meets_bind (hflush _) fun _ => ?_
    refine meets_weaken (ih barrier _) (fun _ => id) (fun _ _ h => h.congr rfl fun i _ => ?_)
      fun _ => id
    by_cases hi : i = device
    · simp [hi, List.replicate_succ]
    · simp [hi, List.count_cons_of_ne (Ne.symm hi)]

theorem meets_collect_logged (pending : List PendingProfile) :
    Meets (m.LoggedOf f) (collect pending) (fun _ => m.LoggedOf f) (fun _ => True) := by
  induction pending with
  | nil => exact meets_pure fun _ => id
  | cons p others ih =>
    refine meets_bind (Q := fun _ => m.LoggedOf f) ?_ fun event => ?_
    · exact meets_weaken (meets_onDevice_logged (fun _ => Station.adds_resolve p.event) p.device)
        (fun _ => id) (fun _ _ h => h.congr rfl fun i _ => by simp) fun _ => id
    · dsimp only
      split
      · refine meets_look fun m' => ?_
        refine meets_then keeps_ofExcept (fun _ _ => trivial) fun t => ?_
        exact meets_bind (Q := fun _ => m.LoggedOf f) (meets_modify fun _ => id) fun _ => ih
      · exact ih

/-- At the end of a normal pass every device is asked for a marker, if dependencies are minded. -/
theorem meets_finish_logged (m : Machine) :
    Meets (· = m) finish (fun _ => m.LoggedOf fun _ => lastMarker m.config) (fun _ => True) := by
  refine meets_get fun m' hm' => ?_
  subst hm'
  refine meets_weaken (?_ : Meets (m'.LoggedOf fun _ => []) _ _ _) (fun _ h => h ▸ .refl _)
    (fun _ _ => id) fun _ => id
  refine meets_bind (meets_settle_logged m'.config .empty _ _) fun barrier => ?_
  refine meets_get fun m'' hm'' => ?_
  refine meets_bind (Q := fun _ => m'.LoggedOf fun _ => lastMarker m'.config)
    (meets_set fun _ _ => hm''.congr rfl fun i hi => ?_) fun _ => ?_
  · rw [List.count_eq_one_of_mem List.nodup_range (List.mem_range.2 hi)]
    simp
  · exact meets_bind (meets_collect_logged _) fun _ => meets_pure fun _ => id

theorem logged_closing {kind : PassKind} {event : Event}
    (hok : ((closing .normal kind (.ok ())).run m).1 = .ok event) :
    m.LoggedOf (fun _ => lastMarker m.config) ((closing .normal kind (.ok ())).run m).2 := by
  have hfinish := meets_finish_logged m.rewound m.rewound rfl
  have hdevices := devices_closing .normal kind (.ok ()) m
  have houtcome : (finish.run m.rewound).1 = .ok event := by
    rw [run_closing, outcome_concluding] at hok
    exact hok
  have hcompletion : (completion .normal (.ok ())).run m = finish.run m.rewound := rfl
  rw [hcompletion] at hdevices
  revert hfinish hdevices
  rcases hrun : finish.run m.rewound with ⟨r, m'⟩
  rw [hrun] at houtcome
  obtain rfl : r = .ok event := houtcome
  intro hfinish hdevices
  exact Context.Logged.congr hfinish hdevices fun _ _ => rfl

/-! ### Sessions -/

variable {code : Bytes} {config : Config} {requests : List Request}

/-- The instructions of a session are those of the script. -/
theorem mem_script_of_timeline (hm : (create code config).run c = (.ok m, c'))
    (hx : x ∈ timeline requests m) {mode : PassMode} {i : Instruction}
    {outcome : Except Fault (Option Note)} (hdeed : x.deed = .instruction mode i outcome) :
    i ∈ (Program.script code).instructions := by
  obtain ⟨past, future, htimeline⟩ := List.append_of_mem hx
  obtain ⟨served, kind, _, inner, rest, -, hbody, -⟩ := exists_body htimeline hdeed
  have htried : i ∈ tried (passMoments mode kind (session served m).2) :=
    List.mem_filterMap.2 ⟨x, by simp [passMoments, hbody], by rw [hdeed]; rfl⟩
  exact (enacts_body hm served mode kind).starts.subset htried

/-- The launches of a session are those of the program. -/
theorem launched_of_timeline (hm : (create code config).run c = (.ok m, c')) {p : Program}
    (hp : Program.decode code = .ok p) (hx : x ∈ timeline requests m) {task device : Nat}
    (h : x.Launches task device) : (task, device) ∈ p.body.filterMap Instruction.launched? := by
  obtain ⟨mode, frame, events, window, arguments, outcome, hdeed⟩ := h
  refine List.mem_filterMap.2 ⟨.launch frame device task events window arguments, ?_, rfl⟩
  have hmem := mem_script_of_timeline hm hx hdeed
  rwa [script_of_decode hm hp] at hmem

/-- Where no task is launched on two devices, every launch of a session names the device of its
code. -/
theorem atHome_of_singleHomed (hm : (create code config).run c = (.ok m, c')) {p : Program}
    (hp : Program.decode code = .ok p) (hsingle : p.SingleHomed) (hx : x ∈ timeline requests m) :
    x.AtHome := by
  intro task device hlaunches
  obtain ⟨past, future, htimeline⟩ := List.append_of_mem hx
  obtain ⟨y, hy, hyhome⟩ := (lasting_traced.before (traced_create hm) htimeline).home hlaunches
  have hymem : y ∈ timeline requests m := by
    rw [htimeline]
    rcases List.mem_append.1 hy with hy | hy
    · exact List.mem_append_left _ hy
    · exact List.mem_append_right _ (List.mem_singleton.1 hy ▸ List.mem_cons_self)
  exact hsingle _ (launched_of_timeline hm hp hymem hyhome) _
    (launched_of_timeline hm hp hx hlaunches) rfl

theorem config_body (mode : PassMode) (kind : PassKind) (m : Machine) :
    (m.body mode kind).2.config = m.config := by
  have hkeeps : Keeps (fun m' => m'.config = m.config) (runBody mode kind m.reader.remaining) := by
    refine keeps_runBody_of_effect (meets_iff_after.2 fun m' hm' => ?_)
      (keeps_effect_of_rest (fun _ _ _ _ _ _ _ => id) mode) (fun i note m' hm' => ?_) _
    · obtain ⟨reader, journal, hfetch⟩ := after_fetch kind m'
      rw [hfetch]
      exact hm'
    · rw [noted]
      split <;> exact hm'
  exact meets_iff_after.1 hkeeps m.begun rfl

theorem config_session (hm : (create code config).run c = (.ok m, c')) (requests : List Request) :
    (session requests m).2.config = config := by
  have hstanding := session_standing (W := fun _ => True) ⟨trivial, fun _ _ => trivial⟩
    (standing_create hm) requests
  obtain ⟨header, reader, rfl⟩ := eq_initial_of_create hm
  exact hstanding.config_eq

/-- Where no task is launched on two devices, a normal pass that ends well has run the whole
program, and it has added to the log of every device, in the order of the program, what the
instructions that name the device have asked for, each on the machine as it was then, and a last
marker if dependencies are minded. -/
theorem pass_asks_in_order {code : Bytes} {config : Config} {c c' : Context}
    (hm : (create code config).run c = (.ok m, c')) {p : Program} (hp : Program.decode code = .ok p)
    (hsingle : p.SingleHomed) (requests : List Request) {kind : PassKind} {event : Event}
    (hok : ((runPass .normal kind).run (session requests m).2).1 = .ok event) :
    let now := (session requests m).2
    let later := ((runPass .normal kind).run now).2
    let done := now.passMoments .normal kind
    tried done = p.body ∧
      ∀ index, later.context.devices[index]?.map (fun d => d.log.operations) =
        now.context.devices[index]?.map fun d =>
          d.log.operations ++ done.flatMap (·.asksOf index) ++ lastMarker config := by
  intro now later done
  have hbody : (now.body .normal kind).1 = .ok () := body_of_closing hok
  refine ⟨?_, ?_⟩
  · have hthrough := ((enacts_body hm requests .normal kind).through hbody).2.1
    rwa [script_of_decode hm hp] at hthrough
  · have hrun : (runBody .normal kind now.reader.remaining).run now.begun =
        (.ok (), (now.body .normal kind).2) := Prod.ext hbody rfl
    have hhome : ∀ x ∈ bodyMoments .normal kind now.reader.remaining now.begun, x.AtHome := by
      intro x hx
      have hmem : x ∈ timeline (requests ++ [.pass .normal kind]) m := by
        rw [timeline_append]
        exact List.mem_append_right _ (List.mem_append_left _ (List.mem_append_left _ hx))
      exact atHome_of_singleHomed hm hp hsingle hmem
    have hstart : now.context.Logged (fun index => done.flatMap (·.asksOf index))
        (now.body .normal kind).2.context := logged_runBody hrun hhome
    have hclosing : ((closing .normal kind (.ok ())).run (now.body .normal kind).2).1 =
        .ok event := by
      rw [run_runPass, hbody] at hok
      exact hok
    have hend := logged_closing hclosing
    have hlater : later = ((closing .normal kind (.ok ())).run (now.body .normal kind).2).2 := by
      rw [← hbody]
      rfl
    have hconfig : (now.body .normal kind).2.config = config :=
      (config_body .normal kind now).trans (config_session hm requests)
    intro index
    rw [hlater, (hstart.trans hend) index, hconfig]
    simp only [List.append_assoc]

/-- Two devices: the second transfer to the first of them is needless, a launch on the second finds
no kernel, and both get a marker. -/
theorem pass_asks_in_order_mixed :
    let p : Program := ⟨⟨2, 2, 0, [0, 1]⟩,
      [.allocate 0 0 none, .transfer .copyIn 0 0 none none, .transfer .streamIn 0 1 none none,
        .transfer .copyIn 0 0 none none, .launch 0 0 0 none none [.reference 0],
        .launch 1 1 1 none none [.reference 0], .transfer (.streamOut true) 0 0 none none, .finish]⟩
    let config : Config := { useDependencies := true, compileFailurePolicy := .lenient }
    let c : Context := {
      devices := [{ name := "d0" }, { name := "d1", options := { deferred := true } }]
      objects := [⟨"a", [1, 0, 0, 0]⟩]
      constants := []
      tasks :=
        [{ name := "add_one", accesses := [.readWrite] }, { name := "none", accesses := [] }] }
    ∃ m c' event, (create p.encode config).run c = (.ok m, c') ∧
      ((runPass .normal .plain).run m).1 = .ok event ∧
      m.context.devices.map (fun d => d.log.operations) = [[], []] ∧
      ((runPass .normal .plain).run m).2.context.devices[0]?.map (fun d => d.log.operations) =
        some [⟨.allocate, "allocate a (4 bytes)"⟩, ⟨.write, "write a"⟩, ⟨.launch, "launch add_one"⟩,
          ⟨.read, "read a"⟩, ⟨.marker, "marker"⟩] ∧
      ((runPass .normal .plain).run m).2.context.devices[1]?.map (fun d => d.log.operations) =
        some [⟨.allocate, "allocate a (4 bytes)"⟩, ⟨.write, "write a"⟩, ⟨.marker, "marker"⟩] := by
  intro p config c
  have hdecode : Program.decode p.encode = .ok p := by decide +kernel
  have hsingle : p.SingleHomed := by
    unfold Program.SingleHomed
    decide +kernel
  have hrun : ((create p.encode config).outcome c).toOption.map (fun m =>
      (((runPass .normal .plain).run m).1.toOption.isSome,
        m.context.devices.map (fun d => d.log.operations),
        (m.passMoments .normal .plain).flatMap (·.asksOf 0),
        (m.passMoments .normal .plain).flatMap (·.asksOf 1))) =
      some (true, [[], []],
        [⟨.allocate, "allocate a (4 bytes)"⟩, ⟨.write, "write a"⟩, ⟨.launch, "launch add_one"⟩,
          ⟨.read, "read a"⟩],
        [⟨.allocate, "allocate a (4 bytes)"⟩, ⟨.write, "write a"⟩]) := by
    decide +kernel
  obtain ⟨m, c', hm, hread⟩ := Action.exists_run_of_read hrun
  obtain ⟨hok, hread⟩ := Prod.mk.inj hread
  obtain ⟨hlogs, hread⟩ := Prod.mk.inj hread
  obtain ⟨hfirst, hsecond⟩ := Prod.mk.inj hread
  obtain ⟨event, hevent⟩ := Option.isSome_iff_exists.1 hok
  have hevent := eq_ok_of_toOption hevent
  have hlog := (pass_asks_in_order hm hdecode hsingle [] hevent).2
  have hempty : ∀ index < 2, m.context.devices[index]?.map (fun d => d.log.operations) =
      some [] := by
    intro index hindex
    rw [← List.getElem?_map, hlogs]
    revert index
    decide
  have hadded : ∀ index < 2,
      ((runPass .normal .plain).run m).2.context.devices[index]?.map (fun d => d.log.operations) =
        some ((m.passMoments .normal .plain).flatMap (·.asksOf index) ++ lastMarker config) := by
    intro index hindex
    obtain ⟨d, hd, hnone⟩ := Option.map_eq_some_iff.1 (hempty index hindex)
    refine (hlog index).trans ?_
    rw [show (session [] m).2 = m from rfl, hd, Option.map_some, hnone, List.nil_append]
  refine ⟨m, c', event, hm, hevent, hlogs, ?_, ?_⟩
  · rw [hadded 0 (by decide), hfirst]
    rfl
  · rw [hadded 1 (by decide), hsecond]
    rfl

end Machine

end Offload
