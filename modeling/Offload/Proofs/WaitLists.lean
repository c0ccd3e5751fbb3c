import Offload.Proofs.MachineMoves

/-!
# Wait lists are the declared dependencies

An event list holds the events that were declared for it since it was last emptied, in the order in
which they were declared, and never more than its capacity. An operation that names the list is
recorded with exactly these events. All of this is said of a timeline: what is declared at a moment
follows from the moments before it.
-/

namespace Offload

/-- Whether a deed empties an event list: an operation that names the list has taken it over, or a
pass has failed. -/
def Deed.clears (list : Nat) : Deed → Bool
  | .instruction .normal i (.ok note) => i.waitsFor = some list ∧ note ≠ some .notCompiled
  | .ending _ _ (.error _) => true
  | _ => false

/-- The events that a deed declares for a list, where `last` is the event of the last operation. -/
def Deed.declares (list : Nat) (last : Option EventId) : Deed → List EventId
  | .instruction .normal (.addDep named) (.ok _) => if named = list then last.toList else []
  | _ => []

namespace Moment

/-- The events that a moment declares for a list. -/
def declares (list : Nat) (x : Moment) : List EventId := x.deed.declares list x.before.lastEvent

/-- The events that were declared for a list since it was last emptied. -/
def declared (list : Nat) (past : List Moment) : List EventId :=
  (past.rtakeWhile fun x => !x.deed.clears list).flatMap (declares list)

theorem declared_concat (list : Nat) (past : List Moment) (x : Moment) :
    declared list (past ++ [x]) =
      if x.deed.clears list then [] else declared list past ++ x.declares list := by
  cases hx : x.deed.clears list with
  | true => simp [declared, hx]
  | false => simp [declared, hx]

/-- The events that the operations of a moment have to wait for. -/
def waits (past : List Moment) (x : Moment) : List EventId :=
  match x.deed with
  | .instruction _ i _ =>
    match i.waitsFor with
    | some list => declared list past
    | none => []
  | _ => []

end Moment

/-! ## Event lists -/

variable {list : Nat} {event : EventId}

namespace EventLedger

/-- The events of a list; there are none if there is no such list. -/
def held (l : EventLedger) (list : Nat) : List EventId := (l.get? list).getD []

theorem content_eq_held {l : EventLedger} (henabled : l.enabled = true) (list : Nat) :
    l.content (some list) = l.held list := by
  rw [content, if_pos henabled, held]

theorem held_set {l : EventLedger} {list : Nat} (hlist : list < l.slots.length) (events : EventList)
    (other : Nat) : held { l with slots := l.slots.set list events } other =
      if list = other then events.toList else l.held other := by
  rw [held, get?, lists_set, List.getElem?_set, l.length_lists]
  split_ifs <;> simp_all [held, get?]

theorem held_of_slot {l : EventLedger} {events : EventList} (h : l.slots[list]? = some events) :
    l.held list = events.toList := by
  simp [held, get?, lists, h]

/-- An event is appended to a list that is there and not full. -/
theorem held_append {l l' : EventLedger} (henabled : l.enabled = true)
    (h : l.append list event = .ok l') :
    (l.held list).length ≠ capacity ∧
      ∀ other, l'.held other = if list = other then l.held list ++ [event] else l.held other := by
  rcases append_cases h with ⟨hoff, -⟩ | ⟨events, events', -, hslot, hpush, rfl⟩
  · cases henabled.symm.trans hoff
  · rw [held_of_slot hslot, EventList.length_toList, ← EventList.toList_push hpush]
    exact ⟨EventList.length_ne_of_push hpush, held_set (List.getElem?_eq_some_iff.1 hslot).1 _⟩

theorem held_reset {l l' : EventLedger} {list : Option Nat} (henabled : l.enabled = true)
    (h : l.reset list = .ok l') (other : Nat) :
    l'.held other = if list = some other then [] else l.held other := by
  rcases reset_cases h with ⟨rfl | hoff, rfl⟩ | ⟨named, events, rfl, -, hslot, rfl⟩
  · simp
  · cases henabled.symm.trans hoff
  · rw [held_set (List.getElem?_eq_some_iff.1 hslot).1, EventList.toList_clear]
    simp

theorem append_full {l : EventLedger} (henabled : l.enabled = true)
    (hfull : (l.held list).length = capacity) :
    l.append list event = .error (.eventListFull list capacity) := by
  have hon : ¬(!l.enabled) = true := by simp [henabled]
  cases hslot : l.slots[list]? with
  | none => simp [held, get?, lists, hslot, capacity] at hfull
  | some events =>
    rw [held_of_slot hslot, EventList.length_toList] at hfull
    rw [append, if_neg hon, lookup_eq_ok.2 hslot]
    simp [EventList.push_of_full, EventList.isFull, hfull, bind, Except.bind]

theorem held_clear (l : EventLedger) (list : Nat) : l.clear.held list = [] := by
  simp only [held, get?, lists, clear, List.getElem?_map]
  cases l.slots[list]? <;> simp

theorem held_new (count : Nat) (enabled : Bool) (list : Nat) :
    (new count enabled).held list = [] := by
  simp only [held, get?, lists, new, List.map_replicate, List.getElem?_replicate]
  split_ifs
  · rfl
  · rfl

variable {l l' : EventLedger} {mode : PassMode} {i : Instruction} {note : Option Note}
variable {last : Option EventId}

/-- An instruction leaves the lists alone, appends one event to one of them, or empties one. -/
theorem carried_cases (h : l.carried mode i note last = .ok l') :
    (l' = l ∧ ∀ list, (Deed.instruction mode i (.ok note)).clears list = false ∧
      (Deed.instruction mode i (.ok note)).declares list last = []) ∨
    (∃ named event, l.append named event = .ok l' ∧
      ∀ list, (Deed.instruction mode i (.ok note)).clears list = false ∧
        (Deed.instruction mode i (.ok note)).declares list last = if named =
        list then [event] else []) ∨
    (l.reset i.waitsFor = .ok l' ∧
      ∀ list, (Deed.instruction mode i (.ok note)).clears list = decide (i.waitsFor = some list) ∧
        (Deed.instruction mode i (.ok note)).declares list last = []) := by
  cases mode with
  | warmup =>
    cases h
    exact .inl ⟨rfl, fun list => by simp [Deed.clears, Deed.declares]⟩
  | normal =>
    cases i with
    | addDep named =>
      cases last with
      | none =>
        cases h
        exact .inl ⟨rfl, fun list => by simp [Deed.clears, Deed.declares, Instruction.waitsFor]⟩
      | some event =>
        refine .inr (.inl ⟨named, event, h, fun list => ?_⟩)
        simp [Deed.clears, Deed.declares, Instruction.waitsFor]
    | _ =>
      by_cases hnote : note = some .notCompiled
      · simp only [carried, hnote, if_true] at h
        cases h
        exact .inl ⟨rfl, fun list => by simp [Deed.clears, Deed.declares, hnote]⟩
      · simp only [carried, hnote, if_false] at h
        exact .inr (.inr ⟨h, fun list => by simp [Deed.clears, Deed.declares, hnote]⟩)

theorem held_carried (henabled : l.enabled = true) (h : l.carried mode i note last = .ok l')
    (list : Nat) :
    l'.held list = if (Deed.instruction mode i (.ok note)).clears list then []
      else l.held list ++ (Deed.instruction mode i (.ok note)).declares list last := by
  rcases carried_cases h with ⟨rfl, hlist⟩ | ⟨named, event, happend, hlist⟩ | ⟨hreset, hlist⟩
  · simp [hlist list]
  · rw [(held_append henabled happend).2 list]
    by_cases hnamed : named = list
    · simp [hlist list, hnamed]
    · simp [hlist list, hnamed]
  · rw [held_reset henabled hreset list]
    simp [hlist list]

theorem length_held_carried (henabled : l.enabled = true) (h : l.carried mode i note last = .ok l')
    (hl : ∀ list, (l.held list).length ≤ capacity) (list : Nat) :
    (l'.held list).length ≤ capacity := by
  rcases carried_cases h with ⟨rfl, -⟩ | ⟨named, event, happend, -⟩ | ⟨hreset, -⟩
  · exact hl list
  · obtain ⟨hroom, hheld⟩ := held_append henabled happend
    have hnamed := hl named
    rw [hheld list]
    split_ifs
    · rw [List.length_append, List.length_singleton]
      omega
    · exact hl list
  · rw [held_reset henabled hreset list]
    split_ifs
    · exact Nat.zero_le _
    · exact hl list

end EventLedger

/-! ## Timelines -/

/-- What a moment has to do with the event lists, given all that was done before it and the rest of
the timeline. -/
structure Moment.Faithful (past : List Moment) (x : Moment) (future : List Moment) : Prop where
  /-- Every list holds what was declared for it, -/
  before : ∀ list, x.before.ledger.held list = declared list past
  /-- and so it does afterwards. -/
  after : ∀ list, x.after.ledger.held list = declared list (past ++ [x])
  capacity : ∀ list, (declared list past).length ≤ 32
  devices : x.after.context.devices.length = x.before.context.devices.length
  /-- Every event that is issued has the declared events as its wait list; a new buffer waits for
  nothing. -/
  issued : ∀ (index : Nat) (d d' : Device), x.before.context.devices[index]? = some d →
    x.after.context.devices[index]? = some d' → ∃ new, d'.log.issued = d.log.issued ++ new ∧
      ∀ e ∈ new, e.2 = if e.1 = .allocate then [] else x.waits past
  /-- An event too many ends the pass. -/
  overflow : ∀ (list : Nat) (event : EventId) (outcome : Except Fault (Option Note)),
    x.deed = .instruction .normal (.addDep list) outcome → x.before.lastEvent = some event →
    (declared list past).length = 32 → outcome = .error (.eventListFull list 32) ∧
      ∃ kind y rest, future = y :: rest ∧
        y.deed = .ending .normal kind (.error (.eventListFull list 32))

namespace Machine

/-- The event lists are switched on, and each holds what was declared for it. -/
structure Declared (config : Config) (past : List Moment) (m : Machine) : Prop where
  config_eq : m.config = config
  enabled : m.ledger.enabled = true
  held : ∀ list, m.ledger.held list = Moment.declared list past
  capacity : ∀ list, (m.ledger.held list).length ≤ EventLedger.capacity

section Declared

variable {config : Config} {past : List Moment} {m m' : Machine}

theorem Declared.congr (h : Declared config past m) (hconfig : m'.config = m.config)
    (hledger : m'.ledger = m.ledger) : Declared config past m' := by
  obtain ⟨hconfig', henabled, hheld, hcapacity⟩ := h
  rw [← hledger] at henabled hheld hcapacity
  exact ⟨hconfig.trans hconfig', henabled, hheld, hcapacity⟩

variable {x : Moment}

/-- A deed that neither empties a list nor declares an event. -/
theorem Declared.concat (h : Declared config past m)
    (hx : ∀ list, x.deed.clears list = false ∧ x.declares list = []) :
    Declared config (past ++ [x]) m := by
  refine ⟨h.config_eq, h.enabled, fun list => ?_, h.capacity⟩
  rw [h.held list, Moment.declared_concat]
  simp [hx list]

theorem Declared.carry (hconfig : config.useDependencies = true) (h : Declared config past m)
    (mode : PassMode) (i : Instruction) :
    Declared config (past ++ [.carry mode i m]) ((effect mode i).run m).2 := by
  have hm : m.ledger.enabled = m.config.useDependencies := by rw [h.enabled, h.config_eq, hconfig]
  have heffect := meets_effect (W := fun _ => True) mode i hm trivial m rfl
  have hdeed : (Moment.carry mode i m).deed = .instruction mode i ((effect mode i).run m).1 := rfl
  have hlast : (Moment.carry mode i m).before = m := rfl
  revert heffect hdeed
  rcases (effect mode i).run m with ⟨r, m'⟩
  cases r with
  | error fault =>
    intro heffect hdeed
    refine (h.congr heffect.config_eq heffect.ledger).concat fun list => ?_
    simp [Moment.declares, hdeed, Deed.clears, Deed.declares]
  | ok note =>
    intro heffect hdeed
    have hcarried := heffect.ledger
    refine ⟨heffect.config_eq.trans h.config_eq,
      (EventLedger.enabled_carried hcarried).trans h.enabled, fun list => ?_,
      EventLedger.length_held_carried h.enabled hcarried h.capacity⟩
    rw [EventLedger.held_carried h.enabled hcarried, Moment.declared_concat, h.held list,
      Moment.declares, hdeed, hlast]

theorem Declared.close (h : Declared config past m) (mode : PassMode) (kind : PassKind)
    (body : Except Fault Unit) :
    Declared config (past ++ [.close mode kind body m]) ((closing mode kind body).run m).2 := by
  have hclosing := meets_closing mode kind body m m rfl
  have hdeed : (Moment.close mode kind body m).deed =
    .ending mode kind ((closing mode kind body).run m).1 := rfl
  revert hclosing hdeed
  rcases (closing mode kind body).run m with ⟨r, m'⟩
  cases r with
  | ok event =>
    intro hclosing hdeed
    refine (h.congr hclosing.config_eq hclosing.ledger).concat fun list => ?_
    simp [Moment.declares, hdeed, Deed.clears, Deed.declares]
  | error fault =>
    intro hclosing hdeed
    have hledger : m'.ledger = m.ledger.clear := hclosing.ledger
    refine ⟨hclosing.config_eq.trans h.config_eq, ?_, fun list => ?_, fun list => ?_⟩
    · rw [hledger]
      exact h.enabled
    · rw [hledger, EventLedger.held_clear, Moment.declared_concat, hdeed]
      rfl
    · rw [hledger, EventLedger.held_clear]
      exact Nat.zero_le _

theorem lasting_declared (hconfig : config.useDependencies = true) : Lasting (Declared config) := by
  refine lasting_of_aside (fun _ _ _ _ _ h => h.congr rfl rfl)
    (fun mode i h => h.carry hconfig mode i) (fun mode kind body h => h.close mode kind body)
    fun {past m} h => ?_
  have hforget : Declared config past m.invalidate := h.congr rfl rfl
  exact hforget.concat fun list => ⟨rfl, rfl⟩

variable {requests : List Request}

/-- What a moment submits waits for the declared events. -/
theorem Declared.moves (hconfig : config.useDependencies = true) (h : Declared config past x.before)
    (hx : x ∈ timeline requests m) :
    x.before.context.Moves (· = x.waits past) EventStatus.Ended x.after.context := by
  rcases eq_of_mem_timeline hx with ⟨mode, i, hcarry⟩ | ⟨mode, kind, body, hclose⟩ | hforget
  · have hm : x.before.ledger.enabled = x.before.config.useDependencies := by
      rw [h.enabled, h.config_eq, hconfig]
    have hwaits : x.before.ledger.content i.waitsFor = x.waits past := by
      rw [hcarry, Moment.waits]
      simp only [Moment.carry]
      cases i.waitsFor with
      | none => rfl
      | some list => rw [EventLedger.content_eq_held h.enabled, h.held list]
    have heffect := meets_effect (W := (· = x.waits past)) mode i hm hwaits
    have hafter : x.after = ((effect mode i).run x.before).2 := congrArg Moment.after hcarry
    rw [hafter]
    exact moves_of_meets heffect rfl
  · have hwaits : x.waits past = [] := by
      rw [hclose]
      rfl
    have hafter : x.after = ((closing mode kind body).run x.before).2 :=
      congrArg Moment.after hclose
    rw [hafter, hwaits]
    exact moves_of_meets (meets_closing mode kind body x.before) rfl
  · have hafter : x.after = x.before.invalidate := congrArg Moment.after hforget
    rw [hafter]
    exact .refl _

/-- An event for a full list is refused, and nothing changes. -/
theorem Declared.addDep_full (h : Declared config past m) (hlast : m.lastEvent = some event)
    (hfull : (Moment.declared list past).length = 32) :
    ((effect .normal (.addDep list)).run m).1 = .error (.eventListFull list 32) := by
  have happend : m.ledger.append list event = .error (.eventListFull list 32) :=
    EventLedger.append_full h.enabled (by rw [h.held list, hfull]; rfl)
  change ((perform (.addDep list)).run m).1 = _
  rw [perform, Action.run_bind, Action.run_get]
  simp only [hlast, h.enabled, happend]
  rfl

theorem Declared.faithful (hconfig : config.useDependencies = true) {future : List Moment}
    (hm : Declared config [] m) (hx : timeline requests m = past ++ x :: future) :
    x.Faithful past future := by
  have hbefore := (lasting_declared hconfig).before hm hx
  have hafter := (lasting_declared hconfig).after hm hx
  have hmem : x ∈ timeline requests m := by
    rw [hx]
    simp
  have hmoves := hbefore.moves hconfig hmem
  refine ⟨hbefore.held, hafter.held, fun list => ?_, hmoves.length_eq, ?_, ?_⟩
  · rw [← hbefore.held list]
    exact hbefore.capacity list
  · intro index d d' hd hd'
    obtain ⟨new, hnew, hwaits⟩ := (hmoves.device hd hd').issued
    refine ⟨new, hnew, fun e he => ?_⟩
    have hwait := hwaits e he
    split_ifs at hwait ⊢
    · exact hwait
    · exact hwait
  · intro list event outcome hdeed hlast hfull
    have houtcome : outcome = .error (.eventListFull list 32) := by
      rcases eq_of_mem_timeline hmem with ⟨mode, i, hcarry⟩ | ⟨mode, kind, body, hclose⟩ | hforget
      · rw [hcarry] at hdeed
        cases hdeed
        exact hbefore.addDep_full hlast hfull
      · rw [hclose] at hdeed
        cases hdeed
      · rw [hforget] at hdeed
        cases hdeed
    exact ⟨houtcome, ending_of_fault hx (houtcome ▸ hdeed)⟩

end Declared

/-! ## From the start of a session -/

/-- Wait lists are exactly the declared dependencies. With dependencies every list holds at every
moment what was declared for it since it was last emptied, every operation is recorded with the
events of the list that it names, and a list that would become too long ends the pass. Without
dependencies nothing waits for anything. -/
theorem timeline_faithful {code : Bytes} {config : Config} {c c' : Context} {m : Machine}
    (hm : (create code config).run c = (.ok m, c')) (requests : List Request) :
    (config.useDependencies = true → ∀ past x future, timeline requests m = past ++ x :: future →
      x.Faithful past future) ∧
    (config.useDependencies = false → ∀ (index : Nat) (d d' : Device),
      m.context.devices[index]? = some d →
      (session requests m).2.context.devices[index]? = some d' →
      ∃ new, d'.log.issued = d.log.issued ++ new ∧ ∀ e ∈ new, e.2 = []) := by
  obtain ⟨header, reader, hinitial⟩ := eq_initial_of_create hm
  have hconfig : m.config = config := congrArg Machine.config hinitial
  have hledger : m.ledger = .new header.eventLists config.useDependencies :=
    congrArg Machine.ledger hinitial
  constructor
  · intro hon past x future hx
    have hstart : Declared config [] m := by
      refine ⟨hconfig, ?_, fun list => ?_, fun list => ?_⟩
      · rw [hledger]
        exact hon
      · rw [hledger, EventLedger.held_new]
        rfl
      · rw [hledger, EventLedger.held_new]
        exact Nat.zero_le _
    exact hstart.faithful hon hx
  · intro hoff index d d' hd hd'
    have hallows : m.config.Allows (· = []) := by
      refine ⟨rfl, fun hon => ?_⟩
      rw [hconfig, hoff] at hon
      cases hon
    have hend := session_standing hallows (standing_create hm) requests
    obtain ⟨new, hnew, hwaits⟩ := (hend.moves.device hd hd').issued
    refine ⟨new, hnew, fun e he => ?_⟩
    have hwait := hwaits e he
    split_ifs at hwait
    · exact hwait
    · exact hwait

/-- A write waits for the write before it and a marker twice for that; then an event too many is
declared. The second pass finds the list empty and its first copy needless. -/
theorem timeline_faithful_overflow :
    let p : Program := ⟨⟨1, 0, 1, [0]⟩,
      [.transfer .copyIn 0 0 none none, .addDep 0, .transfer .streamIn 0 0 (some 0) none, .addDep 0,
        .addDep 0, .barrier (some 0)] ++ List.replicate 33 (.addDep 0) ++ [.finish]⟩
    let c : Context := {
      devices := [{ name := "d" }]
      objects := [⟨"a", [1, 2, 3, 4]⟩]
      constants := []
      tasks := [] }
    let requests : List Request := [.pass .normal .plain, .pass .normal .plain]
    ∃ m c', (create p.encode { useDependencies := true }).run c = (.ok m, c') ∧
      (∀ past x future, timeline requests m = past ++ x :: future → x.Faithful past future) ∧
      (session requests m).1 = [.error (.eventListFull 0 32), .error (.eventListFull 0 32)] ∧
      (session requests m).2.context.devices.map (fun d => d.log.issued) =
        [[(.allocate, []), (.write, []), (.write, [1]), (.marker, [2, 2]), (.write, []),
          (.marker, [4, 4])]] := by
  intro p c requests
  have hrun : (((create p.encode { useDependencies := true }).outcome c).toOption.map fun m =>
      ((session requests m).1, (session requests m).2.context.devices.map fun d => d.log.issued)) =
      some ([.error (.eventListFull 0 32), .error (.eventListFull 0 32)],
        [[(.allocate, []), (.write, []), (.write, [1]), (.marker, [2, 2]), (.write, []),
          (.marker, [4, 4])]]) := by
    decide +kernel
  obtain ⟨m, c', hm, hread⟩ := Action.exists_run_of_read hrun
  obtain ⟨houtcomes, hissued⟩ := Prod.mk.inj hread
  exact ⟨m, c', hm, (timeline_faithful hm requests).1 rfl, houtcomes, hissued⟩

end Machine

end Offload
