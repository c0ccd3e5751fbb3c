import Offload.Proofs.PassEvents

/-!
# What becomes of an event list that is emptied

An instruction that names an event list takes the list over: it submits one command, to one device,
and the command is recorded with the events of the list. A launch without code submits nothing and
leaves its list alone. A lazy transfer that is not needed submits nothing either, but it empties its
list all the same, and nothing will ever wait for the events that the list held.
-/

namespace Offload

open Offload.Action

open EventStatus (Succeeded)

variable {α β : Type} {note : Option Note} {m' : Machine}

/-! ## Commands that are submitted -/

/-- Commands that have a wait list. -/
abbrev EventKind.With (wait : List EventId) (kind : EventKind) (wait' : List EventId) : Prop :=
  kind ≠ .allocate ∧ wait' = wait

variable {wait : List EventId}

namespace Context

/-- Between two times a command with a wait list was submitted to a device, under the number of an
event. -/
def Submitted (index : Nat) (wait : List EventId) (c c' : Context) (event : EventId) : Prop :=
  ∃ (d d' : Device) (kind : EventKind), c.devices[index]? = some d ∧ c'.devices[index]? = some d' ∧
    d.log.size ≤ event ∧ kind ≠ .allocate ∧ d'.log.issued[event]? = some (kind, wait)

theorem Records.submitted {index : Nat} {c c' : Context} {event : EventId}
    (h : c.Records (EventKind.With wait) index c' event) : c.Submitted index wait c' event := by
  obtain ⟨d, d', kind, _, hd, hd', hle, ⟨hkind, rfl⟩, hissued⟩ := h
  exact ⟨d, d', kind, hd, hd', hle, hkind, hissued⟩

end Context

namespace Store

/-- A lazy transfer that gives no event has found what it was to send, and leaves the devices
alone. -/
theorem needless_of_copyIn {s s' : Store} {object device : Nat} {window : Option Window}
    (h : (copyIn object device window wait).run s = (.ok none, s')) :
    (∃ r, s.table.record object device = .ok r ∧ r.holds window = true) ∧
      s'.context.devices = s.context.devices := by
  generalize hv : (.ok none : Except Fault (Option EventId)) = v at h
  cases copying_of_run h with
  | refused => cases hv
  | held hr hholds => exact ⟨⟨_, Table.record_eq_ok.2 hr, hholds⟩, rfl⟩
  | @sending r v s' hr hholds hsending => cases v <;> cases hv

end Store

variable {i : Instruction} {list : Nat}

/-- Work other than that of a lazy transfer has an event. -/
theorem Instruction.isLazy_of_work {s s' : Store} (hi : i.works = true)
    (hlist : i.waitsFor = some list) (h : (i.work wait).run s = (.ok none, s')) :
    ∃ object device events window, i = .transfer .copyIn object device events window := by
  have hsome : ∀ {x : StoreAction EventId},
      (do let event ← x; return some event).run s ≠
      ((.ok none, s') : Except Fault (Option EventId) × Store) := by
    intro x hx
    obtain ⟨event, t, -, hevent⟩ := run_bind_eq_ok.1 hx
    cases (Prod.mk.inj hevent).1
  cases i with
  | transfer op object device events window =>
    cases op with
    | copyIn => exact ⟨object, device, events, window, rfl⟩
    | streamIn => exact absurd h hsome
    | streamOut => exact absurd h hsome
  | barrier => exact absurd h hsome
  | allocate => cases hlist
  | addDep | launch | finish => cases hi

/-! ## Instructions -/

namespace Machine

/-- Since `m₀` the last command was submitted, to the device of an index and with a wait list. -/
def Sent (m₀ : Machine) (index : Nat) (wait : List EventId) (m : Machine) : Prop :=
  ∃ event, m.lastEvent = some event ∧ m₀.context.Submitted index wait m.context event

variable {m : Machine}

/-- A lazy transfer whose device holds what was to be sent, and after which the devices are as
before. -/
def Needless (m : Machine) (i : Instruction) (m' : Machine) : Prop :=
  ∃ object device events window, i = .transfer .copyIn object device events window ∧
    (∃ r, m.store.table.record object device = .ok r ∧ r.holds window = true) ∧
    m'.context.devices = m.context.devices

/-- What an instruction that takes an event list over has done when it ends with a note or without
one. -/
def Handled (m : Machine) (i : Instruction) (note : Option Note) (m' : Machine) : Prop :=
  note = some .notCompiled ∨ (note = some .alreadyValid ∧ m.Needless i m') ∨
    (note = none ∧ ∃ index, m.Sent index (m.ledger.content i.waitsFor) m')

theorem handled_of_perform (hi : i.works = true) (hlist : i.waitsFor = some list)
    (h : (perform i).run m = (.ok note, m')) : m.Handled i note m' := by
  rcases perform_cases hi m with
    ⟨e, hrun⟩ | ⟨wait, hwait, ⟨e, s, hx, hrun⟩ | ⟨event, s, ledger, hx, -, hrun⟩⟩
  · cases (Prod.mk.inj (h.symm.trans hrun)).1
  · cases (Prod.mk.inj (h.symm.trans hrun)).1
  · obtain ⟨hnote, rfl⟩ := Prod.mk.inj (h.symm.trans hrun)
    cases event with
    | some event =>
      obtain ⟨index, hissues⟩ := Store.issues_work (K := EventKind.With wait) i
        (fun hnone => absurd (hnone.symm.trans hlist) (by simp)) fun _ hkind => ⟨hkind, rfl⟩
      have hrecords := (hissues m.context).of_ok hx (.refl _) event rfl
      exact .inr
        (.inr ⟨Except.ok.inj hnote, index, event, rfl, EventLedger.eq_content hwait ▸
          hrecords.submitted⟩)
    | none =>
      obtain ⟨object, device, events, window, rfl⟩ := Instruction.isLazy_of_work hi hlist hx
      exact .inr
        (.inl ⟨Except.ok.inj hnote, object, device, events, window, rfl,
          Store.needless_of_copyIn hx⟩)

/-- With dependencies a launch that has its code submits it to the device of the code. -/
theorem meets_submitLaunch_sent (hon : m.config.useDependencies = true)
    (entry : CacheEntry) (t : Task) (frame device task : Nat) (events : Option Nat)
    (window : Option Window) (f : CallFrame) :
    Meets (Since (fun _ => True) Succeeded m (· = m.ledger))
      (submitLaunch entry t frame device task events window f)
      (fun _ => m.Sent entry.device (m.ledger.content events)) (fun _ => True) := by
  intro m' hm'
  rcases submitLaunch_cases entry t frame device task events window f m' with
    ⟨e, -, hrun⟩ | ⟨wait, hwait, ⟨e, s, hx, hrun⟩ | ⟨r, s, ledger, hx, -, hrun⟩⟩
  · rw [hrun]
    trivial
  · rw [hrun]
    trivial
  · rw [hrun]
    rw [if_pos (hm'.config_eq ▸ hon)] at hx
    have hissues : Store.Issues (EventKind.With wait) entry.device _ _ :=
      Store.issues_inContext (Station.issues_launch ⟨by decide, rfl⟩ entry.code f t.name window)
    have hrecords := (hissues m.context).of_ok hx hm'.moves.ended r.1 rfl
    have hcontent : wait = m.ledger.content events := hm'.ledger ▸ EventLedger.eq_content hwait
    exact ⟨r.1, rfl, hcontent ▸ hrecords.submitted⟩

theorem handled_of_launch (hon : m.config.useDependencies = true) {frame device task : Nat}
    {events : Option Nat} {window : Option Window} {arguments : List Argument}
    (h : (launch .normal frame device task events window arguments).run m = (.ok note, m')) :
    m.Handled (.launch frame device task events window arguments) note m' := by
  obtain ⟨m₁, -, -, hr⟩ | ⟨entry, m₁, t, m₂, f, v, hcode, -, -, haside, hv, hsubmit⟩ :=
    (launching_of_run h).cases_submitted
  · obtain ⟨⟨⟩, -⟩ | rfl := hr note rfl
    exact .inl rfl
  · cases v with
    | error fault => cases hv
    | ok _ =>
      cases hv
      have hsent := meets_submitLaunch_sent hon entry t frame device task events window f
      exact .inr
        (.inr ⟨rfl, entry.device, hsent.of_ok hsubmit (.of_reframed (.inr ⟨_, hcode⟩) haside)⟩)

/-- An instruction that names an event list takes it over with a command, unless it is skipped. -/
theorem handled_of_effect (hon : m.config.useDependencies = true) (hlist : i.waitsFor = some list)
    (h : (effect .normal i).run m = (.ok note, m')) : m.Handled i note m' := by
  cases i with
  | transfer | barrier => exact handled_of_perform rfl hlist h
  | launch frame device task events window arguments =>
    exact handled_of_launch hon h
  | allocate | addDep | finish => cases hlist

/-! ## Sessions -/

/-- An event list that an instruction empties is the one that the instruction names. Either the
instruction has submitted a command that waits for exactly these events, or it is a lazy transfer
that was not needed; that one submits nothing, and nothing waits for the events. -/
theorem emptied_list_handed_over {code : Bytes} {config : Config} {c c' : Context} {m : Machine}
    (hm : (create code config).run c = (.ok m, c')) (hon : config.useDependencies = true)
    {requests : List Request} {past future : List Moment} {x : Moment}
    (hx : timeline requests m = past ++ x :: future) {i : Instruction} {note : Option Note}
    (hdeed : x.deed = .instruction .normal i (.ok note)) {list : Nat}
    (hheld : x.before.ledger.held list ≠ []) (hempty : x.after.ledger.held list = []) :
    i.waitsFor = some list ∧
      ((note = none ∧ ∃ index, x.before.Sent index (x.before.ledger.held list) x.after) ∨
        (note = some .alreadyValid ∧ x.before.Needless i x.after)) := by
  have hdeclared := (lasting_declared hon).before (declared_create hm hon) hx
  have hdependencies : x.before.config.useDependencies = true := by rw [hdeclared.config_eq, hon]
  have hrun := run_effect_of_deed hx hdeed
  have heffect := meets_effect (W := fun _ => True) .normal i
    (hdeclared.enabled.trans hdependencies.symm) trivial x.before rfl
  rw [hrun] at heffect
  -- The list has not become empty by an event being added to it.
  have hclears : (Deed.instruction .normal i (.ok note)).clears list = true := by
    have hafter := EventLedger.held_carried hdeclared.enabled heffect.ledger list
    by_contra hclears
    rw [if_neg hclears, hempty] at hafter
    exact hheld (List.append_eq_nil_iff.1 hafter.symm).1
  obtain ⟨hlist, hnote⟩ : i.waitsFor = some list ∧ note ≠ some .notCompiled := by
    simpa [Deed.clears] using hclears
  have hcontent : x.before.ledger.content i.waitsFor = x.before.ledger.held list := by
    rw [hlist, EventLedger.content_eq_held hdeclared.enabled]
  refine ⟨hlist, ?_⟩
  rcases handled_of_effect hdependencies hlist hrun with
    hskipped | hneedless | ⟨hnone, index, hsent⟩
  · exact absurd hskipped hnote
  · exact .inr hneedless
  · exact .inl ⟨hnone, index, hcontent ▸ hsent⟩

/-- A write is declared for a list, and the transfer that names the list waits for it. -/
theorem emptied_list_handed_over_write :
    let p : Program := ⟨⟨1, 0, 1, []⟩,
      [.transfer .copyIn 0 0 none none, .addDep 0, .transfer .streamIn 0 0 (some 0) none, .finish]⟩
    let c : Context := {
      devices := [{ name := "d" }]
      objects := [⟨"a", [1, 0, 0, 0]⟩]
      constants := []
      tasks := [] }
    ∃ m c' past x future, (create p.encode { useDependencies := true }).run c = (.ok m, c') ∧
      timeline [.pass .normal .plain] m = past ++ x :: future ∧ past.length = 2 ∧
      x.before.ledger.held 0 = [1] ∧ x.after.ledger.held 0 = [] ∧
      ∃ index, x.before.Sent index [1] x.after := by
  intro p c
  have hrun : (((create p.encode { useDependencies := true }).outcome c).toOption.map fun m =>
      (timeline [.pass .normal .plain] m)[2]?.map fun x =>
        (x.deed, x.before.ledger.held 0, x.after.ledger.held 0)) =
      some
      (some (.instruction .normal (.transfer .streamIn 0 0 (some 0) none) (.ok none),
        [1], [])) := by
    decide +kernel
  obtain ⟨m, c', hm, hread⟩ := Action.exists_run_of_read hrun
  obtain ⟨x, hx, hfacts⟩ := Option.map_eq_some_iff.1 hread
  obtain ⟨hdeed, hlists⟩ := Prod.mk.inj hfacts
  obtain ⟨hbefore, hafter⟩ := Prod.mk.inj hlists
  obtain ⟨past, future, htimeline, hlength⟩ := exists_split_at hx
  have hheld : x.before.ledger.held 0 ≠ [] := by
    rw [hbefore]
    exact List.cons_ne_nil _ _
  have hhanded := (emptied_list_handed_over hm rfl htimeline hdeed hheld hafter).2
  rw [hbefore] at hhanded
  rcases hhanded with ⟨-, hsent⟩ | ⟨hnote, -⟩
  · exact ⟨m, c', _, x, _, hm, htimeline, hlength, hbefore, hafter, hsent⟩
  · cases hnote

/-- The second transfer finds the object on the device. It is carried out, empties the list that
holds the first one, and no event of the pass waits for that. -/
theorem emptied_list_dropped :
    let p : Program := ⟨⟨1, 0, 1, []⟩,
      [.transfer .copyIn 0 0 none none, .addDep 0, .transfer .copyIn 0 0 (some 0) none, .finish]⟩
    let c : Context := {
      devices := [{ name := "d" }]
      objects := [⟨"a", [1, 0, 0, 0]⟩]
      constants := []
      tasks := [] }
    ((create p.encode { useDependencies := true }).outcome c).toOption.map (fun m =>
        ((timeline [.pass .normal .plain] m).map fun x =>
          (x.before.ledger.held 0, x.deed.isFailure),
            (session [.pass .normal .plain] m).2.context.devices.flatMap fun d => d.log.issued)) =
      some ([([], false), ([], false), ([1], false), ([], false), ([], false)],
        [(.allocate, []), (.write, []), (.marker, [])]) := by
  decide +kernel

end Machine

end Offload
