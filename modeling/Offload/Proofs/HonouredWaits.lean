import Offload.Proofs.QueueOrder
import Offload.Proofs.Submissions

/-!
# A single device honours its wait lists

A device runs its commands without a look at their wait lists. On a machine with one device they are
honoured all the same: the lists hold nothing but numbers that this device has given out before, and
the queue is worked off from the oldest event on. So whenever a command is run, at once or from the
queue, all that it was to wait for has ended. The log keeps the order in which the commands were
run, and it is this order that is spoken of.
-/

namespace Offload

open EventStatus (Ended)

namespace Device

/-- The log tells which commands were run: the events that wait are those of the others. A new
buffer has no command. -/
structure Timed (d : Device) : Prop where
  recorded : ∀ id ∈ d.log.ran, id < d.log.size
  queued : ∀ id r, d.log.get? id = some r →
    (r.status = .queued ↔ r.kind ≠ .allocate ∧ id ∉ d.log.ran)

/-- The events from the number `first` on wait for events that were there before them. -/
def Backward (first : Nat) (d : Device) : Prop :=
  ∀ (event : EventId) (r : EventRecord), first ≤ event → d.log.get? event = some r →
    ∀ id ∈ r.waitList, id < event

/-- When the command of an event from the number `first` on was run, all commands that it waits for
had been run. -/
def Honours (first : Nat) (d : Device) : Prop :=
  ∀ later event earlier r, d.log.ran = later ++ event :: earlier → first ≤ event →
    d.log.get? event = some r → ∀ id ∈ r.waitList,
      ∃ r', d.log.get? id = some r' ∧ (r'.kind = .allocate ∨ id ∈ earlier)

/-- A device that honours its wait lists, and why it does. -/
structure Observant (first : Nat) (d : Device) : Prop where
  inLine : d.InLine
  timed : d.Timed
  backward : d.Backward first
  honours : d.Honours first

variable {d d' : Device} {W : List EventId → Prop} {F : EventStatus → Prop} {first : Nat}

theorem exists_status?_of_lt {id : EventId} (hid : id < d.log.size) :
    ∃ status, d.status? id = some status := by
  obtain ⟨r, hr⟩ := EventLog.exists_get? hid
  exact ⟨r.status, by rw [status?, hr, Option.map_some]⟩

/-- What does not wait was run, unless it is a buffer. -/
theorem Timed.run_of_not_queued (hd : d.Timed) {id : EventId} (hid : id < d.log.size)
    (hstatus : d.status? id ≠ some .queued) :
    ∃ r, d.log.get? id = some r ∧ (r.kind = .allocate ∨ id ∈ d.log.ran) := by
  obtain ⟨r, hr⟩ := EventLog.exists_get? hid
  refine ⟨r, hr, ?_⟩
  by_contra hnot
  rw [not_or] at hnot
  rw [status?, hr, Option.map_some, (hd.queued id r hr).2 hnot] at hstatus
  exact hstatus rfl

/-- A new event. It waits, it is a buffer, or it is run at once while nothing else waits. -/
theorem Observant.add (hd : d.Observant first) {r : EventRecord} (hline : d'.InLine)
    (hsize : d'.log.size = d.log.size + 1)
    (hlog : ∀ id : EventId, d'.log.get? id = if id = d.log.size then some r else d.log.get? id)
    (hwaits : ∀ id ∈ r.waitList, id < d.log.size)
    (hran : d'.log.ran = d.log.ran ∧ (r.status = .queued ↔ r.kind ≠ .allocate) ∨
      d'.log.ran = d.log.size :: d.log.ran ∧ r.status ≠ .queued ∧ d.queue = []) :
    d'.Observant first := by
  have hold : ∀ {id r'}, id ≠ d.log.size → d'.log.get? id = some r' → d.log.get? id = some r' := by
    intro id r' hid hr'
    rwa [hlog, if_neg hid] at hr'
  have hkept : ∀ {id r'}, d.log.get? id = some r' → d'.log.get? id = some r' := by
    intro id r' hr'
    have hstatus : d.status? id = some r'.status := by rw [status?, hr', Option.map_some]
    rw [hlog, if_neg (Nat.ne_of_lt (lt_size_of_status? hstatus)), hr']
  have hfresh : d.log.size ∉ d.log.ran := fun h => Nat.lt_irrefl _ (hd.timed.recorded _ h)
  refine ⟨hline, ⟨fun id hid => ?_, fun id r' hr' => ?_⟩, fun event r' hfirst hr' => ?_, ?_⟩
  · rw [hsize]
    rcases hran with ⟨hran, -⟩ | ⟨hran, -⟩
    · exact Nat.lt_succ_of_lt (hd.timed.recorded id (hran ▸ hid))
    · rcases List.mem_cons.1 (hran ▸ hid) with rfl | hid
      · exact Nat.lt_succ_self _
      · exact Nat.lt_succ_of_lt (hd.timed.recorded id hid)
  · by_cases hid : id = d.log.size
    · rw [hlog, if_pos hid] at hr'
      cases hr'
      subst hid
      rcases hran with ⟨hran, hstatus⟩ | ⟨hran, hstatus, -⟩
      · rw [hran, hstatus, and_iff_left hfresh]
      · simp [hran, hstatus]
    · rw [hd.timed.queued id r' (hold hid hr')]
      rcases hran with ⟨hran, -⟩ | ⟨hran, -⟩
      · rw [hran]
      · simp [hran, hid]
  · by_cases hevent : event = d.log.size
    · rw [hlog, if_pos hevent] at hr'
      cases hr'
      exact hevent ▸ hwaits
    · exact hd.backward event r' hfirst (hold hevent hr')
  · intro later event earlier r' hsplit hfirst hr' id hid
    -- What was run before is as it was, for its records are.
    have hbefore : ∀ later, d.log.ran = later ++ event :: earlier →
        ∃ r', d'.log.get? id = some r' ∧ (r'.kind = .allocate ∨ id ∈ earlier) := by
      intro later hsplit
      have hlt := hd.timed.recorded event (by simp [hsplit])
      obtain ⟨r'', hr'', hrun⟩ :=
        hd.honours later event earlier r' hsplit hfirst (hold (Nat.ne_of_lt hlt) hr') id hid
      exact ⟨r'', hkept hr'', hrun⟩
    rcases hran with ⟨hran, -⟩ | ⟨hran, -, hempty⟩
    · exact hbefore later (hran ▸ hsplit)
    · rw [hran] at hsplit
      rcases List.cons_eq_append_iff.1 hsplit with ⟨-, heq⟩ | ⟨rest, -, hrest⟩
      · cases heq
        rw [hlog, if_pos rfl] at hr'
        cases hr'
        obtain ⟨r'', hr'', hrun⟩ := hd.timed.run_of_not_queued (hwaits id hid) fun hqueued => by
          have hmem := hd.inLine.mem_queue_iff.2 hqueued
          simp [hempty] at hmem
        exact ⟨r'', hkept hr'', hrun⟩
      · exact hbefore rest hrest

/-- The oldest command that waits is run. What waits beside it has a larger number. -/
theorem Observant.take (hd : d.Observant first) {p : Pending} {rest : List Pending}
    {status : EventStatus} (hqueue : d.queue = p :: rest) (hstatus : status.Ended) :
    (Device.setStatus { d with queue := rest } p.event status).Observant first := by
  have hhead : d.status? p.event = some .queued :=
    hd.inLine.mem_queue_iff.1 (hqueue ▸ List.mem_map_of_mem List.mem_cons_self)
  have hlt := lt_size_of_status? hhead
  have hran : (Device.setStatus { d with queue := rest } p.event status).log.ran = p.event ::
      d.log.ran := by
    rw [setStatus, EventLog.setStatus, if_pos hlt]
  have hget : ∀ {id r'}, (Device.setStatus { d with queue := rest } p.event status).log.get?
      id = some r' → ∃ r, d.log.get? id = some r ∧
      r' = if p.event = id then { r with status } else r := by
    intro id r' hr'
    rw [setStatus, EventLog.get?_setStatus] at hr'
    obtain ⟨r, hr, heq⟩ := Option.map_eq_some_iff.1 hr'
    exact ⟨r, hr, heq.symm⟩
  have hkept : ∀ {id r}, d.log.get? id = some r →
      ∃ r', (Device.setStatus { d with queue := rest } p.event status).log.get? id = some r' ∧
        r'.kind = r.kind := by
    intro id r hr
    refine ⟨_, by rw [setStatus, EventLog.get?_setStatus, hr, Option.map_some], ?_⟩
    split_ifs <;> rfl
  refine ⟨hd.inLine.take hqueue hstatus, ⟨fun id hid => ?_, fun id r' hr' => ?_⟩,
    fun event r' hfirst hr' => ?_, ?_⟩
  · rw [setStatus, EventLog.size_setStatus]
    rcases List.mem_cons.1 (hran ▸ hid) with rfl | hid
    · exact hlt
    · exact hd.timed.recorded id hid
  · obtain ⟨r, hr, rfl⟩ := hget hr'
    rw [hran]
    by_cases hid : p.event = id
    · have hnot : status ≠ .queued := by
        rintro rfl
        simp [Ended] at hstatus
      simp [hid, hnot]
    · simpa [hid, Ne.symm hid] using hd.timed.queued id r hr
  · obtain ⟨r, hr, rfl⟩ := hget hr'
    have hbackward := hd.backward event r hfirst hr
    split_ifs <;> exact hbackward
  · intro later event earlier r' hsplit hfirst hr' id hid
    obtain ⟨r, hr, rfl⟩ := hget hr'
    replace hid : id ∈ r.waitList := by
      split_ifs at hid <;> exact hid
    have hrun : ∃ r, d.log.get? id = some r ∧ (r.kind = .allocate ∨ id ∈ earlier) := by
      rw [hran] at hsplit
      rcases List.cons_eq_append_iff.1 hsplit with ⟨-, heq⟩ | ⟨rest', -, hrest⟩
      · cases heq
        have hidlt := hd.backward p.event r hfirst hr id hid
        refine hd.timed.run_of_not_queued (hidlt.trans hlt) fun hqueued => ?_
        have hmem := hd.inLine.mem_queue_iff.2 hqueued
        rw [hqueue, List.map_cons, List.mem_cons] at hmem
        rcases hmem with rfl | hmem
        · exact Nat.lt_irrefl _ hidlt
        · exact Nat.lt_asymm hidlt (hd.inLine.head_lt hqueue hmem)
      · exact hd.honours rest' event earlier r hrest hfirst hr id hid
    obtain ⟨r, hr, hrun⟩ := hrun
    obtain ⟨r', hr', hkind⟩ := hkept hr
    exact ⟨r', hr', hkind ▸ hrun⟩

theorem Observant.aside (hd : d.Observant first) (hlog : d'.log = d.log) (hline : d'.InLine) :
    d'.Observant first := by
  obtain ⟨-, ⟨hrecorded, hqueued⟩, hbackward, hhonours⟩ := hd
  refine ⟨hline, ⟨by rwa [hlog], by rwa [hlog]⟩, ?_, ?_⟩
  · rwa [Backward, hlog]
  · rwa [Honours, hlog]

/-- Every move keeps the order, if what is submitted waits for events with numbers below `n` and
these were given out. -/
theorem Move.observant {n : Nat} (h : d.Move (fun wait => ∀ id ∈ wait, id < n) Ended d')
    (hn : n ≤ d.log.size) (hd : d.Observant first) : d'.Observant first := by
  have hline := h.inLine hd.inLine
  cases h with
  | aside hlog => exact hd.aside hlog hline
  | allocated label =>
    exact hd.add hline rfl (EventLog.get?_add d.log _) (fun id hid => by cases hid)
      (.inl ⟨rfl, by simp⟩)
  | queued kind label wait c _ hkind hwait =>
    exact hd.add hline rfl (EventLog.get?_add d.log _) (fun id hid => (hwait id hid).trans_le hn)
      (.inl ⟨rfl, by simpa using hkind⟩)
  | ran kind label wait status heager _ hwait hstatus =>
    have hnot : status ≠ .queued := by
      rintro rfl
      simp [Ended] at hstatus
    refine hd.add hline (by simp [record, setStatus]) (EventLog.get?_add_setStatus d.log _ _)
      (fun id hid => (hwait id hid).trans_le hn) (.inr ⟨?_, hnot, hd.inLine.eager heager⟩)
    rw [setStatus, EventLog.setStatus, if_pos (by simp [record])]
    rfl
  | taken p rest status hqueue hstatus => exact hd.take hqueue hstatus

theorem Moves.observant (h : d.Moves (fun wait => ∀ id ∈ wait, id < d.log.size) Ended d')
    (hd : d.Observant first) : d'.Observant first := by
  have hboth : d.log.size ≤ d'.log.size ∧ d'.Observant first := by
    induction h with
    | refl => exact ⟨Nat.le_refl _, hd⟩
    | tail hmoves hmove ih => exact ⟨Moves.size_le (hmoves.tail hmove), hmove.observant ih.1 ih.2⟩
  exact hboth.2

end Device

theorem Station.opened_timed (name : String) (options : DeviceOptions) (kernels : Registry)
    (objects : List HostObject) : (opened name options kernels objects).device.Timed := by
  refine ⟨fun id hid => ?_, fun id r hr => ?_⟩
  · cases hid
  · cases hr

theorem Deed.last_of_mem_declares {deed : Deed} {list : Nat} {last : Option EventId} {id : EventId}
    (h : id ∈ deed.declares list last) : last = some id := by
  revert h
  unfold declares
  split
  · split_ifs
    · simp
    · simp
  · simp

/-! ## Machines with one device -/

namespace Machine

/-- The machine may still put an event into a wait list: the event is the last one or in a list. -/
def Refers (m : Machine) (event : EventId) : Prop :=
  m.lastEvent = some event ∨ ∃ list, event ∈ m.ledger.held list

/-- A machine whose one device is `d`, which honours its wait lists. All events to which the machine
refers have been given out by the device. -/
structure Alone (first : Nat) (d : Device) (m : Machine) : Prop where
  devices : m.context.devices = [d]
  observant : d.Observant first
  given : ∀ event, m.Refers event → event < d.log.size
  enabled : m.ledger.enabled = true
  dependencies : m.config.useDependencies = true

variable {first : Nat} {d : Device} {m m' : Machine}

theorem Alone.content_lt (h : m.Alone first d) (list : Option Nat) :
    ∀ id ∈ m.ledger.content list, id < d.log.size := by
  intro id hid
  cases list with
  | none => cases hid
  | some list =>
    rw [EventLedger.content_eq_held h.enabled] at hid
    exact h.given id (.inr ⟨list, hid⟩)

theorem exists_device_of_moves {W : List EventId → Prop} {F : EventStatus → Prop} {c c' : Context}
    (hdevices : c.devices = [d]) (h : c.Moves W F c') :
    ∃ d', c'.devices = [d'] ∧ d.Moves W F d' := by
  have hlength : c'.devices.length = 1 := by rw [h.length_eq, hdevices, List.length_singleton]
  obtain ⟨d', hd'⟩ := List.length_eq_one_iff.1 hlength
  have hbefore : c.devices[0]? = some d := by rw [hdevices, List.getElem?_cons_zero]
  have hafter : c'.devices[0]? = some d' := by rw [hd', List.getElem?_cons_zero]
  exact ⟨d', hd', h.device hbefore hafter⟩

/-- The device moves on, and the machine refers to old events or to those of the device. -/
theorem Alone.moved (h : m.Alone first d)
    (hmoves : m.context.Moves (fun wait => ∀ id ∈ wait, id < d.log.size) Ended m'.context)
    (hconfig : m'.config = m.config) (henabled : m'.ledger.enabled = m.ledger.enabled)
    (hgiven : ∀ event, m'.Refers event → m.Refers event ∨ m.context.Issued m'.context event) :
    ∃ d', m'.Alone first d' := by
  obtain ⟨d', hdevices, hd⟩ := exists_device_of_moves h.devices hmoves
  refine ⟨d', hdevices, Device.Moves.observant hd h.observant, ?_, henabled.trans h.enabled,
    by rw [hconfig, h.dependencies]⟩
  intro event hevent
  rcases hgiven event hevent with hold | ⟨index, dᵢ, dᵢ', -, hdᵢ', -, hlt⟩
  · exact Nat.lt_of_lt_of_le (h.given event hold) (Device.Moves.size_le hd)
  · rw [hdevices] at hdᵢ'
    obtain rfl : dᵢ' = d' := by
      simpa using (List.mem_of_getElem? hdᵢ')
    exact hlt

theorem Alone.congr (h : m.Alone first d) (hdevices : m'.context.devices = m.context.devices)
    (hconfig : m'.config = m.config) (hledger : m'.ledger = m.ledger)
    (hlast : ∀ event, m'.lastEvent = some event → m.lastEvent = some event) : m'.Alone first d := by
  refine ⟨hdevices.trans h.devices, h.observant, fun event hevent => h.given event ?_,
    by rw [hledger, h.enabled], by rw [hconfig, h.dependencies]⟩
  rw [Refers, hledger] at hevent
  exact hevent.imp_left (hlast event)

theorem Alone.carry (h : m.Alone first d) (mode : PassMode) (i : Instruction) :
    ∃ d', ((effect mode i).run m).2.Alone first d' := by
  have heffect := meets_effect (W := fun wait => ∀ id ∈ wait, id < d.log.size) mode i
    (h.enabled.trans h.dependencies.symm) (h.content_lt i.waitsFor) m rfl
  have hfresh := (fresh_effect mode i m).last
  revert heffect hfresh
  rcases (effect mode i).run m with ⟨r, m'⟩
  cases r with
  | error fault =>
    intro heffect hfresh
    have hledger : m'.ledger = m.ledger := heffect.ledger
    refine h.moved heffect.moves heffect.config_eq (by rw [hledger]) fun event hevent => ?_
    rcases hevent with hlast | ⟨list, hheld⟩
    · exact (hfresh event hlast).imp_left .inl
    · rw [hledger] at hheld
      exact .inl (.inr ⟨list, hheld⟩)
  | ok note =>
    intro heffect hfresh
    refine h.moved heffect.moves.ended heffect.config_eq
      (EventLedger.enabled_carried heffect.ledger) fun event hevent => ?_
    rcases hevent with hlast | ⟨list, hheld⟩
    · exact (hfresh event hlast).imp_left .inl
    · -- A list gets the last event at most.
      rw [EventLedger.held_carried h.enabled heffect.ledger] at hheld
      split_ifs at hheld
      · cases hheld
      · rcases List.mem_append.1 hheld with hheld | hheld
        · exact .inl (.inr ⟨list, hheld⟩)
        · exact .inl (.inl (Deed.last_of_mem_declares hheld))

theorem lastEvent_closing (mode : PassMode) (kind : PassKind) (body : Except Fault Unit)
    (m : Machine) :
    ((closing mode kind body).run m).2.lastEvent = m.lastEvent := by
  have hkeeps : Action.Keeps (fun m' => m'.lastEvent = m.lastEvent) (closing mode kind body) :=
    keeps_closing_of_rest (fun _ _ _ _ _ _ => id) (fun _ => id) mode kind body
  exact Action.meets_iff_after.1 hkeeps m rfl

theorem Alone.close (h : m.Alone first d) (mode : PassMode) (kind : PassKind)
    (body : Except Fault Unit) : ∃ d', ((closing mode kind body).run m).2.Alone first d' := by
  have hnone : ∀ wait : List EventId, wait = [] → ∀ id ∈ wait, id < d.log.size := by
    rintro _ rfl id hid
    cases hid
  have hclosing := meets_closing mode kind body m m rfl
  have hlast := lastEvent_closing mode kind body m
  revert hclosing hlast
  rcases (closing mode kind body).run m with ⟨r, m'⟩
  cases r with
  | ok event =>
    intro hclosing hlast
    have hledger : m'.ledger = m.ledger := hclosing.ledger
    refine h.moved (hclosing.moves.ended.mono hnone fun _ => id) hclosing.config_eq
      (by rw [hledger]) fun event hevent => .inl ?_
    rw [Refers, show m'.lastEvent = m.lastEvent from hlast, hledger] at hevent
    exact hevent
  | error fault =>
    intro hclosing hlast
    have hledger : m'.ledger = m.ledger.clear := hclosing.ledger
    refine h.moved (hclosing.moves.mono hnone fun _ => id) hclosing.config_eq
      (by rw [hledger]; rfl) fun event hevent => .inl ?_
    rcases hevent with hevent | ⟨list, hheld⟩
    · exact .inl (hlast ▸ hevent)
    · rw [hledger, EventLedger.held_clear] at hheld
      cases hheld

theorem lasting_alone (first : Nat) : Lasting fun _ m => ∃ d, m.Alone first d := by
  refine lasting_of_aside ?_ ?_ ?_ ?_
  · rintro past m reader journal trace lastEvent hkept ⟨d, h⟩
    refine ⟨d, h.congr rfl rfl rfl fun event hlast => ?_⟩
    rcases hkept with rfl | rfl
    · cases hlast
    · exact hlast
  · rintro past m mode i ⟨d, h⟩
    exact h.carry mode i
  · rintro past m mode kind body ⟨d, h⟩
    exact h.close mode kind body
  · rintro past m ⟨d, h⟩
    exact ⟨d, h.congr rfl rfl rfl fun _ => id⟩

/-! ## Sessions -/

theorem alone_create {code : Bytes} {config : Config} {c c' : Context} {d₀ : Device}
    (hdevice : c.devices = [d₀]) (hline : d₀.InLine) (htimed : d₀.Timed)
    (hon : config.useDependencies = true) (hm : (create code config).run c = (.ok m, c')) :
    ∃ d, m.Alone d₀.log.size d := by
  have hmoves : c.Moves (fun wait => ∀ id ∈ wait, id < d₀.log.size) Ended m.context :=
    moves_of_create hm
  obtain ⟨d, hdevices, hd⟩ := exists_device_of_moves hdevice hmoves
  -- So far no event from this number on is there.
  have hobservant : d₀.Observant d₀.log.size := by
    refine ⟨hline, htimed, fun event r hfirst hr => ?_, fun later event earlier r hran hfirst => ?_⟩
    · have hstatus : d₀.status? event = some r.status := by rw [Device.status?, hr, Option.map_some]
      exact absurd (Device.lt_size_of_status? hstatus) (Nat.not_lt.2 hfirst)
    · exact absurd (htimed.recorded event (by simp [hran])) (Nat.not_lt.2 hfirst)
  have hheld := (declared_create hm hon).held
  have hlast : m.lastEvent = none := by
    obtain ⟨header, reader, rfl⟩ := eq_initial_of_create hm
    rfl
  refine ⟨d, hdevices, Device.Moves.observant hd hobservant, ?_, (declared_create hm hon).enabled,
    by rw [(declared_create hm hon).config_eq, hon]⟩
  rintro event (hevent | ⟨list, hevent⟩)
  · rw [hlast] at hevent
    cases hevent
  · rw [hheld] at hevent
    cases hevent

theorem moves_closing (mode : PassMode) (kind : PassKind) (body : Except Fault Unit) (m : Machine) :
    m.context.Moves (· = []) Ended ((closing mode kind body).run m).2.context :=
  moves_of_meets (meets_closing mode kind body m) rfl

theorem later_of_mem_timeline {requests : List Request} {x : Moment}
    (hx : x ∈ timeline requests m) :
    x.before.context.Later x.after.context := by
  rcases eq_of_mem_timeline hx with ⟨mode, i, hcarry⟩ | ⟨mode, kind, body, hclose⟩ | hforget
  · rw [hcarry]
    exact (fresh_effect mode i x.before).later
  · rw [hclose]
    exact (moves_closing mode kind body x.before).mono (fun _ _ => trivial) fun _ => id
  · rw [hforget]
    exact .refl _

/-- A single device honours its wait lists. After every deed of a session, the events that were
issued in it wait for events with smaller numbers, which the device has in its log. Of the commands
that were run so far, in whatever deed and wherever in it, each was run behind all those that its
event waits for; an event that is waited for and is not among them is that of a buffer, which never
waits. -/
theorem wait_lists_honoured {code : Bytes} {config : Config} {c c' : Context} {d₀ : Device}
    (hdevice : c.devices = [d₀]) (hline : d₀.InLine) (htimed : d₀.Timed)
    (hon : config.useDependencies = true) (hm : (create code config).run c = (.ok m, c'))
    {requests : List Request} {past future : List Moment} {x : Moment}
    (hx : timeline requests m = past ++ x :: future) :
    ∃ d, x.after.context.devices = [d] ∧ d.Timed ∧
      (∀ event r, d₀.log.size ≤ event → d.log.get? event = some r →
        ∀ id ∈ r.waitList, id < event ∧ ∃ r', d.log.get? id = some r') ∧
      ∀ later event earlier r, d.log.ran = later ++ event :: earlier → d₀.log.size ≤ event →
        d.log.get? event = some r → ∀ id ∈ r.waitList,
          ∃ r', d.log.get? id = some r' ∧ (r'.kind = .allocate ∨ id ∈ earlier) := by
  obtain ⟨d, hafter⟩ :=
    (lasting_alone d₀.log.size).after (alone_create hdevice hline htimed hon hm) hx
  have hobservant := hafter.observant
  refine ⟨d, hafter.devices, hobservant.timed, fun event r hfirst hr id hid => ?_,
    hobservant.honours⟩
  have hlt := hobservant.backward event r hfirst hr id hid
  have hstatus : d.status? event = some r.status := by rw [Device.status?, hr, Option.map_some]
  exact ⟨hlt, EventLog.exists_get? (hlt.trans (Device.lt_size_of_status? hstatus))⟩

/-- Two writes are queued, the second to wait for the first, and the end of the pass runs both. -/
theorem wait_lists_honoured_queued :
    let p : Program := ⟨⟨1, 0, 1, []⟩,
      [.transfer .streamIn 0 0 none none, .addDep 0, .transfer .streamIn 0 0 (some 0) none,
        .finish]⟩
    let c : Context := {
      devices := [(Station.opened "d" { deferred := true } .builtin []).device]
      objects := [⟨"a", [1, 0, 0, 0]⟩]
      constants := []
      tasks := [] }
    ∃ m c' past x future d, (create p.encode { useDependencies := true }).run c = (.ok m, c') ∧
      timeline [.pass .normal .plain] m = past ++ x :: future ∧ past.length = 4 ∧
      x.before.context.devices.map (fun d => d.log.ran) = [[]] ∧ x.after.context.devices = [d] ∧
      d.log.ran = [3, 2, 1] ∧ d.log.issued[2]? = some (.write, [1]) ∧
      ∀ id ∈ [1], ∃ r', d.log.get? id = some r' ∧ (r'.kind = .allocate ∨ id ∈ [1]) := by
  intro p c
  have hrun : (((create p.encode { useDependencies := true }).outcome c).toOption.map fun m =>
      (timeline [.pass .normal .plain] m)[4]?.map fun x =>
        decide (x.before.context.devices.map (fun d => d.log.ran) = [[]] ∧
          x.after.context.devices.map (fun d => (d.log.ran, d.log.get? 2)) =
            [([3, 2, 1], some ⟨.write, .complete, "write a", [1]⟩)])) = some (some true) := by
    decide +kernel
  obtain ⟨m, c', hm, hread⟩ := Action.exists_run_of_read hrun
  obtain ⟨x, hx, hfacts⟩ := Option.map_eq_some_iff.1 hread
  obtain ⟨hbefore, hafter⟩ := of_decide_eq_true hfacts
  obtain ⟨past, future, htimeline, hlength⟩ := exists_split_at hx
  obtain ⟨d, hd, -, -, hhonours⟩ := wait_lists_honoured rfl (Station.opened_inLine _ _ _ _)
    (Station.opened_timed _ _ _ _) rfl hm htimeline
  rw [hd, List.map_singleton, List.singleton_inj, Prod.mk.injEq] at hafter
  obtain ⟨hran, hget⟩ := hafter
  have hissued : d.log.issued[2]? = some (.write, [1]) := by
    rw [EventLog.issued, List.getElem?_map, ← EventLog.get?_eq, hget, Option.map_some]
  exact ⟨m, c', past, x, future, d, hm, htimeline, hlength, hbefore, hd, hran, hissued,
    hhonours [3] 2 [1] _ hran (Nat.zero_le _) hget⟩

end Machine

end Offload
