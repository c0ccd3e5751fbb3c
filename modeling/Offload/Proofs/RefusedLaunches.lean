import Offload.Proofs.LaunchDevice
import Offload.Proofs.LaunchOperands
import Offload.Proofs.StoreOutcomes

/-!
# Launches that are refused

A launch looks at its arguments one by one and claims an object for its device as soon as it comes
to an argument that the task writes. A later argument may still be refused, and so may the event
list, at which the launch looks last. The objects claimed until then stay claimed though no launch
was submitted: they belong to the device and count as modified there. Nothing else in the table
changes.
-/

namespace Offload

open Offload.Action

variable {α : Type} {t : Task} {device task : Nat}

/-! ## Arguments -/

theorem Table.Claimed.eq_of_not {t t' : Table} {W : Nat → Prop} (h : t.Claimed device W t')
    (hW : ∀ object, ¬W object) : t' = t := by
  have hrows : t'.rows = t.rows := by
    apply List.ext_getElem?
    intro o
    have howner : t'.rows[o]?.map Row.owner = t.rows[o]?.map Row.owner := h.owners o (hW o)
    have hrecords : ∀ d, t'.get? o d = t.get? o d := fun d => h.records o d fun hw => hW o hw.1
    cases hrow : t.rows[o]? with
    | none =>
      rw [hrow, Option.map_none, Option.map_eq_none_iff] at howner
      exact howner
    | some row =>
      rw [hrow, Option.map_some] at howner
      obtain ⟨row', hrow', hsame⟩ := Option.map_eq_some_iff.1 howner
      have hlist : row'.records = row.records := by
        apply List.ext_getElem?
        intro d
        have hget := hrecords d
        rwa [Table.get?, Table.get?, hrow, hrow', Option.bind_some, Option.bind_some] at hget
      obtain ⟨owner, records⟩ := row
      obtain ⟨owner', records'⟩ := row'
      dsimp only at hsame hlist
      rw [hrow', hsame, hlist]
  obtain ⟨rows⟩ := t
  obtain ⟨rows'⟩ := t'
  exact congrArg Table.mk hrows

namespace Store

variable {s : Store} {object : Nat}

/-- A device has a buffer for an object that holds its bytes. -/
def hasValid (s : Store) (object device : Nat) : Bool :=
  (s.table.get? object device).any fun r => r.valid && r.allocation.isSome

theorem hasValid_iff :
    s.hasValid object device = true ↔ ∃ r a, s.table.get? object device = some r ∧
      r.allocation = some a ∧ r.valid = true := by
  simp only [hasValid, Option.any_eq_true, Bool.and_eq_true, Option.isSome_iff_exists]
  constructor
  · rintro ⟨r, hr, hvalid, a, ha⟩
    exact ⟨r, a, hr, ha, hvalid⟩
  · rintro ⟨r, a, hr, ha, hvalid⟩
    exact ⟨r, hr, hvalid, a, ha⟩

/-- The log of a device has events of these kinds. -/
def Logs (index : Nat) (kinds : List EventKind) (s : Store) : Prop :=
  ∃ d, s.context.devices[index]? = some d ∧ d.log.kinds = kinds

end Store

namespace Machine

variable {m m' : Machine} {f : CallFrame}

/-- A launch on a device can take an argument: the constant is there, or the object is and the
device has a buffer that holds its bytes. -/
def takes (m : Machine) (device : Nat) : Argument → Bool
  | .constant index => m.context.constants[index]?.isSome
  | .reference object => m.store.hasValid object device && m.context.places[object]?.isSome

/-- The arguments before the first one that a launch cannot take. -/
def taken (m : Machine) (device : Nat) (arguments : List Argument) : List Argument :=
  arguments.takeWhile (m.takes device)

/-- Objects that a launch has claimed can be taken as before. -/
theorem Gathering.takes_eq {W : Nat → Prop} (h : Gathering m device W m') (argument : Argument) :
    m'.takes device argument = m.takes device argument := by
  cases argument with
  | constant index =>
    have hconstants : m'.context.constants = m.context.constants :=
      congrArg Context.Core.constants h.core
    rw [takes, takes, hconstants]
  | reference object =>
    have hplaces : m'.context.places = m.context.places := congrArg Context.Core.places h.core
    have hvalid : m'.store.hasValid object device = m.store.hasValid object device := by
      by_cases hw : W object
      · obtain ⟨r, hr, hbuffer, hvalid, hr', -⟩ := h.table.written object hw
        simp [Store.hasValid, hr, hr', hbuffer, hvalid]
      · rw [Store.hasValid, Store.hasValid, h.table.records object device fun hw' => hw hw'.1]
    rw [takes, takes, hvalid, hplaces]

theorem takes_iff {argument : Argument} :
    m.takes device argument = true ↔ ∃ a, m.Grants device argument a := by
  cases argument with
  | constant index =>
    refine Option.isSome_iff_exists.trans ⟨?_, ?_⟩
    · rintro ⟨value, hvalue⟩
      exact ⟨_, .constant hvalue⟩
    · rintro ⟨_, ⟨hvalue⟩⟩
      exact ⟨_, hvalue⟩
  | reference object =>
    rw [takes, Bool.and_eq_true, Store.hasValid_iff, Option.isSome_iff_exists]
    constructor
    · rintro ⟨⟨r, a, hr, ha, hvalid⟩, place, hplace⟩
      exact ⟨_, .reference hr ha hvalid hplace⟩
    · rintro ⟨_, _ | ⟨hr, ha, hvalid, hplace⟩⟩
      exact ⟨⟨_, _, hr, ha, hvalid⟩, _, hplace⟩

/-- The arguments are put into the frame up to the first one that is refused. -/
theorem gathering_marshal {before rest : List Argument}
    (hm' : Gathering m device (t.Writes before) m')
    (hroom : f.arguments.length + rest.length ≤ f.capacity) (id : Nat) :
    Gathering m device (t.Writes (before ++ m.taken device rest))
      ((marshal t id device before.length rest f).run m').2 ∧
    (m.taken device rest = rest →
      ∃ g m₁, (marshal t id device before.length rest f).run m' = (.ok g, m₁)) := by
  induction rest generalizing before f m' with
  | nil =>
    refine ⟨?_, fun _ => ⟨f, m', rfl⟩⟩
    rw [taken, List.takeWhile_nil, List.append_nil]
    exact hm'
  | cons argument rest ih =>
    rw [List.length_cons] at hroom
    have hfits : f.arguments.length < f.capacity := by omega
    have hroom' : f.arguments.length + 1 + rest.length ≤ f.capacity := by omega
    rcases marshal_cons_cases m' t id device before.length argument rest f with
      ⟨fault, hrefused, hrun⟩ | ⟨a, s, ha, -, hs, hrun⟩
    · have htaken : m.taken device (argument :: rest) = [] := by
        refine List.takeWhile_cons_of_neg fun htakes => ?_
        obtain ⟨a, ha⟩ := takes_iff.1 ((hm'.takes_eq argument).trans htakes)
        exact absurd (hrefused a ha) (Nat.not_le.2 hfits)
      rw [hrun, htaken, List.append_nil]
      refine ⟨hm', fun hnil => ?_⟩
      cases hnil
    · have htaken : m.taken device (argument :: rest) = argument :: m.taken device rest :=
        List.takeWhile_cons_of_pos ((hm'.takes_eq argument).symm.trans (takes_iff.2 ⟨a, ha⟩))
      have hlength : (f.pushed a).arguments.length = f.arguments.length + 1 := List.length_append
      have hnext := ih (f := f.pushed a) (hm'.claims ha hs (m'.frames.put id (f.pushed a)))
        (by rw [hlength]; exact hroom')
      rw [List.length_append, List.length_singleton, List.append_assoc] at hnext
      rw [hrun, htaken]
      refine ⟨hnext.1, fun hall => hnext.2 ?_⟩
      exact (List.cons.inj hall).2

/-! ## Submissions -/

theorem keeps_table_submitLaunch (table : Table) (entry : CacheEntry) (t : Task)
    (frame device task : Nat) (events : Option Nat) (window : Option Window) (f : CallFrame) :
    Keeps (fun n => n.store.table = table)
      (submitLaunch entry t frame device task events window f) := by
  refine keeps_of_run fun n v n' hn hrun => ?_
  rcases submitLaunch_cases entry t frame device task events window f n with
    ⟨e, -, hrun'⟩ | ⟨wait, -, ⟨e, s, hx, hrun'⟩ | ⟨q, s, ledger, hx, -, hrun'⟩⟩ <;>
    cases hrun'.symm.trans hrun
  · exact hn
  · rcases Store.onDevice_cases hx with ⟨rfl, -⟩ | ⟨d, -, -, rfl⟩ <;> exact hn
  · rcases Store.onDevice_cases hx with ⟨rfl, -⟩ | ⟨d, -, -, rfl⟩ <;> exact hn

/-- A submission that fails has found no event list or no device, or it has left a launch in the log
of the device. -/
theorem submitLaunch_of_error {entry : CacheEntry} {frame : Nat} {events : Option Nat}
    {window : Option Window} {fault : Fault}
    (hrun : (submitLaunch entry t frame device task events window f).run m = (.error fault, m')) :
    (m.ledger.waitList events = .error fault ∧ m' = m) ∨
    (fault = .indexOutOfRange .device entry.device m.context.devices.length ∧ m' = m) ∨
    ∃ d, m.context.devices[entry.device]? = some d ∧
    m'.store.Logs entry.device (d.log.kinds ++ [.launch]) := by
  rcases submitLaunch_cases entry t frame device task events window f m with
    ⟨e, hlist, hrun'⟩ | ⟨wait, -, ⟨e, s, hx, hrun'⟩ | ⟨q, s, ledger, hx, -, hrun'⟩⟩ <;>
    cases hrun'.symm.trans hrun
  · exact .inl ⟨hlist, rfl⟩
  · refine .inr ?_
    rcases Store.onDevice_cases hx with ⟨rfl, hfault⟩ | ⟨d, hd, -, rfl⟩
    · exact .inl ⟨Except.error.inj hfault, rfl⟩
    · exact .inr ⟨d, hd, _, List.getElem?_set_self (List.getElem?_eq_some_iff.1 hd).1,
        Station.kinds_launch ..⟩

/-! ## Launches -/

/-- A launch comes to its arguments: it belongs to a normal pass, its task and its device are there,
the task has code or the device has a kernel for it, and no device holds the frame. -/
structure Marshals (m : Machine) (mode : PassMode) (frame device task count : Nat) (t : Task) :
    Prop where
  normal : mode = .normal
  task_eq : m.context.tasks[task]? = some t
  code : ∃ d, m.context.devices[device]? = some d ∧
    ((m.code.get? task).isSome = true ∨ (d.kernels.get? t.name).isSome = true)
  frame_eq : ∃ f p, m.frames.resolve frame count m.config.redeployOnDevice = .ok (f, p) ∧
    f.isOnDevice = false

/-- A task gets code exactly if it has some or the device has a kernel for it. -/
theorem Resolving.exists_entry_iff {d : Device} {v : Except Fault (Option CacheEntry)}
    (h : m.Resolving task device v m') (hd : m.context.devices[device]? = some d)
    (ht : m.context.tasks[task]? = some t) :
    (∃ entry, v = .ok (some entry)) ↔
      (m.code.get? task).isSome = true ∨ (d.kernels.get? t.name).isSome = true := by
  cases h with
  | found hcode => simp [hcode]
  | missing hcode hmissing => simp [hd, ht] at hmissing
  | compiled hcode hd' ht' hfound =>
    cases hd.symm.trans hd'
    cases ht.symm.trans ht'
    cases hkernel : d.kernels.get? t.name with
    | some kernel => simp [hfound, hkernel, verdict]
    | none =>
      cases hpolicy : m.config.compileFailurePolicy <;>
        simp [hfound, hkernel, hcode, verdict, hpolicy]

variable {mode : PassMode} {frame : Nat} {events : Option Nat} {window : Option Window}
  {arguments : List Argument}

/-- Without code a launch does not come to its arguments. -/
theorem Resolving.not_marshals {v : Except Fault (Option CacheEntry)}
    (h : m.Resolving task device v m') (hv : ∀ entry, v ≠ .ok (some entry)) (count : Nat)
    (t : Task) : ¬m.Marshals mode frame device task count t := by
  intro ht
  obtain ⟨d, hd, hknown⟩ := ht.code
  obtain ⟨entry, hentry⟩ := (h.exists_entry_iff hd ht.task_eq).2 hknown
  exact hv entry hentry

/-- A launch that has its code, its task and a frame that no device holds comes to its arguments. -/
theorem exists_marshals {d : Device} {entry : CacheEntry} {frames : FramePool} {count : Nat}
    (hcode : (resolveCode task device).run m = (.ok (some entry), m'))
    (hd : m.context.devices[device]? = some d) (ht : m'.context.tasks[task]? = some t)
    (hframe : m'.frames.resolve frame count m'.config.redeployOnDevice = .ok (f, frames))
    (hfree : f.isOnDevice = false) :
    ∃ t₀, m.Marshals .normal frame device task count t₀ ∧ t.unbound = t₀.unbound ∧
      m'.context.core = m.context.core ∧ m'.store.table = m.store.table := by
  have hresolving := resolving_of_run hcode
  obtain ⟨store, code, rfl, hcore, htable⟩ := hresolving.core
  have hidle : Idle m { m with store, code } := hcore
  obtain ⟨t₀, ht₀, hunbound⟩ := task_of_idle hidle ht
  have hknown := (hresolving.exists_entry_iff hd ht₀).1 ⟨entry, rfl⟩
  exact ⟨t₀, ⟨rfl, ht₀, ⟨d, hd, hknown⟩, f, frames, hframe, hfree⟩, hunbound, hcore, htable⟩

/-- A launch comes to its arguments or leaves the table alone. -/
theorem launch_cases (mode : PassMode) (frame device task : Nat) (events : Option Nat)
    (window : Option Window) (arguments : List Argument) (m : Machine) :
    (∃ (t t' : Task) (entry : CacheEntry) (f : CallFrame) (m₁ : Machine),
      m.Marshals mode frame device task arguments.length t ∧ t'.unbound = t.unbound ∧
      m₁.context.core = m.context.core ∧ m₁.store.table = m.store.table ∧
      arguments.length ≤ f.capacity ∧
      (launch mode frame device task events window arguments).run m = (do
        let g ← marshal t' frame device 0 arguments f.reset
        submitLaunch entry t' frame device task events window g
        return none).run m₁) ∨
    ((∀ t, ¬m.Marshals mode frame device task arguments.length t) ∧
      ((launch mode frame device task events window arguments).run m).2.store.table =
      m.store.table) := by
  rcases hrun : (launch mode frame device task events window arguments).run m with ⟨r, m'⟩
  cases launching_of_run hrun with
  | absent hd =>
    refine .inr ⟨fun t ht => ?_, rfl⟩
    obtain ⟨d, hd', -⟩ := ht.code
    cases hd.symm.trans hd'
  | uncoded hcode =>
    have hresolving := resolving_of_run hcode
    obtain ⟨store, code, rfl, -, htable⟩ := hresolving.core
    exact .inr ⟨hresolving.not_marshals (by simp) _, htable⟩
  | stopped m₁ frames journal hcode hframes hreason =>
    have hresolving := resolving_of_run hcode
    obtain ⟨store, code, rfl, hcore, htable⟩ := hresolving.core
    refine .inr ⟨fun t ht => ?_, htable⟩
    rcases hreason with rfl | rfl | hnone | hnever
    · cases ht.normal
    · exact hresolving.not_marshals (by simp) _ t ht
    · have hidle : Idle { m with store, code } m := hcore.symm
      obtain ⟨t', ht', -⟩ := task_of_idle hidle ht.task_eq
      cases hnone.symm.trans ht'
    · obtain ⟨f, p, hresolve, -⟩ := ht.frame_eq
      exact hnever _ hresolve
  | @unfilled entry m₁ m' t f frames fault hcode hmode ht hframe hfill d hd =>
    subst hmode
    rw [fillFrame] at hfill
    cases hheld : f.isOnDevice with
    | true =>
      rw [hheld] at hfill
      cases hfill
    | false =>
      rw [hheld] at hfill
      obtain ⟨t₀, hmarshals, hunbound, hcore, htable⟩ := exists_marshals hcode hd ht hframe hheld
      have hmarshal : (marshal t frame device 0 arguments f.reset).run
          { m₁ with frames := frames.put frame f.reset } = (.error fault, m') := hfill
      exact .inl ⟨t₀, t, entry, f, { m₁ with frames := frames.put frame f.reset }, hmarshals,
        hunbound, hcore, htable, FramePool.le_capacity_of_resolve hframe,
        (run_bind_of_error hmarshal).symm⟩
  | @submitted entry m₁ m₂ m' t f g frames v hcode hmode ht hframe hfill hsubmit d hd =>
    subst hmode
    rw [fillFrame] at hfill
    cases hheld : f.isOnDevice with
    | true =>
      rw [hheld] at hfill
      cases hfill
      obtain ⟨store, code, rfl, -, htable⟩ := (resolving_of_run hcode).core
      have hkeeps := keeps_table_submitLaunch m.store.table entry t frame device task
        events window f
      refine .inr ⟨fun t ht => ?_, hkeeps.of_run hsubmit htable⟩
      obtain ⟨_, _, hresolve, hfree⟩ := ht.frame_eq
      cases hframe.symm.trans hresolve
      cases hheld.symm.trans hfree
    | false =>
      rw [hheld] at hfill
      obtain ⟨t₀, hmarshals, hunbound, hcore, htable⟩ := exists_marshals hcode hd ht hframe hheld
      have hmarshal : (marshal t frame device 0 arguments f.reset).run
          { m₁ with frames := frames.put frame f.reset } = (.ok g, m₂) := hfill
      refine .inl ⟨t₀, t, entry, f, { m₁ with frames := frames.put frame f.reset }, hmarshals,
        hunbound, hcore, htable, FramePool.le_capacity_of_resolve hframe, ?_⟩
      rw [run_bind_of_ok hmarshal]
      cases v with
      | ok _ =>
        rw [run_bind_of_ok hsubmit]
        rfl
      | error fault => exact (run_bind_of_error hsubmit).symm

/-- Where a launch is refused before anything is submitted, the objects that its task writes among
the arguments before the first one it cannot take are claimed for the device: their buffers there
were valid and are marked as modified, and they belong to the device. All other records and owners
are as they were. So the table is as it was if the task writes none of these arguments, or if the
launch did not come to its arguments. If it could take them all, then it was the event list that was
refused, or there is no such device as the one that the code is for. -/
theorem refused_launch_claims {m m' : Machine} {mode : PassMode} {frame device task : Nat}
    {events : Option Nat} {window : Option Window} {arguments : List Argument} {fault : Fault}
    (hrun : (launch mode frame device task events window arguments).run m = (.error fault, m'))
    (hnone : ∀ (index : Nat) (d d' : Device), m.context.devices[index]? = some d →
      m'.context.devices[index]? = some d' →
      d'.log.kinds.count .launch = d.log.kinds.count .launch) :
    (∀ t, m.Marshals mode frame device task arguments.length t →
      m.store.table.Claimed device (t.Writes (m.taken device arguments)) m'.store.table ∧
      ((∀ object, ¬t.Writes (m.taken device arguments) object) → m'.store.table = m.store.table) ∧
      (m.taken device arguments = arguments → m'.ledger.waitList events = .error fault ∨
        ∃ index, fault = .indexOutOfRange .device index m'.context.devices.length)) ∧
    ((∀ t, ¬m.Marshals mode frame device task arguments.length t) →
      m'.store.table = m.store.table) := by
  rcases launch_cases mode frame device task events window arguments m with
    ⟨t, t', entry, f, m₁, hmarshals, hunbound, hcore, htable, hroom, hlaunch⟩ | ⟨hnever, hsame⟩
  · refine ⟨fun t₀ ht₀ => ?_, fun hnever => absurd hmarshals (hnever t)⟩
    cases hmarshals.task_eq.symm.trans ht₀.task_eq
    have hstart : Gathering m device (t'.Writes []) m₁ :=
      ⟨hcore, Table.claimed_of_eq htable t'.not_writes_nil⟩
    have hfits : f.reset.arguments.length + arguments.length ≤ f.reset.capacity := by
      simpa [CallFrame.reset] using hroom
    have hgather := gathering_marshal hstart hfits frame
    rcases hmarshal : (marshal t' frame device 0 arguments f.reset).run m₁ with ⟨v, m₂⟩
    rw [List.nil_append, List.length_nil, hmarshal, Task.writes_eq hunbound] at hgather
    obtain ⟨hgather, hall⟩ := hgather
    have hunwritten : m'.store.table = m₂.store.table →
        (∀ object, ¬t.Writes (m.taken device arguments) object) →
          m'.store.table = m.store.table := by
      intro hsame hnot
      exact hsame.trans (hgather.table.eq_of_not hnot)
    rw [hlaunch] at hrun
    cases v with
    | error e =>
      rw [Action.run_bind_of_error hmarshal] at hrun
      cases hrun
      refine ⟨hgather.table, hunwritten rfl, fun htaken => ?_⟩
      obtain ⟨g, m₃, hok⟩ := hall htaken
      cases (Prod.mk.inj hok).1
    | ok g =>
      rw [Action.run_bind_of_ok hmarshal] at hrun
      have hsubmit := Action.run_of_error_bind hrun
      have hsame : m'.store.table = m₂.store.table :=
        (keeps_table_submitLaunch m₂.store.table entry t' frame device task events window g).of_run
          hsubmit rfl
      refine ⟨hsame ▸ hgather.table, hunwritten hsame, fun _ => ?_⟩
      rcases submitLaunch_of_error hsubmit with
        ⟨hlist, rfl⟩ | ⟨hfault, rfl⟩ | ⟨d, hd, d', hd', hkinds⟩
      · exact .inl hlist
      · exact .inr ⟨entry.device, hfault⟩
      · -- A launch was submitted after all.
        have hbefore := kinds_of_idle hgather.core entry.device
        rw [hd, Option.map_some] at hbefore
        obtain ⟨d₀, hd₀, hkinds₀⟩ := Option.map_eq_some_iff.1 hbefore.symm
        have hcount := hnone entry.device d₀ d' hd₀ hd'
        rw [hkinds, hkinds₀, List.count_append] at hcount
        simp at hcount
  · refine ⟨fun t ht => absurd ht (hnever t), fun _ => ?_⟩
    rw [hrun] at hsame
    exact hsame

/-- One device, two objects, and a task that writes its first argument and reads its second. -/
def twoObjects : Context where
  devices := [{ name := "d0", log := ⟨[], 0, [], Station.size_eq_of_empty⟩ }]
  objects := [⟨"a", [1, 0, 0, 0]⟩, ⟨"b", [2, 0, 0, 0]⟩]
  constants := []
  tasks := [{ name := "add_one", accesses := [.readWrite, .read] }]

/-- The device has the first object and not the second. A launch on both claims the first and is
refused. -/
theorem refused_launch_claims_first :
    let m : Machine := { initial twoObjects {} ⟨1, 1, 0, []⟩ (.ofBytes []) with
      store := ((Store.copyIn 0 0 none []).run (.new twoObjects)).2 }
    let t : Task := { name := "add_one", accesses := [.readWrite, .read] }
    ∃ m', (launch .normal 0 0 0 none none [.reference 0, .reference 1]).run m =
        (.error (.objectNotValid 1 "b" 0 "unallocated"), m') ∧
      m.Marshals .normal 0 0 0 2 t ∧
      m.store.table.Claimed 0 (t.Writes [.reference 0]) m'.store.table := by
  intro m t
  have hrun : (launch .normal 0 0 0 none none [.reference 0, .reference 1]).run m =
      (.error (.objectNotValid 1 "b" 0 "unallocated"),
        ((launch .normal 0 0 0 none none [.reference 0, .reference 1]).run m).2) := Prod.ext rfl rfl
  have hmarshals : m.Marshals .normal 0 0 0 2 t :=
    ⟨rfl, rfl, ⟨_, rfl, .inr rfl⟩, _, _, rfl, rfl⟩
  have hnone : ∀ (index : Nat) (d d' : Device), m.context.devices[index]? = some d →
      ((launch .normal 0 0 0 none none [.reference 0, .reference 1]).run
        m).2.context.devices[index]? = some d' →
      d'.log.kinds.count .launch = d.log.kinds.count .launch := by
    intro index d d' hd hd'
    cases index with
    | zero =>
      cases hd
      cases hd'
      rfl
    | succ index => cases hd
  exact ⟨_, hrun, hmarshals, ((refused_launch_claims hrun hnone).1 t hmarshals).1⟩

/-- The second argument of a launch is refused. No launch is recorded, but the first object belongs
to the device and counts as modified there. -/
theorem refused_launch_takes_object :
    let p : Program := ⟨⟨1, 1, 0, []⟩,
      [.transfer .copyIn 0 0 none none, .launch 0 0 0 none none [.reference 0, .reference 1],
        .finish]⟩
    let before : Table :=
      ⟨[{ records := [{ allocation := some ⟨0, 4⟩, valid := true }] }, { records := [{}] }]⟩
    let after : Table :=
      ⟨[{ owner := some 0,
          records := [{ allocation := some ⟨0, 4⟩, valid := true, modified := true }] },
        { records := [{}] }]⟩
    ((create p.encode {}).outcome twoObjects).toOption.bind (fun m =>
        (timeline [.pass .normal .plain] m)[1]?.map fun x =>
          (x.deed, x.before.store.table, x.after.store.table, x.after.context.devices.map fun d =>
            d.log.kinds.count .launch)) =
      some (.instruction .normal (.launch 0 0 0 none none [.reference 0, .reference 1])
        (.error (.objectNotValid 1 "b" 0 "unallocated")), before, after, [0]) := by
  decide +kernel

end Machine

end Offload
