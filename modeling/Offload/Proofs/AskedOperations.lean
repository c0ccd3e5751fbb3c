import Offload.Proofs.Compilations
import Offload.Proofs.DeviceTurns
import Offload.Proofs.Submissions
import Offload.Proofs.Trace

/-!
# What instructions ask of devices

The log of a device shows what was asked of it, in the order in which it was asked. An instruction
that is carried out asks for operations of one device only, and which they are can be told from the
machine before it: whether there is a buffer that is large enough, whether the device holds the
window already, whether there is code.
-/

namespace Offload

open Offload.Action

variable {α β : Type}

/-- What a log shows of an event. -/
structure AskedOperation where
  kind : EventKind
  label : String
  deriving DecidableEq, Repr

namespace EventLog

/-- What was asked for, in the order of submission. -/
def operations (l : EventLog) : List AskedOperation := l.records.map fun r => ⟨r.kind, r.label⟩

@[simp] theorem operations_add (l : EventLog) (r : EventRecord) :
    (l.add r).operations = l.operations ++ [⟨r.kind, r.label⟩] := by
  simp [operations]

@[simp] theorem operations_setStatus (l : EventLog) (id : EventId) (status : EventStatus) :
    (l.setStatus id status).operations = l.operations := by
  apply List.ext_getElem?
  intro i
  simp only [operations, records_setStatus, List.getElem?_map, List.getElem?_modify]
  by_cases hi : id = i
  · cases l.records[i]? <;> simp [hi]
  · simp [hi]

end EventLog

theorem Command.labels_execute (c : Command) (memory : Memory) (objects : List HostObject) :
    (c.execute memory objects).2.2.map HostObject.label = objects.map HostObject.label := by
  apply List.ext_getElem?
  intro i
  rcases c.objects_execute memory objects with h | ⟨object, offset, src, h⟩
  · rw [h]
  · rw [h, List.getElem?_map, List.getElem?_map, List.getElem?_modify]
    by_cases hi : object = i
    · cases objects[i]? <;> simp [hi]
    · simp [hi]

theorem label_objectAt (objects : List HostObject) (place : Nat) :
    (objectAt objects place).label = ((objects.map HostObject.label)[place]?).getD "" := by
  rw [objectAt, List.getElem?_map]
  cases objects[place]? <;> rfl

/-! ## Devices -/

namespace Station

variable (buffer : BufferId) (object : Nat)

/-- The labels of the stored objects, and what the log of the device shows. -/
def Shows (labels : List String) (ops : List AskedOperation) (s : Station) : Prop :=
  s.objects.map HostObject.label = labels ∧ s.device.log.operations = ops

variable {labels : List String} {ops more rest : List AskedOperation}

/-- An operation after which the log shows `more`, unless it fails. -/
def Adds (labels : List String) (more : List AskedOperation) (x : DeviceAction α) : Prop :=
  ∀ ops, Meets (Shows labels ops) x (fun _ => Shows labels (ops ++ more)) (fun _ => True)

theorem Adds.bind {x : DeviceAction α} {f : α → DeviceAction β} (hx : Adds labels more x)
    (hf : ∀ a, Adds labels rest (f a)) : Adds labels (more ++ rest) (x >>= f) := by
  intro ops
  refine meets_bind (hx ops) fun a => ?_
  rw [← List.append_assoc]
  exact hf a (ops ++ more)

theorem adds_of_keeps {x : DeviceAction α} (h : ∀ ops, Keeps (Shows labels ops) x) :
    Adds labels [] x := by
  intro ops
  rw [List.append_nil]
  exact meets_imp (h ops) (fun _ _ => id) fun _ _ => trivial

theorem shows_perform {s : Station} (h : s.Shows labels ops) (event : EventId) (c : Command) :
    (perform event c s).2.Shows labels ops := by
  obtain ⟨status, memory, hdevice, -⟩ := device_perform event c s
  refine ⟨(c.labels_execute _ _).trans h.1, ?_⟩
  rw [hdevice]
  exact (EventLog.operations_setStatus _ _ _).trans h.2

theorem keeps_shows_drain (last : Option EventId) : Keeps (Shows labels ops) (drain last) :=
  keeps_drain_of_perform (I := Shows labels ops) (fun _ _ => id)
    (fun event c _ hs => shows_perform hs event c) last

theorem keeps_shows_count (f : Counters → Counters) : Keeps (Shows labels ops) (count f) :=
  keeps_modify fun _ => id

theorem adds_submit (kind : EventKind) (label : String) (wait : List EventId) (c : Command) :
    Adds labels [⟨kind, label⟩] (submit kind label wait c) := by
  intro ops
  refine meets_get fun s hs => ?_
  refine meets_bind (Q := fun _ => Shows labels (ops ++ [⟨kind, label⟩]))
    (meets_set fun _ _ => ⟨hs.1, ?_⟩) fun _ => ?_
  · exact (EventLog.operations_add _ _).trans (congrArg (· ++ [⟨kind, label⟩]) hs.2)
  · have hperform : Keeps (Shows labels (ops ++ [⟨kind, label⟩]))
        (perform s.device.log.size c) := meets_iff_after.2 fun _ ht => shows_perform ht _ c
    split
    · refine meets_bind (Q := fun _ => Shows labels (ops ++ [⟨kind, label⟩]))
        (meets_modify fun _ => id) fun _ => meets_pure fun _ => id
    · exact meets_then hperform (fun _ _ => trivial) fun _ => meets_pure fun _ => id

theorem adds_allocate (bytes : Nat) :
    Adds labels [⟨.allocate, "allocate " ++ (labels[object]?).getD "" ++ " (" ++ toString bytes ++
      " bytes)"⟩] (allocate object bytes) := by
  intro ops
  rw [allocate]
  split
  · exact meets_throw_bind fun _ _ => trivial
  · refine meets_get fun s hs => ?_
    refine meets_weaken (?_ : Meets (Shows labels ops) _ _ _) (fun _ h => h ▸ hs)
      (fun _ _ => id) fun _ => id
    refine meets_bind (Q := fun _ => Shows labels ops) (meets_modify fun _ => id)
      fun _ => ?_
    refine meets_then (keeps_shows_count _) (fun _ _ => trivial) fun _ => ?_
    refine meets_bind (Q := fun _ => Shows labels _) (meets_modify fun t ht => ⟨ht.1, ?_⟩)
      fun _ => meets_pure fun _ => id
    rw [label_objectAt, hs.1]
    exact (EventLog.operations_add _ _).trans (congrArg (· ++ _) ht.2)

theorem adds_release : Adds labels [] (release buffer) :=
  adds_of_keeps fun _ => keeps_release_of_drain keeps_shows_drain fun _ => id

/-- A transfer checks its window, is counted and is submitted under the label of its object. -/
theorem adds_transfer {kind : EventKind} (what : String) (object : Nat) (window : Option Window)
    (f : Counters → Counters) {y : String → DeviceAction EventId}
    (hy : ∀ label, Adds labels [⟨kind, label⟩] (y label)) :
    Adds labels [⟨kind, what ++ (labels[object]?).getD ""⟩] (do
      checkWindow object window
      count f
      let s ← get
      y (what ++ (objectAt s.objects object).label)) := by
  intro ops
  refine meets_then (keeps_checkWindow object window) (fun _ _ => trivial) fun _ => ?_
  refine meets_then (keeps_shows_count f) (fun _ _ => trivial) fun _ => ?_
  refine meets_get fun s hs => ?_
  refine meets_weaken (?_ : Meets (Shows labels ops) _ _ _) (fun _ h => h ▸ hs)
    (fun _ _ => id) fun _ => id
  rw [label_objectAt, hs.1]
  exact hy _ ops

theorem adds_write (window : Option Window) (wait : List EventId) :
    Adds labels [⟨.write, "write " ++ (labels[object]?).getD ""⟩]
      (write buffer object window wait) :=
  adds_transfer "write " object window _ fun _ => adds_submit _ _ _ _

theorem adds_read (window : Option Window) (wait : List EventId) (blocking : Bool) :
    Adds labels [⟨.read, "read " ++ (labels[object]?).getD ""⟩]
      (read buffer object window wait blocking) := by
  have hsubmit : ∀ label, Adds labels [⟨.read, label⟩] (do
      let event ← submit .read label wait (.read buffer object window)
      if blocking then drain (some event)
      return event) := by
    intro label
    refine (adds_submit .read label wait _).bind fun event => adds_of_keeps fun ops => ?_
    split
    · exact keeps_bind (keeps_shows_drain _) fun _ => keeps_pure
    · exact keeps_pure
  exact adds_transfer "read " object window _ hsubmit

theorem adds_launch (code : InstalledCode) (frame : CallFrame) (task : String)
    (window : Option Window) (wait : List EventId) :
    Adds labels [⟨.launch, "launch " ++ task⟩] (launch code frame task window wait) := by
  intro ops
  refine meets_then (keeps_shows_count _) (fun _ _ => trivial) fun _ => ?_
  refine meets_bind (adds_submit .launch _ wait _ ops) fun _ => ?_
  exact meets_look fun _ => meets_pure fun _ => id

theorem adds_marker (wait : List EventId) : Adds labels [⟨.marker, "marker"⟩] (marker wait) := by
  intro ops
  exact meets_then (keeps_shows_count _) (fun _ _ => trivial) fun _ => adds_submit _ _ _ _ ops

theorem adds_resolve (event : EventId) : Adds labels [] (resolve event) :=
  adds_of_keeps fun _ => keeps_resolve_of_drain keeps_shows_drain event

theorem adds_flush : Adds labels [] flush :=
  adds_of_keeps fun _ => keeps_bind (keeps_shows_count _) fun _ => keeps_shows_drain none

end Station

/-! ## Contexts -/

namespace Context

/-- Since `c₀` the device of an index was asked for `ops`. Other devices are as they were, and so
are the names of things. -/
structure Asked (c₀ : Context) (index : Nat) (ops : List AskedOperation) (c : Context) : Prop where
  places : c.places = c₀.places
  names : c.tasks.map Task.name = c₀.tasks.map Task.name
  labels : c.objects.map HostObject.label = c₀.objects.map HostObject.label
  log : c.devices[index]?.map (fun d => d.log.operations) =
    c₀.devices[index]?.map fun d => d.log.operations ++ ops
  others : ∀ other, other ≠ index → c.devices[other]? = c₀.devices[other]?

variable {c₀ c : Context} {index : Nat} {ops more : List AskedOperation}

theorem Asked.refl (c : Context) (index : Nat) : c.Asked index [] c :=
  ⟨rfl, rfl, rfl, by simp, fun _ _ => rfl⟩

theorem Asked.aside {c' : Context} (h : c₀.Asked index ops c) (hplaces : c'.places = c.places)
    (hnames : c'.tasks.map Task.name = c.tasks.map Task.name) (hobjects : c'.objects = c.objects)
    (hdevices : c'.devices = c.devices) : c₀.Asked index ops c' := by
  refine ⟨hplaces.trans h.places, hnames.trans h.names, ?_, ?_, ?_⟩
  · rw [hobjects, h.labels]
  · rw [hdevices, h.log]
  · rw [hdevices]
    exact h.others

theorem Asked.withStation {x : DeviceAction α} {a : α} {d : Device} {st : Station}
    (h : c₀.Asked index ops c) (hd : c.devices[index]? = some d)
    (hx : Station.Adds (c₀.objects.map HostObject.label) more x)
    (hrun : x.run (c.station d) = (.ok a, st)) :
    c₀.Asked index (ops ++ more) (c.withStation index st) := by
  have hlt := (List.getElem?_eq_some_iff.1 hd).1
  have hlog := h.log
  rw [hd, Option.map_some] at hlog
  obtain ⟨d₀, hd₀, hops⟩ := Option.map_eq_some_iff.1 hlog.symm
  obtain ⟨hlabels, hshown⟩ := (hx d.log.operations).of_ok hrun ⟨h.labels, rfl⟩
  refine ⟨h.places, h.names, hlabels, ?_, fun other hother => ?_⟩
  · rw [Context.withStation, List.getElem?_set_self hlt, hd₀, Option.map_some, Option.map_some,
      hshown, ← hops, List.append_assoc]
  · rw [Context.withStation, List.getElem?_set_ne (Ne.symm hother), h.others other hother]

theorem meets_onDevice_asked {x : DeviceAction α}
    (hx : Station.Adds (c₀.objects.map HostObject.label) more x) :
    Meets (c₀.Asked index ops) (onDevice index x) (fun _ => c₀.Asked index (ops ++ more))
      (fun _ => True) := by
  refine Context.meets_onDevice (fun _ _ => trivial) fun c d hc hd => ?_
  rintro _ rfl
  rcases hrun : x.run ⟨d, c.objects, c.journal⟩ with ⟨v, st⟩
  cases v with
  | ok a => exact hc.withStation hd hx hrun
  | error fault => trivial

end Context

/-! ## Stores -/

namespace Store

/-- The label of the object of an index. -/
def labelOf (s : Store) (object : Nat) : String :=
  match s.context.place object with
  | .ok place => (objectAt s.context.objects place).label
  | .error _ => ""

/-- Whether a device has a buffer for an object that is large enough for a window of it. -/
def hasRoom (s : Store) (object device : Nat) (window : Option Window) : Bool :=
  match s.table.record object device with
  | .ok r => r.allocation.any fun a => s.bytesOf object window ≤ a.bytes
  | .error _ => false

/-- Whether a device holds the bytes of a window of an object. -/
def holds (s : Store) (object device : Nat) (window : Option Window) : Bool :=
  match s.table.record object device with
  | .ok r => r.holds window
  | .error _ => false

/-- A buffer for a window of an object is asked for unless there is one that is large enough. -/
def makingRoom (s : Store) (object device : Nat) (window : Option Window) : List AskedOperation :=
  if s.hasRoom object device window then []
  else [⟨.allocate, "allocate " ++ s.labelOf object ++ " (" ++ toString (s.bytesOf object window) ++
    " bytes)"⟩]

/-- A window of an object is sent, to a buffer that is large enough. -/
def sending (s : Store) (object device : Nat) (window : Option Window) : List AskedOperation :=
  s.makingRoom object device window ++ [⟨.write, "write " ++ s.labelOf object⟩]

variable {s : Store} {c₀ : Context} {object device : Nat} {ops more : List AskedOperation}

/-- What is known of the operations that a device was asked for since `c₀`. -/
abbrev AskedOf (c₀ : Context) (index : Nat) (ops : List AskedOperation) (s : Store) : Prop :=
  c₀.Asked index ops s.context

theorem meets_onDevice_asked {index : Nat} {x : DeviceAction α}
    (hx : Station.Adds (c₀.objects.map HostObject.label) more x) :
    Meets (AskedOf c₀ index ops) (inContext (Context.onDevice index x))
      (fun _ => AskedOf c₀ index (ops ++ more)) (fun _ => True) :=
  meets_inContext (Context.meets_onDevice_asked hx)

theorem labelOf_eq {place : Nat} (h : s.context.places[object]? = some place) :
    s.labelOf object = ((s.context.objects.map HostObject.label)[place]?).getD "" := by
  rw [labelOf, Context.place, lookup_eq_ok.2 h]
  exact label_objectAt _ _

section Outcomes

variable {s' : Store} {window : Option Window} {wait : List EventId}

/-- Nothing is asked of a device that gives a buffer up. -/
theorem Vacated.asked {d d' : Device} {r : Record} (h : s.Vacated object device d r s' d')
    (hd : s.context.devices[device]? = some d) : s.context.Asked device [] s'.context := by
  cases h with
  | bare => exact .refl _ _
  | @discarded a text t ha hrelease =>
    have hlogged : s.context.Asked device [] (s.context.log .trace text) :=
      (Context.Asked.refl _ _).aside rfl rfl rfl rfl
    exact hlogged.withStation hd (Station.adds_release a.buffer) hrelease

theorem Allocating.asked {event : Option EventId}
    (h : s.Allocating object device window (.ok event) s') :
    s.context.Asked device (s.makingRoom object device window) s'.context := by
  cases h with
  | roomy hfound hadmits hr ha hroom =>
    have htrue : s.hasRoom object device window = true := by
      rw [hasRoom, Table.record_eq_ok.2 hr]
      simpa [ha] using hroom
    rw [makingRoom, if_pos htrue]
    exact .refl _ _
  | @made place d d₁ r s₁ b event t text hfound hadmits hr hsmall hvacated hallocate =>
    have hfalse : s.hasRoom object device window = false := by
      rw [hasRoom, Table.record_eq_ok.2 hr]
      cases ha : r.allocation with
      | none => simp [ha]
      | some a => simpa [ha] using hsmall a ha
    rw [makingRoom, hfalse, if_neg (by decide), labelOf_eq hfound.place]
    exact ((hvacated.asked hfound.device).withStation (hvacated.finds hfound).device
      (Station.adds_allocate _ _) hallocate).aside rfl rfl rfl rfl

theorem Sending.asked {event : EventId} (h : s.Sending object device window wait (.ok event) s') :
    s.context.Asked device (s.sending object device window) s'.context := by
  cases h with
  | sent hallocate hfound hr ha hwrite =>
    have hasked := (allocating_of_run hallocate).asked
    rw [sending, labelOf_eq (hasked.places ▸ hfound.place)]
    exact (hasked.withStation hfound.device (Station.adds_write _ _ _ _) hwrite).aside
      rfl rfl rfl rfl

theorem Fetching.asked {blocking : Bool} {event : EventId}
    (h : s.Fetching object device window wait blocking (.ok event) s') :
    s.context.Asked device [⟨.read, "read " ++ s.labelOf object⟩] s'.context := by
  cases h with
  | fetched hfound hadmits hr ha hread =>
    rw [labelOf_eq hfound.place]
    exact ((Context.Asked.refl s.context device).withStation hfound.device
      (Station.adds_read _ _ _ _ _) hread).aside rfl rfl rfl rfl

theorem Copying.asked {v : Except Fault (Option EventId)}
    (h : s.Copying object device window wait v s') (hv : v.isOk = true) :
    s.context.Asked device (if s.holds object device window then []
      else s.sending object device window) s'.context := by
  cases h with
  | refused => cases hv
  | held hr hholds =>
    rw [holds, Table.record_eq_ok.2 hr]
    rw [if_pos hholds]
    exact (Context.Asked.refl _ _).aside rfl rfl rfl rfl
  | @sending r v s' hr hholds hsending =>
    rw [holds, Table.record_eq_ok.2 hr]
    rw [if_neg (by simp [hholds])]
    cases v with
    | error fault => cases hv
    | ok event => exact hsending.asked

end Outcomes

end Store

/-! ## Instructions -/

/-- The device that an instruction names. A barrier is for the first device. -/
def Instruction.device? : Instruction → Option Nat
  | .allocate _ device _ | .transfer _ _ device _ _ | .launch _ device _ _ _ _ => some device
  | .barrier _ => some 0
  | .addDep _ | .finish => none

namespace Machine

/-- Whether a launch of a task that names a device has code: there is some, or the device has a
kernel of the name of the task. -/
def hasCode (m : Machine) (task device : Nat) : Bool :=
  (m.code.get? task).isSome || (m.context.tasks[task]?.bind fun t =>
    m.context.devices[device]?.bind fun d => d.kernels.get? t.name).isSome

/-- The name of a task. -/
def taskName (m : Machine) (task : Nat) : String := ((m.context.tasks.map Task.name)[task]?).getD ""

/-- What an instruction asks of the device that it names. -/
def asks (m : Machine) : Instruction → List AskedOperation
  | .allocate object device window => m.store.makingRoom object device window
  | .transfer .copyIn object device _ window =>
    if m.store.holds object device window then [] else m.store.sending object device window
  | .transfer .streamIn object device _ window => m.store.sending object device window
  | .transfer (.streamOut _) object _ _ _ => [⟨.read, "read " ++ m.store.labelOf object⟩]
  | .launch _ device task _ _ _ =>
    if m.hasCode task device then [⟨.launch, "launch " ++ m.taskName task⟩] else []
  | .barrier _ => [⟨.marker, "marker"⟩]
  | .addDep _ | .finish => []

/-- What is known of the operations that a device was asked for since `m`. -/
abbrev AskedOf (m : Machine) (index : Nat) (ops : List AskedOperation) (m' : Machine) : Prop :=
  m.context.Asked index ops m'.context

variable {m : Machine} {index : Nat} {ops more : List AskedOperation}

theorem asked_of_work {i : Instruction} (hi : i.works = true) {wait : List EventId}
    {event : Option EventId} {s : Store} (h : (i.work wait).run m.store = (.ok event, s)) :
    m.context.Asked (i.device?.getD 0) (m.asks i) s.context := by
  cases i with
  | allocate => exact (Store.allocating_of_run h).asked
  | transfer op object device events window =>
    cases op with
    | copyIn => exact (Store.copying_of_run h).asked rfl
    | streamIn =>
      obtain ⟨_, _, hsent, ⟨⟩⟩ := run_bind_eq_ok.1 h
      exact (Store.sending_of_run hsent).asked
    | streamOut =>
      obtain ⟨_, _, hfetched, ⟨⟩⟩ := run_bind_eq_ok.1 h
      exact (Store.fetching_of_run hfetched).asked
  | barrier =>
    obtain ⟨_, _, hmarked, ⟨⟩⟩ := run_bind_eq_ok.1 h
    have hasked : Store.AskedOf m.context 0 [] m.store := Context.Asked.refl m.context 0
    exact (Store.meets_onDevice_asked (Station.adds_marker wait)).of_ok hmarked hasked
  | addDep | launch | finish => cases hi

theorem meets_perform_asked (i : Instruction) (hlaunch : i.isLaunch = false) :
    Meets (· = m) (perform i) (fun _ => m.AskedOf (i.device?.getD 0) (m.asks i))
      (fun _ => True) := by
  have hworks : i.works = true →
      Meets (· = m) (perform i) (fun _ => m.AskedOf (i.device?.getD 0) (m.asks i))
      (fun _ => True) := by
    rintro hi m rfl
    rcases perform_cases hi m with
      ⟨e, hrun⟩ | ⟨wait, -, ⟨e, s, hx, hrun⟩ | ⟨event, s, ledger, hx, -, hrun⟩⟩
    · rw [hrun]
      trivial
    · rw [hrun]
      trivial
    · rw [hrun]
      exact asked_of_work hi hx
  cases i with
  | allocate | transfer | barrier => exact hworks rfl
  | addDep list =>
    have hkeeps : Keeps (m.AskedOf 0 []) (perform (.addDep list)) :=
      keeps_perform_of_work (fun _ _ _ => id) fun _ => keeps_inStore_of_look fun _ => keeps_pure
    exact meets_weaken hkeeps (fun _ hm' => hm' ▸ .refl _ _) (fun _ _ => id) fun _ _ => trivial
  | launch => cases hlaunch
  | finish => exact meets_pure fun _ hm' => hm' ▸ .refl _ _

/-! ### Launches -/

theorem names_bind (tasks : List Task) (task device : Nat) :
    (tasks.modify task fun t => t.bind device).map Task.name = tasks.map Task.name := by
  apply List.ext_getElem?
  intro j
  rw [List.getElem?_map, List.getElem?_map, List.getElem?_modify]
  by_cases hj : task = j
  · cases tasks[j]? <;> simp [hj, Task.bind]
  · simp [hj]

/-- A compilation counts on its device and binds its task. -/
theorem asked_compiled {task device : Nat} {d : Device} (hd : m.context.devices[device]? = some d)
    (found : Option InstalledCode) (journal : Journal) :
    m.AskedOf device [] (m.compiled task device d found journal) := by
  have hlt := (List.getElem?_eq_some_iff.1 hd).1
  have hlog : (m.context.devices.set device (asked d))[device]?.map (fun d => d.log.operations) =
      m.context.devices[device]?.map fun d => d.log.operations ++ [] := by
    rw [List.getElem?_set_self hlt, hd]
    simp [asked]
  exact ⟨rfl, names_bind _ _ _, rfl, hlog, fun other hother =>
    List.getElem?_set_ne (Ne.symm hother)⟩

/-- Getting the code of a launch asks for nothing, and whether there is some is known before. -/
theorem Resolving.asked {task device : Nat} {code : Option CacheEntry} {m' : Machine}
    (h : m.Resolving task device (.ok code) m') :
    m.AskedOf device [] m' ∧ code.isSome = m.hasCode task device := by
  generalize hv : Except.ok code = v at h
  cases h with
  | found hcode =>
    cases hv
    exact ⟨.refl _ _, by simp [hasCode, hcode]⟩
  | missing => cases hv
  | @compiled d t found journal hcode hd ht hfound =>
    obtain rfl := verdict_eq_ok hv.symm
    refine ⟨asked_compiled hd found journal, ?_⟩
    simp [hasCode, hcode, ht, hd, hfound]

/-- A launch that names the device of its code asks this device for one launch, if there is code. -/
theorem asked_of_launch {frame device task : Nat} {events : Option Nat} {window : Option Window}
    {arguments : List Argument} (hhome : m.home task device = device) {note : Option Note}
    {m' : Machine}
    (h : (launch .normal frame device task events window arguments).run m = (.ok note, m')) :
    m.AskedOf device (m.asks (.launch frame device task events window arguments)) m' := by
  generalize hr : Except.ok note = r at h
  cases launching_of_run h with
  | absent | uncoded | unfilled => cases hr
  | stopped m₁ frames journal hcode hframes hreason hnote =>
    obtain ⟨⟨⟩, -⟩ | ⟨rfl, -⟩ := hnote note hr.symm
    obtain ⟨hasked, hnone⟩ := (resolving_of_run hcode).asked
    rw [asks, ← hnone, if_neg (by simp)]
    exact hasked.aside rfl rfl rfl rfl
  | @submitted entry m₁ m₂ m' t f g frames v hcode hmode ht hframe hfill hsubmit =>
    obtain ⟨hasked, hsome⟩ := (resolving_of_run hcode).asked
    obtain ⟨frames, table, journal, rfl⟩ := reframed_of_fillFrame hfill
    have hname : t.name = m.taskName task := by
      rw [taskName, ← hasked.names, List.getElem?_map, ht]
      rfl
    rw [asks, ← hsome, if_pos Option.isSome_some, ← hname]
    rcases submitLaunch_cases entry t frame device task events window g
        { m₁ with frames, store := ⟨{ m₁.context with journal }, table⟩ } with
      ⟨e, -, hrun⟩ | ⟨wait, -, ⟨e, s, hx, hrun⟩ | ⟨r, s, ledger, hx, -, hrun⟩⟩ <;>
      cases hrun.symm.trans hsubmit
    · cases hr
    · cases hr
    · rw [(resolving_of_run hcode).device_eq, hhome] at hx
      exact (Store.meets_onDevice_asked (Station.adds_launch _ _ _ _ _)).of_ok hx
        (hasked.aside rfl rfl rfl rfl)

theorem meets_effect_asked (i : Instruction)
    (hhome : ∀ frame device task events window arguments,
      i = .launch frame device task events window arguments → m.home task device = device) :
    Meets (· = m) (effect .normal i) (fun _ => m.AskedOf (i.device?.getD 0) (m.asks i))
      (fun _ => True) := by
  cases hlaunch : i.isLaunch with
  | true =>
    cases i with
    | launch frame device task events window arguments =>
      refine meets_of_run ?_ fun _ _ _ _ _ => trivial
      rintro _ note m' rfl hrun
      exact asked_of_launch (hhome _ _ _ _ _ _ rfl) hrun
    | _ => cases hlaunch
  | false =>
    have heffect : effect .normal i = perform i := by
      cases i with
      | launch => cases hlaunch
      | _ => rfl
    rw [heffect]
    exact meets_perform_asked i hlaunch

end Machine

end Offload
