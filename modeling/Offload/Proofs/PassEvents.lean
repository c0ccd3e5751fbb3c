import Offload.Proofs.LaunchDevice
import Offload.Proofs.WaitLists

/-!
# Where the events of a wait list come from

A wait list has two parts. The events that were declared in the running pass were also issued in
that pass, because a pass begins without a last event. In front of them are the events that the list
still held when the pass began. Every pass from the one that issued such an event on has ended well,
because a pass that fails empties the lists; one that ends well does not.
-/

namespace Offload

open Offload.Action

open EventStatus (Succeeded Ended)

variable {α β : Type} {K : EventKind → List EventId → Prop} {m : Machine}

/-! ## Events that are issued -/

/-- What was asked for keeps its place in the log. -/
theorem Device.Moves.getElem?_issued {W : List EventId → Prop} {F : EventStatus → Prop}
    {d d' : Device} (h : d.Moves W F d') {event : EventId} {e : EventKind × List EventId}
    (he : d.log.issued[event]? = some e) : d'.log.issued[event]? = some e := by
  obtain ⟨new, hnew, -⟩ := Device.Moves.issued h
  rw [hnew, List.getElem?_append_left (List.getElem?_eq_some_iff.1 he).1, he]

theorem EventLog.getElem?_issued_concat (l : EventLog) (e : EventKind × List EventId) :
    (l.issued ++ [e])[l.size]? = some e := by
  have hlength : l.issued.length = l.size := by simp [issued]
  rw [← hlength]
  exact List.getElem?_concat_length

namespace Station

variable {wait : List EventId}

/-- A command of a kind and with a wait list as `K` says is in the log, under a number that was not
given out before. -/
def Records (K : EventKind → List EventId → Prop) (n : Nat) (event : EventId) (s : Station) :
    Prop :=
  n ≤ event ∧ ∃ kind wait, K kind wait ∧ s.device.log.issued[event]? = some (kind, wait)

/-- An operation that gives the number of an event that it has issued. -/
def Issues (K : EventKind → List EventId → Prop) (x : DeviceAction α) (event : α → EventId) :
    Prop :=
  ∀ n, Meets (fun s => n ≤ s.device.log.size) x (fun a => Records K n (event a)) (fun _ => True)

theorem issues_submit {kind : EventKind} (hK : K kind wait) (label : String) (c : Command) :
    Issues K (submit kind label wait c) id := by
  intro n s hs
  have hissued := issued_submit kind label wait c s
  have hplace := s.device.log.getElem?_issued_concat (kind, wait)
  cases hdeferred : s.device.options.deferred with
  | true =>
    rw [run_submit_deferred kind label wait c hdeferred] at hissued ⊢
    exact ⟨hs, kind, wait, hK, by rw [hissued]; exact hplace⟩
  | false =>
    rw [run_submit_performed kind label wait c hdeferred] at hissued ⊢
    cases (c.execute s.device.memory s.objects).1 with
    | ok u => exact ⟨hs, kind, wait, hK, by rw [hissued]; exact hplace⟩
    | error fault => trivial

/-- What is done before does not take events back. -/
theorem Issues.bind {x : DeviceAction α} {f : α → DeviceAction β} {event : β → EventId}
    (hx : Advances (fun _ => True) x) (hf : ∀ a, Issues K (f a) event) :
    Issues K (x >>= f) event := by
  intro n
  have hkeeps : Keeps (fun s => n ≤ s.device.log.size) x :=
    meets_iff_after.2 fun s hs => hs.trans (Device.Moves.size_le (hx.moves s))
  exact meets_then hkeeps (fun _ _ => trivial) fun a => hf a n

theorem issues_allocate (hK : K .allocate []) (object bytes : Nat) :
    Issues K (allocate object bytes) Prod.snd := by
  intro n s hs
  by_cases hbytes : bytes < memoryLimit
  · rw [run_allocate object hbytes]
    refine ⟨hs, .allocate, [], hK, ?_⟩
    rw [EventLog.issued_add]
    exact s.device.log.getElem?_issued_concat (.allocate, [])
  · simp only [allocate, if_pos (Nat.not_lt.1 hbytes)]
    trivial

theorem issues_write (hK : K .write wait) (buffer : BufferId) (object : Nat)
    (window : Option Window) :
    Issues K (write buffer object window wait) id := by
  refine .bind (advances_checkWindow object window) fun _ => .bind (advances_count _) fun _ => ?_
  exact fun n => meets_look fun s => issues_submit hK _ _ n

theorem issues_read (hK : K .read wait) (buffer : BufferId) (object : Nat) (window : Option Window)
    (blocking : Bool) : Issues K (read buffer object window wait blocking) id := by
  refine .bind (advances_checkWindow object window) fun _ => .bind (advances_count _) fun _ => ?_
  intro n
  refine meets_look fun s => meets_bind (issues_submit hK _ _ n) fun event => ?_
  split
  · -- The commands that are run now have their events already.
    have hdrain : Keeps (Records K n event) (drain (some event)) := by
      refine meets_iff_after.2 fun s hs => ?_
      obtain ⟨hle, kind, wait, hK, hissued⟩ := hs
      have hmoves := (advances_drain (W := fun _ => True) (some event)).moves s
      exact ⟨hle, kind, wait, hK, Device.Moves.getElem?_issued hmoves hissued⟩
    exact meets_then hdrain (fun _ _ => trivial) fun _ => meets_pure fun _ => id
  · exact meets_pure fun _ => id

theorem issues_launch (hK : K .launch wait) (code : InstalledCode) (frame : CallFrame)
    (task : String) (window : Option Window) :
    Issues K (launch code frame task window wait) Prod.fst := by
  refine .bind (advances_count _) fun _ n => ?_
  refine meets_bind (issues_submit hK _ _ n) fun event => ?_
  exact meets_look fun s => meets_pure fun _ => id

theorem issues_marker (hK : K .marker wait) : Issues K (marker wait) id :=
  .bind (advances_count _) fun _ => issues_submit hK _ _

end Station

namespace Context

variable {event : EventId}

/-- Between two times a device has issued an event of the number. -/
def Issued (c c' : Context) (event : EventId) : Prop :=
  ∃ (index : Nat) (d d' : Device), c.devices[index]? = some d ∧ c'.devices[index]? = some d' ∧
    d.log.size ≤ event ∧ event < d'.log.size

/-- The devices of a context at a later time. -/
abbrev Later (c c' : Context) : Prop := c.Moves (fun _ => True) Ended c'

theorem Issued.later {c c' c'' : Context} (h : c.Issued c' event) (hlater : c'.Later c'') :
    c.Issued c'' event := by
  obtain ⟨index, d, d', hd, hd', hle, hlt⟩ := h
  have hindex : index < c''.devices.length := by
    rw [hlater.length_eq]
    exact (List.getElem?_eq_some_iff.1 hd').1
  have hd'' := List.getElem?_eq_getElem hindex
  have hsize := Device.Moves.size_le (hlater.device hd' hd'')
  exact ⟨index, d, _, hd, hd'', hle, Nat.lt_of_lt_of_le hlt hsize⟩

/-- Between two times a device has recorded a command of a kind and with a wait list as `K` says,
under the number of an event. -/
def Records (K : EventKind → List EventId → Prop) (index : Nat) (c c' : Context) (event : EventId) :
    Prop :=
  ∃ d d' kind wait, c.devices[index]? = some d ∧ c'.devices[index]? = some d' ∧ d.log.size ≤ event ∧
    K kind wait ∧ d'.log.issued[event]? = some (kind, wait)

variable {index : Nat}

theorem Records.issued {c c' : Context} (h : c.Records K index c' event) : c.Issued c' event := by
  obtain ⟨d, d', kind, wait, hd, hd', hle, -, hissued⟩ := h
  have hlt := (List.getElem?_eq_some_iff.1 hissued).1
  exact ⟨index, d, d', hd, hd', hle, by simpa [EventLog.issued] using hlt⟩

theorem Records.later {c c' c'' : Context} (h : c.Records K index c' event)
    (hlater : c'.Later c'') :
    c.Records K index c'' event := by
  obtain ⟨d, d', kind, wait, hd, hd', hle, hK, hissued⟩ := h
  have hindex : index < c''.devices.length := by
    rw [hlater.length_eq]
    exact (List.getElem?_eq_some_iff.1 hd').1
  have hd'' := List.getElem?_eq_getElem hindex
  exact ⟨d, _, kind, wait, hd, hd'', hle, hK,
    Device.Moves.getElem?_issued (hlater.device hd' hd'') hissued⟩

theorem meets_onDevice_records {x : DeviceAction α} {event : α → EventId}
    (hx : Station.Issues K x event) (c₀ : Context) :
    Meets c₀.Later (onDevice index x) (fun a c => c₀.Records K index c (event a))
      (fun _ => True) := by
  refine Context.meets_onDevice (fun _ _ => trivial) fun c d hc hd => ?_
  have hlt := (List.getElem?_eq_some_iff.1 hd).1
  obtain ⟨d₀, hd₀⟩ : ∃ d₀, c₀.devices[index]? = some d₀ :=
    ⟨_, List.getElem?_eq_getElem (hc.length_eq ▸ hlt)⟩
  have hsize := Device.Moves.size_le (hc.device hd₀ hd)
  refine meets_weaken (hx d₀.log.size) ?_ (fun a s hs => ?_) fun _ => id
  · rintro _ rfl
    exact hsize
  · obtain ⟨hle, kind, wait, hK, hissued⟩ := hs
    exact ⟨d₀, s.device, kind, wait, hd₀, List.getElem?_set_self hlt, hle, hK, hissued⟩

end Context

namespace Store

variable {index : Nat}
variable {x : StoreAction α} {wait : List EventId}

/-- An operation that gives the number of an event that it has issued, if it has issued one. -/
def Issues (K : EventKind → List EventId → Prop) (index : Nat) (x : StoreAction α)
    (event : α → Option EventId) :
    Prop :=
  ∀ c₀ : Context, Meets (fun s => c₀.Later s.context) x
    (fun a s => ∀ e, event a = some e → c₀.Records K index s.context e) (fun _ => True)

theorem Advances.later (hx : Advances (fun _ => True) x) {s s' : Store} {r : Except Fault α}
    (hrun : x.run s = (r, s')) : s.context.Later s'.context := by
  have hmoves := (hx s.context).after (.refl _) (fun _ _ hs => hs.ended) fun _ => id
  rwa [hrun] at hmoves

theorem Issues.bind {f : α → StoreAction β} {event : β → Option EventId}
    (hx : Advances (fun _ => True) x) (hf : ∀ a, Issues K index (f a) event) :
    Issues K index (x >>= f) event := fun c₀ =>
  meets_then (meets_iff_after.2 fun _ hs => hs.trans (hx.later rfl)) (fun _ _ => trivial) fun a =>
    hf a c₀

theorem issues_inContext {x : DeviceAction α} {event : α → EventId}
    (hx : Station.Issues K x event) :
    Issues K index (inContext (Context.onDevice index x)) fun a => some (event a) := by
  intro c₀
  refine meets_post (meets_inContext (Context.meets_onDevice_records hx c₀)) fun a s hs e he => ?_
  exact Option.some.inj he ▸ hs

/-- An event is issued and a record of the table is changed. -/
theorem issues_onDevice {x : DeviceAction α} {event : α → EventId} (hx : Station.Issues K x event)
    (label : String) (object device : Nat) (f : α → Record → Record) :
    Issues K index (do
      let a ← inContext (Context.onDevice index x)
      update object device (f a)
      note label object device
      return event a) some := by
  intro c₀
  refine meets_bind (issues_inContext hx c₀) fun a => ?_
  refine meets_then (keeps_modify fun _ => id) (fun _ _ => trivial) fun _ => ?_
  have hnote : Advances (fun _ => True) (note label object device) := fun c =>
    (upkeep_moves c).note label object device
  have hkeeps : Keeps (fun s => ∀ e, some (event a) = some e → c₀.Records K index s.context e)
      (note label object device) := meets_iff_after.2 fun s hs e he =>
      (hs e he).later (hnote.later rfl)
  exact meets_then hkeeps (fun _ _ => trivial) fun _ => meets_pure fun s hs => hs

theorem Issues.option {x : StoreAction EventId} (hx : Issues K index x some) :
    Issues K index (do
      let event ← x
      return some event) id := fun c₀ =>
  meets_bind (hx c₀) fun _ => meets_pure fun _ => id

/-- The object, the device and the window are looked at before anything is done. -/
theorem Issues.required {f : Nat → HostObject → StoreAction β} {event : β → Option EventId}
    (hf : ∀ place host, Issues K index (f place host) event) (object device : Nat)
    (window : Option Window) :
    Issues K index (do
      let place ← Store.place object
      let host ← Store.host place
      requireDevice device
      checkWindow object host.length window
      f place host) event :=
  .bind (fun c => (upkeep_moves c).place object) fun place =>
    .bind (fun c => (upkeep_moves c).host place) fun host =>
      .bind (fun c => (upkeep_moves c).requireDevice device) fun _ =>
      .bind (fun c => (upkeep_moves c).checkWindow object host.length window) fun _ => hf place host

theorem issues_allocate (hK : K .allocate []) (object device : Nat) (window : Option Window) :
    Issues K device (allocate object device window) id := by
  refine .required (fun place host => ?_) object device window
  refine .bind (fun c => (upkeep_moves c).record object device) fun r => ?_
  have hprovide : ∀ bytes, Issues K device
      (do
        let event ← provide host.label place object device bytes
        return some event) id := fun bytes =>
    .option (issues_onDevice (Station.issues_allocate hK place bytes) _ _ _ _)
  split
  · split
    · exact fun c₀ => meets_pure fun _ _ _ h => nomatch h
    · exact .bind (fun c => (upkeep_moves c).log _ _) fun _ =>
        .bind (fun c => (upkeep_moves c).discard object device _) fun _ => hprovide _
  · exact hprovide _

theorem issues_streamIn (hK : K .write wait) (object device : Nat) (window : Option Window) :
    Issues K device (streamIn object device window wait) some := by
  refine .bind (fun c => (upkeep_moves c).ensure object device window) fun _ =>
    .bind (fun c => (upkeep_moves c).place object) fun place =>
      .bind (fun c => (upkeep_moves c).host place) fun host => ?_
  refine .bind (fun c => (upkeep_moves c).bufferOf object device _) fun buffer => ?_
  exact issues_onDevice (Station.issues_write hK buffer place window) _ _ _ _

theorem issues_work (i : Instruction) (hnew : i.waitsFor = none → K .allocate [])
    (hK : ∀ kind, kind ≠ .allocate → K kind wait) : ∃ index, Issues K index (i.work wait) id := by
  cases i with
  | allocate object device window => exact ⟨device, issues_allocate (hnew rfl) object device window⟩
  | transfer op object device events window =>
    refine ⟨device, ?_⟩
    cases op with
    | copyIn =>
      refine .bind (fun c => (upkeep_moves c).record object device) fun r => ?_
      split
      · exact .bind (fun c => (upkeep_moves c).log _ _) fun _ c₀ => meets_pure fun _ _ _ h =>
          nomatch h
      · exact .option (issues_streamIn (hK _ (by decide)) object device window)
    | streamIn => exact .option (issues_streamIn (hK _ (by decide)) object device window)
    | streamOut blocking =>
      refine .option (.required (fun place host => ?_) object device window)
      refine .bind (fun c => (upkeep_moves c).bufferOf object device _) fun buffer => ?_
      exact issues_onDevice
        (Station.issues_read (hK _ (by decide)) buffer place window blocking) _ _ _ _
  | barrier =>
    exact ⟨0, fun c₀ => meets_bind (issues_inContext (Station.issues_marker (hK _ (by decide))) c₀)
      fun _ => meets_pure fun _ => id⟩
  | addDep | launch | finish => exact ⟨0, fun c₀ => meets_pure fun _ _ _ h => nomatch h⟩

end Store

/-! ## The last event -/

namespace Machine

variable {m₀ : Machine}

/-- A machine later in the same instruction: its last event is the one that it was, or one that was
issued since. -/
structure Fresh (m₀ m : Machine) : Prop where
  later : m₀.context.Later m.context
  last : ∀ e, m.lastEvent = some e → m₀.lastEvent = some e ∨ m₀.context.Issued m.context e

theorem Fresh.refl (m : Machine) : m.Fresh m := ⟨.refl _, fun _ he => .inl he⟩

theorem Fresh.trans {m' : Machine} (h : m₀.Fresh m) (hlater : m.context.Later m'.context)
    (hlast : m'.lastEvent = m.lastEvent) : m₀.Fresh m' := by
  refine ⟨h.later.trans hlater, fun e he => ?_⟩
  rw [hlast] at he
  exact (h.last e he).imp_right fun hissued => hissued.later hlater

theorem keeps_fresh_inStore {x : StoreAction α} (hx : Store.Advances (fun _ => True) x) :
    Keeps (Fresh m₀) (inStore x) :=
  meets_iff_after.2 fun _ hm => hm.trans (hx.later rfl) rfl

/-- The machine takes an event for its last one that was issued since. -/
theorem Fresh.issued {index : Nat} {x : StoreAction α} {event : α → Option EventId} {a : α}
    {s : Store} (h : m₀.Fresh m) (hx : Store.Advances (fun _ => True) x)
    (hissues : Store.Issues (fun _ _ => True) index x event) (hrun : x.run m.store = (.ok a, s)) :
    m₀.Fresh { m with store := s, lastEvent := event a } :=
  ⟨h.later.trans (hx.later hrun), fun e he =>
    .inr ((hissues m₀.context).of_ok hrun h.later e he).issued⟩

theorem keeps_fresh_resolveCode (task device : Nat) :
    Keeps (Fresh m₀) (resolveCode task device) := by
  refine keeps_resolveCode_of_install ?_ (fun name => ?_) fun m _ _ hm =>
    hm.trans (.congr (.refl _) rfl) rfl
  · exact meets_iff_after.2 fun m hm => hm.trans (.congr (.refl _) rfl) rfl
  · have hinstall : Store.Advances (fun _ => True)
        (Store.inContext (Context.onDevice device (Station.install name))) :=
      Store.advances_onDevice fun d =>
        Keeps.upholds (Station.keeps_moves_install name) Station.ended_of_succeeded
    exact keeps_fresh_inStore hinstall

theorem launchKeeps_fresh : LaunchKeeps (Fresh m₀) where
  log level text := keeps_fresh_inStore fun c => (Store.upkeep_moves c).log level text
  claim object device := keeps_fresh_inStore fun c => (Store.upkeep_moves c).claim object device
  submit index code f name window wait m hm := by
    have hissues : Store.Issues (fun _ _ => True) index
        (Store.inContext (Context.onDevice index (Station.launch code f name window wait))) fun r =>
        some r.1 :=
      Store.issues_inContext (Station.issues_launch trivial code f name window)
    have hx : Store.Advances (fun _ => True)
        (Store.inContext (Context.onDevice index (Station.launch code f name window wait))) :=
      Store.advances_onDevice (Station.advances_launch code f name window trivial)
    rw [onDevice, inStore, run_focus]
    rcases hrun : (Store.inContext
      (Context.onDevice index (Station.launch code f name window wait))).run m.store with ⟨r, s⟩
    cases r with
    | ok r =>
      have hnext := hm.issued hx hissues hrun
      exact hnext
    | error e => exact hm.trans (hx.later hrun) rfl
  aside m frames ledger pending hm := hm.trans (.refl _) rfl

theorem keeps_fresh_perform (i : Instruction) : Keeps (Fresh m₀) (perform i) := by
  have hworks : i.works = true → Keeps (Fresh m₀) (perform i) := by
    refine fun hi => meets_iff_after.2 fun m hm => ?_
    rcases perform_cases hi m with
      ⟨e, hrun⟩ | ⟨wait, -, ⟨e, s, hx, hrun⟩ | ⟨event, s, ledger, hx, -, hrun⟩⟩
    · exact hrun ▸ hm
    · exact hrun ▸ hm.trans ((Store.advances_work i trivial).later hx) rfl
    · obtain ⟨index, hissues⟩ : ∃ index, Store.Issues (fun _ _ => True) index (i.work wait) id :=
        Store.issues_work i (fun _ => trivial) fun _ _ => trivial
      rw [hrun]
      exact (hm.issued (Store.advances_work i trivial) hissues hx).trans (.refl _) rfl
  cases i with
  | allocate | transfer | barrier => exact hworks rfl
  | addDep list =>
    refine upholds_of_goes (goes_addDep (fun _ hm _ => hm.2) ?_ ?_)
    · rintro m _ ⟨rfl, -⟩
      exact ⟨rfl, rfl⟩
    · rintro m _ event ledger ⟨rfl, hm⟩ _ _
      exact ⟨rfl, hm.trans (.refl _) rfl⟩
  | launch | finish => exact keeps_pure

/-- After an instruction, however it ended, the last event is the one before it or was issued by
it. -/
theorem fresh_effect (mode : PassMode) (i : Instruction) (m : Machine) :
    m.Fresh ((effect mode i).run m).2 := by
  have heffect : Keeps (Fresh m) (effect mode i) := by
    cases i with
    | launch frame device task =>
      exact launchKeeps_fresh.frameKeeps.launch (keeps_fresh_resolveCode task device)
    | _ =>
      dsimp only [effect]
      split
      · exact keeps_fresh_perform _
      · exact keeps_pure
  exact meets_iff_after.1 heffect m (.refl m)

end Machine

/-! ## The passes of a timeline -/

/-- Whether a deed is the end of a pass. -/
def Deed.isEnding : Deed → Bool
  | .ending .. => true
  | _ => false

/-- Whether a deed is the end of a pass that has failed. -/
def Deed.isFailure : Deed → Bool
  | .ending _ _ (.error _) => true
  | _ => false

theorem Deed.isFailure_of_clears {deed : Deed} {list : Nat} (h : deed.clears list = false) :
    deed.isFailure = false := by
  unfold isFailure
  split
  · cases h
  · rfl

namespace Moment

variable {past : List Moment}

/-- What was done in the running pass. -/
def ofPass (past : List Moment) : List Moment := past.rtakeWhile fun y => !y.deed.isEnding

/-- What was done before the running pass. -/
def beforePass (past : List Moment) : List Moment := past.rdropWhile fun y => !y.deed.isEnding

/-- The moment issues an event of the number. -/
def Issues (x : Moment) (event : EventId) : Prop := x.before.context.Issued x.after.context event

/-- The events of a moment's wait list that were declared in the running pass. -/
def own (past : List Moment) (x : Moment) : List EventId := x.waits (ofPass past)

/-- The events of a moment's wait list that the list held when the pass began. There are none left
if the list was emptied since. -/
def leftover (past : List Moment) (x : Moment) : List EventId :=
  match x.deed with
  | .instruction _ i _ =>
    match i.waitsFor with
    | some list =>
      if (ofPass past).any (fun y => y.deed.clears list) then [] else declared list
        (beforePass past)
    | none => []
  | _ => []

theorem beforePass_append_ofPass (past : List Moment) : beforePass past ++ ofPass past = past :=
  List.rdropWhile_append_rtakeWhile ..

theorem ofPass_concat (past : List Moment) (x : Moment) :
    ofPass (past ++ [x]) = if x.deed.isEnding then [] else ofPass past ++ [x] := by
  cases hx : x.deed.isEnding with
  | true => simp [ofPass, hx]
  | false => simp [ofPass, hx]

/-- What is declared after some time, and what was declared before and is still there. -/
theorem declared_append (list : Nat) (earlier later : List Moment) :
    declared list (earlier ++ later) =
      (if later.any (fun y => y.deed.clears list) then [] else declared list earlier) ++
        declared list later := by
  induction later using List.reverseRecOn with
  | nil => simp [declared]
  | append_singleton later x ih =>
    rw [← List.append_assoc, declared_concat, declared_concat, ih]
    cases hx : x.deed.clears list with
    | true => simp [hx]
    | false => simp [hx]

theorem waits_eq (past : List Moment) (x : Moment) :
    x.waits past = x.leftover past ++ x.own past := by
  have hdeclared : ∀ list, declared list past =
      (if (ofPass past).any (fun y => y.deed.clears list) then [] else declared list
        (beforePass past)) ++ declared list (ofPass past) := by
    intro list
    rw [← declared_append, beforePass_append_ofPass]
  cases hdeed : x.deed with
  | instruction mode i outcome =>
    cases hlist : i.waitsFor with
    | some list => simpa [own, leftover, waits, hdeed, hlist] using hdeclared list
    | none => simp [own, leftover, waits, hdeed, hlist]
  | _ => simp [own, leftover, waits, hdeed]

/-- A pass that begins after a failure, or as the first one, finds no events. -/
theorem leftover_eq_nil (x : Moment) (h : ∀ y ∈ (beforePass past).getLast?, y.deed.isFailure) :
    x.leftover past = [] := by
  have hdeclared : ∀ list, declared list (beforePass past) = [] := by
    intro list
    rcases List.eq_nil_or_concat (beforePass past) with hnil | ⟨earlier, y, hy⟩
    · rw [hnil]
      rfl
    · have hfailure : y.deed.isFailure = true := h y (by simp [hy])
      have hclears : y.deed.clears list = true := by
        by_contra hclears
        rw [Deed.isFailure_of_clears (Bool.eq_false_iff.2 hclears)] at hfailure
        cases hfailure
      rw [hy, List.concat_eq_append, declared_concat, if_pos hclears]
  unfold leftover
  split
  · split
    · rw [hdeclared, ite_self]
    · rfl
  · rfl

/-! ## Origins -/

/-- The last event of the machine was issued in the running pass. -/
def Current (past : List Moment) (m : Machine) : Prop :=
  ∀ e, m.lastEvent = some e → ∃ y ∈ ofPass past, y.Issues e

/-- At every moment of a list at which something is declared the last event was issued in the same
pass. -/
def Traceable (past : List Moment) : Prop :=
  ∀ earlier y later, past = earlier ++ y :: later → y.deed ≠ .invalidation →
    Current earlier y.before

theorem Traceable.left {later : List Moment} (h : Traceable (past ++ later)) : Traceable past := by
  intro earlier y rest hpast
  exact h earlier y (rest ++ later) (by simp [hpast])

theorem declares_issued {x : Moment} (h : Traceable (past ++ [x])) {list : Nat} {id : EventId}
    (hid : id ∈ x.declares list) : ∃ y ∈ ofPass past, y.Issues id := by
  have hdeed : x.deed ≠ .invalidation := by
    intro hdeed
    simp [declares, hdeed, Deed.declares] at hid
  refine h past x [] rfl hdeed id ?_
  revert hid
  unfold declares Deed.declares
  split
  · split_ifs
    · simp
    · simp
  · simp

/-- What was declared in a pass was issued in it. -/
theorem own_issued (h : Traceable past) (list : Nat) :
    ∀ id ∈ declared list (ofPass past), ∃ y ∈ ofPass past, y.Issues id := by
  induction past using List.reverseRecOn with
  | nil => simp [ofPass, declared]
  | append_singleton past x ih =>
    intro id hid
    rw [ofPass_concat] at hid ⊢
    cases hending : x.deed.isEnding with
    | true => simp [hending, declared] at hid
    | false =>
      simp only [hending, Bool.false_eq_true, if_false, declared_concat] at hid ⊢
      have hearlier : ∃ y ∈ ofPass past, y.Issues id := by
        cases hclears : x.deed.clears list with
        | true => simp [hclears] at hid
        | false =>
          simp only [hclears, Bool.false_eq_true, if_false, List.mem_append] at hid
          rcases hid with hid | hid
          · exact ih h.left id hid
          · exact declares_issued h hid
      obtain ⟨y, hy, hissues⟩ := hearlier
      exact ⟨y, List.mem_append_left _ hy, hissues⟩

/-- No pass has failed since an event was issued that a list holds. -/
theorem declared_issued (h : Traceable past) (list : Nat) :
    ∀ id ∈ declared list past, ∃ earlier y rest, past = earlier ++ y :: rest ∧ y.Issues id ∧
      ∀ z ∈ rest, z.deed.isFailure = false := by
  induction past using List.reverseRecOn with
  | nil => simp [declared]
  | append_singleton past x ih =>
    intro id hid
    rw [declared_concat] at hid
    cases hclears : x.deed.clears list with
    | true => simp [hclears] at hid
    | false =>
      have hx : x.deed.isFailure = false := Deed.isFailure_of_clears hclears
      simp only [hclears, Bool.false_eq_true, if_false, List.mem_append] at hid
      have horigin : ∃ earlier y rest, past = earlier ++ y :: rest ∧ y.Issues id ∧
          ∀ z ∈ rest, z.deed.isFailure = false := by
        rcases hid with hid | hid
        · exact ih h.left id hid
        · obtain ⟨y, hy, hissues⟩ := declares_issued h hid
          obtain ⟨front, rest, hsplit⟩ := List.append_of_mem hy
          refine ⟨beforePass past ++ front, y, rest, ?_, hissues, fun z hz => ?_⟩
          · rw [List.append_assoc, ← hsplit, beforePass_append_ofPass]
          · have hz : z ∈ ofPass past := by simp [hsplit, hz]
            have hending := List.mem_rtakeWhile_imp hz
            unfold Deed.isFailure
            split
            · simp [Deed.isEnding, *] at hending
            · rfl
      obtain ⟨earlier, y, rest, rfl, hissues, hrest⟩ := horigin
      refine ⟨earlier, y, rest ++ [x], by simp, hissues, fun z hz => ?_⟩
      rcases List.mem_append.1 hz with hz | hz
      · exact hrest z hz
      · rw [List.mem_singleton.1 hz, hx]

end Moment

/-- Where the events come from for which the operations of a moment wait. -/
structure Moment.Sourced (past : List Moment) (x : Moment) : Prop where
  /-- Every event that is issued waits for what the pass found in the list and for what the pass
  declared; a new buffer waits for nothing. -/
  issued : ∀ (index : Nat) (d d' : Device), x.before.context.devices[index]? = some d →
    x.after.context.devices[index]? = some d' → ∃ new, d'.log.issued = d.log.issued ++ new ∧
      ∀ e ∈ new, e.2 = if e.1 = .allocate then [] else x.leftover past ++ x.own past
  /-- What the pass declared it has issued. -/
  own : ∀ id ∈ x.own past, ∃ y ∈ ofPass past, y.Issues id
  /-- What the pass found was issued before, and no pass has failed since. -/
  leftover : ∀ id ∈ x.leftover past, ∃ earlier y rest, beforePass past = earlier ++ y :: rest ∧
    y.Issues id ∧ ∀ z ∈ rest, z.deed.isFailure = false
  /-- The first pass and a pass after a failure find nothing. -/
  fresh : (∀ y ∈ (beforePass past).getLast?, y.deed.isFailure) → x.leftover past = []

namespace Machine

/-! ## The running pass -/

theorem carried_current : Carried Moment.Current where
  fetch {past m} kind h := by
    obtain ⟨reader, journal, hfetch⟩ := after_fetch kind m
    rw [hfetch]
    exact h
  noted {past m} mode i note h := by
    rw [noted]
    split
    · exact h
    · exact h
  carry {past m} mode i h := by
    intro e he
    rw [Moment.ofPass_concat]
    rcases (fresh_effect mode i m).last e he with hlast | hissued
    · obtain ⟨y, hy, hissues⟩ := h e hlast
      exact ⟨y, List.mem_append_left _ hy, hissues⟩
    · exact ⟨_, List.mem_append_right _ (List.mem_singleton_self _), hissued⟩

/-- What holds at the beginning of every pass and goes on to hold through its body. -/
theorem Carried.before {I : List Moment → Machine → Prop} (h : Carried I)
    (hbegun : ∀ past m, I past (begun m)) (past : List Moment) {requests : List Request}
    {earlier later : List Moment} {x : Moment} (hx : timeline requests m = earlier ++ x :: later)
    (hdeed : x.deed ≠ .invalidation) : I (past ++ earlier) x.before := by
  obtain ⟨served, request, others, inner, rest, -, rfl, hmoments, -⟩ := exists_served hx
  cases request with
  | invalidate =>
    have hforget : x ∈ moments .invalidate (session served m).2 := by simp [hmoments]
    rw [List.mem_singleton.1 hforget] at hdeed
    exact absurd rfl hdeed
  | pass mode kind =>
    obtain ⟨hbody, hend⟩ :=
      h.runBody mode kind _ (hbegun (past ++ timeline served m) (session served m).2)
    have hpass : Throughout I _ (moments (.pass mode kind) (session served m).2) :=
      throughout_append hbody ⟨hend, trivial⟩
    rw [← List.append_assoc]
    exact hpass.before hmoments

theorem traceable_timeline (requests : List Request) (m : Machine) :
    Moment.Traceable (timeline requests m) := by
  intro earlier y later hy hdeed
  have hcurrent := carried_current.before (fun past m e he => nomatch he) [] hy hdeed
  rwa [List.nil_append] at hcurrent

theorem declared_create {code : Bytes} {config : Config} {c c' : Context}
    (hm : (create code config).run c = (.ok m, c')) (hon : config.useDependencies = true) :
    Declared config [] m := by
  obtain ⟨header, reader, rfl⟩ := eq_initial_of_create hm
  have hheld := EventLedger.held_new header.eventLists config.useDependencies
  refine ⟨rfl, hon, hheld, fun list => ?_⟩
  have hlength : ((EventLedger.new header.eventLists config.useDependencies).held list).length =
      0 := by
    rw [hheld, List.length_nil]
  exact hlength.le.trans (Nat.zero_le _)

/-- An operation waits for events of its own pass and, in front of them, for those that its list
held when the pass began. The latter are of earlier passes, all of which have ended well since
then. -/
theorem timeline_sourced {code : Bytes} {config : Config} {c c' : Context} {m : Machine}
    (hm : (create code config).run c = (.ok m, c')) (hon : config.useDependencies = true)
    {requests : List Request} {past future : List Moment} {x : Moment}
    (hx : timeline requests m = past ++ x :: future) : x.Sourced past := by
  have htraceable : Moment.Traceable past := by
    have htimeline := traceable_timeline requests m
    rw [hx] at htimeline
    exact htimeline.left
  have hbefore : Moment.Traceable (Moment.beforePass past) := by
    rw [← Moment.beforePass_append_ofPass past] at htraceable
    exact htraceable.left
  have hfaithful := (declared_create hm hon).faithful hon hx
  refine ⟨fun index d d' hd hd' => ?_, ?_, ?_, Moment.leftover_eq_nil x⟩
  · obtain ⟨new, hnew, hwaits⟩ := hfaithful.issued index d d' hd hd'
    exact ⟨new, hnew, by rwa [Moment.waits_eq] at hwaits⟩
  · intro id hid
    unfold Moment.own Moment.waits at hid
    split at hid
    · split at hid
      · exact Moment.own_issued htraceable _ id hid
      · cases hid
    · cases hid
  · intro id hid
    unfold Moment.leftover at hid
    split at hid
    · split at hid
      · split_ifs at hid
        · cases hid
        · exact Moment.declared_issued hbefore _ id hid
      · cases hid
    · cases hid

/-- The second pass declares a write for a list that still holds a write of the first pass, and its
second write waits for both. -/
theorem timeline_sourced_both :
    let p : Program := ⟨⟨1, 0, 1, []⟩,
      [.transfer .streamIn 0 0 none none, .addDep 0, .transfer .streamIn 0 0 (some 0) none,
        .addDep 0, .finish]⟩
    let c : Context := {
      devices := [{ name := "d" }]
      objects := [⟨"a", [1, 0, 0, 0]⟩]
      constants := []
      tasks := [] }
    ∃ m c' past x future, (create p.encode { useDependencies := true }).run c = (.ok m, c') ∧
      timeline [.pass .normal .plain, .pass .normal .plain] m = past ++ x :: future ∧
      past.length = 8 ∧ x.leftover past = [2] ∧ x.own past = [4] ∧ x.Sourced past := by
  intro p c
  have hrun : (((create p.encode { useDependencies := true }).outcome c).toOption.map fun m =>
      let l := timeline [.pass .normal .plain, .pass .normal .plain] m
      (l[8]?.map fun x => (x.leftover (l.take 8), x.own (l.take 8)))) = some (some ([2], [4])) := by
    decide +kernel
  obtain ⟨m, c', hm, hread⟩ := Action.exists_run_of_read hrun
  obtain ⟨x, hx, hwaits⟩ := Option.map_eq_some_iff.1 hread
  obtain ⟨hleftover, hown⟩ := Prod.mk.inj hwaits
  obtain ⟨past, future, htimeline, hlength⟩ := exists_split_at hx
  rw [htimeline, List.take_left' hlength] at hleftover hown
  exact ⟨m, c', _, x, _, hm, htimeline, hlength, hleftover, hown,
    timeline_sourced hm rfl htimeline⟩

/-- The first pass has the events 0, 1 and 2; the only write of the second pass waits for event
1. -/
theorem wait_list_of_earlier_pass :
    let p : Program := ⟨⟨1, 0, 1, []⟩, [.transfer .streamIn 0 0 (some 0) none, .addDep 0, .finish]⟩
    let c : Context := {
      devices := [{ name := "d" }]
      objects := [⟨"a", [1, 0, 0, 0]⟩]
      constants := []
      tasks := [] }
    ((create p.encode { useDependencies := true }).outcome c).toOption.map (fun m =>
        ((session [.pass .normal .plain] m).2.context.devices.map fun d => d.log.size,
          (session [.pass .normal .plain, .pass .normal .plain] m).2.context.devices.flatMap
            fun d => d.log.issued)) =
      some ([3], [(.allocate, []), (.write, []), (.marker, []), (.write, [1]), (.marker, [])]) := by
  decide +kernel

end Machine

end Offload
