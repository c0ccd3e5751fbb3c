import Offload.Proofs.StoreAgreement
import Offload.Proofs.Timeline

/-!
# Passes side by side

An instruction other than a launch waits for the events of a list, works on the store, keeps its
event and empties the list; a launch finds its code and its frame, fills the frame and submits it;
the end of a pass waits for the devices and takes the profiles. What goes together part by part goes
together as a whole, under any terms. Two machines that differ in their stores, frames and code, and
otherwise are the same, do the same with an instruction and at the end of a pass as long as their
stores agree.
-/

namespace Offload

open Offload.Action

variable {α β : Type} {W : List EventId → List EventId → Prop} {R : Machine → Machine → Prop}
  {i : Instruction}

namespace Task

/-- The task without the device for which it was compiled. -/
def unbound (t : Task) : Task := { t with device := none }

variable {t t' : Task} (h : t'.unbound = t.unbound)

include h

theorem name_eq : t'.name = t.name := by
  injection h

theorem profiling_eq : t'.profiling = t.profiling := by
  injection h

theorem access_eq (place : Nat) : t'.access place = t.access place := by
  have haccesses : t'.accesses = t.accesses := by injection h
  rw [access, haccesses, access]

omit h

theorem map_unbound_modify (tasks : List Task) (task device : Nat) :
    (tasks.modify task fun t => t.bind device).map unbound = tasks.map unbound := by
  have hmap := map_modify_of_comm (l := tasks) (f := fun t => t.bind device)
    (g := unbound) (h := id) (fun _ => rfl) task
  rwa [List.modify_id] at hmap

theorem length_eq {tasks tasks' : List Task} (h : tasks'.map unbound = tasks.map unbound) :
    tasks'.length = tasks.length := by
  simpa using congrArg List.length h

theorem exists_of_map_unbound {tasks tasks' : List Task}
    (h : tasks'.map unbound = tasks.map unbound) {task : Nat} (ht : tasks'[task]? = some t') :
    ∃ t, tasks[task]? = some t ∧ t'.unbound = t.unbound := by
  have htask := congrArg (fun tasks : List Task => tasks[task]?) h
  rw [List.getElem?_map, ht, List.getElem?_map] at htask
  obtain ⟨t, ht, hunbound⟩ := Option.map_eq_some_iff.1 htask.symm
  exact ⟨t, ht, hunbound.symm⟩

end Task

theorem EventLedger.exists_reset {l : EventLedger} {list : Option Nat} {wait : List EventId}
    (h : l.waitList list = .ok wait) : ∃ l', l.reset list = .ok l' := by
  cases list with
  | none => exact ⟨l, rfl⟩
  | some list =>
    rw [waitList] at h
    rw [reset]
    split_ifs at h ⊢ with henabled
    · cases hlist : lookup .eventList l.slots list with
      | error fault =>
        rw [hlist] at h
        cases h
      | ok events => exact ⟨_, rfl⟩
    · exact ⟨l, rfl⟩

/-! ## Instructions -/

namespace Instruction

/-- The event list that an instruction waits for. -/
def waitsFor : Instruction → Option Nat
  | .transfer _ _ _ events _ | .launch _ _ _ events _ _ | .barrier events => events
  | .allocate .. | .addDep _ | .finish => none

/-- Whether an instruction is carried out with so many devices. -/
def admitted : Instruction → (devices : Nat) → Except Fault Unit
  | .barrier _, devices => if 1 < devices then .error (.multiDeviceBarrier devices) else .ok ()
  | .allocate .., _ | .transfer .., _ | .addDep _, _ | .launch .., _ | .finish, _ => .ok ()

/-- What an instruction does to the store when it has waited. Gives its event. -/
def work (wait : List EventId) : Instruction → StoreAction (Option EventId)
  | .allocate object device window => Store.allocate object device window
  | .transfer .copyIn object device _ window => Store.copyIn object device window wait
  | .transfer .streamIn object device _ window => do
    let event ← Store.streamIn object device window wait
    return some event
  | .transfer (.streamOut blocking) object device _ window => do
    let event ← Store.streamOut object device window wait blocking
    return some event
  | .barrier _ => do
    let event ← Store.inContext (Context.onDevice 0 (Station.marker wait))
    return some event
  | .addDep _ | .launch .. | .finish => return none

/-- The note on an instruction that had nothing to do. -/
def idleNote : Instruction → Option Note
  | .allocate .. => some .alreadyAllocated
  | .transfer .copyIn .. => some .alreadyValid
  | _ => none

/-- Whether an instruction works on the store. -/
def works : Instruction → Bool
  | .allocate .. | .transfer .. | .barrier _ => true
  | .addDep _ | .launch .. | .finish => false

/-- The work of an instruction goes together where the operations of the store do. -/
theorem goes_work {T : Terms Store Fault} {R : Store → Store → Prop} {P : Nat → Prop}
    {E : EventId → EventId → Prop} (hsite : ∀ object device, Store.Site T R P W E object device)
    (hmarker : ∀ {wait wait'}, W wait wait' →
      Goes T R (Store.inContext (Context.onDevice 0 (Station.marker wait)))
        (Store.inContext (Context.onDevice 0 (Station.marker wait'))) E) (i : Instruction)
    {wait wait' : List EventId} (hwait : W wait wait') :
    Goes T R (i.work wait) (i.work wait') (Option.Rel E) := by
  cases i with
  | allocate object device window => exact (hsite object device).allocate window
  | transfer op object device _ window =>
    cases op with
    | copyIn => exact (hsite object device).copyIn window hwait
    | streamIn =>
      exact goes_bind ((hsite object device).streamIn window hwait) fun _ _ he =>
        goes_pure (.some he)
    | streamOut blocking =>
      exact goes_bind ((hsite object device).streamOut window hwait blocking) fun _ _ he =>
        goes_pure (.some he)
  | barrier => exact goes_bind (hmarker hwait) fun _ _ he => goes_pure (.some he)
  | addDep | launch | finish => exact goes_pure .none

end Instruction

namespace Machine

/-- Wait, work, keep the event and empty the list. -/
def carryOut (i : Instruction) : MachineAction (Option Note) := do
  let m ← get
  Action.ofExcept (i.admitted m.context.devices.length)
  let wait ← waitList i.waitsFor
  let event ← inStore (i.work wait)
  setLastEvent event
  resetList i.waitsFor
  return if event.isNone then i.idleNote else none

theorem run_waitList (list : Option Nat) (m : Machine) :
    (waitList list).run m = (m.ledger.waitList list, m) := by
  show (Action.ofExcept (m.ledger.waitList list) : MachineAction (List EventId)).run m = _
  cases m.ledger.waitList list <;> rfl

theorem run_resetList {list : Option Nat} {m : Machine} {l : EventLedger}
    (h : m.ledger.reset list = .ok l) :
    (resetList list).run m = (.ok (), { m with ledger := l }) := by
  rw [resetList, run_bind, run_get]
  dsimp only
  rw [h]
  rfl

/-- Work that always has an event. -/
theorem inStore_some_bind (x : StoreAction EventId) (f : Option EventId → MachineAction α) :
    inStore (do let event ← x; return some event) >>= f = inStore x >>= fun event =>
      f (some event) := by
  refine ext_run fun m => ?_
  simp only [run_bind, inStore, run_focus]
  rcases x.run m.store with ⟨r, s⟩
  cases r <;> rfl

/-- Where the list is emptied before the event is kept, it has been waited for and is there. -/
theorem reset_then_keep (list : Option Nat) (x : List EventId → StoreAction EventId) :
    (do
      let wait ← waitList list
      let event ← inStore (x wait)
      resetList list
      setLastEvent (some event)
      return none : MachineAction (Option Note)) =
    (do
      let wait ← waitList list
      let event ← inStore (do let event ← x wait; return some event)
      setLastEvent event
      resetList list
      return none : MachineAction (Option Note)) := by
  simp only [inStore_some_bind]
  refine ext_run fun m => ?_
  rw [run_bind, run_bind, run_waitList]
  cases hwait : m.ledger.waitList list with
  | error e => rfl
  | ok wait =>
    obtain ⟨l, hreset⟩ := EventLedger.exists_reset hwait
    simp only [run_bind, inStore, run_focus]
    rcases (x wait).run m.store with ⟨r, s⟩
    cases r with
    | error e => rfl
    | ok event =>
      have hkept : (resetList list).run { m with store := s, lastEvent := some event } =
          (.ok (), { m with store := s, lastEvent := some event, ledger := l }) :=
          run_resetList hreset
      have hreset : (resetList list).run { m with store := s } =
          (.ok (), { m with store := s, ledger := l }) :=
        run_resetList hreset
      simp only [hreset, hkept, setLastEvent, run_modify]

theorem perform_eq_carryOut (hi : i.works = true) : perform i = carryOut i := by
  -- What the work of `i` has given decides how it goes on.
  have hkeep : ∀ (list : Option Nat) (x : List EventId → StoreAction (Option EventId))
      {f g : Option EventId → MachineAction (Option Note)}, (∀ event, f event = g event) →
      (do let wait ← waitList list; let event ← inStore (x wait); f event) =
        (do let wait ← waitList list; let event ← inStore (x wait); g event) := by
    intro list x f g hfg
    rw [funext hfg]
  cases i with
  | allocate object device window =>
    refine hkeep none (fun _ => Store.allocate object device window) fun event => ?_
    cases event <;> rfl
  | transfer op object device events window =>
    cases op with
    | copyIn =>
      refine hkeep events (fun wait => Store.copyIn object device window wait) fun event => ?_
      cases event <;> rfl
    | streamIn =>
      rw [perform, reset_then_keep events fun wait => Store.streamIn object device window wait]
      refine hkeep events _ fun event => ?_
      cases event <;> rfl
    | streamOut blocking =>
      rw [perform, reset_then_keep events fun wait =>
        Store.streamOut object device window wait blocking]
      refine hkeep events _ fun event => ?_
      cases event <;> rfl
  | barrier events =>
    refine ext_run fun m => ?_
    rw [perform, carryOut, run_bind, run_bind, run_get]
    dsimp only [Instruction.admitted]
    split
    · rfl
    · dsimp only [Instruction.work, Instruction.waitsFor]
      simp only [inStore_some_bind]
      rfl
  | addDep | launch | finish => cases hi

/-- What the parts of an instruction other than its work do on both sides. It waits for events that
are related by `W`. -/
structure Conduct (T : Terms Machine Fault) (R : Machine → Machine → Prop)
    (W : List EventId → List EventId → Prop) : Prop where
  fault : ∀ {e : Fault} {m m'}, e.isRoutine → R m m' → T.strict → T.fault e e m m'
  length_devices : ∀ {m m'}, R m m' → m'.context.devices.length = m.context.devices.length
  waitList : ∀ list, Goes T R (waitList list) (waitList list) W
  resetList : ∀ list, Goes T R (resetList list) (resetList list) Eq

section Walks

variable {T : Terms Machine Fault} {R' : Machine → Machine → Prop}
  {V : Option Note → Option Note → Prop} {mode mode' : PassMode} {kind : PassKind}

/-- An instruction, if its work goes together and its event is kept. -/
theorem Conduct.perform (h : Conduct T R W) (hi : i.works = true)
    (hwork : ∀ wait wait', W wait wait' →
      Couples T R (inStore (i.work wait)) (inStore (i.work wait')) fun e e' m m' =>
      e.isNone = e'.isNone ∧ R { m with lastEvent := e } { m' with lastEvent := e' }) :
    Goes T R (perform i) (perform i) Eq := by
  rw [perform_eq_carryOut hi]
  refine goes_get fun m m' hm => ?_
  rw [h.length_devices hm]
  refine goes_then (goes_ofExcept (alike_eq_iff.2 rfl) fun e he _ _ hm => h.fault ?_ hm) fun _ => ?_
  · cases i with
    | barrier =>
      rw [Instruction.admitted] at he
      split_ifs at he
      cases he
      rfl
    | allocate | transfer | addDep | launch | finish => cases he
  · refine goes_bind (h.waitList _) fun wait wait' hwait => ?_
    refine couples_bind (hwork wait wait' hwait) fun e e' => couples_of_fact fun hnone => ?_
    refine couples_bind (Q := fun _ _ => R) (fun _ _ => id) fun _ _ => ?_
    exact goes_then (h.resetList _) fun _ => goes_pure (by rw [hnone])

/-- Any instruction, if what it may do goes together. -/
theorem Conduct.performs (h : Conduct T R W) {E : EventId → EventId → Prop}
    (hV : ∀ note, V note note) (hwork : ∀ wait wait', W wait wait' →
      Goes T R (inStore (i.work wait)) (inStore (i.work wait')) (Option.Rel E))
    (hlast : ∀ {m m' e e'}, Option.Rel E e e' → R m m' →
      R { m with lastEvent := e } { m' with lastEvent := e' })
    (hadd : ∀ list, i = .addDep list → Goes T R (Machine.perform i) (Machine.perform i) V) :
    Goes T R (Machine.perform i) (Machine.perform i) V := by
  have hworks : i.works = true → Goes T R (Machine.perform i) (Machine.perform i) V := fun hi =>
    goes_weaken (h.perform hi fun wait wait' hwait =>
      couples_weaken (hwork wait wait' hwait) (fun _ _ => id) fun e e' m m' he =>
        ⟨by cases he.1 <;> rfl, hlast he.1 he.2⟩) fun note _ hnote => hnote ▸ hV note
  cases i with
  | allocate | transfer | barrier => exact hworks rfl
  | addDep list => exact hadd list rfl
  | launch | finish => exact goes_pure (hV none)

theorem run_addDep (list : Nat) (m : Machine) :
    (perform (.addDep list)).run m =
      match m.lastEvent with
      | none => (.ok (some .noEvent), m)
      | some event =>
        if m.ledger.enabled then
          match m.ledger.append list event with
          | .ok ledger => (.ok none, { m with ledger })
          | .error fault => (.error fault, m)
        else (.ok (some .dependenciesDisabled), m) := by
  rw [perform, run_bind, run_get]
  dsimp only
  cases hlast : m.lastEvent with
  | none => rfl
  | some event =>
    cases m.ledger.enabled with
    | false => rfl
    | true =>
      dsimp only
      rw [if_neg (by decide), if_pos rfl, run_bind, ← hlast]
      cases m.ledger.append list event <;> rfl

theorem goes_addDep (hfault : ∀ {e : Fault} {m m'}, e.isRoutine → R m m' → T.strict →
      T.fault e e m m')
    (hsame : ∀ {m m'}, R m m' → m'.ledger = m.ledger ∧ m'.lastEvent = m.lastEvent) {list : Nat}
    (hput : ∀ {m m' event ledger}, R m m' → m.lastEvent = some event →
      m.ledger.append list event = .ok ledger → R { m with ledger } { m' with ledger }) :
    Goes T R (perform (.addDep list)) (perform (.addDep list)) Eq := by
  intro m m' hm
  rw [run_addDep, run_addDep, (hsame hm).1, (hsame hm).2]
  cases hlast : m.lastEvent with
  | none => exact ⟨rfl, hm⟩
  | some event =>
    cases m.ledger.enabled with
    | false => exact ⟨rfl, hm⟩
    | true =>
      dsimp only
      rw [if_pos rfl, if_pos rfl]
      cases hl : m.ledger.append list event with
      | error e => exact hfault (EventLedger.isRoutine_of_append hl) hm
      | ok ledger =>
        have hnext := hput hm hlast hl
        rw [(hsame hm).2, hlast] at hnext
        exact ⟨rfl, hnext⟩

theorem goes_effect (hV : ∀ note, V note note)
    (hlaunch : ∀ frame device task events window arguments,
      i = .launch frame device task events window arguments →
      Goes T R (launch mode frame device task events window arguments)
        (launch mode frame device task events window arguments) V)
    (hperform : mode = .normal → Goes T R (perform i) (perform i) V) :
    Goes T R (effect mode i) (effect mode i) V := by
  cases i with
  | launch => exact hlaunch _ _ _ _ _ _ rfl
  | allocate | transfer | addDep | barrier | finish =>
    cases mode with
    | normal => exact hperform rfl
    | warmup => exact goes_pure (hV none)

/-! ## Bodies -/

theorem runBody_succ (mode : PassMode) (kind : PassKind) (fuel : Nat) :
    runBody mode kind (fuel + 1) = (do
      let i ← fetch kind
      let note ← effect mode i
      modify (noted mode i note)
      if i = .finish then return () else runBody mode kind fuel) := by
  refine ext_run fun m => ?_
  rw [run_runBody_succ, run_bind]
  rcases (fetch kind).run m with ⟨r, m⟩
  cases r with
  | error fault => rfl
  | ok i =>
    dsimp only
    rw [run_bind]
    rcases (effect mode i).run m with ⟨r, m⟩
    cases r with
    | error fault => rfl
    | ok note =>
      show _ = (if i = .finish then return () else runBody mode kind fuel : MachineAction Unit).run
        (m.noted mode i note)
      split_ifs <;> rfl

theorem goes_fetch (hfault : ∀ {e : Fault} {m m'}, R m m' → T.strict → T.fault e e m m')
    (hsame : ∀ {m m'}, R m m' → m'.reader = m.reader ∧ m'.config.debug = m.config.debug)
    (hread : ∀ {m m'} reader, R m m' → R { m with reader } { m' with reader })
    (hlog : ∀ text, Goes T R (log .debug text) (log .debug text) Eq) (kind : PassKind) :
    Goes T R (fetch kind) (fetch kind) Eq := by
  refine goes_get fun m m' hm => ?_
  rw [(hsame hm).1, (hsame hm).2]
  refine goes_then (W := Eq) (fun m m' hm => ?_) fun i => ?_
  · rw [Machine.read, run_focus, run_focus, (hsame hm).1]
    rcases (Reader.read Reading.instruction).run m.reader with ⟨r, reader⟩
    cases r with
    | ok i => exact ⟨rfl, hread reader hm⟩
    | error e => exact hfault (hread reader hm)
  · dsimp only
    show Goes T R _ _ Eq
    split
    · exact goes_throw_bind fun _ _ => hfault
    · split
      · exact goes_then (hlog _) fun _ => goes_pure rfl
      · exact goes_pure rfl

/-- A body goes together if reading, carrying out and noting instructions do. -/
theorem goes_runBody (hend : ∀ {m m'}, R m m' → m'.reader.position = m.reader.position ∧
      (T.strict → T.fault (.missingEnd m.reader.position) (.missingEnd m.reader.position) m m'))
    (hfetch : Goes T R (fetch kind) (fetch kind) Eq)
    (heffect : ∀ i, Goes T R (effect mode i) (effect mode' i) V)
    (hnoted : ∀ {m m' note note'} i, V note note' → R m m' →
      R (m.noted mode i note) (m'.noted mode' i note'))
    (fuel : Nat) : Goes T R (runBody mode kind fuel) (runBody mode' kind fuel) Eq := by
  induction fuel with
  | zero =>
    intro m m' hm
    show T.strict → T.fault (.missingEnd m.reader.position) (.missingEnd m'.reader.position) m m'
    rw [(hend hm).1]
    exact (hend hm).2
  | succ fuel ih =>
    rw [runBody_succ, runBody_succ]
    refine goes_then hfetch fun i => ?_
    refine goes_bind (heffect i) fun note note' hnote => ?_
    refine goes_then (goes_modify fun _ _ hm => hnoted i hnote hm) fun _ => ?_
    split_ifs
    · exact goes_pure rfl
    · exact ih

/-! ## The end of a pass -/

theorem goes_settle {config config' : Config} {devices : List Nat}
    (hawait : ∀ device ∈ devices, ∀ barrier, Goes T R (awaitMarker config device barrier)
      (awaitMarker config' device barrier) Eq)
    (hflush : ∀ device ∈ devices, Goes T R (flushDevice config device)
      (flushDevice config' device) Eq)
    (barrier : Event) : Goes T R (settle config barrier devices)
      (settle config' barrier devices) Eq := by
  induction devices generalizing barrier with
  | nil => exact goes_pure rfl
  | cons device others ih =>
    obtain ⟨hawait, hawaits⟩ := List.forall_mem_cons.1 hawait
    obtain ⟨hflush, hflushes⟩ := List.forall_mem_cons.1 hflush
    exact goes_then (hawait barrier) fun barrier => goes_then hflush fun _ =>
      ih hawaits hflushes barrier

/-- What is done to the devices and with the profiles at the end of a pass. -/
structure Ending (T : Terms Machine Fault) (R : Machine → Machine → Prop) : Prop where
  fault : ∀ {e : Fault} {m m'}, e.isRoutine → R m m' → T.strict → T.fault e e m m'
  length_devices : ∀ {m m'}, R m m' → m'.context.devices.length = m.context.devices.length
  same : ∀ {m m'}, R m m' → m'.config = m.config ∧ m'.pending = m.pending
  marker : ∀ index, Goes T R (onDevice index (Station.marker []))
    (onDevice index (Station.marker [])) Eq
  resolve : ∀ index event,
    Goes T R (onDevice index (Station.resolve event)) (onDevice index (Station.resolve event)) Eq
  flush : ∀ index, Goes T R (onDevice index Station.flush) (onDevice index Station.flush) Eq
  task : ∀ {m m'} (task : Nat), R m m' →
    Alike (fun t t' => t'.unbound = t.unbound) (m.context.task task) (m'.context.task task)
  emptied : ∀ {m m'}, R m m' → R { m with pending := [] } { m' with pending := [] }
  profiled : ∀ {m m'} profile, R m m' →
    R { m with profiles := m.profiles ++ [profile] }
      { m' with profiles := m'.profiles ++ [profile] }

namespace Ending

variable (h : Ending T R)

include h

theorem awaitMarker (config : Config) (device : Nat) (barrier : Event) :
    Goes T R (awaitMarker config device barrier)
      (Machine.awaitMarker config device barrier) Eq := by
  rw [Machine.awaitMarker]
  split
  · exact goes_then (h.marker device) fun marker => h.resolve device marker
  · exact goes_pure rfl

theorem flushDevice (config : Config) (device : Nat) :
    Goes T R (flushDevice config device) (Machine.flushDevice config device) Eq := by
  rw [Machine.flushDevice]
  split
  · exact h.flush device
  · exact goes_pure rfl

theorem collect (pending : List PendingProfile) :
    Goes T R (collect pending) (collect pending) Eq := by
  induction pending with
  | nil => exact goes_pure rfl
  | cons p others ih =>
    refine goes_then (h.resolve p.device p.event) fun event => ?_
    split
    · refine goes_get fun m m' hm => ?_
      refine goes_bind (goes_ofExcept (h.task p.task hm) fun _ he _ _ hm =>
        h.fault (isRoutine_of_lookup he) hm) fun t t' ht => ?_
      rw [Task.name_eq ht]
      exact goes_then (goes_modify fun _ _ hm => h.profiled _ hm) fun _ => ih
    · exact ih

theorem finish : Goes T R finish finish Eq := by
  refine goes_get fun m m' hm => ?_
  rw [(h.same hm).1, h.length_devices hm]
  refine goes_then (goes_settle (fun device _ => h.awaitMarker _ device)
    (fun device _ => h.flushDevice _ device) _) fun barrier => ?_
  refine goes_get fun m m' hm => ?_
  rw [(h.same hm).2]
  exact goes_then (goes_set (h.emptied hm)) fun _ => goes_then (h.collect _) fun _ => goes_pure rfl

end Ending

/-- The end of a pass. After `R` there is `R'` when the devices have been waited for. -/
theorem couples_closing (hreset : ∀ {m m'}, R m m' →
      R { m with reader := m.reader.reset } { m' with reader := m'.reader.reset })
    {body : Except Fault Unit}
    (hbody : ∀ {e m m'}, body = .error e → R m m' → T.strict → T.fault e e m m')
    (hfinish : mode = .normal → Couples T R finish finish fun e e' m m' => e = e' ∧ R' m m')
    (hidle : mode = .warmup → ∀ {m m'}, R m m' → R' m m')
    (htiming : ∀ {m m'}, R' m m' →
      R' { m with timing := m.timing.record 0 } { m' with timing := m'.timing.record 0 })
    (hreport : Goes T R' (reportTrace mode kind) (reportTrace mode kind) Eq)
    (hfault : T.strict → ∀ e e', Couples T (T.fault e e') (concluding mode kind (.error e))
      (concluding mode kind (.error e')) fun _ _ _ _ => False) :
    Couples T R (closing mode kind body) (closing mode kind body) fun e e' m m' => e = e' ∧
      R' m m' := by
  refine couples_attempt_bind (x := completion mode body) (f := concluding mode kind)
    (Q := fun e e' m m' => e = e' ∧ R' m m') ?_ (fun event event' => couples_of_fact ?_)
    (fun hstrict e e' => couples_weaken (hfault hstrict e e') (fun _ _ => id) fun _ _ _ _ h =>
      h.elim)
    fun _ e m => ⟨e, _, Prod.ext (outcome_concluding mode kind (.error e) m) rfl⟩
  · refine couples_bind (Q := fun _ _ => R) (fun _ _ hm => hreset hm) fun _ _ => ?_
    refine couples_bind (goes_ofExcept (alike_eq_iff.2 rfl) fun e he _ _ => hbody he)
      fun _ _ => couples_of_fact fun _ => ?_
    cases mode with
    | normal => exact hfinish rfl
    | warmup => exact fun _ _ hm => ⟨rfl, hidle rfl hm⟩
  · rintro rfl
    refine goes_then (W := Eq) ?_ fun _ => goes_then hreport fun _ => goes_pure rfl
    rw [conclude]
    split
    · exact goes_modify fun _ _ hm => htiming hm
    · exact goes_pure rfl

theorem runPass_eq (mode : PassMode) (kind : PassKind) :
    runPass mode kind = (do
      let m ← get
      modify begun
      let body ← Action.attempt (runBody mode kind m.reader.remaining)
      closing mode kind body) :=
  ext_run fun _ => rfl

/-- A pass between moments that are related by `R'`. There is `R` within its body. -/
theorem goes_runPass
    (hbegun : ∀ {m m'}, R' m m' → m'.reader.remaining = m.reader.remaining ∧ R m.begun m'.begun)
    (hbody : ∀ fuel, Goes T R (runBody mode kind fuel) (runBody mode kind fuel) Eq)
    (hclosing : Couples T R (closing mode kind (.ok ())) (closing mode kind (.ok ()))
      fun e e' m m' => e = e' ∧ R' m m')
    (hfault : T.strict → ∀ e e', Couples T (T.fault e e') (closing mode kind (.error e))
      (closing mode kind (.error e')) fun _ _ _ _ => False) :
    Goes T R' (runPass mode kind) (runPass mode kind) Eq := by
  rw [runPass_eq]
  refine goes_get fun m m' hm => ?_
  rw [(hbegun hm).1]
  refine couples_bind (Q := fun _ _ => R) (fun _ _ hm => (hbegun hm).2) fun _ _ => ?_
  refine couples_attempt_bind (hbody _) (fun _ _ => couples_of_fact fun _ => hclosing)
    (fun hstrict e e' => couples_weaken (hfault hstrict e e') (fun _ _ => id) fun _ _ _ _ h =>
      h.elim)
    fun _ e m => ⟨e, _, Prod.ext (run_closing_error mode kind e m) rfl⟩

end Walks

/-! ## Launches -/

/-- A launch from its frame on, with the code that was found for it. -/
def launchWith (mode : PassMode) (frame device task : Nat) (events : Option Nat)
    (window : Option Window) (arguments : List Argument) (code : Option CacheEntry) :
    MachineAction (Option Note) := do
  let f ← resolveFrame frame arguments.length
  if mode = .warmup then return some .warmup
  match code with
  | none =>
    log .warn ("vm: skipping launch of task " ++ toString task ++ ", no installed code")
    return some .notCompiled
  | some entry =>
    let m ← get
    let t ← Action.ofExcept (m.context.task task)
    let f ← fillFrame t frame device arguments f
    submitLaunch entry t frame device task events window f
    return none

/-- Keep a launch for its profile, if the machine and the task have profiles. -/
def pend (m : Machine) (t : Task) (task device : Nat) (event : EventId) : MachineAction Unit := do
  if m.config.profiling && t.profiling then
    modify fun m => { m with pending := m.pending ++ [⟨task, device, event⟩] }

/-- The event of a launch may be kept at once, for the list that is emptied in between is there. -/
theorem submitLaunch_eq (entry : CacheEntry) (t : Task) (frame device task : Nat)
    (events : Option Nat) (window : Option Window) (f : CallFrame) :
    submitLaunch entry t frame device task events window f = (do
      let m ← get
      let wait ← waitList events
      let r ← onDevice entry.device (Station.launch entry.code f t.name window
        (if m.config.useDependencies then wait else []))
      setLastEvent (some r.1)
      putFrame frame r.2
      resetList events
      pend m t task device r.1) := by
  refine ext_run fun m => ?_
  rw [submitLaunch, run_bind, run_bind, run_get]
  dsimp only
  rw [run_bind, run_bind, run_waitList]
  cases hwait : m.ledger.waitList events with
  | error e => rfl
  | ok wait =>
    obtain ⟨l, hreset⟩ := EventLedger.exists_reset hwait
    simp only [run_bind, onDevice, inStore, run_focus]
    rcases (Store.inContext
      (Context.onDevice entry.device
        (Station.launch entry.code f t.name window
          (if m.config.useDependencies then wait else [])))).run m.store with ⟨r, s⟩
    cases r with
    | error e => rfl
    | ok r =>
      have hlater : (resetList events).run
          { m with store := s, lastEvent := some r.1, frames := m.frames.put frame r.2 } =
          (.ok (), { m with
            store := s, lastEvent := some r.1, frames := m.frames.put frame r.2, ledger := l }) :=
        run_resetList hreset
      have hreset : (resetList events).run { m with store := s, frames := m.frames.put frame r.2 } =
          (.ok (), { m with store := s, frames := m.frames.put frame r.2, ledger := l }) :=
          run_resetList hreset
      simp only [putFrame, setLastEvent, run_modify, hreset, hlater, pend]

section Launches

variable {T : Terms Machine Fault} {V : Option Note → Option Note → Prop} {B : BufferId → Prop}
  {F : Nat → CallFrame → CallFrame → Prop} {G H : CallFrame → CallFrame → Prop} {mode : PassMode}
  {frame device task : Nat} {events : Option Nat} {window : Option Window}
  {arguments : List Argument}

/-- What filling two frames is made of. The frames are related by `F`, which says too how many
arguments are still to come, and the buffers of a device are ones of which `B` holds. -/
structure Filling (T : Terms Machine Fault) (R : Machine → Machine → Prop) (B : BufferId → Prop)
    (F : Nat → CallFrame → CallFrame → Prop) (id device : Nat) : Prop where
  fault : ∀ {e : Fault} {m m'}, e.isRoutine → R m m' → T.strict → T.fault e e m m'
  constant : ∀ {m m'} (index : Nat), R m m' → m'.context.constant index = m.context.constant index
  buffer : ∀ object, Goes T R (inStore (Store.validBuffer object device))
    (inStore (Store.validBuffer object device)) fun b b' => b = b' ∧ B b
  label : ∀ object, Goes T R (inStore (Store.label object)) (inStore (Store.label object)) Eq
  claim : ∀ object, Goes T R (inStore (Store.claim object device))
    (inStore (Store.claim object device)) Eq
  push : ∀ {n f f'} {a : FrameArgument}, (∀ object b label, a = .reference object b label → B b) →
    F (n + 1) f f' → Alike (F n) (f.push id a) (f'.push id a)
  overflow : ∀ {n f f' a e m m'}, F (n + 1) f f' → f.push id a = .error e → R m m' → T.strict →
    T.fault e e m m'
  put : ∀ {n f f'}, F n f f' → Goes T R (putFrame id f) (putFrame id f') Eq

namespace Filling

variable (h : Filling T R B F frame device)

include h

theorem pushArgument {n : Nat} {f f' : CallFrame} {a : FrameArgument}
    (ha : ∀ object b label, a = .reference object b label → B b) (hf : F (n + 1) f f') :
    Goes T R (pushArgument frame f a) (pushArgument frame f' a) (F n) := by
  refine goes_bind (goes_ofExcept (h.push ha hf) fun _ he _ _ hm => h.overflow hf he hm)
    fun g g' hg => ?_
  exact goes_then (h.put hg) fun _ => goes_pure hg

theorem marshal {t t' : Task} (ht : t'.unbound = t.unbound) (place : Nat) {f f' : CallFrame}
    (hf : F arguments.length f f') :
    Goes T R (marshal t frame device place arguments f) (marshal t' frame device place arguments f')
      (F 0) := by
  induction arguments generalizing place f f' with
  | nil => exact goes_pure hf
  | cons argument others ih =>
    cases argument with
    | constant index =>
      refine goes_get fun m m' hm => ?_
      rw [h.constant index hm]
      refine goes_then (goes_ofExcept (alike_eq_iff.2 rfl) fun _ he _ _ hm =>
        h.fault (isRoutine_of_lookup he) hm) fun value => ?_
      refine goes_bind (h.pushArgument (fun _ _ _ ha => ?_) hf) fun g g' hg => ih (place + 1) hg
      cases ha
    | reference index =>
      refine goes_bind (h.buffer index) ?_
      rintro buffer _ ⟨rfl, hbuffer⟩
      refine goes_then (h.label index) fun label => ?_
      refine goes_bind (h.pushArgument (fun _ _ _ ha => ?_) hf) fun g g' hg => ?_
      · cases ha
        exact hbuffer
      · dsimp only
        rw [Task.access_eq ht]
        split
        · exact goes_then (h.claim index) fun _ => ih (place + 1) hg
        · exact ih (place + 1) hg

theorem fillFrame {t t' : Task} (ht : t'.unbound = t.unbound) {f f' : CallFrame}
    (hsame : f'.isOnDevice = f.isOnDevice) (hheld : F 0 f f')
    (hreset : F arguments.length f.reset f'.reset) :
    Goes T R (fillFrame t frame device arguments f) (fillFrame t' frame device arguments f')
      (F 0) := by
  rw [Machine.fillFrame, Machine.fillFrame, hsame]
  split
  · exact goes_pure hheld
  · exact goes_then (h.put hreset) fun _ => h.marshal ht 0 hreset

end Filling

/-- A launch is submitted with two frames, if the devices treat them alike. -/
theorem Conduct.submitLaunch (h : Conduct T R W)
    {X : EventId × CallFrame → EventId × CallFrame → Prop} {entry : CacheEntry} {t t' : Task}
    {f f' : CallFrame} (hlaunch : ∀ {m m' wait wait'}, R m m' → W wait wait' → Couples T R
      (onDevice entry.device
        (Station.launch entry.code f t.name window (if m.config.useDependencies then wait else [])))
      (onDevice entry.device (Station.launch entry.code f' t'.name window
        (if m'.config.useDependencies then wait' else [])))
      fun a b m m' => X a b ∧ R { m with lastEvent := some a.1 } { m' with lastEvent := some b.1 })
    (hput : ∀ {a b}, X a b → Goes T R (putFrame frame a.2) (putFrame frame b.2) Eq)
    (hpend : ∀ {m m' a b}, R m m' → X a b →
      Goes T R (pend m t task device a.1) (pend m' t' task device b.1) Eq) :
    Goes T R (submitLaunch entry t frame device task events window f)
      (submitLaunch entry t' frame device task events window f') Eq := by
  rw [submitLaunch_eq, submitLaunch_eq]
  refine goes_get fun m m' hm => ?_
  refine goes_bind (h.waitList events) fun wait wait' hwait => ?_
  refine couples_bind (hlaunch hm hwait) fun a b => couples_of_fact fun hab => ?_
  refine couples_bind (Q := fun _ _ => R) (fun _ _ => id) fun _ _ => ?_
  refine goes_then (hput hab) fun _ => ?_
  exact goes_then (h.resetList events) fun _ => hpend hm hab

theorem goes_launchWith (hV : ∀ note, V note note)
    (hfault : ∀ {e : Fault} {m m'}, e.isRoutine → R m m' → T.strict → T.fault e e m m')
    (hframe : Goes T R (resolveFrame frame arguments.length)
      (resolveFrame frame arguments.length) G)
    (hlog : ∀ text, Goes T R (log .warn text) (log .warn text) Eq)
    (htask : ∀ {m m'}, R m m' →
      Alike (fun t t' => t'.unbound = t.unbound) (m.context.task task) (m'.context.task task))
    (hfill : mode = .normal → ∀ {t t' f f'}, t'.unbound = t.unbound → G f f' →
      Goes T R (fillFrame t frame device arguments f) (fillFrame t' frame device arguments f') H)
    (hsubmit : mode = .normal → ∀ {entry t t' f f'}, t'.unbound = t.unbound → H f f' →
      Goes T R (submitLaunch entry t frame device task events window f)
        (submitLaunch entry t' frame device task events window f') Eq) (code : Option CacheEntry) :
    Goes T R (launchWith mode frame device task events window arguments code)
      (launchWith mode frame device task events window arguments code) V := by
  refine goes_bind hframe fun f f' hf => ?_
  cases mode with
  | warmup => exact goes_pure (hV _)
  | normal =>
    rw [if_neg (by decide), if_neg (by decide)]
    cases code with
    | none => exact goes_then (hlog _) fun _ => goes_pure (hV _)
    | some entry =>
      refine goes_get fun m m' hm => ?_
      refine goes_bind (goes_ofExcept (htask hm) fun _ he _ _ hm =>
        hfault (isRoutine_of_lookup he) hm) fun t t' ht => ?_
      refine goes_bind (hfill rfl ht hf) fun g g' hg => ?_
      exact goes_then (hsubmit rfl ht hg) fun _ => goes_pure (hV _)

theorem goes_launch (hfault : ∀ {e : Fault} {m m'}, e.isRoutine → R m m' → T.strict →
      T.fault e e m m')
    (hdevice : ∀ {m m'}, R m m' → Alike (fun _ _ => True) (m.context.device device)
      (m'.context.device device))
    (hcode : Goes T R (resolveCode task device) (resolveCode task device) Eq)
    (hwith : ∀ code, Goes T R (launchWith mode frame device task events window arguments code)
      (launchWith mode frame device task events window arguments code) V) :
    Goes T R (launch mode frame device task events window arguments)
      (launch mode frame device task events window arguments) V := by
  refine goes_get fun m m' hm => ?_
  refine goes_bind (goes_ofExcept (hdevice hm) fun _ he _ _ hm =>
    hfault (isRoutine_of_lookup he) hm) fun _ _ _ => ?_
  exact goes_then hcode hwith

end Launches

/-! ## Machines with stores that agree -/

/-- A relation between machines whose stores are related by `T`, and that are the same but for their
stores, frames and code, and for what they read and have traced. -/
structure Accord (R : Machine → Machine → Prop) (T : Store → Store → Prop)
    (C : Context → Context → Prop) (S : Station → Station → Prop) : Prop where
  operations : Store.Agreement T C S Eq Eq
  marker : ∀ wait, Respects S (Station.marker wait)
  resolve : ∀ event, Respects S (Station.resolve event)
  flush : Respects S Station.flush
  constants : ∀ {c c'}, C c c' → c'.constants = c.constants
  task : ∀ {c c'} (task : Nat), C c c' →
    Alike (fun t t' => t'.unbound = t.unbound) (c.task task) (c'.task task)
  store : ∀ {m m'}, R m m' → T m.store m'.store
  withStore : ∀ {m m' s s'}, R m m' → T s s' → R { m with store := s } { m' with store := s' }
  rest : ∀ {m m'}, R m m' → ∃ store frames code reader trace,
    m' = { m with store, frames, code, reader, trace }
  aside : ∀ {m m'} ledger lastEvent pending timing profiles, R m m' →
    R { m with ledger, lastEvent, pending, timing, profiles }
      { m' with ledger, lastEvent, pending, timing, profiles }

/-- A relation between machines that moreover read the same and have the same trace. -/
structure Agreement (R : Machine → Machine → Prop) (T : Store → Store → Prop)
    (C : Context → Context → Prop) (S : Station → Station → Prop) :
    Prop extends Accord R T C S where
  reading : ∀ {m m'}, R m m' → m'.reader = m.reader ∧ m'.trace = m.trace
  onward : ∀ {m m'} reader trace, R m m' → R { m with reader, trace } { m' with reader, trace }

namespace Accord

variable {T : Store → Store → Prop} {C : Context → Context → Prop} {S : Station → Station → Prop}
  {m m' : Machine}

section Parts

variable (h : Accord R T C S)

include h

theorem inStore {x : StoreAction α} {y : StoreAction β} {V : α → β → Prop} (hxy : Agrees T x y V) :
    Agrees R (inStore x) (inStore y) V :=
  agrees_focus hxy (fun _ _ hm => h.store hm) fun _ _ _ _ hm hs => h.withStore hm hs

theorem onDevice {x : DeviceAction α} {y : DeviceAction β} {V : α → β → Prop}
    (hxy : Agrees S x y V) (index : Nat) :
    Agrees R (onDevice index x) (onDevice index y) V :=
  h.inStore (h.operations.onDeviceOf hxy index)

theorem log (level level' : Level) (text text' : String) :
    Agrees R (log level text) (log level' text') Eq :=
  h.inStore (h.operations.log level level' text text')

theorem context (hm : R m m') : C m.context m'.context := h.operations.context (h.store hm)

theorem length_devices (hm : R m m') : m'.context.devices.length = m.context.devices.length :=
  h.operations.length_eq (h.context hm)

theorem modify {f : Machine → Machine}
    (hf : ∀ (m : Machine) store frames code reader trace,
      f { m with store, frames, code, reader, trace } = { m with
        store, frames, code, reader, trace, ledger := (f m).ledger, lastEvent := (f m).lastEvent,
        pending := (f m).pending, timing := (f m).timing, profiles := (f m).profiles }) :
    Respects R (modify f : MachineAction PUnit) := by
  refine respects_modify fun m m' hm => ?_
  obtain ⟨store, frames, code, reader, trace, rfl⟩ := h.rest hm
  have haside := h.aside (f m).ledger (f m).lastEvent (f m).pending (f m).timing (f m).profiles hm
  rw [hf m store frames code reader trace]
  exact (hf m m.store m.frames m.code m.reader m.trace).symm ▸ haside

theorem waitList (list : Option Nat) : Respects R (waitList list) := by
  refine goes_get fun m m' hm => ?_
  obtain ⟨store, frames, code, reader, trace, rfl⟩ := h.rest hm
  exact respects_ofExcept

theorem resetList (list : Option Nat) : Respects R (resetList list) := by
  refine goes_get fun m m' hm => ?_
  obtain ⟨store, frames, code, reader, trace, rfl⟩ := h.rest hm
  refine respects_bind respects_ofExcept fun ledger => ?_
  exact h.modify fun _ _ _ _ _ _ => rfl

end Parts

/-! ### Instructions and the end of a pass -/

section Walks

variable (h : Accord R T C S)

include h

theorem conduct : Conduct (.same R) R Eq :=
  ⟨fun _ hm _ => ⟨rfl, hm⟩, h.length_devices, h.waitList, h.resetList⟩

theorem perform (i : Instruction) : Respects R (perform i) := by
  refine h.conduct.performs (V := Eq) (E := Eq) (fun _ => rfl) (fun wait wait' hwait => ?_)
    (fun hevents hm => ?_) fun list hi => ?_
  · exact h.inStore (i.goes_work h.operations.site
      (fun hwait => h.operations.onDeviceOf (hwait ▸ h.marker _) 0) hwait)
  · obtain rfl := Store.Site.eq_of_rel_eq hevents
    obtain ⟨store, frames, code, reader, trace, rfl⟩ := h.rest hm
    exact h.aside _ _ _ _ _ hm
  · subst hi
    refine goes_addDep h.conduct.fault (fun hm => ?_) fun {m m' event ledger} hm _ _ => ?_
    · obtain ⟨store, frames, code, reader, trace, rfl⟩ := h.rest hm
      exact ⟨rfl, rfl⟩
    · obtain ⟨store, frames, code, reader, trace, rfl⟩ := h.rest hm
      exact h.aside ledger m.lastEvent m.pending m.timing m.profiles hm

theorem ending : Ending (.same R) R where
  fault _ hm _ := ⟨rfl, hm⟩
  length_devices := h.length_devices
  same hm := by
    obtain ⟨store, frames, code, reader, trace, rfl⟩ := h.rest hm
    exact ⟨rfl, rfl⟩
  marker := h.onDevice (h.marker [])
  resolve index event := h.onDevice (h.resolve event) index
  flush := h.onDevice h.flush
  task task hm := h.task task (h.context hm)
  emptied {m m'} hm := by
    have hnext := h.aside m.ledger m.lastEvent [] m.timing m.profiles hm
    obtain ⟨store, frames, code, reader, trace, rfl⟩ := h.rest hm
    exact hnext
  profiled {m m'} profile hm := by
    have hnext := h.aside m.ledger m.lastEvent m.pending m.timing (m.profiles ++ [profile]) hm
    obtain ⟨store, frames, code, reader, trace, rfl⟩ := h.rest hm
    exact hnext

/-- The end of a pass, if both readers can go back to their marks. -/
theorem closing_of_reset (hreset : ∀ {m m'}, R m m' →
      R { m with reader := m.reader.reset } { m' with reader := m'.reader.reset })
    (mode : PassMode) (kind : PassKind) (body : Except Fault Unit) :
    Respects R (closing mode kind body) := by
  have hreport : Respects R (reportTrace mode kind) := by
    refine goes_get fun m m' hm => ?_
    obtain ⟨store, frames, code, reader, trace, rfl⟩ := h.rest hm
    split
    · exact h.log _ _ _ _
    · exact respects_pure
  refine couples_closing hreset (fun _ hm _ => ⟨rfl, hm⟩) (fun _ => h.ending.finish)
    (fun _ _ _ => id) (fun {m m'} hm => ?_) hreport fun _ e e' => couples_of_fact ?_
  · have hnext := h.aside m.ledger m.lastEvent m.pending (m.timing.record 0) m.profiles hm
    obtain ⟨store, frames, code, reader, trace, rfl⟩ := h.rest hm
    exact hnext
  · rintro rfl
    have hconclude : Respects R (conclude mode kind (.error e)) :=
      goes_then (h.modify fun _ _ _ _ _ _ => rfl) fun _ => h.log _ _ _ _
    exact couples_bind hconclude fun _ _ => couples_of_fact fun _ =>
      couples_bind hreport fun _ _ => couples_of_fact fun _ => goes_throw fun _ _ hm _ => ⟨rfl, hm⟩

end Walks

/-! ### Launches -/

section Launches

variable (h : Accord R T C S) {frame device : Nat}

include h

/-- Two frames are filled. They are related by `P`, which says too that there is room for the
arguments that are still to come. -/
theorem filling {P : Nat → CallFrame → CallFrame → Prop}
    (hpush : ∀ {n f f'} (a : FrameArgument), P (n + 1) f f' →
      Alike (P n) (f.push frame a) (f'.push frame a))
    (hput : ∀ {n f f'}, P n f f' → Agrees R (putFrame frame f) (putFrame frame f') Eq) :
    Filling (.same R) R (fun _ => True) P frame device where
  fault _ hm _ := ⟨rfl, hm⟩
  constant index hm := by rw [Context.constant, Context.constant, h.constants (h.context hm)]
  buffer object := h.inStore (h.operations.site object device).validBuffer
  label object := h.inStore (h.operations.label object)
  claim object := h.inStore (h.operations.site object device).claim
  push _ hf := hpush _ hf
  overflow _ _ hm _ := ⟨rfl, hm⟩
  put := hput

/-- A launch is submitted with two frames, if the devices treat them alike. -/
theorem submitLaunch {P : CallFrame → CallFrame → Prop} {entry : CacheEntry}
    {window : Option Window} {t t' : Task} (ht : t'.unbound = t.unbound) {f f' : CallFrame}
    (hlaunch : ∀ wait, Agrees S (Station.launch entry.code f t.name window wait)
      (Station.launch entry.code f' t.name window wait) fun a b => b.1 = a.1 ∧ P a.2 b.2)
    (hput : ∀ {f f'}, P f f' → Agrees R (putFrame frame f) (putFrame frame f') Eq)
    (task : Nat) (events : Option Nat) :
    Agrees R (submitLaunch entry t frame device task events window f)
      (submitLaunch entry t' frame device task events window f') Eq := by
  refine h.conduct.submitLaunch (X := fun a b => b.1 = a.1 ∧ P a.2 b.2) (fun hm hwait => ?_)
    (fun hX => hput hX.2) fun hm hX => ?_
  · obtain rfl := hwait
    obtain ⟨store, frames, code, reader, trace, rfl⟩ := h.rest hm
    rw [Task.name_eq ht]
    refine couples_weaken (h.onDevice (hlaunch _) entry.device) (fun _ _ => id) ?_
    rintro ⟨event, g⟩ ⟨_, g'⟩ m m' ⟨⟨rfl, hg⟩, hm⟩
    refine ⟨⟨rfl, hg⟩, ?_⟩
    obtain ⟨store, frames, code, reader, trace, rfl⟩ := h.rest hm
    exact h.aside _ _ _ _ _ hm
  · obtain ⟨store, frames, code, reader, trace, rfl⟩ := h.rest hm
    rw [pend, pend, Task.profiling_eq ht, hX.1]
    split
    · exact h.modify fun _ _ _ _ _ _ => rfl
    · exact respects_pure

end Launches

end Accord

/-! ## Machines that read the same -/

namespace Agreement

variable {T : Store → Store → Prop} {C : Context → Context → Prop} {S : Station → Station → Prop}
  {m m' : Machine} (h : Agreement R T C S)

include h

theorem fetch (kind : PassKind) : Respects R (fetch kind) := by
  refine goes_fetch (T := .same R) (fun hm _ => ⟨rfl, hm⟩) (fun {m m'} hm => ⟨(h.reading hm).1, ?_⟩)
    (fun {m m'} reader hm => ?_) (fun text => h.log _ _ text text) kind
  · obtain ⟨store, frames, code, reader, trace, rfl⟩ := h.rest hm
    rfl
  · have hnext := h.onward reader m.trace hm
    have htrace := (h.reading hm).2
    obtain ⟨store, frames, code, _, trace, rfl⟩ := h.rest hm
    obtain rfl : trace = m.trace := htrace
    exact hnext

theorem noted (hm : R m m') (mode : PassMode) (i : Instruction) (note : Option Note) :
    R (m.noted mode i note) (m'.noted mode i note) := by
  obtain ⟨hreader, htrace⟩ := h.reading hm
  have hnext := h.onward m.reader (m.trace ++ [⟨i, note⟩]) hm
  obtain ⟨store, frames, code, reader, trace, rfl⟩ := h.rest hm
  obtain rfl : reader = m.reader := hreader
  obtain rfl : trace = m.trace := htrace
  unfold Machine.noted
  split
  · exact hnext
  · exact hm

theorem begun (hm : R m m') : R m.begun m'.begun := by
  have hreader := (h.reading hm).1
  have hnext := h.onward m.reader [] (h.aside m.ledger none m.pending m.timing m.profiles hm)
  obtain ⟨store, frames, code, reader, trace, rfl⟩ := h.rest hm
  obtain rfl : reader = m.reader := hreader
  exact hnext

theorem closing (mode : PassMode) (kind : PassKind) (body : Except Fault Unit) :
    Respects R (closing mode kind body) := by
  refine h.closing_of_reset (fun {m m'} hm => ?_) mode kind body
  obtain ⟨hreader, htrace⟩ := h.reading hm
  have hnext := h.onward m.reader.reset m.trace hm
  rw [hreader, htrace]
  exact hnext

end Agreement


end Machine

end Offload
