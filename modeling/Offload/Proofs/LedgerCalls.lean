import Offload.Proofs.WaitLists

/-!
# Calls of a ledger

A ledger that is switched on is a family of bounded sequences that have nothing to do with each
other: what a list shows is what was appended to it since it was last emptied, and a call is refused
only for a list that is full or not there. One that is switched off refuses nothing and shows
nothing. All of this is said of any calls in any order.
-/

namespace Offload

open Offload.Action

/-- What can be asked of a ledger. -/
inductive LedgerCall where
  | append (list : Nat) (event : EventId)
  | waitList (list : Option Nat)
  | reset (list : Option Nat)
  | take (list : Option Nat)
  | clear
  deriving DecidableEq

/-- A call and its outcome. -/
structure LedgerAnswer where
  call : LedgerCall
  outcome : Except Fault (List EventId)

namespace LedgerAnswer

/-- Whether a list was emptied by a call. -/
def empties (list : Nat) (x : LedgerAnswer) : Bool :=
  x.outcome.isOk && (x.call = .reset (some list) || x.call = .take (some list) || x.call = .clear)

/-- The events that a call has added to a list. -/
def adds (list : Nat) (x : LedgerAnswer) : List EventId :=
  match x.call with
  | .append named event => if named = list ∧ x.outcome.isOk then [event] else []
  | .waitList _ | .reset _ | .take _ | .clear => []

/-- What was appended to a list since it was last emptied. -/
def since (list : Nat) (history : List LedgerAnswer) : List EventId :=
  (history.rtakeWhile fun x => !x.empties list).flatMap (adds list)

theorem since_concat (list : Nat) (history : List LedgerAnswer) (x : LedgerAnswer) :
    since list (history ++ [x]) = if x.empties list then [] else since list history ++
      x.adds list := by
  cases hx : x.empties list <;> simp [since, hx]

end LedgerAnswer

namespace LedgerCall

/-- What bounded sequences, `count` of them, answer to a call. -/
def answer (count : Nat) (shown : Nat → List EventId) (c : LedgerCall) :
    Except Fault (List EventId) :=
  let reach (list : Nat) (events : Except Fault (List EventId)) : Except Fault (List EventId) :=
    if list < count then events else .error (.indexOutOfRange .eventList list count)
  match c with
  | .append list _ =>
    reach list (if (shown list).length = 32 then .error (.eventListFull list 32) else .ok [])
  | .waitList (some list) | .take (some list) => reach list (.ok (shown list))
  | .reset (some list) => reach list (.ok [])
  | .waitList none | .take none | .reset none | .clear => .ok []

/-- Whether a call may change a list. -/
def touches (list : Nat) : LedgerCall → Bool
  | .append named _ => named = list
  | .reset named | .take named => named = some list
  | .waitList _ => false
  | .clear => true

end LedgerCall

namespace EventLedger

/-- Make a call. Gives the events that were asked for. -/
def call : LedgerCall → Action EventLedger Fault (List EventId)
  | .append list event => do
    let l ← get
    let l ← Action.ofExcept (l.append list event)
    set l
    return []
  | .waitList list => do
    let l ← get
    Action.ofExcept (l.waitList list)
  | .reset list => do
    let l ← get
    let l ← Action.ofExcept (l.reset list)
    set l
    return []
  | .take list => do
    let l ← get
    let (events, l) ← Action.ofExcept (l.take list)
    set l
    return events
  | .clear => do
    modify clear
    return []

/-- Make calls one after the other. A call that is refused is not the last one. -/
def callAll : List LedgerCall → EventLedger → List LedgerAnswer × EventLedger
  | [], l => ([], l)
  | c :: others, l =>
    let (outcome, l) := (call c).run l
    let (history, l) := callAll others l
    (⟨c, outcome⟩ :: history, l)

theorem callAll_concat (calls : List LedgerCall) (c : LedgerCall) (l : EventLedger) :
    callAll (calls ++ [c]) l = ((callAll calls l).1 ++ [⟨c, ((call c).run (callAll calls l).2).1⟩],
      ((call c).run (callAll calls l).2).2) := by
  induction calls generalizing l with
  | nil => rfl
  | cons first calls ih => simp only [List.cons_append, callAll, ih]

variable {l l' : EventLedger} {c : LedgerCall} {outcome : Except Fault (List EventId)}

theorem get?_eq_held (l : EventLedger) (list : Nat) :
    l.get? list = if list < l.lists.length then some (l.held list) else none := by
  rw [held, get?]
  split_ifs with h
  · rw [List.getElem?_eq_getElem h, Option.getD_some]
  · exact List.getElem?_eq_none_iff.2 (by omega)

/-- What has come of a call: the answer is that of bounded sequences, a refusal changes nothing, and
each list shows what it has shown before and what was added, unless the call has emptied it. -/
structure Serves (l : EventLedger) (c : LedgerCall) (outcome : Except Fault (List EventId))
    (l' : EventLedger) :
    Prop where
  answer : outcome = c.answer l.lists.length l.held
  enabled : l'.enabled = true
  length : l'.lists.length = l.lists.length
  refused : outcome.isOk = false → l' = l
  held : ∀ list, l'.held list = if (⟨c, outcome⟩ : LedgerAnswer).empties list then []
    else l.held list ++ (⟨c, outcome⟩ : LedgerAnswer).adds list

theorem serves_same (henabled : l.enabled = true)
    (hanswer : outcome = c.answer l.lists.length l.held)
    (hempties : ∀ list, (⟨c, outcome⟩ : LedgerAnswer).empties list = false)
    (hadds : ∀ list, (⟨c, outcome⟩ : LedgerAnswer).adds list = []) : l.Serves c outcome l :=
  ⟨hanswer, henabled, rfl, fun _ => rfl, fun list => by simp [hempties, hadds]⟩

theorem serves_error (henabled : l.enabled = true) {fault : Fault}
    (hanswer : .error fault = c.answer l.lists.length l.held) : l.Serves c (.error fault) l := by
  refine serves_same henabled hanswer (fun _ => rfl) fun list => ?_
  cases c <;> simp [LedgerAnswer.adds, Except.isOk, Except.toBool]

theorem serves_set (henabled : l.enabled = true) {list : Nat} (hlist : list < l.slots.length)
    {events : List EventId} {shown : EventList}
    (hanswer : .ok events = c.answer l.lists.length l.held)
    (hshown : ∀ other, (if list = other then shown.toList else l.held other) =
      if (⟨c, .ok events⟩ : LedgerAnswer).empties other then []
      else l.held other ++ (⟨c, .ok events⟩ : LedgerAnswer).adds other) :
    l.Serves c (.ok events) { l with slots := l.slots.set list shown } := by
  refine ⟨hanswer, henabled, ?_, fun h => (by cases h), fun other => ?_⟩
  · rw [lists_set, List.length_set]
  · rw [← hshown, held_set hlist]

theorem serves_call (henabled : l.enabled = true) (c : LedgerCall) :
    l.Serves c ((call c).run l).1 ((call c).run l).2 := by
  obtain ⟨slots, enabled⟩ := l
  obtain rfl : enabled = true := henabled
  have hlength : (lists ⟨slots, true⟩).length = slots.length := length_lists _
  -- What a call that names a list does depends on that list alone.
  have hmissing : ∀ {list}, slots[list]? = none → ¬ list < slots.length := fun h =>
    Nat.not_lt.2 (List.getElem?_eq_none_iff.1 h)
  have hslot : ∀ {list events}, slots[list]? = some events → list < slots.length := fun h =>
    (List.getElem?_eq_some_iff.1 h).1
  cases c with
  | append list event =>
    simp only [call, run_bind, run_get, append, lookup]
    cases hlist : slots[list]? with
    | none => exact serves_error rfl (by simp [LedgerCall.answer, hlength, hmissing hlist])
    | some events =>
      have hheld := held_of_slot (l := ⟨slots, true⟩) hlist
      cases hpush : events.push event with
      | none =>
        have hfull := EventList.length_of_push hpush
        simp only [hpush, bind, Except.bind]
        refine serves_error rfl ?_
        simp [LedgerCall.answer, hlength, hslot hlist, hheld, hfull, capacity]
      | some events' =>
        have hroom : ¬ events.length = 32 := EventList.length_ne_of_push hpush
        simp only [hpush, bind, Except.bind]
        refine serves_set rfl (hslot hlist) ?_ fun other => ?_
        · simp [LedgerCall.answer, hlength, hslot hlist, hheld, hroom]
        · rw [EventList.toList_push hpush, ← hheld]
          by_cases hother : list = other <;>
            simp [LedgerAnswer.empties, LedgerAnswer.adds, hother, Except.isOk, Except.toBool]
  | clear =>
    show Serves _ _ (.ok []) (clear _)
    refine ⟨rfl, rfl, length_lists_clear _, fun h => (by cases h), fun list =>
      (held_clear _ list).trans ?_⟩
    simp [LedgerAnswer.empties, Except.isOk, Except.toBool]
  | waitList list =>
    cases list with
    | none => exact serves_same rfl rfl (fun _ => by simp [LedgerAnswer.empties]) fun _ => rfl
    | some list =>
      simp only [call, run_bind, run_get, waitList, lookup]
      cases hlist : slots[list]? with
      | none => exact serves_error rfl (by simp [LedgerCall.answer, hlength, hmissing hlist])
      | some events =>
        refine serves_same rfl ?_ (fun _ => ?_) fun _ => rfl
        · simp [LedgerCall.answer, hlength, hslot hlist, held_of_slot (l := ⟨slots, true⟩) hlist]
        · simp [LedgerAnswer.empties]
  | reset list =>
    cases list with
    | none => exact serves_same rfl rfl (fun _ => by simp [LedgerAnswer.empties]) fun _ => rfl
    | some list =>
      simp only [call, run_bind, run_get, reset, lookup]
      cases hlist : slots[list]? with
      | none => exact serves_error rfl (by simp [LedgerCall.answer, hlength, hmissing hlist])
      | some events =>
        refine serves_set rfl (hslot hlist) ?_ fun other => ?_
        · simp [LedgerCall.answer, hlength, hslot hlist]
        · simp [LedgerAnswer.empties, LedgerAnswer.adds, Except.isOk, Except.toBool]
  | take list =>
    cases list with
    | none => exact serves_same rfl rfl (fun _ => by simp [LedgerAnswer.empties]) fun _ => rfl
    | some list =>
      simp only [call, run_bind, run_get, take, waitList, reset, lookup]
      cases hlist : slots[list]? with
      | none => exact serves_error rfl (by simp [LedgerCall.answer, hlength, hmissing hlist])
      | some events =>
        refine serves_set rfl (hslot hlist) ?_ fun other => ?_
        · simp [LedgerCall.answer, hlength, hslot hlist, held_of_slot (l := ⟨slots, true⟩) hlist]
        · simp [LedgerAnswer.empties, LedgerAnswer.adds, Except.isOk, Except.toBool]

/-- A call changes no list but the one it names. -/
theorem Serves.get?_of_not_touches (h : l.Serves c outcome l') {list : Nat}
    (hlist : c.touches list = false) :
    l'.get? list = l.get? list := by
  have hsame : (⟨c, outcome⟩ : LedgerAnswer).empties list = false ∧
      (⟨c, outcome⟩ : LedgerAnswer).adds list = [] := by
    cases c <;> simp_all [LedgerCall.touches, LedgerAnswer.empties, LedgerAnswer.adds]
  rw [get?_eq_held, get?_eq_held, h.length, h.held, hsame.1, hsame.2]
  simp

/-- What a ledger shows after any calls, by induction on the calls from the last one. -/
theorem held_callAll (count : Nat) (calls : List LedgerCall) :
    let past := callAll calls (new count true)
    past.2.enabled = true ∧ past.2.lists.length = count ∧
      ∀ list, past.2.held list = LedgerAnswer.since list past.1 := by
  induction calls using List.reverseRecOn with
  | nil => exact ⟨rfl, by simp [callAll, lists, new], held_new count true⟩
  | append_singleton calls c ih =>
    intro past
    obtain ⟨henabled, hlength, hheld⟩ := ih
    have hserves := serves_call henabled c
    simp only [past, callAll_concat]
    refine ⟨hserves.enabled, hserves.length.trans hlength, fun list => ?_⟩
    rw [hserves.held, hheld, LedgerAnswer.since_concat]

theorem callAll_disabled (count : Nat) (calls : List LedgerCall) :
    callAll calls (new count false) = (calls.map fun c => ⟨c, .ok []⟩, new count false) := by
  have hcall : ∀ c, (call c).run (new count false) = (.ok [], new count false) := by
    intro c
    cases c with
    | append list event => rfl
    | clear =>
      have hclear : (new count false).clear = new count false := by
        rw [clear, new, List.map_replicate]
        rfl
      simp [call, run_bind, hclear]
    | _ list => cases list <;> rfl
  induction calls with
  | nil => rfl
  | cons c calls ih => simp only [callAll, hcall, ih, List.map_cons]

/-- A ledger that is switched on is a family of bounded sequences. After any calls every list shows
what was appended to it since it was last emptied, and the next call is answered from that alone: an
event is refused exactly if the list is not there or shows 32 events already, and the other calls
that name a list exactly if it is not there. A call that is refused changes nothing, and no call
changes a list that it does not name. A ledger that is switched off refuses nothing, shows nothing
and gives no events. -/
theorem family_of_sequences (count : Nat) (calls : List LedgerCall) (c : LedgerCall) :
    (let past := callAll calls (new count true)
     let next := (call c).run past.2
     next.1 = c.answer count (LedgerAnswer.since · past.1) ∧
        (∀ list, past.2.get? list = if list <
          count then some (LedgerAnswer.since list past.1) else none) ∧
        (next.1.isOk = false → next.2 = past.2) ∧
        ∀ list, c.touches list = false → next.2.get? list = past.2.get? list) ∧
    (let past := callAll calls (new count false)
     past.2 = new count false ∧ ∀ x ∈ past.1, x.outcome = .ok []) := by
  constructor
  · obtain ⟨henabled, hlength, hheld⟩ := held_callAll count calls
    have hserves := serves_call henabled c
    refine ⟨?_, fun list => ?_, hserves.refused, fun list hlist =>
      hserves.get?_of_not_touches hlist⟩
    · rw [hserves.answer, hlength, funext hheld]
    · rw [get?_eq_held, hlength, hheld]
  · rw [callAll_disabled]
    exact ⟨rfl, by simp⟩

/-- One event too many for a list that is full. -/
theorem family_of_sequences_full :
    let past := callAll ((List.range 32).map (.append 0)) (new 1 true)
    (call (.append 0 99)).run past.2 = (.error (.eventListFull 0 32), past.2) := by
  obtain ⟨hanswer, -, hsame, -⟩ :=
    (family_of_sequences 1 ((List.range 32).map (.append 0)) (.append 0 99)).1
  have hfull := hanswer.trans (show _ = .error (.eventListFull 0 32) by decide +kernel)
  exact Prod.ext hfull (hsame (by rw [hfull]; rfl))

end EventLedger

end Offload
