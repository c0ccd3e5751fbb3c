import Offload.EventLedger
import Offload.Proofs.Contracts

/-!
# The kinds of faults

An instruction that was read, and the end of a pass, give no fault that says that the bytes are not
a program. Here are the faults that they may give, and the lookups and lists that give them.
-/

namespace Offload

variable {list : Option Nat} {what : Resource} {event : EventId}

namespace Fault

/-- Whether a fault says that the bytes are not a program. -/
def isDecoding : Fault → Bool
  | .decode .. | .missingMarker .. | .unknownOpcode .. | .missingEnd .. => true
  | .unexpectedOpcode .. | .headerMismatch .. | .indexOutOfRange .. | .windowOutOfRange ..
  | .eventListFull .. | .multiDeviceBarrier .. | .frameOverflow .. | .objectNotValid ..
  | .objectNotAllocated .. | .compilation .. | .codeNotInstalled .. | .device .. => false

/-- Whether a fault may come from carrying out an instruction. -/
def isWorking : Fault → Bool
  | .indexOutOfRange .. | .windowOutOfRange .. | .eventListFull .. | .multiDeviceBarrier ..
  | .frameOverflow .. | .objectNotValid .. | .objectNotAllocated .. | .compilation ..
  | .device .. => true
  | .decode .. | .missingMarker .. | .unknownOpcode .. | .missingEnd .. | .unexpectedOpcode ..
  | .headerMismatch .. | .codeNotInstalled .. => false

/-- Whether a fault may come from any instruction. That a frame is full, or that there is no buffer,
is not among these. -/
def isRoutine : Fault → Bool
  | .indexOutOfRange .. | .windowOutOfRange .. | .eventListFull .. | .multiDeviceBarrier ..
  | .objectNotValid .. | .compilation .. | .device .. => true
  | .decode .. | .missingMarker .. | .unknownOpcode .. | .missingEnd .. | .unexpectedOpcode ..
  | .headerMismatch ..
  | .frameOverflow .. | .objectNotAllocated .. | .codeNotInstalled .. => false

theorem isWorking_of_isRoutine {fault : Fault} (h : fault.isRoutine) : fault.isWorking := by
  cases fault <;> first | rfl | cases h

theorem isDecoding_of_isWorking {fault : Fault} (h : fault.isWorking) :
    fault.isDecoding = false := by
  cases fault <;> first | rfl | cases h

end Fault

variable {e : Fault}

theorem lookup_eq_ok {α : Type} {items : List α} {index : Nat} {item : α} :
    lookup what items index = .ok item ↔ items[index]? = some item := by
  unfold lookup
  cases items[index]? with
  | none => simp
  | some found => simp

theorem isRoutine_of_lookup {α : Type} {items : List α} {index : Nat}
    (h : lookup what items index = .error e) : e.isRoutine := by
  unfold lookup at h
  split at h
  · cases h
  · cases h
    rfl

theorem isRoutine_of_lookup_bind {α β : Type} {items : List α} {index : Nat} {e : Fault}
    {f : α → Except Fault β} (h : (lookup what items index >>= f) = .error e)
    (hf : ∀ a, f a = .error e → e.isRoutine) : e.isRoutine := by
  cases hl : lookup what items index with
  | error fault =>
    rw [hl] at h
    cases h
    exact isRoutine_of_lookup hl
  | ok a =>
    rw [hl] at h
    exact hf a h

namespace EventLedger

variable {l : EventLedger} {e : Fault}

theorem isRoutine_of_append {list : Nat} (h : l.append list event = .error e) : e.isRoutine := by
  unfold append at h
  split at h
  · cases h
  · refine isRoutine_of_lookup_bind h fun events h => ?_
    split at h
    · cases h
    · cases h
      rfl

theorem isRoutine_of_waitList (h : l.waitList list = .error e) : e.isRoutine := by
  cases list with
  | none => cases h
  | some list =>
    simp only [waitList] at h
    split at h
    · exact isRoutine_of_lookup_bind h fun _ h => by cases h
    · cases h

theorem isRoutine_of_reset (h : l.reset list = .error e) : e.isRoutine := by
  cases list with
  | none => cases h
  | some list =>
    simp only [reset] at h
    split at h
    · exact isRoutine_of_lookup_bind h fun _ h => by cases h
    · cases h

theorem lists_set (l : EventLedger) (list : Nat) (events : EventList) :
    lists { l with slots := l.slots.set list events } = l.lists.set list events.toList :=
  List.map_set

variable {l' : EventLedger}

theorem append_cases {list : Nat} (h : l.append list event = .ok l') :
    l.enabled = false ∧ l' = l ∨
      ∃ events events', l.enabled = true ∧ l.slots[list]? = some events ∧
        events.push event = some events' ∧ l' = { l with slots := l.slots.set list events' } := by
  unfold append at h
  split at h
  · rename_i henabled
    exact .inl ⟨by simpa using henabled, (Except.ok.inj h).symm⟩
  · rename_i henabled
    cases hlist : lookup .eventList l.slots list with
    | error fault =>
      rw [hlist] at h
      cases h
    | ok events =>
      rw [hlist] at h
      cases hpush : events.push event with
      | none => simp [hpush, bind, Except.bind] at h
      | some events' =>
        simp only [hpush, bind, Except.bind] at h
        exact .inr ⟨events, events', by simpa using henabled, lookup_eq_ok.1 hlist, hpush,
          (Except.ok.inj h).symm⟩

theorem reset_cases (h : l.reset list = .ok l') :
    (list = none ∨ l.enabled = false) ∧ l' = l ∨
      ∃ named events, list = some named ∧ l.enabled = true ∧ l.slots[named]? = some events ∧
        l' = { l with slots := l.slots.set named events.clear } := by
  cases list with
  | none => exact .inl ⟨.inl rfl, (Except.ok.inj h).symm⟩
  | some named =>
    rw [reset] at h
    split_ifs at h with henabled
    · cases hlist : lookup .eventList l.slots named with
      | error fault =>
        rw [hlist] at h
        cases h
      | ok events =>
        rw [hlist] at h
        exact .inr ⟨named, events, rfl, henabled, lookup_eq_ok.1 hlist, (Except.ok.inj h).symm⟩
    · exact .inl ⟨.inr (Bool.eq_false_iff.2 henabled), (Except.ok.inj h).symm⟩

theorem length_lists (l : EventLedger) : l.lists.length = l.slots.length := List.length_map _

theorem length_lists_of_append {list : Nat} (h : l.append list event = .ok l') :
    l'.lists.length = l.lists.length := by
  rcases append_cases h with ⟨-, rfl⟩ | ⟨_, _, -, -, -, rfl⟩
  · rfl
  · rw [lists_set, List.length_set]

theorem length_lists_of_reset (h : l.reset list = .ok l') : l'.lists.length = l.lists.length := by
  rcases reset_cases h with ⟨-, rfl⟩ | ⟨_, _, -, -, -, rfl⟩
  · rfl
  · rw [lists_set, List.length_set]

theorem length_lists_clear (l : EventLedger) : l.clear.lists.length = l.lists.length := by
  simp [lists, clear]

theorem lists_clear (l : EventLedger) : ∀ list ∈ l.clear.lists, list = [] := by
  simp [lists, clear]

end EventLedger

theorem FramePool.isRoutine_of_resolve {p : FramePool} {id count : Nat}
    {recreate : Bool} {e : Fault} (h : p.resolve id count recreate = .error e) : e.isRoutine := by
  refine isRoutine_of_lookup_bind h fun slot h => ?_
  split at h
  · split at h
    · cases h
    · cases h
  · cases h

namespace FramePool

variable {p q : FramePool} {id count : Nat} {recreate : Bool} {f : CallFrame}

/-- A launch gets a new frame, or one that was made before and is large enough. -/
theorem resolve_cases (h : p.resolve id count recreate = .ok (f, q)) :
    f = { capacity := count } ∧ q = p.put id { capacity := count } ∨
      p.slots[id]? = some (some f) ∧ q = p ∧ recreate = false ∧ count ≤ f.capacity := by
  unfold resolve at h
  cases hslot : lookup .frame p.slots id with
  | error fault =>
    rw [hslot] at h
    cases h
  | ok slot =>
    rw [hslot] at h
    cases slot with
    | none =>
      cases h
      exact .inl ⟨rfl, rfl⟩
    | some g =>
      change (if recreate || g.capacity < count then _ else _) = _ at h
      split at h
      · cases h
        exact .inl ⟨rfl, rfl⟩
      · rename_i hkept
        cases h
        simp only [Bool.or_eq_true, decide_eq_true_eq, not_or] at hkept
        exact .inr ⟨lookup_eq_ok.1 hslot, rfl, Bool.eq_false_iff.2 hkept.1,
          Nat.le_of_not_lt hkept.2⟩

theorem le_capacity_of_resolve (h : p.resolve id count recreate = .ok (f, q)) :
    count ≤ f.capacity := by
  obtain ⟨rfl, -⟩ | ⟨-, -, -, hroom⟩ := resolve_cases h
  · exact Nat.le_refl count
  · exact hroom

theorem length_slots_resolve (h : p.resolve id count recreate = .ok (f, q)) :
    q.slots.length = p.slots.length := by
  obtain ⟨-, rfl⟩ | ⟨-, rfl, -⟩ := resolve_cases h
  · exact List.length_set
  · rfl

/-- All frames that were made have a property. -/
def All (F : CallFrame → Prop) (p : FramePool) : Prop := ∀ f, some f ∈ p.slots → F f

variable {F : CallFrame → Prop}

theorem all_new (F : CallFrame → Prop) (count : Nat) : (new count).All F := by
  intro f hf
  cases List.eq_of_mem_replicate hf

theorem All.put (hp : p.All F) (hf : F f) (id : Nat) : (p.put id f).All F := by
  intro g hg
  rcases List.mem_or_eq_of_mem_set hg with hold | hnew
  · exact hp g hold
  · cases hnew
    exact hf

theorem All.resolve (hp : p.All F) (hfresh : F { capacity := count })
    (h : p.resolve id count recreate = .ok (f, q)) : F f ∧ q.All F := by
  obtain ⟨rfl, rfl⟩ | ⟨hslot, rfl, -⟩ := resolve_cases h
  · exact ⟨hfresh, hp.put hfresh id⟩
  · exact ⟨hp f (List.mem_of_getElem? hslot), hp⟩

/-- Whether there is a frame of a number depends on the size of the pool. -/
theorem exists_resolve_iff : (∃ r, p.resolve id count recreate = .ok r) ↔ id < p.slots.length := by
  unfold resolve lookup
  by_cases hid : id < p.slots.length
  · rw [List.getElem?_eq_getElem hid]
    refine iff_of_true ?_ hid
    cases p.slots[id] with
    | none => exact ⟨_, rfl⟩
    | some f =>
      change ∃ r, (if recreate || f.capacity < count then _ else _) = Except.ok r
      split
      · exact ⟨_, rfl⟩
      · exact ⟨_, rfl⟩
  · rw [List.getElem?_eq_none (Nat.not_lt.1 hid)]
    refine iff_of_false ?_ hid
    rintro ⟨r, hr⟩
    cases hr

end FramePool

end Offload
