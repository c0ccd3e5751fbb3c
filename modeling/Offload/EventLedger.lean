import Offload.Event
import Offload.Fault
import Offload.Text.Quoted

/-!
# Event lists

A ledger holds numbered lists of events. Operations wait for the events of a list, and the list is
emptied when an operation has taken it over. A list has a fixed number of places and holds the
events in its first places; emptying it puts the places out of use and leaves in them what they
hold. A ledger that is switched off keeps no events and refuses nothing.
-/

namespace Offload

/-- The most events in one list. -/
def EventLedger.capacity : Nat := 32

/-- An event list. The first `length` places are in use, the others hold what was left in them. -/
structure EventList where
  ids : Vector EventId EventLedger.capacity := .replicate _ 0
  length : Nat := 0
  length_le : length ≤ EventLedger.capacity := by decide
  deriving DecidableEq, Repr

namespace EventList

/-- The events of a list, in the order in which they were added. -/
def toList (e : EventList) : List EventId := e.ids.toList.take e.length

def isFull (e : EventList) : Bool := e.length == EventLedger.capacity

theorem lt_capacity {e : EventList} (h : ¬e.isFull) : e.length < EventLedger.capacity :=
  Nat.lt_of_le_of_ne e.length_le (by simpa [isFull] using h)

/-- Add an event in the first place that is not in use. A full list takes none. -/
def push (e : EventList) (id : EventId) : Option EventList :=
  if h : e.isFull then none
  else some {
    ids := e.ids.set e.length id (lt_capacity h)
    length := e.length + 1
    length_le := lt_capacity h }

/-- Put all places out of use. -/
def clear (e : EventList) : EventList := { e with length := 0, length_le := Nat.zero_le _ }

@[simp] theorem length_toList (e : EventList) : e.toList.length = e.length := by
  simpa [toList] using Nat.min_eq_left e.length_le

@[simp] theorem toList_clear (e : EventList) : e.clear.toList = [] := List.take_zero

/-- An event is added behind the others, whatever its place has held before. -/
theorem toList_push {e e' : EventList} {id : EventId} (h : e.push id = some e') :
    e'.toList = e.toList ++ [id] := by
  unfold push at h
  split at h
  · cases h
  · rename_i hfull
    cases h
    have hlt : e.length < (e.ids.toList.set e.length id).length := by simpa using lt_capacity hfull
    rw [toList, Vector.toList_set, List.take_succ_eq_append_getElem hlt,
      List.take_set_of_le (Nat.le_refl _), List.getElem_set_self]
    rfl

theorem push_of_full {e : EventList} (h : e.isFull) (id : EventId) : e.push id = none := dif_pos h

theorem length_of_push {e : EventList} {id : EventId} (h : e.push id = none) :
    e.length = EventLedger.capacity := by
  unfold push at h
  split at h
  · rename_i hfull
    simpa [isFull] using hfull
  · cases h

theorem length_ne_of_push {e e' : EventList} {id : EventId} (h : e.push id = some e') :
    e.length ≠ EventLedger.capacity := by
  intro hlength
  rw [push_of_full (by simpa [isFull] using hlength)] at h
  cases h

end EventList

/-- The event lists of a program. -/
structure EventLedger where
  slots : List EventList
  enabled : Bool
  deriving DecidableEq, Repr

namespace EventLedger

/-- A ledger of empty lists. -/
def new (count : Nat) (enabled : Bool) : EventLedger := ⟨List.replicate count {}, enabled⟩

/-- What the lists show. -/
def lists (l : EventLedger) : List (List EventId) := l.slots.map EventList.toList

def get? (l : EventLedger) (list : Nat) : Option (List EventId) := l.lists[list]?

/-- Whether a list that shows these events takes no more. -/
def isFull (events : List EventId) : Bool := events.length == capacity

def describe (events : List EventId) : String :=
  Text.bracketed (events.map fun id => "EventId(" ++ toString id ++ ")")

def append (l : EventLedger) (list : Nat) (event : EventId) : Except Fault EventLedger :=
  if !l.enabled then .ok l
  else do
    let events ← lookup .eventList l.slots list
    match events.push event with
    | some events => return { l with slots := l.slots.set list events }
    | none => .error (.eventListFull list capacity)

/-- The events that an operation naming the list waits for. -/
def waitList (l : EventLedger) : Option Nat → Except Fault (List EventId)
  | some list =>
    if l.enabled then do
      let events ← lookup .eventList l.slots list
      return events.toList
    else .ok []
  | none => .ok []

def reset (l : EventLedger) : Option Nat → Except Fault EventLedger
  | some list =>
    if l.enabled then do
      let events ← lookup .eventList l.slots list
      return { l with slots := l.slots.set list events.clear }
    else .ok l
  | none => .ok l

/-- The events of a list, and the ledger with the list emptied. -/
def take (l : EventLedger) (list : Option Nat) : Except Fault (List EventId × EventLedger) := do
  let events ← l.waitList list
  let l ← l.reset list
  return (events, l)

def clear (l : EventLedger) : EventLedger := { l with slots := l.slots.map EventList.clear }

end EventLedger

end Offload
