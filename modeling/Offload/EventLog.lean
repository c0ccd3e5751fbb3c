import Offload.Event

/-!
# Event logs

What a device keeps about its events. An event is numbered by its place in the order of submission.
The log is kept with the latest record first, so that the records in use are near at hand; `records`
is its view in the order of submission, and every operation is given by what it does to that view.
Of the times at which commands were run, the log keeps the order.
-/

namespace Offload

/-- What a device keeps about an event. -/
structure EventRecord where
  kind : EventKind
  status : EventStatus
  label : String
  waitList : List EventId
  deriving DecidableEq, Repr

/-- The records of a device. -/
structure EventLog where
  latest : List EventRecord := []
  /-- The number of events, which is the number that the next one gets. -/
  size : Nat := 0
  /-- The events whose commands were run, the latest one first. -/
  ran : List EventId := []
  size_eq : size = latest.length := by rfl
  deriving DecidableEq, Repr

namespace EventLog

def records (l : EventLog) : List EventRecord := l.latest.reverse

def add (l : EventLog) (r : EventRecord) : EventLog where
  latest := r :: l.latest
  size := l.size + 1
  ran := l.ran
  size_eq := by simp [l.size_eq]

def get? (l : EventLog) (id : EventId) : Option EventRecord :=
  if id < l.size then l.latest[l.size - 1 - id]? else none

/-- Note that the command of an event was run, and how it has ended. -/
def setStatus (l : EventLog) (id : EventId) (status : EventStatus) : EventLog :=
  if id < l.size then
    { latest := l.latest.modify (l.size - 1 - id) fun r => { r with status }
      size := l.size
      ran := id :: l.ran
      size_eq := by simp [l.size_eq] }
  else l

@[simp] theorem length_records (l : EventLog) : l.records.length = l.size := by
  simp [records, l.size_eq]

@[simp] theorem records_add (l : EventLog) (r : EventRecord) :
    (l.add r).records = l.records ++ [r] := by
  simp [records, add]

theorem get?_eq (l : EventLog) (id : Nat) : l.get? id = l.records[id]? := by
  unfold get? records
  rw [l.size_eq]
  split
  · rename_i h
    rw [List.getElem?_reverse h]
  · rename_i h
    rw [List.getElem?_eq_none]
    simpa using h

@[simp] theorem records_setStatus (l : EventLog) (id : Nat) (status : EventStatus) :
    (l.setStatus id status).records = l.records.modify id fun r => { r with status } := by
  obtain ⟨latest, _, ran, rfl⟩ := l
  apply List.ext_getElem?
  intro i
  unfold setStatus records
  rw [List.getElem?_modify]
  by_cases hid : id < latest.length
  · rw [if_pos hid]
    by_cases hi : i < latest.length
    · rw [List.getElem?_reverse (by simpa using hi), List.getElem?_reverse hi, List.length_modify,
        List.getElem?_modify]
      by_cases hii : id = i
      · subst hii
        simp
      · have h : latest.length - 1 - id ≠ latest.length - 1 - i := by omega
        simp [hii, h]
    · rw [List.getElem?_eq_none (by simpa using hi), List.getElem?_eq_none (by simpa using hi)]
      simp
  · rw [if_neg hid]
    by_cases hii : id = i
    · subst hii
      rw [List.getElem?_eq_none (by simpa using hid)]
      simp
    · simp [hii]

end EventLog

end Offload
