/-!
# Events

Every operation of a device has an event. Its identity is its number on that device.
-/

namespace Offload

abbrev EventId := Nat

/-- What an event belongs to. -/
inductive EventKind where
  | allocate
  | write
  | read
  | launch
  | marker
  deriving DecidableEq, Repr

namespace EventKind

def all : List EventKind := [.allocate, .write, .read, .launch, .marker]

def name : EventKind → String
  | .allocate => "allocate"
  | .write => "write"
  | .read => "read"
  | .launch => "launch"
  | .marker => "marker"

def ofName? (name : String) : Option EventKind := all.find? fun k => k.name == name

def operation : EventKind → String
  | .allocate => "Allocate"
  | .write => "WriteBuffer"
  | .read => "ReadBuffer"
  | .launch => "Launch"
  | .marker => "Marker"

end EventKind

/-- How far an operation has come. -/
inductive EventStatus where
  | queued
  | running
  | complete
  | failed
  | unknown
  deriving DecidableEq, Repr

namespace EventStatus

def all : List EventStatus := [.queued, .running, .complete, .failed, .unknown]

def name : EventStatus → String
  | .queued => "Queued"
  | .running => "Running"
  | .complete => "Complete"
  | .failed => "Failed"
  | .unknown => "Unknown"

def ofName? (name : String) : Option EventStatus := all.find? fun s => s.name == name

end EventStatus

/-- When an operation was submitted, started and ended, in nanoseconds of the device's clock. A
device without a clock gives zeros. -/
structure Span where
  submit : Nat := 0
  start : Nat := 0
  stop : Nat := 0
  deriving DecidableEq, Repr

def Span.duration (s : Span) : Nat := s.stop - s.start

/-- What is known of an event. -/
structure Event where
  id : Option EventId
  kind : EventKind
  status : EventStatus
  span : Span := {}
  deriving DecidableEq, Repr

namespace Event

/-- The event of a pass that waited for nothing. -/
def empty : Event := { id := none, kind := .marker, status := .complete }

def isComplete (e : Event) : Bool := e.status == .complete

end Event

end Offload
