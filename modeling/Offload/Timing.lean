import Offload.Event
import Offload.Numeral.Layout

/-!
# Times

How long passes took, and what is kept of a profiled launch. Times are whole nanoseconds; as text
they are seconds with nine places.
-/

namespace Offload

/-- The total time of passes and their number. -/
structure Timing where
  total : Nat := 0
  invocations : Nat := 0
  deriving DecidableEq, Repr

/-- The nanoseconds of a second. -/
def nanosecondsPerSecond : Nat := 1000000000

/-- Seconds as a floating-point pattern of 64 bits: the sum of the whole seconds and the rest. -/
def secondsBits (nanoseconds : Nat) : Nat :=
  let f := Numeral.BinaryFormat.double
  let whole := f.ofRatio false (nanoseconds / nanosecondsPerSecond) 1
  let rest := f.ofRatio false (nanoseconds % nanosecondsPerSecond) nanosecondsPerSecond
  f.sum whole rest

/-- Seconds as text, the floating-point number rounded to nine places. -/
def secondsText (nanoseconds : Nat) : String :=
  let (num, den) := Numeral.BinaryFormat.double.fraction (secondsBits nanoseconds)
  Numeral.fixedPlaces 9 num den

namespace Timing

def record (t : Timing) (nanoseconds : Nat) : Timing :=
  ⟨t.total + nanoseconds, t.invocations + 1⟩

/-- The mean time of a pass, zero before the first one. -/
def mean (t : Timing) : Nat := t.total / t.invocations

def text (t : Timing) : String :=
  "vm: complete " ++ toString t.invocations ++ " iterations - " ++ secondsText t.mean ++
    " s mean and " ++ secondsText t.total ++ " s total"

end Timing

/-- A completed launch of a profiled task. -/
structure LaunchProfile where
  task : Nat
  name : String
  device : Nat
  event : EventId
  span : Span
  deriving DecidableEq, Repr

def LaunchProfile.text (p : LaunchProfile) : String :=
  "task: " ++ toString p.task ++ " (" ++ p.name ++ ") device: " ++ toString p.device ++
    " event: #" ++ toString p.event ++ " execution: " ++ secondsText p.span.duration ++
    " s submit: " ++ toString p.span.submit ++ " start: " ++ toString p.span.start ++
    " end: " ++ toString p.span.stop

end Offload
