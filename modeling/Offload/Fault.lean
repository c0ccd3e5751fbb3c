import Offload.Numeral.Integer
import Offload.Window

/-!
# Faults

Everything that can go wrong, by its cause, with one function for the wording. A device fault comes
from a device alone; a fault of a machine may wrap one. What a fault is about is given by its kind,
or by its name where the machine itself has no such kind.
-/

namespace Offload

/-- What is wrong with an argument of a kernel. -/
inductive ArgumentProblem where
  | missing
  | notConstant
  | notBuffer
  | tooFew (expected given : Nat)
  | stated (text : String)
  deriving DecidableEq, Repr

def ArgumentProblem.message : ArgumentProblem → String
  | .missing => "missing"
  | .notConstant => "expected a constant"
  | .notBuffer => "expected a buffer"
  | .tooFew expected given =>
    "expected " ++ toString expected ++ " arguments, got " ++ toString given
  | .stated text => text

/-- Faults that a device reports. -/
inductive DeviceFault where
  | unknownBuffer (buffer : Nat)
  | unknownEvent (event : Nat)
  | outOfBounds (window : Window) (length : Nat)
  | outOfMemory (bytes : Nat)
  | unknownKernel (name : String)
  | badArgument (kernel : String) (index : Nat) (problem : ArgumentProblem)
  | kernelFailed (kernel : String) (reason : String)
  deriving DecidableEq, Repr

def DeviceFault.message : DeviceFault → String
  | .unknownBuffer buffer => "unknown buffer " ++ Numeral.hex buffer
  | .unknownEvent event => "unknown event #" ++ toString event
  | .outOfBounds window length =>
    "byte window " ++ window.text ++ " exceeds " ++ toString length ++ " bytes"
  | .outOfMemory bytes => "cannot allocate " ++ toString bytes ++ " bytes"
  | .unknownKernel name => "no kernel registered for task `" ++ name ++ "`"
  | .badArgument kernel index problem =>
    "kernel `" ++ kernel ++ "` argument " ++ toString index ++ ": " ++ problem.message
  | .kernelFailed kernel reason => "kernel `" ++ kernel ++ "` failed: " ++ reason

/-- Refuse a window that does not lie inside the first `length` bytes. -/
def Window.check (w : Window) (length : Nat) : Except DeviceFault Unit :=
  if w.fits length then .ok () else .error (.outOfBounds w length)

/-- What is wrong with the bytes of a program. -/
inductive DecodeProblem where
  | endOfData
  | negativeIndex (what : String) (value : Int)
  | invalidEventList (value : Int)
  | negativeWindow (offset size : Int)
  | argumentCount (count : Nat)
  | argumentKind
  | stated (text : String)
  deriving DecidableEq, Repr

def DecodeProblem.message : DecodeProblem → String
  | .endOfData => "unexpected end of data"
  | .negativeIndex what value => "negative " ++ what ++ " index " ++ toString value
  | .invalidEventList value => "invalid event list " ++ toString value
  | .negativeWindow offset size =>
    "negative batch window " ++ toString offset ++ "+" ++ toString size
  | .argumentCount count => "argument count " ++ toString count ++ " exceeds stream length"
  | .argumentKind => "invalid launch argument kind"
  | .stated text => text

/-- The items that have to stand at a place in a header. -/
inductive Marker where
  | setup
  | contextOrBegin
  | other (name : String)
  deriving DecidableEq, Repr

def Marker.name : Marker → String
  | .setup => "SETUP"
  | .contextOrBegin => "CONTEXT or BEGIN"
  | .other name => name

/-- The counts of a header that a context has to match. -/
inductive HeaderCount where
  | devices
  | tasks
  | other (name : String)
  deriving DecidableEq, Repr

def HeaderCount.name : HeaderCount → String
  | .devices => "devices"
  | .tasks => "tasks"
  | .other name => name

/-- The things that a program addresses by index. -/
inductive Resource where
  | device
  | object
  | constant
  | task
  | frame
  | eventList
  | other (name : String)
  deriving DecidableEq, Repr

def Resource.name : Resource → String
  | .device => "device"
  | .object => "object"
  | .constant => "constant"
  | .task => "task"
  | .frame => "frame"
  | .eventList => "event list"
  | .other name => name

/-- Faults of a machine. -/
inductive Fault where
  | decode (offset : Nat) (problem : DecodeProblem)
  | missingMarker (expected : Marker) (found : UInt8) (offset : Nat)
  | unknownOpcode (byte : UInt8) (offset : Nat)
  | unexpectedOpcode (mnemonic pass : String) (offset : Nat)
  | missingEnd (offset : Nat)
  | headerMismatch (what : HeaderCount) (declared actual : Nat)
  | indexOutOfRange (what : Resource) (index available : Nat)
  | windowOutOfRange (object : Nat) (window : Window) (length : Nat)
  | eventListFull (list capacity : Nat)
  | multiDeviceBarrier (devices : Nat)
  | frameOverflow (frame capacity : Nat)
  | objectNotValid (object : Nat) (label : String) (device : Nat) (state : String)
  | objectNotAllocated (object : Nat) (label : String) (device : Nat)
  | compilation (task : String) (source : DeviceFault)
  | codeNotInstalled (task : String)
  | device (source : DeviceFault)
  deriving DecidableEq, Repr

/-- What a fault is about: the program, the state of its data, a task's code, or a device. -/
inductive FaultCategory where
  | protocol
  | consistency
  | compilation
  | device
  deriving DecidableEq, Repr

def FaultCategory.name : FaultCategory → String
  | .protocol => "protocol"
  | .consistency => "consistency"
  | .compilation => "compilation"
  | .device => "device"

namespace Fault

def category : Fault → FaultCategory
  | .objectNotValid .. | .objectNotAllocated .. => .consistency
  | .compilation .. | .codeNotInstalled .. => .compilation
  | .device .. => .device
  | _ => .protocol

/-- Every fault but a failed compilation is fatal. -/
def isFatal (f : Fault) : Bool := f.category != .compilation

def message : Fault → String
  | .decode offset problem =>
    "bytecode decode error at offset " ++ Numeral.hex offset ++ ": " ++ problem.message
  | .missingMarker expected found offset =>
    "expected " ++ expected.name ++ " at offset " ++ Numeral.hex offset ++ ", found opcode " ++
      Numeral.hexWide 2 found.toNat
  | .unknownOpcode byte offset =>
    "unrecognized opcode " ++ Numeral.hexWide 2 byte.toNat ++ " at offset " ++ Numeral.hex offset
  | .unexpectedOpcode mnemonic pass offset =>
    "opcode " ++ mnemonic ++ " at offset " ++ Numeral.hex offset ++
      " is not valid in a " ++ pass ++ " pass"
  | .missingEnd offset =>
    "instruction stream ended at offset " ++ Numeral.hex offset ++ " without an END marker"
  | .headerMismatch what declared actual =>
    "program header declares " ++ toString declared ++ " " ++ what.name ++
      ", execution context has " ++ toString actual
  | .indexOutOfRange what index available =>
    what.name ++ " index " ++ toString index ++ " out of range (" ++ toString available ++
      " available)"
  | .windowOutOfRange object window length =>
    "window " ++ window.text ++ " of object " ++ toString object ++ " exceeds its " ++
      toString length ++ " bytes"
  | .eventListFull list capacity =>
    "event list " ++ toString list ++ " is full (" ++ toString capacity ++ " events)"
  | .multiDeviceBarrier devices =>
    "barrier across " ++ toString devices ++ " devices is not implemented"
  | .frameOverflow frame capacity =>
    "call frame " ++ toString frame ++ " holds " ++ toString capacity ++
      " arguments, cannot push more"
  | .objectNotValid object label index state =>
    "object " ++ toString object ++ " (" ++ label ++ ") is not valid on device " ++
      toString index ++ ": " ++ state
  | .objectNotAllocated object label index =>
    "object " ++ toString object ++ " (" ++ label ++ ") is not allocated on device " ++
      toString index
  | .compilation task source => "unable to compile task " ++ task ++ ": " ++ source.message
  | .codeNotInstalled task => "task " ++ task ++ " has no installed code"
  | .device source => "device error: " ++ source.message

end Fault

/-- The item at an index, or the fault that names what is missing. -/
def lookup {α : Type} (what : Resource) (items : List α) (index : Nat) : Except Fault α :=
  match items[index]? with
  | some item => .ok item
  | none => .error (.indexOutOfRange what index items.length)

end Offload
