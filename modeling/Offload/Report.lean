import Offload.CommandLine
import Offload.Device
import Offload.Manifest
import Offload.Text.Json
import Offload.Text.Lines

/-!
# Reports

What a command tells when it has done its work, as plain text and as a JSON document.
-/

namespace Offload

/-- The final words of an object and how they are to be read. -/
structure ObjectReport where
  label : String
  element : Element
  words : List UInt32
  deriving DecidableEq, Repr

/-- What a device has done. -/
structure DeviceReport where
  name : String
  counters : Counters
  deriving DecidableEq, Repr

/-- What was compiled. The time is in microseconds. -/
structure CompileReport where
  installed : Nat
  attempts : Nat
  failures : Nat
  time : Nat
  deriving DecidableEq, Repr

/-- A profiled launch. The time is in nanoseconds. -/
structure ProfileReport where
  task : Nat
  name : String
  device : Nat
  time : Nat
  deriving DecidableEq, Repr

/-- The report of a run. The mean and the total time are floating-point patterns, in seconds. -/
structure RunReport where
  options : RunOptions
  mean : UInt64
  total : UInt64
  timing : String
  objects : List ObjectReport
  compile : CompileReport
  devices : List DeviceReport
  profiles : List ProfileReport
  deriving DecidableEq, Repr

/-- The report of a check: the header and the number of instructions. -/
structure CheckReport where
  header : Header
  instructions : Nat
  deriving DecidableEq, Repr

/-- A report. -/
inductive Report where
  | run (r : RunReport)
  | listing (text : String)
  | check (r : CheckReport)
  deriving DecidableEq, Repr

namespace Report

open Numeral (BinaryFormat Layout)
open Text (Json)

/-- Numbers of 32 bits in JSON: an exponent from `10 ^ 13` on and below `10 ^ -6`. -/
def singleLayout : Layout where
  positional e := -6 ≤ e && e ≤ 12
  wholeFraction := true
  plusSign := true
  tie := .even
  nan := "null"
  infinity := "null"

/-- Numbers of 64 bits in JSON: an exponent from `10 ^ 16` on and below `10 ^ -5`. -/
def doubleLayout : Layout :=
  { singleLayout with positional := fun e => -5 ≤ e && e ≤ 15 }

/-- A number in JSON, which has no infinities. -/
def jsonNumber (l : Layout) (f : BinaryFormat) (bits : Nat) : Json :=
  match f.read bits with
  | .finite .. => .number (l.write f bits)
  | _ => .null

end Report

namespace ObjectReport

def wordText (o : ObjectReport) (w : UInt32) : String :=
  match o.element with
  | .i32 => toString w.toInt32.toInt
  | .f32 => Scalar.exactLayout.write .single w.toNat

def text (o : ObjectReport) : String :=
  o.label ++ " = " ++ Text.bracketed (o.words.map o.wordText)

def wordJson (o : ObjectReport) (w : UInt32) : Text.Json :=
  match o.element with
  | .i32 => .ofInt w.toInt32.toInt
  | .f32 => Report.jsonNumber Report.singleLayout .single w.toNat

def json (o : ObjectReport) : Text.Json :=
  .object [("label", .text o.label), ("values", .list (o.words.map o.wordJson))]

end ObjectReport

namespace DeviceReport

def text (d : DeviceReport) : String :=
  let c := d.counters
  d.name ++ ": " ++ toString c.allocations ++ " allocation(s), " ++ toString c.writes ++
    " write(s), " ++ toString c.reads ++ " read(s), " ++ toString c.launches ++ " launch(es), " ++
    toString c.markers ++ " marker(s)"

def json (d : DeviceReport) : Text.Json :=
  let c := d.counters
  .object [
    ("name", .text d.name),
    ("counters", .object [
      ("allocations", .ofNat c.allocations), ("writes", .ofNat c.writes), ("reads", .ofNat c.reads),
      ("launches", .ofNat c.launches), ("markers", .ofNat c.markers), ("flushes", .ofNat c.flushes),
      ("compilations", .ofNat c.compilations)])]

end DeviceReport

namespace CompileReport

def text (c : CompileReport) : String :=
  "compiled " ++ toString c.installed ++ " task(s) in " ++ toString c.time ++ " us (" ++
    toString c.failures ++ " failure(s))"

def json (c : CompileReport) : Text.Json :=
  .object [
    ("installed", .ofNat c.installed), ("attempts", .ofNat c.attempts),
    ("failures", .ofNat c.failures), ("compile_time_us", .ofNat c.time)]

end CompileReport

namespace ProfileReport

def text (p : ProfileReport) : String :=
  "task " ++ toString p.task ++ " (" ++ p.name ++ ") on device " ++ toString p.device ++ ": " ++
    toString p.time ++ " ns"

def json (p : ProfileReport) : Text.Json :=
  .object [
    ("task", .ofNat p.task), ("task_name", .text p.name), ("device", .ofNat p.device),
    ("execution_ns", .ofNat p.time)]

end ProfileReport

namespace RunReport

def lines (r : RunReport) : List String :=
  r.objects.map ObjectReport.text ++ [r.timing, r.compile.text] ++
    r.devices.map DeviceReport.text ++ r.profiles.map ProfileReport.text

def text (r : RunReport) : String := String.join (r.lines.map (· ++ "\n"))

def json (r : RunReport) : Text.Json :=
  let seconds (bits : UInt64) : Text.Json :=
    Report.jsonNumber Report.doubleLayout .double bits.toNat
  .object [
    ("iterations", .ofNat r.options.iterations), ("warmup", .bool r.options.warmup),
    ("batched", .bool r.options.batched), ("mean_s", seconds r.mean), ("total_s", seconds r.total),
    ("timing", .text r.timing), ("objects", .list (r.objects.map ObjectReport.json)),
    ("compile", r.compile.json), ("devices", .list (r.devices.map DeviceReport.json)),
    ("profiles", .list (r.profiles.map ProfileReport.json))]

end RunReport

namespace CheckReport

def text (r : CheckReport) : String :=
  let h := r.header
  "ok: " ++ toString h.devices ++ " device(s), " ++ toString h.tasks ++ " task(s), " ++
    toString h.eventLists ++ " event list(s), contexts " ++
    Text.bracketed (h.contexts.map toString) ++ ", " ++ toString r.instructions ++ " instruction(s)"

def json (r : CheckReport) : Text.Json :=
  let h := r.header
  .object [
    ("devices", .ofNat h.devices), ("tasks", .ofNat h.tasks), ("event_lists", .ofNat h.eventLists),
    ("contexts", .list (h.contexts.map Text.Json.ofNat)),
    ("instructions", .ofNat r.instructions)]

end CheckReport

namespace Report

def text : Report → String
  | .run r => r.text
  | .listing text => text
  | .check r => r.text

def json : Report → Text.Json
  | .run r => r.json
  | .listing text => .object [("listing", .text text)]
  | .check r => r.json

def render (r : Report) : OutputFormat → String
  | .human => r.text
  | .json => r.json.render

/-- What is printed: the report without the blanks at its end. -/
def printed (r : Report) (format : OutputFormat) : String :=
  String.ofList ((r.render format).toList.reverse.dropWhile Text.isBlank).reverse

end Report

end Offload
