import Offload.Config
import Offload.Context
import Offload.Program.Assembly
import Offload.Toml.Document

/-!
# Manifests

A manifest is a TOML document that describes a context and the program to run over it. Keys that
mean nothing are passed over. A record may be written as a table, or as an array of its fields in
order; a choice by its name, or as a table with that name as its only key.
-/

namespace Offload

/-- What an object's words are read as. -/
inductive Element where
  | i32
  | f32
  deriving DecidableEq, Repr

def Element.name : Element → String
  | .i32 => "i32"
  | .f32 => "f32"

/-- A device of a manifest. -/
structure DeviceSpec where
  name : String
  options : DeviceOptions := {}
  deriving DecidableEq, Repr

/-- An object of a manifest: values, by their floating-point patterns, or a number of zeros. -/
structure ObjectSpec where
  label : String
  element : Element := .i32
  values : List UInt64 := []
  length : Option Nat := none
  deriving DecidableEq, Repr

/-- A task of a manifest. -/
structure TaskSpec where
  name : String
  access : List String := []
  profiling : Bool := false
  deriving DecidableEq, Repr

/-- A manifest. -/
structure Manifest where
  program : String
  config : Config := {}
  devices : List DeviceSpec
  objects : List ObjectSpec := []
  constants : List Scalar := []
  tasks : List TaskSpec := []
  deriving DecidableEq, Repr

namespace Manifest

open Toml (Value)
open Numeral (BinaryFormat)

/-- The fields of a record, by name or by place. -/
inductive Fields where
  | named (entries : List (String × Value))
  | placed (items : List Value)

namespace Fields

/-- The fields of a value that can be a record. A date or a time is a record with none of its
own. -/
def ofValue? : Value → Option Fields
  | .table entries => some (.named entries)
  | .array items => some (.placed items)
  | .moment => some (.named [])
  | _ => none

/-- The value of the field with a place and a name. -/
def get? (fs : Fields) (place : Nat) (name : String) : Option Value :=
  match fs with
  | .named entries => Toml.find? entries name
  | .placed items => items[place]?

def required {α : Type} (fs : Fields) (place : Nat) (name : String) (read : Value → Option α) :
    Option α := do
  let v ← fs.get? place name
  read v

def optional {α : Type} (fs : Fields) (place : Nat) (name : String) (default : α)
    (read : Value → Option α) : Option α :=
  match fs.get? place name with
  | some v => read v
  | none => some default

end Fields

def text? : Value → Option String
  | .text s => some s
  | _ => none

def boolean? : Value → Option Bool
  | .boolean b => some b
  | _ => none

def natural? : Value → Option Nat
  | .integer n => if 0 ≤ n then some n.toNat else none
  | _ => none

/-- A floating-point number of 64 bits. An integer stands for the nearest one. -/
def double? : Value → Option UInt64
  | .float bits => some bits
  | .integer n => some (UInt64.ofNat (BinaryFormat.double.ofInt n))
  | _ => none

/-- A floating-point number of 32 bits, rounded from what is written. -/
def single? : Value → Option UInt32
  | .float bits => some (UInt32.ofNat (BinaryFormat.convert .double .single bits.toNat))
  | .integer n => some (UInt32.ofNat (BinaryFormat.single.ofInt n))
  | _ => none

def list? {α : Type} (read : Value → Option α) : Value → Option (List α)
  | .array items => items.mapM read
  | _ => none

/-- A choice without content: its name, or a table of the name and nothing. -/
def choice? {α : Type} (names : List (String × α)) : Value → Option α
  | .text name => names.lookup name
  | .table [(name, .table [])] => names.lookup name
  | .table [(name, .array [])] => names.lookup name
  | _ => none

def scalar? : Value → Option Scalar
  | .table [("i32", .integer n)] =>
    if Numeral.fits 32 n then some (.i32 (Int32.ofInt n)) else none
  | .table [("i64", .integer n)] => some (.i64 (Int64.ofInt n))
  | .table [("f32", v)] => (single? v).map .f32
  | .table [("f64", v)] => (double? v).map .f64
  | _ => none

def config? (v : Value) : Option Config := do
  let fs ← Fields.ofValue? v
  let c : Config := {}
  let useDependencies ← fs.optional 0 "use_dependencies" c.useDependencies boolean?
  let flushOnCompletion ← fs.optional 1 "flush_on_completion" c.flushOnCompletion boolean?
  let redeployOnDevice ← fs.optional 2 "redeploy_on_device" c.redeployOnDevice boolean?
  let debug ← fs.optional 3 "debug" c.debug boolean?
  let printBytecodes ← fs.optional 4 "print_bytecodes" c.printBytecodes boolean?
  let printCompileTimes ← fs.optional 5 "print_compile_times" c.printCompileTimes boolean?
  let profiling ← fs.optional 6 "profiling" c.profiling boolean?
  let compileFailurePolicy ← fs.optional 7 "compile_failure_policy" c.compileFailurePolicy
    (choice? [("strict", .strict), ("lenient", .lenient)])
  return {
    useDependencies, flushOnCompletion, redeployOnDevice, debug, printBytecodes, printCompileTimes,
    profiling, compileFailurePolicy }

/-- A device, which is always written as a table. -/
def device? : Value → Option DeviceSpec
  | .table entries => do
    let fs := Fields.named entries
    let name ← fs.required 0 "name" text?
    let deferred ← fs.optional 1 "deferred" false boolean?
    let retainCallFrames ← fs.optional 2 "retain_call_frames" false boolean?
    return { name, options := { deferred, retainCallFrames } }
  | _ => none

def object? (v : Value) : Option ObjectSpec := do
  let fs ← Fields.ofValue? v
  let label ← fs.required 0 "label" text?
  let element ← fs.optional 1 "element" .i32 (choice? [("i32", .i32), ("f32", .f32)])
  let values ← fs.optional 2 "values" [] (list? double?)
  let length ← fs.optional 3 "len" none fun v => (natural? v).map some
  return { label, element, values, length }

def task? (v : Value) : Option TaskSpec := do
  let fs ← Fields.ofValue? v
  let name ← fs.required 0 "name" text?
  let access ← fs.optional 1 "access" [] (list? text?)
  let profiling ← fs.optional 2 "profiling" false boolean?
  return { name, access, profiling }

/-- Read a manifest from the text of its document. -/
def parse? (document : String) : Option Manifest := do
  let entries ← Toml.parse? document
  let fs := Fields.named entries
  let program ← fs.required 0 "program" text?
  let config ← fs.optional 1 "config" {} config?
  let devices ← fs.required 2 "devices" (list? device?)
  let objects ← fs.optional 3 "objects" [] (list? object?)
  let constants ← fs.optional 4 "constants" [] (list? scalar?)
  let tasks ← fs.optional 5 "tasks" [] (list? task?)
  return { program, config, devices, objects, constants, tasks }

end Manifest

end Offload
