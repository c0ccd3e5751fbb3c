/-!
# Values and tables of a document

A value is the content of a document. Floating-point numbers are given by the bit patterns of 64
bits. Of a date or a time only the fact is kept that it is one.

A document builds its tables from headers and keys. A table may be opened by one header only, dotted
keys add only to tables that dotted keys have made, and no key is set twice. Every table remembers
how it came to be, which decides what may still be added to it.
-/

namespace Offload.Toml

/-- A TOML value. -/
inductive Value where
  | text (s : String)
  | integer (n : Int)
  | float (bits : UInt64)
  | boolean (b : Bool)
  | moment
  | array (items : List Value)
  | table (entries : List (String × Value))

def find? (entries : List (String × Value)) (key : String) : Option Value := entries.lookup key

/-- How a table came to be: by a header of its own, as part of the path of another header, or by a
dotted key. -/
inductive Origin where
  | header
  | implied
  | dotted
  deriving DecidableEq, Repr

/-- What stands under a key while a document is read: a value, a table, or tables of one name, the
last of which is open. -/
inductive Node where
  | value (v : Value)
  | table (origin : Origin) (entries : List (String × Node))
  | tables (elements : List (List (String × Node)))

abbrev Entries := List (String × Node)

namespace Entries

/-- Put a node under a key, which it may have already. -/
def set (es : Entries) (key : String) (n : Node) : Entries :=
  if (es.lookup key).isSome then es.map fun e => if e.1 == key then (key, n) else e
  else es ++ [(key, n)]

/-- Change the table at the end of a path. A table that is missing is made. `f` is told how the
table came to be. -/
def within (dotted : Bool) (f : Origin → Entries → Option Entries) :
    List String → Origin → Entries → Option Entries
  | [], origin, es => f origin es
  | key :: path, _, es =>
    match es.lookup key with
    | none =>
      let origin := if dotted then Origin.dotted else .implied
      (within dotted f path origin []).map fun inner => es.set key (.table origin inner)
    | some (.value _) => none
    | some (.table origin inner) =>
      if dotted && origin == .header then none
      else (within dotted f path origin inner).map fun inner => es.set key (.table origin inner)
    | some (.tables elements) =>
      match elements.getLast? with
      | none => none
      | some last =>
        (within dotted f path .header last).map fun last =>
          es.set key (.tables (elements.dropLast ++ [last]))

/-- Set a key, which may be dotted, of a table. -/
def put (es : Entries) (path : List String) (key : String) (v : Value) : Option Entries :=
  within true (fun origin es =>
    if (origin == .dotted) == path.isEmpty || (es.lookup key).isSome then none
    else some (es.set key (.value v))) path .header es

def openTable (es : Entries) (path : List String) (key : String) : Option Entries :=
  within false (fun _ es =>
    match es.lookup key with
    | none => some (es.set key (.table .header []))
    | some (.table .implied inner) => some (es.set key (.table .header inner))
    | some _ => none) path .header es

/-- Open one more table of a list by its header. -/
def openElement (es : Entries) (path : List String) (key : String) : Option Entries :=
  within false (fun _ es =>
    match es.lookup key with
    | none => some (es.set key (.tables [[]]))
    | some (.tables elements) => some (es.set key (.tables (elements ++ [[]])))
    | some _ => none) path .header es

/-- Set a key of the table that the header of a path has opened. -/
def putAt (es : Entries) (header path : List String) (key : String) (v : Value) : Option Entries :=
  within false (fun _ es => es.put path key v) header .header es

end Entries

mutual

def Node.finish : Node → Value
  | .value v => v
  | .table _ entries => .table (finishEntries entries)
  | .tables elements => .array (finishElements elements)

def finishEntries : Entries → List (String × Value)
  | [] => []
  | (key, n) :: others => (key, n.finish) :: finishEntries others

def finishElements : List Entries → List Value
  | [] => []
  | es :: others => .table (finishEntries es) :: finishElements others

end

end Offload.Toml
