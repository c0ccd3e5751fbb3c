import Offload.Toml.Number
import Offload.Toml.Tree

/-!
# TOML documents

A document is a sequence of lines: entries, headers and comments. Arrays and inline tables nest at
most as deep as `maxDepth`, and a key has at most as many parts.
-/

namespace Offload.Toml

open Scan

/-- The deepest nesting. -/
def maxDepth : Nat := 79

def isKeyChar (c : Char) : Bool := c.isAlphanum || c == '-' || c == '_'

def keyPart : Scan String :=
  (do
    let cs ← takeWhile isKeyChar
    if cs.isEmpty then failure else return String.ofList cs) <|>
    lineText '"' true <|> lineText '\'' false

/-- A key: the parts before the last one, and the last one. -/
def key : Scan (List String × String) := do
  let parts ← separated (do blanks; let k ← keyPart; blanks; return k) (char '.')
  match parts.getLast? with
  | some last => if maxDepth < parts.length then failure else return (parts.dropLast, last)
  | none => failure

def entry (value : Scan Value) : Scan ((List String × String) × Value) := do
  let k ← key
  char '='
  blanks
  let v ← value
  blanks
  return (k, v)

def array (value : Scan Value) : Scan Value := do
  char '['
  let item : Scan Value := do
    gap
    let v ← value
    gap
    return v
  let items ← optional (do
    let items ← separated item (char ',')
    let _ ← optional (char ',')
    return items)
  gap
  char ']'
  return .array (items.getD [])

def inlineTable (value : Scan Value) : Scan Value := do
  char '\x7b'
  let entries ← optional (separated (entry value) (char ','))
  blanks
  char '\x7d'
  let built := (entries.getD []).foldlM (fun (es : Entries) e => es.put e.1.1 e.1.2 e.2) []
  match built with
  | some es => return .table (finishEntries es)
  | none => failure

/-- A value in which arrays and tables nest at most `depth` deep. -/
def value : (depth : Nat) → Scan Value
  | 0 => plainValue
  | depth + 1 => array (value depth) <|> inlineTable (value depth) <|> plainValue
where
  plainValue : Scan Value :=
    (.text <$> text) <|> (do word "true".toList; return .boolean true) <|>
      (do word "false".toList; return .boolean false) <|> number

/-- What is built so far, and the path of the header that is open. -/
structure Draft where
  entries : Entries := []
  header : List String := []

def header (d : Draft) : Scan Draft := do
  let several ← (do word ['[', '[']; return true) <|> (do char '['; return false)
  let (path, k) ← key
  if several then word [']', ']'] else char ']'
  let opened := if several then d.entries.openElement path k else d.entries.openTable path k
  match opened with
  | some entries => return { entries, header := path ++ [k] }
  | none => failure

def setting (d : Draft) : Scan Draft := do
  let ((path, k), v) ← entry (value maxDepth)
  match d.entries.putAt d.header path k v with
  | some entries => return { d with entries }
  | none => failure

/-- A line that has something on it, to its end. -/
def line (d : Draft) : Scan Draft := do
  blanks
  let c ← peek?
  match c with
  | none => return d
  | some '[' =>
    let d ← header d
    lineEnd
    return d
  | some c =>
    if c == '#' || c == '\n' || c == '\r' then
      lineEnd
      return d
    else
      let d ← setting d
      lineEnd
      return d

/-- Lines to the end of the text, which has `fuel` characters. -/
def lines : (fuel : Nat) → Draft → Scan Draft
  | 0, d => return d
  | fuel + 1, d => do
    let d ← line d
    let cs ← rest
    if cs.isEmpty then return d else lines fuel d

/-- Read a document: the entries of its top table. -/
def parse? (document : String) : Option (List (String × Value)) := do
  let cs := document.toList
  let cs := if cs.head? == some '\ufeff' then cs.drop 1 else cs
  let (d, left) ← (lines (cs.length + 1) {}).run cs
  if left.isEmpty then some (finishEntries d.entries) else none

end Offload.Toml
