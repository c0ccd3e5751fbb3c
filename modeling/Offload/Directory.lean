import Offload.Text.Lines

/-!
# Directories

A directory of text files that are read by their paths. A path is walked part by part: an empty part
and `.` stay in place, `..` goes up, and a name enters a file or a directory that holds one. All
that lies outside the directory is taken to be directories without files. There are bounds on the
length of a part and of a path, and no path goes on behind a file.
-/

namespace Offload

/-- Why a file has no text. -/
inductive FileProblem where
  | notFound
  | unreadable
  deriving DecidableEq, Repr

/-- Text files by the parts of their paths. -/
structure Directory where
  files : List (List String × String)
  deriving DecidableEq, Repr

namespace Directory

/-- Where a walk has come to. -/
inductive Place where
  | outside
  | inside (parts : List String)
  | file (text : String)
  deriving DecidableEq, Repr

/-- The most bytes of a part. -/
def partLimit : Nat := 255

/-- The most bytes of a path. -/
def pathLimit : Nat := 4095

def parts (path : String) : List String := (Text.split (· == '/') path.toList).map String.ofList

def ofList (entries : List (String × String)) : Directory :=
  ⟨entries.map fun entry => (parts entry.1, entry.2)⟩

def enter (d : Directory) (place : Place) (name : String) : Except FileProblem Place :=
  if partLimit < name.utf8ByteSize then .error .unreadable
  else
    match place with
    | .inside parts =>
      let target := parts ++ [name]
      match d.files.lookup target with
      | some text => .ok (.file text)
      | none =>
        if d.files.any fun f => target.isPrefixOf f.1 then .ok (.inside target)
        else .error .notFound
    | _ => .error .notFound

/-- The directory above a place. -/
def above : Place → Place
  | .inside [] => .outside
  | .inside parts => .inside parts.dropLast
  | place => place

def step (d : Directory) (place : Place) (part : String) : Except FileProblem Place :=
  match place, part with
  | .file _, _ => .error .unreadable
  | place, "" => .ok place
  | place, "." => .ok place
  | place, ".." => .ok (above place)
  | place, name => d.enter place name

def walk (d : Directory) : List String → Place → Except FileProblem Place
  | [], place => .ok place
  | part :: rest, place => do
    let place ← d.step place part
    d.walk rest place

def read (d : Directory) (path : String) : Except FileProblem String :=
  if pathLimit < path.utf8ByteSize || path.toList.contains '\x00' then .error .unreadable
  else do
    let start := if path.toList.head? = some '/' then Place.outside else .inside []
    match ← d.walk (parts path) start with
    | .file text => return text
    | _ => throw .unreadable

end Directory

end Offload
