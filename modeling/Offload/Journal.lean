/-!
# Journals

The messages that a run writes, each with its level, in the order in which they were written.
-/

namespace Offload

/-- The weight of a message, the gravest first. -/
inductive Level where
  | error
  | warn
  | info
  | debug
  | trace
  deriving DecidableEq, Repr

namespace Level

def name : Level → String
  | .error => "ERROR"
  | .warn => "WARN"
  | .info => "INFO"
  | .debug => "DEBUG"
  | .trace => "TRACE"

def all : List Level := [.error, .warn, .info, .debug, .trace]

/-- The level of a name, in any mixture of upper and lower case. -/
def ofName? (name : String) : Option Level :=
  all.find? fun l => l.name.toList == name.toList.map Char.toUpper

/-- The place of a level, counted from the gravest. -/
def rank : Level → Nat
  | .error => 0
  | .warn => 1
  | .info => 2
  | .debug => 3
  | .trace => 4

end Level

/-- A message. -/
structure Message where
  level : Level
  text : String
  deriving DecidableEq, Repr

/-- The messages of a run, kept with the latest one first so that adding is a single step. -/
structure Journal where
  latest : List Message := []
  deriving DecidableEq, Repr

namespace Journal

def add (j : Journal) (level : Level) (text : String) : Journal := ⟨⟨level, text⟩ :: j.latest⟩

def messages (j : Journal) : List Message := j.latest.reverse

/-- The messages that are at least as grave as a level. -/
def upTo (j : Journal) (level : Level) : List Message :=
  j.messages.filter fun m => m.level.rank ≤ level.rank

end Journal

end Offload
