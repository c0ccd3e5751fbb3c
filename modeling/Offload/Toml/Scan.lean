/-!
# Scanning

A scan takes characters from the front of a text and gives a value and the rest, or refuses. Blanks
are spaces and tabs; a line ends in a line feed, with or without a carriage return before it. No
other control character may stand in a document.
-/

namespace Offload.Toml

abbrev Scan := StateT (List Char) Option

namespace Scan

variable {α : Type}

def rest : Scan (List Char) := get

/-- The next character, which stays in the text. -/
def peek? : Scan (Option Char) := do
  let cs ← rest
  return cs.head?

def next : Scan Char := fun cs =>
  match cs with
  | c :: cs => some (c, cs)
  | [] => none

/-- The next character, which has to satisfy `p`. -/
def satisfy (p : Char → Bool) : Scan Char := do
  let c ← next
  if p c then return c else failure

def char (c : Char) : Scan Unit := do
  let _ ← satisfy (· == c)
  return ()

def word : List Char → Scan Unit
  | [] => return ()
  | c :: cs => do
    char c
    word cs

/-- The characters up to the first that does not satisfy `p`. -/
def takeWhile (p : Char → Bool) :
    Scan (List Char) := fun cs => some (cs.takeWhile p, cs.dropWhile p)

/-- As many as there are, but no more than `fuel`. -/
def many (x : Scan α) : (fuel : Nat) → Scan (List α)
  | 0 => return []
  | fuel + 1 =>
    (do
      let first ← x
      let others ← many x fuel
      return first :: others) <|> return []

/-- As many as there are. Every one of them takes a character at least. -/
def all (x : Scan α) : Scan (List α) := do
  let cs ← rest
  many x cs.length

/-- At least one, with separators between them. -/
def separated (x : Scan α) (separator : Scan Unit) : Scan (List α) := do
  let first ← x
  let others ← all (do separator; x)
  return first :: others

end Scan

open Scan

def isSpace (c : Char) : Bool := c == ' ' || c == '\t'

/-- The characters that may stand in comments and strings as they are. -/
def isPlain (c : Char) : Bool := c == '\t' || (' ' ≤ c && c != '\x7f')

def blanks : Scan Unit := do
  let _ ← takeWhile isSpace
  return ()

def newline : Scan Unit := char '\n' <|> word ['\r', '\n']

def comment : Scan Unit := do
  char '#'
  let _ ← takeWhile isPlain
  return ()

def finish : Scan Unit := do
  let cs ← rest
  if cs.isEmpty then return () else failure

/-- What may stand behind an entry on its line. -/
def lineEnd : Scan Unit := do
  blanks
  let _ ← optional comment
  newline <|> finish

/-- Blanks, line ends and comments, if there are any. -/
def gap : Scan Unit := do
  let blank : Scan Unit := do
    let _ ← satisfy isSpace
    return ()
  let _ ← all (blank <|> newline <|> (do comment; newline))
  return ()

end Offload.Toml
