import Offload.Toml.Scan

/-!
# TOML strings

Four kinds: in double quotes with escapes or in single quotes without, each on one line or, between
tripled quotes, on several. A line feed right behind opening tripled quotes does not belong to the
string, and up to two quotes may stand right before the closing ones.
-/

namespace Offload.Toml

open Scan

def hexValue? (c : Char) : Option Nat :=
  if '0' ≤ c && c ≤ '9' then some (c.toNat - '0'.toNat)
  else if 'a' ≤ c && c ≤ 'f' then some (c.toNat - 'a'.toNat + 10)
  else if 'A' ≤ c && c ≤ 'F' then some (c.toNat - 'A'.toNat + 10)
  else none

/-- A number of `count` digits in base sixteen, read on from `value`. -/
def hexNumber : (count value : Nat) → Scan Nat
  | 0, value => return value
  | count + 1, value => do
    let c ← next
    match hexValue? c with
    | some d => hexNumber count (16 * value + d)
    | none => failure

/-- The character of a code point given by `count` digits. -/
def codePoint (count : Nat) : Scan Char := do
  let n ← hexNumber count 0
  if n.isValidChar then return Char.ofNat n else failure

/-- What stands behind a backslash. -/
def escape : Scan Char := do
  let c ← next
  match c with
  | 'b' => return '\x08'
  | 't' => return '\t'
  | 'n' => return '\n'
  | 'f' => return '\x0c'
  | 'r' => return '\r'
  | '"' => return '"'
  | '\\' => return '\\'
  | 'u' => codePoint 4
  | 'U' => codePoint 8
  | _ => failure

/-- A character of a string, or its escape if `escapes` says so. -/
def textChar (quote : Char) (escapes : Bool) : Scan Char := do
  let c ← satisfy fun c => isPlain c && c != quote
  if escapes && c == '\\' then escape else return c

def lineText (quote : Char) (escapes : Bool) : Scan String := do
  char quote
  let cs ← all (textChar quote escapes)
  char quote
  return String.ofList cs

/-- A line feed behind a backslash, with the blanks and line feeds that follow. -/
def foldedLine : Scan Unit := do
  char '\\'
  blanks
  newline
  let _ ← all ((do let _ ← satisfy isSpace) <|> newline)
  return ()

/-- One or two quotes that do not close the string: no quote follows. -/
def innerQuotes (quote : Char) : Scan (List Char) := do
  let quotes ← takeWhile (· == quote)
  if quotes.length = 1 || quotes.length = 2 then return quotes else failure

/-- A part of a string on several lines. -/
def blockPart (quote : Char) (escapes : Bool) : Scan (List Char) :=
  (if escapes then (do foldedLine; return []) else failure) <|>
    (do newline; return ['\n']) <|>
    (do
      let c ← textChar quote escapes
      return [c]) <|>
    innerQuotes quote

/-- A string between tripled quotes. -/
def blockText (quote : Char) (escapes : Bool) : Scan String := do
  word [quote, quote, quote]
  let _ ← optional newline
  let parts ← all (blockPart quote escapes)
  let quotes ← takeWhile (· == quote)
  if 3 ≤ quotes.length && quotes.length ≤ 5 then
    return String.ofList (parts.flatten ++ quotes.drop 3)
  else failure

def text : Scan String :=
  blockText '"' true <|> lineText '"' true <|> blockText '\'' false <|> lineText '\'' false

end Offload.Toml
