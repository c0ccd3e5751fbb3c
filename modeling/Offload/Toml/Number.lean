import Offload.Numeral.Binary
import Offload.Toml.Text
import Offload.Toml.Tree

/-!
# TOML numbers and dates

Integers are signed words of 64 bits, in decimal or behind a marker for base sixteen, eight or two.
A floating-point number has a fraction or an exponent, and it may not be too large for 64 bits.
Single underscores may stand between digits. Dates and times are checked against the calendar.
-/

namespace Offload.Toml

open Scan

/-- Digits that satisfy `isDigit`, with single underscores between them, which are dropped. -/
def digitRun (isDigit : Char → Bool) : Scan (List Char) := do
  let first ← satisfy isDigit
  let others ← all (do
    let _ ← optional (char '_')
    satisfy isDigit)
  return first :: others

/-- A sign, if there is one: whether it is a minus. -/
def sign : Scan Bool :=
  (do char '-'; return true) <|> (do char '+'; return false) <|> return false

/-- Decimal digits without a needless zero in front. -/
def wholeDigits : Scan (List Char) := do
  let ds ← digitRun Char.isDigit
  if ds.length ≠ 1 && ds.head? == some '0' then failure else return ds

/-- The value of a run of digits in base sixteen or less. -/
def ofDigits (base : Nat) (ds : List Char) : Nat :=
  ds.foldl (fun n c => base * n + (hexValue? c).getD 0) 0

/-- An integer behind the marker of its base. -/
def marked (letter : Char) (base : Nat) : Scan Int := do
  word ['0', letter]
  let ds ← digitRun fun c => (hexValue? c).any (· < base)
  return ofDigits base ds

def decimal : Scan Int := do
  let negative ← sign
  let ds ← wholeDigits
  let n : Int := ofDigits 10 ds
  return if negative then -n else n

/-- An integer that fits a signed word of 64 bits. -/
def integer : Scan Int := do
  let n ← marked 'x' 16 <|> marked 'o' 8 <|> marked 'b' 2 <|> decimal
  if Numeral.fits 64 n then return n else failure

def fraction : Scan (List Char) := do
  char '.'
  digitRun Char.isDigit

def exponent : Scan Int := do
  let _ ← satisfy fun c => c == 'e' || c == 'E'
  let negative ← sign
  let ds ← digitRun Char.isDigit
  let n : Int := ofDigits 10 ds
  return if negative then -n else n

/-- A number with a fraction, an exponent or both. -/
def finite : Scan UInt64 := do
  let negative ← sign
  let whole ← wholeDigits
  let f ← optional fraction
  let e ← optional exponent
  if f.isNone && e.isNone then failure
  let f := f.getD []
  let bits := Numeral.BinaryFormat.double.ofDecimal negative (ofDigits 10 (whole ++ f))
    (e.getD 0 - f.length)
  if bits = Numeral.BinaryFormat.double.infinity false then failure
  return UInt64.ofNat bits

def special : Scan UInt64 := do
  let negative ← sign
  let bits ← (do
      word ['i', 'n', 'f']
      return Numeral.BinaryFormat.double.infinity negative) <|> (do
      word ['n', 'a', 'n']
      return Numeral.BinaryFormat.double.quietNan negative)
  return UInt64.ofNat bits

def float : Scan UInt64 := finite <|> special

def fixed : (count : Nat) → Scan Nat
  | 0 => return 0
  | count + 1 => do
    let c ← satisfy Char.isDigit
    let others ← fixed count
    return Numeral.digitValue c * Numeral.pow10 count + others

def between (least most : Nat) : Scan Unit := do
  let n ← fixed 2
  if least ≤ n && n ≤ most then return () else failure

def daysOf (year month : Nat) : Nat :=
  let leap := year % 4 == 0 && (year % 100 != 0 || year % 400 == 0)
  match month with
  | 2 => if leap then 29 else 28
  | 4 | 6 | 9 | 11 => 30
  | _ => 31

def date : Scan Unit := do
  let year ← fixed 4
  char '-'
  let month ← fixed 2
  char '-'
  let day ← fixed 2
  if 1 ≤ month && month ≤ 12 && 1 ≤ day && day ≤ daysOf year month then return () else failure

def time : Scan Unit := do
  between 0 23
  char ':'
  between 0 59
  char ':'
  between 0 60
  let _ ← optional (do
    char '.'
    let _ ← satisfy Char.isDigit
    let _ ← takeWhile Char.isDigit)
  return ()

def offset : Scan Unit := do
  let c ← satisfy ['Z', 'z', '+', '-'].contains
  if c == 'Z' || c == 'z' then return ()
  between 0 23
  char ':'
  between 0 59

def moment : Scan Unit :=
  (do
    date
    let _ ← optional (do
      let _ ← satisfy ['T', 't', ' '].contains
      time
      let _ ← optional offset)
    return ()) <|> time

/-- A value that starts with a sign or a digit. -/
def number : Scan Value :=
  (do moment; return .moment) <|> (.float <$> float) <|> (.integer <$> integer)

end Offload.Toml
