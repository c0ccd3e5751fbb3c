import Offload.Numeral.Integer

/-!
# Binary floating-point formats

A finite value of a format is `mantissa * 2 ^ exponent` with a sign, and every bit pattern of the
format is read exactly. In the other direction a ratio of naturals is rounded to the nearest value,
a tie going to the even mantissa.
-/

namespace Offload.Numeral

/-- A binary interchange format: the number of significant bits, the leading one included, and the
width of the exponent field. -/
structure BinaryFormat where
  precision : Nat
  exponentBits : Nat
  deriving DecidableEq, Repr

/-- What a bit pattern stands for. -/
inductive Reading where
  | nan (negative : Bool)
  | infinite (negative : Bool)
  | finite (negative : Bool) (mantissa : Nat) (exponent : Int)
  deriving DecidableEq, Repr

namespace BinaryFormat

def single : BinaryFormat := ⟨24, 8⟩

def double : BinaryFormat := ⟨53, 11⟩

def fractionBits (f : BinaryFormat) : Nat := f.precision - 1

/-- The exponent of the lowest mantissa bit of the smallest values. -/
def leastExponent (f : BinaryFormat) : Int :=
  2 - (pow2 (f.exponentBits - 1) : Int) - f.fractionBits

/-- The exponent field of infinities and of values that are not numbers. -/
def topField (f : BinaryFormat) : Nat := pow2 f.exponentBits - 1

/-- The pattern with a sign, an exponent field and a fraction. -/
def assemble (f : BinaryFormat) (negative : Bool) (field fraction : Nat) : Nat :=
  ((if negative then pow2 f.exponentBits else 0) + field) * pow2 f.fractionBits + fraction

def infinity (f : BinaryFormat) (negative : Bool) : Nat := f.assemble negative f.topField 0

/-- The plainest pattern, of either sign, that is not a number. -/
def quietNan (f : BinaryFormat) (negative : Bool) : Nat :=
  f.assemble negative f.topField (pow2 (f.fractionBits - 1))

def read (f : BinaryFormat) (bits : Nat) : Reading :=
  let fraction := bits % pow2 f.fractionBits
  let field := bits / pow2 f.fractionBits % pow2 f.exponentBits
  let negative := bits / pow2 (f.fractionBits + f.exponentBits) % 2 == 1
  if field == f.topField then
    if fraction == 0 then .infinite negative else .nan negative
  else if field == 0 then .finite negative fraction f.leastExponent
  else .finite negative (fraction + pow2 f.fractionBits) (f.leastExponent + field - 1)

/-- The pattern with every value that is not a number replaced by the plainest one. -/
def canonical (f : BinaryFormat) (bits : Nat) : Nat :=
  match f.read bits with
  | .nan _ => f.quietNan false
  | _ => bits

/-- The nearest integer to `num / den`; a tie goes to the even one. -/
def nearest (num den : Nat) : Nat :=
  let low := num / den
  let twice := 2 * (num % den)
  if twice < den then low
  else if twice == den then low + low % 2
  else low + 1

/-- The ratio `num / den` divided by `2 ^ e`, as a numerator and a denominator. -/
def scaleDown (num den : Nat) (e : Int) : Nat × Nat :=
  if 0 ≤ e then (num, den * pow2 e.toNat) else (num * pow2 (-e).toNat, den)

/-- The pattern nearest to `mantissa * 2 ^ exponent`, the exponent being that of the lowest bit. -/
def pack (f : BinaryFormat) (negative : Bool) (mantissa : Nat) (exponent : Int) : Nat :=
  let (mantissa, exponent) :=
    if mantissa == pow2 f.precision then (mantissa / 2, exponent + 1) else (mantissa, exponent)
  if mantissa < pow2 f.fractionBits then f.assemble negative 0 mantissa
  else
    let field := (exponent - f.leastExponent).toNat + 1
    if f.topField ≤ field then f.infinity negative
    else f.assemble negative field (mantissa - pow2 f.fractionBits)

/-- The pattern of the value nearest to `num / den`, for a positive `den`. -/
def ofRatio (f : BinaryFormat) (negative : Bool) (num den : Nat) : Nat :=
  if num == 0 then f.assemble negative 0 0
  else
    let guess : Int := (Nat.log2 num : Int) - Nat.log2 den - f.fractionBits
    let (n, d) := scaleDown num den guess
    let exponent := if n < d * pow2 f.fractionBits then guess - 1 else guess
    let exponent := max exponent f.leastExponent
    let (n, d) := scaleDown num den exponent
    f.pack negative (nearest n d) exponent

/-- The pattern of the value nearest to `mantissa * 2 ^ exponent`. -/
def ofBinary (f : BinaryFormat) (negative : Bool) (mantissa : Nat) (exponent : Int) : Nat :=
  if 0 ≤ exponent then f.ofRatio negative (mantissa * pow2 exponent.toNat) 1
  else f.ofRatio negative mantissa (pow2 (-exponent).toNat)

/-- The pattern of the value nearest to `digits * 10 ^ exponent`. Exponents so large or so small
that the result is an infinity or zero whatever the digits are not expanded. -/
def ofDecimal (f : BinaryFormat) (negative : Bool) (digits : Nat) (exponent : Int) : Nat :=
  let reach : Int := pow2 f.exponentBits
  if digits == 0 then f.assemble negative 0 0
  else if reach < exponent then f.infinity negative
  else if exponent + (Nat.log2 digits : Int) < -reach then f.assemble negative 0 0
  else if 0 ≤ exponent then f.ofRatio negative (digits * pow10 exponent.toNat) 1
  else f.ofRatio negative digits (pow10 (-exponent).toNat)

/-- The pattern of the value nearest to an integer. -/
def ofInt (f : BinaryFormat) (n : Int) : Nat := f.ofRatio (n < 0) n.natAbs 1

/-- The magnitude of a finite pattern as a numerator and a denominator. -/
def fraction (f : BinaryFormat) (bits : Nat) : Nat × Nat :=
  match f.read bits with
  | .finite _ mantissa exponent => scaleDown mantissa 1 (-exponent)
  | _ => (0, 1)

/-- The pattern of the value nearest to the sum of two finite values that are not negative. -/
def sum (f : BinaryFormat) (a b : Nat) : Nat :=
  let (n, d) := f.fraction a
  let (m, e) := f.fraction b
  f.ofRatio false (n * e + m * d) (d * e)

def convert (source target : BinaryFormat) (bits : Nat) : Nat :=
  match source.read bits with
  | .nan negative => target.quietNan negative
  | .infinite negative => target.infinity negative
  | .finite negative mantissa exponent => target.ofBinary negative mantissa exponent

end BinaryFormat

end Offload.Numeral
