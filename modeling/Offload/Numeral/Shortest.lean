import Offload.Numeral.Binary

/-!
# Shortest decimal digits

The decimal digits of a binary value are those of the coarsest power of ten that has a multiple in
the interval of reals rounding to the value. Of two such multiples the nearer one is taken. The ends
of the interval belong to it when the mantissa is even.
-/

namespace Offload.Numeral

/-- Which of two decimals that are equally near is taken. -/
inductive Tie where
  | up
  | even
  deriving DecidableEq, Repr

/-- The number `digits * 10 ^ exponent`. -/
structure Decimal where
  digits : Nat
  exponent : Int
  deriving DecidableEq, Repr

/-- A value and the ends of its rounding interval over one denominator. -/
structure Interval where
  low : Nat
  value : Nat
  high : Nat
  denominator : Nat
  closed : Bool
  deriving DecidableEq, Repr

namespace Interval

/-- The interval of the reals that round to `mantissa * 2 ^ exponent`. Below a power of two the
neighbour is half as far as above. -/
def ofBinary (f : BinaryFormat) (mantissa : Nat) (exponent : Int) : Interval :=
  let below := if mantissa == pow2 f.fractionBits then 1 else 2
  let up := (exponent - 2).toNat
  let down := (2 - exponent).toNat
  { low := (4 * mantissa - below) * pow2 up
    value := 4 * mantissa * pow2 up
    high := (4 * mantissa + 2) * pow2 up
    denominator := pow2 down
    closed := mantissa % 2 == 0 }

/-- The interval in units of `10 ^ k`. -/
def inUnits (i : Interval) (k : Int) : Interval :=
  let shrink := pow10 k.toNat
  let grow := pow10 (-k).toNat
  { i with
    low := i.low * grow
    value := i.value * grow
    high := i.high * grow
    denominator := i.denominator * shrink }

/-- Whether the whole number `n` lies in the interval. -/
def holds (i : Interval) (n : Nat) : Bool :=
  let x := n * i.denominator
  if i.closed then i.low ≤ x && x ≤ i.high else i.low < x && x < i.high

/-- The whole number in the interval that is nearest to its value, if there is one other than
zero. -/
def pick? (i : Interval) (tie : Tie) : Option Nat :=
  let floor := i.value / i.denominator
  let rest := 2 * (i.value % i.denominator)
  let down := floor != 0 && i.holds floor
  let up := i.holds (floor + 1)
  if down && up then
    if rest < i.denominator then some floor
    else if i.denominator < rest then some (floor + 1)
    else
      match tie with
      | .up => some (floor + 1)
      | .even => some (floor + floor % 2)
  else if down then some floor
  else if up then some (floor + 1)
  else none

/-- Search from units of `10 ^ k` to finer ones. -/
def search (i : Interval) (tie : Tie) : Nat → Int → Decimal
  | 0, k => ⟨(i.inUnits k).value / (i.inUnits k).denominator, k⟩
  | steps + 1, k =>
    match (i.inUnits k).pick? tie with
    | some n => ⟨n, k⟩
    | none => search i tie steps (k - 1)

end Interval

/-- The shortest decimal of `mantissa * 2 ^ exponent`, for a positive mantissa. The search starts
above the value's leading digit and no format needs more than twenty places from there. -/
def shortest (f : BinaryFormat) (tie : Tie) (mantissa : Nat) (exponent : Int) : Decimal :=
  let leading : Int := (Nat.log2 mantissa : Int) + exponent
  let start : Int := (leading * 30103).fdiv 100000 + 2
  (Interval.ofBinary f mantissa exponent).search tie 24 start

end Offload.Numeral
