import Offload.Numeral.Shortest

/-!
# Layout of decimal numbers

How the digits of a number are set: positional or with an exponent, with or without a fraction on
whole numbers. A layout is a record of such choices. Numbers with a fixed count of places are
rounded from their exact value, a tie going to the even digit.
-/

namespace Offload.Numeral

/-- The choices of a way to write floating-point numbers. -/
structure Layout where
  /-- Decimal exponents that are written without an exponent part. -/
  positional : Int → Bool
  /-- Whether a whole number is written with the fraction `.0`. -/
  wholeFraction : Bool
  /-- Whether a positive exponent has a sign. -/
  plusSign : Bool
  tie : Tie
  nan : String
  infinity : String

namespace Layout

/-- Decimal digits of a number, most significant first. -/
def digitsOf (n : Nat) : List Char := Nat.toDigits 10 n

/-- The digits with the point after the place of `10 ^ 0`; the first digit stands for
`10 ^ exponent`. -/
def placed (ds : List Char) (exponent : Int) (wholeFraction : Bool) : List Char :=
  if exponent < 0 then
    '0' :: '.' :: (List.replicate (-exponent - 1).toNat '0' ++ ds)
  else
    let whole := exponent.toNat + 1
    if whole < ds.length then ds.take whole ++ '.' :: ds.drop whole
    else
      ds ++ List.replicate (whole - ds.length) '0' ++ (if wholeFraction then ['.', '0'] else [])

/-- The digits with the point after the first one, and the exponent. -/
def scientific (ds : List Char) (exponent : Int) (plusSign : Bool) : List Char :=
  let lead :=
    match ds with
    | d :: e :: rest => d :: '.' :: e :: rest
    | ds => ds
  let sign := if exponent < 0 then ['-'] else if plusSign then ['+'] else []
  lead ++ 'e' :: (sign ++ digitsOf exponent.natAbs)

def decimal (l : Layout) (d : Decimal) : List Char :=
  let ds := digitsOf d.digits
  let exponent := d.exponent + ds.length - 1
  if l.positional exponent then placed ds exponent l.wholeFraction
  else scientific ds exponent l.plusSign

def write (l : Layout) (f : BinaryFormat) (bits : Nat) : String :=
  let signed (negative : Bool) (cs : List Char) := if negative then '-' :: cs else cs
  match f.read bits with
  | .nan _ => l.nan
  | .infinite negative => String.ofList (signed negative l.infinity.toList)
  | .finite negative 0 _ => String.ofList (signed negative (placed ['0'] 0 l.wholeFraction))
  | .finite negative mantissa exponent =>
    String.ofList (signed negative (l.decimal (shortest f l.tie mantissa exponent)))

end Layout

/-- The ratio `num / den` with `places` digits behind the point. -/
def fixedPlaces (places num den : Nat) : String :=
  let n := BinaryFormat.nearest (num * pow10 places) den
  let ds := Layout.digitsOf n
  let ds := List.replicate (places + 1 - ds.length) '0' ++ ds
  let whole := ds.length - places
  String.ofList (ds.take whole ++ '.' :: ds.drop whole)

end Offload.Numeral
