import Offload.Numeral.Layout

/-!
# Scalars

The constants of a context: integers of 32 and 64 bits and floating-point numbers of both sizes, the
latter by their bit patterns.
-/

namespace Offload

/-- A constant. -/
inductive Scalar where
  | i32 (value : Int32)
  | i64 (value : Int64)
  | f32 (bits : UInt32)
  | f64 (bits : UInt64)
  deriving DecidableEq, Repr

namespace Scalar

open Numeral

/-- Numbers without an exponent, and whole numbers without a fraction. -/
def plainLayout : Layout where
  positional _ := true
  wholeFraction := false
  plusSign := false
  tie := .up
  nan := "NaN"
  infinity := "inf"

/-- Numbers that show their kind: whole ones have a fraction, and those from `10 ^ 16` on or below
`10 ^ -4` have an exponent. -/
def exactLayout : Layout where
  positional e := -4 ≤ e && e < 16
  wholeFraction := true
  plusSign := false
  tie := .up
  nan := "NaN"
  infinity := "inf"

/-- A scalar as text: its value and its type. -/
def text : Scalar → String
  | .i32 v => toString v.toInt ++ "i32"
  | .i64 v => toString v.toInt ++ "i64"
  | .f32 b => plainLayout.write .single b.toNat ++ "f32"
  | .f64 b => plainLayout.write .double b.toNat ++ "f64"

/-- A scalar as its constructor and its exact value. -/
def describe : Scalar → String
  | .i32 v => "I32(" ++ toString v.toInt ++ ")"
  | .i64 v => "I64(" ++ toString v.toInt ++ ")"
  | .f32 b => "F32(" ++ exactLayout.write .single b.toNat ++ ")"
  | .f64 b => "F64(" ++ exactLayout.write .double b.toNat ++ ")"

def toI32? : Scalar → Option Int32
  | .i32 v => some v
  | _ => none

/-- The value as a 64-bit integer; both integer types have one. -/
def toI64? : Scalar → Option Int64
  | .i32 v => some v.toInt64
  | .i64 v => some v
  | _ => none

def toF32? : Scalar → Option UInt32
  | .f32 b => some b
  | _ => none

/-- The nearest floating-point number of 64 bits. -/
def toF64 : Scalar → UInt64
  | .i32 v => UInt64.ofNat (BinaryFormat.double.ofInt v.toInt)
  | .i64 v => UInt64.ofNat (BinaryFormat.double.ofInt v.toInt)
  | .f32 b => UInt64.ofNat (BinaryFormat.convert .single .double b.toNat)
  | .f64 b => b

/-- The nearest floating-point number of 32 bits, by way of 64 bits. -/
def toF32 (s : Scalar) : UInt32 :=
  UInt32.ofNat (BinaryFormat.convert .double .single s.toF64.toNat)

end Scalar

end Offload
