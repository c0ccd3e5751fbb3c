/-!
# Integer numerals

Powers of two and of ten, which are the sizes of words and of decimal places; reading signed decimal
numerals, and writing numbers in base sixteen. A numeral is an optional sign followed by at least
one decimal digit; nothing else may stand in it.
-/

namespace Offload.Numeral

/-- Two to the power `n`, the count of the words of `n` bits. -/
def pow2 (n : Nat) : Nat := Nat.pow 2 n

/-- Ten to the power `n`. -/
def pow10 (n : Nat) : Nat := Nat.pow 10 n

@[simp] theorem pow2_zero : pow2 0 = 1 := rfl

theorem pow2_add (m n : Nat) : pow2 (m + n) = pow2 m * pow2 n := Nat.pow_add 2 m n

/-- One more byte makes for 256 times as many words. -/
theorem pow2_byte (n : Nat) : pow2 (8 * (n + 1)) = 256 * pow2 (8 * n) := by
  rw [Nat.mul_succ, Nat.add_comm, pow2_add]
  rfl

theorem pow2_pos (n : Nat) : 0 < pow2 n := Nat.pow_pos (by decide)

def digitValue (c : Char) : Nat := c.toNat - '0'.toNat

/-- The number that a run of decimal digits denotes, most significant digit first. -/
def ofDigits (ds : List Char) : Nat := ds.foldl (fun n c => 10 * n + digitValue c) 0

/-- Read a run of decimal digits, at least one. -/
def natural? (cs : List Char) : Option Nat :=
  if !cs.isEmpty && cs.all Char.isDigit then some (ofDigits cs) else none

/-- Read a decimal integer with an optional sign. -/
def integer? : List Char → Option Int
  | '-' :: ds => (natural? ds).map fun n => -(n : Int)
  | '+' :: ds => (natural? ds).map fun n => (n : Int)
  | ds => (natural? ds).map fun n => (n : Int)

/-- The greatest number of a signed word of `bits` bits. -/
def greatest (bits : Nat) : Int := (pow2 (bits - 1) : Int) - 1

/-- Whether a number fits a signed word of `bits` bits. -/
def fits (bits : Nat) (n : Int) : Bool := -(greatest bits) - 1 ≤ n && n ≤ greatest bits

/-- Read a decimal integer that fits a signed word of `bits` bits. -/
def signed? (bits : Nat) (cs : List Char) : Option Int := (integer? cs).filter (fits bits)

def hexDigits (n : Nat) : String := String.ofList (Nat.toDigits 16 n)

/-- Digits in base sixteen, at least `width` of them. -/
def hexPadded (width n : Nat) : String :=
  let ds := Nat.toDigits 16 n
  String.ofList (List.replicate (width - ds.length) '0' ++ ds)

/-- A number in base sixteen behind its marker, as in `0x1f`. -/
def hex (n : Nat) : String := "0x" ++ hexDigits n

/-- As `hex`, with at least `width` digits. -/
def hexWide (width n : Nat) : String := "0x" ++ hexPadded width n

end Offload.Numeral
