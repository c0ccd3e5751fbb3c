import Offload.Numeral.Integer

/-!
# Byte strings

Bytes stand for numbers in little-endian order, the lowest byte first, and for arrays of 32-bit
words. Encoding drops what does not fit the width; on numbers that fit it is undone by decoding.
-/

namespace Offload

abbrev Bytes := List UInt8

namespace Bytes

open Numeral (pow2 pow2_byte)

/-- The lowest `width` bytes of `n`, lowest first. -/
def ofNat : (width n : Nat) → Bytes
  | 0, _ => []
  | width + 1, n => UInt8.ofNat n :: ofNat width (n / 256)

def toNat : Bytes → Nat
  | [] => 0
  | b :: bs => b.toNat + 256 * toNat bs

/-- Two's complement reading of a number below `2 ^ bits`. -/
def signed (bits n : Nat) : Int :=
  if n < pow2 (bits - 1) then n else (n : Int) - pow2 bits

/-- The whole 32-bit words of a byte string; up to three last bytes are left out. -/
def toWords : Bytes → List UInt32
  | a :: b :: c :: d :: rest => UInt32.ofNat (toNat [a, b, c, d]) :: toWords rest
  | _ => []

def ofWord (w : UInt32) : Bytes := ofNat 4 w.toNat

def ofWords (ws : List UInt32) : Bytes := ws.flatMap ofWord

/-- Replace whole words from the front, as many as both sides have. -/
def setWords : Bytes → List UInt32 → Bytes
  | _ :: _ :: _ :: _ :: rest, w :: ws => ofWord w ++ setWords rest ws
  | bs, _ => bs

/-- Overwrite from `offset` on. Bytes that would lie past the end are dropped. -/
def overwrite (bs : Bytes) (offset : Nat) (src : Bytes) : Bytes :=
  bs.take offset ++ src.take (bs.length - offset) ++ bs.drop (offset + src.length)

@[simp] theorem length_ofNat (width n : Nat) : (ofNat width n).length = width := by
  induction width generalizing n with
  | zero => rfl
  | succ width ih => simp [ofNat, ih]

theorem toNat_ofNat (width n : Nat) : toNat (ofNat width n) = n % pow2 (8 * width) := by
  induction width generalizing n with
  | zero => simp [ofNat, toNat, Nat.mod_one]
  | succ width ih =>
    rw [pow2_byte, Nat.mod_mul]
    simp [ofNat, toNat, ih]

theorem toNat_lt (bs : Bytes) : toNat bs < pow2 (8 * bs.length) := by
  induction bs with
  | nil => simp [toNat]
  | cons b bs ih =>
    have hb := b.toNat_lt
    rw [List.length_cons, pow2_byte, toNat]
    omega

theorem ofNat_toNat (bs : Bytes) : ofNat bs.length (toNat bs) = bs := by
  induction bs with
  | nil => rfl
  | cons b bs ih =>
    have hb := b.toNat_lt
    have hdiv : (b.toNat + 256 * toNat bs) / 256 = toNat bs := by omega
    have hlow : UInt8.ofNat (b.toNat + 256 * toNat bs) = b := by
      apply UInt8.toNat_inj.1
      simp
    simp only [List.length_cons, ofNat, toNat, hdiv, hlow, ih]

@[simp] theorem length_overwrite (bs : Bytes) (offset : Nat) (src : Bytes) :
    (overwrite bs offset src).length = bs.length := by
  simp only [overwrite, List.length_append, List.length_take, List.length_drop]
  omega

@[simp] theorem length_ofWord (w : UInt32) : (ofWord w).length = 4 := length_ofNat 4 _

@[simp] theorem length_setWords (bs : Bytes) (ws : List UInt32) :
    (setWords bs ws).length = bs.length := by
  fun_induction setWords bs ws with
  | case1 a b c d rest w ws ih => simp [ih]; omega
  | case2 => rfl

end Bytes

end Offload
