import Offload.Numeral.Integer

/-!
# Byte windows

A window is a run of bytes of a host object, given by its offset and its size. Its end is a 64-bit
number and stays at the largest one when the sum is larger.
-/

namespace Offload

/-- The largest 64-bit number. -/
def maxWord64 : Nat := Numeral.pow2 64 - 1

/-- The `size` bytes from `offset` on. -/
structure Window where
  offset : Nat
  size : Nat
  deriving DecidableEq, Repr

namespace Window

/-- One past the last byte. -/
def stop (w : Window) : Nat := min (w.offset + w.size) maxWord64

/-- Whether the window lies inside the first `length` bytes. -/
def fits (w : Window) (length : Nat) : Bool := w.stop ≤ length

def whole (length : Nat) : Window := ⟨0, length⟩

/-- The window as text, as in `8+16`. -/
def text (w : Window) : String := toString w.offset ++ "+" ++ toString w.size

end Window

end Offload
