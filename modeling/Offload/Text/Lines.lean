/-!
# Lines and words

A text is cut into lines at line feeds and a line into words at blanks. Cutting never loses a
character other than the separators.
-/

namespace Offload.Text

/-- The characters of the Unicode property White_Space. -/
def isBlank (c : Char) : Bool :=
  let n := c.toNat
  (9 ≤ n && n ≤ 13) || n == 0x20 || n == 0x85 || n == 0xa0 || n == 0x1680 ||
    (0x2000 ≤ n && n ≤ 0x200a) || n == 0x2028 || n == 0x2029 || n == 0x202f || n == 0x205f ||
    n == 0x3000

/-- The pieces of a text between the characters that satisfy `sep`; there is one more piece than
there are separators. -/
def split (sep : Char → Bool) : List Char → List (List Char)
  | [] => [[]]
  | c :: cs =>
    if sep c then [] :: split sep cs
    else
      match split sep cs with
      | [] => [[c]]
      | piece :: pieces => (c :: piece) :: pieces

/-- The lines of a text. A text that ends in a line feed has an empty last line. -/
def lines (text : List Char) : List (List Char) := split (· == '\n') text

/-- The text of a list of lines: every one of them ends in a line feed. -/
def paragraph (ls : List String) : String := String.join (ls.map (· ++ "\n"))

/-- The words of a line: its maximal runs of characters that are not blank. -/
def words (line : List Char) : List (List Char) := (split isBlank line).filter (!·.isEmpty)

/-- Drop a comment: everything from the first `#` on. -/
def uncomment (line : List Char) : List Char := line.takeWhile (· != '#')

@[simp] theorem split_nil (sep : Char → Bool) : split sep [] = [[]] := rfl

theorem split_ne_nil (sep : Char → Bool) (cs : List Char) : split sep cs ≠ [] := by
  cases cs with
  | nil => simp
  | cons c cs => rw [split]; split <;> (try split) <;> simp

theorem length_split (sep : Char → Bool) (cs : List Char) :
    (split sep cs).length = cs.countP sep + 1 := by
  induction cs with
  | nil => rfl
  | cons c cs ih =>
    rw [split, List.countP_cons]
    split
    · simp [ih]
    · cases h : split sep cs with
      | nil => exact absurd h (split_ne_nil sep cs)
      | cons piece pieces => rw [h] at ih; simpa using ih

end Offload.Text
