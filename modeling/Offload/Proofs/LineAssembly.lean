import Offload.Proofs.Listing

/-!
# Assembly line by line

Every line of a text is assembled by itself. Two texts, one below the other, stand for the bytes of
the first and then those of the second; a fault of the first is the fault of both, and a fault of
the second is found as many lines further down as stand above it. So a fault names the first line
that cannot be assembled by itself.
-/

namespace Offload

namespace Text

theorem lines_below (upper lower : List Char) :
    lines (upper ++ '\n' :: lower) = lines upper ++ lines lower := by
  simp only [lines, split_eq_splitOnP]
  exact List.splitOnP_append_cons upper lower (by decide)

theorem length_lines (text : List Char) : (lines text).length = text.count '\n' + 1 :=
  length_split (· == '\n') text

theorem not_sep_of_mem_split {sep : Char → Bool} {cs piece : List Char} (h : piece ∈ split sep cs) :
    ∀ c ∈ piece, sep c = false := by
  induction cs generalizing piece with
  | nil =>
    obtain rfl : piece = [] := by simpa using h
    simp
  | cons c cs ih =>
    rw [split] at h
    split at h
    · rcases List.mem_cons.1 h with rfl | h
      · simp
      · exact ih h
    · rename_i hc
      cases hcut : split sep cs with
      | nil => exact absurd hcut (split_ne_nil sep cs)
      | cons first pieces =>
        rw [hcut] at h ih
        rcases List.mem_cons.1 h with rfl | h
        · exact List.forall_mem_cons.2 ⟨by simpa using hc, ih List.mem_cons_self⟩
        · exact ih (List.mem_cons_of_mem first h)

theorem lines_of_mem_lines {text line : List Char} (h : line ∈ lines text) :
    lines line = [line] := by
  rw [lines, split_eq_splitOnP]
  exact List.splitOnP_eq_singleton (not_sep_of_mem_split h)

end Text

/-- The fault, if as many lines stand above the text. -/
def AssemblyFault.lowered (f : AssemblyFault) (lines : Nat) :
    AssemblyFault := ⟨f.line + lines, f.problem⟩

namespace Assembly

theorem linesBytes_append (first : Nat) (above below : List (List Char)) :
    linesBytes first (above ++ below) =
      (linesBytes first above).bind fun bytes =>
        (linesBytes (first + above.length) below).map (bytes ++ ·) := by
  induction above generalizing first with
  | nil =>
    simp only [List.nil_append, linesBytes, Except.bind, List.length_nil, Nat.add_zero]
    cases linesBytes first below <;> rfl
  | cons line above ih =>
    simp only [List.cons_append, linesBytes, List.length_cons]
    cases lineBytes line with
    | error problem => rfl
    | ok bytes =>
      rw [ih, show first + 1 + above.length = first + (above.length + 1) by omega]
      cases linesBytes (first + 1) above with
      | error fault => rfl
      | ok others =>
        cases linesBytes (first + (above.length + 1)) below with
        | error fault => rfl
        | ok more => simp [Except.bind, Except.map]

/-- Only the numbers of lines depend on the number of the first one. -/
theorem linesBytes_add (first above : Nat) (texts : List (List Char)) :
    linesBytes (first + above) texts = (linesBytes first texts).mapError (·.lowered above) := by
  induction texts generalizing first with
  | nil => rfl
  | cons line texts ih =>
    simp only [linesBytes]
    cases lineBytes line with
    | error problem => rfl
    | ok bytes =>
      rw [show first + above + 1 = first + 1 + above by omega, ih]
      cases linesBytes (first + 1) texts <;> rfl

theorem exists_linesBytes_eq_ok_iff (first : Nat) (texts : List (List Char)) :
    (∃ code, linesBytes first texts = .ok code) ↔ ∀ line ∈ texts, ∃ code,
      lineBytes line = .ok code := by
  induction texts generalizing first with
  | nil => simp [linesBytes]
  | cons line texts ih =>
    rw [List.forall_mem_cons, ← ih (first + 1), linesBytes]
    cases lineBytes line with
    | error problem => simp
    | ok bytes => cases linesBytes (first + 1) texts <;> simp [Except.map]

/-- A fault is the problem of the first line that has one. -/
theorem linesBytes_eq_error_iff (first : Nat) (texts : List (List Char)) (fault : AssemblyFault) :
    linesBytes first texts = .error fault ↔
      ∃ above line below, texts = above ++ line :: below ∧ fault.line = first + above.length ∧
        (∀ l ∈ above, ∃ code, lineBytes l = .ok code) ∧ lineBytes line = .error fault.problem := by
  constructor
  · intro h
    induction texts generalizing first with
    | nil => cases h
    | cons line texts ih =>
      rw [linesBytes] at h
      cases hline : lineBytes line with
      | error problem =>
        rw [hline] at h
        cases h
        exact ⟨[], line, texts, rfl, rfl, by simp, hline⟩
      | ok bytes =>
        have hrest : linesBytes (first + 1) texts = .error fault := by
          rw [hline] at h
          revert h
          cases linesBytes (first + 1) texts <;> simp [Except.map]
        obtain ⟨above, wrong, below, rfl, hnumber, habove, hwrong⟩ := ih (first + 1) hrest
        refine ⟨line :: above, wrong, below, rfl, by rw [hnumber, List.length_cons]; omega, ?_,
          hwrong⟩
        exact List.forall_mem_cons.2 ⟨⟨bytes, hline⟩, habove⟩
  · rintro ⟨above, line, below, rfl, hnumber, habove, hline⟩
    obtain ⟨code, hcode⟩ := (exists_linesBytes_eq_ok_iff first above).2 habove
    rw [linesBytes_append, hcode, linesBytes, hline, ← hnumber]
    rfl

end Assembly

/-- A line of a text stands for its bytes when it is a text of its own. -/
theorem assemble_line {text line : List Char} (h : line ∈ Text.lines text) :
    assemble (String.ofList line) = (Assembly.lineBytes line).mapError (⟨1, ·⟩) := by
  rw [assemble, String.toList_ofList, Text.lines_of_mem_lines h, Assembly.linesBytes]
  cases Assembly.lineBytes line with
  | error problem => rfl
  | ok bytes => simp [Assembly.linesBytes, Except.map, Except.mapError]

theorem assemble_append (upper lower : String) :
    assemble (upper ++ "\n" ++ lower) =
      (assemble upper).bind fun code =>
        ((assemble lower).mapError (·.lowered (1 + upper.toList.count '\n'))).map (code ++ ·) := by
  have htext : (upper ++ "\n" ++ lower).toList = upper.toList ++ '\n' :: lower.toList := by
    rw [String.toList_append, String.toList_append, List.append_assoc]
    rfl
  have habove : (Text.lines upper.toList).length = 1 + upper.toList.count '\n' := by
    rw [Text.length_lines, Nat.add_comm]
  simp only [assemble, htext, Text.lines_below, Assembly.linesBytes_append, habove,
    Assembly.linesBytes_add]

/-- Assembly goes line by line. If a text assembles, then with another text below it the bytes of
the two stand one behind the other, or there is the fault of the lower text, one line further down
and one more for every line feed of the upper text; if the upper text does not assemble, its fault
is the fault of both. The line of a fault is always the first one that does not assemble by
itself. -/
theorem assemble_line_by_line (upper lower : String) :
    (∀ code, assemble upper = .ok code →
      (∀ more, assemble lower = .ok more → assemble (upper ++ "\n" ++ lower) = .ok (code ++ more)) ∧
      ∀ fault, assemble lower = .error fault → assemble (upper ++ "\n" ++ lower) =
        .error ⟨fault.line + (1 + upper.toList.count '\n'), fault.problem⟩) ∧
    (∀ fault, assemble upper = .error fault → assemble (upper ++ "\n" ++ lower) = .error fault) ∧
    ∀ (text : String) (fault : AssemblyFault), assemble text = .error fault ↔
      ∃ above line below, Text.lines text.toList = above ++ line :: below ∧
        fault.line = above.length + 1 ∧
        (∀ l ∈ above, ∃ code, assemble (String.ofList l) = .ok code) ∧
        assemble (String.ofList line) = .error ⟨1, fault.problem⟩ := by
  refine ⟨fun code hcode => ⟨fun more hmore => ?_, fun fault hfault => ?_⟩, fun fault hfault => ?_,
    ?_⟩
  · rw [assemble_append, hcode, hmore]
    rfl
  · rw [assemble_append, hcode, hfault]
    rfl
  · rw [assemble_append, hfault]
    rfl
  · intro text fault
    rw [assemble, Assembly.linesBytes_eq_error_iff]
    refine exists_congr fun above => exists_congr fun line => exists_congr fun below =>
      and_congr_right fun htext => and_congr (by rw [Nat.add_comm]) (and_congr ?_ ?_)
    · refine forall₂_congr fun l hl => ?_
      rw [assemble_line (htext ▸ List.mem_append_left _ hl)]
      cases Assembly.lineBytes l <;> simp [Except.mapError]
    · have hline : line ∈ Text.lines text.toList := by simp [htext]
      rw [assemble_line hline]
      cases Assembly.lineBytes line <;> simp [Except.mapError]

/-- A comment, an empty line and a carriage return above: they are counted and stand for nothing. -/
theorem assemble_line_by_line_commented :
    assemble ("# loads\n\r\nBEGIN \r" ++ "\n" ++ "END") = .ok [18, 21] ∧
      assemble ("# loads\n\r\nBEGIN \r" ++ "\n" ++ "\nADD_DEP -1\nEND 1") =
      .error ⟨5, .outOfRange (-1)⟩ ∧
      assemble ("\nADD_DEP -1\nEND 1" ++ "\n" ++ "END") = .error ⟨2, .outOfRange (-1)⟩ := by
  have hupper : assemble "# loads\n\r\nBEGIN \r" = .ok [18] := by decide +kernel
  have hwrong : assemble "\nADD_DEP -1\nEND 1" = .error ⟨2, .outOfRange (-1)⟩ := by decide +kernel
  refine ⟨?_, ?_, ?_⟩
  · exact ((assemble_line_by_line _ _).1 _ hupper).1 [21] (by decide +kernel)
  · exact ((assemble_line_by_line _ _).1 _ hupper).2 _ hwrong
  · exact (assemble_line_by_line _ _).2.1 _ hwrong

end Offload
