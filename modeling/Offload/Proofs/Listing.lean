import Offload.Program.Assembly
import Offload.Proofs.Codec

/-!
# Listings and their bytes

The listing of a program assembles to the bytes of the program. A line of a listing is made of
words, which have no blanks and start no comment, so the line is cut back into its words; a number
in decimal is read back as itself; and every opcode finds the operands it expects.
-/

namespace Offload

open Offload.Action

variable {ls : List String}

namespace Text

theorem split_eq_splitOnP (sep : Char → Bool) (cs : List Char) :
    split sep cs = cs.splitOnP sep := by
  induction cs with
  | nil => rfl
  | cons c cs ih =>
    rw [split, List.splitOnP_cons_eq_if_modifyHead, ← ih]
    split
    · rfl
    · cases h : split sep cs with
      | nil => exact absurd h (split_ne_nil sep cs)
      | cons piece pieces => rfl

/-- What stands between two blanks of a line: neither a blank nor the start of a comment is in
it. -/
def IsWord (w : List Char) : Prop := w ≠ [] ∧ ∀ c ∈ w, isBlank c = false ∧ c ≠ '#'

/-- Words with single spaces between them. -/
def sentence (ws : List (List Char)) : List Char := [' '].intercalate ws

variable {ws : List (List Char)}

theorem mem_sentence (hws : ∀ w ∈ ws, IsWord w) {c : Char} (hc : c ∈ sentence ws) :
    c = ' ' ∨ isBlank c = false ∧ c ≠ '#' := by
  induction ws with
  | nil => simp [sentence] at hc
  | cons w ws ih =>
    simp only [List.mem_cons, forall_eq_or_imp] at hws
    cases ws with
    | nil => exact .inr (hws.1.2 c (by simpa [sentence] using hc))
    | cons v vs =>
      rw [sentence, List.intercalate_cons_cons, List.append_assoc, List.mem_append] at hc
      rcases hc with hc | hc
      · exact .inr (hws.1.2 c hc)
      · rcases List.mem_append.1 hc with hc | hc
        · exact .inl (by simpa using hc)
        · exact ih hws.2 hc

theorem uncomment_sentence (hws : ∀ w ∈ ws, IsWord w) : uncomment (sentence ws) = sentence ws := by
  apply List.takeWhile_eq_self_iff.2
  intro c hc
  rcases mem_sentence hws hc with rfl | ⟨-, h⟩
  · decide
  · simpa using h

theorem words_sentence (hws : ∀ w ∈ ws, IsWord w) : words (sentence ws) = ws := by
  unfold words
  rw [split_eq_splitOnP]
  induction ws with
  | nil => simp [sentence]
  | cons w ws ih =>
    simp only [List.mem_cons, forall_eq_or_imp] at hws
    have hw : w.splitOnP isBlank = [w] := List.splitOnP_eq_singleton fun c hc => (hws.1.2 c hc).1
    cases ws with
    | nil => simp [sentence, hw, hws.1.1]
    | cons v vs =>
      have hcut := List.splitOnP_append_cons w (sentence (v :: vs))
        (show isBlank ' ' = true by decide)
      rw [sentence, List.intercalate_cons_cons, List.append_assoc, List.singleton_append]
      unfold sentence at hcut ih
      rw [hcut, List.filter_append, ih hws.2, hw]
      simp [hws.1.1]

theorem lines_paragraph (hls : ∀ l ∈ ls, '\n' ∉ l.toList) :
    lines (paragraph ls).toList = ls.map String.toList ++ [[]] := by
  unfold lines paragraph
  rw [split_eq_splitOnP, String.toList_join]
  induction ls with
  | nil => simp
  | cons l ls ih =>
    simp only [List.mem_cons, forall_eq_or_imp] at hls
    have hl : l.toList.splitOnP (· == '\n') = [l.toList] := by
      apply List.splitOnP_eq_singleton
      intro c hc
      simpa using fun h : c = '\n' => hls.1 (h ▸ hc)
    have hcut (tail : List Char) : (l.toList ++ '\n' :: tail).splitOnP (· == '\n') =
        l.toList.splitOnP (· == '\n') ++ tail.splitOnP (· == '\n') :=
      List.splitOnP_append_cons _ _ (by decide)
    rw [List.map_cons, List.flatMap_cons, String.toList_append,
      show ("\n" : String).toList = ['\n'] by decide, List.append_assoc,
        List.singleton_append, hcut,
      ih hls.2, hl]
    simp

end Text

namespace Numeral

theorem natural?_toDigits (n : Nat) : natural? (Nat.toDigits 10 n) = some n := by
  have hdigits : (Nat.toDigits 10 n).all Char.isDigit = true :=
    List.all_eq_true.2 fun c hc => Nat.isDigit_of_mem_toDigits (by omega) (by omega) hc
  have hvalue : ofDigits (Nat.toDigits 10 n) = n := Nat.ofDigitChars_ten_toDigits
  simp [natural?, hdigits, hvalue, Nat.toDigits_ne_nil]

theorem integer?_toDigits (n : Nat) : integer? (Nat.toDigits 10 n) = some (n : Int) := by
  have hfirst : ∀ c ∈ Nat.toDigits 10 n, c.isDigit = true := fun c hc =>
    Nat.isDigit_of_mem_toDigits (by omega) (by omega) hc
  unfold integer?
  split
  · rename_i ds h
    exact absurd (hfirst '-' (by simp [h])) (by decide)
  · rename_i ds h
    exact absurd (hfirst '+' (by simp [h])) (by decide)
  · rw [natural?_toDigits]
    rfl

theorem signed?_toDigits (bits n : Nat) (h : (n : Int) ≤ greatest bits) :
    signed? bits (Nat.toDigits 10 n) = some (n : Int) := by
  simp only [signed?, integer?_toDigits, Option.filter_some, fits]
  simp [h]
  omega

end Numeral

namespace Text

theorem isWord_of_upper {w : List Char} (hne : w ≠ [])
    (h : w.all (fun c => c.isUpper || c == '_') = true) : IsWord w := by
  refine ⟨hne, fun c hc => ?_⟩
  have hletter := List.all_eq_true.1 h c hc
  have hrange : 65 ≤ c.toNat ∧ c.toNat ≤ 95 := by
    rcases Bool.or_eq_true_iff.1 hletter with hupper | hline
    · obtain ⟨hlow, hhigh⟩ : 65 ≤ c.toNat ∧ c.toNat ≤ 90 := by
        simpa [Char.isUpper, UInt32.le_iff_toNat_le] using hupper
      omega
    · obtain rfl : c = '_' := by simpa using hline
      decide
  refine ⟨?_, ?_⟩
  · simp only [isBlank]
    grind
  · rintro rfl
    exact absurd hrange (by decide)

theorem isWord_toDigits (n : Nat) : IsWord (Nat.toDigits 10 n) := by
  refine ⟨Nat.toDigits_ne_nil, fun c hc => ?_⟩
  have hdigit := Nat.isDigit_of_mem_toDigits (by omega) (by omega) hc
  obtain ⟨hlow, hhigh⟩ : 48 ≤ c.toNat ∧ c.toNat ≤ 57 := by
    simpa [Char.isDigit, UInt32.le_iff_toNat_le] using hdigit
  refine ⟨?_, ?_⟩
  · simp only [isBlank]
    grind
  · rintro rfl
    simp at hlow

end Text

namespace Opcode

/-- The letters of a mnemonic one by one, so that two mnemonics can be compared letter by letter. -/
def letters : Opcode → List Char
  | .allocate false => ['A', 'L', 'L', 'O', 'C', 'A', 'T', 'E']
  | .transfer .copyIn false => ['C', 'O', 'P', 'Y', '_', 'I', 'N']
  | .transfer .streamIn false => ['S', 'T', 'R', 'E', 'A', 'M', '_', 'I', 'N']
  | .transfer (.streamOut false) false => ['S', 'T', 'R', 'E', 'A', 'M', '_', 'O', 'U', 'T']
  | .transfer (.streamOut true) false =>
    ['S', 'T', 'R', 'E', 'A', 'M', '_', 'O', 'U', 'T', '_', 'B', 'L', 'O', 'C', 'K', 'I', 'N', 'G']
  | .launch false => ['L', 'A', 'U', 'N', 'C', 'H']
  | .barrier => ['B', 'A', 'R', 'R', 'I', 'E', 'R']
  | .setup => ['S', 'E', 'T', 'U', 'P']
  | .enter => ['B', 'E', 'G', 'I', 'N']
  | .addDep => ['A', 'D', 'D', '_', 'D', 'E', 'P']
  | .context => ['C', 'O', 'N', 'T', 'E', 'X', 'T']
  | .finish => ['E', 'N', 'D']
  | .constantArg => ['C', 'O', 'N', 'S', 'T', 'A', 'N', 'T', '_', 'A', 'R', 'G']
  | .referenceArg => ['R', 'E', 'F', 'E', 'R', 'E', 'N', 'C', 'E', '_', 'A', 'R', 'G']
  | .allocate true => ['A', 'L', 'L', 'O', 'C', 'A', 'T', 'E', '_', 'B', 'A', 'T', 'C', 'H']
  | .transfer .copyIn true => ['C', 'O', 'P', 'Y', 'I', 'N', '_', 'B', 'A', 'T', 'C', 'H']
  | .transfer .streamIn true =>
    ['S', 'T', 'R', 'E', 'A', 'M', '_', 'I', 'N', '_', 'B', 'A', 'T', 'C', 'H']
  | .transfer (.streamOut false) true =>
    ['S', 'T', 'R', 'E', 'A', 'M', '_', 'O', 'U', 'T', '_', 'B', 'A', 'T', 'C', 'H']
  | .transfer (.streamOut true) true =>
    ['S', 'T', 'R', 'E', 'A', 'M', '_', 'O', 'U', 'T', '_', 'B', 'L', 'O', 'C', 'K', 'I', 'N', 'G',
      '_', 'B', 'A', 'T', 'C', 'H']
  | .launch true => ['L', 'A', 'U', 'N', 'C', 'H', '_', 'B', 'A', 'T', 'C', 'H']

theorem toList_mnemonic (op : Opcode) : op.mnemonic.toList = op.letters := by
  rcases op with b | ⟨t, b⟩ | b | _ | _ | _ | _ | _ | _ | _ | _ <;>
    (try cases b) <;> (try rcases t with _ | _ | c) <;> (try cases c) <;>
    exact String.toList_ofList

theorem letters_upper (op : Opcode) : op.letters.all (fun c => c.isUpper || c == '_') = true := by
  rcases op with b | ⟨t, b⟩ | b | _ | _ | _ | _ | _ | _ | _ | _ <;>
    (try cases b) <;> (try rcases t with _ | _ | c) <;> (try cases c) <;> decide

theorem find?_letters (op : Opcode) :
    all.find? (fun o => o.letters == op.letters.map Char.toUpper) = some op := by
  rcases op with b | ⟨t, b⟩ | b | _ | _ | _ | _ | _ | _ | _ | _ <;>
    (try cases b) <;> (try rcases t with _ | _ | c) <;> (try cases c) <;> decide

theorem ofMnemonic?_mnemonic (op : Opcode) : ofMnemonic? op.mnemonic.toList = some op := by
  simp only [ofMnemonic?, toList_mnemonic, find?_letters]

theorem isWord_mnemonic (op : Opcode) : Text.IsWord op.mnemonic.toList := by
  rw [toList_mnemonic]
  refine Text.isWord_of_upper ?_ (letters_upper op)
  rcases op with b | ⟨t, b⟩ | b | _ | _ | _ | _ | _ | _ | _ | _ <;>
    (try cases b) <;> (try rcases t with _ | _ | c) <;> (try cases c) <;> simp [letters]

end Opcode

namespace Instruction

/-- The word for an event list: minus one if there is none. -/
def listWord : Option Nat → List Char
  | none => ['-', '1']
  | some list => Nat.toDigits 10 list

@[simp] theorem toList_repr_listOperand (events : Option Nat) :
    (listOperand events).repr.toList = listWord events := by
  cases events with
  | none => decide
  | some list => simp [listOperand, listWord, Int.repr_eq_if]

theorem isWord_listWord (events : Option Nat) : Text.IsWord (listWord events) := by
  cases events with
  | none => simp [listWord, Text.IsWord, Text.isBlank]
  | some list => exact Text.isWord_toDigits list

theorem toList_constant (i : Nat) :
    (Argument.constant i).text.toList = 'c' :: Nat.toDigits 10 i := by
  simp [Argument.text]

theorem toList_reference (i : Nat) :
    (Argument.reference i).text.toList = 'r' :: Nat.toDigits 10 i := by
  simp [Argument.text]

theorem isWord_argument (a : Argument) : Text.IsWord a.text.toList := by
  have h := (Text.isWord_toDigits a.index).2
  cases a with
  | constant i =>
    rw [toList_constant]
    exact ⟨by simp, by simpa using ⟨by decide, h⟩⟩
  | reference i =>
    rw [toList_reference]
    exact ⟨by simp, by simpa using ⟨by decide, h⟩⟩

theorem isWord_operands (i : Instruction) : ∀ w ∈ i.operands, Text.IsWord w.toList := by
  have hwindow (window : Option Window) : ∀ w ∈ windowOperands window, Text.IsWord w.toList := by
    cases window <;> simp [windowOperands, Text.isWord_toDigits]
  cases i with
  | allocate object device window =>
    simpa [operands, Text.isWord_toDigits] using hwindow window
  | transfer kind object device events window =>
    simpa [operands, Text.isWord_toDigits, isWord_listWord] using hwindow window
  | launch frame device task events window arguments =>
    simp only [operands, List.mem_append, List.mem_map]
    rintro w ((hw | hw) | ⟨a, -, rfl⟩)
    · revert w
      simp [Text.isWord_toDigits, isWord_listWord]
    · exact hwindow window w hw
    · exact isWord_argument a
  | addDep events => simp [operands, Text.isWord_toDigits]
  | barrier events => simp [operands, isWord_listWord]
  | finish => simp [operands]

/-- The text of an instruction is the sentence of its mnemonic and its operands. -/
theorem toList_text (i : Instruction) :
    i.text.toList = Text.sentence (i.opcode.mnemonic.toList :: i.operands.map String.toList) := by
  simp [text, Text.sentence]

end Instruction

namespace Assembly

theorem le_greatest_index {n : Nat} (h : n ≤ maxIndex) : (n : Int) ≤ Numeral.greatest 32 := by
  simp only [maxIndex, Numeral.greatest, Numeral.pow2] at *
  norm_num at *
  omega

theorem le_greatest_extent {n : Nat} (h : n ≤ maxExtent) : (n : Int) ≤ Numeral.greatest 64 := by
  simp only [maxExtent, Numeral.greatest, Numeral.pow2] at *
  norm_num at *
  omega

theorem number_toDigits (least most : Int) (n : Nat) (hmost : most ≤ Numeral.greatest 64)
    (hlow : least ≤ n) (hhigh : (n : Int) ≤ most) :
    number least most (Nat.toDigits 10 n) = .ok (n : Int) := by
  rw [number, Numeral.signed?_toDigits 64 n (by omega)]
  simp only
  rw [if_neg (by omega)]

theorem index_toDigits (n : Nat) (h : n ≤ maxIndex) : index (Nat.toDigits 10 n) = .ok n := by
  rw [index, number_toDigits 0 (Numeral.greatest 32) n (by decide) (by omega)
    (le_greatest_index h)]
  rfl

theorem eventList_listWord (events : Option Nat) (h : ListInRange events) :
    eventList (Instruction.listWord events) = .ok events := by
  cases events with
  | none => decide
  | some list =>
    rw [eventList, Instruction.listWord, number_toDigits (-1) (Numeral.greatest 32) list (by decide)
      (by omega) (le_greatest_index (h list rfl))]
    simp [bind, Except.bind, pure, Except.pure, show (list : Int) ≠ -1 by omega]

theorem window_toDigits (w : Window) (h : WindowInRange (some w)) :
    window (Nat.toDigits 10 w.offset) (Nat.toDigits 10 w.size) = .ok w := by
  obtain ⟨ho, hs⟩ := h w rfl
  rw [window, number_toDigits 0 _ w.offset le_rfl (by omega) (le_greatest_extent ho),
    number_toDigits 0 _ w.size le_rfl (by omega) (le_greatest_extent hs)]
  rfl

theorem argument_text (a : Argument) (h : a.index ≤ maxIndex) :
    argument a.text.toList = .ok a := by
  have hread := Numeral.signed?_toDigits 32 a.index (le_greatest_index h)
  cases a with
  | constant i =>
    simp only [Instruction.toList_constant, argument]
    rw [show Numeral.signed? 32 (Nat.toDigits 10 i) = some (i : Int) from hread]
    rfl
  | reference i =>
    simp only [Instruction.toList_reference, argument]
    rw [show Numeral.signed? 32 (Nat.toDigits 10 i) = some (i : Int) from hread]
    rfl

theorem arguments_text (as : List Argument) (h : ∀ a ∈ as, a.index ≤ maxIndex) :
    arguments (as.map fun a => a.text.toList) = .ok as := by
  induction as with
  | nil => rfl
  | cons a as ih =>
    simp only [List.mem_cons, forall_eq_or_imp] at h
    rw [List.map_cons, arguments, argument_text a h.1, ih h.2]
    rfl

/-- Every instruction in range is what its opcode makes of its operands. -/
theorem item_operands (name : String) (i : Instruction) (h : i.InRange) :
    item name i.opcode (i.operands.map String.toList) = .ok (.instruction i) := by
  cases i with
  | allocate object device window =>
    obtain ⟨ho, hd, hw⟩ := h
    cases window with
    | none =>
      simp [Instruction.opcode, Instruction.operands, Instruction.windowOperands, item,
        index_toDigits, ho, hd, bind, Except.bind, pure, Except.pure]
    | some w =>
      simp [Instruction.opcode, Instruction.operands, Instruction.windowOperands, item,
        index_toDigits, ho, hd, window_toDigits w hw, bind, Except.bind, pure, Except.pure]
  | transfer kind object device events window =>
    obtain ⟨ho, hd, hl, hw⟩ := h
    cases window with
    | none =>
      simp [Instruction.opcode, Instruction.operands, Instruction.windowOperands, item,
        index_toDigits, ho, hd, eventList_listWord events hl, bind, Except.bind, pure, Except.pure]
    | some w =>
      simp [Instruction.opcode, Instruction.operands, Instruction.windowOperands, item,
        index_toDigits, ho, hd, eventList_listWord events hl, window_toDigits w hw, bind,
        Except.bind, pure, Except.pure]
  | launch frame device task events window arguments =>
    obtain ⟨hf, hd, ht, -, hl, hw, ha⟩ := h
    have hargs := arguments_text arguments ha
    cases window with
    | none =>
      simp [Instruction.opcode, Instruction.operands, Instruction.windowOperands, item,
        index_toDigits, hf, hd, ht, eventList_listWord events hl, Function.comp_def, hargs, bind,
        Except.bind, pure, Except.pure]
    | some w =>
      simp [Instruction.opcode, Instruction.operands, Instruction.windowOperands, item,
        index_toDigits, hf, hd, ht, eventList_listWord events hl, window_toDigits w hw,
        Function.comp_def, hargs, bind, Except.bind, pure, Except.pure]
  | addDep events =>
    simp [Instruction.opcode, Instruction.operands, item, index_toDigits events h, bind,
      Except.bind, pure, Except.pure]
  | barrier events =>
    simp [Instruction.opcode, Instruction.operands, item, eventList_listWord events h, bind,
      Except.bind, pure, Except.pure]
  | finish => rfl

/-- A line of text that stands for the given bytes. -/
def Assembles (l : String) (bytes : Bytes) : Prop :=
  '\n' ∉ l.toList ∧ lineBytes l.toList = .ok bytes

/-- A sentence that starts with a mnemonic stands for the item of its opcode and of the other
words. -/
theorem assembles_of_item {l : String} (op : Opcode) (ws : List (List Char)) {found : Item}
    (hl : l.toList = Text.sentence (op.mnemonic.toList :: ws)) (hws : ∀ w ∈ ws, Text.IsWord w)
    (hitem : item op.mnemonic op ws = .ok found) : Assembles l found.encode := by
  have hall : ∀ w ∈ op.mnemonic.toList :: ws, Text.IsWord w := by
    simpa using ⟨op.isWord_mnemonic, hws⟩
  constructor
  · intro hline
    rw [hl] at hline
    rcases Text.mem_sentence hall hline with h | ⟨h, -⟩ <;> exact absurd h (by decide)
  · rw [lineBytes, line, hl, Text.uncomment_sentence hall, Text.words_sentence hall]
    simp only [Opcode.ofMnemonic?_mnemonic, String.ofList_toList, hitem]
    rfl

theorem assembles_instruction (i : Instruction) (h : i.InRange) : Assembles i.text i.encode :=
  assembles_of_item _ _ i.toList_text (by simpa using i.isWord_operands) (item_operands _ i h)

theorem assembles_setup (d t l : Nat) (hd : d ≤ maxIndex) (ht : t ≤ maxIndex) (hl : l ≤ maxIndex) :
    Assembles (Opcode.setup.mnemonic ++ " " ++ toString d ++ " " ++ toString t ++ " " ++ toString l)
      (Item.setup d t l).encode := by
  apply assembles_of_item .setup [Nat.toDigits 10 d, Nat.toDigits 10 t, Nat.toDigits 10 l]
  · simp [Text.sentence, List.intercalate_cons_cons]
  · simp [Text.isWord_toDigits]
  · simp [item, index_toDigits, hd, ht, hl, bind, Except.bind, pure, Except.pure]

theorem assembles_context (device : Nat) (h : device ≤ maxIndex) :
    Assembles (Opcode.context.mnemonic ++ " " ++ toString device) (Item.context device).encode := by
  apply assembles_of_item .context [Nat.toDigits 10 device]
  · simp [Text.sentence, List.intercalate_cons_cons]
  · simp [Text.isWord_toDigits]
  · simp [item, index_toDigits, h, bind, Except.bind, pure, Except.pure]

theorem assembles_enter : Assembles Opcode.enter.mnemonic Item.enter.encode := by
  apply assembles_of_item .enter []
  · simp [Text.sentence]
  · simp
  · rfl

variable {bs : List Bytes}

/-- Lines that stand for bytes one by one stand for them together, whatever their numbers. -/
theorem linesBytes_of_assembles (h : List.Forall₂ Assembles ls bs) (number : Nat) :
    linesBytes number (ls.map String.toList ++ [[]]) = .ok bs.flatten := by
  induction h generalizing number with
  | nil => rfl
  | cons hl _ ih =>
    rw [List.map_cons, List.cons_append, linesBytes, hl.2]
    simp only [ih]
    rfl

theorem newline_not_mem_of_assembles (h : List.Forall₂ Assembles ls bs) :
    ∀ l ∈ ls, '\n' ∉ l.toList := by
  intro l hl
  obtain ⟨n, hn, rfl⟩ := List.getElem_of_mem hl
  exact (h.get hn (h.length_eq ▸ hn)).1

theorem assemble_paragraph (h : List.Forall₂ Assembles ls bs) :
    assemble (Text.paragraph ls) = .ok bs.flatten := by
  rw [assemble, Text.lines_paragraph (newline_not_mem_of_assembles h), linesBytes_of_assembles h]

end Assembly

namespace Program

open Assembly

/-- The lines of a header stand, one by one, for its items. -/
theorem assembles_header (h : Header) (hh : h.InRange) :
    List.Forall₂ Assembles h.lines
      ((Item.setup h.devices h.tasks h.eventLists).encode ::
        (h.contexts.map fun device => (Item.context device).encode) ++ [Item.enter.encode]) := by
  obtain ⟨hd, ht, hl, hc⟩ := hh
  unfold Header.lines
  refine List.rel_append (.cons (assembles_setup _ _ _ hd ht hl) ?_) (.cons assembles_enter .nil)
  rw [List.forall₂_map_left_iff, List.forall₂_map_right_iff, List.forall₂_same]
  exact fun device hdevice => assembles_context device (hc device hdevice)

/-- The lines of a listing stand, one by one, for the items of the program. -/
theorem assembles_lines (p : Program) (hp : p.Encodable) :
    List.Forall₂ Assembles p.lines
      ((Item.setup p.header.devices p.header.tasks p.header.eventLists).encode ::
        (p.header.contexts.map fun device => (Item.context device).encode) ++ [Item.enter.encode] ++
        p.body.map Instruction.encode) := by
  unfold lines
  refine List.rel_append (assembles_header p.header hp.header) ?_
  rw [List.forall₂_map_left_iff, List.forall₂_map_right_iff, List.forall₂_same]
  exact fun i hi => assembles_instruction i (hp.body i hi)

/-- The listing of a program assembles to the bytes of the program. -/
theorem assemble_listing (p : Program) (hp : p.Encodable) : assemble p.listing = .ok p.encode := by
  rw [listing, assemble_paragraph (assembles_lines p hp)]
  simp [encode, Header.encode, Item.encode, List.flatMap_def]

end Program

namespace Reading

/-- Writing the lines while reading is reading first and writing then, by induction on the fuel. -/
theorem run_bodyLines (fuel : Nat) (c : Cursor) :
    (bodyLines fuel).run c =
      (((body fuel).run c).1.map (List.map Instruction.text), ((body fuel).run c).2) := by
  induction fuel generalizing c with
  | zero => rfl
  | succ fuel ih =>
    rw [bodyLines, body, run_bind, run_bind]
    rcases instruction.run c with ⟨result | i, c₁⟩
    · rfl
    · simp only
      split
      · rename_i hfinish
        subst i
        rfl
      · rw [run_bind, run_bind, ih]
        rcases (body fuel).run c₁ with ⟨_ | is, c₂⟩ <;> rfl

theorem run_listing (c : Cursor) :
    listing.run c = ((program.run c).1.map Program.listing, (program.run c).2) := by
  rw [listing, program, run_bind, run_bind]
  rcases header.run c with ⟨_ | h, c₁⟩
  · rfl
  · simp only
    rw [run_bind, run_bind]
    rcases remaining.run c₁ with ⟨_ | left, c₂⟩
    · rfl
    · simp only
      rw [run_bind, run_bind, run_bodyLines]
      rcases (body left).run c₂ with ⟨_ | is, c₃⟩ <;> rfl

end Reading

namespace Program

theorem disassemble_eq (code : Bytes) : disassemble code = (decode code).map listing := by
  rw [disassemble, decode, outcome_eq, outcome_eq, Reading.run_listing]

/-- A stream is listed if and only if it decodes, with the same fault if it does not; and its
listing assembles to the bytes that decoding consumed, which run through the first END of the
body. -/
theorem disassemble_reassembles (code : Bytes) :
    (∀ fault, disassemble code = .error fault ↔ decode code = .error fault) ∧
      ∀ text p, disassemble code = .ok text → decode code = .ok p →
        assemble text = .ok (consumed code) ∧ consumed code <+: code ∧
          ∃ before, p.body = before ++ [.finish] ∧ .finish ∉ before ∧ consumed code =
            p.header.encode ++ before.flatMap Instruction.encode ++ Instruction.finish.encode := by
  rw [disassemble_eq]
  constructor
  · intro fault
    cases decode code <;> simp [Except.map]
  · intro text p htext hp
    obtain ⟨hencodable, hstart⟩ := (decode_eq_ok_iff_starts _ _).1 hp
    obtain rfl : p.listing = text := by simpa [hp, Except.map] using htext
    rw [consumed_of_decode hp]
    refine ⟨assemble_listing p hencodable, hstart, ?_⟩
    obtain ⟨before, hbody, hnot⟩ := hencodable.ends
    exact ⟨before, hbody, hnot, by simp [encode, hbody]⟩

/-- A batched transfer without an event list, and a byte behind END that the listing does not
show. -/
theorem disassemble_reassembles_transfer :
    let p : Program := ⟨⟨1, 0, 2 ^ 31 - 1, []⟩,
      [.transfer (.streamOut true) 3 0 none (some ⟨2 ^ 63 - 1, 7⟩), .finish]⟩
    disassemble (p.encode ++ [255]) = .ok p.listing ∧ assemble p.listing = .ok p.encode := by
  intro p
  have hp : p.Encodable := by
    refine ⟨by simp [p, Header.InRange, maxIndex], ?_, ⟨p.body.dropLast, rfl, by simp [p]⟩⟩
    simp [p, Instruction.InRange, ListInRange, WindowInRange, maxIndex, maxExtent]
  have hdecode : decode (p.encode ++ [255]) = .ok p :=
    (decode_eq_ok_iff_starts _ _).2 ⟨hp, List.prefix_append _ _⟩
  have hlisting : disassemble (p.encode ++ [255]) = .ok p.listing := by
    rw [disassemble_eq, hdecode]
    rfl
  have h := (disassemble_reassembles (p.encode ++ [255])).2 p.listing p hlisting hdecode
  rw [consumed_of_decode hdecode] at h
  exact ⟨hlisting, h.1⟩

end Program

end Offload
