import Offload.Proofs.Listing

/-!
# The meaning of program text

A text that assembles says what its program is. The statements of a text are the words of its lines,
without comments and without lines that have no word; a statement is written for an item if its
first word is the mnemonic of the item in any letter case and each other word spells one of its
operands. Every statement of a text that assembles is written for one item in range, and the code is
the bytes of these items in order, so a text of the form of a program decodes to the program it is
written for.
-/

namespace Offload

variable {word : List Char}

namespace Numeral

/-- The integer that a word writes in decimal: digits, at least one, behind a sign or without
one. -/
inductive Spells : List Char → Int → Prop where
  | digits {ds : List Char} (hne : ds ≠ []) (hds : ∀ d ∈ ds, d.isDigit) :
    Spells ds (Nat.ofDigitChars 10 ds 0)
  | plus {ds : List Char} (hne : ds ≠ []) (hds : ∀ d ∈ ds, d.isDigit) :
    Spells ('+' :: ds) (Nat.ofDigitChars 10 ds 0)
  | minus {ds : List Char} (hne : ds ≠ []) (hds : ∀ d ∈ ds, d.isDigit) :
    Spells ('-' :: ds) (-(Nat.ofDigitChars 10 ds 0 : Int))

theorem natural?_eq_some {ds : List Char} {n : Nat} (h : natural? ds = some n) :
    ds ≠ [] ∧ (∀ d ∈ ds, d.isDigit) ∧ n = Nat.ofDigitChars 10 ds 0 := by
  unfold natural? at h
  split at h
  · rename_i hds
    simp only [Bool.and_eq_true, Bool.not_eq_true', List.isEmpty_eq_false_iff,
      List.all_eq_true] at hds
    exact ⟨hds.1, hds.2, (Option.some.inj h).symm⟩
  · cases h

theorem spells_of_integer? {n : Int} (h : integer? word = some n) : Spells word n := by
  unfold integer? at h
  split at h <;> simp only [Option.bind_eq_bind, Option.map_bind, Option.bind_eq_some_iff] at h <;>
    obtain ⟨k, hk, h⟩ := h <;>
    obtain ⟨hne, hds, rfl⟩ := natural?_eq_some hk <;>
    cases h
  · exact .minus hne hds
  · exact .plus hne hds
  · exact .digits hne hds

end Numeral

namespace Text

/-- The words of the lines of a text that have any: lines end at line feeds, a comment starts at
`#`, and words stand between blanks. -/
def statements (text : List Char) : List (List (List Char)) :=
  ((text.splitOnP (· == '\n')).map fun line =>
    ((line.takeWhile (· != '#')).splitOnP isBlank).filter (!·.isEmpty)).filter
      (!·.isEmpty)

theorem statements_eq (text : List Char) :
    statements text = ((lines text).map fun line => words (uncomment line)).filter
      (!·.isEmpty) := by
  simp [statements, lines, words, uncomment, split_eq_splitOnP]

end Text

/-- The first word of a statement is the mnemonic of an opcode, in any letter case. -/
def Opcode.Heads (op : Opcode) (statement : List (List Char)) : Prop :=
  statement.head?.map (List.map Char.toUpper) = some op.mnemonic.toList
  deriving Decidable

theorem Opcode.heads_of_ofMnemonic? {name : List Char} {op : Opcode}
    (h : ofMnemonic? name = some op) (ws : List (List Char)) : op.Heads (name :: ws) := by
  unfold ofMnemonic? at h
  have hname := List.find?_some h
  exact congrArg some (beq_iff_eq.1 hname).symm

theorem Opcode.mnemonic_injective {a b : Opcode} (h : a.mnemonic = b.mnemonic) : a = b := by
  have ha := ofMnemonic?_mnemonic a
  rw [h, ofMnemonic?_mnemonic] at ha
  exact (Option.some.inj ha).symm

/-- A statement has at most one mnemonic. -/
theorem Opcode.Heads.unique {a b : Opcode} {statement : List (List Char)} (ha : a.Heads statement)
    (hb : b.Heads statement) : a = b := by
  unfold Heads at ha hb
  rw [ha] at hb
  exact mnemonic_injective (String.toList_injective (Option.some.inj hb))

/-- One operand of a line of program text. -/
inductive Operand where
  | number (n : Int)
  | argument (a : Argument)

/-- How an operand is written: a number in decimal, an argument by the letter of its kind and its
index. -/
inductive Operand.SpelledBy : Operand → List Char → Prop where
  | number {n : Int} {word : List Char} : Numeral.Spells word n → SpelledBy (.number n) word
  | constant {i : Nat} {letter : Char} {word : List Char} : letter ∈ ['c', 'C'] →
    Numeral.Spells word i → SpelledBy (.argument (.constant i)) (letter :: word)
  | reference {i : Nat} {letter : Char} {word : List Char} : letter ∈ ['r', 'R'] →
    Numeral.Spells word i → SpelledBy (.argument (.reference i)) (letter :: word)

namespace Instruction

/-- The numbers of a window, if there is one. -/
def windowValues : Option Window → List Operand
  | none => []
  | some w => [.number w.offset, .number w.size]

/-- The operands of an instruction in the order of program text; no event list is minus one. -/
def values : Instruction → List Operand
  | .allocate object device window => [.number object, .number device] ++ windowValues window
  | .transfer _ object device events window =>
    [.number object, .number device, .number (listOperand events)] ++ windowValues window
  | .launch frame device task events window arguments =>
    [.number frame, .number device, .number task, .number (listOperand events)] ++
      windowValues window ++ arguments.map .argument
  | .addDep events => [.number events]
  | .barrier events => [.number (listOperand events)]
  | .finish => []

end Instruction

namespace Item

def opcode : Item → Opcode
  | .setup _ _ _ => .setup
  | .context _ => .context
  | .enter => .enter
  | .instruction i => i.opcode

/-- The operands of an item in the order of program text. -/
def values : Item → List Operand
  | .setup devices tasks eventLists => [.number devices, .number tasks, .number eventLists]
  | .context device => [.number device]
  | .enter => []
  | .instruction i => i.values

/-- What a stream can hold of an item. -/
def InRange : Item → Prop
  | .setup devices tasks eventLists =>
    devices ≤ maxIndex ∧ tasks ≤ maxIndex ∧ eventLists ≤ maxIndex
  | .context device => device ≤ maxIndex
  | .enter => True
  | .instruction i => i.InRange

/-- The statement names the opcode of the item and spells its operands, one word for each. -/
def WrittenAs (it : Item) (statement : List (List Char)) : Prop :=
  it.opcode.Heads statement ∧ List.Forall₂ Operand.SpelledBy it.values statement.tail

end Item

variable {it : Item}

namespace Assembly

open Numeral (Spells)

theorem bind_eq_ok {α β : Type} {x : Except LineProblem α} {f : α → Except LineProblem β} {b : β} :
    (x >>= f) = .ok b ↔ ∃ a, x = .ok a ∧ f a = .ok b := by
  cases x <;> simp [bind, Except.bind]

theorem spells_of_number {least most v : Int} (h : number least most word = .ok v) :
    Spells word v ∧ least ≤ v ∧ v ≤ most := by
  unfold number at h
  split at h
  · cases h
  · rename_i n hn
    split at h
    · cases h
    · obtain rfl : n = v := by simpa using h
      exact ⟨Numeral.spells_of_integer? (Option.filter_eq_some_iff.1 hn).1, by omega, by omega⟩

theorem toNat_le_maxIndex {v : Int} (h : v ≤ Numeral.greatest 32) : v.toNat ≤ maxIndex := by
  simp only [maxIndex, Numeral.greatest, Numeral.pow2] at *
  norm_num at *
  omega

theorem toNat_le_maxExtent {v : Int} (h : v ≤ Numeral.greatest 64) : v.toNat ≤ maxExtent := by
  simp only [maxExtent, Numeral.greatest, Numeral.pow2] at *
  norm_num at *
  omega

theorem index_eq_ok {n : Nat} (h : index word = .ok n) :
    Operand.SpelledBy (.number n) word ∧ n ≤ maxIndex := by
  unfold index at h
  obtain ⟨v, hv, h⟩ := bind_eq_ok.1 h
  obtain rfl : v.toNat = n := by simpa [pure, Except.pure] using h
  obtain ⟨hspells, hlow, hhigh⟩ := spells_of_number hv
  refine ⟨.number ?_, toNat_le_maxIndex hhigh⟩
  rwa [Int.toNat_of_nonneg hlow]

theorem eventList_eq_ok {events : Option Nat} (h : eventList word = .ok events) :
    Operand.SpelledBy (.number (Instruction.listOperand events)) word ∧ ListInRange events := by
  unfold eventList at h
  obtain ⟨v, hv, h⟩ := bind_eq_ok.1 h
  obtain ⟨hspells, hlow, hhigh⟩ := spells_of_number hv
  by_cases hnone : v = -1
  · obtain rfl : none = events := by simpa [pure, Except.pure, hnone] using h
    exact ⟨.number (by rwa [hnone] at hspells), by simp [ListInRange]⟩
  · obtain rfl : some v.toNat = events := by simpa [pure, Except.pure, hnone] using h
    refine ⟨.number ?_, by simpa [ListInRange] using toNat_le_maxIndex hhigh⟩
    rwa [Instruction.listOperand, Int.toNat_of_nonneg (by omega)]

theorem window_eq_ok {offset size : List Char} {w : Window} (h : window offset size = .ok w) :
    Operand.SpelledBy (.number w.offset) offset ∧ Operand.SpelledBy (.number w.size) size ∧
      WindowInRange (some w) := by
  unfold window at h
  obtain ⟨o, ho, h⟩ := bind_eq_ok.1 h
  obtain ⟨s, hs, h⟩ := bind_eq_ok.1 h
  obtain rfl : ⟨o.toNat, s.toNat⟩ = w := by simpa [pure, Except.pure] using h
  obtain ⟨hospells, holow, hohigh⟩ := spells_of_number ho
  obtain ⟨hsspells, hslow, hshigh⟩ := spells_of_number hs
  refine ⟨.number ?_, .number ?_, ?_⟩
  · rwa [Int.toNat_of_nonneg holow]
  · rwa [Int.toNat_of_nonneg hslow]
  · rintro - ⟨⟩
    exact ⟨toNat_le_maxExtent hohigh, toNat_le_maxExtent hshigh⟩

theorem spells_of_signed? {digits : List Char} {i : Int}
    (h : (Numeral.signed? 32 digits).filter (0 ≤ ·) = some i) :
    Spells digits i.toNat ∧ i.toNat ≤ maxIndex := by
  obtain ⟨hread, hlow⟩ := Option.filter_eq_some_iff.1 h
  obtain ⟨hinteger, hfits⟩ := Option.filter_eq_some_iff.1 hread
  simp only [Numeral.fits, Bool.and_eq_true, decide_eq_true_eq] at hfits hlow
  refine ⟨?_, toNat_le_maxIndex hfits.2⟩
  rw [Int.toNat_of_nonneg hlow]
  exact Numeral.spells_of_integer? hinteger

theorem argument_eq_ok {a : Argument} (h : argument word = .ok a) :
    Operand.SpelledBy (.argument a) word ∧ a.index ≤ maxIndex := by
  unfold argument at h
  dsimp only at h
  split at h <;> try split at h
  all_goals try cases h
  all_goals
    rename_i i hi
    obtain ⟨hspells, hrange⟩ := spells_of_signed? hi
  · exact ⟨.constant (by simp) hspells, hrange⟩
  · exact ⟨.constant (by simp) hspells, hrange⟩
  · exact ⟨.reference (by simp) hspells, hrange⟩
  · exact ⟨.reference (by simp) hspells, hrange⟩

theorem arguments_eq_ok {ws : List (List Char)} {as : List Argument} (h : arguments ws = .ok as) :
    List.Forall₂ Operand.SpelledBy (as.map .argument) ws ∧ (∀ a ∈ as, a.index ≤ maxIndex) ∧
      as.length = ws.length := by
  induction ws generalizing as with
  | nil =>
    obtain rfl : [] = as := by simpa [arguments] using h
    simp
  | cons w ws ih =>
    rw [arguments] at h
    obtain ⟨a, ha, h⟩ := bind_eq_ok.1 h
    obtain ⟨others, hothers, h⟩ := bind_eq_ok.1 h
    obtain rfl : a :: others = as := by simpa [pure, Except.pure] using h
    obtain ⟨hspelled, hrange⟩ := argument_eq_ok ha
    obtain ⟨hspelleds, hranges, hlength⟩ := ih hothers
    exact ⟨.cons hspelled hspelleds, by simpa using ⟨hrange, hranges⟩, congrArg (· + 1) hlength⟩

/-- The item of an opcode and its operands has that opcode and these operands. The number of a
launch's arguments is not written, so it has to be bounded by the number of words. -/
theorem item_eq_ok {name : String} {op : Opcode} {ws : List (List Char)}
    (h : item name op ws = .ok it) (hws : ws.length ≤ maxIndex) :
    it.opcode = op ∧ it.InRange ∧ List.Forall₂ Operand.SpelledBy it.values ws := by
  unfold item at h
  split at h
  case h_1 | h_3 =>
    cases h
    exact ⟨rfl, trivial, .nil⟩
  case h_5 | h_7 =>
    obtain ⟨n, hn, ⟨⟩⟩ := bind_eq_ok.1 h
    obtain ⟨hspelled, hrange⟩ := index_eq_ok hn
    exact ⟨rfl, hrange, .cons hspelled .nil⟩
  case h_9 =>
    obtain ⟨events, hl, ⟨⟩⟩ := bind_eq_ok.1 h
    obtain ⟨hspelled, hrange⟩ := eventList_eq_ok hl
    exact ⟨rfl, hrange, .cons hspelled .nil⟩
  case h_11 =>
    simp only [bind_eq_ok] at h
    obtain ⟨devices, hd, tasks, ht, eventLists, hl, ⟨⟩⟩ := h
    obtain ⟨hdspelled, hd⟩ := index_eq_ok hd
    obtain ⟨htspelled, ht⟩ := index_eq_ok ht
    obtain ⟨hlspelled, hl⟩ := index_eq_ok hl
    exact ⟨rfl, ⟨hd, ht, hl⟩, .cons hdspelled (.cons htspelled (.cons hlspelled .nil))⟩
  case h_13 =>
    simp only [bind_eq_ok] at h
    obtain ⟨object, ho, device, hd, ⟨⟩⟩ := h
    obtain ⟨hospelled, ho⟩ := index_eq_ok ho
    obtain ⟨hdspelled, hd⟩ := index_eq_ok hd
    exact ⟨rfl, ⟨ho, hd, by simp [WindowInRange]⟩, .cons hospelled (.cons hdspelled .nil)⟩
  case h_15 =>
    simp only [bind_eq_ok] at h
    obtain ⟨object, ho, device, hd, w, hw, ⟨⟩⟩ := h
    obtain ⟨hospelled, ho⟩ := index_eq_ok ho
    obtain ⟨hdspelled, hd⟩ := index_eq_ok hd
    obtain ⟨hoffset, hsize, hw⟩ := window_eq_ok hw
    exact ⟨rfl, ⟨ho, hd, hw⟩,
      .cons hospelled (.cons hdspelled (.cons hoffset (.cons hsize .nil)))⟩
  case h_17 =>
    simp only [bind_eq_ok] at h
    obtain ⟨object, ho, device, hd, events, hl, ⟨⟩⟩ := h
    obtain ⟨hospelled, ho⟩ := index_eq_ok ho
    obtain ⟨hdspelled, hd⟩ := index_eq_ok hd
    obtain ⟨hlspelled, hl⟩ := eventList_eq_ok hl
    exact ⟨rfl, ⟨ho, hd, hl, by simp [WindowInRange]⟩,
      .cons hospelled (.cons hdspelled (.cons hlspelled .nil))⟩
  case h_19 =>
    simp only [bind_eq_ok] at h
    obtain ⟨object, ho, device, hd, events, hl, w, hw, ⟨⟩⟩ := h
    obtain ⟨hospelled, ho⟩ := index_eq_ok ho
    obtain ⟨hdspelled, hd⟩ := index_eq_ok hd
    obtain ⟨hlspelled, hl⟩ := eventList_eq_ok hl
    obtain ⟨hoffset, hsize, hw⟩ := window_eq_ok hw
    exact ⟨rfl, ⟨ho, hd, hl, hw⟩,
      .cons hospelled (.cons hdspelled (.cons hlspelled (.cons hoffset (.cons hsize .nil))))⟩
  case h_21 =>
    simp only [bind_eq_ok] at h
    obtain ⟨frame, hf, device, hd, task, ht, events, hl, as, has, ⟨⟩⟩ := h
    obtain ⟨hfspelled, hf⟩ := index_eq_ok hf
    obtain ⟨hdspelled, hd⟩ := index_eq_ok hd
    obtain ⟨htspelled, ht⟩ := index_eq_ok ht
    obtain ⟨hlspelled, hl⟩ := eventList_eq_ok hl
    obtain ⟨haspelled, ha, hlength⟩ := arguments_eq_ok has
    have hcount : as.length ≤ maxIndex := by
      simp only [List.length_cons] at hws
      omega
    exact ⟨rfl, ⟨hf, hd, ht, hcount, hl, by simp [WindowInRange], ha⟩,
      .cons hfspelled (.cons hdspelled (.cons htspelled (.cons hlspelled haspelled)))⟩
  case h_23 =>
    simp only [bind_eq_ok] at h
    obtain ⟨frame, hf, device, hd, task, ht, events, hl, w, hw, as, has, ⟨⟩⟩ := h
    obtain ⟨hfspelled, hf⟩ := index_eq_ok hf
    obtain ⟨hdspelled, hd⟩ := index_eq_ok hd
    obtain ⟨htspelled, ht⟩ := index_eq_ok ht
    obtain ⟨hlspelled, hl⟩ := eventList_eq_ok hl
    obtain ⟨hoffset, hsize, hw⟩ := window_eq_ok hw
    obtain ⟨haspelled, ha, hlength⟩ := arguments_eq_ok has
    have hcount : as.length ≤ maxIndex := by
      simp only [List.length_cons] at hws
      omega
    exact ⟨rfl, ⟨hf, hd, ht, hcount, hl, hw, ha⟩, .cons hfspelled (.cons hdspelled
      (.cons htspelled (.cons hlspelled (.cons hoffset (.cons hsize haspelled)))))⟩
  all_goals cases h

/-- A line with words stands for the item that it is written for. -/
theorem line_eq_ok {text : List Char} {found : Option Item} (h : line text = .ok found)
    (hcount : (Text.words (Text.uncomment text)).length ≤ maxIndex + 1) :
    (Text.words (Text.uncomment text) = [] ∧ found = none) ∨
      ∃ it, found = some it ∧ it.InRange ∧ it.WrittenAs (Text.words (Text.uncomment text)) := by
  unfold line at h
  split at h
  · rename_i hnone
    cases h
    exact .inl ⟨hnone, rfl⟩
  · rename_i name ws hwords
    split at h
    · cases h
    · rename_i op hop
      rw [hwords] at hcount ⊢
      cases hitem : item (String.ofList name) op ws with
      | error problem => simp [hitem, Except.map] at h
      | ok it =>
        obtain rfl : some it = found := by simpa [hitem, Except.map] using h
        obtain ⟨rfl, hrange, hspelled⟩ := item_eq_ok hitem (by simpa using hcount)
        exact .inr ⟨it, rfl, hrange, Opcode.heads_of_ofMnemonic? hop ws, hspelled⟩

/-- Every statement of lines that assemble is written for an item in range, and the bytes of the
lines are those of the items. -/
theorem linesBytes_eq_ok {first : Nat} {texts : List (List Char)} {code : Bytes}
    (h : linesBytes first texts = .ok code)
    (hcount : ∀ text ∈ texts, (Text.words (Text.uncomment text)).length ≤ maxIndex + 1) :
    ∃ items : List Item, (∀ it ∈ items, it.InRange) ∧
      List.Forall₂ Item.WrittenAs items
        ((texts.map fun text => Text.words (Text.uncomment text)).filter (!·.isEmpty)) ∧
      code = items.flatMap Item.encode := by
  induction texts generalizing first code with
  | nil =>
    obtain rfl : [] = code := by simpa [linesBytes] using h
    exact ⟨[], by simp, by simp, rfl⟩
  | cons text texts ih =>
    simp only [List.mem_cons, forall_eq_or_imp] at hcount
    rw [linesBytes, lineBytes] at h
    cases hline : line text with
    | error problem => simp [hline, Except.map] at h
    | ok found =>
      cases hrest : linesBytes (first + 1) texts with
      | error fault => simp [hline, hrest, Except.map] at h
      | ok rest =>
        obtain ⟨items, hrange, hwritten, rfl⟩ := ih hrest hcount.2
        rcases line_eq_ok hline hcount.1 with ⟨hnone, rfl⟩ | ⟨it, rfl, hit, hwrite⟩
        · refine ⟨items, hrange, by simpa [hnone] using hwritten, ?_⟩
          simpa [hline, hrest, Except.map, eq_comm] using h
        · refine ⟨it :: items, by simpa using ⟨hit, hrange⟩, ?_, ?_⟩
          · have hsome : (Text.words (Text.uncomment text)).isEmpty = false := by
              cases hwords : Text.words (Text.uncomment text) with
              | nil => simp [hwords, Item.WrittenAs, Opcode.Heads] at hwrite
              | cons w ws => rfl
            simpa [hsome] using ⟨hwrite, hwritten⟩
          · simpa [hline, hrest, Except.map, eq_comm] using h

end Assembly

theorem assemble_eq_ok {text : String} {code : Bytes} (h : assemble text = .ok code)
    (hcount : ∀ statement ∈ Text.statements text.toList, statement.length ≤ maxIndex + 1) :
    ∃ items : List Item, (∀ it ∈ items, it.InRange) ∧
      List.Forall₂ Item.WrittenAs items (Text.statements text.toList) ∧
      code = items.flatMap Item.encode := by
  rw [Text.statements_eq] at hcount ⊢
  refine Assembly.linesBytes_eq_ok h fun line hline => ?_
  rcases hwords : Text.words (Text.uncomment line) with _ | ⟨w, ws⟩
  · simp
  · refine hcount _ (List.mem_filter.2 ⟨List.mem_map.2 ⟨line, hline, hwords⟩, rfl⟩)

variable {items : List Item}

namespace Item

theorem eq_setup_of_opcode (h : it.opcode = .setup) :
    ∃ devices tasks eventLists, it = .setup devices tasks eventLists := by
  cases it with
  | setup devices tasks eventLists => exact ⟨_, _, _, rfl⟩
  | instruction i => cases i <;> cases h
  | _ => cases h

theorem eq_context_of_opcode (h : it.opcode = .context) : ∃ device, it = .context device := by
  cases it with
  | context device => exact ⟨_, rfl⟩
  | instruction i => cases i <;> cases h
  | _ => cases h

theorem eq_enter_of_opcode (h : it.opcode = .enter) : it = .enter := by
  cases it with
  | enter => rfl
  | instruction i => cases i <;> cases h
  | _ => cases h

/-- The opcodes that stand before the body of a program. -/
def heading : List Opcode := [.setup, .context, .enter]

theorem eq_instruction_of_opcode (h : it.opcode ∉ heading) : ∃ i, it = .instruction i := by
  cases it with
  | instruction i => exact ⟨i, rfl⟩
  | _ => exact absurd (by simp [opcode, heading]) h

theorem exists_contexts {statements : List (List (List Char))}
    (h : List.Forall₂ WrittenAs items statements)
    (hcontext : ∀ statement ∈ statements, Opcode.context.Heads statement) :
    ∃ devices : List Nat, items = devices.map .context := by
  induction h with
  | nil => exact ⟨[], rfl⟩
  | cons hwritten _ ih =>
    simp only [List.mem_cons, forall_eq_or_imp] at hcontext
    obtain ⟨device, rfl⟩ := eq_context_of_opcode (hwritten.1.unique hcontext.1)
    obtain ⟨devices, rfl⟩ := ih hcontext.2
    exact ⟨device :: devices, rfl⟩

theorem exists_instructions {statements : List (List (List Char))}
    (h : List.Forall₂ WrittenAs items statements)
    (hbody : ∀ statement ∈ statements, ∀ op ∈ heading, ¬ op.Heads statement) :
    ∃ is : List Instruction, items = is.map .instruction := by
  induction h with
  | nil => exact ⟨[], rfl⟩
  | cons hwritten _ ih =>
    simp only [List.mem_cons, forall_eq_or_imp] at hbody
    obtain ⟨i, rfl⟩ := eq_instruction_of_opcode fun hop => hbody.1 _ hop hwritten.1
    obtain ⟨is, rfl⟩ := ih hbody.2
    exact ⟨i :: is, rfl⟩

end Item

theorem Instruction.opcode_eq_finish {i : Instruction} : i.opcode = .finish ↔ i = .finish := by
  cases i <;> simp [opcode]

/-- Items written for two lists of statements, one behind the other, are cut where the statements
are. -/
theorem Item.exists_append {front back : List (List (List Char))}
    (h : List.Forall₂ WrittenAs items (front ++ back)) :
    ∃ before after, items = before ++ after ∧ List.Forall₂ WrittenAs before front ∧
      List.Forall₂ WrittenAs after back :=
  ⟨_, _, (List.take_append_drop front.length items).symm, List.forall₂_take_append _ _ _ h,
    List.forall₂_drop_append _ _ _ h⟩

/-- The items of SETUP, of CONTEXT lines and of BEGIN are a header. -/
theorem Header.exists_of_written {setup enter : List (List Char)}
    {contexts : List (List (List Char))} (hrange : ∀ it ∈ items, it.InRange)
    (h : List.Forall₂ Item.WrittenAs items (setup :: contexts ++ [enter]))
    (hsetup : Opcode.setup.Heads setup) (hcontexts : ∀ line ∈ contexts, Opcode.context.Heads line)
    (henter : Opcode.enter.Heads enter) :
    ∃ header : Header, header.InRange ∧ items.flatMap Item.encode = header.encode ∧
      (Item.setup header.devices header.tasks header.eventLists).WrittenAs setup ∧
      List.Forall₂ (fun device => (Item.context device).WrittenAs) header.contexts contexts := by
  obtain ⟨heads, enters, rfl, hheads, henters⟩ := Item.exists_append h
  obtain ⟨first, cs, hfirst, hcs, rfl⟩ := List.forall₂_cons_right_iff.1 hheads
  obtain ⟨e, es, he, hes, rfl⟩ := List.forall₂_cons_right_iff.1 henters
  obtain rfl := List.forall₂_nil_right_iff.1 hes
  obtain ⟨devices, tasks, eventLists, rfl⟩ := Item.eq_setup_of_opcode (hfirst.1.unique hsetup)
  obtain rfl := Item.eq_enter_of_opcode (he.1.unique henter)
  obtain ⟨loads, rfl⟩ := Item.exists_contexts hcs hcontexts
  simp only [List.cons_append, List.mem_cons, List.mem_append, List.mem_map] at hrange
  refine ⟨⟨devices, tasks, eventLists, loads⟩, ?_, ?_, hfirst, List.forall₂_map_left_iff.1 hcs⟩
  · obtain ⟨hd, ht, hl⟩ := hrange _ (.inl rfl)
    exact ⟨hd, ht, hl, fun device hdevice => hrange _ (.inr (.inl ⟨device, hdevice, rfl⟩))⟩
  · simp [Header.encode, Item.encode, List.flatMap_map]

/-- The instruction of a line is END if and only if the line says so. -/
theorem Instruction.eq_finish_iff {i : Instruction} {line : List (List Char)}
    (h : (Item.instruction i).WrittenAs line) : i = .finish ↔ Opcode.finish.Heads line := by
  rw [← opcode_eq_finish]
  exact ⟨fun hop => hop ▸ h.1, fun hop => h.1.unique hop⟩

variable {last : List (List Char)}

theorem endsOnce_of_written {is : List Instruction} {before : List (List (List Char))}
    (h : List.Forall₂ (fun i => (Item.instruction i).WrittenAs) is (before ++ [last]))
    (hbefore : ∀ line ∈ before, ¬ Opcode.finish.Heads line) (hlast : Opcode.finish.Heads last) :
    EndsOnce is := by
  induction before generalizing is with
  | nil =>
    obtain ⟨i, is, hi, his, rfl⟩ := List.forall₂_cons_right_iff.1 h
    obtain rfl := List.forall₂_nil_right_iff.1 his
    exact (endsOnce_cons _ _).2 (.inl ⟨(Instruction.eq_finish_iff hi).2 hlast, rfl⟩)
  | cons line before ih =>
    simp only [List.mem_cons, forall_eq_or_imp] at hbefore
    obtain ⟨i, is, hi, his, rfl⟩ := List.forall₂_cons_right_iff.1 h
    exact (endsOnce_cons _ _).2
      (.inr ⟨fun hfinish => hbefore.1 ((Instruction.eq_finish_iff hi).1 hfinish), ih his hbefore.2⟩)

/-- The items of lines up to the first END are a body. -/
theorem Instruction.exists_of_written {before : List (List (List Char))}
    (hrange : ∀ it ∈ items, it.InRange) (h : List.Forall₂ Item.WrittenAs items (before ++ [last]))
    (hbody : ∀ line ∈ before ++ [last], ∀ op ∈ Item.heading, ¬ op.Heads line)
    (hbefore : ∀ line ∈ before, ¬ Opcode.finish.Heads line) (hlast : Opcode.finish.Heads last) :
    ∃ is : List Instruction, EndsOnce is ∧ (∀ i ∈ is, i.InRange) ∧
      items.flatMap Item.encode = is.flatMap Instruction.encode ∧
      List.Forall₂ (fun i => (Item.instruction i).WrittenAs) is (before ++ [last]) := by
  obtain ⟨is, rfl⟩ := Item.exists_instructions h hbody
  have hwritten := List.forall₂_map_left_iff.1 h
  exact ⟨is, endsOnce_of_written hwritten hbefore hlast, fun i hi =>
    hrange _ (List.mem_map_of_mem hi), by simp [List.flatMap_map, Item.encode], hwritten⟩

namespace Program

/-- A text that assembles decodes to the program it is written for. Its statements are SETUP,
CONTEXT lines, BEGIN and a body; the header has the numbers written on the first of them, and the
body one instruction for each line up to the first END, of the opcode that the line names and with
the operands that it spells. -/
theorem decode_assembled {text : String} {code : Bytes} {setup enter : List (List Char)}
    {contexts body : List (List (List Char))} (hcode : assemble text = .ok code)
    (htext : Text.statements text.toList = setup :: contexts ++ enter :: body)
    (hsetup : Opcode.setup.Heads setup) (hcontexts : ∀ line ∈ contexts, Opcode.context.Heads line)
    (henter : Opcode.enter.Heads enter)
    (hbody : ∀ line ∈ body, ∀ op ∈ Item.heading, ¬ op.Heads line)
    (hend : ∃ line ∈ body, Opcode.finish.Heads line)
    (hcount : ∀ line ∈ Text.statements text.toList, line.tail.length < 2 ^ 31) :
    ∃ p, decode code = .ok p ∧
      (Item.setup p.header.devices p.header.tasks p.header.eventLists).WrittenAs setup ∧
      List.Forall₂ (fun device => (Item.context device).WrittenAs) p.header.contexts contexts ∧
      ∃ before last after, body = before ++ last :: after ∧ Opcode.finish.Heads last ∧
        (∀ line ∈ before, ¬ Opcode.finish.Heads line) ∧
        List.Forall₂ (fun i => (Item.instruction i).WrittenAs) p.body (before ++ [last]) := by
  obtain ⟨items, hrange, hwritten, rfl⟩ := assemble_eq_ok hcode fun line hline => by
    have := hcount line hline
    rw [List.length_tail] at this
    simp only [maxIndex]
    omega
  obtain ⟨last, hfind⟩ := Option.isSome_iff_exists.1
    (List.find?_isSome.2 (by simpa using hend) : (body.find? (Opcode.finish.Heads ·)).isSome)
  obtain ⟨hlast, before, after, rfl, hbefore⟩ := List.find?_eq_some_iff_append.1 hfind
  simp only [decide_eq_true_eq, Bool.not_eq_true', decide_eq_false_iff_not] at hlast hbefore
  rw [htext] at hwritten
  rw [show setup :: contexts ++ enter :: (before ++ last :: after) =
    (setup :: contexts ++ [enter]) ++ ((before ++ [last]) ++ after) by simp] at hwritten
  obtain ⟨heads, others, rfl, hheads, hothers⟩ := Item.exists_append hwritten
  obtain ⟨bodies, rest, rfl, hbodies, -⟩ := Item.exists_append hothers
  obtain ⟨header, hheader, hencode, hsetup, hcontexts⟩ := Header.exists_of_written
    (fun it hit => hrange it (by simp [hit])) hheads hsetup hcontexts henter
  obtain ⟨is, hends, his, hbytes, hinstructions⟩ := Instruction.exists_of_written
    (fun it hit => hrange it (by simp [hit])) hbodies
    (fun line hline => hbody line (by simpa using Or.imp_right Or.inl (by simpa using hline)))
    hbefore hlast
  refine ⟨⟨header, is⟩, (decode_eq_ok_iff_starts _ _).2 ⟨⟨hheader, his, hends⟩, ?_⟩,
    hsetup, hcontexts, before, last, after, rfl, hlast, hbefore, hinstructions⟩
  simp [encode, hencode, hbytes]

/-- A text with comments, blank lines, signs, leading zeros, letters in both cases and a line behind
END. -/
def sampleText : String :=
  "# one device\n\n setup 1 +1 0\nCONTEXT\t0 # load it\nBegin\n  Launch 00 0 -0 -1 C0 r+01\nEnd\nBARRIER 3"

theorem decode_assembled_sample :
    ∃ code p, assemble sampleText = .ok code ∧ decode code = .ok p ∧
      (Item.setup p.header.devices p.header.tasks p.header.eventLists).WrittenAs
        (["setup", "1", "+1", "0"].map String.toList) ∧
      List.Forall₂ (fun i => (Item.instruction i).WrittenAs) p.body
        ([["Launch", "00", "0", "-0", "-1", "C0", "r+01"], ["End"]].map
          (List.map String.toList)) := by
  let body := [["Launch", "00", "0", "-0", "-1", "C0", "r+01"], ["End"], ["BARRIER", "3"]].map
    (List.map String.toList)
  have hsome : (assemble sampleText).toOption.isSome = true := by decide +kernel
  obtain ⟨code, hcode⟩ : ∃ code, assemble sampleText = .ok code := by
    cases h : assemble sampleText with
    | error fault => simp [h, Except.toOption] at hsome
    | ok code => exact ⟨code, rfl⟩
  have htext : Text.statements sampleText.toList =
      ["setup", "1", "+1", "0"].map String.toList :: [["CONTEXT", "0"].map String.toList] ++
        ["Begin"].map String.toList :: body := by decide +kernel
  obtain ⟨p, hp, hsetup, -, before, last, after, hbody, hlast, hbefore, hwritten⟩ :=
    decode_assembled hcode htext (by decide +kernel) (by decide +kernel) (by decide +kernel)
      (by decide +kernel) (by decide +kernel) (by rw [htext]; decide +kernel)
  refine ⟨code, p, hcode, hp, hsetup, ?_⟩
  -- The first END is the second line of the body.
  rcases before with _ | ⟨first, _ | ⟨second, before⟩⟩
  · obtain ⟨rfl, -⟩ := List.cons.inj hbody
    exact absurd hlast (by decide +kernel)
  · obtain ⟨rfl, hrest⟩ := List.cons.inj hbody
    cases hrest
    exact hwritten
  · obtain ⟨rfl, hrest⟩ := List.cons.inj hbody
    obtain ⟨rfl, -⟩ := List.cons.inj hrest
    exact absurd (by decide +kernel) (hbefore _ (.tail _ (.head _)))

end Program

end Offload
