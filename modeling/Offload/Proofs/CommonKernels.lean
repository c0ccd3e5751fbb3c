import Offload.Proofs.Mirrors
import Offload.Proofs.Workpiece

/-!
# What the common kernels compute

The kernels that every device knows work on the words of their buffers, one by one. A call has what
it needs or it fails, and then it has changed nothing. Otherwise each word of the output is computed
from the words that stand at the same index of the buffers before the call, as far as all of these
buffers have a whole word there, and all other bytes stay as they are. The arguments may name one
buffer more than once, and the buffers may be of any lengths.

The kernels are given by what they come to. Here they are also given as programs, one look or write
after the other, which keep what they have written when they fail; the two are the same.
-/

namespace Offload

variable {bytes : Bytes} {ws : List UInt32} {v : Invocation}

/-! ## Words of byte strings -/

namespace Bytes

/-- The word of an index: its four bytes, the lowest first. There is none where the bytes end before
it does. -/
def word? (bytes : Bytes) (i : Nat) : Option UInt32 :=
  if 4 * i + 4 ≤ bytes.length then some
    (UInt32.ofNat (toNat ((bytes.drop (4 * i)).take 4))) else none

theorem word?_zero (a b c d : UInt8) (rest : Bytes) :
    word? (a :: b :: c :: d :: rest) 0 = some (UInt32.ofNat (toNat [a, b, c, d])) := by
  simp [word?]

theorem word?_succ (a b c d : UInt8) (rest : Bytes) (i : Nat) :
    word? (a :: b :: c :: d :: rest) (i + 1) = word? rest i := by
  have hdrop : (a :: b :: c :: d :: rest).drop (4 * (i + 1)) = rest.drop (4 * i) := rfl
  have hfits : 4 * (i + 1) + 4 ≤ (a :: b :: c :: d :: rest).length ↔ 4 * i + 4 ≤ rest.length := by
    simp only [List.length_cons]
    omega
  rw [word?, word?, hdrop]
  simp only [hfits]

theorem length_lt_of_short (h : ∀ a b c d rest, bytes = a :: b :: c :: d :: rest → False) :
    bytes.length < 4 := by
  rcases bytes with _ | ⟨a, _ | ⟨b, _ | ⟨c, _ | ⟨d, rest⟩⟩⟩⟩
  · simp
  · simp
  · simp
  · simp
  · exact (h a b c d rest rfl).elim

theorem word?_eq_none_of_short (h : bytes.length < 4) (i : Nat) : bytes.word? i = none := by
  rw [word?, if_neg (by omega)]

theorem getElem?_toWords (bytes : Bytes) (i : Nat) : (toWords bytes)[i]? = bytes.word? i := by
  fun_induction toWords bytes generalizing i with
  | case1 a b c d rest ih =>
    cases i with
    | zero => rw [word?_zero, List.getElem?_cons_zero]
    | succ i => rw [word?_succ, List.getElem?_cons_succ, ih]
  | case2 bytes hshort =>
    rw [word?_eq_none_of_short (length_lt_of_short hshort)]
    rfl

theorem word?_ofWord_append_zero (w : UInt32) (rest : Bytes) :
    word? (ofWord w ++ rest) 0 = some w := by
  rw [← getElem?_toWords, toWords_ofWord_append, List.getElem?_cons_zero]

theorem word?_ofWord_append_succ (w : UInt32) (rest : Bytes) (i : Nat) :
    word? (ofWord w ++ rest) (i + 1) = word? rest i := by
  rw [← getElem?_toWords, toWords_ofWord_append, List.getElem?_cons_succ, getElem?_toWords]

/-- The words that are set are those of the indices that both sides have. -/
theorem word?_setWords (bytes : Bytes) (ws : List UInt32) (i : Nat) :
    (setWords bytes ws).word? i = (bytes.word? i).map fun w => ws[i]?.getD w := by
  fun_induction setWords bytes ws generalizing i with
  | case1 a b c d rest w ws ih =>
    cases i with
    | zero => simp [word?_ofWord_append_zero, word?_zero]
    | succ i => rw [word?_ofWord_append_succ, ih, word?_succ, List.getElem?_cons_succ]
  | case2 bytes ws hdone =>
    -- One side is at its end: there is no word to set, or none to set it to.
    cases ws with
    | nil => simp
    | cons w ws =>
      have hshort := length_lt_of_short fun a b c d rest h => hdone a b c d rest w ws h rfl
      rw [word?_eq_none_of_short hshort]
      rfl

/-- A byte stays unless the word that it is part of is set. -/
theorem getElem?_setWords_of_none {j : Nat} (h : ws[j / 4]? = none ∨ bytes.word? (j / 4) = none) :
    (setWords bytes ws)[j]? = bytes[j]? := by
  fun_induction setWords bytes ws generalizing j with
  | case1 a b c d rest w ws ih =>
    have hfour : ∀ w : UInt32, (ofWord w).length = 4 := length_ofWord
    rcases Nat.lt_or_ge j 4 with hj | hj
    · rw [Nat.div_eq_of_lt hj, word?_zero] at h
      simp at h
    · obtain ⟨j, rfl⟩ := Nat.exists_eq_add_of_le' hj
      have hindex : (j + 4) / 4 = j / 4 + 1 := by omega
      rw [hindex, word?_succ, List.getElem?_cons_succ] at h
      rw [List.getElem?_append_right (by rw [hfour]; omega), hfour, Nat.add_sub_cancel, ih h]
      rfl
  | case2 => rfl

theorem overwrite_zero (bytes src : Bytes) :
    overwrite bytes 0 src = src.take bytes.length ++ bytes.drop src.length := by
  rw [overwrite, List.take_zero, List.nil_append, Nat.sub_zero, Nat.zero_add]

theorem overwrite_ofWord_append (a b c d : UInt8) (rest : Bytes) (w : UInt32) (src : Bytes) :
    overwrite (a :: b :: c :: d :: rest) 0 (ofWord w ++ src) = ofWord w ++
      overwrite rest 0 src := by
  rw [overwrite_zero, overwrite_zero]
  rfl

/-- Setting words is overwriting with the bytes of as many as there is room for. -/
theorem setWords_eq_overwrite (bytes : Bytes) (ws : List UInt32) :
    setWords bytes ws = overwrite bytes 0 (ofWords (ws.take (bytes.length / 4))) := by
  fun_induction setWords bytes ws with
  | case1 a b c d rest w ws ih =>
    have hroom : (a :: b :: c :: d :: rest).length / 4 = rest.length / 4 + 1 := by
      simp only [List.length_cons]
      omega
    have hwords : ofWords (w :: ws.take (rest.length / 4)) = ofWord w ++
        ofWords (ws.take (rest.length / 4)) :=
      List.flatMap_cons
    rw [ih, hroom, List.take_succ_cons, hwords, overwrite_ofWord_append]
  | case2 bytes ws hdone =>
    have hnone : ws.take (bytes.length / 4) = [] := by
      cases ws with
      | nil => exact List.take_nil
      | cons w ws =>
        have hshort := length_lt_of_short fun a b c d rest h => hdone a b c d rest w ws h rfl
        rw [Nat.div_eq_of_lt hshort, List.take_zero]
    rw [hnone, overwrite_zero]
    simp [ofWords]

end Bytes

/-! ## Calls -/

namespace Invocation

theorem bind_eq_ok {α β : Type} {x : Except DeviceFault α} {f : α → Except DeviceFault β} {b : β} :
    (x >>= f) = .ok b ↔ ∃ a, x = .ok a ∧ f a = .ok b := by
  cases x <;> simp [bind, Except.bind]

variable {index : Nat} {value : Scalar}

/-- The bytes of the live buffer that an argument names. -/
def contents? (v : Invocation) (index : Nat) : Option Bytes :=
  match v.arguments[index]? with
  | some (.buffer id) => v.memory.get? id
  | some (.scalar _) | none => none

/-- The constant that an argument is. -/
def constant? (v : Invocation) (index : Nat) : Option Scalar :=
  match v.arguments[index]? with
  | some (.scalar value) => some value
  | some (.buffer _) | none => none

/-- A word of the buffer that an argument names. -/
def word? (v : Invocation) (index i : Nat) : Option UInt32 := (v.contents? index).bind fun bytes =>
      bytes.word? i

theorem contents?_eq_some : v.contents? index = some bytes ↔
    ∃ id, v.arguments[index]? = some (.buffer id) ∧ v.memory.get? id = some bytes := by
  unfold contents?
  split <;> simp_all

theorem constant?_eq_some :
    v.constant? index = some value ↔ v.arguments[index]? = some (.scalar value) := by
  unfold constant?
  split <;> simp_all

theorem expect_eq_ok {n : Nat} : v.expect n = .ok () ↔ n ≤ v.arguments.length := by
  unfold expect
  split <;> simp_all

theorem lt_length_of_contents? (h : v.contents? index = some bytes) :
    index < v.arguments.length := by
  obtain ⟨id, hid, -⟩ := contents?_eq_some.1 h
  exact (List.getElem?_eq_some_iff.1 hid).1

theorem lt_length_of_constant? (h : v.constant? index = some value) : index < v.arguments.length :=
  (List.getElem?_eq_some_iff.1 (constant?_eq_some.1 h)).1

theorem scalar_eq_ok : v.scalar index = .ok value ↔ v.constant? index = some value := by
  unfold scalar constant?
  split <;> simp_all

theorem buffer_eq_ok {id : BufferId} :
    v.buffer index = .ok id ↔ v.arguments[index]? = some (.buffer id) := by
  unfold buffer
  split <;> simp_all

theorem bytes_eq_ok : v.bytes index = .ok bytes ↔ v.contents? index = some bytes := by
  rw [Invocation.bytes, bind_eq_ok, contents?_eq_some]
  refine exists_congr fun id => and_congr buffer_eq_ok ?_
  cases v.memory.get? id with
  | none => simp [throw, throwThe, MonadExceptOf.throw]
  | some old => simp [pure, Except.pure]

theorem words_eq_ok :
    v.words index = .ok ws ↔ ∃ bytes, v.contents? index = some bytes ∧
      ws = Bytes.toWords bytes := by
  rw [words, bind_eq_ok]
  refine exists_congr fun bytes => and_congr bytes_eq_ok ?_
  exact ⟨fun h => (Except.ok.inj h).symm, fun h => congrArg _ h.symm⟩

theorem writeWords_eq_ok {m : Memory} :
    v.writeWords index ws = .ok m ↔ ∃ id bytes, v.arguments[index]? = some (.buffer id) ∧
      v.memory.get? id = some bytes ∧ m = v.memory.set id (Bytes.setWords bytes ws) := by
  rw [writeWords, update, bind_eq_ok]
  refine exists_congr fun id => ?_
  rw [buffer_eq_ok, exists_and_left]
  refine and_congr_right fun _ => ?_
  cases v.memory.get? id with
  | none => simp [throw, throwThe, MonadExceptOf.throw]
  | some old => simp [pure, Except.pure, eq_comm]

theorem getElem?_words (h : v.contents? index = some bytes) (i : Nat) :
    (Bytes.toWords bytes)[i]? = v.word? index i := by
  rw [word?, h, Option.bind_some, Bytes.getElem?_toWords]

end Invocation

/-! ## Elements -/

theorem getElem?_zipWith_eq_map₂ {α β γ : Type} (f : α → β → γ) (as : List α)
    (bs : List β) (i : Nat) :
    (List.zipWith f as bs)[i]? = Option.map₂ f as[i]? bs[i]? := by
  rw [List.getElem?_zipWith']
  cases as[i]? <;> rfl

namespace Kernel

variable {k : Kernel} {output : Nat} {m : Memory}

/-- The arguments that have to be buffers. -/
def buffers : Kernel → List Nat
  | .addOne | .scale => [0]
  | .vectorAdd => [0, 1, 2]
  | .saxpy => [1, 2]
  | .custom _ => []

/-- The argument that has to be a constant. -/
def constants : Kernel → List Nat
  | .scale => [1]
  | .saxpy => [0]
  | .addOne | .vectorAdd | .custom _ => []

/-- A call has the buffers and the constants that the kernel works on. -/
structure Takes (k : Kernel) (v : Invocation) : Prop where
  buffers : ∀ index ∈ k.buffers, (v.contents? index).isSome = true
  constants : ∀ index ∈ k.constants, (v.constant? index).isSome = true

/-- The word that a common kernel computes for an index, from the words that stand there before the
call. -/
def element? (k : Kernel) (v : Invocation) (i : Nat) : Option UInt32 :=
  match k with
  | .addOne => (v.word? 0 i).map (· + 1)
  | .vectorAdd => Option.map₂ (· + ·) (v.word? 0 i) (v.word? 1 i)
  | .scale => (v.constant? 1).bind fun factor => (v.word? 0 i).map (mulSingle · factor.toF32)
  | .saxpy => (v.constant? 0).bind fun alpha =>
      Option.map₂ (fun x y => addSingle (mulSingle alpha.toF32 x) y) (v.word? 1 i) (v.word? 2 i)
  | .custom _ => none

/-- A call that has what it needs comes to a write of the words that are computed. -/
theorem Takes.run_eq (h : k.Takes v) (houtput : k.output? = some output) :
    ∃ ws, (∀ i, ws[i]? = k.element? v i) ∧ k.run v = v.writeWords output ws := by
  have hbuffer : ∀ index ∈ k.buffers, ∃ bytes, v.contents? index = some bytes := fun index hindex =>
    Option.isSome_iff_exists.1 (h.buffers index hindex)
  have hwords : ∀ {index bytes}, v.contents? index = some bytes →
      v.words index = .ok (Bytes.toWords bytes) :=
    fun hbytes => Invocation.words_eq_ok.2 ⟨_, hbytes, rfl⟩
  cases k with
  | addOne =>
    cases houtput
    obtain ⟨a, ha⟩ := hbuffer 0 (by decide)
    have hexpect := Invocation.expect_eq_ok.2 (Invocation.lt_length_of_contents? ha)
    refine ⟨(Bytes.toWords a).map (· + 1), fun i => ?_, ?_⟩
    · rw [List.getElem?_map, Invocation.getElem?_words ha, element?]
    · simp only [run, hexpect, hwords ha, bind, Except.bind]
  | vectorAdd =>
    cases houtput
    obtain ⟨a, ha⟩ := hbuffer 0 (by decide)
    obtain ⟨b, hb⟩ := hbuffer 1 (by decide)
    obtain ⟨c, hc⟩ := hbuffer 2 (by decide)
    have hexpect := Invocation.expect_eq_ok.2 (Invocation.lt_length_of_contents? hc)
    refine ⟨List.zipWith (· + ·) (Bytes.toWords a) (Bytes.toWords b), fun i => ?_, ?_⟩
    · rw [getElem?_zipWith_eq_map₂, Invocation.getElem?_words ha, Invocation.getElem?_words hb,
        element?]
    · simp only [run, hexpect, hwords ha, hwords hb, bind, Except.bind]
  | scale =>
    cases houtput
    obtain ⟨x, hx⟩ := hbuffer 0 (by decide)
    obtain ⟨factor, hfactor⟩ := Option.isSome_iff_exists.1 (h.constants 1 (by decide))
    have hexpect := Invocation.expect_eq_ok.2 (Invocation.lt_length_of_constant? hfactor)
    refine ⟨(Bytes.toWords x).map (mulSingle · factor.toF32), fun i => ?_, ?_⟩
    · rw [List.getElem?_map, Invocation.getElem?_words hx, element?, hfactor, Option.bind_some]
    · simp only [run, hexpect, Invocation.scalar_eq_ok.2 hfactor, hwords hx, bind, Except.bind]
  | saxpy =>
    cases houtput
    obtain ⟨x, hx⟩ := hbuffer 1 (by decide)
    obtain ⟨y, hy⟩ := hbuffer 2 (by decide)
    obtain ⟨alpha, halpha⟩ := Option.isSome_iff_exists.1 (h.constants 0 (by decide))
    have hexpect := Invocation.expect_eq_ok.2 (Invocation.lt_length_of_contents? hy)
    refine ⟨List.zipWith (fun x y => addSingle (mulSingle alpha.toF32 x) y) (Bytes.toWords x)
      (Bytes.toWords y), fun i => ?_, ?_⟩
    · rw [getElem?_zipWith_eq_map₂, Invocation.getElem?_words hx, Invocation.getElem?_words hy,
        element?, halpha, Option.bind_some]
    · simp only [run, hexpect, Invocation.scalar_eq_ok.2 halpha, hwords hx, hwords hy, bind,
        Except.bind]
  | custom program => cases houtput

/-- A call that ends well has what it needs. -/
theorem takes_of_run (houtput : k.output? = some output) (h : k.run v = .ok m) : k.Takes v := by
  have hwords : ∀ {index ws}, v.words index = .ok ws → (v.contents? index).isSome = true := by
    intro index ws hws
    obtain ⟨bytes, hbytes, -⟩ := Invocation.words_eq_ok.1 hws
    rw [hbytes, Option.isSome_some]
  have hwrites : ∀ {index ws}, v.writeWords index ws = .ok m →
      (v.contents? index).isSome = true := by
    intro index ws hws
    obtain ⟨id, bytes, hid, hbytes, -⟩ := Invocation.writeWords_eq_ok.1 hws
    rw [Invocation.contents?_eq_some.2 ⟨id, hid, hbytes⟩, Option.isSome_some]
  have hscalar : ∀ {index value}, v.scalar index = .ok value →
      (v.constant? index).isSome = true := by
    intro index value hvalue
    rw [Invocation.scalar_eq_ok.1 hvalue, Option.isSome_some]
  cases k with
  | addOne =>
    obtain ⟨-, -, h⟩ := Invocation.bind_eq_ok.1 h
    obtain ⟨a, ha, -⟩ := Invocation.bind_eq_ok.1 h
    exact ⟨by simpa [buffers] using hwords ha, by simp [constants]⟩
  | vectorAdd =>
    obtain ⟨-, -, h⟩ := Invocation.bind_eq_ok.1 h
    obtain ⟨a, ha, h⟩ := Invocation.bind_eq_ok.1 h
    obtain ⟨b, hb, h⟩ := Invocation.bind_eq_ok.1 h
    exact ⟨by simpa [buffers] using ⟨hwords ha, hwords hb, hwrites h⟩, by simp [constants]⟩
  | scale =>
    obtain ⟨-, -, h⟩ := Invocation.bind_eq_ok.1 h
    obtain ⟨factor, hfactor, h⟩ := Invocation.bind_eq_ok.1 h
    obtain ⟨x, hx, -⟩ := Invocation.bind_eq_ok.1 h
    exact ⟨by simpa [buffers] using hwords hx, by simpa [constants] using hscalar hfactor⟩
  | saxpy =>
    obtain ⟨-, -, h⟩ := Invocation.bind_eq_ok.1 h
    obtain ⟨alpha, halpha, h⟩ := Invocation.bind_eq_ok.1 h
    obtain ⟨x, hx, h⟩ := Invocation.bind_eq_ok.1 h
    obtain ⟨y, hy, -⟩ := Invocation.bind_eq_ok.1 h
    exact ⟨by simpa [buffers] using ⟨hwords hx, hwords hy⟩,
      by simpa [constants] using hscalar halpha⟩
  | custom program => cases houtput

/-- Where all buffers have a word, one is computed. -/
theorem Takes.isSome_element? (h : k.Takes v) (houtput : k.output? = some output) {i : Nat}
    (hwords : ∀ index ∈ k.buffers, (v.word? index i).isSome = true) :
    (k.element? v i).isSome = true := by
  have hword : ∀ index ∈ k.buffers, ∃ w, v.word? index i = some w := fun index hindex =>
    Option.isSome_iff_exists.1 (hwords index hindex)
  have hconstant : ∀ index ∈ k.constants, ∃ value, v.constant? index = some value :=
    fun index hindex => Option.isSome_iff_exists.1 (h.constants index hindex)
  cases k with
  | addOne =>
    obtain ⟨a, ha⟩ := hword 0 (by decide)
    simp [element?, ha]
  | vectorAdd =>
    obtain ⟨a, ha⟩ := hword 0 (by decide)
    obtain ⟨b, hb⟩ := hword 1 (by decide)
    simp [element?, ha, hb]
  | scale =>
    obtain ⟨x, hx⟩ := hword 0 (by decide)
    obtain ⟨factor, hfactor⟩ := hconstant 1 (by decide)
    simp [element?, hx, hfactor]
  | saxpy =>
    obtain ⟨x, hx⟩ := hword 1 (by decide)
    obtain ⟨y, hy⟩ := hword 2 (by decide)
    obtain ⟨alpha, halpha⟩ := hconstant 0 (by decide)
    simp [element?, hx, hy, halpha]
  | custom program => cases houtput

/-- Where a buffer has no word, none is computed or there is no room for it. -/
theorem element?_eq_none_or (houtput : k.output? = some output) {i : Nat}
    (hnone : ∃ index ∈ k.buffers, v.word? index i = none) :
    k.element? v i = none ∨ v.word? output i = none := by
  obtain ⟨index, hindex, hword⟩ := hnone
  cases k with
  | addOne =>
    cases houtput
    obtain rfl := List.mem_singleton.1 hindex
    exact .inr hword
  | vectorAdd =>
    cases houtput
    simp only [buffers, List.mem_cons, List.not_mem_nil, or_false] at hindex
    rcases hindex with rfl | rfl | rfl
    · exact .inl (by simp [element?, hword])
    · exact .inl (by simp [element?, hword])
    · exact .inr hword
  | scale =>
    cases houtput
    obtain rfl := List.mem_singleton.1 hindex
    exact .inr hword
  | saxpy =>
    cases houtput
    simp only [buffers, List.mem_cons, List.not_mem_nil, or_false] at hindex
    rcases hindex with rfl | rfl
    · exact .inl (by simp [element?, hword])
    · exact .inr hword
  | custom program => cases houtput

/-- A call of a kernel has changed the buffer `id` from `old` to `new`, as it is meant to, and
nothing else. -/
structure Computes (k : Kernel) (v : Invocation) (id : BufferId) (old new : Bytes)
    (after : Memory) : Prop where
  before : v.memory.get? id = some old
  changed : after.get? id = some new
  others : ∀ b, b ≠ id → after.get? b = v.memory.get? b
  length_eq : new.length = old.length
  /-- An element is computed where all buffers have one. -/
  elements : ∀ i, (∀ index ∈ k.buffers, (v.word? index i).isSome = true) →
    new.word? i = k.element? v i
  /-- A byte stays where a buffer has no whole element that the byte could be part of. -/
  rest : ∀ j, (∃ index ∈ k.buffers, v.word? index (j / 4) = none) → new[j]? = old[j]?

/-- A call that has what it needs ends well, and its output is as it is meant to be. -/
theorem Takes.computes (h : k.Takes v) (houtput : k.output? = some output) :
    ∃ m id old new, k.run v = .ok m ∧ v.arguments[output]? = some (.buffer id) ∧
      k.Computes v id old new m := by
  obtain ⟨ws, hws, hrun⟩ := h.run_eq houtput
  have hmem : output ∈ k.buffers := by
    cases k with
    | custom program => cases houtput
    | _ =>
      cases houtput
      decide
  obtain ⟨old, hold⟩ := Option.isSome_iff_exists.1 (h.buffers output hmem)
  obtain ⟨id, hid, hget⟩ := Invocation.contents?_eq_some.1 hold
  have hword : ∀ i, v.word? output i = old.word? i := fun i => by
    rw [Invocation.word?, hold, Option.bind_some]
  refine ⟨_, id, old, Bytes.setWords old ws,
    hrun.trans (Invocation.writeWords_eq_ok.2 ⟨id, old, hid, hget, rfl⟩), hid, hget, ?_,
    fun b hb => ?_, Bytes.length_setWords old ws, fun i hi => ?_, fun j hj => ?_⟩
  · rw [Memory.get?_set, if_pos rfl, hget, Option.map_some]
  · rw [Memory.get?_set, if_neg hb]
  · obtain ⟨w, hw⟩ := Option.isSome_iff_exists.1 (h.isSome_element? houtput hi)
    obtain ⟨o, ho⟩ := Option.isSome_iff_exists.1 (hi output hmem)
    rw [Bytes.word?_setWords, ← hword, ho, Option.map_some, hws, hw, Option.getD_some]
  · rcases element?_eq_none_or houtput hj with hnone | hnone
    · exact Bytes.getElem?_setWords_of_none (.inl ((hws _).trans hnone))
    · exact Bytes.getElem?_setWords_of_none (.inr ((hword _).symm.trans hnone))

end Kernel

/-! ## One step after the other -/

namespace KernelProgram

variable {α : Type}

/-- Go on with what was found, or end in the fault. -/
def require (r : Except DeviceFault α) (next : α → KernelProgram) : KernelProgram :=
  match r with
  | .ok a => next a
  | .error fault => .done (.error fault)

/-- Look at the whole words of a buffer. -/
def readWords (index : Nat) (next : List UInt32 → KernelProgram) : KernelProgram :=
  .look index fun found => require found fun bytes => next (Bytes.toWords bytes)

/-- Put words over the start of a buffer, as many as it has whole ones, and end. -/
def writeWords (index : Nat) (ws : List UInt32) : KernelProgram :=
  .look index fun found => require found fun bytes =>
    .put index (Bytes.ofWords (ws.take (bytes.length / 4))) .done

/-- How a call ends that changes the memory as a last step or not at all. -/
def settle (memory : Memory) : Except DeviceFault Memory → Except DeviceFault Unit × Memory
  | .ok after => (.ok (), after)
  | .error fault => (.error fault, memory)

theorem run_require {r : Except DeviceFault α} {next : α → KernelProgram}
    {f : α → Except DeviceFault Memory}
    (hnext : ∀ a, r = .ok a → (next a).run v = settle v.memory (f a)) :
    (require r next).run v = settle v.memory (r >>= f) := by
  cases r with
  | ok a => exact hnext a rfl
  | error fault => rfl

theorem run_readWords {index : Nat} {next : List UInt32 → KernelProgram}
    {f : List UInt32 → Except DeviceFault Memory}
    (hnext : ∀ ws, (next ws).run v = settle v.memory (f ws)) :
    (readWords index next).run v = settle v.memory (v.words index >>= f) := by
  rw [readWords, run, Invocation.words, bind_assoc]
  refine run_require fun bytes _ => ?_
  exact hnext _

/-- A buffer is there to be looked at and to be changed, or it is there for neither. -/
theorem update_cases (v : Invocation) (index : Nat) :
    (∃ fault, v.bytes index = .error fault ∧ ∀ f, v.update index f = .error fault) ∨
      ∃ id bytes, v.bytes index = .ok bytes ∧
      ∀ f, v.update index f = .ok (v.memory.set id (f bytes)) := by
  unfold Invocation.bytes Invocation.update
  cases v.buffer index with
  | error fault => exact .inl ⟨fault, rfl, fun _ => rfl⟩
  | ok id =>
    simp only [bind, Except.bind]
    cases v.memory.get? id with
    | none => exact .inl ⟨.unknownBuffer id, rfl, fun _ => rfl⟩
    | some bytes => exact .inr ⟨id, bytes, rfl, fun _ => rfl⟩

theorem run_writeWords (index : Nat) (ws : List UInt32) :
    (writeWords index ws).run v = settle v.memory (v.writeWords index ws) := by
  rw [writeWords, run, Invocation.writeWords]
  rcases update_cases v index with ⟨fault, hbytes, hupdate⟩ | ⟨id, bytes, hbytes, hupdate⟩
  · rw [hbytes, hupdate]
    rfl
  · rw [hbytes, hupdate, Bytes.setWords_eq_overwrite]
    simp only [require, run, hupdate]
    rfl

end KernelProgram

namespace Kernel

open KernelProgram (require readWords writeWords settle)

variable {k : Kernel} {output : Nat}

/-- The kernels as programs. Each checks the number of its arguments, then its constant, then looks
at its buffers in order, and writes last. -/
def steps (k : Kernel) (name : String) (arguments : List KernelArgument) (window : Option Window) :
    KernelProgram :=
  let call : Invocation := { kernel := name, arguments, memory := {}, window }
  match k with
  | .addOne => require (call.expect 1) fun _ => readWords 0 fun a => writeWords 0 (a.map (· + 1))
  | .vectorAdd => require (call.expect 3) fun _ => readWords 0 fun a => readWords 1 fun b =>
      writeWords 2 (List.zipWith (· + ·) a b)
  | .scale =>
    require (call.expect 2) fun _ => require (call.scalar 1) fun factor => readWords 0 fun x =>
      writeWords 0 (x.map (mulSingle · factor.toF32))
  | .saxpy =>
    require (call.expect 3) fun _ => require (call.scalar 0) fun alpha => readWords 1 fun x =>
      readWords 2 fun y =>
        writeWords 2 (List.zipWith (fun x y => addSingle (mulSingle alpha.toF32 x) y) x y)
  | .custom program => program name arguments window

/-- The steps of a common kernel come to what the kernel comes to. -/
theorem run_steps (houtput : k.output? = some output) (v : Invocation) :
    (k.steps v.kernel v.arguments v.window).run v = settle v.memory (k.run v) := by
  cases k with
  | addOne =>
    refine KernelProgram.run_require (r := v.expect 1) fun _ _ => ?_
    exact KernelProgram.run_readWords fun a => KernelProgram.run_writeWords 0 _
  | vectorAdd =>
    refine KernelProgram.run_require (r := v.expect 3) fun _ _ => ?_
    refine KernelProgram.run_readWords fun a => KernelProgram.run_readWords fun b => ?_
    exact KernelProgram.run_writeWords 2 _
  | scale =>
    refine KernelProgram.run_require (r := v.expect 2) fun _ _ => ?_
    refine KernelProgram.run_require (r := v.scalar 1) fun factor _ => ?_
    exact KernelProgram.run_readWords fun x => KernelProgram.run_writeWords 0 _
  | saxpy =>
    refine KernelProgram.run_require (r := v.expect 3) fun _ _ => ?_
    refine KernelProgram.run_require (r := v.scalar 0) fun alpha _ => ?_
    refine KernelProgram.run_readWords fun x => KernelProgram.run_readWords fun y => ?_
    exact KernelProgram.run_writeWords 2 _
  | custom program => cases houtput

end Kernel

namespace Command

/-- A launch ends as its kernel does, and leaves the memory that the kernel leaves. -/
theorem execute_launch_cases (name : String) (k : Kernel) (arguments : List KernelArgument)
    (window : Option Window) (memory : Memory) (objects : List HostObject) :
    let call : Invocation := { kernel := name, arguments, memory, window }
    (∃ m, k.run call = .ok m ∧
      (launch name k arguments window).execute memory objects = (.ok (), m, objects)) ∨
      ∃ fault fault', k.run call = .error fault ∧
        (launch name k arguments window).execute memory objects =
        (.error fault', k.remains call, objects) := by
  intro call
  cases hrun : k.run call with
  | ok m =>
    refine .inl ⟨m, rfl, ?_⟩
    simp only [execute]
    rw [hrun]
  | error fault =>
    -- A fault that does not name the kernel yet is given its name.
    refine .inr ⟨fault, ?_⟩
    cases fault with
    | kernelFailed failed reason =>
      exact ⟨.kernelFailed failed reason, rfl, by simp only [execute]; rw [hrun]⟩
    | _ => exact ⟨.kernelFailed name _, rfl, by simp only [execute]; rw [hrun]⟩

/-- The common kernels are exact, local and atomic. A launch does what the steps of its kernel do,
one after the other. Either it fails, for want of an argument that the kernel needs, and the memory
is as before; or it succeeds, and its output has the elements that are computed from the old
contents of its buffers, as far as all of them reach, and the rest of the output and all other
buffers are as before. It changes no object and no length. -/
theorem launch_computes {k : Kernel} {output : Nat} (houtput : k.output? = some output)
    (name : String) (arguments : List KernelArgument) (window : Option Window) (memory : Memory)
    (objects : List HostObject) :
    let call : Invocation := { kernel := name, arguments, memory, window }
    let steps := (k.steps name arguments window).run call
    let after := (launch name k arguments window).execute memory objects
    after.1.isOk = steps.1.isOk ∧ after.2 = (steps.2, objects) ∧
      (((∃ fault, after.1 = .error fault) ∧ ¬k.Takes call ∧ after.2.1 = memory) ∨
        (after.1 = .ok () ∧ k.Takes call ∧ ∃ id old new, arguments[output]? = some (.buffer id) ∧
          k.Computes call id old new after.2.1)) := by
  intro call steps after
  have hsteps : steps = KernelProgram.settle memory (k.run call) := Kernel.run_steps houtput call
  have hafter : after = (launch name k arguments window).execute memory objects := rfl
  rcases execute_launch_cases name k arguments window memory objects with
    ⟨m, hrun, hlaunch⟩ | ⟨fault, fault', hrun, hlaunch⟩
  · have htakes := Kernel.takes_of_run houtput hrun
    obtain ⟨m', id, old, new, hrun', hid, hcomputes⟩ := htakes.computes houtput
    cases hrun.symm.trans hrun'
    rw [hsteps, hafter, hlaunch, hrun]
    exact ⟨rfl, rfl, .inr ⟨rfl, htakes, id, old, new, hid, hcomputes⟩⟩
  · rw [Kernel.remains_of_output houtput] at hlaunch
    have htakes : ¬k.Takes call := by
      intro htakes
      obtain ⟨m, id, old, new, hok, -⟩ := htakes.computes houtput
      cases hrun.symm.trans hok
    rw [hsteps, hafter, hlaunch, hrun]
    exact ⟨rfl, rfl, .inl ⟨⟨fault', rfl⟩, htakes, rfl⟩⟩

/-- The sums of two buffers are put over the second one. The first has two whole words and a byte
more, so the third word of the second is left alone. The first sum does not fit a word. -/
theorem launch_computes_over_operand :
    let memory : Memory :=
  ⟨[(0, [255, 255, 255, 255, 1, 0, 0, 0, 7]), (1, [2, 0, 0, 0, 3, 0, 0, 0, 4, 0, 0, 0])]⟩
    let arguments : List KernelArgument := [.buffer 0, .buffer 1, .buffer 1]
    let after := (launch "vector_add" .vectorAdd arguments none).execute memory []
    after.2.1.get? 1 = some [1, 0, 0, 0, 4, 0, 0, 0, 4, 0, 0, 0] ∧
      ∃ id old new, arguments[2]? = some (.buffer id) ∧
        Kernel.vectorAdd.Computes ⟨"vector_add", arguments, memory, none⟩ id old new after.2.1 := by
  intro memory arguments after
  have hok : after.1 = .ok () := by decide +kernel
  have hbytes : after.2.1.get? 1 = some [1, 0, 0, 0, 4, 0, 0, 0, 4, 0, 0, 0] := by decide +kernel
  obtain ⟨-, -, ⟨⟨fault, hfault⟩, -⟩ | ⟨-, -, hcomputes⟩⟩ :=
    launch_computes (k := .vectorAdd) rfl "vector_add" arguments none memory []
  · cases hok.symm.trans hfault
  · exact ⟨hbytes, hcomputes⟩

end Command

end Offload
