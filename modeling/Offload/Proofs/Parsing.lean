import Mathlib
import Offload.Program.Decode

/-!
# Reading words

A reader is given by the words that it reads and the values that these stand for. It ends in a value
only behind a word of this value, and it blames each of its faults on a place such that the bytes
before it start a word. Both are kept when readers are put one after the other, so they go from the
fields to the operands, the instructions and the whole program. The other way round every word is
read wherever it stands. There is one exception about faults: a window is judged when both of its
numbers are read, so where the stream ends between a negative offset and the end of the size, the
end is reported although nothing can follow the offset.
-/

namespace Offload

open Offload.Action

open Numeral (pow2 pow2_add pow2_pos)

namespace Cursor

/-- The given bytes stand between two places of a stream. -/
def Spans (c : Cursor) (bytes : Bytes) (c' : Cursor) : Prop :=
  c.rest = bytes ++ c'.rest ∧ c'.offset = c.offset + bytes.length

@[simp] theorem spans_nil (c c' : Cursor) : c.Spans [] c' ↔ c = c' := by
  obtain ⟨rest, offset⟩ := c
  obtain ⟨rest', offset'⟩ := c'
  simp [Spans, eq_comm]

theorem spans_append (c c'' : Cursor) (a b : Bytes) :
    c.Spans (a ++ b) c'' ↔ ∃ c', c.Spans a c' ∧ Spans c' b c'' := by
  constructor
  · rintro ⟨hrest, hoffset⟩
    refine ⟨⟨b ++ c''.rest, c.offset + a.length⟩, ⟨by simp [hrest], rfl⟩, rfl, ?_⟩
    simpa [Nat.add_assoc] using hoffset
  · rintro ⟨c', ⟨hrest, hoffset⟩, hrest', hoffset'⟩
    refine ⟨by simp [hrest, hrest'], ?_⟩
    rw [hoffset', hoffset, List.length_append, Nat.add_assoc]

theorem spans_cons (c c'' : Cursor) (b : UInt8) (bs : Bytes) :
    c.Spans (b :: bs) c'' ↔ ∃ c', c.Spans [b] c' ∧ Spans c' bs c'' := spans_append c c'' [b] bs

theorem Spans.length_le {c c' : Cursor} {bytes : Bytes} (h : c.Spans bytes c') :
    bytes.length ≤ c.rest.length := by
  simp [h.1]

end Cursor

/-- The largest index that a stream can hold. -/
def maxIndex : Nat := 2 ^ 31 - 1

/-- The largest offset or size of a window that a stream can hold. -/
def maxExtent : Nat := 2 ^ 63 - 1

/-- A missing event list, or one that a stream can name. -/
def ListInRange (events : Option Nat) : Prop := ∀ list ∈ events, list ≤ maxIndex

/-- A missing window, or one that a stream can hold. -/
def WindowInRange (window : Option Window) : Prop :=
  ∀ w ∈ window, w.offset ≤ maxExtent ∧ w.size ≤ maxExtent

namespace Bytes

/-- Half of the words of a width have the sign bit set. -/
theorem pow2_half (width : Nat) (hw : 0 < width) :
    pow2 (8 * width) = 2 * pow2 (8 * width - 1) := by
  have h := pow2_add 1 (8 * width - 1)
  rw [show 1 + (8 * width - 1) = 8 * width by omega] at h
  exact h

/-- A word of `width` bytes that is read as the number `n`, which is not negative, is the word that
`n` is written as. -/
theorem signed_eq_natCast_iff (width n : Nat) (hw : 0 < width) (bytes : Bytes)
    (hlen : bytes.length = width) :
    signed (8 * width) (toNat bytes) = n ↔ n < pow2 (8 * width - 1) ∧ bytes = ofNat width n := by
  have hlt : toNat bytes < pow2 (8 * width) := hlen ▸ toNat_lt bytes
  have hhalf := pow2_half width hw
  constructor
  · intro h
    unfold signed at h
    split at h
    · have hn : n = toNat bytes := by omega
      subst hn
      exact ⟨by assumption, by rw [← hlen, ofNat_toNat]⟩
    · omega
  · rintro ⟨hn, rfl⟩
    rw [toNat_ofNat, Nat.mod_eq_of_lt (by omega), signed, if_pos hn]

/-- Only the word of ones is read as minus one. -/
theorem signed_eq_neg_one_iff (width : Nat) (hw : 0 < width) (bytes : Bytes)
    (hlen : bytes.length = width) :
    signed (8 * width) (toNat bytes) = -1 ↔ bytes = ofNat width (pow2 (8 * width) - 1) := by
  have hlt : toNat bytes < pow2 (8 * width) := hlen ▸ toNat_lt bytes
  have hhalf := pow2_half width hw
  have hpos := pow2_pos (8 * width - 1)
  constructor
  · intro h
    have hn : toNat bytes = pow2 (8 * width) - 1 := by
      unfold signed at h
      split at h <;> omega
    rw [← hn, ← hlen, ofNat_toNat]
  · rintro rfl
    rw [toNat_ofNat, Nat.mod_eq_of_lt (by omega), signed, if_neg (by omega)]
    omega

end Bytes

namespace Instruction

@[simp] theorem length_encodeIndex (n : Nat) : (encodeIndex n).length = 4 := Bytes.length_ofNat 4 n

/-- What a stream can hold of an instruction: its indices, the number of its arguments, its event
list and its window. -/
def InRange : Instruction → Prop
  | .allocate object device window =>
    object ≤ maxIndex ∧ device ≤ maxIndex ∧ WindowInRange window
  | .transfer _ object device events window =>
    object ≤ maxIndex ∧ device ≤ maxIndex ∧ ListInRange events ∧ WindowInRange window
  | .launch frame device task events window arguments =>
    frame ≤ maxIndex ∧ device ≤ maxIndex ∧ task ≤ maxIndex ∧ arguments.length ≤ maxIndex ∧
      ListInRange events ∧ WindowInRange window ∧ ∀ a ∈ arguments, a.index ≤ maxIndex
  | .addDep events => events ≤ maxIndex
  | .barrier events => ListInRange events
  | .finish => True

end Instruction

namespace Reading

open Cursor Instruction

@[simp] theorem run_position (c c' : Cursor) (n : Nat) :
    position.run c = (.ok n, c') ↔ n = c.offset ∧ c = c' := by
  simp [position, Action.run, eq_comm]

theorem run_take (n : Nat) (c c' : Cursor) (bytes : Bytes) :
    (take n).run c = (.ok bytes, c') ↔ bytes.length = n ∧ c.Spans bytes c' := by
  unfold take Action.run Spans
  dsimp only
  split
  · rename_i hshort
    simp only [List.length_take] at hshort
    constructor
    · intro h; cases h
    · rintro ⟨rfl, hrest, -⟩
      simp [hrest] at hshort
  · rename_i hlong
    constructor
    · intro h
      obtain ⟨rfl, rfl⟩ : c.rest.take n = bytes ∧
          (⟨c.rest.drop n, c.offset + n⟩ : Cursor) = c' := by
        simpa using h
      have hlen : (c.rest.take n).length = n := by simp only [List.length_take] at *; omega
      exact ⟨hlen, by simp, by simp [hlen]⟩
    · rintro ⟨rfl, hrest, hoffset⟩
      simp [hrest, ← hoffset]

theorem run_byte (c c' : Cursor) (b : UInt8) : byte.run c = (.ok b, c') ↔ c.Spans [b] c' := by
  unfold byte
  simp only [run_bind_eq_ok, run_take, run_pure, Prod.mk.injEq, Except.ok.injEq]
  constructor
  · rintro ⟨bytes, c₁, ⟨hlen, hspan⟩, rfl, rfl⟩
    obtain ⟨a, rfl⟩ := List.length_eq_one_iff.1 hlen
    simpa using hspan
  · intro hspan
    exact ⟨[b], c', ⟨rfl, hspan⟩, rfl, rfl⟩

theorem run_number (width : Nat) (c c' : Cursor) (v : Int) :
    (number width).run c = (.ok v, c') ↔ ∃ bytes, bytes.length = width ∧
      Bytes.signed (8 * width) (Bytes.toNat bytes) = v ∧ c.Spans bytes c' := by
  unfold number
  simp only [run_bind_eq_ok, run_take, run_pure, Prod.mk.injEq, Except.ok.injEq]
  constructor
  · rintro ⟨bytes, c₁, ⟨hlen, hspan⟩, rfl, rfl⟩
    exact ⟨bytes, hlen, rfl, hspan⟩
  · rintro ⟨bytes, hlen, rfl, hspan⟩
    exact ⟨bytes, c', ⟨hlen, hspan⟩, rfl, rfl⟩

theorem run_number_natCast (width : Nat) (hw : 0 < width) (c c' : Cursor) (n : Nat) :
    (number width).run c = (.ok (n : Int), c') ↔
      n < pow2 (8 * width - 1) ∧ c.Spans (Bytes.ofNat width n) c' := by
  rw [run_number]
  constructor
  · rintro ⟨bytes, hlen, hv, hspan⟩
    obtain ⟨hn, rfl⟩ := (Bytes.signed_eq_natCast_iff width n hw bytes hlen).1 hv
    exact ⟨hn, hspan⟩
  · rintro ⟨hn, hspan⟩
    refine ⟨_, Bytes.length_ofNat width n, ?_, hspan⟩
    exact (Bytes.signed_eq_natCast_iff width n hw _ (by simp)).2 ⟨hn, rfl⟩

/-- A four-byte number that is not negative is an index. -/
theorem run_int32_natCast (c c' : Cursor) (n : Nat) :
    int32.run c = (.ok (n : Int), c') ↔ n ≤ maxIndex ∧ c.Spans (encodeIndex n) c' := by
  have hmax : n < pow2 (8 * 4 - 1) ↔ n ≤ maxIndex := by
    simp only [maxIndex, pow2]; norm_num; omega
  rw [← hmax]
  exact run_number_natCast 4 (by omega) c c' n

theorem run_int64_natCast (c c' : Cursor) (n : Nat) :
    int64.run c = (.ok (n : Int), c') ↔ n ≤ maxExtent ∧ c.Spans (Bytes.ofNat 8 n) c' := by
  have hmax : n < pow2 (8 * 8 - 1) ↔ n ≤ maxExtent := by
    simp only [maxExtent, pow2]; norm_num; omega
  rw [← hmax]
  exact run_number_natCast 8 (by omega) c c' n

theorem run_int32_neg_one (c c' : Cursor) :
    int32.run c = (.ok (-1), c') ↔ c.Spans (encodeList none) c' := by
  unfold int32
  rw [run_number]
  constructor
  · rintro ⟨bytes, hlen, hv, hspan⟩
    rw [(Bytes.signed_eq_neg_one_iff 4 (by omega) bytes hlen).1 hv] at hspan
    exact hspan
  · intro hspan
    refine ⟨_, Bytes.length_ofNat 4 _, ?_, hspan⟩
    exact (Bytes.signed_eq_neg_one_iff 4 (by omega) _ (by simp)).2 rfl

theorem run_index (what : String) (c c' : Cursor) (n : Nat) :
    (index what).run c = (.ok n, c') ↔ n ≤ maxIndex ∧ c.Spans (encodeIndex n) c' := by
  rw [← run_int32_natCast]
  unfold index
  simp only [run_bind_eq_ok, run_position]
  constructor
  · rintro ⟨_, _, ⟨-, rfl⟩, v, c₁, hv, h⟩
    split at h
    · simp at h
    · obtain ⟨rfl, rfl⟩ : v.toNat = n ∧ c₁ = c' := by simpa using h
      rwa [Int.toNat_of_nonneg (by omega)]
  · intro h
    refine ⟨_, _, ⟨rfl, rfl⟩, n, c', h, ?_⟩
    rw [if_neg (by omega)]
    simp

theorem run_eventList (c c' : Cursor) (events : Option Nat) :
    eventList.run c = (.ok events, c') ↔ ListInRange events ∧ c.Spans (encodeList events) c' := by
  unfold eventList
  simp only [run_bind_eq_ok, run_position]
  constructor
  · rintro ⟨_, _, ⟨-, rfl⟩, v, c₁, hv, h⟩
    split at h
    · subst v
      obtain ⟨rfl, rfl⟩ : none = events ∧ c₁ = c' := by simpa using h
      exact ⟨by simp [ListInRange], (run_int32_neg_one _ _).1 hv⟩
    · split at h
      · obtain ⟨rfl, rfl⟩ : some v.toNat = events ∧ c₁ = c' := by simpa using h
        rw [← Int.toNat_of_nonneg (a := v) (by omega)] at hv
        obtain ⟨hmax, hspan⟩ := (run_int32_natCast _ _ _).1 hv
        exact ⟨by simpa [ListInRange] using hmax, hspan⟩
      · simp at h
  · rintro ⟨hrange, hspan⟩
    refine ⟨_, _, ⟨rfl, rfl⟩, ?_⟩
    cases events with
    | none => exact ⟨-1, c', (run_int32_neg_one _ _).2 hspan, by simp⟩
    | some list =>
      refine ⟨list, c', (run_int32_natCast _ _ _).2 ⟨hrange list rfl, hspan⟩, ?_⟩
      simp [show (list : Int) ≠ -1 by omega]

theorem run_window (c c' : Cursor) (w : Window) :
    window.run c = (.ok w, c') ↔
      WindowInRange (some w) ∧ c.Spans (encodeWindow (some w)) c' := by
  simp only [WindowInRange, Option.mem_some, forall_eq', encodeWindow, spans_append]
  unfold window
  simp only [run_bind_eq_ok, run_position]
  constructor
  · rintro ⟨_, _, ⟨-, rfl⟩, o, c₁, ho, s, c₂, hs, h⟩
    split at h
    · simp at h
    · obtain ⟨rfl, rfl⟩ : (⟨o.toNat, s.toNat⟩ : Window) = w ∧ c₂ = c' := by simpa using h
      rw [← Int.toNat_of_nonneg (a := o) (by omega), run_int64_natCast] at ho
      rw [← Int.toNat_of_nonneg (a := s) (by omega), run_int64_natCast] at hs
      exact ⟨⟨ho.1, hs.1⟩, c₁, ho.2, hs.2⟩
  · rintro ⟨⟨ho, hs⟩, c₁, hspano, hspans⟩
    refine ⟨_, _, ⟨rfl, rfl⟩, w.offset, c₁, (run_int64_natCast _ _ _).2 ⟨ho, hspano⟩, w.size, c',
      (run_int64_natCast _ _ _).2 ⟨hs, hspans⟩, ?_⟩
    rw [if_neg (by omega)]
    simp

end Reading

/-- What a stream can hold of a header. -/
def Header.InRange (h : Header) : Prop :=
  h.devices ≤ maxIndex ∧ h.tasks ≤ maxIndex ∧ h.eventLists ≤ maxIndex ∧
    ∀ device ∈ h.contexts, device ≤ maxIndex

/-- END stands at the end of a body and nowhere else. -/
def EndsOnce (body : List Instruction) : Prop :=
  ∃ before, body = before ++ [.finish] ∧ .finish ∉ before

theorem endsOnce_cons (i : Instruction) (is : List Instruction) :
    EndsOnce (i :: is) ↔ (i = .finish ∧ is = []) ∨ (i ≠ .finish ∧ EndsOnce is) := by
  constructor
  · rintro ⟨before, heq, hnot⟩
    cases before with
    | nil =>
      obtain ⟨rfl, rfl⟩ : i = .finish ∧ is = [] := by simpa using heq
      exact .inl ⟨rfl, rfl⟩
    | cons j before =>
      obtain ⟨rfl, rfl⟩ : i = j ∧ is = before ++ [.finish] := by simpa using heq
      simp only [List.mem_cons, not_or] at hnot
      exact .inr ⟨Ne.symm hnot.1, before, rfl, hnot.2⟩
  · rintro (⟨rfl, rfl⟩ | ⟨hne, before, rfl, hnot⟩)
    · exact ⟨[], rfl, by simp⟩
    · exact ⟨i :: before, rfl, by simp [Ne.symm hne, hnot]⟩

/-- What a stream can hold as a program. -/
structure Program.Encodable (p : Program) : Prop where
  header : p.header.InRange
  body : ∀ i ∈ p.body, i.InRange
  ends : EndsOnce p.body

namespace Fault

/-- A fault of reading that names the given place. A marker is missed where `markers` are read. -/
def IsAt (markers : Bool) (place : Nat) : Fault → Prop
  | .decode offset _ | .unknownOpcode _ offset | .unexpectedOpcode _ _ offset
  | .missingEnd offset => offset = place
  | .missingMarker _ _ offset => markers = true ∧ offset = place
  | .headerMismatch .. | .indexOutOfRange .. | .windowOutOfRange .. | .eventListFull ..
  | .multiDeviceBarrier .. | .frameOverflow .. | .objectNotValid .. | .objectNotAllocated ..
  | .compilation .. | .codeNotInstalled .. | .device .. => False

end Fault

namespace Reading

open Cursor Instruction Bytes

/-- The stream goes over `u`, which ends in the negative offset of a window behind bytes of `W`, and
ends in the size of the window. -/
def CutIn (W : Bytes → Prop) (u stream : Bytes) : Prop :=
  ∃ lead offset size, W lead ∧ offset.length = 8 ∧ signed 64 (toNat offset) < 0 ∧ size.length < 8 ∧
    u = lead ++ offset ∧ stream = u ++ size

variable {α β : Type} {k : Bool} {G : Fault → Prop} {S : α → Bytes → Prop} {U : β → Bytes → Prop}
  {W : Bytes → Prop} {x : Reading α} {f : α → Reading β}

/-- `x` reads values off their words, given by `S`. It has a fault of `G`, or one that names a place
before which a word is started or a window behind bytes of `W` is cut. -/
structure Parses (k : Bool) (G : Fault → Prop) (S : α → Bytes → Prop) (W : Bytes → Prop)
    (x : Reading α) : Prop where
  some : ∃ a word, S a word
  value : ∀ c a c', x.run c = (.ok a, c') → ∃ word, S a word ∧ c.Spans word c'
  fault : ∀ c e c', x.run c = (.error e, c') → G e ∨ ∃ u, e.IsAt k (c.offset + u.length) ∧
    u <+: c.rest ∧ ((∃ a v, S a (u ++ v)) ∨ CutIn W u c.rest)

/-- The bytes of the values that satisfy `P`. -/
def Written (P : α → Prop) (encode : α → Bytes) (a : α) (word : Bytes) :
    Prop := P a ∧ encode a = word

/-- `x` reads `a` off the given bytes, wherever they stand. -/
def Reads (x : Reading α) (a : α) (bytes : Bytes) :
    Prop := ∀ c c', Spans c bytes c' → x.run c = (.ok a, c')

theorem run_bind_eq_error {c c' : Cursor} {e : Fault} : (x >>= f).run c = (.error e, c') ↔
    x.run c = (.error e, c') ∨ ∃ a c₁, x.run c = (.ok a, c₁) ∧ (f a).run c₁ = (.error e, c') := by
  rw [run_bind]
  rcases x.run c with ⟨r, t⟩
  cases r <;> simp [and_assoc]

/-! ## Rules -/

theorem parses_pure {a : α} (h : S a []) : Parses k G S W (pure a : Reading α) where
  some := ⟨a, _, h⟩
  value c a' c' hrun := by
    cases hrun
    exact ⟨[], h, (spans_nil _ _).2 rfl⟩
  fault c e c' hrun := by cases hrun

/-- A reader whose faults are all put where it starts. -/
theorem parses_start (hsome : ∃ a word, S a word)
    (hvalue : ∀ c a c', x.run c = (.ok a, c') → ∃ word, S a word ∧ c.Spans word c')
    (hfault : ∀ c e c', x.run c = (.error e, c') → e.IsAt k c.offset) : Parses k G S W x :=
  ⟨hsome, hvalue, fun c e c' hrun => .inr ⟨[], hfault c e c' hrun, List.nil_prefix, .inl hsome⟩⟩

/-- Two readers, where `U` has the words of the first followed by those of the second. -/
theorem Parses.bind {P : α → Prop} {encode : α → Bytes} {V : Bytes → Prop}
    (hx : Parses k G (Written P encode) V x) (hV : ∀ lead, V lead → W lead)
    (hf : ∀ a, P a → Parses k G (fun b v => U b (encode a ++ v)) (fun lead => W (encode a ++ lead))
      (f a)) :
    Parses k G U W (x >>= f) where
  some := by
    obtain ⟨a, _, ha, -⟩ := hx.some
    obtain ⟨b, v, hv⟩ := (hf a ha).some
    exact ⟨b, _, hv⟩
  value c b c' h := by
    obtain ⟨a, c₁, hx', hf'⟩ := run_bind_eq_ok.1 h
    obtain ⟨_, ⟨ha, rfl⟩, hspan⟩ := hx.value c a c₁ hx'
    obtain ⟨v, hb, hspan'⟩ := (hf a ha).value c₁ b c' hf'
    exact ⟨_, hb, (spans_append _ _ _ _).2 ⟨c₁, hspan, hspan'⟩⟩
  fault c e c' h := by
    rcases run_bind_eq_error.1 h with h | ⟨a, c₁, hok, h⟩
    · refine (hx.fault c e c' h).imp_right ?_
      rintro ⟨u, hat, hin, ⟨a, v, ha, hv⟩ | ⟨lead, offset, size, hlead, hcut⟩⟩
      · obtain ⟨b, w, hw⟩ := (hf a ha).some
        refine ⟨u, hat, hin, .inl ⟨b, v ++ w, ?_⟩⟩
        rwa [← List.append_assoc, ← hv]
      · exact ⟨u, hat, hin, .inr ⟨lead, offset, size, hV lead hlead, hcut⟩⟩
    · obtain ⟨_, ⟨ha, rfl⟩, hrest, hoffset⟩ := hx.value c a c₁ hok
      refine ((hf a ha).fault c₁ e c' h).imp_right ?_
      rintro ⟨u, hat, hin, hu⟩
      refine ⟨encode a ++ u, ?_, ?_, hu.imp ?_ ?_⟩
      · rwa [List.length_append, ← Nat.add_assoc, ← hoffset]
      · rwa [hrest, List.prefix_append_right_inj]
      · rintro ⟨b, v, hv⟩
        exact ⟨b, v, by rwa [List.append_assoc]⟩
      · rintro ⟨lead, offset, size, hlead, hlen, hneg, hsize, rfl, hcut⟩
        exact ⟨_, offset, size, hlead, hlen, hneg, hsize,
          (List.append_assoc _ _ _).symm, by rw [hrest, hcut]; simp⟩

/-- The first reader reads no window. -/
theorem Parses.next {P : α → Prop} {encode : α → Bytes}
    (hx : Parses k G (Written P encode) (fun _ => False) x)
    (hf : ∀ a, P a → Parses k G (fun b v => U b (encode a ++ v)) (fun lead => W (encode a ++ lead))
      (f a)) :
    Parses k G U W (x >>= f) :=
  hx.bind (fun _ => False.elim) hf

theorem parses_remaining {g : Nat → Reading α} (h : ∀ n, Parses k G S W (g n)) :
    Parses k G S W (remaining >>= g) :=
  ⟨(h 0).some, fun c => (h c.rest.length).value c, fun c => (h c.rest.length).fault c⟩

/-- A byte that chooses what is read after it. A fault about the choice is put at the byte. -/
theorem parses_tag {g : Nat → UInt8 → Reading α} (hsome : ∃ a word, S a word)
    (hg : ∀ start b, Parses k (Fault.IsAt k start) (fun a v => S a (b :: v))
      (fun lead => W (b :: lead)) (g start b) ∨ ∃ e : Fault, g start b = throw e ∧ e.IsAt k start) :
    Parses k G S W (position >>= fun start => byte >>= g start) := by
  refine ⟨hsome, fun c a c' h => ?_, fun c e c' h => .inr ?_⟩
  · obtain ⟨_ | ⟨b, rest⟩, start⟩ := c
    · cases h
    · change (g start b).run ⟨rest, start + 1⟩ = _ at h
      rcases hg start b with hb | ⟨e, hthrow, -⟩
      · obtain ⟨v, ha, hspan⟩ := hb.value _ _ _ h
        exact ⟨b :: v, ha, (spans_cons _ _ _ _).2 ⟨_, ⟨rfl, rfl⟩, hspan⟩⟩
      · rw [hthrow] at h
        cases h
  · have hstart (hat : e.IsAt k c.offset) : ∃ u, e.IsAt k (c.offset + u.length) ∧ u <+: c.rest ∧
        ((∃ a v, S a (u ++ v)) ∨ CutIn W u c.rest) := ⟨[], hat, List.nil_prefix, .inl hsome⟩
    obtain ⟨_ | ⟨b, rest⟩, start⟩ := c
    · obtain ⟨rfl, -⟩ : Fault.decode start .endOfData = e ∧ _ := by simpa using Prod.mk.inj h
      exact hstart rfl
    · change (g start b).run ⟨rest, start + 1⟩ = _ at h
      rcases hg start b with hb | ⟨e', hthrow, hat⟩
      · rcases hb.fault _ _ _ h with hat | ⟨u, hat, hin, hu⟩
        · exact hstart hat
        · refine ⟨b :: u, ?_, List.cons_prefix_cons.2 ⟨rfl, hin⟩, hu.imp id ?_⟩
          · rwa [List.length_cons, Nat.add_comm u.length, ← Nat.add_assoc]
          · rintro ⟨lead, offset, size, hlead, hlen, hneg, hsize, rfl, hcut⟩
            exact ⟨_, offset, size, hlead, hlen, hneg, hsize, rfl, congrArg (b :: ·) hcut⟩
      · rw [hthrow] at h
        cases h
        exact hstart hat

/-- A byte that chooses what is read after it, where the end of the stream has a fault of its
own. -/
theorem parses_tagOrEnd {g : Nat → UInt8 → Reading α} {missing : Nat → Fault}
    (hmissing : ∀ start, (missing start).IsAt k start) (hsome : ∃ a word, S a word)
    (hg : ∀ start b, Parses k (Fault.IsAt k start) (fun a v => S a (b :: v))
      (fun lead => W (b :: lead)) (g start b) ∨ ∃ e : Fault, g start b = throw e ∧ e.IsAt k start) :
    Parses k G S W (do
      let start ← position
      let done ← atEnd
      if done then throw (missing start)
      let b ← byte
      g start b) := by
  have htag : Parses k G S W (position >>= fun start => byte >>= g start) := parses_tag hsome hg
  refine ⟨hsome, fun c a c' h => ?_, fun c e c' h => ?_⟩
  · obtain ⟨_ | ⟨b, rest⟩, start⟩ := c
    · cases h
    · exact htag.value _ a c' h
  · obtain ⟨_ | ⟨b, rest⟩, start⟩ := c
    · cases h
      exact .inr ⟨[], hmissing start, List.nil_prefix, .inl hsome⟩
    · exact htag.fault _ e c' h

theorem reads_pure (a : α) : Reads (pure a) a [] := fun c c' h => by rw [(spans_nil c c').1 h]; rfl

theorem Reads.bind {a : α} {b : β} {u v w : Bytes} (hx : Reads x a u) (hf : Reads (f a) b v)
    (hw : w = u ++ v) :
    Reads (x >>= f) b w := by
  intro c c'' h
  obtain ⟨c', hu, hv⟩ := (spans_append _ _ _ _).1 (hw ▸ h)
  exact run_bind_eq_ok.2 ⟨a, c', hx c c' hu, hf c' c'' hv⟩

theorem reads_tag {g : Nat → UInt8 → Reading α} {a : α} {b : UInt8} {v : Bytes}
    (h : ∀ start, Reads (g start b) a v) :
    Reads (position >>= fun start => byte >>= g start) a (b :: v) := by
  intro c c'' hspan
  obtain ⟨c', hb, hv⟩ := (spans_cons _ _ _ _).1 hspan
  exact run_bind_eq_ok.2 ⟨_, c, rfl, run_bind_eq_ok.2 ⟨b, c', (run_byte _ _ _).2 hb, h _ c' c'' hv⟩⟩

theorem reads_tagOrEnd {g : Nat → UInt8 → Reading α} {missing : Nat → Fault} {a : α}
    {b : UInt8} {v : Bytes} (h : ∀ start, Reads (g start b) a v) :
    Reads (do
      let start ← position
      let done ← atEnd
      if done then throw (missing start)
      let b ← byte
      g start b) a (b :: v) := by
  intro c c' hspan
  obtain ⟨_ | ⟨b', rest⟩, start⟩ := c
  · cases hspan.1
  · exact reads_tag h _ c' hspan

/-- A word as long as the stream has room for. -/
theorem reads_remaining {g : Nat → Reading α} {a : α} {v : Bytes}
    (h : ∀ n, v.length ≤ n → Reads (g n) a v) :
    Reads (remaining >>= g) a v :=
  fun c c' hspan => h _ hspan.length_le c c' hspan

/-! ## Fields -/

theorem number_eq_error {width : Nat} {c c' : Cursor} {e : Fault}
    (h : (number width).run c = (.error e, c')) :
    c.rest.length < width ∧ e.IsAt k c.offset := by
  rcases run_bind_eq_error.1 h with h | ⟨_, _, -, h⟩
  · unfold take Action.run at h
    dsimp only at h
    split at h
    · rename_i hshort
      obtain ⟨rfl, -⟩ : Fault.decode c.offset .endOfData = e ∧ _ := by simpa using Prod.mk.inj h
      refine ⟨?_, rfl⟩
      simpa using hshort
    · cases h
  · cases h

/-- A number of four bytes that is judged when it is read. -/
theorem isAt_of_int32 {g : Nat → Int → Reading α}
    (hg : ∀ start v c e c', (g start v).run c = (.error e, c') → e.IsAt k start)
    (c : Cursor) (e : Fault) (c' : Cursor)
    (h : (position >>= fun start => int32 >>= fun v => g start v).run c = (.error e, c')) :
    e.IsAt k c.offset := by
  change (int32 >>= fun v => g c.offset v).run c = _ at h
  rcases run_bind_eq_error.1 h with h | ⟨v, c₁, -, h⟩
  · exact (number_eq_error h).2
  · exact hg _ _ _ _ _ h

theorem parses_index (what : String) :
    Parses k G (Written (· ≤ maxIndex) encodeIndex) W (index what) := by
  refine parses_start ⟨0, _, Nat.zero_le _, rfl⟩ (fun c n c' h => ?_)
    (isAt_of_int32 fun start v c e c' h => ?_)
  · exact ⟨_, ⟨((run_index what c c' n).1 h).1, rfl⟩, ((run_index what c c' n).1 h).2⟩
  · split at h <;> cases h
    rfl

theorem parses_eventList : Parses k G (Written ListInRange encodeList) W eventList := by
  refine parses_start ⟨none, _, by simp [ListInRange], rfl⟩ (fun c l c' h => ?_)
    (isAt_of_int32 fun start v c e c' h => ?_)
  · exact ⟨_, ⟨((run_eventList c c' l).1 h).1, rfl⟩, ((run_eventList c c' l).1 h).2⟩
  · split at h
    · cases h
    · split at h <;> cases h
      rfl

theorem parses_window :
    Parses k G (Written (fun w => WindowInRange (some w)) fun w => encodeWindow (some w))
      (· = []) window := by
  have hsome : ∃ w word, Written (fun w => WindowInRange (some w))
      (fun w => encodeWindow (some w)) w word :=
    ⟨⟨0, 0⟩, _, by simp [WindowInRange], rfl⟩
  refine ⟨hsome, fun c w c' h => ?_, fun c e c' h => .inr ?_⟩
  · exact ⟨_, ⟨((run_window c c' w).1 h).1, rfl⟩, ((run_window c c' w).1 h).2⟩
  change (int64 >>= fun offset => int64 >>= fun size => _).run c = _ at h
  rcases run_bind_eq_error.1 h with hrun | ⟨offset, c₁, hoffset, h₁⟩
  · exact ⟨[], (number_eq_error hrun).2, List.nil_prefix, .inl hsome⟩
  rcases run_bind_eq_error.1 h₁ with hrun | ⟨size, c₂, -, hrun⟩
  · -- The stream ends in the size, and the offset tells whether a size could follow.
    obtain ⟨bytes, hlen, rfl, hrest, hplace⟩ := (run_number _ _ _ _).1 hoffset
    obtain ⟨hshort, hat⟩ := number_eq_error hrun
    refine ⟨bytes, by rwa [← hplace], ⟨_, hrest.symm⟩, ?_⟩
    rcases lt_or_ge (signed (8 * 8) (toNat bytes)) 0 with hneg | hpos
    · exact .inr ⟨[], bytes, c₁.rest, rfl, hlen, hneg, hshort, rfl, hrest⟩
    · obtain ⟨n, hn⟩ := Int.eq_ofNat_of_zero_le hpos
      rw [hn] at hoffset
      obtain ⟨hmax, hrest', -⟩ := (run_int64_natCast _ _ _).1 hoffset
      refine .inl ⟨⟨n, 0⟩, ofNat 8 0, by simpa [WindowInRange] using hmax, ?_⟩
      rw [List.append_cancel_right (hrest.symm.trans hrest')]
      rfl
  · split at hrun <;> cases hrun
    exact ⟨[], rfl, List.nil_prefix, .inl hsome⟩

theorem parses_windowIf (batched : Bool) :
    Parses k G (Written (fun w => w.isSome = batched ∧ WindowInRange w) encodeWindow)
      (fun lead => batched = true ∧ lead = []) (windowIf batched) := by
  cases batched with
  | false => exact parses_pure ⟨⟨rfl, by simp [WindowInRange]⟩, rfl⟩
  | true =>
    refine parses_window.bind (fun _ hlead => ⟨rfl, hlead⟩) fun w hw => ?_
    exact parses_pure ⟨⟨rfl, hw⟩, (List.append_nil _).symm⟩

theorem parses_argument :
    Parses k G (Written (fun a => a.index ≤ maxIndex) encodeArgument) W argument := by
  refine parses_tag ⟨.constant 0, _, Nat.zero_le _, rfl⟩ fun start b => ?_
  split
  · rename_i hop
    rw [← Opcode.byte_of_ofByte? hop]
    exact .inl ((parses_index _).next fun i hi =>
      parses_pure ⟨hi, by simp [encodeArgument, Argument.opcode, Argument.index]⟩)
  · rename_i hop
    rw [← Opcode.byte_of_ofByte? hop]
    exact .inl ((parses_index _).next fun i hi =>
      parses_pure ⟨hi, by simp [encodeArgument, Argument.opcode, Argument.index]⟩)
  · exact .inr ⟨_, rfl, rfl⟩

theorem parses_arguments (count : Nat) :
    Parses k G (Written (fun as => as.length = count ∧ ∀ a ∈ as, a.index ≤ maxIndex)
      (List.flatMap encodeArgument)) (fun _ => False) (arguments count) := by
  induction count with
  | zero => exact parses_pure ⟨by simp, rfl⟩
  | succ count ih =>
    refine parses_argument.next fun a ha => ih.next fun as has => parses_pure ⟨?_, by simp⟩
    simpa [has.1, ha] using has.2

/-- The arguments of a launch. A count that the stream cannot hold is put at the start of the
launch. -/
theorem parses_counted {start count : Nat} {g : List Argument → Reading α}
    (h : Parses k (Fault.IsAt k start) S W (arguments count >>= g)) :
    Parses k (Fault.IsAt k start) S W (do
      let left ← remaining
      if left / 5 < count then throw (.decode start (.argumentCount count))
      let args ← arguments count
      g args) := by
  refine parses_remaining fun left => ⟨h.some, fun c a c' hrun => ?_, fun c e c' hrun => ?_⟩
  · split at hrun
    · cases hrun
    · exact h.value c a c' hrun
  · split at hrun
    · cases hrun
      exact .inl rfl
    · exact h.fault c e c' hrun

theorem reads_index (what : String) {n : Nat} (h : n ≤ maxIndex) :
    Reads (index what) n (encodeIndex n) :=
  fun c c' hspan => (run_index what c c' n).2 ⟨h, hspan⟩

theorem reads_eventList {events : Option Nat} (h : ListInRange events) :
    Reads eventList events (encodeList events) :=
  fun c c' hspan => (run_eventList c c' events).2 ⟨h, hspan⟩

theorem reads_windowIf {w : Option Window} (h : WindowInRange w) :
    Reads (windowIf w.isSome) w (encodeWindow w) := by
  cases w with
  | none => exact reads_pure none
  | some w =>
    have hwindow : Reads Reading.window w (encodeWindow (some w)) :=
      fun c c' hspan => (run_window c c' w).2 ⟨h, hspan⟩
    exact hwindow.bind (reads_pure _) (List.append_nil _).symm

theorem reads_argument {a : Argument} (h : a.index ≤ maxIndex) :
    Reads argument a (encodeArgument a) := by
  refine reads_tag fun start => ?_
  rw [Opcode.ofByte?_byte]
  cases a with
  | constant i => exact (reads_index _ h).bind (reads_pure _) (List.append_nil _).symm
  | reference i => exact (reads_index _ h).bind (reads_pure _) (List.append_nil _).symm

theorem reads_arguments {as : List Argument} (h : ∀ a ∈ as, a.index ≤ maxIndex) :
    Reads (arguments as.length) as (as.flatMap encodeArgument) := by
  induction as with
  | nil => exact reads_pure []
  | cons a as ih =>
    obtain ⟨ha, has⟩ := List.forall_mem_cons.1 h
    exact (reads_argument ha).bind ((ih has).bind (reads_pure _) rfl) (by simp)

/-- The guard on the number of arguments never refuses arguments that are there: each takes five
bytes. -/
theorem reads_counted {start : Nat} {as : List Argument} {a : α} {g : List Argument → Reading α}
    (h : ∀ b ∈ as, b.index ≤ maxIndex) (hg : Reads (g as) a []) :
    Reads (do
      let left ← remaining
      if left / 5 < as.length then throw (.decode start (.argumentCount as.length))
      let args ← arguments as.length
      g args) a (as.flatMap encodeArgument) := by
  refine reads_remaining fun left hleft => ?_
  have hlength : (as.flatMap encodeArgument).length = 5 * as.length := by
    clear h hg hleft
    induction as with
    | nil => rfl
    | cons a as ih => simp [encodeArgument, ih]; omega
  rw [if_neg (by omega)]
  exact (reads_arguments h).bind hg (List.append_nil _).symm

/-! ## Instructions and programs -/

/-- The bytes of an instruction up to its window. -/
inductive BeforeWindow : Bytes → Prop where
  | allocate {object device : Nat} : object ≤ maxIndex → device ≤ maxIndex →
    BeforeWindow ((Opcode.allocate true).byte :: (encodeIndex object ++ encodeIndex device))
  | transfer {kind : Transfer} {object device : Nat} {events : Option Nat} : object ≤ maxIndex →
    device ≤ maxIndex → ListInRange events → BeforeWindow ((Opcode.transfer kind true).byte ::
      (encodeIndex object ++ encodeIndex device ++ encodeList events))
  | launch {frame device task count : Nat} {events : Option Nat} :
    frame ≤ maxIndex → device ≤ maxIndex → task ≤ maxIndex → count ≤ maxIndex → ListInRange events →
    BeforeWindow ((Opcode.launch true).byte ::
      (encodeIndex frame ++ encodeIndex device ++ encodeIndex task ++ encodeIndex count ++
        encodeList events))

theorem parses_operands (start : Nat) (op : Opcode) :
    Parses k (Fault.IsAt k start) (fun i v => Written InRange encode i (op.byte :: v))
        (fun lead => BeforeWindow (op.byte :: lead)) (operands start op) ∨
      ∃ e : Fault, operands start op = throw e ∧ e.IsAt k start := by
  cases op with
  | allocate batched =>
    refine .inl ((parses_index _).next fun object hobject =>
      (parses_index _).next fun device hdevice =>
      (parses_windowIf batched).bind ?_ fun w hw => parses_pure ⟨⟨hobject, hdevice, hw.2⟩, ?_⟩)
    · rintro _ ⟨rfl, rfl⟩
      simpa using BeforeWindow.allocate hobject hdevice
    · simp [encode, opcode, encodeOperands, hw.1]
  | transfer kind batched =>
    refine .inl ((parses_index _).next fun object hobject =>
      (parses_index _).next fun device hdevice =>
      parses_eventList.next fun events hevents => (parses_windowIf batched).bind ?_ fun w hw =>
        parses_pure ⟨⟨hobject, hdevice, hevents, hw.2⟩, ?_⟩)
    · rintro _ ⟨rfl, rfl⟩
      simpa using BeforeWindow.transfer hobject hdevice hevents
    · simp [encode, opcode, encodeOperands, hw.1]
  | launch batched =>
    refine .inl ((parses_index _).next fun frame hframe =>
      (parses_index _).next fun device hdevice =>
      (parses_index _).next fun task htask => (parses_index _).next fun count hcount =>
        parses_eventList.next fun events hevents => (parses_windowIf batched).bind ?_ fun w hw =>
          parses_counted ((parses_arguments count).next fun as has => parses_pure ⟨?_, ?_⟩))
    · rintro _ ⟨rfl, rfl⟩
      simpa using BeforeWindow.launch hframe hdevice htask hcount hevents
    · exact ⟨hframe, hdevice, htask, has.1.symm ▸ hcount, hevents, hw.2, has.2⟩
    · simp [encode, opcode, encodeOperands, hw.1, has.1]
  | addDep =>
    exact .inl ((parses_index _).next fun events hevents =>
      parses_pure ⟨hevents, by simp [encode, opcode, encodeOperands]⟩)
  | barrier =>
    exact .inl (parses_eventList.next fun events hevents =>
      parses_pure ⟨hevents, by simp [encode, opcode, encodeOperands]⟩)
  | finish => exact .inl (parses_pure ⟨trivial, rfl⟩)
  | setup | enter | context | constantArg | referenceArg => exact .inr ⟨_, rfl, rfl⟩

theorem reads_operands (start : Nat) {i : Instruction} (h : i.InRange) :
    Reads (operands start i.opcode) i i.encodeOperands := by
  cases i with
  | allocate object device window =>
    obtain ⟨hobject, hdevice, hwindow⟩ := h
    exact (reads_index _ hobject).bind ((reads_index _ hdevice).bind ((reads_windowIf hwindow).bind
      (reads_pure _) rfl) rfl) (by simp [encodeOperands])
  | transfer kind object device events window =>
    obtain ⟨hobject, hdevice, hevents, hwindow⟩ := h
    exact (reads_index _ hobject).bind ((reads_index _ hdevice).bind ((reads_eventList hevents).bind
      ((reads_windowIf hwindow).bind (reads_pure _) rfl) rfl) rfl) (by simp [encodeOperands])
  | launch frame device task events window arguments =>
    obtain ⟨hframe, hdevice, htask, hcount, hevents, hwindow, harguments⟩ := h
    refine (reads_index _ hframe).bind ((reads_index _ hdevice).bind ((reads_index _ htask).bind
      ((reads_index _ hcount).bind ((reads_eventList hevents).bind ((reads_windowIf hwindow).bind
        (v := arguments.flatMap encodeArgument) ?_ rfl) rfl) rfl) rfl) rfl)
        (by simp [encodeOperands])
    exact reads_counted harguments (reads_pure _)
  | addDep events => exact (reads_index _ h).bind (reads_pure _) (List.append_nil _).symm
  | barrier events => exact (reads_eventList h).bind (reads_pure _) (List.append_nil _).symm
  | finish => exact reads_pure _

theorem parses_instruction : Parses k G (Written InRange encode) BeforeWindow instruction := by
  refine parses_tagOrEnd (fun _ => rfl) ⟨.finish, _, trivial, rfl⟩ fun start b => ?_
  split
  · rename_i op hop
    rw [← Opcode.byte_of_ofByte? hop]
    exact parses_operands start op
  · exact .inr ⟨_, rfl, rfl⟩

theorem reads_instruction {i : Instruction} (h : i.InRange) : Reads instruction i i.encode := by
  refine reads_tagOrEnd fun start => ?_
  rw [Opcode.ofByte?_byte]
  exact reads_operands start h

/-- The devices to load, up to the start of the body. -/
def encodeContexts (ds : List Nat) : Bytes :=
  ds.flatMap (fun d => Opcode.context.byte :: encodeIndex d) ++ [Opcode.enter.byte]

theorem parses_contexts (fuel : Nat) :
    Parses true G (Written (fun ds => ∀ d ∈ ds, d ≤ maxIndex) encodeContexts) (fun _ => False)
      (contexts fuel) := by
  induction fuel generalizing G with
  | zero =>
    exact parses_start ⟨[], _, by simp, rfl⟩ (fun c ds c' h => by cases h)
      fun c e c' h => by cases h; rfl
  | succ fuel ih =>
    refine parses_tag ⟨[], _, by simp, rfl⟩ fun start b => ?_
    split
    · subst b
      exact .inl (parses_pure ⟨by simp, rfl⟩)
    · split
      · exact .inr ⟨_, rfl, rfl, rfl⟩
      · rename_i hcontext
        rw [not_not] at hcontext
        subst b
        refine .inl ((parses_index _).next fun d hd => ih.next fun ds hds => parses_pure ⟨?_, ?_⟩)
        · simpa using ⟨hd, hds⟩
        · simp [encodeContexts]

theorem reads_contexts {ds : List Nat} (h : ∀ d ∈ ds, d ≤ maxIndex) {fuel : Nat}
    (hfuel : ds.length < fuel) :
    Reads (contexts fuel) ds (encodeContexts ds) := by
  induction ds generalizing fuel with
  | nil =>
    obtain ⟨fuel, rfl⟩ := Nat.exists_eq_add_one_of_ne_zero hfuel.ne_bot
    exact reads_tag fun start => by rw [if_pos rfl]; exact reads_pure []
  | cons d ds ih =>
    obtain ⟨fuel, rfl⟩ := Nat.exists_eq_add_one_of_ne_zero hfuel.ne_bot
    obtain ⟨hd, hds⟩ := List.forall_mem_cons.1 h
    refine reads_tag fun start => ?_
    rw [if_neg (by decide), if_neg (by simp)]
    exact (reads_index _ hd).bind ((ih hds (Nat.lt_of_succ_lt_succ hfuel)).bind (reads_pure _) rfl)
      (by simp [encodeContexts, List.flatMap_def])

theorem parses_header :
    Parses true G (Written Header.InRange Header.encode) (fun _ => False) header := by
  refine parses_tag ⟨⟨0, 0, 0, []⟩, _, by simp [Header.InRange], rfl⟩ fun start b => ?_
  split
  · exact .inr ⟨_, rfl, rfl, rfl⟩
  · rename_i hsetup
    rw [not_not] at hsetup
    subst b
    refine .inl ((parses_index _).next fun devices hdevices =>
      (parses_index _).next fun tasks htasks =>
      (parses_index _).next fun lists hlists => parses_remaining fun left =>
        (parses_contexts left).next fun ds hds => parses_pure ⟨⟨hdevices, htasks, hlists, hds⟩, ?_⟩)
    simp [Header.encode, encodeContexts]

theorem reads_header {h : Header} (hh : h.InRange) : Reads header h h.encode := by
  obtain ⟨hdevices, htasks, hlists, hds⟩ := hh
  refine reads_tag fun start => ?_
  rw [if_neg (by simp)]
  refine (reads_index _ hdevices).bind
    ((reads_index _ htasks).bind
      ((reads_index _ hlists).bind
        (reads_remaining fun left hleft =>
          (reads_contexts hds ?_).bind (reads_pure _) (List.append_nil _).symm) rfl) rfl) ?_
  · have hlength : h.contexts.length ≤
        (h.contexts.flatMap fun d => Opcode.context.byte :: encodeIndex d).length := by
      simp [List.length_flatMap]; omega
    simp only [encodeContexts, List.length_append, List.length_singleton] at hleft
    omega
  · simp [encodeContexts]

theorem run_header (c c' : Cursor) (h : Header) :
    header.run c = (.ok h, c') ↔ h.InRange ∧ c.Spans h.encode c' := by
  refine ⟨fun hrun => ?_, fun hh => reads_header hh.1 c c' hh.2⟩
  obtain ⟨_, ⟨hh, rfl⟩, hspan⟩ := (parses_header (G := fun _ => False)).value c h c' hrun
  exact ⟨hh, hspan⟩

/-- The bytes of a body up to a window. -/
def BodyLead (lead : Bytes) : Prop :=
  ∃ (is : List Instruction) (last : Bytes), (∀ i ∈ is, i.InRange ∧ i ≠ .finish) ∧
    BeforeWindow last ∧ lead = is.flatMap encode ++ last

theorem parses_body (fuel : Nat) :
    Parses k G (Written (fun is => EndsOnce is ∧ ∀ i ∈ is, i.InRange) (List.flatMap encode))
      BodyLead (body fuel) := by
  have hend : EndsOnce [.finish] ∧ ∀ i ∈ [Instruction.finish], i.InRange :=
    ⟨⟨[], rfl, by simp⟩, by simp [InRange]⟩
  induction fuel with
  | zero =>
    exact parses_start ⟨_, _, hend, rfl⟩ (fun c is c' h => by cases h)
      fun c e c' h => by cases h; rfl
  | succ fuel ih =>
    refine parses_instruction.bind (fun lead hlead => ⟨[], lead, by simp, hlead, rfl⟩)
      fun i hi => ?_
    split
    · subst i
      exact parses_pure ⟨hend, rfl⟩
    · rename_i hne
      refine ih.bind ?_ fun is his => parses_pure ⟨?_, by simp⟩
      · rintro _ ⟨is, last, his, hlast, rfl⟩
        exact ⟨i :: is, last, by simpa using ⟨⟨hi, hne⟩, his⟩, hlast, by simp⟩
      · exact ⟨(endsOnce_cons _ _).2 (.inr ⟨hne, his.1⟩), by simpa using ⟨hi, his.2⟩⟩

theorem reads_body {is : List Instruction} (hends : EndsOnce is) (h : ∀ i ∈ is, i.InRange)
    {fuel : Nat} (hfuel : is.length ≤ fuel) : Reads (body fuel) is (is.flatMap encode) := by
  induction is generalizing fuel with
  | nil => simp [EndsOnce] at hends
  | cons i is ih =>
    obtain ⟨fuel, rfl⟩ :=
      Nat.exists_eq_add_one_of_ne_zero (Nat.ne_of_gt (Nat.lt_of_lt_of_le (Nat.succ_pos _) hfuel))
    obtain ⟨hi, his⟩ := List.forall_mem_cons.1 h
    refine (reads_instruction hi).bind (v := is.flatMap encode) ?_ rfl
    obtain ⟨rfl, rfl⟩ | ⟨hne, hends⟩ := (endsOnce_cons _ _).1 hends
    · exact reads_pure _
    · rw [if_neg hne]
      exact (ih hends his (Nat.le_of_succ_le_succ hfuel)).bind (reads_pure _)
        (List.append_nil _).symm

/-- The bytes of a program up to a window. -/
def ProgramLead (lead : Bytes) : Prop :=
  ∃ (h : Header) (before : Bytes), h.InRange ∧ BodyLead before ∧ lead = h.encode ++ before

theorem parses_program :
    Parses true G (Written Program.Encodable Program.encode) ProgramLead program :=
  parses_header.next fun h hh => parses_remaining fun left =>
    (parses_body left).bind (fun lead hlead => ⟨h, lead, hh, hlead, rfl⟩) fun is his =>
      parses_pure ⟨⟨hh, his.2, his.1⟩, by simp [Program.encode]⟩

theorem run_program (c c' : Cursor) (p : Program) :
    program.run c = (.ok p, c') ↔ p.Encodable ∧ c.Spans p.encode c' := by
  constructor
  · intro hrun
    obtain ⟨_, ⟨hp, rfl⟩, hspan⟩ := (parses_program (G := fun _ => False)).value c p c' hrun
    exact ⟨hp, hspan⟩
  · rintro ⟨hp, hspan⟩
    refine ((reads_header hp.header).bind
      (reads_remaining fun left hleft => (reads_body hp.ends hp.body ?_).bind
        (reads_pure (⟨p.header, p.body⟩ : Program)) (List.append_nil _).symm) rfl) c c' hspan
    have hlength : p.body.length ≤ (p.body.flatMap encode).length := by
      simp [List.length_flatMap, encode]
    omega

end Reading

end Offload
