import Mathlib
import Offload.Device.Station
import Offload.Residency

/-!
# Workpieces

A program that sends an object to a device, adds one to every word of it there and reads it back
works on few things: the bytes of the object, one buffer, the window that the buffer was filled
with, and whether the kernel is compiled. Here they are by themselves, with what each instruction
does to them. The buffer starts where the window starts and may be longer than the window; what is
behind the window was left there by others and is not read back.
-/

namespace Offload

variable {ws : List UInt32} {c : BufferId × Bytes}

/-! ## Words in byte strings -/

namespace Bytes

theorem length_ofWords (ws : List UInt32) : (ofWords ws).length = 4 * ws.length := by
  induction ws with
  | nil => rfl
  | cons w ws ih =>
    rw [ofWords, List.flatMap_cons, List.length_append, length_ofWord]
    change 4 + (ofWords ws).length = _
    rw [ih, List.length_cons]
    omega

theorem ofWords_append (ws vs : List UInt32) : ofWords (ws ++ vs) = ofWords ws ++ ofWords vs :=
  List.flatMap_append

theorem take_ofWords (ws : List UInt32) (n : Nat) :
    (ofWords ws).take (4 * n) = ofWords (ws.take n) := by
  by_cases hn : n ≤ ws.length
  · have hlength : (ofWords (ws.take n)).length = 4 * n := by
      rw [length_ofWords, List.length_take, Nat.min_eq_left hn]
    conv_lhs => rw [← List.take_append_drop n ws, ofWords_append, ← hlength, List.take_left]
  · have hws := List.take_of_length_le (Nat.le_of_not_le hn)
    rw [hws, List.take_of_length_le]
    rw [length_ofWords]
    omega

theorem drop_ofWords (ws : List UInt32) (n : Nat) :
    (ofWords ws).drop (4 * n) = ofWords (ws.drop n) := by
  have hsplit : ofWords (ws.take n) ++ (ofWords ws).drop (4 * n) =
      ofWords (ws.take n) ++ ofWords (ws.drop n) := by
    rw [← take_ofWords, List.take_append_drop, take_ofWords, ← ofWords_append,
      List.take_append_drop]
  exact List.append_cancel_left hsplit

theorem toWords_ofWord_append (w : UInt32) (bytes : Bytes) :
    toWords (ofWord w ++ bytes) = w :: toWords bytes := by
  have hword : UInt32.ofNat (toNat (ofWord w)) = w := by
    have hlt : w.toNat < Numeral.pow2 (8 * 4) := w.toNat_lt
    rw [ofWord, toNat_ofNat, Nat.mod_eq_of_lt hlt, UInt32.ofNat_toNat]
  conv_rhs => rw [← hword]
  rfl

theorem setWords_ofWord_append (v w : UInt32) (bytes : Bytes) (ws : List UInt32) :
    setWords (ofWord v ++ bytes) (w :: ws) = ofWord w ++ setWords bytes ws := rfl

/-- What the kernel that adds one leaves of a buffer. -/
def addOne (bytes : Bytes) : Bytes := setWords bytes ((toWords bytes).map (· + 1))

@[simp] theorem length_addOne (bytes : Bytes) : (addOne bytes).length = bytes.length :=
  length_setWords ..

theorem addOne_ofWords_append (ws : List UInt32) (rest : Bytes) :
    addOne (ofWords ws ++ rest) = ofWords (ws.map (· + 1)) ++ addOne rest := by
  induction ws with
  | nil => rfl
  | cons w ws ih =>
    have hcons : ofWords (w :: ws) ++ rest = ofWord w ++ (ofWords ws ++ rest) :=
      List.append_assoc (ofWord w) (ofWords ws) rest
    rw [hcons, addOne, toWords_ofWord_append, List.map_cons, setWords_ofWord_append]
    change ofWord (w + 1) ++ addOne (ofWords ws ++ rest) = _
    rw [ih]
    exact (List.append_assoc (ofWord (w + 1)) (ofWords (ws.map (· + 1))) (addOne rest)).symm

/-- Words at the start of a buffer are increased whatever is behind them. -/
theorem take_addOne {bytes : Bytes} (h : bytes.take (4 * ws.length) = ofWords ws) :
    (addOne bytes).take (4 * ws.length) = ofWords (ws.map (· + 1)) := by
  have hlength : (ofWords (ws.map (· + 1))).length = 4 * ws.length := by
    rw [length_ofWords, List.length_map]
  rw [← List.take_append_drop (4 * ws.length) bytes, h, addOne_ofWords_append, ← hlength,
    List.take_left]

theorem take_overwrite_zero {old new : Bytes} (h : new.length ≤ old.length) :
    (overwrite old 0 new).take new.length = new := by
  rw [overwrite, List.take_zero, List.nil_append, Nat.sub_zero, List.take_of_length_le h,
    List.take_left]

end Bytes

/-- The words of a list with one added to `n` of them, from the place `i` on. -/
def addOneAt (i n : Nat) (ws : List UInt32) : List UInt32 :=
  ws.take i ++ ((ws.drop i).take n).map (· + 1) ++ ws.drop (i + n)

theorem length_addOneAt {i n : Nat} (h : i + n ≤ ws.length) :
    (addOneAt i n ws).length = ws.length := by
  simp only [addOneAt, List.length_append, List.length_map, List.length_take, List.length_drop]
  omega

theorem addOneAt_all (ws : List UInt32) : addOneAt 0 ws.length ws = ws.map (· + 1) := by
  simp [addOneAt]

theorem take_drop_addOneAt {i n : Nat} (h : i + n ≤ ws.length) :
    ((addOneAt i n ws).drop i).take n = ((ws.drop i).take n).map (· + 1) := by
  have hbefore : (ws.take i).length = i := by
    rw [List.length_take]
    omega
  have hinside : (((ws.drop i).take n).map (· + 1)).length = n := by
    rw [List.length_map, List.length_take, List.length_drop]
    omega
  rw [addOneAt, List.append_assoc, List.drop_left' hbefore, List.take_left' hinside]

/-- Only the words in the window change. -/
theorem getElem?_addOneAt {i n : Nat} (h : i + n ≤ ws.length) (j : Nat) :
    (addOneAt i n ws)[j]? = ws[j]?.map fun w => if i ≤ j ∧ j < i + n then w + 1 else w := by
  have hbefore : (ws.take i).length = i := by
    rw [List.length_take]
    omega
  have hinside : (((ws.drop i).take n).map (· + 1)).length = n := by
    rw [List.length_map, List.length_take, List.length_drop]
    omega
  rw [addOneAt, List.append_assoc]
  rcases lt_or_ge j i with hj | hj
  · rw [List.getElem?_append_left (by omega), List.getElem?_take_of_lt hj]
    simp [Nat.not_le.2 hj]
  · rw [List.getElem?_append_right (by omega), hbefore]
    rcases lt_or_ge (j - i) n with hn | hn
    · rw [List.getElem?_append_left (by omega), List.getElem?_map, List.getElem?_take_of_lt hn,
        List.getElem?_drop, Nat.add_sub_cancel' hj]
      have hin : j < i + n := by omega
      simp [hj, hin]
    · rw [List.getElem?_append_right (by omega), hinside, List.getElem?_drop]
      have hplace : i + n + (j - i - n) = j := by omega
      have hout : ¬j < i + n := by omega
      simp [hplace, hout]

namespace Bytes

theorem overwrite_addOne {i n : Nat} (h : i + n ≤ ws.length) :
    overwrite (ofWords ws) (4 * i) (ofWords (((ws.drop i).take n).map (· + 1))) =
      ofWords (addOneAt i n ws) := by
  have hlength : (ofWords (((ws.drop i).take n).map (· + 1))).length = 4 * n := by
    rw [length_ofWords, List.length_map, List.length_take, List.length_drop]
    omega
  have hfits : (ofWords (((ws.drop i).take n).map (· + 1))).length ≤
      (ofWords ws).length - 4 * i := by
    rw [hlength, length_ofWords]
    omega
  rw [overwrite, List.take_of_length_le hfits, hlength, ← Nat.mul_add, take_ofWords, drop_ofWords,
    ← ofWords_append, ← ofWords_append, addOneAt]

end Bytes

/-! ## The piece -/

/-- The object that a program works on, and what the device has of it. -/
structure Workpiece where
  /-- The bytes on the host. -/
  bytes : Bytes
  /-- The buffer on the device, with its number. -/
  copy : Option (BufferId × Bytes) := none
  /-- The window that the buffer was last filled with; no window is the whole object. -/
  held : Option (Option Window) := none
  compiled : Bool := false
  allocations : Nat := 0
  writes : Nat := 0
  compilations : Nat := 0

namespace Workpiece

variable (id : BufferId) (lazily : Bool) (window : Option Window) (k : Workpiece)

/-- The bytes that are meant by a window, or by no window. -/
def range (k : Workpiece) (window : Option Window) : Window := window.getD (.whole k.bytes.length)

/-- The bytes of the object in a window. -/
def slice (k : Workpiece) (window : Option Window) : Bytes :=
  (k.bytes.take (k.range window).stop).drop (k.range window).offset

/-- Whether there is a buffer that is large enough for a window. -/
def hasRoom (k : Workpiece) (window : Option Window) : Bool :=
  k.copy.any fun c => (k.range window).size ≤ c.2.length

/-- Make sure that there is a buffer; a new one has the given number. -/
def allocate (id : BufferId) (window : Option Window) (k : Workpiece) : Workpiece :=
  if k.hasRoom window then k
  else { k with
    copy := some (id, List.replicate (k.range window).size 0)
    held := none
    allocations := k.allocations + 1 }

/-- Copy a window of the object over the start of the buffer. -/
def write (window : Option Window) (k : Workpiece) : Workpiece :=
  { k with
    copy := k.copy.map fun c => (c.1, Bytes.overwrite c.2 0 (k.slice window))
    held := some window
    writes := k.writes + 1 }

/-- Fill the buffer with a window; if `lazily`, only if it was filled with another one before. -/
def send (lazily : Bool) (window : Option Window) (k : Workpiece) : Workpiece :=
  if lazily && k.held == some window then k else k.write window

def compile (k : Workpiece) : Workpiece :=
  if k.compiled then k else { k with compiled := true, compilations := k.compilations + 1 }

/-- Add one to the words of the buffer. -/
def launch (k : Workpiece) : Workpiece :=
  { k.compile with copy := k.copy.map fun c => (c.1, Bytes.addOne c.2) }

/-- Copy the start of the buffer over a window of the object. -/
def fetch (window : Option Window) (k : Workpiece) : Workpiece :=
  match k.copy with
  | some (_, bytes) =>
    let range := k.range window
    { k with bytes := Bytes.overwrite k.bytes range.offset (bytes.take range.size) }
  | none => k

/-- A round of work on a window: make a buffer, fill it, launch, read back. -/
def round (id : BufferId) (lazily : Bool) (window : Option Window) (k : Workpiece) : Workpiece :=
  (((k.allocate id window).send lazily window).launch).fetch window

/-! ## What stays -/

@[simp] theorem bytes_allocate : (k.allocate id window).bytes = k.bytes := by
  unfold allocate
  split <;> rfl

@[simp] theorem compiled_allocate : (k.allocate id window).compiled = k.compiled := by
  unfold allocate
  split <;> rfl

@[simp] theorem bytes_send : (k.send lazily window).bytes = k.bytes := by
  unfold send
  split <;> rfl

@[simp] theorem compiled_send : (k.send lazily window).compiled = k.compiled := by
  unfold send
  split <;> rfl

@[simp] theorem held_send : (k.send lazily window).held = some window := by
  unfold send
  split
  · rename_i hheld
    simpa using (Bool.and_eq_true_iff.1 hheld).2
  · rfl

@[simp] theorem bytes_compile : k.compile.bytes = k.bytes := by
  unfold compile
  split <;> rfl

@[simp] theorem copy_compile : k.compile.copy = k.copy := by
  unfold compile
  split <;> rfl

@[simp] theorem held_compile : k.compile.held = k.held := by
  unfold compile
  split <;> rfl

@[simp] theorem compiled_compile : k.compile.compiled = true := by
  unfold compile
  split
  · assumption
  · rfl

theorem compile_of_compiled {k : Workpiece} (h : k.compiled = true) : k.compile = k := if_pos h

@[simp] theorem bytes_launch : k.launch.bytes = k.bytes := bytes_compile k

/-- What a window means depends on the length of the object only. -/
theorem range_of_bytes {k k' : Workpiece} (h : k'.bytes = k.bytes) (window : Option Window) :
    k'.range window = k.range window := by
  rw [range, range, h]

theorem length_slice_le (window : Option Window) :
    (k.slice window).length ≤ (k.range window).size := by
  rw [slice, List.length_drop, List.length_take, Window.stop]
  omega

/-- The buffer has room for a window after it was asked for. -/
theorem exists_copy_allocate :
    ∃ c, (k.allocate id window).copy = some c ∧ (k.range window).size ≤ c.2.length := by
  unfold allocate
  split
  · rename_i hroom
    obtain ⟨c, hc, hsize⟩ := (Option.any_eq_true _ _).1 hroom
    exact ⟨c, hc, of_decide_eq_true hsize⟩
  · exact ⟨_, rfl, by simp⟩

theorem hasRoom_allocate : (k.allocate id window).hasRoom window = true := by
  obtain ⟨c, hc, hsize⟩ := k.exists_copy_allocate id window
  rw [hasRoom, hc, range_of_bytes (bytes_allocate id window k)]
  exact decide_eq_true hsize

/-- The buffer keeps its number and its size when it is filled. -/
theorem exists_copy_send {k : Workpiece} (hc : k.copy = some c) (lazily : Bool)
    (window : Option Window) :
    ∃ bytes, (k.send lazily window).copy = some (c.1, bytes) ∧ bytes.length = c.2.length := by
  unfold send
  split
  · exact ⟨c.2, hc, rfl⟩
  · exact ⟨_, by rw [write, hc]; rfl, by simp⟩

theorem fetch_of_copy {k : Workpiece} (hc : k.copy = some c) (window : Option Window) :
    k.fetch window = { k with
      bytes := Bytes.overwrite k.bytes (k.range window).offset
        (c.2.take (k.range window).size) } := by
  rw [fetch, hc]

/-! ## Rounds -/

/-- The buffer starts with the bytes of the window that it was filled with. -/
def Faithful (k : Workpiece) : Prop :=
  ∀ window ∈ k.held, ∃ c ∈ k.copy, (k.range window).size ≤ c.2.length ∧
    c.2.take (k.range window).size = k.slice window

theorem Faithful.allocate {k : Workpiece} (h : k.Faithful) (id : BufferId)
    (window : Option Window) :
    (k.allocate id window).Faithful := by
  unfold Workpiece.allocate
  split
  · exact h
  · simp [Faithful]

/-- A round in which the buffer is `c` when it has been filled. -/
theorem round_eq {k : Workpiece} {id : BufferId} {lazily : Bool} {window : Option Window}
    (hc : ((k.allocate id window).send lazily window).copy = some c) :
    k.round id lazily window = { ((k.allocate id window).send lazily window).compile with
      copy := some (c.1, Bytes.addOne c.2)
      bytes := Bytes.overwrite k.bytes (k.range window).offset
        ((Bytes.addOne c.2).take (k.range window).size) } := by
  have hlaunched : ((k.allocate id window).send lazily window).launch.copy =
      some (c.1, Bytes.addOne c.2) := by
    rw [launch, hc]
    rfl
  have hbytes : ((k.allocate id window).send lazily window).launch.bytes = k.bytes := by simp
  rw [round, fetch_of_copy hlaunched, hbytes, range_of_bytes hbytes, launch, hc]
  rfl

section Words

variable {k : Workpiece} {window : Option Window} {i n : Nat}

theorem range_none (hws : k.bytes = Bytes.ofWords ws) : k.range none = ⟨4 * 0, 4 * ws.length⟩ := by
  rw [range, hws, Option.getD_none, Window.whole, Bytes.length_ofWords]

/-- The bytes of a window of whole words. -/
theorem slice_of_words (hws : k.bytes = Bytes.ofWords ws) (hlimit : 4 * ws.length ≤ maxWord64)
    (hrange : k.range window = ⟨4 * i, 4 * n⟩) (hin : i + n ≤ ws.length) :
    k.slice window = Bytes.ofWords ((ws.drop i).take n) := by
  have hstop : (k.range window).stop = 4 * (i + n) := by
    rw [hrange, Window.stop, ← Nat.mul_add]
    exact Nat.min_eq_left (by omega)
  rw [slice, hstop, hrange, hws, Bytes.take_ofWords, Bytes.drop_ofWords, List.drop_take,
    Nat.add_sub_cancel_left]

/-- After it was filled, the buffer starts with the words of the window. -/
theorem take_copy_send (hws : k.bytes = Bytes.ofWords ws) (hlimit : 4 * ws.length ≤ maxWord64)
    (hrange : k.range window = ⟨4 * i, 4 * n⟩) (hin : i + n ≤ ws.length) (hk : k.Faithful)
    (hc : k.copy = some c) (hroom : 4 * n ≤ c.2.length) (lazily : Bool) :
    ∃ c' ∈ (k.send lazily window).copy, 4 * n ≤ c'.2.length ∧
      c'.2.take (4 * n) = Bytes.ofWords ((ws.drop i).take n) := by
  have hslice := slice_of_words hws hlimit hrange hin
  have hlength : (k.slice window).length = 4 * n := by
    rw [hslice, Bytes.length_ofWords, List.length_take, List.length_drop]
    omega
  unfold send
  split
  · rename_i hheld
    have hwindow : k.held = some window := by simpa using (Bool.and_eq_true_iff.1 hheld).2
    obtain ⟨c', hc', hsize, hstart⟩ := hk window hwindow
    rw [hrange] at hsize hstart
    exact ⟨c', hc', hsize, hstart.trans hslice⟩
  · refine ⟨(c.1, Bytes.overwrite c.2 0 (k.slice window)), by rw [write, hc]; rfl, by
      simpa using hroom, ?_⟩
    rw [← hlength] at hroom ⊢
    rw [Bytes.take_overwrite_zero hroom, hslice]

/-- A round adds one to the words of its window and leaves the other words as they are, however long
the buffer was and whatever it held. -/
theorem bytes_round (hws : k.bytes = Bytes.ofWords ws) (hlimit : 4 * ws.length ≤ maxWord64)
    (hrange : k.range window = ⟨4 * i, 4 * n⟩) (hin : i + n ≤ ws.length) (hk : k.Faithful)
    (id : BufferId) (lazily : Bool) :
    (k.round id lazily window).bytes = Bytes.ofWords (addOneAt i n ws) ∧
      (k.round id lazily window).Faithful := by
  have hbytes := bytes_allocate id window k
  obtain ⟨c, hc, hroom⟩ := k.exists_copy_allocate id window
  rw [hrange] at hroom
  obtain ⟨c', hc', hroom', hstart⟩ := take_copy_send (hbytes.trans hws) hlimit
    ((range_of_bytes hbytes window).trans hrange) hin (hk.allocate id window) hc hroom lazily
  have hwords : ((ws.drop i).take n).length = n := by
    rw [List.length_take, List.length_drop]
    omega
  -- The launch has increased the words at the start of the buffer, and these are read back.
  have hadded : (Bytes.addOne c'.2).take
      (4 * n) = Bytes.ofWords (((ws.drop i).take n).map (· + 1)) := by
    have htake : (Bytes.addOne c'.2).take (4 * ((ws.drop i).take n).length) = _ :=
      Bytes.take_addOne (by rw [hwords, hstart])
    rwa [hwords] at htake
  have hround := round_eq hc'
  have hresult : (k.round id lazily window).bytes = Bytes.ofWords (addOneAt i n ws) := by
    rw [hround, hrange, hadded, hws, Bytes.overwrite_addOne hin]
  refine ⟨hresult, fun window' hwindow' => ?_⟩
  obtain rfl : window = window' := by
    rw [hround] at hwindow'
    simpa using hwindow'
  have hlength : (addOneAt i n ws).length = ws.length := length_addOneAt hin
  have hrange' : (k.round id lazily window).range window = ⟨4 * i, 4 * n⟩ := by
    rw [← hrange, range, range, hresult, hws, Bytes.length_ofWords, Bytes.length_ofWords, hlength]
  refine ⟨(c'.1, Bytes.addOne c'.2), by rw [hround]; rfl, ?_, ?_⟩
  · rw [hrange', Bytes.length_addOne]
    exact hroom'
  · rw [hrange', hadded, slice_of_words hresult (hlength ▸ hlimit) hrange' (hlength ▸ hin),
      take_drop_addOneAt hin]

end Words

end Workpiece

end Offload
