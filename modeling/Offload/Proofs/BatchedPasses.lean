import Offload.Proofs.RoundPrograms

/-!
# Passes in batches

A program that works on an object of words window by window, in one pass, has the result of a
program that works on the whole object at once. The windows may come in any order and may be empty;
a window for which the buffer is too small gets a new one, and a smaller window is worked on in the
buffer that is there.
-/

namespace Offload

namespace Window

/-- The byte lies in the window. -/
def Has (w : Window) (byte : Nat) : Prop := w.offset ≤ byte ∧ byte < w.offset + w.size

instance (w : Window) (byte : Nat) : Decidable (w.Has byte) := inferInstanceAs (Decidable (_ ∧ _))

/-- The windows cut `length` bytes into runs of whole words, in any order. -/
structure Cut (length : Nat) (windows : List Window) : Prop where
  aligned : ∀ w ∈ windows, 4 ∣ w.offset ∧ 4 ∣ w.size
  inside : ∀ w ∈ windows, w.offset + w.size ≤ length
  disjoint : windows.Pairwise fun v w => ∀ byte, v.Has byte → ¬w.Has byte
  covering : ∀ byte < length, ∃ w ∈ windows, w.Has byte

variable {windows : List Window} {ws : List UInt32} {length : Nat}

theorem countP_has_le_one (h : windows.Pairwise fun v w => ∀ byte, v.Has byte → ¬w.Has byte)
    (byte : Nat) :
    windows.countP (fun w => w.Has byte) ≤ 1 := by
  induction h with
  | nil => exact Nat.zero_le 1
  | @cons v windows hv _ ih =>
    by_cases hbyte : v.Has byte
    · have hnone : windows.countP (fun w => w.Has byte) = 0 := by
        refine List.countP_eq_zero.2 fun w hw => ?_
        simpa using hv w hw byte hbyte
      rw [List.countP_cons, hnone, Nat.zero_add]
      split <;> omega
    · rw [List.countP_cons_of_neg (by simpa using hbyte)]
      exact ih

/-- Every byte lies in exactly one window of a cut. -/
theorem Cut.countP_eq_one (h : Cut length windows) {byte : Nat} (hbyte : byte < length) :
    windows.countP (fun w => w.Has byte) = 1 := by
  obtain ⟨w, hw, hhas⟩ := h.covering byte hbyte
  have hpos : 0 < windows.countP fun w => w.Has byte :=
    List.countP_pos_iff.2 ⟨w, hw, decide_eq_true hhas⟩
  exact Nat.le_antisymm (countP_has_le_one h.disjoint byte) hpos

/-- The words with one added to those of each window, window by window. -/
def sweep (windows : List Window) (ws : List UInt32) : List UInt32 :=
  windows.foldl (fun ws w => addOneAt (w.offset / 4) (w.size / 4) ws) ws

/-- A word has grown by the number of the windows that it lies in. -/
theorem getElem?_sweep (haligned : ∀ w ∈ windows, 4 ∣ w.offset ∧ 4 ∣ w.size)
    (hinside : ∀ w ∈ windows, w.offset + w.size ≤ 4 * ws.length) (j : Nat) :
    (sweep windows ws)[j]? =
      ws[j]?.map (· + UInt32.ofNat (windows.countP fun w => w.Has (4 * j))) := by
  induction windows generalizing ws with
  | nil => simp [sweep]
  | cons v windows ih =>
    obtain ⟨⟨⟨i, hoffset⟩, n, hsize⟩, haligned⟩ := List.forall_mem_cons.1 haligned
    obtain ⟨hin, hinside⟩ := List.forall_mem_cons.1 hinside
    have hwords : v.offset / 4 = i ∧ v.size / 4 = n := by omega
    have hlength : (addOneAt i n ws).length = ws.length := length_addOneAt (by omega)
    have hhas : v.Has (4 * j) ↔ i ≤ j ∧ j < i + n := by
      unfold Has
      omega
    have hrest : (sweep windows (addOneAt i n ws))[j]? = _ := ih haligned (by rwa [hlength])
    rw [sweep, List.foldl_cons, hwords.1, hwords.2]
    refine hrest.trans ?_
    rw [getElem?_addOneAt (by omega), Option.map_map]
    refine congrArg (ws[j]?.map ·) (funext fun w => ?_)
    rw [Function.comp_apply, List.countP_cons, UInt32.ofNat_add]
    by_cases hj : i ≤ j ∧ j < i + n
    · simp only [hj, hhas, and_self, decide_true, if_true]
      rw [UInt32.add_assoc, UInt32.add_comm 1]
      rfl
    · simp [hj, hhas]

theorem Cut.sweep_eq (h : Cut (4 * ws.length) windows) : sweep windows ws = ws.map (· + 1) := by
  refine List.ext_getElem? fun j => ?_
  rw [getElem?_sweep h.aligned h.inside, List.getElem?_map]
  by_cases hj : j < ws.length
  · rw [h.countP_eq_one (by omega)]
    rfl
  · rw [List.getElem?_eq_none (Nat.le_of_not_lt hj)]
    rfl

end Window

namespace Machine

variable {S : Scene} {c : Context} {d : Device} {place : Nat} {label : String}
  {words ws : List UInt32} {lazily : Bool}

/-- The words are on the host, and what the device has of them is current. -/
def Current (ws : List UInt32) (k : Workpiece) : Prop := k.bytes = Bytes.ofWords ws ∧ k.Faithful

theorem course_current (hretain : S.options.retainCallFrames = false)
    (hlimit : 4 * ws.length < Station.memoryLimit) {window : Option Window} {i n : Nat}
    (hrange : ∀ k, Current ws k → k.range window = ⟨4 * i, 4 * n⟩) (hin : i + n ≤ ws.length) :
    Course .normal (AtRest S (Current ws)) (Instruction.round lazily window)
      (AtRest S (Current (addOneAt i n ws))) := by
  have hmax : 4 * ws.length ≤ maxWord64 := Nat.le_trans (Nat.le_of_lt hlimit) (by decide)
  refine course_round (fun k hk => ⟨?_, ?_, ?_⟩) fun k id hk =>
    Workpiece.bytes_round hk.1 hmax (hrange k hk) hin hk.2 id lazily
  · rw [hrange k hk, hk.1, Bytes.length_ofWords]
    refine decide_eq_true (Nat.le_trans (Nat.min_le_left _ _) ?_)
    dsimp only
    omega
  · rw [hrange k hk]
    dsimp only
    omega
  · simp [hretain]

theorem course_sweep (hretain : S.options.retainCallFrames = false)
    (hlimit : 4 * ws.length < Station.memoryLimit) {windows : List Window}
    (haligned : ∀ w ∈ windows, 4 ∣ w.offset ∧ 4 ∣ w.size)
    (hinside : ∀ w ∈ windows, w.offset + w.size ≤ 4 * ws.length) :
    Course .normal (AtRest S (Current ws))
      (windows.flatMap fun w => Instruction.round lazily (some w))
      (AtRest S (Current (Window.sweep windows ws))) := by
  induction windows generalizing ws with
  | nil => exact .done detached_atRest
  | cons v windows ih =>
    obtain ⟨⟨hoffset, hsize⟩, haligned⟩ := List.forall_mem_cons.1 haligned
    obtain ⟨hin, hinside⟩ := List.forall_mem_cons.1 hinside
    have hlength : (addOneAt (v.offset / 4) (v.size / 4) ws).length = ws.length :=
      length_addOneAt (by omega)
    have hrange : v = ⟨4 * (v.offset / 4), 4 * (v.size / 4)⟩ := by
      rw [Nat.mul_div_cancel' hoffset, Nat.mul_div_cancel' hsize]
    have hround : Course .normal (AtRest S (Current ws)) (Instruction.round lazily (some v))
        (AtRest S (Current (addOneAt (v.offset / 4) (v.size / 4) ws))) :=
      course_current hretain hlimit (fun _ _ => hrange) (by omega)
    exact hround.append (ih (by rwa [hlength]) haligned (by rwa [hlength]))

theorem Course.exists_pass {hc : c.Prepared d place label words} {is : List Instruction}
    (h : Course .normal (AtRest hc.scene (Current words)) is (AtRest hc.scene (Current ws)))
    {kind : PassKind} (haccepts : ∀ i ∈ is, kind.accepts i.opcode = true ∧ i ≠ .finish)
    {code : Bytes} {header : Header} (hp : Program.decode code = .ok ⟨header, is ++ [.finish]⟩)
    (hcheck : header.check c = .ok ()) (config : Config) :
    ∃ m c' event m', (create code config).run c = (.ok m, c') ∧
      (runPass .normal kind).run m = (.ok event, m') ∧
      m'.context.objects = c.objects.set place (.ofWords label ws) := by
  obtain ⟨m, c', hm, hrests, hreads⟩ := hc.exists_create hp hcheck config
  have hraw : Current words (.raw d words) := ⟨rfl, by simp [Workpiece.Faithful, Workpiece.raw]⟩
  obtain ⟨event, m', hrun, ⟨k, hk, hend⟩, -⟩ :=
    h.attains_serve haccepts m ⟨⟨_, hraw, hrests⟩, hreads⟩
  refine ⟨m, c', event, m', hm, hrun, ?_⟩
  rw [hend.objects, hk.1]
  rfl

/-- An object of words, cut into windows, on a device that does not retain frames. One pass over a
program that works on one window after the other succeeds, adds one to every word, and leaves what
one pass over a program without windows leaves. -/
theorem batched_eq_plain {code code' : Bytes} {h h' : Header} {windows : List Window}
    (hc : c.Prepared d place label words) (hlimit : 4 * words.length < Station.memoryLimit)
    (hretain : d.options.retainCallFrames = false) (hcut : Window.Cut (4 * words.length) windows)
    (hp : Program.decode code =
      .ok ⟨h, (windows.flatMap fun w => Instruction.round true (some w)) ++ [.finish]⟩)
    (hcheck : h.check c = .ok ())
    (hp' : Program.decode code' = .ok ⟨h', Instruction.round true none ++ [.finish]⟩)
    (hcheck' : h'.check c = .ok ()) (config config' : Config) :
    (∃ m₀ c₁ event m, (create code config).run c = (.ok m₀, c₁) ∧
      (runPass .normal .batched).run m₀ = (.ok event, m) ∧
      m.context.objects = c.objects.set place (.ofWords label (words.map (· + 1)))) ∧
    ∃ m₀ c₁ event m, (create code' config').run c = (.ok m₀, c₁) ∧
      (runPass .normal .plain).run m₀ = (.ok event, m) ∧
      m.context.objects = c.objects.set place (.ofWords label (words.map (· + 1))) := by
  have hbatched : Course .normal (AtRest hc.scene (Current words))
      (windows.flatMap fun w => Instruction.round true (some w))
      (AtRest hc.scene (Current (words.map (· + 1)))) := by
    rw [← hcut.sweep_eq]
    exact course_sweep hretain hlimit hcut.aligned hcut.inside
  have hplain : Course .normal (AtRest hc.scene (Current words)) (Instruction.round true none)
      (AtRest hc.scene (Current (words.map (· + 1)))) := by
    rw [← addOneAt_all]
    exact course_current hretain hlimit (fun _ hk => Workpiece.range_none hk.1)
      (Nat.le_of_eq (Nat.zero_add _))
  refine ⟨hbatched.exists_pass (fun i hi => ?_) hp hcheck config,
    hplain.exists_pass (Instruction.accepts_round true none) hp' hcheck' config'⟩
  obtain ⟨w, -, hw⟩ := List.mem_flatMap.1 hi
  exact Instruction.accepts_round true (some w) i hw

/-- Three words in four windows: the last two words, an empty window, the first word in the buffer
of the last two, and an empty window at the end. The device is deferred. -/
theorem batched_eq_plain_three :
    let windows : List Window := [⟨4, 8⟩, ⟨8, 0⟩, ⟨0, 4⟩, ⟨12, 0⟩]
    let p : Program :=
      ⟨⟨1, 1, 0, [0]⟩, (windows.flatMap fun w => Instruction.round true (some w)) ++ [.finish]⟩
    let c : Context := {
      devices := [{ name := "d", options := { deferred := true } }]
      objects := [.ofWords "a" [1, 4294967295, 7]]
      constants := []
      tasks := [{ name := "add_one", accesses := [.readWrite] }] }
    ∃ m₀ c₁ event m, (create p.encode {}).run c = (.ok m₀, c₁) ∧
      (runPass .normal .batched).run m₀ = (.ok event, m) ∧
      m.context.objects = [.ofWords "a" [2, 0, 8]] := by
  intro windows p c
  have hdecode : Program.decode p.encode = .ok p := by decide +kernel
  have hplain : Program.decode
      (Program.encode ⟨p.header, Instruction.round true none ++ [.finish]⟩) =
      .ok ⟨p.header, Instruction.round true none ++ [.finish]⟩ := by decide +kernel
  have hc : c.Prepared { name := "d", options := { deferred := true } } 0 "a" [1, 4294967295, 7] :=
    ⟨rfl, rfl, rfl, rfl, rfl, _, rfl, rfl⟩
  have hcut : Window.Cut 12 windows := by
    have hapart : windows.Pairwise fun v w =>
        v.size = 0 ∨ w.size = 0 ∨ v.offset + v.size ≤ w.offset ∨
          w.offset + w.size ≤ v.offset := by decide
    refine ⟨by decide, by decide, hapart.imp fun hvw byte hv hw => ?_, by decide⟩
    unfold Window.Has at hv hw
    omega
  exact (batched_eq_plain hc (by decide) rfl hcut hdecode (by decide) hplain (by decide) {} {}).1

end Machine

end Offload
