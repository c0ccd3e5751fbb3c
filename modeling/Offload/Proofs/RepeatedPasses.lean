import Offload.Proofs.RoundPrograms

/-!
# Passes over and over

A program of one round, without windows, that is run many times on one device. The first pass makes
the buffer and compiles the kernel, unless a warm-up pass has compiled it; the later passes find
both. A program that fills the buffer lazily writes it once, since what the launch has left in the
buffer is what was read back.
-/

namespace Offload

namespace Workpiece

variable {d : Device} {k : Workpiece} {words : List UInt32} {lazily : Bool} {n : Nat}

/-- The words before the first pass; the kernel may be compiled. -/
structure Fresh (d : Device) (words : List UInt32) (k : Workpiece) : Prop where
  bytes : k.bytes = Bytes.ofWords words
  copy : k.copy = none
  held : k.held = none
  allocations : k.allocations = d.counters.allocations
  writes : k.writes = d.counters.writes
  compilations : k.compile.compilations = d.counters.compilations + 1

theorem fresh_raw (d : Device) (words : List UInt32) : Fresh d words (raw d words) :=
  ⟨rfl, rfl, rfl, rfl, rfl, rfl⟩

theorem Fresh.compile (h : Fresh d words k) : Fresh d words k.compile where
  bytes := (bytes_compile k).trans h.bytes
  copy := (copy_compile k).trans h.copy
  held := (held_compile k).trans h.held
  allocations := by
    rw [← h.allocations]
    unfold Workpiece.compile
    split <;> rfl
  writes := by
    rw [← h.writes]
    unfold Workpiece.compile
    split <;> rfl
  compilations := by
    rw [compile_of_compiled (compiled_compile k)]
    exact h.compilations

/-- The words after so many passes of one round each. -/
structure Passed (d : Device) (words : List UInt32) (lazily : Bool) (n : Nat) (k : Workpiece) :
    Prop where
  bytes : k.bytes = Bytes.ofWords (words.map (· + UInt32.ofNat n))
  held : k.held = some none
  faithful : k.Faithful
  compiled : k.compiled = true
  allocations : k.allocations = d.counters.allocations + 1
  writes : k.writes = d.counters.writes + if lazily then 1 else n
  compilations : k.compilations = d.counters.compilations + 1

theorem map_add_ofNat_succ (words : List UInt32) (n : Nat) :
    (words.map (· + UInt32.ofNat n)).map (· + 1) = words.map (· + UInt32.ofNat (n + 1)) := by
  rw [List.map_map]
  refine List.map_congr_left fun w _ => ?_
  rw [Function.comp_apply, UInt32.ofNat_add, ← UInt32.add_assoc]
  rfl

theorem bytes_round_none (hws : k.bytes = Bytes.ofWords words)
    (hlimit : 4 * words.length ≤ maxWord64) (hk : k.Faithful) (id : BufferId) (lazily : Bool) :
    (k.round id lazily none).bytes = Bytes.ofWords (words.map (· + 1)) ∧
      (k.round id lazily none).Faithful := by
  have hround := bytes_round hws hlimit (range_none hws) (Nat.le_of_eq (Nat.zero_add _))
    hk id lazily
  rwa [addOneAt_all] at hround

theorem Faithful.hasRoom {window : Option Window} (h : k.Faithful) (hheld : k.held = some window) :
    k.hasRoom window = true := by
  obtain ⟨c, hc, hsize, -⟩ := h window hheld
  exact (Option.any_eq_true _ _).2 ⟨c, hc, decide_eq_true hsize⟩

/-- The counts after a round, and what is there then. -/
theorem counts_round (id : BufferId) (lazily : Bool) (window : Option Window) (k : Workpiece) :
    (k.round id lazily window).held = some window ∧ (k.round id lazily window).compiled = true ∧
      (k.round id lazily window).allocations = (k.allocate id window).allocations ∧
      (k.round id lazily window).writes = ((k.allocate id window).send lazily window).writes ∧
      (k.round id lazily window).compilations = k.compile.compilations := by
  obtain ⟨c, hc, -⟩ := k.exists_copy_allocate id window
  obtain ⟨bytes, hsent, -⟩ := exists_copy_send hc lazily window
  rw [round_eq hsent]
  refine ⟨by simp, by simp, ?_, ?_, ?_⟩
  · unfold compile send
    split_ifs <;> rfl
  · unfold compile
    split_ifs <;> rfl
  · rw [compile, compiled_send, compiled_allocate, compile]
    unfold send allocate
    split_ifs <;> rfl

/-- The first pass makes the buffer and fills it. -/
theorem Fresh.round (h : Fresh d words k) (hlimit : 4 * words.length ≤ maxWord64) (id : BufferId) :
    Passed d words lazily 1 (k.round id lazily none) := by
  obtain ⟨hheld, hcompiled, hallocations, hwrites, hcompilations⟩ := k.counts_round id lazily none
  have hmade : k.allocate id none = { k with
      copy := some (id, List.replicate (k.range none).size 0)
      held := none
      allocations := k.allocations + 1 } := by
    rw [allocate, hasRoom, h.copy]
    rfl
  have hnothing : k.Faithful := by
    simp [Faithful, h.held]
  obtain ⟨hbytes, hfaithful⟩ := bytes_round_none h.bytes hlimit hnothing id lazily
  refine ⟨hbytes, hheld, hfaithful, hcompiled, ?_, ?_, hcompilations.trans h.compilations⟩
  · rw [hallocations, hmade, ← h.allocations]
  · have hsent : ((k.allocate id none).send lazily none).writes = k.writes + 1 := by
      rw [hmade, send]
      cases lazily <;> rfl
    rw [hwrites, hsent, h.writes]
    cases lazily <;> rfl

/-- The next pass finds the buffer and fills it only if it is told to. -/
theorem Passed.round (h : Passed d words lazily n k) (hlimit : 4 * words.length ≤ maxWord64)
    (id : BufferId) :
    Passed d words lazily (n + 1) (k.round id lazily none) := by
  obtain ⟨hheld, hcompiled, hallocations, hwrites, hcompilations⟩ := k.counts_round id lazily none
  have hfound : k.allocate id none = k := if_pos (h.faithful.hasRoom h.held)
  obtain ⟨hbytes, hfaithful⟩ :=
    bytes_round_none h.bytes (by rwa [List.length_map]) h.faithful id lazily
  refine ⟨hbytes.trans ?_, hheld, hfaithful, hcompiled, ?_, ?_, ?_⟩
  · rw [map_add_ofNat_succ]
  · rw [hallocations, hfound, h.allocations]
  · rw [hwrites, hfound, send, h.held]
    cases lazily with
    | true => exact h.writes
    | false =>
      change k.writes + 1 = _
      rw [h.writes]
      rfl
  · rw [hcompilations, compile_of_compiled h.compiled, h.compilations]

/-- The words after so many passes, of which there may be none. -/
def Stage (d : Device) (words : List UInt32) (lazily : Bool) : Nat → Workpiece → Prop
  | 0 => Fresh d words
  | n + 1 => Passed d words lazily (n + 1)

theorem Stage.round (h : Stage d words lazily n k) (hlimit : 4 * words.length ≤ maxWord64)
    (id : BufferId) :
    Stage d words lazily (n + 1) (k.round id lazily none) := by
  cases n with
  | zero => exact Fresh.round h hlimit id
  | succ n => exact Passed.round h hlimit id

end Workpiece

namespace Machine

variable {c : Context} {d : Device} {place : Nat} {label : String} {words : List UInt32}
  {lazily : Bool}

theorem workable_of_stage {S : Scene} {n : Nat} {k : Workpiece} (h : k.Stage d words lazily n)
    (hlimit : 4 * words.length < Station.memoryLimit) : Workable S none k := by
  have hwords : k.bytes.length = 4 * words.length ∧ (k.copy = none ∨ k.hasRoom none = true) := by
    cases n with
    | zero => exact ⟨by rw [h.bytes, Bytes.length_ofWords], .inl h.copy⟩
    | succ n =>
      exact ⟨by rw [h.bytes, Bytes.length_ofWords, List.length_map],
        .inr (h.faithful.hasRoom h.held)⟩
  refine ⟨?_, lt_of_eq_of_lt hwords.1 hlimit, fun _ => hwords.2⟩
  exact decide_eq_true (Nat.le_trans (Nat.min_le_left _ _) (Nat.le_of_eq (Nat.zero_add _)))

/-- The machine is about to run the program of one round, and has run it so many times. -/
def AtStage (S : Scene) (d : Device) (words : List UInt32) (lazily : Bool) (n : Nat) (m : Machine) :
    Prop :=
  m.AtRest S (Workpiece.Stage d words lazily n) ∧
    m.Reads (Instruction.round lazily none ++ [.finish])

variable {S : Scene} {m : Machine}

theorem attains_pass (hlimit : 4 * words.length < Station.memoryLimit) (n : Nat) :
    Action.Attains (AtStage S d words lazily n) (serve (.pass .normal .plain))
      fun _ => AtStage S d words lazily (n + 1) := by
  have hmax : 4 * words.length ≤ maxWord64 := Nat.le_trans (Nat.le_of_lt hlimit) (by decide)
  exact (course_round (fun _ hk => workable_of_stage hk hlimit) fun _ id hk =>
    hk.round hmax id).attains_serve (Instruction.accepts_round lazily none)

theorem attains_warmup :
    Action.Attains (AtStage S d words lazily 0) (serve (.pass .warmup .plain))
      fun _ => AtStage S d words lazily 0 :=
  (course_round_warmup fun _ hk => Workpiece.Fresh.compile hk).attains_serve
    (Instruction.accepts_round lazily none)

theorem session_atStage (hlimit : 4 * words.length < Station.memoryLimit) (warm : Bool)
    (count : Nat) (hm : m.AtStage S d words lazily 0) :
    let requests :=
      (if warm then [.pass .warmup .plain] else []) ++ List.replicate count (.pass .normal .plain)
    (∀ outcome ∈ (session requests m).1, outcome.isOk = true) ∧
      (session requests m).2.AtStage S d words lazily count := by
  have hwarm : (∀ outcome ∈ (session (if warm then [.pass .warmup .plain] else []) m).1,
      outcome.isOk = true) ∧ (session (if warm then [.pass .warmup .plain] else []) m).2.AtStage S d
      words lazily 0 := by
    cases warm with
    | false => exact ⟨by simp [session], hm⟩
    | true =>
      exact session_replicate (P := fun _ => AtStage S d words lazily 0)
        (fun _ => attains_warmup) 1 0 hm
  obtain ⟨houtcomes, hend⟩ := session_replicate (attains_pass hlimit) count 0 hwarm.2
  rw [Nat.zero_add] at hend
  intro requests
  rw [session_append]
  refine ⟨fun outcome houtcome => ?_, hend⟩
  exact (List.mem_append.1 houtcome).elim (hwarm.1 outcome) (houtcomes outcome)

/-- A program that makes a buffer for an object of words, fills it, adds one to its words and reads
it back, and that is run again and again on one device, after a warm-up or without one. Whatever the
options of the device and the configuration are, every pass succeeds and in the end every word has
grown by the number of passes. The device has made one buffer and compiled once, and has written
once if the buffer was filled lazily and in every pass otherwise. -/
theorem session_adds {code : Bytes} {h : Header}
    (hp : Program.decode code = .ok ⟨h, Instruction.round lazily none ++ [.finish]⟩)
    (hcheck : h.check c = .ok ()) (hc : c.Prepared d place label words)
    (hlimit : 4 * words.length < Station.memoryLimit) (config : Config) (warm : Bool) (count : Nat)
    (hcount : 1 ≤ count) :
    ∃ m c', (create code config).run c = (.ok m, c') ∧
      let requests :=
        (if warm then [.pass .warmup .plain] else []) ++ List.replicate count (.pass .normal .plain)
      (∀ outcome ∈ (session requests m).1, outcome.isOk = true) ∧
      (session requests m).2.context.objects =
        c.objects.set place (.ofWords label (words.map (· + UInt32.ofNat count))) ∧
      ∃ d', (session requests m).2.context.devices = [d'] ∧
        d'.counters.allocations = d.counters.allocations + 1 ∧
        d'.counters.writes = d.counters.writes + (if lazily then 1 else count) ∧
        d'.counters.compilations = d.counters.compilations + 1 := by
  obtain ⟨m, c', hm, hrests, hreads⟩ := hc.exists_create hp hcheck config
  have hm₀ : m.AtStage hc.scene d words lazily 0 :=
    ⟨⟨_, Workpiece.fresh_raw d words, hrests⟩, hreads⟩
  obtain ⟨houtcomes, ⟨k, hk, hend⟩, -⟩ := session_atStage hlimit warm count hm₀
  obtain ⟨n, rfl⟩ : ∃ n, count = n + 1 := ⟨count - 1, by omega⟩
  obtain ⟨d', hd', hallocations, hwrites, hcompilations⟩ := hend.counters
  refine ⟨m, c', hm, houtcomes, ?_, d', hd', ?_, ?_, ?_⟩
  · rw [hend.objects, hk.bytes]
    rfl
  · rw [hallocations, hk.allocations]
  · rw [hwrites, hk.writes]
  · rw [hcompilations, hk.compilations]

/-- Three passes after a warm-up, on a deferred device that retains frames. One of the words wraps
around, and the device is written once. -/
theorem session_adds_three :
    let p : Program := ⟨⟨1, 1, 0, [0]⟩,
      [.allocate 0 0 none, .transfer .copyIn 0 0 none none, .launch 0 0 0 none none [.reference 0],
        .transfer (.streamOut true) 0 0 none none, .finish]⟩
    let c : Context := {
      devices := [{ name := "d", options := { deferred := true, retainCallFrames := true } }]
      objects := [.ofWords "a" [1, 4294967295]]
      constants := []
      tasks := [{ name := "add_one", accesses := [.readWrite] }] }
    let config : Config := { useDependencies := true }
    let requests : List Request :=
      [.pass .warmup .plain, .pass .normal .plain, .pass .normal .plain, .pass .normal .plain]
    ∃ m c', (create p.encode config).run c = (.ok m, c') ∧
      (∀ outcome ∈ (session requests m).1, outcome.isOk = true) ∧
      (session requests m).2.context.objects = [.ofWords "a" [4, 2]] ∧
      (session requests m).2.context.devices.map (fun d => d.counters.writes) = [1] := by
  intro p c config requests
  have hdecode : Program.decode p.encode =
      .ok ⟨p.header, Instruction.round true none ++ [.finish]⟩ := by
    decide +kernel
  have hc : c.Prepared { name := "d", options := { deferred := true, retainCallFrames := true } } 0
      "a" [1, 4294967295] := ⟨rfl, rfl, rfl, rfl, rfl, _, rfl, rfl⟩
  obtain ⟨m, c', hm, houtcomes, hobjects, d', hd', -, hwrites, -⟩ :=
    session_adds hdecode (by decide) hc (by decide) config true 3 (by decide)
  refine ⟨m, c', hm, houtcomes, hobjects, ?_⟩
  exact (congrArg (List.map _) hd').trans (congrArg (fun n => [n]) hwrites)

end Machine

end Offload
