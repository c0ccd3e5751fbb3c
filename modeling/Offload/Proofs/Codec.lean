import Offload.Proofs.Parsing

/-!
# Programs and their bytes

Decoding accepts exactly what a draft emits. A stream that is no program is refused at a place up to
which it could still have become one, with the exception of a window that is cut behind a negative
offset.
-/

namespace Offload

open Offload.Action

namespace Draft

theorem build_foldl_context (d : Draft) (contexts : List Nat) :
    contexts.foldl Draft.context d =
      { d with header := { d.header with contexts := d.header.contexts ++ contexts } } := by
  induction contexts generalizing d with
  | nil => simp
  | cons device contexts ih => simp [ih, Draft.context]

theorem build_foldl_instruction (d : Draft) (is : List Instruction) :
    is.foldl Draft.instruction d = { d with body := d.body ++ is.flatMap Instruction.encode } := by
  induction is generalizing d with
  | nil => simp
  | cons i is ih => simp [ih, Draft.instruction]

end Draft

namespace Fault

/-- The place in a stream that a fault names. -/
def offset? : Fault → Option Nat
  | .decode offset _ | .missingMarker _ _ offset | .unknownOpcode _ offset
  | .unexpectedOpcode _ _ offset | .missingEnd offset => some offset
  | .headerMismatch .. | .indexOutOfRange .. | .windowOutOfRange .. | .eventListFull ..
  | .multiDeviceBarrier .. | .frameOverflow .. | .objectNotValid .. | .objectNotAllocated ..
  | .compilation .. | .codeNotInstalled .. | .device .. => none

theorem IsAt.offset? {markers : Bool} {place : Nat} {fault : Fault} (h : fault.IsAt markers place) :
    fault.category = .protocol ∧ fault.offset? = some place := by
  cases fault <;> simp_all [IsAt, category, Fault.offset?]

end Fault

namespace Program

open Reading Cursor

/-- The draft of a program: its devices to load and its instructions are added one by one. -/
def draft (p : Program) : Draft :=
  p.body.foldl Draft.instruction (p.header.contexts.foldl Draft.context
    (.new p.header.devices p.header.tasks p.header.eventLists))

@[simp] theorem build_draft (p : Program) : p.draft.build = p.encode := by
  simp [draft, Draft.build_foldl_instruction, Draft.build_foldl_context, Draft.new, Draft.build,
    encode]

/-- The bytes of a stream that reading a program from it moves over. -/
def consumed (code : Bytes) : Bytes := code.take (program.after (.ofBytes code)).offset

theorem decode_eq_ok_iff_run (code : Bytes) (p : Program) :
    decode code = .ok p ↔ ∃ c, program.run (.ofBytes code) = (.ok p, c) := by
  rw [decode, outcome_eq]
  rcases program.run (.ofBytes code) with ⟨result, c⟩
  simp

theorem spans_ofBytes (code bytes rest : Bytes) (n : Nat) :
    (Cursor.ofBytes code).Spans bytes ⟨rest, n⟩ ↔ code = bytes ++ rest ∧ n = bytes.length := by
  simp [Spans, Cursor.ofBytes]

theorem decode_eq_ok_iff_starts (code : Bytes) (p : Program) :
    decode code = .ok p ↔ p.Encodable ∧ p.encode <+: code := by
  rw [decode_eq_ok_iff_run]
  constructor
  · rintro ⟨⟨rest, n⟩, h⟩
    obtain ⟨hp, hspan⟩ := (run_program _ _ _).1 h
    exact ⟨hp, rest, ((spans_ofBytes _ _ _ _).1 hspan).1.symm⟩
  · rintro ⟨hp, rest, hcode⟩
    refine ⟨⟨rest, p.encode.length⟩, (run_program _ _ _).2 ⟨hp, ?_⟩⟩
    exact (spans_ofBytes _ _ _ _).2 ⟨hcode.symm, rfl⟩

theorem consumed_of_decode {code : Bytes} {p : Program} (h : decode code = .ok p) :
    consumed code = p.encode := by
  obtain ⟨⟨rest, n⟩, hrun⟩ := (decode_eq_ok_iff_run _ _).1 h
  obtain ⟨rfl, rfl⟩ := (spans_ofBytes _ _ _ _).1 ((run_program _ _ _).1 hrun).2
  rw [consumed, after_eq, hrun]
  simp

/-- A stream that ends before its program does holds no program at all: the program of a shorter
stream would be the program of the longer one too. -/
theorem decode_of_cut {code q : Bytes} {p : Program} (h : decode code = .ok p)
    (hall : p.encode = code) (hq : q <+: code) (hne : q ≠ code) :
    ∃ fault, decode q = .error fault := by
  cases hd : decode q with
  | error fault => exact ⟨fault, rfl⟩
  | ok p' =>
    exfalso
    obtain ⟨hp', hpre⟩ := (decode_eq_ok_iff_starts _ _).1 hd
    have h' := (decode_eq_ok_iff_starts code p').2 ⟨hp', hpre.trans hq⟩
    cases h.symm.trans h'
    rw [hall] at hpre
    exact hne (hq.eq_of_length (Nat.le_antisymm hq.length_le hpre.length_le))

/-- Decoding accepts exactly the programs that a draft emits: the bytes of a program whose numbers
are in range and whose body has its only END at its end, with any bytes behind them. So decoding
undoes encoding, encoding gives back the bytes that were consumed, and no shorter stream decodes. -/
theorem decode_eq_ok_iff_build (code : Bytes) (p : Program) :
    (decode code = .ok p ↔ p.Encodable ∧ ∃ rest, code = p.draft.build ++ rest) ∧
      (p.Encodable → decode p.draft.build = .ok p) ∧
      (decode code = .ok p → p.draft.build = consumed code) ∧
      (decode code = .ok p → consumed code = code →
        ∀ q, q <+: code → q ≠ code → ∃ fault, decode q = .error fault) := by
  rw [build_draft]
  refine ⟨?_, ?_, ?_, ?_⟩
  · rw [decode_eq_ok_iff_starts]
    exact and_congr_right fun _ => exists_congr fun _ => eq_comm
  · intro hp
    exact (decode_eq_ok_iff_starts _ _).2 ⟨hp, List.prefix_rfl⟩
  · intro h
    exact (consumed_of_decode h).symm
  · intro h hall q hq hne
    rw [consumed_of_decode h] at hall
    exact decode_of_cut h hall hq hne

/-- A batched launch with the largest window, a missing event list and two arguments. -/
theorem decode_eq_ok_iff_build_launch :
    let p : Program := ⟨⟨1, 1, 0, [0]⟩,
      [.launch 0 0 0 none (some ⟨0, 2 ^ 63 - 1⟩) [.constant (2 ^ 31 - 1), .reference 0], .finish]⟩
    p.Encodable ∧ decode p.draft.build = .ok p ∧
    ∃ fault, decode p.draft.build.dropLast = .error fault := by
  intro p
  have hp : p.Encodable := by
    refine ⟨by simp [p, Header.InRange, maxIndex], ?_, ⟨p.body.dropLast, rfl, by simp [p]⟩⟩
    simp [p, Instruction.InRange, ListInRange, WindowInRange, maxIndex, maxExtent, Argument.index]
  obtain ⟨-, hdecode, hconsumed, hprefix⟩ := decode_eq_ok_iff_build p.draft.build p
  refine ⟨hp, hdecode hp, ?_⟩
  refine hprefix (hdecode hp) (hconsumed (hdecode hp)).symm _ (List.dropLast_prefix _) ?_
  intro h
  have hlen := congrArg List.length h
  simp [p, encode, Header.encode] at hlen

/-- The bytes can go on to a program. -/
def Viable (bytes : Bytes) : Prop := ∃ rest p, decode (bytes ++ rest) = .ok p

/-- The stream ends inside the size of a window whose offset is negative, and the size starts at the
place given. -/
def EndsInSize (code : Bytes) (place : Nat) : Prop := CutIn ProgramLead (code.take place) code

/-- Every fault of decoding is about the program and names a place inside the stream. The bytes
before that place can go on to a program, unless the stream ends inside the size of a window whose
offset is negative. -/
theorem decode_blames_first_field {code : Bytes} {fault : Fault} (h : decode code = .error fault) :
    fault.category = .protocol ∧ ∃ place, fault.offset? = some place ∧ place ≤ code.length ∧
      (Viable (code.take place) ∨ EndsInSize code place) := by
  rcases hrun : program.run (.ofBytes code) with ⟨r, c⟩
  obtain rfl : r = .error fault := by rw [← h, decode, Action.outcome_eq, hrun]
  obtain hno | ⟨u, hat, hin, hu⟩ := (parses_program (G := fun _ => False)).fault _ fault c hrun
  · exact hno.elim
  obtain ⟨hcategory, hoffset⟩ := hat.offset?
  have htake : code.take u.length = u := List.prefix_iff_eq_take.1 hin |>.symm
  refine ⟨hcategory, u.length, by simpa [Cursor.ofBytes] using hoffset, hin.length_le, ?_⟩
  rw [EndsInSize, htake]
  refine hu.imp_left ?_
  rintro ⟨p, v, hp, hword⟩
  exact ⟨v, p, (decode_eq_ok_iff_starts _ _).2 ⟨hp, by rw [hword]⟩⟩

/-- The window of an allocation starts with minus one, and the stream ends after one byte of the
size. -/
theorem decode_blames_first_field_cut :
    let code := Header.encode ⟨1, 0, 0, []⟩ ++ ((Opcode.allocate true).byte ::
      (Instruction.encodeIndex 0 ++ Instruction.encodeIndex 0)) ++ List.replicate 8 255 ++ [0]
    decode code = .error (.decode 31 .endOfData) ∧
    (Viable (code.take 31) ∨ EndsInSize code 31) := by
  intro code
  have h : decode code = .error (.decode 31 .endOfData) := by decide +kernel
  obtain ⟨-, place, hplace, -, hbefore⟩ := decode_blames_first_field h
  obtain rfl : 31 = place := Option.some.inj hplace
  exact ⟨h, hbefore⟩

end Program

end Offload
