import Offload.Proofs.Codec
import Offload.Proofs.Outline
import Offload.Proofs.WorkingFaults

/-!
# Scripts

The script of a program is what can be read behind its header: the instructions up to END, and a
fault if there is something before END that cannot be read. Decoding reads the whole script at once;
a pass reads it instruction by instruction, each time from the same place, and carries out what it
has read. So a pass goes through the decoded program, and it meets a fault of decoding only where
decoding meets it.
-/

namespace Offload

open Offload.Action

variable {mode : PassMode} {i : Instruction} {c : Context}

/-- Instructions that were read one after the other, and why there are no more of them; there is no
fault when the last one is END. -/
structure Script where
  instructions : List Instruction
  fault : Option Fault
  deriving DecidableEq

variable {s : Script}

namespace Script

/-- The script with an instruction before it. -/
def cons (i : Instruction) (s : Script) : Script := { s with instructions := i :: s.instructions }

/-- What one gets who wants all of the script. -/
def outcome (s : Script) : Except Fault (List Instruction) :=
  match s.fault with
  | none => .ok s.instructions
  | some fault => .error fault

theorem outcome_cons (i : Instruction) (s : Script) :
    (s.cons i).outcome = s.outcome.map (i :: ·) := by
  obtain ⟨instructions, fault⟩ := s
  cases fault <;> rfl

theorem fault_of_outcome {α : Type} {f : List Instruction → α} {fault : Fault}
    (h : s.outcome.map f = .error fault) : s.fault = some fault := by
  obtain ⟨instructions, fault'⟩ := s
  cases fault' with
  | none => cases h
  | some fault' =>
    cases h
    rfl

end Script

namespace Reading

/-- The script at a cursor, with as much fuel as for `body`. -/
def script : (fuel : Nat) → Cursor → Script
  | 0, c => ⟨[], some (.missingEnd c.offset)⟩
  | fuel + 1, c =>
    match instruction.run c with
    | (.error fault, _) => ⟨[], some fault⟩
    | (.ok i, c) => if i = .finish then ⟨[.finish], none⟩ else (script fuel c).cons i

theorem outcome_script (fuel : Nat) (c : Cursor) :
    ((body fuel).run c).1 = (script fuel c).outcome := by
  induction fuel generalizing c with
  | zero => rfl
  | succ fuel ih =>
    rw [body, script, run_bind]
    rcases instruction.run c with ⟨r, c'⟩
    cases r with
    | error fault => rfl
    | ok i =>
      by_cases hfinish : i = .finish
      · simp [hfinish, Script.outcome]
      · simp only [hfinish, if_false, Script.outcome_cons, ← ih, run_bind]
        rcases (body fuel).run c' with ⟨r, c''⟩
        cases r <;> rfl

end Reading

variable {h : Header}

namespace Program

/-- The script behind the header of a stream. -/
def script (code : Bytes) : Script :=
  let c := Reading.header.after (.ofBytes code)
  Reading.script c.rest.length c

theorem decode_eq_script {code : Bytes} {c : Cursor}
    (hheader : Reading.header.run (.ofBytes code) = (.ok h, c)) :
    decode code = (script code).outcome.map (Program.mk h) := by
  have hbody := Reading.outcome_script c.rest.length c
  have hafter : Reading.header.after (.ofBytes code) = c := congrArg Prod.snd hheader
  have hremaining : Reading.remaining.run c = (.ok c.rest.length, c) := rfl
  rw [decode, outcome_eq, Reading.program, run_bind_of_ok hheader,
    run_bind_of_ok hremaining, script, hafter, ← hbody, run_bind]
  rcases (Reading.body c.rest.length).run c with ⟨r, c'⟩
  cases r <;> rfl

end Program

/-- The devices of a context, those of some indices loaded and the others as they are. -/
def Context.loading (c : Context) (indices : List Nat) : List Device :=
  c.devices.mapIdx fun index d => { d with loaded := d.loaded || indices.contains index }

/-- A header fits a context if its counts are those of the context and the devices to load are
there. -/
theorem Header.check_eq_ok_iff :
    h.check c = .ok () ↔ h.devices = c.devices.length ∧ h.tasks = c.tasks.length ∧
      ∀ index ∈ h.contexts, index < c.devices.length := by
  have hfind : h.contexts.find? (c.devices.length ≤ ·) = none ↔
      ∀ index ∈ h.contexts, index < c.devices.length := by
    simp [List.find?_eq_none]
  rw [← hfind, Header.check]
  by_cases hdevices : h.devices = c.devices.length <;> by_cases htasks : h.tasks =
    c.tasks.length <;>
    cases h.contexts.find? (c.devices.length ≤ ·) <;>
    simp [hdevices, htasks, bind, Except.bind, pure, Except.pure, throw, throwThe,
      MonadExceptOf.throw]

variable {p : Program}

theorem Context.validate_of_decode {code : Bytes} (hp : Program.decode code = .ok p)
    (hcheck : p.header.check c = .ok ()) : c.validate code = .ok p.header := by
  rw [validate, hp]
  simp only [bind, Except.bind, hcheck]
  rfl

/-! ## What a pass does with its script -/

/-- The instruction of a deed, however it has gone. -/
def Deed.instruction? : Deed → Option Instruction
  | .instruction _ i _ => some i
  | .ending .. | .invalidation => none

/-- The entry for an instruction that was carried out without a fault. -/
def Deed.entry? : Deed → Option TraceEntry
  | .instruction _ i (.ok note) => some ⟨i, note⟩
  | .instruction _ _ (.error _) | .ending .. | .invalidation => none

variable {x : Moment}

namespace Moment

/-- The instructions among the deeds of a list, whether they failed or not. -/
def tried (xs : List Moment) : List Instruction := xs.filterMap fun x => x.deed.instruction?

/-- The instructions among the deeds of a list that did not fail, with their notes. -/
def accomplished (xs : List Moment) : List TraceEntry := xs.filterMap fun x => x.deed.entry?

@[simp] theorem tried_nil : tried [] = [] := rfl

@[simp] theorem accomplished_nil : accomplished [] = [] := rfl

theorem tried_cons {outcome : Except Fault (Option Note)}
    (hx : x.deed = .instruction mode i outcome) (xs : List Moment) :
    tried (x :: xs) = i :: tried xs := by
  simp [tried, hx, Deed.instruction?]

theorem accomplished_cons {note : Option Note} (hx : x.deed = .instruction mode i (.ok note))
    (xs : List Moment) : accomplished (x :: xs) = ⟨i, note⟩ :: accomplished xs := by
  simp [accomplished, hx, Deed.entry?]

end Moment

namespace Machine

variable {m : Machine} {kind : PassKind} {code : Bytes} {c' : Context}
variable {is : List Instruction} {xs : List Moment} {fault : Fault} {config : Config} {fuel k : Nat}
variable {r : Except Fault Unit}

open Moment

/-- The body of a pass over a script: what is done, and how the body ends. An instruction that the
pass does not take is not carried out. -/
inductive Enacts (mode : PassMode) (kind : PassKind) :
    Script → List Moment → Except Fault Unit → Prop where
  | unreadable (fault : Fault) : Enacts mode kind ⟨[], some fault⟩ [] (.error fault)
  | refused {i : Instruction} (s : Script) (offset : Nat) (hkind : kind.accepts i.opcode = false) :
      Enacts mode kind (s.cons i) [] (.error (.unexpectedOpcode i.opcode.mnemonic kind.name offset))
  | failed {i : Instruction} {x : Moment} {fault : Fault} (s : Script)
      (hx : x.deed = .instruction mode i (.error fault)) (hfault : fault.isWorking) :
      Enacts mode kind (s.cons i) [x] (.error fault)
  | ended {x : Moment} {note : Option Note} (hx : x.deed = .instruction mode .finish (.ok note)) :
      Enacts mode kind ⟨[.finish], none⟩ [x] (.ok ())
  | next {i : Instruction} {x : Moment} {note : Option Note} {s : Script} {xs : List Moment}
      {r : Except Fault Unit} (hx : x.deed = .instruction mode i (.ok note))
      (h : Enacts mode kind s xs r) :
      Enacts mode kind (s.cons i) (x :: xs) r

/-- An instruction is read at the reader's cursor. Then the journal may get a line. -/
theorem run_fetch (kind : PassKind) (m : Machine) :
    ∃ journal, (fetch kind).run m =
      ((Reading.instruction.run m.reader.cursor).1.bind fun i =>
          if kind.accepts i.opcode then .ok i
          else .error (.unexpectedOpcode i.opcode.mnemonic kind.name m.reader.position),
        { m with
          reader := { m.reader with cursor := (Reading.instruction.run m.reader.cursor).2 }
          store := { m.store with context := { m.store.context with journal } } }) := by
  have hread : (read Reading.instruction).run m = ((Reading.instruction.run m.reader.cursor).1,
      { m with
        reader := { m.reader with cursor := (Reading.instruction.run m.reader.cursor).2 } }) := rfl
  rw [fetch, run_bind, run_get]
  dsimp only
  rw [run_bind, hread]
  rcases Reading.instruction.run m.reader.cursor with ⟨r, cursor⟩
  cases r with
  | error fault => exact ⟨m.store.context.journal, rfl⟩
  | ok i =>
    cases haccepts : kind.accepts i.opcode with
    | false =>
      refine ⟨m.store.context.journal, ?_⟩
      simp [haccepts, Except.bind]
      rfl
    | true =>
      by_cases hdebug : m.config.debug
      · refine ⟨m.store.context.journal.add .debug
          ("vm: [" ++ Numeral.hexWide 4 m.reader.position ++ "] " ++ i.text), ?_⟩
        simp [haccepts, hdebug, Except.bind]
        rfl
      · refine ⟨m.store.context.journal, ?_⟩
        simp [haccepts, hdebug, Except.bind]

theorem run_fetch_of_script (hscript : Reading.script fuel m.reader.cursor = ⟨i :: is, none⟩)
    (hi : kind.accepts i.opcode = true) :
    ∃ fuel' cursor journal, fuel = fuel' + 1 ∧
      (i ≠ .finish → Reading.script fuel' cursor = ⟨is, none⟩) ∧
      (fetch kind).run m = (.ok i, { m with
        reader := { m.reader with cursor }
        store := { m.store with context := { m.store.context with journal } } }) := by
  cases fuel with
  | zero => cases hscript
  | succ fuel =>
    obtain ⟨journal, hfetch⟩ := run_fetch kind m
    rw [Reading.script] at hscript
    rcases hread : Reading.instruction.run m.reader.cursor with ⟨r, cursor⟩
    rw [hread] at hscript hfetch
    cases r with
    | error fault => cases hscript
    | ok j =>
      dsimp only at hscript
      by_cases hfinish : j = .finish
      · rw [if_pos hfinish] at hscript
        cases hscript
        refine ⟨fuel, cursor, journal, rfl, fun hne => absurd rfl hne, ?_⟩
        rw [hfetch, hfinish]
        simp [Except.bind, hi]
      · rw [if_neg hfinish, Script.cons] at hscript
        obtain ⟨hcons, hfault⟩ := Script.mk.inj hscript
        obtain ⟨rfl, hrest⟩ := List.cons.inj hcons
        refine ⟨fuel, cursor, journal, rfl, fun _ => ?_, ?_⟩
        · rw [← hrest, ← hfault]
        · rw [hfetch]
          simp [Except.bind, hi]

theorem script_of_fetch {m' : Machine} (hfetch : (fetch kind).run m = (.ok i, m'))
    (hscript : Reading.script (fuel + 1) m.reader.cursor = ⟨is, none⟩) :
    ∃ rest, is = i :: rest ∧
      (i ≠ .finish → Reading.script fuel m'.reader.cursor = ⟨rest, none⟩) := by
  obtain ⟨journal, hrun⟩ := run_fetch kind m
  rw [Reading.script] at hscript
  rcases hread : Reading.instruction.run m.reader.cursor with ⟨r, cursor⟩
  rw [hread] at hscript hrun
  rw [hrun] at hfetch
  obtain ⟨houtcome, rfl⟩ := Prod.mk.inj hfetch
  cases r with
  | error fault => cases hscript
  | ok j =>
    dsimp only [Except.bind] at houtcome hscript
    split at houtcome
    · cases houtcome
      by_cases hfinish : i = .finish
      · rw [if_pos hfinish] at hscript
        cases hscript
        exact ⟨[], by rw [hfinish], fun hne => absurd hfinish hne⟩
      · rw [if_neg hfinish, Script.cons] at hscript
        obtain ⟨rfl, hfault⟩ := Script.mk.inj hscript
        refine ⟨_, rfl, fun _ => ?_⟩
        rw [← hfault]
    · cases houtcome

theorem reader_effect (mode : PassMode) (i : Instruction) (m : Machine) :
    ((effect mode i).run m).2.reader = m.reader :=
  meets_iff_after.1 (keeps_effect_of_rest (I := fun m' => m'.reader = m.reader)
    (fun _ _ _ _ _ _ _ => id) mode i) m rfl

theorem reader_noted (mode : PassMode) (i : Instruction) (note : Option Note) (m : Machine) :
    (m.noted mode i note).reader = m.reader := by
  unfold noted
  split <;> rfl

/-- The first step of a body that ends well. -/
theorem step_of_runBody {m' : Machine}
    (hscript : Reading.script (fuel + 1) m.reader.cursor = ⟨is, none⟩)
    (hrun : (runBody mode kind (fuel + 1)).run m = (.ok (), m')) :
    ∃ i rest note m₁ m₂, is = i :: rest ∧ (fetch kind).run m = (.ok i, m₁) ∧
      (effect mode i).run m₁ = (.ok note, m₂) ∧
      (i = .finish ∧ m' = m₂.noted mode i note ∨
        i ≠ .finish ∧ Reading.script fuel (m₂.noted mode i note).reader.cursor = ⟨rest, none⟩ ∧
          (runBody mode kind fuel).run (m₂.noted mode i note) = (.ok (), m')) := by
  rw [run_runBody_succ] at hrun
  rcases hfetch : (fetch kind).run m with ⟨r, m₁⟩
  rw [hfetch] at hrun
  cases r with
  | error fault => cases hrun
  | ok i =>
    obtain ⟨rest, rfl, hnext⟩ := script_of_fetch hfetch hscript
    dsimp only at hrun
    rcases heffect : (effect mode i).run m₁ with ⟨r, m₂⟩
    rw [heffect] at hrun
    cases r with
    | error fault => cases hrun
    | ok note =>
      dsimp only at hrun
      refine ⟨i, rest, note, m₁, m₂, rfl, rfl, heffect, ?_⟩
      by_cases hfinish : i = .finish
      · rw [if_pos hfinish] at hrun
        exact .inl ⟨hfinish, (Prod.mk.inj hrun).2.symm⟩
      · rw [if_neg hfinish] at hrun
        refine .inr ⟨hfinish, ?_, hrun⟩
        have hreader := reader_effect mode i m₁
        rw [heffect] at hreader
        rw [reader_noted, hreader]
        exact hnext hfinish

/-- A body whose first instruction is taken goes on behind it. -/
theorem run_runBody_of_script (mode : PassMode)
    (hscript : Reading.script fuel m.reader.cursor = ⟨i :: is, none⟩)
    (hi : kind.accepts i.opcode = true) :
    ∃ fuel₁ reader journal, ∀ note m₂,
      (effect mode i).run { m with
        reader, store := { m.store with context := { m.store.context with journal } } } =
        (.ok note, m₂) →
      (i = .finish → (runBody mode kind fuel).run m = (.ok (), m₂.noted mode i note)) ∧
      (i ≠ .finish → Reading.script fuel₁ (m₂.noted mode i note).reader.cursor = ⟨is, none⟩ ∧
        (runBody mode kind fuel).run m = (runBody mode kind fuel₁).run (m₂.noted mode i note)) := by
  obtain ⟨fuel₁, cursor, journal, rfl, hnext, hfetch⟩ := run_fetch_of_script hscript hi
  refine ⟨fuel₁, { m.reader with cursor }, journal, fun note m₂ heffect => ?_⟩
  rw [run_runBody_succ, hfetch]
  dsimp only
  rw [heffect]
  dsimp only
  refine ⟨fun hfinish => by rw [if_pos hfinish], fun hfinish => ⟨?_, by rw [if_neg hfinish]⟩⟩
  have hreader := congrArg (fun x => x.2.reader) heffect
  rw [reader_effect] at hreader
  rw [reader_noted, ← hreader]
  exact hnext hfinish

/-- A body goes through the script at the reader's cursor. -/
theorem enacts_runBody (mode : PassMode) (kind : PassKind) (fuel : Nat) (m : Machine) :
    Enacts mode kind (Reading.script fuel m.reader.cursor) (bodyMoments mode kind fuel m)
      ((runBody mode kind fuel).run m).1 := by
  induction fuel generalizing m with
  | zero => exact .unreadable _
  | succ fuel ih =>
    obtain ⟨journal, hfetch⟩ := run_fetch kind m
    rw [Reading.script, bodyMoments, run_runBody_succ, hfetch]
    rcases Reading.instruction.run m.reader.cursor with ⟨r, cursor⟩
    cases r with
    | error fault => exact .unreadable fault
    | ok i =>
      dsimp only [Except.bind]
      have hcons : ∃ s,
          (if i = .finish then ⟨[.finish], none⟩ else (Reading.script fuel cursor).cons i) =
          Script.cons i s := by
        split_ifs with hfinish
        · exact ⟨⟨[], none⟩, by rw [hfinish]; rfl⟩
        · exact ⟨_, rfl⟩
      cases haccepts : kind.accepts i.opcode with
      | false =>
        obtain ⟨s, hs⟩ := hcons
        rw [hs]
        exact .refused s _ haccepts
      | true =>
        simp only [if_true]
        generalize hread : Machine.mk _ _ _ _ _ _ _ _ _ _ _ _ = m₁
        have hreader : m₁.reader.cursor = cursor := by rw [← hread]
        rcases hrun : (effect mode i).run m₁ with ⟨r, m₂⟩
        cases r with
        | error fault =>
          obtain ⟨s, hs⟩ := hcons
          rw [hs]
          refine .failed s ?_ ((gives_effect mode i).fault_of_run hrun).isWorking
          rw [Moment.carry, hrun]
        | ok note =>
          have hcarry : (Moment.carry mode i m₁).deed = .instruction mode i (.ok note) := by
            rw [Moment.carry, hrun]
          by_cases hfinish : i = .finish
          · subst hfinish
            simp only [if_true]
            exact .ended hcarry
          · simp only [hfinish, if_false]
            have heffect := reader_effect mode i m₁
            have hnext := ih (m₂.noted mode i note)
            rw [hrun] at heffect
            rw [reader_noted, heffect, hreader] at hnext
            exact .next hcarry hnext

/-- A pass over the instructions `is` fails on the one of number `k`: those before it are carried
out, and this one is not taken or ends in a fault. -/
inductive FailsAt (mode : PassMode) (kind : PassKind) (is : List Instruction)
    (xs : List Moment) (k : Nat) :
    Fault → Prop where
  | refused {i : Instruction} (offset : Nat) (hi : is[k]? = some i) (htried : tried xs = is.take k)
      (hdone : (accomplished xs).map TraceEntry.instruction = is.take k)
      (hkind : kind.accepts i.opcode = false) :
      FailsAt mode kind is xs k (.unexpectedOpcode i.opcode.mnemonic kind.name offset)
  | failed {i : Instruction} {x : Moment} {fault : Fault} (hi : is[k]? = some i)
      (htried : tried xs = is.take (k + 1))
      (hdone : (accomplished xs).map TraceEntry.instruction = is.take k)
      (hlast : xs.getLast? = some x) (hx : x.deed = .instruction mode i (.error fault))
      (hfault : fault.isWorking) :
      FailsAt mode kind is xs k fault

theorem FailsAt.lt (h : FailsAt mode kind is xs k fault) : k < is.length := by
  cases h with
  | refused _ hi => exact (List.getElem?_eq_some_iff.1 hi).1
  | failed hi => exact (List.getElem?_eq_some_iff.1 hi).1

theorem FailsAt.done (h : FailsAt mode kind is xs k fault) :
    (accomplished xs).map TraceEntry.instruction = is.take k := by
  cases h with
  | refused _ _ _ hdone => exact hdone
  | failed _ _ hdone => exact hdone

/-- What a pass fails on is not that the bytes are not a program. -/
theorem FailsAt.isDecoding (h : FailsAt mode kind is xs k fault) : fault.isDecoding = false := by
  cases h with
  | refused => rfl
  | failed _ _ _ _ _ hfault => exact Fault.isDecoding_of_isWorking hfault

theorem FailsAt.next {note : Option Note} (hx : x.deed = .instruction mode i (.ok note))
    (h : FailsAt mode kind is xs k fault) :
    FailsAt mode kind (i :: is) (x :: xs) (k + 1) fault := by
  cases h with
  | refused offset hi htried hdone hkind =>
    refine .refused offset (by simpa using hi) ?_ ?_ hkind
    · rw [tried_cons hx, htried, List.take_succ_cons]
    · rw [accomplished_cons hx, List.map_cons, hdone, List.take_succ_cons]
  | failed hi htried hdone hlast hlastx hfault =>
    refine .failed (by simpa using hi) ?_ ?_ ?_ hlastx hfault
    · rw [tried_cons hx, htried, List.take_succ_cons (i := _ + 1)]
    · rw [accomplished_cons hx, List.map_cons, hdone, List.take_succ_cons]
    · rw [List.getLast?_cons, hlast]
      rfl

/-- A body that ends without a fault has gone through all of its script. -/
theorem Enacts.through (h : Enacts mode kind s xs r) (hr : r = .ok ()) :
    s.fault = none ∧ tried xs = s.instructions ∧
      (accomplished xs).map TraceEntry.instruction = s.instructions := by
  induction h with
  | unreadable => cases hr
  | refused => cases hr
  | failed => cases hr
  | ended hx => exact ⟨rfl, by rw [tried_cons hx, tried_nil], by rw [accomplished_cons hx]; rfl⟩
  | next hx _ ih =>
    obtain ⟨hfault, htried, hdone⟩ := ih hr
    refine ⟨hfault, ?_, ?_⟩
    · rw [tried_cons hx, htried]
      rfl
    · rw [accomplished_cons hx, List.map_cons, hdone]
      rfl

/-- A body that ends in a fault has failed on an instruction of its script, or it has gone through
all that can be read and met the fault of the script. -/
theorem Enacts.stopped (h : Enacts mode kind s xs r) (hr : r = .error fault) :
    (∃ k, FailsAt mode kind s.instructions xs k fault) ∨
      s.fault = some fault ∧ tried xs = s.instructions ∧
        (accomplished xs).map TraceEntry.instruction = s.instructions := by
  induction h with
  | unreadable fault' =>
    cases hr
    exact .inr ⟨rfl, rfl, rfl⟩
  | refused s offset hkind =>
    cases hr
    exact .inl ⟨0, .refused offset rfl rfl rfl hkind⟩
  | failed s hx hfault =>
    cases hr
    refine .inl ⟨0, .failed rfl ?_ ?_ rfl hx hfault⟩
    · rw [tried_cons hx]
      rfl
    · simp [accomplished, hx, Deed.entry?]
  | ended => cases hr
  | next hx _ ih =>
    rcases ih hr with ⟨k, hk⟩ | ⟨hfault, htried, hdone⟩
    · exact .inl ⟨k + 1, hk.next hx⟩
    · refine .inr ⟨hfault, ?_, ?_⟩
      · rw [tried_cons hx, htried]
        rfl
      · rw [accomplished_cons hx, List.map_cons, hdone]
        rfl

/-- The instructions that a body tries are the first ones of its script. -/
theorem Enacts.starts (h : Enacts mode kind s xs r) : tried xs <+: s.instructions := by
  induction h with
  | unreadable => exact List.prefix_rfl
  | refused => exact List.nil_prefix
  | failed s hx => rw [tried_cons hx]; exact List.cons_prefix_cons.2 ⟨rfl, List.nil_prefix⟩
  | ended hx => rw [tried_cons hx]; exact List.prefix_rfl
  | next hx _ ih => rw [tried_cons hx]; exact List.cons_prefix_cons.2 ⟨rfl, ih⟩

/-! ## The reader between passes -/

variable {cursor : Cursor}

/-- What is done to start a machine once its header is read. -/
theorem run_start_of_header (hheader : Reading.header.run (.ofBytes code) = (.ok h, cursor))
    (c : Context) :
    (start code).run c = (do
      Action.ofExcept (h.check c)
      load h.contexts
      return (h, ⟨code, cursor, .ofBytes code⟩) : Action Context Fault (Header × Reader)).run
      c := by
  have hread : (Reader.read Reading.header).run (.ofBytes code) =
      (.ok h, ⟨code, cursor, .ofBytes code⟩) := by
    rw [Reader.read, run_focus, Reader.ofBytes, hheader]
  rw [start, hread]
  rfl

theorem run_start_of_fault (hheader : Reading.header.run (.ofBytes code) = (.error fault, cursor))
    (c : Context) :
    (start code).run c = (.error fault, c) := by
  have hread : (Reader.read Reading.header).run (.ofBytes code) =
      (.error fault, ⟨code, cursor, .ofBytes code⟩) := by
    rw [Reader.read, run_focus, Reader.ofBytes, hheader]
  rw [start, hread]
  rfl

/-- What it takes to make a machine: the header is read, it fits the context, and its devices are
loaded. -/
theorem start_of_create (hm : (create code config).run c = (.ok m, c')) :
    ∃ cursor, Reading.header.run (.ofBytes code) = (.ok m.header, cursor) ∧
      m.header.check c = .ok () ∧ (load m.header.contexts).run c = (.ok (), c') ∧
      m = initial c' config m.header ⟨code, cursor, .ofBytes code⟩ := by
  obtain ⟨⟨header, reader⟩, c₁, hstart, hrest⟩ := run_bind_eq_ok.1 hm
  obtain ⟨hinitial, rfl⟩ := Prod.mk.inj hrest
  cases hinitial
  rcases hheader : Reading.header.run (.ofBytes code) with ⟨r, cursor⟩
  cases r with
  | error fault =>
    rw [run_start_of_fault hheader] at hstart
    cases hstart
  | ok h =>
    rw [run_start_of_header hheader] at hstart
    obtain ⟨_, c₂, hcheck, hstart⟩ := run_bind_eq_ok.1 hstart
    obtain ⟨_, c₃, hload, hstart⟩ := run_bind_eq_ok.1 hstart
    obtain ⟨hpair, rfl⟩ := Prod.mk.inj hstart
    obtain ⟨rfl, rfl⟩ := Prod.mk.inj (Except.ok.inj hpair)
    cases hfits : h.check c with
    | error fault =>
      rw [hfits] at hcheck
      cases hcheck
    | ok u =>
      rw [hfits] at hcheck
      cases hcheck
      exact ⟨cursor, rfl, hfits, hload, rfl⟩

/-- A machine that was made has read its header and stands behind it. -/
theorem header_of_create (hm : (create code config).run c = (.ok m, c')) :
    ∃ cursor, Reading.header.run (.ofBytes code) = (.ok m.header, cursor) ∧
      m.reader = ⟨code, cursor, cursor⟩ := by
  obtain ⟨cursor, hheader, -, -, hinitial⟩ := start_of_create hm
  exact ⟨cursor, hheader, congrArg Machine.reader hinitial⟩

/-- Instructions move the cursor of the reader and not its mark. -/
theorem keeps_mark_runBody (mode : PassMode) (kind : PassKind) (fuel : Nat) (r : Reader) :
    Keeps (fun m => m.reader.reset = r) (runBody mode kind fuel) := by
  refine keeps_runBody_of_effect (meets_iff_after.2 fun m hm => ?_)
    (keeps_effect_of_rest (fun _ _ _ _ _ _ _ => id) mode) (fun i note m hm => ?_) fuel
  · obtain ⟨journal, hfetch⟩ := run_fetch kind m
    rw [hfetch]
    exact hm
  · rw [reader_noted]
    exact hm

/-- The reader stands at its mark again after every request. -/
theorem reader_session (hm : m.reader.reset = m.reader) (requests : List Request) :
    (session requests m).2.reader = m.reader := by
  refine session_keeps (I := fun m' => m'.reader = m.reader) (fun request => ?_) requests rfl
  refine meets_iff_after.2 fun m' hm' => ?_
  cases request with
  | invalidate => exact hm'
  | pass mode kind =>
    have hmark := meets_iff_after.1 (keeps_mark_runBody mode kind m'.reader.remaining m.reader)
      m'.begun (by rw [← hm, ← hm']; rfl)
    have hplan := plan_closing mode kind (m'.body mode kind).1 (m'.body mode kind).2
    rw [serve, run_runPass]
    exact (congrArg Plan.reader hplan).trans hmark

/-- What is done in the body of a pass. -/
def passMoments (mode : PassMode) (kind : PassKind) (m : Machine) : List Moment :=
  bodyMoments mode kind m.reader.remaining m.begun

/-- The body of every pass of a session goes through the script of the program. -/
theorem enacts_body (hm : (create code config).run c = (.ok m, c')) (requests : List Request)
    (mode : PassMode) (kind : PassKind) :
    Enacts mode kind (Program.script code) (passMoments mode kind (session requests m).2)
      ((session requests m).2.body mode kind).1 := by
  obtain ⟨cursor, hheader, hreader⟩ := header_of_create hm
  have hsession := reader_session (m := m) (by rw [hreader]; rfl) requests
  have hbody := enacts_runBody mode kind (session requests m).2.reader.remaining
    (session requests m).2.begun
  have hbegun : (session requests m).2.begun.reader = (session requests m).2.reader := rfl
  have hafter : Reading.header.after (.ofBytes code) = cursor := congrArg Prod.snd hheader
  rw [hbegun, hsession, hreader] at hbody
  rw [Program.script, hafter, passMoments, body, hsession, hreader]
  exact hbody

theorem decode_of_create (hm : (create code config).run c = (.ok m, c')) :
    Program.decode code = (Program.script code).outcome.map (Program.mk m.header) := by
  obtain ⟨cursor, hheader, -⟩ := header_of_create hm
  exact Program.decode_eq_script hheader

/-- The script of a program that decodes is its body. -/
theorem script_of_decode (hm : (create code config).run c = (.ok m, c'))
    (hp : Program.decode code = .ok p) :
    Program.script code = ⟨p.body, none⟩ := by
  have hdecode := (decode_of_create hm).symm.trans hp
  revert hdecode
  rcases Program.script code with ⟨instructions, fault⟩
  intro hdecode
  cases fault with
  | some fault => cases hdecode
  | none =>
    cases hdecode
    rfl

/-- The machine stands at the beginning of a body that can be read. -/
def Reads (body : List Instruction) (m : Machine) : Prop :=
  m.reader.reset = m.reader ∧ Reading.script m.reader.remaining m.reader.cursor = ⟨body, none⟩

theorem reads_create (hm : (create code config).run c = (.ok m, c'))
    (hp : Program.decode code = .ok p) :
    m.Reads p.body := by
  obtain ⟨cursor, hheader, hreader⟩ := header_of_create hm
  have hscript := script_of_decode hm hp
  have hafter : Reading.header.after (.ofBytes code) = cursor := congrArg Prod.snd hheader
  rw [Program.script, hafter] at hscript
  rw [Reads, hreader]
  exact ⟨rfl, hscript⟩

theorem Reads.serve {body : List Instruction} (h : m.Reads body) (request : Request) :
    ((serve request).run m).2.Reads body := by
  have hreader : ((Machine.serve request).run m).2.reader = m.reader := reader_session h.1 [request]
  rw [Reads, hreader]
  exact h

/-! ## Programs that were validated -/

/-- Loading devices that are there changes the flags of these devices and adds to the journal. -/
theorem run_load {indices : List Nat} (hindices : ∀ index ∈ indices, index < c.devices.length) :
    ∃ journal, (load indices).run c =
      (.ok (), { c with devices := c.loading indices, journal }) := by
  induction indices generalizing c with
  | nil =>
    have hsame : c.loading [] = c.devices := by
      refine List.ext_getElem? fun i => ?_
      rw [Context.loading, List.getElem?_mapIdx]
      cases c.devices[i]? <;> simp
    exact ⟨c.journal, by rw [hsame]; rfl⟩
  | cons index others ih =>
    obtain ⟨hindex, hothers⟩ := List.forall_mem_cons.1 hindices
    have hd : c.devices[index]? = some c.devices[index] := List.getElem?_eq_getElem hindex
    set c₁ :=
      { c with devices := c.devices.set index { c.devices[index] with loaded := true } } with hc₁
    have hload : (Context.onDevice index Station.load).run c = (.ok (), c₁) :=
      Context.run_onDevice Station.load hd
    have hdevice : c₁.device index = .ok { c.devices[index] with loaded := true } := by
      rw [Context.device, lookup_eq_ok, hc₁, List.getElem?_set_self hindex]
    obtain ⟨journal, hnext⟩ := ih (c := c₁.log .debug
      ("vm: loaded device " ++ toString index ++ " (" ++ c.devices[index].name ++ ") in 0ns"))
      (by simpa [Context.log, hc₁] using hothers)
    have hdevices : c₁.loading others = c.loading (index :: others) := by
      refine List.ext_getElem? fun i => ?_
      rw [Context.loading, Context.loading, List.getElem?_mapIdx, List.getElem?_mapIdx, hc₁,
        List.getElem?_set]
      by_cases hi : index = i
      · subst hi
        simp [hindex]
      · simp [hi, Ne.symm hi]
    refine ⟨journal, ?_⟩
    rw [load, run_bind_of_ok hload, ← hdevices]
    show (do
      let d ← Action.ofExcept (c₁.device index)
      modify fun c => c.log .debug
        ("vm: loaded device " ++ toString index ++ " (" ++ d.name ++ ") in 0ns")
      load others : Action Context Fault Unit).run c₁ = _
    rw [hdevice]
    exact hnext

/-- A machine takes over the context, in which no more is changed. -/
theorem context_of_create (hm : (create code config).run c = (.ok m, c')) :
    m.context = c' ∧ ∃ journal,
      c' = { c with devices := c.loading m.header.contexts, journal } := by
  obtain ⟨cursor, -, hcheck, hload, hinitial⟩ := start_of_create hm
  obtain ⟨journal, hrun⟩ := run_load (Header.check_eq_ok_iff.1 hcheck).2.2
  exact ⟨by rw [hinitial]; rfl, journal, congrArg Prod.snd (hload.symm.trans hrun)⟩

theorem run_create_of_load (hheader : Reading.header.run (.ofBytes code) = (.ok h, cursor))
    (hcheck : h.check c = .ok ()) (hload : (load h.contexts).run c = (.ok (), c'))
    (config : Config) :
    (create code config).run c = (.ok (initial c' config h ⟨code, cursor, .ofBytes code⟩), c') := by
  have hstart : (start code).run c = (.ok (h, ⟨code, cursor, .ofBytes code⟩), c') := by
    rw [run_start_of_header hheader, hcheck]
    exact run_bind_of_ok hload
  exact run_bind_of_ok hstart

theorem create_of_validate (hvalid : c.validate code = .ok h) (config : Config) :
    ∃ m c', (create code config).run c = (.ok m, c') ∧ m.header = h ∧
      ∃ p, Program.decode code = .ok p := by
  unfold Context.validate at hvalid
  cases hdecode : Program.decode code with
  | error fault =>
    rw [hdecode] at hvalid
    cases hvalid
  | ok p =>
    rw [hdecode] at hvalid
    cases hcheck : p.header.check c with
    | error fault =>
      simp only [bind, Except.bind, hcheck] at hvalid
      cases hvalid
    | ok _ =>
      simp only [bind, Except.bind, hcheck] at hvalid
      cases hvalid
      obtain ⟨_, hrun⟩ := (Program.decode_eq_ok_iff_run code p).1 hdecode
      obtain ⟨header, cursor, hheader, hrun⟩ := run_bind_eq_ok.1 hrun
      obtain ⟨_, _, -, hrun⟩ := run_bind_eq_ok.1 hrun
      obtain ⟨_, _, -, hrun⟩ := run_bind_eq_ok.1 hrun
      obtain rfl : Program.mk header _ = p := Except.ok.inj (congrArg Prod.fst hrun)
      obtain ⟨journal, hload⟩ := run_load (Header.check_eq_ok_iff.1 hcheck).2.2
      exact ⟨_, _, run_create_of_load hheader hcheck hload config, rfl, _, rfl⟩

/-- A pass over a program that decodes meets no fault of decoding. -/
theorem isDecoding_runPass (hm : (create code config).run c = (.ok m, c'))
    (hp : Program.decode code = .ok p) {requests : List Request}
    (hfault : ((runPass mode kind).run (session requests m).2).1 = .error fault) :
    fault.isDecoding = false := by
  rcases fault_of_closing hfault with hbody | ⟨-, -, hworking⟩
  · rcases (enacts_body hm requests mode kind).stopped hbody with ⟨k, hk⟩ | ⟨hsome, -, -⟩
    · exact hk.isDecoding
    · rw [decode_of_create hm, Script.outcome, hsome] at hp
      cases hp
  · exact Fault.isDecoding_of_isWorking (Fault.isWorking_of_isRoutine hworking)

/-- Every pass runs the decoded program, whatever was served before it: it tries instructions from
the front of the script; when it ends well it has run the whole program, which decodes; and when
decoding meets a fault, the pass fails on an instruction before that or meets the same fault behind
them. A program that was validated makes a machine whose passes meet no fault of decoding. -/
theorem runPass_follows_decode (code : Bytes) (config : Config) (c : Context) :
    (∀ m c', (create code config).run c = (.ok m, c') → ∀ requests mode kind,
      let now := (session requests m).2
      let script := Program.script code
      let done := now.passMoments mode kind
      let result := ((runPass mode kind).run now).1
      Program.decode code = script.outcome.map (Program.mk m.header) ∧
      tried done <+: script.instructions ∧
      (∀ event, result = .ok event → Program.decode code = .ok ⟨m.header, tried done⟩) ∧
      (∀ p fault, Program.decode code = .ok p → result = .error fault → fault.isDecoding = false) ∧
      ∀ fault, Program.decode code = .error fault → script.fault = some fault ∧
        ((∃ k < script.instructions.length, ∃ fault', result = .error fault' ∧
            FailsAt mode kind script.instructions done k fault') ∨
          result = .error fault ∧ tried done = script.instructions ∧
            (accomplished done).map TraceEntry.instruction = script.instructions)) ∧
    ∀ h, c.validate code = .ok h → ∃ m c', (create code config).run c = (.ok m, c') ∧ m.header = h ∧
      ∀ requests mode kind fault, ((runPass mode kind).run (session requests m).2).1 =
      .error fault →
        fault.isDecoding = false := by
  constructor
  · intro m c' hm requests mode kind now script done result
    have hdecode : Program.decode code = script.outcome.map (Program.mk m.header) :=
      decode_of_create hm
    have hbody : Enacts mode kind script done (now.body mode kind).1 :=
      enacts_body hm requests mode kind
    refine ⟨hdecode, hbody.starts, fun event hok => ?_, fun p fault hp hfault => ?_,
      fun fault he => ?_⟩
    · obtain ⟨hnone, htried, -⟩ := hbody.through (body_of_closing hok)
      rw [hdecode, Script.outcome, hnone, htried]
      rfl
    · exact isDecoding_runPass hm hp hfault
    · have hsome : script.fault = some fault := Script.fault_of_outcome (hdecode.symm.trans he)
      refine ⟨hsome, ?_⟩
      cases hr : (now.body mode kind).1 with
      | ok u =>
        have hnone := (hbody.through hr).1
        rw [hsome] at hnone
        cases hnone
      | error fault' =>
        have hresult : result = .error fault' := by
          rw [← run_closing_error mode kind fault' (now.body mode kind).2, ← hr]
          rfl
        rcases hbody.stopped hr with ⟨k, hk⟩ | ⟨hfault, htried, hdone⟩
        · exact .inl ⟨k, hk.lt, fault', hresult, hk⟩
        · rw [hsome] at hfault
          cases hfault
          exact .inr ⟨hresult, htried, hdone⟩
  · intro h hvalid
    obtain ⟨m, c', hm, hheader, p, hp⟩ := create_of_validate hvalid config
    exact ⟨m, c', hm, hheader, fun requests mode kind fault hfault =>
      isDecoding_runPass hm hp hfault⟩

/-- Behind the first instruction stands a byte that is no opcode, and every pass carries out the
instruction and meets that byte. With END in its place the program is valid. -/
theorem runPass_follows_decode_broken :
    let h : Header := ⟨1, 0, 0, [0]⟩
    let broken : Bytes := Program.encode ⟨h, [.allocate 0 0 none]⟩ ++ [255]
    let whole : Bytes := Program.encode ⟨h, [.allocate 0 0 none, .finish]⟩
    let c : Context :=
      { devices := [{ name := "d" }], objects := [⟨"a", [1]⟩], constants := [], tasks := [] }
    let fault : Fault := .unknownOpcode 255 28
    (∃ m c', (create broken {}).run c = (.ok m, c') ∧ Program.decode broken = .error fault ∧
      (Program.script broken).fault = some fault ∧
      ((runPass .normal .plain).run (session [.pass .normal .plain] m).2).1 = .error fault) ∧
    c.validate whole = .ok h ∧
    ∃ m c', (create whole {}).run c = (.ok m, c') ∧ ∀ requests mode kind fault,
      ((runPass mode kind).run (session requests m).2).1 = .error fault →
      fault.isDecoding = false := by
  intro h broken whole c fault
  have hdecode : Program.decode broken = .error fault := by decide +kernel
  have hvalid : c.validate whole = .ok h := by decide +kernel
  have hrun : (((create broken {}).outcome c).toOption.map fun m =>
      ((runPass .normal .plain).run (session [.pass .normal .plain] m).2).1) =
        some (.error fault) := by
    decide +kernel
  obtain ⟨m, c', hm, hresult⟩ := Action.exists_run_of_read hrun
  obtain ⟨-, -, -, -, hbroken⟩ :=
    (runPass_follows_decode broken {} c).1 m c' hm [.pass .normal .plain] .normal .plain
  obtain ⟨m', c'', hm', -, hwhole⟩ := (runPass_follows_decode whole {} c).2 h hvalid
  exact ⟨⟨m, c', hm, hdecode, (hbroken fault hdecode).1, hresult⟩, hvalid, m', c'', hm', hwhole⟩

end Machine

end Offload
