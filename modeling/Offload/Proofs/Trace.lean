import Offload.Proofs.Listing
import Offload.Proofs.Script

/-!
# Traces

The trace of a pass is program text: a note is a comment, so that a line of the trace stands for the
bytes of its instruction with or without the note. What a pass has carried out is what its trace
shows. Hence a normal pass that ends well has written down the program it was given, and one that
fails the part of the program before its failure.
-/

namespace Offload

open Offload.Action

/-! ## Lines with notes -/

namespace Text

theorem uncomment_append_comment {line : List Char} (h : '#' ∉ line) (comment : List Char) :
    uncomment (line ++ '#' :: comment) = line := by
  unfold uncomment
  rw [List.takeWhile_append_of_pos]
  · simp
  · intro c hc
    simpa using fun hcomment : c = '#' => h (hcomment ▸ hc)

theorem words_append_blank (line : List Char) : words (line ++ [' ']) = words line := by
  have hcut := List.splitOnP_append_cons line [] (show isBlank ' ' = true by decide)
  unfold words
  rw [split_eq_splitOnP, split_eq_splitOnP, hcut, List.filter_append]
  simp

end Text

namespace Assembly

/-- A comment behind a line without one does not change what the line stands for. -/
theorem lineBytes_append_comment {text : List Char} (h : '#' ∉ text) (comment : List Char) :
    lineBytes (text ++ ' ' :: '#' :: comment) = lineBytes text := by
  have hblank : '#' ∉ text ++ [' '] := by simpa using h
  have hcomment := Text.uncomment_append_comment hblank comment
  have hplain : Text.uncomment text = text := List.takeWhile_eq_self_iff.2 fun c hc => by
    simpa using fun heq : c = '#' => h (heq ▸ hc)
  rw [List.append_assoc, List.singleton_append] at hcomment
  rw [lineBytes, lineBytes, line, line, hcomment, hplain, Text.words_append_blank]

theorem newline_not_mem_note (note : Note) : '\n' ∉ note.text.toList := by
  cases note <;> decide

/-- A line of a trace stands for the bytes of its instruction. -/
theorem assembles_entry (e : TraceEntry) (h : e.instruction.InRange) :
    Assembles e.text e.instruction.encode := by
  obtain ⟨i, note⟩ := e
  have hplain := assembles_instruction i h
  cases note with
  | none => exact hplain
  | some note =>
    have hwords : ∀ w ∈ i.opcode.mnemonic.toList :: i.operands.map String.toList,
        Text.IsWord w := by
      simpa using ⟨i.opcode.isWord_mnemonic, i.isWord_operands⟩
    have hcomment : '#' ∉ i.text.toList := by
      intro hmem
      rw [i.toList_text] at hmem
      rcases Text.mem_sentence hwords hmem with hblank | ⟨-, hother⟩
      · exact absurd hblank (by decide)
      · exact hother rfl
    have htext : (TraceEntry.mk i (some note)).text.toList =
        i.text.toList ++ ' ' :: '#' :: ' ' :: note.text.toList := by
      simp [TraceEntry.text]
    constructor
    · rw [htext]
      have hnote := newline_not_mem_note note
      simpa using ⟨hplain.1, hnote⟩
    · rw [htext, lineBytes_append_comment hcomment]
      exact hplain.2

theorem assemble_entries {h : Header} (hh : h.InRange) {entries : List TraceEntry}
    (hentries : ∀ e ∈ entries, e.instruction.InRange) :
    assemble (Text.paragraph (h.lines ++ entries.map TraceEntry.text)) =
      .ok (Program.encode ⟨h, entries.map TraceEntry.instruction⟩) := by
  have hlines : List.Forall₂ Assembles (entries.map TraceEntry.text)
      (entries.map fun e => e.instruction.encode) := by
    rw [List.forall₂_map_left_iff, List.forall₂_map_right_iff, List.forall₂_same]
    exact fun e he => assembles_entry e (hentries e he)
  rw [assemble_paragraph (List.rel_append (Program.assembles_header h hh) hlines)]
  simp [Program.encode, Header.encode, Item.encode, List.flatMap_def, Function.comp_def]

end Assembly

def Instruction.isLaunch : Instruction → Bool
  | .launch .. => true
  | .allocate .. | .transfer .. | .addDep _ | .barrier _ | .finish => false

namespace Machine

open Moment Assembly

variable (mode : PassMode) (kind : PassKind)

/-! ## What is in a trace -/

theorem trace_effect (i : Instruction) (m : Machine) : ((effect mode i).run m).2.trace = m.trace :=
  meets_iff_after.1 (keeps_effect_of_rest (I := fun m' => m'.trace = m.trace)
    (fun _ _ _ _ _ _ _ => id) mode i) m rfl

/-- A body adds to the trace what it has accomplished, as far as the pass keeps it. -/
theorem trace_runBody (fuel : Nat) (m : Machine) :
    ((runBody mode kind fuel).run m).2.trace =
      m.trace ++ (accomplished (bodyMoments mode kind fuel m)).filter fun e =>
      records mode e.instruction := by
  induction fuel generalizing m with
  | zero => simp [runBody, bodyMoments, run_bind]
  | succ fuel ih =>
    obtain ⟨journal, hfetch⟩ := run_fetch kind m
    have hfetched : ((fetch kind).run m).2.trace = m.trace := by rw [hfetch]
    rw [run_runBody_succ, bodyMoments]
    revert hfetched
    rcases (fetch kind).run m with ⟨r, m₁⟩
    intro hfetched
    cases r with
    | error fault => simpa using hfetched
    | ok i =>
      have heffect := trace_effect mode i m₁
      dsimp only at hfetched ⊢
      rcases hrun : (effect mode i).run m₁ with ⟨r, m₂⟩
      rw [hrun] at heffect
      dsimp only at heffect
      cases r with
      | error fault =>
        have hentry : (Moment.carry mode i m₁).deed.entry? = none := by
          rw [Moment.carry, hrun]
          rfl
        simp [accomplished, hentry, heffect, hfetched]
      | ok note =>
        have hcarry : (Moment.carry mode i m₁).deed = .instruction mode i (.ok note) := by
          rw [Moment.carry, hrun]
        have hnoted : (m₂.noted mode i note).trace =
            m.trace ++ [TraceEntry.mk i note].filter fun e => records mode e.instruction := by
          unfold noted
          cases hrecords : records mode i <;> simp [hrecords, heffect, hfetched]
        by_cases hfinish : i = .finish
        · simp only [hfinish, if_true] at hcarry hnoted ⊢
          rw [hnoted, accomplished_cons hcarry, accomplished_nil]
        · simp only [hfinish, if_false]
          rw [ih, hnoted, accomplished_cons hcarry, List.append_assoc, ← List.filter_append,
            List.singleton_append]

theorem trace_runPass (m : Machine) :
    ((runPass mode kind).run m).2.trace =
      (accomplished (m.passMoments mode kind)).filter fun e => records mode e.instruction := by
  have hbody := trace_runBody mode kind m.reader.remaining m.begun
  have hclosing := meets_iff_after.1 (keeps_closing_of_rest
    (I := fun m' => m'.trace = (m.body mode kind).2.trace) (fun _ _ _ _ _ _ => id)
    (fun _ => id) mode kind (m.body mode kind).1) (m.body mode kind).2 rfl
  rw [run_runPass, hclosing]
  exact hbody

theorem trace_runPass_normal (m : Machine) :
    ((runPass .normal kind).run m).2.trace = accomplished (m.passMoments .normal kind) := by
  rw [trace_runPass, List.filter_eq_self]
  intro e _
  cases e.instruction <;> rfl

/-! ## Warm-up passes -/

theorem note_of_warmup {i : Instruction} {m m' : Machine} {note : Option Note}
    (h : (effect .warmup i).run m = (.ok note, m')) :
    note = if i.isLaunch then some .warmup else none := by
  cases i with
  | launch frame device task events window arguments =>
    -- The device, the code and the frame are found, and then the launch ends.
    obtain ⟨_, _, -, h⟩ := run_bind_eq_ok.1 h
    obtain ⟨_, _, -, h⟩ := run_bind_eq_ok.1 h
    obtain ⟨_, _, -, h⟩ := run_bind_eq_ok.1 h
    obtain ⟨_, _, -, h⟩ := run_bind_eq_ok.1 h
    exact (Except.ok.inj (congrArg Prod.fst h)).symm
  | _ => exact (Except.ok.inj (congrArg Prod.fst h)).symm

theorem note_of_mem_warmup {kind : PassKind} {fuel : Nat} {m : Machine} {e : TraceEntry}
    (he : e ∈ accomplished (bodyMoments .warmup kind fuel m)) :
    e.note = if e.instruction.isLaunch then some .warmup else none := by
  obtain ⟨x, hx, hentry⟩ := List.mem_filterMap.1 he
  obtain ⟨i, -, hcarry⟩ := eq_of_mem_bodyMoments hx
  rw [hcarry, Moment.carry] at hentry
  rcases hrun : (effect .warmup i).run x.before with ⟨r, m'⟩
  rw [hrun] at hentry
  cases r with
  | error fault => cases hentry
  | ok note =>
    cases hentry
    exact note_of_warmup hrun

/-- The trace of a warm-up pass that has gone through a body that ends with END. -/
theorem trace_warmup {kind : PassKind} {m : Machine} {before : List Instruction}
    (hdone : (accomplished (m.passMoments .warmup kind)).map TraceEntry.instruction =
      before ++ [.finish])
    (hbefore : Instruction.finish ∉ before) :
    ((runPass .warmup kind).run m).2.trace =
      ((before.filter Instruction.isLaunch).map fun i => ⟨i, some .warmup⟩) ++
      [⟨.finish, none⟩] := by
  let entry (i : Instruction) : TraceEntry := ⟨i, if i.isLaunch then some .warmup else none⟩
  have hentries : accomplished (m.passMoments .warmup kind) =
      (before ++ [Instruction.finish]).map entry := by
    rw [← hdone, List.map_map]
    refine (List.map_id _).symm.trans (List.map_congr_left fun e he => ?_)
    obtain ⟨i, note⟩ := e
    exact congrArg (TraceEntry.mk i) (note_of_mem_warmup he)
  have hrecords : ∀ i ∈ before,
      ((fun e : TraceEntry => records .warmup e.instruction) ∘ entry) i = i.isLaunch := by
    intro i hi
    cases i with
    | finish => exact absurd hi hbefore
    | _ => rfl
  rw [trace_runPass, hentries, List.map_append, List.filter_append, List.filter_map]
  congr 1
  rw [List.filter_congr hrecords]
  refine List.map_congr_left fun i hi => ?_
  simp only [entry, (List.mem_filter.1 hi).2, if_true]

/-! ## Traces of a session -/

/-- What the trace shows after a pass, whatever was served before. After a normal pass that ends
well, the header and the trace assemble to the program, through END. After one that fails, the trace
shows the instructions before the failure; if it failed on none of them, these are all that can be
read. After a warm-up pass that ends well, the trace shows the launches and END. -/
theorem trace_shows_program {code : Bytes} {config : Config} {c c' : Context} {m : Machine}
    (hm : (create code config).run c = (.ok m, c')) (requests : List Request) (kind : PassKind) :
    let now := (session requests m).2
    let script := Program.script code
    let normal := (runPass .normal kind).run now
    let warmup := (runPass .warmup kind).run now
    (∀ event, normal.1 = .ok event →
      Program.decode code = .ok ⟨m.header, normal.2.trace.map TraceEntry.instruction⟩ ∧
      assemble (Text.paragraph (m.header.lines ++ normal.2.trace.map TraceEntry.text)) =
        .ok (Program.consumed code)) ∧
    (∀ fault, normal.1 = .error fault →
      (∃ k, FailsAt .normal kind script.instructions (now.passMoments .normal kind) k fault ∧
        normal.2.trace.length = k ∧
        normal.2.trace.map TraceEntry.instruction = script.instructions.take k) ∨
      (script.fault = none ∨ script.fault = some fault) ∧
        normal.2.trace.map TraceEntry.instruction = script.instructions) ∧
    ∀ event, warmup.1 = .ok event → ∃ p, Program.decode code = .ok p ∧
      warmup.2.trace =
        ((p.body.filter Instruction.isLaunch).map fun i => ⟨i, some .warmup⟩) ++
        [⟨.finish, none⟩] := by
  intro now script normal warmup
  have hdecode : Program.decode code = script.outcome.map (Program.mk m.header) :=
    decode_of_create hm
  have htrace : normal.2.trace = accomplished (now.passMoments .normal kind) :=
    trace_runPass_normal kind now
  have hnormal : Enacts .normal kind script _ _ := enacts_body hm requests .normal kind
  have hwarmup : Enacts .warmup kind script _ _ := enacts_body hm requests .warmup kind
  refine ⟨fun event hok => ?_, fun fault hfault => ?_, fun event hok => ?_⟩
  · obtain ⟨hnone, -, hdone⟩ := hnormal.through (body_of_closing hok)
    have hprogram : Program.decode code =
        .ok ⟨m.header, normal.2.trace.map TraceEntry.instruction⟩ := by
      rw [hdecode, Script.outcome, hnone, htrace, hdone]
      rfl
    obtain ⟨hencodable, -⟩ := (Program.decode_eq_ok_iff_starts _ _).1 hprogram
    refine ⟨hprogram, ?_⟩
    rw [Program.consumed_of_decode hprogram]
    exact assemble_entries hencodable.header fun e he => hencodable.body _ (List.mem_map_of_mem he)
  · rcases fault_of_closing hfault with hbody | ⟨hbody, -, -⟩
    · rcases hnormal.stopped hbody with ⟨k, hk⟩ | ⟨hsome, -, hdone⟩
      · have hlength := hk.lt
        have hdone := hk.done
        rw [← htrace] at hdone
        refine .inl ⟨k, hk, ?_, hdone⟩
        rw [← List.length_map TraceEntry.instruction, hdone, List.length_take]
        omega
      · exact .inr ⟨.inr hsome, htrace ▸ hdone⟩
    · obtain ⟨hnone, -, hdone⟩ := hnormal.through hbody
      exact .inr ⟨.inl hnone, htrace ▸ hdone⟩
  · obtain ⟨hnone, -, hdone⟩ := hwarmup.through (body_of_closing hok)
    have hprogram : Program.decode code = .ok ⟨m.header, script.instructions⟩ := by
      rw [hdecode, Script.outcome, hnone]
      rfl
    refine ⟨_, hprogram, ?_⟩
    obtain ⟨before, hends, hbefore⟩ := ((Program.decode_eq_ok_iff_starts _ _).1 hprogram).1.ends
    rw [hends, List.filter_append, List.filter_singleton]
    simpa [Instruction.isLaunch] using trace_warmup (hdone.trans hends) hbefore

/-- The second of two transfers of one object has a note. -/
theorem trace_shows_program_noted :
    let p : Program := ⟨⟨1, 0, 0, [0]⟩,
      [.transfer .copyIn 0 0 none none, .transfer .copyIn 0 0 none none, .finish]⟩
    let c : Context :=
      { devices := [{ name := "d" }], objects := [⟨"a", [1]⟩], constants := [], tasks := [] }
    let lines := ["COPY_IN 0 0 -1", "COPY_IN 0 0 -1 # valid, skipped", "END"]
    ∃ m c', (create p.encode {}).run c = (.ok m, c') ∧
      (((runPass .normal .plain).run m).1.isOk ∧
        ((runPass .normal .plain).run m).2.trace.map TraceEntry.text = lines) ∧
      assemble (Text.paragraph (p.header.lines ++ lines)) = .ok p.encode := by
  intro p c lines
  have hrun : (((create p.encode {}).outcome c).toOption.map fun m =>
      (m.header, ((runPass .normal .plain).run m).1.isOk,
        ((runPass .normal .plain).run m).2.trace.map TraceEntry.text)) =
        some (p.header, true, lines) := by
    decide +kernel
  have hconsumed : Program.consumed p.encode = p.encode := by decide +kernel
  obtain ⟨m, c', hm, hread⟩ := Action.exists_run_of_read hrun
  obtain ⟨hheader, hread⟩ := Prod.mk.inj hread
  obtain ⟨hok, hlines⟩ := Prod.mk.inj hread
  refine ⟨m, c', hm, ⟨hok, hlines⟩, ?_⟩
  cases hresult : ((runPass .normal .plain).run m).1 with
  | error fault =>
    rw [hresult] at hok
    cases hok
  | ok event =>
    have htext := ((trace_shows_program hm [] .plain).1 event hresult).2
    rw [hconsumed, hheader] at htext
    rw [← hlines]
    exact htext

end Machine

end Offload
