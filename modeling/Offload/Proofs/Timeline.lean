import Offload.Proofs.Session

/-!
# Timelines

What is done in a session, one deed after the other: an instruction is carried out, a pass ends, or
what the devices hold is forgotten. The timeline lists these deeds with the machine before and after
each. A property of the machine and of all that was done so far holds throughout the session if
every deed keeps it; between the deeds only the reader, the trace and the journal change.
-/

namespace Offload

open Offload.Action

/-- Something that is done in a session, with its outcome. -/
inductive Deed where
  | instruction (mode : PassMode) (i : Instruction) (outcome : Except Fault (Option Note))
  | ending (mode : PassMode) (kind : PassKind) (outcome : Except Fault Event)
  | invalidation
  deriving DecidableEq

/-- A deed, with the machine before and after it. -/
structure Moment where
  deed : Deed
  before : Machine
  after : Machine

namespace Machine

variable (mode : PassMode) (kind : PassKind) (m : Machine)

/-! ## The parts of a pass -/

/-- The machine at the beginning of a pass. -/
def begun (m : Machine) : Machine := { m with trace := [], lastEvent := none }

/-- Carry out an instruction that was read. -/
def effect (mode : PassMode) : Instruction → MachineAction (Option Note)
  | .launch frame device task events window arguments =>
    launch mode frame device task events window arguments
  | i => if mode = .normal then perform i else return none

/-- Whether a pass keeps an instruction in its trace. -/
def records (mode : PassMode) : Instruction → Bool
  | .launch .. | .finish => true
  | _ => mode = .normal

/-- The machine with an instruction in its trace. -/
def noted (mode : PassMode) (i : Instruction) (note : Option Note) (m : Machine) : Machine :=
  if records mode i then { m with trace := m.trace ++ [⟨i, note⟩] } else m

/-- The part of the end of a pass that may fail. A fault of the body is a fault of the pass. -/
def completion (mode : PassMode) (body : Except Fault Unit) : MachineAction Event := do
  modify fun m => { m with reader := m.reader.reset }
  Action.ofExcept body
  match mode with
  | .normal => finish
  | .warmup => return .empty

/-- The end of a pass whose body had the given outcome. -/
def closing (mode : PassMode) (kind : PassKind) (body : Except Fault Unit) :
    MachineAction Event := do
  let result ← Action.attempt (completion mode body)
  conclude mode kind result
  reportTrace mode kind
  Action.ofExcept result

/-- What is noted about a pass that has ended with a result. The result stays what it is. -/
def concluding (mode : PassMode) (kind : PassKind) (result : Except Fault Event) :
    MachineAction Event := do
  conclude mode kind result
  reportTrace mode kind
  Action.ofExcept result

theorem run_closing (body : Except Fault Unit) (m : Machine) :
    (closing mode kind body).run m = (concluding mode kind ((completion mode body).run m).1).run
      ((completion mode body).run m).2 := rfl

/-- The body of a pass, from the beginning. -/
def body (mode : PassMode) (kind : PassKind) (m : Machine) : Except Fault Unit × Machine :=
  (runBody mode kind m.reader.remaining).run m.begun

theorem run_runPass :
    (runPass mode kind).run m = (closing mode kind (m.body mode kind).1).run (m.body mode kind).2 :=
  rfl

/-- Reading an instruction moves the reader and may leave a line in the journal. -/
theorem after_fetch :
    ∃ reader journal, ((fetch kind).run m).2 =
      { m with reader, store := { m.store with context := { m.store.context with journal } } } := by
  let Read (m' : Machine) : Prop := ∃ reader journal, m' =
    { m with reader, store := { m.store with context := { m.store.context with journal } } }
  have hread : Keeps Read (read Reading.instruction) := by
    refine meets_iff_after.2 ?_
    rintro _ ⟨reader, journal, rfl⟩
    exact ⟨_, journal, rfl⟩
  have hlog : ∀ level text, Keeps Read (log level text) := by
    intro level text
    refine meets_iff_after.2 ?_
    rintro _ ⟨reader, journal, rfl⟩
    exact ⟨reader, _, rfl⟩
  have hfetch : Keeps Read (fetch kind) := by
    refine keeps_get fun m => keeps_bind hread fun i => ?_
    dsimp only
    split
    · exact meets_throw_bind fun _ hm => hm
    · split
      · exact keeps_bind (hlog _ _) fun _ => keeps_pure
      · exact keeps_pure
  exact meets_iff_after.1 hfetch m ⟨m.reader, m.store.context.journal, rfl⟩

/-- What is read in a pass is of the family of the pass. -/
theorem accepts_of_fetch {kind : PassKind} {m m' : Machine} {i : Instruction}
    (h : (fetch kind).run m = (.ok i, m')) : kind.accepts i.opcode = true := by
  have hfetch : Meets (fun _ => True) (fetch kind) (fun i _ => kind.accepts i.opcode = true)
      (fun _ => True) := by
    refine meets_look fun m => ?_
    refine meets_bind (Q := fun _ _ => True) (meets_iff_after.2 fun _ _ => trivial) fun i => ?_
    dsimp only
    split
    · exact meets_throw_bind fun _ _ => trivial
    · rename_i haccepts
      have haccepts : kind.accepts i.opcode = true := by simpa using haccepts
      split
      · refine meets_bind (Q := fun _ _ => True) (meets_iff_after.2 fun _ _ => trivial)
          fun _ => meets_pure fun _ _ => haccepts
      · exact meets_pure fun _ _ => haccepts
  have hrun := hfetch m trivial
  rw [h] at hrun
  exact hrun

/-- One step: the instruction is read, carried out and kept in the trace. -/
theorem run_step :
    (step mode kind).run m =
      match (fetch kind).run m with
      | (.error fault, m) => (.error fault, m)
      | (.ok i, m) =>
        match (effect mode i).run m with
        | (.error fault, m) => (.error fault, m)
        | (.ok note, m) => (.ok (decide (i = .finish)), m.noted mode i note) := by
  rw [step, run_bind]
  rcases (fetch kind).run m with ⟨r, m⟩
  cases r with
  | error fault => rfl
  | ok i =>
    cases i with
    | finish => cases mode <;> rfl
    | launch frame device task events window arguments =>
      dsimp only [effect]
      rw [run_bind]
      rcases (launch mode frame device task events window arguments).run m with ⟨r, m⟩
      cases r <;> rfl
    | _ =>
      cases mode with
      | warmup => rfl
      | normal =>
        dsimp only [effect]
        rw [if_pos rfl, if_pos rfl, run_bind]
        generalize (perform _).run m = done
        rcases done with ⟨r, m⟩
        cases r <;> rfl

/-- The body goes on with what is left of it until END or a fault. -/
theorem run_runBody_succ (fuel : Nat) (m : Machine) :
    (runBody mode kind (fuel + 1)).run m =
      match (fetch kind).run m with
      | (.error fault, m) => (.error fault, m)
      | (.ok i, m) =>
        match (effect mode i).run m with
        | (.error fault, m) => (.error fault, m)
        | (.ok note, m) =>
          if i = .finish then (.ok (), m.noted mode i note)
          else (runBody mode kind fuel).run (m.noted mode i note) := by
  rw [runBody, run_bind, run_step]
  rcases (fetch kind).run m with ⟨r, m⟩
  cases r with
  | error fault => rfl
  | ok i =>
    dsimp only
    rcases (effect mode i).run m with ⟨r, m⟩
    cases r with
    | error fault => rfl
    | ok note =>
      by_cases hfinish : i = .finish
      · simp [hfinish]
      · simp [hfinish]

end Machine

/-! ## Moments -/

namespace Moment

open Machine

/-- An instruction is carried out. -/
def carry (mode : PassMode) (i : Instruction) (m : Machine) : Moment :=
  ⟨.instruction mode i ((effect mode i).run m).1, m, ((effect mode i).run m).2⟩

/-- A pass ends. -/
def close (mode : PassMode) (kind : PassKind) (body : Except Fault Unit) (m : Machine) : Moment :=
  ⟨.ending mode kind ((closing mode kind body).run m).1, m, ((closing mode kind body).run m).2⟩

/-- What the devices hold is forgotten. -/
def forget (m : Machine) : Moment := ⟨.invalidation, m, m.invalidate⟩

end Moment

namespace Machine

variable {m : Machine} {x : Moment} {mode : PassMode} {past earlier later : List Moment}
  {kind : PassKind}
variable {requests : List Request} {i : Instruction}

/-- What is done in a body of a program. -/
def bodyMoments (mode : PassMode) (kind : PassKind) : (fuel : Nat) → Machine → List Moment
  | 0, _ => []
  | fuel + 1, m =>
    match (fetch kind).run m with
    | (.error _, _) => []
    | (.ok i, m) =>
      .carry mode i m ::
        match (effect mode i).run m with
        | (.error _, _) => []
        | (.ok note, m) =>
          if i = .finish then [] else bodyMoments mode kind fuel (m.noted mode i note)

/-- What is done to serve a request. -/
def moments : Request → Machine → List Moment
  | .pass mode kind, m =>
    bodyMoments mode kind m.reader.remaining m.begun ++
      [.close mode kind (m.body mode kind).1 (m.body mode kind).2]
  | .invalidate, m => [.forget m]

/-- What is done in a session. -/
def timeline : List Request → Machine → List Moment
  | [], _ => []
  | request :: others, m => moments request m ++ timeline others ((serve request).run m).2

theorem timeline_append (served others : List Request) (m : Machine) :
    timeline (served ++ others) m = timeline served m ++ timeline others (session served m).2 := by
  induction served generalizing m with
  | nil => rfl
  | cons request served ih => simp only [List.cons_append, timeline, session, ih, List.append_assoc]

theorem exists_split_at {α : Type} {items : List α} {k : Nat} {x : α} (hx : items[k]? = some x) :
    ∃ past future, items = past ++ x :: future ∧ past.length = k := by
  obtain ⟨hk, rfl⟩ := List.getElem?_eq_some_iff.1 hx
  refine ⟨items.take k, items.drop (k + 1), ?_, List.length_take_of_le hk.le⟩
  rw [← List.drop_eq_getElem_cons hk, List.take_append_drop]

/-- What is done in a pass is of the family of the pass, and is done to the machine before it. -/
theorem eq_of_mem_bodyMoments {fuel : Nat} (hx : x ∈ bodyMoments mode kind fuel m) :
    ∃ i, kind.accepts i.opcode = true ∧ x = .carry mode i x.before := by
  induction fuel generalizing m with
  | zero => cases hx
  | succ fuel ih =>
    rw [bodyMoments] at hx
    rcases hfetch : (fetch kind).run m with ⟨r, m⟩
    rw [hfetch] at hx
    cases r with
    | error fault => cases hx
    | ok i =>
      rcases List.mem_cons.1 hx with rfl | hx
      · exact ⟨i, accepts_of_fetch hfetch, rfl⟩
      · revert hx
        rcases (effect mode i).run m with ⟨r, m⟩
        cases r with
        | error fault => exact nofun
        | ok note =>
          by_cases hfinish : i = .finish
          · simp [hfinish]
          · simpa [hfinish] using ih

theorem eq_of_mem_timeline (hx : x ∈ timeline requests m) :
    (∃ mode i, x = .carry mode i x.before) ∨
      (∃ mode kind body, x = .close mode kind body x.before) ∨ x = .forget x.before := by
  induction requests generalizing m with
  | nil => cases hx
  | cons request others ih =>
    rcases List.mem_append.1 hx with hx | hx
    · cases request with
      | invalidate => exact .inr (.inr (List.mem_singleton.1 hx ▸ rfl))
      | pass mode kind =>
        rcases List.mem_append.1 hx with hx | hx
        · obtain ⟨i, -, hi⟩ := eq_of_mem_bodyMoments hx
          exact .inl ⟨mode, i, hi⟩
        · exact .inr (.inl ⟨mode, kind, (m.body mode kind).1, List.mem_singleton.1 hx ▸ rfl⟩)
    · exact ih hx

theorem run_effect_of_deed {future : List Moment} (hx : timeline requests m = past ++ x :: future)
    {outcome : Except Fault (Option Note)} (hdeed : x.deed = .instruction mode i outcome) :
    (effect mode i).run x.before = (outcome, x.after) := by
  have hmem : x ∈ timeline requests m := by
    rw [hx]
    simp
  rcases eq_of_mem_timeline hmem with ⟨mode', i', hcarry⟩ | ⟨mode', kind, body, hclose⟩ | hforget
  · have hafter := congrArg Moment.after hcarry
    rw [hcarry] at hdeed
    cases hdeed
    rw [hafter]
    rfl
  · rw [hclose] at hdeed
    cases hdeed
  · rw [hforget] at hdeed
    cases hdeed

/-! ## Faults -/

/-- An instruction that fails is the last of its body, and the body ends with its fault. -/
theorem fault_of_bodyMoments {fuel : Nat} {fault : Fault}
    (hx : bodyMoments mode kind fuel m = earlier ++ x :: later)
    (hdeed : x.deed = .instruction mode i (.error fault)) :
    later = [] ∧ ((runBody mode kind fuel).run m).1 = .error fault := by
  induction fuel generalizing m earlier with
  | zero => simp [bodyMoments] at hx
  | succ fuel ih =>
    rw [bodyMoments] at hx
    rw [run_runBody_succ]
    revert hx
    rcases (fetch kind).run m with ⟨r, m⟩
    cases r with
    | error _ => simp
    | ok j =>
      dsimp only
      rcases hrun : (effect mode j).run m with ⟨r, m'⟩
      cases earlier with
      | nil =>
        -- The instruction itself.
        intro hx
        obtain ⟨hcarry, hrest⟩ := List.cons.inj hx
        rw [← hcarry, Moment.carry, hrun] at hdeed
        cases r with
        | ok note => cases hdeed
        | error _ =>
          cases hdeed
          exact ⟨hrest.symm, rfl⟩
      | cons y earlier =>
        -- An instruction behind one that was carried out.
        intro hx
        have hrest := (List.cons.inj hx).2
        cases r with
        | error _ => simp at hrest
        | ok note =>
          by_cases hfinish : j = .finish
          · simp [hfinish] at hrest
          · simp only [hfinish, if_false] at hrest ⊢
            exact ih hrest

/-- The machine with what is noted about a pass, messages apart. -/
def concluded (mode : PassMode) (result : Except Fault Event) (m : Machine) : Machine :=
  match result with
  | .ok _ => if mode = .normal then { m with timing := m.timing.record 0 } else m
  | .error _ => { m with ledger := m.ledger.clear, pending := [] }

theorem run_concluding (mode : PassMode) (kind : PassKind) (result : Except Fault Event)
    (m : Machine) :
    ∃ journal, (concluding mode kind result).run m = (result, { m.concluded mode result with
      store := { m.store with context := { m.store.context with journal } } }) := by
  have hreport : ∀ m', ∃ journal, (do
      reportTrace mode kind
      Action.ofExcept result : MachineAction Event).run m' = (result, { m' with
        store := { m'.store with context := { m'.store.context with journal } } }) := by
    intro m'
    rw [run_bind, reportTrace, run_bind, run_get]
    dsimp only
    split_ifs
    · cases result <;> exact ⟨_, rfl⟩
    · cases result <;> exact ⟨m'.store.context.journal, rfl⟩
  cases result with
  | error fault => exact hreport _
  | ok event =>
    rw [concluding, run_bind, conclude, concluded]
    split_ifs
    · exact hreport _
    · exact hreport _

theorem outcome_concluding (mode : PassMode) (kind : PassKind) (result : Except Fault Event)
    (m : Machine) : ((concluding mode kind result).run m).1 = result := by
  obtain ⟨journal, hrun⟩ := run_concluding mode kind result m
  rw [hrun]

/-- A pass whose body has failed ends with the fault of the body. -/
theorem run_closing_error (mode : PassMode) (kind : PassKind) (fault : Fault) (m : Machine) :
    ((closing mode kind (.error fault)).run m).1 = .error fault :=
  outcome_concluding mode kind (.error fault) { m with reader := m.reader.reset }

theorem body_of_closing {body : Except Fault Unit} {event : Event}
    (h : ((closing mode kind body).run m).1 = .ok event) : body = .ok () := by
  cases body with
  | ok u => rfl
  | error fault =>
    rw [run_closing_error] at h
    cases h

/-- The part of a list in which an item of the whole stands. -/
theorem eq_append_or_of_append_eq {α : Type} {l l' earlier later : List α} {x : α}
    (h : l ++ l' = earlier ++ x :: later) :
    (∃ rest, l = earlier ++ x :: rest ∧ later = rest ++ l') ∨
      ∃ rest, earlier = l ++ rest ∧ l' = rest ++ x :: later := by
  rcases List.append_eq_append_iff.1 h with ⟨rest, hl, hl'⟩ | ⟨rest, hl, hl'⟩
  · exact .inr ⟨rest, hl, hl'⟩
  · cases rest with
    | nil => exact .inr ⟨[], by simpa using hl.symm, by simpa using hl'.symm⟩
    | cons y rest =>
      obtain ⟨rfl, hlater⟩ := List.cons.inj hl'
      exact .inl ⟨rest, hl, hlater⟩

/-- Where an item of a timeline stands among what is done to serve one of the requests. -/
theorem exists_served (hx : timeline requests m = earlier ++ x :: later) :
    ∃ served request others inner rest, requests = served ++ request :: others ∧
      earlier = timeline served m ++ inner ∧
      moments request (session served m).2 = inner ++ x :: rest ∧
      later = rest ++ timeline others ((serve request).run (session served m).2).2 := by
  induction requests generalizing m earlier with
  | nil => simp [timeline] at hx
  | cons request requests ih =>
    rcases eq_append_or_of_append_eq hx with ⟨rest, hmoments, rfl⟩ | ⟨rest, rfl, hothers⟩
    · exact ⟨[], request, requests, earlier, rest, rfl, rfl, hmoments, rfl⟩
    · obtain ⟨served, request', others, inner, rest', rfl, rfl, hmoments, hlater⟩ := ih hothers
      refine ⟨request :: served, request', others, inner, rest', rfl, ?_, hmoments, hlater⟩
      exact (List.append_assoc _ _ _).symm

/-- An instruction of a timeline stands in the body of a pass. -/
theorem exists_body (hx : timeline requests m = earlier ++ x :: later)
    {outcome : Except Fault (Option Note)} (hdeed : x.deed = .instruction mode i outcome) :
    ∃ served kind others inner rest, earlier = timeline served m ++ inner ∧
      let now := (session served m).2
      bodyMoments mode kind now.reader.remaining now.begun = inner ++ x :: rest ∧
      later = rest ++ .close mode kind (now.body mode kind).1 (now.body mode kind).2 :: others := by
  obtain ⟨served, request, others, inner, rest, -, rfl, hmoments, rfl⟩ := exists_served hx
  cases request with
  | invalidate =>
    have hforget : x ∈ moments .invalidate (session served m).2 := by simp [hmoments]
    rw [List.mem_singleton.1 hforget] at hdeed
    cases hdeed
  | pass mode' kind =>
    rcases eq_append_or_of_append_eq hmoments with ⟨rest', hbody, rfl⟩ | ⟨rest', rfl, hclose⟩
    · obtain ⟨j, -, hcarry⟩ :=
        eq_of_mem_bodyMoments (hbody ▸ List.mem_append_right inner List.mem_cons_self)
      rw [hcarry] at hdeed
      cases hdeed
      exact ⟨served, kind, _, inner, rest', rfl, hbody, List.append_assoc _ _ _⟩
    · have hlast := List.mem_append_right rest' (List.mem_cons_self (a := x) (l := rest))
      rw [← hclose] at hlast
      rw [List.mem_singleton.1 hlast] at hdeed
      cases hdeed

/-- What follows an instruction that fails is the end of its pass, with the same fault. -/
theorem ending_of_fault {fault : Fault} (hx : timeline requests m = earlier ++ x :: later)
    (hdeed : x.deed = .instruction mode i (.error fault)) :
    ∃ kind y rest, later = y :: rest ∧ y.deed = .ending mode kind (.error fault) := by
  obtain ⟨served, kind, others, inner, rest, rfl, hbody, rfl⟩ := exists_body hx hdeed
  obtain ⟨rfl, hfault⟩ := fault_of_bodyMoments hbody hdeed
  refine ⟨kind, _, _, rfl, ?_⟩
  rw [Moment.close, body, hfault, run_closing_error]

/-! ## What holds throughout a session -/

/-- What holds of a machine and of all that was done before it goes on to hold through the body of a
pass. -/
structure Carried (I : List Moment → Machine → Prop) : Prop where
  fetch : ∀ {past m} (kind : PassKind), I past m → I past ((fetch kind).run m).2
  noted : ∀ {past m} (mode : PassMode) (i : Instruction) (note : Option Note),
    I past m → I past (m.noted mode i note)
  carry : ∀ {past m} (mode : PassMode) (i : Instruction),
    I past m → I (past ++ [.carry mode i m]) ((effect mode i).run m).2

/-- What holds of a machine and of all that was done before it goes on to hold, whatever is done. -/
structure Lasting (I : List Moment → Machine → Prop) : Prop extends Carried I where
  begun : ∀ {past m}, I past m → I past m.begun
  close : ∀ {past m} (mode : PassMode) (kind : PassKind) (body : Except Fault Unit),
    I past m → I (past ++ [.close mode kind body m]) ((closing mode kind body).run m).2
  forget : ∀ {past m}, I past m → I (past ++ [.forget m]) m.invalidate

/-- `I` holds before every moment of a list, where `past` was done before the list. -/
def Throughout (I : List Moment → Machine → Prop) : List Moment → List Moment → Prop
  | _, [] => True
  | past, x :: others => I past x.before ∧ Throughout I (past ++ [x]) others

variable {I : List Moment → Machine → Prop}

/-- What does not depend on the reader, the journal and the trace lasts if every deed keeps it. -/
theorem lasting_of_aside
    (haside : ∀ {past m} reader journal trace lastEvent, lastEvent = none ∨
      lastEvent = m.lastEvent → I past m → I past { m with
        reader, trace, lastEvent, store :=
        { m.store with context := { m.store.context with journal } } })
    (hcarry : ∀ {past m} (mode : PassMode) (i : Instruction),
      I past m → I (past ++ [.carry mode i m]) ((effect mode i).run m).2)
    (hclose : ∀ {past m} (mode : PassMode) (kind : PassKind) (body : Except Fault Unit),
      I past m → I (past ++ [.close mode kind body m]) ((closing mode kind body).run m).2)
    (hforget : ∀ {past m}, I past m → I (past ++ [.forget m]) m.invalidate) : Lasting I where
  begun {_ m} hm := haside m.reader m.store.context.journal [] none (.inl rfl) hm
  fetch {_ m} kind hm := by
    obtain ⟨reader, journal, hfetch⟩ := after_fetch kind m
    rw [hfetch]
    exact haside reader journal m.trace m.lastEvent (.inr rfl) hm
  noted {_ m} mode i note hm := by
    rw [noted]
    split_ifs
    · exact haside m.reader m.store.context.journal _ m.lastEvent (.inr rfl) hm
    · exact hm
  carry := hcarry
  close := hclose
  forget := hforget

theorem throughout_append {l others : List Moment} (hl : Throughout I past l)
    (hothers : Throughout I (past ++ l) others) : Throughout I past (l ++ others) := by
  induction l generalizing past with
  | nil => simpa using hothers
  | cons x l ih => exact ⟨hl.1, ih hl.2 (by simpa using hothers)⟩

theorem Throughout.before {l : List Moment} (h : Throughout I past l)
    (hl : l = earlier ++ x :: later) :
    I (past ++ earlier) x.before := by
  induction earlier generalizing past l with
  | nil =>
    subst hl
    simpa using h.1
  | cons y earlier ih =>
    subst hl
    simpa using ih h.2 rfl

theorem Carried.runBody (h : Carried I) (mode : PassMode) (kind : PassKind) (fuel : Nat)
    (hm : I past m) :
    Throughout I past (bodyMoments mode kind fuel m) ∧
      I (past ++ bodyMoments mode kind fuel m) ((runBody mode kind fuel).run m).2 := by
  induction fuel generalizing past m with
  | zero =>
    rw [bodyMoments, List.append_nil]
    exact ⟨trivial, hm⟩
  | succ fuel ih =>
    have hfetch := h.fetch kind hm
    rw [run_runBody_succ, bodyMoments]
    revert hfetch
    rcases (Machine.fetch kind).run m with ⟨r, m⟩
    intro hfetch
    cases r with
    | error fault => exact ⟨trivial, by simpa using hfetch⟩
    | ok i =>
      have hcarry := h.carry mode i hfetch
      dsimp only at hcarry ⊢
      rcases hrun : (effect mode i).run m with ⟨r, m'⟩
      rw [hrun] at hcarry
      cases r with
      | error fault => exact ⟨⟨hfetch, trivial⟩, hcarry⟩
      | ok note =>
        have hnoted := h.noted mode i note hcarry
        by_cases hfinish : i = .finish
        · simp only [hfinish, if_true]
          exact ⟨⟨hfetch, trivial⟩, hfinish ▸ hnoted⟩
        · simp only [hfinish, if_false]
          obtain ⟨hthroughout, hend⟩ := ih hnoted
          exact ⟨⟨hfetch, hthroughout⟩, by simpa using hend⟩

namespace Lasting

variable {m : Machine}

theorem serve (h : Lasting I) (request : Request) {past : List Moment} (hm : I past m) :
    Throughout I past (moments request m) ∧
      I (past ++ moments request m) ((Machine.serve request).run m).2 := by
  cases request with
  | invalidate => exact ⟨⟨hm, trivial⟩, h.forget hm⟩
  | pass mode kind =>
    obtain ⟨hthroughout, hbody⟩ := h.runBody mode kind m.reader.remaining (h.begun hm)
    have hclose := h.close mode kind (m.body mode kind).1 hbody
    refine ⟨throughout_append hthroughout ⟨hbody, trivial⟩, ?_⟩
    rw [moments, ← List.append_assoc]
    exact hclose

theorem session (h : Lasting I) (requests : List Request) {past : List Moment} (hm : I past m) :
    Throughout I past (timeline requests m) ∧
      I (past ++ timeline requests m) (Machine.session requests m).2 := by
  induction requests generalizing past m with
  | nil => exact ⟨trivial, by simpa [timeline, Machine.session] using hm⟩
  | cons request others ih =>
    obtain ⟨hserve, hnext⟩ := h.serve request hm
    obtain ⟨hothers, hend⟩ := ih hnext
    refine ⟨throughout_append hserve hothers, ?_⟩
    rw [timeline, ← List.append_assoc]
    exact hend

theorem before (h : Lasting I) {requests : List Request} (hm : I [] m) {earlier later : List Moment}
    {x : Moment} (hx : timeline requests m = earlier ++ x :: later) : I earlier x.before :=
  (h.session requests hm).1.before hx

theorem after (h : Lasting I) {requests : List Request} (hm : I [] m) {earlier later : List Moment}
    {x : Moment} (hx : timeline requests m = earlier ++ x :: later) :
    I (earlier ++ [x]) x.after := by
  have hbefore := h.before hm hx
  have hmem : x ∈ timeline requests m := by
    rw [hx]
    simp
  rcases eq_of_mem_timeline hmem with ⟨mode, i, hcarry⟩ | ⟨mode, kind, body, hclose⟩ | hforget
  · rw [hcarry]
    exact h.carry mode i hbefore
  · rw [hclose]
    exact h.close mode kind body hbefore
  · rw [hforget]
    exact h.forget hbefore

end Lasting

end Machine

end Offload
