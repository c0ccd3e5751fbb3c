import Offload.Proofs.Script

/-!
# Machines that are ready for a pass

A user runs passes, forgets what the devices hold, and clears the timing and the profiles, in any
order. Between these uses a machine is always ready for the next pass, however the passes before
have ended: the reader stands at its mark behind the header, no profile is pending, the event lists,
the frames and the code have the numbers that the header declares, and no frame holds more arguments
than it has room for. A pass that failed has emptied the event lists, and the timing counts the
normal passes that ended well.
-/

namespace Offload

open Offload.Action

variable {m : Machine} {f : CallFrame}

/-! ## Frames with room for their arguments -/

/-- The arguments of a frame fit into it. -/
def CallFrame.Fits (f : CallFrame) : Prop := f.arguments.length ≤ f.capacity

theorem CallFrame.fits_of_push {g : CallFrame} {id : Nat} {a : FrameArgument}
    (h : f.push id a = .ok g) : g.Fits := by
  unfold push at h
  split at h
  · cases h
  · cases h
    simp only [Fits, List.length_append, List.length_singleton]
    omega

namespace Machine

variable {h : Header} {α : Type} (mode : PassMode) (kind : PassKind)

/-! ## Sizes -/

/-- A machine has the event lists, the frames and the places for code that a header declares, and
its frames have room for what they hold. -/
structure Sized (h : Header) (m : Machine) : Prop where
  ledger : m.ledger.lists.length = h.eventLists
  frames : m.frames.slots.length = h.tasks
  code : m.code.slots.length = h.tasks
  fits : m.frames.All CallFrame.Fits

theorem keeps_sized_inStore (x : StoreAction α) : Keeps (Sized h) (inStore x) :=
  meets_iff_after.2 fun _ hm => { hm with }

theorem keeps_sized_putFrame (id : Nat) (hf : f.Fits) : Keeps (Sized h) (putFrame id f) := by
  refine keeps_modify fun m hm => { hm with frames := ?_, fits := hm.fits.put hf id }
  simpa [FramePool.put] using hm.frames

theorem frameKeeps_sized : FrameKeeps (Sized h) CallFrame.Fits where
  log level text := keeps_sized_inStore _
  claim object device := keeps_sized_inStore _
  put id f hf := keeps_sized_putFrame id hf
  resolve := meets_resolveFrame (fun count => Nat.zero_le count) (fun _ hm => hm.fits)
    fun _ _ hm hframes hlength => { hm with frames := hlength.trans hm.frames, fits := hframes }
  reset f _ := Nat.zero_le f.capacity
  push f id a g hg := CallFrame.fits_of_push hg
  submit index code f name window wait hf := by
    have hframe := meets_inStore (Store.meets_launch_frame index code f name window wait)
    refine meets_weaken (meets_and (keeps_sized_inStore _) hframe) (fun m hm => ⟨hm, trivial⟩) ?_
      fun m hm => hm.1
    rintro r m ⟨hm, d, -, hr⟩
    refine ⟨{ hm with }, ?_⟩
    rw [hr]
    split <;> exact hf
  lists := keeps_resetList_of_lists fun m ledger hlength hm =>
    { hm with ledger := hlength.trans hm.ledger }
  aside m pending hm := { hm with }

theorem keeps_sized_launch (frame device task : Nat) (events : Option Nat) (window : Option Window)
    (arguments : List Argument) :
    Keeps (Sized h) (launch mode frame device task events window arguments) := by
  refine frameKeeps_sized.launch ?_
  refine keeps_resolveCode_of_compiled fun m d found journal _ _ hm => { hm with code := ?_ }
  exact (CodeCache.length_slots_tried m.code task device found).trans hm.code

theorem keeps_sized_effect (i : Instruction) : Keeps (Sized h) (effect mode i) := by
  have hperform : Keeps (Sized h) (perform i) :=
    keeps_perform_of_lists (fun m lastEvent ledger hlength hm =>
      { hm with ledger := hlength.trans hm.ledger }) fun _ => keeps_sized_inStore _
  cases i with
  | launch => exact keeps_sized_launch mode _ _ _ _ _ _
  | _ =>
    cases mode with
    | normal => exact hperform
    | warmup => exact keeps_pure

theorem keeps_sized_runBody (fuel : Nat) : Keeps (Sized h) (runBody mode kind fuel) :=
  keeps_runBody_of_aside (fun _ _ _ _ hm => { hm with }) (keeps_sized_effect mode) fuel

theorem keeps_sized_closing (body : Except Fault Unit) :
    Keeps (Sized h) (closing mode kind body) := by
  have hend : EndKeeps (Sized h) :=
    ⟨fun _ => keeps_sized_inStore _, fun _ _ => keeps_sized_inStore _, fun _ =>
      keeps_sized_inStore _, fun _ hm => { hm with }, fun _ _ hm => { hm with }⟩
  refine hend.closing_of_clear (fun _ _ => keeps_sized_inStore _) (fun _ _ _ hm => { hm with })
    ?_ mode kind body
  exact fun m hm => { hm with ledger := (EventLedger.length_lists_clear _).trans hm.ledger }

theorem Sized.runPass (hm : m.Sized h) (mode : PassMode) (kind : PassKind) :
    ((runPass mode kind).run m).2.Sized h := by
  have hbody : (m.body mode kind).2.Sized h :=
    meets_iff_after.1 (keeps_sized_runBody mode kind _) m.begun { hm with }
  rw [run_runPass]
  exact meets_iff_after.1 (keeps_sized_closing mode kind _) _ hbody

theorem sized_initial (c : Context) (config : Config) (h : Header) (reader : Reader) :
    (initial c config h reader).Sized h where
  ledger := (EventLedger.length_lists _).trans List.length_replicate
  frames := List.length_replicate
  code := List.length_replicate
  fits := FramePool.all_new _ _

/-! ## What a pass leaves -/

/-- The part of a pass that may fail: its body and, in a normal pass, its end. -/
def worked (mode : PassMode) (kind : PassKind) (m : Machine) : Except Fault Event × Machine :=
  (completion mode (m.body mode kind).1).run (m.body mode kind).2

theorem run_runPass_concluded (m : Machine) :
    ∃ journal, (runPass mode kind).run m = ((m.worked mode kind).1,
      let m₁ := (m.worked mode kind).2
      { m₁.concluded mode (m.worked mode kind).1 with
        store := { m₁.store with context := { m₁.store.context with journal } } }) := by
  rw [run_runPass, run_closing]
  exact run_concluding mode kind _ _

/-- The work of a pass keeps what depends neither on the store nor on what a pass changes in a
machine. -/
theorem worked_of_rest {I : Machine → Prop}
    (haside : ∀ m store reader ledger code frames pending trace lastEvent profiles, I m →
      I { m with store, reader, ledger, code, frames, pending, trace, lastEvent, profiles })
    (mode : PassMode) (kind : PassKind) (hm : I m) : I (m.worked mode kind).2 := by
  have hstore : ∀ {β : Type} (x : StoreAction β), Keeps I (inStore x) := fun x =>
    meets_iff_after.2 fun m hm =>
      haside m _ m.reader m.ledger m.code m.frames m.pending m.trace m.lastEvent m.profiles hm
  have hbody : I (m.body mode kind).2 := by
    refine meets_iff_after.1 (keeps_runBody_of_aside ?_ (keeps_effect_of_rest ?_ mode) _) m.begun ?_
    · exact fun m reader journal trace hm =>
        haside m _ reader m.ledger m.code m.frames m.pending trace m.lastEvent m.profiles hm
    · exact fun m store ledger code frames pending lastEvent hm =>
        haside m store m.reader ledger code frames pending m.trace lastEvent m.profiles hm
    · exact haside m m.store m.reader m.ledger m.code m.frames m.pending [] none m.profiles hm
  have hend : EndKeeps I :=
    ⟨fun _ => hstore _, fun _ _ => hstore _, fun _ => hstore _,
      fun m hm => haside m m.store m.reader m.ledger m.code m.frames
      [] m.trace m.lastEvent m.profiles hm, fun m profiles hm =>
        haside m m.store m.reader m.ledger m.code m.frames m.pending m.trace m.lastEvent
          profiles hm⟩
  have hcompletion : Keeps I (completion mode (m.body mode kind).1) := by
    refine keeps_bind (keeps_modify fun m hm =>
      haside m m.store _ m.ledger m.code m.frames m.pending m.trace m.lastEvent m.profiles hm)
        fun _ => ?_
    refine keeps_bind keeps_ofExcept fun _ => ?_
    cases mode with
    | normal => exact hend.finish
    | warmup => exact keeps_pure
  exact meets_iff_after.1 hcompletion _ hbody

/-- The timing counts a normal pass that ends well, and no other. -/
theorem timing_runPass (m : Machine) :
    ((runPass mode kind).run m).2.timing =
      if mode = .normal ∧ ((runPass mode kind).run m).1.isOk then m.timing.record
      0 else m.timing := by
  have hworked : (m.worked mode kind).2.timing = m.timing :=
    worked_of_rest (I := fun m' => m'.timing = m.timing) (fun _ _ _ _ _ _ _ _ _ _ => id)
      mode kind rfl
  obtain ⟨journal, hrun⟩ := run_runPass_concluded mode kind m
  rw [hrun]
  cases (m.worked mode kind).1 with
  | error fault => simpa [concluded, Except.isOk, Except.toBool] using hworked
  | ok event => cases mode <;> simp [concluded, Except.isOk, Except.toBool, hworked]

theorem lists_of_failed {mode : PassMode} {kind : PassKind} {fault : Fault}
    (hfailed : ((runPass mode kind).run m).1 = .error fault) :
    ∀ list ∈ ((runPass mode kind).run m).2.ledger.lists, list = [] := by
  obtain ⟨journal, hrun⟩ := run_runPass_concluded mode kind m
  rw [hrun] at hfailed ⊢
  dsimp only at hfailed ⊢
  rw [hfailed, concluded]
  exact EventLedger.lists_clear _

/-- The end of a normal pass takes all pending profiles. -/
theorem meets_pending_finish :
    Meets (fun _ => True) finish (fun _ m => m.pending = []) (fun _ => True) := by
  have hend : EndKeeps (fun m => m.pending = []) :=
    ⟨fun _ => meets_iff_after.2 fun _ => id, fun _ _ => meets_iff_after.2 fun _ => id,
      fun _ => meets_iff_after.2 fun _ => id, fun _ _ => rfl, fun _ _ => id⟩
  refine meets_look fun m => meets_bind (Q := fun _ _ => True)
    (meets_iff_after.2 fun _ _ => trivial) fun barrier => meets_look fun m => ?_
  refine meets_bind (Q := fun _ m => m.pending = []) (meets_set fun _ _ => rfl) fun _ => ?_
  refine meets_then (hend.collect m.pending) (fun _ _ => trivial) fun _ => ?_
  exact meets_pure fun _ => id

/-- A warm-up pass submits nothing, so no profile becomes pending in it. -/
theorem keeps_pending_warmup (i : Instruction) :
    Keeps (fun m => m.pending = []) (effect .warmup i) := by
  cases i with
  | launch frame device task events window arguments =>
    refine keeps_get fun m => keeps_bind keeps_ofExcept fun _ => ?_
    refine keeps_bind (keeps_resolveCode_of_compiled fun _ _ _ _ _ _ => id) fun code => ?_
    refine keeps_bind (keeps_get fun m => keeps_bind keeps_ofExcept fun r =>
      keeps_bind (keeps_modify fun _ => id) fun _ => keeps_pure) fun f => ?_
    rw [if_pos rfl]
    exact keeps_pure
  | _ => exact keeps_pure

theorem pending_body_warmup (hm : m.pending = []) : (m.body .warmup kind).2.pending = [] :=
  meets_iff_after.1 (keeps_runBody_of_aside (I := fun m => m.pending = []) (fun _ _ _ _ => id)
    keeps_pending_warmup _) m.begun hm

theorem meets_pending_completion (body : Except Fault Unit) :
    Meets (fun m => mode = .warmup → m.pending = []) (completion mode body)
      (fun _ m => m.pending = []) (fun _ => True) := by
  refine meets_bind (Q := fun _ m => mode = .warmup → m.pending = [])
    (meets_modify fun _ => id) fun _ => ?_
  refine meets_bind (Q := fun _ m => mode = .warmup → m.pending = [])
    (meets_ofExcept (fun _ _ _ => id) fun _ _ => trivial) fun _ => ?_
  cases mode with
  | warmup => exact meets_pure fun _ hm => hm rfl
  | normal =>
    exact meets_weaken meets_pending_finish (fun _ _ => trivial) (fun _ _ => id) fun _ => id

theorem pending_runPass (hm : m.pending = []) : ((runPass mode kind).run m).2.pending = [] := by
  have hbody : mode = .warmup → (m.body mode kind).2.pending = [] := by
    rintro rfl
    exact pending_body_warmup kind hm
  have hworked := meets_pending_completion mode (m.body mode kind).1 _ hbody
  obtain ⟨journal, hrun⟩ := run_runPass_concluded mode kind m
  rw [hrun, worked]
  revert hworked
  rcases (completion mode (m.body mode kind).1).run (m.body mode kind).2 with ⟨r, m'⟩
  intro hworked
  cases r with
  | error fault => rfl
  | ok event => cases mode <;> exact hworked

theorem header_runPass (m : Machine) : ((runPass mode kind).run m).2.header = m.header := by
  have hworked : (m.worked mode kind).2.header = m.header :=
    worked_of_rest (I := fun m' => m'.header = m.header) (fun _ _ _ _ _ _ _ _ _ _ => id)
      mode kind rfl
  obtain ⟨journal, hrun⟩ := run_runPass_concluded mode kind m
  rw [hrun]
  cases (m.worked mode kind).1 with
  | error fault => exact hworked
  | ok event => cases mode <;> exact hworked

end Machine

/-! ## Uses of a machine -/

/-- What a user may do with a machine between the passes, and to have one. -/
inductive Use where
  | request (r : Request)
  | clearTiming
  | clearProfiles
  deriving DecidableEq, Repr

def Use.isPass : Use → Bool
  | .request (.pass _ _) => true
  | .request .invalidate | .clearTiming | .clearProfiles => false

def Use.isNormalPass : Use → Bool
  | .request (.pass .normal _) => true
  | .request (.pass .warmup _) | .request .invalidate | .clearTiming | .clearProfiles => false

/-- Uses with their outcomes, the first one first. -/
abbrev Uses := List (Use × Except Fault Event)

namespace Uses

/-- How the last pass has ended. -/
def lastPass? (past : Uses) : Option (Except Fault Event) :=
  (past.reverse.find? fun u => u.1.isPass).map Prod.snd

/-- The number of normal passes that have ended well since the timing was last cleared. -/
def counted (past : Uses) : Nat :=
  (past.reverse.takeWhile fun u => u.1 ≠ .clearTiming).countP fun u => u.1.isNormalPass && u.2.isOk

theorem lastPass?_concat (past : Uses) (u : Use × Except Fault Event) :
    lastPass? (past ++ [u]) = if u.1.isPass then some u.2 else lastPass? past := by
  rw [lastPass?, List.reverse_append, List.reverse_singleton, List.singleton_append,
    List.find?_cons]
  cases u.1.isPass <;> rfl

theorem counted_concat (past : Uses) (u : Use × Except Fault Event) :
    counted (past ++ [u]) = if u.1 = .clearTiming then 0
      else counted past + if u.1.isNormalPass && u.2.isOk then 1 else 0 := by
  rw [counted, List.reverse_append, List.reverse_singleton, List.singleton_append,
    List.takeWhile_cons]
  by_cases hclear : u.1 = .clearTiming
  · simp [hclear]
  · simp [hclear, counted, List.countP_cons]

end Uses

namespace Machine

/-- Use a machine once. What clears something has no event. -/
def use : Use → Machine → Except Fault Event × Machine
  | .request r, m => (serve r).run m
  | .clearTiming, m => (.ok .empty, m.clearTiming)
  | .clearProfiles, m => (.ok .empty, m.clearProfiles)

/-- Use a machine again and again. Gives the uses with their outcomes and the machine at the end. -/
def usage : List Use → Machine → Uses × Machine
  | [], m => ([], m)
  | u :: others, m =>
    let (outcome, m) := use u m
    let (outcomes, m) := usage others m
    ((u, outcome) :: outcomes, m)

/-- A machine for a program with the header `h` is ready for a pass, where `past` is what was done
with it. -/
structure Ready (code : Bytes) (h : Header) (past : Uses) (m : Machine) : Prop where
  header : m.header = h
  /-- The reader stands at its mark, and the mark behind the header. -/
  atMark : m.reader.cursor = m.reader.mark
  offset : m.reader.mark.offset = h.encode.length
  stream : code = h.encode ++ m.reader.mark.rest
  pending : m.pending = []
  sized : m.Sized h
  emptied : ∀ fault, past.lastPass? = some (.error fault) → ∀ list ∈ m.ledger.lists, list = []
  counted : m.timing.invocations = past.counted

variable {code : Bytes} {h : Header} {past : Uses}

theorem reader_runPass (hm : m.reader.cursor = m.reader.mark) (mode : PassMode) (kind : PassKind) :
    ((runPass mode kind).run m).2.reader = m.reader := by
  have hreset : m.reader.reset = m.reader :=
    congrArg (fun cursor => { m.reader with cursor }) hm.symm
  exact reader_session hreset [.pass mode kind]

theorem Ready.pass (hm : m.Ready code h past) (mode : PassMode) (kind : PassKind) :
    ((runPass mode kind).run m).2.Ready code h
      (past ++ [(.request (.pass mode kind), ((runPass mode kind).run m).1)]) where
  header := (header_runPass mode kind m).trans hm.header
  atMark := by
    rw [reader_runPass hm.atMark]
    exact hm.atMark
  offset := by
    rw [reader_runPass hm.atMark]
    exact hm.offset
  stream := by
    rw [reader_runPass hm.atMark]
    exact hm.stream
  pending := pending_runPass mode kind hm.pending
  sized := hm.sized.runPass mode kind
  emptied fault hlast := by
    rw [Uses.lastPass?_concat] at hlast
    exact lists_of_failed (Option.some.inj hlast)
  counted := by
    rw [timing_runPass, Uses.counted_concat]
    cases mode with
    | warmup => simpa [Use.isNormalPass] using hm.counted
    | normal =>
      by_cases hok : ((runPass .normal kind).run m).1.isOk = true
      · simp [hok, Use.isNormalPass, Timing.record, hm.counted]
      · simp [hok, hm.counted]

theorem Ready.use (hm : m.Ready code h past) (u : Use) :
    (use u m).2.Ready code h (past ++ [(u, (use u m).1)]) := by
  cases u with
  | request r =>
    cases r with
    | pass mode kind => exact hm.pass mode kind
    | invalidate =>
      refine { hm with
        sized := { hm.sized with }
        emptied := fun fault hlast => hm.emptied fault ?_
        counted := ?_ }
      · rwa [Uses.lastPass?_concat] at hlast
      · rw [Uses.counted_concat]
        exact hm.counted
  | clearTiming =>
    refine { hm with
      sized := { hm.sized with }
      emptied := fun fault hlast => hm.emptied fault ?_
      counted := ?_ }
    · rwa [Uses.lastPass?_concat] at hlast
    · rw [Uses.counted_concat]
      rfl
  | clearProfiles =>
    refine { hm with
      sized := { hm.sized with }
      emptied := fun fault hlast => hm.emptied fault ?_
      counted := ?_ }
    · rwa [Uses.lastPass?_concat] at hlast
    · rw [Uses.counted_concat]
      exact hm.counted

theorem Ready.usage (hm : m.Ready code h past) (uses : List Use) :
    (usage uses m).2.Ready code h (past ++ (usage uses m).1) := by
  induction uses generalizing past m with
  | nil => simpa [Machine.usage] using hm
  | cons u others ih => simpa [Machine.usage] using ih (hm.use u)

theorem ready_create {config : Config} {c c' : Context}
    (hm : (create code config).run c = (.ok m, c')) :
    m.Ready code m.header [] := by
  obtain ⟨cursor, hheader, -, -, hinitial⟩ := start_of_create hm
  obtain ⟨-, hrest, hoffset⟩ := (Reading.run_header _ _ _).1 hheader
  have hreader : m.reader = ⟨code, cursor, cursor⟩ := congrArg Machine.reader hinitial
  refine ⟨rfl, by rw [hreader], ?_, ?_, congrArg Machine.pending hinitial,
    ?_, by simp [Uses.lastPass?], ?_⟩
  · rw [hreader]
    simpa [Cursor.ofBytes] using hoffset
  · rw [hreader]
    exact hrest
  · rw [hinitial]
    exact sized_initial _ _ _ _
  · rw [hinitial]
    rfl

/-- Whatever was done with a machine, and however its passes have ended, it is ready for the next
pass. -/
theorem ready_usage {config : Config} {c c' : Context}
    (hm : (create code config).run c = (.ok m, c')) (uses : List Use) :
    (usage uses m).2.Ready code m.header (usage uses m).1 := by
  simpa using (ready_create hm).usage uses

/-- The second pass leaves an event in the list. The third one is of the wrong family and fails at
once: the list is empty then, and of the passes since the timing was cleared one is counted. -/
theorem ready_usage_failed :
    let h : Header := ⟨1, 0, 1, [0]⟩
    let code : Bytes := Program.encode
      ⟨h, [.allocate 0 0 none, .transfer .streamIn 0 0 none none, .addDep 0, .finish]⟩
    let c : Context :=
      { devices := [{ name := "d" }], objects := [⟨"a", [1]⟩], constants := [], tasks := [] }
    let passed : List Use :=
      [.request (.pass .normal .plain), .clearTiming, .request (.pass .normal .plain)]
    let uses : List Use := passed ++ [.request (.pass .normal .batched), .clearProfiles]
    ∃ m c', (create code .withDependencies).run c = (.ok m, c') ∧
      (usage uses m).2.Ready code h (usage uses m).1 ∧ (usage passed m).2.ledger.lists ≠ [[]] ∧
      (usage uses m).2.ledger.lists = [[]] ∧
      ((usage uses m).1.map fun u => u.2.isOk) = [true, true, true, false, true] ∧
      (usage uses m).2.timing.invocations = 1 := by
  intro h code c passed uses
  have hread : (((create code .withDependencies).outcome c).toOption.map fun m =>
      (m.header, decide ((usage passed m).2.ledger.lists = [[]]), (usage uses m).2.ledger.lists,
        ((usage uses m).1.map fun u => u.2.isOk), (usage uses m).2.timing.invocations)) =
      some (h, false, [[]], [true, true, true, false, true], 1) := by decide +kernel
  obtain ⟨m, c', hm, hread⟩ := Action.exists_run_of_read hread
  obtain ⟨hheader, hpassed, hlists, houtcomes, hcount⟩ := by simpa only [Prod.mk.injEq] using hread
  have hready := ready_usage hm uses
  rw [hheader] at hready
  exact ⟨m, c', hm, hready, of_decide_eq_false hpassed, hlists, houtcomes, hcount⟩

end Machine

end Offload
