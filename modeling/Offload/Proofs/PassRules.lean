import Offload.Proofs.PassAgreement
import Offload.Proofs.StoreRules

/-!
# Rules for the parts of a pass

Instructions other than launches, and the end of a pass, reach the store and the devices through a
few operations; for the rest they change the event lists, the profiles and the reader. What these
operations keep is kept by the whole, and there is one rule for each part. The same goes for the
start of a machine, which loads devices and does nothing else.
-/

namespace Offload

open Offload.Action

theorem Store.Upkeep.work {W : List EventId → Prop} {I E : Store → Prop} (h : Upkeep W I E)
    (hmarker : ∀ wait, W wait → Upholds I E (inContext (Context.onDevice 0 (Station.marker wait))))
    (i : Instruction) {wait : List EventId} (hwait : W wait) : Upholds I E (i.work wait) := by
  refine upholds_of_goes (i.goes_work h.site ?_ ⟨rfl, hwait⟩)
  rintro wait _ ⟨rfl, hwait⟩
  exact (hmarker wait hwait).goes

namespace Machine

/-! ## The start -/

theorem keeps_load {C : Context → Prop}
    (hload : ∀ index, Keeps C (Context.onDevice index Station.load))
    (hlog : ∀ c level text, C c → C (c.log level text)) (indices : List Nat) :
    Keeps C (load indices) := by
  induction indices with
  | nil => exact keeps_pure
  | cons index others ih =>
    refine keeps_bind (hload index) fun _ => keeps_get fun c => ?_
    refine keeps_bind keeps_ofExcept fun d => ?_
    exact keeps_bind (keeps_modify fun c hc => hlog c _ _ hc) fun _ => ih

theorem keeps_start_of_load {C : Context → Prop}
    (hload : ∀ index, Keeps C (Context.onDevice index Station.load))
    (hlog : ∀ c level text, C c → C (c.log level text)) (code : Bytes) : Keeps C (start code) := by
  rw [start]
  split
  · refine keeps_bind keeps_pure fun _ => ?_
    refine keeps_get fun c => keeps_bind keeps_ofExcept fun _ => ?_
    exact keeps_bind (keeps_load hload hlog _) fun _ => keeps_pure
  · exact meets_throw_bind fun _ => id

/-! ## Instructions -/

variable {I : Machine → Prop}

variable {i : Instruction}

/-- An instruction that works on the store may be refused at once; otherwise it has waited, and its
work has failed or given an event. -/
theorem perform_cases (hi : i.works = true) (m : Machine) :
    (∃ e, (perform i).run m = (.error e, m)) ∨ ∃ wait, m.ledger.waitList i.waitsFor = .ok wait ∧
      ((∃ e s, (i.work wait).run m.store = (.error e, s) ∧
        (perform i).run m = (.error e, { m with store := s })) ∨
      ∃ event s ledger, (i.work wait).run m.store = (.ok event, s) ∧
      m.ledger.reset i.waitsFor = .ok ledger ∧
        (perform i).run m = (.ok (if event.isNone then i.idleNote else none),
          { m with store := s, lastEvent := event, ledger })) := by
  rw [perform_eq_carryOut hi]
  cases hadmitted : i.admitted m.context.devices.length with
  | error e =>
    refine .inl ⟨e, ?_⟩
    rw [carryOut, run_bind, run_get]
    dsimp only
    rw [hadmitted]
    rfl
  | ok _ =>
    have hstart : (carryOut i).run m = (do
        let wait ← waitList i.waitsFor
        let event ← inStore (i.work wait)
        setLastEvent event
        resetList i.waitsFor
        return if event.isNone then i.idleNote else none : MachineAction (Option Note)).run m := by
      rw [carryOut, run_bind, run_get]
      dsimp only
      rw [hadmitted]
      rfl
    rw [hstart, run_bind, run_waitList]
    cases hwait : m.ledger.waitList i.waitsFor with
    | error e => exact .inl ⟨e, rfl⟩
    | ok wait =>
      refine .inr ⟨wait, rfl, ?_⟩
      obtain ⟨ledger, hreset⟩ := EventLedger.exists_reset hwait
      dsimp only
      rw [run_bind, inStore, run_focus]
      rcases (i.work wait).run m.store with ⟨r, s⟩
      cases r with
      | error e => exact .inl ⟨e, s, rfl, rfl⟩
      | ok event =>
        refine .inr ⟨event, s, ledger, rfl, hreset, ?_⟩
        exact run_bind_of_ok (run_resetList (m := { m with store := s, lastEvent := event }) hreset)

/-- A launch that has its frame is refused at once, fails on its device, or has an event. -/
theorem submitLaunch_cases (entry : CacheEntry) (t : Task) (frame device task : Nat)
    (events : Option Nat) (window : Option Window) (f : CallFrame) (m : Machine) :
    (∃ e, m.ledger.waitList events = .error e ∧
      (submitLaunch entry t frame device task events window f).run m = (.error e, m)) ∨
    ∃ wait, m.ledger.waitList events = .ok wait ∧
      let x :=
  Store.inContext (Context.onDevice entry.device (Station.launch entry.code f t.name window
        (if m.config.useDependencies then wait else [])))
      ((∃ e s, x.run m.store = (.error e, s) ∧
        (submitLaunch entry t frame device task events window f).run m =
        (.error e, { m with store := s })) ∨
      ∃ r s ledger, x.run m.store = (.ok r, s) ∧ m.ledger.reset events = .ok ledger ∧
        (submitLaunch entry t frame device task events window f).run m = (.ok (), { m with
          store := s, lastEvent := some r.1, frames := m.frames.put frame r.2, ledger
          pending := if m.config.profiling && t.profiling then m.pending ++ [⟨task, device, r.1⟩]
            else m.pending })) := by
  rw [submitLaunch_eq, run_bind, run_get]
  dsimp only
  rw [run_bind, run_waitList]
  cases hwait : m.ledger.waitList events with
  | error e => exact .inl ⟨e, rfl, rfl⟩
  | ok wait =>
    refine .inr ⟨wait, rfl, ?_⟩
    obtain ⟨ledger, hreset⟩ := EventLedger.exists_reset hwait
    dsimp only
    rw [run_bind, onDevice, inStore, run_focus]
    rcases (Store.inContext
      (Context.onDevice entry.device
        (Station.launch entry.code f t.name window
          (if m.config.useDependencies then wait else [])))).run m.store with ⟨r, s⟩
    cases r with
    | error e => exact .inl ⟨e, s, rfl, rfl⟩
    | ok r =>
      refine .inr ⟨r, s, ledger, rfl, hreset, ?_⟩
      have hlater : (resetList events).run
          { m with store := s, lastEvent := some r.1, frames := m.frames.put frame r.2 } = _ :=
          run_resetList hreset
      refine (run_bind_of_ok hlater).trans ?_
      rw [pend]
      split_ifs <;> rfl

/-- What an instruction does to the store keeps `I`. -/
def WorkKeeps (I : Machine → Prop) (i : Instruction) :
    Prop := ∀ wait, Keeps I (inStore (i.work wait))

/-- Emptying an event list keeps what depends on the number of the lists alone. -/
theorem keeps_resetList_of_lists
    (haside : ∀ m ledger, ledger.lists.length = m.ledger.lists.length → I m → I { m with ledger })
    (list : Option Nat) : Keeps I (resetList list) := by
  refine meets_get fun m hm => ?_
  refine meets_bind (Q := fun ledger m' => m' = m ∧ ledger.lists.length = m.ledger.lists.length)
    (meets_ofExcept (fun ledger hledger m' hm' => ⟨hm', EventLedger.length_lists_of_reset hledger⟩)
      fun m' hm' => hm' ▸ hm) fun ledger => meets_modify ?_
  rintro _ ⟨rfl, hlength⟩
  exact haside _ ledger hlength hm

/-- An instruction keeps what its work keeps, unless that is about the content of the event
lists. -/
theorem keeps_perform_of_lists
    (haside : ∀ m lastEvent ledger, ledger.lists.length = m.ledger.lists.length → I m →
      I { m with lastEvent, ledger })
    (hwork : WorkKeeps I i) : Keeps I (perform i) := by
  have hdone : ∀ {m wait r s}, I m → (i.work wait).run m.store = (r, s) →
      I { m with store := s } := by
    intro m wait r s hm hx
    have hafter := meets_iff_after.1 (hwork wait) m hm
    rw [inStore, run_focus, hx] at hafter
    exact hafter
  have hworks : i.works = true → Keeps I (perform i) := by
    refine fun hi => meets_iff_after.2 fun m hm => ?_
    rcases perform_cases hi m with
      ⟨e, hrun⟩ | ⟨wait, -, ⟨e, s, hx, hrun⟩ | ⟨event, s, ledger, hx, hreset, hrun⟩⟩
    · exact hrun ▸ hm
    · exact hrun ▸ hdone hm hx
    · rw [hrun]
      exact haside { m with store := s } event ledger (EventLedger.length_lists_of_reset hreset)
        (hdone hm hx)
  cases i with
  | allocate | transfer | barrier => exact hworks rfl
  | addDep list =>
    refine meets_iff_after.2 fun m hm => ?_
    rw [run_addDep]
    cases hlast : m.lastEvent with
    | none => exact hm
    | some event =>
      dsimp only
      split_ifs
      · cases happend : m.ledger.append list event with
        | error e => exact hm
        | ok ledger =>
          exact hlast ▸ haside m m.lastEvent ledger (EventLedger.length_lists_of_append happend) hm
      · exact hm
  | launch | finish => exact keeps_pure

/-- An instruction keeps what its work keeps, unless that is about the event lists. -/
theorem keeps_perform_of_work (haside : ∀ m lastEvent ledger, I m → I { m with lastEvent, ledger })
    (hwork : WorkKeeps I i) : Keeps I (perform i) :=
  keeps_perform_of_lists (fun m lastEvent ledger _ => haside m lastEvent ledger) hwork

variable {mode : PassMode}

theorem keeps_effect_of_work (haside : ∀ m lastEvent ledger, I m → I { m with lastEvent, ledger })
    (hwork : WorkKeeps I i) (hlaunch : ∀ frame device task events window arguments,
      Keeps I (launch mode frame device task events window arguments)) :
    Keeps I (effect mode i) := by
  cases i with
  | launch => exact hlaunch _ _ _ _ _ _
  | _ =>
    cases mode with
    | normal => exact keeps_perform_of_work haside hwork
    | warmup => exact keeps_pure

theorem meets_inStore {α : Type} {x : StoreAction α} {P E : Store → Prop} {Q : α → Store → Prop}
    (hx : Meets P x Q E) :
    Meets (fun m => P m.store) (inStore x) (fun a m => Q a m.store) (fun m => E m.store) := by
  refine meets_focus fun m hm => ?_
  refine meets_weaken hx ?_ (fun _ _ => id) fun _ => id
  rintro _ rfl
  exact hm

theorem keeps_inStore_of_look {α : Type} {x : StoreAction α} (hx : ∀ s : Store, Keeps (· = s) x) :
    Keeps I (inStore x) := by
  refine meets_iff_after.2 fun m hm => ?_
  have hsame : (x.run m.store).2 = m.store := meets_iff_after.1 (hx m.store) m.store rfl
  rw [inStore, run_focus, hsame]
  exact hm

/-- Filling a frame puts it into the pool and claims what the task writes. All the frames have the
property `F`. -/
theorem filling_of_upholds {E : Machine → Prop} (hE : ∀ m, I m → E m) {F : CallFrame → Prop}
    {frame device : Nat} (hput : ∀ f, F f → Upholds I E (putFrame frame f))
    (hpush : ∀ (f : CallFrame) a g, f.push frame a = .ok g → F g)
    (hclaim : ∀ object, Upholds I E (inStore (Store.claim object device))) :
    Filling (.single fun _ => E) (Kept I) (fun _ => True) (fun _ f f' => f = f' ∧ F f) frame
      device where
  fault {_ m m'} _ hm _ := hE m hm.2
  constant index hm := by rw [hm.1]
  buffer object := goes_weaken (Upholds.goes (Keeps.upholds
    (keeps_inStore_of_look fun _ => Store.keeps_validBuffer object device) hE)) fun _ _ hb =>
    ⟨hb, trivial⟩
  label object :=
    Upholds.goes (Keeps.upholds (keeps_inStore_of_look fun _ => Store.keeps_label object) hE)
  claim object := (hclaim object).goes
  push {n f f' a} _ hf := by
    obtain ⟨rfl, -⟩ := hf
    cases hg : f.push frame a with
    | error e => rfl
    | ok g => exact ⟨rfl, hpush f a g hg⟩
  overflow {_ _ _ _ _ m _} _ _ hm _ := hE m hm.2
  put hf := by
    obtain ⟨rfl, hf⟩ := hf
    exact (hput _ hf).goes

theorem keeps_fillFrame_of_claim (hput : ∀ id f, Keeps I (putFrame id f))
    (hclaim : ∀ object device, Keeps I (inStore (Store.claim object device)))
    (t : Task) (frame device : Nat) (arguments : List Argument) (f : CallFrame) :
    Keeps I (fillFrame t frame device arguments f) :=
  upholds_of_goes ((filling_of_upholds (fun _ => id) (F := fun _ => True) (fun f _ => hput frame f)
    (fun _ _ _ _ => trivial) fun object => hclaim object device).fillFrame rfl rfl ⟨rfl, trivial⟩
    ⟨rfl, trivial⟩)

variable {kind : PassKind}

/-- What reading, carrying out and noting instructions keeps, a body keeps. -/
theorem keeps_runBody_of_effect (hfetch : Keeps I (fetch kind))
    (heffect : ∀ i, Keeps I (effect mode i)) (hnoted : ∀ i note m, I m → I (m.noted mode i note))
    (fuel : Nat) : Keeps I (runBody mode kind fuel) := by
  refine upholds_of_goes
    (goes_runBody (fun hm => ⟨by rw [hm.1], fun _ => hm.2⟩) (Upholds.goes hfetch)
      (fun i => Upholds.goes (heffect i)) ?_ fuel)
  rintro m _ note _ i rfl ⟨rfl, hm⟩
  exact ⟨rfl, hnoted i note m hm⟩

/-- What depends neither on the reader, the trace and the journal a body keeps if its instructions
do. -/
theorem keeps_runBody_of_aside (haside : ∀ m reader journal trace, I m → I { m with
      reader, trace, store := { m.store with context := { m.store.context with journal } } })
    (heffect : ∀ i, Keeps I (effect mode i)) (fuel : Nat) : Keeps I (runBody mode kind fuel) := by
  refine keeps_runBody_of_effect (meets_iff_after.2 fun m hm => ?_) heffect
    (fun i note m hm => ?_) fuel
  · obtain ⟨reader, journal, hfetch⟩ := after_fetch kind m
    rw [hfetch]
    exact haside m reader journal m.trace hm
  · rw [noted]
    split_ifs
    · exact haside m m.reader m.store.context.journal _ hm
    · exact hm

/-! ## The end -/

variable {E : Machine → Prop}

theorem upholds_awaitMarker {device : Nat}
    (hmarker : Upholds I E (onDevice device (Station.marker [])))
    (hresolve : ∀ event, Upholds I E (onDevice device (Station.resolve event))) (config : Config)
    (barrier : Event) :
    Upholds I E (awaitMarker config device barrier) := by
  rw [awaitMarker]
  split
  · exact upholds_bind hmarker hresolve
  · exact upholds_pure

theorem upholds_flushDevice {device : Nat} (hflush : Upholds I E (onDevice device Station.flush))
    (config : Config) :
    Upholds I E (flushDevice config device) := by
  rw [flushDevice]
  split
  · exact hflush
  · exact upholds_pure

/-- Waiting for devices keeps what the operations of these devices keep. -/
theorem upholds_settle_of_devices {devices : List Nat}
    (hmarker : ∀ index ∈ devices, Upholds I E (onDevice index (Station.marker [])))
    (hresolve : ∀ index ∈ devices, ∀ event, Upholds I E (onDevice index (Station.resolve event)))
    (hflush : ∀ index ∈ devices, Upholds I E (onDevice index Station.flush)) (config : Config)
    (barrier : Event) : Upholds I E (settle config barrier devices) :=
  upholds_of_goes (goes_settle
    (fun device hd barrier =>
      (upholds_awaitMarker (hmarker device hd) (hresolve device hd) config barrier).goes)
    (fun device hd => (upholds_flushDevice (hflush device hd) config).goes) barrier)

theorem keeps_reportTrace_of_log (hlog : ∀ level text, Keeps I (log level text)) (mode : PassMode)
    (kind : PassKind) :
    Keeps I (reportTrace mode kind) := by
  refine keeps_get fun m => ?_
  split
  · exact hlog _ _
  · exact keeps_pure

theorem keeps_concluding_of_log (hlog : ∀ level text, Keeps I (log level text))
    (htiming : ∀ m timing, I m → I { m with timing })
    (hcleared : ∀ m, I m → I { m with ledger := m.ledger.clear, pending := [] })
    (mode : PassMode) (kind : PassKind) (result : Except Fault Event) :
    Keeps I (concluding mode kind result) := by
  refine keeps_bind ?_ fun _ => keeps_bind (keeps_reportTrace_of_log hlog mode kind) fun _ =>
    keeps_ofExcept
  cases result with
  | ok event =>
    rw [conclude]
    split
    · exact keeps_modify fun m hm => htiming m _ hm
    · exact keeps_pure
  | error fault => exact keeps_bind (keeps_modify hcleared) fun _ => hlog _ _

/-- What is done to the devices and the profiles at the end of a normal pass keeps `I`, and there is
`E` after a fault. -/
structure EndUpholds (I E : Machine → Prop) : Prop where
  marker : ∀ index, Upholds I E (onDevice index (Station.marker []))
  resolve : ∀ index event, Upholds I E (onDevice index (Station.resolve event))
  flush : ∀ index, Upholds I E (onDevice index Station.flush)
  emptied : ∀ m, I m → I { m with pending := [] }
  profiled : ∀ m profiles, I m → I { m with profiles }

abbrev EndKeeps (I : Machine → Prop) : Prop := EndUpholds I I

namespace EndUpholds

theorem ending (h : EndUpholds I E) (hE : ∀ m, I m → E m) :
    Ending (.single fun _ => E) (Kept I) where
  fault {_ m m'} _ hm _ := hE m hm.2
  length_devices hm := by rw [hm.1]
  same hm := by rw [hm.1]; exact ⟨rfl, rfl⟩
  marker index := (h.marker index).goes
  resolve index event := (h.resolve index event).goes
  flush index := (h.flush index).goes
  task {m m'} task hm := by
    obtain ⟨rfl, -⟩ := hm
    exact (alike_eq_iff.2 rfl).mono fun _ _ ht => by rw [ht]
  emptied hm := by
    obtain ⟨rfl, hm⟩ := hm
    exact ⟨rfl, h.emptied _ hm⟩
  profiled profile hm := by
    obtain ⟨rfl, hm⟩ := hm
    exact ⟨rfl, h.profiled _ _ hm⟩

theorem finish (h : EndUpholds I E) (hE : ∀ m, I m → E m) : Upholds I E finish :=
  upholds_of_goes (h.ending hE).finish

theorem closing_of_concluding (h : EndUpholds I E) (hE : ∀ m, I m → E m)
    (hlog : ∀ level text, Keeps I (log level text))
    (haside : ∀ m reader timing, I m → I { m with reader, timing })
    (hfault : ∀ fault, Keeps E (concluding mode kind (.error fault))) (body : Except Fault Unit) :
    Upholds I E (closing mode kind body) := by
  refine upholds_of_goes
    (couples_closing ?_ (fun _ hm _ => hE _ hm.2) (fun _ => (h.ending hE).finish) (fun _ _ _ => id)
      ?_ (Upholds.goes (Keeps.upholds (keeps_reportTrace_of_log hlog mode kind) hE)) ?_)
  · rintro m _ ⟨rfl, hm⟩
    exact ⟨rfl, haside m _ m.timing hm⟩
  · rintro m _ ⟨rfl, hm⟩
    exact ⟨rfl, haside m m.reader _ hm⟩
  · intro _ fault fault' m m' hm
    have hafter := meets_iff_after.1 (hfault fault) m hm
    have herror := outcome_concluding mode kind (.error fault) m
    have herror' := outcome_concluding mode kind (.error fault') m'
    revert hafter herror herror'
    rcases (concluding mode kind (.error fault)).run m with ⟨r, n⟩
    rcases (concluding mode kind (.error fault')).run m' with ⟨r', n'⟩
    rintro hafter rfl rfl
    exact fun _ => hafter

theorem closing_of_clear (h : EndKeeps I) (hlog : ∀ level text, Keeps I (log level text))
    (haside : ∀ m reader timing, I m → I { m with reader, timing })
    (hcleared : ∀ m, I m → I { m with ledger := m.ledger.clear, pending := [] })
    (mode : PassMode) (kind : PassKind) (body : Except Fault Unit) :
    Keeps I (closing mode kind body) :=
  h.closing_of_concluding (fun _ => id) hlog haside (fun fault => keeps_concluding_of_log hlog
    (fun m timing hm => haside m m.reader timing hm) hcleared mode kind (.error fault)) body

theorem closing (h : EndKeeps I) (hlog : ∀ level text, Keeps I (log level text))
    (haside : ∀ m reader timing ledger, I m → I { m with reader, timing, ledger })
    (mode : PassMode) (kind : PassKind) (body : Except Fault Unit) :
    Keeps I (closing mode kind body) :=
  h.closing_of_clear hlog (fun m reader timing hm => haside m reader timing m.ledger hm)
    (fun m hm => haside _ m.reader m.timing m.ledger.clear (h.emptied m hm)) mode kind body

end EndUpholds

namespace EndKeeps

theorem collect (h : EndKeeps I) (pending : List PendingProfile) : Keeps I (collect pending) :=
  upholds_of_goes ((h.ending fun _ => id).collect pending)

theorem finish (h : EndKeeps I) : Keeps I finish := EndUpholds.finish h fun _ => id

end EndKeeps

/-- The end of a pass keeps what does not depend on the store. -/
theorem keeps_closing_of_rest
    (haside : ∀ m store reader timing ledger profiles, I m →
      I { m with store, reader, timing, ledger, profiles })
    (hemptied : ∀ m, I m → I { m with pending := [] })
    (mode : PassMode) (kind : PassKind) (body : Except Fault Unit) :
    Keeps I (closing mode kind body) := by
  have hstore : ∀ {β : Type} (x : StoreAction β), Keeps I (inStore x) := fun x =>
    meets_iff_after.2 fun m hm => haside m _ m.reader m.timing m.ledger m.profiles hm
  have hend : EndKeeps I :=
    ⟨fun _ => hstore _, fun _ _ => hstore _, fun _ => hstore _, hemptied,
      fun m profiles hm => haside m m.store m.reader m.timing m.ledger profiles hm⟩
  exact hend.closing (fun _ _ => hstore _)
    (fun m reader timing ledger hm => haside m m.store reader timing ledger m.profiles hm)
    mode kind body

end Machine

end Offload
