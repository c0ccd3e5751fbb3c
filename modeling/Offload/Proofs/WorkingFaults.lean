import Offload.Proofs.LaunchRules

/-!
# The faults of an instruction

An action goes together with itself, whatever it runs on, and terms may say which faults it can end
in. An instruction that was read, and the end of a pass, give no fault that says that the bytes are
not a program.
-/

namespace Offload

open Offload.Action

/-- Whatever `x` runs on, it ends in a value or in a fault of which `K` holds. -/
abbrev Action.Gives {σ α : Type} (K : Fault → Prop) (x : Action σ Fault α) : Prop :=
  Goes (.single fun e _ => K e) Eq x x Eq

/-- Whatever `x` runs on, it ends in a value or in a fault that may come from any instruction. -/
abbrev Action.Works {σ α : Type} (x : Action σ Fault α) : Prop := Gives (fun e => e.isRoutine) x

section Rules

variable {σ α : Type} {x : Action σ Fault α} {K : Fault → Prop}

theorem Action.Couples.fault_of_run {V : α → α → Prop} (h : Goes (.single fun e _ => K e) Eq x x V)
    {s s' : σ} {e : Fault} (hrun : x.run s = (.error e, s')) : K e := by
  have hfault := h s s rfl
  rw [hrun] at hfault
  exact hfault trivial

theorem gives_iff : Gives K x ↔ ∀ s e s', x.run s = (.error e, s') → K e := by
  refine ⟨fun h _ _ _ hrun => h.fault_of_run hrun, ?_⟩
  rintro h s _ rfl
  have hrun := h s
  revert hrun
  rcases x.run s with ⟨r, s'⟩
  cases r with
  | ok a => exact fun _ => ⟨rfl, rfl⟩
  | error e => exact fun hrun _ => hrun e s' rfl

theorem Action.Works.gives (h : Works x) (hK : ∀ e, e.isRoutine → K e) : Gives K x :=
  h.under fun _ => ⟨trivial, fun e _ _ _ => hK e⟩

theorem works_get {f : σ → Action σ Fault α} (h : ∀ s, Works (f s)) : Works (get >>= f) :=
  goes_get fun s _ hs => hs ▸ h s

theorem works_modify {f : σ → σ} : Works (modify f : Action σ Fault PUnit) :=
  goes_modify fun _ _ hs => hs ▸ rfl

theorem works_ofExcept {r : Except Fault α} (h : ∀ e, r = .error e → e.isRoutine) :
    Works (Action.ofExcept r : Action σ Fault α) :=
  goes_ofExcept (alike_eq_iff.2 rfl) fun e he _ _ _ _ => h e he

theorem works_lookup (what : Resource) (items : List α) (index : Nat) :
    Works (Action.ofExcept (lookup what items index) : Action σ Fault α) :=
  works_ofExcept fun _ => isRoutine_of_lookup

theorem gives_focus {τ : Type} {part : τ → σ} {put : σ → τ → τ} (h : Gives K x) :
    Gives K (focus part put x) :=
  goes_focus h (fun _ _ hs => hs ▸ rfl) (fun _ _ _ _ hu hs => hu ▸ hs ▸ rfl) fun _ =>
    ⟨trivial, fun _ _ _ _ _ _ _ => id⟩

end Rules

/-! ## Stores -/

namespace Store

theorem works_inContext {α : Type} {x : Action Context Fault α} (h : Works x) :
    Works (inContext x) :=
  gives_focus h

theorem works_onDevice {α : Type} (index : Nat) (x : DeviceAction α) :
    Works (inContext (Context.onDevice index x)) := by
  refine works_inContext (gives_iff.2 fun c e _ hrun => ?_)
  have h := congrArg Prod.fst hrun
  cases hd : c.devices[index]? with
  | none =>
    rw [Context.run_onDevice_none x hd] at h
    cases h
    rfl
  | some d =>
    rw [Context.run_onDevice x hd] at h
    revert h
    generalize (x.run _).1 = r
    cases r with
    | ok a => exact fun h => by cases h
    | error fault =>
      intro h
      cases h
      rfl

theorem works_log (level : Level) (text : String) :
    Works (log level text) := works_inContext works_modify

theorem works_record (object device : Nat) : Works (record object device) := by
  refine works_get fun s => works_ofExcept fun e h => ?_
  unfold Table.record at h
  cases hrow : s.table.row object with
  | error fault =>
    rw [hrow] at h
    cases h
    exact isRoutine_of_lookup hrow
  | ok row =>
    rw [hrow] at h
    exact isRoutine_of_lookup h

theorem works_place (object : Nat) : Works (place object) := works_get fun _ => works_lookup _ _ _

theorem works_requireDevice (device : Nat) : Works (requireDevice device) :=
  works_get fun _ => goes_then (works_lookup _ _ _) fun _ => goes_pure rfl

theorem seat_works (object device : Nat) :
    Seat (.single fun e _ => e.isRoutine) Eq (fun _ => True) Eq object device := by
  refine seat_of_parts ?_ (works_requireDevice device) (fun _ => works_modify)
    (fun _ _ => goes_weaken (works_onDevice _ _) ?_) fun _ => works_onDevice _ _
  · exact {
      fault he _ _ := he
      place := goes_weaken (works_place object) fun _ _ h => ⟨h, trivial⟩
      host _ := goes_get fun _ _ hs => goes_pure (hs ▸ ⟨rfl, rfl⟩)
      log := works_log .trace
      note label := goes_then (works_record object device) fun _ => works_log _ _
      look := goes_weaken (works_record object device) fun _ _ h => ⟨h ▸ rfl, fun _ _ => trivial⟩
      update _ _ := works_modify
      setOwner hs := hs ▸ rfl }
  · rintro a _ rfl
    exact ⟨rfl, rfl⟩

section Transfers

variable (object device : Nat) (window : Option Window) (wait : List EventId)

/-- Once a buffer has been found or made there is one, so nothing but the device can fail. -/
theorem works_streamIn : Works (streamIn object device window wait) := by
  refine gives_iff.2 fun s e s' hrun => ?_
  cases sending_of_run hrun with
  | unready hallocate => exact ((seat_works object device).allocate window).fault_of_run hallocate
  | failed => rfl

theorem works_copyIn : Works (copyIn object device window wait) := by
  refine goes_then (works_record object device) fun r => ?_
  split
  · exact goes_then (works_log _ _) fun _ => goes_pure rfl
  · exact goes_then (works_streamIn object device window wait) fun _ => goes_pure rfl

/-- What is read back may have no buffer. -/
def MayLack (e : Fault) : Prop := e.isRoutine ∨ ∃ label, e = .objectNotAllocated object label device

theorem gives_streamOut (blocking : Bool) :
    Gives (MayLack object device) (streamOut object device window wait blocking) := by
  have hlift {α : Type} {x : StoreAction α} (hx : Works x) : Gives (MayLack object device) x :=
    hx.gives fun _ => .inl
  refine goes_then (hlift (works_place object)) fun place => ?_
  refine goes_then (hlift (works_get fun _ => goes_pure rfl)) fun host => ?_
  refine goes_then (hlift (works_requireDevice device)) fun _ => ?_
  refine goes_then (hlift ((seat_works object device).checkWindow host.length window)) fun _ => ?_
  have hbuffer : Gives (MayLack object device) (bufferOf host.label object device) := by
    refine goes_then (hlift (works_record object device)) fun r => ?_
    split
    · exact goes_pure rfl
    · exact goes_throw fun _ _ _ _ => .inr ⟨host.label, rfl⟩
  refine goes_then hbuffer fun buffer => goes_then (hlift (works_onDevice _ _)) fun event => ?_
  refine goes_then (hlift works_modify) fun _ => goes_then (hlift ?_) fun _ => goes_pure rfl
  exact (seat_works object device).note host.label

end Transfers

end Store

/-! ## Machines -/

namespace Instruction

/-- The faults that an instruction may end in. Only one that reads back may find that there is no
buffer. -/
def MayFail (i : Instruction) (e : Fault) : Prop :=
  e.isRoutine ∨ ∃ blocking object device events window label,
    i = .transfer (.streamOut blocking) object device events window ∧
    e = .objectNotAllocated object label device

theorem MayFail.isWorking {i : Instruction} {e : Fault} (h : i.MayFail e) : e.isWorking := by
  rcases h with h | ⟨_, _, _, _, _, _, -, rfl⟩
  · exact Fault.isWorking_of_isRoutine h
  · rfl

theorem gives_work (i : Instruction) (wait : List EventId) : Gives i.MayFail (i.work wait) := by
  have hlift {x : StoreAction (Option EventId)} (hx : Works x) : Gives i.MayFail x :=
    hx.gives fun _ => .inl
  cases i with
  | allocate object device window =>
    exact hlift (goes_weaken ((Store.seat_works object device).allocate window) fun _ _ =>
      Store.Site.eq_of_rel_eq)
  | transfer op object device events window =>
    cases op with
    | copyIn => exact hlift (Store.works_copyIn object device window wait)
    | streamIn =>
      exact hlift (goes_then (Store.works_streamIn object device window wait) fun _ =>
        goes_pure rfl)
    | streamOut blocking =>
      refine goes_then ((Store.gives_streamOut object device window wait blocking).under fun _ =>
        ⟨trivial, fun e _ _ _ he => he.imp_right ?_⟩) fun _ => goes_pure rfl
      rintro ⟨label, rfl⟩
      exact ⟨blocking, object, device, events, window, label, rfl, rfl⟩
  | barrier => exact hlift (goes_then (Store.works_onDevice _ _) fun _ => goes_pure rfl)
  | addDep | launch | finish => exact goes_pure rfl

end Instruction

namespace Machine

theorem gives_inStore {α : Type} {x : StoreAction α} {K : Fault → Prop} (h : Gives K x) :
    Gives K (inStore x) :=
  gives_focus h

theorem works_onDevice {α : Type} (index : Nat) (x : DeviceAction α) : Works (onDevice index x) :=
  gives_inStore (Store.works_onDevice index x)

theorem conduct_works {K : Fault → Prop} (hK : ∀ e, e.isRoutine → K e) :
    Conduct (.single fun e _ => K e) Eq Eq where
  fault he _ _ := hK _ he
  length_devices hm := hm ▸ rfl
  waitList _ :=
    Works.gives (works_get fun _ => works_ofExcept fun _ => EventLedger.isRoutine_of_waitList) hK
  resetList _ := Works.gives (works_get fun _ =>
    goes_then (works_ofExcept fun _ => EventLedger.isRoutine_of_reset) fun _ => works_modify) hK

/-- A frame that has room for all the arguments that are still to come does not overflow. -/
theorem filling_works (frame device : Nat) :
    Filling (.single fun e _ => e.isRoutine) Eq (fun _ => True)
      (fun n f f' => f = f' ∧ (0 < n → f.arguments.length + n ≤ f.capacity)) frame device where
  fault he _ _ := he
  constant _ hm := hm ▸ rfl
  buffer object := goes_weaken (gives_inStore
    (goes_weaken (Store.seat_works object device).validBuffer fun _ _ h => h.1)) fun _ _ h =>
    ⟨h, trivial⟩
  label object := gives_inStore (Store.seat_works object device).label
  claim object := gives_inStore (Store.seat_works object device).claim
  push {n f _ a} _ hf := by
    obtain ⟨rfl, hroom⟩ := hf
    rw [CallFrame.push, if_neg (by omega)]
    refine ⟨rfl, fun _ => ?_⟩
    rw [List.length_append, List.length_singleton, Nat.add_assoc, Nat.add_comm 1]
    exact hroom (Nat.succ_pos n)
  overflow {n f _ a e _ _} hf he := by
    rw [CallFrame.push, if_neg (by omega)] at he
    cases he
  put hf := hf.1 ▸ works_modify

theorem goes_submitLaunch_works {entry : CacheEntry} {t t' : Task} (ht : t'.unbound = t.unbound)
    {frame device task : Nat} {events : Option Nat} {window : Option Window} {f : CallFrame} :
    Goes (.single fun e _ => e.isRoutine) Eq
      (submitLaunch entry t frame device task events window f)
      (submitLaunch entry t' frame device task events window f) Eq := by
  refine (conduct_works fun _ => id).submitLaunch (X := Eq) ?_ (fun h => h ▸ works_modify) ?_
  · rintro m _ wait _ rfl rfl
    rw [Task.name_eq ht]
    refine couples_weaken (works_onDevice _ _) (fun _ _ => id) ?_
    rintro a _ m _ ⟨rfl, rfl⟩
    exact ⟨rfl, rfl⟩
  · rintro m _ a _ rfl rfl
    rw [pend, pend, Task.profiling_eq ht]
    split
    · exact works_modify
    · exact goes_pure rfl

theorem alike_task_works {m m' : Machine} (task : Nat) (h : m = m') :
    Alike (fun t t' => t'.unbound = t.unbound) (m.context.task task) (m'.context.task task) :=
  h ▸ (alike_eq_iff.2 rfl).mono fun _ _ ht => ht ▸ rfl

theorem works_resolveCode (task device : Nat) : Works (resolveCode task device) := by
  refine goes_resolveCode (fun he _ _ => he) ?_ ?_ ?_ ?_
  · rintro m _ rfl
    exact ⟨rfl, rfl, rfl⟩
  · rintro m _ rfl
    exact ⟨rfl, rfl⟩
  · rintro m _ rfl
    rfl
  · rintro m _ d d' found write rfl hd hd'
    cases hd.symm.trans hd'
    rfl

theorem works_launch (mode : PassMode) (frame device task : Nat) (events : Option Nat)
    (window : Option Window) (arguments : List Argument) :
    Works (launch mode frame device task events window arguments) := by
  refine goes_launch (fun he _ _ => he)
    (fun hm => hm ▸ (alike_eq_iff.2 rfl).mono fun _ _ _ => trivial) ?_
    (goes_launchWith (G := fun f f' => f = f' ∧ arguments.length ≤ f.capacity)
      (H := fun f f' => f = f') (fun _ => rfl) (fun he _ _ => he) ?_
      (fun _ => gives_inStore (Store.works_log _ _)) (alike_task_works task)
      (fun _ _ _ _ _ ht hf => ?_) fun _ _ _ _ _ _ ht hf => hf ▸ goes_submitLaunch_works ht)
  · exact works_resolveCode task device
  · refine goes_get fun m _ hm => ?_
    subst hm
    cases hresolve : m.frames.resolve frame arguments.length m.config.redeployOnDevice with
    | error e => exact goes_throw_bind fun _ _ _ _ => FramePool.isRoutine_of_resolve hresolve
    | ok found =>
      have hroom := FramePool.le_capacity_of_resolve hresolve
      refine goes_bind (V := fun a a' => a = a' ∧ arguments.length ≤ a.1.capacity)
        (goes_pure ⟨rfl, hroom⟩) ?_
      rintro a _ ⟨rfl, ha⟩
      exact goes_then works_modify fun _ => goes_pure ⟨rfl, ha⟩
  · obtain ⟨rfl, hroom⟩ := hf
    refine goes_weaken
      ((filling_works frame device).fillFrame ht rfl ⟨rfl, fun h => absurd h (Nat.lt_irrefl 0)⟩
        ⟨rfl, fun _ => ?_⟩) fun _ _ hf => hf.1
    rw [CallFrame.reset, List.length_nil, Nat.zero_add]
    exact hroom

theorem gives_effect (mode : PassMode) (i : Instruction) : Gives i.MayFail (effect mode i) := by
  have hK : ∀ e : Fault, e.isRoutine → i.MayFail e := fun _ => .inl
  refine goes_effect (fun _ => rfl) (fun _ _ _ _ _ _ h => (works_launch _ _ _ _ _ _ _).gives hK)
    fun _ => ?_
  refine (conduct_works hK).performs (E := Eq) (fun _ => rfl) (fun _ _ hwait => ?_)
    (fun he hm => ?_) fun list hi => ?_
  · obtain rfl := hwait
    refine goes_weaken (gives_inStore (i.gives_work _)) ?_
    rintro event _ rfl
    cases event with
    | none => exact .none
    | some event => exact .some rfl
  · rw [Store.Site.eq_of_rel_eq he, hm]
  · subst hi
    refine goes_addDep (fun he _ _ => hK _ he) ?_ ?_
    · rintro m _ rfl
      exact ⟨rfl, rfl⟩
    · rintro m _ event ledger rfl _ _
      rfl

theorem works_finish : Works finish := by
  refine Ending.finish {
    fault he _ _ := he
    length_devices hm := hm ▸ rfl
    same hm := hm ▸ ⟨rfl, rfl⟩
    marker _ := works_onDevice _ _
    resolve _ _ := works_onDevice _ _
    flush _ := works_onDevice _ _
    task := alike_task_works
    emptied hm := hm ▸ rfl
    profiled _ hm := hm ▸ rfl }

/-- A fault of a pass that is not the fault of its body comes from its end. -/
theorem fault_of_closing {mode : PassMode} {kind : PassKind} {body : Except Fault Unit}
    {m : Machine} {fault : Fault} (h : ((closing mode kind body).run m).1 = .error fault) :
    body = .error fault ∨ body = .ok () ∧ mode = .normal ∧ fault.isRoutine := by
  cases body with
  | error e =>
    rw [run_closing_error] at h
    cases h
    exact .inl rfl
  | ok done =>
    rw [run_closing, outcome_concluding] at h
    cases mode with
    | warmup => cases h
    | normal => exact .inr ⟨rfl, rfl, works_finish.fault_of_run (Prod.ext h rfl)⟩

end Machine

end Offload
