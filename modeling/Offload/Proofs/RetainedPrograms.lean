import Offload.Proofs.HeldWindows
import Offload.Proofs.LaunchOperands
import Offload.Proofs.OperationOrder
import Offload.Proofs.RetainedSession

/-!
# Programs whose frames may be retained

A frame that a device holds names the buffers of an earlier launch. The next launch with the frame
would find the same ones if launches with one frame number are alike, if no buffer that they use is
outgrown, and if what they use is sent in each pass before they use it, so that nothing is missed
after an invalidation. These are conditions on the program, and under them retention changes nothing
in any session. Where one of them fails, it does.
-/

namespace Offload

open Offload.Action

variable {i : Instruction} {f : CallFrame} {object device : Nat} {v : Bool}

/-! ## Instructions -/

/-- The frame, the device and the arguments of a launch. -/
structure Call where
  frame : Nat
  device : Nat
  arguments : List Argument
  deriving DecidableEq

/-- A buffer that is asked for: the object, the device, and the window that has to fit. -/
structure Provision where
  object : Nat
  device : Nat
  window : Option Window
  deriving DecidableEq

namespace Instruction

def call? : Instruction → Option Call
  | .launch frame device _ _ _ arguments => some ⟨frame, device, arguments⟩
  | .allocate .. | .transfer .. | .addDep _ | .barrier _ | .finish => none

def provision? : Instruction → Option Provision
  | .allocate object device window | .transfer .copyIn object device _ window
  | .transfer .streamIn object device _ window => some ⟨object, device, window⟩
  | .transfer (.streamOut _) .. | .launch .. | .addDep _ | .barrier _ | .finish => none

/-- The object that an instruction sends, and the device. -/
def sent? : Instruction → Option (Nat × Nat)
  | .transfer .copyIn object device .. | .transfer .streamIn object device .. =>
    some (object, device)
  | .allocate .. | .transfer (.streamOut _) .. | .launch .. | .addDep _ | .barrier _ | .finish =>
    none

end Instruction

def Argument.object? : Argument → Option Nat
  | .reference object => some object
  | .constant _ => none

/-- Instructions with which frames may be retained. -/
structure Retainable (s : Store) (is : List Instruction) : Prop where
  /-- Launches with one frame number are on one device and have the same arguments. -/
  alike : ∀ x ∈ is.filterMap Instruction.call?, ∀ y ∈ is.filterMap Instruction.call?,
    x.frame = y.frame → x = y
  /-- All that asks for a buffer of an object that launches use asks for the same number of
  bytes. -/
  steady : ∀ x ∈ is.filterMap Instruction.call?, ∀ object ∈ x.arguments.filterMap Argument.object?,
    ∀ p ∈ is.filterMap Instruction.provision?, ∀ q ∈ is.filterMap Instruction.provision?,
      p.object = object → p.device = x.device → q.object = object → q.device = x.device →
        s.bytesOf object p.window = s.bytesOf object q.window
  /-- Before each launch stands an instruction that sends each of its objects. -/
  resent : ∀ k < is.length, ∀ x ∈ is[k]?.bind Instruction.call?,
    ∀ object ∈ x.arguments.filterMap Argument.object?,
      (object, x.device) ∈ (is.take k).filterMap Instruction.sent?

/-! ## Records -/

/-- What may become of a record when a number of bytes was asked for, or none: a buffer that is
large enough stays, and a new one has the size that was asked for. With `v` it is also still
valid. -/
structure Record.Reworked (v : Bool) (asked : Option Nat) (r r' : Record) : Prop where
  kept : ∀ a, r.allocation = some a → (∀ n ∈ asked, n ≤ a.bytes) →
    r'.allocation = some a ∧ (v = true → r.valid = true → r'.valid = true)
  fresh : ∀ a, r'.allocation = some a → r.allocation = some a ∨ asked = some a.bytes
  backed : (r.valid = true → r.allocation.isSome = true) → r'.valid = true →
    r'.allocation.isSome = true

namespace Record.Reworked

variable {asked : Option Nat} {r r' r'' : Record}

theorem refl (v : Bool) (asked : Option Nat) (r : Record) : Reworked v asked r r :=
  ⟨fun _ ha _ => ⟨ha, fun _ => id⟩, fun _ ha => .inl ha, fun h => h⟩

theorem trans (h : Reworked v asked r r') (h' : Reworked v asked r' r'') :
    Reworked v asked r r'' := by
  refine ⟨fun a ha hn => ?_, fun a ha => ?_, fun hb => h'.backed (h.backed hb)⟩
  · obtain ⟨ha', hvalid⟩ := h.kept a ha hn
    obtain ⟨ha'', hvalid'⟩ := h'.kept a ha' hn
    exact ⟨ha'', fun hv hr => hvalid' hv (hvalid hv hr)⟩
  · rcases h'.fresh a ha with ha | hn
    · exact h.fresh a ha
    · exact .inr hn

theorem of_allocation (ha : r'.allocation = r.allocation)
    (hvalid : r.allocation.isSome = true → v = true → r.valid = true → r'.valid = true)
    (hbacked : r'.valid = true → r.valid = true ∨ r.allocation.isSome = true) :
    Reworked v asked r r' := by
  refine ⟨fun a hr _ => ⟨ha.trans hr, hvalid (by simp [hr])⟩, fun a hr =>
    .inl (ha.symm.trans hr), ?_⟩
  intro hb hr
  rw [ha]
  exact (hbacked hr).elim hb id

end Record.Reworked

/-- What may become of a table, where `asks` says how many bytes were asked for. -/
def Table.Reworked (v : Bool) (asks : Nat → Nat → Option Nat) (t t' : Table) : Prop :=
  ∀ o d, Option.Rel (Record.Reworked v (asks o d)) (t.get? o d) (t'.get? o d)

namespace Table.Reworked

variable {asks : Nat → Nat → Option Nat} {t t' t'' : Table}

theorem refl (v : Bool) (asks : Nat → Nat → Option Nat) (t : Table) : t.Reworked v asks t := by
  intro o d
  cases t.get? o d with
  | none => exact .none
  | some r => exact .some (.refl v _ r)

theorem update (h : t.Reworked v asks t') {f : Record → Record}
    (hf : ∀ r, t'.get? object device = some r → Record.Reworked v (asks object device) r (f r)) :
    t.Reworked v asks (t'.update object device f) := by
  intro o d
  have hod := h o d
  rw [get?_update]
  split_ifs with heq
  · obtain ⟨rfl, rfl⟩ := heq
    revert hf hod
    generalize t.get? o d = r, t'.get? o d = r'
    intro hod hf
    cases hod with
    | none => exact .none
    | some hr => exact .some (hr.trans (hf _ rfl))
  · exact hod

theorem setOwner (h : t.Reworked v asks t') (object device : Nat) :
    t.Reworked v asks (t'.setOwner object device) := by
  intro o d
  rw [get?_setOwner]
  exact h o d

theorem invalidate (t : Table) : t.Reworked false (fun _ _ => none) t.invalidate := by
  intro o d
  rw [get?_invalidate]
  cases t.get? o d with
  | none => exact .none
  | some r => exact .some (.of_allocation rfl (by simp) (by simp [Record.invalidate]))

end Table.Reworked

/-! ## Stores -/

namespace Store

variable {s s' : Store} {window : Option Window} {wait : List EventId}

/-- The bytes that a provision asks for, and where. -/
def asking (s : Store) (p : Option Provision) (object device : Nat) : Option Nat :=
  (p.filter fun p => p.object = object ∧ p.device = device).map fun p => s.bytesOf object p.window

theorem asking_self (s : Store) (object device : Nat) (window : Option Window) :
    s.asking (some ⟨object, device, window⟩) object device = some (s.bytesOf object window) := by
  simp [asking]

theorem Allocating.reworked {r : Except Fault (Option EventId)}
    (h : s.Allocating object device window r s') :
    s.table.Reworked true (s.asking (some ⟨object, device, window⟩)) s'.table := by
  have hvacated : ∀ {d d₁ r s₁}, s.table.get? object device = some r →
      (∀ a, r.allocation = some a → a.bytes < s.bytesOf object window) →
      s.Vacated object device d r s₁ d₁ →
      s.table.Reworked true (s.asking (some ⟨object, device, window⟩)) s₁.table := by
    intro d d₁ r s₁ hr hsmall hvacated
    cases hvacated with
    | bare => exact .refl _ _ _
    | discarded ha =>
      refine (Table.Reworked.refl _ _ _).update fun r' hr' => ?_
      cases hr.symm.trans hr'
      refine ⟨fun a ha hn => ?_, fun a ha => (by cases ha), fun _ h => (by cases h)⟩
      have hroom := hn _ (asking_self s object device window)
      have := hsmall a ha
      omega
  cases h with
  | refused | roomy | stuck => exact .refl _ _ _
  | exhausted hfound hr hsmall hvac =>
    have hsame := hvacated hr hsmall hvac
    exact hsame
  | made hfound hadmits hr hsmall hvac =>
    refine (hvacated hr hsmall hvac).update fun r' hr' => ?_
    have hnone := hvac.allocation_eq hr hr'
    refine ⟨fun a ha => ?_, fun a ha => ?_, fun _ _ => rfl⟩
    · cases hnone.symm.trans ha
    · rw [asking_self, ← Option.some.inj ha]
      exact .inr rfl

theorem Sending.reworked {r : Except Fault EventId} (h : s.Sending object device window wait r s') :
    s.table.Reworked true (s.asking (some ⟨object, device, window⟩)) s'.table := by
  cases h with
  | unready hallocate | failed hallocate => exact (allocating_of_run hallocate).reworked
  | sent hallocate hfound hr ha =>
    refine (allocating_of_run hallocate).reworked.update fun r' hr' => ?_
    cases hr.symm.trans hr'
    exact .of_allocation rfl (fun _ _ _ => rfl) fun _ => .inr (by simp [ha])

/-- An instruction may replace the buffer that it asks for. -/
theorem reworked_work (i : Instruction) (wait : List EventId) (s : Store) :
    s.table.Reworked true (s.asking i.provision?) ((i.work wait).run s).2.table := by
  cases i with
  | allocate object device window => exact (allocating_of_run rfl).reworked
  | transfer op object device events window =>
    cases op with
    | copyIn =>
      rcases hrun : (copyIn object device window wait).run s with ⟨r, s'⟩
      rw [Instruction.work, hrun]
      cases copying_of_run hrun with
      | refused | held => exact .refl _ _ _
      | sending hr hholds hsending => exact hsending.reworked
    | streamIn =>
      rw [Instruction.work, snd_run_bind_pure]
      exact (sending_of_run rfl).reworked
    | streamOut blocking =>
      rcases hrun : (streamOut object device window wait blocking).run s with ⟨r, s'⟩
      rw [Instruction.work, snd_run_bind_pure, hrun]
      cases fetching_of_run hrun with
      | refused | failed => exact .refl _ _ _
      | fetched =>
        exact (Table.Reworked.refl _ _ _).update fun r _ => .of_allocation rfl (fun _ _ => id) .inl
  | barrier events =>
    rw [Instruction.work, snd_run_bind_pure]
    exact .refl _ _ _
  | addDep | launch | finish => exact .refl _ _ _

theorem valid_of_work {event : Option EventId} (h : (i.work wait).run s = (.ok event, s'))
    (hi : i.sent? = some (object, device)) :
    ∃ r, s'.table.get? object device = some r ∧ r.valid = true := by
  have hsending : ∀ {window event}, s.Sending object device window wait (.ok event) s' →
      ∃ r, s'.table.get? object device = some r ∧ r.valid = true := by
    intro window event hsending
    cases hsending with
    | sent hallocate hfound hr =>
      exact ⟨_, by rw [entered, Table.get?_update, if_pos ⟨rfl, rfl⟩, hr]; rfl, rfl⟩
  cases i with
  | transfer op =>
    cases op with
    | copyIn =>
      cases hi
      generalize hv : Except.ok event = v at h
      cases copying_of_run h with
      | refused => cases hv
      | held hr hholds => exact ⟨_, hr, (Bool.and_eq_true_iff.1 hholds).1⟩
      | @sending _ v _ hr hholds hsends =>
        cases v with
        | error => cases hv
        | ok => exact hsending hsends
    | streamIn =>
      cases hi
      obtain ⟨event, s₁, hrun, hs⟩ := run_bind_eq_ok.1 h
      cases hs
      exact hsending (sending_of_run hrun)
    | streamOut => cases hi
  | allocate | addDep | barrier | launch | finish => cases hi

end Store

/-! ## Frames -/

theorem CallFrame.markOnDevice_of_isOnDevice (f : CallFrame) (hf : f.isOnDevice = true) :
    f.markOnDevice = f := by
  obtain ⟨capacity, arguments, state⟩ := f
  cases of_decide_eq_true hf
  rfl

/-- Every frame that devices hold in the second pool they have held in the first one. -/
def FramePool.Held (p p' : FramePool) : Prop :=
  ∀ (id : Nat) (f : CallFrame), p'.slots[id]? = some (some f) → f.isOnDevice = true →
    p.slots[id]? = some (some f)

theorem FramePool.Held.put {p p' : FramePool} (h : p.Held p') (hf : f.isOnDevice = false)
    (id : Nat) :
    p.Held (p'.put id f) := by
  intro id' g hg hon
  rw [FramePool.put, List.getElem?_set] at hg
  split_ifs at hg with hid hlt
  · cases hg
    cases hf.symm.trans hon
  · exact h id' g hg hon

theorem FramePool.held_of_resolve {p q : FramePool} {id count : Nat} {recreate : Bool}
    (h : p.resolve id count recreate = .ok (f, q)) : p.Held q := by
  have hrefl : p.Held p := fun _ _ hslot _ => hslot
  obtain ⟨-, rfl⟩ | ⟨-, rfl, -⟩ := resolve_cases h
  · exact hrefl.put rfl id
  · exact hrefl

namespace Machine

variable {m m' : Machine} {is : List Instruction} {c : Context} {frame task id : Nat}
variable {events : Option Nat} {window : Option Window} {arguments : List Argument}
  {mode : PassMode}
/-- Filling a frame that no device holds leaves the frames alone that devices hold. -/
theorem held_of_fillFrame {t : Task} {r : Except Fault CallFrame} {m₁ : Machine}
    (hheld : m.frames.Held m₁.frames) (hf : f.isOnDevice = false)
    (h : (fillFrame t frame device arguments f).run m₁ = (r, m')) :
    m.frames.Held m'.frames ∧ ∀ g, r = .ok g → g.isOnDevice = false := by
  have hfill : Meets (fun n : Machine => m.frames.Held n.frames)
      (fillFrame t frame device arguments f)
      (fun g n => m.frames.Held n.frames ∧ g.isOnDevice = false)
      (fun n => m.frames.Held n.frames) :=
    meets_of_goes
      ((filling_of_upholds (I := fun n : Machine => m.frames.Held n.frames) (fun _ => id)
        (fun g hg => keeps_modify fun n hn => hn.put hg frame)
        (fun _ _ _ hg => CallFrame.free_of_push hg)
      fun _ => meets_iff_after.2 fun _ => id).fillFrame rfl rfl ⟨rfl, hf⟩ ⟨rfl, rfl⟩)
  have hafter := hfill m₁ hheld
  rw [h] at hafter
  cases r with
  | ok g => exact ⟨hafter.1, fun _ hg => Except.ok.inj hg ▸ hafter.2⟩
  | error fault => exact ⟨hafter, fun _ hg => by cases hg⟩

/-- A frame that a device holds after a launch was held by it before, or it is the frame of the
launch, and it holds what the launch was to put there. -/
theorem held_of_launch
    (h : ((launch mode frame device task events window arguments).run m).2.frames.slots[id]? =
      some (some f)) (hf : f.isOnDevice = true) :
    m.frames.slots[id]? = some (some f) ∨ id = frame ∧
      List.Forall₂ (m.Receives device) arguments f.arguments := by
  rcases hrun : (launch mode frame device task events window arguments).run m with ⟨r, m'⟩
  rw [hrun] at h
  cases launching_of_run hrun with
  | absent => exact .inl h
  | uncoded hcode =>
    obtain ⟨store, code, rfl, -⟩ := (resolving_of_run hcode).core
    exact .inl h
  | stopped m₁ frames journal hcode hframes =>
    obtain ⟨store, code, rfl, -⟩ := (resolving_of_run hcode).core
    rcases hframes with rfl | ⟨g, hresolve⟩
    · exact .inl h
    · exact .inl (FramePool.held_of_resolve hresolve id f h hf)
  | @unfilled _ _ _ t g frames fault hcode hmode ht hframe hfill =>
    obtain ⟨store, code, rfl, -⟩ := (resolving_of_run hcode).core
    have hg : g.isOnDevice = false := by
      cases hon : g.isOnDevice with
      | false => rfl
      | true =>
        rw [fillFrame, if_pos hon] at hfill
        cases hfill
    exact .inl ((held_of_fillFrame (FramePool.held_of_resolve hframe) hg hfill).1 id f h hf)
  | @submitted entry m₁ m₂ m' t g g' frames r hcode hmode ht hframe hfill hsubmit =>
    obtain ⟨store, code, rfl, hcore, htable⟩ := (resolving_of_run hcode).core
    have hresolved : m.frames.Held frames := FramePool.held_of_resolve hframe
    -- The frame that is submitted is held already, or it has been filled for this launch.
    have hfilled : m.frames.Held m₂.frames ∧
        (g'.isOnDevice = true ∧ m.frames.slots[frame]? = some (some g') ∨
          List.Forall₂ (m.Receives device) arguments g'.arguments) := by
      cases hon : g.isOnDevice with
      | true =>
        rw [fillFrame, if_pos hon] at hfill
        cases hfill
        obtain ⟨rfl, -⟩ | ⟨hslot, -⟩ := FramePool.resolve_cases hframe
        · cases hon
        · exact ⟨hresolved, .inl ⟨hon, hslot⟩⟩
      | false =>
        obtain ⟨-, hg⟩ := (meets_fillFrame_gathering t frame arguments hon).of_ok hfill
          ⟨hcore, Table.claimed_of_eq htable t.not_writes_nil⟩
        exact ⟨(held_of_fillFrame hresolved hon hfill).1, .inr hg⟩
    obtain ⟨hheld, hframe⟩ := hfilled
    rcases submitLaunch_cases entry t frame device task events window g' m₂ with
      ⟨e, -, hrun'⟩ | ⟨wait, -, ⟨e, s, -, hrun'⟩ | ⟨q, s, ledger, hx, -, hrun'⟩⟩ <;>
      cases hrun'.symm.trans hsubmit
    · exact .inl (hheld id f h hf)
    · exact .inl (hheld id f h hf)
    · obtain ⟨d, -, hq⟩ :=
        (Store.meets_launch_frame entry.device entry.code g' t.name window _).of_ok hx trivial
      rw [FramePool.put, List.getElem?_set] at h
      split_ifs at h with hid hlt
      · cases h
        rcases hframe with ⟨hon, hslot⟩ | hg
        · rw [g'.markOnDevice_of_isOnDevice hon, ite_self] at hq
          rw [hq, ← hid]
          exact .inl hslot
        · have harguments : q.2.arguments = g'.arguments := by
            rw [hq]
            split <;> rfl
          exact .inr ⟨hid.symm, harguments ▸ hg⟩
      · exact .inl (hheld id f h hf)

/-! ## Deeds -/

theorem keeps_grounds_effect (grounds : List Scalar × List Nat × (Nat → Nat)) (mode : PassMode)
    (i : Instruction) :
    Keeps (fun n => n.context.grounds = grounds) (effect mode i) := by
  have hupkeep := Store.upkeep_grounds (fun _ => True) grounds
  have hlaunch : LaunchKeeps fun n => n.context.grounds = grounds := {
    log := fun level text => meets_inStore (hupkeep.log level text)
    claim := fun object device => meets_inStore (hupkeep.claim object device)
    submit := fun _ code f name window wait => meets_inStore
      (Store.keeps_grounds_onDevice fun _ => Station.upkeep_measures.launch code f name window wait)
    aside := fun _ _ _ _ hn => hn }
  refine keeps_effect_of_work (fun _ _ _ => id)
    (fun wait => meets_inStore (hupkeep.work ?_ i trivial)) fun _ _ _ _ _ _ =>
    hlaunch.frameKeeps.launch (keeps_resolveCode_of_compiled fun _ _ _ _ _ _ => id)
  exact fun wait _ => Store.keeps_grounds_onDevice fun _ => Station.upkeep_measures.marker wait

theorem reworked_perform (i : Instruction) (m : Machine) :
    m.store.table.Reworked true (m.store.asking i.provision?)
      ((perform i).run m).2.store.table := by
  have hworks : i.works = true → m.store.table.Reworked true (m.store.asking i.provision?)
      ((perform i).run m).2.store.table := by
    intro hi
    rcases perform_cases hi m with
      ⟨e, hrun⟩ | ⟨wait, -, ⟨e, s, hx, hrun⟩ | ⟨event, s, ledger, hx, -, hrun⟩⟩
    · rw [hrun]
      exact .refl _ _ _
    all_goals
      have hwork := Store.reworked_work i wait m.store
      rw [hx] at hwork
      rw [hrun]
      exact hwork
  cases i with
  | allocate | transfer | barrier => exact hworks rfl
  | addDep list =>
    have hsame :=
      meets_iff_after.1 (keeps_perform_of_work (I := fun n => n.store = m.store) (i := .addDep list)
        (fun _ _ _ => id) fun wait => keeps_inStore_of_look fun _ => keeps_pure) m rfl
    rw [hsame]
    exact .refl _ _ _
  | launch | finish => exact .refl _ _ _

theorem reworked_effect (mode : PassMode) (i : Instruction) (m : Machine) :
    m.store.table.Reworked true (m.store.asking i.provision?)
      ((effect mode i).run m).2.store.table := by
  cases i with
  | launch frame device task events window arguments =>
    let Reworked (n : Machine) : Prop :=
      m.store.table.Reworked true (m.store.asking none) n.store.table
    have hcontext : ∀ {β : Type} (x : Action Context Fault β),
        Keeps Reworked (inStore (Store.inContext x)) :=
      fun x => meets_iff_after.2 fun _ => id
    have hlaunch : LaunchKeeps Reworked := {
      log := fun _ _ => hcontext _
      claim := fun object device => meets_iff_after.2 fun n hn => by
        rw [inStore, run_focus]
        rcases Store.claim_cases n.store object device with ⟨fault, hrun⟩ | ⟨text, hrun⟩
        · rw [hrun]
          exact hn
        · rw [hrun]
          exact (hn.update (f := Record.written) fun r _ =>
            .of_allocation rfl (fun ha _ _ => ha) .inr).setOwner object device
      submit := fun _ _ _ _ _ _ => hcontext _
      aside := fun _ _ _ _ hn => hn }
    exact meets_iff_after.1 (hlaunch.frameKeeps.launch
      (keeps_resolveCode_of_compiled fun _ _ _ _ _ _ => id)) m (.refl _ _ _)
  | _ =>
    cases mode with
    | normal => exact reworked_perform _ m
    | warmup => exact .refl _ _ _

theorem frames_effect (hi : i.call? = none) (mode : PassMode) (m : Machine) :
    ((effect mode i).run m).2.frames = m.frames := by
  have hperform : ((perform i).run m).2.frames = m.frames :=
    meets_iff_after.1 (keeps_perform_of_work (I := fun n => n.frames = m.frames) (fun _ _ _ => id)
      fun wait => meets_iff_after.2 fun _ => id) m rfl
  cases i with
  | launch => cases hi
  | _ =>
    cases mode with
    | normal => exact hperform
    | warmup => rfl

theorem aside_closing (mode : PassMode) (kind : PassKind) (body : Except Fault Unit) (m : Machine) :
    let n := ((closing mode kind body).run m).2
    n.store.table = m.store.table ∧ n.frames = m.frames ∧
    n.context.grounds = m.context.grounds := by
  have honDevice : ∀ {β : Type} {x : DeviceAction β} (index : Nat),
      (∀ length, Keeps (Station.Measures length) x) →
        Keeps (fun n => n.store.table = m.store.table ∧ n.frames = m.frames ∧
          n.context.grounds = m.context.grounds) (onDevice index x) := by
    intro β x index hx
    refine meets_iff_after.2 fun n hn => ⟨hn.1, hn.2.1, ?_⟩
    exact meets_iff_after.1 (meets_inStore (Store.keeps_grounds_onDevice hx)) n hn.2.2
  have hend : EndKeeps fun n => n.store.table = m.store.table ∧ n.frames = m.frames ∧
      n.context.grounds = m.context.grounds := {
    marker := fun index => honDevice index fun _ => Station.upkeep_measures.marker []
    resolve := fun index event => honDevice index fun _ => Station.upkeep_measures.resolve event
    flush := fun index => honDevice index fun _ => Station.upkeep_measures.flush
    emptied := fun _ => id
    profiled := fun _ _ hn => hn }
  exact meets_iff_after.1
    (hend.closing (fun _ _ => meets_iff_after.2 fun _ => id) (fun _ _ _ _ => id) mode kind body) m
    ⟨rfl, rfl, rfl⟩

/-! ## What frames hold -/

/-- What a frame holds for an argument: the constant, or the buffer that the device has for the
object. -/
inductive Remembers (m : Machine) (device : Nat) : Argument → FrameArgument → Prop
  | constant {index : Nat} {value : Scalar} (hvalue : m.context.constants[index]? = some value) :
    Remembers m device (.constant index) (.constant value)
  | reference {object : Nat} {r : Record} {a : Allocation} {label : String}
    (hr : m.store.table.get? object device = some r) (ha : r.allocation = some a) :
    Remembers m device (.reference object) (.reference object a.buffer label)

theorem Receives.remembers {argument : Argument} {a : FrameArgument}
    (h : m.Receives device argument a) :
    m.Remembers device argument a := by
  cases h with
  | constant hvalue => exact .constant hvalue
  | reference hr ha => exact .reference hr ha

/-- What is said of the objects of some arguments is said of the arguments. -/
theorem forall₂_of_remembers {R : Argument → FrameArgument → Prop} {held : List FrameArgument}
    (h : List.Forall₂ (m.Remembers device) arguments held)
    (hconstant : ∀ index value, m.context.constants[index]? = some value →
      R (.constant index) (.constant value))
    (hobject : ∀ object ∈ arguments.filterMap Argument.object?, ∀ r a label,
      m.store.table.get? object device = some r → r.allocation = some a →
        R (.reference object) (.reference object a.buffer label)) :
    List.Forall₂ R arguments held := by
  induction h with
  | nil => exact .nil
  | @cons argument a _ _ ha _ ih =>
    refine .cons ?_ (ih fun object hmem => hobject object ?_)
    · cases ha with
      | constant hvalue => exact hconstant _ _ hvalue
      | reference hr ha => exact hobject _ (by simp [Argument.object?]) _ _ _ hr ha
    · rw [List.filterMap_cons]
      split
      · exact hmem
      · exact List.mem_cons_of_mem _ hmem

/-- A machine whose devices hold what the launches among some instructions would put into their
frames. -/
structure Coherent (is : List Instruction) (c : Context) (m : Machine) : Prop where
  grounds : m.context.grounds = c.grounds
  records : ∀ object device r, m.store.table.get? object device = some r →
    object < m.context.places.length ∧ (r.valid = true → r.allocation.isSome = true)
  room : ∀ x ∈ is.filterMap Instruction.call?, ∀ object ∈ x.arguments.filterMap Argument.object?,
    ∀ r a, m.store.table.get? object x.device = some r → r.allocation = some a →
      ∀ p ∈ is.filterMap Instruction.provision?, p.object = object → p.device = x.device →
        (Store.new c).bytesOf object p.window ≤ a.bytes
  remembers : ∀ x ∈ is.filterMap Instruction.call?, ∀ f : CallFrame,
    m.frames.slots[x.frame]? = some (some f) → f.isOnDevice = true →
      List.Forall₂ (m.Remembers x.device) x.arguments f.arguments

/-- The frames that devices hold have been held before, or they are as launches have left them. -/
def Leaves (is : List Instruction) (m m' : Machine) : Prop :=
  ∀ (id : Nat) (f : CallFrame), m'.frames.slots[id]? = some (some f) → f.isOnDevice = true →
    m.frames.slots[id]? = some (some f) ∨ ∃ x ∈ is.filterMap Instruction.call?, x.frame = id ∧
      List.Forall₂ (m.Receives x.device) x.arguments f.arguments

/-- The records that launches use stay through work that asks for no more than the program does. -/
theorem Coherent.record (h : m.Coherent is c) {p : Option Provision}
    (hp : ∀ q ∈ p, q ∈ is.filterMap Instruction.provision?)
    (htable : m.store.table.Reworked v (m.store.asking p) m'.store.table) {x : Call}
    (hx : x ∈ is.filterMap Instruction.call?)
    (hobject : object ∈ x.arguments.filterMap Argument.object?) {r : Record} {a : Allocation}
    (hr : m.store.table.get? object x.device = some r) (ha : r.allocation = some a) :
    ∃ r', m'.store.table.get? object x.device = some r' ∧ r'.allocation = some a ∧
      (v = true → r.valid = true → r'.valid = true) := by
  have hrel := htable object x.device
  rw [hr] at hrel
  generalize m'.store.table.get? object x.device = r' at hrel
  cases hrel with
  | some hreworked =>
    obtain ⟨ha', hvalid⟩ := hreworked.kept a ha fun n hn => by
      obtain ⟨q, hq, rfl⟩ := Option.map_eq_some_iff.1 hn
      obtain ⟨hmem, hat⟩ := Option.filter_eq_some_iff.1 hq
      obtain ⟨hqo, hqd⟩ := of_decide_eq_true hat
      rw [Store.bytesOf_of_extents (s := .new c) (congrArg Prod.snd h.grounds)]
      exact h.room x hx object hobject r a hr ha q (hp q hmem) hqo hqd
    exact ⟨_, rfl, ha', hvalid⟩

/-- What a deed has to leave so that the frames stay as they should be. -/
theorem Coherent.step (h : m.Coherent is c) (his : Retainable (.new c) is) {p : Option Provision}
    (hp : ∀ q ∈ p, q ∈ is.filterMap Instruction.provision?)
    (htable : m.store.table.Reworked v (m.store.asking p) m'.store.table)
    (hgrounds : m'.context.grounds = m.context.grounds) (hframes : Leaves is m m') :
    m'.Coherent is c := by
  have hback : ∀ object device r', m'.store.table.get? object device = some r' → ∃ r,
      m.store.table.get? object device = some r ∧
        Record.Reworked v (m.store.asking p object device) r r' := by
    intro object device r' hr'
    have hrel := htable object device
    rw [hr'] at hrel
    generalize m.store.table.get? object device = r at hrel
    cases hrel with
    | some hreworked => exact ⟨_, rfl, hreworked⟩
  refine ⟨hgrounds.trans h.grounds, fun object device r' hr' => ?_,
    fun x hx object hobject r' a hr' ha' q hq hqo hqd => ?_, fun x hx f hslot hon => ?_⟩
  · obtain ⟨r, hr, hreworked⟩ := hback object device r' hr'
    obtain ⟨hlt, hbacked⟩ := h.records object device r hr
    have hplaces : m'.context.places = m.context.places := congrArg (fun g => g.2.1) hgrounds
    exact ⟨hplaces ▸ hlt, hreworked.backed hbacked⟩
  · obtain ⟨r, hr, hreworked⟩ := hback object x.device r' hr'
    rcases hreworked.fresh a ha' with hold | hasked
    · exact h.room x hx object hobject r a hr hold q hq hqo hqd
    · -- A new buffer has the size that all provisions ask for.
      obtain ⟨q', hq', hbytes⟩ := Option.map_eq_some_iff.1 hasked
      obtain ⟨hmem, hat⟩ := Option.filter_eq_some_iff.1 hq'
      obtain ⟨hqo', hqd'⟩ := of_decide_eq_true hat
      rw [his.steady x hx object hobject q hq q' (hp q' hmem) hqo hqd hqo' hqd', ← hbytes,
        Store.bytesOf_of_extents (s := .new c) (congrArg Prod.snd h.grounds)]
  · have hremembers : List.Forall₂ (m.Remembers x.device) x.arguments f.arguments := by
      rcases hframes x.frame f hslot hon with hold | ⟨y, hy, hframe, hreceives⟩
      · exact h.remembers x hx f hold hon
      · obtain rfl := his.alike y hy x hx hframe
        exact hreceives.imp fun _ _ ha => ha.remembers
    have hconstants : m'.context.constants = m.context.constants := congrArg Prod.fst hgrounds
    refine forall₂_of_remembers hremembers (fun _ _ hvalue => .constant (hconstants ▸ hvalue))
      fun object hobject r a label hr ha => ?_
    obtain ⟨r', hr', ha', -⟩ := h.record hp htable hx hobject hr ha
    exact .reference hr' ha'

/-! ## Sessions -/

/-- What was sent in a normal pass since all was forgotten for the last time. -/
def sent (past : List Moment) : List (Nat × Nat) :=
  past.foldl (fun sent x =>
    match x.deed with
    | .instruction .normal i (.ok _) => sent ++ i.sent?.toList
    | .invalidation => []
    | .instruction .. | .ending .. => sent) []

/-- The frames are as they should be, and what was sent is valid. -/
structure Reliable (is : List Instruction) (c : Context) (past : List Moment) (m : Machine) :
    Prop where
  coherent : m.Coherent is c
  valid : ∀ x ∈ is.filterMap Instruction.call?, ∀ object ∈ x.arguments.filterMap Argument.object?,
    (object, x.device) ∈ sent past → ∃ r, m.store.table.get? object x.device = some r ∧
    r.valid = true

variable {past past' : List Moment}

theorem Reliable.step (h : Reliable is c past m) (his : Retainable (.new c) is)
    {p : Option Provision} (hp : ∀ q ∈ p, q ∈ is.filterMap Instruction.provision?)
    (htable : m.store.table.Reworked true (m.store.asking p) m'.store.table)
    (hgrounds : m'.context.grounds = m.context.grounds) (hframes : Leaves is m m')
    (hsent : ∀ q ∈ sent past', q ∈ sent past ∨ ∃ r, m'.store.table.get? q.1 q.2 = some r ∧
      r.valid = true) :
    Reliable is c past' m' := by
  refine ⟨h.coherent.step his hp htable hgrounds hframes, fun x hx object hobject hq => ?_⟩
  rcases hsent _ hq with hold | hnew
  · obtain ⟨r, hr, hvalid⟩ := h.valid x hx object hobject hold
    obtain ⟨a, ha⟩ :=
      Option.isSome_iff_exists.1 ((h.coherent.records object x.device r hr).2 hvalid)
    obtain ⟨r', hr', -, hvalid'⟩ := h.coherent.record hp htable hx hobject hr ha
    exact ⟨r', hr', hvalid' rfl hvalid⟩
  · exact hnew

theorem Reliable.aside (h : Reliable is c past m) (his : Retainable (.new c) is)
    (htable : m'.store.table = m.store.table) (hframes : m'.frames = m.frames)
    (hgrounds : m'.context.grounds = m.context.grounds) (hpast : sent past' = sent past) :
    Reliable is c past' m' := by
  refine h.step his (p := none) (fun _ hq => by cases hq) ?_ hgrounds
    (fun id f hslot _ => .inl (hframes ▸ hslot)) fun q hq => .inl (hpast ▸ hq)
  rw [htable]
  exact .refl _ _ _

theorem valid_of_effect {note : Option Note} (h : (effect .normal i).run m = (.ok note, m'))
    (hi : i.sent? = some (object, device)) :
    ∃ r, m'.store.table.get? object device = some r ∧ r.valid = true := by
  cases i with
  | transfer op object' device' events window =>
    have hworks : (Instruction.transfer op object' device' events window).works = true := rfl
    rcases perform_cases hworks m with
      ⟨e, hrun⟩ | ⟨wait, -, ⟨e, s, -, hrun⟩ | ⟨event, s, ledger, hx, -, hrun⟩⟩ <;>
      cases hrun.symm.trans h
    exact Store.valid_of_work hx hi
  | allocate | addDep | barrier | launch | finish => cases hi

/-- Reliability lasts as long as all that is done is in the program. -/
theorem lasting_reliable (his : Retainable (.new c) is) : Lasting fun past m =>
    (∀ x ∈ past, ∀ mode i outcome, x.deed = .instruction mode i outcome → i ∈ is) →
    Reliable is c past m := by
  refine lasting_of_aside (fun _ _ _ _ _ h hmem => ?_) (fun {past m} mode i h hmem => ?_)
    (fun {past m} mode kind body h hmem => ?_) fun {past m} h hmem => ?_
  · refine (h hmem).aside his ?_ ?_ ?_ ?_ <;> rfl
  · have hi : i ∈ is := hmem (.carry mode i m) (by simp) mode i _ rfl
    have hbefore := h fun x hx => hmem x (List.mem_append_left _ hx)
    refine hbefore.step his (p := i.provision?) (fun q hq => List.mem_filterMap.2 ⟨i, hi, hq⟩)
      (reworked_effect mode i m) (meets_iff_after.1 (keeps_grounds_effect _ mode i) m rfl)
      (fun id f hslot hon => ?_) fun q hq => ?_
    · cases hcall : i.call? with
      | none => exact .inl (frames_effect hcall mode m ▸ hslot)
      | some x =>
        cases i with
        | launch frame device task events window arguments =>
          rcases held_of_launch hslot hon with hold | ⟨rfl, hreceives⟩
          · exact .inl hold
          · exact .inr ⟨_, List.mem_filterMap.2 ⟨_, hi, rfl⟩, rfl, hreceives⟩
        | _ => cases hcall
    · rw [sent, List.foldl_append] at hq
      rcases hrun : (effect mode i).run m with ⟨r, m'⟩
      simp only [List.foldl_cons, List.foldl_nil, Moment.carry, hrun] at hq
      cases r with
      | error fault => cases mode <;> exact .inl hq
      | ok note =>
        cases mode with
        | warmup => exact .inl hq
        | normal =>
          rcases List.mem_append.1 hq with hq | hq
          · exact .inl hq
          · exact .inr (valid_of_effect hrun (Option.mem_toList.1 hq))
  · obtain ⟨htable, hframes, hgrounds⟩ := aside_closing mode kind body m
    refine Reliable.aside (h fun x hx => hmem x (List.mem_append_left _ hx)) his htable
      hframes hgrounds ?_
    simp [sent, Moment.close]
  · have hbefore := h fun x hx => hmem x (List.mem_append_left _ hx)
    refine ⟨hbefore.coherent.step his (p := none) (fun _ hq => by cases hq) (.invalidate _) rfl
      (fun _ _ hslot _ => .inl hslot), fun x hx object hobject hq => ?_⟩
    simp [sent, Moment.forget] at hq

theorem sent_append {xs : List Moment} (past : List Moment)
    (hxs : ∀ x ∈ xs, ∃ i note, x.deed = .instruction .normal i (.ok note)) :
    sent (past ++ xs) = sent past ++ (Moment.tried xs).filterMap Instruction.sent? := by
  induction xs generalizing past with
  | nil => simp
  | cons x xs ih =>
    obtain ⟨⟨i, note, hx⟩, hrest⟩ := List.forall_mem_cons.1 hxs
    rw [List.append_cons, ih (past ++ [x]) hrest, Moment.tried_cons hx, List.filterMap_cons, sent,
      List.foldl_append]
    simp only [List.foldl_cons, List.foldl_nil, hx]
    cases i.sent? <;> simp [sent]

variable {code : Bytes} {config : Config} {c' : Context} {requests : List Request} {x : Moment}
  {future : List Moment}

theorem done_of_bodyMoments {kind : PassKind} {fuel : Nat} {later : List Moment}
    (hx : bodyMoments mode kind fuel m = past ++ x :: later) {y : Moment} (hy : y ∈ past) :
    ∃ i note, y.deed = .instruction mode i (.ok note) := by
  obtain ⟨i, -, hcarry⟩ := eq_of_mem_bodyMoments (hx ▸ List.mem_append_left _ hy)
  have hdeed : y.deed = .instruction mode i ((effect mode i).run y.before).1 :=
    congrArg Moment.deed hcarry
  rcases houtcome : ((effect mode i).run y.before).1 with fault | note
  · obtain ⟨before, after, rfl⟩ := List.append_of_mem hy
    rw [List.append_assoc, List.cons_append] at hx
    simpa using (fault_of_bodyMoments hx (houtcome ▸ hdeed)).1
  · exact ⟨i, note, houtcome ▸ hdeed⟩

/-- An instruction of a normal pass stands in the program, and what stands before it was carried
out. -/
theorem sent_before (hm : (create code config).run c = (.ok m, c'))
    (hx : timeline requests m = past ++ x :: future) {outcome : Except Fault (Option Note)}
    (hdeed : x.deed = .instruction .normal i outcome) :
    ∃ k, (Program.script code).instructions[k]? = some i ∧
      ∀ q ∈ ((Program.script code).instructions.take k).filterMap Instruction.sent?,
      q ∈ sent past := by
  obtain ⟨served, kind, _, inner, rest, rfl, hbody, -⟩ := exists_body hx hdeed
  obtain ⟨more, hscript⟩ := (enacts_body hm served .normal kind).starts
  rw [passMoments, hbody, Moment.tried, List.filterMap_append, List.filterMap_cons,
    hdeed] at hscript
  have hscript : (Program.script code).instructions = Moment.tried inner ++ i ::
      (Moment.tried rest ++ more) := by
    simpa [Deed.instruction?, Moment.tried] using hscript.symm
  refine ⟨(Moment.tried inner).length, by simp [hscript], fun q hq => ?_⟩
  rw [hscript, List.take_left] at hq
  rw [sent_append _ fun y hy => done_of_bodyMoments hbody hy]
  exact List.mem_append_right _ hq

/-! ## From the start -/

theorem reliable_create (hm : (create code config).run c = (.ok m, c')) : Reliable is c [] m := by
  have hgrounds : c'.grounds = c.grounds := by
    obtain ⟨-, journal, hc'⟩ := context_of_create hm
    rw [hc']
    rfl
  obtain ⟨header, reader, rfl⟩ := eq_initial_of_create hm
  have hempty : ∀ {object device : Nat} {r : Record},
      (Store.new c').table.get? object device = some r → object < c'.places.length ∧ r = {} := by
    intro object device r hr
    rw [Store.new, Table.get?_new] at hr
    split_ifs at hr with hlt
    exact ⟨hlt.1, (Option.some.inj hr).symm⟩
  refine ⟨⟨hgrounds, fun object device r hr => ?_, fun x _ object _ r a hr ha => ?_,
    fun x _ f hslot => ?_⟩, fun _ _ _ _ hq => by cases hq⟩
  · obtain ⟨hlt, rfl⟩ := hempty hr
    exact ⟨hlt, fun hvalid => by cases hvalid⟩
  · obtain ⟨-, rfl⟩ := hempty hr
    cases ha
  · cases List.eq_of_mem_replicate (List.mem_of_getElem? hslot)

theorem findsFrame_of_retainable (hm : (create code config).run c = (.ok m, c'))
    (his : Retainable (.new c) (Program.script code).instructions) (hx : x ∈ timeline requests m) :
    x.FindsFrame := by
  intro frame device task events window arguments outcome hdeed entry m₁ f m₂ hcode hframe hon
  obtain ⟨past, future, htimeline⟩ := List.append_of_mem hx
  have hcall : ⟨frame, device, arguments⟩ ∈ (Program.script code).instructions.filterMap
      Instruction.call? :=
    List.mem_filterMap.2 ⟨_, mem_script_of_timeline hm hx hdeed, rfl⟩
  have hreliable : Reliable _ c past x.before :=
    (lasting_reliable his).before (fun _ => reliable_create hm) htimeline fun y hy _ _ _ =>
      mem_script_of_timeline hm (htimeline ▸ List.mem_append_left _ hy)
  obtain ⟨store, code', rfl, hcore, htable⟩ := (resolving_of_run hcode).core
  have hslot := (slot_of_resolveFrame hframe hon).1
  obtain ⟨frames, hresolve, rfl⟩ := resolve_of_resolveFrame hframe
  have hheld := hreliable.coherent.remembers _ hcall f
    (FramePool.held_of_resolve hresolve frame f hslot hon) hon
  obtain ⟨k, hk, hsent⟩ := sent_before hm htimeline hdeed
  have hconstants : store.context.constants = x.before.context.constants :=
    congrArg Context.Core.constants hcore
  have hplaces : store.context.places = x.before.context.places :=
    congrArg Context.Core.places hcore
  refine forall₂_of_remembers hheld (fun _ _ hvalue => ⟨_, .constant ?_, rfl⟩)
    fun object hobject r a label hr ha => ?_
  · exact hconstants ▸ hvalue
  · have hin := his.resent k (List.getElem?_eq_some_iff.1 hk).1 ⟨frame, device, arguments⟩
      (by rw [hk]; rfl) object hobject
    obtain ⟨r', hr', hvalid⟩ := hreliable.valid _ hcall object hobject (hsent _ hin)
    cases hr.symm.trans hr'
    have hplace : object < store.context.places.length :=
      hplaces ▸ (hreliable.coherent.records object device r hr).1
    exact ⟨_, .reference (htable ▸ hr) ha hvalid (List.getElem?_eq_getElem hplace), rfl⟩

/-- Retention is a cache of arguments, for programs in which launches with one frame number are
alike, no buffer that launches use is outgrown, and everything is sent before it is used. Take any
context and configuration and any session. Without retention it has the same outcomes, and after
every request the host objects are the same and so are the devices, in all but the retention. -/
theorem session_withRetention {c₁ : Context}
    (hm : (create code config).run (c.withRetention true) = (.ok m, c₁))
    (hprogram : Retainable (.new c) (Program.script code).instructions) :
    ∃ m' c₂, (create code config).run (c.withRetention false) = (.ok m', c₂) ∧
      ∀ requests,
        (session requests m').1 = (session requests m).1 ∧
        (session requests m').2.context.objects = (session requests m).2.context.objects ∧
        (session requests m').2.context.devices =
          (session requests m).2.context.devices.map fun d => d.withRetention false :=
  session_withRetention_of_finds hm fun _ _ =>
    findsFrame_of_retainable hm ⟨hprogram.alike, hprogram.steady, hprogram.resent⟩

/-- Two launches in each pass with one frame and one argument. From the second launch on, the frame
is held by the device, also over an invalidation. -/
theorem session_withRetention_reused :
    let p : Program := ⟨⟨1, 1, 0, [0]⟩,
      [.transfer .copyIn 0 0 none none, .launch 0 0 0 none none [.reference 0],
        .launch 0 0 0 none none [.reference 0], .transfer (.streamOut true) 0 0 none none, .finish]⟩
    let c : Context := {
      devices := [{ name := "d" }]
      objects := [⟨"a", [1, 0, 0, 0]⟩]
      constants := []
      tasks := [{ name := "add_one", accesses := [.readWrite] }] }
    let requests : List Request :=
      [.pass .warmup .plain, .pass .normal .plain, .invalidate, .pass .normal .plain]
    ∃ m c₁ m' c₂, (create p.encode {}).run (c.withRetention true) = (.ok m, c₁) ∧
      (create p.encode {}).run (c.withRetention false) = (.ok m', c₂) ∧
      (session requests m').1 = (session requests m).1 ∧
      (session requests m).2.frames.slots.map (fun slot => slot.map CallFrame.isOnDevice) =
        [some true] ∧
      (session requests m').2.context.objects.map HostObject.bytes = [[5, 0, 0, 0]] := by
  intro p c requests
  have hrun : (((create p.encode {}).outcome (c.withRetention true)).toOption.map fun m =>
      ((session requests m).2.frames.slots.map (fun slot => slot.map CallFrame.isOnDevice),
        (session requests m).2.context.objects.map HostObject.bytes)) =
      some ([some true], [[5, 0, 0, 0]]) := by
    decide +kernel
  obtain ⟨m, c₁, hm, hread⟩ := Action.exists_run_of_read hrun
  obtain ⟨hframes, hobjects⟩ := Prod.mk.inj hread
  have hscript : (Program.script p.encode).instructions = p.body := by decide +kernel
  obtain ⟨m', c₂, hm', hsession⟩ := session_withRetention (c := c) hm
    (by rw [hscript]; exact ⟨by decide +kernel, by decide +kernel, by decide +kernel⟩)
  obtain ⟨houtcomes, hsame, -⟩ := hsession requests
  refine ⟨m, c₁, m', c₂, hm, hm', houtcomes, hframes, ?_⟩
  rw [hsame]
  exact hobjects

/-- What becomes of the frame when the conditions fail. A buffer that was outgrown is gone, but the
device still holds a frame that names it: with retention the launch of the second pass fails on a
buffer that does not exist, and without it nothing fails. Of two launches with one frame number and
different arguments the second one runs on the argument of the first. -/
theorem session_withRetention_outgrown :
    let outgrown : Program := ⟨⟨1, 1, 0, []⟩,
      [.transfer .copyIn 0 0 none (some ⟨0, 4⟩), .launch 0 0 0 none (some ⟨0, 4⟩) [.reference 0],
        .transfer .copyIn 0 0 none (some ⟨0, 8⟩), .finish]⟩
    let shared : Program := ⟨⟨1, 1, 0, []⟩,
      [.transfer .copyIn 0 0 none none, .transfer .copyIn 1 0 none none,
        .launch 0 0 0 none none [.reference 0], .launch 0 0 0 none none [.reference 1],
        .transfer (.streamOut true) 0 0 none none, .transfer (.streamOut true) 1 0 none none,
        .finish]⟩
    let c : Context := {
      devices := [{ name := "d" }]
      objects := [⟨"a", [1, 0, 0, 0, 2, 0, 0, 0]⟩, ⟨"b", [5, 0, 0, 0]⟩]
      constants := []
      tasks := [{ name := "add_one", accesses := [.readWrite] }] }
    let ends (p : Program) (requests : List Request) := [true, false].map fun retain =>
      ((create p.encode {}).outcome (c.withRetention retain)).toOption.map fun m =>
        ((session requests m).1.map Except.isOk,
          (session requests m).2.context.objects.map HostObject.bytes)
    ends outgrown [.pass .normal .batched, .pass .normal .batched] =
      [some ([true, false], [[1, 0, 0, 0, 2, 0, 0, 0], [5, 0, 0, 0]]),
        some ([true, true], [[1, 0, 0, 0, 2, 0, 0, 0], [5, 0, 0, 0]])] ∧
    ends shared [.pass .normal .plain] =
      [some ([true], [[3, 0, 0, 0, 4, 0, 0, 0], [5, 0, 0, 0]]),
        some ([true], [[2, 0, 0, 0, 3, 0, 0, 0], [6, 0, 0, 0]])] := by
  decide +kernel

end Machine

end Offload
