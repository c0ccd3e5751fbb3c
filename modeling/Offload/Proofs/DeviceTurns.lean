import Offload.Proofs.DeviceAccounts
import Offload.Proofs.LaunchDevice
import Offload.Proofs.PassEvents
import Offload.Proofs.StoreOutcomes

/-!
# One device at a time

The devices of a machine have nothing to do with each other. An instruction works on one device and
leaves the others as they are. At the end of a normal pass the devices are waited for in the order
of their indices: one whose turn has not come is as it was, one whose turn is over has nothing left
that waits, and after a fault no further device has its turn.
-/

namespace Offload

open Offload.Action

variable {α : Type}

/-! ## Instructions -/

namespace Context

/-- No device has changed but that of an index. -/
def Apart (index : Nat) (c c' : Context) : Prop :=
  ∀ other, other ≠ index → c'.devices[other]? = c.devices[other]?

theorem Apart.withStation {index : Nat} {c c' : Context} (h : c.Apart index c') (st : Station) :
    c.Apart index (c'.withStation index st) := by
  intro other hother
  rw [Context.withStation, List.getElem?_set_ne (Ne.symm hother)]
  exact h other hother

end Context

namespace Store

/-- The devices of a store are as in a context, but for that of an index. -/
abbrev ApartFrom (c : Context) (device : Nat) (s : Store) : Prop := c.Apart device s.context

variable {c : Context} {s s' : Store} {object device : Nat} {window : Option Window}
  {wait : List EventId}

theorem Vacated.apart {d d' : Device} {r : Record} (h : s.Vacated object device d r s' d')
    (hs : s.ApartFrom c device) : s'.ApartFrom c device := by
  cases h with
  | bare => exact hs
  | discarded => exact hs.withStation _

theorem Allocating.apart {v : Except Fault (Option EventId)}
    (h : s.Allocating object device window v s') (hs : s.ApartFrom c device) :
    s'.ApartFrom c device := by
  cases h with
  | refused | roomy => exact hs
  | stuck => exact hs.withStation _
  | exhausted _ _ _ hvacated => exact (hvacated.apart hs).withStation _
  | made _ _ _ _ hvacated => exact (hvacated.apart hs).withStation _

theorem Sending.apart {v : Except Fault EventId} (h : s.Sending object device window wait v s')
    (hs : s.ApartFrom c device) : s'.ApartFrom c device := by
  cases h with
  | unready hallocate => exact (allocating_of_run hallocate).apart hs
  | failed hallocate => exact ((allocating_of_run hallocate).apart hs).withStation _
  | sent hallocate => exact ((allocating_of_run hallocate).apart hs).withStation _

theorem Fetching.apart {blocking : Bool} {v : Except Fault EventId}
    (h : s.Fetching object device window wait blocking v s') (hs : s.ApartFrom c device) :
    s'.ApartFrom c device := by
  cases h with
  | refused => exact hs
  | failed => exact hs.withStation _
  | fetched => exact hs.withStation _

theorem Copying.apart {v : Except Fault (Option EventId)}
    (h : s.Copying object device window wait v s') (hs : s.ApartFrom c device) :
    s'.ApartFrom c device := by
  cases h with
  | refused | held => exact hs
  | sending _ _ hsending => exact hsending.apart hs

theorem keeps_apart_onDevice (device : Nat) (x : DeviceAction α) :
    Keeps (ApartFrom c device) (inContext (Context.onDevice device x)) := by
  refine meets_inContext (P := c.Apart device) (Q := fun _ => c.Apart device)
    (E := c.Apart device) ?_
  refine Context.meets_onDevice (fun _ => id) fun c d hc hd => ?_
  exact meets_iff_after.2 fun s _ => hc.withStation _

/-- An instruction works on one device. -/
theorem exists_keeps_apart_work (i : Instruction) :
    ∃ index, ∀ c wait, Keeps (ApartFrom c index) (i.work wait) := by
  cases i with
  | allocate object device window =>
    exact ⟨device, fun _ _ => meets_iff_after.2 fun _ => (allocating_of_run rfl).apart⟩
  | transfer op object device events window =>
    refine ⟨device, fun c wait => ?_⟩
    cases op with
    | copyIn => exact meets_iff_after.2 fun _ => (copying_of_run rfl).apart
    | streamIn =>
      exact keeps_bind (meets_iff_after.2 fun _ => (sending_of_run rfl).apart) fun _ => keeps_pure
    | streamOut =>
      exact keeps_bind (meets_iff_after.2 fun _ => (fetching_of_run rfl).apart) fun _ => keeps_pure
  | barrier =>
    exact ⟨0, fun _ wait => keeps_bind (keeps_apart_onDevice 0 (Station.marker wait)) fun _ =>
      keeps_pure⟩
  | addDep | launch | finish => exact ⟨0, fun _ _ => keeps_pure⟩

end Store

namespace Machine

variable {m : Machine}

/-- Whatever becomes of an instruction, it leaves all devices alone but one. -/
theorem exists_apart_effect (mode : PassMode) (i : Instruction) (m : Machine) :
    ∃ index, m.context.Apart index ((effect mode i).run m).2.context := by
  have hperform : ∃ index, m.context.Apart index ((perform i).run m).2.context := by
    obtain ⟨index, hwork⟩ := Store.exists_keeps_apart_work i
    have hkeeps := keeps_perform_of_work (I := fun m' => m.context.Apart index m'.context)
      (fun _ _ _ => id) fun wait => meets_inStore (hwork m.context wait)
    exact ⟨index, meets_iff_after.1 hkeeps m fun _ _ => rfl⟩
  cases i with
  | launch frame device task events window arguments =>
    obtain ⟨kinds, -, -, hothers⟩ := grew_launch m mode frame device task events window arguments
    exact ⟨m.home task device, hothers⟩
  | _ =>
    cases mode with
    | normal => exact hperform
    | warmup => exact ⟨0, fun _ _ => rfl⟩

/-! ## The end of a pass -/

theorem settle_append (config : Config) (barrier : Event) (devices others : List Nat) :
    settle config barrier (devices ++ others) =
      settle config barrier devices >>= fun barrier => settle config barrier others := by
  funext m
  induction devices generalizing barrier m with
  | nil => rfl
  | cons device devices ih =>
    change ((awaitMarker config device barrier >>= _ : MachineAction Event).run m) =
      ((awaitMarker config device barrier >>= _) >>= _ : MachineAction Event).run m
    simp only [run_bind]
    rcases (awaitMarker config device barrier).run m with ⟨r, m₁⟩
    cases r with
    | error fault => rfl
    | ok barrier =>
      dsimp only
      rcases (flushDevice config device).run m₁ with ⟨r, m₂⟩
      cases r with
      | error fault => rfl
      | ok _ => exact ih barrier m₂

/-- Wait for the devices with an index below `k`. -/
def settled (m : Machine) (k : Nat) : Except Fault Event × Machine :=
  (settle m.config .empty (List.range k)).run m

/-- One device more is waited for, unless one before it has failed. -/
theorem settled_succ (m : Machine) (k : Nat) :
    (∃ barrier, (m.settled k).1 = .ok barrier ∧
      m.settled (k + 1) = (settle m.config barrier [k]).run (m.settled k).2) ∨
    ∃ fault, (m.settled k).1 = .error fault ∧ m.settled (k + 1) = m.settled k := by
  have happend : m.settled (k + 1) =
      (settle m.config .empty (List.range k) >>= fun barrier => settle m.config barrier [k]).run
      m := by
    rw [settled, List.range_succ, settle_append]
  rw [happend, run_bind, ← settled]
  rcases m.settled k with ⟨r, m'⟩
  cases r with
  | ok barrier => exact .inl ⟨barrier, rfl, rfl⟩
  | error fault => exact .inr ⟨fault, rfl, rfl⟩

theorem apart_settled_succ (m : Machine) (k : Nat) :
    (m.settled k).2.context.Apart k (m.settled (k + 1)).2.context := by
  rcases settled_succ m k with ⟨barrier, -, hsucc⟩ | ⟨fault, -, hsucc⟩
  · have honDevice : ∀ {β : Type} (x : DeviceAction β), ∀ index ∈ [k], Keeps
        (fun m' => (m.settled k).2.context.Apart k m'.context) (onDevice index x) := by
      intro β x index hindex
      obtain rfl := List.mem_singleton.1 hindex
      exact meets_inStore (Store.keeps_apart_onDevice index x)
    have hsettle := upholds_settle_of_devices (honDevice _)
      (fun index hindex _ => honDevice _ index hindex) (honDevice _) m.config barrier
    rw [hsucc]
    exact meets_iff_after.1 hsettle _ fun _ _ => rfl
  · rw [hsucc]
    exact fun _ _ => rfl

theorem device_settled_of_le (m : Machine) {index k : Nat} (h : k ≤ index) :
    (m.settled k).2.context.devices[index]? = m.context.devices[index]? := by
  induction k with
  | zero => rfl
  | succ k ih =>
    rw [apart_settled_succ m k index (by omega)]
    exact ih (by omega)

theorem device_settled_of_lt (m : Machine) {index k : Nat} (h : index < k) :
    (m.settled k).2.context.devices[index]? =
      (m.settled (index + 1)).2.context.devices[index]? := by
  induction k, h using Nat.le_induction with
  | base => rfl
  | succ k hk ih => rw [apart_settled_succ m k index (by omega), ih]

theorem settled_of_error (m : Machine) {k n : Nat} {fault : Fault}
    (h : (m.settled k).1 = .error fault) (hle : k ≤ n) : m.settled n = m.settled k := by
  induction n, hle using Nat.le_induction with
  | base => rfl
  | succ n hle ih =>
    rcases settled_succ m n with ⟨barrier, hok, -⟩ | ⟨_, -, hsucc⟩
    · rw [ih, h] at hok
      cases hok
    · rw [hsucc, ih]

/-- Nothing waits on a device when its turn is over. -/
theorem meets_settle_single {config : Config} (hconfig : config.Settles) (barrier : Event)
    (index : Nat) :
    Meets (fun m => ∀ d, m.context.devices[index]? = some d → d.Orderly)
      (settle config barrier [index])
      (fun _ m => ∀ d, m.context.devices[index]? = some d → d.queue = []) (fun _ => True) := by
  have hmarker : Meets (fun m => ∀ d, m.context.devices[index]? = some d → d.Orderly)
      (awaitMarker config index barrier)
      (fun _ m => ¬config.flushOnCompletion = true → ∀ d, m.context.devices[index]? = some d →
        d.queue = [])
      (fun _ => True) := by
    rw [awaitMarker]
    split
    · rw [← onDevice_bind]
      exact meets_post
        (meets_onDevice
          (Context.meets_device (meets_bind (Station.meets_marker []) Station.meets_resolve)))
        fun _ _ hm _ => hm
    · rename_i hoff
      exact meets_pure fun _ _ hflush => absurd (hconfig.resolve_left hflush) hoff
  refine meets_bind hmarker fun barrier => meets_bind (Q := fun _ m =>
    ∀ d, m.context.devices[index]? = some d → d.queue = []) ?_ fun _ => meets_pure fun _ => id
  rw [flushDevice]
  split
  · exact meets_weaken
      (meets_onDevice (Context.meets_device (A := fun _ => True) Station.meets_flush))
      (fun _ _ _ _ => trivial) (fun _ _ => id) fun _ => id
  · rename_i hoff
    exact meets_pure fun _ hm => hm hoff

theorem queue_settled {m : Machine} (hconfig : m.config.Settles)
    (horderly : ∀ d ∈ m.context.devices, d.Orderly) {index k : Nat} {barrier : Event}
    (hok : (m.settled k).1 = .ok barrier) (hindex : index < k) {d : Device}
    (hd : (m.settled k).2.context.devices[index]? = some d) : d.queue = [] := by
  rw [device_settled_of_lt m hindex] at hd
  have hbefore : ∀ d, (m.settled index).2.context.devices[index]? = some d → d.Orderly := by
    rw [device_settled_of_le m (Nat.le_refl index)]
    exact fun d hd => horderly d (List.mem_of_getElem? hd)
  cases hturn : (m.settled (index + 1)).1 with
  | error fault =>
    rw [settled_of_error m hturn hindex, hturn] at hok
    cases hok
  | ok barrier =>
    obtain ⟨barrier, -, hsucc⟩ | ⟨fault, hfault, hsucc⟩ := settled_succ m index
    · rw [hsucc] at hturn hd
      exact (meets_settle_single hconfig barrier index).of_ok (Prod.ext hturn rfl) hbefore d hd
    · rw [hsucc, hfault] at hturn
      cases hturn

/-- The machine with its reader back at the mark. -/
def rewound (m : Machine) : Machine := { m with reader := m.reader.reset }

theorem devices_closing (mode : PassMode) (kind : PassKind) (body : Except Fault Unit)
    (m : Machine) :
    ((closing mode kind body).run m).2.context.devices =
      ((completion mode body).run m).2.context.devices := by
  let Same (m' : Machine) : Prop :=
    m'.context.devices = ((completion mode body).run m).2.context.devices
  have hlog : ∀ level text, Keeps Same (log level text) := fun _ _ =>
    meets_iff_after.2 fun _ => id
  have hrest := keeps_concluding_of_log hlog (fun _ _ => id) (fun _ => id) mode kind
    ((completion mode body).run m).1
  exact meets_iff_after.1 hrest _ rfl

/-- When all devices have been waited for, the end of a pass takes the profiles. -/
theorem run_finish_of_ok {m : Machine} {barrier : Event}
    (hok : (m.settled m.context.devices.length).1 = .ok barrier) :
    finish.run m = (collect (m.settled m.context.devices.length).2.pending >>= fun _ =>
      pure barrier :
      MachineAction Event).run { (m.settled m.context.devices.length).2 with pending := [] } := by
  have hsettle : (settle m.config .empty (List.range m.context.devices.length)).run m =
      (.ok barrier, (m.settled m.context.devices.length).2) := Prod.ext hok rfl
  exact run_bind_of_ok hsettle

/-- When a device has failed, the end of a pass is over. -/
theorem run_finish_of_error {m : Machine} {fault : Fault}
    (hfault : (m.settled m.context.devices.length).1 = .error fault) :
    finish.run m = (.error fault, (m.settled m.context.devices.length).2) := by
  have hsettle : (settle m.config .empty (List.range m.context.devices.length)).run m =
      (.error fault, (m.settled m.context.devices.length).2) := Prod.ext hfault rfl
  rw [finish, run_bind, run_get]
  dsimp only
  rw [run_bind, hsettle]

theorem later_collect (barrier : Event) (m : Machine) :
    m.context.Later ((collect m.pending >>= fun _ => pure barrier : MachineAction Event).run
      { m with pending := [] }).2.context := by
  refine moves_of_meets (P := Since (fun _ => True) EventStatus.Succeeded m fun _ => True)
    (L := fun _ _ => True) (meets_bind (advances_collect m.pending trivial m _) fun _ => ?_)
    ⟨.refl _, rfl, trivial⟩
  exact meets_pure fun _ => id

/-- The end of a normal pass waits for all devices. If one of them fails, that is all. -/
theorem closing_settled (kind : PassKind) (m : Machine) :
    (m.rewound.settled m.context.devices.length).2.context.Later
        ((closing .normal kind (.ok ())).run m).2.context ∧
      ∀ fault, (m.rewound.settled m.context.devices.length).1 = .error fault →
        ((closing .normal kind (.ok ())).run m).2.context.devices =
          (m.rewound.settled m.context.devices.length).2.context.devices := by
  have hclosing : ((closing .normal kind (.ok ())).run m).2.context.devices =
      (finish.run m.rewound).2.context.devices := devices_closing .normal kind (.ok ()) m
  cases hsettled : (m.rewound.settled m.context.devices.length).1 with
  | ok barrier =>
    refine ⟨Context.Moves.congr ?_ hclosing, fun _ hfault => by cases hfault⟩
    rw [run_finish_of_ok hsettled]
    exact later_collect barrier _
  | error fault =>
    rw [run_finish_of_error hsettled] at hclosing
    exact ⟨(Context.Moves.refl _).congr hclosing, fun _ _ => hclosing⟩

end Machine

end Offload
