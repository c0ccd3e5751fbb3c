import Offload.Proofs.HeldWindows
import Offload.Proofs.StoreAgreement
import Offload.Proofs.WindowedTransfers

/-!
# Operations that are independent

An operation of a store is about one object and one device. It sees the object's row of the table,
the device and the object as it is stored, and on a device that runs its commands at once it changes
nothing else. So it does the same in two stores that agree there, and each of them stays as it was
everywhere else. Two operations that are about different objects, stored apart, and about different
devices can be carried out in either order.
-/

namespace Offload

open Offload.Action

variable {α : Type} {place i : Nat} {P : Nat → Prop}

/-- Two lists, `l` and `m`, that agree at the indices of `P`. Elsewhere they are as they were, `a`
and `b`. -/
structure Overlap (P : Nat → Prop) (a b l m : List α) : Prop where
  length_left : l.length = a.length
  length_eq : m.length = l.length
  inside : ∀ i, P i → m[i]? = l[i]?
  left : ∀ i, ¬P i → l[i]? = a[i]?
  right : ∀ i, ¬P i → m[i]? = b[i]?

namespace Overlap

variable {Q : Nat → Prop} {a b l m : List α}

theorem modify (h : Overlap P a b l m) (hi : P i) (f : α → α) :
    Overlap P a b (l.modify i f) (m.modify i f) := by
  have hne : ∀ j, ¬P j → i ≠ j := fun j hj hij => hj (hij ▸ hi)
  refine ⟨?_, ?_, fun j hj => ?_, fun j hj => ?_, fun j hj => ?_⟩
  · rw [List.length_modify, h.length_left]
  · rw [List.length_modify, List.length_modify, h.length_eq]
  · rw [List.getElem?_modify, List.getElem?_modify, h.inside j hj]
  · rw [List.getElem?_modify_ne _ _ (hne j hj), h.left j hj]
  · rw [List.getElem?_modify_ne _ _ (hne j hj), h.right j hj]

theorem set (h : Overlap P a b l m) (hi : P i) (x : α) : Overlap P a b (l.set i x) (m.set i x) := by
  rw [List.set_eq_modify, List.set_eq_modify]
  exact h.modify hi _

theorem lookup_eq (h : Overlap P a b l m) (what : Resource) (hi : P i) :
    lookup what m i = lookup what l i := by
  rw [lookup, lookup, h.inside i hi, h.length_eq]

theorem refl (P : Nat → Prop) (a : List α) : Overlap P a a a a :=
  ⟨rfl, rfl, fun _ _ => rfl, fun _ _ => rfl, fun _ _ => rfl⟩

/-- A list before and after something was done at `P` agrees where that was not. -/
theorem apart (h : Overlap P a a l m) (hapart : ∀ i, Q i → ¬P i) : Overlap Q a l a l :=
  ⟨rfl, h.length_left, fun i hi => h.left i (hapart i hi), fun _ _ => rfl, fun _ _ => rfl⟩

/-- What was done at `P` and what was done at `Q` come to the same in either order if the two are
apart. -/
theorem eq_of_apart {l₀ l₁ l₂ l₁₂ l₂₁ : List α} (hapart : ∀ i, P i → ¬Q i)
    (hP : Overlap P l₀ l₂ l₁ l₂₁) (hQ : Overlap Q l₀ l₁ l₂ l₁₂) : l₁₂ = l₂₁ := by
  apply List.ext_getElem?
  intro i
  by_cases hi : P i
  · rw [hQ.right i (hapart i hi), hP.inside i hi]
  · by_cases hi' : Q i
    · rw [hQ.inside i hi', hP.right i hi]
    · rw [hQ.right i hi', hP.left i hi, hP.right i hi, hQ.left i hi']

end Overlap

theorem Overlap.objectAt_eq {a b l m : List HostObject} (h : Overlap P a b l m) (hplace : P place) :
    objectAt m place = objectAt l place := by
  rw [objectAt, objectAt, h.inside place hplace]

/-! ## Devices -/

section Devices

variable {a b : List HostObject}

/-- A command that sees and changes only objects of `P`. -/
def Command.Local (P : Nat → Prop) (a b : List HostObject) (c : Command) : Prop :=
  ∀ memory l m, Overlap P a b l m →
    (c.execute memory m).1 = (c.execute memory l).1 ∧
    (c.execute memory m).2.1 = (c.execute memory l).2.1 ∧
      Overlap P a b (c.execute memory l).2.2 (c.execute memory m).2.2

theorem Command.local_write (hplace : P place) (buffer : BufferId) (window : Option Window) :
    Command.Local P a b (.write buffer place window) := by
  intro memory l m h
  simp only [execute, h.objectAt_eq hplace]
  split
  · exact ⟨rfl, rfl, h⟩
  · split_ifs <;> exact ⟨rfl, rfl, h⟩

theorem Command.local_read (hplace : P place) (buffer : BufferId) (window : Option Window) :
    Command.Local P a b (.read buffer place window) := by
  intro memory l m h
  simp only [execute, h.objectAt_eq hplace]
  split
  · exact ⟨rfl, rfl, h⟩
  · split_ifs
    · exact ⟨rfl, rfl, h⟩
    · exact ⟨rfl, rfl, h.modify hplace _⟩

namespace Station

/-- Two stations of one device, which runs its commands at once, among objects that agree at `P`. -/
structure Beside (P : Nat → Prop) (a b : List HostObject) (s t : Station) : Prop where
  device_eq : t.device = s.device
  objects : Overlap P a b s.objects t.objects
  eager : s.device.options.deferred = false
  idle : s.device.queue = []

theorem Beside.onDevice {s t : Station} (h : Beside P a b s t) {f : Device → Device}
    (hoptions : ∀ d, (f d).options = d.options) (hqueue : ∀ d, d.queue = [] → (f d).queue = []) :
    Beside P a b (s.onDevice f) (t.onDevice f) :=
  ⟨congrArg f h.device_eq, h.objects, (congrArg _ (hoptions _)).trans h.eager, hqueue _ h.idle⟩

theorem respects_beside_count (f : Counters → Counters) : Respects (Beside P a b) (count f) :=
  respects_modify fun _ _ h => h.onDevice (fun _ => rfl) fun _ => id

theorem respects_beside_drain (last : Option EventId) : Respects (Beside P a b) (drain last) := by
  rw [respects_iff]
  intro s t h
  have hidle : t.device.queue = [] := h.device_eq ▸ h.idle
  simp only [Action.run, drain, h.idle, hidle, runThrough]
  exact ⟨trivial, h.onDevice (f := fun d => { d with queue := [] }) (fun _ => rfl) fun _ _ => rfl⟩

theorem respects_beside_submit (kind : EventKind) (label : String) (wait : List EventId)
    {c : Command} (hc : c.Local P a b) : Respects (Beside P a b) (submit kind label wait c) := by
  rw [respects_iff]
  intro s t h
  have heager : t.device.options.deferred = false := h.device_eq ▸ h.eager
  obtain ⟨hresult, hmemory, hobjects⟩ := hc s.device.memory _ _ h.objects
  rw [run_submit_performed kind label wait c h.eager, run_submit_performed kind label wait c heager,
    h.device_eq, hresult]
  refine ⟨rfl, ?_, ?_, h.eager, h.idle⟩
  · simp only [perform, recorded, Device.record, h.device_eq, hresult, hmemory]
    rfl
  · simp only [perform, recorded, h.device_eq]
    exact hobjects

theorem respects_beside_allocate (hplace : P place) (bytes : Nat) :
    Respects (Beside P a b) (allocate place bytes) := by
  unfold allocate
  split
  · exact agrees_throw_bind
  · refine goes_get fun s t h => ?_
    rw [h.device_eq, h.objects.objectAt_eq hplace]
    refine respects_bind
      (respects_modify fun _ _ h => h.onDevice (fun _ => rfl) fun _ => id) fun _ => ?_
    refine respects_bind (respects_beside_count _) fun _ => ?_
    refine respects_bind
      (respects_modify fun _ _ h => h.onDevice (fun _ => rfl) fun _ => id) fun _ => ?_
    exact respects_pure

theorem respects_beside_release (buffer : BufferId) : Respects (Beside P a b) (release buffer) := by
  refine respects_bind (respects_beside_drain none) fun _ => goes_get fun s t h => ?_
  rw [h.device_eq]
  show Respects (Beside P a b) _
  split
  · exact respects_modify fun _ _ h => h.onDevice (fun _ => rfl) fun _ => id
  · exact respects_throw

theorem respects_beside_checkWindow (hplace : P place) (window : Option Window) :
    Respects (Beside P a b) (checkWindow place window) := by
  refine goes_get fun s t h => ?_
  rw [h.objects.objectAt_eq hplace]
  cases window with
  | none => exact respects_pure
  | some w => exact respects_ofExcept

theorem respects_beside_write (hplace : P place) (buffer : BufferId) (window : Option Window)
    (wait : List EventId) : Respects (Beside P a b) (write buffer place window wait) := by
  refine respects_bind (respects_beside_checkWindow hplace window) fun _ => ?_
  refine respects_bind (respects_beside_count _) fun _ => goes_get fun s t h => ?_
  rw [h.objects.objectAt_eq hplace]
  exact respects_beside_submit _ _ _ (Command.local_write hplace buffer window)

theorem respects_beside_read (hplace : P place) (buffer : BufferId) (window : Option Window)
    (wait : List EventId) (blocking : Bool) :
    Respects (Beside P a b) (read buffer place window wait blocking) := by
  refine respects_bind (respects_beside_checkWindow hplace window) fun _ => ?_
  refine respects_bind (respects_beside_count _) fun _ => goes_get fun s t h => ?_
  rw [h.objects.objectAt_eq hplace]
  refine respects_bind (respects_beside_submit _ _ _ (Command.local_read hplace buffer window))
    fun event => ?_
  show Respects (Beside P a b) _
  split
  · exact respects_bind (respects_beside_drain _) fun _ => respects_pure
  · exact respects_pure

end Station

end Devices

/-! ## Stores -/

/-- What no operation of a store changes. -/
def Context.fixed (c : Context) : List Nat × List Scalar × List Task :=
  (c.places, c.constants, c.tasks)

namespace Store

variable {a b s t : Store} {object device another other : Nat}

/-- Two stores that agree in what work for one object on one device sees: the row of the object, the
device, which runs its commands at once, and the object as it is stored. Elsewhere they are as they
were, `a` and `b`. -/
structure Beside (object device : Nat) (a b s t : Store) : Prop where
  rows : Overlap (· = object) a.table.rows b.table.rows s.table.rows t.table.rows
  devices : Overlap (· = device) a.context.devices b.context.devices s.context.devices
    t.context.devices
  objects : Overlap (fun place => a.context.places[object]? = some place) a.context.objects
    b.context.objects s.context.objects t.context.objects
  fixed : s.context.fixed = a.context.fixed
  fixed_eq : t.context.fixed = s.context.fixed
  atOnce : ∀ d, s.context.devices[device]? = some d → d.options.deferred = false ∧ d.queue = []

namespace Beside

theorem place_eq (h : Beside object device a b s t) :
    t.context.place object = s.context.place object := by
  rw [Context.place, Context.place, (Prod.mk.inj h.fixed_eq).1]

theorem of_place (h : Beside object device a b s t) (hplace : s.context.place object = .ok place) :
    a.context.places[object]? = some place :=
  (Prod.mk.inj h.fixed).1 ▸ lookup_eq_ok.1 hplace

theorem record_eq (h : Beside object device a b s t) :
    t.table.record object device = s.table.record object device := by
  rw [Table.record, Table.record, Table.row, Table.row, h.rows.lookup_eq .object rfl]

theorem withTable (h : Beside object device a b s t) {table table' : Table}
    (hrows : Overlap (· = object) a.table.rows b.table.rows table.rows table'.rows) :
    Beside object device a b { s with table } { t with table := table' } :=
  { h with rows := hrows }

/-- What the device does the same at two stations it does the same in the two stores. -/
theorem respects_onDevice {x : DeviceAction α} (hx : Respects
      (Station.Beside (fun place => a.context.places[object]? = some place) a.context.objects
        b.context.objects) x) :
    Respects (Beside object device a b) (inContext (Context.onDevice device x)) := by
  rw [respects_iff] at hx ⊢
  intro s t h
  have hsame := h.devices.inside device rfl
  cases hd : s.context.devices[device]? with
  | none =>
    rw [inContext, run_focus, run_focus, Context.run_onDevice_none x hd,
      Context.run_onDevice_none x (hsame.trans hd), h.devices.length_eq]
    exact ⟨rfl, h⟩
  | some d =>
    obtain ⟨heager, hidle⟩ := h.atOnce d hd
    obtain ⟨hresult, hstation⟩ := hx ⟨d, s.context.objects, s.context.journal⟩
      ⟨d, t.context.objects, t.context.journal⟩ ⟨rfl, h.objects, heager, hidle⟩
    rw [inContext, run_focus, run_focus, Context.run_onDevice x hd,
      Context.run_onDevice x (hsame.trans hd), hresult]
    refine ⟨rfl, h.rows, ?_, hstation.objects, h.fixed, h.fixed_eq, fun d' hd' => ?_⟩
    · rw [Context.withStation, Context.withStation, hstation.device_eq]
      exact h.devices.set rfl _
    · have hset :=
        List.getElem?_set_self (a := (x.run ⟨d, s.context.objects, s.context.journal⟩).2.device)
          (List.getElem?_eq_some_iff.1 hd).1
      cases hset.symm.trans hd'
      exact ⟨hstation.eager, hstation.idle⟩

end Beside

/-- Work for an object on a device sees nothing else. -/
theorem site_beside (a b : Store) (object device : Nat) :
    Site (.same (Beside object device a b)) (Beside object device a b)
      (fun place => a.context.places[object]? = some place) Eq Eq object device := by
  have hlog : ∀ text, Respects (Beside object device a b) (log .trace text) := fun _ _ _ h =>
    ⟨rfl, { h with }⟩
  have hrecord : Respects (Beside object device a b) (record object device) := by
    refine goes_get fun s t h => ?_
    rw [h.record_eq]
    exact respects_ofExcept
  have hupdate : ∀ f, Respects (Beside object device a b) (update object device f) := fun f =>
    respects_modify fun s t h => h.withTable (h.rows.modify rfl _)
  refine site_of_seat (seat_of_parts {
      fault _ h _ := ⟨rfl, h⟩
      place := agrees_iff.2 fun s t h => ?_
      host hplace := goes_get fun s t h => goes_pure (h.objects.objectAt_eq hplace ▸ ⟨rfl, rfl⟩)
      log := hlog
      note label := respects_bind hrecord fun _ => hlog _
      look := goes_weaken hrecord fun _ _ heq => ⟨heq ▸ rfl, fun _ _ => trivial⟩
      update _ _ := hupdate _
      setOwner h := h.withTable (h.rows.modify rfl _) } ?_ (fun _ => hupdate _)
    (fun hplace bytes =>
      goes_weaken (Beside.respects_onDevice (Station.respects_beside_allocate hplace bytes))
        fun _ _ heq => heq ▸ ⟨rfl, rfl⟩)
    (fun buffer => Beside.respects_onDevice (Station.respects_beside_release buffer)))
    (fun _ h _ => ⟨rfl, h⟩) ?_ ?_
  · rw [run_place_now, run_place_now, h.place_eq]
    refine ⟨?_, h⟩
    cases hplace : s.context.place object with
    | error fault => rfl
    | ok place => exact ⟨rfl, h.of_place hplace⟩
  · refine goes_get fun s t h => ?_
    rw [Context.device, Context.device, h.devices.lookup_eq .device rfl]
    exact respects_bind respects_ofExcept fun _ => respects_pure
  · rintro wait _ place buffer window hplace rfl
    exact Beside.respects_onDevice (Station.respects_beside_write hplace buffer window wait)
  · rintro wait _ place buffer window blocking hplace rfl
    exact Beside.respects_onDevice (Station.respects_beside_read hplace buffer window wait blocking)

/-- Every operation for an object on a device does the same in two stores that agree there. -/
theorem respects_beside_operate {op : Operation} (hop : op.target? = some (object, device)) :
    Respects (Beside object device a b) (operate op) := by
  have hlocal := site_beside a b object device
  have hthen : ∀ {α : Type} {x : StoreAction α} (f : α → Option EventId),
      Respects (Beside object device a b) x → Respects (Beside object device a b) (do
        let v ← x
        return f v) := fun f hx => respects_bind hx fun _ => respects_pure
  cases op with
  | allocate o d window =>
    cases hop
    exact hlocal.same_allocate window
  | copyIn o d window wait =>
    cases hop
    exact hlocal.same_copyIn window rfl
  | streamIn o d window wait =>
    cases hop
    exact hthen some (hlocal.streamIn window rfl)
  | streamOut o d window wait blocking =>
    cases hop
    exact hthen some (hlocal.streamOut window rfl blocking)
  | validBuffer o d =>
    cases hop
    exact hthen (fun _ => none) (goes_weaken hlocal.validBuffer fun _ _ hb => hb.1)
  | claim o d =>
    cases hop
    exact hthen (fun _ => none) hlocal.claim
  | invalidate => cases hop

/-- A store before and after an operation for one object on one device agrees in what work for
another object on another device sees. -/
theorem beside_operate {op : Operation} (hop : op.target? = some (object, device))
    (hatOnce : ∀ i d, s.context.devices[i]? = some d → i = device ∨ i = other → d.RunsAtOnce)
    (hobject : another ≠ object) (hdevice : other ≠ device)
    (hstored : ∀ place, s.context.places[another]? = some place →
      s.context.places[object]? ≠ some place) :
    Beside another other s ((operate op).run s).2 s ((operate op).run s).2 := by
  have heager : ∀ i, i = device ∨ i = other → ∀ d, s.context.devices[i]? = some d →
      d.options.deferred = false ∧ d.queue = [] := fun i hi d hd =>
    ⟨(hatOnce i d hd hi).atRest.eager, (hatOnce i d hd hi).atRest.idle⟩
  have hbefore : Beside object device s s s s :=
    ⟨.refl _ _, .refl _ _, .refl _ _, rfl, rfl, heager device (.inl rfl)⟩
  obtain ⟨-, hafter⟩ := respects_iff.1 (respects_beside_operate hop) s s hbefore
  refine ⟨hafter.rows.apart ?_, hafter.devices.apart ?_, hafter.objects.apart hstored, rfl,
    hafter.fixed, heager other (.inr rfl)⟩
  · rintro i rfl
    exact hobject
  · rintro i rfl
    exact hdevice

/-- The store without its journal. -/
def quiet (s : Store) : Store := { s with context := { s.context with journal := {} } }

theorem quiet_eq (hrows : s.table.rows = t.table.rows)
    (hdevices : s.context.devices = t.context.devices)
    (hobjects : s.context.objects = t.context.objects)
    (hfixed : s.context.fixed = t.context.fixed) :
    s.quiet = t.quiet := by
  obtain ⟨⟨devices, objects, constants, tasks, journal, places⟩, ⟨rows⟩⟩ := s
  obtain ⟨⟨devices', objects', constants', tasks', journal', places'⟩, ⟨rows'⟩⟩ := t
  simp_all [quiet, Context.fixed]

/-- Independent operations commute. One operation is about one object and one device, the other is
about another object, stored elsewhere, and another device, and both devices run their commands at
once. In either order each operation gives the same event, no event, or the same fault, and the
store that is left is the same but for the order of the messages in its journal. The table may be
any. -/
theorem independent_operations_commute {s : Store} {x y : Operation} {o₁ o₂ d₁ d₂ : Nat}
    (hx : x.target? = some (o₁, d₁)) (hy : y.target? = some (o₂, d₂)) (hobjects : o₁ ≠ o₂)
    (hdevices : d₁ ≠ d₂)
    (hstored : ∀ place, s.context.places[o₁]? = some place → s.context.places[o₂]? ≠ some place)
    (hatOnce : ∀ i d, s.context.devices[i]? = some d → i = d₁ ∨ i = d₂ → d.RunsAtOnce) :
    ((operate x).run ((operate y).run s).2).1 = ((operate x).run s).1 ∧
      ((operate y).run ((operate x).run s).2).1 = ((operate y).run s).1 ∧
      ((operate y).run ((operate x).run s).2).2.quiet =
      ((operate x).run ((operate y).run s).2).2.quiet := by
  have hstored' : ∀ place, s.context.places[o₂]? = some place →
      s.context.places[o₁]? ≠ some place :=
    fun place h₂ h₁ => hstored place h₁ h₂
  have hfirst := beside_operate hx hatOnce hobjects.symm hdevices.symm hstored'
  have hsecond := beside_operate hy (fun i d hd hi => hatOnce i d hd hi.symm) hobjects
    hdevices hstored
  obtain ⟨hx', hX⟩ := Action.respects_iff.1 (respects_beside_operate hx) _ _ hsecond
  obtain ⟨hy', hY⟩ := Action.respects_iff.1 (respects_beside_operate hy) _ _ hfirst
  refine ⟨hx'.symm, hy'.symm, quiet_eq (hX.rows.eq_of_apart ?_ hY.rows)
    (hX.devices.eq_of_apart ?_ hY.devices) (hX.objects.eq_of_apart hstored hY.objects) ?_⟩
  · rintro i rfl
    exact hobjects
  · rintro i rfl
    exact hdevices
  · rw [hY.fixed_eq, hY.fixed, hX.fixed_eq, hX.fixed]

/-- A store with two devices and two objects. The first device has half of the first object, the
second device has bytes that the second object has not. -/
def paired : Store where
  context :=
    { devices := [
        (Station.operated [.allocate 0 2, .write 0 0 (some ⟨0, 2⟩) []]
          (Station.opened "d0" {} .builtin [⟨"a", [1, 2, 3, 4]⟩, ⟨"b", [5, 6]⟩])).device,
        (Station.operated [.allocate 1 2]
          (Station.opened "d1" {} .builtin [⟨"a", [1, 2, 3, 4]⟩, ⟨"b", [5, 6]⟩])).device]
      objects := [⟨"a", [1, 2, 3, 4]⟩, ⟨"b", [5, 6]⟩]
      constants := []
      tasks := [] }
  table :=
    ⟨[{ records := [{ allocation := some ⟨0, 2⟩, valid := true, window := some ⟨0, 2⟩ }, {}] },
      { records := [{}, { allocation := some ⟨0, 2⟩, valid := true, modified := true }] }]⟩

/-- All of the first object is sent to the first device, which needs a larger buffer for it, and the
second object is read back from the second device. -/
theorem independent_operations_commute_paired :
    let x : Operation := .streamIn 0 0 none []
    let y : Operation := .streamOut 1 1 none [] true
    ((operate x).run ((operate y).run paired).2).1 = .ok (some 3) ∧
      ((operate y).run ((operate x).run paired).2).1 = .ok (some 1) ∧
      ((operate y).run ((operate x).run paired).2).2.quiet =
      ((operate x).run ((operate y).run paired).2).2.quiet ∧
      ((operate x).run ((operate y).run paired).2).2.context.objects =
      [⟨"a", [1, 2, 3, 4]⟩, ⟨"b", [0, 0]⟩] := by
  intro x y
  have hatOnce : ∀ i d, paired.context.devices[i]? = some d → i = 0 ∨ i = 1 → d.RunsAtOnce := by
    intro i d hd hi
    rcases hi with rfl | rfl <;> cases hd <;> exact ⟨_, _, _, _, _, rfl, rfl⟩
  obtain ⟨hx, hy, hsame⟩ := independent_operations_commute (s := paired) (x := x)
    (y := y) rfl rfl (by decide) (by decide) (fun place hplace => by cases hplace; decide) hatOnce
  exact ⟨hx.trans rfl, hy.trans rfl, hsame, rfl⟩

end Store

end Offload
