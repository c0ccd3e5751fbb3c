import Offload.Proofs.Residency

/-!
# How the operations of a store end

An operation of a store looks at the object, the device, the window and the record, and it ends
there if one of them is not as it has to be. After that only the device can fail: what the operation
has found is still there when it is looked up again. So a fault that is not the device's leaves the
store as it was.

The relations `Allocating`, `Sending` and `Fetching` say all that can come of an operation, in terms
of what the device does at its station.
-/

namespace Offload

open Offload.Action

variable {α β : Type}

@[simp] theorem Action.run_ofExcept {σ ε : Type} (r : Except ε α) (s : σ) :
    (Action.ofExcept r).run s = (r, s) := by
  cases r <;> rfl

theorem Action.run_bind_of_error {σ ε : Type} {x : Action σ ε α} {f : α → Action σ ε β}
    {s t : σ} {e : ε} (h : x.run s = (.error e, t)) : (x >>= f).run s = (.error e, t) := by
  rw [run_bind, h]

/-- A fault of an operation followed by a result is a fault of the operation. -/
theorem Action.run_of_error_bind {σ ε : Type} {x : Action σ ε α} {f : α → β} {s t : σ} {e : ε}
    (h : (x >>= fun a => pure (f a)).run s = (.error e, t)) : x.run s = (.error e, t) := by
  rcases hx : x.run s with ⟨v, t'⟩
  cases v with
  | error e' =>
    rw [run_bind_of_error hx] at h
    obtain ⟨he, rfl⟩ := Prod.mk.inj h
    rw [Except.error.inj he]
  | ok a =>
    rw [run_bind_of_ok hx] at h
    cases (Prod.mk.inj h).1

/-- The station of a device of a context. -/
def Context.station (c : Context) (d : Device) : Station := ⟨d, c.objects, c.journal⟩

theorem Station.size_eq_of_empty : 0 = ([] : List EventRecord).length := rfl

namespace Store

variable {s : Store} {object device : Nat} {window : Option Window} {d : Device} {r : Record}
variable {s' s₁ : Store} {place : Nat} {d₁ : Device} {v : Except Fault (Option EventId)}
  {x : DeviceAction α}
variable {a : Allocation}

/-- The number of bytes of a window of an object, or of all of it. -/
def bytesOf (s : Store) (object : Nat) (window : Option Window) : Nat :=
  match s.context.place object with
  | .ok place => (window.getD (.whole (objectAt s.context.objects place).length)).size
  | .error _ => 0

/-! ## Looking -/

/-- A look that succeeds or fails leaves the store to what follows, or to nobody. -/
theorem look_cases {x : StoreAction α} {v : Except Fault α} (hx : x.run s = (v, s))
    (f : α → StoreAction β) :
    (∃ fault, v = .error fault ∧ (x >>= f).run s = (.error fault, s)) ∨
      ∃ a, v = .ok a ∧ (x >>= f).run s = (f a).run s := by
  cases v with
  | error fault => exact .inl ⟨fault, rfl, run_bind_of_error hx⟩
  | ok a => exact .inr ⟨a, rfl, run_bind_of_ok hx⟩

theorem run_place_now (s : Store) (object : Nat) :
    (Store.place object).run s = (s.context.place object, s) :=
  run_ofExcept _ s

theorem run_place_of_some (h : s.context.places[object]? = some place) :
    (Store.place object).run s = (.ok place, s) :=
  (run_place_now s object).trans (congrArg (·, s) (lookup_eq_ok.2 h))

theorem run_host_now (s : Store) (place : Nat) :
    (host place).run s = (.ok (objectAt s.context.objects place), s) := rfl

theorem run_record_now (s : Store) (object device : Nat) :
    (record object device).run s = (s.table.record object device, s) :=
  run_ofExcept _ s

theorem run_record_of_get? (hr : s.table.get? object device = some r) :
    (record object device).run s = (.ok r, s) :=
  (run_record_now s object device).trans (congrArg (·, s) (Table.record_eq_ok.2 hr))

/-- The store with a message added to its journal. -/
def logged (s : Store) (text : String) : Store := { s with context := s.context.log .trace text }

theorem run_log_now (s : Store) (text : String) :
    (log .trace text).run s = (.ok (), s.logged text) := rfl

theorem run_update_now (s : Store) (object device : Nat) (f : Record → Record) :
    (update object device f).run s = (.ok (), { s with table := s.table.update object device f }) :=
  rfl

theorem run_requireDevice_now (s : Store) (device : Nat) :
    (requireDevice device).run s = ((s.context.device device).map fun _ => (), s) := by
  rw [requireDevice, run_bind_of_ok (run_get s), run_bind, run_ofExcept]
  cases s.context.device device <;> rfl

theorem run_checkWindow_now (s : Store) (object length : Nat) (window : Option Window) :
    ∃ v, (checkWindow object length window).run s = (v, s) ∧
      (v = .ok () ↔ (Command.range window length).fits length = true) := by
  cases window with
  | none => exact ⟨_, rfl, iff_of_true rfl (Window.fits_whole length)⟩
  | some w =>
    rw [checkWindow]
    split
    · rename_i hfits
      exact ⟨_, rfl, iff_of_true rfl hfits⟩
    · rename_i hfits
      exact ⟨_, rfl, iff_of_false (fun hv => by cases hv) hfits⟩

theorem keeps_label {I : Store → Prop} (index : Nat) : Keeps I (label index) :=
  keeps_bind (keeps_get fun _ => keeps_ofExcept) fun _ =>
    keeps_bind (keeps_get fun _ => keeps_pure) fun _ => keeps_pure

theorem keeps_validBuffer {I : Store → Prop} (object device : Nat) :
    Keeps I (validBuffer object device) := by
  refine keeps_bind (keeps_get fun _ => keeps_ofExcept) fun r => ?_
  split
  · exact keeps_pure
  · exact keeps_bind (keeps_label object) fun _ => keeps_throw

/-- The object of an index and the device of another are there. -/
structure Finds (s : Store) (object device place : Nat) (d : Device) : Prop where
  place : s.context.places[object]? = some place
  device : s.context.devices[device]? = some d

/-- A window lies inside the object at a place. -/
def Admits (s : Store) (place : Nat) (window : Option Window) : Prop :=
  (Command.range window (Command.lengths s.context.objects place)).fits
    (Command.lengths s.context.objects place) = true

/-- The object, the device and the window are looked at before anything is done. -/
theorem required_cases (s : Store) (object device : Nat) (window : Option Window)
    (f : Nat → HostObject → StoreAction β) {x : StoreAction β}
    (hx : x = (do
      let place ← Store.place object
      let host ← Store.host place
      requireDevice device
      checkWindow object host.length window
      f place host)) :
    (∃ fault, (∀ place d, s.Finds object device place d → ¬s.Admits place window) ∧
      x.run s = (.error fault, s)) ∨
    ∃ place d, s.Finds object device place d ∧ s.Admits place window ∧
      x.run s = (f place (objectAt s.context.objects place)).run s := by
  subst hx
  rcases look_cases (run_place_now s object) _ with ⟨fault, hplace, hrun⟩ | ⟨place, hplace, hrun⟩
  · refine .inl ⟨fault, fun place d hfound _ => ?_, hrun⟩
    cases hplace.symm.trans (lookup_eq_ok.2 hfound.place)
  rw [hrun, run_bind_of_ok (run_host_now s place)]
  rcases hd : s.context.device device with fault | d
  · have hrequire : (requireDevice device).run s = (.error fault, s) := by
      rw [run_requireDevice_now, hd]; rfl
    refine .inl ⟨fault, fun place d hfound _ => ?_, run_bind_of_error hrequire⟩
    cases hd.symm.trans (lookup_eq_ok.2 hfound.device)
  have hrequire : (requireDevice device).run s = (.ok (), s) := by
    rw [run_requireDevice_now, hd]
    rfl
  obtain ⟨v, hwindow, hfits⟩ :=
    run_checkWindow_now s object (objectAt s.context.objects place).length window
  rw [run_bind_of_ok hrequire]
  rcases look_cases hwindow _ with ⟨fault, hv, hrun⟩ | ⟨_, hv, hrun⟩
  · refine .inl ⟨fault, fun place' d hfound hadmits => ?_, hrun⟩
    cases (lookup_eq_ok.1 hplace).symm.trans hfound.place
    cases hv.symm.trans (hfits.2 hadmits)
  · exact .inr ⟨place, d, ⟨lookup_eq_ok.1 hplace, lookup_eq_ok.1 hd⟩, hfits.1 hv, hrun⟩

theorem record_cases (s : Store) (object device : Nat) (f : Record → StoreAction β) :
    (∃ fault, s.table.get? object device = none ∧
      (record object device >>= f).run s = (.error fault, s)) ∨
      ∃ r, s.table.get? object device = some r ∧
      (record object device >>= f).run s = (f r).run s := by
  rcases look_cases (run_record_now s object device) f with ⟨fault, hnone, hrun⟩ | ⟨r, hr, hrun⟩
  · refine .inl ⟨fault, Option.eq_none_iff_forall_ne_some.2 fun r hr => ?_, hrun⟩
    cases hnone.symm.trans (Table.record_eq_ok.2 hr)
  · exact .inr ⟨r, Table.record_eq_ok.1 hr, hrun⟩

/-! ## Doing -/

/-- The store after a device has worked at its station. -/
def onStation (s : Store) (device : Nat) (t : Station) : Store :=
  { s with context := s.context.withStation device t }

/-- The store after a device has worked at its station and a record was changed for it and noted. -/
def entered (s : Store) (object device : Nat) (t : Station) (f : Record → Record) (text : String) :
    Store :=
  ⟨(s.context.withStation device t).log .trace text, s.table.update object device f⟩

theorem run_onDevice_of_ok {a : α} {t : Station} (hd : s.context.devices[device]? = some d)
    (hx : x.run (s.context.station d) = (.ok a, t)) :
    (inContext (Context.onDevice device x)).run s = (.ok a, s.onStation device t) := by
  rw [inContext, run_focus, Context.run_onDevice x hd]
  unfold Context.station at hx
  rw [hx]
  rfl

theorem run_onDevice_of_error {fault : DeviceFault} {t : Station}
    (hd : s.context.devices[device]? = some d)
    (hx : x.run (s.context.station d) = (.error fault, t)) :
    (inContext (Context.onDevice device x)).run s =
      (.error (.device fault), s.onStation device t) := by
  rw [inContext, run_focus, Context.run_onDevice x hd]
  unfold Context.station at hx
  rw [hx]
  rfl

/-- There is no such device, or it has worked at its station. -/
theorem onDevice_cases {s' : Store} {v : Except Fault α}
    (h : (inContext (Context.onDevice device x)).run s = (v, s')) :
    (s' = s ∧ v = .error (.indexOutOfRange .device device s.context.devices.length)) ∨
    ∃ d, s.context.devices[device]? = some d ∧
    v = (x.run (s.context.station d)).1.mapError .device ∧
      s' = s.onStation device (x.run (s.context.station d)).2 := by
  rw [inContext, run_focus] at h
  cases hd : s.context.devices[device]? with
  | none =>
    rw [Context.run_onDevice_none x hd] at h
    cases h
    exact .inl ⟨rfl, rfl⟩
  | some d =>
    rw [Context.run_onDevice x hd] at h
    cases h
    exact .inr ⟨d, rfl, rfl, rfl⟩

/-- The device works, and the record that was there before is changed and noted. -/
theorem run_entered_of_ok {a : α} {t : Station} (hd : s.context.devices[device]? = some d)
    (hr : s.table.get? object device = some r) (hx : x.run (s.context.station d) = (.ok a, t))
    (f : α → Record → Record) (label : String) (y : α → StoreAction β) :
    ∃ text, (do
      let a ← inContext (Context.onDevice device x)
      update object device (f a)
      note label object device
      y a : StoreAction β).run s = (y a).run (s.entered object device t (f a) text) := by
  have hrecord : (s.table.update object device (f a)).record object device = .ok (f a r) := by
    rw [Table.record_eq_ok, Table.get?_update, if_pos ⟨rfl, rfl⟩, hr, Option.map_some]
  have hnote : (note label object device).run
      ⟨s.context.withStation device t, s.table.update object device (f a)⟩ =
        (.ok (), s.entered object device t (f a)
          ("residency: " ++ label ++ " on device " ++ toString device ++ ": " ++
            (f a r).text)) := by
    rw [note, run_bind_of_ok ((run_record_now _ object device).trans (congrArg (·, _) hrecord))]
    rfl
  refine ⟨"residency: " ++ label ++ " on device " ++ toString device ++ ": " ++ (f a r).text, ?_⟩
  rw [run_bind_of_ok (run_onDevice_of_ok hd hx), run_bind_of_ok (run_update_now _ object device _)]
  exact run_bind_of_ok hnote

/-! ## Buffers -/

/-- A store in which a device has no buffer for an object: it had none, or it has given it up. -/
inductive Vacated (s : Store) (object device : Nat) (d : Device) (r : Record) :
    Store → Device → Prop where
  | bare (hbare : r.allocation = none) : Vacated s object device d r s d
  | discarded {a : Allocation} {text : String} {t : Station} (ha : r.allocation = some a)
      (hrelease : (Station.release a.buffer).run ((s.context.log .trace text).station d) =
        (.ok (), t)) :
      Vacated s object device d r
        ⟨(s.context.log .trace text).withStation device t, s.table.update object device fun _ => {}⟩
        t.device

/-- What can come of asking for a buffer. -/
inductive Allocating (s : Store) (object device : Nat) (window : Option Window) :
    Except Fault (Option EventId) → Store → Prop where
  /-- Something is not as it has to be. -/
  | refused {fault : Fault}
    (hrefused : ∀ place d r, s.Finds object device place d → s.Admits place window →
      s.table.get? object device ≠ some r) : Allocating s object device window (.error fault) s
  /-- There is a buffer that is large enough. -/
  | roomy {place : Nat} {d : Device} {r : Record} {a : Allocation}
    (hfound : s.Finds object device place d)
      (hadmits : s.Admits place window) (hr : s.table.get? object device = some r)
      (ha : r.allocation = some a) (hroom : s.bytesOf object window ≤ a.bytes) :
      Allocating s object device window (.ok none) s
  /-- A buffer that is too small cannot be given up. -/
  | stuck {place : Nat} {d : Device} {r : Record} {a : Allocation} {text : String}
    {fault : DeviceFault}
      {t : Station} (hfound : s.Finds object device place d)
      (hr : s.table.get? object device = some r) (ha : r.allocation = some a)
      (hsmall : a.bytes < s.bytesOf object window)
      (hrelease : (Station.release a.buffer).run ((s.context.log .trace text).station d) =
        (.error fault, t)) :
      Allocating s object device window (.error (.device fault))
        ⟨(s.context.log .trace text).withStation device t, s.table⟩
  /-- There is no memory for a new buffer. -/
  | exhausted {place : Nat} {d d₁ : Device} {r : Record} {s₁ : Store} {fault : DeviceFault}
    {t : Station}
      (hfound : s.Finds object device place d) (hr : s.table.get? object device = some r)
      (hsmall : ∀ a, r.allocation = some a → a.bytes < s.bytesOf object window)
      (hvacated : s.Vacated object device d r s₁ d₁)
      (hallocate : (Station.allocate place (s.bytesOf object window)).run (s₁.context.station d₁) =
        (.error fault, t)) :
      Allocating s object device window (.error (.device fault)) (s₁.onStation device t)
  /-- There is a new buffer. -/
  | made {place : Nat} {d d₁ : Device} {r : Record} {s₁ : Store} {b : BufferId} {event : EventId}
    {t : Station}
      {text : String} (hfound : s.Finds object device place d) (hadmits : s.Admits place window)
      (hr : s.table.get? object device = some r)
      (hsmall : ∀ a, r.allocation = some a → a.bytes < s.bytesOf object window)
      (hvacated : s.Vacated object device d r s₁ d₁)
      (hallocate : (Station.allocate place (s.bytesOf object window)).run (s₁.context.station d₁) =
        (.ok (b, event), t)) :
      Allocating s object device window (.ok (some event))
        (s₁.entered object device t
          (fun r => { r with allocation := some ⟨b, s.bytesOf object window⟩ }) text)

theorem Vacated.finds (h : s.Vacated object device d r s₁ d₁)
    (hfound : s.Finds object device place d) :
    s₁.Finds object device place d₁ := by
  cases h with
  | bare => exact hfound
  | discarded ha hrelease =>
    refine ⟨hfound.place, ?_⟩
    exact List.getElem?_set_self (List.getElem?_eq_some_iff.1 hfound.device).1

theorem Vacated.get? (h : s.Vacated object device d r s₁ d₁)
    (hr : s.table.get? object device = some r) :
    ∃ r₁, s₁.table.get? object device = some r₁ := by
  cases h with
  | bare => exact ⟨r, hr⟩
  | discarded ha hrelease =>
    rw [Table.get?_update, if_pos ⟨rfl, rfl⟩, hr]
    exact ⟨{}, rfl⟩

theorem allocating_provide (label : String) (hfound : s.Finds object device place d)
    (hadmits : s.Admits place window) (hr : s.table.get? object device = some r)
    (hsmall : ∀ a, r.allocation = some a → a.bytes < s.bytesOf object window)
    (hvacated : s.Vacated object device d r s₁ d₁) (hrun : (do
      let event ← provide label place object device (s.bytesOf object window)
      return some event : StoreAction (Option EventId)).run s₁ = (v, s')) :
    s.Allocating object device window v s' := by
  have hfound₁ := hvacated.finds hfound
  obtain ⟨r₁, hr₁⟩ := hvacated.get? hr
  rcases hallocate : (Station.allocate place (s.bytesOf object window)).run
    (s₁.context.station d₁) with
    ⟨v₁, t⟩
  cases v₁ with
  | error fault =>
    have hprovide : (provide label place object device (s.bytesOf object window)).run s₁ =
        (.error (.device fault), s₁.onStation device t) :=
      run_bind_of_error (run_onDevice_of_error hfound₁.device hallocate)
    rw [run_bind_of_error hprovide] at hrun
    cases hrun
    exact .exhausted hfound hr hsmall hvacated hallocate
  | ok made =>
    obtain ⟨b, event⟩ := made
    obtain ⟨text, hprovide⟩ := run_entered_of_ok hfound₁.device hr₁ hallocate
      (fun made r => { r with allocation := some ⟨made.1, s.bytesOf object window⟩ }) label
      fun made => (pure made.2 : StoreAction EventId)
    have hprovide : (provide label place object device (s.bytesOf object window)).run s₁ = _ :=
      hprovide
    rw [run_bind_of_ok hprovide] at hrun
    cases hrun
    exact .made hfound hadmits hr hsmall hvacated hallocate

theorem allocating_grow {label text : String} (hfound : s.Finds object device place d)
    (hadmits : s.Admits place window) (hr : s.table.get? object device = some r)
    (ha : r.allocation = some a) (hsmall : a.bytes < s.bytesOf object window) (hrun : (do
      discard a.buffer object device
      let event ← provide label place object device (s.bytesOf object window)
      return some event : StoreAction (Option EventId)).run (s.logged text) = (v, s')) :
    s.Allocating object device window v s' := by
  have hd : (s.logged text).context.devices[device]? = some d := hfound.device
  rcases hrelease : (Station.release a.buffer).run ((s.context.log .trace text).station d) with
    ⟨v₁, t⟩
  cases v₁ with
  | error fault =>
    have hdiscard : (discard a.buffer object device).run (s.logged text) =
        (.error (.device fault), (s.logged text).onStation device t) :=
      run_bind_of_error (run_onDevice_of_error hd hrelease)
    rw [run_bind_of_error hdiscard] at hrun
    cases hrun
    exact .stuck hfound hr ha hsmall hrelease
  | ok u =>
    have hdiscard : (discard a.buffer object device).run (s.logged text) =
        (.ok (), ⟨(s.context.log .trace text).withStation device t,
          s.table.update object device fun _ => {}⟩) :=
      run_bind_of_ok (run_onDevice_of_ok hd hrelease)
    rw [run_bind_of_ok hdiscard] at hrun
    refine allocating_provide label hfound hadmits hr ?_ (.discarded ha hrelease) hrun
    intro a' ha'
    exact Option.some.inj (ha.symm.trans ha') ▸ hsmall

theorem bytesOf_eq (h : s.context.places[object]? = some place) (window : Option Window) :
    s.bytesOf object window =
      (window.getD (.whole (objectAt s.context.objects place).length)).size := by
  rw [bytesOf, Context.place, lookup_eq_ok.2 h]

/-- All that can come of asking for a buffer. -/
theorem allocating_of_run (hrun : (allocate object device window).run s = (v, s')) :
    s.Allocating object device window v s' := by
  rcases required_cases s object device window _ (x := allocate object device window) rfl with
    ⟨fault, hrefused, hfault⟩ | ⟨place, d, hfound, hadmits, hbody⟩
  · rw [hfault] at hrun
    cases hrun
    exact .refused fun place d _ hfound hadmits => absurd hadmits (hrefused place d hfound)
  rw [hbody] at hrun
  rcases record_cases s object device _ with ⟨fault, hnone, hfault⟩ | ⟨r, hr, hbody⟩
  · rw [hfault] at hrun
    cases hrun
    exact .refused fun _ _ r _ _ hr => by cases hnone.symm.trans hr
  rw [hbody, ← bytesOf_eq hfound.place window] at hrun
  cases ha : r.allocation with
  | none =>
    rw [ha] at hrun
    refine allocating_provide _ hfound hadmits hr ?_ (.bare ha) hrun
    intro a hsome
    rw [ha] at hsome
    cases hsome
  | some a =>
    rw [ha] at hrun
    dsimp only at hrun
    split at hrun
    · rename_i hroom
      cases hrun
      exact .roomy hfound hadmits hr ha hroom
    · rename_i hroom
      have hsmall := Nat.lt_of_not_le hroom
      rw [run_bind_of_ok (run_log_now s _)] at hrun
      exact allocating_grow hfound hadmits hr ha hsmall hrun

/-- After a buffer was found or made the device has one that is large enough. -/
theorem Allocating.room {v : Option EventId} (h : s.Allocating object device window (.ok v) s') :
    ∃ place d r a, s.context.places[object]? = some place ∧ s'.Finds object device place d ∧
      s'.table.get? object device = some r ∧ r.allocation = some a ∧
      s.bytesOf object window ≤ a.bytes := by
  cases h with
  | roomy hfound hadmits hr ha hroom => exact ⟨_, _, _, _, hfound.place, hfound, hr, ha, hroom⟩
  | @made place d d₁ r s₁ b event t text hfound hadmits hr hsmall hvacated hallocate =>
    have hfound₁ := hvacated.finds hfound
    obtain ⟨r₁, hr₁⟩ := hvacated.get? hr
    refine ⟨place, t.device, { r₁ with allocation := some ⟨b, s.bytesOf object window⟩ },
      ⟨b, s.bytesOf object window⟩, hfound.place, ⟨hfound₁.place, ?_⟩, ?_, rfl, Nat.le_refl _⟩
    · exact List.getElem?_set_self (List.getElem?_eq_some_iff.1 hfound₁.device).1
    · rw [entered, Table.get?_update, if_pos ⟨rfl, rfl⟩, hr₁, Option.map_some]

theorem run_allocate_of_room (hfound : s.Finds object device place d)
    (hadmits : s.Admits place window) (hr : s.table.get? object device = some r)
    (ha : r.allocation = some a) (hroom : s.bytesOf object window ≤ a.bytes) :
    (allocate object device window).run s = (.ok none, s) := by
  have hsame : ∀ {r'}, s.table.get? object device = some r' → r'.allocation = some a := fun hr' =>
    Option.some.inj (hr.symm.trans hr') ▸ ha
  rcases hrun : (allocate object device window).run s with ⟨v, s'⟩
  cases allocating_of_run hrun with
  | refused hrefused => exact absurd hr (hrefused place d r hfound hadmits)
  | roomy => rfl
  | stuck hfound hr' ha' hsmall hrelease =>
    cases (hsame hr').symm.trans ha'
    exact absurd hroom (Nat.not_le.2 hsmall)
  | exhausted hfound hr' hsmall => exact absurd hroom (Nat.not_le.2 (hsmall a (hsame hr')))
  | made hfound hadmits hr' hsmall => exact absurd hroom (Nat.not_le.2 (hsmall a (hsame hr')))

/-! ## Transfers -/

theorem run_bufferOf_of_some (hr : s.table.get? object device = some r) (ha : r.allocation = some a)
    (label : String) : (bufferOf label object device).run s = (.ok a.buffer, s) := by
  rw [bufferOf, run_bind_of_ok (run_record_of_get? hr), Record.buffer, ha]
  rfl

theorem bufferOf_cases (s : Store) (label : String) (object device : Nat) :
    (∃ fault, (∀ r, s.table.get? object device = some r → r.allocation = none) ∧
      (bufferOf label object device).run s = (.error fault, s)) ∨
      ∃ r a, s.table.get? object device = some r ∧ r.allocation = some a ∧
        (bufferOf label object device).run s = (.ok a.buffer, s) := by
  rcases record_cases s object device _ with ⟨fault, hnone, hrun⟩ | ⟨r, hr, hrun⟩
  · exact .inl ⟨fault, fun r hr => (by cases hnone.symm.trans hr), hrun⟩
  · cases ha : r.allocation with
    | none =>
      refine .inl ⟨.objectNotAllocated object label device, fun r' hr' => ?_, hrun.trans ?_⟩
      · rw [← Option.some.inj (hr.symm.trans hr'), ha]
      · rw [Record.buffer, ha]
        rfl
    | some a => exact .inr ⟨r, a, hr, ha, run_bufferOf_of_some hr ha label⟩

/-- A transfer is up to the device, and a record is changed after it. -/
theorem transfer_cases {x : DeviceAction EventId} (hd : s.context.devices[device]? = some d)
    (hr : s.table.get? object device = some r) (f : Record → Record) (label : String)
    {y : StoreAction EventId} (hy : y = (do
      let event ← inContext (Context.onDevice device x)
      update object device f
      note label object device
      return event)) :
    (∃ fault t, x.run (s.context.station d) = (.error fault, t) ∧
      y.run s = (.error (.device fault), s.onStation device t)) ∨
    ∃ event t text, x.run (s.context.station d) = (.ok event, t) ∧
      y.run s = (.ok event, s.entered object device t f text) := by
  subst hy
  rcases hx : x.run (s.context.station d) with ⟨v, t⟩
  cases v with
  | error fault => exact .inl ⟨fault, t, rfl, run_bind_of_error (run_onDevice_of_error hd hx)⟩
  | ok event =>
    obtain ⟨text, hrun⟩ := run_entered_of_ok hd hr hx (fun _ => f) label
      fun event => (pure event : StoreAction EventId)
    exact .inr ⟨event, t, text, rfl, hrun⟩

/-- What can come of sending a window to a device. -/
inductive Sending (s : Store) (object device : Nat) (window : Option Window) (wait : List EventId) :
    Except Fault EventId → Store → Prop where
  /-- The device does not come by a buffer. -/
  | unready {fault : Fault} {s₁ : Store}
    (hallocate : (allocate object device window).run s = (.error fault, s₁)) :
      Sending s object device window wait (.error fault) s₁
  /-- The device fails. -/
  | failed {made : Option EventId} {s₁ : Store} {place : Nat} {d : Device} {a : Allocation}
      {r : Record} {fault : DeviceFault} {t : Station}
      (hallocate : (allocate object device window).run s = (.ok made, s₁))
      (hfound : s₁.Finds object device place d) (hr : s₁.table.get? object device = some r)
      (ha : r.allocation = some a)
      (hwrite : (Station.write a.buffer place window wait).run (s₁.context.station d) =
        (.error fault, t)) :
      Sending s object device window wait (.error (.device fault)) (s₁.onStation device t)
  /-- The window is on its way. -/
  | sent {made : Option EventId} {s₁ : Store} {place : Nat} {d : Device} {r : Record}
    {a : Allocation}
      {event : EventId} {t : Station} {text : String}
      (hallocate : (allocate object device window).run s = (.ok made, s₁))
      (hfound : s₁.Finds object device place d) (hr : s₁.table.get? object device = some r)
      (ha : r.allocation = some a)
      (hwrite : (Station.write a.buffer place window wait).run (s₁.context.station d) =
        (.ok event, t)) :
      Sending s object device window wait (.ok event)
        (s₁.entered object device t (fun r => r.sent window) text)

/-- What can come of reading a window back. -/
inductive Fetching (s : Store) (object device : Nat) (window : Option Window) (wait : List EventId)
    (blocking : Bool) : Except Fault EventId → Store → Prop where
  /-- Something is not as it has to be. -/
  | refused {fault : Fault}
    (hrefused : ∀ place d r, s.Finds object device place d → s.Admits place window →
      s.table.get? object device = some r → r.allocation = none) :
      Fetching s object device window wait blocking (.error fault) s
  /-- The device fails. -/
  | failed {place : Nat} {d : Device} {r : Record} {a : Allocation} {fault : DeviceFault}
    {t : Station}
      (hfound : s.Finds object device place d) (hr : s.table.get? object device = some r)
      (ha : r.allocation = some a)
      (hread : (Station.read a.buffer place window wait blocking).run (s.context.station d) =
        (.error fault, t)) :
      Fetching s object device window wait blocking (.error (.device fault)) (s.onStation device t)
  /-- The window is on its way. -/
  | fetched {place : Nat} {d : Device} {r : Record} {a : Allocation} {event : EventId} {t : Station}
      {text : String} (hfound : s.Finds object device place d) (hadmits : s.Admits place window)
      (hr : s.table.get? object device = some r) (ha : r.allocation = some a)
      (hread : (Station.read a.buffer place window wait blocking).run (s.context.station d) =
        (.ok event, t)) :
      Fetching s object device window wait blocking (.ok event)
      (s.entered object device t Record.fetched text)

variable {wait : List EventId}

/-- All that can come of sending a window to a device. -/
theorem sending_of_run {v : Except Fault EventId}
    (hrun : (streamIn object device window wait).run s = (v, s')) :
    s.Sending object device window wait v s' := by
  rcases hallocate : (allocate object device window).run s with ⟨v₁, s₁⟩
  cases v₁ with
  | error fault =>
    rw [streamIn, run_bind_of_error hallocate] at hrun
    cases hrun
    exact .unready hallocate
  | ok made =>
    obtain ⟨place, d, r, a, -, hfound, hr, ha, -⟩ := (allocating_of_run hallocate).room
    rw [streamIn, run_bind_of_ok hallocate, run_bind_of_ok (run_place_of_some hfound.place),
      run_bind_of_ok (run_host_now s₁ place),
      run_bind_of_ok (run_bufferOf_of_some hr ha _)] at hrun
    rcases transfer_cases (x := Station.write a.buffer place window wait) hfound.device hr
      (fun r => r.sent window) (objectAt s₁.context.objects place).label rfl with
      ⟨fault, t, hwrite, htail⟩ | ⟨event, t, text, hwrite, htail⟩
    · rw [htail] at hrun
      cases hrun
      exact .failed hallocate hfound hr ha hwrite
    · rw [htail] at hrun
      cases hrun
      exact .sent hallocate hfound hr ha hwrite

/-- All that can come of reading a window back. -/
theorem fetching_of_run {blocking : Bool} {v : Except Fault EventId}
    (hrun : (streamOut object device window wait blocking).run s = (v, s')) :
    s.Fetching object device window wait blocking v s' := by
  rcases required_cases s object device window _ (x := streamOut object device window wait blocking)
    rfl with
    ⟨fault, hrefused, hfault⟩ | ⟨place, d, hfound, hadmits, hbody⟩
  · rw [hfault] at hrun
    cases hrun
    exact .refused fun place d _ hfound hadmits => absurd hadmits (hrefused place d hfound)
  rw [hbody] at hrun
  rcases bufferOf_cases s (objectAt s.context.objects place).label object device with
    ⟨fault, hnone, hfault⟩ | ⟨r, a, hr, ha, hbuffer⟩
  · rw [run_bind_of_error hfault] at hrun
    cases hrun
    exact .refused fun _ _ r _ _ hr => hnone r hr
  rw [run_bind_of_ok hbuffer] at hrun
  rcases transfer_cases (x := Station.read a.buffer place window wait blocking) hfound.device hr
    Record.fetched (objectAt s.context.objects place).label rfl with
    ⟨fault, t, hread, htail⟩ | ⟨event, t, text, hread, htail⟩
  · rw [htail] at hrun
    cases hrun
    exact .failed hfound hr ha hread
  · rw [htail] at hrun
    cases hrun
    exact .fetched hfound hadmits hr ha hread

/-- What can come of sending a window that the device may hold already. -/
inductive Copying (s : Store) (object device : Nat) (window : Option Window) (wait : List EventId) :
    Except Fault (Option EventId) → Store → Prop where
  /-- There is no such record. -/
  | refused {fault : Fault} (hnone : s.table.get? object device = none) :
      Copying s object device window wait (.error fault) s
  /-- The device holds the window. -/
  | held {r : Record} {text : String} (hr : s.table.get? object device = some r)
      (hholds : r.holds window = true) : Copying s object device window wait (.ok none)
      (s.logged text)
  /-- The window is sent, or that fails. -/
  | sending {r : Record} {v : Except Fault EventId} {s' : Store}
    (hr : s.table.get? object device = some r)
      (hholds : r.holds window = false) (hsending : s.Sending object device window wait v s') :
      Copying s object device window wait (v.map some) s'

/-- All that can come of sending a window that the device may hold already. -/
theorem copying_of_run (hrun : (copyIn object device window wait).run s = (v, s')) :
    s.Copying object device window wait v s' := by
  rcases record_cases s object device _ with ⟨fault, hnone, hfault⟩ | ⟨r, hr, hbody⟩
  · rw [copyIn, hfault] at hrun
    cases hrun
    exact .refused hnone
  rw [copyIn, hbody] at hrun
  cases hholds : r.holds window with
  | true =>
    rw [if_pos hholds, run_bind_of_ok (run_log_now s _)] at hrun
    cases hrun
    exact .held hr hholds
  | false =>
    rw [if_neg (by simp [hholds])] at hrun
    rcases hstream : (streamIn object device window wait).run s with ⟨v₁, s₁⟩
    have hsending := sending_of_run hstream
    cases v₁ with
    | error fault =>
      rw [run_bind_of_error hstream] at hrun
      cases hrun
      exact .sending hr hholds hsending
    | ok event =>
      rw [run_bind_of_ok hstream] at hrun
      cases hrun
      exact .sending hr hholds hsending

theorem run_claim_of_get? (hr : s.table.get? object device = some r) :
    ∃ text, (claim object device).run s = (.ok (), ⟨s.context.log .trace text,
      (s.table.update object device Record.written).setOwner object device⟩) :=
  ⟨_, run_bind_of_ok (run_record_of_get? hr)⟩

theorem run_validBuffer_of_get? {a : Allocation} (hr : s.table.get? object device = some r)
    (ha : r.allocation = some a) (hvalid : r.valid = true) :
    (validBuffer object device).run s = (.ok a.buffer, s) := by
  rw [validBuffer, run_bind_of_ok (run_record_of_get? hr), Record.buffer, ha, hvalid]
  rfl

/-- The label of an object is found exactly if the context has the object. -/
theorem label_cases (s : Store) (object : Nat) :
    (s.context.places[object]? = none ∧ ∃ fault, (label object).run s = (.error fault, s)) ∨
      ∃ place, s.context.places[object]? = some place ∧
        (label object).run s = (.ok (objectAt s.context.objects place).label, s) := by
  cases hplace : s.context.places[object]? with
  | none =>
    refine .inl ⟨rfl, .indexOutOfRange .object object s.context.places.length, run_bind_of_error ?_⟩
    rw [run_place_now, Context.place, lookup, hplace]
  | some place => exact .inr ⟨place, rfl, run_bind_of_ok (run_place_of_some hplace)⟩

/-- All that can come of noting that a launch writes an object. -/
theorem claim_cases (s : Store) (object device : Nat) :
    (∃ fault, (claim object device).run s = (.error fault, s)) ∨
      ∃ text, (claim object device).run s = (.ok (), ⟨s.context.log .trace text,
        (s.table.update object device Record.written).setOwner object device⟩) := by
  rcases record_cases s object device _ with ⟨fault, -, hrun⟩ | ⟨r, hr, hbody⟩
  · exact .inl ⟨fault, hrun⟩
  · exact .inr ⟨_, hbody⟩

theorem snd_run_validBuffer (s : Store) (object device : Nat) :
    ((validBuffer object device).run s).2 = s :=
  meets_iff_after.1 (keeps_validBuffer (I := (· = s)) object device) s rfl

/-- A launch gets the buffer of a record that is valid. -/
theorem validBuffer_cases (s : Store) (object device : Nat) :
    (∃ fault, (validBuffer object device).run s = (.error fault, s)) ∨
      ∃ r a, s.table.get? object device = some r ∧ r.allocation = some a ∧ r.valid = true ∧
        (validBuffer object device).run s = (.ok a.buffer, s) := by
  rcases hv : (validBuffer object device).run s with ⟨v, s'⟩
  obtain rfl : s = s' := by rw [← snd_run_validBuffer s object device, hv]
  cases v with
  | error fault => exact .inl ⟨fault, rfl⟩
  | ok buffer =>
    refine .inr ?_
    rcases record_cases s object device _ with ⟨fault, -, hfault⟩ | ⟨r, hr, hbody⟩
    · cases (Prod.mk.inj (hv.symm.trans hfault)).1
    have hrun := hbody.symm.trans hv
    split at hrun
    · rename_i hbuffer hvalid
      obtain ⟨a, ha, rfl⟩ := Option.map_eq_some_iff.1 hbuffer
      exact ⟨r, a, hr, ha, hvalid, hrun.symm⟩
    · have hthrow : Meets (fun _ => True) (do
          let label ← Store.label object
          throw (.objectNotValid object label device r.text) : StoreAction BufferId)
          (fun _ _ => False) (fun _ => True) :=
        meets_bind (keeps_label object) fun _ => meets_throw fun _ => id
      exact (hthrow.of_ok hrun trivial).elim

/-! ## Operations -/

/-- What may be asked of a store. -/
inductive Operation where
  | allocate (object device : Nat) (window : Option Window)
  | copyIn (object device : Nat) (window : Option Window) (wait : List EventId)
  | streamIn (object device : Nat) (window : Option Window) (wait : List EventId)
  | streamOut (object device : Nat) (window : Option Window) (wait : List EventId) (blocking : Bool)
  | validBuffer (object device : Nat)
  | claim (object device : Nat)
  | invalidate

/-- Carry out an operation. Gives the event that it has submitted. -/
def operate : Operation → StoreAction (Option EventId)
  | .allocate object device window => allocate object device window
  | .copyIn object device window wait => copyIn object device window wait
  | .streamIn object device window wait => do
    let event ← streamIn object device window wait
    return some event
  | .streamOut object device window wait blocking => do
    let event ← streamOut object device window wait blocking
    return some event
  | .validBuffer object device => do
    let _ ← validBuffer object device
    return none
  | .claim object device => do
    claim object device
    return none
  | .invalidate => do
    modify invalidate
    return none

/-- The store after some operations, whatever their outcomes. -/
def operated : List Operation → Store → Store
  | [], s => s
  | op :: others, s => operated others ((operate op).run s).2

/-! ## Refusals -/

theorem Allocating.eq_of_refused {fault : Fault}
    (h : s.Allocating object device window (.error fault) s') (hfault : fault.category ≠ .device) :
    s' = s := by
  cases h with
  | refused => rfl
  | stuck => exact absurd rfl hfault
  | exhausted => exact absurd rfl hfault

theorem Sending.eq_of_refused {fault : Fault}
    (h : s.Sending object device window wait (.error fault) s')
    (hfault : fault.category ≠ .device) : s' = s := by
  cases h with
  | unready hallocate => exact (allocating_of_run hallocate).eq_of_refused hfault
  | failed => exact absurd rfl hfault

/-- An operation that is refused because of the program, or because of the state of its data,
changes nothing: neither the table nor a device nor an object, nor even the journal. -/
theorem unchanged_of_refused (op : Operation) {s s' : Store} {fault : Fault}
    (hrun : (operate op).run s = (.error fault, s'))
    (hcategory : fault.category = .protocol ∨ fault.category = .consistency) : s' = s := by
  have hfault : fault.category ≠ .device := by
    rcases hcategory with h | h <;> rw [h] <;> decide
  cases op with
  | allocate object device window => exact (allocating_of_run hrun).eq_of_refused hfault
  | copyIn object device window wait =>
    generalize hv : Except.error fault = v at hrun
    cases copying_of_run hrun with
    | refused => rfl
    | held => cases hv
    | @sending r v s' hr hholds hsending =>
      cases v with
      | ok event => cases hv
      | error e =>
        cases hv
        exact hsending.eq_of_refused hfault
  | streamIn object device window wait =>
    exact (sending_of_run (Action.run_of_error_bind hrun)).eq_of_refused hfault
  | streamOut object device window wait blocking =>
    cases fetching_of_run (Action.run_of_error_bind hrun) with
    | refused => rfl
    | failed => exact absurd rfl hfault
  | validBuffer object device =>
    have hsame := snd_run_validBuffer s object device
    rw [Action.run_of_error_bind (f := fun _ => none) hrun] at hsame
    exact hsame
  | claim object device =>
    have hclaim := Action.run_of_error_bind (f := fun _ => none) hrun
    rcases claim_cases s object device with ⟨e, he⟩ | ⟨text, hok⟩
    · rw [he] at hclaim
      exact (Prod.mk.inj hclaim).2.symm
    · rw [hok] at hclaim
      cases (Prod.mk.inj hclaim).1
  | invalidate => cases (Prod.mk.inj hrun).1

/-- A store with one device that has nothing yet and one object of eight bytes. -/
def small : Store where
  context :=
    { devices := [{ name := "d0", log := ⟨[], 0, [], Station.size_eq_of_empty⟩ }]
      objects := [⟨"a", [1, 2, 3, 4, 5, 6, 7, 8]⟩]
      constants := []
      tasks := [] }
  table := .new 1 1

/-- The device has a buffer of four bytes. A window of eight bytes that does not lie inside the
object is refused before the buffer is given up for a larger one. -/
theorem unchanged_of_refused_window :
    let s := operated [.streamIn 0 0 (some ⟨0, 4⟩) []] small
    ∃ s', (operate (.streamIn 0 0 (some ⟨6, 8⟩) [])).run s =
      (.error (.windowOutOfRange 0 ⟨6, 8⟩ 8), s') ∧ s' = s := by
  intro s
  have hrun : (operate (.streamIn 0 0 (some ⟨6, 8⟩) [])).run s =
      (.error (.windowOutOfRange 0 ⟨6, 8⟩ 8),
        ((operate (.streamIn 0 0 (some ⟨6, 8⟩) [])).run s).2) :=
    Prod.ext rfl rfl
  exact ⟨_, hrun, unchanged_of_refused _ hrun (.inl rfl)⟩

end Store

end Offload
