import Offload.Proofs.ObjectLengths

/-!
# Windows that a device holds

A lazy transfer is needed once: after it the device holds the window, and it goes on holding it
through anything that is asked of the store for other objects and devices, and through anything for
the same object that does not ask for another window, successful or not. A further lazy transfer of
the window then changes nothing. When all records are invalidated the buffers stay, and the next
lazy transfer writes once.
-/

namespace Offload

open Offload.Action

variable {window : Option Window} {r : Record} {object device : Nat}

/-! ## Records -/

/-- A window fits a buffer. All of an object is taken to fit. -/
def Allocation.Accommodates (a : Allocation) (window : Option Window) :
    Prop := ∀ w, window = some w → w.size ≤ a.bytes

variable {a : Allocation}

namespace Record

/-- What stays so through all that does not fill the buffer of a record. `sized` says how large a
new buffer may be. -/
structure Lasting (P : Record → Prop) (sized : Nat → Prop := fun _ => True) : Prop where
  empty : ∀ r, P r → P {}
  made : ∀ r a, r.allocation = none → sized a.bytes → P r → P { r with allocation := some a }
  fetched : ∀ r, P r → P r.fetched
  invalidate : ∀ r, P r → P r.invalidate

/-- A record is valid only while there is a buffer, and the buffer has room for the window that was
last sent. -/
structure Backed (r : Record) : Prop where
  buffer : r.valid = true → r.allocation.isSome = true
  room : ∀ w, r.window = some w → ∃ a, r.allocation = some a ∧ w.size ≤ a.bytes

theorem backed_empty : Backed {} := ⟨by simp, by simp⟩

theorem lasting_backed : Lasting Backed where
  empty _ _ := backed_empty
  made r a hnone _ h := by
    refine ⟨fun _ => rfl, fun w hw => ?_⟩
    obtain ⟨a', ha', -⟩ := h.room w hw
    cases hnone.symm.trans ha'
  fetched r h := ⟨h.buffer, h.room⟩
  invalidate r _ := ⟨by simp [Record.invalidate], by simp [Record.invalidate]⟩

theorem backed_sent (ha : r.allocation = some a) (hroom : a.Accommodates window) :
    (r.sent window).Backed :=
  ⟨fun _ => by simp [sent, ha], fun w hw => ⟨a, ha, hroom w hw⟩⟩

theorem Backed.written (h : r.Backed) : r.written.Backed := ⟨id, h.room⟩

theorem lasting_invalid : Lasting fun r => r.valid = false where
  empty _ _ := rfl
  made _ _ _ _ h := h
  fetched _ h := h
  invalidate _ _ := rfl

end Record

/-! ## Tables -/

namespace Table

/-- The tables agree on all records but that of an object on a device. -/
def SameBut (object device : Nat) (t t' : Table) : Prop :=
  ∀ o d, ¬(o = object ∧ d = device) → t'.get? o d = t.get? o d

variable {t t' t'' : Table}

theorem SameBut.refl (object device : Nat) (t : Table) :
    t.SameBut object device t := fun _ _ _ => rfl

theorem SameBut.update (h : t.SameBut object device t') (f : Record → Record) :
    t.SameBut object device (t'.update object device f) := by
  intro o d hod
  rw [get?_update, if_neg hod, h o d hod]

theorem SameBut.setOwner (h : t.SameBut object device t') (o d : Nat) :
    t.SameBut object device (t'.setOwner o d) := by
  intro o' d' hod
  rw [get?_setOwner, h o' d' hod]

end Table

/-- What is known of the record of an object on a device, if there is one. -/
def Table.Has (P : Record → Prop) (o d : Nat) (t : Table) : Prop := ∀ r, t.get? o d = some r → P r

namespace Table.Has

variable {P : Record → Prop} {t : Table} {o d : Nat}

theorem update (h : t.Has P o d) {f : Record → Record}
    (hf : o = object → d = device → ∀ r, t.get? object device = some r → P r → P (f r)) :
    (t.update object device f).Has P o d := by
  intro r hr
  rw [get?_update] at hr
  split_ifs at hr with hod
  · obtain ⟨rfl, rfl⟩ := hod
    obtain ⟨old, hold, rfl⟩ := Option.map_eq_some_iff.1 hr
    exact hf rfl rfl old hold (h old hold)
  · exact h r hr

theorem setOwner (h : t.Has P o d) (object device : Nat) :
    (t.setOwner object device).Has P o d := by
  intro r hr
  rw [get?_setOwner] at hr
  exact h r hr

theorem invalidate (h : t.Has P o d) {sized : Nat → Prop} (hP : Record.Lasting P sized) :
    t.invalidate.Has P o d := by
  intro r hr
  rw [get?_invalidate] at hr
  obtain ⟨old, hold, rfl⟩ := Option.map_eq_some_iff.1 hr
  exact hP.invalidate old (h old hold)

end Table.Has

theorem Action.snd_run_bind_pure {σ ε α β : Type} (x : Action σ ε α) (f : α → β) (s : σ) :
    ((x >>= fun a => pure (f a)).run s).2 = (x.run s).2 := by
  rw [run_bind]
  rcases x.run s with ⟨v, t⟩
  cases v <;> rfl

namespace Store

variable {s s' s₁ : Store} {wait : List EventId} {v : Except Fault (Option EventId)}
  {blocking : Bool}

theorem Vacated.sameBut {d d₁ : Device} (h : s.Vacated object device d r s₁ d₁) :
    s.table.SameBut object device s₁.table := by
  cases h with
  | bare => exact .refl object device s.table
  | discarded => exact (Table.SameBut.refl object device s.table).update _

theorem Allocating.sameBut (h : s.Allocating object device window v s') :
    s.table.SameBut object device s'.table := by
  cases h with
  | refused | roomy | stuck => exact .refl object device s.table
  | exhausted hfound hr hsmall hvacated hallocate => exact hvacated.sameBut
  | made hfound hadmits hr hsmall hvacated hallocate => exact hvacated.sameBut.update _

theorem Sending.sameBut {v : Except Fault EventId} (h : s.Sending object device window wait v s') :
    s.table.SameBut object device s'.table := by
  cases h with
  | unready hallocate => exact (allocating_of_run hallocate).sameBut
  | failed hallocate => exact (allocating_of_run hallocate).sameBut
  | sent hallocate => exact (allocating_of_run hallocate).sameBut.update _

theorem Fetching.sameBut {v : Except Fault EventId}
    (h : s.Fetching object device window wait blocking v s') :
    s.table.SameBut object device s'.table := by
  cases h with
  | refused | failed => exact .refl object device s.table
  | fetched => exact (Table.SameBut.refl object device s.table).update _

theorem Copying.sameBut (h : s.Copying object device window wait v s') :
    s.table.SameBut object device s'.table := by
  cases h with
  | refused | held => exact .refl object device s.table
  | sending hr hholds hsending => exact hsending.sameBut

/-! ## What holds of a record -/

variable {P : Record → Prop} {sized : Nat → Prop} {o d : Nat}

theorem Vacated.allocation_eq {e e₁ : Device} {r₁ : Record} (h : s.Vacated object device e r s₁ e₁)
    (hr : s.table.get? object device = some r) (hr₁ : s₁.table.get? object device = some r₁) :
    r₁.allocation = none := by
  cases h with
  | bare hbare => rw [← Option.some.inj (hr.symm.trans hr₁), hbare]
  | discarded =>
    rw [Table.get?_update, if_pos ⟨rfl, rfl⟩, hr, Option.map_some] at hr₁
    rw [← Option.some.inj hr₁]

/-- A window fits the buffer that was found or made for it. -/
theorem Allocating.accommodates {made : Option EventId}
    (h : s.Allocating object device window (.ok made) s')
    (hr : s'.table.get? object device = some r) (ha : r.allocation = some a) :
    a.Accommodates window := by
  obtain ⟨place', e', r', a', -, -, hr', ha', hroom⟩ := h.room
  cases hr.symm.trans hr'
  cases ha.symm.trans ha'
  rintro w rfl
  cases h with
  | roomy hfound => rwa [bytesOf_eq hfound.place] at hroom
  | made hfound => rwa [bytesOf_eq hfound.place] at hroom

theorem Vacated.has {e e₁ : Device} (h : s.Vacated object device e r s₁ e₁)
    (hP : Record.Lasting P sized) (hs : s.table.Has P o d) : s₁.table.Has P o d := by
  cases h with
  | bare => exact hs
  | discarded => exact hs.update fun _ _ r _ => hP.empty r

theorem Allocating.has (h : s.Allocating object device window v s') (hP : Record.Lasting P sized)
    (hsized : o = object → s.bytesOf object window < Station.memoryLimit →
      sized (s.bytesOf object window))
    (hs : s.table.Has P o d) : s'.table.Has P o d := by
  cases h with
  | refused | roomy | stuck => exact hs
  | exhausted hfound hr hsmall hvacated hallocate => exact hvacated.has hP hs
  | made hfound hadmits hr hsmall hvacated hallocate =>
    refine (hvacated.has hP hs).update fun ho _ r' hr' =>
      hP.made r' _ (hvacated.allocation_eq hr hr') ?_
    exact hsized ho (Station.lt_of_run_allocate hallocate)

theorem Sending.has {v : Except Fault EventId} (h : s.Sending object device window wait v s')
    (hP : Record.Lasting P sized)
    (hsized : o = object → s.bytesOf object window < Station.memoryLimit →
      sized (s.bytesOf object window))
    (hsent : o = object → d = device → ∀ (r : Record) a, r.allocation = some a →
      a.Accommodates window → P r → P (r.sent window))
    (hs : s.table.Has P o d) : s'.table.Has P o d := by
  cases h with
  | unready hallocate => exact (allocating_of_run hallocate).has hP hsized hs
  | failed hallocate => exact (allocating_of_run hallocate).has hP hsized hs
  | sent hallocate hfound hr ha hwrite =>
    have hallocating := allocating_of_run hallocate
    refine (hallocating.has hP hsized hs).update fun ho hd r' hr' => ?_
    cases hr.symm.trans hr'
    exact hsent ho hd _ _ ha (hallocating.accommodates hr ha)

theorem Fetching.has {v : Except Fault EventId}
    (h : s.Fetching object device window wait blocking v s') (hP : Record.Lasting P sized)
    (hs : s.table.Has P o d) : s'.table.Has P o d := by
  cases h with
  | refused | failed => exact hs
  | fetched => exact hs.update fun _ _ r _ h => hP.fetched r h

theorem Copying.has (h : s.Copying object device window wait v s') (hP : Record.Lasting P sized)
    (hsized : o = object → s.bytesOf object window < Station.memoryLimit →
      sized (s.bytesOf object window))
    (hsent : o = object → d = device → ∀ (r : Record) a, r.allocation = some a →
      a.Accommodates window → P r → P (r.sent window))
    (hs : s.table.Has P o d) : s'.table.Has P o d := by
  cases h with
  | refused | held => exact hs
  | sending hr hholds hsending => exact hsending.has hP hsized hsent hs

/-- An operation that may fill the buffer of an object on a device. -/
def Operation.Fills (o d : Nat) : Operation → Prop
  | .copyIn object device _ _ | .streamIn object device _ _ | .claim object device =>
    o = object ∧ d = device
  | .allocate .. | .streamOut .. | .validBuffer .. | .invalidate => False

/-- What lasts is kept by every operation, unless the operation fills the buffer. -/
theorem has_operate (hP : Record.Lasting P) (op : Operation)
    (hfills : op.Fills o d →
      (∀ (r : Record) a window, r.allocation = some a → a.Accommodates window → P r →
        P (r.sent window)) ∧ ∀ r : Record, P r → P r.written)
    (hs : s.table.Has P o d) : ((operate op).run s).2.table.Has P o d := by
  cases op with
  | allocate object device window => exact (allocating_of_run rfl).has hP (fun _ _ => trivial) hs
  | copyIn object device window wait =>
    exact (copying_of_run rfl).has hP (fun _ _ => trivial)
      (fun ho hd r a => (hfills ⟨ho, hd⟩).1 r a window) hs
  | streamIn object device window wait =>
    rw [operate, snd_run_bind_pure]
    exact (sending_of_run rfl).has hP (fun _ _ => trivial)
      (fun ho hd r a => (hfills ⟨ho, hd⟩).1 r a window) hs
  | streamOut object device window wait blocking =>
    rw [operate, snd_run_bind_pure]
    exact (fetching_of_run rfl).has hP hs
  | validBuffer object device =>
    rw [operate, snd_run_bind_pure, snd_run_validBuffer]
    exact hs
  | claim object device =>
    rw [operate, snd_run_bind_pure]
    rcases claim_cases s object device with ⟨fault, hrun⟩ | ⟨text, hrun⟩
    · rw [hrun]
      exact hs
    · rw [hrun]
      exact (hs.update fun ho hd r _ => (hfills ⟨ho, hd⟩).2 r).setOwner object device
  | invalidate => exact hs.invalidate hP

end Store

/-! ## Tables that operations have made -/

/-- A table that operations have made out of a new one. What it is about, the devices and the
objects, may be changed by others between the operations. -/
inductive Table.Reached : Table → Prop where
  | new (objects devices : Nat) : Reached (.new objects devices)
  | operate {s : Store} (op : Store.Operation) (hs : s.table.Reached) :
      Reached ((Store.operate op).run s).2.table

/-- In such a table every record is backed by its buffer. -/
theorem Table.Reached.backed {t : Table} (h : t.Reached) (o d : Nat) : t.Has Record.Backed o d := by
  induction h with
  | new objects devices =>
    intro r hr
    rw [Table.get?_new] at hr
    split_ifs at hr
    rw [← Option.some.inj hr]
    exact Record.backed_empty
  | operate op _ ih =>
    refine Store.has_operate Record.lasting_backed op (fun _ => ⟨?_, fun r hr => hr.written⟩) ih
    exact fun r a window ha hroom _ => Record.backed_sent ha hroom

/-! ## Windows that are held -/

namespace Station

/-- A command that fits does not fail when it is submitted, whether it is run at once or later. -/
theorem exists_run_submit {s : Station} {c : Command}
    (hfits : c.Workable s.device.memory.size? (Command.lengths s.objects))
    (hkind : c.kind ≠ .launch) (kind : EventKind) (label : String) (wait : List EventId) :
    ∃ event t, (submit kind label wait c).run s = (.ok event, t) := by
  cases hdeferred : s.device.options.deferred with
  | true =>
    rw [run_submit_deferred kind label wait c hdeferred]
    exact ⟨_, _, rfl⟩
  | false =>
    have hexecute : (c.execute s.device.memory s.objects).1 = .ok () :=
      Command.execute_eq_ok hfits hkind
    rw [run_submit_eager kind label wait c hdeferred]
    exact ⟨_, _, run_bind_of_ok (Prod.ext hexecute rfl)⟩

theorem exists_run_write {s : Station} {buffer : BufferId}
    (hfits : (Command.write buffer object window).Workable s.device.memory.size?
      (Command.lengths s.objects))
    (wait : List EventId) :
    ∃ event t, (write buffer object window wait).run s = (.ok event, t) := by
  have hcheck : (checkWindow object window).run s = (.ok (), s) := by
    cases window with
    | none => rfl
    | some w =>
      have hw : w.fits (objectAt s.objects object).length = true := hfits.1
      rw [checkWindow, run_bind_of_ok (run_get s)]
      simp [Window.check, hw]
  rw [write, run_bind_of_ok hcheck, count, run_bind_of_ok (run_modify _ s),
    run_bind_of_ok (run_get _)]
  refine exists_run_submit ?_ (by simp [Command.kind]) _ _ _
  exact hfits

end Station

namespace Store

variable {s s' : Store} {wait : List EventId}

/-- A device holds a window of an object, and its buffer has room for the window or can be replaced
by one that has. -/
def Secures (s : Store) (object device : Nat) (window : Option Window) : Prop :=
  ∃ r a, s.table.get? object device = some r ∧ r.holds window = true ∧ r.allocation = some a ∧
    (s.bytesOf object window ≤ a.bytes ∨ s.bytesOf object window < Station.memoryLimit)

/-- A lazy transfer of a window that is held changes nothing. -/
theorem run_copyIn_of_secures (h : s.Secures object device window) (wait : List EventId) :
    ∃ text, (copyIn object device window wait).run s = (.ok none, s.logged text) := by
  obtain ⟨r, a, hr, hholds, -, -⟩ := h
  refine ⟨"residency: object " ++ toString object ++ " already valid on device " ++ toString device,
    ?_⟩
  rw [copyIn, run_bind_of_ok (run_record_of_get? hr), if_pos hholds]
  rfl

theorem Secures.of_get? (h : s.Secures object device window)
    (hget : s'.table.get? object device = s.table.get? object device)
    (hextents : s'.context.extents = s.context.extents) : s'.Secures object device window := by
  obtain ⟨r, a, hr, hholds, ha, hroom⟩ := h
  rw [← bytesOf_of_extents hextents] at hroom
  exact ⟨r, a, hget.trans hr, hholds, ha, hroom⟩

/-- The record has changed, but not in what it says of the window. -/
theorem Secures.update (h : s.Secures object device window) {f : Record → Record}
    (hget : s'.table.get? object device = (s.table.get? object device).map f)
    (hf : ∀ r : Record, r.holds window = true → r.allocation.isSome = true →
      (f r).holds window = true ∧ (f r).allocation = r.allocation)
    (hextents : s'.context.extents = s.context.extents) : s'.Secures object device window := by
  obtain ⟨r, a, hr, hholds, ha, hroom⟩ := h
  obtain ⟨hholds', ha'⟩ := hf r hholds (by rw [ha, Option.isSome_some])
  rw [← bytesOf_of_extents hextents] at hroom
  exact ⟨f r, a, by rw [hget, hr, Option.map_some], hholds', ha'.trans ha, hroom⟩

variable {event : EventId}

theorem size?_of_run_allocate {st t : Station} {place bytes : Nat} {b : BufferId}
    (h : (Station.allocate place bytes).run st = (.ok (b, event), t)) :
    t.device.memory.size? b = some bytes := by
  rw [Station.run_allocate place (Station.lt_of_run_allocate h)] at h
  obtain ⟨hmade, rfl⟩ := Prod.mk.inj h
  cases Except.ok.inj hmade
  simp [Memory.size?, Memory.get?_insert]

/-- What was sent to a buffer that has room for it is held. -/
theorem Sending.secures (h : s.Sending object device window wait (.ok event) s')
    (hextents : s'.context.extents = s.context.extents) : s'.Secures object device window := by
  cases h with
  | @sent made s₁ place d r a event t text hallocate hfound hr ha hwrite =>
    obtain ⟨place', d', r', a', -, -, hr', ha', hroom⟩ := (allocating_of_run hallocate).room
    cases hr.symm.trans hr'
    cases ha.symm.trans ha'
    rw [← bytesOf_of_extents hextents] at hroom
    refine ⟨r.sent window, a, ?_, by simp [Record.sent, Record.holds], ha, .inl hroom⟩
    rw [entered, Table.get?_update, if_pos ⟨rfl, rfl⟩, hr, Option.map_some]

theorem Allocating.exists_run_write {place : Nat} {d : Device}
    (h : s.Allocating object device window (.ok (some event)) s₁)
    (hfound : s₁.Finds object device place d) (hr : s₁.table.get? object device = some r)
    (ha : r.allocation = some a) (hextents : s₁.context.extents = s.context.extents)
    (wait : List EventId) :
    ∃ event t, (Station.write a.buffer place window wait).run (s₁.context.station d) =
      (.ok event, t) := by
  cases h with
  | @made place₀ d₀ d₁ r₀ s₂ b event t text hfound₀ hadmits hr₀ hsmall hvacated hallocate =>
    have hfound₂ := hvacated.finds hfound₀
    obtain ⟨r₂, hr₂⟩ := hvacated.get? hr₀
    obtain rfl : place₀ = place := Option.some.inj (hfound₂.place.symm.trans hfound.place)
    obtain rfl : t.device = d := by
      have hset := List.getElem?_set_self (a := t.device)
        (List.getElem?_eq_some_iff.1 hfound₂.device).1
      exact Option.some.inj (hset.symm.trans hfound.device)
    obtain rfl : a = ⟨b, s.bytesOf object window⟩ := by
      rw [entered, Table.get?_update, if_pos ⟨rfl, rfl⟩, hr₂, Option.map_some] at hr
      rw [← Option.some.inj hr] at ha
      exact (Option.some.inj ha).symm
    have hsize := size?_of_run_allocate hallocate
    have hlengths : Command.lengths t.objects = Command.lengths s.context.objects :=
      (Prod.mk.inj hextents).2
    refine Station.exists_run_write ?_ wait
    refine ⟨?_, _, hsize, ?_⟩
    · change (Command.range window (Command.lengths t.objects place₀)).fits
        (Command.lengths t.objects place₀) = true
      rw [hlengths]
      exact hadmits
    · change (Command.range window (Command.lengths t.objects place₀)).size ≤ _
      rw [hlengths, bytesOf_eq hfound₀.place]
      exact Nat.le_refl _

/-- Sending a window again does not lose it, whatever becomes of it. -/
theorem Secures.sending {v : Except Fault EventId} (h : s.Secures object device window)
    (hsending : s.Sending object device window wait v s')
    (hextents : s'.context.extents = s.context.extents) :
    s'.Secures object device window := by
  cases v with
  | ok event => exact hsending.secures hextents
  | error fault =>
    cases hsending with
    | unready hallocate =>
      cases allocating_of_run hallocate with
      | refused => exact h
      | stuck => exact h.of_get? rfl hextents
      | exhausted hfound hr hsmall hvacated hnew =>
        -- The old buffer is too small, but there is memory for a larger one.
        obtain ⟨r, a, hr', -, ha, hroom⟩ := h
        cases hr.symm.trans hr'
        have hmemory := hroom.resolve_left (Nat.not_le.2 (hsmall a ha))
        rw [Station.run_allocate _ hmemory] at hnew
        cases (Prod.mk.inj hnew).1
    | @failed made s₁ place d a r fault t hallocate hfound hr ha hwrite =>
      cases made with
      | none =>
        cases allocating_of_run hallocate with
        | roomy => exact h.of_get? rfl hextents
      | some event =>
        have hextents₁ := extents_operate (.allocate object device window) s
        rw [operate, hallocate] at hextents₁
        obtain ⟨event, t', hok⟩ :=
          (allocating_of_run hallocate).exists_run_write hfound hr ha hextents₁ wait
        rw [hok] at hwrite
        cases (Prod.mk.inj hwrite).1

/-- An operation that leaves a window of an object on a device, or sends it there again. -/
def Operation.Spares (object device : Nat) (window : Option Window) (s : Store) : Operation → Prop
  | .allocate o d w => o = object → d = device → s.hasRoom o d w = true
  | .copyIn o d w _ | .streamIn o d w _ => o = object → d = device → w = window
  | .streamOut .. | .validBuffer .. | .claim .. => True
  | .invalidate => False

/-- Operations each of which leaves the window on the device as things stand when its turn comes. -/
def SparesAll (object device : Nat) (window : Option Window) : List Operation → Store → Prop
  | [], _ => True
  | op :: others, s =>
    op.Spares object device window s ∧ SparesAll object device window others ((operate op).run s).2

/-- The object and the device that an operation is about. -/
def Operation.target? : Operation → Option (Nat × Nat)
  | .allocate object device _ | .copyIn object device _ _ | .streamIn object device _ _
  | .streamOut object device _ _ _ | .validBuffer object device | .claim object device =>
    some (object, device)
  | .invalidate => none

/-- An operation for one object and device leaves all other records alone. -/
theorem sameBut_operate {op : Operation} (hop : op.target? = some (object, device)) (s : Store) :
    s.table.SameBut object device ((operate op).run s).2.table := by
  cases op with
  | allocate o d w =>
    cases hop
    exact (allocating_of_run rfl).sameBut
  | copyIn o d w wait =>
    cases hop
    exact (copying_of_run rfl).sameBut
  | streamIn o d w wait =>
    cases hop
    rw [operate, snd_run_bind_pure]
    exact (sending_of_run rfl).sameBut
  | streamOut o d w wait blocking =>
    cases hop
    rw [operate, snd_run_bind_pure]
    exact (fetching_of_run rfl).sameBut
  | validBuffer o d =>
    rw [operate, snd_run_bind_pure, snd_run_validBuffer]
    exact .refl object device s.table
  | claim o d =>
    cases hop
    rw [operate, snd_run_bind_pure]
    rcases claim_cases s object device with ⟨fault, hrun⟩ | ⟨text, hrun⟩
    · rw [hrun]
      exact .refl object device s.table
    · rw [hrun]
      exact ((Table.SameBut.refl object device s.table).update _).setOwner object device
  | invalidate => cases hop

theorem exists_of_hasRoom (h : s.hasRoom object device window = true) :
    ∃ r a, s.table.get? object device = some r ∧ r.allocation = some a ∧
      s.bytesOf object window ≤ a.bytes := by
  rw [hasRoom] at h
  cases hr : s.table.record object device with
  | error fault => simp [hr] at h
  | ok r =>
    simp only [hr, Option.any_eq_true, decide_eq_true_eq] at h
    obtain ⟨a, ha, hroom⟩ := h
    exact ⟨r, a, Table.record_eq_ok.1 hr, ha, hroom⟩

theorem Allocating.eq_of_hasRoom (h : s.Allocating object device window v s')
    (hroom : s.hasRoom object device window = true) : s' = s := by
  obtain ⟨r, a, hr, ha, hfits⟩ := exists_of_hasRoom hroom
  have hlarge : ∀ r', s.table.get? object device = some r' → r'.allocation = some a := by
    intro r' hr'
    rw [← Option.some.inj (hr.symm.trans hr'), ha]
  cases h with
  | refused | roomy => rfl
  | stuck hfound hr' ha' hsmall =>
    cases ha'.symm.trans (hlarge _ hr')
    exact absurd hfits (Nat.not_le.2 hsmall)
  | exhausted hfound hr' hsmall => exact absurd hfits (Nat.not_le.2 (hsmall a (hlarge _ hr')))
  | made hfound hadmits hr' hsmall => exact absurd hfits (Nat.not_le.2 (hsmall a (hlarge _ hr')))

/-- A lazy transfer of a window that is held, whatever it does, leaves it there. -/
theorem Secures.copying (h : s.Secures object device window)
    (hcopying : s.Copying object device window wait v s') :
    s'.Secures object device window := by
  cases hcopying with
  | refused => exact h
  | held => exact h.of_get? rfl rfl
  | sending hr hholds =>
    obtain ⟨r', a, hr', hholds', -, -⟩ := h
    rw [Option.some.inj (hr.symm.trans hr'), hholds'] at hholds
    cases hholds

theorem Secures.fetching {v : Except Fault EventId} (h : s.Secures object device window)
    {w : Option Window} (hfetching : s.Fetching object device w wait blocking v s')
    (hextents : s'.context.extents = s.context.extents) : s'.Secures object device window := by
  cases hfetching with
  | refused => exact h
  | failed => exact h.of_get? rfl hextents
  | fetched =>
    refine h.update (f := Record.fetched) ?_ (fun r hr _ => ⟨hr, rfl⟩) hextents
    rw [entered, Table.get?_update, if_pos ⟨rfl, rfl⟩]

theorem Secures.claim (h : s.Secures object device window) :
    ((claim object device).run s).2.Secures object device window := by
  rcases claim_cases s object device with ⟨fault, hrun⟩ | ⟨text, hrun⟩
  · rw [hrun]
    exact h
  · rw [hrun]
    refine h.update (f := Record.written) ?_ (fun r hr hsome => ⟨?_, rfl⟩) rfl
    · rw [Table.get?_setOwner, Table.get?_update, if_pos ⟨rfl, rfl⟩]
    · simp only [Record.holds, Bool.and_eq_true, Record.written] at hr ⊢
      exact ⟨hsome, hr.2⟩

/-- Step: a window that is held stays so through an operation that spares it. -/
theorem Secures.operate (h : s.Secures object device window) {op : Operation}
    (hop : op.Spares object device window s) :
    ((operate op).run s).2.Secures object device window := by
  have hextents := extents_operate op s
  by_cases htarget : op.target? = some (object, device)
  · cases op with
    | allocate o d w =>
      cases htarget
      have hsame : ((allocate object device w).run s).2 = s :=
        (allocating_of_run rfl).eq_of_hasRoom (hop rfl rfl)
      rw [Store.operate, hsame]
      exact h
    | copyIn o d w wait =>
      cases htarget
      obtain rfl := hop rfl rfl
      exact h.copying (copying_of_run rfl)
    | streamIn o d w wait =>
      cases htarget
      obtain rfl := hop rfl rfl
      rw [Store.operate, snd_run_bind_pure] at hextents ⊢
      exact h.sending (sending_of_run rfl) hextents
    | streamOut o d w wait blocking =>
      cases htarget
      rw [Store.operate, snd_run_bind_pure] at hextents ⊢
      exact h.fetching (fetching_of_run rfl) hextents
    | validBuffer o d =>
      rw [Store.operate, snd_run_bind_pure, snd_run_validBuffer]
      exact h
    | claim o d =>
      cases htarget
      rw [Store.operate, snd_run_bind_pure]
      exact h.claim
    | invalidate => exact hop.elim
  · cases hother : op.target? with
    | none =>
      cases op with
      | invalidate => exact hop.elim
      | _ => cases hother
    | some target =>
      refine h.of_get? (sameBut_operate hother s object device ?_) hextents
      rintro ⟨rfl, rfl⟩
      exact htarget hother

/-- Run: it stays so through any number of them. -/
theorem Secures.operated (h : s.Secures object device window) {ops : List Operation}
    (hops : SparesAll object device window ops s) :
    (operated ops s).Secures object device window := by
  induction ops generalizing s with
  | nil => exact h
  | cons op others ih => exact ih (h.operate hops.1) hops.2

theorem bytesOf_some_le (s : Store) (object : Nat) (w : Window) :
    s.bytesOf object (some w) ≤ w.size := by
  rw [bytesOf]
  split
  · exact Nat.le_refl _
  · exact Nat.zero_le _

/-- A lazy transfer that succeeds leaves the window on the device. -/
theorem Copying.secures {event : Option EventId}
    (h : s.Copying object device window wait (.ok event) s')
    (hs : s.table.Has Record.Backed object device) (hroom : event = none → window = none →
      s.hasRoom object device none = true ∨ s.bytesOf object none < Station.memoryLimit)
    (hextents : s'.context.extents = s.context.extents) : s'.Secures object device window := by
  generalize hv : Except.ok event = v at h
  cases h with
  | refused => cases hv
  | @held r text hr hholds =>
    have hbacked := hs r hr
    obtain ⟨hvalid, hwindow⟩ := Bool.and_eq_true_iff.1 hholds
    cases window with
    | none =>
      obtain ⟨a, ha⟩ := Option.isSome_iff_exists.1 (hbacked.buffer hvalid)
      refine ⟨r, a, hr, hholds, ha, (hroom (Except.ok.inj hv) rfl).imp_left fun hroom => ?_⟩
      obtain ⟨r', a', hr', ha', hfits⟩ := exists_of_hasRoom hroom
      cases hr.symm.trans hr'
      cases ha.symm.trans ha'
      exact hfits
    | some w =>
      obtain ⟨a, ha, hfits⟩ := hbacked.room w (beq_iff_eq.1 hwindow)
      exact ⟨r, a, hr, hholds, ha, .inl ((bytesOf_some_le s object w).trans hfits)⟩
  | @sending r v s' hr hholds hsending =>
    cases v with
    | error fault => cases hv
    | ok event' => exact hsending.secures hextents

/-! ## Windows that are not held -/

/-- Run: a record that is not valid stays so until an operation fills the buffer. -/
theorem invalid_operated {ops : List Operation} (hops : ∀ op ∈ ops, ¬op.Fills object device)
    (hs : s.table.Has (fun r => r.valid = false) object device) :
    (operated ops s).table.Has (fun r => r.valid = false) object device := by
  induction ops generalizing s with
  | nil => exact hs
  | cons op others ih =>
    refine ih (fun op' hop' => hops op' (List.mem_cons_of_mem op hop')) ?_
    exact has_operate Record.lasting_invalid op
      (fun hfills => absurd hfills (hops op List.mem_cons_self)) hs

theorem invalid_invalidate (s : Store) (object device : Nat) :
    s.invalidate.table.Has (fun r => r.valid = false) object device := by
  intro r hr
  rw [invalidate, Table.get?_invalidate] at hr
  obtain ⟨old, -, rfl⟩ := Option.map_eq_some_iff.1 hr
  rfl

/-- A lazy transfer of a window that is not held writes it, into the buffer that is there if that
has room. -/
theorem asked_of_copyIn {event : Option EventId}
    (hs : s.table.Has (fun r => r.valid = false) object device)
    (hrun : (copyIn object device window wait).run s = (.ok event, s')) :
    event.isSome = true ∧ s.context.Asked device (s.sending object device window) s'.context := by
  have hcopying := copying_of_run hrun
  have hasked := hcopying.asked rfl
  generalize hv : Except.ok event = v at hcopying
  cases hcopying with
  | refused => cases hv
  | held hr hholds => simp [Record.holds, hs _ hr] at hholds
  | @sending r v s' hr hholds hsending =>
    have hnone : s.holds object device window = false := by
      rw [holds, Table.record_eq_ok.2 hr]
      exact hholds
    rw [hnone] at hasked
    cases v with
    | error fault => cases hv
    | ok e =>
      cases hv
      exact ⟨rfl, hasked⟩

/-- Lazy transfers are idempotent. After one that has succeeded, and after any operations that spare
its window, with any outcomes, another one changes nothing but the journal. Where a transfer of a
whole object was left out, the object may have become longer since it was sent: its buffer has to be
large enough, or there has to be memory for one that is. After an invalidation the next transfer is
written, once, and a buffer is made only where there is none that is large enough. -/
theorem lazy_transfer_needed_once (object device : Nat) (window : Option Window) :
    (∀ (s s₁ : Store) (wait : List EventId) (event : Option EventId), s.table.Reached →
      (event = none → window = none →
        s.hasRoom object device none = true ∨ s.bytesOf object none < Station.memoryLimit) →
      (copyIn object device window wait).run s = (.ok event, s₁) →
      ∀ ops, SparesAll object device window ops s₁ → ∀ again, ∃ text,
        (copyIn object device window again).run (operated ops s₁) =
          (.ok none, (operated ops s₁).logged text)) ∧
    ∀ (s s' : Store) (ops : List Operation) (wait : List EventId) (event : Option EventId),
      (∀ op ∈ ops, ¬op.Fills object device) →
      (copyIn object device window wait).run (operated ops s.invalidate) = (.ok event, s') →
      event.isSome = true ∧ (operated ops s.invalidate).context.Asked device
        ((operated ops s.invalidate).makingRoom object device window ++
          [⟨.write, "write " ++ (operated ops s.invalidate).labelOf object⟩]) s'.context := by
  refine ⟨fun s s₁ wait event hreached hroom hrun ops hops again => ?_,
    fun s s' ops wait event hops hrun => ?_⟩
  · have hextents : s₁.context.extents = s.context.extents := by
      have hextents := extents_operate (.copyIn object device window wait) s
      rw [operate, hrun] at hextents
      exact hextents
    have hsecures := (copying_of_run hrun).secures (hreached.backed object device) hroom hextents
    exact run_copyIn_of_secures (hsecures.operated hops) again
  · exact asked_of_copyIn (invalid_operated hops (invalid_invalidate s object device)) hrun

/-- Four bytes in the middle of an object are sent. A buffer for two is asked for, a launch writes
the object and a transfer of an object that there is not is refused: the bytes are not sent again.
After an invalidation, and after the buffer was read back, they are, into the same buffer. -/
theorem lazy_transfer_needed_once_middle :
    let window : Option Window := some ⟨2, 4⟩
    let sparing : List Operation := [.allocate 0 0 (some ⟨0, 2⟩), .claim 0 0, .streamIn 3 0 none []]
    let later : List Operation := [.streamOut 0 0 (some ⟨1, 3⟩) [] true]
    ∃ s₁ s₂ text, (copyIn 0 0 window []).run small = (.ok (some 1), s₁) ∧
      (copyIn 0 0 window []).run (operated sparing s₁) =
      (.ok none, (operated sparing s₁).logged text) ∧
      (copyIn 0 0 window []).run (operated later (operated sparing s₁).invalidate) =
      (.ok (some 3), s₂) ∧ (operated later (operated sparing s₁).invalidate).context.Asked 0
      [⟨.write, "write a"⟩] s₂.context := by
  intro window sparing later
  obtain ⟨honce, hagain⟩ := lazy_transfer_needed_once 0 0 window
  let s₁ : Store := ((copyIn 0 0 window []).run small).2
  let s₂ : Store := operated later (operated sparing s₁).invalidate
  have hfirst : (copyIn 0 0 window []).run small = (.ok (some 1), s₁) :=
    Prod.ext (by decide +kernel) rfl
  have hsparing : SparesAll 0 0 window sparing s₁ :=
    ⟨fun _ _ => by decide +kernel, ⟨trivial, ⟨fun ho => absurd ho (by decide), trivial⟩⟩⟩
  have hneeded : some 1 = none → window = none →
      small.hasRoom 0 0 none = true ∨ small.bytesOf 0 none < Station.memoryLimit :=
      fun h => by cases h
  obtain ⟨text, hheld⟩ := honce small s₁ [] (some 1) (.new 1 1) hneeded hfirst sparing hsparing []
  have hwritten : ((copyIn 0 0 window []).run s₂).1 = .ok (some 3) := by decide +kernel
  have hlast : (copyIn 0 0 window []).run s₂ =
      (.ok (some 3), ((copyIn 0 0 window []).run s₂).2) := by
    rw [← hwritten]
  have hlater : ∀ op ∈ later, ¬op.Fills 0 0 := by simp [later, Operation.Fills]
  obtain ⟨-, hasked⟩ := hagain (operated sparing s₁) _ later [] (some 3) hlater hlast
  have hroom : s₂.makingRoom 0 0 window = [] := by decide +kernel
  have hlabel : s₂.labelOf 0 = "a" := by decide +kernel
  rw [show (operated later (operated sparing s₁).invalidate) = s₂ from rfl, hroom, hlabel] at hasked
  exact ⟨s₁, _, text, hfirst, hheld, hlast, hasked⟩

end Store

end Offload
