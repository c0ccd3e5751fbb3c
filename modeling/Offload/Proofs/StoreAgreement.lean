import Offload.Proofs.Agreement
import Offload.Proofs.FaultKinds
import Offload.Proofs.StoreOutcomes

/-!
# Stores side by side

The operations of a store look at the context and the table, write to the journal, change one
record, and have four operations of a device. Relations between stores that go well with these parts
go well with the whole operations, under any terms. The tables may differ in the marks of launches,
which say that a buffer was written: a mark stands on a buffer that holds its object, and no refusal
depends on it. The events on the two sides may differ too.
-/

namespace Offload

open Offload.Action

variable {α β γ : Type} {C : Context → Context → Prop} {S : Station → Station → Prop}

/-- Two lists that are alike item by item give items that are alike, or the same fault. -/
theorem alike_lookup (what : Resource) {l : List α} {l' : List β} {f : α → γ} {g : β → γ}
    (h : l'.map g = l.map f) (index : Nat) :
    Alike (fun a b => g b = f a) (lookup what l index) (lookup what l' index) := by
  have hlength : l'.length = l.length := by simpa using congrArg List.length h
  have hitem : l'[index]?.map g = l[index]?.map f := by
    rw [← List.getElem?_map, ← List.getElem?_map, h]
  unfold lookup
  cases hl : l[index]? with
  | none =>
    cases hl' : l'[index]? with
    | none => simp [hlength]
    | some b => simp [hl, hl'] at hitem
  | some a =>
    cases hl' : l'[index]? with
    | none => simp [hl, hl'] at hitem
    | some b => simpa [hl, hl'] using hitem

/-! ## Records -/

theorem map_modify_of_comm {l : List α} {f : α → α} {g : α → β} {h : β → β}
    (hfg : ∀ a, g (f a) = h (g a)) (index : Nat) :
    (l.modify index f).map g = (l.map g).modify index h := by
  apply List.ext_getElem?
  intro i
  simp only [List.getElem?_map, List.getElem?_modify]
  cases l[i]? with
  | none => rfl
  | some a =>
    by_cases hi : index = i
    · simp [hi, hfg]
    · simp [hi]

namespace Record

/-- The record without the mark of a launch on a buffer that holds its object. -/
def unmarked (r : Record) : Record :=
  if r.valid && r.allocation.isSome then { r with modified := false } else r

@[simp] theorem allocation_unmarked (r : Record) : r.unmarked.allocation = r.allocation := by
  unfold unmarked
  split <;> rfl

@[simp] theorem valid_unmarked (r : Record) : r.unmarked.valid = r.valid := by
  unfold unmarked
  split <;> rfl

@[simp] theorem window_unmarked (r : Record) : r.unmarked.window = r.window := by
  unfold unmarked
  split <;> rfl

section Marks

variable {r r' : Record} (h : r'.unmarked = r.unmarked)

include h

theorem allocation_eq : r'.allocation = r.allocation := by
  rw [← allocation_unmarked r', h, allocation_unmarked]

theorem valid_eq : r'.valid = r.valid := by
  rw [← valid_unmarked r', h, valid_unmarked]

theorem window_eq : r'.window = r.window := by
  rw [← window_unmarked r', h, window_unmarked]

theorem buffer_eq : r'.buffer = r.buffer := by
  rw [buffer, allocation_eq h, buffer]

theorem holds_eq (window : Option Window) : r'.holds window = r.holds window := by
  rw [holds, valid_eq h, window_eq h, holds]

/-- There is no mark where the buffer does not hold the object. -/
theorem eq_of_unmarked (hr : (r.valid && r.allocation.isSome) = false) : r' = r := by
  have hr' : (r'.valid && r'.allocation.isSome) = false := by
    rw [valid_eq h, allocation_eq h]
    exact hr
  rw [unmarked, unmarked, hr, hr'] at h
  exact h

end Marks

/-- A launch leaves nothing but a mark on a buffer that holds its object. -/
theorem unmarked_written {r : Record} (hr : (r.valid && r.allocation.isSome) = true) :
    r.written.unmarked = r.unmarked := by
  obtain ⟨hvalid, hallocation⟩ := Bool.and_eq_true_iff.1 hr
  simp [unmarked, written, hvalid, hallocation]

/-- A change that does the same to a record with a mark and to the record without it. -/
def Blind (f : Record → Record) : Prop := ∀ r, (f r.unmarked).unmarked = (f r).unmarked

theorem blind_const (r : Record) : Blind fun _ => r := fun _ => rfl

theorem blind_allocate (a : Allocation) : Blind fun r => { r with allocation := some a } := by
  intro r
  simp only [unmarked]
  split <;> simp_all

theorem blind_sent (window : Option Window) : Blind fun r => r.sent window := by
  intro r
  simp [unmarked, sent]
  split <;> simp_all

theorem blind_fetched : Blind fetched := by
  intro r
  simp only [unmarked, fetched]
  split <;> simp_all

theorem blind_written : Blind written := by
  intro r
  simp only [unmarked, written]
  split <;> simp_all

theorem blind_invalidate : Blind invalidate := by
  intro r
  simp only [invalidate, allocation_unmarked]

/-- A change that leaves the buffer of a record as it is or takes it away. -/
def Spares (f : Record → Record) : Prop := ∀ r, (f r).allocation = r.allocation ∨
      (f r).allocation = none

end Record

/-! ## Contexts -/

/-- What goes together at two stations goes together in the contexts. -/
theorem Context.couples_onDevice {T : Terms Station DeviceFault} {T' : Terms Context Fault}
    {x : DeviceAction α} {y : DeviceAction β} {Q : α → β → Station → Station → Prop}
    {Q' : α → β → Context → Context → Prop} {index : Nat} (hxy : Couples T S x y Q)
    (hdevices : ∀ {c c'}, C c c' →
      (∃ d d', c.devices[index]? = some d ∧ c'.devices[index]? = some d' ∧
        S ⟨d, c.objects, c.journal⟩ ⟨d', c'.objects, c'.journal⟩) ∨
      c.devices[index]? = none ∧ c'.devices[index]? = none)
    (hback : ∀ {a b c c' s t d}, C c c' → c.devices[index]? = some d → Q a b s t →
      Q' a b (c.withStation index s) (c'.withStation index t))
    (hT : T'.strict → T.strict ∧ ∀ {c c'}, C c c' →
      (∀ fault fault' s t, T.fault fault fault' s t → T'.fault (.device fault) (.device fault')
        (c.withStation index s) (c'.withStation index t)) ∧
      T'.fault (.indexOutOfRange .device index c.devices.length)
        (.indexOutOfRange .device index c'.devices.length) c c') :
    Couples T' C (onDevice index x) (onDevice index y) Q' := by
  intro c c' hc
  rcases hdevices hc with ⟨d, d', hd, hd', hS⟩ | ⟨hd, hd'⟩
  · rw [run_onDevice x hd, run_onDevice y hd']
    have hrun := hxy _ _ hS
    revert hrun
    rcases x.run ⟨d, c.objects, c.journal⟩ with ⟨r, s⟩
    rcases y.run ⟨d', c'.objects, c'.journal⟩ with ⟨r', t⟩
    cases r with
    | ok a =>
      cases r' with
      | ok b => exact hback hc hd
      | error fault' => exact id
    | error fault =>
      cases r' with
      | ok b => exact fun hnot hstrict => hnot (hT hstrict).1
      | error fault' =>
        exact fun hfault hstrict => ((hT hstrict).2 hc).1 fault fault' s t (hfault (hT hstrict).1)
  · rw [run_onDevice_none x hd, run_onDevice_none y hd']
    exact fun hstrict => ((hT hstrict).2 hc).2

/-- A relation between contexts whose devices are related by `S`, as devices of stations. -/
structure Context.Agreement (C : Context → Context → Prop) (S : Station → Station → Prop) :
    Prop where
  length_eq : ∀ {c c'}, C c c' → c'.devices.length = c.devices.length
  objects : ∀ {c c'}, C c c' → c'.objects = c.objects
  places : ∀ {c c'}, C c c' → c'.places = c.places
  journals : ∀ {c c'} (journal journal' : Journal), C c c' →
    C { c with journal } { c' with journal := journal' }
  station : ∀ {c c'} {index : Nat} {d d' : Device}, C c c' → c.devices[index]? = some d →
    c'.devices[index]? = some d' → S ⟨d, c.objects, c.journal⟩ ⟨d', c'.objects, c'.journal⟩
  withStation : ∀ {c c'} {s t : Station} (index : Nat), C c c' → S s t →
    C (c.withStation index s) (c'.withStation index t)

namespace Context.Agreement

variable {c c' : Context} {x : DeviceAction α} {y : DeviceAction β} {V : α → β → Prop}

/-- The devices of an index: there are two, or there is none on either side. -/
theorem devices_or_none (h : Agreement C S) (hc : C c c') (index : Nat) :
    (∃ d d', c.devices[index]? = some d ∧ c'.devices[index]? = some d' ∧
        S ⟨d, c.objects, c.journal⟩ ⟨d', c'.objects, c'.journal⟩) ∨
      c.devices[index]? = none ∧ c'.devices[index]? = none := by
  have hlength := h.length_eq hc
  by_cases hlt : index < c.devices.length
  · have hd := List.getElem?_eq_getElem hlt
    have hd' := List.getElem?_eq_getElem (hlength ▸ hlt)
    exact .inl ⟨_, _, hd, hd', h.station hc hd hd'⟩
  · refine .inr ⟨?_, ?_⟩
    · rw [List.getElem?_eq_none_iff]
      omega
    · rw [List.getElem?_eq_none_iff]
      omega

theorem alike_device (h : Agreement C S) (hc : C c c') (index : Nat) :
    Alike (fun _ _ => True) (c.device index) (c'.device index) := by
  rw [Context.device, Context.device, lookup, lookup]
  rcases h.devices_or_none hc index with ⟨d, d', hd, hd', -⟩ | ⟨hd, hd'⟩
  · rw [hd, hd']
    trivial
  · rw [hd, hd', h.length_eq hc]
    rfl

/-- What agrees at the stations agrees in the contexts. -/
theorem onDevice (h : Agreement C S) (hxy : Agrees S x y V) (index : Nat) :
    Agrees C (Context.onDevice index x) (Context.onDevice index y) V := by
  refine couples_onDevice hxy (fun hc => h.devices_or_none hc index)
    (fun hc _ hab => ⟨hab.1, h.withStation index hc hab.2⟩) fun _ => ⟨trivial, fun hc => ⟨?_, ?_⟩⟩
  · rintro fault _ s t ⟨rfl, hst⟩
    exact ⟨rfl, h.withStation index hc hst⟩
  · rw [h.length_eq hc]
    exact ⟨rfl, hc⟩

theorem leads_onDevice (h : Agreement C S) (hxy : Leads S x y V) (index : Nat) :
    Leads C (Context.onDevice index x) (Context.onDevice index y) V :=
  couples_onDevice hxy (fun hc => h.devices_or_none hc index)
    (fun hc _ hab => ⟨hab.1, h.withStation index hc hab.2⟩) False.elim

end Context.Agreement

/-! ## Stores -/

namespace Store

variable {T : Terms Store Fault} {R : Store → Store → Prop} {P : Nat → Prop} {B : BufferId → Prop}
  {W : List EventId → List EventId → Prop} {E : EventId → EventId → Prop} {object device : Nat}
  {wait wait' : List EventId}

/-- What the work for one object on one device sees and notes. The object is stored at a place of
which `P` holds, and its buffer is one of which `B` holds. -/
structure Sight (T : Terms Store Fault) (R : Store → Store → Prop) (P : Nat → Prop)
    (B : BufferId → Prop) (object device : Nat) : Prop where
  fault : ∀ {e : Fault} {s s'}, e.isRoutine → R s s' → T.strict → T.fault e e s s'
  place : Goes T R (Store.place object) (Store.place object) fun p q => p = q ∧ P p
  host : ∀ {p}, P p → Goes T R (Store.host p) (Store.host p)
    fun o o' => o'.label = o.label ∧ o'.length = o.length
  log : ∀ text, Goes T R (Store.log .trace text) (Store.log .trace text) Eq
  note : ∀ label, Goes T R (Store.note label object device) (Store.note label object device) Eq
  look : Goes T R (Store.record object device) (Store.record object device)
    fun r r' => r'.unmarked = r.unmarked ∧ ∀ a, r.allocation = some a → B a.buffer
  update : ∀ {f}, Record.Blind f → Record.Spares f →
    Goes T R (Store.update object device f) (Store.update object device f) Eq
  setOwner : ∀ {s s'}, R s s' →
    R { s with table := s.table.setOwner object device }
      { s' with table := s'.table.setOwner object device }

namespace Sight

variable (h : Sight T R P B object device)

include h

theorem place_bind {f : Nat → StoreAction α} {g : Nat → StoreAction β} {V : α → β → Prop}
    (hfg : ∀ p, P p → Goes T R (f p) (g p) V) :
    Goes T R (Store.place object >>= f) (Store.place object >>= g) V := by
  apply goes_bind h.place
  rintro p _ ⟨rfl, hp⟩
  exact hfg p hp

theorem label : Goes T R (label object) (Store.label object) Eq :=
  h.place_bind fun _ hp => goes_bind (h.host hp) fun _ _ ho => goes_pure ho.1.symm

theorem checkWindow (length : Nat) (window : Option Window) :
    Goes T R (checkWindow object length window) (Store.checkWindow object length window) Eq := by
  cases window with
  | none => exact goes_pure rfl
  | some w =>
    rw [Store.checkWindow]
    split
    · exact goes_pure rfl
    · exact goes_throw fun _ _ => h.fault rfl

theorem bufferOf (hnone : ∀ {s s'} label, R s s' → T.strict →
      T.fault (.objectNotAllocated object label device)
      (.objectNotAllocated object label device) s s')
    (label : String) :
    Goes T R (bufferOf label object device) (Store.bufferOf label object device) fun b b' =>
      b = b' ∧ B b := by
  refine goes_bind h.look fun r r' hr => ?_
  rw [Record.buffer_eq hr.1]
  cases ha : r.allocation with
  | none =>
    simp only [Record.buffer, ha, Option.map_none]
    exact goes_throw fun _ _ => hnone label
  | some a =>
    simp only [Record.buffer, ha, Option.map_some]
    exact goes_pure ⟨rfl, hr.2 a ha⟩

/-- A refusal gives the text of the record, which has no mark then. -/
theorem validBuffer :
    Goes T R (validBuffer object device) (Store.validBuffer object device) fun b b' =>
      b = b' ∧ B b := by
  refine goes_bind h.look fun r r' hr => ?_
  cases hholds : r.valid && r.allocation.isSome with
  | true =>
    rw [Record.buffer_eq hr.1, Record.valid_eq hr.1]
    obtain ⟨hvalid, hallocation⟩ := Bool.and_eq_true_iff.1 hholds
    obtain ⟨a, ha⟩ := Option.isSome_iff_exists.1 hallocation
    simp only [Record.buffer, ha, hvalid]
    exact goes_pure ⟨rfl, hr.2 a ha⟩
  | false =>
    obtain rfl := Record.eq_of_unmarked hr.1 hholds
    split
    · rename_i buffer hbuffer hvalid
      obtain ⟨a, ha, rfl⟩ := Option.map_eq_some_iff.1 hbuffer
      exact goes_pure ⟨rfl, hr.2 a ha⟩
    · exact goes_then h.label fun _ => goes_throw fun _ _ => h.fault rfl

theorem claim : Goes T R (claim object device) (Store.claim object device) Eq := by
  refine goes_bind h.look fun _ _ _ => ?_
  refine goes_then (h.update Record.blind_written fun _ => .inl rfl) fun _ => ?_
  exact goes_then (goes_modify fun s s' hs => h.setOwner hs) fun _ => h.log _

end Sight

/-- What it takes to make a buffer for one object on one device. Its event is related by `E`. -/
structure Seat (T : Terms Store Fault) (R : Store → Store → Prop) (P : Nat → Prop)
    (E : EventId → EventId → Prop) (object device : Nat) :
    Prop extends Sight T R P (fun _ => True) object device where
  requireDevice : Goes T R (Store.requireDevice device) (Store.requireDevice device) Eq
  provide : ∀ {p}, P p → ∀ label bytes,
    Goes T R (Store.provide label p object device bytes)
    (Store.provide label p object device bytes) E
  release : ∀ buffer, Goes T R (inContext (Context.onDevice device (Station.release buffer)))
    (inContext (Context.onDevice device (Station.release buffer))) Eq

/-- The work for one object on one device, step by step. Commands that wait for events take wait
lists that are related by `W` and give events that are related by `E`. -/
structure Site (T : Terms Store Fault) (R : Store → Store → Prop) (P : Nat → Prop)
    (W : List EventId → List EventId → Prop) (E : EventId → EventId → Prop) (object device : Nat) :
    Prop extends Seat T R P E object device where
  write : ∀ {wait wait' p} label window, P p → W wait wait' → Goes T R
    (do let b ← Store.bufferOf label object device
        inContext (Context.onDevice device (Station.write b p window wait)))
    (do let b ← Store.bufferOf label object device
        inContext (Context.onDevice device (Station.write b p window wait'))) E
  read : ∀ {wait wait' p} label window blocking, P p → W wait wait' → Goes T R
    (do let b ← Store.bufferOf label object device
        inContext (Context.onDevice device (Station.read b p window wait blocking)))
    (do let b ← Store.bufferOf label object device
        inContext (Context.onDevice device (Station.read b p window wait' blocking))) E

namespace Seat

variable (h : Seat T R P E object device)

include h

theorem discard (buffer : BufferId) :
    Goes T R (discard buffer object device) (Store.discard buffer object device) Eq :=
  goes_then (h.release buffer) fun _ => h.update (Record.blind_const _) fun _ => .inr rfl

theorem allocate (window : Option Window) :
    Goes T R (allocate object device window) (Store.allocate object device window)
      (Option.Rel E) := by
  refine h.place_bind fun place hplace => ?_
  refine goes_bind (h.host hplace) fun host host' hhost => ?_
  rw [hhost.1, hhost.2]
  refine goes_then h.requireDevice fun _ => ?_
  refine goes_then (h.checkWindow host.length window) fun _ => ?_
  refine goes_bind h.look fun r r' hr => ?_
  rw [Record.allocation_eq hr.1]
  have hprovide : ∀ bytes, Goes T R
      (do let event ← Store.provide host.label place object device bytes; return some event)
      (do let event ← Store.provide host.label place object device bytes; return some event)
      (Option.Rel E) := fun bytes =>
    goes_bind (h.provide hplace _ bytes) fun _ _ hevents => goes_pure (.some hevents)
  split
  · split
    · exact goes_pure .none
    · refine goes_then (h.log _) fun _ => ?_
      exact goes_then (h.discard _) fun _ => hprovide _
  · exact hprovide _

end Seat

namespace Site

section Operations

variable (h : Site T R P W E object device) (window : Option Window)

include h

theorem transferred {f : Record → Record} (hf : Record.Blind f) (hspares : Record.Spares f)
    (label : String) {event event' : EventId} (hevents : E event event') :
    Goes T R (do Store.update object device f; Store.note label object device; return event)
      (do Store.update object device f; Store.note label object device; return event') E :=
  goes_then (h.update hf hspares) fun _ => goes_then (h.note label) fun _ => goes_pure hevents

theorem streamIn (hwait : W wait wait') :
    Goes T R (streamIn object device window wait)
      (Store.streamIn object device window wait') E := by
  refine goes_bind (h.allocate window) fun _ _ _ => ?_
  refine h.place_bind fun place hplace => ?_
  refine goes_bind (h.host hplace) fun host host' hhost => ?_
  rw [hhost.1]
  refine goes_assoc (h.write host.label window hplace hwait) fun _ _ hevents => ?_
  exact h.transferred (Record.blind_sent window) (fun _ => .inl rfl) host.label hevents

theorem copyIn (hwait : W wait wait') :
    Goes T R (copyIn object device window wait) (Store.copyIn object device window wait')
      (Option.Rel E) := by
  refine goes_bind h.look fun r r' hr => ?_
  rw [Record.holds_eq hr.1]
  split
  · exact goes_then (h.log _) fun _ => goes_pure .none
  · exact goes_bind (h.streamIn window hwait) fun _ _ hevents => goes_pure (.some hevents)

theorem streamOut (hwait : W wait wait') (blocking : Bool) :
    Goes T R (streamOut object device window wait blocking)
      (Store.streamOut object device window wait' blocking) E := by
  refine h.place_bind fun place hplace => ?_
  refine goes_bind (h.host hplace) fun host host' hhost => ?_
  rw [hhost.1, hhost.2]
  refine goes_then h.requireDevice fun _ => ?_
  refine goes_then (h.checkWindow host.length window) fun _ => ?_
  refine goes_assoc (h.read host.label window blocking hplace hwait) fun _ _ hevents => ?_
  exact h.transferred Record.blind_fetched (fun _ => .inl rfl) host.label hevents

end Operations

/-! ### The same events -/

theorem eq_of_rel_eq {a b : Option α} (h : Option.Rel Eq a b) : a = b := by
  cases h with
  | some hab => rw [hab]
  | none => rfl

theorem same_allocate (h : Site T R P W Eq object device) (window : Option Window) :
    Goes T R (Store.allocate object device window) (Store.allocate object device window) Eq :=
  goes_weaken (h.allocate window) fun _ _ => eq_of_rel_eq

theorem same_copyIn (h : Site T R P W Eq object device) (window : Option Window)
    (hwait : W wait wait') :
    Goes T R (Store.copyIn object device window wait)
      (Store.copyIn object device window wait') Eq :=
  goes_weaken (h.copyIn window hwait) fun _ _ => eq_of_rel_eq

end Site

/-- A seat from its parts: records may change in any way that is blind to marks. -/
theorem seat_of_parts (hsight : Sight T R P (fun _ => True) object device)
    (hdevice : Goes T R (requireDevice device) (requireDevice device) Eq)
    (hupdate : ∀ {f}, Record.Blind f →
      Goes T R (update object device f) (update object device f) Eq)
    (hallocate : ∀ {p}, P p → ∀ bytes, Goes T R
      (inContext (Context.onDevice device (Station.allocate p bytes)))
      (inContext (Context.onDevice device (Station.allocate p bytes))) fun a b =>
      b.1 = a.1 ∧ E a.2 b.2)
    (hrelease : ∀ buffer, Goes T R (inContext (Context.onDevice device (Station.release buffer)))
      (inContext (Context.onDevice device (Station.release buffer))) Eq) :
    Seat T R P E object device where
  toSight := hsight
  requireDevice := hdevice
  provide hplace label bytes := by
    refine goes_bind (hallocate hplace bytes) ?_
    rintro ⟨buffer, event⟩ ⟨_, event'⟩ ⟨rfl, hevents⟩
    refine goes_then (hupdate (Record.blind_allocate _)) fun _ => ?_
    exact goes_then (hsight.note label) fun _ => goes_pure hevents
  release := hrelease

/-- A site from a seat where any buffer may be written and read. -/
theorem site_of_seat (hseat : Seat T R P E object device)
    (hnone : ∀ {s s'} label, R s s' → T.strict →
      T.fault (.objectNotAllocated object label device)
      (.objectNotAllocated object label device) s s')
    (hwrite : ∀ {wait wait' p} buffer window, P p → W wait wait' → Goes T R
      (inContext (Context.onDevice device (Station.write buffer p window wait)))
      (inContext (Context.onDevice device (Station.write buffer p window wait'))) E)
    (hread : ∀ {wait wait' p} buffer window blocking, P p → W wait wait' → Goes T R
      (inContext (Context.onDevice device (Station.read buffer p window wait blocking)))
      (inContext (Context.onDevice device (Station.read buffer p window wait' blocking))) E) :
    Site T R P W E object device where
  toSeat := hseat
  write label window hplace hwait := by
    refine goes_bind (hseat.bufferOf hnone label) ?_
    rintro buffer _ ⟨rfl, -⟩
    exact hwrite buffer window hplace hwait
  read label window blocking hplace hwait := by
    refine goes_bind (hseat.bufferOf hnone label) ?_
    rintro buffer _ ⟨rfl, -⟩
    exact hread buffer window blocking hplace hwait

/-- A relation between stores whose contexts are related by `C` and whose devices by `S`. Commands
that wait for events related by `W` have events related by `E`. -/
structure Agreement (R : Store → Store → Prop) (C : Context → Context → Prop)
    (S : Station → Station → Prop) (W : List EventId → List EventId → Prop)
    (E : EventId → EventId → Prop) : Prop extends Context.Agreement C S where
  context : ∀ {s s'}, R s s' → C s.context s'.context
  withContext : ∀ {s s' c c'}, R s s' → C c c' → R { s with context := c } { s' with context := c' }
  record : ∀ {s s'} (object device : Nat), R s s' → Alike (fun r r' => r'.unmarked = r.unmarked)
    (s.table.record object device) (s'.table.record object device)
  update : ∀ {f} (object device : Nat), Record.Blind f → Respects R (Store.update object device f)
  setOwner : ∀ {s s'} (object device : Nat), R s s' →
    R { s with table := s.table.setOwner object device }
      { s' with table := s'.table.setOwner object device }
  allocateBuffer : ∀ place bytes, Agrees S (Station.allocate place bytes)
    (Station.allocate place bytes) fun a b => b.1 = a.1 ∧ E a.2 b.2
  release : ∀ buffer, Respects S (Station.release buffer)
  write : ∀ {wait wait'} buffer place window, W wait wait' →
    Agrees S (Station.write buffer place window wait) (Station.write buffer place window wait') E
  read : ∀ {wait wait'} buffer place window blocking, W wait wait' → Agrees S
    (Station.read buffer place window wait blocking)
    (Station.read buffer place window wait' blocking) E

namespace Agreement

section Parts

variable (h : Agreement R C S W E)

include h

theorem inContext {x : Action Context Fault α} {y : Action Context Fault β} {V : α → β → Prop}
    (hxy : Agrees C x y V) : Agrees R (inContext x) (Store.inContext y) V :=
  agrees_focus hxy (fun _ _ hs => h.context hs) fun _ _ _ _ hs hc => h.withContext hs hc

theorem onDeviceOf {x : DeviceAction α} {y : DeviceAction β} {V : α → β → Prop}
    (hxy : Agrees S x y V) (index : Nat) : Agrees R
      (Store.inContext (Context.onDevice index x)) (Store.inContext (Context.onDevice index y)) V :=
  h.inContext (h.onDevice hxy index)

theorem log (level level' : Level) (text text' : String) :
    Agrees R (log level text) (Store.log level' text') Eq :=
  h.inContext (goes_modify fun _ _ hc => h.journals _ _ hc)

theorem place (index : Nat) : Respects R (place index) := by
  refine goes_get fun s s' hs => ?_
  rw [Context.place, Context.place, h.places (h.context hs)]
  exact respects_ofExcept

theorem requireDevice (index : Nat) : Respects R (requireDevice index) :=
  goes_get fun _ _ hs =>
    goes_bind (agrees_ofExcept (h.alike_device (h.context hs) index)) fun _ _ _ =>
      respects_pure

theorem look (object device : Nat) :
    Agrees R (Store.record object device) (Store.record object device) fun r r' =>
      r'.unmarked = r.unmarked :=
  goes_get fun _ _ hs => agrees_ofExcept (h.record object device hs)

/-- What holds for all objects and devices holds for each. -/
theorem site (object device : Nat) : Site (.same R) R (fun _ => True) W E object device := by
  refine site_of_seat
    (seat_of_parts ⟨fun _ hs _ => ⟨rfl, hs⟩, goes_weaken (h.place object) fun _ _ heq =>
      ⟨heq, trivial⟩,
    fun _ => goes_get fun s s' hs => ?_, fun text => h.log _ _ text text,
    fun _ => goes_bind (h.look object device) fun _ _ _ => h.log _ _ _ _,
    goes_weaken (h.look object device) fun _ _ hr => ⟨hr, fun _ _ => trivial⟩,
    fun hf _ => h.update object device hf, h.setOwner object device⟩ (h.requireDevice device)
    (h.update object device) (fun _ bytes => h.onDeviceOf (h.allocateBuffer _ bytes) device)
    (fun buffer => h.onDeviceOf (h.release buffer) device)) (fun _ hs _ => ⟨rfl, hs⟩)
    (fun buffer window _ hwait => h.onDeviceOf (h.write buffer _ window hwait) device)
    (fun buffer window blocking _ hwait =>
      h.onDeviceOf (h.read buffer _ window blocking hwait) device)
  rw [h.objects (h.context hs)]
  exact goes_pure ⟨rfl, rfl⟩

theorem label (index : Nat) : Respects R (label index) := (h.site index 0).label

end Parts

end Agreement

end Store

end Offload
