import Offload.Proofs.StoreOutcomes

/-!
# Stores keep table and memory in step

The operations of a store keep its table in step with the memories of its devices, also when they
fail half-way: whether a buffer could be given up, made or written, the table says what is there.
-/

namespace Offload

open Offload.Action

namespace Store

variable {s : Store} (object device : Nat) (window : Option Window) (wait : List EventId)

/-- A store with a given table whose devices are sound and laid out in a given way. -/
def At (t : Table) (l : Layout) (s : Store) : Prop := s.table = t ∧ s.context.SoundAt l

/-- A store whose devices are sound and whose table is in step with them. -/
def Sound (s : Store) : Prop :=
  s.context.SoundAt s.context.layout ∧ s.table.Matches s.context.layout

theorem At.sound {t : Table} {l : Layout} (hs : s.At t l) (ht : t.Matches l) : s.Sound := by
  obtain ⟨rfl, hlayout, hsound⟩ := hs
  subst hlayout
  exact ⟨⟨rfl, hsound⟩, ht⟩

variable {t : Table} {l : Layout}

/-- A contract on sound stores may be proved for each table and layout on its own. -/
theorem meets_of_at {α : Type} {x : StoreAction α} {Q : α → Store → Prop}
    (h : ∀ t l, t.Matches l → Meets (At t l) x Q Sound) : Meets Sound x Q Sound :=
  fun s hs => h s.table s.context.layout hs.2 s ⟨rfl, hs.1⟩

theorem keeps_inContext {α : Type} {x : Action Context Fault α}
    (hx : Keeps (Context.SoundAt l) x) : Keeps (At t l) (inContext x) := by
  refine meets_focus fun s hs => ?_
  refine meets_weaken hx ?_ (fun _ _ hc => ⟨hs.1, hc⟩) fun _ hc => ⟨hs.1, hc⟩
  rintro _ rfl
  exact hs.2

theorem keeps_log (level : Level) (text : String) : Keeps (At t l) (log level text) :=
  keeps_inContext (keeps_modify fun _ hc => hc.log level text)

/-! ## Outcomes -/

section Outcomes

variable {s s' : Store} {object device : Nat} {window : Option Window} {wait : List EventId}
  {d : Device}
variable {r : Record} {st : Station}

theorem Sound.logged (hs : s.Sound) (text : String) : (s.logged text).Sound :=
  At.sound ⟨rfl, hs.1.log .trace text⟩ hs.2

theorem Sound.onStation (hs : s.Sound) (hd : s.context.devices[device]? = some d)
    (hst : st.SoundAt (s.context.layout.size device) s.context.layout.length) :
    (s.onStation device st).Sound := by
  have hback := hs.1.withStation hd hst
  rw [Function.update_eq_self] at hback
  exact At.sound ⟨rfl, hback⟩ hs.2

/-- After a transfer the flags of a record are changed, and no buffer. -/
theorem Sound.entered (hs : s.Sound) (hd : s.context.devices[device]? = some d)
    (hst : st.SoundAt (s.context.layout.size device) s.context.layout.length) {f : Record → Record}
    (hf : ∀ r, s.table.get? object device = some r → (f r).allocation = r.allocation ∧
      (f r).Coherent)
    (text : String) : (s.entered object device st f text).Sound := by
  have hback := hs.1.withStation hd hst
  rw [Function.update_eq_self] at hback
  exact At.sound ⟨rfl, hback.log .trace text⟩ (hs.2.update_flags hf)

/-- What is true of a buffer that the table has for an object. -/
theorem Sound.live (hs : s.Sound) (hr : s.table.get? object device = some r) {a : Allocation}
    (ha : r.allocation = some a) : s.context.layout.size device a.buffer = some a.bytes := by
  refine (hs.2.live object device a ?_).1
  rw [Table.allocation?, hr, Option.bind_some, ha]

/-- A window inside an object is no longer than the object, if a buffer can be made for it at
all. -/
theorem size_le_of_fits {w : Window} {length : Nat} (hw : w.fits length = true)
    (hsize : w.size < Station.memoryLimit) : w.size ≤ length := by
  have hlimit : Station.memoryLimit ≤ maxWord64 := by decide
  have hstop : min (w.offset + w.size) maxWord64 ≤ length := of_decide_eq_true hw
  omega

/-- The device that has given up a buffer has none for the object. -/
theorem Vacated.sound {s₁ : Store} {d₁ : Device} (h : s.Vacated object device d r s₁ d₁)
    (hs : s.Sound) (hd : s.context.devices[device]? = some d)
    (hr : s.table.get? object device = some r) :
    s₁.Sound ∧ (∃ r₁, s₁.table.get? object device = some r₁ ∧ r₁.allocation = none) ∧
      s₁.context.layout.length = s.context.layout.length := by
  cases h with
  | bare hbare => exact ⟨hs, ⟨r, hr, hbare⟩, rfl⟩
  | @discarded a text st ha hrelease =>
    have hst := (Station.meets_release a.buffer).of_ok hrelease ((hs.logged text).1.station hd)
    have hallocation : s.table.allocation? object device = some a := by
      rw [Table.allocation?, hr, Option.bind_some, ha]
    refine ⟨At.sound ⟨rfl, (hs.logged text).1.withStation hd hst⟩ (hs.2.discard hallocation),
      ⟨{}, ?_, rfl⟩, hst.lengths_eq⟩
    rw [Table.get?_update, if_pos ⟨rfl, rfl⟩, hr, Option.map_some]

/-- Table and memory agree after an allocation, whether the old buffer is still there or not, and no
object has another length. -/
theorem Allocating.sound {v : Except Fault (Option EventId)}
    (h : s.Allocating object device window v s') (hs : s.Sound) :
    s'.Sound ∧ s'.context.layout.length = s.context.layout.length := by
  cases h with
  | refused => exact ⟨hs, rfl⟩
  | roomy => exact ⟨hs, rfl⟩
  | @stuck place d r a text fault st hfound hr ha hsmall hrelease =>
    have hst := (Station.meets_release a.buffer).of_error hrelease
      ((hs.logged text).1.station hfound.device)
    exact ⟨(hs.logged text).onStation hfound.device hst, hst.lengths_eq⟩
  | exhausted hfound hr hsmall hvacated hallocate =>
    obtain ⟨hs₁, -, hlength⟩ := hvacated.sound hs hfound.device hr
    have hfound₁ := hvacated.finds hfound
    have hst := (Station.meets_allocate _ _).of_error hallocate (hs₁.1.station hfound₁.device)
    exact ⟨hs₁.onStation hfound₁.device hst, hst.lengths_eq.trans hlength⟩
  | @made place d d₁ r s₁ b event st text hfound hadmits hr hsmall hvacated hallocate =>
    obtain ⟨hs₁, ⟨r₁, hr₁, hnone⟩, hlength⟩ := hvacated.sound hs hfound.device hr
    have hfound₁ := hvacated.finds hfound
    obtain ⟨hst, hlimit, hfree⟩ :=
      (Station.meets_allocate _ _).of_ok hallocate (hs₁.1.station hfound₁.device)
    have hat : s₁.context.layout.lengthOf object = some (s₁.context.layout.length place) := by
      rw [Layout.lengthOf]
      exact congrArg (Option.map _) hfound₁.place
    have hbytes : s.bytesOf object window ≤ s₁.context.layout.length place := by
      rw [hlength]
      rw [bytesOf_eq hfound.place] at hlimit ⊢
      exact size_le_of_fits hadmits hlimit
    exact ⟨At.sound ⟨rfl, (hs₁.1.withStation hfound₁.device hst).log .trace text⟩
      (hs₁.2.provide hr₁ hnone hfree hat hbytes), hst.lengths_eq.trans hlength⟩

theorem Sending.sound {v : Except Fault EventId} (h : s.Sending object device window wait v s')
    (hs : s.Sound) :
    s'.Sound := by
  -- The buffer that was found or made takes the window.
  have hready : ∀ {made s₁ place d r a}, (allocate object device window).run s = (.ok made, s₁) →
      s₁.Finds object device place d → s₁.table.get? object device = some r →
      r.allocation = some a → s₁.Sound ∧ (Station.write a.buffer place window wait).Keeps
        (Station.SoundAt (s₁.context.layout.size device) s₁.context.layout.length) := by
    intro made s₁ place d r a hallocate hfound hr ha
    have hallocating := allocating_of_run hallocate
    obtain ⟨hs₁, hlength⟩ := hallocating.sound hs
    refine ⟨hs₁, Station.keeps_write wait (hs₁.live hr ha) ?_⟩
    obtain ⟨place', d', r', a', hplace, hfound', hr', ha', hroom⟩ := hallocating.room
    cases hr'.symm.trans hr
    cases ha'.symm.trans ha
    cases hfound'.place.symm.trans hfound.place
    rw [bytesOf_eq hplace] at hroom
    rw [hlength]
    exact hroom
  cases h with
  | unready hallocate => exact ((allocating_of_run hallocate).sound hs).1
  | failed hallocate hfound hr ha hwrite =>
    obtain ⟨hs₁, hkeeps⟩ := hready hallocate hfound hr ha
    exact hs₁.onStation hfound.device (hkeeps.of_run hwrite (hs₁.1.station hfound.device))
  | sent hallocate hfound hr ha hwrite =>
    obtain ⟨hs₁, hkeeps⟩ := hready hallocate hfound hr ha
    refine hs₁.entered hfound.device (hkeeps.of_run hwrite (hs₁.1.station hfound.device)) ?_ _
    intro r' hr'
    cases hr.symm.trans hr'
    exact ⟨rfl, Record.coherent_sent (by rw [ha, Option.isSome_some]) window⟩

theorem Fetching.sound {blocking : Bool} {v : Except Fault EventId}
    (h : s.Fetching object device window wait blocking v s') (hs : s.Sound) : s'.Sound := by
  cases h with
  | refused => exact hs
  | failed hfound hr ha hread =>
    refine hs.onStation hfound.device ?_
    exact (Station.keeps_read _ _ _ _ (hs.live hr ha)).of_run hread (hs.1.station hfound.device)
  | fetched hfound hadmits hr ha hread =>
    have hst := (Station.keeps_read _ _ _ _ (hs.live hr ha)).of_run hread
      (hs.1.station hfound.device)
    exact hs.entered (f := Record.fetched) hfound.device hst
      (fun r hr => ⟨rfl, (hs.2.coherent _ _ _ hr).fetched⟩) _

theorem Copying.sound {v : Except Fault (Option EventId)}
    (h : s.Copying object device window wait v s') (hs : s.Sound) : s'.Sound := by
  cases h with
  | refused => exact hs
  | held => exact hs.logged _
  | sending hr hholds hsending => exact hsending.sound hs

end Outcomes

theorem keeps_allocate : Keeps Sound (allocate object device window) :=
  meets_iff_after.2 fun _ hs => ((allocating_of_run rfl).sound hs).1

theorem keeps_streamIn : Keeps Sound (streamIn object device window wait) :=
  meets_iff_after.2 fun _ hs => (sending_of_run rfl).sound hs

theorem keeps_copyIn : Keeps Sound (copyIn object device window wait) :=
  meets_iff_after.2 fun _ hs => (copying_of_run rfl).sound hs

theorem keeps_streamOut (blocking : Bool) :
    Keeps Sound (streamOut object device window wait blocking) :=
  meets_iff_after.2 fun _ hs => (fetching_of_run rfl).sound hs

theorem Sound.claim (hs : s.Sound) {object device : Nat} {r : Record}
    (hr : s.table.get? object device = some r) (hbuffer : r.allocation.isSome) (text : String) :
    Sound ⟨s.context.log .trace text, (s.table.update object device Record.written).setOwner object
      device⟩ := by
  refine At.sound ⟨rfl, hs.1.log .trace text⟩
    ((hs.2.update_flags fun r' hr' => ?_).setOwner object device)
  cases hr.symm.trans hr'
  exact ⟨rfl, Record.coherent_written hbuffer⟩

theorem Sound.invalidate (hs : s.Sound) : s.invalidate.Sound :=
  ⟨hs.1, hs.2.invalidate⟩

theorem Sound.new {c : Context} (hc : c.SoundAt c.layout)
    (hempty : ∀ d b, c.layout.size d b = none) :
    (Store.new c).Sound :=
  ⟨hc, Table.Matches.new hempty⟩

end Store

end Offload
