import Offload.Proofs.LaunchRules
import Offload.Proofs.RetainedStore

/-!
# Retained call frames

A device that retains call frames keeps the arguments of a launch, and the next launch with the same
frame is submitted with what the frame holds: its own arguments are not looked at. This changes
nothing as long as every launch that finds its frame held by the device finds in it what it would
have put there. Then a session has the same outcomes with retention and without it, and it leaves
the same host objects and the same devices. If a launch finds other arguments in its frame, the
results differ.
-/

namespace Offload

open Offload.Action

variable {α β : Type} {device : Nat} {f f' g : CallFrame}

/-! ## Frames -/

/-- A frame of the same capacity that no device holds. -/
structure CallFrame.Twin (f f' : CallFrame) : Prop where
  capacity : f'.capacity = f.capacity
  free : f'.isOnDevice = false

/-- Frames with which a launch does the same. -/
structure CallFrame.Filled (f f' : CallFrame) : Prop extends CallFrame.Twin f f' where
  arguments : f'.arguments.map Station.argumentOf = f.arguments.map Station.argumentOf

/-- Only on the first device does the frame remain. -/
theorem Station.agrees_launch (code : InstalledCode) (hf : f.Filled f') (task : String)
    (window : Option Window) (wait : List EventId) :
    Agrees Twin (launch code f task window wait) (launch code f' task window wait)
      fun a b => b.1 = a.1 ∧ a.2.Twin b.2 := by
  refine (respects_twin (respects_image_count fun _ _ => rfl)).bind fun _ => ?_
  rw [hf.arguments]
  refine (respects_twin (respects_image_submit _ _ _ _)).bind fun event => ?_
  intro s _
  rintro ⟨journal, rfl⟩
  refine ⟨⟨rfl, ?_, hf.free⟩, journal, rfl⟩
  change f'.capacity = (if s.device.options.retainCallFrames then f.markOnDevice else f).capacity
  split
  · exact hf.capacity
  · exact hf.capacity

theorem CallFrame.free_of_push {id : Nat} {a : FrameArgument} (h : f.push id a = .ok g) :
    g.isOnDevice = false := by
  unfold CallFrame.push at h
  split at h
  · cases h
  · cases h
    rfl

/-- A frame that no device holds, for at least `n` arguments. -/
structure CallFrame.Serves (n : Nat) (f : CallFrame) : Prop where
  free : f.isOnDevice = false
  room : n ≤ f.capacity

variable {id count : Nat}

namespace FramePool

/-- The capacities of the frames that were made. -/
def capacities (p : FramePool) : List (Option Nat) := p.slots.map fun slot =>
      slot.map CallFrame.capacity

/-- No frame is held by a device. -/
abbrev Free (p : FramePool) : Prop := p.All fun f => f.isOnDevice = false

/-- Two pools with frames of the same capacities, of which no device holds one of the second. -/
structure Twin (p p' : FramePool) : Prop where
  capacities : p'.capacities = p.capacities
  free : p'.Free

theorem capacities_put (p : FramePool) (id : Nat) (f : CallFrame) :
    (p.put id f).capacities = p.capacities.set id (some f.capacity) := by
  simp [FramePool.capacities, put, List.map_set]

variable {p p' : FramePool}

theorem Free.exists_resolve (hp : p.Free) (hid : id < p.slots.length) (count : Nat)
    (recreate : Bool) :
    ∃ f q, p.resolve id count recreate = .ok (f, q) ∧ f.Serves count ∧ q.Free ∧
      q.slots.length = p.slots.length := by
  obtain ⟨⟨f, q⟩, h⟩ := exists_resolve_iff.2 hid
  obtain ⟨hfree, hq⟩ := hp.resolve rfl h
  exact ⟨f, q, h, ⟨hfree, le_capacity_of_resolve h⟩, hq, length_slots_resolve h⟩

theorem resolve_of_le (hid : p.slots.length ≤ id) (count : Nat) (recreate : Bool) :
    p.resolve id count recreate = .error (.indexOutOfRange .frame id p.slots.length) := by
  rw [FramePool.resolve, lookup, List.getElem?_eq_none hid]
  rfl

theorem Twin.put (h : Twin p p') (hf : f.Twin f') (id : Nat) :
    Twin (p.put id f) (p'.put id f') := by
  refine ⟨?_, h.free.put hf.free id⟩
  rw [capacities_put, capacities_put, h.capacities, hf.capacity]

/-- A frame may be put into the second pool alone, over one of the same capacity. -/
theorem Twin.put_right (h : Twin p p') (hf : f.Twin f') (hslot : p.slots[id]? = some (some f)) :
    Twin p (p'.put id f') := by
  refine ⟨?_, h.free.put hf.free id⟩
  have hcapacity : p.capacities[id]? = some (some f.capacity) := by
    simp [FramePool.capacities, hslot]
  obtain ⟨hlt, hget⟩ := List.getElem?_eq_some_iff.1 hcapacity
  rw [capacities_put, h.capacities, hf.capacity, ← hget, List.set_getElem_self]

theorem Twin.alike_resolve (h : Twin p p') (id count : Nat) (recreate : Bool) :
    Alike (fun a b => a.1.Twin b.1 ∧ a.2.Twin b.2) (p.resolve id count recreate)
      (p'.resolve id count recreate) := by
  have hfresh : CallFrame.Twin { capacity := count } { capacity := count } := ⟨rfl, rfl⟩
  refine (alike_lookup .frame h.capacities id).bind fun slot slot' _ hlookup hslots => ?_
  cases slot with
  | none =>
    cases slot' with
    | none => exact ⟨hfresh, h.put hfresh id⟩
    | some f' => cases hslots
  | some f =>
    cases slot' with
    | none => cases hslots
    | some f' =>
      have hcapacity : f'.capacity = f.capacity := Option.some.inj hslots
      have hfree : f'.isOnDevice = false :=
        h.free f' (List.mem_of_getElem? (lookup_eq_ok.1 hlookup))
      dsimp only
      rw [hcapacity]
      split
      · exact ⟨hfresh, h.put hfresh id⟩
      · exact ⟨⟨hcapacity, hfree⟩, h⟩

end FramePool

/-! ## Machines -/

namespace Machine

/-- The second machine is the first one without retention. -/
def Twin (m m' : Machine) : Prop :=
  ∃ store frames, m' = { m with store, frames } ∧ m.store.Twin store ∧ m.frames.Twin frames

theorem agreement_twin : Agreement Twin Store.Twin Context.Twin Station.Twin where
  operations := Store.agreement_twin
  marker wait := Station.respects_twin (Station.respects_image_marker wait)
  resolve event := Station.respects_twin (Station.respects_image_resolve event)
  flush := Station.respects_twin Station.respects_image_flush
  constants := by
    rintro c _ ⟨journal, rfl⟩
    rfl
  task := by
    rintro c _ task ⟨journal, rfl⟩
    exact (alike_eq_iff.2 rfl).mono fun _ _ ht => congrArg Task.unbound ht.symm
  store := by
    rintro m _ ⟨store, frames, rfl, hs, -⟩
    exact hs
  withStore := by
    rintro m _ s s' ⟨store, frames, rfl, -, hp⟩ hs
    exact ⟨s', frames, rfl, hs, hp⟩
  rest := by
    rintro m _ ⟨store, frames, rfl, -, -⟩
    exact ⟨store, frames, m.code, m.reader, m.trace, rfl⟩
  aside := by
    rintro m _ ledger lastEvent pending timing profiles ⟨store, frames, rfl, hs, hp⟩
    exact ⟨store, frames, rfl, hs, hp⟩
  reading := by
    rintro m _ ⟨store, frames, rfl, -, -⟩
    exact ⟨rfl, rfl⟩
  onward := by
    rintro m _ reader trace ⟨store, frames, rfl, hs, hp⟩
    exact ⟨store, frames, rfl, hs, hp⟩

section Context

variable {m m' : Machine} (h : Twin m m')

include h

theorem Twin.alike_device (index : Nat) :
    Alike (fun _ _ => True) (m.context.device index) (m'.context.device index) :=
  Context.agreement_twin.alike_device (agreement_twin.context h) index

theorem Twin.task_eq (task : Nat) : m'.context.task task = m.context.task task := by
  obtain ⟨journal, hcontext⟩ := agreement_twin.context h
  rw [hcontext]
  rfl

end Context

/-! ### Code -/

theorem respects_resolveCode (task device : Nat) : Respects Twin (resolveCode task device) := by
  refine goes_resolveCode (fun _ hm _ => ⟨rfl, hm⟩) ?_ (fun {m m'} hm => ?_)
    (fun {m m'} hm => ?_) ?_
  · rintro m _ ⟨store, frames, rfl, -, -⟩
    exact ⟨rfl, rfl, rfl⟩
  · obtain ⟨journal, hcontext⟩ := agreement_twin.context hm
    simp [hcontext, Context.withRetention, Function.comp_def, Device.withRetention]
  · obtain ⟨journal, hcontext⟩ := agreement_twin.context hm
    rw [hcontext]
    rfl
  · rintro m m' d d' found write hm hd hd'
    obtain ⟨_, hcontext⟩ := agreement_twin.context hm
    obtain ⟨store, frames, rfl, hs, hp⟩ := hm
    obtain rfl : d.withRetention false = d' := by
      rw [hcontext] at hd'
      simpa [Context.withRetention, hd] using hd'
    have hcontext : store.context = _ := hcontext
    refine ⟨_, frames, rfl, ⟨⟨write store.context.journal, ?_⟩, hs.table⟩, hp⟩
    simp [hcontext, compiled, Context.withRetention, Machine.context, List.map_set, asked,
      Device.withRetention]

/-! ### Arguments -/

theorem agrees_putFrame (id : Nat) (hf : f.Twin f') :
    Agrees Twin (putFrame id f) (putFrame id f') Eq := by
  refine goes_modify ?_
  rintro m _ ⟨store, frames, rfl, hs, hp⟩
  exact ⟨store, _, rfl, hs, hp.put hf id⟩

theorem agrees_resolveFrame (frame count : Nat) :
    Agrees Twin (resolveFrame frame count) (resolveFrame frame count) CallFrame.Twin := by
  refine goes_get ?_
  rintro m _ ⟨store, frames, rfl, -, hp⟩
  refine goes_bind
    (agrees_ofExcept (hp.alike_resolve frame count m.config.redeployOnDevice)) fun a b hab => ?_
  refine goes_bind (goes_modify ?_) fun _ _ _ => goes_pure hab.1
  rintro m _ ⟨store, frames, rfl, hs, -⟩
  exact ⟨store, _, rfl, hs, hab.2⟩

/-- Two results of filling equal frames that no device holds. -/
abbrev SameFree (f f' : CallFrame) : Prop := f' = f ∧ f.isOnDevice = false

theorem agrees_marshal (task : Task) (id device place : Nat) (arguments : List Argument)
    (hf : f.isOnDevice = false) :
    Agrees Twin (marshal task id device place arguments f)
      (marshal task id device place arguments f) SameFree := by
  refine (agreement_twin.filling (P := fun _ => SameFree) ?_ ?_).marshal rfl place ⟨rfl, hf⟩
  · rintro _ f _ a ⟨rfl, -⟩
    unfold CallFrame.push
    split
    · rfl
    · exact ⟨rfl, rfl⟩
  · rintro _ f _ ⟨rfl, hfree⟩
    exact agrees_putFrame id ⟨rfl, hfree⟩

/-- What a launch on a device would put into its frame for an argument, the label apart. -/
def Recalls (m : Machine) (device : Nat) (argument : Argument) (a : FrameArgument) : Prop :=
  ∃ a', m.Grants device argument a' ∧ Station.argumentOf a' = Station.argumentOf a

section OneSided

variable {m m' : Machine}

theorem Twin.withStore (h : Twin m m') {s : Store} (hs : m.store.Twin s) :
    Twin m { m' with store := s } := by
  obtain ⟨store, frames, rfl, -, hp⟩ := h
  exact ⟨s, frames, rfl, hs, hp⟩

theorem Twin.withFrames (h : Twin m m') {p : FramePool} (hp : m.frames.Twin p) :
    Twin m { m' with frames := p } := by
  obtain ⟨store, frames, rfl, hs, -⟩ := h
  exact ⟨store, p, rfl, hs, hp⟩

theorem Twin.store (h : Twin m m') : m.store.Twin m'.store := by
  obtain ⟨store, frames, rfl, hs, -⟩ := h
  exact hs

theorem Twin.frames (h : Twin m m') : m.frames.Twin m'.frames := by
  obtain ⟨store, frames, rfl, -, hp⟩ := h
  exact hp

theorem Twin.grants (h : Twin m m') {argument : Argument} {a : FrameArgument}
    (ha : m.Grants device argument a) : m'.Grants device argument a := by
  obtain ⟨⟨context, table⟩, frames, rfl, ⟨⟨journal, rfl⟩, htable⟩, -⟩ := h
  cases ha with
  | constant hvalue => exact .constant hvalue
  | @reference object place r a hr ha hvalid hplace =>
    have hrecord := Table.Twin.alike_record htable object device
    rw [Table.record_eq_ok.2 hr] at hrecord
    cases hr' : table.record object device with
    | error fault =>
      rw [hr'] at hrecord
      exact hrecord.elim
    | ok r' =>
      rw [hr'] at hrecord
      exact .reference (Table.record_eq_ok.1 hr') ((Record.allocation_eq hrecord).trans ha)
        ((Record.valid_eq hrecord).trans hvalid) hplace

/-- Where the first machine has a frame on a device, the second one puts into its own what the
launch would put there. -/
theorem Twin.run_marshal_cons (h : Twin m m') (t : Task) (place : Nat) {argument : Argument}
    {held : FrameArgument} (hheld : m.Recalls device argument held)
    (hslot : m.frames.slots[id]? = some (some f)) (hfg : f.Twin g)
    (hroom : g.arguments.length < f.capacity) (others : List Argument) :
    ∃ a m₁, Station.argumentOf a = Station.argumentOf held ∧ Twin m m₁ ∧ f.Twin (g.pushed a) ∧
      (marshal t id device place (argument :: others) g).run m' =
        (marshal t id device (place + 1) others (g.pushed a)).run m₁ := by
  obtain ⟨a, ha, hsame⟩ := hheld
  replace ha := h.grants ha
  rcases marshal_cons_cases m' t id device place argument others g with
    ⟨fault, hrefused, -⟩ | ⟨a', s, ha', -, hs, hrun⟩
  · exact absurd (hrefused a ha) (Nat.not_le.2 (hfg.capacity ▸ hroom))
  · obtain rfl := ha.eq ha'
    have hpushed : f.Twin (g.pushed a) := ⟨hfg.capacity, rfl⟩
    have hstore : m.store.Twin s := by
      rcases hs with ⟨rfl, -⟩ | ⟨object, text, rfl, -, rfl⟩
      · exact h.store
      · cases ha with
        | reference hr hbuffer hvalid hplace =>
          exact h.store.claim hr (by simp [hbuffer, hvalid]) text
    exact ⟨a, _, hsame, (h.withStore hstore).withFrames (h.frames.put_right hpushed hslot),
      hpushed, hrun⟩

variable {arguments : List Argument}

theorem Twin.exists_marshal (h : Twin m m') (t : Task) (place : Nat) {held : List FrameArgument}
    (hheld : List.Forall₂ (m.Recalls device) arguments held)
    (hslot : m.frames.slots[id]? = some (some f)) (hfg : f.Twin g)
    (hroom : g.arguments.length + arguments.length ≤ f.capacity) :
    ∃ g' m'', (marshal t id device place arguments g).run m' = (.ok g', m'') ∧ Twin m m'' ∧
      f.Twin g' ∧
      g'.arguments.map Station.argumentOf = (g.arguments ++ held).map Station.argumentOf := by
  induction hheld generalizing m' g place with
  | nil => exact ⟨g, m', rfl, h, hfg, by rw [List.append_nil]⟩
  | @cons argument b others held hfirst _ ih =>
    have hlength : g.arguments.length + (others.length + 1) ≤ f.capacity := hroom
    obtain ⟨a, m₁, ha, h₁, hpushed, hcons⟩ :=
      h.run_marshal_cons t place hfirst hslot hfg (by omega) others
    have hroom' : (g.pushed a).arguments.length + others.length ≤ f.capacity := by
      simp only [CallFrame.pushed, List.length_append, List.length_singleton]
      omega
    obtain ⟨g', m₂, hrun, h₂, hg', harguments⟩ := ih h₁ (place + 1) hpushed hroom'
    refine ⟨g', m₂, hcons.trans hrun, h₂, hg', ?_⟩
    rw [harguments, CallFrame.pushed]
    simp [ha]

/-- Filling a frame, or leaving it as it is if a device holds it with the right arguments. -/
theorem Twin.fillFrame (h : Twin m m') (hf : f.Twin f') (t : Task) {frame : Nat}
    (hheld : f.isOnDevice = true → m.frames.slots[frame]? = some (some f) ∧
      arguments.length ≤ f.capacity ∧ List.Forall₂ (m.Recalls device) arguments f.arguments) :
    Alike CallFrame.Filled ((fillFrame t frame device arguments f).run m).1
        ((fillFrame t frame device arguments f').run m').1 ∧
      Twin ((fillFrame t frame device arguments f).run m).2
        ((fillFrame t frame device arguments f').run m').2 := by
  have hreset : f.Twin f'.reset := ⟨hf.capacity, rfl⟩
  simp only [Machine.fillFrame, hf.free, Bool.false_eq_true, if_false]
  cases hon : f.isOnDevice with
  | true =>
    obtain ⟨hslot, hroom, hrecalls⟩ := hheld hon
    have h₁ := h.withFrames (h.frames.put_right hreset hslot)
    obtain ⟨g, m₂, hmarshal, h₂, hg, harguments⟩ :=
      h₁.exists_marshal t 0 hrecalls hslot hreset (by simpa [CallFrame.reset] using hroom)
    have hrun : (do
        putFrame frame f'.reset
        marshal t frame device 0 arguments f'.reset : MachineAction CallFrame).run m' =
        (.ok g, m₂) :=
      run_bind_eq_ok.2 ⟨(), _, rfl, hmarshal⟩
    rw [hrun, if_pos rfl]
    exact ⟨⟨hg, harguments⟩, h₂⟩
  | false =>
    have heq : f'.reset = f.reset := by
      rw [CallFrame.reset, CallFrame.reset, hf.capacity]
    rw [if_neg Bool.false_ne_true, heq]
    refine agrees_iff.1 (goes_bind (agrees_putFrame frame ⟨rfl, rfl⟩) fun _ _ _ => ?_) m m' h
    refine goes_weaken (agrees_marshal t frame device 0 arguments rfl) ?_
    rintro g _ ⟨rfl, hfree⟩
    exact ⟨⟨rfl, hfree⟩, rfl⟩

end OneSided

end Machine

namespace Machine

/-- A frame that a device holds comes from the pool and is large enough. -/
theorem slot_of_resolveFrame {m m₁ : Machine} {frame : Nat}
    (h : (resolveFrame frame count).run m = (.ok f, m₁)) (hf : f.isOnDevice = true) :
    m₁.frames.slots[frame]? = some (some f) ∧ count ≤ f.capacity := by
  obtain ⟨frames, hresolve, rfl⟩ := resolve_of_resolveFrame h
  obtain ⟨rfl, -⟩ | ⟨hslot, rfl, -, hroom⟩ := FramePool.resolve_cases hresolve
  · cases hf
  · exact ⟨hslot, hroom⟩

/-- A launch that finds its frame held by a device finds in it what it would put there. -/
def Finds (m : Machine) (frame device task : Nat) (arguments : List Argument) : Prop :=
  ∀ entry m₁ f m₂, (resolveCode task device).run m = (.ok (some entry), m₁) →
    (resolveFrame frame arguments.length).run m₁ = (.ok f, m₂) → f.isOnDevice = true →
      List.Forall₂ (m₂.Recalls device) arguments f.arguments

theorem agrees_submitLaunch (entry : CacheEntry) (t : Task) (frame device task : Nat)
    (events : Option Nat) (window : Option Window) (hf : f.Filled f') :
    Agrees Twin (submitLaunch entry t frame device task events window f)
      (submitLaunch entry t frame device task events window f') Eq := by
  exact agreement_twin.submitLaunch rfl
    (fun wait => Station.agrees_launch entry.code hf t.name window wait)
    (agrees_putFrame frame) task events

/-- A launch does the same with retention and without if it finds in its frame what it would put
there. -/
theorem Twin.launch {m m' : Machine} (h : Twin m m') (mode : PassMode) (frame device task : Nat)
    (events : Option Nat) (window : Option Window) (arguments : List Argument)
    (hfinds : mode = .normal → m.Finds frame device task arguments) :
    Alike Eq ((launch mode frame device task events window arguments).run m).1
        ((launch mode frame device task events window arguments).run m').1 ∧
      Twin ((launch mode frame device task events window arguments).run m).2
        ((launch mode frame device task events window arguments).run m').2 := by
  refine alike_get (alike_ofExcept_bind (h.alike_device device) h fun _ _ _ => ?_)
  refine alike_bind (agrees_iff.1 (respects_resolveCode task device) m m' h) ?_
  rintro code _ m₁ m₁' hcode - rfl h₁
  refine alike_bind (agrees_iff.1 (agrees_resolveFrame frame arguments.length) m₁ m₁' h₁) ?_
  intro f f' m₂ m₂' hframe _ hf h₂
  cases mode with
  | warmup => exact ⟨rfl, h₂⟩
  | normal =>
    cases code with
    | none =>
      exact agrees_iff.1 (respects_bind (agreement_twin.log _ _ _ _) fun _ => respects_pure) m₂ m₂'
        h₂
    | some entry =>
      have hheld : f.isOnDevice = true → m₂.frames.slots[frame]? = some (some f) ∧
          arguments.length ≤ f.capacity ∧
          List.Forall₂ (m₂.Recalls device) arguments f.arguments := by
        intro hon
        obtain ⟨hslot, hroom⟩ := slot_of_resolveFrame hframe hon
        exact ⟨hslot, hroom, hfinds rfl entry m₁ f m₂ hcode hframe hon⟩
      refine alike_get (alike_ofExcept_bind (alike_eq_iff.2 (h₂.task_eq task).symm) h₂ ?_)
      rintro t _ rfl
      refine alike_bind (h₂.fillFrame hf t hheld) fun g g' m₃ m₃' _ _ hg h₃ => ?_
      exact agrees_iff.1 (goes_then (agrees_submitLaunch entry t frame device task events window hg)
        fun _ => goes_pure rfl) m₃ m₃' h₃

end Machine

end Offload
