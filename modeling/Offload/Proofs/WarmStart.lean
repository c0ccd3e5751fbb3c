import Offload.Proofs.Compilations
import Offload.Proofs.RetainedFrames

/-!
# Starting warm

After a warm-up pass that has compiled everything, a normal pass finds the code of every launch.
Without the warm-up pass it compiles that code when it comes to the launch, and it is the same code:
a warm-up pass goes through the same launches and compiles each task for the device of its first
launch. Beside the code, the warm-up leaves frames, a line here and there in the journal, tasks
bound to devices and a number of compilations in the counters, and none of that changes what a
normal pass does if no device retains frames.
-/

namespace Offload

open Offload.Action

variable {α : Type} {device task : Nat} {m m' u u' u₁ : Machine} {i : Instruction}

/-! ## Devices -/

namespace Station

/-- The guise of a device that has compiled nothing. -/
def uncompiled : Guise where
  options := id
  counters c := { c with compilations := 0 }
  deferred_eq _ := rfl
  counted _ hf c := hf c 0

/-- Two stations with the same objects, and with the same device up to the number of its
compilations. The device retains no frames. -/
structure Level (s t : Station) : Prop where
  device : t.device.uncompiled = s.device.uncompiled
  objects : t.objects = s.objects
  free : s.device.options.retainCallFrames = false

/-- What does the same in the guise does the same on level stations. -/
theorem respects_level {x : DeviceAction α} (himage : Respects (Image uncompiled) x)
    (hoptions : ∀ V, Keeps (Seen Device.options V) x) : Respects Level x := by
  rw [respects_iff] at himage ⊢
  intro s t h
  have hs : Image uncompiled s ⟨s.device.uncompiled, s.objects, {}⟩ := ⟨{}, rfl⟩
  have ht : Image uncompiled t ⟨s.device.uncompiled, s.objects, {}⟩ := by
    rw [← h.device, ← h.objects]
    exact ⟨{}, rfl⟩
  obtain ⟨houtcome, journal, hafter⟩ := himage _ _ hs
  obtain ⟨houtcome', journal', hafter'⟩ := himage _ _ ht
  obtain ⟨hdevice, hobjects, -⟩ := Station.mk.inj (hafter'.symm.trans hafter)
  refine ⟨houtcome.trans houtcome'.symm, hdevice, hobjects, ?_⟩
  exact meets_iff_after.1 (hoptions fun o => o.retainCallFrames = false) s h.free

theorem aloof_options : Device.Aloof Device.options := fun _ _ _ _ _ _ _ => rfl

/-- A launch with two frames of the same arguments. The frames stay as they are. -/
theorem agrees_level_launch (code : InstalledCode) {f f' : CallFrame}
    (hf : f'.arguments = f.arguments) (task : String) (window : Option Window)
    (wait : List EventId) :
    Agrees Level (launch code f task window wait) (launch code f' task window wait)
      fun a b => b.1 = a.1 ∧ a.2 = f ∧ b.2 = f' := by
  have hcount : Respects Level (count fun c => { c with launches := c.launches + 1 }) :=
    respects_level (respects_image_count fun _ _ => rfl) fun _ =>
      (upkeep_seen aloof_options).count fun _ => rfl
  refine hcount.bind fun _ => ?_
  rw [hf]
  have hsubmit : Respects Level (submit .launch ("launch " ++ task) wait
      (.launch code.name code.kernel (f.arguments.map argumentOf) window)) :=
    respects_level (respects_image_submit _ _ _ _) fun _ =>
      (upkeep_seen aloof_options).submit _ _ _ _
  refine hsubmit.bind fun event => goes_get fun s t h => ?_
  have hoptions : t.device.options = s.device.options := by
    injection h.device
  rw [hoptions, h.free]
  exact goes_pure ⟨rfl, rfl, rfl⟩

end Station

/-! ## Contexts and stores -/

namespace Context

/-- What a warm-up pass leaves of a context as it is. -/
structure Core where
  devices : List Device
  objects : List HostObject
  constants : List Scalar
  tasks : List Task
  places : List Nat

def core (c : Context) : Core :=
  ⟨c.devices.map Device.uncompiled, c.objects, c.constants, c.tasks.map Task.unbound, c.places⟩

/-- Two contexts with the same core, whose devices retain no frames. -/
structure Level (c c' : Context) : Prop where
  core : c'.core = c.core
  free : ∀ d ∈ c.core.devices, d.options.retainCallFrames = false

theorem core_withStation (c : Context) (index : Nat) (s : Station) :
    (c.withStation index s).core =
      { c.core with
        devices := c.core.devices.set index s.device.uncompiled, objects := s.objects } := by
  simp only [Context.core, withStation, List.map_set]

theorem agreement_level : Agreement Level Station.Level where
  length_eq h := by simpa [Context.core] using congrArg (fun k => k.devices.length) h.core
  objects h := congrArg Core.objects h.core
  places h := congrArg Core.places h.core
  journals _ _ h := ⟨h.core, h.free⟩
  station {c c' index d d'} h hd hd' := by
    have hget := congrArg (fun k => k.devices[index]?) h.core
    simp only [Context.core, List.getElem?_map, hd, hd', Option.map_some, Option.some.injEq] at hget
    have hmem : d.uncompiled ∈ c.core.devices := List.mem_map_of_mem (List.mem_of_getElem? hd)
    exact ⟨hget, congrArg Core.objects h.core, h.free d.uncompiled hmem⟩
  withStation {c c' s t} index h hst := by
    refine ⟨?_, fun d hd => ?_⟩
    · rw [core_withStation, core_withStation, h.core, hst.device, hst.objects]
    · rw [core_withStation] at hd
      rcases List.mem_or_eq_of_mem_set hd with hold | rfl
      · exact h.free d hold
      · exact hst.free

end Context

namespace Store

/-- Two stores with level contexts and the same table. -/
structure Level (s s' : Store) : Prop where
  context : s.context.Level s'.context
  table : s'.table = s.table

/-- What changes neither the cores nor the tables leaves stores level. -/
theorem Level.of_core {s s' t t' : Store} (h : s.Level s') (hcore : t.context.core = s.context.core)
    (hcore' : t'.context.core = s'.context.core) (htable : t.table = s.table)
    (htable' : t'.table = s'.table) :
    t.Level t' where
  context := ⟨hcore'.trans (h.context.core.trans hcore.symm), hcore ▸ h.context.free⟩
  table := htable'.trans (h.table.trans htable.symm)

theorem agreement_level : Agreement Level Context.Level Station.Level Eq Eq where
  toAgreement := Context.agreement_level
  context h := h.context
  withContext h hc := ⟨hc, h.table⟩
  record object device h := by
    rw [h.table]
    exact (alike_eq_iff.2 rfl).mono fun _ _ hr => hr ▸ rfl
  update object device _ := by
    refine respects_modify fun s s' h => ⟨h.context, ?_⟩
    rw [h.table]
  setOwner object device h := by
    refine ⟨h.context, ?_⟩
    rw [h.table]
  allocateBuffer place bytes := by
    refine goes_weaken
      (Station.respects_level (Station.respects_image_allocate place bytes) fun _ =>
      (Station.upkeep_seen Station.aloof_options).allocate place bytes) ?_
    rintro a _ rfl
    exact ⟨rfl, rfl⟩
  release buffer := Station.respects_level (Station.respects_image_release buffer) fun _ =>
    (Station.upkeep_seen Station.aloof_options).release buffer
  write {wait _} buffer place window hwait :=
    hwait ▸ Station.respects_level (Station.respects_image_write buffer place window wait) fun _ =>
      (Station.upkeep_seen Station.aloof_options).write buffer place window wait
  read {wait _} buffer place window blocking hwait :=
    hwait ▸ Station.respects_level (Station.respects_image_read buffer place window wait blocking)
      fun _ => (Station.upkeep_seen Station.aloof_options).read buffer place window wait blocking

end Store

/-! ## Frames -/

/-- Two frames that are filled alike, with room for `n` arguments more. No device holds them. -/
structure CallFrame.Level (n : Nat) (f f' : CallFrame) : Prop where
  arguments : f'.arguments = f.arguments
  free : f.isOnDevice = false ∧ f'.isOnDevice = false
  room : f.arguments.length + n ≤ f.capacity ∧ f.arguments.length + n ≤ f'.capacity

theorem CallFrame.level_reset {n : Nat} {f f' : CallFrame} (hf : f.Serves n) (hf' : f'.Serves n) :
    f.reset.Level n f'.reset :=
  ⟨rfl, ⟨rfl, rfl⟩, by simpa [reset] using ⟨hf.room, hf'.room⟩⟩

theorem CallFrame.Level.push {n : Nat} {f f' : CallFrame} (h : f.Level (n + 1) f') (id : Nat)
    (a : FrameArgument) : Alike (CallFrame.Level n) (f.push id a) (f'.push id a) := by
  obtain ⟨hroom, hroom'⟩ := h.room
  have harguments := h.arguments
  rw [CallFrame.push, CallFrame.push, if_neg (by omega), if_neg (by rw [harguments]; omega),
    harguments]
  refine ⟨rfl, ⟨rfl, rfl⟩, ?_⟩
  simp only [List.length_append, List.length_singleton]
  omega

namespace FramePool

/-- Two pools of the same size, of which no device holds a frame. -/
structure Level (p p' : FramePool) : Prop where
  length_eq : p'.slots.length = p.slots.length
  free : p.Free
  free' : p'.Free

theorem Level.put {p p' : FramePool} (h : p.Level p') {f f' : CallFrame} (hf : f.isOnDevice = false)
    (hf' : f'.isOnDevice = false) (id : Nat) : (p.put id f).Level (p'.put id f') :=
  ⟨by simpa [FramePool.put] using h.length_eq, h.free.put hf id, h.free'.put hf' id⟩

theorem Level.alike_resolve {p p' : FramePool} (h : p.Level p') (id count : Nat) (recreate : Bool) :
    Alike (fun a b => a.1.Serves count ∧ b.1.Serves count ∧ a.2.Level b.2)
      (p.resolve id count recreate) (p'.resolve id count recreate) := by
  have hlength := h.length_eq
  by_cases hid : id < p.slots.length
  · obtain ⟨f, q, hresolve, hf, hq, hsize⟩ := h.free.exists_resolve hid count recreate
    obtain ⟨f', q', hresolve', hf', hq', hsize'⟩ :=
      h.free'.exists_resolve (hlength ▸ hid) count recreate
    rw [hresolve, hresolve']
    exact ⟨hf, hf', hsize'.trans (hlength.trans hsize.symm), hq, hq'⟩
  · rw [resolve_of_le (Nat.not_lt.1 hid), resolve_of_le (by omega), hlength]
    rfl

end FramePool

variable {d : Device}

namespace Machine

/-! ## Normal launches -/

/-- A relation between machines with level stores and frames. The code may differ in any way. -/
structure Levelling (R : Machine → Machine → Prop) : Prop extends
    Accord R Store.Level Context.Level Station.Level where
  frames : ∀ {m w}, R m w → m.frames.Level w.frames
  withFrames : ∀ {m w p q}, R m w → p.Level q → R { m with frames := p } { w with frames := q }

/-- What machines with level stores have to have in common. -/
theorem accord_level {R : Machine → Machine → Prop}
    (hstore : ∀ {m w}, R m w → m.store.Level w.store)
    (hwith : ∀ {m w s s'}, R m w → s.Level s' → R { m with store := s } { w with store := s' })
    (hrest : ∀ {m w}, R m w → ∃ store frames code reader trace,
      w = { m with store, frames, code, reader, trace })
    (haside : ∀ {m w} ledger lastEvent pending timing profiles, R m w →
      R { m with ledger, lastEvent, pending, timing, profiles }
        { w with ledger, lastEvent, pending, timing, profiles }) :
    Accord R Store.Level Context.Level Station.Level where
  operations := Store.agreement_level
  marker wait := Station.respects_level (Station.respects_image_marker wait) fun _ =>
    (Station.upkeep_seen Station.aloof_options).marker wait
  resolve event := Station.respects_level (Station.respects_image_resolve event) fun _ =>
    (Station.upkeep_seen Station.aloof_options).resolve event
  flush := Station.respects_level Station.respects_image_flush fun _ =>
    (Station.upkeep_seen Station.aloof_options).flush
  constants h := congrArg Context.Core.constants h.core
  task task h := alike_lookup .task (congrArg Context.Core.tasks h.core) task
  store := hstore
  withStore := hwith
  rest := hrest
  aside := haside

namespace Levelling

variable {R : Machine → Machine → Prop} (h : Levelling R)

include h

theorem putFrame (id : Nat) {f f' : CallFrame} (hf : f.isOnDevice = false)
    (hf' : f'.isOnDevice = false) :
    Agrees R (putFrame id f) (putFrame id f') Eq :=
  goes_modify fun _ _ hm => h.withFrames hm ((h.frames hm).put hf hf' id)

theorem resolveFrame (frame count : Nat) :
    Agrees R (resolveFrame frame count) (resolveFrame frame count)
      fun f f' => f.Serves count ∧ f'.Serves count := by
  refine goes_get fun m w hm => ?_
  have hresolve := (h.frames hm).alike_resolve frame count m.config.redeployOnDevice
  obtain ⟨store, frames, code, reader, trace, rfl⟩ := h.rest hm
  refine goes_bind (agrees_ofExcept hresolve) fun a b hab => ?_
  exact goes_bind (goes_modify fun _ _ hm => h.withFrames hm hab.2.2) fun _ _ _ =>
    goes_pure ⟨hab.1, hab.2.1⟩

/-- Frames that no device holds are filled anew, and hold the same arguments then. -/
theorem fillFrame {t t' : Task} (ht : t'.unbound = t.unbound) (frame device : Nat)
    (arguments : List Argument) {f f' : CallFrame} (hf : f.Serves arguments.length)
    (hf' : f'.Serves arguments.length) :
    Agrees R (fillFrame t frame device arguments f) (fillFrame t' frame device arguments f')
      (CallFrame.Level 0) := by
  rw [Machine.fillFrame, hf.free, Machine.fillFrame, hf'.free]
  refine goes_bind (h.putFrame frame rfl rfl) fun _ _ _ => ?_
  exact (h.filling (fun a hf => hf.push frame a) fun hf =>
    h.putFrame frame hf.free.1 hf.free.2).marshal ht 0 (CallFrame.level_reset hf hf')

/-- The rest of a launch, with the same code. -/
theorem launchWith (frame device task : Nat) (events : Option Nat) (window : Option Window)
    (arguments : List Argument) (code : Option CacheEntry) :
    Respects R (launchWith .normal frame device task events window arguments code) := by
  refine goes_launchWith (fun _ => rfl) h.conduct.fault (h.resolveFrame frame arguments.length)
    (fun text => h.log _ _ text text) (fun hm => h.task task (h.context hm))
    (fun _ _ _ _ _ ht hf => h.fillFrame ht frame device arguments hf.1 hf.2)
    (fun _ entry t _ _ _ ht hg => ?_) code
  refine h.submitLaunch (P := fun a b => a.isOnDevice = false ∧ b.isOnDevice = false) ht
    (fun wait => ?_) (fun hf => h.putFrame frame hf.1 hf.2) task events
  refine goes_weaken (Station.agrees_level_launch entry.code hg.arguments t.name window wait) ?_
  rintro ⟨event, _⟩ ⟨event', _⟩ ⟨hevent, rfl, rfl⟩
  exact ⟨hevent, hg.free⟩

end Levelling

/-- The second machine has all the code, and is level with the first one otherwise. -/
def Warmed (all : CodeCache) (m w : Machine) : Prop :=
  ∃ store frames, w = { m with store, frames, code := all } ∧ m.store.Level store ∧
    m.frames.Level frames

variable {all : CodeCache} {w : Machine}

theorem agreement_warmed (all : CodeCache) :
    Agreement (Warmed all) Store.Level Context.Level Station.Level where
  toAccord := by
    refine accord_level ?_ ?_ ?_ ?_
    · rintro m _ ⟨store, frames, rfl, hs, -⟩
      exact hs
    · rintro m _ s s' ⟨store, frames, rfl, -, hp⟩ hs
      exact ⟨s', frames, rfl, hs, hp⟩
    · rintro m _ ⟨store, frames, rfl, -, -⟩
      exact ⟨store, frames, all, m.reader, m.trace, rfl⟩
    · rintro m _ ledger lastEvent pending timing profiles ⟨store, frames, rfl, hs, hp⟩
      exact ⟨store, frames, rfl, hs, hp⟩
  reading := by
    rintro m _ ⟨store, frames, rfl, -, -⟩
    exact ⟨rfl, rfl⟩
  onward := by
    rintro m _ reader trace ⟨store, frames, rfl, hs, hp⟩
    exact ⟨store, frames, rfl, hs, hp⟩

theorem levelling_warmed (all : CodeCache) : Levelling (Warmed all) where
  toAccord := (agreement_warmed all).toAccord
  frames := by
    rintro m _ ⟨store, frames, rfl, -, hp⟩
    exact hp
  withFrames := by
    rintro m _ p q ⟨store, frames, rfl, hs, -⟩ hp
    exact ⟨store, q, rfl, hs, hp⟩

/-! ## Getting the code -/

theorem core_compiled (task : Nat) (hd : m.context.devices[device]? = some d)
    (found : Option InstalledCode) (journal : Journal) :
    (m.compiled task device d found journal).context.core = m.context.core := by
  have hdevices : (m.context.devices.set device (asked d)).map Device.uncompiled =
      m.context.devices.map Device.uncompiled := map_set_of_eq hd rfl
  exact congrArg₂ (fun devices tasks => (⟨devices, m.context.objects, m.context.constants, tasks,
    m.context.places⟩ : Context.Core)) hdevices
    (Task.map_unbound_modify m.context.tasks task device)

/-- Compiling leaves the core of the context alone, and the rest of the machine. -/
theorem Resolving.core {v : Except Fault (Option CacheEntry)} (h : m.Resolving task device v m') :
    ∃ store code, m' = { m with store, code } ∧ store.context.core = m.context.core ∧
      store.table = m.store.table := by
  cases h with
  | found | missing => exact ⟨m.store, m.code, rfl, rfl, rfl⟩
  | @compiled d t found journal hcode hd =>
    exact ⟨_, _, rfl, core_compiled task hd found journal, rfl⟩

theorem Warmed.resolved (h : Warmed all m w) {v : Except Fault (Option CacheEntry)}
    (hcode : m.Resolving task device v m') : Warmed all m' w := by
  obtain ⟨store, frames, rfl, hs, hp⟩ := h
  obtain ⟨store', code, rfl, hcore, htable⟩ := hcode.core
  exact ⟨store, frames, rfl, hs.of_core hcore rfl htable rfl, hp⟩

/-- What the books keep of a compilation of a task without code, they keep of any work. -/
theorem keeps_effect_of_tried {B : Books → Prop}
    (hB : ∀ b task device found, b.code.get? task = none → B b → B (b.tried task device found))
    (mode : PassMode) (i : Instruction) : Keeps (BooksOf B) (effect mode i) := by
  refine meets_iff_after.2 fun m hm => ?_
  have hbooked := Moment.booked_carry mode i m
  cases hcompilation : (Moment.carry mode i m).compilation? with
  | none =>
    have hbooks : ((effect mode i).run m).2.books = m.books := hbooked.idle hcompilation
    rw [BooksOf, hbooks]
    exact hm
  | some p =>
    have hreaches := Moment.reaches_of_compilation? hcompilation
    obtain ⟨found, hbooks⟩ := hbooked.compiles p.1 p.2 hcompilation
    have hafter : ((effect mode i).run m).2.books = m.books.tried p.1 p.2 found := hbooks
    rw [BooksOf, hafter]
    exact hB m.books p.1 p.2 found (Option.isNone_iff_eq_none.1 hreaches.1) hm

theorem keeps_runBody_of_tried {B : Books → Prop}
    (hB : ∀ b task device found, b.code.get? task = none → B b → B (b.tried task device found))
    (mode : PassMode) (kind : PassKind) (fuel : Nat) :
    Keeps (BooksOf B) (runBody mode kind fuel) := by
  refine keeps_runBody_of_effect (meets_iff_after.2 fun m hm => ?_) (keeps_effect_of_tried hB mode)
    (fun i note m hm => ?_) fuel
  · obtain ⟨reader, journal, hfetch⟩ := after_fetch kind m
    rw [hfetch]
    exact hm
  · rw [noted]
    split
    · exact hm
    · exact hm

end Machine

namespace CodeCache

variable {c : CodeCache} {task' : Nat} {found : Option InstalledCode} {entry : CacheEntry}

theorem get?_tried_of_some (hempty : c.get? task = none) (hentry : c.get? task' = some entry) :
    (c.tried task device found).get? task' = some entry := by
  obtain ⟨slot, hslot, hfilled⟩ := Option.bind_eq_some_iff.1 hentry
  have hkept := slot_modify_of_empty (fun slot => slot.tried device found) hempty hslot
    (by simp [hfilled])
  rw [← slots_tried] at hkept
  exact Option.bind_eq_some_iff.2 ⟨slot, hkept, hfilled⟩

theorem get?_tried_self {code : InstalledCode} (hempty : c.get? task = none)
    (htask : task < c.slots.length) :
    (c.tried task device (some code)).get? task = some { code, device } := by
  have hentry : c.slots[task].entry = none := by
    simpa [get?, List.getElem?_eq_getElem htask] using hempty
  simp [get?, tried, install, htask, hentry]

end CodeCache

namespace Machine

/-- There is a slot for every task. -/
def Complete (m : Machine) : Prop := m.code.slots.length = m.context.tasks.length

theorem keeps_complete_fetch (kind : PassKind) : Keeps Complete (fetch kind) := by
  refine meets_iff_after.2 fun m hm => ?_
  obtain ⟨reader, journal, hfetch⟩ := after_fetch kind m
  rw [hfetch]
  exact hm

theorem keeps_complete_effect (mode : PassMode) (i : Instruction) :
    Keeps Complete (effect mode i) := by
  refine keeps_effect_of_tried (B := fun b => b.code.slots.length = b.tasks.length) ?_ mode i
  intro b task device found _ hb
  have hslots := b.code.slots_tried task device found
  simp [Books.tried, hslots, hb]

theorem Resolving.installed {entry : CacheEntry} (hcomplete : u.Complete)
    (h : u.Resolving task device (.ok (some entry)) u') : u'.code.get? task = some entry := by
  generalize hv : Except.ok (some entry) = v at h
  cases h with
  | found hcode =>
    cases hv
    exact hcode
  | missing => cases hv
  | compiled hcode hd ht hfound =>
    have htask : task < u.code.slots.length := hcomplete ▸ (List.getElem?_eq_some_iff.1 ht).1
    obtain ⟨code, rfl, rfl⟩ := Option.map_eq_some_iff.1 (verdict_eq_ok hv.symm).symm
    exact CodeCache.get?_tried_self hcode htask

/-- A launch that went on has its code, if no compilation has failed. -/
theorem Resolving.exists_code {code : Option CacheEntry} (h : u.Resolving task device (.ok code) u')
    (hequipped : u.Reaches task device → (u'.code.get? task).isSome) :
    ∃ entry, code = some entry := by
  generalize hv : Except.ok code = v at h
  cases h with
  | found hcode =>
    cases hv
    exact ⟨_, rfl⟩
  | missing => cases hv
  | @compiled d t found journal hcode hd ht hfound =>
    have hreaches : u.Reaches task device := ⟨by simp [hcode], (List.getElem?_eq_some_iff.1 hd).1,
      (List.getElem?_eq_some_iff.1 ht).1⟩
    have hsome : ((u.code.tried task device found).get? task).isSome := hequipped hreaches
    rw [verdict_eq_ok hv.symm]
    cases found with
    | some code => exact ⟨_, rfl⟩
    | none =>
      rw [CodeCache.tried, CodeCache.get?_recordFailure, hcode] at hsome
      cases hsome

/-! ## The body of a pass -/

/-- A machine on the way to all the code: what it has is there in the end. -/
def Supplies (u : Machine) (all : CodeCache) : Prop :=
  ∀ task entry, u.code.get? task = some entry → all.get? task = some entry

variable {kind : PassKind} {fuel : Nat}

/-- What was on the way after a body was on the way before it. -/
theorem Supplies.of_runBody {mode : PassMode}
    (h : ((runBody mode kind fuel).run u).2.Supplies all) :
    u.Supplies all := by
  intro task entry hentry
  refine h task entry (meets_iff_after.1
    (keeps_runBody_of_tried (B := fun b => b.code.get? task = some entry) ?_ mode kind fuel) u
    hentry)
  exact fun b task' device found hempty hentry => CodeCache.get?_tried_of_some hempty hentry

variable {note : Option Note}

/-- A launch that a warm-up pass got through does the same with all the code as without. -/
theorem Warmed.launch (h : Warmed all m w) (hplan : SamePlan m u) (hcomplete : u.Complete)
    {frame : Nat} {events : Option Nat} {window : Option Window} {arguments : List Argument}
    (hu : (launch .warmup frame device task events window arguments).run u = (.ok note, u₁))
    (hequipped : u.Reaches task device → (u₁.code.get? task).isSome) (hsupplies : u₁.Supplies all) :
    ((launch .normal frame device task events window arguments).run m).1 =
        ((launch .normal frame device task events window arguments).run w).1 ∧
      Warmed all ((launch .normal frame device task events window arguments).run m).2
        ((launch .normal frame device task events window arguments).run w).2 := by
  have hdevice : ∃ du, u.context.devices[device]? = some du := by
    cases hdu : u.context.devices[device]? with
    | some du => exact ⟨du, rfl⟩
    | none =>
      rw [run_launch_of_none hdu] at hu
      cases hu
  obtain ⟨du, hdu⟩ := hdevice
  obtain ⟨d, hd⟩ : ∃ d, m.context.devices[device]? = some d := by
    have hbuild := build_eq_of_samePlan hplan device
    rw [hdu] at hbuild
    obtain ⟨d, hd, -⟩ := Option.map_eq_some_iff.1 hbuild
    exact ⟨d, hd⟩
  obtain ⟨dw, hdw⟩ : ∃ dw, w.context.devices[device]? = some dw := by
    have hlength := (agreement_warmed all).length_devices h
    exact ⟨_, List.getElem?_eq_getElem (hlength ▸ (List.getElem?_eq_some_iff.1 hd).1)⟩
  rw [run_launch_of_device hdu] at hu
  obtain ⟨code, u₂, hcode, hrest⟩ := run_bind_eq_ok.1 hu
  have hsame := code_launchWith .warmup frame device task events window arguments code u₂
  rw [hrest] at hsame
  have hresolving := resolving_of_run hcode
  obtain ⟨entry, rfl⟩ := hresolving.exists_code (hsame ▸ hequipped)
  have hentry := hresolving.installed hcomplete
  -- The machine that is not warmed gets the same code as the warm-up pass, and the warmed one has
  -- it.
  obtain ⟨_, m₂, hcode', rfl, -⟩ := (tracks_plan_resolveCode task device).of_ok hplan.symm hcode
  have hfound : w.code.get? task = some entry := by
    obtain ⟨store, frames, rfl, -, -⟩ := h
    exact hsupplies task entry (hsame ▸ hentry)
  have hwarmed : Warmed all m₂ w := h.resolved (resolving_of_run hcode')
  rw [run_launch_of_device hd, run_launch_of_device hdw, run_bind_of_ok hcode',
    run_bind_of_ok (run_resolveCode_of_some hfound)]
  exact respects_iff.1
    ((levelling_warmed all).launchWith frame device task events window arguments (some entry))
    m₂ w hwarmed

theorem Warmed.effect (h : Warmed all m w) (hplan : SamePlan m u) (hcomplete : u.Complete)
    (hu : (effect .warmup i).run u = (.ok note, u₁))
    (hequipped : (Moment.carry .warmup i u).isEquipped) (hsupplies : u₁.Supplies all) :
    ((effect .normal i).run m).1 = ((effect .normal i).run w).1 ∧
      Warmed all ((effect .normal i).run m).2 ((effect .normal i).run w).2 := by
  cases i with
  | launch frame device task events window arguments =>
    refine h.launch hplan hcomplete hu (fun hreaches => ?_) hsupplies
    have hcompilation : (Moment.carry .warmup (.launch frame device task events window arguments)
        u).compilation? = some (task, device) := if_pos hreaches
    have hafter : (Moment.carry .warmup (.launch frame device task events window arguments)
        u).after = u₁ :=
      congrArg Prod.snd hu
    rwa [Moment.isEquipped, hcompilation, Option.all_some, hafter] at hequipped
  | _ =>
    simp only [Machine.effect, if_true]
    exact respects_iff.1 ((agreement_warmed all).perform _) m w h

variable {warm : PassKind}

/-- Two passes read the same instruction at the same place, whatever their kinds. -/
theorem fetch_of_samePlan {m₁ : Machine} {j : Instruction} (hplan : SamePlan m u)
    (hm : (fetch kind).run m = (.ok i, m₁)) (hu : (fetch warm).run u = (.ok j, u₁)) :
    i = j ∧ SamePlan m₁ u₁ := by
  have hreader : m.reader = u.reader := congrArg Plan.reader hplan
  have hread : ∀ {r : Except Fault Instruction} {kind : PassKind} {offset : Nat} {i : Instruction},
      (r.bind fun i => if kind.accepts i.opcode then .ok i
        else .error (.unexpectedOpcode i.opcode.mnemonic kind.name offset)) = .ok i →
          r = .ok i := by
    intro r kind offset i hr
    cases r with
    | error fault => cases hr
    | ok i' =>
      simp only [Except.bind] at hr
      split at hr
      · exact hr
      · cases hr
  obtain ⟨journal, hfetch⟩ := run_fetch kind m
  obtain ⟨journal', hfetch'⟩ := run_fetch warm u
  obtain ⟨hi, rfl⟩ := Prod.mk.inj (hfetch.symm.trans hm)
  obtain ⟨hj, rfl⟩ := Prod.mk.inj (hfetch'.symm.trans hu)
  rw [hreader] at hi
  refine ⟨Except.ok.inj ((hread hi).symm.trans (hread hj)), ?_⟩
  rw [hreader]
  exact congrArg (fun p : Plan => { p with
    reader := { u.reader with cursor := (Reading.instruction.run u.reader.cursor).2 } }) hplan

theorem books_noted (mode : PassMode) (i : Instruction) (note : Option Note) (m : Machine) :
    (m.noted mode i note).books = m.books := by
  rw [noted]
  split
  · rfl
  · rfl

theorem complete_of_books (hbooks : m'.books = m.books) (h : m.Complete) : m'.Complete := by
  have hcode : m'.code = m.code := congrArg Books.code hbooks
  have htasks : m'.context.tasks = m.context.tasks := congrArg Books.tasks hbooks
  rw [Complete, hcode, htasks]
  exact h

/-- The code that is there before the rest of a body is read. -/
theorem supplies_of_rest (hsupplies : u'.Supplies all)
    (hu : (if i = .finish then (.ok (), u.noted .warmup i note)
      else (runBody .warmup warm fuel).run (u.noted .warmup i note)) = (.ok (), u')) :
    u.Supplies all := by
  have hnoted : (u.noted .warmup i note).Supplies all := by
    split at hu
    · cases hu
      exact hsupplies
    · have hafter : ((runBody .warmup warm fuel).run (u.noted .warmup i note)).2.Supplies all := by
        rw [hu]
        exact hsupplies
      exact hafter.of_runBody
  have hcode : (u.noted .warmup i note).code = u.code :=
    congrArg Books.code (books_noted .warmup i note u)
  rwa [Supplies, hcode] at hnoted

/-- A body that a warm-up pass got through does the same with all the code as without. -/
theorem Warmed.runBody (h : Warmed all m w) (kind : PassKind) (hplan : SamePlan m u)
    (hcomplete : u.Complete) (hu : (runBody .warmup warm fuel).run u = (.ok (), u'))
    (hequipped : ∀ x ∈ bodyMoments .warmup warm fuel u, x.isEquipped)
    (hsupplies : u'.Supplies all) :
    ((runBody .normal kind fuel).run m).1 = ((runBody .normal kind fuel).run w).1 ∧
      Warmed all ((runBody .normal kind fuel).run m).2 ((runBody .normal kind fuel).run w).2 := by
  induction fuel generalizing m w u with
  | zero => cases hu
  | succ fuel ih =>
    obtain ⟨houtcome, hfetch⟩ := respects_iff.1 ((agreement_warmed all).fetch kind) m w h
    rw [run_runBody_succ] at hu
    rw [run_runBody_succ, run_runBody_succ]
    rcases hfetchu : (fetch warm).run u with ⟨ru, u₁⟩
    rcases hfetchm : (fetch kind).run m with ⟨r, m₁⟩
    rcases hfetchw : (fetch kind).run w with ⟨r', w₁⟩
    rw [hfetchm, hfetchw] at houtcome hfetch
    obtain rfl : r = r' := houtcome
    rw [bodyMoments, hfetchu] at hequipped
    rw [hfetchu] at hu
    cases ru with
    | error fault => cases hu
    | ok j =>
      cases r with
      | error fault => exact ⟨rfl, hfetch⟩
      | ok i =>
        obtain ⟨rfl, hplan₁⟩ := fetch_of_samePlan hplan hfetchm hfetchu
        dsimp only at hu hfetch hequipped ⊢
        obtain ⟨hfirst, hlater⟩ := List.forall_mem_cons.1 hequipped
        rcases heffectu : (Machine.effect .warmup i).run u₁ with ⟨ru, u₂⟩
        rw [heffectu] at hu hlater
        cases ru with
        | error fault => cases hu
        | ok note =>
          have hcomplete₁ := (keeps_complete_fetch warm).of_run hfetchu hcomplete
          have hcomplete₂ := (keeps_complete_effect .warmup i).of_run heffectu hcomplete₁
          have hsupplies₂ := supplies_of_rest hsupplies hu
          obtain ⟨houtcome, heffect⟩ := hfetch.effect hplan₁ hcomplete₁ heffectu hfirst hsupplies₂
          rcases heffectm : (Machine.effect .normal i).run m₁ with ⟨r, m₂⟩
          rcases heffectw : (Machine.effect .normal i).run w₁ with ⟨r', w₂⟩
          rw [heffectm, heffectw] at houtcome heffect
          obtain rfl : r = r' := houtcome
          cases r with
          | error fault => exact ⟨rfl, heffect⟩
          | ok note' =>
            have hnoted := (agreement_warmed all).noted heffect .normal i note'
            by_cases hfinish : i = .finish
            · simp only [hfinish, if_true] at hnoted ⊢
              exact ⟨trivial, hnoted⟩
            · simp only [hfinish, if_false] at hu hlater ⊢
              -- The plans go on together, for the normal pass got through the instruction too.
              obtain ⟨note'', u₃, heffectu', -, hplan₂⟩ :=
                (leads_plan_effect i).of_ok hplan₁ heffectm
              cases heffectu.symm.trans heffectu'
              refine ih hnoted ?_ (complete_of_books (books_noted .warmup i note u₂) hcomplete₂) hu
                hlater
              rw [SamePlan, plan_noted, plan_noted, hplan₂]

/-! ## The warm-up pass -/

/-- A machine that has gone through some of a warm-up pass, beside the one that it was before. -/
def Beside (m u : Machine) : Prop :=
  ∃ store frames code reader lastEvent trace,
    u = { m with store, frames, code, reader, lastEvent, trace } ∧ m.store.Level store ∧
    m.frames.Level frames

theorem Beside.read (h : Beside m u) (reader : Reader) (journal : Journal) : Beside m
    { u with reader, store := { u.store with context := { u.store.context with journal } } } := by
  obtain ⟨store, frames, code, reader₀, lastEvent, trace, rfl, hs, hp⟩ := h
  exact ⟨_, frames, code, reader, lastEvent, trace, rfl, hs.of_core rfl rfl rfl rfl, hp⟩

theorem keeps_beside_effect (i : Instruction) : Keeps (Beside m) (effect .warmup i) := by
  cases i with
  | launch frame device task events window arguments =>
    refine keeps_of_run fun u r u' hu hrun => ?_
    obtain ⟨store₀, frames₀, code₀, reader, lastEvent, trace, rfl, hs, hp⟩ := hu
    cases launching_of_run hrun with
    | absent => exact ⟨store₀, frames₀, code₀, reader, lastEvent, trace, rfl, hs, hp⟩
    | uncoded hcode =>
      obtain ⟨store, code, rfl, hcore, htable⟩ := (resolving_of_run hcode).core
      exact ⟨store, frames₀, code, reader, lastEvent, trace, rfl, hs.of_core rfl hcore rfl htable,
        hp⟩
    | stopped u₁ frames journal hcode hframes =>
      obtain ⟨store, code, rfl, hcore, htable⟩ := (resolving_of_run hcode).core
      refine ⟨_, frames, code, reader, lastEvent, trace, rfl, hs.of_core rfl hcore rfl htable, ?_⟩
      obtain rfl | ⟨f, hresolve⟩ := hframes
      · exact hp
      · exact ⟨(FramePool.length_slots_resolve hresolve).trans hp.length_eq, hp.free,
          (hp.free'.resolve rfl hresolve).2⟩
    | unfilled hcode hmode => cases hmode
    | submitted hcode hmode => cases hmode
  | _ => exact keeps_pure

theorem keeps_beside_runBody (kind : PassKind) (fuel : Nat) :
    Keeps (Beside m) (runBody .warmup kind fuel) := by
  refine keeps_runBody_of_effect (meets_iff_after.2 fun u hu => ?_) keeps_beside_effect
    (fun i note u hu => ?_) fuel
  · obtain ⟨reader, journal, hfetch⟩ := after_fetch kind u
    rw [hfetch]
    exact hu.read reader journal
  · rw [noted]
    split
    · obtain ⟨store, frames, code, reader, lastEvent, trace, rfl, hs, hp⟩ := hu
      exact ⟨store, frames, code, reader, lastEvent, _, rfl, hs, hp⟩
    · exact hu

/-- A warm-up pass that ends well: its body, and the machine that it leaves. -/
theorem warmed_of_runPass {event : Event} (hmark : m.reader.reset = m.reader)
    (hstore : ∀ d ∈ m.context.core.devices, d.options.retainCallFrames = false)
    (hframes : m.frames.Free) (hrun : (runPass .warmup warm).run m = (.ok event, w)) :
    Warmed w.code m.begun w.begun ∧ ∃ u, m.body .warmup warm = (.ok (), u) ∧ u.code = w.code := by
  have hreader : w.reader = m.reader := by
    have hsession := reader_session hmark [.pass .warmup warm]
    rw [show (session [.pass .warmup warm] m).2 = ((runPass .warmup warm).run m).2 from rfl,
      hrun] at hsession
    exact hsession
  rw [run_runPass] at hrun
  rcases hbody : m.body .warmup warm with ⟨r, u⟩
  rw [hbody] at hrun
  obtain rfl : r = .ok () := body_of_closing (congrArg Prod.fst hrun)
  obtain ⟨journal, hclosing⟩ := run_closing_warmup warm u
  obtain ⟨-, hw⟩ := Prod.mk.inj (hclosing.symm.trans hrun)
  refine ⟨?_, u, rfl, hw ▸ rfl⟩
  have hstart : Beside m m.begun :=
    ⟨m.store, m.frames, m.code, m.reader, none, [], rfl, ⟨⟨rfl, hstore⟩, rfl⟩,
      ⟨rfl, hframes, hframes⟩⟩
  have hend : Beside m u := (keeps_beside_runBody warm m.reader.remaining).of_run hbody hstart
  have hbeside : Beside m w := hw ▸ hend.read u.reader.reset journal
  obtain ⟨store, frames, code, reader, lastEvent, trace, rfl, hs, hp⟩ := hbeside
  obtain rfl : reader = m.reader := hreader
  exact ⟨store, frames, rfl, hs, hp⟩

/-! ## The normal pass -/

/-- A normal pass with all the code that a warm-up pass in its place would compile. -/
theorem Warmed.runPass (h : Warmed all m.begun w.begun) (kind : PassKind) (hcomplete : m.Complete)
    (hbody : m.body .warmup warm = (.ok (), u))
    (hequipped : ∀ x ∈ timeline [.pass .warmup warm] m, x.isEquipped) (hsupplies : u.Supplies all) :
    ((runPass .normal kind).run m).1 = ((runPass .normal kind).run w).1 ∧
      Warmed all ((runPass .normal kind).run m).2 ((runPass .normal kind).run w).2 := by
  have hreader : w.reader = m.reader := by
    obtain ⟨store, frames, heq, -⟩ := h
    exact (congrArg Machine.reader heq :)
  obtain ⟨houtcome, hafter⟩ := h.runBody kind rfl hcomplete hbody
    (fun x hx => hequipped x (List.mem_append_left _ (List.mem_append_left _ hx))) hsupplies
  rw [run_runPass, run_runPass, body, body, hreader, ← houtcome]
  exact respects_iff.1 ((agreement_warmed all).closing .normal kind _) _ _ hafter

theorem complete_create {code : Bytes} {config : Config} {c c' : Context}
    (hm : (create code config).run c = (.ok m, c')) : m.Complete := by
  have hcode : m.code = .new c.tasks.length := congrArg Books.code (books_create hm)
  have htasks : m.context.tasks = c.tasks := congrArg Books.tasks (books_create hm)
  rw [Complete, hcode, htasks]
  exact List.length_replicate

/-- A new machine has the options of the devices it was made over. -/
theorem free_create {code : Bytes} {config : Config} {c c' : Context}
    (hfree : ∀ d ∈ c.devices, d.options.retainCallFrames = false)
    (hm : (create code config).run c = (.ok m, c')) :
    ∀ d ∈ m.context.core.devices, d.options.retainCallFrames = false := by
  have hview : m.context.devices.map Device.options = c.devices.map Device.options :=
    congrArg Context.View.devices (view_create (f := Device.options) (fun _ => rfl) hm)
  have hoptions : ∀ o ∈ m.context.devices.map Device.options, o.retainCallFrames = false := by
    rw [hview]
    exact List.forall_mem_map.2 hfree
  exact List.forall_mem_map.2 fun d hd => hoptions d.options (List.mem_map_of_mem hd)

/-- A warm-up pass changes nothing in what is computed. Over devices that retain no frames, let a
warm-up pass of a new machine end well, and let every launch in it that reached the compiler get its
code. Then a normal pass, of the same kind or of the other, has the same outcome after it as in its
place. It leaves the same host objects, devices, table, event lists, last event, trace and profiles;
the devices may differ in the number of their compilations. -/
theorem runPass_after_warmup {code : Bytes} {config : Config} {c c' : Context} {m w : Machine}
    {warm : PassKind} {event : Event} (hfree : ∀ d ∈ c.devices, d.options.retainCallFrames = false)
    (hm : (create code config).run c = (.ok m, c'))
    (hwarm : (runPass .warmup warm).run m = (.ok event, w))
    (hequipped : ∀ x ∈ timeline [.pass .warmup warm] m, x.isEquipped) (kind : PassKind) :
    let fresh := (runPass .normal kind).run m
    let warmed := (runPass .normal kind).run w
    warmed.1 = fresh.1 ∧
      warmed.2.context.objects = fresh.2.context.objects ∧
      warmed.2.context.devices.map Device.uncompiled =
      fresh.2.context.devices.map Device.uncompiled ∧ warmed.2.store.table = fresh.2.store.table ∧
      warmed.2.ledger = fresh.2.ledger ∧
      warmed.2.lastEvent = fresh.2.lastEvent ∧
      warmed.2.trace = fresh.2.trace ∧
      warmed.2.profiles = fresh.2.profiles := by
  intro fresh warmed
  obtain ⟨cursor, -, -, -, hinitial⟩ := start_of_create hm
  have hmark : m.reader.reset = m.reader := by
    rw [hinitial]
    rfl
  have hframes : m.frames.Free := by
    rw [hinitial]
    exact FramePool.all_new _ _
  obtain ⟨hwarmed, u, hbody, hcode⟩ := warmed_of_runPass hmark (free_create hfree hm) hframes hwarm
  have hsupplies : u.Supplies w.code := fun task entry hentry => hcode ▸ hentry
  obtain ⟨houtcome, store, frames, heq, hs, -⟩ :=
    hwarmed.runPass kind (complete_create hm) hbody hequipped hsupplies
  rw [show warmed.2 = _ from heq]
  exact ⟨houtcome.symm, congrArg Context.Core.objects hs.context.core,
    congrArg Context.Core.devices hs.context.core, hs.table, rfl, rfl, rfl, rfl⟩

/-- Two launches of one task. The normal pass that follows the warm-up pass adds one twice, as
without it. -/
theorem runPass_after_warmup_twice :
    let p : Program := ⟨⟨2, 1, 0, [0, 1]⟩,
      [.transfer .copyIn 0 1 none none, .launch 0 1 0 none none [.reference 0],
        .launch 0 1 0 none none [.reference 0], .transfer (.streamOut true) 0 1 none none, .finish]⟩
    let c : Context := {
      devices := [{ name := "d0" }, { name := "d1" }]
      objects := [⟨"a", [1, 0, 0, 0]⟩]
      constants := []
      tasks := [{ name := "add_one", accesses := [.readWrite] }] }
    ∃ m c' event w, (create p.encode {}).run c = (.ok m, c') ∧
      (runPass .warmup .plain).run m = (.ok event, w) ∧ w.code.stats.failures = 0 ∧
      ((runPass .normal .plain).run w).1.isOk ∧
      ((runPass .normal .plain).run w).2.context.objects = [⟨"a", [3, 0, 0, 0]⟩] := by
  intro p c
  have hread : (((create p.encode {}).outcome c).toOption.map fun m =>
      (((runPass .warmup .plain).outcome m).toOption.isSome,
        (timeline [.pass .warmup .plain] m).all Moment.isEquipped,
        ((runPass .warmup .plain).after m).code.stats.failures,
        ((runPass .normal .plain).run m).1.isOk,
        ((runPass .normal .plain).run m).2.context.objects)) =
      some (true, true, 0, true, [⟨"a", [3, 0, 0, 0]⟩]) := by
    decide +kernel
  obtain ⟨m, c', hm, hread⟩ := Action.exists_run_of_read hread
  obtain ⟨hok, hread⟩ := Prod.mk.inj hread
  obtain ⟨hequipped, hread⟩ := Prod.mk.inj hread
  obtain ⟨hfailures, hread⟩ := Prod.mk.inj hread
  obtain ⟨hnormal, hobjects⟩ := Prod.mk.inj hread
  obtain ⟨event, hevent⟩ := Option.isSome_iff_exists.1 hok
  have hwarm : (runPass .warmup .plain).run m = (.ok event, (runPass .warmup .plain).after m) :=
    Prod.ext (eq_ok_of_toOption hevent) rfl
  obtain ⟨houtcome, hsame, -⟩ :=
    runPass_after_warmup (by decide) hm hwarm (List.all_eq_true.1 hequipped) .plain
  exact ⟨m, c', event, _, hm, hwarm, hfailures, houtcome ▸ hnormal, hsame.trans hobjects⟩

end Machine

end Offload
