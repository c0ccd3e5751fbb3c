import Offload.Proofs.WarmStart
import Offload.Proofs.WorkpieceStore

/-!
# Workpieces in machines

A machine bears a workpiece if its store does, if the code of its first task is there when the
workpiece says so, and if a frame that the device has retained names the buffer of the workpiece.
Every instruction of a round of work succeeds, and the machine bears what the instruction makes of
the workpiece. At the end of a pass nothing waits, and the end of the pass succeeds as well,
whatever the configuration.
-/

namespace Offload

open Offload.Action

namespace Machine

variable {α : Type} {S : Scene} {k k' : Workpiece} {m : Machine}

/-- The code of the task that adds one. -/
def addOneCode : CacheEntry := { code := ⟨"add_one", .addOne⟩, device := 0 }

/-- A frame is not retained, or it has the buffer of the workpiece as its argument and the device
retains frames. -/
def FrameSuits (S : Scene) (k : Workpiece) (f : CallFrame) : Prop :=
  f.isOnDevice = true → S.options.retainCallFrames = true ∧
    ∃ c ∈ k.copy, ∃ label, f.arguments = [.reference 0 c.1 label]

/-- The machine bears the workpiece. -/
structure Bears (S : Scene) (k : Workpiece) (m : Machine) : Prop where
  store : ∃ e, m.store.Bears S k e ∧ ∀ p ∈ m.pending, p.task = 0 ∧ p.device = 0 ∧ p.event < e
  code : m.code.get? 0 = if k.compiled then some addOneCode else none
  slots : 0 < m.code.slots.length
  pool : 0 < m.frames.slots.length
  frames : ∀ f, m.frames.get? 0 = some f → FrameSuits S k f

/-- The machine bears the workpiece, and no command waits. -/
def Rests (S : Scene) (k : Workpiece) (m : Machine) : Prop := m.Bears S k ∧ m.store.Idle

theorem exists_run_inStore {x : StoreAction α} {P : Store → Prop} {Q : α → Store → Prop}
    (hx : Attains P x Q) (hm : P m.store) :
    ∃ a s, (inStore x).run m = (.ok a, { m with store := s }) ∧ Q a s := by
  obtain ⟨a, s, hrun, hs⟩ := hx m.store hm
  exact ⟨a, s, by rw [inStore, run_focus, hrun], hs⟩

theorem run_onDevice_of_store {x : DeviceAction α} {a : α} {s : Store}
    (h : (Store.inContext (Context.onDevice 0 x)).run m.store = (.ok a, s)) :
    (onDevice 0 x).run m = (.ok a, { m with store := s }) := by
  rw [onDevice, inStore, run_focus, h]

variable {f : CallFrame}

/-- Retained frames suit a workpiece as long as its buffer keeps its number. -/
theorem FrameSuits.mono (h : FrameSuits S k f)
    (hcopy : S.options.retainCallFrames = true → ∀ c ∈ k.copy, ∃ c' ∈ k'.copy, c'.1 = c.1) :
    FrameSuits S k' f := by
  intro hf
  obtain ⟨hretain, c, hc, label, harguments⟩ := h hf
  obtain ⟨c', hc', hid⟩ := hcopy hretain c hc
  exact ⟨hretain, c', hc', label, by rw [hid, harguments]⟩

theorem Bears.withStore (h : m.Bears S k) {s : Store} {e : Nat} (hs : s.Bears S k' e)
    (hpending : ∀ p ∈ m.pending, p.task = 0 ∧ p.device = 0 ∧ p.event < e)
    (hcompiled : k'.compiled = k.compiled)
    (hcopy : S.options.retainCallFrames = true → ∀ c ∈ k.copy, ∃ c' ∈ k'.copy, c'.1 = c.1)
    (lastEvent : Option EventId) : Bears S k' { m with store := s, lastEvent } where
  store := ⟨e, hs, hpending⟩
  code := by rw [hcompiled]; exact h.code
  slots := h.slots
  pool := h.pool
  frames f hf := (h.frames f hf).mono hcopy

/-! ## Instructions other than launches -/

variable {window : Option Window}

theorem attains_allocate (hfits : (k.range window).fits k.bytes.length = true)
    (hbytes : (k.range window).size < Station.memoryLimit)
    (hkeep : S.options.retainCallFrames = true → k.copy = none ∨ k.hasRoom window = true) :
    Attains (Rests S k) (effect .normal (.allocate 0 0 window))
      fun _ m => ∃ id, m.Rests S (k.allocate id window) := by
  rintro m ⟨h, hidle⟩
  obtain ⟨e, hstore, hpending⟩ := h.store
  obtain ⟨event, s, hrun, id, hbears, hidle'⟩ :=
    exists_run_inStore (Store.attains_allocate hfits hbytes) ⟨hstore, hidle⟩
  have hcompiled := Workpiece.compiled_allocate id window k
  refine ⟨_, _, run_bind_of_ok hrun, id, h.withStore hbears hpending hcompiled ?_ event, hidle'⟩
  intro hretain c hc
  rcases hkeep hretain with hnone | hroom
  · rw [hnone] at hc
    cases hc
  · rw [Workpiece.allocate, if_pos hroom]
    exact ⟨c, hc, rfl⟩

theorem attains_send (hfits : (k.range window).fits k.bytes.length = true)
    (hroom : k.hasRoom window = true) (lazily : Bool) :
    Attains (Bears S k)
      (effect .normal (.transfer (if lazily then .copyIn else .streamIn) 0 0 none window))
      fun _ => Bears S (k.send lazily window) := by
  rintro m h
  obtain ⟨e, hstore, hpending⟩ := h.store
  have hcompiled := Workpiece.compiled_send lazily window k
  have hcopy : S.options.retainCallFrames = true →
      ∀ c ∈ k.copy, ∃ c' ∈ (k.send lazily window).copy, c'.1 = c.1 := by
    intro _ c hc
    obtain ⟨bytes, hsent, -⟩ := Workpiece.exists_copy_send hc lazily window
    exact ⟨_, hsent, rfl⟩
  cases lazily with
  | true =>
    obtain ⟨event, s, hrun, hbears⟩ :=
      exists_run_inStore (Store.attains_copyIn hfits hroom []) hstore
    exact ⟨_, _, run_bind_of_ok hrun, h.withStore hbears hpending hcompiled hcopy event⟩
  | false =>
    obtain ⟨event, s, hrun, hbears⟩ :=
      exists_run_inStore (Store.attains_streamIn hfits hroom []) hstore
    exact ⟨_, _, run_bind_of_ok hrun, h.withStore hbears hpending hcompiled hcopy (some event)⟩

theorem attains_fetch (hfits : (k.range window).fits k.bytes.length = true) {c : BufferId × Bytes}
    (hc : k.copy = some c) :
    Attains (Bears S k) (effect .normal (.transfer (.streamOut true) 0 0 none window))
      fun _ => Rests S (k.fetch window) := by
  rintro m h
  obtain ⟨e, hstore, hpending⟩ := h.store
  obtain ⟨event, s, hrun, hbears, hidle⟩ :=
    exists_run_inStore (Store.attains_streamOut hfits hc []) hstore
  refine ⟨_, _, run_bind_of_ok hrun, h.withStore hbears hpending ?_ ?_ (some event), hidle⟩
  · rw [Workpiece.fetch_of_copy hc]
  · intro _ c' hc'
    exact ⟨c', by rw [Workpiece.fetch_of_copy hc]; exact hc', rfl⟩

/-! ## Launches -/

/-- The kernel is found, and its code is kept. -/
theorem Bears.exists_run_compile (h : m.Bears S k) (hk : k.compiled = false) :
    ∃ m', (compile 0 0).run m = (.ok (some addOneCode), m') ∧ m'.Bears S k.compile ∧
      (m.store.Idle → m'.store.Idle) := by
  obtain ⟨e, ⟨st, o, r, hstore⟩, hpending⟩ := h.store
  obtain ⟨c, hc, -, t, ht, hname⟩ := hstore.context
  have hdevices : m.context.devices = [st.device] := hstore.device
  have hd : m.context.devices[0]? = some st.device := by
    rw [hdevices]
    rfl
  have htask : m.context.tasks[0]? = some t := by
    rw [context, hc]
    exact ht
  have hkernel : (st.device.kernels.get? t.name).map (InstalledCode.mk t.name) =
      some ⟨"add_one", .addOne⟩ := by
    rw [hstore.due.kernels, hname, hstore.piece.kernel]
    rfl
  obtain ⟨journal, hrun, -⟩ := run_compile hd htask
  rw [hkernel] at hrun
  have hcode : m.code.get? 0 = none := by
    rw [h.code, hk]
    rfl
  refine ⟨_, hrun, ⟨⟨e, ⟨_, _, r, hstore.installed hk journal⟩, hpending⟩, ?_, ?_, h.pool,
    fun f hf => ?_⟩, ?_⟩
  · rw [Workpiece.compiled_compile]
    exact CodeCache.get?_tried_self hcode h.slots
  · exact lt_of_lt_of_eq h.slots (CodeCache.length_slots_install ..).symm
  · rw [FrameSuits, Workpiece.copy_compile]
    exact h.frames f hf
  · intro hidle
    have hqueue : st.device.queue = [] := (hstore.rests hidle).2
    change ∀ d ∈ m.context.devices.set 0 (asked st.device), d.queue = []
    rw [hdevices, List.set_cons_zero]
    intro d hd
    rw [List.mem_singleton.1 hd]
    exact hqueue

theorem Bears.exists_run_resolveCode (h : m.Bears S k) :
    ∃ m', (resolveCode 0 0).run m = (.ok (some addOneCode), m') ∧ m'.Bears S k.compile ∧
      (m.store.Idle → m'.store.Idle) := by
  cases hk : k.compiled with
  | true =>
    have hcode : m.code.get? 0 = some addOneCode := by rw [h.code, if_pos hk]
    refine ⟨m, run_resolveCode_of_some hcode, ?_, id⟩
    rw [Workpiece.compile_of_compiled hk]
    exact h
  | false =>
    have hcode : m.code.get? 0 = none := by
      rw [h.code, hk]
      rfl
    rw [run_resolveCode_of_none hcode]
    exact h.exists_run_compile hk

theorem Bears.withFrames (h : m.Bears S k) {frames : FramePool} (hpool : 0 < frames.slots.length)
    (hframes : ∀ f, frames.get? 0 = some f → FrameSuits S k f) : Bears S k { m with frames } :=
  ⟨h.store, h.code, h.slots, hpool, hframes⟩

theorem Bears.putFrame (h : m.Bears S k) (hf : FrameSuits S k f) :
    Bears S k { m with frames := m.frames.put 0 f } := by
  refine h.withFrames (by simpa [FramePool.put] using h.pool) fun f' hf' => ?_
  have hget : (m.frames.put 0 f).get? 0 = some f := by
    simp [FramePool.get?, FramePool.put, List.getElem?_set_self h.pool]
  cases hget.symm.trans hf'
  exact hf

theorem frameSuits_fresh (hf : f.isOnDevice = false) : FrameSuits S k f := by
  intro hf'
  rw [hf] at hf'
  cases hf'

/-- The frame of the launch has room for an argument. -/
theorem Bears.exists_run_resolveFrame (h : m.Bears S k) :
    ∃ f frames, (resolveFrame 0 1).run m = (.ok f, { m with frames }) ∧
      Bears S k { m with frames } ∧ 1 ≤ f.capacity ∧ FrameSuits S k f := by
  have hfresh : FrameSuits S k { capacity := 1 } := frameSuits_fresh rfl
  obtain ⟨slot, hslot⟩ : ∃ slot, m.frames.slots[0]? = some slot :=
    ⟨_, List.getElem?_eq_getElem h.pool⟩
  have hlookup : lookup .frame m.frames.slots 0 = .ok slot := lookup_eq_ok.2 hslot
  rw [resolveFrame, run_bind, run_get]
  dsimp only
  rw [FramePool.resolve, hlookup]
  cases slot with
  | none => exact ⟨_, _, rfl, h.putFrame hfresh, le_rfl, hfresh⟩
  | some f =>
    have hget : m.frames.get? 0 = some f := by rw [FramePool.get?, hslot]; rfl
    cases hnew : m.config.redeployOnDevice || decide (f.capacity < 1) with
    | true =>
      refine ⟨_, _, ?_, h.putFrame hfresh, le_rfl, hfresh⟩
      simp only [bind, Except.bind, hnew, if_true]
      rfl
    | false =>
      refine ⟨f, m.frames, ?_, h, ?_, h.frames f hget⟩
      · simp only [bind, Except.bind, hnew]
        rfl
      · exact Nat.not_lt.1 (of_decide_eq_false (Bool.or_eq_false_iff.1 hnew).2)

/-- The frame of the launch gets the buffer of the workpiece as its argument, or the device has it
there. -/
theorem Bears.exists_run_fillFrame (h : m.Bears S k) {c : BufferId × Bytes} (hc : k.copy = some c)
    (hheld : k.held.isSome) (hf : FrameSuits S k f) (hcapacity : 1 ≤ f.capacity) (t : Task) :
    ∃ f' m', (fillFrame t 0 0 [.reference 0] f).run m = (.ok f', m') ∧ m'.Bears S k ∧
      (∃ label, f'.arguments = [.reference 0 c.1 label]) ∧ FrameSuits S k f' := by
  cases hdevice : f.isOnDevice with
  | true =>
    obtain ⟨-, c', hc', label, harguments⟩ := hf hdevice
    cases hc.symm.trans hc'
    exact ⟨f, m, by rw [fillFrame, if_pos hdevice]; rfl, h, ⟨label, harguments⟩, hf⟩
  | false =>
    rw [fillFrame, hdevice]
    set m₁ : Machine := { m with frames := m.frames.put 0 f.reset } with hm₁
    have h₁ : m₁.Bears S k := h.putFrame (frameSuits_fresh rfl)
    obtain ⟨e, ⟨st, o, r, hstore⟩, hpending⟩ := h₁.store
    obtain ⟨c', hcontext, hplaced⟩ := hstore.context
    have hplace : m₁.context.places[0]? = some S.place :=
      (congrArg (·.places[0]?) hcontext).trans hplaced.place
    have hbuffer : r.allocation = some ⟨c.1, c.2.length⟩ := by
      rw [hstore.piece.allocation, hc, Option.map_some]
    have hgrants := Grants.reference hstore.recorded hbuffer (hstore.piece.valid.trans hheld) hplace
    have hstart : (Machine.putFrame 0 f.reset).run m = (.ok (), m₁) := rfl
    simp only [Bool.false_eq_true, if_false]
    rw [run_bind_of_ok hstart]
    rcases marshal_cons_cases m₁ t 0 0 0 (.reference 0) [] f.reset with
      ⟨fault, hrefused, -⟩ | ⟨a, s, ha, -, hs, hrun⟩
    · exact absurd (hrefused _ hgrants) (Nat.not_le.2 hcapacity)
    obtain rfl := hgrants.eq ha
    have hsuits : ∀ a, FrameSuits S k (f.reset.pushed a) := fun _ => frameSuits_fresh rfl
    have h₂ := fun a => h₁.putFrame (hsuits a)
    -- A task that writes its argument claims the object for the device.
    rcases hs with ⟨rfl, -⟩ | ⟨_, text, ⟨⟩, -, rfl⟩
    · exact ⟨_, _, hrun, h₂ _, ⟨_, rfl⟩, hsuits _⟩
    · refine ⟨_, _, hrun, ?_, ⟨_, rfl⟩, hsuits _⟩
      exact (h₂ _).withStore (hstore.claim (by simp [hc]) hheld text) hpending rfl
        (fun _ c hc => ⟨c, hc, rfl⟩) m.lastEvent

/-- The launch is submitted, and the buffer will have been increased when the queue has run. -/
theorem Bears.exists_run_submitLaunch (h : m.Bears S k) {c : BufferId × Bytes}
    (hc : k.copy = some c) (harguments : ∃ label, f.arguments = [.reference 0 c.1 label])
    (hf : FrameSuits S k f) (t : Task) (window : Option Window) :
    ∃ m', (submitLaunch addOneCode t 0 0 0 none window f).run m = (.ok (), m') ∧
      m'.Bears S { k with copy := some (c.1, Bytes.addOne c.2) } := by
  obtain ⟨e, ⟨st, o, r, hstore⟩, hpending⟩ := h.store
  obtain ⟨label, harguments⟩ := harguments
  obtain ⟨event, s, hrun, hevent, hbears⟩ := hstore.exists_run_launch hc harguments t.name window
    (if m.config.useDependencies then [] else [])
  set f' : CallFrame := if S.options.retainCallFrames then f.markOnDevice else f with hf'
  have hdevice : (onDevice addOneCode.device (Station.launch addOneCode.code f t.name window
      (if m.config.useDependencies then [] else []))).run m =
      (.ok (event, f'), { m with store := s }) :=
    run_onDevice_of_store hrun
  have hwait : (waitList none).run m = (.ok [], m) := rfl
  have hcopy : ∀ c' ∈ k.copy, ∃ c'' ∈ some (c.1, Bytes.addOne c.2), c''.1 = c'.1 := by
    intro c' hc'
    cases hc.symm.trans hc'
    exact ⟨_, rfl, rfl⟩
  have hold : ∀ p ∈ m.pending, p.task = 0 ∧ p.device = 0 ∧ p.event < event + 1 := fun p hp =>
    ⟨(hpending p hp).1, (hpending p hp).2.1,
      Nat.lt_succ_of_lt (lt_of_lt_of_le (hpending p hp).2.2 hevent)⟩
  have hframe : FrameSuits S { k with copy := some (c.1, Bytes.addOne c.2) } f' := by
    rw [hf']
    split
    · rename_i hretain
      exact fun _ => ⟨hretain, _, rfl, label, harguments⟩
    · exact hf.mono fun _ => hcopy
  have hnext := (h.withStore hbears hold rfl (fun _ => hcopy) (some event)).putFrame hframe
  rw [submitLaunch, run_bind, run_get]
  dsimp only
  rw [run_bind_of_ok hwait, run_bind_of_ok hdevice]
  cases m.config.profiling && t.profiling with
  | false => exact ⟨_, rfl, hnext⟩
  | true =>
    refine ⟨_, rfl, ⟨⟨event + 1, hbears, ?_⟩, hnext.code, hnext.slots, hnext.pool, hnext.frames⟩⟩
    intro p hp
    rcases List.mem_append.1 hp with hp | hp
    · exact hold p hp
    · rw [List.mem_singleton.1 hp]
      exact ⟨rfl, rfl, Nat.lt_succ_self event⟩

theorem Bears.exists_run_launch (h : m.Bears S k) (mode : PassMode) (window : Option Window) :
    ∃ m', (effect mode (.launch 0 0 0 none window [.reference 0])).run m =
        (launchWith mode 0 0 0 none window [.reference 0] (some addOneCode)).run m' ∧
      m'.Bears S k.compile ∧ (m.store.Idle → m'.store.Idle) := by
  obtain ⟨e, ⟨st, o, r, hstore⟩, -⟩ := h.store
  have hd : m.context.devices[0]? = some st.device := by
    rw [context, hstore.device]
    rfl
  obtain ⟨m', hcode, h', hidle⟩ := h.exists_run_resolveCode
  exact ⟨m', (run_launch_of_device hd).trans (run_bind_of_ok hcode), h', hidle⟩

/-- A launch finds the kernel and the buffer, and it adds one to what will be in the buffer. -/
theorem attains_launch {c : BufferId × Bytes} (hc : k.copy = some c) (hheld : k.held.isSome)
    (window : Option Window) :
    Attains (Bears S k) (effect .normal (.launch 0 0 0 none window [.reference 0]))
      fun _ => Bears S k.launch := by
  intro m h
  obtain ⟨m₁, hlaunch, h₁, -⟩ := h.exists_run_launch .normal window
  obtain ⟨f, frames, hframe, h₂, hcapacity, hf⟩ := h₁.exists_run_resolveFrame
  have hresolve : (resolveFrame 0 [Argument.reference 0].length).run m₁ =
      (.ok f, { m₁ with frames }) := hframe
  obtain ⟨e, ⟨st, o, r, hstore⟩, -⟩ := h₂.store
  obtain ⟨context, hcontext, -, t, ht, -⟩ := hstore.context
  have htask : ({ m₁ with frames } : Machine).context.task 0 = .ok t := by
    refine lookup_eq_ok.2 ?_
    rw [Machine.context, hcontext]
    exact ht
  rw [← Workpiece.copy_compile] at hc
  rw [← Workpiece.held_compile] at hheld
  obtain ⟨f', m₃, hfill, h₃, harguments, hf'⟩ := h₂.exists_run_fillFrame hc hheld hf hcapacity t
  obtain ⟨m₄, hsubmit, h₄⟩ := h₃.exists_run_submitLaunch hc harguments hf' t window
  refine ⟨none, m₄, ?_, ?_⟩
  · rw [hlaunch, launchWith, run_bind_of_ok hresolve]
    simp only [reduceCtorEq, if_false]
    rw [run_bind, run_get]
    dsimp only
    rw [htask]
    exact (run_bind_of_ok hfill).trans (run_bind_of_ok hsubmit)
  · rw [Workpiece.launch, ← Workpiece.copy_compile, hc]
    exact h₄

/-- A launch of a warm-up pass compiles and does nothing else. -/
theorem attains_launch_warmup (window : Option Window) :
    Attains (Rests S k) (effect .warmup (.launch 0 0 0 none window [.reference 0]))
      fun _ => Rests S k.compile := by
  rintro m ⟨h, hidle⟩
  obtain ⟨m₁, hlaunch, h₁, hidle₁⟩ := h.exists_run_launch .warmup window
  obtain ⟨f, frames, hframe, h₂, -, -⟩ := h₁.exists_run_resolveFrame
  have hresolve : (resolveFrame 0 [Argument.reference 0].length).run m₁ =
      (.ok f, { m₁ with frames }) := hframe
  refine ⟨some .warmup, _, ?_, h₂, hidle₁ hidle⟩
  rw [hlaunch, launchWith, run_bind_of_ok hresolve]
  rfl

end Machine

end Offload
