import Offload.Proofs.LaunchRules

/-!
# Passes keep table and memory in step

Every operation of a machine keeps its store sound, whether it ends in a value or in a fault, and so
does a whole session. Most operations reach the store through a few of its operations only; what
they do to the rest of the machine does not matter here.
-/

namespace Offload

open Offload.Action

namespace Store

theorem keeps_sound {α : Type} {x : StoreAction α} (hx : ∀ t l, Keeps (At t l) x) :
    Keeps Sound x :=
  meets_of_at fun t l ht => meets_imp (hx t l) (fun _ _ hs => hs.sound ht) fun _ hs => hs.sound ht

end Store

namespace Machine

variable (mode : PassMode) (kind : PassKind)

section Parts

variable {α : Type} {I : Store → Prop}

theorem keeps_modify_store {f : Machine → Machine} (hf : ∀ m, (f m).store = m.store) :
    Keeps (fun m : Machine => I m.store) (modify f : MachineAction PUnit) :=
  keeps_modify fun m hm => (hf m).symm ▸ hm

theorem keeps_read (x : Reading α) : Keeps (fun m => I m.store) (read x) :=
  meets_iff_after.2 fun _ => id

theorem keeps_setLastEvent (event : Option EventId) :
    Keeps (fun m => I m.store) (setLastEvent event) :=
  keeps_modify_store fun _ => rfl

theorem keeps_waitList (list : Option Nat) : Keeps (fun m => I m.store) (waitList list) :=
  keeps_get fun _ => keeps_ofExcept

theorem keeps_resetList (list : Option Nat) : Keeps (fun m => I m.store) (resetList list) := by
  refine keeps_get fun m => keeps_bind keeps_ofExcept fun ledger => ?_
  exact keeps_modify_store fun _ => rfl

theorem keeps_resolveFrame (frame count : Nat) :
    Keeps (fun m => I m.store) (resolveFrame frame count) := by
  refine keeps_get fun m => keeps_bind keeps_ofExcept fun r => ?_
  exact keeps_bind (keeps_modify_store fun _ => rfl) fun _ => keeps_pure

theorem keeps_putFrame (id : Nat) (f : CallFrame) : Keeps (fun m => I m.store) (putFrame id f) :=
  keeps_modify_store fun _ => rfl

end Parts

/-- The store of the machine is sound. -/
def Sound (m : Machine) : Prop := m.store.Sound

theorem keeps_log (level : Level) (text : String) : Keeps Sound (log level text) :=
  meets_inStore (Store.keeps_sound fun _ _ => Store.keeps_log level text)

theorem keeps_onDevice {α : Type} {index : Nat} {x : DeviceAction α}
    (hx : ∀ size length, Keeps (Station.SoundAt size length) x) :
    Keeps Sound (onDevice index x) :=
  meets_inStore (Store.keeps_sound fun _ _ =>
    Store.keeps_inContext (Context.keeps_onDevice (hx _ _)))

theorem keeps_fetch : Keeps Sound (fetch kind) := by
  refine keeps_get fun m => keeps_bind (keeps_read _) fun i => ?_
  dsimp only
  split
  · exact meets_throw_bind fun _ hm => hm
  · split
    · exact keeps_bind (keeps_log _ _) fun _ => keeps_pure
    · exact keeps_pure

theorem keeps_resolveCode (task device : Nat) : Keeps Sound (resolveCode task device) := by
  refine keeps_resolveCode_of_install ?_ (fun name => ?_) fun _ _ _ hm => ⟨⟨rfl, hm.1.sound⟩, hm.2⟩
  · exact meets_inStore (Store.keeps_sound fun _ _ =>
      Store.keeps_inContext (keeps_modify fun _ hc => ⟨hc.layout_eq, hc.sound⟩))
  · exact keeps_onDevice fun _ _ => Station.keeps_install name

theorem keeps_marshal (task : Task) (id device place : Nat) (arguments : List Argument)
    (f : CallFrame) : Keeps Sound (marshal task id device place arguments f) := by
  induction arguments generalizing place f with
  | nil => exact keeps_pure
  | cons argument others ih =>
    intro m hm
    rcases marshal_cons_cases m task id device place argument others f with
      ⟨fault, -, hrun⟩ | ⟨a, s, ha, -, hs, hrun⟩
    · rw [hrun]
      exact hm
    · rw [hrun]
      refine ih (place + 1) _ _ (?_ : s.Sound)
      rcases hs with ⟨rfl, -⟩ | ⟨object, text, rfl, -, rfl⟩
      · exact hm
      · cases ha with
        | reference hr hbuffer hvalid hplace =>
          exact Store.Sound.claim hm hr (by simp [hbuffer]) text

theorem keeps_fillFrame (t : Task) (frame device : Nat) (arguments : List Argument)
    (f : CallFrame) :
    Keeps Sound (fillFrame t frame device arguments f) := by
  rw [fillFrame]
  split
  · exact keeps_pure
  · exact keeps_bind (keeps_putFrame _ _) fun _ => keeps_marshal _ _ _ _ _ _

theorem keeps_submitLaunch (entry : CacheEntry) (t : Task) (frame device task : Nat)
    (events : Option Nat) (window : Option Window) (f : CallFrame) :
    Keeps Sound (submitLaunch entry t frame device task events window f) := by
  refine keeps_get fun m => keeps_bind (keeps_waitList events) fun wait => ?_
  refine keeps_bind (keeps_onDevice fun _ _ => Station.keeps_launch _ _ _ _ _) fun _ => ?_
  refine keeps_bind (keeps_putFrame _ _) fun _ => ?_
  refine keeps_bind (keeps_resetList events) fun _ => ?_
  refine keeps_bind (keeps_setLastEvent _) fun _ => ?_
  split
  · exact keeps_modify_store fun _ => rfl
  · exact keeps_pure

theorem keeps_launch (frame device task : Nat) (events : Option Nat) (window : Option Window)
    (arguments : List Argument) :
    Keeps Sound (launch mode frame device task events window arguments) := by
  refine keeps_get fun m => keeps_bind keeps_ofExcept fun _ => ?_
  refine keeps_bind (keeps_resolveCode task device) fun code => ?_
  refine keeps_bind (keeps_resolveFrame frame arguments.length) fun f => ?_
  split
  · exact keeps_pure
  · split
    · exact keeps_bind (keeps_log _ _) fun _ => keeps_pure
    · refine keeps_get fun m => keeps_bind keeps_ofExcept fun t => ?_
      refine keeps_bind (keeps_fillFrame t frame device arguments f) fun f => ?_
      exact keeps_bind (keeps_submitLaunch _ _ _ _ _ _ _ _) fun _ => keeps_pure

theorem workKeeps_sound (i : Instruction) : WorkKeeps Sound i := by
  refine fun wait => meets_inStore ?_
  cases i with
  | allocate object device window => exact Store.keeps_allocate object device window
  | transfer op object device _ window =>
    cases op with
    | copyIn => exact Store.keeps_copyIn object device window wait
    | streamIn =>
      exact keeps_bind (Store.keeps_streamIn object device window wait) fun _ => keeps_pure
    | streamOut blocking =>
      exact keeps_bind (Store.keeps_streamOut object device window wait blocking) fun _ =>
        keeps_pure
  | barrier =>
    exact keeps_bind (Store.keeps_sound fun _ _ => Store.keeps_inContext
      (Context.keeps_onDevice (Station.keeps_marker wait))) fun _ => keeps_pure
  | addDep | launch | finish => exact keeps_pure

theorem endKeeps_sound : EndKeeps Sound where
  marker _ := keeps_onDevice fun _ _ => Station.keeps_marker []
  resolve _ event := keeps_onDevice fun _ _ => Station.keeps_resolve event
  flush _ := keeps_onDevice fun _ _ => Station.keeps_flush
  emptied _ hm := hm
  profiled _ _ hm := hm

theorem keeps_runBody (fuel : Nat) : Keeps Sound (runBody mode kind fuel) := by
  refine keeps_runBody_of_effect (keeps_fetch kind) (fun i => ?_) (fun i note m hm => ?_) fuel
  · exact keeps_effect_of_work (fun _ _ _ => id) (workKeeps_sound i) (keeps_launch mode)
  · rw [noted]
    split
    · exact hm
    · exact hm

theorem keeps_runPass : Keeps Sound (runPass mode kind) := by
  refine meets_iff_after.2 fun m hm => ?_
  have hbody := meets_iff_after.1 (keeps_runBody mode kind m.reader.remaining) m.begun hm
  rw [run_runPass]
  exact meets_iff_after.1
    (endKeeps_sound.closing keeps_log (fun _ _ _ _ => id) mode kind (m.body mode kind).1) _ hbody

theorem keeps_serve (request : Request) : Keeps Sound (serve request) := by
  cases request with
  | pass mode kind => exact keeps_runPass mode kind
  | invalidate =>
    refine keeps_bind (keeps_modify fun m hm => ?_) fun _ => keeps_pure
    exact Store.Sound.invalidate hm

end Machine

/-! ## From the start of a session -/

/-- A device without buffers and queued commands, none of whose transfers has failed. -/
structure Device.Idle (d : Device) : Prop where
  empty : ∀ b, d.memory.get? b = none
  quiet : d.queue = []
  clean : ∀ r ∈ d.log.records, r.status = .failed → r.kind = .launch

theorem Device.Idle.sound {d : Device} (hd : d.Idle) (length : Nat → Nat) : d.Sound length := by
  refine ⟨?_, ?_, ?_, hd.clean⟩
  · intro b n hb
    rw [Memory.size?, hd.empty b] at hb
    cases hb
  · simp [hd.quiet]
  · simp [hd.quiet]

/-- All devices of the context are idle. -/
def Context.Idle (c : Context) : Prop := ∀ d ∈ c.devices, d.Idle

theorem Context.Idle.storeSound {c : Context} (hc : c.Idle) : (Store.new c).Sound := by
  refine Store.Sound.new ⟨rfl, fun d hd => (hc d hd).sound _⟩ fun d b => ?_
  rw [size_layout]
  cases hd : c.devices[d]? with
  | none => rfl
  | some device =>
    have hempty := (hc device (List.mem_of_getElem? hd)).empty b
    rw [Option.bind_some, Memory.size?, hempty, Option.map_none]

namespace Machine

theorem keeps_start (code : Bytes) : Keeps Context.Idle (start code) := by
  refine keeps_start_of_load (fun index => ?_) (fun _ _ _ => id) code
  refine Context.meets_onDevice (fun _ => id) fun c d hc hd => meets_modify ?_
  rintro _ rfl d' hd'
  rcases List.mem_or_eq_of_mem_set hd' with hd' | rfl
  · exact hc d' hd'
  · exact ⟨(hc d (List.mem_of_getElem? hd)).empty, (hc d (List.mem_of_getElem? hd)).quiet,
      (hc d (List.mem_of_getElem? hd)).clean⟩

/-- A machine that is made over idle devices starts with a sound store. -/
theorem meets_create (code : Bytes) (config : Config) :
    Meets Context.Idle (create code config) (fun m _ => m.Sound) Context.Idle := by
  refine meets_bind (keeps_start code) fun _ => meets_get fun c hc => ?_
  exact meets_pure fun _ _ => hc.storeSound

end Machine

/-! ## Table and memory -/

/-- The table of a store and the memories of its devices are in step. -/
structure Store.InStep (s : Store) : Prop where
  /-- There is a record for every object and every device. -/
  total : ∀ object device, object < s.context.places.length → device < s.context.devices.length →
    ∃ r, s.table.record object device = .ok r
  /-- What a record says of a buffer's contents is said of a recorded buffer; bytes that a launch
  has changed, or that were sent as a window, are valid. -/
  flags : ∀ object device r, s.table.record object device = .ok r →
    (r.valid = true ∨ r.modified = true ∨ r.window.isSome = true → r.buffer.isSome = true) ∧
      (r.modified = true ∨ r.window.isSome = true → r.valid = true)
  /-- A recorded buffer is live, has the recorded size, and is no larger than its object. -/
  live : ∀ object device r a, s.table.record object device = .ok r → r.allocation = some a →
    ∃ d host bytes, s.context.device device = .ok d ∧ s.context.hosts[object]? = some host ∧
      d.memory.get? a.buffer = some bytes ∧ bytes.length = a.bytes ∧ a.bytes ≤ host.length
  /-- No two records have the same buffer of a device. -/
  apart : ∀ object object' device r r' b, s.table.record object device = .ok r →
    s.table.record object' device = .ok r' → r.buffer = some b → r'.buffer = some b →
    object = object'
  /-- A device has no buffer that is not recorded. -/
  recorded : ∀ device d b, s.context.device device = .ok d → (d.memory.get? b).isSome = true →
    ∃ object r, s.table.record object device = .ok r ∧ r.buffer = some b
  /-- Every queued transfer names a live buffer, and a write fits in it. A read may be for more
  bytes than there are; it stops at the end of the buffer. -/
  queued : ∀ d ∈ s.context.devices, ∀ p ∈ d.queue,
    p.command.Workable d.memory.size? (Command.lengths s.context.objects)
  /-- No event but a launch has failed. -/
  settled : ∀ d ∈ s.context.devices, ∀ r ∈ d.log.records, r.status = .failed → r.kind = .launch

namespace Store

theorem allocation?_of_record {s : Store} {object device : Nat} {r : Record}
    (hr : s.table.record object device = .ok r) :
    s.table.allocation? object device = r.allocation := by
  rw [Table.allocation?, Table.record_eq_ok.1 hr, Option.bind_some]

theorem Sound.inStep {s : Store} (hs : s.Sound) : s.InStep := by
  obtain ⟨hcontext, ht⟩ := hs
  refine ⟨?_, ?_, ?_, ?_, ?_, ?_, ?_⟩
  · intro object device hobject hdevice
    obtain ⟨r, hr⟩ := Option.isSome_iff_exists.1 ((ht.total object device).2 ⟨hobject, hdevice⟩)
    exact ⟨r, Table.record_eq_ok.2 hr⟩
  · intro object device r hr
    have hc := ht.coherent object device r (Table.record_eq_ok.1 hr)
    have hvalid : r.modified = true ∨ r.window.isSome = true → r.valid = true := by
      rintro (h | h)
      · exact hc.modified_valid h
      · exact hc.window_valid h
    refine ⟨?_, hvalid⟩
    rintro (h | h)
    · simpa [Record.buffer] using hc.allocated h
    · simpa [Record.buffer] using hc.allocated (hvalid h)
  · intro object device r a hr ha
    obtain ⟨hsize, n, hn, hle⟩ := ht.live object device a ((allocation?_of_record hr).trans ha)
    rw [Context.size_layout] at hsize
    obtain ⟨d, hd, hsize⟩ := Option.bind_eq_some_iff.1 hsize
    obtain ⟨bytes, hbytes, hlength⟩ := Option.map_eq_some_iff.1 hsize
    obtain ⟨place, hplace, rfl⟩ := Option.map_eq_some_iff.1 hn
    refine ⟨d, objectAt s.context.objects place, bytes, lookup_eq_ok.2 hd, ?_, hbytes, hlength, hle⟩
    rw [Context.hosts, List.getElem?_map]
    exact congrArg _ hplace
  · intro object object' device r r' b hr hr' hb hb'
    obtain ⟨a, ha, rfl⟩ := Option.map_eq_some_iff.1 hb
    obtain ⟨a', ha', hbuffer⟩ := Option.map_eq_some_iff.1 hb'
    exact ht.apart object object' device a a' ((allocation?_of_record hr).trans ha)
      ((allocation?_of_record hr').trans ha') hbuffer.symm
  · intro device d b hd hb
    obtain ⟨bytes, hbytes⟩ := Option.isSome_iff_exists.1 hb
    have hsize : s.context.layout.size device b = some bytes.length := by
      rw [Context.size_layout, lookup_eq_ok.1 hd, Option.bind_some, Memory.size?, hbytes,
        Option.map_some]
    obtain ⟨object, a, ha, rfl⟩ := ht.recorded device b bytes.length hsize
    obtain ⟨r, hr, ha⟩ := Option.bind_eq_some_iff.1 ha
    exact ⟨object, r, Table.record_eq_ok.2 hr, by rw [Record.buffer, ha, Option.map_some]⟩
  · intro d hd
    exact (hcontext.sound d hd).queued
  · intro d hd
    exact (hcontext.sound d hd).settled

end Store

/-- Table and memory never drift apart: after any session of a machine that was made over idle
devices, however its passes ended, every flag, buffer and queued transfer agrees with the memory of
its device. -/
theorem Machine.session_inStep {code : Bytes} {config : Config} {c c' : Context} {m : Machine}
    (hc : c.Idle) (hm : (create code config).run c = (.ok m, c')) (requests : List Request) :
    (session requests m).2.store.InStep := by
  have hstart : m.Sound := by
    have hcreate := meets_create code config c hc
    rw [hm] at hcreate
    exact hcreate
  have hend : (session requests m).2.Sound := session_keeps keeps_serve requests hstart
  exact hend.inStep

/-- On a deferred device a buffer for four bytes is replaced by one for eight, and the write into it
still waits when a second pass, of the wrong kind, has failed. -/
theorem Machine.session_inStep_growing :
    let p : Program := ⟨⟨1, 0, 0, [0]⟩,
      [.allocate 0 0 (some ⟨0, 4⟩), .transfer .copyIn 0 0 none (some ⟨0, 8⟩), .finish]⟩
    let c : Context := {
      devices := [{ name := "d", options := { deferred := true } }]
      objects := [⟨"a", [1, 2, 3, 4, 5, 6, 7, 8]⟩]
      constants := []
      tasks := [] }
    let requests : List Request := [.pass .normal .batched, .invalidate, .pass .normal .plain]
    c.Idle ∧ ∃ m c', (create p.encode { flushOnCompletion := false }).run c = (.ok m, c') ∧
      (session requests m).2.store.InStep ∧
      (session requests m).2.context.devices.map (fun d => (d.queue.length, d.memory.size? 1)) =
        [(1, some 8)] := by
  intro p c requests
  have hc : c.Idle := by
    intro d hd
    rw [List.mem_singleton.1 hd]
    exact ⟨fun _ => rfl, rfl, nofun⟩
  refine ⟨hc, ?_⟩
  have hqueue : (match (create p.encode { flushOnCompletion := false }).run c with
      | (.ok m, _) => (session requests m).2.context.devices.map fun d =>
        (d.queue.length, d.memory.size? 1)
      | _ => []) = [(1, some 8)] := by
    decide +kernel
  rcases hm : (create p.encode { flushOnCompletion := false }).run c with ⟨r, c'⟩
  rw [hm] at hqueue
  cases r with
  | error fault => cases hqueue
  | ok m => exact ⟨m, c', rfl, session_inStep hc hm requests, hqueue⟩

/-- The bytes that a transfer asks for fit in its buffer. -/
def Command.fits (size? : BufferId → Option Nat) (length : Nat → Nat) : Command → Bool
  | .write buffer object window | .read buffer object window =>
    (size? buffer).any fun n => (range window (length object)).size ≤ n
  | .launch .. | .marker => true

/-- A queued read may ask for more bytes than its buffer has. -/
theorem Machine.session_inStep_short_buffer :
    let p : Program := ⟨⟨1, 0, 0, []⟩,
      [.allocate 0 0 (some ⟨0, 4⟩), .transfer (.streamOut false) 0 0 none (some ⟨0, 8⟩), .finish]⟩
    let c : Context := {
      devices := [{ name := "d", options := { deferred := true } }]
      objects := [⟨"a", [1, 2, 3, 4, 5, 6, 7, 8]⟩]
      constants := []
      tasks := [] }
    ((create p.encode { flushOnCompletion := false }).outcome c).toOption.map (fun m =>
      let s := (session [.pass .normal .batched] m).2
      s.context.devices.map fun d => (d.memory.size? 0, d.queue.map fun q =>
        (q.command.kind, q.command.fits d.memory.size? (Command.lengths s.context.objects)))) =
    some [(some 4, [(.read, false)])] := by
  decide +kernel

end Offload
