import Offload.Proofs.Contracts

/-!
# Safe devices

What a device does with its memory is seen here through the sizes of its buffers alone. Commands
change bytes and never sizes, so a transfer that fits when it is submitted still fits when it is
run, however long it has waited. A device is sound if all of its queued transfers fit and no event
but a launch has failed; every operation keeps that, and only `allocate` and `release` change the
sizes.
-/

namespace Offload

open Offload.Action

/-! ## Sizes -/

/-- The size of a buffer. -/
def Memory.size? (m : Memory) (b : BufferId) : Option Nat := (m.get? b).map List.length

variable {m : Memory}

namespace Memory

theorem size?_set {b : BufferId} {old bytes : Bytes} (hb : m.get? b = some old)
    (hlength : bytes.length = old.length) : (m.set b bytes).size? = m.size? := by
  funext c
  rw [size?, size?, get?_set]
  by_cases hc : c = b
  · subst hc
    simp [hb, hlength]
  · rw [if_neg hc]

theorem size?_insert (m : Memory) (b : BufferId) (bytes : Bytes) :
    (m.insert b bytes).size? = Function.update m.size? b (some bytes.length) := by
  funext c
  rw [size?, get?_insert, Function.update_apply]
  by_cases hc : c = b
  · rw [if_pos hc, if_pos hc]
    rfl
  · rw [if_neg hc, if_neg hc]
    rfl

theorem size?_erase (m : Memory) (b : BufferId) :
    (m.erase b).size? = Function.update m.size? b none := by
  funext c
  rw [size?, get?_erase, Function.update_apply]
  by_cases hc : c = b
  · rw [if_pos hc, if_pos hc]
    rfl
  · rw [if_neg hc, if_neg hc]
    rfl

end Memory

variable {v : Invocation}

namespace Invocation

/-- Changing a buffer in a way that keeps the length of every byte string keeps all sizes. -/
theorem size?_of_update {index : Nat} {f : Bytes → Bytes}
    (hf : ∀ bytes, (f bytes).length = bytes.length) (h : v.update index f = .ok m) :
    m.size? = v.memory.size? := by
  simp only [update, bind, Except.bind] at h
  split at h
  · cases h
  · split at h
    · rename_i id _ _ old hold
      cases h
      exact Memory.size?_set hold (hf old)
    · cases h

theorem size?_of_writeWords {index : Nat} {words : List UInt32}
    (h : v.writeWords index words = .ok m) :
    m.size? = v.memory.size? :=
  size?_of_update (fun bytes => Bytes.length_setWords bytes words) h

end Invocation

/-- A kernel program moves bytes about inside buffers of fixed sizes. -/
theorem KernelProgram.size?_run (p : KernelProgram) (v : Invocation) :
    (p.run v).2.size? = v.memory.size? := by
  induction p generalizing v with
  | done result => rfl
  | look index next ih => exact ih _ v
  | put index bytes next ih =>
    rw [run]
    cases hput : v.update index fun old => Bytes.overwrite old 0 bytes with
    | error fault => exact ih _ v
    | ok memory =>
      have hsize := Invocation.size?_of_update (fun old => Bytes.length_overwrite old 0 bytes) hput
      rw [← hsize]
      exact ih (.ok ()) { v with memory }

namespace Kernel

/-- A sequence of checks before the one write leaves the sizes to that write. -/
theorem size?_run {k : Kernel} (h : k.run v = .ok m) : m.size? = v.memory.size? := by
  cases k with
  | custom program =>
    have hsize := (program v.kernel v.arguments v.window).size?_run v
    rw [run] at h
    rcases hrun : (program v.kernel v.arguments v.window).run v with ⟨result, memory⟩
    rw [hrun] at h hsize
    cases result with
    | error fault => cases h
    | ok value =>
      cases h
      exact hsize
  | _ =>
    simp only [run, bind, Except.bind] at h
    repeat' split at h
    all_goals first
      | cases h
      | exact Invocation.size?_of_writeWords h

theorem size?_remains (k : Kernel) (v : Invocation) : (k.remains v).size? = v.memory.size? := by
  cases k with
  | custom program => exact (program v.kernel v.arguments v.window).size?_run v
  | _ => rfl

end Kernel

/-! ## Commands -/

theorem Window.fits_whole (length : Nat) : (whole length).fits length = true := by
  simp [fits, stop, whole]

theorem Window.length_cut_le (w : Window) (bytes : Bytes) :
    ((bytes.take w.stop).drop w.offset).length ≤ w.size := by
  have hstop : w.stop ≤ w.offset + w.size := Nat.min_le_left _ _
  rw [List.length_drop, List.length_take]
  omega

theorem length_objectAt_modify (objects : List HostObject) (object place offset : Nat)
    (src : Bytes) :
    (objectAt (objects.modify object fun o => o.write offset src) place).length =
      (objectAt objects place).length := by
  rw [objectAt, objectAt, List.getElem?_modify]
  by_cases hplace : object = place
  · cases h : objects[place]? with
    | none => simp
    | some o => simp [hplace]
  · simp [hplace]

variable {c : Command}

namespace Command

/-- The kind of the events of a command. -/
def kind : Command → EventKind
  | .write .. => .write
  | .read .. => .read
  | .launch .. => .launch
  | .marker => .marker

/-- The window of an object that a transfer is about; without one it is about the whole object. -/
def range (window : Option Window) (length : Nat) : Window := window.getD (.whole length)

/-- A transfer that will not fail. It names a live buffer and a window inside its object; a write
needs room for the whole window, while a read stops at the end of the buffer. -/
def Workable (size? : BufferId → Option Nat) (length : Nat → Nat) : Command → Prop
  | .write buffer object window =>
    (range window (length object)).fits (length object) = true ∧
      ∃ n, size? buffer = some n ∧ (range window (length object)).size ≤ n
  | .read buffer object window =>
    (range window (length object)).fits (length object) = true ∧ ∃ n, size? buffer = some n
  | .launch .. | .marker => True

/-- The lengths of the objects, by their places. -/
def lengths (objects : List HostObject) (place : Nat) : Nat := (objectAt objects place).length

theorem Workable.mono {size size' : BufferId → Option Nat} {length : Nat → Nat}
    (h : c.Workable size length) (hsize : ∀ b n, size b = some n → size' b = some n) :
    c.Workable size' length := by
  cases c with
  | write buffer object window =>
    obtain ⟨hrange, n, hn, hroom⟩ := h
    exact ⟨hrange, n, hsize buffer n hn, hroom⟩
  | read buffer object window =>
    obtain ⟨hrange, n, hn⟩ := h
    exact ⟨hrange, n, hsize buffer n hn⟩
  | launch name kernel arguments window => trivial
  | marker => trivial

theorem size?_execute (c : Command) (memory : Memory) (objects : List HostObject) :
    (c.execute memory objects).2.1.size? = memory.size? := by
  cases c with
  | write buffer object window =>
    simp only [execute]
    split
    · rfl
    · rename_i target htarget
      split
      · rfl
      · split
        · rfl
        · exact Memory.size?_set htarget (Bytes.length_overwrite ..)
  | read buffer object window =>
    simp only [execute]
    split
    · rfl
    · split <;> rfl
  | launch name kernel arguments window =>
    simp only [execute]
    split
    · exact Kernel.size?_run (by assumption)
    · exact kernel.size?_remains _
    · exact kernel.size?_remains _
  | marker => rfl

theorem objects_execute (c : Command) (memory : Memory) (objects : List HostObject) :
    (c.execute memory objects).2.2 = objects ∨ ∃ place offset src,
      (c.execute memory objects).2.2 = objects.modify place fun o => o.write offset src := by
  cases c with
  | write buffer object window =>
    left
    simp only [execute]
    split
    · rfl
    · split
      · rfl
      · split <;> rfl
  | read buffer object window =>
    simp only [execute]
    split
    · exact .inl rfl
    · split
      · exact .inl rfl
      · exact .inr ⟨_, _, _, rfl⟩
  | launch name kernel arguments window =>
    left
    simp only [execute]
    split <;> rfl
  | marker => exact .inl rfl

theorem lengths_execute (c : Command) (memory : Memory) (objects : List HostObject) :
    lengths (c.execute memory objects).2.2 = lengths objects := by
  funext place
  rcases c.objects_execute memory objects with h | ⟨object, offset, src, h⟩
  · rw [h]
  · rw [h]
    exact length_objectAt_modify objects object place offset src

/-- A command that fits does not fail unless it is a launch. -/
theorem execute_eq_ok {memory : Memory} {objects : List HostObject}
    (hfits : c.Workable memory.size? (lengths objects)) (hkind : c.kind ≠ .launch) :
    (c.execute memory objects).1 = .ok () := by
  cases c with
  | write buffer object window =>
    obtain ⟨hrange, n, hsize, hroom⟩ := hfits
    obtain ⟨target, htarget, htargetlen⟩ := Option.map_eq_some_iff.1 hsize
    have hfit : (window.getD (.whole (objectAt objects object).bytes.length)).fits
        (objectAt objects object).bytes.length = true := hrange
    simp only [execute, htarget, hfit]
    rw [if_neg (by simp)]
    split
    · rename_i hlt
      have hcut := (Window.length_cut_le _ (objectAt objects object).bytes).trans hroom
      rw [← htargetlen] at hcut
      exact absurd hlt (Nat.not_lt.2 hcut)
    · rfl
  | read buffer object window =>
    obtain ⟨hrange, n, hsize⟩ := hfits
    obtain ⟨source, hsource, -⟩ := Option.map_eq_some_iff.1 hsize
    have hfit : (window.getD (.whole (objectAt objects object).length)).fits
        (objectAt objects object).length = true := hrange
    simp only [execute, hsource, hfit]
    rw [if_neg (by simp)]
  | launch name kernel arguments window => exact absurd rfl hkind
  | marker => rfl

end Command

/-! ## Devices -/

/-- The kinds of the events of a log. -/
def EventLog.kinds (l : EventLog) : List EventKind := l.records.map EventRecord.kind

namespace EventLog

@[simp] theorem kinds_add (l : EventLog) (r : EventRecord) :
    (l.add r).kinds = l.kinds ++ [r.kind] := by
  simp [kinds]

@[simp] theorem kinds_setStatus (l : EventLog) (id : EventId) (status : EventStatus) :
    (l.setStatus id status).kinds = l.kinds := by
  apply List.ext_getElem?
  intro i
  simp only [kinds, records_setStatus, List.getElem?_map, List.getElem?_modify]
  by_cases hi : id = i
  · cases l.records[i]? <;> simp [hi]
  · simp [hi]

/-- A log in which only launches have failed stays so if the event that is noted is a launch or has
not failed. -/
theorem launch_of_failed_setStatus {l : EventLog} {id : EventId} {status : EventStatus}
    (hl : ∀ r ∈ l.records, r.status = .failed → r.kind = .launch)
    (hid : status = .failed → ∀ kind, l.kinds[id]? = some kind → kind = .launch) :
    ∀ r ∈ (l.setStatus id status).records, r.status = .failed → r.kind = .launch := by
  intro r hr hfailed
  rw [records_setStatus] at hr
  obtain ⟨i, hi⟩ := List.mem_iff_getElem?.1 hr
  rw [List.getElem?_modify] at hi
  obtain ⟨old, hold, hr⟩ := Option.map_eq_some_iff.1 hi
  by_cases hidi : id = i
  · subst hidi
    rw [if_pos rfl] at hr
    subst hr
    refine hid hfailed old.kind ?_
    rw [kinds, List.getElem?_map, hold, Option.map_some]
  · rw [if_neg hidi] at hr
    subst hr
    exact hl _ (List.mem_of_getElem? hold) hfailed

@[simp] theorem length_kinds (l : EventLog) : l.kinds.length = l.size := by
  simp [kinds]

end EventLog

/-- A device that will not fail a transfer: its buffers have numbers that were given out, what is
queued fits and is in the log under its kind, and nothing but a launch has failed so far. -/
structure Device.Sound (d : Device) (length : Nat → Nat) : Prop where
  issued : ∀ b n, d.memory.size? b = some n → b < d.nextBuffer
  queued : ∀ p ∈ d.queue, p.command.Workable d.memory.size? length
  logged : ∀ p ∈ d.queue, d.log.kinds[p.event]? = some p.command.kind
  settled : ∀ r ∈ d.log.records, r.status = .failed → r.kind = .launch

namespace Station

/-- A station whose device is sound, with its buffer sizes and object lengths. -/
structure SoundAt (size : BufferId → Option Nat) (length : Nat → Nat) (s : Station) : Prop where
  size_eq : s.device.memory.size? = size
  lengths_eq : Command.lengths s.objects = length
  sound : s.device.Sound length

variable {size : BufferId → Option Nat} {length : Nat → Nat}

variable {s : Station}

/-- Soundness is about memory, queue and log alone. -/
theorem SoundAt.onDevice {f : Device → Device} (hs : s.SoundAt size length)
    (hmemory : (f s.device).memory = s.device.memory)
    (hnext : (f s.device).nextBuffer = s.device.nextBuffer)
    (hqueue : ∀ p ∈ (f s.device).queue, p ∈ s.device.queue)
    (hlog : (f s.device).log = s.device.log) :
    (s.onDevice f).SoundAt size length := by
  obtain ⟨hsize, hlength, hd⟩ := hs
  refine ⟨hmemory ▸ hsize, hlength, ⟨?_, ?_, ?_, ?_⟩⟩
  · simpa only [Station.onDevice, hmemory, hnext] using hd.issued
  · intro p hp
    simpa only [Station.onDevice, hmemory] using hd.queued p (hqueue p hp)
  · intro p hp
    simpa only [Station.onDevice, hlog] using hd.logged p (hqueue p hp)
  · simpa only [Station.onDevice, hlog] using hd.settled

theorem keeps_count (f : Counters → Counters) : Keeps (SoundAt size length) (count f) :=
  keeps_modify fun _ hs => hs.onDevice rfl rfl (fun _ => id) rfl

/-- Running a command that fits leaves a sound device, and the log says failed of launches only. -/
theorem SoundAt.perform {event : EventId} (hs : s.SoundAt size length)
    (hfits : c.Workable size length) (hkind : s.device.log.kinds[event]? = some c.kind) :
    (Station.perform event c s).2.SoundAt size length := by
  obtain ⟨rfl, rfl, hd⟩ := hs
  have hsize := c.size?_execute s.device.memory s.objects
  have hlengths := c.lengths_execute s.device.memory s.objects
  refine ⟨hsize, hlengths, ⟨?_, ?_, ?_, ?_⟩⟩
  · intro b n hb
    exact hd.issued b n (hsize ▸ hb)
  · intro p hp
    have hp := hd.queued p hp
    rwa [← hsize] at hp
  · intro p hp
    simpa [Station.perform, Device.setStatus] using hd.logged p hp
  · refine EventLog.launch_of_failed_setStatus hd.settled fun hfailed kind hk => ?_
    rw [hkind] at hk
    by_contra hne
    have hok := Command.execute_eq_ok hfits (Option.some.inj hk ▸ hne)
    change (if (c.execute s.device.memory s.objects).1.isOk then EventStatus.complete
      else EventStatus.failed) = EventStatus.failed at hfailed
    rw [hok] at hfailed
    cases hfailed

/-- The state after the first command of a list has been run. -/
def advance (p : Pending) (rest : List Pending) (s : Station) : Station :=
  (perform p.event p.command (s.onDevice fun d => { d with queue := rest })).2

theorem snd_runThrough_cons (last : Option EventId) (p : Pending) (rest : List Pending)
    (s : Station) :
    (runThrough last (p :: rest) s).2 =
      if last = some p.event then advance p rest s
      else (runThrough last rest (advance p rest s)).2 := by
  by_cases hlast : last = some p.event
  · simp only [runThrough, if_pos hlast, advance]
  · simp only [runThrough, if_neg hlast, advance]

/-- The commands of a list are run one by one, each on a sound device. -/
theorem SoundAt.runThrough (last : Option EventId) {queue : List Pending}
    (hs : (s.onDevice fun d => { d with queue }).SoundAt size length) :
    (Station.runThrough last queue s).2.SoundAt size length := by
  induction queue generalizing s with
  | nil => exact hs
  | cons p rest ih =>
    have hfits : p.command.Workable size length := by
      have hp := hs.sound.queued p List.mem_cons_self
      rwa [hs.size_eq] at hp
    have hkind := hs.sound.logged p List.mem_cons_self
    have hrest : (s.onDevice fun d => { d with queue := rest }).SoundAt size length :=
      hs.onDevice (f := fun d => { d with queue := rest }) rfl rfl
        (fun _ => List.mem_cons_of_mem _) rfl
    have hdone := hrest.perform hfits hkind
    rw [snd_runThrough_cons]
    split_ifs
    · exact hdone
    · exact ih hdone

theorem queue_runThrough_none (queue : List Pending) (s : Station) :
    (runThrough none queue s).2.device.queue = [] := by
  induction queue generalizing s with
  | nil => rfl
  | cons p rest ih =>
    rw [snd_runThrough_cons, if_neg (by simp)]
    exact ih _

theorem snd_drain (last : Option EventId) (s : Station) :
    ((drain last).run s).2 = (runThrough last s.device.queue s).2 := by
  rw [Action.run, drain]
  rcases runThrough last s.device.queue s with ⟨fault, t⟩
  cases fault <;> rfl

variable {buffer : BufferId}

section Rules

variable {I : Station → Prop}

/-- What the running of one command keeps, and what is not about the queue, the running of many
keeps. -/
theorem keeps_drain_of_perform (hqueue : ∀ s queue, I s → I (s.onDevice fun d => { d with queue }))
    (hperform : ∀ event c s, I s → I (perform event c s).2) (last : Option EventId) :
    Keeps I (drain last) := by
  refine meets_iff_after.2 fun s hs => ?_
  rw [snd_drain]
  generalize s.device.queue = queue
  induction queue generalizing s with
  | nil => exact hqueue s [] hs
  | cons p rest ih =>
    have hadvance : I (advance p rest s) := hperform p.event p.command _ (hqueue s rest hs)
    rw [snd_runThrough_cons]
    split_ifs
    · exact hadvance
    · exact ih _ hadvance

theorem keeps_checkWindow (object : Nat) (window : Option Window) :
    Keeps I (checkWindow object window) := by
  refine keeps_get fun s => ?_
  cases window with
  | none => exact keeps_pure
  | some w => exact keeps_ofExcept

theorem keeps_inspect (event : EventId) : Keeps I (inspect event) := by
  refine keeps_get fun s => ?_
  split
  · exact keeps_pure
  · exact keeps_throw

theorem keeps_resolve_of_drain (hdrain : ∀ last, Keeps I (drain last)) (event : EventId) :
    Keeps I (resolve event) := by
  refine keeps_get fun s => ?_
  split
  · exact keeps_bind (hdrain _) fun _ => keeps_inspect event
  · exact keeps_inspect event

theorem keeps_release_of_drain (hdrain : ∀ last, Keeps I (drain last))
    (herase : ∀ s, I s → I (s.onDevice fun d => { d with memory := d.memory.erase buffer })) :
    Keeps I (release buffer) := by
  refine keeps_bind (hdrain none) fun _ => keeps_get fun s => ?_
  split
  · exact keeps_modify herase
  · exact keeps_throw

theorem keeps_install_of_count
    (hcount : Keeps I (count fun c => { c with compilations := c.compilations + 1 }))
    (task : String) :
    Keeps I (install task) := by
  refine keeps_bind hcount fun _ => keeps_get fun s => ?_
  split
  · exact keeps_pure
  · exact keeps_throw

end Rules

theorem keeps_drain (last : Option EventId) : Keeps (SoundAt size length) (drain last) := by
  refine meets_iff_after.2 fun s hs => ?_
  rw [snd_drain]
  exact SoundAt.runThrough last hs

/-- A new event is in the log under its kind, and the commands that wait are there as before. -/
theorem SoundAt.record (hs : s.SoundAt size length) (kind : EventKind) (label : String)
    (wait : List EventId) (status : EventStatus) (hstatus : status ≠ .failed) (journal : Journal) :
    let t : Station := { s with device := s.device.record kind label wait status, journal }
    t.SoundAt size length ∧ t.device.log.kinds[s.device.log.size]? = some kind := by
  obtain ⟨hsize, hlength, hd⟩ := hs
  have hkinds : (s.device.record kind label wait status).log.kinds = s.device.log.kinds ++ [kind] :=
    EventLog.kinds_add ..
  refine ⟨⟨hsize, hlength, ⟨hd.issued, hd.queued, ?_, ?_⟩⟩, ?_⟩
  · intro p hp
    have hlogged := hd.logged p hp
    have hlt := (List.getElem?_eq_some_iff.1 hlogged).1
    rw [hkinds, List.getElem?_append_left hlt]
    exact hlogged
  · intro r hr hfailed
    simp only [Device.record, EventLog.records_add, List.mem_append, List.mem_singleton] at hr
    rcases hr with hr | rfl
    · exact hd.settled r hr hfailed
    · exact absurd hfailed hstatus
  · rw [hkinds, ← EventLog.length_kinds]
    exact List.getElem?_concat_length

/-- Submitting a command that fits is safe on a deferred device and on an eager one. -/
theorem keeps_submit {kind : EventKind} {label : String} {wait : List EventId}
    (hfits : c.Workable size length) (hkind : kind = c.kind) :
    Keeps (SoundAt size length) (submit kind label wait c) := by
  subst hkind
  refine meets_get fun s hs => ?_
  obtain ⟨hrecord, hlogged⟩ := hs.record c.kind label wait .queued (by decide)
    (s.journal.add .trace
      ("host: submit #" ++ toString s.device.log.size ++ " " ++ c.kind.operation))
  refine meets_bind (Q := fun _ t => t.SoundAt size length ∧
    t.device.log.kinds[s.device.log.size]? = some c.kind) (meets_set fun _ _ => ⟨hrecord, hlogged⟩)
    fun _ => ?_
  split
  · refine meets_bind (Q := fun _ => SoundAt size length) (meets_modify fun t ht => ?_)
      fun _ => keeps_pure
    obtain ⟨⟨hsize, hlength, hd⟩, hk⟩ := ht
    refine ⟨hsize, hlength, ⟨hd.issued, ?_, ?_, hd.settled⟩⟩
    · intro p hp
      rcases List.mem_append.1 hp with hp | hp
      · exact hd.queued p hp
      · rw [List.mem_singleton.1 hp]
        simpa only [Station.onDevice, hsize] using hfits
    · intro p hp
      rcases List.mem_append.1 hp with hp | hp
      · exact hd.logged p hp
      · rw [List.mem_singleton.1 hp]
        exact hk
  · refine meets_bind (Q := fun _ => SoundAt size length) ?_ fun _ => keeps_pure
    exact meets_iff_after.2 fun t ht => ht.1.perform hfits ht.2

/-! ## The operations of a device -/

/-- The next number is that of no buffer, so a buffer of that number disturbs no other. -/
theorem SoundAt.insert (hs : s.SoundAt size length) (bytes : Nat) :
    size s.device.nextBuffer = none ∧
      (s.onDevice fun d => { d with
        memory := d.memory.insert s.device.nextBuffer (List.replicate bytes 0)
        nextBuffer := s.device.nextBuffer + 1 }).SoundAt
        (Function.update size s.device.nextBuffer (some bytes)) length := by
  obtain ⟨rfl, hlength, hd⟩ := hs
  have hfree : s.device.memory.size? s.device.nextBuffer = none := by
    rw [Option.eq_none_iff_forall_ne_some]
    intro n hn
    exact Nat.lt_irrefl _ (hd.issued _ n hn)
  have hsize : (s.device.memory.insert s.device.nextBuffer (List.replicate bytes 0)).size? =
      Function.update s.device.memory.size? s.device.nextBuffer (some bytes) := by
    rw [Memory.size?_insert, List.length_replicate]
  have hold : ∀ b n, s.device.memory.size? b = some n →
      (s.device.memory.insert s.device.nextBuffer (List.replicate bytes 0)).size? b = some n := by
    intro b n hb
    rw [hsize, Function.update_of_ne, hb]
    rintro rfl
    rw [hfree] at hb
    cases hb
  refine ⟨hfree, hsize, hlength, ⟨?_, ?_, hd.logged, hd.settled⟩⟩
  · intro b n hb
    simp only [Station.onDevice, hsize, Function.update_apply] at hb ⊢
    split_ifs at hb with hbn
    · exact hbn ▸ Nat.lt_succ_self _
    · exact Nat.lt_succ_of_lt (hd.issued b n hb)
  · intro p hp
    exact (hd.queued p hp).mono hold

/-- A new buffer has a number that no buffer had, and all other sizes stay. -/
theorem meets_allocate (object bytes : Nat) :
    Meets (SoundAt size length) (allocate object bytes)
      (fun a s => s.SoundAt (Function.update size a.1 (some bytes)) length ∧
        bytes < memoryLimit ∧ size a.1 = none)
      (SoundAt size length) := by
  unfold allocate
  split
  · exact meets_throw_bind fun _ => id
  · rename_i hlimit
    -- The rest cannot fail: the buffer is put in, counted, and its event is complete at once.
    intro s hs
    obtain ⟨hfree, hinsert⟩ := hs.insert bytes
    have hcount := hinsert.onDevice
      (f := fun d =>
        { d with counters := { d.counters with allocations := d.counters.allocations + 1 } })
      rfl rfl (fun _ => id) rfl
    have hrecord := (hcount.record .allocate
      ("allocate " ++ (objectAt s.objects object).label ++ " (" ++ toString bytes ++ " bytes)") []
      .complete (by decide) s.journal).1
    exact ⟨hrecord, Nat.lt_of_not_le hlimit, hfree⟩

/-- A buffer that is given up is gone and no other is; if a queued command fails first, it stays. -/
theorem meets_release (buffer : BufferId) :
    Meets (SoundAt size length) (release buffer)
      (fun _ => SoundAt (Function.update size buffer none) length) (SoundAt size length) := by
  have hdrain : Meets (SoundAt size length) (drain none)
      (fun _ s => s.SoundAt size length ∧ s.device.queue = []) (SoundAt size length) := by
    intro s hs
    have hkeeps := keeps_drain none s hs
    have hqueue := snd_drain none s ▸ queue_runThrough_none s.device.queue s
    revert hkeeps hqueue
    rcases (drain none).run s with ⟨r, t⟩
    cases r with
    | ok a => exact fun hkeeps hqueue => ⟨hkeeps, hqueue⟩
    | error e => exact fun hkeeps _ => hkeeps
  refine meets_bind hdrain fun _ => meets_get fun s hs => ?_
  split
  · refine meets_modify fun t ht => ?_
    subst ht
    obtain ⟨⟨rfl, hlength, hd⟩, hqueue⟩ := hs
    have hsize := t.device.memory.size?_erase buffer
    refine ⟨hsize, hlength, ⟨?_, ?_, ?_, hd.settled⟩⟩
    · intro b n hb
      rw [Station.onDevice, hsize, Function.update_apply] at hb
      split_ifs at hb
      exact hd.issued b n hb
    · simp [Station.onDevice, hqueue]
    · simp [Station.onDevice, hqueue]
  · exact meets_throw fun t ht => ht ▸ hs.1

theorem meets_checkWindow (object : Nat) (window : Option Window) :
    Meets (SoundAt size length) (checkWindow object window)
      (fun _ s => s.SoundAt size length ∧
        (Command.range window (length object)).fits (length object) = true)
      (SoundAt size length) := by
  refine meets_get fun s hs => ?_
  have hlength : (objectAt s.objects object).length = length object :=
    congrFun hs.lengths_eq object
  cases window with
  | none =>
    exact meets_pure fun t ht => ⟨ht ▸ hs, Window.fits_whole _⟩
  | some w =>
    refine meets_ofExcept (fun a ha t ht => ⟨ht ▸ hs, ?_⟩) fun t ht => ht ▸ hs
    rw [Window.check, hlength] at ha
    split at ha
    · assumption
    · cases ha

/-- A write is safe if the window goes into the buffer. -/
theorem keeps_write {object n : Nat} {window : Option Window} (wait : List EventId)
    (hbuffer : size buffer = some n) (hroom : (Command.range window (length object)).size ≤ n) :
    Keeps (SoundAt size length) (write buffer object window wait) := by
  refine meets_bind (meets_checkWindow object window) fun _ =>
    meets_of_fact fun hrange => ?_
  refine keeps_bind (keeps_count _) fun _ => keeps_get fun s => ?_
  exact keeps_submit ⟨hrange, n, hbuffer, hroom⟩ rfl

/-- A read is safe if the buffer is there. -/
theorem keeps_read {n : Nat} (object : Nat) (window : Option Window) (wait : List EventId)
    (blocking : Bool) (hbuffer : size buffer = some n) :
    Keeps (SoundAt size length) (read buffer object window wait blocking) := by
  refine meets_bind (meets_checkWindow object window) fun _ =>
    meets_of_fact fun hrange => ?_
  refine keeps_bind (keeps_count _) fun _ => keeps_get fun s => ?_
  refine keeps_bind (keeps_submit ⟨hrange, n, hbuffer⟩ rfl) fun event => ?_
  split
  · exact keeps_bind (keeps_drain _) fun _ => keeps_pure
  · exact keeps_pure

theorem keeps_install (task : String) : Keeps (SoundAt size length) (install task) :=
  keeps_install_of_count (keeps_count _) task

theorem keeps_launch (code : InstalledCode) (frame : CallFrame) (task : String)
    (window : Option Window) (wait : List EventId) :
    Keeps (SoundAt size length) (launch code frame task window wait) := by
  refine keeps_bind (keeps_count _) fun _ => ?_
  refine keeps_bind (keeps_submit trivial rfl) fun event => ?_
  exact keeps_get fun s => keeps_pure

theorem keeps_marker (wait : List EventId) : Keeps (SoundAt size length) (marker wait) :=
  keeps_bind (keeps_count _) fun _ => keeps_submit trivial rfl

theorem keeps_resolve (event : EventId) : Keeps (SoundAt size length) (resolve event) :=
  keeps_resolve_of_drain keeps_drain event

theorem keeps_flush : Keeps (SoundAt size length) flush :=
  keeps_bind (keeps_count _) fun _ => keeps_drain none

end Station

end Offload
