import Offload.Proofs.ObjectLengths

/-!
# Transfers of windows

On devices that run their commands at once, a transfer moves the bytes of its window and no others.
Sending a window puts its bytes at the start of the buffer and leaves the rest of the buffer, all
other buffers and all objects alone; a buffer that is too small is replaced by one of the size of
the window. Reading a window back overwrites the object at the offset of the window with as many
bytes as the window and the buffer both have. So what was sent and is read back changes no object.
-/

namespace Offload

open Offload.Action

variable {α : Type} {a : Allocation} {w : Window}

/-! ## The bytes of a window -/

variable {bytes : Bytes}

namespace Window

/-- The bytes that a window covers. -/
def cut (w : Window) (bytes : Bytes) : Bytes := (bytes.drop w.offset).take w.size

/-- No sum reaches the largest 64-bit number unless an object does. -/
theorem stop_eq_of_fits {length : Nat} (hfits : w.fits length = true)
    (hlength : length < maxWord64) :
    w.stop = w.offset + w.size ∧ w.offset + w.size ≤ length := by
  have hstop : w.stop ≤ length := of_decide_eq_true hfits
  rw [stop] at hstop ⊢
  omega

theorem length_cut (h : w.offset + w.size ≤ bytes.length) : (w.cut bytes).length = w.size := by
  rw [cut, List.length_take, List.length_drop]
  omega

/-- The bytes of a window, between those before and those after it. -/
theorem take_cut_drop (w : Window) (bytes : Bytes) :
    bytes.take w.offset ++ w.cut bytes ++ bytes.drop (w.offset + w.size) = bytes := by
  rw [cut, List.append_assoc, ← List.drop_drop, List.take_append_drop, List.take_append_drop]

end Window

namespace Command

variable {memory : Memory} {objects : List HostObject} {buffer : BufferId} {place : Nat}
  {window : Option Window}

/-- A write puts the bytes of its window at the start of the buffer. -/
theorem execute_write_cut {target : Bytes} (htarget : memory.get? buffer = some target)
    (hfits : (range window (lengths objects place)).fits (lengths objects place) = true)
    (hlength : lengths objects place < maxWord64)
    (hroom : (range window (lengths objects place)).size ≤ target.length) :
    (write buffer place window).execute memory objects =
      (.ok (), memory.set buffer
        ((range window (lengths objects place)).cut (objectAt objects place).bytes ++
          target.drop (range window (lengths objects place)).size), objects) := by
  obtain ⟨hstop, hinside⟩ := Window.stop_eq_of_fits hfits hlength
  have hcut : ((range window (lengths objects place)).cut (objectAt objects place).bytes).length =
      (range window (lengths objects place)).size := Window.length_cut hinside
  have hsource : ((objectAt objects place).bytes.take
      (range window (lengths objects place)).stop).drop
      (range window (lengths objects place)).offset =
        (range window (lengths objects place)).cut (objectAt objects place).bytes := by
    rw [hstop, List.drop_take, Nat.add_sub_cancel_left, Window.cut]
  have hover : Bytes.overwrite target 0
      ((range window (lengths objects place)).cut (objectAt objects place).bytes) =
        (range window (lengths objects place)).cut (objectAt objects place).bytes ++
          target.drop (range window (lengths objects place)).size := by
    rw [Bytes.overwrite, List.take_zero, List.nil_append, Nat.sub_zero, Nat.zero_add,
      List.take_of_length_le (hcut.le.trans hroom), hcut]
  unfold lengths range HostObject.length at *
  simp only [execute, htarget, hfits, Bool.not_true, Bool.false_eq_true, if_false, hsource]
  rw [if_neg (Nat.not_lt.2 (hcut.le.trans hroom)), hover]

theorem execute_read_cut {source : Bytes} (hsource : memory.get? buffer = some source)
    (hfits : (range window (lengths objects place)).fits (lengths objects place) = true) :
    (read buffer place window).execute memory objects =
      (.ok (), memory, objects.modify place fun o =>
        o.write (range window (lengths objects place)).offset
          (source.take (range window (lengths objects place)).size)) := by
  unfold lengths range at *
  simp only [execute, hsource, hfits, Bool.not_true, Bool.false_eq_true, if_false]

end Command

theorem Bytes.overwrite_of_le {src : Bytes} {offset : Nat}
    (h : offset + src.length ≤ bytes.length) :
    Bytes.overwrite bytes offset src = bytes.take offset ++ src ++
      bytes.drop (offset + src.length) := by
  have hsrc : src.take (bytes.length - offset) = src := List.take_of_length_le (by omega)
  rw [Bytes.overwrite, hsrc]

/-- Bytes that are cut off to the size of a window are put over it, as far as they go. -/
theorem HostObject.write_take {o : HostObject} (hinside : w.offset + w.size ≤ o.length)
    (src : Bytes) :
    o.write w.offset (src.take w.size) =
      ⟨o.label, o.bytes.take w.offset ++ src.take (min w.size src.length) ++
        o.bytes.drop (w.offset + min w.size src.length)⟩ := by
  have hlength : (src.take w.size).length = min w.size src.length := List.length_take
  have hfits : w.offset + (src.take w.size).length ≤ o.bytes.length :=
    (Nat.add_le_add_left (List.length_take_le _ _) _).trans hinside
  have htake : src.take (min w.size src.length) = src.take w.size := List.take_eq_take_min.symm
  rw [write, Bytes.overwrite_of_le hfits, hlength, htake]

theorem objectAt_modify_self (objects : List HostObject) (place offset : Nat) (src : Bytes) :
    objectAt (objects.modify place fun o => o.write offset src) place =
      (objectAt objects place).write offset src := by
  rw [objectAt, objectAt, List.getElem?_modify]
  cases objects[place]? with
  | none => simp [HostObject.write, Bytes.overwrite]
  | some o => simp

theorem objectAt_modify_of_ne {objects : List HostObject} {place other : Nat} (hne : other ≠ place)
    (f : HostObject → HostObject) :
    objectAt (objects.modify place f) other = objectAt objects other := by
  simp [objectAt, Ne.symm hne]

/-- Objects that are stored apart change one at a time. -/
theorem hosts_modify {places : List Nat} (hplaces : places.Nodup) {object place : Nat}
    (hplace : places[object]? = some place) (objects : List HostObject) (offset : Nat)
    (src : Bytes) :
    places.map (objectAt (objects.modify place fun o => o.write offset src)) =
      (places.map (objectAt objects)).set object ((objectAt objects place).write offset src) := by
  apply List.ext_getElem?
  intro i
  rw [List.getElem?_set, List.getElem?_map, List.getElem?_map]
  by_cases hi : object = i
  · subst hi
    have hlt : object < (places.map (objectAt objects)).length := by
      rw [List.length_map]
      exact (List.getElem?_eq_some_iff.1 hplace).1
    rw [hplace, Option.map_some, objectAt_modify_self, if_pos rfl, if_pos hlt]
  · rw [if_neg hi]
    cases hother : places[i]? with
    | none => rfl
    | some other =>
      have hne : other ≠ place := by
        rintro rfl
        obtain ⟨hlt, hget⟩ := List.getElem?_eq_some_iff.1 hplace
        obtain ⟨hlt', hget'⟩ := List.getElem?_eq_some_iff.1 hother
        exact hi ((hplaces.getElem_inj_iff).1 (hget.trans hget'.symm))
      rw [Option.map_some, Option.map_some, objectAt_modify_of_ne hne]

/-! ## Devices -/

/-- The buffers of a device, the number of its next buffer, and the stored objects. -/
structure Holdings where
  next : BufferId
  memory : Memory
  objects : List HostObject

namespace Holdings

variable {h : Holdings}

/-- A buffer of zeros is made. -/
def allocate (h : Holdings) (bytes : Nat) : Holdings :=
  { h with next := h.next + 1, memory := h.memory.insert h.next (List.replicate bytes 0) }

/-- A buffer is given up. -/
def release (h : Holdings) (buffer : BufferId) :
    Holdings := { h with memory := h.memory.erase buffer }

/-- The bytes of a buffer are replaced. -/
def fill (h : Holdings) (buffer : BufferId) (bytes : Bytes) : Holdings :=
  { h with memory := h.memory.set buffer bytes }

/-- A command is run. -/
def execute (h : Holdings) (c : Command) : Holdings :=
  { h with
    memory := (c.execute h.memory h.objects).2.1, objects := (c.execute h.memory h.objects).2.2 }

/-- A transfer that fails changes nothing. -/
theorem execute_of_error {c : Command} (hc : c.kind ≠ .launch) (h : Holdings)
    (herror : (c.execute h.memory h.objects).1 ≠ .ok ()) : h.execute c = h := by
  cases c with
  | launch => exact absurd rfl hc
  | marker => rfl
  | write buffer object window | read buffer object window =>
    revert herror
    simp only [execute, Command.execute]
    split
    · exact fun _ => rfl
    · split_ifs <;> simp

/-- The buffers have numbers that were given out. -/
def Issued (h : Holdings) : Prop := ∀ b n, h.memory.size? b = some n → b < h.next

theorem Issued.execute (hh : h.Issued) (c : Command) : (h.execute c).Issued := by
  intro b n hb
  rw [Holdings.execute, c.size?_execute] at hb
  exact hh b n hb

theorem Issued.allocate (hh : h.Issued) (bytes : Nat) : (h.allocate bytes).Issued := by
  intro b n hb
  rw [Holdings.allocate, Memory.size?, Memory.get?_insert] at hb
  split_ifs at hb with hnew
  · exact hnew ▸ Nat.lt_succ_self _
  · exact Nat.lt_succ_of_lt (hh b n hb)

theorem Issued.release (hh : h.Issued) (buffer : BufferId) : (h.release buffer).Issued := by
  intro b n hb
  rw [Holdings.release, Memory.size?, Memory.get?_erase] at hb
  split_ifs at hb
  · cases hb
  · exact hh b n hb

end Holdings

/-- An eager device between two operations: nothing waits. -/
structure Device.Quiet (d : Device) : Prop where
  eager : d.options.deferred = false
  idle : d.queue = []

/-- A quiet device whose buffers have numbers that were given out. -/
structure Device.AtRest (d : Device) : Prop extends d.Quiet where
  issued : ∀ b n, d.memory.size? b = some n → b < d.nextBuffer

namespace Station

variable {h : Holdings} {s : Station} {E : Station → Prop} (buffer : BufferId) (object : Nat)
  (window : Option Window)

def holdings (s : Station) : Holdings := ⟨s.device.nextBuffer, s.device.memory, s.objects⟩

/-- A quiet device with given holdings. -/
structure StandsAt (h : Holdings) (s : Station) : Prop where
  quiet : s.device.Quiet
  holdings_eq : s.holdings = h

theorem StandsAt.atRest (hs : s.StandsAt h) (hh : h.Issued) : s.device.AtRest :=
  ⟨hs.quiet, show s.holdings.Issued from hs.holdings_eq.symm ▸ hh⟩

theorem meets_count_stands (f : Counters → Counters) :
    Meets (StandsAt h) (count f) (fun _ => StandsAt h) E :=
  meets_modify fun _ hs => ⟨⟨hs.quiet.eager, hs.quiet.idle⟩, hs.holdings_eq⟩

theorem meets_drain_stands (last : Option EventId) :
    Meets (StandsAt h) (drain last) (fun _ => StandsAt h) E := by
  intro s hs
  have hqueue := hs.quiet.idle
  simp only [Action.run, drain, hqueue, runThrough]
  exact ⟨⟨hs.quiet.eager, rfl⟩, hs.holdings_eq⟩

theorem meets_submit_stands (kind : EventKind) (label : String) (wait : List EventId)
    (c : Command) :
    Meets (StandsAt h) (submit kind label wait c) (fun _ => StandsAt (h.execute c))
      (fun s => s.StandsAt (h.execute c) ∧ (c.execute h.memory h.objects).1 ≠ .ok ()) := by
  rintro s ⟨hquiet, rfl⟩
  have hafter : (perform s.device.log.size c (s.recorded kind label wait)).2.StandsAt
      (s.holdings.execute c) :=
    ⟨⟨hquiet.eager, hquiet.idle⟩, rfl⟩
  rw [run_submit_performed kind label wait c hquiet.eager]
  cases hresult : (c.execute s.device.memory s.objects).1 with
  | ok u => exact hafter
  | error fault =>
    refine ⟨hafter, fun hok => ?_⟩
    cases hresult.symm.trans hok

theorem meets_allocate_stands (bytes : Nat) :
    Meets (StandsAt h) (allocate object bytes)
      (fun a s => s.StandsAt (h.allocate bytes) ∧ a.1 = h.next) (StandsAt h) := by
  intro s hs
  by_cases hbytes : bytes < memoryLimit
  · rw [run_allocate object hbytes]
    obtain ⟨hquiet, rfl⟩ := hs
    exact ⟨⟨⟨hquiet.eager, hquiet.idle⟩, rfl⟩, rfl⟩
  · rw [allocate, if_pos (Nat.not_lt.1 hbytes)]
    exact hs

theorem meets_release_stands :
    Meets (StandsAt h) (release buffer) (fun _ => StandsAt (h.release buffer)) (StandsAt h) := by
  refine meets_bind (meets_drain_stands none) fun _ => meets_look fun s => ?_
  split
  · refine meets_modify ?_
    rintro t ⟨hquiet, rfl⟩
    exact ⟨⟨hquiet.eager, hquiet.idle⟩, rfl⟩
  · exact meets_throw fun _ => id

theorem meets_checkWindow_stands :
    Meets (StandsAt h) (checkWindow object window) (fun _ => StandsAt h)
      (fun s => s.StandsAt h ∧ ¬(Command.range window (Command.lengths h.objects object)).fits
        (Command.lengths h.objects object) = true) := by
  refine meets_get fun s hs => ?_
  obtain ⟨hquiet, rfl⟩ := hs
  cases window with
  | none =>
    refine meets_pure ?_
    rintro _ rfl
    exact ⟨hquiet, rfl⟩
  | some w =>
    by_cases hfits : w.fits (objectAt s.objects object).length = true
    · simp only [Window.check, hfits, if_true]
      refine meets_pure ?_
      rintro _ rfl
      exact ⟨hquiet, rfl⟩
    · simp only [Window.check, hfits]
      refine meets_throw ?_
      rintro _ rfl
      exact ⟨⟨hquiet, rfl⟩, hfits⟩

/-- A transfer that is submitted is run, or it has changed nothing. -/
theorem meets_transfer_stands (kind : EventKind) (label : String) (wait : List EventId)
    {c : Command} (hc : c.kind ≠ .launch) :
    Meets (StandsAt h) (submit kind label wait c) (fun _ => StandsAt (h.execute c))
      (fun s => s.StandsAt h ∧ ¬c.Workable h.memory.size? (Command.lengths h.objects)) := by
  refine meets_imp (meets_submit_stands kind label wait c) (fun _ _ => id) fun s hs =>
    ⟨?_, fun hfits => ?_⟩
  · exact h.execute_of_error hc hs.2 ▸ hs.1
  · exact hs.2 (Command.execute_eq_ok hfits hc)

theorem meets_write_stands (wait : List EventId) :
    Meets (StandsAt h) (write buffer object window wait)
      (fun _ => StandsAt (h.execute (.write buffer object window))) (StandsAt h) := by
  refine meets_then (meets_checkWindow_stands object window) (fun _ hs => hs.1) fun _ => ?_
  refine meets_bind (meets_count_stands _) fun _ => meets_look fun s => ?_
  exact meets_imp (meets_transfer_stands _ _ _ (by simp [Command.kind])) (fun _ _ => id) fun _ hs =>
    hs.1

theorem meets_read_stands (wait : List EventId) (blocking : Bool) :
    Meets (StandsAt h) (read buffer object window wait blocking)
      (fun _ => StandsAt (h.execute (.read buffer object window)))
      (fun s => s.StandsAt h ∧
        ¬(Command.read buffer object window).Workable h.memory.size?
        (Command.lengths h.objects)) := by
  refine meets_then (meets_checkWindow_stands object window)
    (fun _ hs => ⟨hs.1, fun hfits => hs.2 hfits.1⟩) fun _ => ?_
  refine meets_bind (meets_count_stands _) fun _ => meets_look fun s => ?_
  refine meets_bind (meets_transfer_stands _ _ _ (by simp [Command.kind])) fun event => ?_
  dsimp only
  split
  · exact meets_bind (meets_drain_stands _) fun _ => meets_pure fun _ => id
  · exact meets_pure fun _ => id

theorem meets_launch_stands (code : InstalledCode) (frame : CallFrame) (task : String)
    (wait : List EventId) :
    Meets (StandsAt h) (launch code frame task window wait)
      (fun _ =>
        StandsAt
        (h.execute (.launch code.name code.kernel (frame.arguments.map argumentOf) window)))
      (StandsAt
        (h.execute (.launch code.name code.kernel (frame.arguments.map argumentOf) window))) := by
  refine meets_bind (meets_count_stands _) fun _ => ?_
  refine meets_then (meets_submit_stands _ _ _ _) (fun _ hs => hs.1) fun event => ?_
  exact meets_look fun s => meets_pure fun _ => id

theorem keeps_stands_marker (wait : List EventId) : Keeps (StandsAt h) (marker wait) :=
  meets_bind (meets_count_stands _) fun _ =>
    meets_imp (meets_submit_stands _ _ _ .marker) (fun _ _ => id) fun _ hs => hs.1

theorem keeps_stands_resolve (event : EventId) : Keeps (StandsAt h) (resolve event) :=
  keeps_resolve_of_drain meets_drain_stands event

theorem keeps_stands_flush : Keeps (StandsAt h) flush :=
  keeps_bind (meets_count_stands _) fun _ => meets_drain_stands none

/-- What is known of the device at every standing is known of a device at rest. -/
theorem keeps_atRest {x : DeviceAction α} {g : Holdings → Holdings}
    (hg : ∀ {h}, h.Issued → (g h).Issued)
    (hx : ∀ h, Meets (StandsAt h) x (fun _ => StandsAt (g h))
      fun s => s.StandsAt h ∨ s.StandsAt (g h)) : Keeps (fun s => s.device.AtRest) x := by
  intro s hs
  have hissued : s.holdings.Issued := hs.issued
  have hafter := meets_imp (hx s.holdings) (fun _ _ ht => ht.atRest (hg hissued))
    fun _ ht => ht.elim (fun ht => ht.atRest hissued) fun ht => ht.atRest (hg hissued)
  exact hafter s ⟨hs.toQuiet, rfl⟩

/-- Whatever is asked of an eager device, it is at rest afterwards. -/
theorem keeps_atRest_operate (op : Operation) : Keeps (fun s => s.device.AtRest) (operate op) := by
  have hthen : ∀ {α : Type} {x : DeviceAction α} (f : α → Option EventId),
      Keeps (fun s => s.device.AtRest) x → Keeps (fun s => s.device.AtRest) (do
        let a ← x
        return f a) := fun f hx => keeps_bind hx fun _ => keeps_pure
  have hsame : ∀ {α : Type} {x : DeviceAction α}, (∀ h, Keeps (StandsAt h) x) →
      Keeps (fun s => s.device.AtRest) x := fun hx =>
    keeps_atRest (g := id) id fun h => meets_imp (hx h) (fun _ _ => id) fun _ => .inl
  cases op with
  | load => exact hthen (fun _ => none) (keeps_modify fun _ hs => ⟨⟨hs.eager, hs.idle⟩, hs.issued⟩)
  | allocate object bytes =>
    exact hthen _ (keeps_atRest (fun hh => hh.allocate bytes) fun _ =>
      meets_imp (meets_allocate_stands object bytes) (fun _ _ hs => hs.1) fun _ => .inl)
  | release buffer =>
    exact hthen (fun _ => none) (keeps_atRest (fun hh => hh.release buffer) fun _ =>
      meets_imp (meets_release_stands buffer) (fun _ _ => id) fun _ => .inl)
  | write buffer object window wait =>
    exact hthen some (keeps_atRest (fun hh => hh.execute _) fun _ =>
      meets_imp (meets_write_stands buffer object window wait) (fun _ _ => id) fun _ => .inl)
  | read buffer object window wait blocking =>
    exact hthen some (keeps_atRest (fun hh => hh.execute _) fun _ =>
      meets_imp (meets_read_stands buffer object window wait blocking) (fun _ _ => id) fun _ hs =>
        .inl hs.1)
  | install task =>
    exact hthen (fun _ => none) (hsame fun _ => keeps_install_of_count (meets_count_stands _) task)
  | launch code frame task window wait =>
    exact hthen _ (keeps_atRest (fun hh => hh.execute _) fun _ =>
      meets_imp (meets_launch_stands window code frame task wait) (fun _ _ => id) fun _ => .inr)
  | marker wait => exact hthen some (hsame fun _ => keeps_stands_marker wait)
  | resolve event => exact hthen (fun _ => none) (hsame fun _ => keeps_stands_resolve event)
  | flush => exact hthen (fun _ => none) (hsame fun _ => keeps_stands_flush)
  | register name k =>
    exact hthen (fun _ => none) (keeps_modify fun _ hs => ⟨⟨hs.eager, hs.idle⟩, hs.issued⟩)
  | outside objects =>
    exact hthen (fun _ => none) (keeps_modify fun _ hs => ⟨⟨hs.eager, hs.idle⟩, hs.issued⟩)

theorem atRest_operated {s : Station} (hs : s.device.AtRest) (ops : List Operation) :
    (operated ops s).device.AtRest := by
  induction ops generalizing s with
  | nil => exact hs
  | cons op others ih => exact ih (meets_iff_after.1 (keeps_atRest_operate op) s hs)

end Station

/-- A device that runs its commands at once, in any state that it can come to. -/
def Device.RunsAtOnce (d : Device) : Prop :=
  ∃ name options kernels objects ops, options.deferred = false ∧
    d = (Station.operated ops (Station.opened name options kernels objects)).device

theorem Device.RunsAtOnce.atRest {d : Device} (h : d.RunsAtOnce) : d.AtRest := by
  obtain ⟨name, options, kernels, objects, ops, heager, rfl⟩ := h
  refine Station.atRest_operated ⟨⟨heager, rfl⟩, fun b n hb => ?_⟩ ops
  cases hb

/-! ## Stores -/

/-- The bytes of a buffer of a device. -/
def Context.buffer? (c : Context) (device : Nat) (b : BufferId) : Option Bytes :=
  c.devices[device]?.bind fun d => d.memory.get? b

namespace Store

variable {s s' s₁ : Store} {object device place : Nat} {window : Option Window}
  {wait : List EventId} {d : Device} {r : Record} {h h' : Holdings}

/-- Only one device of a store has worked, and it has come to stand at some holdings. -/
structure Worked (s : Store) (device : Nat) (h : Holdings) (s' : Store) : Prop where
  places : s'.context.places = s.context.places
  stands : ∃ d, s'.context.devices[device]? = some d ∧ (s'.context.station d).StandsAt h
  others : ∀ i, i ≠ device → s'.context.devices[i]? = s.context.devices[i]?

variable {t : Station}

namespace Worked

theorem refl (hd : s.context.devices[device]? = some d) (hquiet : d.Quiet) :
    s.Worked device (s.context.station d).holdings s :=
  ⟨rfl, ⟨d, hd, hquiet, rfl⟩, fun _ _ => rfl⟩

theorem standsAt (hw : s.Worked device h s') (hd : s'.context.devices[device]? = some d) :
    (s'.context.station d).StandsAt h := by
  obtain ⟨d', hd', hstands⟩ := hw.stands
  exact Option.some.inj (hd'.symm.trans hd) ▸ hstands

theorem station (hw : s.Worked device h s₁) (ht : t.StandsAt h')
    (hplaces : s'.context.places = s₁.context.places)
    (hdevices : s'.context.devices = s₁.context.devices.set device t.device)
    (hobjects : s'.context.objects = t.objects) : s.Worked device h' s' := by
  obtain ⟨d, hd, -⟩ := hw.stands
  refine ⟨hplaces.trans hw.places, ⟨t.device, ?_, ht.quiet, ?_⟩, fun i hi => ?_⟩
  · rw [hdevices, List.getElem?_set_self (List.getElem?_eq_some_iff.1 hd).1]
  · rw [← ht.holdings_eq, Station.holdings, Station.holdings, Context.station, hobjects]
  · rw [hdevices, List.getElem?_set_ne (Ne.symm hi), hw.others i hi]

theorem objects (hw : s.Worked device h s') : s'.context.objects = h.objects := by
  obtain ⟨d, -, hstands⟩ := hw.stands
  rw [← hstands.holdings_eq]
  rfl

theorem buffer? (hw : s.Worked device h s') (i : Nat) (b : BufferId) :
    s'.context.buffer? i b = if i = device then h.memory.get? b else s.context.buffer? i b := by
  split_ifs with hi
  · obtain ⟨d, hd, hstands⟩ := hw.stands
    rw [hi, Context.buffer?, hd, Option.bind_some, ← hstands.holdings_eq]
    rfl
  · rw [Context.buffer?, Context.buffer?, hw.others i hi]

theorem hosts (hw : s.Worked device h s') :
    s'.context.hosts = s.context.places.map (objectAt h.objects) := by
  rw [Context.hosts, hw.places, hw.objects]

end Worked

/-- A buffer that is too small is given up, and nothing else. -/
theorem Vacated.worked {d₁ : Device} (hv : s.Vacated object device d r s₁ d₁)
    (hd : s.context.devices[device]? = some d) (hquiet : d.Quiet) :
    ∃ h, s.Worked device h s₁ ∧ h.objects = s.context.objects ∧ h.next = d.nextBuffer ∧
      ∀ b, h.memory.get? b = if r.buffer = some b then none else s.context.buffer? device b := by
  have hbuffer : ∀ b, s.context.buffer? device b = d.memory.get? b := fun b => by
    rw [Context.buffer?, hd, Option.bind_some]
  have hw := Worked.refl hd hquiet
  cases hv with
  | bare hbare =>
    refine ⟨_, hw, rfl, rfl, fun b => ?_⟩
    rw [Record.buffer, hbare, if_neg (by simp), hbuffer]
    rfl
  | @discarded a text t ha hrelease =>
    have ht : t.StandsAt ((s.context.station d).holdings.release a.buffer) :=
      (Station.meets_release_stands a.buffer).of_ok hrelease ⟨hquiet, rfl⟩
    refine ⟨_, hw.station ht rfl rfl rfl, rfl, rfl, fun b => ?_⟩
    rw [Record.buffer, ha, Option.map_some, hbuffer, Holdings.release, Memory.get?_erase]
    simp only [Option.some.injEq, eq_comm]
    rfl

/-! ### Sending -/

/-- A window of an object, `host`, was sent to a device, which has it in the buffer of `a`. -/
structure SentTo (s : Store) (object device : Nat) (w : Window) (host : HostObject) (a : Allocation)
    (bytes : Bytes) (s' : Store) : Prop where
  host_eq : s.context.hosts[object]? = some host
  recorded : s'.table.allocation? object device = some a
  live : s'.context.buffer? device a.buffer = some bytes
  length_eq : bytes.length = a.bytes
  room : w.size ≤ a.bytes
  /-- The buffer starts with the bytes of the window. -/
  copied : bytes.take w.size = w.cut host.bytes
  /-- A buffer that is large enough stays, with the rest of its bytes. -/
  kept : ∀ old bs, s.table.allocation? object device = some old → w.size ≤ old.bytes →
    s.context.buffer? device old.buffer = some bs → a = old ∧ bytes.drop w.size = bs.drop w.size
  /-- Otherwise there is a new buffer, with zeros after the window. -/
  made : (∀ old, s.table.allocation? object device = some old → old.bytes < w.size) →
    s.context.buffer? device a.buffer = none ∧ ∀ b ∈ bytes.drop w.size, b = 0
  /-- A buffer that is too small is given up. -/
  replaced : ∀ old, s.table.allocation? object device = some old → old.bytes < w.size →
    s'.context.buffer? device old.buffer = none
  others : ∀ i b, ¬(i = device ∧ b = a.buffer) →
    ¬(i = device ∧ ∃ old, s.table.allocation? object device = some old ∧ old.bytes < w.size ∧
      b = old.buffer) →
    s'.context.buffer? i b = s.context.buffer? i b
  hosts_eq : s'.context.hosts = s.context.hosts

variable {event : EventId}

section Filling

variable {target : Bytes} {host : HostObject}

/-- The last step of sending: the device has a buffer with room for the window. -/
theorem Worked.write (hw : s.Worked device h s₁) (hobjects : h.objects = s.context.objects)
    (hfound : s₁.Finds object device place d) (hadmits : s.Admits place window)
    (hhost : objectAt s.context.objects place = host)
    (hwindow : Command.range window host.length = w) (hlength : host.length < maxWord64)
    (htarget : h.memory.get? a.buffer = some target) (hroom : w.size ≤ target.length)
    (hwrite : (Station.write a.buffer place window wait).run (s₁.context.station d) =
      (.ok event, t))
    (f : Record → Record) (text : String) :
    s.Worked device (h.fill a.buffer (w.cut host.bytes ++ target.drop w.size))
      (s₁.entered object device t f text) := by
  subst hhost hwindow
  have ht := (Station.meets_write_stands a.buffer place window wait).of_ok hwrite
    (hw.standsAt hfound.device)
  rw [Admits, ← hobjects] at hadmits
  rw [← hobjects] at hlength hroom ⊢
  rw [Holdings.execute, Command.execute_write_cut htarget hadmits hlength hroom] at ht
  exact hw.station ht rfl rfl rfl

/-- What is sent to a buffer stands there before the rest of what the buffer had. -/
theorem Worked.sentTo (hhost : s.context.hosts[object]? = some host)
    (hinside : w.offset + w.size ≤ host.length)
    (hrecorded : s'.table.allocation? object device = some a)
    (hobjects : h.objects = s.context.objects) (htarget : h.memory.get? a.buffer = some target)
    (hlength : target.length = a.bytes) (hroom : w.size ≤ a.bytes)
    (hw : s.Worked device (h.fill a.buffer (w.cut host.bytes ++ target.drop w.size)) s')
    (hkept : ∀ old bs, s.table.allocation? object device = some old → w.size ≤ old.bytes →
      s.context.buffer? device old.buffer = some bs → a = old ∧ target = bs)
    (hmade : (∀ old, s.table.allocation? object device = some old → old.bytes < w.size) →
      s.context.buffer? device a.buffer = none ∧ ∀ b ∈ target, b = 0)
    (hgone : ∀ old, s.table.allocation? object device = some old → old.bytes < w.size →
      old.buffer ≠ a.buffer ∧ h.memory.get? old.buffer = none)
    (hsame : ∀ b, b ≠ a.buffer →
      ¬(∃ old, s.table.allocation? object device = some old ∧ old.bytes < w.size ∧ b = old.buffer) →
      h.memory.get? b = s.context.buffer? device b) :
    s.SentTo object device w host a (w.cut host.bytes ++ target.drop w.size) s' := by
  have hcut : (w.cut host.bytes).length = w.size := Window.length_cut hinside
  have hget : ∀ b, (h.fill a.buffer (w.cut host.bytes ++ target.drop w.size)).memory.get? b =
      if b = a.buffer then some (w.cut host.bytes ++ target.drop w.size) else h.memory.get? b := by
    intro b
    rw [Holdings.fill, Memory.get?_set, htarget, Option.map_some]
  have hrest : (w.cut host.bytes ++ target.drop w.size).drop w.size = target.drop w.size :=
    List.drop_left' hcut
  refine ⟨hhost, hrecorded, ?_, ?_, hroom, List.take_left' hcut, ?_, ?_, ?_, ?_, ?_⟩
  · rw [hw.buffer?, if_pos rfl, hget, if_pos rfl]
  · rw [List.length_append, hcut, List.length_drop, hlength]
    omega
  · intro old bs hold hlarge hbs
    obtain ⟨rfl, rfl⟩ := hkept old bs hold hlarge hbs
    exact ⟨rfl, hrest⟩
  · intro hsmall
    obtain ⟨hfresh, hzero⟩ := hmade hsmall
    refine ⟨hfresh, fun b hb => hzero b ?_⟩
    rw [hrest] at hb
    exact List.mem_of_mem_drop hb
  · intro old hold hsmall
    obtain ⟨hne, hnone⟩ := hgone old hold hsmall
    rw [hw.buffer?, if_pos rfl, hget, if_neg hne, hnone]
  · intro i b hb hold
    rw [hw.buffer?]
    split_ifs with hi
    · have hne : b ≠ a.buffer := fun hb' => hb ⟨hi, hb'⟩
      rw [hget, if_neg hne, hsame b hne fun hold' => hold ⟨hi, hold'⟩, hi]
    · rfl
  · rw [hw.hosts, Holdings.fill, hobjects, Context.hosts]

end Filling

/-- The devices of a store run their commands at once, every recorded buffer is there and as long as
its record says, and the objects are stored apart. No object is as long as the largest 64-bit
number. -/
structure Accurate (s : Store) : Prop where
  devices : ∀ d ∈ s.context.devices, d.RunsAtOnce
  recorded : ∀ object device a, s.table.allocation? object device = some a →
    ∃ bytes, s.context.buffer? device a.buffer = some bytes ∧ bytes.length = a.bytes
  apart : s.context.places.Nodup
  addressable : ∀ o ∈ s.context.objects, o.length < maxWord64

theorem Accurate.atRest (hs : s.Accurate) (hd : s.context.devices[device]? = some d) : d.AtRest :=
  (hs.devices d (List.mem_of_getElem? hd)).atRest

theorem Accurate.length_lt (hs : s.Accurate) (place : Nat) :
    Command.lengths s.context.objects place < maxWord64 := by
  rw [Command.lengths, objectAt]
  cases ho : s.context.objects[place]? with
  | none => simp [HostObject.length, maxWord64, Numeral.pow2]
  | some o => exact hs.addressable o (List.mem_of_getElem? ho)

theorem get?_holdings (hd : s.context.devices[device]? = some d) (b : BufferId) :
    (s.context.station d).holdings.memory.get? b = s.context.buffer? device b := by
  rw [Context.buffer?, hd, Option.bind_some]
  rfl

theorem buffer?_next (hd : s.context.devices[device]? = some d) (hrest : d.AtRest) :
    s.context.buffer? device d.nextBuffer = none := by
  rw [← get?_holdings hd]
  cases hb : d.memory.get? d.nextBuffer with
  | none => exact hb
  | some bytes =>
    have hlt := hrest.issued d.nextBuffer bytes.length (by rw [Memory.size?, hb, Option.map_some])
    exact absurd hlt (Nat.lt_irrefl _)

theorem hosts_getElem? (hplace : s.context.places[object]? = some place) :
    s.context.hosts[object]? = some (objectAt s.context.objects place) := by
  rw [Context.hosts, List.getElem?_map, hplace, Option.map_some]

/-- A window was sent to a buffer that had room for it. -/
theorem Accurate.sentTo_kept (hs : s.Accurate) (hfound : s.Finds object device place d)
    (hadmits : s.Admits place window) (hr : s.table.get? object device = some r)
    (ha : r.allocation = some a) (hroom : s.bytesOf object window ≤ a.bytes)
    (hwrite : (Station.write a.buffer place window wait).run (s.context.station d) = (.ok event, t))
    (text : String) :
    ∃ host a bytes h,
      s.SentTo object device (Command.range window host.length) host a bytes
        (s.entered object device t (fun r => r.sent window) text) ∧
      s.Worked device h (s.entered object device t (fun r => r.sent window) text) := by
  have hallocation := (allocation?_of_record (Table.record_eq_ok.2 hr)).trans ha
  obtain ⟨target, htarget, hlength⟩ := hs.recorded object device a hallocation
  have hinside := (Window.stop_eq_of_fits hadmits (hs.length_lt place)).2
  rw [bytesOf_eq hfound.place] at hroom
  have hget := (get?_holdings hfound.device a.buffer).trans htarget
  have hw := (Worked.refl hfound.device (hs.atRest hfound.device).toQuiet).write rfl hfound
    hadmits rfl rfl (hs.length_lt place) hget (hlength ▸ hroom) hwrite (fun r => r.sent window) text
  refine ⟨_, a, _, _, hw.sentTo (hosts_getElem? hfound.place) hinside ?_ rfl hget hlength hroom ?_
    ?_ ?_ ?_, hw⟩
  · rw [entered, Table.allocation?_update_self, hr, Option.bind_some]
    exact ha
  · intro old bs hold _ hbs
    cases hallocation.symm.trans hold
    exact ⟨rfl, Option.some.inj (htarget.symm.trans hbs)⟩
  · intro hsmall
    exact absurd hroom (Nat.not_le.2 (hsmall a hallocation))
  · intro old hold hsmall
    cases hallocation.symm.trans hold
    exact absurd hroom (Nat.not_le.2 hsmall)
  · intro b _ _
    exact get?_holdings hfound.device b

/-- A window was sent to a new buffer, which may stand for one that was too small. -/
theorem Accurate.sentTo_made (hs : s.Accurate) {d₁ d₂ : Device} {r' : Record} {b : BufferId}
    {made : EventId} {t₁ : Station} {text₁ : String} (hfound : s.Finds object device place d)
    (hadmits : s.Admits place window) (hr : s.table.get? object device = some r)
    (hsmall : ∀ a, r.allocation = some a → a.bytes < s.bytesOf object window)
    (hvacated : s.Vacated object device d r s₁ d₁)
    (hallocate : (Station.allocate place (s.bytesOf object window)).run (s₁.context.station d₁) =
      (.ok (b, made), t₁)) (hs' : s' = s₁.entered object device t₁
      (fun r => { r with allocation := some ⟨b, s.bytesOf object window⟩ }) text₁)
    (hfound' : s'.Finds object device place d₂) (hr' : s'.table.get? object device = some r')
    (ha : r'.allocation = some a)
    (hwrite : (Station.write a.buffer place window wait).run (s'.context.station d₂) =
      (.ok event, t))
    (text : String) :
    ∃ host a bytes h,
      s.SentTo object device (Command.range window host.length) host a bytes
        (s'.entered object device t (fun r => r.sent window) text) ∧
      s.Worked device h (s'.entered object device t (fun r => r.sent window) text) := by
  have hinside := (Window.stop_eq_of_fits hadmits (hs.length_lt place)).2
  have hrest := hs.atRest hfound.device
  obtain ⟨h, hw, hobjects, hnext, hget⟩ := hvacated.worked hfound.device hrest.toQuiet
  obtain ⟨ht₁, hb⟩ := (Station.meets_allocate_stands place _).of_ok hallocate
    (hw.standsAt (hvacated.finds hfound).device)
  have hb : b = h.next := hb
  -- The new record says what was made.
  have hrecord : a = ⟨h.next, s.bytesOf object window⟩ := by
    obtain ⟨r₁, hr₁⟩ := hvacated.get? hr
    rw [hs', entered, Table.get?_update, if_pos ⟨rfl, rfl⟩, hr₁, Option.map_some] at hr'
    rw [← Option.some.inj hr', hb] at ha
    exact (Option.some.inj ha).symm
  have hw : s.Worked device (h.allocate (s.bytesOf object window)) s' :=
    hw.station ht₁ (hs' ▸ rfl) (hs' ▸ rfl) (hs' ▸ rfl)
  have hfresh : s.context.buffer? device h.next = none := hnext ▸ buffer?_next hfound.device hrest
  have hinsert : ∀ c, (h.allocate (s.bytesOf object window)).memory.get? c =
      if c = h.next then some (List.replicate (s.bytesOf object window) 0) else h.memory.get? c :=
    fun c => Memory.get?_insert h.memory h.next c _
  have hsize := bytesOf_eq hfound.place window
  have hrecorded := allocation?_of_record (Table.record_eq_ok.2 hr)
  subst hrecord
  have htarget := (hinsert h.next).trans (if_pos rfl)
  have hw := hw.write hobjects hfound' hadmits rfl rfl (hs.length_lt place) htarget
    (by rw [List.length_replicate, hsize]; exact Nat.le_refl _) hwrite (fun r => r.sent window) text
  refine ⟨_, ⟨h.next, s.bytesOf object window⟩, _, _,
    hw.sentTo (h := h.allocate (s.bytesOf object window)) (hosts_getElem? hfound.place) hinside ?_
    hobjects htarget
      List.length_replicate hsize.ge ?_ ?_ ?_ ?_, hw⟩
  · rw [entered, Table.allocation?_update_self, hr', Option.bind_some]
    exact ha
  · intro old bs hsome hlarge _
    have hlt := hsmall old (hrecorded.symm.trans hsome)
    rw [hsize] at hlt
    exact absurd hlarge (Nat.not_le.2 hlt)
  · intro _
    exact ⟨hfresh, fun c hc => List.eq_of_mem_replicate hc⟩
  · intro old hsome _
    obtain ⟨bs, hbs, -⟩ := hs.recorded object device old hsome
    have hne : old.buffer ≠ h.next := by
      intro heq
      rw [heq, hfresh] at hbs
      cases hbs
    refine ⟨hne, ?_⟩
    rw [hinsert, if_neg hne, hget, if_pos]
    rw [Record.buffer, ← hrecorded, hsome, Option.map_some]
  · intro c hc hother
    rw [hinsert, if_neg hc, hget, if_neg]
    intro hbuffer
    obtain ⟨old, hsome, rfl⟩ := Option.map_eq_some_iff.1 hbuffer
    refine hother ⟨old, hrecorded.trans hsome, ?_, rfl⟩
    exact lt_of_lt_of_eq (hsmall old hsome) hsize

/-- All that comes of sending a window. -/
theorem Accurate.sentTo (hs : s.Accurate)
    (hrun : (streamIn object device window wait).run s = (.ok event, s')) :
    (∃ place, s.context.places[object]? = some place ∧ s.Admits place window) ∧
      ∃ host a bytes h, s.SentTo object device (Command.range window host.length) host a bytes s' ∧
        s.Worked device h s' := by
  cases sending_of_run hrun with
  | sent hallocate hfound hr ha hwrite =>
    cases allocating_of_run hallocate with
    | roomy hfound' hadmits hr' ha' hroom =>
      cases hr.symm.trans hr'
      cases ha.symm.trans ha'
      cases hfound.place.symm.trans hfound'.place
      exact ⟨⟨_, hfound.place, hadmits⟩, hs.sentTo_kept hfound hadmits hr ha hroom hwrite _⟩
    | made hfound' hadmits hr' hsmall hvacated hmade =>
      cases hfound.place.symm.trans (hvacated.finds hfound').place
      exact ⟨⟨_, hfound'.place, hadmits⟩,
        hs.sentTo_made hfound' hadmits hr' hsmall hvacated hmade rfl hfound hr ha hwrite _⟩

/-! ### Reading back -/

/-- A window of an object, `host`, was read back from the buffer of `a` on a device. -/
structure FetchedFrom (s : Store) (object device : Nat) (w : Window) (host : HostObject)
    (a : Allocation) (bytes : Bytes) (s' : Store) : Prop where
  host_eq : s.context.hosts[object]? = some host
  recorded : s.table.allocation? object device = some a
  live : s.context.buffer? device a.buffer = some bytes
  length_eq : bytes.length = a.bytes
  /-- The bytes before and after those that were read stay, and so do all other objects. -/
  hosts_eq : s'.context.hosts = s.context.hosts.set object ⟨host.label, host.bytes.take w.offset ++
    bytes.take (min w.size a.bytes) ++ host.bytes.drop (w.offset + min w.size a.bytes)⟩
  buffers_eq : s'.context.buffer? = s.context.buffer?

theorem fetchedFrom_of_run (hplaces : s.context.places.Nodup) (hquiet : d.Quiet)
    (hlength : Command.lengths s.context.objects place < maxWord64)
    (hfound : s.Finds object device place d) (hadmits : s.Admits place window)
    (hrecorded : s.table.allocation? object device = some a)
    (hlive : s.context.buffer? device a.buffer = some bytes) (hbytes : bytes.length = a.bytes)
    {blocking : Bool}
    (hread : (Station.read a.buffer place window wait blocking).run (s.context.station d) =
      (.ok event, t))
    (f : Record → Record) (text : String) :
    ∃ host, s.FetchedFrom object device (Command.range window host.length) host a bytes
      (s.entered object device t f text) := by
  have ht := (Station.meets_read_stands a.buffer place window wait blocking).of_ok hread
    ⟨hquiet, rfl⟩
  have hget := (get?_holdings hfound.device a.buffer).trans hlive
  have hexecute : (Command.read a.buffer place window).execute (s.context.station d).holdings.memory
      (s.context.station d).holdings.objects = _ := Command.execute_read_cut hget hadmits
  rw [Holdings.execute, hexecute] at ht
  have hw : s.Worked device _ (s.entered object device t f text) :=
    (Worked.refl hfound.device hquiet).station ht rfl rfl rfl
  obtain ⟨-, hinside⟩ := Window.stop_eq_of_fits hadmits hlength
  refine ⟨objectAt s.context.objects place, hosts_getElem? hfound.place, hrecorded, hlive,
    hbytes, ?_, ?_⟩
  · rw [hw.hosts, Context.hosts, hosts_modify hplaces hfound.place, ← hbytes]
    exact congrArg _ (HostObject.write_take hinside bytes)
  · funext i b
    rw [hw.buffer?]
    split_ifs with hi
    · rw [hi]
      exact get?_holdings hfound.device b
    · rfl

/-- A read of a window that fits, from a buffer that is there, succeeds on an eager device. -/
theorem exists_run_streamOut (hquiet : d.Quiet) (hfound : s.Finds object device place d)
    (hadmits : s.Admits place window) (hr : s.table.get? object device = some r)
    (ha : r.allocation = some a) (hlive : s.context.buffer? device a.buffer = some bytes)
    (wait : List EventId) (blocking : Bool) :
    ∃ event t text,
      (Station.read a.buffer place window wait blocking).run (s.context.station d) =
      (.ok event, t) ∧
        (streamOut object device window wait blocking).run s =
          (.ok event, s.entered object device t Record.fetched text) := by
  have hsize : (s.context.station d).holdings.memory.size? a.buffer = some bytes.length := by
    rw [Memory.size?, (get?_holdings hfound.device a.buffer).trans hlive, Option.map_some]
  have hmeets := Station.meets_read_stands a.buffer place window wait blocking (s.context.station d)
    ⟨hquiet, rfl⟩
  rcases hrun : (streamOut object device window wait blocking).run s with ⟨v, s'⟩
  cases fetching_of_run hrun with
  | refused hrefused => cases (hrefused place d r hfound hadmits hr).symm.trans ha
  | failed hfound' hr' ha' hread =>
    cases hfound.place.symm.trans hfound'.place
    cases hfound.device.symm.trans hfound'.device
    cases hr.symm.trans hr'
    cases ha.symm.trans ha'
    rw [hread] at hmeets
    exact absurd ⟨hadmits, bytes.length, hsize⟩ hmeets.2
  | fetched hfound' hadmits' hr' ha' hread =>
    cases hfound.place.symm.trans hfound'.place
    cases hfound.device.symm.trans hfound'.device
    cases hr.symm.trans hr'
    cases ha.symm.trans ha'
    exact ⟨_, _, _, hread, rfl⟩

/-- What was sent and is read back was there already. -/
theorem FetchedFrom.hosts_of_sentTo {s'' : Store} {host host' : HostObject} {a' : Allocation}
    {bytes' : Bytes}
    (hfetched : s'.FetchedFrom object device (Command.range window host'.length) host'
      a' bytes' s'')
    (hsent : s.SentTo object device (Command.range window host.length) host a bytes s') :
    s''.context.hosts = s.context.hosts := by
  have hhost := hfetched.host_eq
  rw [hsent.hosts_eq, hsent.host_eq] at hhost
  cases hhost
  cases hsent.recorded.symm.trans hfetched.recorded
  cases hsent.live.symm.trans hfetched.live
  rw [hfetched.hosts_eq, Nat.min_eq_left hsent.room, hsent.copied, Window.take_cut_drop,
    hsent.hosts_eq]
  obtain ⟨hlt, hget⟩ := List.getElem?_eq_some_iff.1 hsent.host_eq
  rw [← hget]
  exact List.set_getElem_self hlt

/-- What was sent can be read back, and that changes no object. -/
theorem Accurate.exists_readBack (hs : s.Accurate)
    (hrun : (streamIn object device window wait).run s = (.ok event, s')) (wait' : List EventId)
    (blocking : Bool) :
    ∃ event' s'', (streamOut object device window wait' blocking).run s' = (.ok event', s'') ∧
      s''.context.hosts = s.context.hosts := by
  obtain ⟨⟨place, hplace, hadmits⟩, host, a, bytes, h, hsent, hw⟩ := hs.sentTo hrun
  obtain ⟨r, hr, ha⟩ := Option.bind_eq_some_iff.1 hsent.recorded
  obtain ⟨d, hd, hstands⟩ := hw.stands
  have hextents : s'.context.extents = s.context.extents := by
    have hoperate := extents_operate (.streamIn object device window wait) s
    rw [operate, run_bind_of_ok hrun] at hoperate
    exact hoperate
  have hlengths : Command.lengths s'.context.objects = Command.lengths s.context.objects :=
    (Prod.mk.inj hextents).2
  have hfound : s'.Finds object device place d := ⟨hw.places ▸ hplace, hd⟩
  have hadmits' : s'.Admits place window := by
    rw [Admits, hlengths]
    exact hadmits
  obtain ⟨event', t, text, hread, hrun'⟩ :=
    exists_run_streamOut hstands.quiet hfound hadmits' hr ha hsent.live wait' blocking
  refine ⟨event', _, hrun', ?_⟩
  obtain ⟨host', hfetched⟩ := fetchedFrom_of_run (hw.places ▸ hs.apart) hstands.quiet
    (hlengths ▸ hs.length_lt place) hfound hadmits' hsent.recorded hsent.live hsent.length_eq hread
    Record.fetched text
  exact hfetched.hosts_of_sentTo hsent

theorem lengths_hosts {c c' : Context} (h : c'.extents = c.extents) :
    c'.hosts.map HostObject.length = c.hosts.map HostObject.length := by
  obtain ⟨hplaces, hlengths⟩ := Prod.mk.inj h
  rw [Context.hosts, Context.hosts, List.map_map, List.map_map, hplaces]
  exact congrArg (c.places.map ·) hlengths

/-- Transfers move exactly their windows. A window that was sent is at the start of its buffer; the
rest of a buffer that was large enough is as before, a new buffer has zeros there, and no other
buffer and no object has changed. A window that was read back differs in the bytes that the buffer
has for it, and nothing else has changed. So reading back what was just sent succeeds and changes no
object, and no object ever becomes longer or shorter. -/
theorem transfers_move_window {s : Store} (hs : s.Accurate) (object device : Nat)
    (window : Option Window) :
    (∀ wait event s', (streamIn object device window wait).run s = (.ok event, s') →
      (∃ host a bytes, s.SentTo object device (Command.range window host.length) host a bytes s') ∧
      ∀ wait' blocking, ∃ event' s'', (streamOut object device window wait' blocking).run s' =
      (.ok event', s'') ∧
        s''.context.hosts = s.context.hosts) ∧
    (∀ wait blocking event s', (streamOut object device window wait blocking).run s =
      (.ok event, s') → ∃ host a bytes,
      s.FetchedFrom object device (Command.range window host.length) host a bytes s') ∧
    ∀ ops, (operated ops s).context.hosts.map HostObject.length =
    s.context.hosts.map HostObject.length := by
  refine ⟨fun wait event s' hrun => ?_, fun wait blocking event s' hrun => ?_, fun ops => ?_⟩
  · obtain ⟨-, host, a, bytes, h, hsent, -⟩ := hs.sentTo hrun
    exact ⟨⟨host, a, bytes, hsent⟩, hs.exists_readBack hrun⟩
  · cases fetching_of_run hrun with
    | fetched hfound hadmits hr ha hread =>
      have hrecorded := (allocation?_of_record (Table.record_eq_ok.2 hr)).trans ha
      obtain ⟨bytes, hlive, hbytes⟩ := hs.recorded object device _ hrecorded
      obtain ⟨host, hfetched⟩ := fetchedFrom_of_run hs.apart (hs.atRest hfound.device).toQuiet
        (hs.length_lt _) hfound hadmits hrecorded hlive hbytes hread Record.fetched _
      exact ⟨host, _, bytes, hfetched⟩
  · exact lengths_hosts (extents_operated ops s)

/-- A store with two objects and one device, which has the first six bytes of the one and all of the
other. -/
def halfway : Store where
  context :=
    { devices :=
      [(Station.operated [.allocate 0 6, .write 0 0 (some ⟨0, 6⟩) [], .allocate 1 4,
        .write 1 1 none []]
        (Station.opened "d0" {} .builtin
          [⟨"a", [1, 2, 3, 4, 5, 6, 7, 8]⟩, ⟨"b", [9, 9, 9, 9]⟩])).device]
      objects := [⟨"a", [1, 2, 3, 4, 5, 6, 7, 8]⟩, ⟨"b", [9, 9, 9, 9]⟩]
      constants := []
      tasks := [] }
  table := ⟨[{ records := [{ allocation := some ⟨0, 6⟩, valid := true, window := some ⟨0, 6⟩ }] },
    { records := [{ allocation := some ⟨1, 4⟩, valid := true }] }]⟩

theorem halfway_accurate : halfway.Accurate where
  devices d hd := by
    obtain rfl := List.mem_singleton.1 hd
    exact ⟨_, _, _, _, _, rfl, rfl⟩
  recorded object device a ha := by
    rcases object with _ | _ | object <;> rcases device with _ | device <;> cases ha
    · exact ⟨[1, 2, 3, 4, 5, 6], rfl, rfl⟩
    · exact ⟨[9, 9, 9, 9], rfl, rfl⟩
  apart := by decide
  addressable := by decide

/-- The last bytes but one of the first object are sent. They take the place of the first two of its
buffer. -/
theorem transfers_move_window_kept :
    ∃ event s', (streamIn 0 0 (some ⟨5, 2⟩) []).run halfway = (.ok event, s') ∧
      s'.context.buffer? 0 0 = some [6, 7, 3, 4, 5, 6] ∧
      s'.context.buffer? 0 1 = some [9, 9, 9, 9] ∧
      (∃ host a bytes, halfway.SentTo 0 0 ⟨5, 2⟩ host a bytes s') ∧ ∀ wait blocking, ∃ event' s'',
      (streamOut 0 0 (some ⟨5, 2⟩) wait blocking).run s' = (.ok event', s'') ∧
        s''.context.hosts = halfway.context.hosts := by
  have hrun : (streamIn 0 0 (some ⟨5, 2⟩) []).run halfway =
      (.ok 4, ((streamIn 0 0 (some ⟨5, 2⟩) []).run halfway).2) := Prod.ext rfl rfl
  obtain ⟨hsent, hback⟩ := (transfers_move_window halfway_accurate 0 0 (some ⟨5, 2⟩)).1 [] 4 _ hrun
  exact ⟨4, _, hrun, rfl, rfl, hsent, hback⟩

end Store

end Offload
