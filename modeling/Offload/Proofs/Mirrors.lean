import Offload.Proofs.SyncedWindows

/-!
# Buffers that mirror their objects

A device that runs its commands at once holds, in the buffer of every record that is valid and not
modified, the very bytes of the record's object. Transfers of whole objects make the two equal, a
launch changes the buffers of modified records only, and an object changes only when its own buffer
is read back. So a transfer that is left out because the record is valid and not modified would have
changed nothing.
-/

namespace Offload

open Offload.Action

variable {b : BufferId} {output object device : Nat} {f : Record → Record} {r : Record}

/-! ## What a launch changes -/

/-- The argument that a common kernel writes. Nothing is known of other kernels. -/
def Kernel.output? : Kernel → Option Nat
  | .addOne | .scale => some 0
  | .vectorAdd | .saxpy => some 2
  | .custom _ => none

variable {m : Memory}

theorem Invocation.get?_of_update {v : Invocation} {index : Nat} {f : Bytes → Bytes}
    (h : v.update index f = .ok m) (hb : v.arguments[index]? ≠ some (.buffer b)) :
    m.get? b = v.memory.get? b := by
  have hbuffer : ∀ id, v.buffer index = .ok id → b ≠ id := by
    intro id hid hne
    subst hne
    simp only [buffer] at hid
    split at hid <;> simp_all
  simp only [update, bind, Except.bind] at h
  split at h
  · cases h
  · rename_i id hid
    split at h
    · cases h
      rw [Memory.get?_set, if_neg (hbuffer id hid)]
    · cases h

variable {k : Kernel}

/-- A common kernel writes its output and no other buffer. -/
theorem Kernel.get?_run {v : Invocation} (houtput : k.output? = some output) (h : k.run v = .ok m)
    (hb : v.arguments[output]? ≠ some (.buffer b)) : m.get? b = v.memory.get? b := by
  cases k with
  | custom program => cases houtput
  | _ =>
    cases houtput
    simp only [run, bind, Except.bind] at h
    repeat' split at h
    all_goals first
      | cases h
      | exact Invocation.get?_of_update h hb

theorem Kernel.remains_of_output (houtput : k.output? = some output) (v : Invocation) :
    k.remains v = v.memory := by
  cases k with
  | custom program => cases houtput
  | _ => rfl

variable {arguments : List KernelArgument}

theorem Command.get?_execute_launch (houtput : k.output? = some output)
    (hb : arguments[output]? ≠ some (.buffer b)) (name : String) (window : Option Window)
    (memory : Memory) (objects : List HostObject) :
    ((Command.launch name k arguments window).execute memory objects).2.1.get? b =
      memory.get? b := by
  simp only [execute]
  split
  · rename_i m hrun
    exact Kernel.get?_run houtput hrun hb
  · rw [Kernel.remains_of_output houtput]
  · rw [Kernel.remains_of_output houtput]

theorem Command.objects_execute_launch (name : String) (k : Kernel)
    (arguments : List KernelArgument) (window : Option Window) (memory : Memory)
    (objects : List HostObject) :
    ((Command.launch name k arguments window).execute memory objects).2.2 = objects := by
  simp only [execute]
  split <;> rfl

theorem Bytes.overwrite_of_length {old new : Bytes} (h : old.length = new.length) :
    Bytes.overwrite old 0 new = new := by
  simp [overwrite, h]

/-! ## Whole objects -/

namespace Record

/-- The record of an object on the first device: of all of it, with a buffer of its length if there
is one. -/
structure Whole (device length : Nat) (r : Record) : Prop where
  first : device = 0
  window_eq : r.window = none
  buffer : r.valid = true → r.allocation.isSome = true
  size_eq : ∀ a, r.allocation = some a → a.bytes = length ∧ length < Station.memoryLimit

theorem lasting_whole (device length : Nat) :
    Lasting (Whole device length) fun n => n = length ∧ length < Station.memoryLimit where
  empty _ h := ⟨h.first, rfl, by simp, by simp⟩
  made _ a _ hsized h :=
    ⟨h.first, h.window_eq, fun _ => rfl, fun a' ha' => Option.some.inj ha' ▸ hsized⟩
  fetched _ h := ⟨h.first, h.window_eq, h.buffer, h.size_eq⟩
  invalidate _ h := ⟨h.first, rfl, by simp [Record.invalidate], h.size_eq⟩

theorem Whole.sent {length : Nat} (h : r.Whole device length) {a : Allocation}
    (ha : r.allocation = some a) :
    (r.sent none).Whole device length :=
  ⟨h.first, rfl, fun _ => by simp [Record.sent, ha], h.size_eq⟩

theorem Whole.backed {length : Nat} (h : r.Whole device length) : r.Backed := by
  refine ⟨h.buffer, fun w hw => ?_⟩
  cases h.window_eq.symm.trans hw

/-- A record that says that its buffer equals its object. -/
abbrev Clean (r : Record) : Prop := r.valid = true ∧ r.modified = false

end Record

/-- Bytes that start with all of an object and are no longer. -/
theorem HostObject.Heads.eq_of_length {host : HostObject} {bytes : Bytes}
    (h : host.Heads (.whole host.length) bytes) (hlength : bytes.length = host.length) :
    bytes = host.bytes := by
  have hcopied : bytes.take host.length = host.bytes.take host.length := h.copied
  rw [List.take_of_length_le hlength.le] at hcopied
  exact hcopied.trans (List.take_of_length_le (Nat.le_refl _))

/-- The transfers of whole objects, allocations for them, and invalidations. -/
def Store.Operation.Whole : Store.Operation → Prop
  | .allocate _ _ window | .copyIn _ _ window _ | .streamIn _ _ window _
  | .streamOut _ _ window _ _ => window = none
  | .invalidate => True
  | .validBuffer .. | .claim .. => False

namespace Store

variable {s s' : Store} {wait : List EventId}

/-- A store of whole objects that are stored apart, in which the records of the one device are
right. -/
structure Faithful (s : Store) : Prop where
  trusty : s.Trusty Record.Clean
  whole : ∀ o d, s.table.Has (Record.Whole d (s.bytesOf o none)) o d
  apart : s.context.places.Nodup

namespace Faithful

theorem backed (hs : s.Faithful) (o d : Nat) : s.table.Has Record.Backed o d :=
  fun r hr => (hs.whole o d r hr).backed

/-- No object with a buffer is too long for an address. -/
theorem addressable (hs : s.Faithful) {made : Option EventId} {s₁ : Store} {place : Nat}
    (h : s.Allocating object device none (.ok made) s₁)
    (hplace : s.context.places[object]? = some place) :
    Command.lengths s.context.objects place < maxWord64 := by
  have hbytes : s.bytesOf object none < Station.memoryLimit := by
    cases h with
    | roomy hfound hadmits hr ha => exact ((hs.whole object device _ hr).size_eq _ ha).2
    | made _ _ _ _ _ hallocate => exact Station.lt_of_run_allocate hallocate
  rw [bytesOf_eq hplace] at hbytes
  exact hbytes.trans (by decide)

/-- The table and the objects are those of a faithful store. -/
theorem of_trusty (hs : s.Faithful) (htrusty : s'.Trusty Record.Clean) (htable : s'.table = s.table)
    (hplaces : s'.context.places = s.context.places)
    (hobjects : s'.context.objects = s.context.objects) :
    s'.Faithful := by
  have hextents : s'.context.extents = s.context.extents := by
    rw [Context.extents, hplaces, hobjects, Context.extents]
  refine ⟨htrusty, fun o d => ?_, hplaces ▸ hs.apart⟩
  rw [htable, bytesOf_of_extents hextents]
  exact hs.whole o d

end Faithful

/-- After a read of a whole object it equals its buffer, and no other object has changed. -/
theorem Fetching.faithful {blocking : Bool} {v : Except Fault EventId}
    (h : s.Fetching object device none wait blocking v s') (hs : s.Faithful) :
    s'.Trusty Record.Clean := by
  cases h with
  | refused => exact hs.trusty
  | failed hfound hr ha hread =>
    have ht := (Station.meets_read_stands _ _ _ _ _).of_error hread
      ⟨hs.trusty.found hfound.device, rfl⟩
    exact (hs.trusty.onStation hfound.device ht.1).1
  | @fetched place d r a event t text hfound hadmits hr ha hread =>
    obtain ⟨bytes, hlive, hright⟩ := hs.trusty.right hr ha
    obtain ⟨h, hw, hnext, hmemory, hlengths, hobjects⟩ :=
      hs.trusty.fetched hfound hadmits hlive.buffer? hread Record.fetched text
    have hwhole := hs.whole object device r hr
    have hlength : bytes.length = (objectAt s.context.objects place).length := by
      rw [hlive.length_eq, (hwhole.size_eq a ha).1, bytesOf_eq hfound.place]
      rfl
    refine hs.trusty.read hw hfound.device hnext hmemory hlengths rfl
      (fun o i r' q hr' hclean hq => ?_) (.inr ?_)
    · rw [hobjects]
      by_cases hplace : q = place
      · -- The record is that of the object, and the buffer has the bytes that the object has.
        subst hplace
        have hlt := (List.getElem?_eq_some_iff.1 hq).1
        obtain rfl := (List.getElem?_inj hlt hs.apart).1 (hq.trans hfound.place.symm)
        obtain rfl := (hs.whole o i r' hr').first.trans hwhole.first.symm
        cases hr.symm.trans hr'
        obtain ⟨q', hq', hheads⟩ := hright hclean
        cases hq.symm.trans hq'
        rw [Record.span, hwhole.window_eq] at hheads
        rw [objectAt_modify_self]
        exact congrArg (fun o => Window.cut _ o.bytes) (hheads.write_eq_self rfl (Nat.le_refl _))
      · rw [objectAt_modify_of_ne hplace]
    · intro r' a' bytes' hr' ha' hlive'
      cases hr.symm.trans hr'
      cases ha.symm.trans ha'
      cases hlive.buffer?.symm.trans hlive'.buffer?
      refine ⟨place, hfound.place, ?_⟩
      have htake : bytes.take (Window.whole (objectAt s.context.objects place).length).size =
          bytes :=
        List.take_of_length_le hlength.le
      have hbytes : ((objectAt s.context.objects place).write 0 bytes).bytes = bytes :=
        Bytes.overwrite_of_length hlength.symm
      have hspan : r.span ((objectAt s.context.objects place).write 0 bytes) =
          .whole bytes.length := by
        rw [Record.span, hwhole.window_eq, HostObject.length, hbytes]
        rfl
      have hobject : objectAt h.objects place = (objectAt s.context.objects place).write
          0 bytes := by
        rw [hobjects, objectAt_modify_self]
        exact congrArg _ htake
      rw [hobject, hspan]
      refine ⟨?_, Nat.le_refl _, ?_⟩
      · rw [HostObject.length, hbytes]
        exact (Nat.zero_add _).le
      · rw [hbytes]
        rfl

/-- Step: a store stays faithful through what is done with whole objects. -/
theorem Faithful.operate (hs : s.Faithful) {op : Operation} (hop : op.Whole) :
    ((operate op).run s).2.Faithful := by
  have hextents := extents_operate op s
  have hstep : ((Store.operate op).run s).2.Trusty Record.Clean ∧ (∀ o d,
      ((Store.operate op).run s).2.table.Has (Record.Whole d (s.bytesOf o none)) o d) →
      ((Store.operate op).run s).2.Faithful := by
    rintro ⟨htrusty, hwhole⟩
    refine ⟨htrusty, fun o d => ?_, (Prod.mk.inj hextents).1 ▸ hs.apart⟩
    rw [bytesOf_of_extents hextents]
    exact hwhole o d
  have hvalid : ∀ r : Record, r.Clean → r.valid = true := fun r hr => hr.1
  have hsized : ∀ {o object}, o = object → s.bytesOf object none < Station.memoryLimit →
      s.bytesOf object none = s.bytesOf o none ∧ s.bytesOf o none < Station.memoryLimit := by
    rintro o _ rfl hbytes
    exact ⟨rfl, hbytes⟩
  refine hstep ?_
  cases op with
  | allocate object device window =>
    obtain rfl := hop
    exact ⟨((allocating_of_run rfl).trusty hs.trusty hvalid (hs.backed object device)).1, fun o d =>
      (allocating_of_run rfl).has (Record.lasting_whole d _) hsized (hs.whole o d)⟩
  | copyIn object device window wait =>
    obtain rfl := hop
    exact ⟨((copying_of_run rfl).trusty hs.trusty hvalid (hs.backed object device)
      hs.addressable).1, fun o d =>
      (copying_of_run rfl).has (Record.lasting_whole d _) hsized (fun _ _ _ _ ha _ h => h.sent ha)
        (hs.whole o d)⟩
  | streamIn object device window wait =>
    obtain rfl := hop
    rw [Store.operate, snd_run_bind_pure]
    exact ⟨((sending_of_run rfl).trusty hs.trusty hvalid (hs.backed object device)
      hs.addressable).1, fun o d =>
      (sending_of_run rfl).has (Record.lasting_whole d _) hsized (fun _ _ _ _ ha _ h => h.sent ha)
        (hs.whole o d)⟩
  | streamOut object device window wait blocking =>
    obtain rfl := hop
    rw [Store.operate, snd_run_bind_pure]
    exact ⟨(fetching_of_run rfl).faithful hs, fun o d =>
      (fetching_of_run rfl).has (Record.lasting_whole d _) (hs.whole o d)⟩
  | invalidate =>
    refine ⟨hs.trusty.settle hs.trusty.quiet fun {o i r'} hr' => ?_, fun o d =>
      (hs.whole o d).invalidate (Record.lasting_whole d _)⟩
    have hr' : (s.table.get? o i).map Record.invalidate = some r' :=
      Table.get?_invalidate s.table o i ▸ hr'
    obtain ⟨r, hr, rfl⟩ := Option.map_eq_some_iff.1 hr'
    refine ⟨r, hr, rfl, fun {a bytes} _ hlive _ => ⟨bytes, hlive, fun hclean => ?_⟩⟩
    cases hclean.1
  | validBuffer | claim => exact hop.elim

/-- What leaves the holdings of every device leaves a store faithful. -/
theorem keeps_faithful_onDevice {α : Type} {index : Nat} {x : DeviceAction α}
    (hx : ∀ h, Keeps (Station.StandsAt h) x) :
    Keeps Faithful (inContext (Context.onDevice index x)) := by
  refine keeps_of_run fun s v s' hs hrun => ?_
  rcases onDevice_cases hrun with ⟨rfl, -⟩ | ⟨d, hd, -, rfl⟩
  · exact hs
  · have ht := meets_iff_after.1 (hx _) (s.context.station d) ⟨hs.trusty.found hd, rfl⟩
    obtain ⟨htrusty, hobjects⟩ := hs.trusty.onStation hd ht
    exact hs.of_trusty htrusty rfl rfl hobjects

/-- A launch that writes the buffer of a modified record leaves a store faithful, whether it fails
or not. -/
theorem Faithful.launch (hs : s.Faithful) {index : Nat} {d : Device}
    (hd : s.context.devices[index]? = some d) {code : InstalledCode} {frame : CallFrame}
    (houtput : code.kernel.output? = some output)
    (hclaimed : ∀ b, (frame.arguments.map Station.argumentOf)[output]? = some (.buffer b) →
      ∃ o r a, s.table.get? o 0 = some r ∧ r.allocation = some a ∧ a.buffer = b ∧ r.modified = true)
    (task : String) (window : Option Window) (wait : List EventId) :
    (s.onStation index
      ((Station.launch code frame task window wait).run (s.context.station d)).2).Faithful := by
  have ht : ((Station.launch code frame task window wait).run (s.context.station d)).2.StandsAt _ :=
    meets_iff_after.1 (Station.meets_launch_stands window code frame task wait) _
      ⟨hs.trusty.found hd, rfl⟩
  generalize ((Station.launch code frame task window wait).run (s.context.station d)).2 = t at ht
  have hw : s.Worked index _ (s.onStation index t) :=
    (Worked.refl hd (hs.trusty.found hd)).station ht rfl rfl rfl
  have hobjects : (s.onStation index t).context.objects = s.context.objects :=
    hw.objects.trans (Command.objects_execute_launch _ _ _ _ _ _)
  have hright : ∀ {o r bytes}, s.Right Record.Clean o r bytes →
      (s.onStation index t).Right Record.Clean o r bytes := by
    intro o r bytes hright
    rwa [Right, hobjects, hw.places]
  refine hs.of_trusty (hs.trusty.settle (hw.quiet hs.trusty.quiet) fun {o i r} hr =>
    ⟨r, hr, rfl, fun {a bytes} ha hlive hrecord => ?_⟩) rfl rfl hobjects
  by_cases hi : i = index
  · subst hi
    have hheld := (get?_holdings hd a.buffer).trans hlive.buffer?
    have hsize := congrArg (· a.buffer) (Command.size?_execute
      (.launch code.name code.kernel (frame.arguments.map Station.argumentOf) window)
      (s.context.station d).holdings.memory (s.context.station d).holdings.objects)
    simp only [Memory.size?, hheld, Option.map_some] at hsize
    obtain ⟨bytes', hget, hlength⟩ := Option.map_eq_some_iff.1 hsize
    refine ⟨bytes', hw.live (hlive.lt_next hd) hget (hlength.trans hlive.length_eq),
      fun hclean => ?_⟩
    -- The buffer of a record that is not modified is no output.
    have hother : (frame.arguments.map Station.argumentOf)[output]? ≠ some (.buffer a.buffer) := by
      intro hb
      obtain ⟨o', r', a', hr', ha', hbuffer, hmodified⟩ := hclaimed _ hb
      obtain rfl := (hs.whole o i r hr).first
      obtain rfl := hs.trusty.single (Option.bind_eq_some_iff.2 ⟨r', hr', ha'⟩)
        (Option.bind_eq_some_iff.2 ⟨r, hr, ha⟩) hbuffer
      cases hr.symm.trans hr'
      cases hclean.2.symm.trans hmodified
    cases hget.symm.trans ((Command.get?_execute_launch houtput hother _ _ _ _).trans hheld)
    exact hright hrecord hclean
  · exact ⟨bytes, hw.live_of_ne hi hlive, hright hrecord⟩

end Store

/-! ## Transfers that change nothing -/

theorem Table.update_eq_self {t : Table} (hr : t.get? object device = some r) (hf : f r = r) :
    t.update object device f = t := by
  obtain ⟨rows⟩ := t
  rw [update, mk.injEq]
  refine modify_eq_self fun row hrow => ?_
  have hrecord : row.records[device]? = some r := by
    rw [get?, hrow] at hr
    exact hr
  rw [modify_eq_self fun r' hr' => Option.some.inj (hrecord.symm.trans hr') ▸ hf]

namespace Store

variable {s : Store}

/-- Every record that is valid and not modified has a buffer with the bytes of its object. -/
def Mirrored (s : Store) : Prop :=
  ∀ object device r, s.table.record object device = .ok r → r.valid = true → r.modified = false →
    ∃ a place, r.allocation = some a ∧ s.context.place object = .ok place ∧
      s.context.buffer? device a.buffer = some (objectAt s.context.objects place).bytes

/-- Two stores with the same tables, objects and buffers. -/
structure SameContents (s s' : Store) : Prop where
  table : s'.table = s.table
  objects : s'.context.objects = s.context.objects
  buffers : ∀ device b, s'.context.buffer? device b = s.context.buffer? device b

theorem SameContents.of_common {s' s'' : Store} (h : s.SameContents s') (h' : s.SameContents s'') :
    s'.SameContents s'' := by
  refine ⟨h'.table.trans h.table.symm, h'.objects.trans h.objects.symm, fun device b => ?_⟩
  rw [h'.buffers, h.buffers]

/-- The buffer of a record that says so equals its object. -/
theorem Faithful.equal (hs : s.Faithful) (hr : s.table.get? object device = some r)
    (hclean : r.Clean) :
    ∃ a place, r.allocation = some a ∧ s.context.places[object]? = some place ∧
      a.bytes = s.bytesOf object none ∧ s.bytesOf object none < Station.memoryLimit ∧
      s.Live device a (objectAt s.context.objects place).bytes := by
  have hwhole := hs.whole object device r hr
  obtain ⟨a, ha⟩ := Option.isSome_iff_exists.1 (hwhole.buffer hclean.1)
  obtain ⟨bytes, hlive, hright⟩ := hs.trusty.right hr ha
  obtain ⟨place, hplace, hheads⟩ := hright hclean
  obtain ⟨hsize, hlimit⟩ := hwhole.size_eq a ha
  rw [Record.span, hwhole.window_eq] at hheads
  refine ⟨a, place, ha, hplace, hsize, hlimit, hheads.eq_of_length ?_ ▸ hlive⟩
  rw [hlive.length_eq, hsize, bytesOf_eq hplace]
  rfl

theorem Faithful.mirrored (hs : s.Faithful) : s.Mirrored := by
  intro object device r hr hvalid hmodified
  obtain ⟨a, place, ha, hplace, -, -, hlive⟩ :=
    hs.equal (Table.record_eq_ok.1 hr) ⟨hvalid, hmodified⟩
  exact ⟨a, place, ha, lookup_eq_ok.2 hplace, hlive.buffer?⟩

/-- A transfer is left out if the device holds the object. -/
theorem meets_copyIn_skipped (s : Store) (object device : Nat) (window : Option Window)
    (wait : List EventId) :
    Meets (· = s) (copyIn object device window wait)
      (fun event s' => event = none →
        (∃ r, s.table.record object device = .ok r ∧ r.holds window = true) ∧ s.SameContents s')
      (fun _ => True) := by
  rintro s rfl
  rcases hrun : (copyIn object device window wait).run s with ⟨v, s'⟩
  cases copying_of_run hrun with
  | refused => trivial
  | held hr hholds =>
    exact fun _ => ⟨⟨_, Table.record_eq_ok.2 hr, hholds⟩, rfl, rfl, fun _ _ => rfl⟩
  | @sending r v s' hr hholds hsending =>
    cases v with
    | error fault => trivial
    | ok event => exact fun hnone => by cases hnone

/-- To send an object whose record is valid and not modified succeeds and changes nothing. -/
theorem Faithful.run_streamIn (hs : s.Faithful) (hr : s.table.record object device = .ok r)
    (hvalid : r.valid = true) (hmodified : r.modified = false) (wait : List EventId) :
    ∃ event s', (streamIn object device none wait).run s = (.ok event, s') ∧ s.SameContents s' := by
  have hr := Table.record_eq_ok.1 hr
  obtain ⟨a, place, ha, hplace, hsize, hlimit, hlive⟩ := hs.equal hr ⟨hvalid, hmodified⟩
  obtain ⟨d, hd, -⟩ := id hlive
  have hfound : s.Finds object device place d := ⟨hplace, hd⟩
  have hadmits : s.Admits place none := Window.fits_whole _
  have hlength : a.bytes = (objectAt s.context.objects place).length := by
    rw [hsize, bytesOf_eq hplace]
    rfl
  have hallocate := run_allocate_of_room hfound hadmits hr ha hsize.ge
  have htarget := (get?_holdings hd a.buffer).trans hlive.buffer?
  rcases hrun : (streamIn object device none wait).run s with ⟨v, s'⟩
  cases sending_of_run hrun with
  | unready hfailed => cases (Prod.mk.inj (hallocate.symm.trans hfailed)).1
  | failed hmade hfound' hr' ha' hwrite =>
    cases hallocate.symm.trans hmade
    cases hplace.symm.trans hfound'.place
    cases hd.symm.trans hfound'.device
    cases hr.symm.trans hr'
    cases ha.symm.trans ha'
    have hfits : (Command.write a.buffer place none).Workable
        (s.context.station d).device.memory.size? (Command.lengths (s.context.station d).objects) :=
      ⟨hadmits, _, congrArg (Option.map List.length) htarget, Nat.le_refl _⟩
    obtain ⟨event, t, hok⟩ := Station.exists_run_write hfits wait
    cases (Prod.mk.inj (hok.symm.trans hwrite)).1
  | @sent made s₁ place' d' r' a' event t text hmade hfound' hr' ha' hwrite =>
    cases hallocate.symm.trans hmade
    cases hplace.symm.trans hfound'.place
    cases hd.symm.trans hfound'.device
    cases hr.symm.trans hr'
    cases ha.symm.trans ha'
    have hw := (Worked.refl hd (hs.trusty.found hd)).write rfl hfound hadmits rfl rfl
      (hs.addressable (allocating_of_run hallocate) hplace) htarget (Nat.le_refl _) hwrite
      (fun r => r.sent none) text
    have hsent : s.table.update object device (fun r => r.sent none) = s.table := by
      refine Table.update_eq_self hr ?_
      obtain ⟨allocation, valid, modified, window⟩ := r
      cases hvalid
      cases hmodified
      cases (hs.whole object device _ hr).window_eq
      rfl
    refine ⟨event, _, rfl, hsent, hw.objects, fun i b => ?_⟩
    -- The write puts the bytes into the buffer that it has already.
    rw [hw.buffer?, Holdings.fill, Memory.get?_set]
    split_ifs with hi hb
    · rw [hi, hb, hlive.buffer?, htarget]
      simp [Command.range, Window.cut, Window.whole, HostObject.length]
    · rw [hi, get?_holdings hd]
    · rfl

end Store

end Offload
