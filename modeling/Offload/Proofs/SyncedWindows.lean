import Offload.Proofs.HeldWindows
import Offload.Proofs.WindowedTransfers

/-!
# Windows that are in step

A read puts the start of a buffer over whatever window it is given. So it leaves the objects alone
if the buffer starts with the bytes of that window, and it puts bytes where they do not belong if
the window is another one than that which was sent. A valid record says which bytes its buffer
starts with, and this stays true through all transfers, of any windows, as long as no read
overwrites the bytes of a window that a valid record says its buffer has.
-/

namespace Offload

open Offload.Action

/-! ## The bytes of a window -/

namespace Window

variable {w v : Window} {o : HostObject} {src : Bytes}

/-- No byte is in both windows. -/
def Apart (w v : Window) : Prop := w.offset + w.size ≤ v.offset ∨ v.offset + v.size ≤ w.offset

/-- What is put over one window leaves the bytes of another. -/
theorem cut_write_of_apart (hinside : w.offset + w.size ≤ o.length) (hapart : w.Apart v)
    (src : Bytes) :
    v.cut (o.write w.offset (src.take w.size)).bytes = v.cut o.bytes := by
  have hcount : min w.size src.length ≤ w.size := Nat.min_le_left _ _
  have hinside : w.offset + w.size ≤ o.bytes.length := hinside
  rw [HostObject.write_take hinside, cut, cut]
  apply List.ext_getElem?
  intro i
  unfold Apart at hapart
  simp only [List.getElem?_take, List.getElem?_drop, List.getElem?_append, List.length_append,
    List.length_take]
  grind

theorem write_eq_self (hinside : w.offset + w.size ≤ o.length)
    (hsame : src.take w.size = w.cut o.bytes) :
    o.write w.offset (src.take w.size) = o := by
  have hcut : (w.cut o.bytes).length = w.size := length_cut hinside
  rw [hsame, HostObject.write, Bytes.overwrite_of_le (hcut.symm ▸ hinside), hcut, take_cut_drop]

end Window

/-- Bytes that start with a window of an object. -/
structure HostObject.Heads (host : HostObject) (v : Window) (bytes : Bytes) : Prop where
  inside : v.offset + v.size ≤ host.length
  room : v.size ≤ bytes.length
  copied : bytes.take v.size = v.cut host.bytes

theorem HostObject.heads_append {host : HostObject} {v : Window}
    (hinside : v.offset + v.size ≤ host.length) (rest : Bytes) :
    host.Heads v (v.cut host.bytes ++ rest) := by
  have hcut : (v.cut host.bytes).length = v.size := Window.length_cut hinside
  refine ⟨hinside, ?_, List.take_left' hcut⟩
  rw [List.length_append, hcut]
  exact Nat.le_add_right _ _

/-- A window that starts where the bytes do and is no longer than what they have of the object. -/
theorem HostObject.Heads.write_eq_self {host : HostObject} {v w : Window} {bytes : Bytes}
    (h : host.Heads v bytes) (hoffset : w.offset = v.offset) (hsize : w.size ≤ v.size) :
    host.write w.offset (bytes.take w.size) = host := by
  refine Window.write_eq_self (by have := h.inside; omega) ?_
  rw [← Nat.min_eq_left hsize, ← List.take_take, h.copied, Window.cut, List.take_take,
    Window.cut, hoffset, Nat.min_eq_left hsize]

/-- The window of an object that a record says its buffer has. -/
def Record.span (r : Record) (host : HostObject) : Window := Command.range r.window host.length

namespace Store

variable {s s' s₁ : Store} {object device place : Nat} {window : Option Window}
  {wait : List EventId} {d : Device} {r : Record} {h : Holdings} {P : Record → Prop}
  {a : Allocation} {bytes : Bytes}

/-- The buffer of an allocation is there, and its number was given out. -/
def Live (s : Store) (i : Nat) (a : Allocation) (bytes : Bytes) : Prop :=
  ∃ d, s.context.devices[i]? = some d ∧ a.buffer < d.nextBuffer ∧
    d.memory.get? a.buffer = some bytes ∧ bytes.length = a.bytes

theorem Live.buffer? {i : Nat} (h : s.Live i a bytes) :
    s.context.buffer? i a.buffer = some bytes := by
  obtain ⟨d, hd, -, hget, -⟩ := h
  rw [Context.buffer?, hd, Option.bind_some, hget]

theorem Live.length_eq {i : Nat} (h : s.Live i a bytes) : bytes.length = a.bytes := by
  obtain ⟨d, -, -, -, hlength⟩ := h
  exact hlength

theorem Live.lt_next {i : Nat} (h : s.Live i a bytes) (hd : s.context.devices[i]? = some d) :
    a.buffer < d.nextBuffer := by
  obtain ⟨d', hd', hissued, -⟩ := h
  exact Option.some.inj (hd'.symm.trans hd) ▸ hissued

/-- A record of which `P` holds is right about the bytes of its buffer. -/
def Right (P : Record → Prop) (s : Store) (o : Nat) (r : Record) (bytes : Bytes) : Prop :=
  P r → ∃ place, s.context.places[o]? = some place ∧
    (objectAt s.context.objects place).Heads (r.span (objectAt s.context.objects place)) bytes

/-- A store of devices that run their commands at once, in which the records are right: every
recorded buffer is there, is recorded once, and starts with the bytes of the window that was last
sent if `P` holds of its record. -/
structure Trusty (P : Record → Prop) (s : Store) : Prop where
  quiet : ∀ d ∈ s.context.devices, d.Quiet
  right : ∀ {o i r a}, s.table.get? o i = some r → r.allocation = some a →
    ∃ bytes, s.Live i a bytes ∧ s.Right P o r bytes
  single : ∀ {o o' i a a'}, s.table.allocation? o i = some a → s.table.allocation? o' i = some a' →
    a.buffer = a'.buffer → o = o'

namespace Worked

theorem quiet (hw : s.Worked device h s') (hs : ∀ d ∈ s.context.devices, d.Quiet) :
    ∀ d ∈ s'.context.devices, d.Quiet := by
  intro d hd
  obtain ⟨i, hi⟩ := List.mem_iff_getElem?.1 hd
  by_cases hdevice : i = device
  · exact (hw.standsAt (hdevice ▸ hi)).quiet
  · exact hs d (List.mem_of_getElem? (hw.others i hdevice ▸ hi))

theorem live (hw : s.Worked device h s') (hissued : a.buffer < h.next)
    (hget : h.memory.get? a.buffer = some bytes) (hlength : bytes.length = a.bytes) :
    s'.Live device a bytes := by
  obtain ⟨d, hd, -, rfl⟩ := hw.stands
  exact ⟨d, hd, hissued, hget, hlength⟩

theorem live_of_ne (hw : s.Worked device h s') {i : Nat} (hi : i ≠ device)
    (hlive : s.Live i a bytes) :
    s'.Live i a bytes := by
  rwa [Live, hw.others i hi]

theorem entered (object : Nat) (hd : s.context.devices[device]? = some d) (hquiet : d.Quiet)
    {t : Station} (ht : t.StandsAt h) (f : Record → Record) (text : String) :
    s.Worked device h (s.entered object device t f text) :=
  (Worked.refl hd hquiet).station ht rfl rfl rfl

end Worked

namespace Trusty

theorem found (hs : s.Trusty P) (hd : s.context.devices[device]? = some d) : d.Quiet :=
  hs.quiet d (List.mem_of_getElem? hd)

theorem live (hs : s.Trusty P) (ha : s.table.allocation? object device = some a) :
    ∃ bytes, s.Live device a bytes := by
  obtain ⟨r, hr, ha⟩ := Option.bind_eq_some_iff.1 ha
  obtain ⟨bytes, hlive, -⟩ := hs.right hr ha
  exact ⟨bytes, hlive⟩

/-- The records have the buffers that they had. -/
theorem settle (hs : s.Trusty P) (hquiet : ∀ d ∈ s'.context.devices, d.Quiet)
    (hrecords : ∀ {o i r'}, s'.table.get? o i = some r' → ∃ r, s.table.get? o i = some r ∧
      r'.allocation = r.allocation ∧ ∀ {a bytes}, r.allocation = some a → s.Live i a bytes →
      s.Right P o r bytes →
        ∃ bytes', s'.Live i a bytes' ∧ s'.Right P o r' bytes') : s'.Trusty P := by
  have hbefore : ∀ {o i a}, s'.table.allocation? o i = some a →
      s.table.allocation? o i = some a := by
    intro o i a ha
    obtain ⟨r', hr', ha⟩ := Option.bind_eq_some_iff.1 ha
    obtain ⟨r, hr, hallocation, -⟩ := hrecords hr'
    exact Option.bind_eq_some_iff.2 ⟨r, hr, hallocation ▸ ha⟩
  refine ⟨hquiet, fun hr' ha => ?_, fun ha ha' => hs.single (hbefore ha) (hbefore ha')⟩
  obtain ⟨r, hr, hallocation, hkept⟩ := hrecords hr'
  obtain ⟨bytes, hlive, hright⟩ := hs.right hr (hallocation ▸ ha)
  exact hkept (hallocation ▸ ha) hlive hright

theorem logged (hs : s.Trusty P) (text : String) :
    (s.logged text).Trusty P := ⟨hs.quiet, hs.right, hs.single⟩

/-- A device has worked, and nothing has come of it. -/
theorem onStation (hs : s.Trusty P) (hd : s.context.devices[device]? = some d) {t : Station}
    (ht : t.StandsAt (s.context.station d).holdings) :
    (s.onStation device t).Trusty P ∧
      (s.onStation device t).context.objects = s.context.objects := by
  have hw : s.Worked device _ (s.onStation device t) :=
    (Worked.refl hd (hs.found hd)).station ht rfl rfl rfl
  refine ⟨hs.settle (hw.quiet hs.quiet) fun {o i r'} hr' =>
    ⟨r', hr', rfl, fun {a bytes} _ hlive hright => ?_⟩, hw.objects⟩
  refine ⟨bytes, ?_, ?_⟩
  · by_cases hi : i = device
    · subst hi
      exact hw.live (hlive.lt_next hd) ((get?_holdings hd _).trans hlive.buffer?) hlive.length_eq
    · exact hw.live_of_ne hi hlive
  · rwa [Right, hw.places, hw.objects]

/-- A device has worked for one of its records. It has left the buffers of all others and the
objects alone, and its record is right. -/
theorem work (hs : s.Trusty P) (hw : s.Worked device h s')
    (hd : s.context.devices[device]? = some d) (hnext : d.nextBuffer ≤ h.next)
    (hobjects : h.objects = s.context.objects)
    (hothers : ∀ o a, o ≠ object → s.table.allocation? o device = some a →
      h.memory.get? a.buffer = s.context.buffer? device a.buffer)
    {f : Record → Record} (htable : s'.table = s.table.update object device f)
    (hr : s.table.get? object device = some r)
    (hright : ∀ a, (f r).allocation = some a →
      (a.buffer < h.next ∧ ∃ bytes, h.memory.get? a.buffer = some bytes ∧ bytes.length = a.bytes ∧
        s.Right P object (f r) bytes) ∧
      ∀ o a', o ≠ object → s.table.allocation? o device = some a' → a'.buffer ≠ a.buffer) :
    s'.Trusty P := by
  have hsame : s'.context.objects = s.context.objects := hw.objects.trans hobjects
  have hkept : ∀ {o bytes r}, s.Right P o r bytes → s'.Right P o r bytes := by
    intro o bytes r hrecord
    rwa [Right, hw.places, hsame]
  have hget : ∀ {o i r'}, s'.table.get? o i = some r' →
      (o = object ∧ i = device ∧ r' = f r) ∨
      (¬(o = object ∧ i = device) ∧ s.table.get? o i = some r') := by
    intro o i r' hr'
    rw [htable, Table.get?_update] at hr'
    split_ifs at hr' with hhere
    · rw [hr] at hr'
      exact .inl ⟨hhere.1, hhere.2, (Option.some.inj hr').symm⟩
    · exact .inr ⟨hhere, hr'⟩
  refine ⟨hw.quiet hs.quiet, fun {o i r' a'} hr' ha' => ?_, fun {o o' i a a'} ha ha' hbuffer => ?_⟩
  · rcases hget hr' with ⟨rfl, rfl, rfl⟩ | ⟨hother, hr'⟩
    · obtain ⟨⟨hissued, bytes, hlive, hlength, hrecord⟩, -⟩ := hright a' ha'
      exact ⟨bytes, hw.live hissued hlive hlength, hkept hrecord⟩
    · obtain ⟨bytes, hlive, hrecord⟩ := hs.right hr' ha'
      refine ⟨bytes, ?_, hkept hrecord⟩
      by_cases hi : i = device
      · subst hi
        have hothers := hothers o a' (fun ho => hother ⟨ho, rfl⟩)
          (Option.bind_eq_some_iff.2 ⟨r', hr', ha'⟩)
        exact hw.live ((hlive.lt_next hd).trans_le hnext) (hothers.trans hlive.buffer?)
          hlive.length_eq
      · exact hw.live_of_ne hi hlive
  · obtain ⟨r₁, hr₁, ha⟩ := Option.bind_eq_some_iff.1 ha
    obtain ⟨r₂, hr₂, ha'⟩ := Option.bind_eq_some_iff.1 ha'
    rcases hget hr₁ with ⟨rfl, rfl, rfl⟩ | ⟨hother₁, hr₁⟩
    · rcases hget hr₂ with ⟨rfl, -, -⟩ | ⟨hother₂, hr₂⟩
      · rfl
      · have hne := (hright a ha).2 o' a' (fun ho => hother₂ ⟨ho, rfl⟩)
          (Option.bind_eq_some_iff.2 ⟨r₂, hr₂, ha'⟩)
        exact absurd hbuffer.symm hne
    · rcases hget hr₂ with ⟨rfl, rfl, rfl⟩ | ⟨hother₂, hr₂⟩
      · have hne := (hright a' ha').2 o a (fun ho => hother₁ ⟨ho, rfl⟩)
          (Option.bind_eq_some_iff.2 ⟨r₁, hr₁, ha⟩)
        exact absurd hbuffer hne
      · exact hs.single (Option.bind_eq_some_iff.2 ⟨r₁, hr₁, ha⟩)
          (Option.bind_eq_some_iff.2 ⟨r₂, hr₂, ha'⟩) hbuffer

end Trusty

/-! ## Sending -/

theorem Vacated.trusty {d₁ : Device} (hv : s.Vacated object device d r s₁ d₁) (hs : s.Trusty P)
    (hd : s.context.devices[device]? = some d) (hr : s.table.get? object device = some r) :
    s₁.Trusty P ∧ s₁.context.objects = s.context.objects := by
  obtain ⟨h, hw, hobjects, hnext, hget⟩ := hv.worked hd (hs.found hd)
  refine ⟨?_, hw.objects.trans hobjects⟩
  cases hv with
  | bare => exact hs
  | @discarded a text t ha hrelease =>
    refine hs.work hw hd hnext.ge hobjects (fun o a' ho ha' => ?_) rfl hr fun a' ha' => by cases ha'
    rw [hget, if_neg]
    intro hbuffer
    rw [Record.buffer, ha, Option.map_some] at hbuffer
    exact ho (hs.single ha' (Option.bind_eq_some_iff.2 ⟨r, hr, ha⟩) (Option.some.inj hbuffer).symm)

/-- A new buffer is nobody else's, and it holds nothing. -/
theorem Allocating.trusty {v : Except Fault (Option EventId)}
    (h : s.Allocating object device window v s') (hs : s.Trusty P) (hP : ∀ r, P r → r.valid = true)
    (hbacked : s.table.Has Record.Backed object device) :
    s'.Trusty P ∧ s'.context.objects = s.context.objects := by
  cases h with
  | refused | roomy => exact ⟨hs, rfl⟩
  | @stuck place d r a text fault t hfound hr ha hsmall hrelease =>
    have ht := (Station.meets_release_stands a.buffer).of_error hrelease
      ⟨hs.found hfound.device, rfl⟩
    exact (hs.logged text).onStation hfound.device ht
  | @exhausted place d d₁ r s₁ fault t hfound hr hsmall hvacated hallocate =>
    obtain ⟨hs₁, hobjects⟩ := hvacated.trusty hs hfound.device hr
    have hd₁ := (hvacated.finds hfound).device
    have ht := (Station.meets_allocate_stands place _).of_error hallocate ⟨hs₁.found hd₁, rfl⟩
    obtain ⟨hs', hsame⟩ := hs₁.onStation hd₁ ht
    exact ⟨hs', hsame.trans hobjects⟩
  | @made place d d₁ r s₁ b event t text hfound hadmits hr hsmall hvacated hallocate =>
    obtain ⟨hs₁, hobjects⟩ := hvacated.trusty hs hfound.device hr
    obtain ⟨r₁, hr₁⟩ := hvacated.get? hr
    have hd₁ := (hvacated.finds hfound).device
    obtain ⟨ht, rfl⟩ := (Station.meets_allocate_stands place _).of_ok hallocate ⟨hs₁.found hd₁, rfl⟩
    have hw := Worked.entered object hd₁ (hs₁.found hd₁) ht
      (fun r => { r with allocation := some ⟨d₁.nextBuffer, s.bytesOf object window⟩ }) text
    have hget : ∀ c,
        ((s₁.context.station d₁).holdings.allocate (s.bytesOf object window)).memory.get? c =
        if c = d₁.nextBuffer then some (List.replicate (s.bytesOf object window) 0)
        else s₁.context.buffer? device c := by
      intro c
      rw [← get?_holdings hd₁ c]
      exact Memory.get?_insert _ _ _ _
    have hnew : ∀ o a, s₁.table.allocation? o device = some a → a.buffer ≠ d₁.nextBuffer := by
      intro o a ha
      obtain ⟨bytes, hlive⟩ := hs₁.live ha
      exact (hlive.lt_next hd₁).ne
    refine ⟨hs₁.work hw hd₁ (Nat.le_succ _) rfl (fun o a _ ha => ?_) rfl hr₁ fun a ha => ?_,
      hw.objects.trans hobjects⟩
    · rw [hget, if_neg (hnew o a ha)]
    · cases ha
      refine ⟨⟨Nat.lt_succ_self _, _, (hget _).trans (if_pos rfl), List.length_replicate,
        fun hrecord => ?_⟩, fun o a' _ ha' => hnew o a' ha'⟩
      have hvalid := hP _ hrecord
      have hsome := (hvacated.has Record.lasting_backed hbacked r₁ hr₁).buffer hvalid
      rw [hvacated.allocation_eq hr hr₁] at hsome
      cases hsome

theorem Allocating.admits {made : Option EventId}
    (h : s.Allocating object device window (.ok made) s')
    (hplace : s.context.places[object]? = some place) : s.Admits place window := by
  cases h with
  | roomy hfound hadmits =>
    cases hfound.place.symm.trans hplace
    exact hadmits
  | made hfound hadmits =>
    cases hfound.place.symm.trans hplace
    exact hadmits

/-- The window that was sent is at the start of the buffer. -/
theorem Sending.trusty {v : Except Fault EventId} (h : s.Sending object device window wait v s')
    (hs : s.Trusty P) (hP : ∀ r, P r → r.valid = true)
    (hbacked : s.table.Has Record.Backed object device)
    (hlength : ∀ {made s₁ place}, s.Allocating object device window (.ok made) s₁ →
      s.context.places[object]? = some place →
      Command.lengths s.context.objects place < maxWord64) :
    s'.Trusty P ∧ s'.context.objects = s.context.objects := by
  cases h with
  | unready hallocate => exact (allocating_of_run hallocate).trusty hs hP hbacked
  | failed hallocate hfound hr ha hwrite =>
    obtain ⟨hs₁, hobjects⟩ := (allocating_of_run hallocate).trusty hs hP hbacked
    have ht := (Station.meets_write_stands _ _ _ _).of_error hwrite ⟨hs₁.found hfound.device, rfl⟩
    obtain ⟨hs', hsame⟩ := hs₁.onStation hfound.device ht
    exact ⟨hs', hsame.trans hobjects⟩
  | @sent made s₁ place d r a event t text hallocate hfound hr ha hwrite =>
    have hallocating := allocating_of_run hallocate
    obtain ⟨hs₁, hobjects⟩ := hallocating.trusty hs hP hbacked
    obtain ⟨place', d', r', a', hplace, hfound', hr', ha', hroom⟩ := hallocating.room
    cases hr.symm.trans hr'
    cases ha.symm.trans ha'
    cases hfound.place.symm.trans hfound'.place
    have hadmits := hallocating.admits hplace
    have haddressable := hlength hallocating hplace
    rw [Admits, ← hobjects] at hadmits
    rw [bytesOf_eq hplace, ← hobjects] at hroom
    rw [← hobjects] at haddressable
    obtain ⟨target, hlive, -⟩ := hs₁.right hr ha
    have htarget := (get?_holdings hfound.device a.buffer).trans hlive.buffer?
    have hinside := (Window.stop_eq_of_fits hadmits haddressable).2
    have hw := (Worked.refl hfound.device (hs₁.found hfound.device)).write rfl hfound hadmits rfl
      rfl haddressable htarget (hlive.length_eq ▸ hroom) hwrite (fun r => r.sent window) text
    have hfill : ∀ b bytes, ((s₁.context.station d).holdings.fill a.buffer bytes).memory.get? b =
        if b = a.buffer then some bytes else s₁.context.buffer? device b := by
      intro b bytes
      rw [Holdings.fill, Memory.get?_set, htarget, Option.map_some, get?_holdings hfound.device]
    have hown : ∀ o a', o ≠ object → s₁.table.allocation? o device = some a' →
        a'.buffer ≠ a.buffer :=
      fun o a' ho ha' heq => ho (hs₁.single ha' (Option.bind_eq_some_iff.2 ⟨r, hr, ha⟩) heq)
    refine ⟨hs₁.work hw hfound.device (Nat.le_refl _) rfl (fun o a' ho ha' => ?_) rfl hr
      fun a' ha' => ?_, hw.objects.trans hobjects⟩
    · rw [hfill, if_neg (hown o a' ho ha')]
    · cases ha.symm.trans ha'
      refine ⟨⟨hlive.lt_next hfound.device, _, (hfill _ _).trans (if_pos rfl), ?_, fun _ =>
        ⟨place, hfound.place, HostObject.heads_append hinside _⟩⟩, hown⟩
      rw [List.length_append, List.length_drop, hlive.length_eq]
      exact (congrArg (· + _) (Window.length_cut hinside)).trans (Nat.add_sub_cancel' hroom)

theorem Copying.trusty {v : Except Fault (Option EventId)}
    (h : s.Copying object device window wait v s') (hs : s.Trusty P)
    (hP : ∀ r, P r → r.valid = true) (hbacked : s.table.Has Record.Backed object device)
    (hlength : ∀ {made s₁ place}, s.Allocating object device window (.ok made) s₁ →
      s.context.places[object]? = some place →
      Command.lengths s.context.objects place < maxWord64) :
    s'.Trusty P ∧ s'.context.objects = s.context.objects := by
  cases h with
  | refused => exact ⟨hs, rfl⟩
  | held => exact ⟨hs.logged _, rfl⟩
  | sending hr hholds hsending => exact hsending.trusty hs hP hbacked hlength

/-! ## Reading back -/

/-- A device has changed objects, but none of the bytes that other records say their buffers have,
and the record for which it has worked is right afterwards. -/
theorem Trusty.read (hs : s.Trusty P) (hw : s.Worked device h s')
    (hd : s.context.devices[device]? = some d) (hnext : h.next = d.nextBuffer)
    (hmemory : ∀ b, h.memory.get? b = s.context.buffer? device b)
    (hlengths : Command.lengths h.objects = Command.lengths s.context.objects)
    (htable : s'.table = s.table.update object device Record.fetched)
    (hkept : ∀ o i r q, s.table.get? o i = some r → P r → s.context.places[o]? = some q →
      (r.span (objectAt s.context.objects q)).cut (objectAt h.objects q).bytes =
        (r.span (objectAt s.context.objects q)).cut (objectAt s.context.objects q).bytes)
    (hself : (∀ r : Record, P r.fetched → P r) ∨
      ∀ {r a bytes}, s.table.get? object device = some r → r.allocation = some a →
      s.Live device a bytes → ∃ q, s.context.places[object]? = some q ∧
        (objectAt h.objects q).Heads (r.span (objectAt h.objects q)) bytes) : s'.Trusty P := by
  have hlength : ∀ q, (objectAt h.objects q).length = (objectAt s.context.objects q).length :=
    congrFun hlengths
  have hlive : ∀ {i a bytes}, s.Live i a bytes → s'.Live i a bytes := by
    intro i a bytes hlive
    by_cases hi : i = device
    · subst hi
      exact hw.live (hnext ▸ hlive.lt_next hd) ((hmemory _).trans hlive.buffer?) hlive.length_eq
    · exact hw.live_of_ne hi hlive
  -- A record that was right still is.
  have hright : ∀ {o i r bytes}, s.table.get? o i = some r → s.Right P o r bytes → P r → ∃ q,
      s.context.places[o]? = some q ∧
      (objectAt h.objects q).Heads (r.span (objectAt h.objects q)) bytes := by
    intro o i r bytes hr hright hrecord
    obtain ⟨q, hq, hheads⟩ := hright hrecord
    refine ⟨q, hq, ?_⟩
    rw [Record.span, hlength]
    exact ⟨hheads.inside.trans (hlength q).ge, hheads.room,
      hheads.copied.trans (hkept o i r q hr hrecord hq).symm⟩
  refine hs.settle (hw.quiet hs.quiet) fun {o i r'} hr' => ?_
  rw [htable, Table.get?_update] at hr'
  split_ifs at hr' with hhere
  · obtain ⟨rfl, rfl⟩ := hhere
    obtain ⟨r, hr, rfl⟩ := Option.map_eq_some_iff.1 hr'
    refine ⟨r, hr, rfl, fun ha hbytes hbefore => ⟨_, hlive hbytes, fun hrecord => ?_⟩⟩
    rw [hw.places, hw.objects]
    rcases hself with hsame | hself
    · have hafter := hright hr hbefore (hsame r hrecord)
      exact hafter
    · have hafter := hself hr ha hbytes
      exact hafter
  · refine ⟨r', hr', rfl, fun _ hbytes hbefore => ⟨_, hlive hbytes, fun hrecord => ?_⟩⟩
    rw [hw.places, hw.objects]
    exact hright hr' hbefore hrecord

/-- A read puts the start of the buffer over its window. -/
theorem Trusty.fetched (hs : s.Trusty P) (hfound : s.Finds object device place d)
    (hadmits : s.Admits place window) (hlive : s.context.buffer? device a.buffer = some bytes)
    {blocking : Bool} {event : EventId} {t : Station}
    (hread : (Station.read a.buffer place window wait blocking).run (s.context.station d) =
      (.ok event, t))
    (f : Record → Record) (text : String) :
    ∃ h, s.Worked device h (s.entered object device t f text) ∧ h.next = d.nextBuffer ∧
      (∀ b, h.memory.get? b = s.context.buffer? device b) ∧
      Command.lengths h.objects = Command.lengths s.context.objects ∧
      h.objects = s.context.objects.modify place fun o =>
        o.write (Command.range window (Command.lengths s.context.objects place)).offset
          (bytes.take (Command.range window (Command.lengths s.context.objects place)).size) := by
  have hquiet := hs.found hfound.device
  have ht := (Station.meets_read_stands a.buffer place window wait blocking).of_ok hread
    ⟨hquiet, rfl⟩
  have hexecute : (Command.read a.buffer place window).execute (s.context.station d).holdings.memory
      (s.context.station d).holdings.objects = _ :=
    Command.execute_read_cut ((get?_holdings hfound.device a.buffer).trans hlive) hadmits
  have hlengths := (Command.read a.buffer place window).lengths_execute
    (s.context.station d).holdings.memory (s.context.station d).holdings.objects
  rw [Holdings.execute, hexecute] at ht
  rw [hexecute] at hlengths
  exact ⟨_, Worked.entered object hfound.device hquiet ht f text, rfl, get?_holdings hfound.device,
    hlengths, rfl⟩

/-- A window starts where the window starts that a record says its buffer has, and it is no
longer. -/
def Matching (s : Store) (object device : Nat) (window : Option Window) : Prop :=
  ∀ r place, s.table.get? object device = some r → s.context.places[object]? = some place →
    let host := objectAt s.context.objects place
    r.valid = true ∧ (Command.range window host.length).offset = (r.span host).offset ∧
      (Command.range window host.length).size ≤ (r.span host).size

/-- A window of an object is apart from all that valid records say their buffers have of it, by any
of its indices. -/
def Clear (s : Store) (object : Nat) (window : Option Window) : Prop :=
  ∀ o i r place, s.table.get? o i = some r → r.valid = true →
    s.context.places[object]? = some place → s.context.places[o]? = some place →
      let host := objectAt s.context.objects place
      (Command.range window host.length).Apart (r.span host)

/-- A window that may be read back. -/
def Fair (s : Store) (object device : Nat) (window : Option Window) : Prop :=
  s.Matching object device window ∨ s.Clear object window

theorem Fetching.trusty {blocking : Bool} {v : Except Fault EventId}
    (h : s.Fetching object device window wait blocking v s') (hs : s.Trusty fun r => r.valid = true)
    (haddressable : ∀ place, Command.lengths s.context.objects place < maxWord64)
    (hfair : s.Fair object device window) :
    (s'.Trusty fun r => r.valid = true) ∧
      (s.Matching object device window → s'.context.objects = s.context.objects) := by
  cases h with
  | refused => exact ⟨hs, fun _ => rfl⟩
  | failed hfound hr ha hread =>
    have ht := (Station.meets_read_stands _ _ _ _ _).of_error hread ⟨hs.found hfound.device, rfl⟩
    obtain ⟨hs', hsame⟩ := hs.onStation hfound.device ht.1
    exact ⟨hs', fun _ => hsame⟩
  | @fetched place d r a event t text hfound hadmits hr ha hread =>
    obtain ⟨bytes, hlive, hright⟩ := hs.right hr ha
    obtain ⟨h, hw, hnext, hmemory, hlengths, hobjects⟩ :=
      hs.fetched hfound hadmits hlive.buffer? hread Record.fetched text
    have hsame : s.Matching object device window → h.objects = s.context.objects := by
      intro hmatching
      obtain ⟨hvalid, hoffset, hsize⟩ := hmatching r place hr hfound.place
      obtain ⟨q, hq, hheads⟩ := hright hvalid
      obtain rfl := Option.some.inj (hq.symm.trans hfound.place)
      rw [hobjects]
      refine modify_eq_self fun o ho => ?_
      have hhost : objectAt s.context.objects q = o := by rw [objectAt, ho, Option.getD_some]
      exact hhost ▸ hheads.write_eq_self hoffset hsize
    refine ⟨hs.read hw hfound.device hnext hmemory hlengths rfl (fun o i r' q hr' hvalid hq => ?_)
      (.inl fun _ => id), fun h => hw.objects.trans (hsame h)⟩
    rcases hfair with hmatching | hclear
    · rw [hsame hmatching]
    · rw [hobjects]
      by_cases hplace : q = place
      · subst hplace
        have hinside := (Window.stop_eq_of_fits hadmits (haddressable q)).2
        rw [objectAt_modify_self]
        exact Window.cut_write_of_apart hinside (hclear o i r' q hr' hvalid hfound.place hq) bytes
      · rw [objectAt_modify_of_ne hplace]

/-! ## Transfers -/

/-- A transfer; if it is a read, of a window of which `P` holds. -/
def Operation.Transfers (P : Nat → Nat → Option Window → Prop) : Operation → Prop
  | .allocate .. | .copyIn .. | .streamIn .. => True
  | .streamOut object device window _ _ => P object device window
  | .validBuffer .. | .claim .. | .invalidate => False

/-- What transfers have made of a store, all of which have succeeded. `P` says what may be read
back. -/
inductive Transferred (P : Store → Nat → Nat → Option Window → Prop) (s₀ : Store) :
    Store → Prop where
  | start : Transferred P s₀ s₀
  | step {s s' : Store} {op : Operation} {event : Option EventId} (hs : Transferred P s₀ s)
    (hop : op.Transfers (P s))
      (hrun : (operate op).run s = (.ok event, s')) : Transferred P s₀ s'

/-- Records are right, and no object is as long as the largest 64-bit number. -/
structure Synced (s : Store) : Prop where
  trusty : s.Trusty fun r => r.valid = true
  reached : s.table.Reached
  addressable : ∀ place, Command.lengths s.context.objects place < maxWord64

/-- Step: records stay right through a transfer, and a transfer that reads nothing else back than
was sent changes no object. -/
theorem Synced.operate (hs : s.Synced) {op : Operation} (hop : op.Transfers s.Fair) :
    ((operate op).run s).2.Synced ∧
      (op.Transfers s.Matching → ((operate op).run s).2.context.objects = s.context.objects) := by
  have hstep : ∀ {Q : Prop}, (((Store.operate op).run s).2.Trusty fun r => r.valid = true) ∧ Q →
      ((Store.operate op).run s).2.Synced ∧ Q := by
    rintro Q ⟨htrusty, hQ⟩
    refine ⟨⟨htrusty, .operate op hs.reached, fun place => ?_⟩, hQ⟩
    rw [(Prod.mk.inj (extents_operate op s)).2]
    exact hs.addressable place
  refine hstep ?_
  cases op with
  | allocate object device window =>
    refine And.imp_right (fun h _ => h) ?_
    exact (allocating_of_run rfl).trusty hs.trusty (fun _ => id) (hs.reached.backed object device)
  | copyIn object device window wait =>
    refine And.imp_right (fun h _ => h) ?_
    exact (copying_of_run rfl).trusty hs.trusty (fun _ => id) (hs.reached.backed object device)
      fun _ _ => hs.addressable _
  | streamIn object device window wait =>
    rw [Store.operate, snd_run_bind_pure]
    refine And.imp_right (fun h _ => h) ?_
    exact (sending_of_run rfl).trusty hs.trusty (fun _ => id) (hs.reached.backed object device)
      fun _ _ => hs.addressable _
  | streamOut object device window wait blocking =>
    rw [Store.operate, snd_run_bind_pure]
    exact (fetching_of_run rfl).trusty hs.trusty hs.addressable hop
  | validBuffer | claim | invalidate => exact hop.elim

/-- Run: records stay right through any number of transfers. -/
theorem Transferred.synced {s₀ : Store} (h : Transferred Fair s₀ s) (hs : s₀.Synced) :
    s.Synced := by
  induction h with
  | start => exact hs
  | step _ hop hrun ih =>
    have hafter := (ih.operate hop).1
    rwa [hrun] at hafter

/-- Run: objects stay as they are as long as nothing else is read back than was sent. -/
theorem Transferred.objects_eq {s₀ : Store} (h : Transferred Matching s₀ s) (hs : s₀.Synced) :
    s.Synced ∧ s.context.objects = s₀.context.objects := by
  induction h with
  | start => exact ⟨hs, rfl⟩
  | @step s s' op event _ hop hrun ih =>
    have hfair : op.Transfers s.Fair := by
      cases op with
      | streamOut => exact .inl hop
      | _ => exact hop
    have hafter := ih.1.operate hfair
    rw [hrun] at hafter
    exact ⟨hafter.1, (hafter.2 hop).trans ih.2⟩

theorem trusty_new {c : Context} (hdevices : ∀ d ∈ c.devices, d.Quiet) :
    (Store.new c).Trusty P := by
  have hempty : ∀ {o i r}, (Store.new c).table.get? o i = some r → r.allocation = none := by
    intro o i r hr
    rw [Store.new, Table.get?_new] at hr
    split_ifs at hr
    rw [← Option.some.inj hr]
  refine ⟨hdevices, fun hr ha => ?_, fun ha _ _ => ?_⟩
  · cases (hempty hr).symm.trans ha
  · obtain ⟨r, hr, ha⟩ := Option.bind_eq_some_iff.1 ha
    cases (hempty hr).symm.trans ha

theorem synced_new {c : Context} (hdevices : ∀ d ∈ c.devices, d.RunsAtOnce)
    (hlengths : ∀ o ∈ c.objects, o.length < maxWord64) : (Store.new c).Synced := by
  refine ⟨trusty_new fun d hd => (hdevices d hd).atRest.toQuiet, .new _ _, fun place => ?_⟩
  rw [Command.lengths, objectAt]
  cases ho : (Store.new c).context.objects[place]? with
  | none => simp [HostObject.length, maxWord64, Numeral.pow2]
  | some o => exact hlengths o (List.mem_of_getElem? ho)

/-- Transfers alone do not corrupt objects as long as what is read back is what was sent. On devices
that run their commands at once, no object changes through transfers of any windows, all of which
succeed, if every window that is read back starts where the window starts that was last sent, and is
no longer. Windows may also be read back over bytes that no valid record says its buffer has: they
change there, but every valid record stays right about its buffer, and reading back what it has, or
a shorter start of it, succeeds and changes no object. Reading back another window puts the start of
the buffer there. -/
theorem transfers_keep_objects {c : Context} (hdevices : ∀ d ∈ c.devices, d.RunsAtOnce)
    (hlengths : ∀ o ∈ c.objects, o.length < maxWord64) :
    (∀ s, Transferred Matching (.new c) s → s.context.objects = c.objects) ∧
    ∀ s, Transferred Fair (.new c) s → ∀ object device r, s.table.get? object device = some r →
    r.valid = true →
      ∃ place a bytes, s.context.places[object]? = some place ∧ r.allocation = some a ∧
        s.context.buffer? device a.buffer = some bytes ∧
        let host := objectAt s.context.objects place
        host.Heads (r.span host) bytes ∧
        ∀ window wait blocking, let w := Command.range window host.length
          w.fits host.length = true →
          ∃ event s', (streamOut object device window wait blocking).run s = (.ok event, s') ∧
            s'.context.objects = s.context.objects.modify place
            (fun o => o.write w.offset (bytes.take w.size)) ∧
            (w.offset = (r.span host).offset → w.size ≤ (r.span host).size →
              s'.context.objects = s.context.objects) := by
  have hnew := synced_new hdevices hlengths
  refine ⟨fun s hs => (hs.objects_eq hnew).2, fun s htransferred object device r hr hvalid => ?_⟩
  have hs := htransferred.synced hnew
  obtain ⟨a, ha⟩ :=
    Option.isSome_iff_exists.1 ((hs.reached.backed object device r hr).buffer hvalid)
  obtain ⟨bytes, hlive, hright⟩ := hs.trusty.right hr ha
  obtain ⟨place, hplace, hheads⟩ := hright hvalid
  obtain ⟨d, hd, -⟩ := id hlive
  have hlive := hlive.buffer?
  refine ⟨place, a, bytes, hplace, ha, hlive, hheads, fun window wait blocking hadmits => ?_⟩
  have hfound : s.Finds object device place d := ⟨hplace, hd⟩
  obtain ⟨event, t, text, hread, hrun⟩ :=
    exists_run_streamOut (hs.trusty.found hd) hfound hadmits hr ha hlive wait blocking
  obtain ⟨h, hw, -, -, -, hobjects⟩ :=
    hs.trusty.fetched hfound hadmits hlive hread Record.fetched text
  refine ⟨event, _, hrun, hw.objects.trans hobjects, fun hoffset hsize => ?_⟩
  have hmatching : s.Matching object device window := by
    intro r' place' hr' hplace'
    cases hr.symm.trans hr'
    cases hplace.symm.trans hplace'
    exact ⟨hvalid, hoffset, hsize⟩
  exact ((fetching_of_run hrun).trusty hs.trusty hs.addressable (.inl hmatching)).2 hmatching

/-- Four bytes in the middle of an object are sent, and the first two of them are read back over the
last two bytes of the object, which nobody has. After that the first three of the four are read
back, and nothing changes. -/
theorem transfers_keep_objects_middle :
    let s := operated [.streamIn 0 0 (some ⟨2, 4⟩) [], .streamOut 0 0 (some ⟨6, 2⟩) [] false] small
    s.context.objects = [⟨"a", [1, 2, 3, 4, 5, 6, 3, 4]⟩] ∧
      ∃ event s', (streamOut 0 0 (some ⟨2, 3⟩) [] true).run s = (.ok event, s') ∧
        s'.context.objects = [⟨"a", [1, 2, 3, 4, 5, 6, 3, 4]⟩] := by
  intro s
  let s₁ := operated [.streamIn 0 0 (some ⟨2, 4⟩) []] small
  have hdevices : ∀ d ∈ small.context.devices, d.RunsAtOnce := by
    intro d hd
    obtain rfl := List.mem_singleton.1 hd
    exact ⟨"d0", {}, .builtin, [], [], rfl, rfl⟩
  have hclear : s₁.Clear 0 (some ⟨6, 2⟩) := by
    intro o i r place hr _ hplace ho
    rcases o with _ | o <;> rcases i with _ | i <;> cases hr
    exact .inr (Nat.le_refl 6)
  have hsent : (operate (.streamIn 0 0 (some ⟨2, 4⟩) [])).run small = (.ok (some 1), s₁) :=
    Prod.ext rfl rfl
  have hfetched : (operate (.streamOut 0 0 (some ⟨6, 2⟩) [] false)).run s₁ = (.ok (some 2), s) :=
    Prod.ext rfl rfl
  have hboth : Transferred Fair (.new small.context) s := by
    refine .step (.step .start ?_ hsent) ?_ hfetched
    · exact trivial
    · exact .inr hclear
  obtain ⟨place, a, bytes, hplace, -, -, -, hread⟩ :=
    (transfers_keep_objects hdevices (by decide)).2 s hboth 0 0 _ rfl rfl
  cases hplace
  obtain ⟨event, s', hrun, -, hsame⟩ := hread (some ⟨2, 3⟩) [] true (by decide)
  exact ⟨rfl, event, s', hrun, hsame rfl (by decide)⟩

/-- The first two bytes of an object are sent. Its record is valid, and still the object changes
when they are read back over the next two. -/
theorem transfers_keep_objects_elsewhere :
    let s := operated [.streamIn 0 0 (some ⟨0, 2⟩) []] small
    s.table.get? 0 0 = some { allocation := some ⟨0, 2⟩, valid := true, window := some ⟨0, 2⟩ } ∧
      s.context.objects = [⟨"a", [1, 2, 3, 4, 5, 6, 7, 8]⟩] ∧
      ((streamOut 0 0 (some ⟨2, 2⟩) [] true).run s).1 = .ok 2 ∧
      ((streamOut 0 0 (some ⟨2, 2⟩) [] true).run s).2.context.objects =
      [⟨"a", [1, 2, 1, 2, 5, 6, 7, 8]⟩] :=
  ⟨rfl, rfl, rfl, rfl⟩

end Store

end Offload
