import Offload.Proofs.Agreement
import Offload.Proofs.DeferredDevice

/-!
# Devices in another guise

A guise changes the options and the counters of a device in a way that its work does not see: the
guise may be put on before the work or after, with the same result. A device and the same device in
a guise do the same work with the same outcomes, and so do two devices that look the same in a
guise.
-/

namespace Offload

open Offload.Action

/-- A change of options and counters that the work of a device does not see. Compiling is no work
here. -/
structure Guise where
  options : DeviceOptions → DeviceOptions
  counters : Counters → Counters
  deferred_eq : ∀ o, (options o).deferred = o.deferred
  counted : ∀ (f : Counters → Counters),
    (∀ c compilations, f { c with compilations } = { f c with compilations }) →
      ∀ c, f (counters c) = counters (f c)

/-- The device in a guise. -/
def Device.inGuise (d : Device) (g : Guise) : Device :=
  { d with options := g.options d.options, counters := g.counters d.counters }

namespace Station

variable {g : Guise} (buffer : BufferId) (object : Nat) (window : Option Window)
  (wait : List EventId) (event : EventId)

/-- The second station has the first one's device in a guise, and a journal of its own. -/
def Image (g : Guise) (s t : Station) :
    Prop := ∃ journal, t = ⟨s.device.inGuise g, s.objects, journal⟩

theorem Image.onDevice {s t : Station} (h : Image g s t) {f : Device → Device}
    (hf : ∀ d : Device, f (d.inGuise g) = (f d).inGuise g) :
    Image g (s.onDevice f) (t.onDevice f) := by
  obtain ⟨journal, rfl⟩ := h
  refine ⟨journal, ?_⟩
  simp only [Station.onDevice, hf]

theorem respects_image_count {f : Counters → Counters}
    (hf : ∀ c compilations, f { c with compilations } = { f c with compilations }) :
    Respects (Image g) (count f) := by
  refine respects_modify fun _ _ h => h.onDevice fun d => ?_
  simp only [Device.inGuise, g.counted f hf]

theorem respects_image_perform (c : Command) : Respects (Image g) (perform event c) := by
  rw [respects_iff]
  rintro s _ ⟨journal, rfl⟩
  exact ⟨rfl, journal, rfl⟩

theorem respects_image_submit (kind : EventKind) (label : String) (wait : List EventId)
    (c : Command) :
    Respects (Image g) (submit kind label wait c) := by
  rintro s _ ⟨journal, rfl⟩
  have hdeferred := g.deferred_eq s.device.options
  have hrecorded : Image g (s.recorded kind label wait)
      (Station.recorded kind label wait ⟨s.device.inGuise g, s.objects, journal⟩) := ⟨_, rfl⟩
  cases hs : s.device.options.deferred with
  | true =>
    rw [run_submit_deferred kind label wait c hs,
      run_submit_deferred kind label wait c (hdeferred.trans hs)]
    exact ⟨rfl, hrecorded.onDevice (f := fun d => { d with queue := d.queue ++ _ }) fun _ => rfl⟩
  | false =>
    rw [run_submit_eager kind label wait c hs,
      run_submit_eager kind label wait c (hdeferred.trans hs)]
    exact respects_bind (respects_image_perform _ c) (fun _ => respects_pure) _ _ hrecorded

theorem Image.runThrough (last : Option EventId) (queue : List Pending) {s t : Station}
    (h : Image g s t) :
    (Station.runThrough last queue s).1 = (Station.runThrough last queue t).1 ∧
      Image g (Station.runThrough last queue s).2 (Station.runThrough last queue t).2 := by
  induction queue generalizing s t with
  | nil => exact ⟨rfl, h.onDevice (f := fun d => { d with queue := [] }) fun _ => rfl⟩
  | cons p rest ih =>
    obtain ⟨houtcome, hstation⟩ := respects_iff.1 (respects_image_perform p.event p.command) _ _
      (h.onDevice (f := fun d => { d with queue := rest }) fun _ => rfl)
    rw [Station.runThrough, Station.runThrough]
    revert houtcome hstation
    rw [Action.run, Action.run]
    rcases perform p.event p.command (s.onDevice fun d => { d with queue := rest }) with ⟨r, s⟩
    rcases perform p.event p.command (t.onDevice fun d => { d with queue := rest }) with ⟨r', t⟩
    intro houtcome hstation
    obtain rfl : r = r' := houtcome
    obtain ⟨hfault, hlater⟩ := ih hstation
    by_cases hlast : last = some p.event
    · simpa only [hlast, if_true, true_and] using hstation
    · simp only [hlast, if_false, hfault, true_and]
      exact hlater

theorem respects_image_drain (last : Option EventId) : Respects (Image g) (drain last) := by
  rw [respects_iff]
  intro s t h
  have hqueue : t.device.queue = s.device.queue := by
    obtain ⟨journal, rfl⟩ := h
    rfl
  obtain ⟨hfault, hstation⟩ := h.runThrough last s.device.queue
  simp only [Action.run, drain, hqueue]
  revert hfault hstation
  generalize s.device.queue = queue
  rcases Station.runThrough last queue s with ⟨fault, s'⟩
  rcases Station.runThrough last queue t with ⟨fault', t'⟩
  intro hfault hstation
  obtain rfl : fault = fault' := hfault
  cases fault with
  | none => exact ⟨rfl, hstation⟩
  | some fault => exact ⟨rfl, hstation⟩

theorem respects_image_load : Respects (Image g) load :=
  respects_modify fun _ _ h => h.onDevice fun _ => rfl

theorem respects_image_allocate (bytes : Nat) : Respects (Image g) (allocate object bytes) := by
  unfold allocate
  split
  · exact agrees_throw_bind
  · refine goes_get ?_
    rintro s _ ⟨journal, rfl⟩
    refine respects_bind
      (respects_modify fun _ _ h => h.onDevice fun _ => rfl) fun _ => ?_
    refine respects_bind (respects_image_count fun _ _ => rfl) fun _ => ?_
    refine respects_bind
      (respects_modify fun _ _ h => h.onDevice fun _ => rfl) fun _ => ?_
    exact respects_pure

theorem respects_image_release : Respects (Image g) (release buffer) := by
  refine respects_bind (respects_image_drain none) fun _ => goes_get ?_
  rintro s _ ⟨journal, rfl⟩
  show Respects (Image g) _
  split
  · exact respects_modify fun _ _ h => h.onDevice fun _ => rfl
  · exact respects_throw

theorem respects_image_checkWindow : Respects (Image g) (checkWindow object window) := by
  refine goes_get ?_
  rintro s _ ⟨journal, rfl⟩
  cases window with
  | none => exact respects_pure
  | some w => exact respects_ofExcept

theorem respects_image_write : Respects (Image g) (write buffer object window wait) := by
  refine respects_bind (respects_image_checkWindow object window) fun _ => ?_
  refine respects_bind (respects_image_count fun _ _ => rfl) fun _ => goes_get ?_
  rintro s _ ⟨journal, rfl⟩
  exact respects_image_submit _ _ _ _

theorem respects_image_read (blocking : Bool) :
    Respects (Image g) (read buffer object window wait blocking) := by
  refine respects_bind (respects_image_checkWindow object window) fun _ => ?_
  refine respects_bind (respects_image_count fun _ _ => rfl) fun _ => goes_get ?_
  rintro s _ ⟨journal, rfl⟩
  refine respects_bind (respects_image_submit _ _ _ _) fun event => ?_
  show Respects (Image g) _
  split
  · exact respects_bind (respects_image_drain _) fun _ => respects_pure
  · exact respects_pure

theorem respects_image_marker : Respects (Image g) (marker wait) :=
  respects_bind (respects_image_count fun _ _ => rfl) fun _ => respects_image_submit _ _ _ _

theorem respects_image_inspect : Respects (Image g) (inspect event) := by
  refine goes_get ?_
  rintro s _ ⟨journal, rfl⟩
  show Respects (Image g) _
  split
  · exact respects_pure
  · exact respects_throw

theorem respects_image_resolve : Respects (Image g) (resolve event) := by
  refine goes_get ?_
  rintro s _ ⟨journal, rfl⟩
  show Respects (Image g) _
  split
  · exact respects_bind (respects_image_drain _) fun _ => respects_image_inspect event
  · exact respects_image_inspect event

theorem respects_image_flush : Respects (Image g) flush :=
  respects_bind (respects_image_count fun _ _ => rfl) fun _ => respects_image_drain none

end Station

end Offload
