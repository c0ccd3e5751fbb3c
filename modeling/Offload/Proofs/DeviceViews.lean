import Offload.Proofs.DeviceMoves
import Offload.Proofs.StoreRules

/-!
# Views of devices

The work of a device, which is everything but compiling and being loaded, changes its memory, its
log, its queue and its counters, but not the number of its compilations. A view that sees none of
that does not see the work, nor does it see what a store does with its devices.
-/

namespace Offload

open Offload.Action

variable {α β : Type} {f : Device → β} {V : β → Prop}

/-- A view of devices that does not see their work. -/
def Device.Aloof (f : Device → β) : Prop :=
  ∀ (d : Device) memory nextBuffer log queue counters,
    counters.compilations = d.counters.compilations →
    f { d with memory, nextBuffer, log, queue, counters } = f d

namespace Station

/-- What the work of a device keeps: changes of its memory, its log, its queue and its counters, and
the running of commands. -/
structure Upkeep (I : Station → Prop) : Prop where
  device : ∀ (s : Station) memory nextBuffer log queue counters journal,
    counters.compilations = s.device.counters.compilations → I s →
      I ⟨{ s.device with memory, nextBuffer, log, queue, counters }, s.objects, journal⟩
  perform : ∀ event c s, I s → I (perform event c s).2

namespace Upkeep

variable {I : Station → Prop}

theorem drain (h : Upkeep I) (last : Option EventId) : Keeps I (drain last) :=
  keeps_drain_of_perform
    (fun s queue hs => h.device s s.device.memory s.device.nextBuffer s.device.log queue
      s.device.counters s.journal rfl hs) h.perform last

theorem count (h : Upkeep I) {g : Counters → Counters}
    (hg : ∀ c, (g c).compilations = c.compilations) :
    Keeps I (count g) :=
  keeps_modify fun s hs =>
    h.device s s.device.memory s.device.nextBuffer s.device.log s.device.queue
      (g s.device.counters) s.journal (hg _) hs

theorem submit (h : Upkeep I) (kind : EventKind) (label : String) (wait : List EventId)
    (c : Command) :
    Keeps I (submit kind label wait c) := by
  refine meets_get fun s hs => ?_
  refine meets_bind (Q := fun _ => I) (meets_set fun _ _ => ?_) fun _ => ?_
  · exact h.device s s.device.memory s.device.nextBuffer (s.device.record kind label wait).log
      s.device.queue s.device.counters _ rfl hs
  · dsimp only
    split
    · refine keeps_bind (keeps_modify fun s hs => ?_) fun _ => keeps_pure
      exact h.device s s.device.memory s.device.nextBuffer s.device.log _ s.device.counters
        s.journal rfl hs
    · exact keeps_bind (meets_iff_after.2 fun s hs => h.perform _ c s hs) fun _ => keeps_pure

theorem allocate (h : Upkeep I) (object bytes : Nat) : Keeps I (allocate object bytes) := by
  rw [Station.allocate]
  split
  · exact meets_throw_bind fun _ => id
  · refine keeps_get fun s => ?_
    refine keeps_bind (keeps_modify fun s hs => ?_) fun _ => ?_
    · exact h.device s _ _ s.device.log s.device.queue s.device.counters s.journal rfl hs
    refine keeps_bind (h.count fun _ => rfl) fun _ => ?_
    refine keeps_bind (keeps_modify fun s hs => ?_) fun _ => keeps_pure
    exact h.device s s.device.memory s.device.nextBuffer _ s.device.queue s.device.counters
      s.journal rfl hs

theorem release (h : Upkeep I) (buffer : BufferId) : Keeps I (release buffer) :=
  keeps_release_of_drain h.drain fun s hs =>
    h.device s _ s.device.nextBuffer s.device.log s.device.queue s.device.counters s.journal rfl hs

theorem write (h : Upkeep I) (buffer : BufferId) (object : Nat) (window : Option Window)
    (wait : List EventId) : Keeps I (write buffer object window wait) := by
  refine keeps_bind (keeps_checkWindow object window) fun _ => ?_
  refine keeps_bind (h.count fun _ => rfl) fun _ => ?_
  exact keeps_get fun s => h.submit _ _ _ _

theorem read (h : Upkeep I) (buffer : BufferId) (object : Nat) (window : Option Window)
    (wait : List EventId) (blocking : Bool) :
    Keeps I (read buffer object window wait blocking) := by
  refine keeps_bind (keeps_checkWindow object window) fun _ => ?_
  refine keeps_bind (h.count fun _ => rfl) fun _ => keeps_get fun s => ?_
  refine keeps_bind (h.submit _ _ _ _) fun event => ?_
  split
  · exact keeps_bind (h.drain _) fun _ => keeps_pure
  · exact keeps_pure

theorem launch (h : Upkeep I) (code : InstalledCode) (frame : CallFrame) (task : String)
    (window : Option Window) (wait : List EventId) :
    Keeps I (launch code frame task window wait) := by
  refine keeps_bind (h.count fun _ => rfl) fun _ => ?_
  refine keeps_bind (h.submit _ _ _ _) fun event => ?_
  exact keeps_get fun s => keeps_pure

theorem marker (h : Upkeep I) (wait : List EventId) : Keeps I (marker wait) :=
  keeps_bind (h.count fun _ => rfl) fun _ => h.submit _ _ _ _

theorem resolve (h : Upkeep I) (event : EventId) : Keeps I (resolve event) :=
  keeps_resolve_of_drain h.drain event

theorem flush (h : Upkeep I) : Keeps I flush :=
  keeps_bind (h.count fun _ => rfl) fun _ => h.drain none

end Upkeep

/-- What is known of the device of a station through a view. -/
abbrev Seen (f : Device → β) (V : β → Prop) (s : Station) : Prop := V (f s.device)

theorem upkeep_seen (hf : Device.Aloof f) : Upkeep (Seen f V) where
  device s memory nextBuffer log queue counters journal hcompilations hs := by
    rw [Seen, hf s.device memory nextBuffer log queue counters hcompilations]
    exact hs
  perform event c s hs := by
    obtain ⟨status, memory, hdevice, -⟩ := device_perform event c s
    have hview : f (perform event c s).2.device = f s.device := by
      rw [hdevice]
      exact hf s.device memory s.device.nextBuffer _ s.device.queue s.device.counters rfl
    rw [Seen, hview]
    exact hs

end Station

/-! ## Contexts and stores -/

theorem map_set_of_eq {f : α → β} {l : List α} {i : Nat} {a b : α} (ha : l[i]? = some a)
    (hb : f b = f a) : (l.set i b).map f = l.map f := by
  apply List.ext_getElem?
  intro j
  rw [List.getElem?_map, List.getElem?_map, List.getElem?_set]
  by_cases hj : i = j
  · subst hj
    obtain ⟨hlt, hget⟩ := List.getElem?_eq_some_iff.1 ha
    simp [hlt, hget, hb]
  · simp [hj]

/-- What is seen of the devices of a context, and what of it no operation of a store changes. -/
structure Context.View (β : Type) where
  devices : List β
  constants : List Scalar
  tasks : List Task
  places : List Nat

namespace Context

/-- The context as `f` sees its devices. -/
def view (f : Device → β) (c : Context) :
    View β := ⟨c.devices.map f, c.constants, c.tasks, c.places⟩

theorem view_withStation {c : Context} {index : Nat} {d : Device} {s : Station}
    (hd : c.devices[index]? = some d) (hs : f s.device = f d) :
    (c.withStation index s).view f = c.view f := by
  simp only [view, withStation, map_set_of_eq hd hs]

theorem keeps_view_onDevice {C : View β → Prop} {index : Nat} {x : DeviceAction α}
    (hx : ∀ V, Keeps (Station.Seen f V) x) : Keeps (fun c => C (c.view f)) (onDevice index x) := by
  refine Context.meets_onDevice (fun _ => id) fun c d hc hd => ?_
  refine meets_iff_after.2 ?_
  rintro _ rfl
  have hview := meets_iff_after.1 (hx (· = f d)) ⟨d, c.objects, c.journal⟩ rfl
  rw [view_withStation hd hview]
  exact hc

end Context

namespace Store

variable {C : Context.View β → Prop}

theorem keeps_view_onDevice {index : Nat} {x : DeviceAction α}
    (hx : ∀ V, Keeps (Station.Seen f V) x) :
    Keeps (fun s => C (s.context.view f)) (inContext (Context.onDevice index x)) := by
  refine meets_focus fun s hs => ?_
  refine meets_weaken (Context.keeps_view_onDevice (C := C) hx) ?_ (fun _ _ => id) fun _ => id
  rintro _ rfl
  exact hs

/-- A view that does not see the work of devices does not see the operations of a store. -/
theorem upkeep_view (hf : Device.Aloof f) (W : List EventId → Prop) :
    Upkeep W (fun s => C (s.context.view f)) (fun s => C (s.context.view f)) where
  fault _ hs := hs
  noted _ _ _ hs := hs
  table _ _ hs := hs
  allocate _ place bytes := keeps_view_onDevice fun _ =>
    (Station.upkeep_seen hf).allocate place bytes
  release _ buffer := keeps_view_onDevice fun _ => (Station.upkeep_seen hf).release buffer
  write _ buffer place window wait _ :=
    keeps_view_onDevice fun _ => (Station.upkeep_seen hf).write buffer place window wait
  read _ buffer place window wait blocking _ :=
    keeps_view_onDevice fun _ => (Station.upkeep_seen hf).read buffer place window wait blocking

end Store

end Offload
