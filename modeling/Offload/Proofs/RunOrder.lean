import Offload.Proofs.DeviceTurns
import Offload.Proofs.HonouredWaits

/-!
# The order of linked commands on different devices

A command may wait for an event of another device. No device looks at that, so the two are run in
the order of the link exactly if the earlier one has been run when the later one is, or if both are
left to the end of a pass and the earlier one is on the device with the smaller index.
-/

namespace Offload

open EventStatus (Ended)

variable {event : EventId} {c : Context} {m : Machine} {x z : Moment}

/-! ## What has been run -/

namespace Context

variable {c' : Context} {index : Nat}

/-- The status of an event of a device. -/
def status? (index : Nat) (event : EventId) (c : Context) : Option EventStatus := do
  let d ← c.devices[index]?
  d.status? event

theorem status?_eq_some_iff {status : EventStatus} :
    c.status? index event = some status ↔
      ∃ d, c.devices[index]? = some d ∧ d.status? event = some status :=
  Option.bind_eq_some_iff

/-- A device has given out an event. -/
def Has (index : Nat) (event : EventId) (c : Context) :
    Prop := ∃ status, c.status? index event = some status

/-- The command of an event has been run. -/
def Done (index : Nat) (event : EventId) (c : Context) : Prop :=
  ∃ status, c.status? index event = some status ∧ status.Ended

theorem done_congr (h : c'.devices[index]? = c.devices[index]?) :
    c'.Done index event ↔ c.Done index event := by
  rw [Done, Done, status?, status?, h]

theorem has_congr (h : c'.devices[index]? = c.devices[index]?) :
    c'.Has index event ↔ c.Has index event := by
  rw [Has, Has, status?, status?, h]

theorem has_iff : c.Has index event ↔ ∃ d, c.devices[index]? = some d ∧ event < d.log.size := by
  constructor
  · rintro ⟨status, hstatus⟩
    obtain ⟨d, hd, hstatus⟩ := status?_eq_some_iff.1 hstatus
    exact ⟨d, hd, Device.lt_size_of_status? hstatus⟩
  · rintro ⟨d, hd, hlt⟩
    obtain ⟨status, hstatus⟩ := Device.exists_status?_of_lt hlt
    exact ⟨status, status?_eq_some_iff.2 ⟨d, hd, hstatus⟩⟩

theorem Later.exists_device {d : Device} (h : c.Later c') (hd : c.devices[index]? = some d) :
    ∃ d', c'.devices[index]? = some d' ∧ d.Moves (fun _ => True) Ended d' := by
  have hlt : index < c'.devices.length := by
    rw [h.length_eq]
    exact (List.getElem?_eq_some_iff.1 hd).1
  exact ⟨_, List.getElem?_eq_getElem hlt, h.device hd (List.getElem?_eq_getElem hlt)⟩

theorem Later.inLine (h : c.Later c') (hc : ∀ d ∈ c.devices, d.InLine) :
    ∀ d ∈ c'.devices, d.InLine := by
  intro d' hd'
  obtain ⟨i, hd'⟩ := List.mem_iff_getElem?.1 hd'
  have hlt : i < c.devices.length := by
    rw [← h.length_eq]
    exact (List.getElem?_eq_some_iff.1 hd').1
  have hd := List.getElem?_eq_getElem hlt
  exact Device.Moves.inLine (h.device hd hd') (hc _ (List.mem_of_getElem? hd))

theorem Done.later (h : c.Done index event) (hlater : c.Later c') (hc : ∀ d ∈ c.devices, d.InLine) :
    c'.Done index event := by
  obtain ⟨status, hstatus, hended⟩ := h
  obtain ⟨d, hd, hstatus⟩ := status?_eq_some_iff.1 hstatus
  obtain ⟨d', hd', hmoves⟩ := Later.exists_device hlater hd
  have hline := hc d (List.mem_of_getElem? hd)
  exact ⟨status, status?_eq_some_iff.2
    ⟨d', hd', Device.Moves.status?_eq hmoves hline hended hstatus⟩, hended⟩

theorem Has.later (h : c.Has index event) (hlater : c.Later c') : c'.Has index event := by
  obtain ⟨d, hd, hlt⟩ := has_iff.1 h
  obtain ⟨d', hd', hmoves⟩ := Later.exists_device hlater hd
  exact has_iff.2 ⟨d', hd', hlt.trans_le (Device.Moves.size_le hmoves)⟩

theorem Has.done (h : c.Has index event) (hc : ∀ d ∈ c.devices, d.InLine)
    (hqueue : ∀ d, c.devices[index]? = some d → d.queue = []) : c.Done index event := by
  obtain ⟨status, hstatus⟩ := h
  obtain ⟨d, hd, hstatus'⟩ := status?_eq_some_iff.1 hstatus
  have hline := hc d (List.mem_of_getElem? hd)
  obtain ⟨r, hr, rfl⟩ := Option.map_eq_some_iff.1 hstatus'
  refine ⟨r.status, hstatus, (hline.settled hr).resolve_left fun hqueued => ?_⟩
  have hmem := hline.mem_queue_iff.2 (hqueued ▸ hstatus')
  simp [hqueue d hd] at hmem

end Context

theorem Device.InLine.orderly {d : Device} (h : d.InLine) : d.Orderly :=
  ⟨fun _ hp => Device.lt_size_of_status? (h.mem_queue_iff.1 (List.mem_map_of_mem hp)), h.eager⟩

/-! ## Links -/

/-- An event of one device, and an event of another one that is to wait for it. -/
structure Link where
  source : Nat
  event : EventId
  target : Nat
  waiter : EventId

/-- The command that waits has not been run, or that for which it waits has been run too. -/
def Context.Honours (l : Link) (c : Context) : Prop :=
  c.Done l.target l.waiter → c.Done l.source l.event

/-- A deed that ends a pass. -/
def Deed.ends : Deed → Bool
  | .ending .. => true
  | .instruction .. | .invalidation => false

namespace Moment

open Machine

/-- The contexts through which a moment goes: those before and after it and, at the end of a pass,
those after each device that was waited for. -/
inductive Through (x : Moment) : Context → Prop
  | before : x.Through x.before.context
  | after : x.Through x.after.context
  | settled (kind : PassKind) (k : Nat) : x = .close .normal kind (.ok ()) x.before →
      k ≤ x.before.context.devices.length → x.Through (x.before.rewound.settled k).2.context

/-- The command of an event is run in a moment. -/
def Runs (index : Nat) (event : EventId) (x : Moment) : Prop :=
  ¬ x.before.context.Done index event ∧ x.after.context.Done index event

/-- A pass ends. -/
def Ends (x : Moment) : Prop := x.deed.ends = true

/-- If the command that waits is run, that for which it waits has been run before, or both are left
to the end of a pass and the devices have the right order. -/
def Ordered (l : Link) (x : Moment) : Prop :=
  x.Runs l.target l.waiter → x.before.context.Done l.source l.event ∨ x.Ends ∧ l.source < l.target

end Moment

/-- What is known of a link before a moment that may run its commands: both events have been given
out, unless the moment is the one that gives out the second, and the link is honoured so far. -/
structure Link.Open (l : Link) (x : Moment) : Prop where
  apart : l.source ≠ l.target
  event : x.before.context.Has l.source l.event
  waiter : x.Ends → x.before.context.Has l.target l.waiter
  honours : x.before.context.Honours l
  inLine : ∀ d ∈ x.before.context.devices, d.InLine
  settles : x.before.config.Settles

namespace Machine

variable {index k : Nat}

theorem later_settled (m : Machine) (k : Nat) : m.context.Later (m.settled k).2.context :=
  moves_of_meets (advances_settle m.config .empty (List.range k) trivial m fun _ => True)
    ⟨.refl _, rfl, trivial⟩

/-- What a device has given out has been run when the device has been waited for. -/
theorem done_settled (hconfig : m.config.Settles) (hline : ∀ d ∈ m.context.devices, d.InLine)
    (hhas : m.context.Has index event) {barrier : Event} (hok : (m.settled k).1 = .ok barrier)
    (hindex : index < k) : (m.settled k).2.context.Done index event :=
  (hhas.later (later_settled m k)).done (Context.Later.inLine (later_settled m k) hline) fun _ hd =>
    queue_settled hconfig (fun d hd => (hline d hd).orderly) hok hindex hd

/-- The turn of a device comes when all before it have been waited for. -/
theorem done_settled_of_lt (hconfig : m.config.Settles) (hline : ∀ d ∈ m.context.devices, d.InLine)
    (hhas : m.context.Has index event) {other : Nat} {event' : EventId} (hlt : index < other)
    (hnot : ¬ m.context.Done other event') (hdone : (m.settled k).2.context.Done other event') :
    (m.settled k).2.context.Done index event := by
  have hk : other < k := by
    by_contra hk
    exact hnot ((Context.done_congr (device_settled_of_le m (Nat.not_lt.1 hk))).1 hdone)
  rw [Context.done_congr (device_settled_of_lt m (hlt.trans hk))]
  cases hok : (m.settled (index + 1)).1 with
  | ok barrier => exact done_settled hconfig hline hhas hok (Nat.lt_succ_self _)
  | error fault =>
    -- The device with the larger index would have been left alone.
    rw [settled_of_error m hok (by omega)] at hdone
    exact absurd ((Context.done_congr (device_settled_of_le m hlt)).1 hdone) hnot

end Machine

namespace Link

open Machine

variable {l : Link}

theorem later_of_through (hlater : x.before.context.Later x.after.context) (hc : x.Through c) :
    x.before.context.Later c := by
  cases hc with
  | before => exact .refl _
  | after => exact hlater
  | settled kind k => exact later_settled x.before.rewound k

theorem runs_of_through {index : Nat} (hbefore : ¬ x.before.context.Done index event)
    (hc : x.Through c) (hdone : c.Done index event)
    (hline : ∀ d ∈ x.before.context.devices, d.InLine) : x.Runs index event := by
  refine ⟨hbefore, ?_⟩
  cases hc with
  | before => exact absurd hdone hbefore
  | after => exact hdone
  | settled kind k hx hk =>
    -- The device was waited for, and that is not taken back.
    have hlt : index < k := by
      by_contra hlt
      exact hbefore
        ((Context.done_congr (device_settled_of_le x.before.rewound (Nat.not_lt.1 hlt))).1 hdone)
    rw [Context.done_congr (device_settled_of_lt x.before.rewound hlt),
      ← Context.done_congr (device_settled_of_lt x.before.rewound (hlt.trans_le hk))] at hdone
    rw [hx]
    exact hdone.later (closing_settled kind x.before).1
      (Context.Later.inLine (later_settled x.before.rewound _) hline)

/-- What has been run after the end of a normal pass was run when the devices were waited for. -/
theorem done_settled_of_close {kind : PassKind} (hx : x = .close .normal kind (.ok ()) x.before)
    (hconfig : x.before.config.Settles) (hline : ∀ d ∈ x.before.context.devices, d.InLine)
    {index : Nat} (hhas : x.before.context.Has index event)
    (hafter : x.after.context.Done index event) :
    (x.before.rewound.settled x.before.context.devices.length).2.context.Done index event := by
  obtain ⟨d, hd, -⟩ := Context.has_iff.1 hhas
  cases hok : (x.before.rewound.settled x.before.context.devices.length).1 with
  | ok barrier => exact done_settled hconfig hline hhas hok (List.getElem?_eq_some_iff.1 hd).1
  | error fault =>
    have hdevices := (closing_settled kind x.before).2 fault hok
    rw [hx] at hafter
    exact (Context.done_congr (congrArg (fun devices => devices[index]?) hdevices)).1 hafter

/-- In a moment that keeps a link in order, the command that waits comes second, or it is run at the
end of a pass on a device with a larger index. -/
theorem Open.done_or_ends (h : l.Open x) (hlater : x.before.context.Later x.after.context)
    (hordered : x.Ordered l) (hc : x.Through c) (hdone : c.Done l.target l.waiter) :
    c.Done l.source l.event ∨ x.Runs l.target l.waiter ∧ x.Ends ∧ l.source < l.target := by
  by_cases hbefore : x.before.context.Done l.target l.waiter
  · exact .inl ((h.honours hbefore).later (later_of_through hlater hc) h.inLine)
  have hruns := runs_of_through hbefore hc hdone h.inLine
  rcases hordered hruns with hsource | hends
  · exact .inl (hsource.later (later_of_through hlater hc) h.inLine)
  · exact .inr ⟨hruns, hends⟩

theorem Open.honours_iff_of_close (h : l.Open x) {kind : PassKind}
    (hx : x = .close .normal kind (.ok ()) x.before) :
    (∀ c, x.Through c → c.Honours l) ↔ x.Ordered l := by
  have hends : x.Ends := by
    rw [hx]
    rfl
  have hwaiter := h.waiter hends
  have hsettled := later_settled x.before.rewound x.before.context.devices.length
  have hlater := (closing_settled kind x.before).1
  rw [← show x.after = ((closing .normal kind (.ok ())).run x.before).2 from congrArg
    Moment.after hx] at hlater
  constructor
  · rintro hhonours ⟨hbefore, hafter⟩
    rcases Nat.lt_trichotomy l.source l.target with hlt | heq | hgt
    · exact .inr ⟨hends, hlt⟩
    · exact absurd heq h.apart
    · -- The device of the command that waits has its turn first.
      obtain ⟨d, hd, -⟩ := Context.has_iff.1 hwaiter
      have htarget := (List.getElem?_eq_some_iff.1 hd).1
      have hlast := done_settled_of_close hx h.settles h.inLine hwaiter hafter
      rw [Context.done_congr (device_settled_of_lt x.before.rewound htarget)] at hlast
      have hsource := hhonours _ (.settled kind (l.target + 1) hx htarget) hlast
      exact .inl ((Context.done_congr (device_settled_of_le x.before.rewound hgt)).1 hsource)
  · intro hordered c hc hdone
    rcases h.done_or_ends (hsettled.trans hlater) hordered hc hdone with hsource | ⟨hruns, -, hlt⟩
    · exact hsource
    cases hc with
    | before => exact absurd hdone hruns.1
    | settled kind k =>
      exact done_settled_of_lt (m := x.before.rewound) h.settles h.inLine h.event hlt hruns.1 hdone
    | after =>
      have hlast := done_settled_of_close hx h.settles h.inLine hwaiter hdone
      have hsource := done_settled_of_lt (m := x.before.rewound) h.settles h.inLine h.event hlt
        hruns.1 hlast
      exact hsource.later hlater (Context.Later.inLine hsettled h.inLine)

theorem Open.honours_iff_of_apart (h : l.Open x) {index : Nat}
    (hapart : x.before.context.Apart index x.after.context) (hends : ¬ x.Ends)
    (hlater : x.before.context.Later x.after.context) :
    (∀ c, x.Through c → c.Honours l) ↔ x.Ordered l := by
  constructor
  · rintro hhonours ⟨hbefore, hafter⟩
    have hindex : l.target = index := by
      by_contra hindex
      exact hbefore ((Context.done_congr (hapart l.target hindex)).1 hafter)
    have hsource := hhonours _ .after hafter
    exact .inl ((Context.done_congr (hapart l.source (hindex ▸ h.apart))).1 hsource)
  · intro hordered c hc hdone
    rcases h.done_or_ends hlater hordered hc hdone with hsource | ⟨-, hend, -⟩
    · exact hsource
    · exact absurd hend hends

theorem Open.honours_iff_of_same (h : l.Open x)
    (hsame : x.after.context.devices = x.before.context.devices)
    (hlater : x.before.context.Later x.after.context) :
    (∀ c, x.Through c → c.Honours l) ↔ x.Ordered l := by
  have hruns : ¬ x.Runs l.target l.waiter := fun hruns =>
    hruns.1 ((Context.done_congr (by rw [hsame])).1 hruns.2)
  refine ⟨fun _ h => absurd h hruns, fun hordered c hc hdone => ?_⟩
  rcases h.done_or_ends hlater hordered hc hdone with hsource | ⟨hrun, -⟩
  · exact hsource
  · exact absurd hrun hruns

end Link

/-! ## Sessions -/

namespace Moment

/-- What every moment of a session is like. -/
structure Regular (x : Moment) : Prop where
  later : x.before.context.Later x.after.context
  sort : (∃ kind, x = .close .normal kind (.ok ()) x.before) ∨
    x.after.context.devices = x.before.context.devices ∨
    ¬ x.Ends ∧ ∃ index, x.before.context.Apart index x.after.context
  inLine : ∀ d ∈ x.before.context.devices, d.InLine
  settles : x.before.config.Settles

/-- A moment begins with the devices as another one has left them. -/
def Follows (x y : Moment) : Prop := y.before.context.devices = x.after.context.devices

end Moment

namespace Machine

open Moment (Follows)

theorem sort_of_mem_timeline {requests : List Request} (hx : x ∈ timeline requests m) :
    (∃ kind, x = .close .normal kind (.ok ()) x.before) ∨
      x.after.context.devices = x.before.context.devices ∨
      ¬ x.Ends ∧ ∃ index, x.before.context.Apart index x.after.context := by
  rcases eq_of_mem_timeline hx with ⟨mode, i, hcarry⟩ | ⟨mode, kind, body, hclose⟩ | hforget
  · refine .inr (.inr ⟨?_, ?_⟩)
    · rw [hcarry]
      exact Bool.false_ne_true
    · rw [hcarry]
      exact exists_apart_effect mode i x.before
  · cases body with
    | ok u =>
      cases mode with
      | normal => exact .inl ⟨kind, hclose⟩
      | warmup =>
        rw [hclose]
        exact .inr (.inl (devices_closing .warmup kind (.ok u) x.before))
    | error fault =>
      rw [hclose]
      exact .inr (.inl (devices_closing mode kind (.error fault) x.before))
  · rw [hforget]
    exact .inr (.inl rfl)

theorem regular_of_mem_timeline {code : Bytes} {config : Config} {c' : Context}
    (hc : ∀ d ∈ c.devices, d.InLine) (hm : (create code config).run c = (.ok m, c'))
    (hsettles : config.Settles) {requests : List Request} (hx : x ∈ timeline requests m) :
    x.Regular := by
  have hallows : m.config.Allows fun _ => True := ⟨trivial, fun _ _ => trivial⟩
  obtain ⟨past, future, hsplit⟩ := List.append_of_mem hx
  have hstanding := (lasting_standing hallows).before (standing_create hm) hsplit
  have hconfig : m.config = config := by
    obtain ⟨header, reader, hinitial⟩ := eq_initial_of_create hm
    exact congrArg Machine.config hinitial
  refine ⟨later_of_mem_timeline hx, sort_of_mem_timeline hx, ?_, ?_⟩
  · exact Context.Later.inLine ((moves_of_create hm).trans hstanding.moves) hc
  · rw [hstanding.config_eq, hconfig]
    exact hsettles

theorem isChain_timeline (requests : List Request) (m : Machine) :
    (timeline requests m).IsChain Follows := by
  let Left (past : List Moment) (m : Machine) : Prop :=
    past.IsChain Follows ∧ ∀ y ∈ past.getLast?, m.context.devices = y.after.context.devices
  have hadd : ∀ {past : List Moment} {x : Moment}, Left past x.before →
      Left (past ++ [x]) x.after := by
    rintro past x ⟨hchain, hlast⟩
    refine ⟨List.isChain_append.2 ⟨hchain, .singleton x, fun y hy z hz => ?_⟩, fun y hy => ?_⟩
    · obtain rfl : x = z := by simpa using hz
      exact hlast y hy
    · obtain rfl : x = y := by simpa using hy
      rfl
  have hlasting : Lasting Left :=
    lasting_of_aside (fun _ _ _ _ _ => id) (fun mode i h => hadd (x := .carry mode i _) h)
      (fun mode kind body h => hadd (x := .close mode kind body _) h) fun h =>
      hadd (x := .forget _) h
  have hstart : Left [] m := ⟨.nil, fun y hy => by simp at hy⟩
  exact (hlasting.session requests hstart).2.1

end Machine

namespace Link

open Machine
open Moment (Follows)

variable {l : Link} {y : Moment}

theorem Open.honours_iff (h : l.Open x) (hx : x.Regular) :
    (∀ c, x.Through c → c.Honours l) ↔ x.Ordered l := by
  rcases hx.sort with ⟨kind, hclose⟩ | hsame | ⟨hends, index, hapart⟩
  · exact h.honours_iff_of_close hclose
  · exact h.honours_iff_of_same hsame hx.later
  · exact h.honours_iff_of_apart hapart hends hx.later

/-- A link that is honoured through a moment is open for the next one. -/
theorem Open.next (h : l.Open x) (hx : x.Regular) (hwaiter : x.after.context.Has l.target l.waiter)
    (hhonours : x.after.context.Honours l) (hfollows : Follows x y) (hy : y.Regular) :
    l.Open y where
  apart := h.apart
  event := (Context.has_congr (by rw [hfollows])).2 (h.event.later hx.later)
  waiter _ := (Context.has_congr (by rw [hfollows])).2 hwaiter
  honours hdone := by
    have hsame : ∀ index : Nat,
        y.before.context.devices[index]? = x.after.context.devices[index]? :=
      fun index => by rw [hfollows]
    exact (Context.done_congr (hsame _)).2 (hhonours ((Context.done_congr (hsame _)).1 hdone))
  inLine := hy.inLine
  settles := hy.settles

/-- From the moment in which the second event is given out on. -/
theorem Open.honours_iff_of_chain {future : List Moment} (h : l.Open x)
    (hwaiter : x.after.context.Has l.target l.waiter) (hregular : ∀ y ∈ x :: future, y.Regular)
    (hchain : (x :: future).IsChain Follows) :
    (∀ y ∈ x :: future, ∀ c, y.Through c → c.Honours l) ↔ ∀ y ∈ x :: future, y.Ordered l := by
  induction future generalizing x with
  | nil =>
    rw [List.forall_mem_singleton, List.forall_mem_singleton]
    exact h.honours_iff (hregular x List.mem_cons_self)
  | cons y future ih =>
    rw [List.forall_mem_cons, List.forall_mem_cons (a := x) (l := y :: future)]
    obtain ⟨hfollows, htail⟩ := List.isChain_cons_cons.1 hchain
    have hx := hregular x List.mem_cons_self
    have hy := hregular y (by simp)
    rw [← h.honours_iff hx]
    refine and_congr_right fun hhonours => ?_
    have hopen := h.next hx hwaiter (hhonours _ .after) hfollows hy
    have hgiven : y.before.context.Has l.target l.waiter :=
      (Context.has_congr (by rw [hfollows])).2 hwaiter
    exact ih hopen (hgiven.later hy.later) (fun z hz => hregular z (List.mem_cons_of_mem x hz))
      htail

theorem later_of_chain {between future : List Moment}
    (hchain : (x :: (between ++ y :: future)).IsChain Follows)
    (hbetween : ∀ z ∈ between, z.Regular) :
    x.after.context.Later y.before.context := by
  induction between generalizing x with
  | nil => exact (Context.Moves.refl _).congr (List.isChain_cons_cons.1 hchain).1
  | cons z between ih =>
    obtain ⟨hfollows, htail⟩ := List.isChain_cons_cons.1 hchain
    have hz : x.after.context.Later z.before.context := (Context.Moves.refl _).congr hfollows
    exact (hz.trans (hbetween z List.mem_cons_self).later).trans
      (ih htail fun w hw => hbetween w (List.mem_cons_of_mem z hw))

/-- The first event is given out in one moment, and in another one, by an instruction, the second
event, which is recorded as waiting for the first one. -/
structure Made (l : Link) (x z : Moment) : Prop where
  apart : l.source ≠ l.target
  before : ¬ x.before.context.Has l.source l.event
  after : x.after.context.Has l.source l.event
  instruction : ∃ mode i outcome, z.deed = .instruction mode i outcome
  waits : ∃ wait, z.before.context.Submitted l.target wait z.after.context l.waiter ∧ l.event ∈ wait

/-- A link as it can be read off two moments. -/
theorem made_of_status (hapart : l.source ≠ l.target)
    (hbefore : x.before.context.status? l.source l.event = none)
    (hafter : x.after.context.status? l.source l.event = some .queued) {mode : PassMode}
    {i : Instruction} {outcome : Except Fault (Option Note)}
    (hdeed : z.deed = .instruction mode i outcome) {n : Nat}
    (hsize : z.before.context.devices[l.target]?.map (fun d => d.log.size) = some n)
    (hn : n ≤ l.waiter) {kind : EventKind} {wait : List EventId} (hkind : kind ≠ .allocate)
    (hissued : (z.after.context.devices[l.target]?.bind fun d => d.log.issued[l.waiter]?) =
      some (kind, wait)) (hwait : l.event ∈ wait) : l.Made x z := by
  obtain ⟨d, hd, hsize⟩ := Option.map_eq_some_iff.1 hsize
  obtain ⟨d', hd', hissued⟩ := Option.bind_eq_some_iff.1 hissued
  refine ⟨hapart, ?_, ⟨_, hafter⟩, ⟨_, _, _, hdeed⟩, wait, ?_, hwait⟩
  · rintro ⟨status, hstatus⟩
    rw [hbefore] at hstatus
    cases hstatus
  · exact ⟨d, d', kind, hd, hd', hsize.trans_le hn, hkind, hissued⟩

theorem Made.has (h : l.Made x z) :
    ¬ z.before.context.Has l.target l.waiter ∧ z.after.context.Has l.target l.waiter := by
  obtain ⟨wait, ⟨d, d', kind, hd, hd', hle, -, hissued⟩, -⟩ := h.waits
  constructor
  · intro hhas
    obtain ⟨d'', hd'', hlt⟩ := Context.has_iff.1 hhas
    rw [hd] at hd''
    cases hd''
    exact Nat.not_lt.2 hle hlt
  · have hlt := (List.getElem?_eq_some_iff.1 hissued).1
    exact Context.has_iff.2 ⟨d', hd', by simpa [EventLog.issued] using hlt⟩

theorem Made.open (h : l.Made x z) (hz : z.Regular)
    (hevent : z.before.context.Has l.source l.event) :
    l.Open z where
  apart := h.apart
  event := hevent
  waiter hends := by
    obtain ⟨mode, i, outcome, hdeed⟩ := h.instruction
    rw [Moment.Ends, hdeed] at hends
    cases hends
  honours hdone := by
    obtain ⟨status, hstatus, -⟩ := hdone
    exact absurd ⟨status, hstatus⟩ h.has.1
  inLine := hz.inLine
  settles := hz.settles

end Link

namespace Machine

open Moment (Follows)

/-- When a link between two devices is honoured. An event of a device is given out in a session, and
later an event of another device that is recorded as waiting for it. The commands of the two are run
in this order, wherever one looks in the rest of the session, exactly if every moment that runs the
second one finds the first one run, or ends a pass and the first device has the smaller index. It is
always so if the first device is eager. -/
theorem link_honoured_iff {code : Bytes} {config : Config} {c c' : Context} {m : Machine}
    (hc : ∀ d ∈ c.devices, d.InLine) (hm : (create code config).run c = (.ok m, c'))
    (hon : config.useDependencies = true) {requests : List Request}
    {past between future : List Moment} {x z : Moment}
    (htimeline : timeline requests m = past ++ x :: (between ++ z :: future)) {l : Link}
    (hl : l.Made x z) :
    ((∀ y ∈ z :: future, ∀ c, y.Through c → c.Honours l) ↔ ∀ y ∈ z :: future, y.Ordered l) ∧
      ((∃ d, x.after.context.devices[l.source]? = some d ∧ d.options.deferred = false) →
        ∀ y ∈ z :: future, ∀ c, y.Through c → c.Honours l) := by
  have hregular : ∀ y ∈ past ++ x :: (between ++ z :: future), y.Regular := fun y hy =>
    regular_of_mem_timeline hc hm (.inr hon) (htimeline ▸ hy)
  have hchain : (x :: (between ++ z :: future)).IsChain Follows := by
    have hall := isChain_timeline requests m
    rw [htimeline] at hall
    exact hall.right_of_append
  have hfuture : ∀ y ∈ z :: future, y.Regular := fun y hy =>
    hregular y
      (List.mem_append_right past (List.mem_cons_of_mem x (List.mem_append_right between hy)))
  have hlater : x.after.context.Later z.before.context :=
    Link.later_of_chain hchain fun y hy => hregular y (by simp [hy])
  have hopen : l.Open z := hl.open (hfuture z List.mem_cons_self) (hl.after.later hlater)
  have hiff := hopen.honours_iff_of_chain hl.has.2 hfuture
    (hchain.tail.right_of_append)
  refine ⟨hiff, ?_⟩
  rintro ⟨d, hd, heager⟩
  -- An eager device has run what it has given out.
  have hx := hregular x (by simp)
  have hline : ∀ d ∈ x.after.context.devices, d.InLine := Context.Later.inLine hx.later hx.inLine
  have hdone : x.after.context.Done l.source l.event := by
    refine hl.after.done hline fun d' hd' => ?_
    rw [hd] at hd'
    cases hd'
    exact (hline d (List.mem_of_getElem? hd)).eager heager
  refine hiff.2 fun y hy _ => .inl ?_
  obtain ⟨front, rest, hsplit⟩ := List.append_of_mem hy
  have hfront : (x :: ((between ++ front) ++ y :: rest)).IsChain Follows := by
    rw [hsplit] at hchain
    simpa using hchain
  refine hdone.later (Link.later_of_chain hfront fun w hw => hregular w ?_) hline
  rw [hsplit]
  rcases List.mem_append.1 hw with hw | hw
  · simp [hw]
  · simp [hw]

/-- Two deferred devices, and a write to the second that waits for one to the first. Both are run at
the end of the pass, one after the other. -/
theorem link_honoured_iff_deferred :
    let p : Program := ⟨⟨2, 0, 1, []⟩,
      [.transfer .streamIn 0 0 none none, .addDep 0, .transfer .streamIn 0 1 (some 0) none,
        .finish]⟩
    let c : Context := {
      devices := [(Station.opened "first" { deferred := true } .builtin []).device,
        (Station.opened "second" { deferred := true } .builtin []).device]
      objects := [⟨"a", [1, 0, 0, 0]⟩]
      constants := []
      tasks := [] }
    let l : Link := ⟨0, 1, 1, 1⟩
    ∃ m c' x z between future, (create p.encode { useDependencies := true }).run c = (.ok m, c') ∧
      timeline [.pass .normal .plain] m = x :: (between ++ z :: future) ∧ l.Made x z ∧
      (∀ y ∈ z :: future, ∀ c, y.Through c → c.Honours l) ∧
        ∃ y ∈ future, y.Runs l.target l.waiter := by
  intro p c l
  let moments (m : Machine) := timeline [.pass .normal .plain] m
  have hrun : (((create p.encode { useDependencies := true }).outcome c).toOption.map fun m =>
      decide ( (moments m).map Moment.deed = [
        .instruction .normal (.transfer .streamIn 0 0 none none) (.ok none),
        .instruction .normal (.addDep 0) (.ok none),
        .instruction .normal (.transfer .streamIn 0 1 (some 0) none) (.ok none),
        .instruction .normal .finish (.ok none),
        .ending .normal .plain (.ok { id := some 2, kind := .marker, status := .complete })] ∧
      (moments m).map (fun y : Moment =>
        (y.before.context.status? 0 1, y.after.context.status? 0 1)) =
          [(none, some .queued), (some .queued, some .queued), (some .queued, some .queued),
            (some .queued, some .queued), (some .queued, some .complete)] ∧
      (moments m).map (fun y : Moment =>
        (y.before.context.status? 1 1, y.after.context.status? 1 1)) =
          [(none, none), (none, none), (none, some .queued), (some .queued, some .queued),
            (some .queued, some .complete)] ∧
      (moments m)[2]?.map (fun y : Moment => y.before.context.devices[1]?.map fun d => d.log.size) =
        some (some 0) ∧
      (moments m)[2]?.map (fun y : Moment => y.after.context.devices[1]?.bind fun d =>
        d.log.issued[1]?) = some (some (.write, [1])))) = some true := by
    decide +kernel
  obtain ⟨m, c', hm, hread⟩ := Action.exists_run_of_read hrun
  obtain ⟨hdeeds, hfirst, hsecond, hsize, hissued⟩ := of_decide_eq_true hread
  obtain ⟨x, _, htimeline, -, hdeeds⟩ := List.map_eq_cons_iff.1 hdeeds
  obtain ⟨dep, _, rfl, -, hdeeds⟩ := List.map_eq_cons_iff.1 hdeeds
  obtain ⟨z, _, rfl, hz, hdeeds⟩ := List.map_eq_cons_iff.1 hdeeds
  obtain ⟨stop, _, rfl, -, hdeeds⟩ := List.map_eq_cons_iff.1 hdeeds
  obtain ⟨last, _, rfl, hlast, hdeeds⟩ := List.map_eq_cons_iff.1 hdeeds
  obtain rfl := List.map_eq_nil_iff.1 hdeeds
  rw [htimeline] at hfirst hsecond hsize hissued
  simp only [List.map_cons, List.map_nil, List.cons.injEq, Prod.mk.injEq, and_true]
    at hfirst hsecond
  obtain ⟨⟨hxbefore, hxafter⟩, -⟩ := hfirst
  obtain ⟨-, -, ⟨-, hzafter⟩, ⟨-, hstop⟩, hlastbefore, hlastafter⟩ := hsecond
  have hwaiting : ∀ c : Context, c.status? 1 1 = some .queued → ¬ c.Done 1 1 := by
    rintro c hc ⟨status, hstatus, hended⟩
    rw [hc] at hstatus
    cases hstatus
    simp [Ended] at hended
  have hmade : l.Made x z :=
    Link.made_of_status Nat.zero_ne_one hxbefore hxafter hz (Option.some.inj hsize) (Nat.zero_le 1)
      (by decide) (Option.some.inj hissued) (List.mem_singleton_self _)
  have hc : ∀ d ∈ c.devices, d.InLine := by
    intro d hd
    rcases List.mem_pair.1 hd with rfl | rfl
    · exact Station.opened_inLine _ _ _ _
    · exact Station.opened_inLine _ _ _ _
  have hsplit : timeline [.pass .normal .plain] m = [] ++ x :: ([dep] ++ z :: [stop, last]) :=
    htimeline
  have hhonours := (link_honoured_iff hc hm rfl hsplit hmade).1.2
  refine ⟨m, c', x, z, [dep], [stop, last], hm, htimeline, hmade, hhonours fun y hy hruns => ?_,
    last, by simp, hwaiting _ hlastbefore, .complete, hlastafter, .inl rfl⟩
  simp only [List.mem_cons, List.not_mem_nil, or_false] at hy
  rcases hy with rfl | rfl | rfl
  · exact absurd hruns.2 (hwaiting _ hzafter)
  · exact absurd hruns.2 (hwaiting _ hstop)
  · refine .inr ⟨?_, Nat.zero_lt_one⟩
    rw [Moment.Ends, hlast]
    rfl

/-- The read of a deferred device waits, and the write of an eager device that is to wait for it is
run: it sends the bytes that the object had before the launch. -/
theorem link_overtaken :
    let p : Program := ⟨⟨2, 1, 1, []⟩,
      [.transfer .copyIn 0 1 none none, .launch 0 1 0 none none [.reference 0],
        .transfer (.streamOut false) 0 1 none none, .addDep 0,
        .transfer .streamIn 0 0 (some 0) none, .finish]⟩
    let c : Context := {
      devices := [(Station.opened "first" {} .builtin []).device,
        (Station.opened "second" { deferred := true } .builtin []).device]
      objects := [⟨"a", [1, 0, 0, 0]⟩]
      constants := []
      tasks := [{ name := "add_one", accesses := [.readWrite] }] }
    let l : Link := ⟨1, 3, 0, 1⟩
    ∃ m c' past x between z future, (create p.encode { useDependencies := true }).run c =
      (.ok m, c') ∧ timeline [.pass .normal .plain] m = past ++ x :: (between ++ z :: future) ∧
      l.Made x z ∧ z.after.context.status? l.target l.waiter = some .complete ∧
      z.after.context.status? l.source l.event = some .queued ∧
      ((runPass .normal .plain).after m).context.devices.map (fun d => d.memory.get? 0) =
        [some [1, 0, 0, 0], some [2, 0, 0, 0]] := by
  intro p c l
  let moments (m : Machine) := timeline [.pass .normal .plain] m
  have hrun : (((create p.encode { useDependencies := true }).outcome c).toOption.map fun m =>
      decide ( (moments m).map Moment.deed = [
        .instruction .normal (.transfer .copyIn 0 1 none none) (.ok none),
        .instruction .normal (.launch 0 1 0 none none [.reference 0]) (.ok none),
        .instruction .normal (.transfer (.streamOut false) 0 1 none none) (.ok none),
        .instruction .normal (.addDep 0) (.ok none),
        .instruction .normal (.transfer .streamIn 0 0 (some 0) none) (.ok none),
        .instruction .normal .finish (.ok none),
        .ending .normal .plain (.ok { id := some 4, kind := .marker, status := .complete })] ∧
      (moments m)[2]?.map (fun x : Moment =>
        (x.before.context.status? 1 3, x.after.context.status? 1 3)) = some (none, some .queued) ∧
      (moments m)[4]?.map (fun z : Moment =>
        (z.after.context.status? 0 1, z.after.context.status? 1 3)) =
          some (some .complete, some .queued) ∧
      (moments m)[4]?.map (fun z : Moment => z.before.context.devices[0]?.map fun d => d.log.size) =
        some (some 0) ∧
      (moments m)[4]?.map (fun z : Moment => z.after.context.devices[0]?.bind fun d =>
        d.log.issued[1]?) = some (some (.write, [3])) ∧
      ((runPass .normal .plain).after m).context.devices.map (fun d => d.memory.get? 0) =
        [some [1, 0, 0, 0], some [2, 0, 0, 0]])) = some true := by
    decide +kernel
  obtain ⟨m, c', hm, hread⟩ := Action.exists_run_of_read hrun
  obtain ⟨hdeeds, hfirst, hsecond, hsize, hissued, hmemory⟩ := of_decide_eq_true hread
  obtain ⟨copy, _, htimeline, -, hdeeds⟩ := List.map_eq_cons_iff.1 hdeeds
  obtain ⟨launched, _, rfl, -, hdeeds⟩ := List.map_eq_cons_iff.1 hdeeds
  obtain ⟨x, _, rfl, -, hdeeds⟩ := List.map_eq_cons_iff.1 hdeeds
  obtain ⟨dep, _, rfl, -, hdeeds⟩ := List.map_eq_cons_iff.1 hdeeds
  obtain ⟨z, future, rfl, hz, -⟩ := List.map_eq_cons_iff.1 hdeeds
  rw [htimeline] at hfirst hsecond hsize hissued
  obtain ⟨hxbefore, hxafter⟩ := Prod.mk.inj (Option.some.inj hfirst)
  obtain ⟨hwaiter, hevent⟩ := Prod.mk.inj (Option.some.inj hsecond)
  have hmade : l.Made x z :=
    Link.made_of_status (by decide) hxbefore hxafter hz (Option.some.inj hsize) (Nat.zero_le 1)
      (by decide) (Option.some.inj hissued) (List.mem_singleton_self _)
  exact ⟨m, c', [copy, launched], x, [dep], z, future, hm, htimeline, hmade, hwaiter,
    hevent, hmemory⟩

end Machine

end Offload
