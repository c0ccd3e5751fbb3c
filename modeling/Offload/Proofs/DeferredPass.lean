import Offload.Proofs.DeferredStore
import Offload.Proofs.LaunchRules

/-!
# Passes over a deferred device

A machine over a deferred device follows one over an eager device instruction by instruction, behind
it by its queue and by nothing else. At the end of a normal pass the machine waits for its device,
if its configuration says so, and has then caught up; a warm-up pass queues nothing. So a pass that
starts with both machines abreast and succeeds on the eager device ends with both machines abreast.
-/

namespace Offload

open Offload.Action

/-! ## Frames -/

/-- The frames of a pool name buffers with numbers below `n`. -/
abbrev FramePool.Below (n : BufferId) (p : FramePool) : Prop := p.All (CallFrame.Below n)

namespace CallFrame.Below

variable {n k : BufferId} {f : CallFrame}

theorem mono (h : f.Below n) (hnk : n ≤ k) : f.Below k :=
  fun object i label hi => Nat.lt_of_lt_of_le (h object i label hi) hnk

theorem of_arguments_eq_nil (h : f.arguments = []) : f.Below n := by
  intro object i label hi
  rw [h] at hi
  cases hi

theorem congr {g : CallFrame} (h : f.Below n) (hg : g.arguments = f.arguments) : g.Below n := by
  intro object i label hi
  rw [hg] at hi
  exact h object i label hi

theorem push (h : f.Below n) {id : Nat} {a : FrameArgument} {g : CallFrame}
    (ha : ∀ object i label, a = .reference object i label → i < n) (hg : f.push id a = .ok g) :
    g.Below n := by
  unfold CallFrame.push at hg
  split at hg
  · cases hg
  · cases hg
    intro object i label hi
    rcases List.mem_append.1 hi with hi | hi
    · exact h object i label hi
    · exact ha object i label (List.mem_singleton.1 hi).symm

end CallFrame.Below

theorem FramePool.Below.mono {n k : BufferId} {p : FramePool} (h : p.Below n) (hnk : n ≤ k) :
    p.Below k :=
  fun f hf => (h f hf).mono hnk

/-- The end of every normal pass waits for the devices, by a marker or by a flush. -/
def Config.Settles (config : Config) : Prop :=
  config.flushOnCompletion = true ∨ config.useDependencies = true

namespace Machine

/-! ## Two machines -/

/-- Two machines that differ in nothing but their stores, which are related. Their frames name
buffers with numbers below `n`, and they wait for their devices at the end of a pass. -/
def Over (n : BufferId) (R : Store → Store → Prop) (e m : Machine) : Prop :=
  ∃ store, R store m.store ∧ m.frames.Below n ∧ m.config.Settles ∧ e = { m with store }

/-- Two machines over one device each, whose stations are related. -/
abbrev Single (n : BufferId) (P : Station → Station → Prop) : Machine → Machine → Prop :=
  Over n (Store.Single n P)

/-- The machine `m` is behind the machine `e`, and the next buffer is `n`. -/
abbrev BehindAt (n : BufferId) : Machine → Machine → Prop := Single n (Station.Behind n)

/-- Two machines over one device each, whose stations are related at some next buffer. -/
def Related (P : BufferId → Station → Station → Prop) (e m : Machine) :
    Prop := ∃ n, Single n (P n) e m

/-- The machine `m` is behind the machine `e`. -/
abbrev Behind : Machine → Machine → Prop := Related Station.Behind

/-- The machine `m` is behind the machine `e` and has nothing in its queue. -/
abbrev Abreast : Machine → Machine → Prop := Related Station.Abreast

variable {α β : Type} {n : BufferId} {P : Station → Station → Prop} {R R' : Store → Store → Prop}
  {V : α → β → Prop} {e m : Machine} {mode : PassMode} {kind : PassKind}

theorem Over.mono (h : Over n R e m) (hR : ∀ e s, R e s → R' e s) : Over n R' e m := by
  obtain ⟨store, hstore, hframes, hconfig, rfl⟩ := h
  exact ⟨store, hR _ _ hstore, hframes, hconfig, rfl⟩

theorem Abreast.behind (h : Abreast e m) : Behind e m := by
  obtain ⟨n, hem⟩ := h
  exact ⟨n, hem.mono fun _ _ hes => hes.mono (Nat.le_refl n) fun _ _ hst => hst.1⟩

/-- A change of what is the same in both machines. -/
def Aside (f : Machine → Machine) : Prop :=
  ∀ m store, f { m with store } = { f m with store } ∧ (f m).store = m.store ∧
    (f m).frames = m.frames ∧ (f m).config = m.config

theorem Over.aside {f : Machine → Machine} (hf : Aside f) (h : Over n R e m) :
    Over n R (f e) (f m) := by
  obtain ⟨store, hR, hbelow, hsettles, rfl⟩ := h
  obtain ⟨hf, hstore, hframes, hconfig⟩ := hf m store
  refine ⟨store, ?_, ?_, ?_, hf⟩
  · rw [hstore]
    exact hR
  · rw [hframes]
    exact hbelow
  · rw [hconfig]
    exact hsettles

theorem tracks_modify {f : Machine → Machine} (hf : Aside f) :
    Tracks (Over n R) (modify f : MachineAction PUnit) :=
  goes_modify fun _ _ h => h.aside hf

theorem couples_inStore {x : StoreAction α} {y : StoreAction β} {S : α → β → Store → Store → Prop}
    (h : Couples .lenient R x y fun a b e s => V a b ∧ S a b e s) :
    Couples .lenient (Over n R) (inStore x) (inStore y) fun a b e m => V a b ∧
      Over n (S a b) e m := by
  refine couples_focus h ?_ ?_ False.elim
  · rintro _ m ⟨store, hR, -, -, rfl⟩
    exact hR
  · rintro a b _ m s t ⟨store, -, hframes, hconfig, rfl⟩ hab
    exact ⟨hab.1, s, hab.2, hframes, hconfig, rfl⟩

theorem couples_onDevice {index : Nat} {x : DeviceAction α} {y : DeviceAction β}
    {S : α → β → Station → Station → Prop}
    (h : Couples .lenient P x y fun a b s t => V a b ∧ S a b s t) :
    Couples .lenient (Single n P) (onDevice index x) (onDevice index y)
      fun a b e m => V a b ∧ Single n (S a b) e m :=
  couples_inStore (Store.couples_onDevice h)

theorem tracks_log (hP : Station.Steady P) (level : Level) (text : String) :
    Tracks (Single n P) (log level text) :=
  couples_inStore (Store.tracks_log hP level text)

theorem tracks_fetch (hP : Station.Steady P) (kind : PassKind) :
    Tracks (Single n P) (fetch kind) := by
  refine goes_fetch (fun _ => False.elim) ?_
    (fun reader hem => hem.aside (f := fun m => { m with reader }) fun _ _ => ⟨rfl, rfl, rfl, rfl⟩)
    (tracks_log hP _) kind
  rintro _ m ⟨store, -, -, -, rfl⟩
  exact ⟨rfl, rfl⟩

theorem conduct (n : BufferId) (P : Station → Station → Prop) :
    Conduct .lenient (Single n P) Eq where
  fault _ _ := False.elim
  length_devices := by
    rintro _ m ⟨_, ⟨context, hcontext, -, rfl⟩, -, -, rfl⟩
    exact hcontext.length_devices
  waitList list := by
    refine goes_get ?_
    rintro _ m ⟨store, -, -, -, rfl⟩
    exact tracks_ofExcept
  resetList list := by
    refine goes_get ?_
    rintro _ m ⟨store, -, -, -, rfl⟩
    exact goes_then tracks_ofExcept fun ledger =>
      tracks_modify fun _ _ => ⟨rfl, rfl, rfl, rfl⟩

/-! ## Launches -/

theorem tracks_resolveCode (hP : Station.Steady P) (task device : Nat) :
    Tracks (Single n P) (resolveCode task device) := by
  refine goes_resolveCode (fun _ _ => False.elim) ?_ ?_ ?_ ?_
  · rintro _ m ⟨store, -, -, -, rfl⟩
    exact ⟨rfl, rfl, rfl⟩
  · rintro _ m ⟨_, ⟨context, hcontext, -, rfl⟩, -, -, rfl⟩
    refine ⟨?_, hcontext.length_devices⟩
    rcases hcontext.devices_or_none device with ⟨d', d, hd', hd, hes⟩ | ⟨hd', hd⟩
    · show (m.store.context.devices[device]?).map _ = context.devices[device]?.map _
      rw [hd', hd]
      exact congrArg some (hP.kernels hes)
    · show (m.store.context.devices[device]?).map _ = context.devices[device]?.map _
      rw [hd', hd]
  · rintro _ m ⟨_, ⟨_, ⟨d', objects, journal, d, -, -, rfl⟩, -, rfl⟩, -, -, rfl⟩
    rfl
  · rintro _ m d₁ d₂ found write
      ⟨_, ⟨_, ⟨d', objects, journal, d, hone, hes, rfl⟩, htable, rfl⟩, hframes, hconfig, rfl⟩ hd₁
      hd₂
    have hone : m.context.devices = [d] := hone
    cases device with
    | succ device => cases hd₁
    | zero =>
      obtain rfl := Option.some.inj hd₁
      rw [hone] at hd₂
      obtain rfl := Option.some.inj hd₂
      have hnext := hP.journal (hP.count hes fun c => { c with compilations := c.compilations + 1 })
        write
      refine ⟨_, ⟨_, ⟨asked d', objects, write journal, asked d, ?_, hnext, rfl⟩, htable, rfl⟩,
        hframes, hconfig, rfl⟩
      rw [compiled, hone]
      rfl

theorem leads_resolveFrame (frame count : Nat) :
    Leads (Over n R) (resolveFrame frame count) (resolveFrame frame count) fun f f' => f = f' ∧
      f.Below n := by
  refine goes_get ?_
  rintro e m ⟨store, -, hframes, -, rfl⟩
  refine goes_bind (V := fun a b => a = b ∧ a.1.Below n ∧ a.2.Below n)
    (leads_ofExcept fun a ha => ⟨a, ha, rfl, hframes.resolve (.of_arguments_eq_nil rfl) ha⟩) ?_
  rintro ⟨f, frames⟩ _ ⟨rfl, hf, hbelow⟩
  refine goes_then (goes_modify ?_) fun _ => goes_pure ⟨rfl, hf⟩
  rintro _ m ⟨store, hR, -, hconfig, rfl⟩
  exact ⟨store, hR, hbelow, hconfig, rfl⟩

theorem tracks_putFrame {f : CallFrame} (hf : f.Below n) (id : Nat) :
    Tracks (Over n R) (putFrame id f) := by
  refine goes_modify ?_
  rintro _ m ⟨store, hR, hframes, hconfig, rfl⟩
  exact ⟨store, hR, hframes.put hf id, hconfig, rfl⟩

theorem filling (n : BufferId) (frame device : Nat) : Filling .lenient (BehindAt n) (· < n)
    (fun _ f f' => f = f' ∧ f.Below n) frame device where
  fault _ _ := False.elim
  constant index h := by
    obtain ⟨_, ⟨_, ⟨d', objects, journal, d, -, -, rfl⟩, -, rfl⟩, -, -, rfl⟩ := h
    rfl
  buffer object := couples_inStore (Store.sight n object device).validBuffer
  label object := couples_inStore (Store.sight n object device).label
  claim object := couples_inStore (Store.sight n object device).claim
  push {k f f' a} ha hf := by
    obtain ⟨rfl, hf⟩ := hf
    cases hg : f.push frame a with
    | error fault => rfl
    | ok g => exact ⟨rfl, hf.push ha hg⟩
  overflow _ _ _ := False.elim
  put hf := by
    obtain ⟨rfl, hf⟩ := hf
    exact tracks_putFrame hf frame

theorem tracks_submitLaunch (entry : CacheEntry) (t : Task) (frame device task : Nat)
    (events : Option Nat) (window : Option Window) {f : CallFrame} (hf : f.Below n) :
    Tracks (BehindAt n) (submitLaunch entry t frame device task events window f) := by
  refine (conduct n _).submitLaunch (X := fun a b => a = b ∧ a.2.Below n) (fun hm hwait => ?_)
    (fun hX => ?_) fun hm hX => ?_
  · obtain ⟨store, -, -, -, rfl⟩ := hm
    obtain rfl := hwait
    refine couples_weaken
      (couples_onDevice (couples_weaken (Station.follows_launch hf t.name window _) (fun _ _ => id)
        (Q := fun a b e s => (a = b ∧ a.2.Below n) ∧ Station.Behind n e s) ?_))
      (fun _ _ => id) ?_
    · exact fun a b e s hes => ⟨⟨hes.1, hf.congr hes.2.2⟩, hes.2.1⟩
    · rintro a _ e m ⟨⟨rfl, hbelow⟩, hem⟩
      exact ⟨⟨rfl, hbelow⟩, hem.aside (f := fun m => { m with lastEvent := some a.1 })
        fun _ _ => ⟨rfl, rfl, rfl, rfl⟩⟩
  · obtain ⟨rfl, hbelow⟩ := hX
    exact tracks_putFrame hbelow frame
  · obtain ⟨store, -, -, -, rfl⟩ := hm
    obtain ⟨rfl, -⟩ := hX
    rw [pend, pend]
    split
    · exact tracks_modify fun _ _ => ⟨rfl, rfl, rfl, rfl⟩
    · exact goes_pure rfl

/-- A launch. In a warm-up pass it may start from any steady relation, for it queues nothing. -/
theorem tracks_launch (hP : Station.Steady P) (hwork : mode = .normal → P = Station.Behind n)
    (frame device task : Nat) (events : Option Nat) (window : Option Window)
    (arguments : List Argument) :
    Tracks (Single n P) (launch mode frame device task events window arguments) := by
  refine goes_launch (fun _ _ => False.elim) ?_ (tracks_resolveCode hP task device)
    (goes_launchWith (H := fun f f' => f = f' ∧ f.Below n) (fun _ => rfl) (fun _ _ => False.elim)
      (leads_resolveFrame frame _) (fun text => tracks_log hP _ text) ?_ ?_ ?_)
  · rintro _ m ⟨_, ⟨context, hcontext, -, rfl⟩, -, -, rfl⟩
    exact hcontext.alike_device device
  · rintro _ m ⟨_, ⟨_, ⟨d', objects, journal, d, -, -, rfl⟩, -, rfl⟩, -, -, rfl⟩
    exact (alike_eq_iff.2 rfl).mono fun t t' ht => ht ▸ rfl
  -- Only here may a command go into the queue.
  · rintro hmode t t' f _ ht ⟨rfl, hf⟩
    obtain rfl := hwork hmode
    exact (filling n frame device).fillFrame ht rfl ⟨rfl, hf⟩
      ⟨rfl, CallFrame.Below.of_arguments_eq_nil rfl⟩
  · rintro hmode entry t t' f _ ht ⟨rfl, hf⟩
    obtain rfl := hwork hmode
    have hsame : submitLaunch entry t' frame device task events window f =
        submitLaunch entry t frame device task events window f := by
      simp only [submitLaunch, Task.name_eq ht, Task.profiling_eq ht]
    rw [hsame]
    exact tracks_submitLaunch entry t frame device task events window hf

/-! ## Instructions -/

variable {P Q : BufferId → Station → Station → Prop}

theorem couples_related {x : MachineAction α} {y : MachineAction β}
    (h : ∀ n, Couples .lenient (Single n (P n)) x y fun a b e m => V a b ∧ Single n (Q n) e m) :
    Couples .lenient (Related P) x y fun a b e m => V a b ∧ Related Q e m := by
  rintro e m ⟨n, hem⟩
  exact couples_weaken (h n) (fun _ _ => id) (fun _ _ _ _ hem => ⟨hem.1, n, hem.2⟩) e m hem

theorem Related.aside {f : Machine → Machine} (hf : Aside f) (h : Related P e m) :
    Related P (f e) (f m) := by
  obtain ⟨n, hem⟩ := h
  exact ⟨n, hem.aside hf⟩

theorem leads_inStore {x : StoreAction α} {y : StoreAction β}
    (h : ∀ n, Leads (Store.BehindFrom n) x y V) :
    Leads Behind (inStore x) (inStore y) V := by
  rintro e m ⟨n, hem⟩
  refine couples_weaken (R := Over n (Store.BehindFrom n)) (couples_inStore (h n))
    (fun _ _ => id) ?_ e m (hem.mono fun _ _ hes => ⟨n, Nat.le_refl n, hes⟩)
  rintro a b e m ⟨hab, store, ⟨k, hnk, hstore⟩, hframes, hconfig, rfl⟩
  exact ⟨hab, k, store, hstore, hframes.mono hnk, hconfig, rfl⟩

theorem conduct_behind : Conduct .lenient Behind Eq where
  fault _ _ := False.elim
  length_devices := by
    rintro e m ⟨n, hem⟩
    exact (conduct n _).length_devices hem
  waitList list := couples_related fun n => (conduct n _).waitList list
  resetList list := couples_related fun n => (conduct n _).resetList list

theorem tracks_perform (i : Instruction) : Tracks Behind (perform i) := by
  refine conduct_behind.performs (V := Eq) (E := Eq) (fun _ => rfl) (fun wait wait' hwait => ?_)
    (fun {e m event _} hevents hem => ?_) fun list hi => ?_
  · refine leads_inStore fun n => i.goes_work (Store.site n) (fun {wait _} hwait => ?_) hwait
    obtain rfl := hwait
    exact Store.leads_from fun k =>
      Store.couples_onDevice
        (couples_weaken (Station.follows_marker wait) (fun _ _ => id) fun _ _ _ _ hes =>
          ⟨hes.1, hes.2.1⟩)
  · obtain rfl := Store.Site.eq_of_rel_eq hevents
    exact hem.aside (f := fun m => { m with lastEvent := event }) fun _ _ => ⟨rfl, rfl, rfl, rfl⟩
  · subst hi
    refine goes_addDep (fun _ _ => False.elim) ?_ fun {e m event ledger} hem _ _ =>
      hem.aside (f := fun m => { m with ledger }) fun _ _ => ⟨rfl, rfl, rfl, rfl⟩
    rintro _ m ⟨n, store, -, -, -, rfl⟩
    exact ⟨rfl, rfl⟩

theorem Related.noted (h : Related P e m) (mode : PassMode) (i : Instruction) (note : Option Note) :
    Related P (e.noted mode i note) (m.noted mode i note) := by
  unfold Machine.noted
  split
  · exact h.aside (f := fun m => { m with trace := m.trace ++ [⟨i, note⟩] }) fun _ _ =>
      ⟨rfl, rfl, rfl, rfl⟩
  · exact h

/-- The body of a pass. A warm-up pass keeps any steady relation; a normal pass keeps `Behind`. -/
theorem tracks_runBody (hP : ∀ n, Station.Steady (P n))
    (hwork : mode = .normal → P = Station.Behind) (kind : PassKind) (fuel : Nat) :
    Tracks (Related P) (runBody mode kind fuel) := by
  refine goes_runBody (V := Eq) ?_ (couples_related fun n => tracks_fetch (hP n) kind) (fun i => ?_)
    (fun {e m note _} i hnote hem => ?_) fuel
  · rintro _ m ⟨n, store, -, -, -, rfl⟩
    exact ⟨rfl, False.elim⟩
  · refine goes_effect (fun _ => rfl)
      (fun frame device task events window arguments _ => couples_related fun n =>
      tracks_launch (hP n) (fun hmode => congrFun (hwork hmode) n) frame device task events
        window arguments)
      fun hmode => ?_
    obtain rfl := hwork hmode
    exact tracks_perform i
  · obtain rfl := hnote
    exact hem.noted mode i note

/-! ## Passes -/

/-- A marker is behind all that was submitted, so whoever has waited for it has caught up. -/
theorem follows_awaitMarker (config : Config) (barrier : Event) :
    Follows Behind (awaitMarker config 0 barrier) (awaitMarker config 0 barrier)
      fun _ e m => Behind e m ∧ (config.useDependencies = true → Abreast e m) := by
  unfold awaitMarker
  split
  · have hmarker : Follows Behind
        (onDevice 0 (Station.marker []) >>= fun marker => onDevice 0 (Station.resolve marker))
        (onDevice 0 (Station.marker []) >>= fun marker => onDevice 0 (Station.resolve marker))
        fun _ => Abreast := couples_related fun n =>
      follows_bind (S := fun marker => Single n fun e s => Station.Behind n e s ∧ s.Newest marker)
        (couples_onDevice (Station.follows_marker [])) fun marker =>
          couples_onDevice (Station.follows_resolve_newest marker)
    exact couples_weaken hmarker (fun _ _ => id) fun _ _ _ _ h => ⟨h.1, h.2.behind, fun _ => h.2⟩
  · rename_i hdependencies
    exact follows_pure fun _ _ h => ⟨h, fun hon => absurd hon hdependencies⟩

theorem follows_flushDevice {config : Config} (hconfig : config.Settles) :
    Follows (fun e m => Behind e m ∧ (config.useDependencies = true → Abreast e m))
      (flushDevice config 0) (flushDevice config 0) fun _ => Abreast := by
  unfold flushDevice
  split
  · have hflush : Follows Behind (onDevice 0 Station.flush) (onDevice 0 Station.flush)
        fun _ => Abreast := couples_related fun n => couples_onDevice Station.follows_flush
    exact couples_weaken hflush (fun _ _ h => h.1) fun _ _ _ _ => id
  · rename_i hflush
    exact follows_pure fun _ _ h => h.2 (hconfig.resolve_left hflush)

theorem tracks_collect (pending : List PendingProfile) : Tracks Abreast (collect pending) := by
  induction pending with
  | nil => exact goes_pure rfl
  | cons p others ih =>
    refine goes_then (couples_related fun n =>
      couples_onDevice (Station.tracks_resolve_abreast p.event)) fun event => ?_
    split
    · refine goes_get ?_
      rintro e m ⟨n, store, ⟨context, ⟨d', objects, journal, d, -, -, rfl⟩, -, rfl⟩, -, -, rfl⟩
      refine goes_then tracks_ofExcept fun t => ?_
      exact goes_then (couples_related fun _ => tracks_modify fun _ _ => ⟨rfl, rfl, rfl, rfl⟩)
        fun _ => ih
    · exact ih

theorem follows_finish : Follows Behind finish finish fun _ => Abreast := by
  refine goes_get ?_
  rintro e m ⟨n, store, ⟨context, ⟨d', objects, journal, d, hd, -, rfl⟩, -, rfl⟩, -, hconfig, rfl⟩
  -- There is one device, so this is the list of devices to wait for.
  have hrange : List.range m.context.devices.length = [0] := by
    rw [show m.context.devices = [d] from hd]
    rfl
  rw [hrange]
  have hsettle : Follows Behind (settle m.config .empty [0]) (settle m.config .empty [0]) fun _ =>
      Abreast :=
    follows_bind (follows_awaitMarker m.config _) fun _ =>
      follows_bind (follows_flushDevice hconfig) fun _ => goes_pure rfl
  refine follows_bind hsettle fun barrier => goes_get ?_
  rintro e m ⟨n, store, hstore, hframes, hconfig, rfl⟩
  refine goes_then (goes_set ⟨n, store, hstore, hframes, hconfig, rfl⟩) fun _ => ?_
  exact goes_then (tracks_collect m.pending) fun _ => goes_pure rfl

theorem tracks_reportTrace (mode : PassMode) (kind : PassKind) :
    Tracks Abreast (reportTrace mode kind) := by
  refine goes_get ?_
  rintro e m ⟨n, store, -, -, -, rfl⟩
  split
  · exact couples_related fun n => tracks_log (Station.steady_abreast n) _ _
  · exact goes_pure rfl

/-- A pass that stays with `P` within its body and catches up when it waits for the device. -/
theorem tracks_runPass_of_body (hP : ∀ n, Station.Steady (P n))
    (hwork : mode = .normal → P = Station.Behind) (hidle : mode = .warmup → P = Station.Abreast)
    (hstart : ∀ {e m}, Abreast e m → Related P e m) :
    Tracks Abreast (runPass mode kind) := by
  refine goes_runPass (R := Related P) (fun {e m} hem => ⟨?_, ?_⟩)
    (fun fuel => tracks_runBody hP hwork kind fuel)
    (couples_closing ?_ (fun _ _ => False.elim) (fun hmode => ?_) (fun hmode {e m} hem => ?_) ?_
      (tracks_reportTrace mode kind) False.elim) False.elim
  · obtain ⟨n, store, -, -, -, rfl⟩ := hem
    rfl
  · exact (hstart hem).aside (f := begun) fun _ _ => ⟨rfl, rfl, rfl, rfl⟩
  · exact fun h => h.aside (f := fun m => { m with reader := m.reader.reset }) fun _ _ =>
      ⟨rfl, rfl, rfl, rfl⟩
  · obtain rfl := hwork hmode
    exact follows_finish
  · obtain rfl := hidle hmode
    exact hem
  · exact fun h => h.aside (f := fun m => { m with timing := m.timing.record 0 }) fun _ _ =>
      ⟨rfl, rfl, rfl, rfl⟩

/-- A warm-up pass stays abreast all the way; a normal pass falls behind and catches up. -/
theorem tracks_runPass (mode : PassMode) (kind : PassKind) :
    Tracks Abreast (runPass mode kind) := by
  cases mode with
  | warmup => exact tracks_runPass_of_body Station.steady_abreast nofun (fun _ => rfl) fun h => h
  | normal => exact tracks_runPass_of_body Station.steady_behind (fun _ => rfl) nofun Abreast.behind

theorem tracks_serve (request : Request) : Tracks Abreast (serve request) := by
  cases request with
  | pass mode kind => exact tracks_runPass mode kind
  | invalidate =>
    refine goes_then (goes_modify ?_) fun _ => goes_pure rfl
    rintro _ m ⟨n, store, hstore, hframes, hconfig, rfl⟩
    exact ⟨n, store.invalidate, hstore.invalidate, hframes, hconfig, rfl⟩

end Machine

end Offload
