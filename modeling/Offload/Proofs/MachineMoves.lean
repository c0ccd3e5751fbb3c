import Offload.Proofs.DeviceMoves
import Offload.Proofs.PassSafety

/-!
# What happens to the devices of a machine

Instructions and the ends of passes are sequences of moves of the devices. What they submit waits
for the events of the list that the instruction names and for nothing else, and the event lists
change as the instruction says. If no fault is reported, no command has failed.
-/

namespace Offload

open Offload.Action

open EventStatus (Succeeded Ended)

variable {α : Type} {W W' : List EventId → Prop} {F F' : EventStatus → Prop}

namespace Context

/-- The devices of `c'` are those of `c` at a later time. -/
structure Moves (W : List EventId → Prop) (F : EventStatus → Prop) (c c' : Context) : Prop where
  length_eq : c'.devices.length = c.devices.length
  device : ∀ {index : Nat} {d d' : Device}, c.devices[index]? = some d →
    c'.devices[index]? = some d' → d.Moves W F d'

namespace Moves

variable {c₀ c c' : Context}

theorem refl (c : Context) : Moves W F c c := by
  refine ⟨rfl, fun hd hd' => ?_⟩
  cases hd.symm.trans hd'
  exact .refl

theorem trans (h : Moves W F c₀ c) (h' : Moves W F c c') : Moves W F c₀ c' := by
  refine ⟨h'.length_eq.trans h.length_eq, fun {index d d'} hd hd' => ?_⟩
  have hlt : index < c.devices.length := by
    rw [h.length_eq]
    exact (List.getElem?_eq_some_iff.1 hd).1
  have hmiddle := List.getElem?_eq_getElem hlt
  exact (h.device hd hmiddle).trans (h'.device hmiddle hd')

theorem mono (h : Moves W F c c') (hW : ∀ wait, W wait → W' wait)
    (hF : ∀ status, F status → F' status) : Moves W' F' c c' :=
  ⟨h.length_eq, fun hd hd' => (h.device hd hd').mono hW hF⟩

theorem ended (h : Moves W Succeeded c c') : Moves W Ended c c' :=
  h.mono (fun _ => id) fun _ hstatus => hstatus.ended

theorem congr (h : Moves W F c₀ c) (hdevices : c'.devices = c.devices) : Moves W F c₀ c' :=
  ⟨hdevices ▸ h.length_eq, fun hd hd' => h.device hd (hdevices ▸ hd')⟩

/-- The device of one station moves on. -/
theorem withStation (h : Moves W F c₀ c) {index : Nat} {d : Device} {s : Station}
    (hd : c₀.devices[index]? = some d) (hs : d.Moves W F s.device) :
    Moves W F c₀ (c.withStation index s) := by
  refine ⟨by simpa [Context.withStation] using h.length_eq, fun {i d' d''} hd' hd'' => ?_⟩
  simp only [Context.withStation, List.getElem?_set] at hd''
  split_ifs at hd'' with hi hlt
  · subst hi
    cases hd.symm.trans hd'
    exact Option.some.inj hd'' ▸ hs
  · exact h.device hd' hd''

end Moves

theorem upholds_onDevice {index : Nat} {x : DeviceAction α} {c₀ : Context}
    (hF : ∀ status, F status → F' status)
    (hx : ∀ d : Device, Upholds (fun s => d.Moves W F s.device)
      (fun s => d.Moves W F' s.device) x) :
    Upholds (c₀.Moves W F) (c₀.Moves W F') (onDevice index x) := by
  refine Context.meets_onDevice (fun c hc => hc.mono (fun _ => id) hF) fun c d hc hd => ?_
  have hlt : index < c₀.devices.length := by
    rw [← hc.length_eq]
    exact (List.getElem?_eq_some_iff.1 hd).1
  have hd₀ := List.getElem?_eq_getElem hlt
  refine meets_weaken (hx c₀.devices[index]) ?_ (fun _ _ hs => hc.withStation hd₀ hs)
    fun _ hs => (hc.mono (fun _ => id) hF).withStation hd₀ hs
  rintro _ rfl
  exact hc.device hd₀ hd

end Context

/-! ## Stores -/

namespace Store

variable {wait : List EventId}

/-- An operation of a store is a sequence of moves of its devices. -/
def Advances (W : List EventId → Prop) (x : StoreAction α) : Prop :=
  ∀ c : Context, Upholds (fun s => c.Moves W Succeeded s.context)
    (fun s => c.Moves W Ended s.context) x

theorem ended_of_succeeded {c : Context} (s : Store) (hs : c.Moves W Succeeded s.context) :
    c.Moves W Ended s.context :=
  hs.ended

theorem meets_inContext {x : Action Context Fault α} {P E : Context → Prop} {Q : α → Context → Prop}
    (hx : Meets P x Q E) :
    Meets (fun s => P s.context) (inContext x) (fun a s => Q a s.context)
      (fun s => E s.context) := by
  refine meets_focus fun s hs => ?_
  refine meets_weaken hx ?_ (fun _ _ => id) fun _ => id
  rintro _ rfl
  exact hs

theorem upholds_inContext {x : Action Context Fault α} {I E : Context → Prop}
    (hx : Upholds I E x) :
    Upholds (fun s => I s.context) (fun s => E s.context) (inContext x) :=
  meets_inContext hx

theorem advances_onDevice {index : Nat} {x : DeviceAction α} (hx : Station.Advances W x) :
    Advances W (inContext (Context.onDevice index x)) := fun _ =>
  upholds_inContext (Context.upholds_onDevice (fun _ hstatus => hstatus.ended) hx)

/-- What a store does moves its devices, with waits in `W`. -/
theorem upkeep_moves (c : Context) : Upkeep W (fun s => c.Moves W Succeeded s.context)
    (fun s => c.Moves W Ended s.context) where
  fault := ended_of_succeeded
  noted _ _ _ hs := hs.congr rfl
  table _ _ hs := hs
  allocate _ place bytes := advances_onDevice (Station.advances_allocate place bytes) c
  release _ buffer := advances_onDevice (Station.advances_release buffer) c
  write _ buffer place window _ hwait :=
    advances_onDevice (Station.advances_write buffer place window hwait) c
  read _ buffer place window _ blocking hwait :=
    advances_onDevice (Station.advances_read buffer place window hwait blocking) c

theorem advances_work (i : Instruction) (hwait : W wait) : Advances W (i.work wait) := fun c =>
  (upkeep_moves c).work (fun _ hwait => advances_onDevice (Station.advances_marker hwait) c) i hwait

end Store

/-! ## Machines -/

namespace Machine

variable {m₀ : Machine} {L : EventLedger → Prop}

/-- `m` is `m₀` at a later time: the devices have moved, the configuration is the same, and the
event lists are in `L`. -/
structure Since (W : List EventId → Prop) (F : EventStatus → Prop) (m₀ : Machine)
    (L : EventLedger → Prop) (m : Machine) : Prop where
  moves : m₀.context.Moves W F m.context
  config_eq : m.config = m₀.config
  ledger : L m.ledger

theorem Since.ended {m : Machine} (h : Since W Succeeded m₀ L m) : Since W Ended m₀ L m :=
  ⟨h.moves.ended, h.config_eq, h.ledger⟩

theorem moves_of_meets {P : Machine → Prop} {x : MachineAction α} {L : α → EventLedger → Prop}
    {L' : EventLedger → Prop} {m : Machine}
    (hx : Meets P x (fun a => Since W Succeeded m₀ (L a)) (Since W Ended m₀ L')) (hm : P m) :
    m₀.context.Moves W Ended (x.run m).2.context :=
  hx.after hm (fun _ _ hm => hm.moves.ended) fun _ hm => hm.moves

/-- An operation of a machine is a sequence of moves of its devices and leaves the event lists
alone. -/
def Advances (W : List EventId → Prop) (x : MachineAction α) : Prop :=
  ∀ m L, Upholds (Since W Succeeded m L) (Since W Ended m L) x

theorem ended_of_succeeded (m : Machine) (hm : Since W Succeeded m₀ L m) : Since W Ended m₀ L m :=
  hm.ended

theorem upholds_inStore {x : StoreAction α} (hx : Upholds (fun s => m₀.context.Moves W F s.context)
      (fun s => m₀.context.Moves W F' s.context) x) :
    Upholds (Since W F m₀ L) (Since W F' m₀ L) (inStore x) := by
  refine meets_focus fun m hm => ?_
  refine meets_weaken hx ?_ (fun _ _ hs => ⟨hs, hm.config_eq, hm.ledger⟩)
    fun _ hs => ⟨hs, hm.config_eq, hm.ledger⟩
  rintro _ rfl
  exact hm.moves

theorem advances_inStore {x : StoreAction α} (hx : Store.Advances W x) : Advances W (inStore x) :=
  fun m _ => upholds_inStore (hx m.context)

theorem advances_onDevice {index : Nat} {x : DeviceAction α} (hx : Station.Advances W x) :
    Advances W (onDevice index x) :=
  advances_inStore (Store.advances_onDevice hx)

/-- A compilation, also one that fails, moves the device aside. -/
theorem keeps_since_resolveCode (task device : Nat) :
    Keeps (Since W F m₀ L) (resolveCode task device) := by
  refine keeps_resolveCode_of_install ?_ (fun name => ?_) fun _ _ _ hm => ?_
  · exact upholds_inStore (Store.upholds_inContext (upholds_modify fun _ hc => hc.congr rfl))
  · exact upholds_inStore (Store.upholds_inContext
      (Context.upholds_onDevice (fun _ => id) fun _ => Station.keeps_moves_install name))
  · exact ⟨hm.moves.congr rfl, hm.config_eq, hm.ledger⟩

/-! ### The end of a pass -/

theorem endUpholds_since (hW : W []) (m₀ : Machine) (L : EventLedger → Prop) :
    EndUpholds (Since W Succeeded m₀ L) (Since W Ended m₀ L) where
  marker _ := advances_onDevice (Station.advances_marker hW) m₀ L
  resolve _ event := advances_onDevice (Station.advances_resolve event) m₀ L
  flush _ := advances_onDevice Station.advances_flush m₀ L
  emptied _ hm := ⟨hm.moves, hm.config_eq, hm.ledger⟩
  profiled _ _ hm := ⟨hm.moves, hm.config_eq, hm.ledger⟩

theorem advances_settle (config : Config) (barrier : Event) (devices : List Nat) (hW : W []) :
    Advances W (settle config barrier devices) := fun m₀ L =>
  have hend := endUpholds_since hW m₀ L
  upholds_settle_of_devices (fun index _ => hend.marker index) (fun index _ => hend.resolve index)
    (fun index _ => hend.flush index) config barrier

theorem advances_collect (pending : List PendingProfile) (hW : W []) :
    Advances W (collect pending) := fun m₀ L =>
  upholds_of_goes (((endUpholds_since hW m₀ L).ending ended_of_succeeded).collect pending)

theorem meets_completion (mode : PassMode) (body : Except Fault Unit) (m : Machine) :
    Meets (· = m) (completion mode body)
      (fun _ => Since (· = []) Succeeded m (· = m.ledger))
      (Since (· = []) Ended m (· = m.ledger)) := by
  refine meets_bind (Q := fun _ => Since (· = []) Succeeded m (· = m.ledger))
    (meets_modify ?_) fun _ => ?_
  · rintro _ rfl
    exact ⟨.refl _, rfl, rfl⟩
  · refine upholds_bind (upholds_ofExcept ended_of_succeeded) fun _ => ?_
    cases mode with
    | normal => exact (endUpholds_since (W := (· = [])) rfl m _).finish ended_of_succeeded
    | warmup => exact upholds_pure

/-- The end of a pass submits nothing but markers, which wait for nothing. The event lists are as
before if the pass has succeeded and empty if it has failed. -/
theorem meets_closing (mode : PassMode) (kind : PassKind) (body : Except Fault Unit) (m : Machine) :
    Meets (· = m) (closing mode kind body)
      (fun _ => Since (· = []) Succeeded m (· = m.ledger))
      (Since (· = []) Ended m (· = m.ledger.clear)) := by
  rintro m rfl
  rw [run_closing]
  have hdone := meets_completion mode body m m rfl
  revert hdone
  rcases (completion mode body).run m with ⟨r, m'⟩
  intro hdone
  obtain ⟨journal, hrun⟩ := run_concluding mode kind r m'
  rw [hrun]
  cases r with
  | ok event =>
    cases mode <;> exact ⟨hdone.moves.congr rfl, hdone.config_eq, hdone.ledger⟩
  | error fault =>
    exact ⟨hdone.moves.congr rfl, hdone.config_eq, congrArg EventLedger.clear hdone.ledger⟩

end Machine

/-! ## Instructions and event lists -/

namespace EventLedger

variable {l l' : EventLedger}

/-- The events of a list; a missing list has none, and neither has any list of a ledger that is
switched off. -/
def content (l : EventLedger) : Option Nat → List EventId
  | some list => if l.enabled then (l.get? list).getD [] else []
  | none => []

theorem eq_content {list : Option Nat} {wait : List EventId} (h : l.waitList list = .ok wait) :
    wait = l.content list := by
  cases list with
  | none => exact (Except.ok.inj h).symm
  | some list =>
    rw [waitList] at h
    rw [content]
    split_ifs at h ⊢ with henabled
    · cases hlist : lookup .eventList l.slots list with
      | error fault =>
        rw [hlist] at h
        cases h
      | ok events =>
        rw [hlist] at h
        simp [get?, lists, lookup_eq_ok.1 hlist, ← Except.ok.inj h]
    · exact (Except.ok.inj h).symm

/-- The event lists after an instruction was carried out with a note, where `last` is the event of
the last operation. -/
def carried (l : EventLedger) (mode : PassMode) (i : Instruction) (note : Option Note)
    (last : Option EventId) : Except Fault EventLedger :=
  match mode, i with
  | .warmup, _ => .ok l
  | .normal, .addDep list =>
    match last with
    | some event => l.append list event
    | none => .ok l
  | .normal, i => if note = some .notCompiled then .ok l else l.reset i.waitsFor

theorem enabled_append {list : Nat} {event : EventId} (h : l.append list event = .ok l') :
    l'.enabled = l.enabled := by
  rcases append_cases h with ⟨-, rfl⟩ | ⟨_, _, -, -, -, rfl⟩ <;> rfl

theorem enabled_reset {list : Option Nat} (h : l.reset list = .ok l') : l'.enabled = l.enabled := by
  rcases reset_cases h with ⟨-, rfl⟩ | ⟨_, _, -, -, -, rfl⟩ <;> rfl

theorem enabled_carried {mode : PassMode} {i : Instruction} {note : Option Note}
    {last : Option EventId} (h : l.carried mode i note last = .ok l') : l'.enabled = l.enabled := by
  unfold carried at h
  split at h
  · cases h
    rfl
  · split at h
    · exact enabled_append h
    · cases h
      rfl
  · split at h
    · cases h
      rfl
    · exact enabled_reset h

end EventLedger

namespace Machine

variable {m : Machine} {events : Option Nat}

theorem Since.now (m : Machine) : Since W F m (· = m.ledger) m := ⟨.refl _, rfl, rfl⟩

/-- A launch that is submitted takes over the events of its list. -/
theorem meets_submitLaunch (entry : CacheEntry) (t : Task) (frame device task : Nat)
    (window : Option Window) (f : CallFrame) (hm : m.ledger.enabled = m.config.useDependencies)
    (hW : W (m.ledger.content events)) :
    Meets (Since W Succeeded m (· = m.ledger))
      (submitLaunch entry t frame device task events window f)
      (fun _ => Since W Succeeded m fun l => m.ledger.reset events = .ok l)
      (Since W Ended m (· = m.ledger)) := by
  intro m' hm'
  obtain ⟨hmoves, hconfig, hledger⟩ := hm'
  -- Without dependencies the list is empty, and so is what is sent.
  have hlaunch : ∀ {wait}, m'.ledger.waitList events = .ok wait → Store.Advances W
      (Store.inContext (Context.onDevice entry.device (Station.launch entry.code f t.name window
        (if m'.config.useDependencies then wait else [])))) := by
    refine fun hwait => Store.advances_onDevice (Station.advances_launch _ _ _ _ ?_)
    rw [EventLedger.eq_content hwait, hledger, hconfig, ← hm]
    split_ifs with hon
    · exact hW
    · cases events with
      | none => exact hW
      | some list => rwa [EventLedger.content, if_neg hon] at hW
  rcases submitLaunch_cases entry t frame device task events window f m' with
    ⟨e, -, hrun⟩ | ⟨wait, hwait, ⟨e, s, hx, hrun⟩ | ⟨r, s, ledger, hx, hreset, hrun⟩⟩
  · rw [hrun]
    exact ⟨hmoves.ended, hconfig, hledger⟩
  · rw [hrun]
    exact ⟨(hlaunch hwait m.context).of_error hx hmoves, hconfig, hledger⟩
  · rw [hrun]
    exact ⟨(hlaunch hwait m.context).of_ok hx hmoves, hconfig, hledger ▸ hreset⟩

/-- Up to its submission a launch leaves the event lists alone. -/
theorem Since.of_reframed {task device : Nat} {m₁ m' : Machine}
    (hcode : m₁ = m ∨ ∃ v, (resolveCode task device).run m = (v, m₁)) (h : m₁.Reframed m') :
    Since W Succeeded m (· = m.ledger) m' := by
  have hm₁ : Since W Succeeded m (· = m.ledger) m₁ := by
    obtain rfl | ⟨v, hcode⟩ := hcode
    · exact .now m₁
    · exact (keeps_since_resolveCode task device).of_run hcode (.now m)
  obtain ⟨frames, table, journal, rfl⟩ := h
  exact ⟨hm₁.moves.congr rfl, hm₁.config_eq, hm₁.ledger⟩

theorem meets_launch (mode : PassMode) (frame device task : Nat) (window : Option Window)
    (arguments : List Argument) (hm : m.ledger.enabled = m.config.useDependencies)
    (hW : W (m.ledger.content events)) :
    Meets (· = m) (launch mode frame device task events window arguments)
      (fun note => Since W Succeeded m fun l => m.ledger.carried mode
        (.launch frame device task events window arguments) note m.lastEvent = .ok l)
      (Since W Ended m (· = m.ledger)) := by
  rintro m rfl
  rcases hrun : (launch mode frame device task events window arguments).run m with ⟨r, m'⟩
  obtain ⟨m₁, hcode, haside, hr⟩ | ⟨entry, m₁, t, m₂, f, v, hcode, -, rfl, haside, rfl, hsubmit⟩ :=
    (launching_of_run hrun).cases_submitted
  · have hsince := Since.of_reframed (W := W) hcode haside
    cases r with
    | error fault => exact hsince.ended
    | ok note =>
      refine ⟨hsince.moves, hsince.config_eq, ?_⟩
      rw [hsince.ledger]
      rcases hr note rfl with ⟨rfl, -⟩ | rfl
      · rfl
      · cases mode <;> rfl
  · have hsubmitted := meets_submitLaunch (W := W) entry t frame device task window f hm hW
    have hsince := Since.of_reframed (W := W) (.inr ⟨_, hcode⟩) haside
    cases v with
    | error fault => exact hsubmitted.of_error hsubmit hsince
    | ok _ => exact hsubmitted.of_ok hsubmit hsince

/-- An instruction that works on the store takes over its list, unless it fails. -/
theorem meets_perform {i : Instruction} (hi : i.works = true)
    (hW : W (m.ledger.content i.waitsFor)) :
    Meets (· = m) (perform i)
      (fun note => Since W Succeeded m fun l => m.ledger.carried .normal i note m.lastEvent = .ok l)
      (Since W Ended m (· = m.ledger)) := by
  rintro m rfl
  have hwork : ∀ {wait}, m.ledger.waitList i.waitsFor = .ok wait → Store.Advances W (i.work wait) :=
    fun hwait => Store.advances_work i (EventLedger.eq_content hwait ▸ hW)
  rcases perform_cases hi m with
    ⟨e, hrun⟩ | ⟨wait, hwait, ⟨e, s, hx, hrun⟩ | ⟨event, s, ledger, hx, hreset, hrun⟩⟩
  · rw [hrun]
    exact .now m
  · rw [hrun]
    exact ⟨(hwork hwait m.context).of_error hx (.refl _), rfl, rfl⟩
  · rw [hrun]
    refine ⟨(hwork hwait m.context).of_ok hx (.refl _), rfl, ?_⟩
    have hnote : (if event.isNone then i.idleNote else none) ≠ some .notCompiled := by
      split_ifs
      · unfold Instruction.idleNote
        split <;> simp
      · simp
    cases i with
    | allocate | transfer | barrier => exact (if_neg hnote).trans hreset
    | addDep | launch | finish => cases hi

/-- The last event goes into the list; nothing is submitted. -/
theorem meets_addDep (list : Nat) (m : Machine) :
    Meets (· = m) (perform (.addDep list))
      (fun note => Since W Succeeded m fun l =>
        m.ledger.carried .normal (.addDep list) note m.lastEvent = .ok l)
      (Since W Ended m (· = m.ledger)) := by
  rintro m rfl
  rw [run_addDep]
  cases hlast : m.lastEvent with
  | none => exact ⟨.refl _, rfl, rfl⟩
  | some event =>
    dsimp only
    split_ifs with henabled
    · cases happend : m.ledger.append list event with
      | error e => exact .now m
      | ok ledger => exact ⟨.refl _, rfl, happend⟩
    · refine ⟨.refl _, rfl, ?_⟩
      show m.ledger.append list event = .ok m.ledger
      rw [EventLedger.append, if_pos (by simpa using henabled)]

/-- An instruction moves the devices; what it submits waits for the events of the list that it
names. The event lists change if it succeeds and are as before if it fails. -/
theorem meets_effect (mode : PassMode) (i : Instruction)
    (hm : m.ledger.enabled = m.config.useDependencies) (hW : W (m.ledger.content i.waitsFor)) :
    Meets (· = m) (effect mode i)
      (fun note => Since W Succeeded m fun l => m.ledger.carried mode i note m.lastEvent = .ok l)
      (Since W Ended m (· = m.ledger)) := by
  have hskip : ∀ {note : Option Note}, m.ledger.carried mode i note m.lastEvent = .ok m.ledger →
      Meets (· = m) (pure note : MachineAction (Option Note))
        (fun note => Since W Succeeded m fun l => m.ledger.carried mode i note m.lastEvent = .ok l)
        (Since W Ended m (· = m.ledger)) := by
    intro note hcarried
    refine meets_pure ?_
    rintro _ rfl
    exact ⟨.refl _, rfl, hcarried⟩
  cases i with
  | launch frame device task events window arguments =>
    exact meets_launch mode frame device task window arguments hm hW
  | finish =>
    cases mode with
    | warmup => exact hskip rfl
    | normal => exact hskip rfl
  | allocate | transfer | barrier =>
    cases mode with
    | warmup => exact hskip rfl
    | normal => exact meets_perform rfl hW
  | addDep list =>
    cases mode with
    | warmup => exact hskip rfl
    | normal => exact meets_addDep list m

end Machine

/-! ## Sessions -/

/-- The wait lists that can occur under a configuration are in `W`: without dependencies all of them
are empty. -/
def Config.Allows (config : Config) (W : List EventId → Prop) : Prop :=
  W [] ∧ (config.useDependencies = true → ∀ wait, W wait)

namespace Machine

variable {m₀ m m' : Machine}
variable {L : EventLedger → Prop} {code : Bytes} {config : Config}

/-- `m` is `m₀` at a later time, and its event lists are on or off as the configuration says. -/
abbrev Standing (W : List EventId → Prop) (F : EventStatus → Prop) (m₀ m : Machine) : Prop :=
  Since W F m₀ (fun l => l.enabled = m₀.config.useDependencies) m

/-- A change that touches neither the devices nor the event lists. -/
theorem Since.aside (h : Since W F m₀ L m) (hconfig : m'.config = m.config)
    (hledger : m'.ledger = m.ledger) (hdevices : m'.context.devices = m.context.devices) :
    Since W F m₀ L m' :=
  ⟨h.moves.congr hdevices, hconfig.trans h.config_eq, hledger ▸ h.ledger⟩

theorem Since.noted (h : Since W F m₀ L m) (mode : PassMode) (i : Instruction)
    (note : Option Note) :
    Since W F m₀ L (m.noted mode i note) := by
  rw [Machine.noted]
  split
  · exact h.aside rfl rfl rfl
  · exact h

theorem Since.fetch (h : Since W F m₀ L m) (kind : PassKind) :
    Since W F m₀ L ((fetch kind).run m).2 := by
  obtain ⟨reader, journal, hfetch⟩ := after_fetch kind m
  rw [hfetch]
  exact h.aside rfl rfl rfl

theorem Standing.content (hallows : m₀.config.Allows W) (h : Standing W F m₀ m)
    (list : Option Nat) :
    W (m.ledger.content list) := by
  cases hon : m₀.config.useDependencies with
  | true => exact hallows.2 hon _
  | false =>
    cases list with
    | none => exact hallows.1
    | some list =>
      have hoff : m.ledger.enabled = false := h.ledger.trans hon
      simpa [EventLedger.content, hoff] using hallows.1

theorem Standing.effect (hallows : m₀.config.Allows W) (h : Standing W F m₀ m) (mode : PassMode)
    (i : Instruction) :
    Meets (· = m) (effect mode i)
      (fun _ m' => (∀ status, Succeeded status → F status) → Standing W F m₀ m')
      (fun m' => (∀ status, Ended status → F status) → Standing W F m₀ m') := by
  have hm : m.ledger.enabled = m.config.useDependencies := by rw [h.ledger, h.config_eq]
  refine meets_imp (meets_effect mode i hm (h.content hallows i.waitsFor))
    (fun note m' heffect hF => ?_) fun m' heffect hF => ?_
  · exact ⟨h.moves.trans (heffect.moves.mono (fun _ => id) hF),
      heffect.config_eq.trans h.config_eq,
      (EventLedger.enabled_carried heffect.ledger).trans h.ledger⟩
  · have hledger : m'.ledger = m.ledger := heffect.ledger
    exact ⟨h.moves.trans (heffect.moves.mono (fun _ => id) hF),
      heffect.config_eq.trans h.config_eq, by rw [hledger, h.ledger]⟩

theorem Standing.closing (hallows : m₀.config.Allows W) (h : Standing W F m₀ m) (mode : PassMode)
    (kind : PassKind) (body : Except Fault Unit) :
    Meets (· = m) (closing mode kind body)
      (fun _ m' => (∀ status, Succeeded status → F status) → Standing W F m₀ m')
      (fun m' => (∀ status, Ended status → F status) → Standing W F m₀ m') := by
  have hW : ∀ wait, wait = [] → W wait := fun wait hwait => hwait ▸ hallows.1
  refine meets_imp (meets_closing mode kind body m) (fun event m' hclosing hF => ?_)
    fun m' hclosing hF => ?_
  · have hledger : m'.ledger = m.ledger := hclosing.ledger
    exact ⟨h.moves.trans (hclosing.moves.mono hW hF), hclosing.config_eq.trans h.config_eq,
      by rw [hledger, h.ledger]⟩
  · have hledger : m'.ledger = m.ledger.clear := hclosing.ledger
    exact ⟨h.moves.trans (hclosing.moves.mono hW hF), hclosing.config_eq.trans h.config_eq,
      by rw [hledger]; exact h.ledger⟩

/-- The body of a pass that succeeds: every instruction has succeeded. -/
theorem Standing.runBody (hallows : m₀.config.Allows W) {mode : PassMode} {kind : PassKind}
    {fuel : Nat} (h : Standing W Succeeded m₀ m)
    (hrun : (runBody mode kind fuel).run m = (.ok (), m')) :
    Standing W Succeeded m₀ m' := by
  induction fuel generalizing m with
  | zero => cases hrun
  | succ fuel ih =>
    have hfetch := h.fetch kind
    rw [run_runBody_succ] at hrun
    revert hfetch hrun
    rcases (Machine.fetch kind).run m with ⟨r, m₁⟩
    intro hrun hfetch
    cases r with
    | error fault => cases hrun
    | ok i =>
      dsimp only at hrun
      rcases heffect : (Machine.effect mode i).run m₁ with ⟨r, m₂⟩
      rw [heffect] at hrun
      cases r with
      | error fault => cases hrun
      | ok note =>
        have hdone := (Standing.effect hallows hfetch mode i).of_ok heffect rfl fun _ => id
        have hnoted : Standing W Succeeded m₀ (m₂.noted mode i note) :=
          Since.noted hdone mode i note
        by_cases hfinish : i = .finish
        · simp only [hfinish, if_true] at hrun
          cases hrun
          exact hfinish ▸ hnoted
        · simp only [hfinish, if_false] at hrun
          exact ih hnoted hrun

/-- All that happens in a session are moves of the devices. -/
theorem lasting_standing (hallows : m₀.config.Allows W) : Lasting fun _ => Standing W Ended m₀ where
  begun h := h.aside rfl rfl rfl
  fetch kind h := h.fetch kind
  noted mode i note h := h.noted mode i note
  carry mode i h := (h.effect hallows mode i).after rfl
    (fun _ _ hm => hm fun _ hstatus => hstatus.ended) fun _ hm => hm fun _ => id
  close mode kind body h := (h.closing hallows mode kind body).after rfl
    (fun _ _ hm => hm fun _ hstatus => hstatus.ended) fun _ hm => hm fun _ => id
  forget h := h.aside rfl rfl rfl

theorem session_standing (hallows : m₀.config.Allows W) (hm : Standing W Ended m₀ m)
    (requests : List Request) : Standing W Ended m₀ (session requests m).2 :=
  (@Lasting.session _ m (lasting_standing hallows) requests [] hm).2

theorem moves_of_create {c c' : Context} (hm : (create code config).run c = (.ok m, c')) :
    c.Moves W F m.context := by
  have hstart : Keeps (c.Moves W F) (start code) :=
    keeps_start_of_load (fun index => Context.upholds_onDevice (fun _ => id) fun _ =>
      upholds_modify fun _ hs => hs.tail (.aside rfl rfl rfl)) (fun _ _ _ hc => hc.congr rfl) code
  have hcreate : Meets (c.Moves W F) (create code config) (fun m _ => c.Moves W F m.context)
      (c.Moves W F) :=
    meets_bind hstart fun _ => meets_get fun _ hc => meets_pure fun _ _ => hc
  have hmade := hcreate c (.refl c)
  rw [hm] at hmade
  exact hmade

theorem eq_initial_of_create {c c' : Context} (hm : (create code config).run c = (.ok m, c')) :
    ∃ header reader, m = initial c' config header reader := by
  obtain ⟨⟨header, reader⟩, c₁, -, hrest⟩ := run_bind_eq_ok.1 hm
  obtain ⟨hinitial, rfl⟩ := Prod.mk.inj hrest
  exact ⟨header, reader, (Except.ok.inj hinitial).symm⟩

theorem standing_create {c c' : Context} (hm : (create code config).run c = (.ok m, c')) :
    Standing W F m m := by
  obtain ⟨header, reader, rfl⟩ := eq_initial_of_create hm
  exact ⟨.refl _, rfl, rfl⟩

end Machine

end Offload
