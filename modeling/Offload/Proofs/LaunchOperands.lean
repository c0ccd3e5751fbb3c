import Offload.Proofs.MachineMoves
import Offload.Proofs.WarmStart

/-!
# What a launch receives and leaves

If no device retains frames, or if frames are made anew for every launch, then a launch that is
submitted hands a frame to its code that holds what the instruction lists and nothing else,
whichever launches have used the frame before: for every constant its value, and for every object
the buffer that the table records for it on the device that the launch names. Each of these buffers
held its object. The launch claims the objects that its task writes, and it leaves all other records
and owners as they were.
-/

namespace Offload

open Offload.Action

variable {m m' : Machine} {f : CallFrame} {device : Nat}

/-! ## Claimed objects -/

variable {object : Nat} {r : Record}

namespace Table

variable {t t' : Table} {W : Nat → Prop}

/-- The device that an object belongs to, if the table has the object. -/
def owner? (t : Table) (object : Nat) : Option (Option Nat) := t.rows[object]?.map Row.owner

@[simp] theorem owner?_update (t : Table) (object device o : Nat) (f : Record → Record) :
    (t.update object device f).owner? o = t.owner? o := by
  by_cases ho : object = o
  · cases hrow : t.rows[o]? <;> simp [owner?, update, ho, hrow]
  · simp [owner?, update, ho]

theorem owner?_setOwner (t : Table) (object device o : Nat) :
    (t.setOwner object device).owner? o =
      if o = object then (t.owner? object).map fun _ => some device else t.owner? o := by
  by_cases ho : object = o
  · cases hrow : t.rows[o]? <;> simp [owner?, setOwner, ho, hrow]
  · simp [owner?, setOwner, ho, Ne.symm ho]

theorem isSome_owner?_of_get? (hr : t.get? object device = some r) : (t.owner? object).isSome := by
  obtain ⟨row, hrow, -⟩ := Option.bind_eq_some_iff.1 hr
  simp [owner?, hrow]

/-- The second table is the first one after a launch on a device that writes the objects of `W`.
Their buffers held them, and hold newer bytes now; they belong to the device. All else is
unchanged. -/
structure Claimed (device : Nat) (W : Nat → Prop) (t t' : Table) : Prop where
  written : ∀ object, W object → ∃ r, t.get? object device = some r ∧
    r.allocation.isSome ∧ r.valid ∧
    t'.get? object device = some { r with valid := true, modified := true } ∧
    t'.owner? object = some (some device)
  records : ∀ object other, ¬ (W object ∧ other = device) →
    t'.get? object other = t.get? object other
  owners : ∀ object, ¬ W object → t'.owner? object = t.owner? object

theorem claimed_of_eq (h : t' = t) (hW : ∀ object, ¬ W object) : Claimed device W t t' :=
  h ▸ ⟨fun object h => absurd h (hW object), fun _ _ _ => rfl, fun _ _ => rfl⟩

/-- A buffer that holds its object now has held it from the start, claimed or not. -/
theorem Claimed.before (h : Claimed device W t t') {r' : Record}
    (hr' : t'.get? object device = some r') (hvalid : r'.valid = true) :
    ∃ r, t.get? object device = some r ∧ r.allocation = r'.allocation ∧ r.valid = true := by
  by_cases hw : W object
  · obtain ⟨r, hr, -, hholds, hnow, -⟩ := h.written object hw
    rw [hnow] at hr'
    cases hr'
    exact ⟨r, hr, rfl, hholds⟩
  · rw [h.records object device fun hw' => hw hw'.1] at hr'
    exact ⟨r', hr', rfl, hvalid⟩

/-- One more object is claimed. It may have been claimed already. -/
theorem Claimed.claim (h : Claimed device W t t') (hr : t.get? object device = some r)
    (hbuffer : r.allocation.isSome) (hvalid : r.valid = true) :
    Claimed device (fun o => W o ∨ o = object) t
      ((t'.update object device Record.written).setOwner object device) := by
  have hnow : (t'.get? object device).map Record.written =
      some { r with valid := true, modified := true } := by
    by_cases hw : W object
    · obtain ⟨r₀, hr₀, -, -, hnow, -⟩ := h.written object hw
      cases hr₀.symm.trans hr
      simp [hnow, Record.written, hbuffer]
    · simp [h.records object device fun hw' => hw hw'.1, hr, Record.written, hbuffer]
  have howner : (t'.owner? object).isSome := by
    obtain ⟨r', hr', -⟩ := Option.map_eq_some_iff.1 hnow
    exact isSome_owner?_of_get? hr'
  obtain ⟨owner, howner⟩ := Option.isSome_iff_exists.1 howner
  constructor
  · intro o ho
    by_cases hobject : o = object
    · subst hobject
      exact ⟨r, hr, hbuffer, hvalid, by simp [get?_update, hnow], by simp [owner?_setOwner, howner]⟩
    · obtain ⟨r₀, hr₀, hbuffer₀, hvalid₀, hnow₀, howner₀⟩ := h.written o (ho.resolve_right hobject)
      exact ⟨r₀, hr₀, hbuffer₀, hvalid₀, by simp [get?_update, hobject, hnow₀],
        by simp [owner?_setOwner, hobject, howner₀]⟩
  · intro o other hother
    have hne : ¬ (o = object ∧ other = device) := fun heq => hother ⟨.inr heq.1, heq.2⟩
    rw [get?_setOwner, get?_update, if_neg hne]
    exact h.records o other fun hw => hother ⟨.inl hw.1, hw.2⟩
  · intro o ho
    have hne : o ≠ object := fun heq => ho (.inr heq)
    rw [owner?_setOwner, if_neg hne, owner?_update]
    exact h.owners o fun hw => ho (.inl hw)

end Table

/-- A launch of a task with these arguments writes an object. -/
def Task.Writes (t : Task) (arguments : List Argument) (object : Nat) : Prop :=
  ∃ place, arguments[place]? = some (.reference object) ∧ (t.access place).writes = true

theorem Task.not_writes_nil (t : Task) (object : Nat) : ¬ t.Writes [] object := by simp [Writes]

theorem Task.writes_concat (t : Task) (arguments : List Argument) (argument : Argument)
    (object : Nat) :
    t.Writes (arguments ++ [argument]) object ↔ t.Writes arguments object ∨
      argument = .reference object ∧ (t.access arguments.length).writes = true := by
  constructor
  · rintro ⟨place, hargument, hwrites⟩
    by_cases hplace : place < arguments.length
    · rw [List.getElem?_append_left hplace] at hargument
      exact .inl ⟨place, hargument, hwrites⟩
    · rw [List.getElem?_append_right (by omega)] at hargument
      obtain ⟨hlast, hargument⟩ := List.getElem?_eq_some_iff.1 hargument
      simp only [List.length_singleton] at hlast
      obtain rfl : place = arguments.length := by omega
      exact .inr ⟨by simpa using hargument, hwrites⟩
  · rintro (⟨place, hargument, hwrites⟩ | ⟨rfl, hwrites⟩)
    · exact ⟨place, by rw [List.getElem?_append_left (List.getElem?_eq_some_iff.1 hargument).1,
        hargument], hwrites⟩
    · exact ⟨arguments.length, by simp, hwrites⟩

theorem Task.writes_eq {t t' : Task} (h : t'.unbound = t.unbound) (arguments : List Argument) :
    t'.Writes arguments = t.Writes arguments := by
  funext object
  simp only [Writes, Task.access_eq h]

namespace Machine

/-! ## Operands -/

/-- What a launch on a device is to find in its frame for an argument. -/
inductive Receives (m : Machine) (device : Nat) : Argument → FrameArgument → Prop
  | constant {index : Nat} {value : Scalar} (hvalue : m.context.constants[index]? = some value) :
    Receives m device (.constant index) (.constant value)
  | reference {object : Nat} {r : Record} {a : Allocation} {label : String}
    (hrecord : m.store.table.get? object device = some r) (hbuffer : r.allocation = some a)
    (hvalid : r.valid = true) :
    Receives m device (.reference object) (.reference object a.buffer label)

/-- A machine on the way to a submission: the objects of `W` are claimed for the device, and no
command was submitted. -/
structure Gathering (m : Machine) (device : Nat) (W : Nat → Prop) (m' : Machine) : Prop where
  core : m'.context.core = m.context.core
  table : m.store.table.Claimed device W m'.store.table

/-- Nothing was submitted. -/
abbrev Idle (m m' : Machine) : Prop := m'.context.core = m.context.core

/-- Claiming objects does not change what the launch is to find. -/
theorem Gathering.receives {W : Nat → Prop} (h : Gathering m device W m') {argument : Argument}
    {a : FrameArgument} (ha : m'.Grants device argument a) : m.Receives device argument a := by
  cases ha with
  | constant hvalue =>
    have hconstants : m'.context.constants = m.context.constants :=
      congrArg Context.Core.constants h.core
    exact .constant (hconstants ▸ hvalue)
  | reference hrecord hbuffer hvalid hplace =>
    obtain ⟨r, hr, hsame, hholds⟩ := h.table.before hrecord hvalid
    exact .reference hr (hsame.trans hbuffer) hholds

/-- One more argument is in the frame. -/
theorem Gathering.claims {t : Task} {before : List Argument}
    (h : Gathering m device (t.Writes before) m') {argument : Argument} {a : FrameArgument}
    (ha : m'.Grants device argument a) {s : Store}
    (hs : Claims device argument (t.access before.length).writes m'.store s) (frames : FramePool) :
    Gathering m device (t.Writes (before ++ [argument])) { m' with store := s, frames } := by
  rcases hs with ⟨rfl, hreads⟩ | ⟨object, text, rfl, hwrites, rfl⟩
  · have hwrites : t.Writes (before ++ [argument]) = t.Writes before := by
      funext object
      have hread := hreads object
      grind [Task.writes_concat]
    exact ⟨h.core, hwrites ▸ h.table⟩
  · have hwrites : t.Writes (before ++ [.reference object]) = fun o => t.Writes before o ∨
        o = object := by
      funext o
      simp [Task.writes_concat, hwrites, eq_comm]
    cases h.receives ha with
    | reference hr hbuffer hvalid =>
      exact ⟨h.core, hwrites ▸ h.table.claim hr (by simp [hbuffer]) hvalid⟩

/-- The arguments that are still to come are put into the frame one by one, behind those that it
holds. -/
theorem meets_marshal_gathering (t : Task) (id : Nat) (taken rest : List Argument)
    (hf : List.Forall₂ (m.Receives device) taken f.arguments) :
    Meets (Gathering m device (t.Writes taken)) (marshal t id device taken.length rest f)
      (fun g m' => Gathering m device (t.Writes (taken ++ rest)) m' ∧
        List.Forall₂ (m.Receives device) (taken ++ rest) g.arguments)
      (fun m' => ∃ W, Gathering m device W m') := by
  induction rest generalizing taken f with
  | nil =>
    rw [List.append_nil]
    exact meets_pure fun m' hm' => ⟨hm', hf⟩
  | cons argument rest ih =>
    intro m' hm'
    rcases marshal_cons_cases m' t id device taken.length argument rest f with
      ⟨fault, -, hrun⟩ | ⟨a, s, ha, -, hs, hrun⟩
    · rw [hrun]
      exact ⟨_, hm'⟩
    · have hfilled : List.Forall₂ (m.Receives device) (taken ++ [argument])
          (f.pushed a).arguments :=
        List.rel_append hf (.cons (hm'.receives ha) .nil)
      have hrest := ih (taken ++ [argument]) hfilled _
        (hm'.claims ha hs (m'.frames.put id (f.pushed a)))
      rw [List.length_append, List.append_assoc] at hrest
      rw [hrun]
      exact hrest

theorem meets_fillFrame_gathering (t : Task) (frame : Nat) (arguments : List Argument)
    (hf : f.isOnDevice = false) :
    Meets (Gathering m device (t.Writes [])) (fillFrame t frame device arguments f)
      (fun g m' => Gathering m device (t.Writes arguments) m' ∧
        List.Forall₂ (m.Receives device) arguments g.arguments)
      (fun m' => ∃ W, Gathering m device W m') := by
  rw [fillFrame, hf]
  refine meets_bind (Q := fun _ => Gathering m device (t.Writes []))
    (meets_modify fun m' hm' => ⟨hm'.core, hm'.table⟩) fun _ => ?_
  exact meets_marshal_gathering t frame [] arguments .nil

/-! ## The submission -/

/-- A launch of the task `t` was submitted. The code got the frame `f`, which holds what the
instruction lists, on a context that differs from that of `m` in no more than what a compilation
changes. -/
structure Delivery (m : Machine) (device : Nat) (window : Option Window) (arguments : List Argument)
    (t : Task) (entry : CacheEntry) (f : CallFrame) (m' : Machine) : Prop where
  handed : ∃ (c : Context) (d : Device) (wait : List EventId), c.core = m.context.core ∧
    c.devices[entry.device]? = some d ∧
    m'.context = c.withStation entry.device
      ((Station.launch entry.code f t.name window wait).run ⟨d, c.objects, c.journal⟩).2
  operands : List.Forall₂ (m.Receives device) arguments f.arguments
  claimed : m.store.table.Claimed device (t.Writes arguments) m'.store.table

end Machine

/-! ## Frames that are filled anew -/

/-- A frame that is made anew is held by no device. -/
theorem FramePool.free_of_resolve {p q : FramePool} {id count : Nat} {recreate : Bool}
    (h : p.resolve id count recreate = .ok (f, q)) (hp : recreate = true ∨ p.Free) :
    f.isOnDevice = false := by
  obtain ⟨rfl, -⟩ | ⟨hslot, -, hkept, -⟩ := resolve_cases h
  · rfl
  · rcases hp with hnew | hp
    · cases hkept.symm.trans hnew
    · exact hp f (List.mem_of_getElem? hslot)

namespace Machine

/-- No device retains frames, and none holds one. -/
structure Unretained (m : Machine) : Prop where
  devices : ∀ b ∈ m.context.outline.builds, b.options.retainCallFrames = false
  frames : m.frames.Free

namespace Unretained

variable {α : Type}

theorem keeps_inStore {x : StoreAction α} (hx : ∀ O, Keeps (Store.OutlineOf O) x) :
    Keeps Unretained (inStore x) := by
  refine meets_focus fun m hm => ?_
  refine meets_weaken (hx fun o => ∀ b ∈ o.builds, b.options.retainCallFrames = false) ?_
    (fun _ _ hs => ⟨hs, hm.frames⟩) fun _ hs => ⟨hs, hm.frames⟩
  rintro _ rfl
  exact hm.devices

theorem keeps_onDevice {index : Nat} {x : DeviceAction α} (hx : ∀ B, Keeps (Station.BuildOf B) x) :
    Keeps Unretained (onDevice index x) :=
  keeps_inStore fun _ => Store.keeps_outline_onDevice hx

theorem keeps_log (level : Level) (text : String) : Keeps Unretained (log level text) :=
  keeps_inStore fun _ => Store.keeps_outline_log level text

end Unretained

theorem frameKeeps_unretained : FrameKeeps Unretained fun f => f.isOnDevice = false where
  log := Unretained.keeps_log
  claim object device := Unretained.keeps_inStore fun _ => Store.keeps_outline_claim object device
  put id f hf := keeps_modify fun m hm => ⟨hm.devices, hm.frames.put hf id⟩
  resolve := meets_resolveFrame (fun _ => rfl) (fun _ hm => hm.frames)
    fun _ _ hm hframes _ => ⟨hm.devices, hframes⟩
  reset _ _ := rfl
  push f id a g hg := CallFrame.free_of_push hg
  submit index code f name window wait hf := by
    have hkept : Keeps Unretained (onDevice index (Station.launch code f name window wait)) :=
      Unretained.keeps_onDevice fun _ => Station.upkeep_build.launch code f name window wait
    have hframe := meets_inStore (Store.meets_launch_frame index code f name window wait)
    refine meets_weaken (meets_and hkept hframe) (fun m hm => ⟨hm, trivial⟩) ?_ fun m hm => hm.1
    rintro ⟨event, g⟩ m ⟨hm, d, hd, hg⟩
    have hfree : d.options.retainCallFrames = false :=
      hm.devices d.build (List.mem_map_of_mem (List.mem_of_getElem? hd))
    rw [hfree, if_neg Bool.false_ne_true] at hg
    exact ⟨⟨hm.devices, hm.frames⟩, hg ▸ hf⟩
  lists list := keeps_get fun _ => keeps_bind keeps_ofExcept fun _ =>
    keeps_modify fun _ hm => ⟨hm.devices, hm.frames⟩
  aside m pending hm := ⟨hm.devices, hm.frames⟩

theorem keeps_unretained_effect (mode : PassMode) (i : Instruction) :
    Keeps Unretained (effect mode i) := by
  refine keeps_effect_of_work (fun m lastEvent ledger hm => ⟨hm.devices, hm.frames⟩)
    (fun wait => Unretained.keeps_inStore fun _ => Store.keeps_outline_work i wait)
    fun _ _ _ _ _ _ => frameKeeps_unretained.launch ?_
  exact keeps_resolveCode_of_install (meets_iff_after.2 fun m hm => ⟨hm.devices, hm.frames⟩)
    (fun name => Unretained.keeps_onDevice fun _ => Station.keeps_build_install name)
    fun m journal code hm => ⟨hm.devices, hm.frames⟩

theorem keeps_unretained_closing (mode : PassMode) (kind : PassKind) (body : Except Fault Unit) :
    Keeps Unretained (closing mode kind body) := by
  have hend : EndKeeps Unretained := {
    marker := fun _ => Unretained.keeps_onDevice fun _ => Station.upkeep_build.marker []
    resolve := fun _ event => Unretained.keeps_onDevice fun _ => Station.upkeep_build.resolve event
    flush := fun _ => Unretained.keeps_onDevice fun _ => Station.upkeep_build.flush
    emptied := fun _ hm => ⟨hm.devices, hm.frames⟩
    profiled := fun _ _ hm => ⟨hm.devices, hm.frames⟩ }
  exact hend.closing Unretained.keeps_log (fun _ _ _ _ hm => ⟨hm.devices, hm.frames⟩) mode kind body

theorem lasting_unretained : Lasting fun _ => Unretained :=
  lasting_of_aside (fun _ _ _ _ _ hm => ⟨hm.devices, hm.frames⟩)
    (fun mode i => meets_iff_after.1 (keeps_unretained_effect mode i) _)
    (fun mode kind body => meets_iff_after.1 (keeps_unretained_closing mode kind body) _)
    fun hm => ⟨hm.devices, hm.frames⟩

theorem keeps_complete_closing (mode : PassMode) (kind : PassKind) (body : Except Fault Unit) :
    Keeps Complete (closing mode kind body) :=
  keeps_books_closing (B := fun b => b.code.slots.length = b.tasks.length) mode kind body

theorem lasting_complete : Lasting fun _ => Complete :=
  lasting_of_aside (fun _ _ _ _ _ => id)
    (fun mode i => meets_iff_after.1 (keeps_complete_effect mode i) _)
    (fun mode kind body => meets_iff_after.1 (keeps_complete_closing mode kind body) _) id

/-- Every launch fills its frame anew. -/
def FillsAnew (m : Machine) : Prop := m.config.redeployOnDevice = true ∨ m.frames.Free

theorem unretained_create {code : Bytes} {config : Config} {c c' : Context}
    (hfree : ∀ d ∈ c.devices, d.options.retainCallFrames = false)
    (hm : (create code config).run c = (.ok m, c')) : m.Unretained := by
  have hcore := free_create hfree hm
  constructor
  · intro b hb
    obtain ⟨d, hd, rfl⟩ := List.mem_map.1 hb
    exact hcore d.uncompiled (List.mem_map_of_mem hd)
  · obtain ⟨header, reader, rfl⟩ := eq_initial_of_create hm
    exact FramePool.all_new _ _

theorem fillsAnew_before {code : Bytes} {config : Config} {c c' : Context}
    (hm : (create code config).run c = (.ok m, c'))
    (hfree : config.redeployOnDevice = true ∨ ∀ d ∈ c.devices, d.options.retainCallFrames = false)
    {requests : List Request} {past future : List Moment} {x : Moment}
    (hx : timeline requests m = past ++ x :: future) : x.before.FillsAnew := by
  rcases hfree with hredeploy | hfree
  · have hstanding := (lasting_standing ⟨trivial, fun _ _ => trivial⟩).before
      (standing_create (W := fun _ => True) hm) hx
    obtain ⟨header, reader, rfl⟩ := eq_initial_of_create hm
    exact .inl (hstanding.config_eq ▸ hredeploy)
  · exact .inr (lasting_unretained.before (unretained_create hfree hm) hx).frames

/-! ## Launches -/

variable {window : Option Window} {arguments : List Argument}

/-- The tasks of an idle machine may have been bound, and are the same otherwise. -/
theorem task_of_idle (h : Idle m m') {task : Nat} {t : Task}
    (ht : m'.context.tasks[task]? = some t) :
    ∃ t₀, m.context.tasks[task]? = some t₀ ∧ t.unbound = t₀.unbound := by
  have htasks := congrArg (fun k : Context.Core => k.tasks[task]?) h
  simp only [Context.core, List.getElem?_map, ht, Option.map_some] at htasks
  obtain ⟨t₀, ht₀, hsame⟩ := Option.map_eq_some_iff.1 htasks.symm
  exact ⟨t₀, ht₀, hsame.symm⟩

/-- A launch submits nothing, or it delivers its operands to the code that is installed for its
task. -/
theorem delivered_launch (hanew : m.FillsAnew) (hcomplete : m.Complete) (mode : PassMode)
    (frame device task : Nat) (events : Option Nat) (window : Option Window)
    (arguments : List Argument) :
    let m' := ((launch mode frame device task events window arguments).run m).2
    (∃ W, Gathering m device W m') ∨ ∃ t entry f, m.context.tasks[task]? = some t ∧
      m'.code.get? task = some entry ∧
      Delivery m device window arguments t entry f m' := by
  have hnobody : ∀ object : Nat, ¬False := fun _ => id
  rcases hrun : (launch mode frame device task events window arguments).run m with ⟨r, m'⟩
  cases launching_of_run hrun with
  | absent hd => exact .inl ⟨_, rfl, Table.claimed_of_eq rfl hnobody⟩
  | uncoded hcode =>
    obtain ⟨store, code, rfl, hcore, htable⟩ := (resolving_of_run hcode).core
    exact .inl ⟨_, hcore, Table.claimed_of_eq htable hnobody⟩
  | stopped _ _ _ hcode =>
    obtain ⟨store, code, rfl, hcore, htable⟩ := (resolving_of_run hcode).core
    exact .inl ⟨_, hcore, Table.claimed_of_eq htable hnobody⟩
  | unfilled hcode hmode ht hframe hfill =>
    obtain ⟨store, code, rfl, hcore, htable⟩ := (resolving_of_run hcode).core
    exact .inl
      ((meets_fillFrame_gathering _ frame arguments
        (FramePool.free_of_resolve hframe hanew)).of_error hfill
      ⟨hcore, Table.claimed_of_eq htable (Task.not_writes_nil _)⟩)
  | @submitted entry m₁ m₂ m' t f g frames v hcode hmode ht hframe hfill hsubmit =>
    have hentry := (resolving_of_run hcode).installed hcomplete
    obtain ⟨store, code, rfl, hcore, htable⟩ := (resolving_of_run hcode).core
    have hidle : Idle m { m with store, code } := hcore
    obtain ⟨t₀, ht₀, hunbound⟩ := task_of_idle hidle ht
    obtain ⟨hgather, hg⟩ := (meets_fillFrame_gathering t frame arguments
      (FramePool.free_of_resolve hframe hanew)).of_ok hfill
      ⟨hcore, Table.claimed_of_eq htable t.not_writes_nil⟩
    obtain ⟨frames, table, journal, rfl⟩ := reframed_of_fillFrame hfill
    have hclaimed := Task.writes_eq hunbound arguments ▸ hgather.table
    -- The device of the code is not there, or it has got the launch.
    have hstation : ∀ {v s wait},
        (Store.inContext
          (Context.onDevice entry.device (Station.launch entry.code g t.name window wait))).run
          ⟨{ store.context with journal }, table⟩ = (v, s) → ∀ m' : Machine, m'.store = s →
        (∃ W, Gathering m device W m') ∨ Delivery m device window arguments t₀ entry g m' := by
      intro v s wait hx m' hstore
      rcases Store.onDevice_cases hx with ⟨rfl, -⟩ | ⟨d, hd, -, rfl⟩
      · refine .inl ⟨t₀.Writes arguments, ?_, ?_⟩
        · rw [context, hstore]
          exact hcore
        · rw [hstore]
          exact hclaimed
      · refine .inr ⟨⟨{ store.context with journal }, d, wait, hcore, hd, ?_⟩, hg, ?_⟩
        · rw [context, hstore, ← Task.name_eq hunbound]
          rfl
        · rw [hstore]
          exact hclaimed
    rcases submitLaunch_cases entry t frame device task events window g
        { m with code, frames, store := ⟨{ store.context with journal }, table⟩ } with
      ⟨e, -, hrun'⟩ | ⟨wait, -, ⟨e, s, hx, hrun'⟩ | ⟨q, s, ledger, hx, -, hrun'⟩⟩ <;>
      cases hrun'.symm.trans hsubmit
    · exact .inl ⟨_, hgather⟩
    · exact (hstation hx _ rfl).imp_right fun hdelivery => ⟨t₀, entry, g, ht₀, hentry, hdelivery⟩
    · exact (hstation hx _ rfl).imp_right fun hdelivery => ⟨t₀, entry, g, ht₀, hentry, hdelivery⟩

theorem kinds_of_idle (h : Idle m m') (index : Nat) :
    m'.context.devices[index]?.map (fun d => d.log.kinds) =
      m.context.devices[index]?.map fun d => d.log.kinds := by
  have hdevices := congrArg (fun k : Context.Core => k.devices[index]?.map fun d => d.log.kinds) h
  simpa [Context.core, List.getElem?_map, Function.comp_def, Device.uncompiled] using hdevices

end Machine

/-- A launch was submitted: it was added to the log of a device. -/
def Moment.SubmitsLaunch (x : Moment) : Prop :=
  ∃ (index : Nat) (d d' : Device), x.before.context.devices[index]? = some d ∧
    x.after.context.devices[index]? = some d' ∧ d'.log.kinds = d.log.kinds ++ [.launch]

namespace Machine

/-- A launch receives its operands and no others. Suppose that no device retains frames or that
frames are made anew for every launch. Then whenever a launch is submitted, whether its command
fails or not, the code that is installed for its task gets a frame that holds as many arguments as
the instruction lists, in this order: the values of its constants, and the buffers that the device
it names had for its objects, which were valid. Afterwards the objects that the task writes belong
to that device, and their buffers there are valid and modified. All other records and owners are as
they were. -/
theorem launch_receives_operands {code : Bytes} {config : Config} {c c' : Context} {m : Machine}
    (hm : (create code config).run c = (.ok m, c'))
    (hfree : config.redeployOnDevice = true ∨ ∀ d ∈ c.devices, d.options.retainCallFrames = false)
    {requests : List Request} {past future : List Moment} {x : Moment}
    (hx : timeline requests m = past ++ x :: future) {mode : PassMode} {frame device task : Nat}
    {events : Option Nat} {window : Option Window} {arguments : List Argument}
    {outcome : Except Fault (Option Note)}
    (hdeed : x.deed = .instruction mode (.launch frame device task events window arguments) outcome)
    (hsubmits : x.SubmitsLaunch) :
    ∃ t entry f, x.before.context.tasks[task]? = some t ∧ x.after.code.get? task = some entry ∧
      Delivery x.before device window arguments t entry f x.after := by
  obtain ⟨-, hafter⟩ := eq_launch_of_deed hx hdeed
  have hcomplete : x.before.Complete := lasting_complete.before (complete_create hm) hx
  have hdelivered := delivered_launch (fillsAnew_before hm hfree hx) hcomplete mode frame
    device task events window arguments
  rw [← hafter] at hdelivered
  rcases hdelivered with ⟨_, hidle⟩ | hdelivered
  · obtain ⟨index, d, d', hd, hd', hgrew⟩ := hsubmits
    have hkinds := kinds_of_idle hidle.core index
    simp [hd, hd', hgrew] at hkinds
  · exact hdelivered

/-- Two launches share a frame, the first with two arguments and the second with one. The second
finds its own argument there and no other. -/
theorem launch_receives_operands_shared :
    let p : Program := ⟨⟨1, 2, 0, [0]⟩,
      [.transfer .copyIn 0 0 none none, .transfer .copyIn 1 0 none none,
        .launch 0 0 0 none none [.reference 0, .constant 0], .launch 0 0 1 none none [.reference 1],
        .finish]⟩
    let c : Context := {
      devices := [{ name := "d0" }]
      objects := [⟨"a", []⟩, ⟨"b", [1, 0, 0, 0]⟩]
      constants := [.f32 0x40000000]
      tasks := [{ name := "scale", accesses := [.readWrite, .read] },
        { name := "add_one", accesses := [.readWrite] }] }
    ∃ m c' past x future, (create p.encode {}).run c = (.ok m, c') ∧
      timeline [.pass .normal .plain] m = past ++ x :: future ∧ past.length = 3 ∧
      x.deed = .instruction .normal (.launch 0 0 1 none none [.reference 1]) (.ok none) ∧
      x.SubmitsLaunch ∧
      ∃ t entry f, x.before.context.tasks[1]? = some t ∧ x.after.code.get? 1 = some entry ∧
        Delivery x.before 0 none [.reference 1] t entry f x.after ∧ f.arguments.length = 1 := by
  intro p c
  have hrun : (((create p.encode {}).outcome c).toOption.map fun m =>
      ((timeline [.pass .normal .plain] m)[3]?.map fun x => (x.deed,
        x.before.context.devices[0]?.map fun d : Device => d.log.kinds,
        x.after.context.devices[0]?.map fun d : Device => d.log.kinds))) =
      some (some (.instruction .normal (.launch 0 0 1 none none [.reference 1]) (.ok none),
        some [.allocate, .write, .allocate, .write, .launch],
        some [.allocate, .write, .allocate, .write, .launch, .launch])) := by
    decide +kernel
  obtain ⟨m, c', hm, hread⟩ := Action.exists_run_of_read hrun
  obtain ⟨x, hx, hlaunch⟩ := Option.map_eq_some_iff.1 hread
  obtain ⟨hdeed, hkinds⟩ := Prod.mk.inj hlaunch
  obtain ⟨hbefore, hafter⟩ := Prod.mk.inj hkinds
  obtain ⟨d, hd, hlog⟩ := Option.map_eq_some_iff.1 hbefore
  obtain ⟨d', hd', hlog'⟩ := Option.map_eq_some_iff.1 hafter
  have hsubmits : x.SubmitsLaunch := ⟨0, d, d', hd, hd', by rw [hlog, hlog']; rfl⟩
  obtain ⟨past, future, htimeline, hlength⟩ := exists_split_at hx
  obtain ⟨t, entry, f, ht, hentry, hdelivery⟩ :=
    launch_receives_operands hm (.inr (by decide)) htimeline hdeed hsubmits
  exact ⟨m, c', _, x, _, hm, htimeline, hlength, hdeed, hsubmits, t, entry, f, ht,
    hentry, hdelivery, hdelivery.operands.length_eq.symm⟩

end Machine

end Offload
