import Offload.Proofs.LaunchOperands
import Offload.Proofs.Mirrors

/-!
# Lazy transfers

A session of plain passes over one prompt device keeps buffers and objects equal wherever the
records say so, if the objects are stored apart and every task declares what its kernel writes. A
launch claims the objects that its task declares before it is submitted, so what the kernel writes
is a buffer of a modified record, and this holds also when the launch fails half-way. A transfer
that is left out because the device holds the object already would have changed nothing, unless the
device holds newer data.
-/

namespace Offload

open Offload.Action

/-! ## Tasks and their kernels -/

/-- The task says that it writes the argument that a kernel writes. -/
def Task.Declares (t : Task) (k : Kernel) : Prop :=
  ∃ output, k.output? = some output ∧ (t.access output).writes = true

namespace Machine.Plan

/-- The kernel of a piece of code is declared by the task of an index. -/
def Admits (p : Plan) (task : Nat) (e : CacheEntry) : Prop :=
  ∀ t, p.outline.tasks[task]? = some t → t.Declares e.code.kernel

/-- Every task declares what the kernels of its name write, and so does it for its code. -/
structure Licensed (p : Plan) : Prop where
  kernels : ∀ b ∈ p.outline.builds, ∀ t ∈ p.outline.tasks, ∀ k,
    b.kernels.get? t.name = some k → t.Declares k
  code : ∀ task e, p.code.get? task = some e → p.Admits task e

end Machine.Plan

/-! ## Compilation -/

namespace Machine

variable {α : Type} {P : Plan → Prop}

theorem exists_of_bind {tasks : List Task} {task device index : Nat} {t' : Task}
    (h : (tasks.modify task fun t => t.bind device)[index]? = some t') :
    ∃ t, tasks[index]? = some t ∧ t'.name = t.name ∧ ∀ k, t.Declares k → t'.Declares k := by
  rw [List.getElem?_modify] at h
  obtain ⟨t, ht, rfl⟩ := Option.map_eq_some_iff.1 h
  refine ⟨t, ht, ?_⟩
  split_ifs
  · exact ⟨rfl, fun k hk => hk⟩
  · exact ⟨rfl, fun k hk => hk⟩

namespace Plan

variable {p : Plan} {task device : Nat} {found : Option InstalledCode}

theorem Admits.tried {e : CacheEntry} {index : Nat} (h : p.Admits index e) :
    (p.tried task device found).Admits index e := by
  intro t' ht'
  obtain ⟨t, ht, -, hdeclares⟩ := exists_of_bind ht'
  exact hdeclares _ (h t ht)

theorem Licensed.tried (h : p.Licensed)
    (hfound : ∀ code, found = some code → p.Admits task { code, device }) :
    (p.tried task device found).Licensed := by
  refine ⟨fun b hb t' ht' k hk => ?_, fun index e he => Admits.tried ?_⟩
  · obtain ⟨index, hindex⟩ := List.mem_iff_getElem?.1 ht'
    obtain ⟨t, ht, hname, hdeclares⟩ := exists_of_bind hindex
    rw [hname] at hk
    exact hdeclares k (h.kernels b hb t (List.mem_of_getElem? ht) k hk)
  · cases found with
    | none => exact h.code index e (by rwa [← CodeCache.get?_recordFailure])
    | some code =>
      rcases CodeCache.get?_of_install he with hold | ⟨rfl, rfl⟩
      · exact h.code index e hold
      · exact hfound code rfl

end Plan

/-- What is compiled is declared by its task. -/
theorem Resolving.licensed {m m' : Machine} {task device : Nat}
    {v : Except Fault (Option CacheEntry)} (h : m.Resolving task device v m')
    (hm : m.plan.Licensed) :
    m'.plan.Licensed ∧ ∀ e, v = .ok (some e) → m'.plan.Admits task e := by
  cases h with
  | found hcode =>
    refine ⟨hm, ?_⟩
    rintro _ ⟨⟩
    exact hm.code task _ hcode
  | missing => exact ⟨hm, fun e he => by cases he⟩
  | @compiled d t found journal hcode hd ht hfound =>
    have hadmits : ∀ code, found = some code → m.plan.Admits task { code, device } := by
      rintro _ rfl t' ht'
      cases ht.symm.trans ht'
      obtain ⟨kernel, hkernel, rfl⟩ := Option.map_eq_some_iff.1 hfound.symm
      exact hm.kernels d.build (List.mem_map_of_mem (List.mem_of_getElem? hd)) t
        (List.mem_of_getElem? ht) _ hkernel
    rw [plan_compiled hd]
    refine ⟨hm.tried hadmits, fun e he => ?_⟩
    obtain ⟨code, hcode, rfl⟩ := Option.map_eq_some_iff.1 (verdict_eq_ok he).symm
    exact (hadmits code hcode).tried

end Machine

/-! ## Launches -/

/-- What is compiled and claimed on the way to a launch leaves a store faithful. -/
theorem Store.Faithful.of_core {s s' : Store} {device : Nat} {W : Nat → Prop} (hs : s.Faithful)
    (hcore : s'.context.core = s.context.core) (hclaimed : s.table.Claimed device W s'.table) :
    s'.Faithful := by
  have hobjects : s'.context.objects = s.context.objects := congrArg Context.Core.objects hcore
  have hplaces : s'.context.places = s.context.places := congrArg Context.Core.places hcore
  have hextents : s'.context.extents = s.context.extents := by
    rw [Context.extents, hplaces, hobjects, Context.extents]
  have hdevices : ∀ i : Nat, s'.context.devices[i]?.map Device.uncompiled =
      s.context.devices[i]?.map Device.uncompiled := by
    intro i
    rw [← List.getElem?_map, ← List.getElem?_map]
    exact congrArg (fun k => (Context.Core.devices k)[i]?) hcore
  -- A record is as it was, or it is one that was claimed.
  have hrecords : ∀ {o i r'}, s'.table.get? o i = some r' →
      s.table.get? o i = some r' ∨ ∃ r, s.table.get? o i = some r ∧ r.valid = true ∧
        r' = { r with valid := true, modified := true } := by
    intro o i r' hr'
    by_cases hw : W o ∧ i = device
    · obtain ⟨ho, rfl⟩ := hw
      obtain ⟨r, hr, -, hvalid, hnow, -⟩ := hclaimed.written o ho
      exact .inr ⟨r, hr, hvalid, Option.some.inj (hr'.symm.trans hnow)⟩
    · exact .inl (hclaimed.records o i hw ▸ hr')
  have hlive : ∀ {i a bytes}, s.Live i a bytes → s'.Live i a bytes := by
    rintro i a bytes ⟨d, hd, hissued, hget, hlength⟩
    have hsame := hdevices i
    rw [hd, Option.map_some] at hsame
    obtain ⟨d', hd', hcompiled⟩ := Option.map_eq_some_iff.1 hsame
    have hnext : d'.nextBuffer = d.nextBuffer := (congrArg Device.nextBuffer hcompiled :)
    have hmemory : d'.memory = d.memory := (congrArg Device.memory hcompiled :)
    exact ⟨d', hd', hnext ▸ hissued, hmemory ▸ hget, hlength⟩
  refine ⟨hs.trusty.settle (fun d' hd' => ?_) fun {o i r'} hr' => ?_, fun o i r' hr' => ?_,
    hplaces ▸ hs.apart⟩
  · obtain ⟨i, hi⟩ := List.mem_iff_getElem?.1 hd'
    have hsame := hdevices i
    rw [hi, Option.map_some] at hsame
    obtain ⟨d, hd, hcompiled⟩ := Option.map_eq_some_iff.1 hsame.symm
    have hquiet := hs.trusty.found hd
    exact ⟨congrArg (fun d : Device => d.options.deferred) hcompiled ▸ hquiet.eager,
      congrArg Device.queue hcompiled ▸ hquiet.idle⟩
  · rcases hrecords hr' with hr | ⟨r, hr, -, rfl⟩
    · refine ⟨r', hr, rfl, fun {a bytes} _ h hright => ⟨bytes, hlive h, ?_⟩⟩
      rwa [Store.Right, hobjects, hplaces]
    · exact ⟨r, hr, rfl, fun {a bytes} _ h _ => ⟨bytes, hlive h, fun hclean => by cases hclean.2⟩⟩
  · rw [Store.bytesOf_of_extents hextents]
    rcases hrecords hr' with hr | ⟨r, hr, hvalid, rfl⟩
    · exact hs.whole o i r' hr
    · obtain ⟨hfirst, hwindow, hbuffer, hsize⟩ := hs.whole o i r hr
      exact ⟨hfirst, hwindow, fun _ => hbuffer hvalid, hsize⟩

theorem Store.Faithful.aside {s : Store} (hs : s.Faithful) (journal : Journal) :
    ({ s with context := { s.context with journal } } : Store).Faithful :=
  hs.of_trusty ⟨hs.trusty.quiet, hs.trusty.right, hs.trusty.single⟩ rfl rfl rfl

theorem exists_of_forall₂ {α β : Type} {R : α → β → Prop} {as : List α} {bs : List β}
    (h : List.Forall₂ R as bs) {k : Nat} {b : β} (hb : bs[k]? = some b) :
    ∃ a, as[k]? = some a ∧ R a b := by
  obtain ⟨hk, rfl⟩ := List.getElem?_eq_some_iff.1 hb
  have hk' : k < as.length := h.length_eq ▸ hk
  exact ⟨_, List.getElem?_eq_getElem hk', h.get hk' hk⟩

namespace Machine

variable {m : Machine}

/-- A machine with faithful records, whose tasks declare what their kernels write and whose launches
fill their frames anew. -/
structure Trusty (m : Machine) : Prop where
  faithful : m.store.Faithful
  licensed : m.plan.Licensed
  unretained : m.Unretained
  complete : m.Complete

theorem keeps_licensed_launch (mode : PassMode) (frame device task : Nat) (events : Option Nat)
    (window : Option Window) (arguments : List Argument) :
    Keeps (PlanOf Plan.Licensed) (launch mode frame device task events window arguments) :=
  frameKeeps_plan.launch
    (keeps_of_run fun _ _ _ hm hcode => ((resolving_of_run hcode).licensed hm).1)

/-- The buffer that a launch writes is that of an object that its task declares. -/
theorem Trusty.launch (hm : m.Trusty) (mode : PassMode) (frame device task : Nat)
    (events : Option Nat) (window : Option Window) (arguments : List Argument) :
    ((launch mode frame device task events window arguments).run m).2.store.Faithful := by
  have hlicensed := meets_iff_after.1
    (keeps_licensed_launch mode frame device task events window arguments) m hm.licensed
  have hdelivered := delivered_launch (.inr hm.unretained.frames) hm.complete mode frame device task
    events window arguments
  generalize ((Machine.launch mode frame device task events window arguments).run m).2 =
    m' at hlicensed hdelivered ⊢
  rcases hdelivered with
    ⟨W, hgather⟩ | ⟨t, entry, f, ht, hentry, ⟨c, d, wait, hcore, hd, hcontext⟩, hoperands, hclaimed⟩
  · exact hm.faithful.of_core hgather.core hgather.table
  · have hmiddle : Store.Faithful ⟨c, m'.store.table⟩ := hm.faithful.of_core hcore hclaimed
    have hidle : Idle { m with store := ⟨c, m'.store.table⟩ } m := hcore.symm
    obtain ⟨t', ht', hunbound⟩ := task_of_idle hidle ht
    have htasks : m'.plan.outline.tasks = c.tasks := (congrArg Context.tasks hcontext :)
    obtain ⟨output, houtput, hwrites⟩ := hlicensed.code task entry hentry t' (htasks ▸ ht')
    rw [← Task.access_eq hunbound] at hwrites
    have hstore : m'.store = Store.onStation ⟨c, m'.store.table⟩ entry.device
        ((Station.launch entry.code f t.name window wait).run (c.station d)).2 :=
      congrArg (Store.mk · m'.store.table) hcontext
    rw [hstore]
    refine hmiddle.launch hd houtput (fun b hb => ?_) t.name window wait
    -- What the kernel writes is an object that the task declares, and that was claimed.
    rw [List.getElem?_map] at hb
    obtain ⟨a, ha, hbuffer⟩ := Option.map_eq_some_iff.1 hb
    obtain ⟨argument, hargument, hreceives⟩ := exists_of_forall₂ hoperands ha
    cases hreceives with
    | constant => cases hbuffer
    | @reference object r allocation label hr hallocation =>
      cases hbuffer
      obtain rfl := (hm.faithful.whole object device r hr).first
      obtain ⟨r', hr', -, -, hnow, -⟩ := hclaimed.written object ⟨output, hargument, hwrites⟩
      cases hr.symm.trans hr'
      exact ⟨object, _, allocation, hnow, hallocation, rfl, rfl⟩

/-! ## Passes -/

end Machine

/-- An instruction over whole objects, or one that is not about objects. -/
abbrev Instruction.Plain (i : Instruction) : Prop := PassKind.plain.accepts i.opcode = true

/-- A deed of a plain pass, or one that is not about a pass. -/
def Deed.Plain : Deed → Prop
  | .instruction _ i _ => i.Plain
  | .ending .. | .invalidation => True

/-- A request for a plain pass, or one that is not for a pass. -/
def Request.Plain : Request → Prop
  | .pass _ kind => kind = .plain
  | .invalidate => True

namespace Machine

variable {m : Machine}

theorem keeps_faithful_work {i : Instruction} (hi : i.Plain) (wait : List EventId) :
    Keeps Store.Faithful (i.work wait) := by
  have hwork : ∀ op : Store.Operation, op.Whole → Keeps Store.Faithful (Store.operate op) :=
    fun _ hop => meets_iff_after.2 fun _ hs => hs.operate hop
  cases i with
  | allocate object device window =>
    cases window with
    | none => exact hwork (.allocate object device none) rfl
    | some w => cases hi
  | transfer op object device events window =>
    cases window with
    | none =>
      cases op with
      | copyIn => exact hwork (.copyIn object device none wait) rfl
      | streamIn => exact hwork (.streamIn object device none wait) rfl
      | streamOut blocking => exact hwork (.streamOut object device none wait blocking) rfl
    | some w => cases hi
  | barrier =>
    exact keeps_bind (Store.keeps_faithful_onDevice fun _ => Station.keeps_stands_marker wait)
      fun _ => keeps_pure
  | addDep | launch | finish => exact keeps_pure

theorem Trusty.effect (hm : m.Trusty) (mode : PassMode) {i : Instruction} (hi : i.Plain) :
    ((effect mode i).run m).2.Trusty := by
  have hlicensed : Keeps (PlanOf Plan.Licensed) (Machine.effect mode i) :=
    keeps_effect_of_work (fun _ _ _ => id)
      (fun wait => keeps_plan_inStore fun _ => Store.keeps_outline_work i wait)
      (keeps_licensed_launch mode)
  refine ⟨?_, meets_iff_after.1 hlicensed m hm.licensed,
    meets_iff_after.1 (keeps_unretained_effect mode i) m hm.unretained,
    meets_iff_after.1 (keeps_complete_effect mode i) m hm.complete⟩
  have hperform : Keeps (fun m : Machine => m.store.Faithful) (perform i) :=
    keeps_perform_of_work (fun _ _ _ => id) fun wait => meets_inStore (keeps_faithful_work hi wait)
  cases i with
  | launch => exact hm.launch mode _ _ _ _ _ _
  | _ =>
    cases mode with
    | normal => exact meets_iff_after.1 hperform m hm.faithful
    | warmup => exact hm.faithful

theorem Trusty.closing (hm : m.Trusty) (mode : PassMode) (kind : PassKind)
    (body : Except Fault Unit) :
    ((closing mode kind body).run m).2.Trusty := by
  have hend : EndKeeps fun m : Machine => m.store.Faithful := {
    marker := fun _ =>
      meets_inStore (Store.keeps_faithful_onDevice fun _ => Station.keeps_stands_marker [])
    resolve := fun _ event =>
      meets_inStore (Store.keeps_faithful_onDevice fun _ => Station.keeps_stands_resolve event)
    flush := fun _ =>
      meets_inStore (Store.keeps_faithful_onDevice fun _ => Station.keeps_stands_flush)
    emptied := fun _ => id
    profiled := fun _ _ => id }
  have hlog : ∀ level text, Keeps (fun m : Machine => m.store.Faithful) (log level text) :=
    fun _ _ => meets_iff_after.2 fun _ hm => hm.aside _
  refine ⟨meets_iff_after.1 (hend.closing hlog (fun _ _ _ _ => id) mode kind body) m hm.faithful,
    ?_, meets_iff_after.1 (keeps_unretained_closing mode kind body) m hm.unretained,
    meets_iff_after.1 (keeps_complete_closing mode kind body) m hm.complete⟩
  rw [plan_closing]
  exact ⟨hm.licensed.kernels, hm.licensed.code⟩

/-- As long as only whole objects are worked on, the machine stays trusty. -/
theorem lasting_trusty : Lasting fun past m => (∀ y ∈ past, y.deed.Plain) → m.Trusty := by
  refine lasting_of_aside (fun _ journal _ _ _ hm hpast => ?_) (fun {past m} mode i hm hpast => ?_)
    (fun mode kind body hm hpast => ?_) fun hm hpast => ?_
  · obtain ⟨hfaithful, hlicensed, hunretained, hcomplete⟩ := hm hpast
    exact ⟨hfaithful.aside journal, ⟨hlicensed.kernels, hlicensed.code⟩,
      ⟨hunretained.devices, hunretained.frames⟩, hcomplete⟩
  · have hi : (Moment.carry mode i m).deed.Plain := hpast _ (by simp)
    exact (hm fun y hy => hpast y (List.mem_append_left _ hy)).effect mode hi
  · exact (hm fun y hy => hpast y (List.mem_append_left _ hy)).closing mode kind body
  · obtain ⟨hfaithful, hlicensed, hunretained, hcomplete⟩ := hm fun y hy =>
      hpast y (List.mem_append_left _ hy)
    have hforgotten := hfaithful.operate (show Store.Operation.invalidate.Whole from trivial)
    exact ⟨hforgotten, hlicensed, ⟨hunretained.devices, hunretained.frames⟩, hcomplete⟩

/-! ## Plain passes -/

theorem plain_of_mem_timeline {requests : List Request}
    (hrequests : ∀ request ∈ requests, request.Plain) {x : Moment} (hx : x ∈ timeline requests m) :
    x.deed.Plain := by
  induction requests generalizing m with
  | nil => cases hx
  | cons request others ih =>
    obtain ⟨hrequest, hothers⟩ := List.forall_mem_cons.1 hrequests
    rcases List.mem_append.1 hx with hx | hx
    · cases request with
      | invalidate =>
        cases List.mem_singleton.1 hx
        trivial
      | pass mode kind =>
        cases hrequest
        rcases List.mem_append.1 hx with hx | hx
        · obtain ⟨i, hplain, hcarry⟩ := eq_of_mem_bodyMoments hx
          rw [hcarry]
          exact hplain
        · cases List.mem_singleton.1 hx
          trivial
    · exact ih hothers hx

/-- What a transfer that was left out has found and left. -/
theorem skipped_of_copyIn {m' : Machine} {object device : Nat} {events : Option Nat}
    {window : Option Window} (h : (perform (.transfer .copyIn object device events window)).run m =
      (.ok (some .alreadyValid), m')) :
    (∃ r, m.store.table.record object device = .ok r ∧ r.holds window = true) ∧
      m.store.SameContents m'.store := by
  let Skipped (event : Option EventId) (s : Store) : Prop := event = none →
    (∃ r, m.store.table.record object device = .ok r ∧ r.holds window = true) ∧
      m.store.SameContents s
  have hperform : Meets (fun m' => m'.store = m.store)
      (perform (.transfer .copyIn object device events window))
      (fun note m' => note = some .alreadyValid → Skipped none m'.store) (fun _ => True) := by
    refine meets_then (keeps_waitList (I := (· = m.store)) events) (fun _ _ => trivial)
      fun wait => ?_
    refine meets_bind
      (meets_inStore (Store.meets_copyIn_skipped m.store object device window wait)) fun event => ?_
    refine meets_then (keeps_setLastEvent (I := Skipped event) event) (fun _ _ => trivial)
      fun _ => ?_
    refine meets_then (keeps_resetList (I := Skipped event) events) (fun _ _ => trivial)
      fun _ => meets_pure fun m' hm' hnote => ?_
    cases event with
    | none => exact hm'
    | some event => cases hnote
  have hrun := hperform m rfl
  rw [h] at hrun
  exact hrun rfl rfl

end Machine

/-! ## Sessions -/

/-- A device that runs its commands at once and keeps no arguments of launches. -/
structure Device.Prompt (d : Device) : Prop where
  eager : d.options.deferred = false
  forgets : d.options.retainCallFrames = false
  idle : d.queue = []

/-- One prompt device, objects that are stored apart, and tasks that declare what the kernels of
their names write. -/
structure Context.Tame (c : Context) : Prop where
  device : ∃ d, c.devices = [d] ∧ d.Prompt
  apart : c.places.Nodup
  declared : ∀ d ∈ c.devices, ∀ t ∈ c.tasks, ∀ k, d.kernels.get? t.name = some k → t.Declares k

/-- Before and after a deed, buffers equal objects where the records say so; and a transfer is left
out only if it would have changed nothing or the device holds newer data. -/
structure Moment.Mirrored (x : Moment) : Prop where
  before : x.before.store.Mirrored
  after : x.after.store.Mirrored
  skipped : ∀ mode object device events window,
    x.deed = .instruction mode (.transfer .copyIn object device events window)
        (.ok (some .alreadyValid)) →
      ∃ r, x.before.store.table.record object device = .ok r ∧ r.valid = true ∧
        (r.modified = true ∨ ∀ wait, ∃ event s,
          (Store.streamIn object device window wait).run x.before.store = (.ok event, s) ∧
            x.after.store.SameContents s)

namespace Machine

theorem keeps_tame_start (code : Bytes) : Keeps Context.Tame (start code) := by
  refine keeps_start_of_load (fun index => ?_) (fun c _ _ hc => ⟨hc.device, hc.apart, hc.declared⟩)
    code
  refine Context.meets_onDevice (fun _ => id) fun c d hc hd => meets_modify ?_
  rintro _ rfl
  obtain ⟨d', hdevices, hprompt⟩ := hc.device
  have hloaded : c.devices.set index { d with loaded := true } = [{ d with loaded := true }] ∧
      d = d' := by
    rw [hdevices] at hd ⊢
    cases index with
    | zero =>
      cases hd
      exact ⟨rfl, rfl⟩
    | succ index => cases hd
  obtain ⟨hset, rfl⟩ := hloaded
  refine ⟨⟨_, hset, hprompt.eager, hprompt.forgets, hprompt.idle⟩, hc.apart,
    fun d' hd' t ht k hk => ?_⟩
  rw [Context.withStation] at hd'
  rw [show (Station.onDevice _ _).device = { d with loaded := true } from rfl, hset] at hd'
  cases List.mem_singleton.1 hd'
  exact hc.declared d (List.mem_of_getElem? hd) t ht k hk

theorem trusty_create {code : Bytes} {config : Config} {c c' : Context}
    (hm : (create code config).run c = (.ok m, c')) (hc : c.Tame) : m.Trusty := by
  have hcreate : Keeps Context.Tame (create code config) :=
    keeps_bind (keeps_tame_start code) fun _ => keeps_get fun _ => keeps_pure
  have hc' := hcreate.of_run hm hc
  have hunretained := unretained_create (fun d hd => ?_) hm
  · have hcomplete := complete_create hm
    obtain ⟨header, reader, rfl⟩ := eq_initial_of_create hm
    obtain ⟨d, hdevices, hprompt⟩ := hc'.device
    refine ⟨⟨Store.trusty_new fun d' hd' => ?_, fun o i r hr => ?_, hc'.apart⟩, ⟨?_, ?_⟩,
      hunretained, hcomplete⟩
    · rw [hdevices] at hd'
      cases List.mem_singleton.1 hd'
      exact ⟨hprompt.eager, hprompt.idle⟩
    · have hr : (Table.new c'.places.length c'.devices.length).get? o i = some r := hr
      rw [hdevices, Table.get?_new] at hr
      split_ifs at hr with hknown
      cases hr
      exact ⟨Nat.lt_one_iff.1 hknown.2, rfl, by simp, by simp⟩
    · intro b hb t ht k hk
      obtain ⟨d', hd', rfl⟩ := List.mem_map.1 hb
      exact hc'.declared d' hd' t ht k hk
    · intro task e he
      cases (CodeCache.get?_new header.tasks task).symm.trans he
  · obtain ⟨d', hdevices, hprompt⟩ := hc.device
    rw [hdevices] at hd
    cases List.mem_singleton.1 hd
    exact hprompt.forgets

/-- In a session of plain passes over a tame context, every buffer whose record is valid and not
modified equals its object at all times, and a lazy transfer is left out only if it would have
changed nothing or the device holds newer data. -/
theorem timeline_mirrored {code : Bytes} {config : Config} {c c' : Context} {m : Machine}
    (hm : (create code config).run c = (.ok m, c')) (hc : c.Tame) {requests : List Request}
    (hrequests : ∀ request ∈ requests, request.Plain) {past future : List Moment} {x : Moment}
    (hx : timeline requests m = past ++ x :: future) : x.Mirrored := by
  have htrusty := trusty_create hm hc
  have hplain : ∀ y ∈ past ++ [x], y.deed.Plain := by
    intro y hy
    refine plain_of_mem_timeline hrequests (m := m) ?_
    rw [hx]
    simp at hy ⊢
    tauto
  have hbefore := lasting_trusty.before (fun _ => htrusty) hx
    fun y hy => hplain y (List.mem_append_left _ hy)
  have hafter := lasting_trusty.after (fun _ => htrusty) hx hplain
  refine ⟨hbefore.faithful.mirrored, hafter.faithful.mirrored, ?_⟩
  intro mode object device events window hdeed
  have hrun := run_effect_of_deed hx hdeed
  have hwindow : window = none := by
    have hinstruction := hplain x (by simp)
    rw [hdeed] at hinstruction
    cases window with
    | none => rfl
    | some w => cases hinstruction
  subst hwindow
  cases mode with
  | warmup => cases hrun
  | normal =>
    obtain ⟨⟨r, hr, hholds⟩, hsame⟩ := skipped_of_copyIn hrun
    have hvalid : r.valid = true := (Bool.and_eq_true_iff.1 hholds).1
    refine ⟨r, hr, hvalid, ?_⟩
    cases hmodified : r.modified with
    | true => exact .inl rfl
    | false =>
      refine .inr fun wait => ?_
      obtain ⟨event, s, hsend, hcontents⟩ := hbefore.faithful.run_streamIn hr hvalid hmodified wait
      exact ⟨event, s, hsend, hsame.of_common hcontents⟩

/-- A launch adds one to an object and the result is read back. The transfer after that is left out,
with the record unmodified. -/
theorem timeline_mirrored_after_launch :
    let p : Program := ⟨⟨1, 1, 0, []⟩,
      [.transfer .copyIn 0 0 none none, .launch 0 0 0 none none [.reference 0],
        .transfer (.streamOut true) 0 0 none none, .transfer .copyIn 0 0 none none, .finish]⟩
    let c : Context := {
      devices := [{ name := "d" }]
      objects := [⟨"a", [1, 0, 0, 0]⟩]
      constants := []
      tasks := [⟨"add_one", [.readWrite], none, false⟩] }
    ∃ m c' past x future, (create p.encode {}).run c = (.ok m, c') ∧ c.Tame ∧
      timeline [.pass .normal .plain] m = past ++ x :: future ∧
      x.deed = .instruction .normal (.transfer .copyIn 0 0 none none) (.ok (some .alreadyValid)) ∧
      x.before.store.table.record 0 0 = .ok { allocation := some ⟨0, 4⟩, valid := true } ∧
      x.before.context.objects = [⟨"a", [2, 0, 0, 0]⟩] ∧ x.Mirrored := by
  intro p c
  have hrun : (((create p.encode {}).outcome c).toOption.map fun m =>
      ((timeline [.pass .normal .plain] m)[3]?.map fun x =>
        (x.deed, (x.before.store.table.record 0 0).toOption, x.before.context.objects))) =
      some (some (.instruction .normal (.transfer .copyIn 0 0 none none) (.ok (some .alreadyValid)),
        some { allocation := some ⟨0, 4⟩, valid := true }, [⟨"a", [2, 0, 0, 0]⟩])) := by
    decide +kernel
  have htame : c.Tame := by
    refine ⟨⟨_, rfl, rfl, rfl, rfl⟩, by decide, fun d hd t ht k hk => ?_⟩
    cases List.mem_singleton.1 hd
    cases List.mem_singleton.1 ht
    have hkernel : Registry.builtin.get? "add_one" = some .addOne := rfl
    cases hkernel.symm.trans hk
    exact ⟨0, rfl, rfl⟩
  obtain ⟨m, c', hm, hread⟩ := Action.exists_run_of_read hrun
  obtain ⟨x, hx, hfacts⟩ := Option.map_eq_some_iff.1 hread
  obtain ⟨hdeed, hfacts⟩ := Prod.mk.inj hfacts
  obtain ⟨hrecord, hobjects⟩ := Prod.mk.inj hfacts
  obtain ⟨past, future, htimeline, hlength⟩ := exists_split_at hx
  have hplain : ∀ request ∈ [Request.pass .normal .plain], request.Plain := by
    intro request hrequest
    cases List.mem_singleton.1 hrequest
    rfl
  exact ⟨m, c', _, x, _, hm, htame, htimeline, hdeed, eq_ok_of_toOption hrecord, hobjects,
    timeline_mirrored hm htame hplain htimeline⟩

end Machine

end Offload
