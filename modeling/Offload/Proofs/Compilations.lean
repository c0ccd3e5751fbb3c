import Offload.Proofs.Script
import Offload.Proofs.WarmUp

/-!
# Compilations

Tasks are compiled by launches, and all that a compilation changes is in the books: the slot of the
task, the device to which the task is bound, and the number of compilations of that device. A launch
reaches the compiler if there is such a device and such a task and the task has no code. So a slot
is filled once, and slots and devices count the same compilations.
-/

namespace Offload

open Offload.Action

/-- What compilation is about: the code, the tasks, and how often each device has compiled. -/
structure Books where
  code : CodeCache
  tasks : List Task
  compilations : List Nat

/-- The books after a compilation. -/
def Books.tried (b : Books) (task device : Nat) (found : Option InstalledCode) : Books where
  code := b.code.tried task device found
  tasks := b.tasks.modify task fun t => t.bind device
  compilations := b.compilations.modify device (· + 1)

def Device.compilations (d : Device) : Nat := d.counters.compilations

theorem Device.aloof_compilations : Device.Aloof Device.compilations := fun _ _ _ _ _ _ => id

variable {device task : Nat}

namespace Machine

variable {α : Type} {B : Books → Prop}

def books (m : Machine) :
    Books := ⟨m.code, m.context.tasks, m.context.devices.map Device.compilations⟩

/-- What is known of the books of a machine. -/
abbrev BooksOf (B : Books → Prop) (m : Machine) : Prop := B m.books

/-! ## What leaves the books alone -/

theorem keeps_books_inStore {x : StoreAction α}
    (hx : ∀ C : Context.View Nat → Prop,
      Keeps (fun s => C (s.context.view Device.compilations)) x) :
    Keeps (BooksOf B) (inStore x) := by
  refine meets_focus fun m hm => ?_
  refine meets_weaken (hx fun v => B ⟨m.code, v.tasks, v.devices⟩) ?_ (fun _ _ => id) fun _ => id
  rintro _ rfl
  exact hm

theorem keeps_books_onDevice {index : Nat} {x : DeviceAction α}
    (hx : ∀ V, Keeps (Station.Seen Device.compilations V) x) :
    Keeps (BooksOf B) (onDevice index x) :=
  keeps_books_inStore fun _ => Store.keeps_view_onDevice hx

theorem keeps_books_log (level : Level) (text : String) : Keeps (BooksOf B) (log level text) :=
  meets_iff_after.2 fun _ => id

theorem upkeep_books (C : Context.View Nat → Prop) : Store.Upkeep (fun _ => True)
    (fun s => C (s.context.view Device.compilations))
    (fun s => C (s.context.view Device.compilations)) :=
  Store.upkeep_view Device.aloof_compilations _

theorem keeps_books_perform (i : Instruction) : Keeps (BooksOf B) (perform i) :=
  keeps_perform_of_work (fun _ _ _ => id) fun _ => keeps_books_inStore fun C =>
    (upkeep_books C).work
      (fun wait _ => Store.keeps_view_onDevice fun _ =>
        (Station.upkeep_seen Device.aloof_compilations).marker wait)
    i trivial

theorem launchKeeps_books : LaunchKeeps (BooksOf B) where
  log := keeps_books_log
  claim object device := keeps_books_inStore fun C => (upkeep_books C).claim object device
  submit _ code f name window wait :=
    keeps_books_onDevice fun _ =>
      (Station.upkeep_seen Device.aloof_compilations).launch code f name window wait
  aside _ _ _ _ hm := hm

theorem keeps_books_closing (mode : PassMode) (kind : PassKind) (body : Except Fault Unit) :
    Keeps (BooksOf B) (closing mode kind body) := by
  have hend : EndKeeps (BooksOf B) := {
    marker := fun _ => keeps_books_onDevice fun _ =>
      (Station.upkeep_seen Device.aloof_compilations).marker []
    resolve := fun _ event =>
      keeps_books_onDevice fun _ => (Station.upkeep_seen Device.aloof_compilations).resolve event
    flush := fun _ => keeps_books_onDevice fun _ =>
      (Station.upkeep_seen Device.aloof_compilations).flush
    emptied := fun _ => id
    profiled := fun _ _ hm => hm }
  exact hend.closing keeps_books_log (fun _ _ _ _ => id) mode kind body

/-! ## What launches do to the books -/

/-- A launch of a task on a device reaches the compiler. -/
def Reaches (m : Machine) (task device : Nat) : Prop :=
  (m.code.get? task).isNone ∧ device < m.context.devices.length ∧ task < m.context.tasks.length

instance (m : Machine) (task device : Nat) : Decidable (m.Reaches task device) :=
  inferInstanceAs (Decidable (_ ∧ _))

theorem map_set_compilations {devices : List Device} {d : Device} (hd : devices[device]? = some d) :
    (devices.set device (asked d)).map Device.compilations =
      (devices.map Device.compilations).modify device (· + 1) := by
  apply List.ext_getElem?
  intro j
  rw [List.getElem?_map, List.getElem?_modify, List.getElem?_map, List.getElem?_set]
  by_cases hj : device = j
  · subst hj
    obtain ⟨hlt, hget⟩ := List.getElem?_eq_some_iff.1 hd
    simp [hlt, hget, asked, Device.compilations]
  · simp [hj]

/-- The books after a launch. -/
def BookedFrom (m : Machine) (task device : Nat) (b : Books) : Prop :=
  (m.Reaches task device → ∃ found, b = m.books.tried task device found) ∧
    (¬ m.Reaches task device → b = m.books)

theorem Resolving.booked {m m' : Machine} {v : Except Fault (Option CacheEntry)}
    (h : m.Resolving task device v m') : m.BookedFrom task device m'.books := by
  cases h with
  | found hcode => exact ⟨fun hreaches => by simp [Reaches, hcode] at hreaches, fun _ => rfl⟩
  | missing hcode hmissing =>
    refine ⟨fun hreaches => ?_, fun _ => rfl⟩
    obtain ⟨-, hdevice, htask⟩ := hreaches
    rcases hmissing with hd | ht
    · exact absurd hdevice (Nat.not_lt.2 (List.getElem?_eq_none_iff.1 hd))
    · exact absurd htask (Nat.not_lt.2 (List.getElem?_eq_none_iff.1 ht))
  | @compiled d t found journal hcode hd ht hfound =>
    refine ⟨fun _ => ⟨found, ?_⟩, fun hreaches => ?_⟩
    · exact congrArg (Books.mk (m.code.tried task device _)
        (m.context.tasks.modify task fun t => t.bind device)) (map_set_compilations hd)
    · exact absurd ⟨by simp [hcode], (List.getElem?_eq_some_iff.1 hd).1,
        (List.getElem?_eq_some_iff.1 ht).1⟩ hreaches

theorem booked_launch (m : Machine) (mode : PassMode) (frame device task : Nat)
    (events : Option Nat) (window : Option Window) (arguments : List Argument) :
    m.BookedFrom task device
      ((launch mode frame device task events window arguments).run m).2.books := by
  cases hd : m.context.devices[device]? with
  | none =>
    have hreaches : ¬ m.Reaches task device := fun h => by
      have := List.getElem?_eq_none_iff.1 hd
      have := h.2.1
      omega
    rw [run_launch_of_none hd]
    exact ⟨fun h => absurd h hreaches, fun _ => rfl⟩
  | some d =>
    rw [run_launch_of_device hd]
    have hcode : Meets (· = m) (resolveCode task device)
        (fun _ => BooksOf (m.BookedFrom task device)) (BooksOf (m.BookedFrom task device)) :=
      meets_iff_after.2 fun m' hm' => hm' ▸ (resolving_of_run rfl).booked
    have hlaunch := meets_bind hcode fun code =>
      launchKeeps_books.frameKeeps.launchWith mode frame device task events window arguments code
    exact meets_iff_after.1 hlaunch m rfl

end Machine

/-! ## Moments -/

variable {x : Moment}

namespace Moment

open Machine

/-- The task and the device of a launch that reached the compiler. -/
def compilation? (x : Moment) : Option (Nat × Nat) :=
  match x.deed with
  | .instruction _ (.launch _ device task _ _ _) _ =>
    if x.before.Reaches task device then some (task, device) else none
  | .instruction _ (.allocate ..) _ | .instruction _ (.transfer ..) _ | .instruction _ (.addDep _) _
  | .instruction _ (.barrier _) _ | .instruction _ .finish _ | .ending .. | .invalidation => none

/-- Whether a launch that reached the compiler has its code. -/
def isEquipped (x : Moment) : Bool := x.compilation?.all fun p => x.after.code.isInstalled p.1

/-- How many launches of a task have reached the compiler. -/
def compiled (xs : List Moment) (task : Nat) : Nat :=
  xs.countP fun x => x.compilation?.map Prod.fst = some task

/-- A moment in the books: they are as they were, or they have one compilation more. -/
structure Booked (x : Moment) : Prop where
  idle : x.compilation? = none → x.after.books = x.before.books
  compiles : ∀ task device, x.compilation? = some (task, device) →
    ∃ found, x.after.books = x.before.books.tried task device found

theorem reaches_of_compilation? (h : x.compilation? = some (task, device)) :
    x.before.Reaches task device := by
  unfold compilation? at h
  split at h
  · split at h
    · cases h
      assumption
    · cases h
  all_goals cases h

theorem booked_carry (mode : PassMode) (i : Instruction) (m : Machine) :
    (carry mode i m).Booked := by
  cases i with
  | launch frame device task events window arguments =>
    have hbooked := booked_launch m mode frame device task events window arguments
    have hcompilation : (carry mode (.launch frame device task events window arguments)
        m).compilation? =
        if m.Reaches task device then some (task, device) else none := rfl
    by_cases hreaches : m.Reaches task device
    · rw [if_pos hreaches] at hcompilation
      refine ⟨fun hnone => by simp [hcompilation] at hnone, fun task' device' hsome => ?_⟩
      rw [hcompilation] at hsome
      cases hsome
      exact hbooked.1 hreaches
    · rw [if_neg hreaches] at hcompilation
      exact ⟨fun _ => hbooked.2 hreaches,
        fun task' device' hsome => by simp [hcompilation] at hsome⟩
  | _ =>
    refine ⟨fun _ => ?_, fun _ _ hsome => by cases hsome⟩
    cases mode with
    | warmup => rfl
    | normal =>
      simp only [carry, effect, if_true]
      exact meets_iff_after.1 (keeps_books_perform (B := (· = m.books)) _) m rfl

theorem compiled_append (xs : List Moment) (x : Moment) (task : Nat) :
    compiled (xs ++ [x]) task =
      compiled xs task + if x.compilation?.map Prod.fst = some task then 1 else 0 := by
  unfold compiled
  rw [List.countP_append, List.countP_singleton]
  simp only [decide_eq_true_eq]

end Moment

/-! ## The books -/

namespace CodeCache

theorem total_map {α β : Type} (f : α → β) (measure : β → Nat) (l : List α) :
    total measure (l.map f) = total (fun a => measure (f a)) l := by
  induction l with
  | nil => rfl
  | cons a l ih => simp [total, ih]

theorem total_modify {α : Type} {measure : α → Nat} {f : α → α}
    (hf : ∀ a, measure (f a) = measure a + 1) {l : List α} {i : Nat} (hi : i < l.length) :
    total measure (l.modify i f) = total measure l + 1 := by
  induction l generalizing i with
  | nil => simp at hi
  | cons a l ih =>
    cases i with
    | zero => simp [total, hf]; omega
    | succ i =>
      have hrest := ih (Nat.lt_of_succ_lt_succ hi)
      simp [total, hrest]
      omega

end CodeCache

/-- A slot after a compilation of its task. -/
def CodeSlot.tried (slot : CodeSlot) (device : Nat) : Option InstalledCode → CodeSlot
  | some code =>
    { slot with entry := slot.entry.or (some { code, device }), tries := slot.tries + 1 }
  | none => { slot with tries := slot.tries + 1, faults := slot.faults + 1 }

/-- The counters of a slot after `n` compilations of its task. All of them have failed but for the
one that gave the code. -/
def CodeSlot.Counts (slot : CodeSlot) (n : Nat) : Prop :=
  ∃ failed, n = failed + (if slot.entry.isSome then 1 else 0) ∧ slot.tries = .ofNat n ∧
    slot.faults = .ofNat failed

namespace CodeSlot.Counts

variable {slot : CodeSlot} {n : Nat}

theorem tried (h : slot.Counts n) (hempty : slot.entry = none) (device : Nat)
    (found : Option InstalledCode) : (slot.tried device found).Counts (n + 1) := by
  obtain ⟨failed, hn, htries, hfaults⟩ := h
  have hn : n = failed := by simpa [hempty] using hn
  subst hn
  have hnext : slot.tries + 1 = .ofNat (n + 1) := by
    rw [htries, UInt32.ofNat_add]
    rfl
  cases found with
  | some code => exact ⟨n, by simp [CodeSlot.tried, hempty], hnext, hfaults⟩
  | none =>
    refine ⟨n + 1, by simp [CodeSlot.tried, hempty], hnext, ?_⟩
    rw [CodeSlot.tried, hfaults, UInt32.ofNat_add]
    rfl

/-- As long as there are not too many of them, the numbers themselves are counted. -/
theorem exact (h : slot.Counts n) (hn : n < UInt32.size) :
    slot.attempts = n ∧ slot.attempts = slot.failures + (if slot.entry.isSome then 1 else 0) := by
  obtain ⟨failed, hfailed, htries, hfaults⟩ := h
  have hattempts : slot.attempts = n := by
    rw [CodeSlot.attempts, htries, UInt32.toNat_ofNat_of_lt' hn]
  have hfailures : slot.failures = failed := by
    rw [CodeSlot.failures, hfaults, UInt32.toNat_ofNat_of_lt' (by omega)]
  rw [hattempts, hfailures]
  exact ⟨rfl, hfailed⟩

end CodeSlot.Counts

theorem CodeCache.slots_tried (c : CodeCache) (task device : Nat) (found : Option InstalledCode) :
    (c.tried task device found).slots = c.slots.modify task fun slot =>
      slot.tried device found := by
  cases found <;> rfl

variable {past : List Moment}

namespace Books

/-- The books after what was done: every slot counts its compilations, a task with code is bound to
the device of its code, and the devices have the total of the compilations. -/
structure Tallied (past : List Moment) (b : Books) : Prop where
  length_eq : b.code.slots.length = b.tasks.length
  counted : ∀ (task : Nat) (slot : CodeSlot), b.code.slots[task]? = some slot →
    slot.Counts (Moment.compiled past task)
  bound : ∀ (task : Nat) (entry : CacheEntry), b.code.get? task = some entry →
    ∃ t : Task, b.tasks[task]? = some t ∧ t.device = some entry.device
  total_eq : CodeCache.total id b.compilations =
    CodeCache.total id ((List.range b.tasks.length).map (Moment.compiled past))

theorem Tallied.idle {b : Books} (h : b.Tallied past) (hx : x.compilation? = none) :
    b.Tallied (past ++ [x]) := by
  have hcompiled : Moment.compiled (past ++ [x]) = Moment.compiled past := by
    funext task
    simp [Moment.compiled_append, hx]
  exact ⟨h.length_eq, hcompiled ▸ h.counted, h.bound, hcompiled ▸ h.total_eq⟩

theorem Tallied.tried {b : Books} (h : b.Tallied past) (hx : x.compilation? = some (task, device))
    (hempty : b.code.get? task = none) (hdevice : device < b.compilations.length)
    (htask : task < b.tasks.length) (found : Option InstalledCode) :
    (b.tried task device found).Tallied (past ++ [x]) := by
  have hslots : (b.tried task device found).code.slots =
      b.code.slots.modify task fun slot => slot.tried device found :=
      b.code.slots_tried task device found
  have hsame : ∀ {slot : CodeSlot}, b.code.slots[task]? = some slot → slot.entry = none := by
    intro slot hslot
    simpa [CodeCache.get?, hslot] using hempty
  constructor
  · rw [hslots]
    simpa [Books.tried] using h.length_eq
  · intro task' slot' hslot'
    rw [hslots, List.getElem?_modify] at hslot'
    obtain ⟨slot, hslot, heq⟩ := Option.map_eq_some_iff.1 hslot'
    have hcounted := h.counted task' slot hslot
    rw [Moment.compiled_append, hx]
    split_ifs at heq with htask'
    · subst htask' heq
      simpa using hcounted.tried (hsame hslot) device found
    · simpa [htask', heq] using hcounted
  · intro task' entry hentry
    have hkept : b.code.get? task' = some entry →
        ∃ t : Task, (b.tried task device found).tasks[task']? = some t ∧
          t.device = some entry.device := by
      intro hold
      obtain ⟨t, ht, hbound⟩ := h.bound task' entry hold
      have hne : task ≠ task' := by
        rintro rfl
        rw [hempty] at hold
        cases hold
      exact ⟨t, by simp [Books.tried, hne, ht], hbound⟩
    cases found with
    | none => exact hkept ((b.code.get?_recordFailure task task').symm.trans hentry)
    | some code =>
      rcases CodeCache.get?_of_install hentry with hold | ⟨rfl, rfl⟩
      · exact hkept hold
      · refine ⟨b.tasks[task'].bind device, ?_, rfl⟩
        simp [Books.tried, htask]
  · have hnext : ∀ n : Nat, id (n + 1) = id n + 1 := fun _ => rfl
    have hcompiled : (List.range b.tasks.length).map (Moment.compiled (past ++ [x])) =
        ((List.range b.tasks.length).map (Moment.compiled past)).modify task (· + 1) := by
      refine List.ext_getElem (by simp) fun i _ _ => ?_
      rw [List.getElem_modify, List.getElem_map, List.getElem_map, List.getElem_range,
        Moment.compiled_append, hx]
      by_cases htask' : task = i <;> simp [htask']
    have hlength : (b.tried task device found).tasks.length = b.tasks.length := by
      simp [Books.tried]
    rw [hlength, hcompiled, CodeCache.total_modify hnext (by simpa using htask), ← h.total_eq]
    exact CodeCache.total_modify hnext hdevice

/-- While no counter has gone round, the slots count all compilations. -/
theorem Tallied.attempts {b : Books} (h : b.Tallied past)
    (hsmall : ∀ task, Moment.compiled past task < UInt32.size) :
    CodeCache.total id b.compilations = b.code.stats.attempts := by
  have hattempts : b.code.slots.map CodeSlot.attempts =
      (List.range b.tasks.length).map (Moment.compiled past) := by
    refine List.ext_getElem (by simp [h.length_eq]) fun task hlt _ => ?_
    rw [List.length_map] at hlt
    rw [List.getElem_map, List.getElem_map, List.getElem_range]
    exact ((h.counted task _ (List.getElem?_eq_getElem hlt)).exact (hsmall task)).1
  rw [h.total_eq, ← hattempts, CodeCache.total_map]
  rfl

end Books

namespace Machine

/-- A slot that was filled after one of the deeds is as it was then, and its task was not compiled
again. -/
def Settled (done : List Moment) (m : Machine) : Prop :=
  ∀ past x future, done = past ++ x :: future → ∀ (task : Nat) (slot : CodeSlot),
    x.after.code.slots[task]? = some slot → slot.entry.isSome →
      m.code.slots[task]? = some slot ∧
        ∀ y ∈ future, y.after.code.slots[task]? = some slot ∧
          ∀ device, y.compilation? ≠ some (task, device)

/-- A deed does not touch a slot that is filled. -/
theorem slot_of_booked (hx : x.Booked) {slot : CodeSlot}
    (hslot : x.before.code.slots[task]? = some slot) (hfilled : slot.entry.isSome) :
    x.after.code.slots[task]? = some slot ∧ ∀ device, x.compilation? ≠ some (task, device) := by
  cases hcompilation : x.compilation? with
  | none =>
    have hcode : x.after.code = x.before.code := congrArg Books.code (hx.idle hcompilation)
    rw [hcode]
    exact ⟨hslot, fun _ => by simp⟩
  | some p =>
    obtain ⟨task', device⟩ := p
    have hreaches := Moment.reaches_of_compilation? hcompilation
    have hempty : x.before.code.get? task' = none := Option.isNone_iff_eq_none.1 hreaches.1
    obtain ⟨found, hbooks⟩ := hx.compiles task' device hcompilation
    have hcode : x.after.code = x.before.code.tried task' device found := congrArg Books.code hbooks
    refine ⟨?_, fun device' heq => ?_⟩
    · rw [hcode, CodeCache.slots_tried]
      exact CodeCache.slot_modify_of_empty _ hempty hslot hfilled
    · cases heq
      simp [CodeCache.get?, hslot, Option.isSome_iff_ne_none.1 hfilled] at hempty

theorem Settled.step {done : List Moment} (h : Settled done x.before) (hx : x.Booked) :
    Settled (done ++ [x]) x.after := by
  intro past y future hsplit task slot hslot hfilled
  rcases eq_append_or_of_append_eq hsplit with ⟨rest, hdone, rfl⟩ | ⟨rest, rfl, hlast⟩
  · obtain ⟨hnow, hrest⟩ := h past y rest hdone task slot hslot hfilled
    obtain ⟨hafter, hidle⟩ := slot_of_booked hx hnow hfilled
    refine ⟨hafter, fun z hz => ?_⟩
    rcases List.mem_append.1 hz with hz | hz
    · exact hrest z hz
    · rw [List.mem_singleton.1 hz]
      exact ⟨hafter, hidle⟩
  · -- The deed itself.
    cases rest with
    | nil =>
      cases hlast
      exact ⟨hslot, by simp⟩
    | cons z rest => simp at hlast

/-- What is true of the compilations at any time. -/
structure Accounts (past : List Moment) (m : Machine) : Prop where
  tallied : m.books.Tallied past
  settled : Settled past m
  booked : ∀ x ∈ past, x.Booked

variable {m : Machine}

theorem Accounts.aside {m' : Machine} (h : Accounts past m) (hbooks : m'.books = m.books) :
    Accounts past m' := by
  have hcode : m'.code = m.code := congrArg Books.code hbooks
  refine ⟨hbooks ▸ h.tallied, ?_, h.booked⟩
  unfold Settled
  rw [hcode]
  exact h.settled

theorem Accounts.step (h : Accounts past x.before) (hx : x.Booked) :
    Accounts (past ++ [x]) x.after := by
  refine ⟨?_, h.settled.step hx, ?_⟩
  · cases hcompilation : x.compilation? with
    | none =>
      rw [hx.idle hcompilation]
      exact h.tallied.idle hcompilation
    | some p =>
      obtain ⟨task, device⟩ := p
      obtain ⟨hempty, hdevice, htask⟩ := Moment.reaches_of_compilation? hcompilation
      obtain ⟨found, hbooks⟩ := hx.compiles task device hcompilation
      rw [hbooks]
      exact h.tallied.tried hcompilation (Option.isNone_iff_eq_none.1 hempty)
        (by simpa [books] using hdevice) htask found
  · intro y hy
    rcases List.mem_append.1 hy with hy | hy
    · exact h.booked y hy
    · rw [List.mem_singleton.1 hy]
      exact hx

variable {code : Bytes} {config : Config}

/-- A view that does not see whether devices are loaded does not see that a machine is made. -/
theorem view_create {β : Type} {f : Device → β}
    (hf : ∀ d : Device, f { d with loaded := true } = f d) {c c' : Context}
    (hm : (create code config).run c = (.ok m, c')) : m.context.view f = c.view f := by
  obtain ⟨hcontext, journal, rfl⟩ := context_of_create hm
  have hdevices : (c.loading m.header.contexts).map f = c.devices.map f := by
    refine List.ext_getElem? fun i => ?_
    rw [List.getElem?_map, Context.loading, List.getElem?_mapIdx, List.getElem?_map]
    cases c.devices[i]? with
    | none => rfl
    | some d => exact congrArg some ((hf _).symm.trans (hf d))
  rw [hcontext, Context.view, hdevices]
  rfl

theorem books_create {c c' : Context} (hm : (create code config).run c = (.ok m, c')) :
    m.books = ⟨.new c.tasks.length, c.tasks, c.devices.map Device.compilations⟩ := by
  obtain ⟨cursor, -, hcheck, -, hinitial⟩ := start_of_create hm
  have hview := view_create (f := Device.compilations) (fun _ => rfl) hm
  have htasks : m.context.tasks = c.tasks := congrArg Context.View.tasks hview
  have hdevices : m.context.devices.map Device.compilations = c.devices.map Device.compilations :=
    congrArg Context.View.devices hview
  have hcode : m.code = .new m.header.tasks := congrArg Machine.code hinitial
  rw [books, hcode, htasks, hdevices, (Header.check_eq_ok_iff.1 hcheck).2.1]

end Machine

end Offload
