import Offload.Proofs.Agreement
import Offload.Proofs.DeviceSafety

/-!
# Replaying a queue

Commands act on the memory of their device, on the host objects and on the log, and on nothing else.
So the commands that wait in a queue may be run now or later: what a device does in between, new
events and new buffers included, comes out the same on either side of them, because a waiting
command names neither an event nor a buffer that was not there when it was submitted.
-/

namespace Offload

variable {i : BufferId} {v : Invocation} {l : EventLog}

/-! ## A buffer that nobody names -/

/-- A change of entries that keeps their numbers, and the new entry as it is, may come before or
after the new entry. -/
theorem Memory.map_place {f : BufferId × Bytes → BufferId × Bytes} {fresh : Bytes}
    (hkey : ∀ entry, (f entry).1 = entry.1) (hfix : f (i, fresh) = (i, fresh))
    (entries : List (BufferId × Bytes)) :
    (Memory.place i fresh entries).map f = Memory.place i fresh (entries.map f) := by
  induction entries with
  | nil => simp [Memory.place, hfix]
  | cons entry rest ih =>
    rw [List.map_cons, Memory.place, Memory.place, hkey]
    by_cases hlt : i < entry.1
    · simp [hlt, hfix]
    · by_cases heq : i = entry.1
      · simp [heq ▸ hfix, heq]
      · simp [hlt, heq, ih]

theorem Memory.set_insert {b : BufferId} (h : b ≠ i) (m : Memory) (bytes fresh : Bytes) :
    (m.insert i fresh).set b bytes = (m.set b bytes).insert i fresh := by
  have hkey : ∀ entry : BufferId × Bytes, (if entry.1 = b then (b, bytes) else entry).1 =
      entry.1 := by
    intro entry
    split_ifs with he
    · exact he.symm
    · rfl
  have hfix : (if (i, fresh).1 = b then (b, bytes) else (i, fresh)) = (i, fresh) :=
    if_neg (Ne.symm h)
  exact congrArg Memory.mk (Memory.map_place hkey hfix m.buffers)

theorem Memory.get?_insert_of_ne {b : BufferId} (h : b ≠ i) (m : Memory) (fresh : Bytes) :
    (m.insert i fresh).get? b = m.get? b := by
  rw [Memory.get?_insert, if_neg h]

namespace Invocation

/-- The call with one more buffer in the memory. -/
def grow (v : Invocation) (i : BufferId) (fresh : Bytes) : Invocation :=
  { v with memory := v.memory.insert i fresh }

theorem mem_of_buffer {index : Nat} {id : BufferId} (h : v.buffer index = .ok id) :
    .buffer id ∈ v.arguments := by
  unfold buffer at h
  split at h
  · rename_i found hfound
    cases h
    exact List.mem_of_getElem? hfound
  · cases h
  · cases h

theorem bytes_grow (h : .buffer i ∉ v.arguments) (fresh : Bytes) (index : Nat) :
    (v.grow i fresh).bytes index = v.bytes index := by
  have hbuffer : (v.grow i fresh).buffer index = v.buffer index := rfl
  simp only [bytes, hbuffer, bind, Except.bind]
  cases hid : v.buffer index with
  | error fault => rfl
  | ok id =>
    have hne : id ≠ i := fun hi => h (hi ▸ mem_of_buffer hid)
    simp only [grow, Memory.get?_insert_of_ne hne]

theorem update_grow (h : .buffer i ∉ v.arguments) (fresh : Bytes) (index : Nat)
    (f : Bytes → Bytes) :
    (v.grow i fresh).update index f = (v.update index f).map (·.insert i fresh) := by
  have hbuffer : (v.grow i fresh).buffer index = v.buffer index := rfl
  simp only [update, hbuffer, bind, Except.bind]
  cases hid : v.buffer index with
  | error fault => rfl
  | ok id =>
    have hne : id ≠ i := fun hi => h (hi ▸ mem_of_buffer hid)
    simp only [grow, Memory.get?_insert_of_ne hne]
    cases v.memory.get? id with
    | none => rfl
    | some old => exact congrArg Except.ok (Memory.set_insert hne ..)

theorem words_grow (h : .buffer i ∉ v.arguments) (fresh : Bytes) (index : Nat) :
    (v.grow i fresh).words index = v.words index := by
  simp only [words, bytes_grow h]

theorem writeWords_grow (h : .buffer i ∉ v.arguments) (fresh : Bytes) (index : Nat)
    (words : List UInt32) :
    (v.grow i fresh).writeWords index words = (v.writeWords index words).map (·.insert i fresh) :=
  update_grow h fresh index _

end Invocation

/-- A kernel program reaches no buffer but those of its arguments. -/
theorem KernelProgram.run_grow (p : KernelProgram) (h : .buffer i ∉ v.arguments) (fresh : Bytes) :
    p.run (v.grow i fresh) = ((p.run v).1, (p.run v).2.insert i fresh) := by
  induction p generalizing v with
  | done result => rfl
  | look index next ih =>
    rw [run, run, Invocation.bytes_grow h]
    exact ih _ h
  | put index bytes next ih =>
    rw [run, run, Invocation.update_grow h]
    cases v.update index fun old => Bytes.overwrite old 0 bytes with
    | error fault => exact ih _ h
    | ok memory => exact ih (.ok ()) (v := { v with memory }) h

namespace Kernel

theorem run_grow (k : Kernel) (h : .buffer i ∉ v.arguments) (fresh : Bytes) :
    k.run (v.grow i fresh) = (k.run v).map (·.insert i fresh) := by
  have hexpect : ∀ n, (v.grow i fresh).expect n = v.expect n := fun _ => rfl
  have hscalar : ∀ index, (v.grow i fresh).scalar index = v.scalar index := fun _ => rfl
  cases k with
  | custom program =>
    have hrun := (program v.kernel v.arguments v.window).run_grow h fresh
    simp only [run, Invocation.grow] at hrun ⊢
    rw [hrun]
    cases ((program v.kernel v.arguments v.window).run v).1 <;> rfl
  | _ =>
    simp only [run, hexpect, hscalar, Invocation.words_grow h, Invocation.writeWords_grow h, bind,
      Except.bind]
    repeat' split
    all_goals rfl

theorem remains_grow (k : Kernel) (h : .buffer i ∉ v.arguments) (fresh : Bytes) :
    k.remains (v.grow i fresh) = (k.remains v).insert i fresh := by
  cases k with
  | custom program =>
    exact congrArg Prod.snd ((program v.kernel v.arguments v.window).run_grow h fresh)
  | _ => rfl

end Kernel

namespace Command

/-- The buffers that a command names. -/
def buffers : Command → List BufferId
  | .write buffer .. | .read buffer .. => [buffer]
  | .launch _ _ arguments _ => arguments.filterMap fun
    | .buffer id => some id
    | .scalar _ => none
  | .marker => []

theorem label_execute (c : Command) (memory : Memory) (objects : List HostObject) (place : Nat) :
    (objectAt (c.execute memory objects).2.2 place).label = (objectAt objects place).label := by
  rcases c.objects_execute memory objects with h | ⟨object, offset, src, h⟩
  · rw [h]
  · rw [h, objectAt, objectAt, List.getElem?_modify]
    by_cases hplace : object = place
    · cases objects[place]? with
      | none => simp
      | some o => simp [hplace]
    · simp [hplace]

/-- A buffer that a command does not name is not touched by it, and does not change what it does. -/
theorem execute_insert {c : Command} (h : i ∉ c.buffers) (memory : Memory)
    (objects : List HostObject) (fresh : Bytes) :
    c.execute (memory.insert i fresh) objects =
      ((c.execute memory objects).1, (c.execute memory objects).2.1.insert i fresh,
        (c.execute memory objects).2.2) := by
  cases c with
  | write buffer object window =>
    have hne : buffer ≠ i := fun hi => h (by simp [buffers, hi])
    simp only [execute, Memory.get?_insert_of_ne hne]
    split
    · rfl
    · split
      · rfl
      · split
        · rfl
        · rw [Memory.set_insert hne]
  | read buffer object window =>
    have hne : buffer ≠ i := fun hi => h (by simp [buffers, hi])
    simp only [execute, Memory.get?_insert_of_ne hne]
    split
    · rfl
    · split <;> rfl
  | launch name kernel arguments window =>
    have harguments : .buffer i ∉ arguments := by
      intro hi
      exact h (List.mem_filterMap.2 ⟨_, hi, rfl⟩)
    have hrun := kernel.run_grow (v := ⟨name, arguments, memory, window⟩) harguments fresh
    have hremains := kernel.remains_grow (v := ⟨name, arguments, memory, window⟩) harguments fresh
    simp only [Invocation.grow] at hrun hremains
    simp only [execute, hrun, hremains]
    cases kernel.run ⟨name, arguments, memory, window⟩ with
    | ok memory => rfl
    | error fault => cases fault <;> rfl
  | marker => rfl

end Command

/-! ## What commands act on -/

namespace EventLog

@[simp] theorem size_add (l : EventLog) (r : EventRecord) : (l.add r).size = l.size + 1 := rfl

@[simp] theorem size_setStatus (l : EventLog) (id : EventId) (status : EventStatus) :
    (l.setStatus id status).size = l.size := by
  unfold setStatus
  split <;> rfl

theorem eq_of_latest {l' : EventLog} (h : l.latest = l'.latest) (hran : l.ran = l'.ran) :
    l = l' := by
  obtain ⟨latest, _, ran, rfl⟩ := l
  obtain ⟨latest', _, ran', rfl⟩ := l'
  obtain rfl : latest = latest' := h
  obtain rfl : ran = ran' := hran
  rfl

theorem latest_setStatus {id : EventId} (h : id < l.size) (status : EventStatus) :
    (l.setStatus id status).latest = l.latest.modify (l.size - 1 - id) fun r =>
      { r with status } := by
  rw [setStatus, if_pos h]

/-- The end of an old event may be noted before or after a new event. -/
theorem setStatus_add {id : Nat} (h : id < l.size) (r : EventRecord) (status : EventStatus) :
    (l.add r).setStatus id status = (l.setStatus id status).add r := by
  have hnew : id < (l.add r).size := Nat.lt_succ_of_lt h
  have hindex : (l.add r).size - 1 - id = (l.size - 1 - id) + 1 := by
    rw [size_add]
    omega
  refine eq_of_latest ?_ ?_
  · rw [latest_setStatus hnew, hindex]
    change (r :: l.latest).modify (l.size - 1 - id + 1) _ = r :: (l.setStatus id status).latest
    rw [List.modify_succ_cons, latest_setStatus h]
  · simp only [setStatus, if_pos hnew, if_pos h]
    rfl

end EventLog

/-- The memory of a device, the host objects and the log. -/
structure Bench where
  memory : Memory
  objects : List HostObject
  log : EventLog

namespace Bench

/-- Run a command that does not fail. -/
def step (b : Bench) (p : Pending) : Option Bench :=
  match p.command.execute b.memory b.objects with
  | (.ok _, memory, objects) => some ⟨memory, objects, b.log.setStatus p.event .complete⟩
  | (.error _, _, _) => none

/-- Run the commands of a queue, none of which fails. -/
def replay (b : Bench) (queue : List Pending) : Option Bench := queue.foldlM step b

variable {b b' : Bench} {queue : List Pending}

theorem replay_cons (b : Bench) (p : Pending) (queue : List Pending) :
    b.replay (p :: queue) = (b.step p).bind fun b => b.replay queue := rfl

@[simp] theorem replay_singleton (b : Bench) (p : Pending) : b.replay [p] = b.step p := by
  rw [replay_cons]
  cases b.step p <;> rfl

theorem replay_append (b : Bench) (first second : List Pending) :
    b.replay (first ++ second) = (b.replay first).bind fun b => b.replay second :=
  List.foldlM_append ..

theorem step_eq_some {p : Pending} (h : b.step p = some b') :
    p.command.execute b.memory b.objects = (.ok (), b'.memory, b'.objects) ∧
      b'.log = b.log.setStatus p.event .complete := by
  unfold step at h
  split at h
  · rename_i value memory objects hexecute
    cases h
    exact ⟨hexecute, rfl⟩
  · cases h

/-- A property that every command keeps holds after a replay. -/
theorem replay_keeps {I : Bench → Prop} (hstep : ∀ b p b', b.step p = some b' → I b → I b')
    (h : b.replay queue = some b') (hb : I b) : I b' := by
  induction queue generalizing b with
  | nil => exact Option.some.inj h ▸ hb
  | cons p rest ih =>
    rw [replay_cons] at h
    obtain ⟨c, hc, hrest⟩ := Option.bind_eq_some_iff.1 h
    exact ih hrest (hstep b p c hc hb)

theorem size_log_replay (h : b.replay queue = some b') : b'.log.size = b.log.size := by
  refine replay_keeps (I := fun c => c.log.size = b.log.size) ?_ h rfl
  intro c p c' hstep hc
  rw [(step_eq_some hstep).2, EventLog.size_setStatus, hc]

/-- The label and the length of an object stay when its bytes change. -/
theorem objectAt_replay (h : b.replay queue = some b') (place : Nat) :
    (objectAt b'.objects place).label = (objectAt b.objects place).label ∧
      (objectAt b'.objects place).length = (objectAt b.objects place).length := by
  refine replay_keeps (I := fun c =>
    (objectAt c.objects place).label = (objectAt b.objects place).label ∧
      (objectAt c.objects place).length = (objectAt b.objects place).length) ?_ h ⟨rfl, rfl⟩
  intro c p c' hstep hc
  have hlengths := congrFun (p.command.lengths_execute c.memory c.objects) place
  have hlabels := p.command.label_execute c.memory c.objects place
  rw [(step_eq_some hstep).1] at hlengths hlabels
  exact ⟨hlabels.trans hc.1, hlengths.trans hc.2⟩

/-- A new event. -/
def record (r : EventRecord) (b : Bench) : Bench := { b with log := b.log.add r }

/-- A new buffer. -/
def insert (i : BufferId) (fresh : Bytes) (b : Bench) : Bench :=
  { b with memory := b.memory.insert i fresh }

/-- Commands of old events may run before or after a new event is recorded. -/
theorem replay_record {r : EventRecord} (hqueue : ∀ p ∈ queue, p.event < b.log.size) :
    (b.record r).replay queue = (b.replay queue).map (record r) := by
  induction queue generalizing b with
  | nil => rfl
  | cons p rest ih =>
    have hlog := EventLog.setStatus_add (hqueue p List.mem_cons_self) r .complete
    have hstep : (b.record r).step p = (b.step p).map (record r) := by
      simp only [step, record]
      split
      · rw [hlog]
        rfl
      · rfl
    rw [replay_cons, replay_cons, hstep]
    cases hb : b.step p with
    | none => rfl
    | some c =>
      refine ih fun q hq => ?_
      rw [(step_eq_some hb).2, EventLog.size_setStatus]
      exact hqueue q (List.mem_cons_of_mem _ hq)

/-- Commands may run before or after a buffer is made that none of them names. -/
theorem replay_insert {fresh : Bytes} (hqueue : ∀ p ∈ queue, i ∉ p.command.buffers) :
    (b.insert i fresh).replay queue = (b.replay queue).map (insert i fresh) := by
  induction queue generalizing b with
  | nil => rfl
  | cons p rest ih =>
    have hexecute := Command.execute_insert (hqueue p List.mem_cons_self) b.memory b.objects fresh
    have hstep : (b.insert i fresh).step p = (b.step p).map (insert i fresh) := by
      simp only [step, insert, hexecute]
      rcases p.command.execute b.memory b.objects with ⟨result, memory, objects⟩
      cases result <;> rfl
    rw [replay_cons, replay_cons, hstep]
    cases hb : b.step p with
    | none => rfl
    | some c => exact ih fun q hq => hqueue q (List.mem_cons_of_mem _ hq)

end Bench

end Offload
