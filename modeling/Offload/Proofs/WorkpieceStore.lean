import Offload.Proofs.Compilations
import Offload.Proofs.DueCommands
import Offload.Proofs.Workpiece

/-!
# Workpieces in stores

A store with one device bears a workpiece if the object, the buffer and the record are as the
workpiece says once the queue has run. Every operation on the object succeeds and does to the
workpiece what its name says, whether the device is deferred or eager.
-/

namespace Offload

open Offload.Action

variable {window : Option Window} {c : BufferId × Bytes} {k : Workpiece} {st' : Station}

/-! ## Commands -/

namespace Command

variable {memory : Memory} {objects : List HostObject} {id : BufferId} {place : Nat}

theorem execute_write_window {target : Bytes} {label : String}
    (hobject : objectAt objects place = ⟨label, k.bytes⟩) (htarget : memory.get? id = some target)
    (hfits : (k.range window).fits k.bytes.length = true)
    (hroom : (k.range window).size ≤ target.length) :
    (Command.write id place window).execute memory objects =
      (.ok (), memory.set id (Bytes.overwrite target 0 (k.slice window)), objects) := by
  have hshort : ¬target.length < (k.slice window).length := by
    have := k.length_slice_le window
    omega
  simp only [execute, htarget, hobject]
  rw [show window.getD (.whole k.bytes.length) = k.range window from rfl, hfits]
  exact if_neg hshort

theorem execute_read_window {source : Bytes} {label : String}
    (hobject : objectAt objects place = ⟨label, k.bytes⟩) (hsource : memory.get? id = some source)
    (hfits : (k.range window).fits k.bytes.length = true) :
    (Command.read id place window).execute memory objects =
      (.ok (), memory, objects.modify place fun o =>
        o.write (k.range window).offset (source.take (k.range window).size)) := by
  simp only [execute, hsource, hobject, HostObject.length]
  rw [show window.getD (.whole k.bytes.length) = k.range window from rfl, hfits]
  rfl

theorem execute_addOne {bytes : Bytes} (hbytes : memory.get? id = some bytes) (name : String)
    (window : Option Window) :
    (Command.launch name .addOne [.buffer id] window).execute memory objects =
      (.ok (), memory.set id (Bytes.addOne bytes), objects) := by
  have hrun : Kernel.addOne.run ⟨name, [.buffer id], memory, window⟩ =
      .ok (memory.set id (Bytes.addOne bytes)) := by
    simp [Kernel.run, Invocation.expect, Invocation.words, Invocation.bytes, Invocation.buffer,
      Invocation.writeWords, Invocation.update, hbytes, bind, Except.bind, pure, Except.pure,
      Bytes.addOne]
  simp only [execute, hrun]

end Command

/-! ## Contexts with one device -/

namespace Context

/-- The context with a station as its only device. -/
def seat (c : Context) (st : Station) : Context :=
  { c with devices := [st.device], objects := st.objects, journal := st.journal }

end Context

/-- Where the work is done: the options of the device, the stored objects, and the one that is
worked on. -/
structure Scene where
  options : DeviceOptions
  objects : List HostObject
  place : Nat
  label : String
  stored : place < objects.length

/-- The first object of a context is the one that is worked on, and its first task adds one. -/
structure Context.Suits (c : Context) (S : Scene) : Prop where
  place : c.places[0]? = some S.place
  task : ∃ t, c.tasks[0]? = some t ∧ t.name = "add_one"

/-- What is due at a station and what is recorded of it is as the workpiece says. -/
structure Workpiece.Matches (k : Workpiece) (S : Scene) (o : Outlook) (r : Record) : Prop where
  options : o.options = S.options
  objects : o.objects = S.objects.set S.place ⟨S.label, k.bytes⟩
  kernel : o.kernels.get? "add_one" = some .addOne
  allocations : o.counters.allocations = k.allocations
  writes : o.counters.writes = k.writes
  compilations : o.counters.compilations = k.compilations
  allocation : r.allocation = k.copy.map fun c => ⟨c.1, c.2.length⟩
  memory : ∀ c ∈ k.copy, o.memory.get? c.1 = some c.2
  valid : r.valid = k.held.isSome
  window : ∀ w ∈ k.held, r.window = w
  empty : k.copy = none → k.held = none

namespace Workpiece.Matches

variable {S : Scene} {o : Outlook} {r : Record}

theorem objectAt (h : k.Matches S o r) : objectAt o.objects S.place = ⟨S.label, k.bytes⟩ := by
  rw [h.objects, Offload.objectAt, List.getElem?_set_self S.stored]
  rfl

theorem holds (h : k.Matches S o r) (window : Option Window) :
    r.holds window = (k.held == some window) := by
  rw [Record.holds, h.valid]
  cases hheld : k.held with
  | none => rfl
  | some w =>
    rw [h.window w hheld]
    rfl

theorem provided (h : k.Matches S o r) (hvalid : r.valid = false) (bytes : Nat) :
    Matches { k with
        copy := some (o.next, List.replicate bytes 0)
        held := none
        allocations := k.allocations + 1 } S (o.provided bytes)
      { r with allocation := some ⟨o.next, bytes⟩ } where
  options := h.options
  objects := h.objects
  kernel := h.kernel
  allocations := congrArg (· + 1) h.allocations
  writes := h.writes
  compilations := h.compilations
  allocation := by simp
  memory := by
    rintro c hc
    cases hc
    simp [Outlook.provided, Memory.get?_insert]
  valid := hvalid
  window := by simp
  empty := by simp

theorem written (h : k.Matches S o r) (hc : k.copy = some c) (window : Option Window) :
    (k.write window).Matches S ((o.counted fun c => { c with writes := c.writes + 1 }).submitted
      (o.memory.set c.1 (Bytes.overwrite c.2 0 (k.slice window))) o.objects) (r.sent window) where
  options := h.options
  objects := h.objects
  kernel := h.kernel
  allocations := h.allocations
  writes := congrArg (· + 1) h.writes
  compilations := h.compilations
  allocation := by simp [write, hc, Record.sent, h.allocation]
  memory := by
    intro c' hc'
    rw [write, hc] at hc'
    cases hc'
    simp [Outlook.submitted, Outlook.counted, Memory.get?_set, h.memory c hc]
  valid := rfl
  window := by
    intro w hw
    cases hw
    rfl
  empty := by simp [write, hc]

theorem released (h : k.Matches S o r) (memory : Memory) :
    Matches { k with copy := none, held := none } S { o with memory } {} :=
  ⟨h.options, h.objects, h.kernel, h.allocations, h.writes, h.compilations, rfl, by simp,
    rfl, by simp, fun _ => rfl⟩

theorem fetched (h : k.Matches S o r) (hc : k.copy = some c) (window : Option Window) :
    (k.fetch window).Matches S
      ((o.counted fun c => { c with reads := c.reads + 1 }).submitted o.memory
        (o.objects.modify S.place fun o =>
          o.write (k.range window).offset (c.2.take (k.range window).size)))
      r.fetched := by
  rw [fetch_of_copy hc]
  refine ⟨h.options, ?_, h.kernel, h.allocations, h.writes, h.compilations, h.allocation,
    h.memory, h.valid, h.window, h.empty⟩
  rw [Outlook.submitted, h.objects, List.modify_eq_set_getElem?]
  simp [S.stored, HostObject.write]

theorem launched (h : k.Matches S o r) (hc : k.copy = some c) :
    Matches { k with copy := some (c.1, Bytes.addOne c.2) } S
      ((o.counted fun c => { c with launches := c.launches + 1 }).submitted
        (o.memory.set c.1 (Bytes.addOne c.2)) o.objects) r where
  options := h.options
  objects := h.objects
  kernel := h.kernel
  allocations := h.allocations
  writes := h.writes
  compilations := h.compilations
  allocation := by simp [hc, h.allocation]
  memory := by
    intro c' hc'
    cases hc'
    simp [Outlook.submitted, Outlook.counted, Memory.get?_set, h.memory c hc]
  valid := h.valid
  window := h.window
  empty := by simp

/-- A marker and a flush leave the piece as it is. -/
theorem marked (h : k.Matches S o r) : k.Matches S
    ((o.counted fun c => { c with markers := c.markers + 1 }).submitted o.memory o.objects) r :=
  ⟨h.options, h.objects, h.kernel, h.allocations, h.writes, h.compilations, h.allocation,
    h.memory, h.valid, h.window, h.empty⟩

theorem flushed (h : k.Matches S o r) :
    k.Matches S (o.counted fun c => { c with flushes := c.flushes + 1 }) r :=
  ⟨h.options, h.objects, h.kernel, h.allocations, h.writes, h.compilations, h.allocation,
    h.memory, h.valid, h.window, h.empty⟩

/-- A launch that writes an object keeps its buffer valid. -/
theorem claimed (h : k.Matches S o r) (hcopy : k.copy.isSome) (hheld : k.held.isSome) :
    k.Matches S o r.written := by
  refine ⟨h.options, h.objects, h.kernel, h.allocations, h.writes, h.compilations, h.allocation,
    h.memory, ?_, h.window, h.empty⟩
  rw [Record.written, h.allocation, Option.isSome_map, hcopy, hheld]

end Workpiece.Matches

/-! ## Stores -/

namespace Store

/-- The station, the outlook and the record of a store that bears a workpiece. At least `e` events
are in the log. -/
structure Seats (S : Scene) (k : Workpiece) (e : Nat) (s : Store) (st : Station) (o : Outlook)
    (r : Record) :
    Prop where
  context : ∃ c : Context, s.context = c.seat st ∧ c.Suits S
  recorded : s.table.get? 0 0 = some r
  due : st.Due o
  events : e ≤ o.events
  piece : k.Matches S o r

/-- The store bears the workpiece. -/
def Bears (S : Scene) (k : Workpiece) (e : Nat) (s : Store) : Prop := ∃ st o r, s.Seats S k e st o r

/-- No command waits. -/
def Idle (s : Store) : Prop := ∀ d ∈ s.context.devices, d.queue = []

variable {α : Type} {S : Scene} {e : Nat} {s : Store} {st : Station} {o : Outlook} {r : Record}

namespace Seats

theorem device (h : s.Seats S k e st o r) : s.context.devices = [st.device] := by
  obtain ⟨c, hc, -⟩ := h.context
  rw [hc]
  rfl

theorem rests (h : s.Seats S k e st o r) (hidle : s.Idle) : st.Rests o :=
  ⟨h.due, hidle st.device (by rw [h.device]; exact List.mem_singleton_self _)⟩

theorem run_place (h : s.Seats S k e st o r) : (place 0).run s = (.ok S.place, s) := by
  obtain ⟨c, hc, hsuits⟩ := h.context
  exact run_place_of_some ((congrArg (·.places[0]?) hc).trans hsuits.place)

/-- The object as it is now has the length that it will have. -/
theorem run_host (h : s.Seats S k e st o r) :
    ∃ o, (host S.place).run s = (.ok o, s) ∧ o.length = k.bytes.length := by
  obtain ⟨c, hc, -⟩ := h.context
  obtain ⟨-, hlength⟩ := h.due.objectAt S.place
  refine ⟨objectAt s.context.objects S.place, rfl, ?_⟩
  rw [hc]
  rw [h.piece.objectAt] at hlength
  exact hlength

theorem run_requireDevice (h : s.Seats S k e st o r) : (requireDevice 0).run s = (.ok (), s) := by
  have hdevice : s.context.device 0 = .ok st.device := by
    rw [Context.device, h.device]
    rfl
  rw [requireDevice, run_bind, run_get]
  dsimp only
  rw [hdevice]
  rfl

theorem run_record (h : s.Seats S k e st o r) : (record 0 0).run s = (.ok r, s) :=
  run_record_of_get? h.recorded

theorem run_bufferOf (h : s.Seats S k e st o r) (hc : k.copy = some c) (label : String) :
    (bufferOf label 0 0).run s = (.ok c.1, s) := by
  rw [bufferOf, run_bind_of_ok h.run_record, Record.buffer, h.piece.allocation, hc]
  rfl

theorem run_onDevice (h : s.Seats S k e st o r) {x : DeviceAction α} {a : α}
    (hx : x.run st = (.ok a, st')) : ∃ c : Context, c.Suits S ∧
      (inContext (Context.onDevice 0 x)).run s = (.ok a, { s with context := c.seat st' }) := by
  obtain ⟨c, hc, hsuits⟩ := h.context
  refine ⟨c, hsuits, ?_⟩
  have hrun := Context.run_onDevice x (show (c.seat st).devices[0]? = some st.device from rfl)
  have hstation : x.run ⟨st.device, (c.seat st).objects, (c.seat st).journal⟩ = (.ok a, st') := hx
  rw [hstation] at hrun
  rw [inContext, run_focus, hc, hrun]
  rfl

theorem run_checkWindow (_h : s.Seats S k e st o r) {length : Nat}
    (hlength : length = k.bytes.length) (hfits : (k.range window).fits k.bytes.length = true) :
    (checkWindow 0 length window).run s = (.ok (), s) := by
  cases window with
  | none => rfl
  | some w =>
    have hw : w.fits k.bytes.length = true := hfits
    rw [checkWindow, hlength, if_pos hw]
    rfl

/-- An operation of the device that leaves the piece as it is. -/
theorem exists_run_onDevice (h : s.Seats S k e st o r) {x : DeviceAction α} {a : α} {o' : Outlook}
    (hx : x.run st = (.ok a, st')) (hdue : st'.Due o') (hevents : o.events ≤ o'.events)
    (hpiece : k.Matches S o' r) :
    ∃ s', (inContext (Context.onDevice 0 x)).run s = (.ok a, s') ∧ s'.Seats S k e st' o' r := by
  obtain ⟨c, hsuits, hrun⟩ := h.run_onDevice hx
  exact ⟨_, hrun, ⟨c, rfl, hsuits⟩, h.recorded, hdue, h.events.trans hevents, hpiece⟩

theorem idle (h : s.Seats S k e st o r) (hqueue : st.device.queue = []) : s.Idle := by
  intro d hd
  rw [h.device] at hd
  rw [List.mem_singleton.1 hd]
  exact hqueue

end Seats

theorem idle_seat {c : Context} {st : Station} {table : Table} :
    Store.Idle ⟨c.seat st, table⟩ ↔ st.device.queue = [] := by
  simp [Idle, Context.seat]

/-- An operation ends with a change of the record and a line in the journal. -/
theorem run_update_note (c : Context) (st : Station) {table : Table} (hr : table.get? 0 0 = some r)
    (f : Record → Record) (label : String) (a : α) : ∃ journal,
    (do update 0 0 f; note label 0 0; return a : StoreAction α).run ⟨c.seat st, table⟩ =
      (.ok a, ⟨c.seat { st with journal }, table.update 0 0 f⟩) := by
  have hrecord : (table.update 0 0 f).record 0 0 = .ok (f r) := by
    rw [Table.record_eq_ok, Table.get?_update, if_pos ⟨rfl, rfl⟩, hr]
    rfl
  have hread : (record 0 0).run ⟨c.seat st, table.update 0 0 f⟩ =
      (.ok (f r), ⟨c.seat st, table.update 0 0 f⟩) := by
    rw [record, run_bind, run_get]
    dsimp only
    rw [hrecord]
    rfl
  refine ⟨st.journal.add .trace
    ("residency: " ++ label ++ " on device " ++ toString 0 ++ ": " ++ (f r).text), ?_⟩
  have hupdate : (update 0 0 f).run ⟨c.seat st, table⟩ =
      (.ok (), ⟨c.seat st, table.update 0 0 f⟩) := rfl
  rw [run_bind_of_ok hupdate, note, run_bind]
  rw [run_bind_of_ok hread]
  rfl

/-- An operation that uses the device, changes the record and writes it to the journal. -/
theorem Seats.exists_run {β : Type} (h : s.Seats S k e st o r) {x : DeviceAction α} {a : α}
    {o' : Outlook} {k' : Workpiece} (hx : x.run st = (.ok a, st')) (hdue : st'.Due o')
    (hevents : o.events ≤ o'.events) {f : Record → Record} (hpiece : k'.Matches S o' (f r))
    {label : String} {b : β} {g : α → StoreAction β}
    (hg : g a = do update 0 0 f; note label 0 0; return b) :
    ∃ s', (inContext (Context.onDevice 0 x) >>= g).run s = (.ok b, s') ∧ s'.Bears S k' e ∧
      (st'.device.queue = [] → s'.Idle) := by
  obtain ⟨c, hsuits, hrun⟩ := h.run_onDevice hx
  obtain ⟨journal, htail⟩ := run_update_note c st' h.recorded f label b
  rw [run_bind_of_ok hrun, hg]
  refine ⟨_, htail,
    ⟨_, o', f r, ⟨c, rfl, hsuits⟩, ?_, hdue.journal journal, h.events.trans hevents, hpiece⟩,
    fun hqueue => idle_seat.2 hqueue⟩
  rw [Table.get?_update, if_pos ⟨rfl, rfl⟩, h.recorded]
  rfl

/-! ## Operations -/

/-- A buffer that is large enough stays. -/
theorem Seats.run_allocate_of_room (h : s.Seats S k e st o r)
    (hfits : (k.range window).fits k.bytes.length = true) (hroom : k.hasRoom window = true) :
    (allocate 0 0 window).run s = (.ok none, s) := by
  obtain ⟨host, hhost, hlength⟩ := h.run_host
  obtain ⟨c, hc, hsize⟩ := (Option.any_eq_true _ _).1 hroom
  have hrequired : (window.getD (.whole host.length)).size ≤ c.2.length := by
    rw [hlength]
    exact of_decide_eq_true hsize
  rw [allocate, run_bind_of_ok h.run_place, run_bind_of_ok hhost,
    run_bind_of_ok h.run_requireDevice, run_bind_of_ok (h.run_checkWindow hlength hfits)]
  rw [run_bind_of_ok h.run_record, h.piece.allocation, hc]
  simp [hrequired]

theorem Seats.exists_run_provide (h : s.Seats S k e st o r) (hidle : s.Idle)
    (hvalid : r.valid = false) {bytes : Nat} (hbytes : bytes < Station.memoryLimit)
    (label : String) :
    ∃ event s' id, (provide label S.place 0 0 bytes).run s = (.ok event, s') ∧
      s'.Bears S { k with
        copy := some (id, List.replicate bytes 0)
        held := none
        allocations := k.allocations + 1 } e ∧ s'.Idle := by
  obtain ⟨⟨buffer, event⟩, st', hrun, rfl, hrests⟩ :=
    Station.attains_allocate S.place hbytes st (h.rests hidle)
  obtain ⟨s', hs', hbears, hidle'⟩ := h.exists_run (b := event) (g := fun a => do
      update 0 0 fun r => { r with allocation := some ⟨a.1, bytes⟩ }
      note label 0 0
      return a.2) hrun hrests.1 (Nat.le_succ _) (h.piece.provided hvalid bytes) rfl
  exact ⟨event, s', _, hs', hbears, hidle' hrests.2⟩

theorem run_log (level : Offload.Level) (text : String) (s : Store) :
    (log level text).run s = (.ok (), { s with context := s.context.log level text }) := rfl

theorem Seats.withJournal (h : s.Seats S k e st o r) (journal : Journal) :
    Seats S k e { s with context := { s.context with journal } } { st with journal } o r := by
  obtain ⟨c, hc, hsuits⟩ := h.context
  exact ⟨⟨c, by rw [hc]; rfl, hsuits⟩, h.recorded, h.due.journal journal, h.events, h.piece⟩

theorem Seats.log (h : s.Seats S k e st o r) (level : Offload.Level) (text : String) : Seats S k e
    { s with context := s.context.log level text }
    { st with journal := s.context.journal.add level text } o r :=
  h.withJournal _

theorem Seats.exists_run_discard (h : s.Seats S k e st o r) (hidle : s.Idle)
    (hc : k.copy = some c) :
    ∃ s' st' o', (discard c.1 0 0).run s = (.ok (), s') ∧
      s'.Seats S { k with copy := none, held := none } e st' o' {} ∧ s'.Idle := by
  have hbuffer : (o.memory.get? c.1).isSome := by
    rw [h.piece.memory c hc]
    rfl
  obtain ⟨_, st', hrun, hrests⟩ := Station.attains_release hbuffer st (h.rests hidle)
  obtain ⟨context, hsuits, hdevice⟩ := h.run_onDevice hrun
  refine ⟨⟨context.seat st', s.table.update 0 0 fun _ => {}⟩, st',
    { o with memory := o.memory.erase c.1 }, ?_,
    ⟨⟨context, rfl, hsuits⟩, ?_, hrests.1, h.events, h.piece.released _⟩, idle_seat.2 hrests.2⟩
  · rw [discard, run_bind_of_ok hdevice]
    rfl
  · rw [Table.get?_update, if_pos ⟨rfl, rfl⟩, h.recorded]
    rfl

/-- A buffer is made when there is none, and a larger one when there is one that is too small. -/
theorem attains_allocate (hfits : (k.range window).fits k.bytes.length = true)
    (hbytes : (k.range window).size < Station.memoryLimit) :
    Attains (fun s => s.Bears S k e ∧ s.Idle) (allocate 0 0 window)
      fun _ s => ∃ id, s.Bears S (k.allocate id window) e ∧ s.Idle := by
  rintro s ⟨⟨st, o, r, h⟩, hidle⟩
  cases hroom : k.hasRoom window with
  | true =>
    refine ⟨none, s, h.run_allocate_of_room hfits hroom, 0, ?_⟩
    rw [Workpiece.allocate, if_pos hroom]
    exact ⟨⟨st, o, r, h⟩, hidle⟩
  | false =>
    obtain ⟨host, hhost, hlength⟩ := h.run_host
    have hrequired : (window.getD (.whole host.length)).size = (k.range window).size := by
      rw [hlength]
      rfl
    rw [allocate, run_bind_of_ok h.run_place, run_bind_of_ok hhost,
      run_bind_of_ok h.run_requireDevice, run_bind_of_ok (h.run_checkWindow hlength hfits)]
    rw [run_bind_of_ok h.run_record, h.piece.allocation, hrequired]
    simp only [Workpiece.allocate, hroom, Bool.false_eq_true, if_false]
    cases hcopy : k.copy with
    | none =>
      have hvalid : r.valid = false := by
        rw [h.piece.valid, h.piece.empty hcopy]
        rfl
      obtain ⟨event, s', id, hrun, hbears, hidle'⟩ :=
        h.exists_run_provide hidle hvalid hbytes host.label
      exact ⟨some event, s', run_bind_of_ok hrun, id, hbears, hidle'⟩
    | some c =>
      have hsmall : ¬(k.range window).size ≤ c.2.length := by
        rw [Workpiece.hasRoom, hcopy] at hroom
        simpa using hroom
      have hlog := h.log .trace
        ("residency: grow " ++ host.label ++ " on device " ++ toString 0 ++ " from " ++
          toString c.2.length ++ " to " ++ toString (k.range window).size ++ " bytes")
      obtain ⟨s₁, st₁, o₁, hdiscard, h₁, hidle₁⟩ := hlog.exists_run_discard hidle hcopy
      obtain ⟨event, s', id, hrun, hbears, hidle'⟩ :=
        h₁.exists_run_provide hidle₁ rfl hbytes host.label
      refine ⟨some event, s', ?_, id, hbears, hidle'⟩
      dsimp only [Option.map_some]
      rw [if_neg hsmall, run_bind_of_ok (run_log ..), run_bind_of_ok hdiscard,
        run_bind_of_ok hrun]
      rfl

/-- A buffer with room for the window is filled with it. -/
theorem attains_streamIn (hfits : (k.range window).fits k.bytes.length = true)
    (hroom : k.hasRoom window = true) (wait : List EventId) :
    Attains (Bears S k e) (streamIn 0 0 window wait) fun _ => Bears S (k.write window) e := by
  rintro s ⟨st, o, r, h⟩
  obtain ⟨host, hhost, -⟩ := h.run_host
  obtain ⟨c, hc, hsize⟩ := (Option.any_eq_true _ _).1 hroom
  have hobject := h.piece.objectAt
  have hexecute := Command.execute_write_window hobject (h.piece.memory c hc) hfits
    (of_decide_eq_true hsize)
  have hwindow : ∀ w ∈ window, w.fits (objectAt o.objects S.place).length = true := by
    intro w hw
    obtain rfl := hw
    rw [hobject]
    exact hfits
  obtain ⟨event, st', hrun, hdue⟩ := Station.attains_write wait hwindow hexecute st h.due
  rw [streamIn, run_bind_of_ok (h.run_allocate_of_room hfits hroom), run_bind_of_ok h.run_place,
    run_bind_of_ok hhost, run_bind_of_ok (h.run_bufferOf hc _)]
  obtain ⟨s', hs', hbears, -⟩ := h.exists_run (b := event) (g := fun event => do
      update 0 0 fun r => r.sent window
      note host.label 0 0
      return event) hrun hdue (Nat.le_succ _) (h.piece.written hc window) rfl
  exact ⟨event, s', hs', hbears⟩

theorem attains_copyIn (hfits : (k.range window).fits k.bytes.length = true)
    (hroom : k.hasRoom window = true) (wait : List EventId) :
    Attains (Bears S k e) (copyIn 0 0 window wait) fun _ => Bears S (k.send true window) e := by
  rintro s ⟨st, o, r, h⟩
  rw [copyIn, run_bind_of_ok h.run_record, h.piece.holds]
  cases hheld : k.held == some window with
  | true =>
    simp only [if_true, Workpiece.send, hheld, Bool.and_self]
    rw [run_bind_of_ok (run_log ..)]
    exact ⟨none, _, rfl, _, o, r, h.log _ _⟩
  | false =>
    simp only [Bool.false_eq_true, if_false, Workpiece.send, hheld, Bool.and_false]
    obtain ⟨event, s', hrun, hbears⟩ := attains_streamIn hfits hroom wait s ⟨st, o, r, h⟩
    exact ⟨some event, s', run_bind_of_ok hrun, hbears⟩

/-- Reading back waits for all that was submitted. -/
theorem attains_streamOut (hfits : (k.range window).fits k.bytes.length = true)
    (hc : k.copy = some c) (wait : List EventId) :
    Attains (Bears S k e) (streamOut 0 0 window wait true)
      fun _ s => s.Bears S (k.fetch window) e ∧ s.Idle := by
  rintro s ⟨st, o, r, h⟩
  obtain ⟨host, hhost, hlength⟩ := h.run_host
  have hobject := h.piece.objectAt
  have hexecute := Command.execute_read_window hobject (h.piece.memory c hc) hfits
  have hwindow : ∀ w ∈ window, w.fits (objectAt o.objects S.place).length = true := by
    intro w hw
    obtain rfl := hw
    rw [hobject]
    exact hfits
  obtain ⟨event, st', hrun, hrests⟩ := Station.attains_read wait hwindow hexecute st h.due
  rw [streamOut, run_bind_of_ok h.run_place, run_bind_of_ok hhost,
    run_bind_of_ok h.run_requireDevice, run_bind_of_ok (h.run_checkWindow hlength hfits),
    run_bind_of_ok (h.run_bufferOf hc _)]
  obtain ⟨s', hs', hbears, hidle⟩ := h.exists_run (b := event) (g := fun event => do
      update 0 0 Record.fetched
      note host.label 0 0
      return event) hrun hrests.1 (Nat.le_succ _) (h.piece.fetched hc window) rfl
  exact ⟨event, s', hs', hbears, hidle hrests.2⟩

theorem Seats.claim (h : s.Seats S k e st o r) (hcopy : k.copy.isSome) (hheld : k.held.isSome)
    (text : String) :
    Bears S k e ⟨s.context.log .trace text, (s.table.update 0 0 Record.written).setOwner 0 0⟩ := by
  have hclaimed : Seats S k e { s with table := (s.table.update 0 0 Record.written).setOwner 0 0 }
      st o
      r.written := by
    refine ⟨h.context, ?_, h.due, h.events, h.piece.claimed hcopy hheld⟩
    rw [Table.get?_setOwner, Table.get?_update, if_pos ⟨rfl, rfl⟩, h.recorded]
    rfl
  exact ⟨_, o, _, hclaimed.log .trace text⟩

/-- The task is compiled for the device and bound to it. -/
theorem Seats.installed (h : s.Seats S k e st o r) (hk : k.compiled = false) (journal : Journal) :
    Seats S k.compile e
      { s with context := { s.context with
          devices := s.context.devices.set 0 (Machine.asked st.device)
          tasks := s.context.tasks.modify 0 fun t => t.bind 0
          journal } }
      ⟨Machine.asked st.device, st.objects, journal⟩
      (o.counted fun c => { c with compilations := c.compilations + 1 }) r := by
  obtain ⟨c, hc, hplace, t, ht, hname⟩ := h.context
  have hasked := h.due.counted fun c => { c with compilations := c.compilations + 1 }
  refine ⟨⟨{ c with tasks := c.tasks.modify 0 fun t => t.bind 0 }, by rw [hc]; rfl, hplace,
    t.bind 0, ?_, hname⟩, h.recorded, ?_, h.events, ?_⟩
  · rw [List.getElem?_modify, ht]
    rfl
  · exact hasked.journal journal
  · rw [Workpiece.compile, hk]
    exact ⟨h.piece.options, h.piece.objects, h.piece.kernel, h.piece.allocations, h.piece.writes,
      congrArg (· + 1) h.piece.compilations, h.piece.allocation, h.piece.memory, h.piece.valid,
      h.piece.window, h.piece.empty⟩

/-- The launch on the buffer is submitted, and the frame comes back as the device leaves it. -/
theorem Seats.exists_run_launch (h : s.Seats S k e st o r) (hc : k.copy = some c) {f : CallFrame}
    {label : String} (harguments : f.arguments = [.reference 0 c.1 label]) (task : String)
    (window : Option Window) (wait : List EventId) :
    ∃ event s',
      (inContext (Context.onDevice 0 (Station.launch ⟨"add_one", .addOne⟩ f task window wait))).run
      s =
        (.ok (event, if S.options.retainCallFrames then f.markOnDevice else f), s') ∧
      e ≤ event ∧ s'.Bears S { k with copy := some (c.1, Bytes.addOne c.2) } (event + 1) := by
  have hexecute : (Command.launch "add_one" .addOne (f.arguments.map Station.argumentOf)
      window).execute o.memory o.objects =
      (.ok (), o.memory.set c.1 (Bytes.addOne c.2), o.objects) := by
    rw [harguments]
    exact Command.execute_addOne (h.piece.memory c hc) "add_one" window
  obtain ⟨⟨event, f'⟩, st', hlaunch, hevent, hretained, hdue⟩ :=
    Station.attains_launch ⟨"add_one", .addOne⟩ task wait hexecute st h.due
  obtain ⟨context, hsuits, hrun⟩ := h.run_onDevice hlaunch
  rw [h.piece.options] at hretained
  dsimp only at hevent hretained
  rw [hevent, hretained] at hrun
  refine ⟨o.events, _, hrun, h.events, st', _, r, ⟨context, rfl, hsuits⟩, h.recorded,
    hdue, le_rfl, ?_⟩
  exact h.piece.launched hc

end Store

end Offload
