import Offload.Proofs.Rounds

/-!
# Programs of rounds

Where a program of rounds can start: a context with one device, on which nothing waits and which has
the kernel that adds one, with an object of words and with a task that adds one. A machine that is
made there bears the object as it is, and when nothing waits, the objects and the counters of a
machine can be read off its workpiece.
-/

namespace Offload

/-- A context for rounds of work on words that are stored under a label at a place. -/
structure Context.Prepared (c : Context) (d : Device) (place : Nat) (label : String)
    (words : List UInt32) :
    Prop where
  device : c.devices = [d]
  idle : d.queue = []
  kernel : d.kernels.get? "add_one" = some .addOne
  first : c.places[0]? = some place
  object : c.objects[place]? = some (HostObject.ofWords label words)
  task : ∃ t, c.tasks[0]? = some t ∧ t.name = "add_one"

/-- Words of which a device has nothing yet. -/
def Workpiece.raw (d : Device) (words : List UInt32) : Workpiece where
  bytes := Bytes.ofWords words
  allocations := d.counters.allocations
  writes := d.counters.writes
  compilations := d.counters.compilations

namespace Context.Prepared

variable {c : Context} {d : Device} {place : Nat} {label : String} {words : List UInt32}

def scene (h : c.Prepared d place label words) : Scene where
  options := d.options
  objects := c.objects
  place
  label
  stored := (List.getElem?_eq_some_iff.1 h.object).1

theorem exists_of_create (h : c.Prepared d place label words) {code : Bytes} {config : Config}
    {m : Machine} {c' : Context} (hm : (Machine.create code config).run c = (.ok m, c')) :
    ∃ loaded journal, c' = { c with devices := [{ d with loaded }], journal } := by
  obtain ⟨-, journal, rfl⟩ := Machine.context_of_create hm
  exact ⟨_, journal, by rw [Context.loading, h.device]; rfl⟩

theorem piece (h : c.Prepared d place label words) :
    (Workpiece.raw d words).Matches h.scene
      ⟨d.memory, c.objects, d.options, d.kernels, d.nextBuffer, d.log.size, d.counters⟩ {} where
  options := rfl
  objects := by
    obtain ⟨hplace, hobject⟩ := List.getElem?_eq_some_iff.1 h.object
    change c.objects = c.objects.set place (.ofWords label words)
    rw [← hobject, List.set_getElem_self]
  kernel := h.kernel
  allocations := rfl
  writes := rfl
  compilations := rfl
  allocation := rfl
  memory := by simp [Workpiece.raw]
  valid := rfl
  window := by simp [Workpiece.raw]
  empty _ := rfl

theorem seats_new (h : c.Prepared d place label words) (loaded : Bool) (journal : Journal) :
    Store.Seats h.scene (.raw d words) 0 (.new { c with devices := [{ d with loaded }], journal })
      ⟨{ d with loaded }, c.objects, journal⟩
      ⟨d.memory, c.objects, d.options, d.kernels, d.nextBuffer, d.log.size, d.counters⟩ {} := by
  have hplaces : 0 < c.places.length := (List.getElem?_eq_some_iff.1 h.first).1
  refine ⟨⟨c, rfl, h.first, h.task⟩, ?_,
    ⟨⟨d.log, ?_⟩, ?_, fun _ => h.idle, rfl, rfl, rfl, rfl, rfl⟩, Nat.zero_le _, h.piece⟩
  · rw [Store.new, Table.get?_new, if_pos ⟨hplaces, Nat.zero_lt_one⟩]
  · rw [h.idle]
    rfl
  · simp [h.idle]

theorem rests_initial (h : c.Prepared d place label words) (loaded : Bool) (journal : Journal)
    (config : Config) {header : Header} (htasks : 0 < header.tasks) (reader : Reader) :
    (Machine.initial { c with devices := [{ d with loaded }], journal } config header reader).Rests
      h.scene (.raw d words) := by
  have hseats := h.seats_new loaded journal
  refine ⟨⟨⟨0, ⟨_, _, _, hseats⟩, by simp [Machine.initial]⟩, CodeCache.get?_new _ _, ?_, ?_, ?_⟩,
    hseats.idle h.idle⟩
  · exact lt_of_lt_of_eq htasks List.length_replicate.symm
  · exact lt_of_lt_of_eq htasks List.length_replicate.symm
  · intro f hf
    rw [Machine.initial, FramePool.get?, FramePool.new, List.getElem?_replicate,
      if_pos htasks] at hf
    cases hf

/-- A machine can be made. It bears the words as they are, and it is about to read the body of the
program. -/
theorem exists_create (h : c.Prepared d place label words) {code : Bytes} {p : Program}
    (hp : Program.decode code = .ok p) (hcheck : p.header.check c = .ok ()) (config : Config) :
    ∃ m c', (Machine.create code config).run c = (.ok m, c') ∧
      m.Rests h.scene (.raw d words) ∧ m.Reads p.body := by
  obtain ⟨m, c', hm, -⟩ := Machine.create_of_validate (Context.validate_of_decode hp hcheck) config
  obtain ⟨cursor, -, hfits, -, hinitial⟩ := Machine.start_of_create hm
  obtain ⟨loaded, journal, hc'⟩ := h.exists_of_create hm
  obtain ⟨t, ht, -⟩ := h.task
  have htasks : 0 < m.header.tasks := by
    rw [(Header.check_eq_ok_iff.1 hfits).2.1]
    exact (List.getElem?_eq_some_iff.1 ht).1
  refine ⟨m, c', hm, ?_, Machine.reads_create hm hp⟩
  rw [hinitial, hc']
  exact h.rests_initial loaded journal config htasks _

end Context.Prepared

namespace Machine

variable {S : Scene} {k : Workpiece} {m : Machine}

theorem Rests.objects (h : m.Rests S k) :
    m.context.objects = S.objects.set S.place ⟨S.label, k.bytes⟩ := by
  obtain ⟨_, ⟨st, o, r, hstore⟩, -⟩ := h.1.store
  obtain ⟨c, hc, -⟩ := hstore.context
  rw [context, hc, ← hstore.piece.objects]
  exact (hstore.rests h.2).objects

theorem Rests.counters (h : m.Rests S k) :
    ∃ d, m.context.devices = [d] ∧ d.counters.allocations = k.allocations ∧
      d.counters.writes = k.writes ∧ d.counters.compilations = k.compilations := by
  obtain ⟨_, ⟨st, o, r, hstore⟩, -⟩ := h.1.store
  refine ⟨st.device, hstore.device, ?_⟩
  rw [hstore.due.counters]
  exact ⟨hstore.piece.allocations, hstore.piece.writes, hstore.piece.compilations⟩

end Machine

end Offload
