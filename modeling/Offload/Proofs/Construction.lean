import Offload.Proofs.Script

/-!
# Making machines

A machine is made of a program whose header can be read and fits the context; the bytes behind the
header have no say in it. Then the devices that the header names are loaded. Nothing is loaded
before all the names have been checked, so where no machine is made the context is as it was.
-/

namespace Offload.Machine

open Offload.Action

variable {code : Bytes} {config : Config} {c c' : Context} {m : Machine} {h : Header}
  {fault : Fault}

/-- The machine, with other bytes behind the header of its program. -/
def withBody (m : Machine) (body : Bytes) : Machine :=
  { m with
    reader := ⟨m.header.encode ++ body, ⟨body, m.reader.position⟩, ⟨body, m.reader.position⟩⟩ }

theorem run_header_append (hh : h.InRange) (body : Bytes) :
    Reading.header.run (.ofBytes (h.encode ++ body)) = (.ok h, ⟨body, h.encode.length⟩) :=
  (Reading.run_header _ _ h).2 ⟨hh, rfl, (Nat.zero_add _).symm⟩

/-- A header that was read is what the stream begins with. -/
theorem encode_of_header {cursor : Cursor}
    (hrun : Reading.header.run (.ofBytes code) = (.ok h, cursor)) :
    h.InRange ∧ code = h.encode ++ cursor.rest := by
  obtain ⟨hh, hcode, -⟩ := (Reading.run_header _ _ h).1 hrun
  exact ⟨hh, hcode⟩

theorem run_create_of_check_error {cursor : Cursor}
    (hheader : Reading.header.run (.ofBytes code) = (.ok h, cursor))
    (hcheck : h.check c = .error fault) :
    (create code config).run c = (.error fault, c) := by
  have hstart : (start code).run c = (.error fault, c) := by
    rw [run_start_of_header hheader, hcheck]
    rfl
  rw [create, run_bind_of_error hstart]

/-- There are three ways that an attempt to make a machine can go. -/
theorem create_cases (code : Bytes) (config : Config) (c : Context) :
    (∃ fault, Reading.header.outcome (.ofBytes code) = .error fault ∧
      (create code config).run c = (.error fault, c)) ∨
    (∃ h fault, Reading.header.outcome (.ofBytes code) = .ok h ∧ h.check c = .error fault ∧
      (create code config).run c = (.error fault, c)) ∨
    ∃ h m c', Reading.header.outcome (.ofBytes code) = .ok h ∧ h.check c = .ok () ∧
      (create code config).run c = (.ok m, c') := by
  rw [outcome_eq]
  rcases hheader : Reading.header.run (.ofBytes code) with ⟨r, cursor⟩
  cases r with
  | error fault =>
    exact .inl ⟨fault, rfl, by rw [create, run_bind_of_error (run_start_of_fault hheader c)]⟩
  | ok h =>
    cases hcheck : h.check c with
    | error fault =>
      exact .inr (.inl ⟨h, fault, rfl, hcheck, run_create_of_check_error hheader hcheck⟩)
    | ok _ =>
      obtain ⟨journal, hload⟩ := run_load (Header.check_eq_ok_iff.1 hcheck).2.2
      exact .inr (.inr ⟨h, _, _, rfl, hcheck, run_create_of_load hheader hcheck hload config⟩)

/-- What is made of a header does not depend on the body. -/
theorem run_create_append (hh : h.InRange) (body other : Bytes) :
    (create (h.encode ++ other) config).run c =
      (((create (h.encode ++ body) config).run c).1.map (·.withBody other),
        ((create (h.encode ++ body) config).run c).2) := by
  have hread := run_header_append hh
  cases hcheck : h.check c with
  | error fault =>
    rw [run_create_of_check_error (hread body) hcheck,
      run_create_of_check_error (hread other) hcheck]
    rfl
  | ok _ =>
    obtain ⟨journal, hload⟩ := run_load (Header.check_eq_ok_iff.1 hcheck).2.2
    rw [run_create_of_load (hread body) hcheck hload, run_create_of_load (hread other) hcheck hload]
    rfl

/-- Making a machine is all or nothing. Either there is a fault and the context is as it was, or
there is a machine, exactly if the header can be read, its counts are those of the context and the
devices that it names are there. A machine takes over a context in which these devices are loaded
and no more is changed of any device. The bytes behind BEGIN make no difference: with others in
their place there is the same fault, or the same machine but for its reader. -/
theorem create_all_or_nothing (code : Bytes) (config : Config) (c : Context) :
    ((∃ fault, (create code config).run c = (.error fault, c)) ∨
      ∃ m c', (create code config).run c = (.ok m, c')) ∧
    ((∃ m c', (create code config).run c = (.ok m, c')) ↔
      ∃ h, Reading.header.outcome (.ofBytes code) = .ok h ∧ h.devices = c.devices.length ∧
        h.tasks = c.tasks.length ∧ ∀ index ∈ h.contexts, index < c.devices.length) ∧
    (∀ m c', (create code config).run c = (.ok m, c') →
      Reading.header.outcome (.ofBytes code) = .ok m.header ∧ m.context = c' ∧
      c'.devices.length = c.devices.length ∧
      ∀ (index : Nat) (d : Device), c.devices[index]? = some d →
        c'.devices[index]? =
        some { d with loaded := d.loaded || decide (index ∈ m.header.contexts) }) ∧
    ∀ h, Reading.header.outcome (.ofBytes code) = .ok h →
      ∃ front body, code = front ++ Opcode.enter.byte :: body ∧
      h.encode = front ++ [Opcode.enter.byte] ∧
        ∀ other, (create (front ++ Opcode.enter.byte :: other) config).run c =
          (((create code config).run c).1.map (·.withBody other),
            ((create code config).run c).2) := by
  refine ⟨?_, ?_, fun m c' hm => ?_, fun h hh => ?_⟩
  · rcases create_cases code config c with
      ⟨fault, -, hrun⟩ | ⟨h, fault, -, -, hrun⟩ | ⟨h, m, c', -, -, hrun⟩
    · exact .inl ⟨fault, hrun⟩
    · exact .inl ⟨fault, hrun⟩
    · exact .inr ⟨m, c', hrun⟩
  · constructor
    · rintro ⟨m, c', hm⟩
      obtain ⟨cursor, hheader, hcheck, -⟩ := start_of_create hm
      exact ⟨m.header, by rw [outcome_eq, hheader], Header.check_eq_ok_iff.1 hcheck⟩
    · rintro ⟨h, hh, hsuits⟩
      have hcheck := Header.check_eq_ok_iff.2 hsuits
      rcases create_cases code config c with
        ⟨fault, hno, -⟩ | ⟨h', fault, hh', hno, -⟩ | ⟨-, m, c', -, -, hrun⟩
      · cases hh.symm.trans hno
      · cases hh.symm.trans hh'
        cases hcheck.symm.trans hno
      · exact ⟨m, c', hrun⟩
  · obtain ⟨cursor, hheader, -⟩ := start_of_create hm
    obtain ⟨hcontext, journal, rfl⟩ := context_of_create hm
    refine ⟨by rw [outcome_eq, hheader], hcontext, List.length_mapIdx, fun index d hd => ?_⟩
    rw [Context.loading, List.getElem?_mapIdx, hd, List.contains_eq_mem]
    rfl
  · rcases hrun : Reading.header.run (.ofBytes code) with ⟨r, cursor⟩
    rw [outcome_eq, hrun] at hh
    obtain rfl : r = .ok h := hh
    obtain ⟨hrange, rfl⟩ := encode_of_header hrun
    obtain ⟨front, hfront⟩ : ∃ front, h.encode = front ++ [Opcode.enter.byte] := ⟨_ :: _, rfl⟩
    have hbytes : ∀ body, h.encode ++ body = front ++ Opcode.enter.byte :: body := fun body => by
      rw [hfront, List.append_assoc, List.singleton_append]
    refine ⟨front, cursor.rest, hbytes _, hfront, fun other => ?_⟩
    rw [← hbytes other]
    exact run_create_append hrange cursor.rest other

/-- The second directive names a device that is not there, and the first device is not loaded. With
that directive gone it is loaded and the other one is not, whatever stands behind BEGIN. -/
theorem create_all_or_nothing_late :
    let front : Bytes := (Header.mk 2 0 0 [1]).encode.dropLast
    let late : Bytes := (Header.mk 2 0 0 [1, 2]).encode
    let a : Device := { name := "a" }
    let b : Device := { name := "b" }
    let c : Context := { devices := [a, b], objects := [], constants := [], tasks := [] }
    (∃ fault, (create late {}).run c = (.error fault, c)) ∧
    ∃ m c', (create (front ++ Opcode.enter.byte :: [255]) {}).run c = (.ok m, c') ∧
      c'.devices[0]? = some a ∧ c'.devices[1]? = some { b with loaded := true } ∧
      (create (front ++ Opcode.enter.byte :: []) {}).run c = (.ok (m.withBody []), c') := by
  intro front late a b c
  have hlate : Reading.header.outcome (.ofBytes late) = .ok ⟨2, 0, 0, [1, 2]⟩ := by decide +kernel
  have hgood : Reading.header.outcome (.ofBytes (front ++ Opcode.enter.byte :: [255])) =
      .ok ⟨2, 0, 0, [1]⟩ := by
    decide +kernel
  obtain ⟨htwo, hiff, -⟩ := create_all_or_nothing late {} c
  obtain ⟨-, hiff', hmade, hsame⟩ :=
    create_all_or_nothing (front ++ Opcode.enter.byte :: [255]) {} c
  constructor
  · refine htwo.resolve_right fun hm => ?_
    obtain ⟨h, hh, -, -, hthere⟩ := hiff.1 hm
    cases hlate.symm.trans hh
    exact absurd (hthere 2 (by decide)) (by decide)
  · obtain ⟨m, c', hm⟩ := hiff'.2 ⟨_, hgood, rfl, rfl, by decide⟩
    obtain ⟨hheader, -, -, hdevices⟩ := hmade m c' hm
    have hcontexts : m.header.contexts = [1] :=
      congrArg Header.contexts (Except.ok.inj (hheader.symm.trans hgood))
    refine ⟨m, c', hm, ?_, ?_, ?_⟩
    · have hfirst := hdevices 0 a rfl
      rwa [hcontexts] at hfirst
    · have hsecond := hdevices 1 b rfl
      rwa [hcontexts] at hsecond
    · obtain ⟨front', body, hcode, hfront', hother⟩ := hsame _ hgood
      obtain rfl : front = front' := by
        have hcut := congrArg List.dropLast hfront'
        rwa [List.dropLast_concat] at hcut
      rw [hother [], hm]
      rfl

end Offload.Machine
