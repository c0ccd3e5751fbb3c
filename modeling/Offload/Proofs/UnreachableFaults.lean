import Offload.Proofs.Script

/-!
# Faults that no pass ends in

A frame that is full, code that is not there, a header that does not fit and a marker that is
missing are guarded against, but no pass over a machine that was made meets them, and only an
instruction that reads back finds that there is no buffer. What an instruction may end in is known.
What is left are the faults of reading an instruction, and the end of a pass.
-/

namespace Offload

open Offload.Action

/-- Whether a pass may end in the fault without reading back. -/
def Fault.isOpen : Fault → Bool
  | .frameOverflow .. | .codeNotInstalled .. | .headerMismatch .. | .missingMarker ..
  | .objectNotAllocated .. => false
  | .decode .. | .unknownOpcode .. | .missingEnd .. | .unexpectedOpcode .. | .indexOutOfRange ..
  | .windowOutOfRange .. | .eventListFull .. | .multiDeviceBarrier .. | .objectNotValid ..
  | .compilation ..
  | .device .. => true

theorem Fault.isOpen_of_isRoutine {fault : Fault} (h : fault.isRoutine) : fault.isOpen := by
  cases fault <;> first | rfl | cases h

/-! ## Reading an instruction -/

namespace Reading

theorem isOpen_of_instruction {c c' : Cursor} {fault : Fault}
    (h : instruction.run c = (.error fault, c')) :
    fault.isOpen := by
  -- The markers of a program stand in its header.
  rcases (parses_instruction (k := false) (G := fun _ => False)).fault c fault c' h with
    hno | ⟨u, hat, -⟩
  · exact hno.elim
  · cases fault <;> first | rfl | cases hat.1 | cases hat

/-- What stops the reading of a script is an instruction that cannot be read. -/
theorem isOpen_of_script {fuel : Nat} {c : Cursor} {fault : Fault}
    (h : (script fuel c).fault = some fault) :
    fault.isOpen := by
  induction fuel generalizing c with
  | zero =>
    cases h
    rfl
  | succ fuel ih =>
    rw [script] at h
    rcases hrun : instruction.run c with ⟨r, c'⟩
    rw [hrun] at h
    cases r with
    | error e =>
      cases h
      exact isOpen_of_instruction hrun
    | ok i =>
      dsimp only at h
      split at h
      · cases h
      · exact ih h

end Reading

namespace Machine

variable {code : Bytes} {config : Config} {c c' : Context} {m : Machine} {mode : PassMode}
  {kind : PassKind}

/-- The instruction that a body fails on is carried out, and it decides what it may fail with. -/
theorem mayFail_of_failsAt {is : List Instruction} {k fuel : Nat} {fault : Fault}
    (h : FailsAt mode kind is (bodyMoments mode kind fuel m) k fault) :
    fault.isOpen ∨ ∃ x i, (bodyMoments mode kind fuel m).getLast? = some x ∧
      x.deed = .instruction mode i (.error fault) ∧ i.MayFail fault := by
  cases h with
  | refused => exact .inl rfl
  | @failed i x _ _ _ _ hlast hx =>
    obtain ⟨i', -, hcarry⟩ := eq_of_mem_bodyMoments (List.mem_of_getLast? hlast)
    rw [hcarry] at hx
    obtain ⟨-, rfl, hrun⟩ := Deed.instruction.inj hx
    exact .inr ⟨x, i', hlast, hcarry ▸ hx, (gives_effect mode i').fault_of_run (Prod.ext hrun rfl)⟩

/-- A pass over a machine that was made never finds a frame full, code missing, a header that does
not fit or a marker missing. It finds no buffer only when its last deed is an instruction that reads
back. A frame that was found for a launch has room for all of its arguments once it is emptied, and
where a buffer was asked for without a fault there is one. -/
theorem defensive_faults_unreachable (hm : (create code config).run c = (.ok m, c'))
    (requests : List Request) (mode : PassMode) (kind : PassKind) :
    (∀ fault, ((runPass mode kind).run (session requests m).2).1 = .error fault → fault.isOpen ∨
      ∃ x blocking object device events window label,
      fault = .objectNotAllocated object label device ∧
        ((session requests m).2.passMoments mode kind).getLast? = some x ∧
        x.deed = .instruction mode (.transfer (.streamOut blocking) object device events window)
        (.error fault)) ∧
    (∀ frame count f (now now' : Machine), (resolveFrame frame count).run now = (.ok f, now') →
      f.reset.arguments.length + count ≤ f.reset.capacity) ∧
    ∀ object device window event (s s' : Store),
      (Store.allocate object device window).run s = (.ok event, s') →
      ∃ buffer, ∀ label, (Store.bufferOf label object device).run s' = (.ok buffer, s') := by
  refine ⟨fun fault hfault => ?_, fun frame count f now now' hrun => ?_,
    fun object device window event s s' hrun => ?_⟩
  · rcases fault_of_closing hfault with hbody | ⟨-, -, hroutine⟩
    · rcases (enacts_body hm requests mode kind).stopped hbody with ⟨k, hk⟩ | ⟨hsome, -, -⟩
      · rcases mayFail_of_failsAt hk with hopen | ⟨x, i, hlast, hx, hroutine | hread⟩
        · exact .inl hopen
        · exact .inl (Fault.isOpen_of_isRoutine hroutine)
        · obtain ⟨blocking, object, device, events, window, label, rfl, hfault⟩ := hread
          exact .inr ⟨x, blocking, object, device, events, window, label, hfault, hlast, hx⟩
      · exact .inl (Reading.isOpen_of_script hsome)
    · exact .inl (Fault.isOpen_of_isRoutine hroutine)
  · obtain ⟨frames, hresolve, -⟩ := resolve_of_resolveFrame hrun
    have hroom := FramePool.le_capacity_of_resolve hresolve
    exact (Nat.zero_add count).trans_le hroom
  · obtain ⟨_, _, r, a, -, -, hr, ha, -⟩ := (Store.allocating_of_run hrun).room
    exact ⟨a.buffer, Store.run_bufferOf_of_some hr ha⟩

/-- The body reads back an object that was never sent. A warm-up leaves it alone, and the pass after
it fails. -/
theorem defensive_faults_unreachable_unsent :
    let code : Bytes :=
      Program.encode ⟨⟨1, 0, 0, [0]⟩, [.transfer (.streamOut true) 0 0 none none, .finish]⟩
    let c : Context :=
      { devices := [{ name := "d" }], objects := [⟨"a", [1]⟩], constants := [], tasks := [] }
    let fault : Fault := .objectNotAllocated 0 "a" 0
    ∃ m c', (create code {}).run c = (.ok m, c') ∧
      let now := (session [.pass .warmup .plain] m).2
      ((runPass .normal .plain).run now).1 = .error fault ∧
      ∃ x blocking events window, (now.passMoments .normal .plain).getLast? = some x ∧
        x.deed = .instruction .normal (.transfer (.streamOut blocking) 0 0 events window)
        (.error fault) := by
  intro code c fault
  have hrun : (((create code {}).outcome c).toOption.map fun m =>
      ((runPass .normal .plain).run (session [.pass .warmup .plain] m).2).1) =
        some (.error fault) := by
    decide +kernel
  obtain ⟨m, c', hm, hresult⟩ := Action.exists_run_of_read hrun
  obtain ⟨hfaults, -, -⟩ := defensive_faults_unreachable hm [.pass .warmup .plain] .normal .plain
  rcases hfaults fault hresult with
    hopen | ⟨x, blocking, object, device, events, window, label, heq, hlast, hx⟩
  · cases hopen
  · obtain ⟨rfl, -, rfl⟩ := Fault.objectNotAllocated.inj heq
    exact ⟨m, c', hm, hresult, x, blocking, events, window, hlast, hx⟩

end Machine

end Offload
