import Offload.Machine.Pass
import Offload.Proofs.Contracts

/-!
# Sessions

A session is what a user does with a machine: passes of any mode and kind, and invalidations, in any
order. A pass that fails does not end the session; the next request finds the machine as the failed
pass left it.
-/

namespace Offload

/-- What a user may ask of a machine. -/
inductive Request where
  | pass (mode : PassMode) (kind : PassKind)
  | invalidate
  deriving DecidableEq, Repr

namespace Machine

/-- Serve a request. An invalidation has no event. -/
def serve : Request → MachineAction Event
  | .pass mode kind => runPass mode kind
  | .invalidate => do
    modify Machine.invalidate
    return .empty

/-- Serve requests one after the other. Gives all the outcomes and the machine at the end. -/
def session : List Request → Machine → List (Except Fault Event) × Machine
  | [], m => ([], m)
  | request :: others, m =>
    let (outcome, m) := (serve request).run m
    let (outcomes, m) := session others m
    (outcome :: outcomes, m)

theorem session_append (served others : List Request) (m : Machine) :
    session (served ++ others) m =
      ((session served m).1 ++ (session others (session served m).2).1,
        (session others (session served m).2).2) := by
  induction served generalizing m with
  | nil => rfl
  | cons request served ih => simp only [List.cons_append, session, ih]

theorem session_keeps {I : Machine → Prop} (h : ∀ request, Action.Keeps I (serve request))
    (requests : List Request) {m : Machine} (hm : I m) : I (session requests m).2 := by
  induction requests generalizing m with
  | nil => exact hm
  | cons request others ih => exact ih (Action.meets_iff_after.1 (h request) m hm)

end Machine

end Offload
