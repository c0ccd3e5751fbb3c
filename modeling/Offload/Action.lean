/-!
# Actions

An action runs on a state. It ends in a value or in a fault, and it leaves a state either way, so
work done before a fault is kept. An action on a part of a state acts on the whole through `focus`.
-/

namespace Offload

/-- A computation on states `σ` that ends in a value of `α` or in a fault of `ε`. -/
def Action (σ ε α : Type) : Type := σ → Except ε α × σ

namespace Action

variable {σ τ ε δ α β : Type}

def run (x : Action σ ε α) (s : σ) : Except ε α × σ := x s

def value (a : α) : Action σ ε α := fun s => (.ok a, s)

/-- End in the fault `e` and leave the state as it is. -/
def fail (e : ε) : Action σ ε α := fun s => (.error e, s)

/-- Run `x`, then the action chosen from its value; a fault of `x` ends both. -/
def andThen (x : Action σ ε α) (f : α → Action σ ε β) : Action σ ε β := fun s =>
  match x s with
  | (.ok a, t) => f a t
  | (.error e, t) => (.error e, t)

/-- Run `x`; on a fault continue with `handler` from the state that `x` left. -/
def orElse (x : Action σ ε α) (handler : ε → Action σ ε α) : Action σ ε α := fun s =>
  match x s with
  | (.ok a, t) => (.ok a, t)
  | (.error e, t) => handler e t

instance : Monad (Action σ ε) where
  pure := value
  bind := andThen

instance : MonadExceptOf ε (Action σ ε) where
  throw := fail
  tryCatch := orElse

instance : MonadStateOf σ (Action σ ε) where
  get := fun s => (.ok s, s)
  set t := fun _ => (.ok (), t)
  modifyGet f := fun s => (.ok (f s).1, (f s).2)

/-- The outcome of `x` without the state it leaves. -/
def outcome (x : Action σ ε α) (s : σ) : Except ε α := (x s).1

/-- The state that `x` leaves. -/
def after (x : Action σ ε α) (s : σ) : σ := (x s).2

/-- Lift a value or fault that touches no state. -/
def ofExcept : Except ε α → Action σ ε α
  | .ok a => value a
  | .error e => fail e

def mapFault (f : ε → δ) (x : Action σ ε α) : Action σ δ α := fun s =>
  match x s with
  | (.ok a, t) => (.ok a, t)
  | (.error e, t) => (.error (f e), t)

/-- Run `x` and give back its outcome, fault or value. -/
def attempt (x : Action σ ε α) : Action σ ε (Except ε α) := fun s => (.ok (x s).1, (x s).2)

/-- Run an action on the part of a state that `part` shows and `put` replaces. -/
def focus (part : τ → σ) (put : σ → τ → τ) (x : Action σ ε α) : Action τ ε α := fun t =>
  ((x (part t)).1, put (x (part t)).2 t)

/-- Turn a value and a new state that are computed outright into an action. -/
def compute (f : σ → α × σ) : Action σ ε α := fun s => (.ok (f s).1, (f s).2)

theorem outcome_eq (x : Action σ ε α) (s : σ) : x.outcome s = (x.run s).1 := rfl

theorem after_eq (x : Action σ ε α) (s : σ) : x.after s = (x.run s).2 := rfl

@[simp] theorem run_pure (a : α) (s : σ) : run (pure a : Action σ ε α) s = (.ok a, s) := rfl

@[simp] theorem run_throw (e : ε) (s : σ) : run (throw e : Action σ ε α) s = (.error e, s) := rfl

@[simp] theorem run_get (s : σ) : run (get : Action σ ε σ) s = (.ok s, s) := rfl

@[simp] theorem run_set (s t : σ) : run (set t : Action σ ε PUnit) s = (.ok (), t) := rfl

@[simp] theorem run_modify (f : σ → σ) (s : σ) :
    run (modify f : Action σ ε PUnit) s = (.ok (), f s) := rfl

theorem run_bind (x : Action σ ε α) (f : α → Action σ ε β) (s : σ) :
    run (x >>= f) s =
      match run x s with
      | (.ok a, t) => run (f a) t
      | (.error e, t) => (.error e, t) := rfl

/-- A sequence ends in a value exactly when both of its parts do. -/
theorem run_bind_eq_ok {x : Action σ ε α} {f : α → Action σ ε β} {s u : σ} {b : β} :
    run (x >>= f) s = (.ok b, u) ↔ ∃ a t, run x s = (.ok a, t) ∧ run (f a) t = (.ok b, u) := by
  rw [run_bind]
  rcases run x s with ⟨r, t⟩
  cases r <;> simp [and_assoc]

@[simp] theorem run_attempt (x : Action σ ε α) (s : σ) :
    run (attempt x) s = (.ok (run x s).1, (run x s).2) := rfl

@[simp] theorem run_focus (part : τ → σ) (put : σ → τ → τ) (x : Action σ ε α) (t : τ) :
    run (focus part put x) t = ((run x (part t)).1, put (run x (part t)).2 t) := rfl

end Action

end Offload
