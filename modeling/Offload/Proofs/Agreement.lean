import Offload.Proofs.Contracts

/-!
# Actions side by side

Two actions, started in related states, go together if they end in related values and leave related
states. Terms say what is asked where the first one fails: that the second one fails too, and how
the two faults and the states are related, or nothing at all. There is one rule for each way of
putting actions together, under any terms. Actions agree if they fail with the same fault in related
states, and one leads another if nothing is asked where it fails. A single action goes together with
itself, so that invariants are a case as well.
-/

namespace Offload

/-- Two outcomes with related values, or with the same fault. -/
def Alike {ε α β : Type} (V : α → β → Prop) : Except ε α → Except ε β → Prop
  | .ok a, .ok b => V a b
  | .error e, .error e' => e = e'
  | .ok _, .error _ | .error _, .ok _ => False

section Outcomes

variable {ε δ α β γ κ : Type} {V : α → β → Prop} {W : γ → κ → Prop}

@[simp] theorem alike_ok_ok {a : α} {b : β} : Alike V (.ok a : Except ε α) (.ok b) ↔
      V a b := Iff.rfl

@[simp] theorem alike_error_error {e e' : ε} :
    Alike V (.error e : Except ε α) (.error e') ↔ e = e' :=
  Iff.rfl

theorem alike_eq_iff {r r' : Except ε α} : Alike Eq r r' ↔ r = r' := by
  cases r <;> cases r' <;> simp [Alike]

theorem Alike.values_or_fault {r : Except ε α} {r' : Except ε β} (h : Alike V r r') :
    (∃ a b, r = .ok a ∧ r' = .ok b ∧ V a b) ∨ ∃ e, r = .error e ∧ r' = .error e := by
  cases r <;> cases r' <;> simp_all [Alike]

theorem Alike.mono {V' : α → β → Prop} {r : Except ε α} {r' : Except ε β} (h : Alike V r r')
    (hV : ∀ a b, V a b → V' a b) : Alike V' r r' := by
  obtain ⟨a, b, rfl, rfl, hab⟩ | ⟨e, rfl, rfl⟩ := h.values_or_fault
  · exact hV a b hab
  · rfl

theorem Alike.bind {r : Except ε α} {r' : Except ε β} {f : α → Except ε γ} {g : β → Except ε κ}
    (h : Alike V r r') (hfg : ∀ a b, r = .ok a → r' = .ok b → V a b → Alike W (f a) (g b)) :
    Alike W (r >>= f) (r' >>= g) := by
  obtain ⟨a, b, rfl, rfl, hab⟩ | ⟨e, rfl, rfl⟩ := h.values_or_fault
  · exact hfg a b rfl rfl hab
  · rfl

end Outcomes

/-- What is asked where the first of two actions fails: nothing, or that the second one fails too
and that `fault` holds of the faults and of the states that they leave. -/
structure Terms (σ ε : Type) where
  strict : Prop
  fault : ε → ε → σ → σ → Prop

namespace Terms

variable {σ ε : Type}

/-- Both fail with the same fault, and the states are related. -/
def same (R : σ → σ → Prop) : Terms σ ε := ⟨True, fun e e' s t => e = e' ∧ R s t⟩

/-- Nothing is asked where the first one fails. -/
def lenient : Terms σ ε := ⟨False, fun _ _ _ _ => True⟩

/-- What holds of a fault of a single action and of the state that it leaves. -/
def single (K : ε → σ → Prop) : Terms σ ε := ⟨True, fun e _ s _ => K e s⟩

end Terms

namespace Action

variable {σ τ ε α β γ δ : Type} {T : Terms σ ε} {R R' : σ → σ → Prop} {V : α → β → Prop}
  {W : γ → δ → Prop} {Q Q' : α → β → σ → σ → Prop} {U : γ → δ → σ → σ → Prop}

/-- From states that are related by `R`, `x` and `y` end in values and leave states that are related
by `Q`, or they fail as the terms say. -/
def Couples (T : Terms σ ε) (R : σ → σ → Prop) (x : Action σ ε α) (y : Action σ ε β)
    (Q : α → β → σ → σ → Prop) : Prop :=
  ∀ s t, R s t →
    match x.run s, y.run t with
    | (.ok a, s'), (.ok b, t') => Q a b s' t'
    | (.error e, s'), (.error e', t') => T.strict → T.fault e e' s' t'
    | (.ok _, _), (.error _, _) => False
    | (.error _, _), (.ok _, _) => ¬T.strict

/-- `x` and `y` end in values that are related by `V` and keep the states related by `R`. -/
abbrev Goes (T : Terms σ ε) (R : σ → σ → Prop) (x : Action σ ε α) (y : Action σ ε β)
    (V : α → β → Prop) : Prop :=
  Couples T R x y fun a b s t => V a b ∧ R s t

/-- `x` and `y` agree on related states. -/
abbrev Agrees (R : σ → σ → Prop) (x : Action σ ε α) (y : Action σ ε β) (V : α → β → Prop) : Prop :=
  Goes (.same R) R x y V

/-- `x` does the same from related states. -/
abbrev Respects (R : σ → σ → Prop) (x : Action σ ε α) : Prop := Agrees R x x Eq

/-- Where `x` ends in a value, `y` ends in a related one on a related state, and the states stay
related. -/
abbrev Leads (R : σ → σ → Prop) (x : Action σ ε α) (y : Action σ ε β) (V : α → β → Prop) : Prop :=
  Goes .lenient R x y V

/-- Where `x` ends in a value, `y` ends in the same one on a related state, and `S` relates what
they leave. -/
abbrev Follows (R : σ → σ → Prop) (x y : Action σ ε α) (S : α → σ → σ → Prop) : Prop :=
  Couples .lenient R x y fun a b s t => a = b ∧ S a s t

/-- `x` does the same from related states wherever it ends in a value from the first of them. -/
abbrev Tracks (R : σ → σ → Prop) (x : Action σ ε α) : Prop := Leads R x x Eq

variable {x : Action σ ε α} {y : Action σ ε β} {f : α → Action σ ε γ} {g : β → Action σ ε δ}

/-! ## Single runs -/

theorem Couples.of_ok {s t s' : σ} {a : α} (h : Couples T R x y Q) (hst : R s t)
    (hx : x.run s = (.ok a, s')) : ∃ b t', y.run t = (.ok b, t') ∧ Q a b s' t' := by
  have hxy := h s t hst
  rw [hx] at hxy
  rcases hy : y.run t with ⟨r, t'⟩
  rw [hy] at hxy
  cases r with
  | ok b => exact ⟨b, t', rfl, hxy⟩
  | error e => exact hxy.elim

theorem agrees_iff :
    Agrees R x y V ↔ ∀ s t, R s t → Alike V (x.run s).1 (y.run t).1 ∧
      R (x.run s).2 (y.run t).2 := by
  refine forall₃_congr fun s t _ => ?_
  rcases run x s with ⟨r, s'⟩
  rcases run y t with ⟨r', t'⟩
  cases r with
  | ok a =>
    cases r' with
    | ok b => exact Iff.rfl
    | error e' => simp [Alike]
  | error e =>
    cases r' with
    | ok b => simp [Alike, Terms.same]
    | error e' => simp [Alike, Terms.same]

theorem couples_lenient_iff :
    Couples .lenient R x y Q ↔
      ∀ s t, R s t → ∀ a s', x.run s = (.ok a, s') → ∃ b t', y.run t = (.ok b, t') ∧
      Q a b s' t' := by
  refine ⟨fun h s t hst a s' hx => h.of_ok hst hx, fun h s t hst => ?_⟩
  have hxy := h s t hst
  revert hxy
  rcases run x s with ⟨r, s'⟩
  rcases run y t with ⟨r', t'⟩
  intro hxy
  cases r with
  | ok a =>
    obtain ⟨b, _, hy, hab⟩ := hxy a s' rfl
    cases hy
    exact hab
  | error e =>
    cases r' with
    | ok b => exact id
    | error e' => exact False.elim

theorem respects_iff {x : Action σ ε α} :
    Respects R x ↔ ∀ s t, R s t → (x.run s).1 = (x.run t).1 ∧ R (x.run s).2 (x.run t).2 :=
  agrees_iff.trans (forall₃_congr fun _ _ _ => and_congr_left' alike_eq_iff)

/-- What is done on one side can be done on the other, with the same result. -/
theorem Respects.exists_run {x : Action σ ε α} {s s' t : σ} {r : Except ε α} (hx : Respects R x)
    (h : R s s') (hrun : x.run s = (r, t)) : ∃ t', x.run s' = (r, t') ∧ R t t' := by
  obtain ⟨houtcome, hafter⟩ := respects_iff.1 hx s s' h
  rw [hrun] at houtcome hafter
  exact ⟨(x.run s').2, Prod.ext houtcome.symm rfl, hafter⟩

/-! ## Rules -/

theorem ext_run {x y : Action σ ε α} (h : ∀ s, x.run s = y.run s) : x = y := funext h

theorem bind_assoc_run {κ : Type} (x : Action σ ε α) (f : α → Action σ ε γ) (k : γ → Action σ ε κ) :
    x >>= f >>= k = x >>= fun a => f a >>= k := by
  refine ext_run fun s => ?_
  simp only [run_bind]
  rcases run x s with ⟨r, t⟩
  cases r <;> rfl

theorem couples_weaken (h : Couples T R' x y Q') (hR : ∀ s t, R s t → R' s t)
    (hQ : ∀ a b s t, Q' a b s t → Q a b s t) : Couples T R x y Q := by
  intro s t hst
  have hxy := h s t (hR s t hst)
  revert hxy
  rcases run x s with ⟨r, s'⟩
  rcases run y t with ⟨r', t'⟩
  cases r with
  | ok a =>
    cases r' with
    | ok b => exact hQ a b s' t'
    | error e' => exact id
  | error e =>
    cases r' with
    | ok b => exact id
    | error e' => exact id

theorem goes_weaken {V' : α → β → Prop} (h : Goes T R x y V') (hV : ∀ a b, V' a b → V a b) :
    Goes T R x y V :=
  couples_weaken h (fun _ _ => id) fun a b _ _ hab => ⟨hV a b hab.1, hab.2⟩

/-- Other terms, which ask for less. -/
theorem Couples.under {T' : Terms σ ε} (h : Couples T R x y Q)
    (hT : T'.strict → T.strict ∧ ∀ e e' s t, T.fault e e' s t → T'.fault e e' s t) :
    Couples T' R x y Q := by
  intro s t hst
  have hxy := h s t hst
  revert hxy
  rcases run x s with ⟨r, s'⟩
  rcases run y t with ⟨r', t'⟩
  cases r with
  | ok a =>
    cases r' with
    | ok b => exact id
    | error e' => exact id
  | error e =>
    cases r' with
    | ok b => exact fun hxy hstrict => hxy (hT hstrict).1
    | error e' => exact fun hxy hstrict => (hT hstrict).2 e e' s' t' (hxy (hT hstrict).1)

theorem Couples.leads (h : Goes T R x y V) : Leads R x y V := h.under False.elim

/-- A fact about the values that the relation carries along may be taken out. -/
theorem couples_of_fact {p : Prop} (h : p → Couples T R x y Q) :
    Couples T (fun s t => p ∧ R s t) x y Q :=
  fun s t hst => h hst.1 s t hst.2

theorem couples_bind (hxy : Couples T R x y Q) (hfg : ∀ a b, Couples T (Q a b) (f a) (g b) U) :
    Couples T R (x >>= f) (y >>= g) U := by
  intro s t hst
  have hxy := hxy s t hst
  rw [run_bind, run_bind]
  revert hxy
  rcases run x s with ⟨r, s'⟩
  rcases run y t with ⟨r', t'⟩
  cases r with
  | ok a =>
    cases r' with
    | ok b => exact hfg a b s' t'
    | error e' => exact False.elim
  | error e =>
    cases r' with
    | error e' => exact id
    | ok b =>
      intro hnot
      dsimp only
      rcases run (g b) t' with ⟨r'', t''⟩
      cases r'' with
      | ok d => exact hnot
      | error e' => exact fun hstrict => absurd hstrict hnot

theorem goes_bind (hxy : Goes T R x y V) (hfg : ∀ a b, V a b → Goes T R (f a) (g b) W) :
    Goes T R (x >>= f) (y >>= g) W :=
  couples_bind hxy fun a b => couples_of_fact (hfg a b)

theorem goes_then {y : Action σ ε α} {g : α → Action σ ε δ} (hxy : Goes T R x y Eq)
    (hfg : ∀ a, Goes T R (f a) (g a) W) : Goes T R (x >>= f) (y >>= g) W := by
  apply goes_bind hxy
  rintro a _ rfl
  exact hfg a

/-- Two actions at once, and what follows both. -/
theorem goes_assoc {κ ν : Type} {X : κ → ν → Prop} {k : γ → Action σ ε κ} {l : δ → Action σ ε ν}
    (hxy : Goes T R (x >>= f) (y >>= g) W) (hkl : ∀ c d, W c d → Goes T R (k c) (l d) X) :
    Goes T R (x >>= fun a => f a >>= k) (y >>= fun b => g b >>= l) X := by
  rw [← bind_assoc_run, ← bind_assoc_run]
  exact goes_bind hxy hkl

theorem goes_pure {a : α} {b : β} (h : V a b) :
    Goes T R (pure a : Action σ ε α) (pure b : Action σ ε β) V :=
  fun _ _ hst => ⟨h, hst⟩

theorem goes_throw {e : ε} (h : ∀ s t, R s t → T.strict → T.fault e e s t) :
    Couples T R (throw e : Action σ ε α) (throw e : Action σ ε β) Q :=
  fun s t hst => h s t hst

theorem goes_throw_bind {e : ε} (h : ∀ s t, R s t → T.strict → T.fault e e s t) :
    Couples T R (throw e >>= f) (throw e >>= g) U :=
  fun s t hst => h s t hst

theorem goes_get {f : σ → Action σ ε γ} {g : σ → Action σ ε δ}
    (h : ∀ s t, R s t → Couples T R (f s) (g t) U) :
    Couples T R (get >>= f) (get >>= g) U :=
  fun s t hst => h s t hst s t hst

theorem goes_modify {f g : σ → σ} (h : ∀ s t, R s t → R (f s) (g t)) :
    Goes T R (modify f : Action σ ε PUnit) (modify g : Action σ ε PUnit) Eq :=
  fun s t hst => ⟨rfl, h s t hst⟩

theorem goes_set {u v : σ} (h : R u v) :
    Goes T R (set u : Action σ ε PUnit) (set v : Action σ ε PUnit) Eq :=
  fun _ _ _ => ⟨rfl, h⟩

theorem goes_ofExcept {r : Except ε α} {r' : Except ε β} (h : Alike V r r')
    (hfault : ∀ e, r = .error e → ∀ s t, R s t → T.strict → T.fault e e s t) :
    Goes T R (ofExcept r : Action σ ε α) (ofExcept r' : Action σ ε β) V := by
  obtain ⟨a, b, rfl, rfl, hab⟩ | ⟨e, rfl, rfl⟩ := h.values_or_fault
  · exact goes_pure hab
  · exact goes_throw (hfault e rfl)

/-- What follows attempts knows how they have ended. Where nothing is asked after a fault, what
follows has to fail too. -/
theorem couples_attempt_bind {f : Except ε α → Action σ ε γ} {g : Except ε β → Action σ ε δ}
    (hxy : Couples T R x y Q) (hok : ∀ a b, Couples T (Q a b) (f (.ok a)) (g (.ok b)) U)
    (hfault : T.strict → ∀ e e', Couples T (T.fault e e') (f (.error e)) (g (.error e')) U)
    (hfails : ¬T.strict → ∀ e s, ∃ e' s', (f (.error e)).run s = (.error e', s')) :
    Couples T R (attempt x >>= f) (attempt y >>= g) U := by
  intro s t hst
  have hxy := hxy s t hst
  rw [run_bind, run_bind, run_attempt, run_attempt]
  revert hxy
  rcases run x s with ⟨r, s'⟩
  rcases run y t with ⟨r', t'⟩
  cases r with
  | ok a =>
    cases r' with
    | ok b => exact hok a b s' t'
    | error e' => exact False.elim
  | error e =>
    intro hxy
    by_cases hstrict : T.strict
    · cases r' with
      | ok b => exact absurd hstrict hxy
      | error e' => exact hfault hstrict e e' s' t' (hxy hstrict)
    · obtain ⟨e', s'', hf⟩ := hfails hstrict e s'
      dsimp only
      rw [hf]
      rcases run (g r') t' with ⟨r'', t''⟩
      cases r'' with
      | ok b => exact hstrict
      | error e' => exact fun h => absurd h hstrict

/-- Actions on a part, seen from the whole. -/
theorem couples_focus {part : τ → σ} {put : σ → τ → τ} {T' : Terms τ ε} {P : τ → τ → Prop}
    {Q' : α → β → τ → τ → Prop} (hxy : Couples T R x y Q)
    (hpart : ∀ u v, P u v → R (part u) (part v))
    (hput : ∀ a b u v s t, P u v → Q a b s t → Q' a b (put s u) (put t v))
    (hT : T'.strict → T.strict ∧ ∀ e e' u v s t, P u v → T.fault e e' s t →
      T'.fault e e' (put s u) (put t v)) :
    Couples T' P (focus part put x) (focus part put y) Q' := by
  intro u v huv
  have hxy := hxy (part u) (part v) (hpart u v huv)
  rw [run_focus, run_focus]
  revert hxy
  rcases run x (part u) with ⟨r, s⟩
  rcases run y (part v) with ⟨r', t⟩
  cases r with
  | ok a =>
    cases r' with
    | ok b => exact hput a b u v s t huv
    | error e' => exact id
  | error e =>
    cases r' with
    | ok b => exact fun hxy hstrict => hxy (hT hstrict).1
    | error e' => exact fun hxy hstrict => (hT hstrict).2 e e' u v s t huv (hxy (hT hstrict).1)

theorem goes_focus {part : τ → σ} {put : σ → τ → τ} {T' : Terms τ ε} {P : τ → τ → Prop}
    (hxy : Goes T R x y V) (hpart : ∀ u v, P u v → R (part u) (part v))
    (hput : ∀ u v s t, P u v → R s t → P (put s u) (put t v))
    (hT : T'.strict → T.strict ∧ ∀ e e' u v s t, P u v → T.fault e e' s t →
      T'.fault e e' (put s u) (put t v)) :
    Goes T' P (focus part put x) (focus part put y) V :=
  couples_focus hxy hpart (fun _ _ u v s t huv hab => ⟨hab.1, hput u v s t huv hab.2⟩) hT

/-! ## The same faults -/

theorem agrees_throw {e : ε} : Agrees R (throw e : Action σ ε α) (throw e : Action σ ε β) V :=
  goes_throw fun _ _ hst _ => ⟨rfl, hst⟩

theorem agrees_throw_bind {e : ε} : Agrees R (throw e >>= f) (throw e >>= g) W :=
  goes_throw_bind fun _ _ hst _ => ⟨rfl, hst⟩

theorem agrees_ofExcept {r : Except ε α} {r' : Except ε β} (h : Alike V r r') :
    Agrees R (ofExcept r : Action σ ε α) (ofExcept r' : Action σ ε β) V :=
  goes_ofExcept h fun _ _ _ _ hst _ => ⟨rfl, hst⟩

theorem agrees_focus {part : τ → σ} {put : σ → τ → τ} {P : τ → τ → Prop} (hxy : Agrees R x y V)
    (hpart : ∀ u v, P u v → R (part u) (part v))
    (hput : ∀ u v s t, P u v → R s t → P (put s u) (put t v)) :
    Agrees P (focus part put x) (focus part put y) V :=
  goes_focus hxy hpart hput fun _ => ⟨trivial, fun _ _ u v s t huv h => ⟨h.1, hput u v s t huv h.2⟩⟩

/-- What `x` and `y` do from two states, and what is done next with what they gave and left. -/
theorem alike_bind {s t : σ} (hxy : Alike V (x.run s).1 (y.run t).1 ∧ R (x.run s).2 (y.run t).2)
    (hfg : ∀ a b s' t', x.run s = (.ok a, s') → y.run t = (.ok b, t') → V a b → R s' t' →
      Alike W ((f a).run s').1 ((g b).run t').1 ∧ R ((f a).run s').2 ((g b).run t').2) :
    Alike W ((x >>= f).run s).1 ((y >>= g).run t).1 ∧
      R ((x >>= f).run s).2 ((y >>= g).run t).2 := by
  rw [run_bind, run_bind]
  rcases hx : run x s with ⟨r, s'⟩
  rcases hy : run y t with ⟨r', t'⟩
  rw [hx, hy] at hxy
  obtain ⟨houtcome, hstate⟩ := hxy
  obtain ⟨a, b, rfl, rfl, hab⟩ | ⟨e, rfl, rfl⟩ := houtcome.values_or_fault
  · exact hfg a b s' t' hx hy hab hstate
  · exact ⟨rfl, hstate⟩

theorem alike_get {s t : σ} {f g : σ → Action σ ε α} {V : α → α → Prop}
    (hfg : Alike V ((f s).run s).1 ((g t).run t).1 ∧ R ((f s).run s).2 ((g t).run t).2) :
    Alike V ((get >>= f).run s).1 ((get >>= g).run t).1 ∧
      R ((get >>= f).run s).2 ((get >>= g).run t).2 :=
  hfg

theorem alike_ofExcept_bind {s t : σ} {r : Except ε α} {r' : Except ε β} (hr : Alike V r r')
    (hst : R s t)
    (hfg : ∀ a b, V a b → Alike W ((f a).run s).1 ((g b).run t).1 ∧
      R ((f a).run s).2 ((g b).run t).2) :
    Alike W ((ofExcept r >>= f).run s).1 ((ofExcept r' >>= g).run t).1 ∧
      R ((ofExcept r >>= f).run s).2 ((ofExcept r' >>= g).run t).2 := by
  obtain ⟨a, b, rfl, rfl, hab⟩ | ⟨e, rfl, rfl⟩ := hr.values_or_fault
  · exact hfg a b hab
  · exact ⟨rfl, hst⟩

section Same

variable {x : Action σ ε α} {f : α → Action σ ε β}

theorem respects_pure {a : α} : Respects R (pure a : Action σ ε α) := goes_pure rfl

theorem respects_throw {e : ε} : Respects R (throw e : Action σ ε α) := agrees_throw

theorem respects_modify {f : σ → σ} (h : ∀ s t, R s t → R (f s) (f t)) :
    Respects R (modify f : Action σ ε PUnit) :=
  goes_modify h

theorem respects_ofExcept {r : Except ε α} : Respects R (ofExcept r) :=
  agrees_ofExcept (alike_eq_iff.2 rfl)

theorem respects_bind (hx : Respects R x) (hf : ∀ a, Respects R (f a)) : Respects R (x >>= f) :=
  goes_then hx hf

/-- What follows an action that respects the relation may differ on the two sides. -/
theorem Respects.bind {f : α → Action σ ε γ} {g : α → Action σ ε δ} (hx : Respects R x)
    (hfg : ∀ a, Agrees R (f a) (g a) W) : Agrees R (x >>= f) (x >>= g) W :=
  goes_then hx hfg

end Same

/-! ## One side alone may fail -/

theorem leads_throw {e : ε} : Couples .lenient R (throw e : Action σ ε α) y Q := by
  refine couples_lenient_iff.2 fun s t _ a s' hx => ?_
  cases (Prod.mk.inj hx).1

theorem leads_ofExcept {r : Except ε α} {r' : Except ε β}
    (h : ∀ a, r = .ok a → ∃ b, r' = .ok b ∧ V a b) :
    Leads R (ofExcept r : Action σ ε α) (ofExcept r' : Action σ ε β) V := by
  cases r with
  | error e => exact leads_throw
  | ok a =>
    obtain ⟨b, rfl, hab⟩ := h a rfl
    exact goes_pure hab

theorem tracks_ofExcept {r : Except ε α} : Tracks R (ofExcept r : Action σ ε α) :=
  leads_ofExcept fun a ha => ⟨a, ha, rfl⟩

section Following

variable {x y : Action σ ε α} {f g : α → Action σ ε γ} {S : α → σ → σ → Prop}
  {S' : γ → σ → σ → Prop}

theorem follows_iff :
    Follows R x y S ↔
      ∀ s t, R s t → ∀ a s', x.run s = (.ok a, s') → ∃ t', y.run t = (.ok a, t') ∧ S a s' t' := by
  refine couples_lenient_iff.trans (forall₅_congr fun s t _ a s' => imp_congr_right fun _ => ?_)
  refine ⟨?_, fun ⟨t', hy, hS⟩ => ⟨a, t', hy, rfl, hS⟩⟩
  rintro ⟨_, t', hy, rfl, hS⟩
  exact ⟨t', hy, hS⟩

theorem follows_bind (hxy : Follows R x y S) (hfg : ∀ a, Follows (S a) (f a) (g a) S') :
    Follows R (x >>= f) (y >>= g) S' := by
  refine couples_bind hxy fun a b => couples_of_fact ?_
  rintro rfl
  exact hfg a

theorem follows_pure {a : α} (h : ∀ s t, R s t → S a s t) :
    Follows R (pure a : Action σ ε α) (pure a : Action σ ε α) S :=
  fun s t hst => ⟨rfl, h s t hst⟩

end Following

/-! ## One action -/

/-- A state of which `I` holds, seen twice. -/
abbrev Kept (I : σ → Prop) (s t : σ) : Prop := s = t ∧ I s

section Single

variable {I E : σ → Prop} {x : Action σ ε α} {V : α → α → Prop}

/-- An action that goes together with itself keeps what both its states have in common. -/
theorem upholds_of_goes (h : Goes (.single fun _ => E) (Kept I) x x V) : Upholds I E x := by
  intro s hs
  have hrun := h s s ⟨rfl, hs⟩
  revert hrun
  rcases run x s with ⟨r, s'⟩
  cases r with
  | ok a => exact fun hrun => hrun.2.2
  | error e => exact fun hrun => hrun trivial

theorem meets_of_goes {P : α → Prop}
    (h : Goes (.single fun _ => E) (Kept I) x x fun a b => a = b ∧ P a) :
    Meets I x (fun a s => I s ∧ P a) E := by
  intro s hs
  have hrun := h s s ⟨rfl, hs⟩
  revert hrun
  rcases run x s with ⟨r, s'⟩
  cases r with
  | ok a => exact fun hrun => ⟨hrun.2.2, hrun.1.2⟩
  | error e => exact fun hrun => hrun trivial

theorem Upholds.goes (h : Upholds I E x) : Goes (.single fun _ => E) (Kept I) x x Eq := by
  rintro s _ ⟨rfl, hs⟩
  have hrun := h s hs
  revert hrun
  rcases run x s with ⟨r, s'⟩
  cases r with
  | ok a => exact fun hrun => ⟨rfl, rfl, hrun⟩
  | error e => exact fun hrun _ => hrun

end Single

end Action

end Offload
