import Mathlib
import Offload.Context

/-!
# Contracts of actions

An action meets a contract if, started where the precondition holds, it ends in a value and a state
that satisfy the first postcondition or leaves a state that satisfies the second one with a fault.
An invariant is a contract whose three conditions are the same. There is one rule for each way of
putting actions together; the proofs about devices, stores and machines use the rules and do not run
the actions by hand.
-/

namespace Offload

open Offload.Action

theorem eq_ok_of_toOption {ε α : Type} {r : Except ε α} {a : α} (h : r.toOption = some a) :
    r = .ok a := by
  cases r with
  | ok b => exact congrArg Except.ok (Option.some.inj h)
  | error e => cases h

namespace Action

variable {σ τ ε δ α β : Type}

/-- Started where `P` holds, `x` ends in a value with `Q` or leaves a state with `E`. -/
def Meets (P : σ → Prop) (x : Action σ ε α) (Q : α → σ → Prop) (E : σ → Prop) : Prop :=
  ∀ s, P s →
    match x.run s with
    | (.ok a, t) => Q a t
    | (.error _, t) => E t

/-- An action of which a value can be read off has run to its end. -/
theorem exists_run_of_read {x : Action σ ε α} {s : σ} {f : α → β} {b : β}
    (h : (x.outcome s).toOption.map f = some b) : ∃ a t, x.run s = (.ok a, t) ∧ f a = b := by
  obtain ⟨a, ha, hread⟩ := Option.map_eq_some_iff.1 h
  exact ⟨a, x.after s, Prod.ext (eq_ok_of_toOption ha) rfl, hread⟩

theorem run_bind_of_ok {x : Action σ ε α} {f : α → Action σ ε β} {s t : σ} {a : α}
    (h : x.run s = (.ok a, t)) : (x >>= f).run s = (f a).run t := by
  rw [run_bind, h]

/-- A sequence fails in its first part, or goes on with the second. -/
theorem run_bind_cases {x : Action σ ε α} {f : α → Action σ ε β} {s u : σ} {r : Except ε β}
    (h : (x >>= f).run s = (r, u)) :
    (∃ e, x.run s = (.error e, u) ∧ r = .error e) ∨ ∃ a t, x.run s = (.ok a, t) ∧
      (f a).run t = (r, u) := by
  rw [run_bind] at h
  rcases hx : x.run s with ⟨v, t⟩
  rw [hx] at h
  cases v with
  | ok a => exact .inr ⟨a, t, rfl, h⟩
  | error e =>
    cases h
    exact .inl ⟨e, rfl, rfl⟩

/-- Whatever `x` does, `I` holds afterwards if it held before. -/
def Keeps (I : σ → Prop) (x : Action σ ε α) : Prop := Meets I x (fun _ => I) I

section Rules

variable {P P' I E E' : σ → Prop} {Q Q' : α → σ → Prop} {R : β → σ → Prop}
variable {x : Action σ ε α} {f : α → Action σ ε β}

theorem meets_weaken (h : Meets P' x Q' E') (hP : ∀ s, P s → P' s)
    (hQ : ∀ a s, Q' a s → Q a s) (hE : ∀ s, E' s → E s) : Meets P x Q E := by
  intro s hs
  have hx := h s (hP s hs)
  revert hx
  split
  · exact hQ _ _
  · exact hE _

/-- A part of the precondition that is not about the state is a hypothesis. -/
theorem meets_of_fact {p : Prop} (h : p → Meets P x Q E) : Meets (fun s => P s ∧ p) x Q E :=
  fun s hs => h hs.2 s hs.1

theorem meets_imp (h : Meets P x Q' E') (hQ : ∀ a s, Q' a s → Q a s) (hE : ∀ s, E' s → E s) :
    Meets P x Q E :=
  meets_weaken h (fun _ => id) hQ hE

theorem meets_post (h : Meets P x Q' E) (hQ : ∀ a s, Q' a s → Q a s) : Meets P x Q E :=
  meets_imp h hQ fun _ => id

theorem meets_and (h : Meets P x Q E) (h' : Meets P' x Q' E') :
    Meets (fun s => P s ∧ P' s) x (fun a s => Q a s ∧ Q' a s) (fun s => E s ∧ E' s) := by
  intro s hs
  have hx := h s hs.1
  have hx' := h' s hs.2
  revert hx hx'
  rcases run x s with ⟨r, t⟩
  cases r with
  | ok a => exact And.intro
  | error e => exact And.intro

theorem meets_pure {a : α} (h : ∀ s, P s → Q a s) : Meets P (pure a : Action σ ε α) Q E := h

theorem meets_throw {e : ε} (h : ∀ s, P s → E s) : Meets P (throw e : Action σ ε α) Q E := h

theorem meets_throw_bind {e : ε} (h : ∀ s, P s → E s) : Meets P (throw e >>= f) R E := h

theorem meets_modify {g : σ → σ} {Q : PUnit → σ → Prop} (h : ∀ s, P s → Q ⟨⟩ (g s)) :
    Meets P (modify g : Action σ ε PUnit) Q E := h

theorem meets_set {t : σ} {Q : PUnit → σ → Prop} (h : ∀ s, P s → Q ⟨⟩ t) :
    Meets P (set t : Action σ ε PUnit) Q E := h

theorem meets_bind (hx : Meets P x Q E) (hf : ∀ a, Meets (Q a) (f a) R E) :
    Meets P (x >>= f) R E := by
  intro s hs
  have hx := hx s hs
  rw [run_bind]
  rcases hrun : run x s with ⟨r, t⟩
  rw [hrun] at hx
  cases r with
  | ok a => exact hf a t hx
  | error e => exact hx

/-- A sequence whose first part leaves a better state behind when it fails than the whole has to. -/
theorem meets_then (hx : Meets P x Q E') (hE : ∀ s, E' s → E s) (hf : ∀ a, Meets (Q a) (f a) R E) :
    Meets P (x >>= f) R E :=
  meets_bind (meets_imp hx (fun _ _ => id) hE) hf

/-- A look at the state: what follows starts from the state that it was given. -/
theorem meets_get {g : σ → Action σ ε β} (h : ∀ s, P s → Meets (· = s) (g s) R E) :
    Meets P (get >>= g) R E :=
  fun s hs => h s hs s rfl

/-- A look at the state of which nothing is used but what was known before. -/
theorem meets_look {g : σ → Action σ ε β} (h : ∀ s, Meets P (g s) R E) : Meets P (get >>= g) R E :=
  fun s hs => h s s hs

theorem meets_ofExcept {r : Except ε α} (hok : ∀ a, r = .ok a → ∀ s, P s → Q a s)
    (hfault : ∀ s, P s → E s) : Meets P (ofExcept r) Q E := by
  intro s hs
  cases r with
  | ok a => exact hok a rfl s hs
  | error e => exact hfault s hs

/-- What follows an attempt knows how it ended. -/
theorem meets_attempt_bind {g : Except ε α → Action σ ε β} (hx : Meets P x Q E')
    (hok : ∀ a, Meets (Q a) (g (.ok a)) R E) (hfault : ∀ e, Meets E' (g (.error e)) R E) :
    Meets P (attempt x >>= g) R E := by
  intro s hs
  have hx := hx s hs
  rw [run_bind, run_attempt]
  rcases hrun : run x s with ⟨r, t⟩
  rw [hrun] at hx
  cases r with
  | ok a => exact hok a t hx
  | error e => exact hfault e t hx

/-- An action on a part, seen from the whole. -/
theorem meets_focus {part : τ → σ} {put : σ → τ → τ} {P : τ → Prop} {Q : α → τ → Prop}
    {E : τ → Prop}
    (h : ∀ t, P t → Meets (· = part t) x (fun a s => Q a (put s t)) (fun s => E (put s t))) :
    Meets P (focus part put x) Q E := by
  intro t ht
  have hx := h t ht (part t) rfl
  rw [run_focus]
  rcases hrun : run x (part t) with ⟨r, s⟩
  rw [hrun] at hx
  cases r with
  | ok a => exact hx
  | error e => exact hx

end Rules

section Invariants

variable {I : σ → Prop} {x : Action σ ε α} {f : α → Action σ ε β}

/-- A contract that does not ask how an action ends is about the state that it leaves. -/
theorem meets_iff_after {P : σ → Prop} :
    Meets P x (fun _ => I) I ↔ ∀ s, P s → I (x.run s).2 := by
  refine forall₂_congr fun s _ => ?_
  rcases run x s with ⟨r, t⟩
  cases r with
  | ok a => exact Iff.rfl
  | error e => exact Iff.rfl

theorem Keeps.of_run {s t : σ} {r : Except ε α} (hx : Keeps I x) (hrun : x.run s = (r, t))
    (hs : I s) :
    I t := by
  have hafter := meets_iff_after.1 hx s hs
  rw [hrun] at hafter
  exact hafter

theorem keeps_of_run (h : ∀ s r t, I s → x.run s = (r, t) → I t) : Keeps I x :=
  meets_iff_after.2 fun s hs => h s _ _ hs rfl

theorem Meets.of_ok {s t : σ} {a : α} (hx : Meets P x Q E) (hrun : x.run s = (.ok a, t))
    (hs : P s) :
    Q a t := by
  have hafter := hx s hs
  rw [hrun] at hafter
  exact hafter

theorem Meets.of_error {s t : σ} {e : ε} (hx : Meets P x Q E) (hrun : x.run s = (.error e, t))
    (hs : P s) :
    E t := by
  have hafter := hx s hs
  rw [hrun] at hafter
  exact hafter

theorem meets_of_run (hok : ∀ s a t, P s → x.run s = (.ok a, t) → Q a t)
    (herror : ∀ s e t, P s → x.run s = (.error e, t) → E t) : Meets P x Q E := by
  intro s hs
  rcases hrun : x.run s with ⟨r, t⟩
  cases r with
  | ok a => exact hok s a t hs hrun
  | error e => exact herror s e t hs hrun

theorem Meets.after {R : σ → Prop} {s : σ} (hx : Meets P x Q E) (hs : P s) (hQ : ∀ a t, Q a t → R t)
    (hE : ∀ t, E t → R t) : R (x.run s).2 :=
  meets_iff_after.1 (meets_imp hx hQ hE) s hs

theorem keeps_pure {a : α} : Keeps I (pure a : Action σ ε α) := fun _ => id

theorem keeps_throw {e : ε} : Keeps I (throw e : Action σ ε α) := fun _ => id

theorem keeps_modify {g : σ → σ} (h : ∀ s, I s → I (g s)) :
    Keeps I (modify g : Action σ ε PUnit) := h

theorem keeps_ofExcept {r : Except ε α} : Keeps I (ofExcept r) :=
  meets_ofExcept (fun _ _ _ => id) fun _ => id

theorem keeps_bind (hx : Keeps I x) (hf : ∀ a, Keeps I (f a)) : Keeps I (x >>= f) :=
  meets_bind hx hf

theorem keeps_get {g : σ → Action σ ε β} (h : ∀ s, Keeps I (g s)) : Keeps I (get >>= g) :=
  meets_look h

end Invariants

section Upholding

variable {I E : σ → Prop} {x : Action σ ε α} {f : α → Action σ ε β}

/-- `x` keeps `I` unless it ends in a fault, and then `E` holds. -/
def Upholds (I E : σ → Prop) (x : Action σ ε α) : Prop := Meets I x (fun _ => I) E

theorem Keeps.upholds (h : Keeps I x) (hE : ∀ s, I s → E s) : Upholds I E x :=
  meets_imp h (fun _ _ => id) hE

theorem upholds_pure {a : α} : Upholds I E (pure a : Action σ ε α) := meets_pure fun _ => id

theorem upholds_throw {e : ε} (hE : ∀ s, I s → E s) : Upholds I E (throw e : Action σ ε α) := hE

theorem upholds_throw_bind {e : ε} (hE : ∀ s, I s → E s) : Upholds I E (throw e >>= f) := hE

theorem upholds_modify {g : σ → σ} (h : ∀ s, I s → I (g s)) :
    Upholds I E (modify g : Action σ ε PUnit) := h

theorem upholds_ofExcept {r : Except ε α} (hE : ∀ s, I s → E s) : Upholds I E (ofExcept r) :=
  keeps_ofExcept.upholds hE

theorem upholds_bind (hx : Upholds I E x) (hf : ∀ a, Upholds I E (f a)) : Upholds I E (x >>= f) :=
  meets_bind hx hf

theorem upholds_get {g : σ → Action σ ε β} (h : ∀ s, Upholds I E (g s)) : Upholds I E (get >>= g) :=
  meets_look h

end Upholding

end Action

theorem Station.run_install (task : String) (s : Station) :
    (install task).run s =
      ((s.device.kernels.get? task).elim (.error (.unknownKernel task)) fun kernel =>
        .ok ⟨task, kernel⟩,
      s.onDevice fun d => { d with counters := { d.counters with
        compilations := d.counters.compilations + 1 } }) := by
  simp only [install, count, run_bind, run_modify, run_get, onDevice]
  cases s.device.kernels.get? task <;> rfl

namespace Context

theorem run_onDevice {α : Type} {index : Nat} (x : DeviceAction α) {c : Context} {d : Device}
    (hd : c.devices[index]? = some d) :
    (onDevice index x).run c =
      ((x.run ⟨d, c.objects, c.journal⟩).1.mapError .device,
        c.withStation index (x.run ⟨d, c.objects, c.journal⟩).2) := by
  simp only [Action.run, onDevice, device, lookup, hd]

theorem run_onDevice_none {α : Type} {index : Nat} (x : DeviceAction α) {c : Context}
    (hd : c.devices[index]? = none) :
    (onDevice index x).run c = (.error (.indexOutOfRange .device index c.devices.length), c) := by
  simp only [Action.run, onDevice, device, lookup, hd]

/-- An operation of a device, seen from the context: the device has to be there, and what the
operation leaves at its station goes back into the context. -/
theorem meets_onDevice {α : Type} {index : Nat} {x : DeviceAction α} {P E : Context → Prop}
    {Q : α → Context → Prop} (absent : ∀ c, P c → E c)
    (h : ∀ c d, P c → c.devices[index]? = some d →
      Meets (· = ⟨d, c.objects, c.journal⟩) x (fun a s => Q a (c.withStation index s))
        (fun s => E (c.withStation index s))) :
    Meets P (onDevice index x) Q E := by
  intro c hc
  cases hd : c.devices[index]? with
  | none =>
    rw [run_onDevice_none x hd]
    exact absent c hc
  | some d =>
    have hx := h c d hc hd _ rfl
    rw [run_onDevice x hd]
    rcases hrun : x.run ⟨d, c.objects, c.journal⟩ with ⟨r, s⟩
    rw [hrun] at hx
    cases r with
    | ok a => exact hx
    | error e => exact hx

/-- Operations of one device may be put together before they are done or after. -/
theorem onDevice_bind {α β : Type} (index : Nat) (x : DeviceAction α) (f : α → DeviceAction β) :
    onDevice index (x >>= f) = onDevice index x >>= fun a => onDevice index (f a) := by
  funext c
  show (onDevice index (x >>= f)).run c =
    (onDevice index x >>= fun a => onDevice index (f a) : Action Context Fault β).run c
  cases hd : c.devices[index]? with
  | none => rw [run_bind, run_onDevice_none _ hd, run_onDevice_none _ hd]
  | some d =>
    have hlt := (List.getElem?_eq_some_iff.1 hd).1
    rw [run_bind, run_onDevice _ hd, run_onDevice _ hd, run_bind]
    rcases x.run ⟨d, c.objects, c.journal⟩ with ⟨r, s⟩
    cases r with
    | error fault => rfl
    | ok a =>
      have hs : (c.withStation index s).devices[index]? = some s.device := by
        simp [withStation, hlt]
      simp only [Except.mapError, run_onDevice _ hs]
      simp only [withStation, List.set_set]

end Context

end Offload
