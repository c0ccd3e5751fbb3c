import Offload.Proofs.RetainedFrames

/-!
# Sessions with and without retention

Instructions other than launches and the ends of passes do the same whether the devices retain call
frames or not, and so does a launch that finds in its frame what it would put there. A whole session
then runs abreast on the two machines, request by request, failed passes included.
-/

namespace Offload

open Offload.Action

variable {α : Type}

/-- A launch of a normal pass that finds its frame held by a device finds in it what it would put
there. -/
def Moment.FindsFrame (x : Moment) : Prop :=
  ∀ frame device task events window arguments outcome,
    x.deed = .instruction .normal (.launch frame device task events window arguments) outcome →
      x.before.Finds frame device task arguments

namespace Machine

variable {m m' : Machine}

theorem Twin.effect (h : Twin m m') (mode : PassMode) (i : Instruction)
    (hfinds : (Moment.carry mode i m).FindsFrame) :
    ((effect mode i).run m).1 = ((effect mode i).run m').1 ∧
      Twin ((effect mode i).run m).2 ((effect mode i).run m').2 := by
  cases i with
  | launch frame device task events window arguments =>
    have hlaunch := h.launch mode frame device task events window arguments fun hmode => by
      subst hmode
      exact hfinds _ _ _ _ _ _ _ rfl
    exact ⟨alike_eq_iff.1 hlaunch.1, hlaunch.2⟩
  | _ =>
    cases mode with
    | warmup => exact ⟨rfl, h⟩
    | normal =>
      dsimp only [Machine.effect]
      rw [if_pos rfl]
      exact respects_iff.1 (agreement_twin.perform _) m m' h

/-! ## Sessions -/

theorem Twin.runBody {mode : PassMode} {kind : PassKind} {fuel : Nat} (h : Twin m m')
    (hfinds : ∀ x ∈ bodyMoments mode kind fuel m, x.FindsFrame) :
    ((runBody mode kind fuel).run m).1 = ((runBody mode kind fuel).run m').1 ∧
      Twin ((runBody mode kind fuel).run m).2 ((runBody mode kind fuel).run m').2 := by
  induction fuel generalizing m m' with
  | zero =>
    obtain ⟨store, frames, rfl, hs, hp⟩ := h
    exact ⟨rfl, store, frames, rfl, hs, hp⟩
  | succ fuel ih =>
    obtain ⟨houtcome, hfetch⟩ := respects_iff.1 (agreement_twin.fetch kind) m m' h
    rw [run_runBody_succ, run_runBody_succ]
    rw [bodyMoments] at hfinds
    revert hfinds houtcome hfetch
    rcases (fetch kind).run m with ⟨r, m₁⟩
    rcases (fetch kind).run m' with ⟨r', m₁'⟩
    intro hfinds houtcome hfetch
    obtain rfl : r = r' := houtcome
    cases r with
    | error fault => exact ⟨rfl, hfetch⟩
    | ok i =>
      dsimp only at hfinds hfetch ⊢
      obtain ⟨hfirst, hlater⟩ := List.forall_mem_cons.1 hfinds
      obtain ⟨houtcome, heffect⟩ := hfetch.effect mode i hfirst
      revert hlater houtcome heffect
      rcases (Machine.effect mode i).run m₁ with ⟨r, m₂⟩
      rcases (Machine.effect mode i).run m₁' with ⟨r', m₂'⟩
      intro hlater houtcome heffect
      obtain rfl : r = r' := houtcome
      cases r with
      | error fault => exact ⟨rfl, heffect⟩
      | ok note =>
        have hnoted := agreement_twin.noted heffect mode i note
        by_cases hfinish : i = .finish
        · simp only [hfinish, if_true] at hnoted ⊢
          exact ⟨trivial, hnoted⟩
        · simp only [hfinish, if_false] at hlater ⊢
          exact ih hnoted hlater

theorem Twin.serve (h : Twin m m') {request : Request}
    (hfinds : ∀ x ∈ moments request m, x.FindsFrame) :
    ((serve request).run m).1 = ((serve request).run m').1 ∧
      Twin ((serve request).run m).2 ((serve request).run m').2 := by
  cases request with
  | invalidate =>
    obtain ⟨store, frames, rfl, hs, hp⟩ := h
    exact ⟨rfl, _, frames, rfl, ⟨hs.context, hs.table.invalidate⟩, hp⟩
  | pass mode kind =>
    have hbegun := agreement_twin.begun h
    have hfuel : m'.reader.remaining = m.reader.remaining := by
      obtain ⟨store, frames, rfl, -, -⟩ := h
      rfl
    obtain ⟨houtcome, hbody⟩ := hbegun.runBody fun x hx => hfinds x (List.mem_append_left _ hx)
    change ((runPass mode kind).run m).1 = ((runPass mode kind).run m').1 ∧
      Twin ((runPass mode kind).run m).2 ((runPass mode kind).run m').2
    have heq : (m'.body mode kind).1 = (m.body mode kind).1 := by
      rw [Machine.body, Machine.body, hfuel]
      exact houtcome.symm
    rw [run_runPass, run_runPass, heq]
    refine respects_iff.1 (agreement_twin.closing mode kind _) _ _ ?_
    rw [Machine.body, Machine.body, hfuel]
    exact hbody

theorem Twin.session {requests : List Request} (h : Twin m m')
    (hfinds : ∀ x ∈ timeline requests m, x.FindsFrame) :
    (session requests m).1 = (session requests m').1 ∧
      Twin (session requests m).2 (session requests m').2 := by
  induction requests generalizing m m' with
  | nil => exact ⟨rfl, h⟩
  | cons request others ih =>
    obtain ⟨houtcome, hserve⟩ := h.serve fun x hx => hfinds x (List.mem_append_left _ hx)
    obtain ⟨houtcomes, hend⟩ := ih hserve fun x hx => hfinds x (List.mem_append_right _ hx)
    exact ⟨congrArg₂ List.cons houtcome houtcomes, hend⟩

/-! ## From the start -/

theorem respects_load (indices : List Nat) : Respects Context.Twin (load indices) := by
  induction indices with
  | nil => exact respects_pure
  | cons index others ih =>
    refine respects_bind
      (Context.agreement_twin.onDevice (Station.respects_twin Station.respects_image_load) index)
      fun _ => ?_
    refine goes_get fun c c' h => ?_
    refine goes_bind (agrees_ofExcept (Context.agreement_twin.alike_device h index))
      fun d d' _ => ?_
    refine goes_bind (goes_modify fun _ _ h => ?_) fun _ _ _ => ih
    exact Context.agreement_twin.journals _ _ h

theorem respects_start (code : Bytes) : Respects Context.Twin (start code) := by
  have hrest : ∀ header reader, Respects Context.Twin (do
      let c ← get
      Action.ofExcept (Header.check header c)
      load header.contexts
      return (header, reader) : Action Context Fault (Header × Reader)) := by
    intro header reader
    refine goes_get ?_
    rintro c _ ⟨journal, rfl⟩
    have hcheck : header.check { c.withRetention false with journal } = header.check c := by
      simp only [Header.check, Context.withRetention, List.length_map]
    rw [hcheck]
    refine respects_bind respects_ofExcept fun _ => ?_
    exact respects_bind (respects_load _) fun _ => respects_pure
  rw [start]
  split
  · exact respects_bind respects_pure fun _ => hrest _ _
  · exact agrees_throw_bind

theorem agrees_create (code : Bytes) (config : Config) (c c' : Context) (h : c.Twin c') :
    Alike Twin ((create code config).run c).1 ((create code config).run c').1 ∧
      ((create code config).run c).2.Twin ((create code config).run c').2 := by
  refine agrees_iff.1 ((respects_start code).bind fun a => goes_get fun c c' h => ?_) c c' h
  refine goes_pure ⟨.new c', .new a.1.tasks, rfl, ⟨h, ?_⟩, rfl, FramePool.all_new _ _⟩
  obtain ⟨journal, rfl⟩ := h
  simp [Store.new, initial, Context.withRetention, Table.Twin]

/-- A machine all of whose launches find in their frames what they would put there, if the frames
are held by a device at all: the same constants, and the same buffers, which hold their objects.
Without retention every session has the same outcomes, and at its end the host objects are the same
and so are the devices, in all but the retention. -/
theorem session_withRetention_of_finds {code : Bytes} {config : Config} {c c₁ : Context}
    (hm : (create code config).run (c.withRetention true) = (.ok m, c₁))
    (hfinds : ∀ requests, ∀ x ∈ timeline requests m, x.FindsFrame) :
    ∃ m' c₂, (create code config).run (c.withRetention false) = (.ok m', c₂) ∧
      ∀ requests,
        (session requests m').1 = (session requests m).1 ∧
        (session requests m').2.context.objects = (session requests m).2.context.objects ∧
        (session requests m').2.context.devices =
          (session requests m).2.context.devices.map fun d => d.withRetention false := by
  have hcontext : Context.Twin (c.withRetention true) (c.withRetention false) := by
    refine ⟨c.journal, ?_⟩
    simp [Context.withRetention, Device.withRetention]
  obtain ⟨houtcome, -⟩ := agrees_create code config _ _ hcontext
  rw [hm] at houtcome
  rcases hm' : (create code config).run (c.withRetention false) with ⟨r, c₂⟩
  rw [hm'] at houtcome
  cases r with
  | error fault => exact houtcome.elim
  | ok m' =>
    refine ⟨m', c₂, rfl, fun requests => ?_⟩
    obtain ⟨houtcomes, hend⟩ := Twin.session houtcome (hfinds requests)
    obtain ⟨journal, hcontexts⟩ := hend.store.context
    refine ⟨houtcomes.symm, ?_, ?_⟩
    · rw [context, hcontexts]
      rfl
    · rw [context, hcontexts]
      rfl

end Machine

end Offload
