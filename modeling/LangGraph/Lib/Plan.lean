import LangGraph.Lib.EarlyExit
import LangGraph.Lib.ExceptRel

/-!
# Programs that follow a plan

A plan is a computation without state: it gives a value or says how the program ends early.
`Follows` says that a program with effects does what its plan says, as long as nothing outside it
goes wrong: `clean` tells from the state whether that is so.  Two programs whose plans agree end
alike.
-/

namespace EarlyExit

variable {ε σ π α β γ δ : Type}

/-- From `s`, the program comes back with something `R` relates to the value of the plan; where it
    leaves early in a clean state, the plan says so too.  `view` is what an exit amounts to. -/
def Follows (clean : σ → Prop) (view : ε → σ → Option π) (m : EStateM ε σ α) (s : σ)
    (plan : Except π β) (R : α → σ → β → Prop) : Prop :=
  Ends m s (fun a s' => ∃ b, plan = .ok b ∧ R a s' b)
    fun e s' => clean s' → ∃ p, view e s' = some p ∧ plan = .error p

section Rules

variable {clean : σ → Prop} {view : ε → σ → Option π} {m : EStateM ε σ α} {s : σ}
  {plan : Except π β} {R : α → σ → β → Prop}

theorem Follows.pure {a : α} {b : β} (h : R a s b) :
    Follows clean view (pure a) s (.ok b) R :=
  ⟨b, rfl, h⟩

theorem Follows.throw {e : ε} {p : π} (h : view e s = some p) :
    Follows clean view (throw e : EStateM ε σ α) s (.error p) R :=
  fun _ => ⟨p, h, rfl⟩

theorem Follows.mono {R' : α → σ → β → Prop} (h : Follows clean view m s plan R)
    (hR : ∀ a s' b, R a s' b → R' a s' b) : Follows clean view m s plan R' :=
  Ends.mono h (fun a s' h => by
    obtain ⟨b, hplan, hrel⟩ := h
    exact ⟨b, hplan, hR a s' b hrel⟩) fun _ _ h => h

theorem Follows.bind {f : α → EStateM ε σ γ} {rest : β → Except π δ} {Q : γ → σ → δ → Prop}
    (hm : Follows clean view m s plan R)
    (hf : ∀ a s' b, R a s' b → Follows clean view (f a) s' (rest b) Q) :
    Follows clean view (m >>= f) s (plan >>= rest) Q := by
  refine ends_bind.mpr (Ends.mono hm (fun a s' h => ?_) fun e s' h hclean => ?_)
  · obtain ⟨b, rfl, hrel⟩ := h
    exact hf a s' b hrel
  · obtain ⟨p, hview, rfl⟩ := h hclean
    exact ⟨p, hview, rfl⟩

theorem Follows.bind_silent {f : α → EStateM ε σ γ} {Q : γ → σ → β → Prop}
    {P : α → σ → Prop} (hm : Ends m s P fun _ s' => ¬ clean s')
    (hf : ∀ a s', P a s' → Follows clean view (f a) s' plan Q) :
    Follows clean view (m >>= f) s plan Q :=
  ends_bind.mpr (hm.mono hf fun _ _ h hclean => absurd hclean h)

theorem Follows.bind_pure {g : α → γ} {Q : γ → σ → β → Prop} (hm : Follows clean view m s plan R)
    (hQ : ∀ a s' b, R a s' b → Q (g a) s' b) :
    Follows clean view (m >>= fun a => Pure.pure (g a)) s plan Q :=
  ends_bind.mpr (Ends.mono hm (fun a s' h => by
    obtain ⟨b, hplan, hrel⟩ := h
    exact ⟨b, hplan, hQ a s' b hrel⟩) fun _ _ h => h)

theorem Follows.bind_get {f : σ → EStateM ε σ α} (h : Follows clean view (f s) s plan R) :
    Follows clean view (get >>= f) s plan R :=
  ends_bind.mpr h

theorem Follows.ok {a : α} {s' : σ} (h : Follows clean view m s plan R) (hm : m s = .ok a s') :
    ∃ b, plan = .ok b ∧ R a s' b :=
  Ends.ok h hm

theorem Follows.error {e : ε} {s' : σ} (h : Follows clean view m s plan R)
    (hm : m s = .error e s') (hclean : clean s') : ∃ p, view e s' = some p ∧ plan = .error p :=
  Ends.error h hm hclean

theorem Follows.comes_back {b : β} (h : Follows clean view m s (.ok b) R)
    (hclean : Ends m s (fun _ _ => True) fun _ s' => clean s') : ∃ a s', m s = .ok a s' ∧ R a s' b := by
  cases hm : m s with
  | ok a s' =>
    obtain ⟨b', hplan, hrel⟩ := h.ok hm
    cases hplan; exact ⟨a, s', rfl, hrel⟩
  | error =>
    obtain ⟨p, -, hplan⟩ := h.error hm (hclean.error hm)
    cases hplan

theorem Follows.leaves {p : π} (h : Follows clean view m s (.error p : Except π β) R)
    (hclean : Ends m s (fun _ _ => True) fun _ s' => clean s') :
    ∃ e s', m s = .error e s' ∧ view e s' = some p := by
  cases hm : m s with
  | ok =>
    obtain ⟨b', hplan, -⟩ := h.ok hm
    cases hplan
  | error e s' =>
    obtain ⟨p', hview, hplan⟩ := h.error hm (hclean.error hm)
    cases hplan; exact ⟨e, s', rfl, hview⟩

end Rules

/-! ## Two programs -/

/-- Two programs end alike: both come back, with related values and states, or both leave early,
    with exits that amount to related things. -/
inductive Alike {ε' σ' π' α' : Type} (view : ε → σ → Option π) (view' : ε' → σ' → Option π')
    (E : π → π' → Prop) (R : α → σ → α' → σ' → Prop) :
    EStateM.Result ε σ α → EStateM.Result ε' σ' α' → Prop
  | ok {a : α} {s : σ} {a' : α'} {s' : σ'} (h : R a s a' s') :
      Alike view view' E R (.ok a s) (.ok a' s')
  | error {e : ε} {s : σ} {e' : ε'} {s' : σ'} {p : π} {p' : π'} (hview : view e s = some p)
      (hview' : view' e' s' = some p') (h : E p p') : Alike view view' E R (.error e s) (.error e' s')

section Alike

variable {ε' σ' π' α' β' γ' : Type} {clean : σ → Prop} {clean' : σ' → Prop}
  {view : ε → σ → Option π} {view' : ε' → σ' → Option π'} {E : π → π' → Prop}
  {m : EStateM ε σ α} {m' : EStateM ε' σ' α'} {s : σ} {s' : σ'}

theorem Follows.alike {plan : Except π β} {plan' : Except π' β'} {P : β → β' → Prop}
    {Q : α → σ → β → Prop} {Q' : α' → σ' → β' → Prop} {R : α → σ → α' → σ' → Prop}
    (hm : Follows clean view m s plan Q) (hm' : Follows clean' view' m' s' plan' Q')
    (hplan : ExceptRel.Agree E P plan plan')
    (hR : ∀ a t b a' t' b', P b b' → Q a t b → Q' a' t' b' → R a t a' t')
    (hclean : Ends m s (fun _ _ => True) fun _ t => clean t)
    (hclean' : Ends m' s' (fun _ _ => True) fun _ t => clean' t) :
    Alike view view' E R (m s) (m' s') := by
  cases hplan with
  | ok hP =>
    obtain ⟨a, t, hm₁, hQ⟩ := hm.comes_back hclean
    obtain ⟨a', t', hm₁', hQ'⟩ := hm'.comes_back hclean'
    rw [hm₁, hm₁']; exact .ok (hR _ _ _ _ _ _ hP hQ hQ')
  | error hE =>
    obtain ⟨e, t, hm₁, hview⟩ := hm.leaves hclean
    obtain ⟨e', t', hm₁', hview'⟩ := hm'.leaves hclean'
    rw [hm₁, hm₁']; exact .error hview hview' hE

theorem Alike.bind {R : α → σ → α' → σ' → Prop} {S : β → σ → β' → σ' → Prop}
    {f : α → EStateM ε σ β} {f' : α' → EStateM ε' σ' β'} (h : Alike view view' E R (m s) (m' s'))
    (hf : ∀ a t a' t', m s = .ok a t → m' s' = .ok a' t' → R a t a' t' →
      Alike view view' E S (f a t) (f' a' t')) :
    Alike view view' E S ((m >>= f) s) ((m' >>= f') s') := by
  generalize hm : m s = r at h
  generalize hm' : m' s' = r' at h
  cases h with
  | ok h =>
    rw [bind_of_ok hm, bind_of_ok hm']; exact hf _ _ _ _ hm hm' h
  | error hview hview' h =>
    rw [bind_of_error hm, bind_of_error hm']; exact .error hview hview' h

end Alike

end EarlyExit
