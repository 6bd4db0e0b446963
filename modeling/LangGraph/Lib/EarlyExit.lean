import Mathlib

/-!
# Programs with state and early exit

Rules for `EStateM` programs, which keep their state when they leave early.  `Ends m s Q E` says
how `m` ends from `s`: with a value and state in `Q`, or with an exit and state in `E`.
-/

namespace EarlyExit

variable {ε σ α β : Type}

def Ends (m : EStateM ε σ α) (s : σ) (Q : α → σ → Prop) (E : ε → σ → Prop) : Prop :=
  match m s with
  | .ok a s' => Q a s'
  | .error e s' => E e s'

variable {m : EStateM ε σ α} {f : α → EStateM ε σ β} {s : σ}

variable {Q : α → σ → Prop} {E : ε → σ → Prop} {e : ε} {s' : σ} {R : σ → σ → Prop}

@[simp] theorem ends_pure {a : α} :
    Ends (pure a : EStateM ε σ α) s Q E ↔ Q a s := Iff.rfl

@[simp] theorem ends_throw :
    Ends (throw e : EStateM ε σ α) s Q E ↔ E e s := Iff.rfl

@[simp] theorem ends_get {Q : σ → σ → Prop} :
    Ends (get : EStateM ε σ σ) s Q E ↔ Q s s := Iff.rfl

@[simp] theorem ends_bind {Q : β → σ → Prop} :
    Ends (m >>= f) s Q E ↔ Ends m s (fun a s' => Ends (f a) s' Q E) E := by
  unfold Ends
  show (match EStateM.bind m f s with | .ok a s' => Q a s' | .error e s' => E e s') ↔ _
  unfold EStateM.bind
  cases m s <;> rfl

theorem Ends.mono {Q' : α → σ → Prop} {E' : ε → σ → Prop} (h : Ends m s Q E)
    (hQ : ∀ a s', Q a s' → Q' a s') (hE : ∀ e s', E e s' → E' e s') : Ends m s Q' E' := by
  unfold Ends at *
  cases hm : m s with
  | ok a s' =>
    rw [hm] at h; exact hQ a s' h
  | error e s' =>
    rw [hm] at h; exact hE e s' h

/-- The sequencing rule in the form proofs use: what is known where the first program came back
    serves as the start of the second. -/
theorem Ends.bind {P : α → σ → Prop} {Q : β → σ → Prop} (hm : Ends m s P E)
    (hf : ∀ a s', P a s' → Ends (f a) s' Q E) : Ends (m >>= f) s Q E :=
  ends_bind.mpr (hm.mono hf fun _ _ h => h)

theorem Ends.and {Q' : α → σ → Prop} {E' : ε → σ → Prop} (h : Ends m s Q E) (h' : Ends m s Q' E') :
    Ends m s (fun a s' => Q a s' ∧ Q' a s') (fun e s' => E e s' ∧ E' e s') := by
  unfold Ends at *
  cases hm : m s with
  | ok | error =>
    rw [hm] at h h'; exact ⟨h, h'⟩

theorem Ends.ok {a : α} (h : Ends m s Q E) (hm : m s = .ok a s') : Q a s' := by
  rw [Ends, hm] at h; exact h

theorem Ends.error (h : Ends m s Q E) (hm : m s = .error e s') : E e s' := by
  rw [Ends, hm] at h; exact h

theorem ends_self : Ends m s (fun a s' => m s = .ok a s') (fun e s' => m s = .error e s') := by
  unfold Ends
  cases m s <;> rfl

theorem bind_ok {b : β} (h : (m >>= f) s = .ok b s') :
    ∃ a s₁, m s = .ok a s₁ ∧ f a s₁ = .ok b s' := by
  have hb : EStateM.bind m f s = .ok b s' := h
  unfold EStateM.bind at hb
  cases hm : m s with
  | ok a s₁ =>
    rw [hm] at hb; exact ⟨a, s₁, rfl, hb⟩
  | error =>
    rw [hm] at hb; cases hb

theorem bind_of_ok {a : α} {s₁ : σ} (h : m s = .ok a s₁) : (m >>= f) s = f a s₁ := by
  show EStateM.bind m f s = _
  rw [EStateM.bind, h]

theorem bind_of_error {s₁ : σ} (h : m s = .error e s₁) : (m >>= f) s = .error e s₁ := by
  show EStateM.bind m f s = _
  rw [EStateM.bind, h]

theorem bind_congr_of_ok {g : α → EStateM ε σ β}
    (h : ∀ a s₁, m s = .ok a s₁ → f a s₁ = g a s₁) : (m >>= f) s = (m >>= g) s := by
  cases hm : m s with
  | ok a s₁ => rw [bind_of_ok hm, bind_of_ok hm, h a s₁ hm]
  | error => rw [bind_of_error hm, bind_of_error hm]

/-- Every way `m` ends from any state is related by `R` to where it started. -/
def Keeps (R : σ → σ → Prop) (m : EStateM ε σ α) : Prop :=
  ∀ s, Ends m s (fun _ s' => R s s') (fun _ s' => R s s')

/-- Coming back `R` holds, leaving early `X` does. -/
def Walks (R : σ → σ → Prop) (X : σ → ε → σ → Prop) (m : EStateM ε σ α) : Prop :=
  ∀ s, Ends m s (fun _ s' => R s s') (X s)

theorem Walks.bind {X : σ → ε → σ → Prop} (htrans : ∀ {a b c}, R a b → R b c → R a c)
    (hafter : ∀ {a b c e}, R a b → X b e c → X a e c) (hm : Walks R X m)
    (hf : ∀ a, Walks R X (f a)) : Walks R X (m >>= f) := by
  intro s
  rw [ends_bind]
  refine (hm s).mono (fun a s₁ h₁ => ?_) fun _ _ h => h
  exact (hf a s₁).mono (fun _ _ h₂ => htrans h₁ h₂) fun _ _ h₂ => hafter h₁ h₂

end EarlyExit
