import Mathlib

/-!
# Results that agree

Two computations that may fail agree if both come back, with related values, or both fail, with
related errors.
-/

namespace ExceptRel

variable {ε ε' α α' β β' : Type}

inductive Agree (E : ε → ε' → Prop) (R : α → α' → Prop) : Except ε α → Except ε' α' → Prop
  | ok {a : α} {a' : α'} (h : R a a') : Agree E R (.ok a) (.ok a')
  | error {e : ε} {e' : ε'} (h : E e e') : Agree E R (.error e) (.error e')

variable {E : ε → ε' → Prop} {R : α → α' → Prop} {Q : β → β' → Prop} {x : Except ε α}
  {y : Except ε' α'}

theorem agree_refl (x : Except ε α) : Agree Eq Eq x x := by
  cases x with
  | ok => exact .ok rfl
  | error => exact .error rfl

theorem Agree.bind {f : α → Except ε β} {g : α' → Except ε' β'} (h : Agree E R x y)
    (hf : ∀ a a', R a a' → Agree E Q (f a) (g a')) : Agree E Q (x >>= f) (y >>= g) := by
  cases h with
  | ok h => exact hf _ _ h
  | error h => exact .error h

theorem Agree.of_ok {a : α} (h : Agree E R (.ok a) y) : ∃ a', y = .ok a' ∧ R a a' := by
  cases h with
  | ok h => exact ⟨_, rfl, h⟩

end ExceptRel
