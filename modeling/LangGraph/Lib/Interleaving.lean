import Mathlib

/-!
# Interleavings as lists of moves

A system of threads is a partial step function: a move names the thread that goes on and what is
not under its control, and there is no step where the thread cannot make the move.  A run is a list
of moves, so what holds after every run holds under every schedule.
-/

namespace Interleaving

variable {σ μ : Type}

/-- The moves one after the other; nothing if one of them is not possible. -/
def run (step : μ → σ → Option σ) : List μ → σ → Option σ
  | [], s => some s
  | move :: moves, s => (step move s).bind (run step moves)

def Obeys (step : μ → σ → Option σ) (allowed : μ → σ → Prop) : List μ → σ → Prop
  | [], _ => True
  | move :: moves, s =>
    allowed move s ∧ match step move s with
      | none => True
      | some s' => Obeys step allowed moves s'

instance decidableObeys (step : μ → σ → Option σ) (allowed : μ → σ → Prop)
    [∀ move s, Decidable (allowed move s)] :
    ∀ moves s, Decidable (Obeys step allowed moves s)
  | [], _ => isTrue trivial
  | move :: moves, s =>
    have : Decidable (match step move s with
        | none => True
        | some s' => Obeys step allowed moves s') :=
      match step move s with
      | none => isTrue trivial
      | some s' => decidableObeys step allowed moves s'
    inferInstanceAs (Decidable (_ ∧ _))

section Rules

variable {step : μ → σ → Option σ} {allowed : μ → σ → Prop}

variable {moves : List μ} {s s' middle : σ} {P : σ → Prop}

theorem run_cons_eq_some {move : μ} :
    run step (move :: moves) s = some s' ↔
      ∃ middle, step move s = some middle ∧ run step moves middle = some s' :=
  Option.bind_eq_some_iff

theorem run_append {first second : List μ} (h : run step first s = some middle) :
    run step (first ++ second) s = run step second middle := by
  induction first generalizing s with
  | nil =>
    cases h; rfl
  | cons move moves ih =>
    obtain ⟨next, hstep, hrest⟩ := run_cons_eq_some.mp h
    rw [List.cons_append, run, hstep]; exact ih hrest

theorem obeys_cons {move : μ} (h : step move s = some middle) :
    Obeys step allowed (move :: moves) s ↔ allowed move s ∧ Obeys step allowed moves middle := by
  rw [Obeys, h]

theorem obeys_append {first second : List μ} (h : Obeys step allowed (first ++ second) s)
    (hrun : run step first s = some middle) :
    Obeys step allowed first s ∧ Obeys step allowed second middle := by
  induction first generalizing s with
  | nil =>
    cases hrun; exact ⟨trivial, h⟩
  | cons move moves ih =>
    obtain ⟨next, hmove, hrest⟩ := run_cons_eq_some.mp hrun
    rw [List.cons_append, obeys_cons hmove] at h
    obtain ⟨hfirst, hsecond⟩ := ih h.2 hrest
    exact ⟨(obeys_cons hmove).mpr ⟨h.1, hfirst⟩, hsecond⟩

theorem Obeys.invariant
    (hstep : ∀ {move s s'}, P s → allowed move s → step move s = some s' → P s')
    (hobeys : Obeys step allowed moves s) (hs : P s) (hrun : run step moves s = some s') :
    P s' := by
  induction moves generalizing s with
  | nil => exact Option.some.inj hrun ▸ hs
  | cons move moves ih =>
    obtain ⟨middle, hmove, hrest⟩ := run_cons_eq_some.mp hrun
    obtain ⟨hallowed, hobeys⟩ := (obeys_cons hmove).mp hobeys
    exact ih hobeys (hstep hs hallowed hmove) hrest

/-- If the allowed moves are just those that keep a property, a run is one of allowed moves just
    if the property holds all along. -/
theorem obeys_iff_forall
    (hstep : ∀ {move s s'}, P s → step move s = some s' → (P s' ↔ allowed move s)) (hs : P s)
    (hrun : run step moves s = some s') :
    Obeys step allowed moves s ↔
      ∀ taken rest middle, moves = taken ++ rest → run step taken s = some middle → P middle := by
  constructor
  · intro hobeys taken rest middle hmoves htaken
    subst hmoves
    exact (obeys_append hobeys htaken).1.invariant
      (fun hs hallowed hmove => (hstep hs hmove).mpr hallowed) hs htaken
  · intro h
    induction moves generalizing s with
    | nil => trivial
    | cons move moves ih =>
      obtain ⟨next, hmove, hrest⟩ := run_cons_eq_some.mp hrun
      have hnext : P next := by
        refine h [move] moves next rfl ?_
        rw [run, hmove]; rfl
      refine (obeys_cons hmove).mpr ⟨(hstep hs hmove).mp hnext, ih hnext hrest ?_⟩
      -- a part of the rest is a part of the whole with the first move before it
      intro taken rest middle hmoves htaken
      refine h (move :: taken) rest middle (by rw [hmoves, List.cons_append]) ?_
      rw [run, hmove]; exact htaken

theorem obeys_of_forall (h : ∀ move s, allowed move s) (moves : List μ) (s : σ) :
    Obeys step allowed moves s := by
  induction moves generalizing s with
  | nil => trivial
  | cons move moves ih =>
    refine ⟨h move s, ?_⟩
    split
    · trivial
    · exact ih _

theorem invariant (hstep : ∀ {move s s'}, P s → step move s = some s' → P s') (hs : P s)
    (hrun : run step moves s = some s') : P s' :=
  (obeys_of_forall (fun _ _ => trivial) moves s : Obeys step (fun _ _ => True) moves s).invariant
    (fun hs _ hmove => hstep hs hmove) hs hrun

/-- If there is always a round of moves that brings a measure down as long as it is not zero, some
    run brings it to zero.  `R` is what the rounds keep between their ends. -/
theorem exists_run_of_measure {I : σ → Prop} {R : σ → σ → Prop} {q : μ → Prop} (measure : σ → Nat)
    (hrefl : ∀ s, R s s) (htrans : ∀ {s t u}, R s t → R t u → R s u)
    (hround : ∀ s, I s → measure s ≠ 0 → ∃ moves s', (∀ move ∈ moves, q move) ∧
      run step moves s = some s' ∧ measure s' < measure s ∧ R s s' ∧ I s')
    {s : σ} (hs : I s) :
    ∃ moves s', (∀ move ∈ moves, q move) ∧ run step moves s = some s' ∧ measure s' = 0 ∧ R s s' := by
  induction hmeasure : measure s using Nat.strong_induction_on generalizing s with
  | _ size ih =>
    by_cases hzero : measure s = 0
    · exact ⟨[], s, by simp, rfl, hzero, hrefl s⟩
    · obtain ⟨moves, middle, hmoves, hrun, hless, hkept, hmiddle⟩ := hround s hs hzero
      obtain ⟨more, s', hmore, hrun', hdone, hkept'⟩ :=
        ih (measure middle) (hmeasure ▸ hless) hmiddle rfl
      refine ⟨moves ++ more, s', ?_, ?_, hdone, htrans hkept hkept'⟩
      · intro move hmove
        rcases List.mem_append.mp hmove with hmove | hmove
        · exact hmoves move hmove
        · exact hmore move hmove
      · rw [run_append hrun]; exact hrun'

end Rules

end Interleaving
