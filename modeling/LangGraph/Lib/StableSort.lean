import Mathlib

/-!
# Stable sorting by a comparison function

`stableSort less` orders a list by a strict weak order given as a Boolean comparison, and keeps
elements that compare equal in the order they came in.
-/

namespace StableSort

open List Bool

variable {α β : Type*}

def NotAfter (less : α → α → Bool) (a b : α) : Prop := less b a = false

instance (less : α → α → Bool) : DecidableRel (NotAfter less) :=
  fun a b => inferInstanceAs (Decidable (less b a = false))

def stableSort (less : α → α → Bool) (l : List α) : List α :=
  l.insertionSort (NotAfter less)

structure StrictWeakOrder (less : α → α → Bool) : Prop where
  asymm : ∀ {a b}, less a b = true → less b a = false
  notAfter_trans : ∀ {a b c}, less b a = false → less c b = false → less c a = false

def Sorted (less : α → α → Bool) (l : List α) : Prop := l.Pairwise (NotAfter less)

variable {less : α → α → Bool}

theorem StrictWeakOrder.isTrans (h : StrictWeakOrder less) : IsTrans α (NotAfter less) :=
  ⟨fun _ _ _ hab hbc => h.notAfter_trans hab hbc⟩

theorem StrictWeakOrder.total (h : StrictWeakOrder less) : Std.Total (NotAfter less) :=
  ⟨fun a b => by
    by_cases hba : less b a = true
    · exact .inr (h.asymm hba)
    · exact .inl (eq_false_iff.mpr hba)⟩

theorem StrictWeakOrder.of_key [LinearOrder β] (key : α → β) (less : α → α → Bool)
    (h : ∀ a b, less a b = true ↔ key a < key b) : StrictWeakOrder less where
  asymm {a b} hab := by
    rw [← not_eq_true, h]; exact lt_asymm ((h a b).mp hab)
  notAfter_trans {a b c} hab hbc := by
    rw [← not_eq_true, h, not_lt] at *; exact hab.trans hbc

theorem stableSort_perm (less : α → α → Bool) (l : List α) : (stableSort less l).Perm l :=
  perm_insertionSort _ l

@[simp] theorem mem_stableSort {l : List α} {x : α} : x ∈ stableSort less l ↔ x ∈ l :=
  mem_insertionSort _

theorem sorted_stableSort (h : StrictWeakOrder less) (l : List α) :
    Sorted less (stableSort less l) := by
  have := h.isTrans
  have := h.total; exact pairwise_insertionSort _ l

theorem map_stableSort (f : α → β) (less' : β → β → Bool) (l : List α)
    (h : ∀ a ∈ l, ∀ b ∈ l, less a b = less' (f a) (f b)) :
    (stableSort less l).map f = stableSort less' (l.map f) := by
  refine map_insertionSort _ _ f l fun a ha b hb => ?_
  rw [NotAfter, NotAfter, h b hb a ha]

theorem stableSort_append_one (h : StrictWeakOrder less) {l : List α} (hl : Sorted less l)
    (x : α) :
    stableSort less (l ++ [x])
      = l.filter (fun y => !less x y) ++ x :: l.filter (fun y => less x y) := by
  induction l with
  | nil => simp [stableSort]
  | cons a t ih =>
    have hsplit := pairwise_cons.mp hl
    have iht := ih hsplit.2
    rw [stableSort] at iht ⊢
    rw [cons_append, insertionSort_cons, iht]
    by_cases hxa : less x a = true
    · -- `a` goes behind `x`, and so does everything after `a`.
      have hbehind : ∀ y ∈ t, less x y = true := fun y hy => by
        by_contra hxy
        have := h.notAfter_trans (hsplit.1 y hy) (eq_false_iff.mpr hxy)
        rw [hxa] at this; cases this
      have hnone : t.filter (fun y => !less x y) = [] :=
        filter_eq_nil_iff.mpr fun y hy => by simp [hbehind y hy]
      have hall : t.filter (fun y => less x y) = t :=
        filter_eq_self.mpr hbehind
      have ht : orderedInsert (NotAfter less) a t = a :: t := by
        cases t with
        | nil => rfl
        | cons b => exact orderedInsert_cons_of_le _ _ (hsplit.1 b (by simp))
      simp only [hnone, hall, nil_append, filter_cons, hxa, Bool.not_true, if_true,
        Bool.false_eq_true, if_false]
      rw [orderedInsert_of_not_le _ _ (by rw [NotAfter, hxa]; decide), ht]
    · have hxa : less x a = false := eq_false_iff.mpr hxa
      simp only [filter_cons, hxa, Bool.not_false, if_true, Bool.false_eq_true, if_false]
      cases hf : t.filter (fun y => !less x y) with
      | nil => exact orderedInsert_cons_of_le _ _ hxa
      | cons b =>
        have hb : b ∈ t := mem_of_mem_filter (by rw [hf]; exact mem_cons_self)
        exact orderedInsert_cons_of_le _ _ (hsplit.1 b hb)

theorem filter_stableSort_append_one (h : StrictWeakOrder less) {l : List α} (hl : Sorted less l)
    {x : α} {p : α → Bool} (hx : p x = false) :
    (stableSort less (l ++ [x])).filter p = l.filter p := by
  have hsplit : l.filter (fun y => !less x y) ++ l.filter (fun y => less x y) = l := by
    induction l with
    | nil => rfl
    | cons a t ih =>
      obtain ⟨hhead, htail⟩ := pairwise_cons.mp hl
      by_cases hxa : less x a = true
      · -- everything after `a` is behind `x` as well
        have hbehind : ∀ y ∈ a :: t, less x y = true := by
          intro y hy
          rcases mem_cons.mp hy with rfl | hy
          · exact hxa
          · by_contra hxy
            have := h.notAfter_trans (hhead y hy) (eq_false_iff.mpr hxy)
            rw [hxa] at this; cases this
        rw [filter_eq_nil_iff.mpr fun y hy => by simp [hbehind y hy],
          filter_eq_self.mpr hbehind, nil_append]
      · simp [hxa, ih htail]
  rw [stableSort_append_one h hl, filter_append, filter_cons_of_neg (by simp [hx]),
    ← filter_append, hsplit]

theorem stableSort_eq_of_perm (h : StrictWeakOrder less) {l l' : List α} (hp : l.Perm l')
    (hties : l.Pairwise (fun a b => less a b = true ∨ less b a = true)) :
    stableSort less l = stableSort less l' := by
  have hpp : (stableSort less l).Perm (stableSort less l') :=
    (stableSort_perm less l).trans (hp.trans (stableSort_perm less l').symm)
  apply Perm.eq_of_pairwise _ (sorted_stableSort h l) (sorted_stableSort h l') hpp
  intro a b ha hb hab hba
  by_contra hne
  have hsymm : Std.Symm (fun a b => less a b = true ∨ less b a = true) := ⟨fun _ _ => Or.symm⟩
  have hcmp := hties.forall (mem_stableSort.mp ha) (hp.mem_iff.mpr (mem_stableSort.mp hb)) hne
  rw [NotAfter] at hab hba
  simp [hab, hba] at hcmp

end StableSort
