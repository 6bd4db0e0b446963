import Mathlib

/-!
# Fallible loops over lists

`mapM` and `foldlM` in `Except`: what a loop that came back did at each element.
-/

namespace ExceptList

open List

variable {ε α β : Type}

@[simp] theorem ok_bind (a : α) (f : α → Except ε β) : (Except.ok a >>= f) = f a := rfl

variable {x : Except ε α} {f : α → Except ε β} {b : β} {l : List α} {r : List β} {a : α}
  {g : β → α → Except ε β}

theorem of_bind (h : (x >>= f) = .ok b) : ∃ a, x = .ok a ∧ f a = .ok b := by
  cases x with
  | error => cases h
  | ok a => exact ⟨a, rfl, h⟩

theorem bind_eq_ok : (x >>= f) = .ok b ↔ ∃ a, x = .ok a ∧ f a = .ok b := by
  refine ⟨of_bind, ?_⟩
  rintro ⟨a, rfl, h⟩; exact h

theorem bind_eq_error {e : ε} :
    (x >>= f) = .error e ↔ x = .error e ∨ ∃ a, x = .ok a ∧ f a = .error e := by
  constructor
  · intro h
    cases x with
    | error => cases h; exact .inl rfl
    | ok a => exact .inr ⟨a, rfl, h⟩
  · rintro (rfl | ⟨a, rfl, h⟩)
    · rfl
    · exact h

theorem mapM_eq_ok_iff : l.mapM f = .ok r ↔ Forall₂ (fun a b => f a = .ok b) l r := by
  induction l generalizing r with
  | nil =>
    rw [mapM_nil, forall₂_nil_left_iff]
    exact ⟨fun h => (Except.ok.inj h).symm, fun h => by rw [h]; rfl⟩
  | cons a l ih =>
    rw [mapM_cons, bind_eq_ok, forall₂_cons_left_iff]
    constructor
    · rintro ⟨b, hb, h⟩
      obtain ⟨bs, hbs, h⟩ := of_bind h
      exact ⟨b, bs, hb, ih.mp hbs, (Except.ok.inj h).symm⟩
    · rintro ⟨b, bs, hb, hbs, rfl⟩
      exact ⟨b, hb, bind_eq_ok.mpr ⟨bs, ih.mpr hbs, rfl⟩⟩

theorem mapM_eq_error {e : ε} (h : l.mapM f = .error e) : ∃ a ∈ l, f a = .error e := by
  induction l with
  | nil => cases h
  | cons a l ih =>
    rw [mapM_cons] at h
    rcases bind_eq_error.mp h with h | ⟨b, -, h⟩
    · exact ⟨a, mem_cons_self, h⟩
    · rcases bind_eq_error.mp h with h | ⟨bs, -, h⟩
      · obtain ⟨a', hmem, ha'⟩ := ih h
        exact ⟨a', mem_cons_of_mem _ hmem, ha'⟩
      · cases h

theorem mapM_eq_map {g : α → β} (h : ∀ a ∈ l, f a = .ok (g a)) : l.mapM f = .ok (l.map g) := by
  refine mapM_eq_ok_iff.mpr ?_
  induction l with
  | nil => exact .nil
  | cons a l ih => exact .cons (h a (by simp)) (ih fun b hb => h b (by simp [hb]))

theorem mapM_agree {γ δ : Type} {g : α → Except ε γ} {p : β → δ} {q : γ → δ} {bs : List β}
    {cs : List γ} (h : ∀ a ∈ l, ∀ b c, f a = .ok b → g a = .ok c → q c = p b)
    (hf : l.mapM f = .ok bs) (hg : l.mapM g = .ok cs) : cs.map q = bs.map p := by
  rw [mapM_eq_ok_iff] at hf hg
  induction hf generalizing cs with
  | nil =>
    cases hg; rfl
  | cons hb _ ih =>
    cases hg with
    | cons hc hg =>
      rw [map_cons, map_cons, h _ mem_cons_self _ _ hb hc,
        ih (fun a ha => h a (mem_cons_of_mem _ ha)) hg]

theorem exists_of_forall₂ {α β : Type} {R : α → β → Prop} {l : List α} {r : List β} {a : α}
    (h : Forall₂ R l r) (ha : a ∈ l) : ∃ b ∈ r, R a b := by
  induction h with
  | nil => cases ha
  | cons hb _ ih =>
    rcases mem_cons.mp ha with rfl | ha
    · exact ⟨_, mem_cons_self, hb⟩
    · obtain ⟨b, hmem, hb⟩ := ih ha
      exact ⟨b, mem_cons_of_mem _ hmem, hb⟩

theorem exists_mem_of_mapM (h : l.mapM f = .ok r) (ha : a ∈ l) : ∃ b ∈ r, f a = .ok b :=
  exists_of_forall₂ (mapM_eq_ok_iff.mp h) ha

theorem exists_of_mem_mapM (h : l.mapM f = .ok r) (hb : b ∈ r) : ∃ a ∈ l, f a = .ok b :=
  exists_of_forall₂ (mapM_eq_ok_iff.mp h).flip hb

theorem exists_mapM_eq_ok_iff : (∃ r, l.mapM f = .ok r) ↔ ∀ a ∈ l, ∃ b, f a = .ok b := by
  constructor
  · rintro ⟨r, h⟩ a ha
    obtain ⟨b, -, hb⟩ := exists_mem_of_mapM h ha
    exact ⟨b, hb⟩
  · intro h
    induction l with
    | nil => exact ⟨[], rfl⟩
    | cons a l ih =>
      obtain ⟨b, hb⟩ := h a mem_cons_self
      obtain ⟨bs, hbs⟩ := ih fun a' ha' => h a' (mem_cons_of_mem _ ha')
      exact ⟨b :: bs, by rw [mapM_cons, hb, ok_bind, hbs]; rfl⟩

theorem forM_eq_ok_iff {f : α → Except ε Unit} : l.forM f = .ok () ↔ ∀ a ∈ l, f a = .ok () := by
  induction l with
  | nil => exact ⟨fun _ _ h => (not_mem_nil h).elim, fun _ => rfl⟩
  | cons a l ih =>
    rw [show (a :: l).forM f = f a >>= fun _ => l.forM f from rfl, bind_eq_ok, forall_mem_cons]
    constructor
    · rintro ⟨⟨⟩, ha, hl⟩; exact ⟨ha, ih.mp hl⟩
    · rintro ⟨ha, hl⟩; exact ⟨(), ha, ih.mpr hl⟩

theorem forM_bind_eq_ok_iff {f : α → Except ε Unit} {k : Unit → Except ε β} :
    (l.forM f >>= k) = .ok b ↔ (∀ a ∈ l, f a = .ok ()) ∧ k () = .ok b := by
  rw [bind_eq_ok, ← forM_eq_ok_iff]; exact ⟨fun ⟨_, h⟩ => h, fun h => ⟨(), h⟩⟩

theorem foldlM_eq_ok_iff {f : β → α → β} {P : α → Prop}
    (h : ∀ b a c, g b a = .ok c ↔ P a ∧ f b a = c) {c : β} :
    l.foldlM g b = .ok c ↔ (∀ a ∈ l, P a) ∧ l.foldl f b = c := by
  induction l generalizing b with
  | nil => simp [pure, Except.pure]
  | cons a l ih =>
    rw [foldlM_cons, bind_eq_ok, foldl_cons, forall_mem_cons, and_assoc]
    constructor
    · rintro ⟨b', hb, hl⟩
      obtain ⟨ha, rfl⟩ := (h b a b').mp hb
      exact ⟨ha, ih.mp hl⟩
    · rintro ⟨ha, hl⟩; exact ⟨f b a, (h b a _).mpr ⟨ha, rfl⟩, ih.mpr hl⟩

theorem foldlM_bind_eq_ok_iff {γ : Type} {f : β → α → β} {P : α → Prop}
    (h : ∀ b a c, g b a = .ok c ↔ P a ∧ f b a = c) {k : β → Except ε γ} {d : γ} :
    (l.foldlM g b >>= k) = .ok d ↔ (∀ a ∈ l, P a) ∧ k (l.foldl f b) = .ok d := by
  rw [bind_eq_ok]
  constructor
  · rintro ⟨c, hl, hk⟩
    obtain ⟨hP, rfl⟩ := (foldlM_eq_ok_iff h).mp hl
    exact ⟨hP, hk⟩
  · rintro ⟨hP, hk⟩; exact ⟨_, (foldlM_eq_ok_iff h).mpr ⟨hP, rfl⟩, hk⟩

theorem foldlM_induction {P : β → Prop} (h : ∀ b a c, P b → g b a = .ok c → P c) {c : β} (hb : P b)
    (hl : l.foldlM g b = .ok c) : P c := by
  induction l generalizing b with
  | nil => cases hl; exact hb
  | cons a l ih =>
    obtain ⟨b', hb', hl⟩ := of_bind hl
    exact ih (h b a b' hb hb') hl

/-! ## When a computation comes back -/

/-- The computation comes back, with `a`, exactly under the condition. -/
structure Yields (x : Except ε α) (condition : Bool) (a : α) : Prop where
  ok : condition = true → x = .ok a
  error : condition = false → ∃ e, x = .error e

theorem Yields.of_ok {condition : Bool} {b : α} (h : Yields x condition a) (hx : x = .ok b) :
    condition = true ∧ b = a := by
  cases condition with
  | true => exact ⟨rfl, Except.ok.inj (hx.symm.trans (h.ok rfl))⟩
  | false =>
    obtain ⟨e, he⟩ := h.error rfl
    cases hx.symm.trans he

theorem Yields.bind {p q : Bool} (hx : Yields x p a) (hf : Yields (f a) q b) :
    Yields (x >>= f) (p && q) b where
  ok h := by
    rw [Bool.and_eq_true] at h
    rw [hx.ok h.1]; exact hf.ok h.2
  error h := by
    cases hp : p with
    | true =>
      rw [hp, Bool.true_and] at h
      rw [hx.ok hp]; exact hf.error h
    | false =>
      obtain ⟨e, he⟩ := hx.error hp
      exact ⟨e, by rw [he]; rfl⟩

theorem Yields.map {p : Bool} (h : Yields x p a) (g : α → β) :
    Yields (x >>= fun a => pure (g a)) p (g a) where
  ok hp := by rw [h.ok hp]; rfl
  error hp := by
    obtain ⟨e, he⟩ := h.error hp
    exact ⟨e, by rw [he]; rfl⟩

end ExceptList
