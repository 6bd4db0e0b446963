import Mathlib

/-!
# Maps kept in key order

An ordered map is a list of entries.  `set` puts a new key at its place in the order and replaces
the value of one that is there, so a map built by it from the empty one lists its keys in
increasing order.
-/

namespace OrderedMap

open List

variable {κ α : Type*} [DecidableEq κ]

def find (k : κ) : List (κ × α) → Option α
  | [] => none
  | (k', v) :: rest => if k' = k then some v else find k rest

def contains (k : κ) (m : List (κ × α)) : Bool := (find k m).isSome

def erase (k : κ) : List (κ × α) → List (κ × α)
  | [] => []
  | (k', v) :: rest => if k' = k then erase k rest else (k', v) :: erase k rest

@[simp] theorem find_nil (k : κ) : find k ([] : List (κ × α)) = none := rfl

theorem find_cons (k k' : κ) (v : α) (m : List (κ × α)) :
    find k ((k', v) :: m) = if k' = k then some v else find k m := rfl

theorem find_append (k : κ) (a b : List (κ × α)) : find k (a ++ b) = (find k a).or (find k b) := by
  induction a with
  | nil => rfl
  | cons entry a ih =>
    rw [cons_append, find_cons, find_cons, ih]
    split_ifs <;> rfl

variable {k : κ} {m : List (κ × α)}

theorem find_eq_none_iff : find k m = none ↔ ∀ entry ∈ m, entry.1 ≠ k := by
  induction m with
  | nil => simp
  | cons entry m ih =>
    obtain ⟨k', v'⟩ := entry
    by_cases h : k' = k <;> simp [find_cons, h, ih]

@[simp] theorem find_erase_self (k : κ) (m : List (κ × α)) : find k (erase k m) = none := by
  induction m with
  | nil => rfl
  | cons entry m ih =>
    obtain ⟨k', v'⟩ := entry
    by_cases h : k' = k <;> simp [erase, h, find_cons, ih]

theorem contains_iff : contains k m = true ↔ ∃ entry ∈ m, entry.1 = k := by
  rw [contains, Option.isSome_iff_ne_none, Ne, find_eq_none_iff]
  push Not
  rfl

theorem mem_of_find_eq_some {v : α} (h : find k m = some v) : (k, v) ∈ m := by
  induction m with
  | nil => cases h
  | cons entry m ih =>
    rw [find_cons] at h
    split_ifs at h with hkey
    · obtain rfl := hkey
      obtain rfl := Option.some.inj h
      exact mem_cons_self
    · exact mem_cons_of_mem _ (ih h)

theorem find_erase_ne {l : κ} (hne : k ≠ l) (m : List (κ × α)) : find l (erase k m) = find l m := by
  induction m with
  | nil => rfl
  | cons entry m ih =>
    obtain ⟨k', v'⟩ := entry
    by_cases h : k' = k
    · subst h; simp [erase, find_cons, hne, ih]
    · simp [erase, h, find_cons, ih]

theorem erase_sublist (k : κ) (m : List (κ × α)) : (erase k m).Sublist m := by
  induction m with
  | nil => exact .slnil
  | cons entry m ih =>
    unfold erase
    split_ifs
    · exact ih.cons _
    · exact ih.cons_cons _

theorem erase_of_find_none (h : find k m = none) : erase k m = m := by
  induction m with
  | nil => rfl
  | cons entry m ih =>
    obtain ⟨k', v'⟩ := entry
    have hne : k' ≠ k := find_eq_none_iff.mp h (k', v') (by simp)
    rw [find_cons, if_neg hne] at h
    rw [erase, if_neg hne, ih h]

theorem find_filter {p : κ → Bool} (hk : p k = true) (m : List (κ × α)) :
    find k (m.filter fun entry => p entry.1) = find k m := by
  induction m with
  | nil => rfl
  | cons head m ih =>
    obtain ⟨k', v'⟩ := head
    by_cases heq : k' = k
    · subst heq; simp [hk, find_cons]
    · by_cases hp : p k' = true
      · simp [hp, find_cons, ih]
      · simp [hp, find_cons, heq, ih]

section Ordered

variable [LT κ] [DecidableLT κ]

def set (k : κ) (v : α) : List (κ × α) → List (κ × α)
  | [] => [(k, v)]
  | (k', v') :: rest =>
    if k' = k then (k, v) :: rest
    else if k < k' then (k, v) :: (k', v') :: rest
    else (k', v') :: set k v rest

def merge (m updates : List (κ × α)) : List (κ × α) :=
  updates.foldl (fun acc entry => set entry.1 entry.2 acc) m

@[simp] theorem find_set_self (k : κ) (v : α) (m : List (κ × α)) : find k (set k v m) = some v := by
  induction m with
  | nil => simp [set, find_cons]
  | cons entry m ih =>
    obtain ⟨k', v'⟩ := entry
    simp only [set]
    split_ifs with heq hlt
    · simp [find_cons]
    · simp [find_cons]
    · simp [find_cons, heq, ih]

theorem find_set_ne {k l : κ} (hne : k ≠ l) (v : α) (m : List (κ × α)) :
    find l (set k v m) = find l m := by
  induction m with
  | nil => simp [set, find_cons, hne]
  | cons entry m ih =>
    obtain ⟨k', v'⟩ := entry
    simp only [set]
    split_ifs with heq hlt
    · subst heq; simp [find_cons, hne]
    · simp [find_cons, hne]
    · simp [find_cons, ih]

variable {m : List (κ × α)}

theorem contains_set {k l : κ} {v : α} :
    contains l (set k v m) = true ↔ l = k ∨ contains l m = true := by
  by_cases h : k = l
  · subst h; simp [contains]
  · simp [contains, find_set_ne h, Ne.symm h]

theorem find_merge (k : κ) (m updates : List (κ × α)) :
    find k (merge m updates) = (find k updates.reverse).or (find k m) := by
  induction updates generalizing m with
  | nil => rfl
  | cons entry updates ih =>
    obtain ⟨k', v⟩ := entry
    rw [show merge m ((k', v) :: updates) = merge (set k' v m) updates from rfl, ih,
      reverse_cons, find_append, find_cons, Option.or_assoc]
    by_cases h : k' = k
    · subst h
      rw [find_set_self, if_pos rfl, Option.some_or]
    · rw [find_set_ne h, if_neg h, find_nil, Option.none_or]

theorem erase_set (k : κ) (v : α) (m : List (κ × α)) : erase k (set k v m) = erase k m := by
  induction m with
  | nil => simp [set, erase]
  | cons entry m ih =>
    obtain ⟨k', v'⟩ := entry
    simp only [set]
    split_ifs with heq hlt
    · simp [erase, heq]
    · simp [erase]
    · simpa [erase, heq] using ih

theorem erase_set_of_find_none {k : κ} (h : find k m = none) (v : α) : erase k (set k v m) = m :=
  (erase_set k v m).trans (erase_of_find_none h)

theorem mem_set {k : κ} {v : α} {entry : κ × α} (h : entry ∈ set k v m) :
    entry = (k, v) ∨ entry ∈ m := by
  induction m with
  | nil => exact .inl (mem_singleton.mp h)
  | cons head m ih =>
    simp only [set] at h
    split_ifs at h with heq hlt
    · rcases mem_cons.mp h with rfl | h
      · exact .inl rfl
      · exact .inr (mem_cons_of_mem _ h)
    · rcases mem_cons.mp h with rfl | h
      · exact .inl rfl
      · exact .inr h
    · rcases mem_cons.mp h with rfl | h
      · exact .inr (mem_cons_self ..)
      · exact (ih h).imp_right (mem_cons_of_mem _)

theorem mem_merge {updates : List (κ × α)} {entry : κ × α} (h : entry ∈ merge m updates) :
    entry ∈ m ∨ entry ∈ updates := by
  induction updates generalizing m with
  | nil => exact .inl h
  | cons head updates ih =>
    rcases ih (m := set head.1 head.2 m) h with h | h
    · rcases mem_set h with rfl | h
      · exact .inr (mem_cons_self ..)
      · exact .inl h
    · exact .inr (mem_cons_of_mem _ h)

end Ordered

/-! ## Increasing maps -/

section Increasing

variable [LT κ]

def Increasing (m : List (κ × α)) : Prop := m.Pairwise fun a b => a.1 < b.1

instance [DecidableLT κ] (m : List (κ × α)) : Decidable (Increasing m) :=
  inferInstanceAs (Decidable (m.Pairwise fun a b => a.1 < b.1))

variable {m : List (κ × α)}

omit [DecidableEq κ] in
theorem increasing_cons {entry : κ × α} :
    Increasing (entry :: m) ↔ (∀ other ∈ m, entry.1 < other.1) ∧ Increasing m :=
  pairwise_cons

omit [DecidableEq κ] in
theorem Increasing.filter (h : Increasing m) (p : κ × α → Bool) : Increasing (m.filter p) :=
  Pairwise.filter p h

theorem Increasing.erase (h : Increasing m) (k : κ) : Increasing (erase k m) :=
  Pairwise.sublist (erase_sublist k m) h

variable [IsStrictTotalOrder κ (· < ·)]

theorem Increasing.find_eq_some_iff (h : Increasing m) {k : κ} {v : α} :
    find k m = some v ↔ (k, v) ∈ m := by
  induction m with
  | nil => simp
  | cons head m ih =>
    obtain ⟨k', v'⟩ := head
    obtain ⟨hhead, htail⟩ := increasing_cons.mp h
    rw [find_cons]
    split_ifs with heq
    · subst heq
      have hnot : (k', v) ∉ m := fun hm => irrefl_of (· < ·) k' (hhead _ hm)
      simp [hnot, eq_comm]
    · rw [ih htail]; simp [Ne.symm heq]

omit [DecidableEq κ] in
theorem Increasing.nodup (h : Increasing m) : (m.map Prod.fst).Nodup := by
  refine pairwise_map.mpr (Pairwise.imp ?_ h)
  exact fun hlt heq => irrefl_of (· < ·) _ (heq ▸ hlt)

theorem Increasing.ext {m' : List (κ × α)} (h : Increasing m) (h' : Increasing m')
    (heq : ∀ k, find k m = find k m') : m = m' := by
  have hperm : m.Perm m' := by
    refine (perm_ext_iff_of_nodup (h.imp ?_) (h'.imp ?_)).mpr fun ⟨k, v⟩ => ?_
    · rintro a b hab rfl; exact irrefl_of (· < ·) a.1 hab
    · rintro a b hab rfl; exact irrefl_of (· < ·) a.1 hab
    · rw [← h.find_eq_some_iff, ← h'.find_eq_some_iff, heq]
  have hanti : ∀ a b : κ × α, a ∈ m → b ∈ m' → a.1 < b.1 → b.1 < a.1 → a = b := fun a b _ _ hab hba =>
    absurd (trans_of (· < ·) hab hba) (irrefl_of (· < ·) a.1)
  exact hperm.eq_of_pairwise hanti h h'

theorem Increasing.ext_mem {m' : List (κ × α)} (h : Increasing m) (h' : Increasing m')
    (hmem : ∀ entry, entry ∈ m ↔ entry ∈ m') : m = m' := by
  refine h.ext h' fun k => Option.ext fun v => ?_
  rw [h.find_eq_some_iff, h'.find_eq_some_iff]; exact hmem (k, v)

variable [DecidableLT κ]

omit [DecidableEq κ] in
theorem Increasing.filter_greater {before after : List (κ × α)} {entry : κ × α}
    (h : Increasing (before ++ entry :: after)) :
    (before ++ entry :: after).filter (fun other => entry.1 < other.1) = after := by
  obtain ⟨-, hafter, hcross⟩ := pairwise_append.mp h
  have hbefore : before.filter (fun other => entry.1 < other.1) = [] :=
    filter_eq_nil_iff.mpr fun other hm => by
      have hlt : other.1 < entry.1 := hcross other hm entry (by simp)
      simpa using fun hgt => irrefl_of (· < ·) entry.1 (trans_of (· < ·) hgt hlt)
  have hself : ¬ entry.1 < entry.1 := irrefl_of (· < ·) entry.1
  rw [filter_append, hbefore, filter_cons_of_neg (by simpa using hself), nil_append]
  exact filter_eq_self.mpr fun other hm =>
    decide_eq_true ((increasing_cons.mp hafter).1 other hm)

theorem Increasing.set (h : Increasing m) (k : κ) (v : α) : Increasing (set k v m) := by
  induction m with
  | nil => exact pairwise_singleton _ _
  | cons head m ih =>
    obtain ⟨k', v'⟩ := head
    obtain ⟨hhead, htail⟩ := increasing_cons.mp h
    simp only [OrderedMap.set]
    split_ifs with heq hlt
    · exact increasing_cons.mpr ⟨heq ▸ hhead, htail⟩
    · refine increasing_cons.mpr ⟨fun other hother => ?_, h⟩
      rcases mem_cons.mp hother with rfl | hother
      · exact hlt
      · exact trans_of (· < ·) hlt (hhead other hother)
    · refine increasing_cons.mpr ⟨fun other hother => ?_, ih htail⟩
      rcases mem_set hother with rfl | hother
      · exact ((trichotomous_of (· < ·) k k').resolve_left hlt).resolve_left fun e => heq e.symm
      · exact hhead other hother

omit [IsStrictTotalOrder κ (· < ·)] [DecidableLT κ] in
theorem Increasing.find_eq_none {entry : κ × α} (h : Increasing (entry :: m)) {k : κ}
    (hk : ¬entry.1 < k) : find k m = none := by
  refine find_eq_none_iff.mpr fun other hother heq => ?_
  exact hk (heq ▸ (increasing_cons.mp h).1 other hother)

theorem Increasing.length_set (h : Increasing m) (k : κ) (v : α) :
    (OrderedMap.set k v m).length = if (find k m).isSome then m.length else m.length + 1 := by
  induction m with
  | nil => rfl
  | cons entry m ih =>
    obtain ⟨k', v'⟩ := entry
    have hrest := ih (increasing_cons.mp h).2
    rw [OrderedMap.set, find_cons]
    by_cases hsame : k' = k
    · simp [hsame]
    · by_cases hlt : k < k'
      · -- the key belongs in front of all that are there
        simp [hsame, hlt, h.find_eq_none (asymm_of (· < ·) hlt)]
      · rw [if_neg hsame, if_neg hlt, if_neg hsame, length_cons, hrest]
        split_ifs <;> rfl

omit [DecidableLT κ] in
theorem Increasing.length_erase (h : Increasing m) (k : κ) :
    (OrderedMap.erase k m).length = if (find k m).isSome then m.length - 1 else m.length := by
  induction m with
  | nil => rfl
  | cons entry m ih =>
    obtain ⟨k', v'⟩ := entry
    have hrest := ih (increasing_cons.mp h).2
    rw [OrderedMap.erase, find_cons]
    by_cases hsame : k' = k
    · have hnone : find k m = none := h.find_eq_none (hsame ▸ irrefl_of (· < ·) k')
      simp [hsame, erase_of_find_none hnone]
    · rw [if_neg hsame, if_neg hsame, length_cons, hrest, length_cons]
      split_ifs with hstored
      · obtain ⟨v, hv⟩ := Option.isSome_iff_exists.mp hstored
        have hpos : 0 < m.length := length_pos_of_mem (mem_of_find_eq_some hv)
        omega
      · rfl

theorem Increasing.merge (h : Increasing m) (updates : List (κ × α)) :
    Increasing (merge m updates) := by
  induction updates generalizing m with
  | nil => exact h
  | cons entry updates ih => exact ih (h.set entry.1 entry.2)

theorem Increasing.merge_eq {updates : List (κ × α)} (h : Increasing (m ++ updates)) :
    OrderedMap.merge m updates = m ++ updates := by
  induction updates generalizing m with
  | nil => rw [append_nil]; rfl
  | cons entry updates ih =>
    have hlast : OrderedMap.set entry.1 entry.2 m = m ++ [entry] := by
      rw [Increasing, pairwise_append] at h
      have hsmall : ∀ other ∈ m, other.1 < entry.1 := fun other hm => h.2.2 other hm entry (by simp)
      clear h
      induction m with
      | nil => rfl
      | cons head m ih =>
        have hlt : head.1 < entry.1 := hsmall head (by simp)
        have hne : head.1 ≠ entry.1 := fun e => irrefl_of (· < ·) entry.1 (e ▸ hlt)
        have hge : ¬ entry.1 < head.1 := fun hgt =>
          irrefl_of (· < ·) entry.1 (trans_of (· < ·) hgt hlt)
        rw [OrderedMap.set, if_neg hne, if_neg hge, ih fun other hm => hsmall other (by simp [hm])]
        rfl
    rw [show OrderedMap.merge m (entry :: updates) =
        OrderedMap.merge (OrderedMap.set entry.1 entry.2 m) updates from rfl, hlast,
      ih (by rwa [append_assoc]), append_assoc]
    rfl

end Increasing

/-! ## Collecting entries under their keys -/

section Collect

variable {β : Type*} (add : α → β → α) (init : α)

def valuesAt (k : κ) (entries : List (κ × β)) : List β :=
  (entries.filter fun entry => entry.1 = k).map Prod.snd

theorem mem_valuesAt {k : κ} {entries : List (κ × β)} {b : β} :
    b ∈ valuesAt k entries ↔ (k, b) ∈ entries := by
  constructor
  · intro h
    obtain ⟨⟨k', b'⟩, hmem, rfl⟩ := mem_map.mp h
    obtain ⟨hentry, hkey⟩ := mem_filter.mp hmem
    obtain rfl : k' = k := of_decide_eq_true hkey
    exact hentry
  · intro h
    exact mem_map.mpr ⟨(k, b), mem_filter.mpr ⟨h, decide_eq_true rfl⟩, rfl⟩

variable [LT κ] [DecidableLT κ]

def collect (m : List (κ × α)) (entries : List (κ × β)) : List (κ × α) :=
  entries.foldl (fun m entry => set entry.1 (add ((find entry.1 m).getD init) entry.2) m) m

theorem find_collect (k : κ) (m : List (κ × α)) (entries : List (κ × β)) :
    find k (collect add init m entries) = if valuesAt k entries = [] then find k m
      else some ((valuesAt k entries).foldl add ((find k m).getD init)) := by
  induction entries generalizing m with
  | nil => rfl
  | cons entry entries ih =>
    rw [collect, foldl_cons]
    change find k (collect add init _ entries) = _
    rw [ih]
    by_cases hkey : entry.1 = k
    · subst hkey
      have hvalues : valuesAt entry.1 (entry :: entries) = entry.2 :: valuesAt entry.1 entries := by
        simp [valuesAt]
      rw [hvalues, if_neg (cons_ne_nil _ _), find_set_self, Option.getD_some, foldl_cons]
      split_ifs with hnil
      · rw [hnil, foldl_nil]
      · rfl
    · have hvalues : valuesAt k (entry :: entries) = valuesAt k entries := by simp [valuesAt, hkey]
      rw [hvalues, find_set_ne hkey]

theorem Increasing.collect [IsStrictTotalOrder κ (· < ·)] {m : List (κ × α)} (h : Increasing m)
    (entries : List (κ × β)) : Increasing (OrderedMap.collect add init m entries) := by
  induction entries generalizing m with
  | nil => exact h
  | cons entry entries ih => exact ih (h.set entry.1 _)

end Collect

/-- Keys of two parts, compared by the first part and then by the second. -/
theorem isStrictTotalOrder_of_parts {γ κ ι : Type} [LT γ] [LT κ] [LT ι]
    [IsStrictTotalOrder κ (· < ·)] [IsStrictTotalOrder ι (· < ·)] (parts : γ ↪ κ × ι)
    (hlt : ∀ {a b}, Prod.Lex (· < ·) (· < ·) (parts a) (parts b) ↔ a < b) :
    IsStrictTotalOrder γ (· < ·) := by
  have : IsStrictTotalOrder (κ × ι) (Prod.Lex (· < ·) (· < ·)) := {}
  exact RelEmbedding.isStrictTotalOrder ⟨parts, hlt⟩

end OrderedMap
