import LangGraph.Lib.OrderedMap

/-!
# Ordered maps of ordered maps

A `std::map` whose values are maps again, kept so that no inner map is empty: the last key of a
bucket takes the bucket with it.  The entries, read bucket by bucket, come in the lexicographic
order of their two keys, which is also the order of a `std::map` from pairs.
-/

namespace BucketMap

variable {κ ι α : Type}

/-! ## 1. Pairs of keys -/

/-- The place of an entry: the key of its bucket and its key there. -/
structure Slot (κ ι : Type) where
  bucket : κ
  key : ι
deriving DecidableEq

section Order

variable [LT κ] [LT ι]

instance : LT (Slot κ ι) := ⟨fun a b => a.bucket < b.bucket ∨ a.bucket = b.bucket ∧ a.key < b.key⟩

instance [DecidableEq κ] [DecidableLT κ] [DecidableLT ι] : DecidableLT (Slot κ ι) := fun a b =>
  inferInstanceAs (Decidable (a.bucket < b.bucket ∨ a.bucket = b.bucket ∧ a.key < b.key))

instance [IsStrictTotalOrder κ (· < ·)] [IsStrictTotalOrder ι (· < ·)] :
    IsStrictTotalOrder (Slot κ ι) (· < ·) :=
  OrderedMap.isStrictTotalOrder_of_parts ⟨fun a => (a.bucket, a.key), by
    rintro ⟨⟩ ⟨⟩ h
    cases h; rfl⟩ Prod.lex_def

end Order

end BucketMap

/-! ## 2. The map -/

/-- Buckets in key order, each of them an ordered map that is not empty. -/
structure BucketMap (κ ι α : Type) [LT κ] [LT ι] where
  buckets : List (κ × List (ι × α))
  increasing : OrderedMap.Increasing buckets
  bucketsIncreasing : ∀ bucket ∈ buckets, OrderedMap.Increasing bucket.2
  nonempty : ∀ bucket ∈ buckets, bucket.2 ≠ []

namespace BucketMap

variable {κ ι α : Type} [LT κ] [LT ι]

variable {m : BucketMap κ ι α}

def empty : BucketMap κ ι α := ⟨[], .nil, nofun, nofun⟩

def entries (m : BucketMap κ ι α) : List (Slot κ ι × α) :=
  m.buckets.flatMap fun bucket => bucket.2.map fun entry => (⟨bucket.1, entry.1⟩, entry.2)

variable [DecidableEq κ] [DecidableEq ι]

/-- The bucket of a key; there is nothing in a bucket that is not there. -/
def bucket (k : κ) (m : BucketMap κ ι α) : List (ι × α) := (OrderedMap.find k m.buckets).getD []

def find (slot : Slot κ ι) (m : BucketMap κ ι α) : Option α :=
  OrderedMap.find slot.key (m.bucket slot.bucket)

variable [IsStrictTotalOrder κ (· < ·)]

omit [DecidableEq ι] in
theorem bucket_increasing (k : κ) (m : BucketMap κ ι α) : OrderedMap.Increasing (m.bucket k) := by
  unfold bucket
  cases h : OrderedMap.find k m.buckets with
  | none => exact .nil
  | some bucket => exact m.bucketsIncreasing (k, bucket) (m.increasing.find_eq_some_iff.mp h)

omit [DecidableEq ι] in
theorem bucket_eq_of_mem {bucket : κ × List (ι × α)} (h : bucket ∈ m.buckets) :
    m.bucket bucket.1 = bucket.2 := by
  unfold BucketMap.bucket
  rw [m.increasing.find_eq_some_iff.mpr (show (bucket.1, bucket.2) ∈ m.buckets from h)]
  rfl

/-! ## 3. Writing -/

section Writing

variable [DecidableLT κ]

/-- The entry is removed, and its bucket too if nothing is left in it. -/
def erase (slot : Slot κ ι) (m : BucketMap κ ι α) : BucketMap κ ι α :=
  let rest := OrderedMap.erase slot.key (m.bucket slot.bucket)
  if h : rest = [] then
    { buckets := OrderedMap.erase slot.bucket m.buckets
      increasing := m.increasing.erase _
      bucketsIncreasing := fun bucket hb =>
        m.bucketsIncreasing bucket ((OrderedMap.erase_sublist _ _).subset hb)
      nonempty := fun bucket hb =>
        m.nonempty bucket ((OrderedMap.erase_sublist _ _).subset hb) }
  else
    { buckets := OrderedMap.set slot.bucket rest m.buckets
      increasing := m.increasing.set _ _
      bucketsIncreasing := fun bucket hb => by
        rcases OrderedMap.mem_set hb with rfl | hb
        · exact (m.bucket_increasing slot.bucket).erase _
        · exact m.bucketsIncreasing bucket hb
      nonempty := fun bucket hb => by
        rcases OrderedMap.mem_set hb with rfl | hb
        · exact h
        · exact m.nonempty bucket hb }

theorem bucket_erase_self (slot : Slot κ ι) (m : BucketMap κ ι α) :
    (m.erase slot).bucket slot.bucket = OrderedMap.erase slot.key (m.bucket slot.bucket) := by
  unfold erase
  dsimp only
  split_ifs with hnil
  · rw [hnil, bucket, OrderedMap.find_erase_self]; rfl
  · rw [bucket, OrderedMap.find_set_self]; rfl

theorem bucket_erase_ne {slot : Slot κ ι} {k : κ} (h : slot.bucket ≠ k) (m : BucketMap κ ι α) :
    (m.erase slot).bucket k = m.bucket k := by
  unfold erase
  dsimp only
  split_ifs with hnil
  · rw [bucket, OrderedMap.find_erase_ne h]; rfl
  · rw [bucket, OrderedMap.find_set_ne h]; rfl

theorem find_erase_self (slot : Slot κ ι) (m : BucketMap κ ι α) :
    (m.erase slot).find slot = none := by
  rw [find, bucket_erase_self, OrderedMap.find_erase_self]

theorem find_erase_ne {slot other : Slot κ ι} (h : slot ≠ other) (m : BucketMap κ ι α) :
    (m.erase slot).find other = m.find other := by
  unfold find
  by_cases hbucket : slot.bucket = other.bucket
  · have hkey : slot.key ≠ other.key := fun hkey => h (by cases slot; cases other; simp_all)
    rw [← hbucket, bucket_erase_self, OrderedMap.find_erase_ne hkey]
  · rw [bucket_erase_ne hbucket]

variable [DecidableLT ι] [IsStrictTotalOrder ι (· < ·)]

/-- `bucket[key] = value`; the bucket is made if it is not there. -/
def set (slot : Slot κ ι) (v : α) (m : BucketMap κ ι α) : BucketMap κ ι α where
  buckets := OrderedMap.set slot.bucket (OrderedMap.set slot.key v (m.bucket slot.bucket)) m.buckets
  increasing := m.increasing.set _ _
  bucketsIncreasing bucket h := by
    rcases OrderedMap.mem_set h with rfl | h
    · exact (m.bucket_increasing slot.bucket).set _ _
    · exact m.bucketsIncreasing bucket h
  nonempty bucket h := by
    rcases OrderedMap.mem_set h with rfl | h
    · intro hnil
      have := OrderedMap.find_set_self slot.key v (m.bucket slot.bucket)
      rw [show OrderedMap.set slot.key v (m.bucket slot.bucket) = [] from hnil] at this
      cases this
    · exact m.nonempty bucket h

theorem find_set_self (slot : Slot κ ι) (v : α) (m : BucketMap κ ι α) :
    (m.set slot v).find slot = some v := by
  unfold find bucket set
  rw [OrderedMap.find_set_self, Option.getD_some, OrderedMap.find_set_self]

theorem find_set_ne {slot other : Slot κ ι} (h : slot ≠ other) (v : α) (m : BucketMap κ ι α) :
    (m.set slot v).find other = m.find other := by
  unfold find bucket set
  by_cases hbucket : slot.bucket = other.bucket
  · -- the same bucket: another key of it
    have hkey : slot.key ≠ other.key := fun hkey => h (by cases slot; cases other; simp_all)
    rw [← hbucket, OrderedMap.find_set_self, Option.getD_some, OrderedMap.find_set_ne hkey]
    rfl
  · rw [OrderedMap.find_set_ne hbucket]

end Writing

/-! ## 4. The entries -/

variable [IsStrictTotalOrder ι (· < ·)]

theorem mem_entries_iff {slot : Slot κ ι} {v : α} :
    (slot, v) ∈ m.entries ↔ m.find slot = some v := by
  unfold entries find
  rw [List.mem_flatMap]
  constructor
  · rintro ⟨bucket, hbucket, hentry⟩
    obtain ⟨entry, hmem, heq⟩ := List.mem_map.mp hentry
    cases heq
    rw [bucket_eq_of_mem hbucket]
    exact (m.bucketsIncreasing bucket hbucket).find_eq_some_iff.mpr hmem
  · intro h
    unfold bucket at h
    cases hfind : OrderedMap.find slot.bucket m.buckets with
    | none =>
      rw [hfind] at h; cases h
    | some =>
      rw [hfind, Option.getD_some] at h
      have hmem := m.increasing.find_eq_some_iff.mp hfind
      have hentry := (m.bucketsIncreasing _ hmem).find_eq_some_iff.mp h
      exact ⟨_, hmem, List.mem_map.mpr ⟨_, hentry, rfl⟩⟩

theorem mem_buckets_iff {k : κ} : k ∈ m.buckets.map Prod.fst ↔ ∃ i v, m.find ⟨k, i⟩ = some v := by
  constructor
  · intro h
    obtain ⟨bucket, hbucket, rfl⟩ := List.mem_map.mp h
    obtain ⟨entry, hentry⟩ := List.exists_mem_of_ne_nil _ (m.nonempty bucket hbucket)
    refine ⟨entry.1, entry.2, ?_⟩
    rw [find, bucket_eq_of_mem hbucket]
    exact (m.bucketsIncreasing bucket hbucket).find_eq_some_iff.mpr hentry
  · rintro ⟨i, v, h⟩
    obtain ⟨bucket, hbucket, hentry⟩ := List.mem_flatMap.mp (mem_entries_iff.mpr h)
    obtain ⟨entry, -, heq⟩ := List.mem_map.mp hentry
    cases heq; exact List.mem_map.mpr ⟨bucket, hbucket, rfl⟩

omit [DecidableEq κ] [DecidableEq ι] [IsStrictTotalOrder κ (· < ·)]
  [IsStrictTotalOrder ι (· < ·)] in
theorem entries_increasing (m : BucketMap κ ι α) : OrderedMap.Increasing m.entries := by
  refine List.pairwise_flatMap.mpr ⟨fun bucket hbucket => ?_, m.increasing.imp fun {a b} hab => ?_⟩
  · exact List.pairwise_map.mpr ((m.bucketsIncreasing bucket hbucket).imp fun h => .inr ⟨rfl, h⟩)
  · intro x hx y hy
    obtain ⟨-, -, rfl⟩ := List.mem_map.mp hx
    obtain ⟨-, -, rfl⟩ := List.mem_map.mp hy
    exact .inl hab

end BucketMap
