import LangGraph.Store.Types

/-!
# The in-memory store

`InMemoryStore` keeps its items in a map from namespaces to maps from keys, under one lock.  A
batch first goes through its operations, answers the reads and remembers the writes, and then
applies the writes: an error can only come up before the first of them.
-/

namespace LangGraph

open ExceptList List OrderedMap Except

/-! ## 1. The store -/

/-- The item a put with a value leaves: an item that is there keeps the time it was created. -/
def StorePutOp.written (put : StorePutOp) (value : Json) (now : Int) :
    Option (StoreItem StoreTimes) → StoreItem StoreTimes
  | none => ⟨put.nameSpace, put.key, value, ⟨now, now⟩⟩
  | some found => { found with value := value, times := { found.times with updatedAt := now } }

def StorePutOp.effect (put : StorePutOp) (now : Int) (found : Option (StoreItem StoreTimes)) :
    Option (StoreItem StoreTimes) :=
  put.value.map fun value => put.written value now found

namespace Store

structure InMemoryStore where
  items : BucketMap StoreNamespace Bytes (StoreItem StoreTimes)
  named : ∀ slot item, items.find slot = some item → item.slot = slot

namespace InMemoryStore

def empty : InMemoryStore := ⟨.empty, nofun⟩

def find (slot : StoreSlot) (store : InMemoryStore) : Option (StoreItem StoreTimes) :=
  store.items.find slot

variable (order : JsonOrder)

def getItem (nameSpace : StoreNamespace) (key : Bytes) (store : InMemoryStore) :
    Result (StoreBatchResult StoreTimes) := do
  validateStoreNamespace nameSpace
  validateStoreKey key
  match store.find ⟨nameSpace, key⟩ with
  | none => return .monostate
  | some found => return .item found

def reaches (op : StoreSearchOp) (nameSpace : StoreNamespace) : Bool :=
  storeNamespaceMatches nameSpace ⟨.prefixMatch, op.namespacePrefix⟩

theorem reaches_eq (op : StoreSearchOp) (nameSpace : StoreNamespace) :
    reaches op nameSpace = decide (Begins op.namespacePrefix nameSpace) := by
  rw [Bool.eq_iff_iff, decide_eq_true_eq]; exact storeNamespaceMatches_iff

def searchItems (op : StoreSearchOp) (store : InMemoryStore) :
    Result (StoreSearchState StoreTimes) :=
  (store.items.buckets.filter fun bucket => reaches op bucket.1).foldlM
    (fun search bucket => bucket.2.foldlM (fun search entry => search.visit order op entry.2) search)
    {}

def search (op : StoreSearchOp) (store : InMemoryStore) : Result (StoreBatchResult StoreTimes) := do
  validateStoreSearchOptions op
  if op.limit = 0 then return .items []
  else
    let found ← store.searchItems order op
    return .items found.out

def listNamespaces (op : StoreListNamespacesOp) (store : InMemoryStore) :
    Result (StoreBatchResult StoreTimes) := do
  validateListNamespacesOp op
  if op.limit = 0 then return .namespaces []
  else return .namespaces (op.page (store.items.buckets.map Prod.fst))

def answer (store : InMemoryStore) : StoreOp → Result (StoreBatchResult StoreTimes)
  | .get nameSpace key => store.getItem nameSpace key
  | .search op => store.search order op
  | .put op => do
    validateStoreNamespace op.nameSpace
    validateStoreKey op.key
    return .monostate
  | .listNamespaces op => store.listNamespaces op

theorem slot_written {put : StorePutOp} {found : Option (StoreItem StoreTimes)}
    (hfound : ∀ item ∈ found, item.slot = put.slot) (value : Json) (now : Int) :
    (put.written value now found).slot = put.slot := by
  cases found with
  | none => rfl
  | some item => exact hfound item rfl

def applyPut (now : Int) (put : StorePutOp) (store : InMemoryStore) : InMemoryStore :=
  match put.value with
  | none =>
    { items := store.items.erase put.slot
      named := fun slot item h => by
        by_cases hslot : put.slot = slot
        · rw [← hslot, BucketMap.find_erase_self] at h; cases h
        · rw [BucketMap.find_erase_ne hslot] at h
          exact store.named slot item h }
  | some value =>
    { items := store.items.set put.slot (put.written value now (store.find put.slot))
      named := fun slot item h => by
        by_cases hslot : put.slot = slot
        · rw [← hslot, BucketMap.find_set_self] at h
          cases h
          exact hslot ▸ slot_written (fun item h => store.named _ _ h) value now
        · rw [BucketMap.find_set_ne hslot] at h
          exact store.named slot item h }

/-- The writes in the order of their names.  `clock` tells the time at which each is applied. -/
def applyPuts (clock : Nat → Int) (pending : List (StoreSlot × StorePutOp)) (store : InMemoryStore) :
    InMemoryStore :=
  pending.zipIdx.foldl (fun store entry => store.applyPut (clock entry.2) entry.1.2) store

def batch (clock : Nat → Int) (ops : List StoreOp) (store : InMemoryStore) :
    Result (List (StoreBatchResult StoreTimes)) × InMemoryStore :=
  match batchResults (store.answer order) ops with
  | .error status => (.error status, store)
  | .ok (results, pending) => (.ok results, store.applyPuts clock pending)

/-! ## 2. The writes -/

theorem find_applyPut (now : Int) (put : StorePutOp) (store : InMemoryStore) (slot : StoreSlot) :
    (store.applyPut now put).find slot =
      if put.slot = slot then put.effect now (store.find slot) else store.find slot := by
  unfold applyPut find StorePutOp.effect
  split
  · next hvalue =>
    split_ifs with hslot
    · rw [hvalue, ← hslot, BucketMap.find_erase_self]; rfl
    · rw [BucketMap.find_erase_ne hslot]
  · next value hvalue =>
    split_ifs with hslot
    · rw [hvalue, ← hslot, BucketMap.find_set_self]; rfl
    · rw [BucketMap.find_set_ne hslot]

theorem find_foldl_applyPut (clock : Nat → Int) {entries : List ((StoreSlot × StorePutOp) × Nat)}
    (hslot : ∀ entry ∈ entries, entry.1.2.slot = entry.1.1)
    (hincreasing : Increasing (entries.map Prod.fst)) (store : InMemoryStore)
    (slot : StoreSlot) :
    ∃ tick, (entries.foldl (fun store entry => store.applyPut (clock entry.2) entry.1.2) store).find
        slot =
      match OrderedMap.find slot (entries.map Prod.fst) with
      | none => store.find slot
      | some put => put.effect (clock tick) (store.find slot) := by
  induction entries generalizing store with
  | nil => exact ⟨0, rfl⟩
  | cons entry entries ih =>
    obtain ⟨hhead, htail⟩ := forall_mem_cons.mp hslot
    obtain ⟨hless, hincreasing⟩ := increasing_cons.mp hincreasing
    obtain ⟨tick, hrest⟩ := ih htail hincreasing (store.applyPut (clock entry.2) entry.1.2)
    rw [foldl_cons, map_cons, show entry.1 = (entry.1.1, entry.1.2) from rfl, find_cons]
    rw [find_applyPut, hhead] at hrest
    by_cases hthis : entry.1.1 = slot
    · -- this item: no later write has its name
      have hnone : OrderedMap.find slot (entries.map Prod.fst) = none := by
        refine find_eq_none_iff.mpr fun other hother => ?_
        exact hthis ▸ (ne_of_irrefl (hless other hother)).symm
      rw [hnone, if_pos hthis] at hrest
      exact ⟨entry.2, by rw [if_pos hthis]; exact hrest⟩
    · rw [if_neg hthis] at hrest; exact ⟨tick, by rw [if_neg hthis]; exact hrest⟩

theorem find_applyPuts (clock : Nat → Int) (ops : List StoreOp) (store : InMemoryStore)
    (slot : StoreSlot) :
    ∃ tick, (store.applyPuts clock (pendingPuts ops)).find slot = match lastWrite slot ops with
      | none => store.find slot
      | some put => put.effect (clock tick) (store.find slot) := by
  have hfst : (pendingPuts ops).zipIdx.map Prod.fst = pendingPuts ops := zipIdx_map_fst 0 _
  have hslot : ∀ entry ∈ (pendingPuts ops).zipIdx, entry.1.2.slot = entry.1.1 := fun entry h =>
    (slot_of_mem_pendingPuts (hfst ▸ mem_map_of_mem h)).1
  have hincreasing : Increasing ((pendingPuts ops).zipIdx.map Prod.fst) :=
    hfst.symm ▸ pendingPuts_increasing ops
  obtain ⟨tick, h⟩ := find_foldl_applyPut clock hslot hincreasing store slot
  rw [hfst, find_pendingPuts] at h; exact ⟨tick, h⟩

/-- What a write leaves of the item of its names: after a delete nothing, and after a put its value,
    updated at a reading of the clock and created when the item that was there was. -/
def LeftBy (clock : Nat → Int) (before : Option (StoreItem StoreTimes)) (put : StorePutOp)
    (after : Option (StoreItem StoreTimes)) : Prop :=
  match put.value with
  | none => after = none
  | some value => ∃ item tick, after = some item ∧ item.nameSpace = put.nameSpace ∧
    item.key = put.key ∧ item.value = value ∧ item.times.updatedAt = clock tick ∧
    item.times.createdAt = (before.map (·.times.createdAt)).getD (clock tick)

theorem leftBy_effect (clock : Nat → Int) (tick : Nat) {put : StorePutOp}
    {found : Option (StoreItem StoreTimes)} (hfound : ∀ item ∈ found, item.slot = put.slot) :
    LeftBy clock found put (put.effect (clock tick) found) := by
  unfold LeftBy StorePutOp.effect
  cases put.value with
  | none => rfl
  | some value =>
    cases found with
    | none => exact ⟨_, tick, rfl, rfl, rfl, rfl, rfl, rfl⟩
    | some item =>
      obtain ⟨hnamespace, hkey⟩ := (BucketMap.Slot.mk.injEq ..).mp (hfound item rfl)
      exact ⟨_, tick, rfl, hnamespace, hkey, rfl, rfl, rfl⟩

/-! ## 3. The reads -/

/-- The items of the store, namespace by namespace and key by key. -/
def contents (store : InMemoryStore) : List (StoreItem StoreTimes) :=
  store.items.entries.map Prod.snd

theorem contents_eq (store : InMemoryStore) :
    store.contents = store.items.buckets.flatMap fun bucket => bucket.2.map Prod.snd := by
  rw [contents, BucketMap.entries, map_flatMap]
  simp only [map_map, Function.comp_def]

variable {store : InMemoryStore} {result : StoreBatchResult StoreTimes}

theorem nameSpace_of_mem_bucket {bucket : StoreNamespace × List (Bytes × StoreItem StoreTimes)}
    (hbucket : bucket ∈ store.items.buckets) {entry : Bytes × StoreItem StoreTimes}
    (hentry : entry ∈ bucket.2) : entry.2.nameSpace = bucket.1 := by
  have hfind : store.items.find ⟨bucket.1, entry.1⟩ = some entry.2 := by
    rw [BucketMap.find, BucketMap.bucket_eq_of_mem hbucket]
    exact (store.items.bucketsIncreasing bucket hbucket).find_eq_some_iff.mpr hentry
  exact congrArg BucketMap.Slot.bucket (store.named _ _ hfind)

theorem searchItems_eq (op : StoreSearchOp) (store : InMemoryStore) :
    store.searchItems order op =
      (store.contents.filter fun item => reaches op item.nameSpace).foldlM
        (StoreSearchState.visit order op) {} := by
  have hfilter : ∀ bucket ∈ store.items.buckets,
      (bucket.2.map Prod.snd).filter (fun item => reaches op item.nameSpace) =
        if reaches op bucket.1 then bucket.2.map Prod.snd else [] := by
    intro bucket hbucket
    have hsame : ∀ item ∈ bucket.2.map Prod.snd,
        reaches op item.nameSpace = reaches op bucket.1 := by
      intro item hitem
      obtain ⟨entry, hentry, rfl⟩ := mem_map.mp hitem
      rw [nameSpace_of_mem_bucket hbucket hentry]
    rw [filter_congr hsame]
    split_ifs with h
    · simp [h]
    · simp [h]
  rw [contents_eq, searchItems, filter_flatMap, flatMap_congr hfilter]
  generalize store.items.buckets = buckets
  generalize ({} : StoreSearchState StoreTimes) = start
  induction buckets generalizing start with
  | nil => rfl
  | cons bucket buckets ih =>
    rw [flatMap_cons, foldlM_append, filter_cons]
    split_ifs with h
    · rw [foldlM_cons, foldlM_map]
      congr 1
      funext next
      exact ih next
    · exact ih start

/-- The result of an operation on this content: a `get` gives the item that is found, a search the
    page of the items whose namespaces its prefix begins and that its filter accepts, and a listing
    the page of the namespaces that have items and meet its conditions. -/
def Answers (store : InMemoryStore) : StoreOp → StoreBatchResult StoreTimes → Prop
  | .get nameSpace key, result =>
    result = ((store.find ⟨nameSpace, key⟩).map StoreBatchResult.item).getD .monostate
  | .search op, result =>
    result = .items (((store.contents.filter fun item =>
      Begins op.namespacePrefix item.nameSpace ∧ op.accepts order item).drop op.offset).take op.limit)
  | .put _, result => result = .monostate
  | .listNamespaces op, result =>
    ∃ emitted : List StoreNamespace, emitted.Pairwise (· < ·) ∧
      (∀ nameSpace, nameSpace ∈ emitted ↔ ∃ found, (∃ key item, store.find ⟨found, key⟩ = some item) ∧
        (∀ condition ∈ op.matchConditions, condition.Meets found) ∧ op.emitted found = nameSpace) ∧
      result = .namespaces ((emitted.drop op.offset).take op.limit)

theorem getItem_answers {nameSpace : StoreNamespace} {key : Bytes}
    (h : store.getItem nameSpace key = .ok result) :
    store.Answers order (.get nameSpace key) result := by
  obtain ⟨-, -, h⟩ := of_bind h
  obtain ⟨-, -, h⟩ := of_bind h
  rw [Answers]
  cases hfind : store.find ⟨nameSpace, key⟩ with
  | none | some =>
    rw [hfind] at h; exact (ok.inj h).symm

theorem search_answers {op : StoreSearchOp} (h : store.search order op = .ok result) :
    store.Answers order (.search op) result := by
  obtain ⟨-, -, h⟩ := of_bind h
  rw [Answers]
  split_ifs at h with hlimit
  · rw [hlimit, take_zero]; exact (ok.inj h).symm
  · obtain ⟨found, hfound, h⟩ := of_bind h
    rw [searchItems_eq] at hfound
    have hout := foldlM_visit order hfound
    rw [← ok.inj h, hout]
    simp [reaches_eq, Bool.and_comm]

theorem listNamespaces_answers {op : StoreListNamespacesOp}
    (h : store.listNamespaces op = .ok result) :
    store.Answers order (.listNamespaces op) result := by
  obtain ⟨-, -, h⟩ := of_bind h
  obtain ⟨emitted, hsorted, hmem, hpage⟩ := op.page_spec (store.items.buckets.map Prod.fst)
  refine ⟨emitted, hsorted, fun nameSpace => ?_, ?_⟩
  · simp only [hmem, BucketMap.mem_buckets_iff, storeNamespaceMatchesAll_iff]; rfl
  · split_ifs at h with hlimit
    · rw [hlimit, take_zero]; exact (ok.inj h).symm
    · rw [← hpage]; exact (ok.inj h).symm

theorem answer_answers {op : StoreOp} (h : store.answer order op = .ok result) :
    store.Answers order op result := by
  cases op with
  | get => exact getItem_answers order h
  | search => exact search_answers order h
  | put =>
    obtain ⟨-, -, h⟩ := of_bind h
    obtain ⟨-, -, h⟩ := of_bind h
    exact (ok.inj h).symm
  | listNamespaces => exact listNamespaces_answers order h

/-! ## 4. The batch -/

/-- A batch that fails changes nothing.  In one that succeeds every read is answered from the
    content before it, and an item is left as the last put or delete on it leaves it. -/
theorem batch_semantics (clock : Nat → Int) (ops : List StoreOp) (store : InMemoryStore) :
    (∀ status, (store.batch order clock ops).1 = .error status →
      (store.batch order clock ops).2 = store) ∧
    ∀ results, (store.batch order clock ops).1 = .ok results →
      List.Forall₂ (store.Answers order) ops results ∧
      ∀ slot, match lastWrite slot ops with
        | none => (store.batch order clock ops).2.find slot = store.find slot
        | some put => LeftBy clock (store.find slot) put
          ((store.batch order clock ops).2.find slot) := by
  unfold batch
  rw [batchResults_eq]
  cases hanswers : ops.mapM (store.answer order) with
  | error => exact ⟨fun _ _ => rfl, fun _ h => nomatch h⟩
  | ok =>
    refine ⟨fun _ h => (nomatch h), fun results h => ?_⟩
    cases h
    refine ⟨(mapM_eq_ok_iff.mp hanswers).imp fun _ _ => answer_answers order, fun slot => ?_⟩
    obtain ⟨tick, hfind⟩ := find_applyPuts clock ops store slot
    cases hlast : lastWrite slot ops with
    | none => rw [hlast] at hfind; exact hfind
    | some put =>
      rw [hlast] at hfind
      change LeftBy clock (store.find slot) put ((store.applyPuts clock (pendingPuts ops)).find slot)
      rw [hfind]
      refine leftBy_effect clock tick fun item hitem => ?_
      exact (store.named slot item hitem).trans (mem_of_lastWrite hlast).1.symm

/-- The item `k` of namespace `a` is there since time 3.  In one batch it is written twice, read and
    searched for: the reads find the old value, and the second of the new ones stays. -/
theorem batch_semantics_twice :
    let slot : StoreSlot := ⟨[lit "a"], lit "k"⟩
    let put := fun value => StoreOp.put ⟨[lit "a"], lit "k", some (.int value)⟩
    let old : StoreItem StoreTimes := ⟨[lit "a"], lit "k", .int 0, ⟨3, 3⟩⟩
    let store := (empty.batch .ofIntegers (fun _ => 3) [put 0]).2
    let ops := [put 1, put 2, .get [lit "a"] (lit "k"), .search { namespacePrefix := [wildcard] }]
    Forall₂ (store.Answers .ofIntegers) ops [.monostate, .monostate, .item old, .items [old]] ∧
      ∃ item, (store.batch .ofIntegers (fun _ => 5) ops).2.find slot = some item ∧
        item.value = .int 2 ∧ item.times = ⟨3, 5⟩ := by
  intro slot put old store ops
  obtain ⟨hanswers, hcontent⟩ := (batch_semantics .ofIntegers (fun _ => 5) ops store).2
    [.monostate, .monostate, .item old, .items [old]] (by decide +kernel)
  obtain ⟨item, tick, hfind, -, -, hvalue, hupdated, hcreated⟩ := hcontent slot
  refine ⟨hanswers, item, hfind, hvalue, ?_⟩
  rw [show item.times = ⟨item.times.createdAt, item.times.updatedAt⟩ from rfl, hupdated, hcreated]
  beta_reduce
  decide +kernel

end InMemoryStore

end Store

end LangGraph
