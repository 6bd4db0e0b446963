import LangGraph.Foundation.Json
import LangGraph.Lib.BucketMap
import LangGraph.Lib.ExceptList

/-!
# The store: names, operations and filters

What `InMemoryStore` and `StorageStore` share: the checks of namespaces and keys, the matching of
namespaces against paths with wildcards, the filters of a search, and the operations of a batch
with their results.
-/

namespace LangGraph

open ExceptList OrderedMap List

/-! ## 1. Namespaces and keys -/

abbrev StoreNamespace := List Bytes

instance : IsStrictTotalOrder StoreNamespace (· < ·) :=
  have hweak : IsStrictWeakOrder StoreNamespace (List.Lex (· < ·)) :=
    isStrictWeakOrder_of_isOrderConnected
  { List.Lex.trichotomous (α := Bytes) (· < ·), hweak with }

abbrev StoreSlot := BucketMap.Slot StoreNamespace Bytes

def validateStoreNamespacePart (part : Bytes) : Result Unit := do
  require (part ≠ []) (.invalidArgument (lit "store namespace part cannot be empty"))
  require (46 ∉ part) (.invalidArgument (lit "store namespace part cannot contain periods"))

def validateStoreNamespaceParts (nameSpace : StoreNamespace) (allowEmpty enforceRoot : Bool) :
    Result Unit := do
  require (allowEmpty || nameSpace ≠ [])
    (.invalidArgument (lit "store namespace cannot be empty"))
  require (!(enforceRoot && nameSpace.head? = some (lit "langgraph")))
    (.invalidArgument (lit "store namespace root cannot be langgraph"))
  nameSpace.forM validateStoreNamespacePart

def validateStoreNamespace (nameSpace : StoreNamespace) : Result Unit :=
  validateStoreNamespaceParts nameSpace false true

def validateStoreNamespacePrefix (nameSpace : StoreNamespace) : Result Unit :=
  validateStoreNamespaceParts nameSpace true true

def validateStoreNamespaceSuffix (nameSpace : StoreNamespace) : Result Unit :=
  validateStoreNamespaceParts nameSpace true false

def validateStoreKey (key : Bytes) : Result Unit :=
  require (key ≠ []) (.invalidArgument (lit "store key cannot be empty"))

inductive StoreNamespaceMatchType where
  | prefixMatch
  | suffixMatch
deriving DecidableEq

structure StoreNamespaceMatchCondition where
  matchType : StoreNamespaceMatchType := .prefixMatch
  path : StoreNamespace

def validateStoreNamespaceMatchCondition (condition : StoreNamespaceMatchCondition) :
    Result Unit :=
  match condition.matchType with
  | .prefixMatch => validateStoreNamespacePrefix condition.path
  | .suffixMatch => validateStoreNamespaceSuffix condition.path

/-- The part of a path that stands for any part of a namespace. -/
def wildcard : Bytes := lit "*"

/-- The parts of a path against the first parts of a namespace. -/
def storeNamespacePartsMatch (path nameSpace : StoreNamespace) : Bool :=
  (path.zip nameSpace).all fun part => part.1 = wildcard || part.1 = part.2

def storeNamespaceMatches (nameSpace : StoreNamespace) (condition : StoreNamespaceMatchCondition) :
    Bool :=
  if nameSpace.length < condition.path.length then false
  else
    match condition.matchType with
    | .prefixMatch => storeNamespacePartsMatch condition.path nameSpace
    | .suffixMatch => storeNamespacePartsMatch condition.path.reverse nameSpace.reverse

def storeNamespaceMatchesAll (nameSpace : StoreNamespace)
    (conditions : List StoreNamespaceMatchCondition) : Bool :=
  conditions.all (storeNamespaceMatches nameSpace)

/-- Part by part the path begins the namespace, where `*` stands for any part. -/
def Begins (path nameSpace : StoreNamespace) : Prop :=
  path.length ≤ nameSpace.length ∧
    ∀ i < path.length, path[i]? = some wildcard ∨ path[i]? = nameSpace[i]?

instance Begins.instDecidable (path nameSpace : StoreNamespace) : Decidable (Begins path nameSpace) :=
  inferInstanceAs (Decidable (_ ∧ _))

/-- The path begins the namespace, or ends it. -/
def StoreNamespaceMatchCondition.Meets (condition : StoreNamespaceMatchCondition)
    (nameSpace : StoreNamespace) : Prop :=
  match condition.matchType with
  | .prefixMatch => Begins condition.path nameSpace
  | .suffixMatch => Begins condition.path.reverse nameSpace.reverse

theorem storeNamespacePartsMatch_iff {path nameSpace : StoreNamespace}
    (h : path.length ≤ nameSpace.length) :
    storeNamespacePartsMatch path nameSpace = true ↔ Begins path nameSpace := by
  rw [Begins, and_iff_right h]
  induction path generalizing nameSpace with
  | nil => simp [storeNamespacePartsMatch]
  | cons part path ih =>
    cases nameSpace with
    | nil => cases h
    | cons first nameSpace =>
      have hrest := ih (Nat.le_of_succ_le_succ h)
      simp only [storeNamespacePartsMatch] at hrest ⊢
      rw [length_cons, Nat.forall_lt_succ_left]
      simp [hrest]

theorem storeNamespaceMatches_iff {nameSpace : StoreNamespace}
    {condition : StoreNamespaceMatchCondition} :
    storeNamespaceMatches nameSpace condition = true ↔ condition.Meets nameSpace := by
  unfold storeNamespaceMatches StoreNamespaceMatchCondition.Meets
  split_ifs with hshort
  · -- the path is too long for the namespace, from either end
    cases condition.matchType <;> simp [Begins, hshort]
  · cases condition.matchType
    · exact storeNamespacePartsMatch_iff (Nat.le_of_not_lt hshort)
    · exact storeNamespacePartsMatch_iff (by simpa using hshort)

theorem storeNamespaceMatchesAll_iff {nameSpace : StoreNamespace}
    {conditions : List StoreNamespaceMatchCondition} :
    storeNamespaceMatchesAll nameSpace conditions = true ↔
      ∀ condition ∈ conditions, condition.Meets nameSpace := by
  simp only [storeNamespaceMatchesAll, all_eq_true, storeNamespaceMatches_iff]

/-! ## 2. Items and operations -/

structure StoreTimes where
  createdAt : Int
  updatedAt : Int
deriving DecidableEq

/-- An item of a store.  `τ` is what is recorded about when the item was written: its times, or
    nothing where results of stores with different clocks are compared. -/
structure StoreItem (τ : Type) where
  nameSpace : StoreNamespace
  key : Bytes
  value : Json
  times : τ
deriving DecidableEq

def StoreItem.slot {τ : Type} (item : StoreItem τ) : StoreSlot := ⟨item.nameSpace, item.key⟩

def StoreItem.timeless {τ : Type} (item : StoreItem τ) : StoreItem Unit := { item with times := () }

structure StoreSearchOp where
  namespacePrefix : StoreNamespace
  query : Option Bytes := none
  filter : Option Json := none
  limit : Nat := 10
  offset : Nat := 0

structure StorePutOp where
  nameSpace : StoreNamespace
  key : Bytes
  value : Option Json
deriving DecidableEq

def StorePutOp.slot (put : StorePutOp) : StoreSlot := ⟨put.nameSpace, put.key⟩

structure StoreListNamespacesOp where
  matchConditions : List StoreNamespaceMatchCondition := []
  maxDepth : Option Nat := none
  limit : Nat := 100
  offset : Nat := 0

inductive StoreOp where
  | get (nameSpace : StoreNamespace) (key : Bytes)
  | search (op : StoreSearchOp)
  | put (op : StorePutOp)
  | listNamespaces (op : StoreListNamespacesOp)

inductive StoreBatchResult (τ : Type) where
  | monostate
  | item (item : StoreItem τ)
  | items (items : List (StoreItem τ))
  | namespaces (namespaces : List StoreNamespace)
deriving DecidableEq

def StoreBatchResult.timeless {τ : Type} : StoreBatchResult τ → StoreBatchResult Unit
  | .monostate => .monostate
  | .item found => .item found.timeless
  | .items found => .items (found.map StoreItem.timeless)
  | .namespaces found => .namespaces found

/-- The check of a search: `validateSearchOp` hands every field on to it. -/
def validateStoreSearchOptions (op : StoreSearchOp) : Result Unit := do
  validateStoreNamespacePrefix op.namespacePrefix
  require op.query.isNone
    (.unimplemented (lit "store semantic search query is not supported by this store"))
  require (op.filter.all Json.isObject)
    (.invalidArgument (lit "store search filter must be a JSON object"))

def validateListNamespacesOp (op : StoreListNamespacesOp) : Result Unit :=
  op.matchConditions.forM validateStoreNamespaceMatchCondition

/-! ## 3. Filters -/

/-- How the JSON library compares: `==`, and the order of two numbers as doubles, which NaN has
    none in. -/
structure JsonOrder where
  equal : Json → Json → Bool
  compareNumbers : Json → Json → Option Ordering

/-- The comparison for values whose numbers are integers. -/
def JsonOrder.ofIntegers : JsonOrder where
  equal a b := a = b
  compareNumbers
    | .int a, .int b => some (compare a b)
    | _, _ => none

def Json.isNumber : Json → Bool
  | .int _ | .float _ | .nonFinite => true
  | _ => false

def startsWithDollar (key : Bytes) : Bool := key.head? = some 36

variable (order : JsonOrder)

def applyStoreFilterOperator (itemValue : Json) (op : Bytes) (expected : Json) : Result Bool :=
  if op = lit "$eq" then .ok (order.equal itemValue expected)
  else if op = lit "$ne" then .ok (!order.equal itemValue expected)
  else if !itemValue.isNumber || !expected.isNumber then .ok false
  else
    let found := order.compareNumbers itemValue expected
    if op = lit "$gt" then .ok (found = some .gt)
    else if op = lit "$gte" then .ok (found = some .gt || found = some .eq)
    else if op = lit "$lt" then .ok (found = some .lt)
    else if op = lit "$lte" then .ok (found = some .lt || found = some .eq)
    else .error (.invalidArgument (lit "unsupported store filter operator: " ++ op))

def isStoreFilterOperatorObject : Json → Bool
  | .obj fields => fields.any fun entry => startsWithDollar entry.1
  | _ => false

/-- The loop over the operators of an operator object; it ends at the first that does not hold. -/
def applyStoreFilterOperators (itemValue : Json) : JsonObject → Result Bool
  | [] => .ok true
  | (op, expected) :: fields => do
    let matched ← applyStoreFilterOperator order itemValue op expected
    if matched then applyStoreFilterOperators itemValue fields else return false

mutual
def compareStoreFilterValue : Json → Json → Result Bool
  | itemValue, .obj fields =>
    if isStoreFilterOperatorObject (.obj fields) then
      applyStoreFilterOperators order itemValue fields
    else if !itemValue.isObject then .ok false
    else compareStoreFilterObject itemValue fields
  | .arr values, .arr items =>
    if values.length ≠ items.length then .ok false else compareStoreFilterArray values items
  | _, .arr _ => .ok false
  | itemValue, filterValue => .ok (order.equal itemValue filterValue)
def compareStoreFilterObject : Json → JsonObject → Result Bool
  | _, [] => .ok true
  | itemValue, (key, expected) :: fields =>
    if startsWithDollar key then
      .error (.invalidArgument (lit "store filter operator cannot be mixed with field names"))
    else do
      let matched ← compareStoreFilterValue ((itemValue.field key).getD .null) expected
      if matched then compareStoreFilterObject itemValue fields else return false
def compareStoreFilterArray : List Json → List Json → Result Bool
  | value :: values, expected :: items => do
    let matched ← compareStoreFilterValue value expected
    if matched then compareStoreFilterArray values items else return false
  | _, _ => .ok true
end

/-- The loop over the fields of a filter; a field the value lacks counts as null. -/
def storeValueMatchesFields (value : Json) : JsonObject → Result Bool
  | [] => .ok true
  | (key, expected) :: fields => do
    let matched ← compareStoreFilterValue order ((value.field key).getD .null) expected
    if matched then storeValueMatchesFields value fields else return false

def storeItemMatchesFilter {τ : Type} (item : StoreItem τ) : Option Json → Result Bool
  | none => .ok true
  | some (.obj fields) => storeValueMatchesFields order item.value fields
  | some _ => .error (.invalidArgument (lit "store search filter must be a JSON object"))

theorem storeItemMatchesFilter_timeless {τ : Type} (item : StoreItem τ) (filter : Option Json) :
    storeItemMatchesFilter order item.timeless filter = storeItemMatchesFilter order item filter := by
  cases filter with
  | none => rfl
  | some filter => cases filter <;> rfl

/-! ## 4. Pages -/

/-- What a search has collected and how many items it has skipped. -/
structure StoreSearchState (τ : Type) where
  out : List (StoreItem τ) := []
  skipped : Nat := 0

def StoreSearchState.take {τ : Type} (op : StoreSearchOp) (search : StoreSearchState τ)
    (item : StoreItem τ) : StoreSearchState τ :=
  if search.skipped < op.offset then { search with skipped := search.skipped + 1 }
  else { search with out := search.out ++ [item] }

/-- A search looks at one more item, unless its page is already full. -/
def StoreSearchState.visit {τ : Type} (op : StoreSearchOp) (search : StoreSearchState τ)
    (item : StoreItem τ) : Result (StoreSearchState τ) :=
  if op.limit ≤ search.out.length then .ok search
  else do
    let matched ← storeItemMatchesFilter order item op.filter
    return if matched then search.take op item else search

/-- `emitted.resize(maxDepth)` for a namespace that is deeper. -/
def StoreListNamespacesOp.emitted (op : StoreListNamespacesOp) (nameSpace : StoreNamespace) :
    StoreNamespace :=
  match op.maxDepth with
  | none => nameSpace
  | some depth => nameSpace.take depth

/-- The set of the namespaces that are emitted, in order. -/
def StoreListNamespacesOp.emittedSet (op : StoreListNamespacesOp) (stored : List StoreNamespace) :
    List (StoreNamespace × Unit) :=
  OrderedMap.merge [] ((stored.filter (storeNamespaceMatchesAll · op.matchConditions)).map
    fun nameSpace => (op.emitted nameSpace, ()))

/-- The page of the emitted namespaces that is asked for. -/
def StoreListNamespacesOp.page (op : StoreListNamespacesOp) (stored : List StoreNamespace) :
    List StoreNamespace :=
  (((op.emittedSet stored).map Prod.fst).drop op.offset).take op.limit

/-! ## 5. The first pass over a batch -/

section FirstPass

variable {τ : Type} (answer : StoreOp → Result (StoreBatchResult τ))

def StoreOp.write? : StoreOp → Option StorePutOp
  | .put op => some op
  | _ => none

/-- `pendingPuts[{ put.namespace, put.key }] = put` for an operation that writes. -/
def StoreOp.addWrite (pending : List (StoreSlot × StorePutOp)) :
    StoreOp → List (StoreSlot × StorePutOp)
  | .put op => OrderedMap.set op.slot op pending
  | _ => pending

/-- One operation: its result, and its write in place of an earlier one to the same item. -/
def batchStep (acc : List (StoreBatchResult τ) × List (StoreSlot × StorePutOp)) (op : StoreOp) :
    Result (List (StoreBatchResult τ) × List (StoreSlot × StorePutOp)) := do
  let result ← answer op
  return (acc.1 ++ [result], op.addWrite acc.2)

/-- The loop over the operations of a batch, which both stores make: nothing is written here. -/
def batchResults (ops : List StoreOp) :
    Result (List (StoreBatchResult τ) × List (StoreSlot × StorePutOp)) :=
  ops.foldlM (batchStep answer) ([], [])

def pendingPuts (ops : List StoreOp) : List (StoreSlot × StorePutOp) :=
  OrderedMap.merge [] ((ops.filterMap StoreOp.write?).map fun put => (put.slot, put))

def lastWrite (slot : StoreSlot) (ops : List StoreOp) : Option StorePutOp :=
  (ops.filterMap StoreOp.write?).reverse.find? fun put => put.slot = slot

theorem foldlM_batchStep {ops : List StoreOp}
    {acc : List (StoreBatchResult τ) × List (StoreSlot × StorePutOp)} :
    ops.foldlM (batchStep answer) acc = (ops.mapM answer).map fun results =>
      (acc.1 ++ results,
        merge acc.2 ((ops.filterMap StoreOp.write?).map fun put => (put.slot, put))) := by
  induction ops generalizing acc with
  | nil =>
    rw [mapM_nil]
    change Except.ok acc = Except.ok (acc.1 ++ [], acc.2)
    rw [append_nil]
  | cons op ops ih =>
    rw [foldlM_cons, mapM_cons, batchStep]
    cases answer op with
    | error => rfl
    | ok result =>
      rw [ok_bind]
      change ops.foldlM (batchStep answer) (acc.1 ++ [result], op.addWrite acc.2) = _
      rw [ih, ok_bind]
      cases ops.mapM answer with
      | error => rfl
      | ok =>
        refine congrArg Except.ok (Prod.ext (append_assoc ..) ?_)
        cases op <;> rfl

theorem batchResults_eq (ops : List StoreOp) :
    batchResults answer ops = (ops.mapM answer).map fun results => (results, pendingPuts ops) :=
  foldlM_batchStep answer

end FirstPass

theorem pendingPuts_increasing (ops : List StoreOp) : Increasing (pendingPuts ops) :=
  Increasing.merge .nil _

theorem slot_of_mem_pendingPuts {ops : List StoreOp} {entry : StoreSlot × StorePutOp}
    (h : entry ∈ pendingPuts ops) : entry.2.slot = entry.1 ∧ .put entry.2 ∈ ops := by
  rcases mem_merge h with hnil | hmem
  · cases hnil
  · obtain ⟨put, hput, rfl⟩ := mem_map.mp hmem
    obtain ⟨op, hop, hwrite⟩ := mem_filterMap.mp hput
    cases op <;> cases hwrite
    exact ⟨rfl, hop⟩

theorem find_map_slot (slot : StoreSlot) (puts : List StorePutOp) :
    find slot (puts.map fun put => (put.slot, put)) = puts.find? fun put => put.slot = slot := by
  induction puts with
  | nil => rfl
  | cons put puts ih =>
    rw [map_cons, find_cons, find?_cons]
    by_cases h : put.slot = slot
    · simp [h]
    · simp [h, ih]

theorem find_pendingPuts (slot : StoreSlot) (ops : List StoreOp) :
    find slot (pendingPuts ops) = lastWrite slot ops := by
  rw [pendingPuts, find_merge, ← map_reverse, find_map_slot, lastWrite]
  exact Option.or_none

theorem mem_of_lastWrite {slot : StoreSlot} {ops : List StoreOp} {put : StorePutOp}
    (h : lastWrite slot ops = some put) : put.slot = slot ∧ .put put ∈ ops := by
  rw [← find_pendingPuts, (pendingPuts_increasing ops).find_eq_some_iff] at h
  exact slot_of_mem_pendingPuts h

/-! ## 6. What a page holds -/

def StoreSearchOp.accepts {τ : Type} (op : StoreSearchOp) (item : StoreItem τ) : Bool :=
  storeItemMatchesFilter order item op.filter = .ok true

theorem foldlM_visit {τ : Type} {op : StoreSearchOp} {items : List (StoreItem τ)}
    {before after : StoreSearchState τ}
    (h : items.foldlM (StoreSearchState.visit order op) before = .ok after) :
    after.out = before.out ++ ((items.filter (op.accepts order)).drop (op.offset - before.skipped)).take
      (op.limit - before.out.length) := by
  induction items generalizing before with
  | nil =>
    cases h; simp
  | cons item items ih =>
    rw [foldlM_cons, bind_eq_ok] at h
    obtain ⟨next, hvisit, h⟩ := h
    rw [ih h]
    unfold StoreSearchState.visit at hvisit
    split_ifs at hvisit with hfull
    · -- the page is full: nothing is taken from the items left
      cases hvisit; simp [Nat.sub_eq_zero_of_le hfull]
    · obtain ⟨matched, hmatched, hvisit⟩ := of_bind hvisit
      cases hvisit
      cases matched with
      | false => rw [filter_cons_of_neg (by simp [StoreSearchOp.accepts, hmatched])]; rfl
      | true =>
        rw [filter_cons_of_pos (by simp [StoreSearchOp.accepts, hmatched]), if_pos rfl,
          StoreSearchState.take]
        split_ifs with hskip
        · rw [show op.offset - before.skipped = op.offset - (before.skipped + 1) + 1 by omega,
            drop_succ_cons]
        · rw [Nat.sub_eq_zero_of_le (Nat.le_of_not_lt hskip), drop_zero, drop_zero,
            show op.limit - before.out.length = op.limit - (before.out ++ [item]).length + 1 by
              rw [length_append, length_singleton]; omega,
            take_succ_cons, append_assoc]
          rfl

theorem StoreListNamespacesOp.emittedSet_increasing (op : StoreListNamespacesOp)
    (stored : List StoreNamespace) : Increasing (op.emittedSet stored) :=
  Increasing.merge .nil _

theorem StoreListNamespacesOp.mem_emittedSet_iff {op : StoreListNamespacesOp}
    {stored : List StoreNamespace} {entry : StoreNamespace × Unit} :
    entry ∈ op.emittedSet stored ↔ ∃ found ∈ stored,
      storeNamespaceMatchesAll found op.matchConditions = true ∧ op.emitted found = entry.1 := by
  rw [← (op.emittedSet_increasing stored).find_eq_some_iff, emittedSet, find_merge,
    show find entry.1 ([] : List (StoreNamespace × Unit)) = none from rfl,
    Option.or_none]
  constructor
  · intro h
    by_contra hnone
    have hfind : find entry.1 ((stored.filter
        (storeNamespaceMatchesAll · op.matchConditions)).map
          fun nameSpace => (op.emitted nameSpace, ())).reverse = none := by
      refine find_eq_none_iff.mpr fun other hother heq => ?_
      obtain ⟨found, hfound, rfl⟩ := mem_map.mp (mem_reverse.mp hother)
      obtain ⟨hstored, hmatches⟩ := mem_filter.mp hfound
      exact hnone ⟨found, hstored, hmatches, heq⟩
    rw [hfind] at h; cases h
  · rintro ⟨found, hstored, hmatches, heq⟩
    cases hfind : find entry.1 ((stored.filter
        (storeNamespaceMatchesAll · op.matchConditions)).map
          fun nameSpace => (op.emitted nameSpace, ())).reverse with
    | none =>
      refine absurd heq (find_eq_none_iff.mp hfind (op.emitted found, ()) ?_)
      exact mem_reverse.mpr
        (mem_map.mpr ⟨found, mem_filter.mpr ⟨hstored, hmatches⟩, rfl⟩)
    | some _ => rfl

/-- A page of the namespaces: they are in order, each of them once, and each of them is what the
    operation emits for a stored namespace that meets its conditions. -/
theorem StoreListNamespacesOp.page_spec (op : StoreListNamespacesOp)
    (stored : List StoreNamespace) :
    ∃ emitted : List StoreNamespace, emitted.Pairwise (· < ·) ∧
      (∀ nameSpace, nameSpace ∈ emitted ↔ ∃ found ∈ stored,
        storeNamespaceMatchesAll found op.matchConditions = true ∧ op.emitted found = nameSpace) ∧
      op.page stored = (emitted.drop op.offset).take op.limit := by
  refine ⟨(op.emittedSet stored).map Prod.fst,
    pairwise_map.mpr (op.emittedSet_increasing stored), fun nameSpace => ?_, rfl⟩
  rw [mem_map]
  constructor
  · rintro ⟨entry, hentry, rfl⟩; exact mem_emittedSet_iff.mp hentry
  · intro h; exact ⟨(nameSpace, ()), mem_emittedSet_iff.mpr h, rfl⟩

theorem StoreListNamespacesOp.page_congr (op : StoreListNamespacesOp)
    {stored stored' : List StoreNamespace} (h : ∀ nameSpace, nameSpace ∈ stored ↔ nameSpace ∈ stored') :
    op.page stored = op.page stored' := by
  have hset : op.emittedSet stored = op.emittedSet stored' := by
    refine (op.emittedSet_increasing stored).ext_mem (op.emittedSet_increasing stored') ?_
    intro entry
    simp only [mem_emittedSet_iff, h]
  rw [page, page, hset]

/-! ## 7. Without the times -/

def StoreSearchState.timeless {τ : Type} (search : StoreSearchState τ) : StoreSearchState Unit where
  out := search.out.map StoreItem.timeless
  skipped := search.skipped

theorem StoreSearchState.timeless_take {τ : Type} (op : StoreSearchOp) (search : StoreSearchState τ)
    (item : StoreItem τ) : (search.take op item).timeless = search.timeless.take op item.timeless := by
  unfold StoreSearchState.take
  split_ifs with h h' h'
  · rfl
  · exact absurd h h'
  · exact absurd h' h
  · exact congrArg₂ StoreSearchState.mk map_append rfl

theorem StoreSearchState.timeless_visit {τ : Type} {op : StoreSearchOp}
    {search next : StoreSearchState τ} {item : StoreItem τ}
    (h : search.visit order op item = .ok next) :
    search.timeless.visit order op item.timeless = .ok next.timeless := by
  have hlength : search.timeless.out.length = search.out.length := length_map _
  unfold StoreSearchState.visit at h ⊢
  rw [hlength, storeItemMatchesFilter_timeless]
  split_ifs at h ⊢ with hfull
  · cases h; rfl
  · obtain ⟨matched, hmatched, h⟩ := of_bind h
    cases h
    rw [hmatched]
    cases matched with
    | false => rfl
    | true => exact congrArg Except.ok (search.timeless_take op item).symm

end LangGraph
