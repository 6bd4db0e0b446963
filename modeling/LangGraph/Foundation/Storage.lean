import LangGraph.Foundation.Status
import LangGraph.Lib.ExceptList
import LangGraph.Lib.OrderedMap

/-!
# Key-value storage

`MemoryStorage`, the ordered map behind the `IStorage` interface: checks of names and sizes, single
key operations, and listings that return one page at a time.  Versions and time stamps of the items
are left out, as no saver reads them.  A storage carries the proof that its items stand in key
order, from which section 3 derives that a loop over the pages sees every matching item once.
-/

namespace LangGraph

open ExceptList List

/-! ## 1. Keys and limits -/

structure StorageKey where
  scope : Bytes
  key : Bytes
deriving DecidableEq

instance : LT StorageKey := ⟨fun a b => a.scope < b.scope ∨ a.scope = b.scope ∧ a.key < b.key⟩

instance : DecidableLT StorageKey := fun a b =>
  inferInstanceAs (Decidable (a.scope < b.scope ∨ a.scope = b.scope ∧ a.key < b.key))

instance : IsStrictTotalOrder StorageKey (· < ·) :=
  OrderedMap.isStrictTotalOrder_of_parts ⟨fun a => (a.scope, a.key), by
    rintro ⟨⟩ ⟨⟩ h
    cases h; rfl⟩ Prod.lex_def

inductive StoragePutMode where
  | upsert
  | insertOnly
  | replaceOnly
deriving DecidableEq

/-- Zero means no limit, except for the length of a page, which is never zero. -/
structure StorageLimits where
  maxScopeBytes : Nat := 256
  maxKeyBytes : Nat := 1024
  maxValueBytes : Nat := 64 * 1024 * 1024
  maxListItems : Nat := 1000
  maxItems : Nat := 100000

/-- ASCII letters and digits, and the characters `_ - . / : @ =`. -/
def validStorageNameChar (ch : UInt8) : Bool :=
  (48 ≤ ch && ch ≤ 57) || (65 ≤ ch && ch ≤ 90) || (97 ≤ ch && ch ≤ 122) || ch ∈ lit "_-./:@="

def validateStorageName (value label : Bytes) (maxBytes : Nat) : Result Unit :=
  if value = [] then .error (.invalidArgument (label ++ lit " cannot be empty"))
  else if maxBytes ≠ 0 ∧ maxBytes < value.length then
    .error (.invalidArgument (label ++ lit " is too long"))
  else if value.any fun ch => !validStorageNameChar ch then
    .error (.invalidArgument (label ++ lit " contains invalid characters"))
  else .ok ()

def validateStorageKey (limits : StorageLimits) (key : StorageKey) : Result Unit := do
  validateStorageName key.scope (lit "storage scope") limits.maxScopeBytes
  validateStorageName key.key (lit "storage key") limits.maxKeyBytes

def validateStorageValue (limits : StorageLimits) (value : Bytes) : Result Unit :=
  if limits.maxValueBytes ≠ 0 ∧ limits.maxValueBytes < value.length then
    .error (.resourceExhausted (lit "storage value is too large"))
  else .ok ()

/-- A cursor of the source is the text of the last key of a page, which it reads back as that key
    before it is used. -/
structure StorageListOptions where
  scope : Bytes
  keyPrefix : Bytes
  limit : Nat := 100
  cursor : Option StorageKey := none

def validateOptionalName (value label : Bytes) (maxBytes : Nat) : Result Unit :=
  if value = [] then .ok () else validateStorageName value label maxBytes

def validateStorageListOptions (limits : StorageLimits) (options : StorageListOptions) :
    Result Unit := do
  validateOptionalName options.scope (lit "storage scope") limits.maxScopeBytes
  validateOptionalName options.keyPrefix (lit "storage key prefix") limits.maxKeyBytes
  require (options.limit ≠ 0)
    (.invalidArgument (lit "storage list limit must be greater than zero"))
  require (limits.maxListItems = 0 || options.limit ≤ limits.maxListItems)
    (.resourceExhausted (lit "storage list limit is too large"))

def storageKeyMatchesListOptions (key : StorageKey) (options : StorageListOptions) : Bool :=
  (options.scope.isEmpty || key.scope = options.scope)
    && (options.keyPrefix.isEmpty || options.keyPrefix.isPrefixOf key.key)

theorem storageKeyMatchesListOptions_iff {options : StorageListOptions} (hscope : options.scope ≠ [])
    {key : StorageKey} :
    storageKeyMatchesListOptions key options = true ↔
      key.scope = options.scope ∧ options.keyPrefix <+: key.key := by
  unfold storageKeyMatchesListOptions
  simp only [Bool.and_eq_true, Bool.or_eq_true, List.isEmpty_iff, decide_eq_true_eq,
    List.isPrefixOf_iff_prefix, hscope, false_or]
  refine and_congr_right fun _ => ⟨?_, .inr⟩
  rintro (h | h)
  · rw [h]; exact nil_prefix
  · exact h

/-! ## 2. The storage -/

structure MemoryStorage where
  items : List (StorageKey × Bytes)
  increasing : OrderedMap.Increasing items

structure StorageListResult where
  items : List (StorageKey × Bytes)
  nextCursor : Option StorageKey

namespace MemoryStorage

def empty : MemoryStorage := ⟨[], .nil⟩

def find (key : StorageKey) (storage : MemoryStorage) : Option Bytes :=
  OrderedMap.find key storage.items

def set (key : StorageKey) (value : Bytes) (storage : MemoryStorage) : MemoryStorage :=
  ⟨OrderedMap.set key value storage.items, storage.increasing.set key value⟩

def erase (key : StorageKey) (storage : MemoryStorage) : MemoryStorage :=
  ⟨OrderedMap.erase key storage.items, storage.increasing.erase key⟩

variable (limits : StorageLimits)

/-- The storage after a put; a put that fails leaves it as it is. -/
def put (key : StorageKey) (value : Bytes) (mode : StoragePutMode) (storage : MemoryStorage) :
    Result MemoryStorage := do
  validateStorageKey limits key
  validateStorageValue limits value
  let isStored := (storage.find key).isSome
  require (!(mode = .insertOnly && isStored)) (.alreadyExists (lit "storage item already exists"))
  require (!(mode = .replaceOnly && !isStored)) (.notFound (lit "storage item does not exist"))
  require (isStored || limits.maxItems = 0 || storage.items.length < limits.maxItems)
    (.resourceExhausted (lit "memory storage item limit exceeded"))
  return storage.set key value

def get (key : StorageKey) (storage : MemoryStorage) : Result (Option Bytes) := do
  validateStorageKey limits key
  return storage.find key

def remove (key : StorageKey) (storage : MemoryStorage) : Result MemoryStorage := do
  validateStorageKey limits key
  return storage.erase key

/-- One page: the first matching items behind the cursor, and a cursor if there are more. -/
def list (options : StorageListOptions) (storage : MemoryStorage) : Result StorageListResult := do
  validateStorageListOptions limits options
  let matching := storage.items.filter fun item =>
    options.cursor.all (· < item.1) && storageKeyMatchesListOptions item.1 options
  let page := matching.take options.limit
  return {
    items := page
    nextCursor := if options.limit < matching.length then page.getLast?.map Prod.fst else none }

section Scan

variable {β : Type} (options : StorageListOptions) (visit : β → StorageKey × Bytes → Result β)

/-- The loop over the pages of a listing that every scan makes: `visit` sees the items one after
    another and may stop the scan.  `pages` bounds the number of pages still to be read. -/
def scanFrom (storage : MemoryStorage) : Nat → Option StorageKey → β → Result β
  | 0, _, acc => .ok acc
  | pages + 1, cursor, acc => do
    let page ← storage.list limits { options with cursor := cursor }
    let acc ← page.items.foldlM visit acc
    match page.nextCursor with
    | none => return acc
    | some next => scanFrom storage pages (some next) acc

/-- A scan from the start.  A page holds at least one item, so there are at most as many pages as
    items, and an empty last one. -/
def scan (storage : MemoryStorage) (acc : β) : Result β :=
  storage.scanFrom limits options visit (storage.items.length + 1) none acc

end Scan

/-! ## 3. A scan sees every matching item once, in key order -/

def matching (options : StorageListOptions) (storage : MemoryStorage) : List (StorageKey × Bytes) :=
  storage.items.filter fun item => storageKeyMatchesListOptions item.1 options

theorem find_set_self (key : StorageKey) (value : Bytes) (storage : MemoryStorage) :
    (storage.set key value).find key = some value :=
  OrderedMap.find_set_self key value storage.items

variable {key : StorageKey} {storage next : MemoryStorage} {value : Bytes}
  {options : StorageListOptions} {cursor : Option StorageKey}

theorem find_set_ne {other : StorageKey} (h : key ≠ other) (value : Bytes)
    (storage : MemoryStorage) : (storage.set key value).find other = storage.find other :=
  OrderedMap.find_set_ne h value storage.items

theorem find_erase_self (key : StorageKey) (storage : MemoryStorage) :
    (storage.erase key).find key = none :=
  OrderedMap.find_erase_self key storage.items

theorem find_erase_ne {other : StorageKey} (h : key ≠ other) (storage : MemoryStorage) :
    (storage.erase key).find other = storage.find other :=
  OrderedMap.find_erase_ne h storage.items

theorem mem_items_iff : (key, value) ∈ storage.items ↔ storage.find key = some value :=
  storage.increasing.find_eq_some_iff.symm

theorem mem_matching_iff :
    (key, value) ∈ storage.matching options ↔
      storage.find key = some value ∧ storageKeyMatchesListOptions key options = true := by
  rw [matching, mem_filter, mem_items_iff]

variable {limits}

theorem validateStorageValue_ok_iff :
    validateStorageValue limits value = .ok () ↔
      limits.maxValueBytes = 0 ∨ value.length ≤ limits.maxValueBytes := by
  unfold validateStorageValue
  split_ifs with h <;> simp <;> omega

theorem put_ok {mode : StoragePutMode} (h : storage.put limits key value mode = .ok next) :
    validateStorageKey limits key = .ok () ∧ next = storage.set key value := by
  obtain ⟨⟨⟩, hkey, h⟩ := of_bind h
  obtain ⟨-, -, h⟩ := of_bind h
  obtain ⟨-, -, h⟩ := of_bind h
  obtain ⟨-, -, h⟩ := of_bind h
  obtain ⟨-, -, h⟩ := of_bind h
  exact ⟨hkey, (Except.ok.inj h).symm⟩

/-- An upsert is refused only for a key or a value beyond the limits, or for want of room. -/
theorem upsert_ok_iff : storage.put limits key value .upsert = .ok next ↔
    validateStorageKey limits key = .ok () ∧
      (limits.maxValueBytes = 0 ∨ value.length ≤ limits.maxValueBytes) ∧
      (storage.find key = none → limits.maxItems = 0 ∨ storage.items.length < limits.maxItems) ∧
      next = storage.set key value := by
  rw [← validateStorageValue_ok_iff, put]
  cases validateStorageKey limits key with
  | error => simp [bind_eq_ok]
  | ok =>
    cases validateStorageValue limits value with
    | error => simp [bind_eq_ok]
    | ok =>
      cases storage.find key <;>
        simp [require_bind_eq_ok, or_comm, @eq_comm _ next, Pure.pure, Except.pure]

theorem absent_of_insert (h : storage.put limits key value .insertOnly = .ok next) :
    storage.find key = none := by
  obtain ⟨⟨⟩, -, h⟩ := of_bind h
  obtain ⟨⟨⟩, -, h⟩ := of_bind h
  obtain ⟨⟨⟩, h, -⟩ := of_bind h
  by_contra hstored
  have hsome : (storage.find key).isSome = true := Option.isSome_iff_ne_none.mpr hstored
  simp [hsome] at h

theorem remove_ok (h : storage.remove limits key = .ok next) :
    validateStorageKey limits key = .ok () ∧ next = storage.erase key := by
  obtain ⟨⟨⟩, hkey, h⟩ := of_bind h
  exact ⟨hkey, (Except.ok.inj h).symm⟩

theorem limit_pos (h : validateStorageListOptions limits options = .ok ()) : 0 < options.limit := by
  unfold validateStorageListOptions at h
  obtain ⟨_, -, h⟩ := of_bind h
  obtain ⟨_, -, h⟩ := of_bind h
  obtain ⟨⟨⟩, h, -⟩ := of_bind h
  exact Nat.pos_of_ne_zero (by simpa using h)

def behind (cursor : Option StorageKey) (matching : List (StorageKey × Bytes)) :
    List (StorageKey × Bytes) :=
  matching.filter fun item => cursor.all (· < item.1)

theorem list_ok (h : validateStorageListOptions limits options = .ok ()) (storage : MemoryStorage) :
    storage.list limits { options with cursor := cursor } = .ok
      { items := (behind cursor (storage.matching options)).take options.limit
        nextCursor :=
          if options.limit < (behind cursor (storage.matching options)).length then
            ((behind cursor (storage.matching options)).take options.limit).getLast?.map Prod.fst
          else none } := by
  have hvalid : validateStorageListOptions limits { options with cursor := cursor } = .ok () := h
  rw [list, hvalid, matching, behind, filter_filter]; rfl

theorem behind_last {matching before after : List (StorageKey × Bytes)} {last : StorageKey × Bytes}
    (hm : OrderedMap.Increasing matching) (h : behind cursor matching = before ++ last :: after) :
    behind (some last.1) matching = after := by
  have hlast : cursor.all (· < last.1) = true := by
    have hmem : last ∈ behind cursor matching := h ▸ by simp
    exact (mem_filter.mp hmem).2
  -- a key above the last one is above the cursor too
  have habove : ∀ item : StorageKey × Bytes, last.1 < item.1 → cursor.all (· < item.1) = true := by
    intro item hitem
    cases cursor with
    | none => rfl
    | some => exact decide_eq_true (trans_of (· < ·) (of_decide_eq_true hlast) hitem)
  have hsub : behind (some last.1) matching =
      (behind cursor matching).filter fun item => last.1 < item.1 := by
    rw [behind, behind, filter_filter]
    refine filter_congr fun item _ => ?_
    by_cases hitem : last.1 < item.1
    · simp [habove item hitem]
    · simp [hitem]
  rw [hsub, h]; exact OrderedMap.Increasing.filter_greater (h ▸ hm.filter _)

theorem scanFrom_eq {β : Type} (h : validateStorageListOptions limits options = .ok ())
    (visit : β → StorageKey × Bytes → Result β) (storage : MemoryStorage) {pages : Nat}
    (hpages : (behind cursor (storage.matching options)).length < pages) (acc : β) :
    storage.scanFrom limits options visit pages cursor acc =
      (behind cursor (storage.matching options)).foldlM visit acc := by
  induction pages generalizing cursor acc with
  | zero => omega
  | succ pages ih =>
    have hlimit := limit_pos h
    rw [scanFrom, list_ok h, ok_bind]
    generalize hrest : behind cursor (storage.matching options) = rest at hpages
    dsimp only
    by_cases hmore : options.limit < rest.length
    · -- the page is full: its last key is the cursor from which the rest is read
      have hpage : rest.take options.limit ≠ [] := by
        rw [ne_eq, take_eq_nil_iff, not_or, ← length_eq_zero_iff]; omega
      have hsplit : rest = (rest.take options.limit).dropLast ++
          (rest.take options.limit).getLast hpage :: rest.drop options.limit := by
        rw [append_cons, dropLast_append_getLast, take_append_drop]
      have hnext := behind_last (storage.increasing.filter _) (hrest.trans hsplit)
      rw [if_pos hmore, getLast?_eq_some_getLast hpage]
      have hdrop : (rest.drop options.limit).length < pages := by rw [length_drop]; omega
      nth_rewrite 3 [← take_append_drop options.limit rest]
      rw [foldlM_append]
      congr 1
      funext acc
      rw [← hnext] at hdrop ⊢; exact ih hdrop acc
    · rw [if_neg hmore, take_of_length_le (by omega)]; exact bind_pure _

theorem scan_eq {β : Type} (options : StorageListOptions)
    (visit : β → StorageKey × Bytes → Result β) (storage : MemoryStorage) (acc : β) :
    storage.scan limits options visit acc =
      (do validateStorageListOptions limits options
          (storage.matching options).foldlM visit acc) := by
  cases hvalid : validateStorageListOptions limits options with
  | error status =>
    have hlist : validateStorageListOptions limits { options with cursor := none } = .error status :=
      hvalid
    rw [scan, scanFrom, list, hlist]; rfl
  | ok =>
    have hall : behind none (storage.matching options) = storage.matching options :=
      filter_eq_self.mpr fun _ _ => rfl
    rw [scan, scanFrom_eq hvalid, hall]
    · rfl
    · rw [hall]; exact Nat.lt_succ_of_le (length_filter_le ..)

end MemoryStorage

end LangGraph
