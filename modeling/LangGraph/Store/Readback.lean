import LangGraph.Store.Filters
import LangGraph.Store.StorageBatch

/-!
# Reading back what was stored

`StorageStore` writes an item without a look at its size or depth and reads it with the default
limits on JSON text.  An item beyond them is stored for good and cannot be read: not by a `get`,
and not by any scan that comes across it.  An item that can be read still makes a search fail if its
filter fails on it.
-/

namespace LangGraph

open ByteString KeyPath ExceptList OrderedMap List Nat

/-! ## 1. A storage without one of its items -/

def TimedStorage.without (key : StorageKey) (s : TimedStorage) : TimedStorage :=
  { s with storage := s.storage.erase key }

namespace StorageStore

variable {store : StorageStore} (order : JsonOrder)

theorem view_without_self (key : StorageKey) (s : TimedStorage) :
    store.view (s.without key) key = none := by
  rw [view, TimedStorage.find, TimedStorage.without, MemoryStorage.find_erase_self]
  rfl

variable {key : StorageKey} {op : StoreSearchOp} {item : StoreItem StoreTimes}
  {search : StoreSearchState StoreTimes}

theorem view_without_ne {other : StorageKey} (h : key ≠ other) (s : TimedStorage) :
    store.view (s.without key) other = store.view s other := by
  have hfind : (s.without key).find other = s.find other := MemoryStorage.find_erase_ne h _
  rw [view, view, hfind]; rfl

theorem views_without (key : StorageKey) (s : TimedStorage) (keyPrefix : Bytes) :
    store.views (s.without key) keyPrefix =
      (store.views s keyPrefix).filter fun found => found.1 ≠ key := by
  have hincreasing : ∀ s, Increasing (store.views s keyPrefix) := fun s =>
    pairwise_map.mpr (s.storage.increasing.filter _)
  refine (hincreasing _).ext ((hincreasing s).filter _) fun other => ?_
  rw [find_views]
  by_cases h : key = other
  · subst h
    rw [view_without_self, ite_self]
    refine (find_eq_none_iff.mpr fun found hfound => ?_).symm
    simpa using (mem_filter.mp hfound).2
  · rw [view_without_ne h, find_filter (p := fun k => decide (k ≠ key))
      (by simpa using Ne.symm h), find_views]

/-! ## 2. One more item in the way of a scan -/

def Behind (a b : StoreSearchState StoreTimes) : Prop :=
  a.out.length ≤ b.out.length ∧ a.skipped ≤ b.skipped

theorem Behind.take {a b : StoreSearchState StoreTimes} (h : Behind a b) (op : StoreSearchOp)
    (item : StoreItem StoreTimes) : Behind (a.take op item) (b.take op item) := by
  obtain ⟨hout, hskipped⟩ := h
  unfold StoreSearchState.take
  split_ifs with ha hb hb
  · exact ⟨hout, succ_le_succ hskipped⟩
  · refine ⟨?_, Nat.le_trans ha (Nat.le_of_not_lt hb)⟩
    rw [length_append]; exact le_add_right_of_le hout
  · exact absurd (lt_of_le_of_lt hskipped hb) ha
  · refine ⟨?_, hskipped⟩
    rw [length_append, length_append]; exact Nat.add_le_add_right hout _

theorem behind_take (a : StoreSearchState StoreTimes) (op : StoreSearchOp)
    (item : StoreItem StoreTimes) : Behind a (a.take op item) := by
  unfold StoreSearchState.take
  split_ifs
  · exact ⟨le_refl _, le_succ _⟩
  · refine ⟨?_, le_refl _⟩
    rw [length_append]; exact le_add_right _ _

/-- A visit that is not at the end of its page comes back if the item can be read and the filter
    evaluated. -/
theorem visitView_ok {found : StorageKey × Result (StoreItem StoreTimes)}
    (hfound : found.2 = .ok item) {matched : Bool}
    (hmatched : storeItemMatchesFilter order item op.filter = .ok matched)
    (hfull : ¬op.limit ≤ search.out.length) :
    visitView order op search found = .ok (if matched then search.take op item else search) := by
  rw [visitView, if_neg hfull, hfound, ok_bind, StoreSearchState.visit, if_neg hfull, hmatched]
  rfl

theorem foldlM_visitView_full (hfull : op.limit ≤ search.out.length)
    (found : List (StorageKey × Result (StoreItem StoreTimes))) :
    found.foldlM (visitView order op) search = .ok search := by
  induction found with
  | nil => rfl
  | cons entry found ih => rw [foldlM_cons, visitView, if_pos hfull, ok_bind, ih]

theorem of_visitView_ok {found : StorageKey × Result (StoreItem StoreTimes)}
    {next : StoreSearchState StoreTimes} (hfull : ¬op.limit ≤ search.out.length)
    (h : visitView order op search found = .ok next) :
    ∃ item matched, found.2 = .ok item ∧ storeItemMatchesFilter order item op.filter = .ok matched ∧
      next = if matched then search.take op item else search := by
  rw [visitView, if_neg hfull] at h
  obtain ⟨item, hitem, h⟩ := of_bind h
  rw [StoreSearchState.visit, if_neg hfull] at h
  obtain ⟨matched, hmatched, h⟩ := of_bind h
  exact ⟨item, matched, hitem, hmatched, (Except.ok.inj h).symm⟩

/-- A search that comes back without an item comes back with it if the item can be read and the
    filter evaluated on it: its page only fills up earlier. -/
theorem search_with_item
    (heval : ∃ matched, storeItemMatchesFilter order item op.filter = .ok matched)
    {found : List (StorageKey × Result (StoreItem StoreTimes))}
    (hkey : ∀ entry ∈ found, entry.1 = key → entry.2 = .ok item)
    {a b : StoreSearchState StoreTimes} (hbehind : Behind a b)
    (h : ∃ r, (found.filter fun entry => entry.1 ≠ key).foldlM (visitView order op) a = .ok r) :
    ∃ r, found.foldlM (visitView order op) b = .ok r := by
  induction found generalizing a b with
  | nil => exact ⟨b, rfl⟩
  | cons entry found ih =>
    obtain ⟨hentry, hkey⟩ := forall_mem_cons.mp hkey
    by_cases hfull : op.limit ≤ b.out.length
    · exact ⟨b, foldlM_visitView_full order hfull _⟩
    obtain ⟨r, h⟩ := h
    rw [foldlM_cons]
    by_cases hthis : entry.1 = key
    · -- the item itself: only the second search looks at it
      rw [filter_cons_of_neg (by simp [hthis])] at h
      obtain ⟨matched, hmatched⟩ := heval
      rw [visitView_ok order (hentry hthis) hmatched hfull, ok_bind]
      refine ih hkey ?_ ⟨r, h⟩
      cases matched with
      | false => exact hbehind
      | true =>
        have htake := behind_take b op item
        exact ⟨hbehind.1.trans htake.1, hbehind.2.trans htake.2⟩
    · rw [filter_cons_of_pos (by simp [hthis]), foldlM_cons, bind_eq_ok] at h
      obtain ⟨next, hvisit, h⟩ := h
      have hfullA : ¬op.limit ≤ a.out.length := fun ha => hfull (ha.trans hbehind.1)
      obtain ⟨other, matched, hother, hmatched, rfl⟩ := of_visitView_ok order hfullA hvisit
      rw [visitView_ok order hother hmatched hfull, ok_bind]
      refine ih hkey ?_ ⟨r, h⟩
      cases matched with
      | false => exact hbehind
      | true => exact hbehind.take op other

/-! ## 3. An item that was stored -/

/-- The reads that scan for items. -/
def scans : StoreOp → Bool
  | .search _ | .listNamespaces _ => true
  | _ => false

theorem filter_isObject (h : validateStoreSearchOptions op = .ok ()) :
    op.filter = none ∨ ∃ fields, op.filter = some (.obj fields) := by
  obtain ⟨-, -, h⟩ := of_bind h
  have hobject : op.filter.all Json.isObject = true := require_eq_ok.mp (of_require h).2
  cases hfilter : op.filter with
  | none => exact .inl rfl
  | some filter =>
    rw [hfilter] at hobject
    cases filter with
    | obj fields => exact .inr ⟨fields, rfl⟩
    | _ => cases hobject

variable (store) in
/-- The store can list at all: its pages are within the limits of the storage. -/
def Lists : Prop :=
  store.limits.maxListItems = 0 ∨ store.listPageSize ≤ store.limits.maxListItems

theorem lists_of_ok {keyPrefix : Bytes}
    (h : validateStorageListOptions store.limits (store.listOptions keyPrefix) = .ok ()) :
    store.Lists := by
  obtain ⟨-, -, h⟩ := of_bind h
  obtain ⟨-, -, h⟩ := of_bind h
  have hlimit := require_eq_ok.mp (of_require h).2
  exact ((Bool.or_eq_true _ _).mp hlimit).imp of_decide_eq_true of_decide_eq_true

theorem scan_with_item {s : TimedStorage} (hview : store.view s key = some (.ok item))
    (hoffers : store.Lists → item.value.offersNumber = false) {op : StoreOp} (hop : scans op = true)
    (h : ∃ r, store.answer order (s.without key) op = .ok r) :
    ∃ r, store.answer order s op = .ok r := by
  have hincreasing : ∀ keyPrefix, Increasing (store.views s keyPrefix) := fun _ =>
    pairwise_map.mpr (s.storage.increasing.filter _)
  -- whatever the prefix, the only thing a scan sees at the key is the item
  have hkey : ∀ keyPrefix, ∀ entry ∈ store.views s keyPrefix, entry.1 = key →
      entry.2 = .ok item := by
    rintro keyPrefix ⟨other, found⟩ hentry rfl
    have hfind := (hincreasing keyPrefix).find_eq_some_iff.mpr hentry
    rw [find_views, hview] at hfind
    split_ifs at hfind
    exact (Option.some.inj hfind).symm
  obtain ⟨r, h⟩ := h
  cases op with
  | get | put => cases hop
  | search op =>
    change store.search order op (s.without key) = .ok r at h
    change ∃ r, store.search order op s = .ok r
    unfold search at h ⊢
    obtain ⟨⟨⟩, hvalid, h⟩ := of_bind h
    rw [hvalid, ok_bind]
    split_ifs at h ⊢ with hlimit
    · exact ⟨_, rfl⟩
    · obtain ⟨found, hfound, -⟩ := of_bind h
      rw [searchItems_eq] at hfound ⊢
      obtain ⟨keyPrefix, hbelow, hfound⟩ := of_bind hfound
      obtain ⟨⟨⟩, hlist, hfound⟩ := of_bind hfound
      rw [views_without] at hfound
      -- the one way in which the item could break the search is its filter
      have heval : ∃ matched, storeItemMatchesFilter order item op.filter = .ok matched := by
        rcases filter_isObject hvalid with hnone | ⟨fields, hfilter⟩
        · rw [hnone]; exact ⟨true, rfl⟩
        · rw [hfilter]
          exact storeItemMatchesFilter_total order (hoffers (lists_of_ok hlist)) fields
      obtain ⟨found', hfound'⟩ := search_with_item order heval (hkey keyPrefix)
        ⟨le_refl _, le_refl _⟩ ⟨found, hfound⟩
      rw [hbelow, ok_bind, hlist, ok_bind, hfound']; exact ⟨_, rfl⟩
  | listNamespaces op =>
    change store.listNamespaces op (s.without key) = .ok r at h
    change ∃ r, store.listNamespaces op s = .ok r
    unfold listNamespaces at h ⊢
    obtain ⟨⟨⟩, hvalid, h⟩ := of_bind h
    rw [hvalid, ok_bind]
    split_ifs at h ⊢ with hlimit
    · exact ⟨_, rfl⟩
    · obtain ⟨found, hfound, -⟩ := of_bind h
      rw [listStorageStoreItems_eq] at hfound ⊢
      obtain ⟨⟨⟩, hlist, hfound⟩ := of_bind hfound
      rw [views_without] at hfound
      obtain ⟨found', hfound'⟩ : ∃ r, (store.views s (dir [lit "items"])).mapM Prod.snd = .ok r := by
        refine exists_mapM_eq_ok_iff.mpr fun entry hentry => ?_
        by_cases hthis : entry.1 = key
        · exact ⟨item, hkey _ entry hentry hthis⟩
        · exact exists_mapM_eq_ok_iff.mp ⟨found, hfound⟩ entry
            (mem_filter.mpr ⟨hentry, by simpa using hthis⟩)
      rw [hlist, ok_bind, hfound']; exact ⟨_, rfl⟩

theorem view_of_made {put : StorePutOp} {now : Int} {s after later : TimedStorage}
    (hmade : store.Made put now s after) {value : Json} (hvalue : put.value = some value)
    (hlawful : value.lawful store.json.isDouble = true)
    (hlater : later.find (store.keyAt put.slot) = after.find (store.keyAt put.slot)) :
    ∃ found, store.view later (store.keyAt put.slot) = some found ∧
      Yields found ((storeEnvelopeFromItem put.nameSpace put.key value).readable {})
        ⟨put.nameSpace, put.key, value.reread, later.times (store.keyAt put.slot)⟩ := by
  have hparse : Yields (parseStoreEnvelope store.json
      (storeEnvelopeFromItem put.nameSpace put.key value).compact) _ _ :=
    parseStoreEnvelope_compact hmade.valid hlawful (hmade.isUtf8 value hvalue)
  refine ⟨store.itemAt later (store.keyAt put.slot,
    (storeEnvelopeFromItem put.nameSpace put.key value).compact), ?_, ?_⟩
  · rw [view, hlater, hmade.find, StorePutOp.text, hvalue]; rfl
  · constructor
    · intro hread
      rw [itemAt, itemFromStorageValue]
      exact (congrArg (· >>= _) (hparse.ok hread)).trans rfl
    · intro hread
      obtain ⟨status, herror⟩ := hparse.error hread
      exact ⟨status, by
        rw [itemAt, itemFromStorageValue]
        exact (congrArg (· >>= _) herror).trans rfl⟩

theorem validateStorageName_of_prefix {value label part label' : Bytes} {maxBytes : Nat}
    (h : validateStorageName value label maxBytes = .ok ()) (hpart : part <+: value)
    (hne : part ≠ []) : validateStorageName part label' maxBytes = .ok () := by
  unfold validateStorageName at h ⊢
  split_ifs at h with hempty hlong hchars
  have hlength := hpart.length_le
  rw [if_neg hne, if_neg (by omega), if_neg]
  rw [Bool.not_eq_true, any_eq_false] at hchars ⊢
  exact fun ch hch => hchars ch (hpart.subset hch)

/-- A store that accepts a key and can list accepts a listing below its namespace. -/
theorem listOptions_ok {slot : StoreSlot} (hoptions : store.validateOptions = .ok ())
    (hlists : store.Lists)
    (hkey : validateStorageKey store.limits (store.keyAt slot) = .ok ()) :
    validateStorageListOptions store.limits
      (store.listOptions (dir (lit "items" :: slot.bucket.map hexEncode))) = .ok () := by
  obtain ⟨hscope, hpage⟩ := of_require hoptions
  obtain ⟨⟨⟩, hscopeName, hkeyName⟩ := of_bind hkey
  have hbelow : dir (lit "items" :: slot.bucket.map hexEncode) <+: KeyPath.key (segments slot) :=
    (dir_prefix_key_iff (plain_items slot.bucket) (plain_segments slot) (segments_ne_nil slot)).mpr
      ⟨_, cons_ne_nil _ _, rfl⟩
  have hne : dir (lit "items" :: slot.bucket.map hexEncode) ≠ [] := by simp [dir]
  have hname : validateOptionalName (dir (lit "items" :: slot.bucket.map hexEncode))
      (lit "storage key prefix") store.limits.maxKeyBytes = .ok () := by
    rw [validateOptionalName, if_neg hne]
    exact validateStorageName_of_prefix hkeyName hbelow hne
  have hscope' : validateOptionalName store.scope (lit "storage scope")
      store.limits.maxScopeBytes = .ok () := by
    rw [validateOptionalName, if_neg (by simpa using hscope)]
    exact hscopeName
  have hlimit : (store.limits.maxListItems = 0 || store.listPageSize ≤ store.limits.maxListItems) =
      true := by simpa [Lists] using hlists
  unfold validateStorageListOptions listOptions
  rw [hscope', ok_bind, hname, ok_bind, require_eq_ok.mpr (require_eq_ok.mp hpage), ok_bind]
  exact require_eq_ok.mpr hlimit

/-- The search for the items of the namespace of a slot that pass a filter. -/
def searchBelow (slot : StoreSlot) (fields : List (Bytes × Json)) : StoreSearchOp :=
  { namespacePrefix := slot.bucket, filter := some (.obj fields) }

theorem answer_searchBelow {slot : StoreSlot} (hoptions : store.validateOptions = .ok ())
    (hlists : store.Lists) (hslot : ValidSlot slot)
    (hkey : validateStorageKey store.limits (store.keyAt slot) = .ok ())
    (fields : List (Bytes × Json)) (s : TimedStorage) :
    store.answer order s (.search (searchBelow slot fields)) = (do
      let found ← (store.views s (dir (lit "items" :: slot.bucket.map hexEncode))).foldlM
        (visitView order (searchBelow slot fields)) {}
      return .items found.out) := by
  have hprefix := validateStoreNamespacePrefix_of_valid hslot.1
  have hvalid : validateStoreSearchOptions (searchBelow slot fields) = .ok () := by
    rw [validateStoreSearchOptions, searchBelow, hprefix]; rfl
  have hbelow : keyPrefixFor (searchBelow slot fields).namespacePrefix =
      .ok (dir (lit "items" :: slot.bucket.map hexEncode)) := by
    rw [keyPrefixFor, searchBelow, hprefix]; rfl
  change store.search order (searchBelow slot fields) s = _
  rw [search, hvalid, ok_bind, if_neg (by simp [searchBelow]), searchItems_eq, hbelow, ok_bind,
    listOptions_ok hoptions hlists hkey, ok_bind]

/-- Alone in a storage, an item on which a filter fails makes the search with it fail. -/
theorem searchBelow_breaks {slot : StoreSlot} (hoptions : store.validateOptions = .ok ())
    (hlists : store.Lists) (hslot : ValidSlot slot)
    (hkey : validateStorageKey store.limits (store.keyAt slot) = .ok ())
    {fields : List (Bytes × Json)} {status : Status} {text : Bytes} {s : TimedStorage}
    (hs : s.storage = MemoryStorage.empty.set (store.keyAt slot) text)
    (hview : store.view s (store.keyAt slot) = some (.ok item))
    (herror : storeItemMatchesFilter order item (some (.obj fields)) = .error status) :
    (∃ r, store.answer order (s.without (store.keyAt slot))
        (.search (searchBelow slot fields)) = .ok r) ∧
      ¬ ∃ r, store.answer order s (.search (searchBelow slot fields)) = .ok r := by
  have hscope : store.scope ≠ [] := by simpa using (of_require hoptions).1
  have hitem : store.itemAt s (store.keyAt slot, text) = .ok item := by
    rw [view, TimedStorage.find, hs, MemoryStorage.find_set_self] at hview
    exact Option.some.inj hview
  simp only [answer_searchBelow order hoptions hlists hslot hkey]
  constructor
  · have hempty : (s.without (store.keyAt slot)).storage.items = [] := by
      rw [TimedStorage.without, hs]
      exact erase_set_of_find_none rfl text
    rw [views, MemoryStorage.matching, hempty]
    exact ⟨_, rfl⟩
  · have hsingle : store.views s (dir (lit "items" :: slot.bucket.map hexEncode)) =
        [(store.keyAt slot, .ok item)] := by
      have hmatches : storageKeyMatchesListOptions (store.keyAt slot) _ = true :=
        (matches_keyAt_iff hscope).mpr (prefix_refl slot.bucket)
      rw [views, MemoryStorage.matching, hs]
      change map _ (filter _ [(store.keyAt slot, text)]) = _
      rw [filter_cons_of_pos (by simpa using hmatches), filter_nil, map_cons, hitem, map_nil]
    have hvisit : visitView order (searchBelow slot fields) {} (store.keyAt slot, .ok item) =
        .error status := by
      rw [visitView, if_neg (by simp [searchBelow]), ok_bind, StoreSearchState.visit,
        if_neg (by simp [searchBelow]), searchBelow, herror]
      rfl
    rw [hsingle, foldlM_cons, hvisit]
    rintro ⟨r, h⟩
    cases h

theorem validateOptions_of_batch_ok (store : StorageStore) {clock : Nat → Int} {ops : List StoreOp}
    {s : TimedStorage} {results : List (StoreBatchResult StoreTimes)}
    (h : (store.batch order clock ops s).1 = .ok results) : store.validateOptions = .ok () := by
  unfold batch at h
  cases hpass : store.firstPass order ops s with
  | error =>
    rw [hpass] at h; cases h
  | ok =>
    obtain ⟨⟨⟩, hoptions, -⟩ := of_bind hpass
    exact hoptions

/-- An item that a batch has stored is returned by every later `get` and makes no later scan fail
    that succeeds without it, exactly if its envelope is within the limits of the reader, no number
    of its value is NaN or an infinity, and its value offers no number to the filter of a search. -/
theorem stored_item_reads_iff (store : StorageStore) (hself : order.SelfEqual) {clock : Nat → Int}
    {ops : List StoreOp} {s : TimedStorage} {results : List (StoreBatchResult StoreTimes)}
    (hbatch : (store.batch order clock ops s).1 = .ok results) {put : StorePutOp}
    (hlast : lastWrite put.slot ops = some put) {value : Json} (hvalue : put.value = some value)
    (hlawful : value.lawful store.json.isDouble = true) :
    (∀ later : TimedStorage, later.find (store.keyAt put.slot) =
        (store.batch order clock ops s).2.find (store.keyAt put.slot) →
      store.answer order later (.get put.nameSpace put.key) =
          .ok (.item ⟨put.nameSpace, put.key, value, later.times (store.keyAt put.slot)⟩) ∧
        ∀ op, scans op = true →
          (∃ r, store.answer order (later.without (store.keyAt put.slot)) op = .ok r) →
          ∃ r, store.answer order later op = .ok r) ↔
    (storeEnvelopeFromItem put.nameSpace put.key value).readable {} = true ∧
      value.finite = true ∧ (store.Lists → value.offersNumber = false) := by
  obtain ⟨now, hmade⟩ := store.made_of_batch_ok order hbatch hlast
  have hoptions : store.validateOptions = .ok () := store.validateOptions_of_batch_ok order hbatch
  have hget : ∀ later : TimedStorage, store.answer order later (.get put.nameSpace put.key) = _ :=
    getItem_eq_view hmade.valid hmade.keyValid
  constructor
  · intro h
    obtain ⟨found, hview, hfound⟩ := view_of_made hmade hvalue hlawful rfl
    obtain ⟨hreturned, -⟩ := h _ rfl
    rw [hget, hview] at hreturned
    obtain ⟨item, hitem, hreturned⟩ : ∃ item, found = .ok item ∧ item.value = value := by
      cases found with
      | error => cases hreturned
      | ok item =>
        have hsame := StoreBatchResult.item.inj (Except.ok.inj hreturned)
        exact ⟨item, rfl, congrArg StoreItem.value hsame⟩
    obtain ⟨hread, rfl⟩ := hfound.of_ok hitem
    have hfinite : value.finite = true := Json.finite_of_reread_eq value hreturned
    refine ⟨hread, hfinite, fun hlists => ?_⟩
    by_contra hoffers
    -- the item alone in a storage, and the filter that fails on it
    let later : TimedStorage := ⟨MemoryStorage.empty.set (store.keyAt put.slot)
      (storeEnvelopeFromItem put.nameSpace put.key value).compact, fun _ => ⟨0, 0⟩⟩
    have hlater : later.find (store.keyAt put.slot) =
        (store.batch order clock ops s).2.find (store.keyAt put.slot) := by
      rw [hmade.find, StorePutOp.text, hvalue]
      exact MemoryStorage.find_set_self ..
    obtain ⟨found, hview, hfound⟩ := view_of_made hmade hvalue hlawful hlater
    rw [hfound.ok hread, Json.reread_of_finite value hfinite] at hview
    obtain ⟨fields, status, herror⟩ : ∃ fields status, storeItemMatchesFilter order
        ⟨put.nameSpace, put.key, value, later.times (store.keyAt put.slot)⟩ (some (.obj fields)) =
          .error status :=
      exists_itemFilter_error hself hlawful hfinite (by simpa using hoffers)
    obtain ⟨hwithout, hwith⟩ := searchBelow_breaks order hoptions hlists hmade.valid hmade.keyValid
      rfl hview herror
    exact hwith ((h later hlater).2 _ rfl hwithout)
  · rintro ⟨hread, hfinite, hoffers⟩ later hlater
    obtain ⟨found, hview, hfound⟩ := view_of_made hmade hvalue hlawful hlater
    have hok := hfound.ok hread
    rw [Json.reread_of_finite value hfinite] at hok
    rw [hok] at hview
    refine ⟨by rw [hget, hview]; rfl, fun op hop h => ?_⟩
    exact scan_with_item order hview hoffers hop h

/-- The item `{x: "y"}` beside the item `1`: it is returned, and a filter with an operator that the
    store does not know, which fails on numbers only, succeeds with it. -/
theorem stored_item_reads_of_object :
    let store : StorageStore := { json := plainJson }
    let put : StorePutOp := ⟨[lit "a"], lit "k", some (.obj [(lit "x", .str (lit "y"))])⟩
    let other : StorePutOp := ⟨[lit "a"], lit "j", some (.int 1)⟩
    let s : TimedStorage := ⟨.empty, fun _ => ⟨0, 0⟩⟩
    let after := (store.batch .ofIntegers (fun _ => 5) [.put other, .put put] s).2
    let filter : Json := .obj [(lit "x", .obj [(lit "$foo", .int 1)])]
    store.answer .ofIntegers after (.get [lit "a"] (lit "k")) = .ok (.item
        ⟨[lit "a"], lit "k", .obj [(lit "x", .str (lit "y"))], after.times (store.keyAt put.slot)⟩) ∧
      (∃ r, store.answer .ofIntegers after (.search ⟨[lit "a"], none, some filter, 10, 0⟩) = .ok r) ∧
      ∃ r, store.answer .ofIntegers after (.listNamespaces {}) = .ok r := by
  intro store put other s after filter
  have hbatch : (store.batch .ofIntegers (fun _ => 5) [.put other, .put put] s).1 =
      .ok [.monostate, .monostate] := by
    decide +kernel
  have hlast : lastWrite put.slot [.put other, .put put] = some put := by decide +kernel
  have hreads := stored_item_reads_iff .ofIntegers store (fun _ _ => decide_eq_true rfl) hbatch
    hlast rfl (by decide +kernel)
  obtain ⟨hget, hscans⟩ := hreads.mpr ⟨by decide +kernel, by decide +kernel,
    fun _ => by decide +kernel⟩ after rfl
  have hsearch : store.answer .ofIntegers (after.without (store.keyAt put.slot))
      (.search ⟨[lit "a"], none, some filter, 10, 0⟩) = .ok (.items []) := by decide +kernel
  have hlist : store.answer .ofIntegers (after.without (store.keyAt put.slot))
      (.listNamespaces {}) = .ok (.namespaces [[lit "a"]]) := by decide +kernel
  exact ⟨hget, hscans _ rfl ⟨_, hsearch⟩, hscans _ rfl ⟨_, hlist⟩⟩

/-- An array nested 64 deep is stored in an envelope that is nested deeper than a text may be.  It
    cannot be read back, and with it in the store the namespaces cannot be listed any more. -/
theorem deep_item_unreadable :
    let store : StorageStore := { json := plainJson }
    let s : TimedStorage := ⟨.empty, fun _ => ⟨0, 0⟩⟩
    let before := (store.batch .ofIntegers (fun _ => 0)
      [.put ⟨[lit "a"], lit "k", some (.int 1)⟩] s).2
    let ops : List StoreOp := [.put ⟨[lit "b"], lit "k", some (nestedArrays 64)⟩]
    let after := (store.batch .ofIntegers (fun _ => 0) ops before).2
    let refused := Status.resourceExhausted (lit "stored store item JSON nesting is too deep")
    (store.batch .ofIntegers (fun _ => 0) ops before).1 = .ok [.monostate] ∧
      store.answer .ofIntegers after (.get [lit "b"] (lit "k")) = .error refused ∧
      store.answer .ofIntegers before (.listNamespaces {}) = .ok (.namespaces [[lit "a"]]) ∧
      store.answer .ofIntegers after (.listNamespaces {}) = .error refused := by
  decide +kernel

end StorageStore

end LangGraph
