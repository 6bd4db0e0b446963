import LangGraph.Store.StorageStore

/-!
# What a batch leaves in the storage

Every read of the store depends only on what it finds under the keys of its scope: nothing, an
item, or an error.  A batch changes this view under the names it writes, one write after another,
and a write that the storage refuses ends it: what the writes in front of it have changed stays.
-/

namespace LangGraph

open ByteString KeyPath ExceptList List MemoryStorage

def StorePutOp.text (put : StorePutOp) : Option Bytes :=
  put.value.map fun value => (storeEnvelopeFromItem put.nameSpace put.key value).compact

namespace StorageStore

variable (store : StorageStore) (order : JsonOrder)

/-! ## 1. The view of the storage -/

def view (s : TimedStorage) (key : StorageKey) : Option (Result (StoreItem StoreTimes)) :=
  (s.find key).map fun value => store.itemAt s (key, value)

/-- What a scan below a prefix finds, in the order of the keys. -/
def views (s : TimedStorage) (keyPrefix : Bytes) :
    List (StorageKey × Result (StoreItem StoreTimes)) :=
  (s.storage.matching (store.listOptions keyPrefix)).map fun item => (item.1, store.itemAt s item)

def visitView (op : StoreSearchOp) (search : StoreSearchState StoreTimes)
    (found : StorageKey × Result (StoreItem StoreTimes)) : Result (StoreSearchState StoreTimes) :=
  if op.limit ≤ search.out.length then .ok search
  else found.2 >>= search.visit order op

variable {store}

theorem searchItems_eq (op : StoreSearchOp) (s : TimedStorage) :
    store.searchItems order op s = (do
      let keyPrefix ← keyPrefixFor op.namespacePrefix
      validateStorageListOptions store.limits (store.listOptions keyPrefix)
      (store.views s keyPrefix).foldlM (visitView order op) {}) := by
  unfold searchItems views
  simp only [scan_eq, foldlM_map]; rfl

theorem foldlM_collectItem (s : TimedStorage) (items : List (StorageKey × Bytes))
    (out : List (StoreItem StoreTimes)) :
    items.foldlM (store.collectItem s) out = (out ++ ·) <$> items.mapM (store.itemAt s) := by
  induction items generalizing out with
  | nil =>
    rw [mapM_nil]
    change Except.ok out = Except.ok (out ++ [])
    rw [append_nil]
  | cons item items ih =>
    rw [foldlM_cons, mapM_cons, collectItem]
    cases store.itemAt s item with
    | error => rfl
    | ok found =>
      change items.foldlM (store.collectItem s) (out ++ [found]) = _
      rw [ih, ok_bind]
      cases items.mapM (store.itemAt s) with
      | error => rfl
      | ok => exact congrArg Except.ok (append_assoc ..)

theorem listStorageStoreItems_eq (s : TimedStorage) (keyPrefix : Bytes) :
    store.listStorageStoreItems s keyPrefix = (do
      validateStorageListOptions store.limits (store.listOptions keyPrefix)
      (store.views s keyPrefix).mapM Prod.snd) := by
  have hnil : ∀ x : Result (List (StoreItem StoreTimes)), ([] ++ ·) <$> x = x := fun x => by
    cases x <;> rfl
  rw [listStorageStoreItems, scan_eq, views, mapM_map]
  simp only [foldlM_collectItem, hnil]; rfl

theorem find_views (s : TimedStorage) (keyPrefix : Bytes) (key : StorageKey) :
    OrderedMap.find key (store.views s keyPrefix) =
      if storageKeyMatchesListOptions key (store.listOptions keyPrefix) then store.view s key
      else none := by
  have hincreasing : OrderedMap.Increasing (store.views s keyPrefix) :=
    pairwise_map.mpr (s.storage.increasing.filter _)
  refine Option.ext fun found => ?_
  rw [hincreasing.find_eq_some_iff, views, mem_map, view]
  constructor
  · rintro ⟨⟨k, value⟩, hitem, heq⟩
    cases heq
    obtain ⟨hfind, hmatches⟩ := mem_matching_iff.mp hitem
    rw [if_pos hmatches, TimedStorage.find, hfind]; rfl
  · intro h
    split_ifs at h with hmatches
    · obtain ⟨value, hfind, rfl⟩ := Option.map_eq_some_iff.mp h
      exact ⟨(key, value), mem_matching_iff.mpr ⟨hfind, hmatches⟩, rfl⟩

variable {s s' after : TimedStorage} {put : StorePutOp} {now : Int} {key : StorageKey}
  {ops : List StoreOp}

theorem views_congr (h : ∀ key, store.view s' key = store.view s key) (keyPrefix : Bytes) :
    store.views s' keyPrefix = store.views s keyPrefix := by
  have hincreasing : ∀ s, OrderedMap.Increasing (store.views s keyPrefix) := fun s =>
    pairwise_map.mpr (s.storage.increasing.filter _)
  refine (hincreasing s').ext (hincreasing s) fun key => ?_
  rw [find_views, find_views, h]

theorem getItem_eq_view {slot : StoreSlot} (hvalid : ValidSlot slot)
    (hkey : validateStorageKey store.limits (store.keyAt slot) = .ok ()) (s : TimedStorage) :
    store.getItem slot.bucket slot.key s = match store.view s (store.keyAt slot) with
      | none => .ok .monostate
      | some found => .item <$> found := by
  rw [getItem, storageKeyFor_ok_iff.mpr ⟨hvalid, rfl⟩, ok_bind, MemoryStorage.get, hkey, view,
    TimedStorage.find]
  cases s.storage.find (store.keyAt slot) <;> rfl

theorem view_of_get {a b : Option (Result (StoreItem StoreTimes))}
    (h : (match a with
      | none => (.ok .monostate : Result (StoreBatchResult StoreTimes))
      | some found => .item <$> found) =
      match b with
      | none => .ok .monostate
      | some found => .item <$> found) : a = b := by
  rcases a with - | (a | a) <;> rcases b with - | (b | b) <;> cases h <;> rfl

theorem getItem_congr (h : ∀ key, store.view s' key = store.view s key)
    (nameSpace : StoreNamespace) (name : Bytes) :
    store.getItem nameSpace name s' = store.getItem nameSpace name s := by
  cases hkey : store.storageKeyFor nameSpace name with
  | error => rw [getItem, getItem, hkey]; rfl
  | ok storageKey =>
    let slot : StoreSlot := ⟨nameSpace, name⟩
    have hslot : store.storageKeyFor slot.bucket slot.key = .ok storageKey := hkey
    obtain ⟨hvalid, rfl⟩ := storageKeyFor_ok_iff.mp hslot
    cases hvalidKey : validateStorageKey store.limits (store.keyAt slot) with
    | error =>
      rw [getItem, getItem, hkey, ok_bind, ok_bind, MemoryStorage.get, MemoryStorage.get, hvalidKey]
      rfl
    | ok =>
      have hget := getItem_eq_view hvalid hvalidKey
      rw [hget s', hget s, h]

theorem answer_congr (h : ∀ key, store.view s' key = store.view s key) (op : StoreOp) :
    store.answer order s' op = store.answer order s op := by
  cases op with
  | get nameSpace name => exact getItem_congr h nameSpace name
  | search op =>
    change store.search order op s' = store.search order op s
    rw [search, search, searchItems_eq, searchItems_eq]
    simp only [views_congr h]
  | put => rfl
  | listNamespaces op =>
    change store.listNamespaces op s' = store.listNamespaces op s
    rw [listNamespaces, listNamespaces, listStorageStoreItems_eq, listStorageStoreItems_eq,
      views_congr h]

/-! ## 2. One write after another -/

variable (store) in
/-- A write that the limits of the storage allow: the names and the key are valid, and the text of
    the item is UTF-8 and not too large. -/
structure Writable (put : StorePutOp) : Prop where
  valid : ValidSlot put.slot
  keyValid : validateStorageKey store.limits (store.keyAt put.slot) = .ok ()
  isUtf8 : ∀ value ∈ put.value,
    (storeEnvelopeFromItem put.nameSpace put.key value).isUtf8 = true
  fits : ∀ text ∈ put.text,
    store.limits.maxValueBytes = 0 ∨ text.length ≤ store.limits.maxValueBytes

variable (store) in
/-- The storage takes the write while it holds so many items: there is room for one that is new. -/
def Accepts (s : TimedStorage) (held : Nat) (put : StorePutOp) : Prop :=
  store.Writable put ∧ (put.value ≠ none → s.find (store.keyAt put.slot) = none →
    store.limits.maxItems = 0 ∨ held < store.limits.maxItems)

variable (store) in
/-- How many items the storage holds once the write is made. -/
def heldAfter (s : TimedStorage) (held : Nat) (put : StorePutOp) : Nat :=
  if put.value = none then
    if (s.find (store.keyAt put.slot)).isSome then held - 1 else held
  else if (s.find (store.keyAt put.slot)).isSome then held else held + 1

open Classical in
variable (store) in
/-- The writes in front of the first one that the storage refuses.  They go to different items, so
    that the content before the first of them tells whether each is new. -/
noncomputable def acceptedWrites (s : TimedStorage) :
    Nat → List (StorePutOp × Int) → List (StorePutOp × Int)
  | _, [] => []
  | held, write :: writes =>
    if store.Accepts s held write.1 then
      write :: acceptedWrites s (store.heldAfter s held write.1) writes
    else []

variable (store) in
/-- A write to an item has been made: the item is as the write leaves it. -/
structure Made (put : StorePutOp) (now : Int) (s after : TimedStorage) : Prop
    extends store.Writable put where
  find : after.find (store.keyAt put.slot) = put.text
  times : put.value ≠ none →
    after.times (store.keyAt put.slot) = s.timesNow (store.keyAt put.slot) now

def Untouched (key : StorageKey) (s after : TimedStorage) : Prop :=
  after.find key = s.find key ∧ after.times key = s.times key

variable (store) in
structure Wrote (put : StorePutOp) (now : Int) (s after : TimedStorage) : Prop
    extends store.Made put now s after where
  room : put.value ≠ none → s.find (store.keyAt put.slot) = none →
    store.limits.maxItems = 0 ∨ s.storage.items.length < store.limits.maxItems
  held : after.storage.items.length = store.heldAfter s s.storage.items.length put
  other : ∀ key, key ≠ store.keyAt put.slot → Untouched key s after

theorem storeItemText_ok_iff {json : JsonLibrary} {nameSpace : StoreNamespace} {name text : Bytes}
    {value : Json} : storeItemText json nameSpace name value = .ok text ↔
      (storeEnvelopeFromItem nameSpace name value).isUtf8 = true ∧
        text = (storeEnvelopeFromItem nameSpace name value).compact := by
  rw [← json.dump_ok_iff, storeItemText]
  cases json.dump (storeEnvelopeFromItem nameSpace name value) <;> simp

theorem wrote_of_applyPut {next : TimedStorage} (h : store.applyPut put now s = .ok next) :
    store.Wrote put now s next := by
  obtain ⟨storageKey, hkey, h⟩ := of_bind h
  have hslot : store.storageKeyFor put.slot.bucket put.slot.key = .ok storageKey := hkey
  obtain ⟨hvalid, rfl⟩ := storageKeyFor_ok_iff.mp hslot
  cases hvalue : put.value with
  | none =>
    rw [hvalue] at h
    obtain ⟨storage, hremove, h⟩ := of_bind h
    obtain ⟨hkeyValid, rfl⟩ := remove_ok hremove
    cases h
    exact {
      valid := hvalid
      keyValid := hkeyValid
      isUtf8 := by simp [hvalue]
      fits := by simp [StorePutOp.text, hvalue]
      room := fun hsome => absurd hvalue hsome
      find := by
        rw [StorePutOp.text, hvalue]; exact find_erase_self _ _
      times := fun hsome => absurd hvalue hsome
      held := by
        rw [heldAfter, if_pos hvalue]; exact s.storage.increasing.length_erase _
      other := fun key hne => ⟨find_erase_ne hne.symm _, rfl⟩ }
  | some =>
    rw [hvalue] at h
    obtain ⟨text, htext, h⟩ := of_bind h
    obtain ⟨hdump, rfl⟩ := storeItemText_ok_iff.mp htext
    obtain ⟨storage, hput, h⟩ := of_bind h
    obtain ⟨hkeyValid, hfits, hroom, rfl⟩ := upsert_ok_iff.mp hput
    cases h
    exact {
      valid := hvalid
      keyValid := hkeyValid
      isUtf8 := by simpa [hvalue] using hdump
      fits := by simpa [StorePutOp.text, hvalue] using hfits
      room := fun _ => hroom
      find := by
        rw [StorePutOp.text, hvalue]; exact find_set_self _ _ _
      times := fun _ => if_pos rfl
      held := by
        rw [heldAfter, if_neg (by simp [hvalue])]; exact s.storage.increasing.length_set _ _
      other := fun key hne => ⟨find_set_ne hne.symm _ _, if_neg hne⟩ }

theorem applyPut_of_accepts (h : store.Accepts s s.storage.items.length put) (now : Int) :
    ∃ next, store.applyPut put now s = .ok next := by
  obtain ⟨⟨hvalid, hkeyValid, hutf8, hfits⟩, hroom⟩ := h
  have hkey : store.storageKeyFor put.nameSpace put.key = .ok (store.keyAt put.slot) :=
    storageKeyFor_ok_iff.mpr ⟨hvalid, rfl⟩
  rw [applyPut, hkey, ok_bind]
  cases hvalue : put.value with
  | none =>
    dsimp only
    rw [TimedStorage.remove, MemoryStorage.remove, hkeyValid]
    exact ⟨_, rfl⟩
  | some value =>
    dsimp only
    rw [storeItemText_ok_iff.mpr ⟨hutf8 value hvalue, rfl⟩, ok_bind, TimedStorage.put,
      upsert_ok_iff.mpr ⟨hkeyValid, hfits _ (by rw [StorePutOp.text, hvalue]; rfl),
        hroom (by simp [hvalue]), rfl⟩]
    exact ⟨_, rfl⟩

variable (store) in
/-- What the store finds under the names of a write once it is made on this storage. -/
def viewAfter (s : TimedStorage) (write : StorePutOp × Int) :
    Option (Result (StoreItem StoreTimes)) :=
  write.1.text.map
    (store.itemFromStorageValue (s.timesNow (store.keyAt write.1.slot) write.2))

theorem Made.view (h : store.Made put now s after) :
    store.view after (store.keyAt put.slot) = store.viewAfter s (put, now) := by
  rw [StorageStore.view, h.find, viewAfter]
  cases hvalue : put.value with
  | none => rw [StorePutOp.text, hvalue]; rfl
  | some value =>
    rw [StorePutOp.text, hvalue, Option.map_some, Option.map_some, itemAt,
      h.times (by rw [hvalue]; exact Option.some_ne_none value)]
    rfl

theorem Untouched.trans {t u : TimedStorage} (h : Untouched key s t) (h' : Untouched key t u) :
    Untouched key s u :=
  ⟨h'.1.trans h.1, h'.2.trans h.2⟩

theorem Untouched.view (h : Untouched key s after) : store.view after key = store.view s key := by
  rw [StorageStore.view, StorageStore.view, h.1]
  simp only [itemAt, h.2]

theorem Untouched.timesNow (h : Untouched key s after) (now : Int) :
    after.timesNow key now = s.timesNow key now := by
  rw [TimedStorage.timesNow, TimedStorage.timesNow, h.1, h.2]

theorem Made.of_untouched {t u : TimedStorage} (h : store.Made put now s' t)
    (hbefore : Untouched (store.keyAt put.slot) s s')
    (hafter : Untouched (store.keyAt put.slot) t u) : store.Made put now s u where
  __ := h
  find := hafter.1.trans h.find
  times hsome := hafter.2.trans ((h.times hsome).trans (hbefore.timesNow now))

theorem acceptedWrites_subset (s : TimedStorage) (held : Nat) (writes : List (StorePutOp × Int)) :
    store.acceptedWrites s held writes ⊆ writes := by
  induction writes generalizing held with
  | nil => exact Subset.refl _
  | cons write writes ih =>
    rw [acceptedWrites]
    split_ifs
    · exact cons_subset_cons _ (ih _)
    · exact nil_subset _

/-- Only what the storage holds under the names of the writes counts, beside the number of items. -/
theorem acceptedWrites_congr {writes : List (StorePutOp × Int)}
    (h : ∀ write ∈ writes, s'.find (store.keyAt write.1.slot) = s.find (store.keyAt write.1.slot))
    (held : Nat) : store.acceptedWrites s' held writes = store.acceptedWrites s held writes := by
  induction writes generalizing held with
  | nil => rfl
  | cons write writes ih =>
    obtain ⟨hwrite, hrest⟩ := forall_mem_cons.mp h
    rw [acceptedWrites, acceptedWrites, Accepts, Accepts, heldAfter, heldAfter, hwrite, ih hrest]

/-- A run of writes to different items makes those in front of the first that is refused, and
    touches no other item; it fails if there is one that is refused. -/
theorem applyPuts_made {writes : List (StorePutOp × Int)}
    (hdistinct : writes.Pairwise fun a b => a.1.slot ≠ b.1.slot) (s : TimedStorage) :
    (∀ write ∈ store.acceptedWrites s s.storage.items.length writes,
      store.Made write.1 write.2 s (store.applyPuts writes s).2) ∧
    (∀ key, (∀ write ∈ store.acceptedWrites s s.storage.items.length writes,
      key ≠ store.keyAt write.1.slot) → Untouched key s (store.applyPuts writes s).2) ∧
    ((store.applyPuts writes s).1 = .ok () ↔
      store.acceptedWrites s s.storage.items.length writes = writes) := by
  induction writes generalizing s with
  | nil => exact ⟨fun _ h => (nomatch h), fun _ _ => ⟨rfl, rfl⟩, iff_of_true rfl rfl⟩
  | cons write writes ih =>
    obtain ⟨put, now⟩ := write
    obtain ⟨hfirst, hdistinct⟩ := pairwise_cons.mp hdistinct
    rw [acceptedWrites, applyPuts]
    cases happly : store.applyPut put now s with
    | error =>
      have hrefused : ¬store.Accepts s s.storage.items.length put := fun haccepts => by
        obtain ⟨next, hnext⟩ := applyPut_of_accepts haccepts now
        rw [hnext] at happly; cases happly
      rw [if_neg hrefused]
      exact ⟨fun _ h => (nomatch h), fun _ _ => ⟨rfl, rfl⟩, iff_of_false (by simp) (by simp)⟩
    | ok next =>
      have hwrote := wrote_of_applyPut happly
      -- no later write has the names of this one
      have hne : ∀ other ∈ writes, store.keyAt put.slot ≠ store.keyAt other.1.slot :=
        fun other hother heq => hfirst other hother (store.keyAt_injective heq)
      have hsame : store.acceptedWrites s (store.heldAfter s s.storage.items.length put) writes =
          store.acceptedWrites next next.storage.items.length writes := by
        rw [← hwrote.held]
        exact (acceptedWrites_congr (fun other hother =>
          (hwrote.other _ (hne other hother).symm).1) _).symm
      rw [if_pos ⟨hwrote.toWritable, hwrote.room⟩, hsame]
      obtain ⟨hfront, hrest, hok⟩ := ih hdistinct next
      have hlater : ∀ other ∈ store.acceptedWrites next next.storage.items.length writes,
          store.keyAt put.slot ≠ store.keyAt other.1.slot := fun other hother =>
        hne other (acceptedWrites_subset _ _ _ hother)
      refine ⟨fun write hwrite => ?_, fun key hkey => ?_, hok.trans (by simp)⟩
      · rcases mem_cons.mp hwrite with rfl | hwrite
        · exact hwrote.toMade.of_untouched ⟨rfl, rfl⟩ (hrest _ hlater)
        · exact (hfront write hwrite).of_untouched (hwrote.other _ (hlater write hwrite).symm)
            ⟨rfl, rfl⟩
      · obtain ⟨hkeyNe, hkey⟩ := forall_mem_cons.mp hkey
        exact (hwrote.other key hkeyNe).trans (hrest key hkey)

theorem timedPuts_map_fst (clock : Nat → Int) (pending : List (StoreSlot × StorePutOp)) :
    (timedPuts clock pending).map Prod.fst = pending.map Prod.snd := by
  rw [timedPuts, map_map]
  change pending.zipIdx.map (Prod.snd ∘ Prod.fst) = _
  rw [← map_map, zipIdx_map_fst]

theorem timedPuts_distinct (clock : Nat → Int) (ops : List StoreOp) :
    (timedPuts clock (pendingPuts ops)).Pairwise fun a b => a.1.slot ≠ b.1.slot := by
  have hpending : ((pendingPuts ops).map Prod.snd).Pairwise fun a b => a.slot ≠ b.slot := by
    refine pairwise_map.mpr ?_
    refine (pendingPuts_increasing ops).imp_of_mem fun {a b} ha hb hab => ?_
    rw [(slot_of_mem_pendingPuts ha).1, (slot_of_mem_pendingPuts hb).1]
    exact ne_of_irrefl hab
  rw [← timedPuts_map_fst clock, pairwise_map] at hpending; exact hpending

/-! ## 3. A batch that fails -/

variable (store) in
/-- The writes that a batch makes: none if its first pass fails. -/
noncomputable def madeWrites (clock : Nat → Int) (ops : List StoreOp) (s : TimedStorage) :
    List (StorePutOp × Int) :=
  match store.firstPass order ops s with
  | .error _ => []
  | .ok (_, pending) =>
    store.acceptedWrites s s.storage.items.length (timedPuts clock pending)

variable (store) in
/-- The names and the value that a stored text says, whatever version it has. -/
def contentOf (text : Bytes) : Result (StoreNamespace × Bytes × Json) :=
  (parseStoreEnvelope store.json text).map fun envelope =>
    (envelope.nameSpace, envelope.key, envelope.value)

variable (store) in
/-- The write would change nothing that can be read: a delete where nothing is stored, or a put
    where a text is stored that says the same as the text of the put and, unless it cannot be read,
    was last written at the time of the put. -/
def Invisible (s : TimedStorage) (write : StorePutOp × Int) : Prop :=
  match write.1.text with
  | none => s.find (store.keyAt write.1.slot) = none
  | some text => ∃ stored, s.find (store.keyAt write.1.slot) = some stored ∧
    store.contentOf stored = store.contentOf text ∧
    ((∃ content, store.contentOf text = .ok content) →
      (s.times (store.keyAt write.1.slot)).updatedAt = write.2)

theorem itemFromStorageValue_eq_iff {times times' : StoreTimes} {stored text : Bytes} :
    store.itemFromStorageValue times stored = store.itemFromStorageValue times' text ↔
      store.contentOf stored = store.contentOf text ∧
        ((∃ content, store.contentOf text = .ok content) → times = times') := by
  unfold itemFromStorageValue contentOf
  cases parseStoreEnvelope store.json stored with
  | error | ok =>
    cases parseStoreEnvelope store.json text <;>
      simp [Except.map, bind, Except.bind, Pure.pure, Except.pure, and_assoc]

theorem invisible_iff {write : StorePutOp × Int} :
    store.Invisible s write ↔
      store.view s (store.keyAt write.1.slot) = store.viewAfter s write := by
  unfold Invisible view viewAfter
  cases write.1.text with
  | none => simp
  | some text =>
    cases hstored : s.find (store.keyAt write.1.slot) with
    | none => simp
    | some stored =>
      have htimes : s.times (store.keyAt write.1.slot) =
          s.timesNow (store.keyAt write.1.slot) write.2 ↔
            (s.times (store.keyAt write.1.slot)).updatedAt = write.2 := by
        rw [TimedStorage.timesNow, hstored, Option.isSome_some, if_pos rfl]
        exact ⟨fun h => congrArg StoreTimes.updatedAt h, fun h => h ▸ rfl⟩
      simp only [Option.map_some, Option.some.injEq, exists_eq_left', itemAt]
      rw [itemFromStorageValue_eq_iff, htimes]

theorem firstPass_ok {results : List (StoreBatchResult StoreTimes)}
    {pending : List (StoreSlot × StorePutOp)}
    (h : store.firstPass order ops s = .ok (results, pending)) :
    ops.mapM (store.answer order s) = .ok results ∧ pending = pendingPuts ops := by
  obtain ⟨-, -, h⟩ := of_bind h
  rw [batchResults_eq] at h
  cases hanswers : ops.mapM (store.answer order s) with
  | error =>
    rw [hanswers] at h; cases h
  | ok =>
    rw [hanswers] at h
    cases h; exact ⟨rfl, rfl⟩

theorem batch_made (store : StorageStore) (clock : Nat → Int) (ops : List StoreOp) (s : TimedStorage) :
    (∀ write ∈ store.madeWrites order clock ops s,
      store.Made write.1 write.2 s (store.batch order clock ops s).2) ∧
    (∀ key, (∀ write ∈ store.madeWrites order clock ops s, key ≠ store.keyAt write.1.slot) →
      Untouched key s (store.batch order clock ops s).2) := by
  unfold madeWrites batch
  cases hpass : store.firstPass order ops s with
  | error => exact ⟨fun _ h => (nomatch h), fun _ _ => ⟨rfl, rfl⟩⟩
  | ok passed =>
    obtain ⟨results, pending⟩ := passed
    obtain ⟨-, rfl⟩ := firstPass_ok order hpass
    obtain ⟨hmade, hother, -⟩ := applyPuts_made (timedPuts_distinct clock ops) s
    exact ⟨hmade, hother⟩

theorem made_of_batch_ok (store : StorageStore) {clock : Nat → Int}
    {results : List (StoreBatchResult StoreTimes)}
    (h : (store.batch order clock ops s).1 = .ok results)
    (hlast : lastWrite put.slot ops = some put) :
    ∃ now, store.Made put now s (store.batch order clock ops s).2 := by
  have hmade := (store.batch_made order clock ops s).1
  unfold madeWrites at hmade
  unfold batch at h
  cases hpass : store.firstPass order ops s with
  | error =>
    rw [hpass] at h; cases h
  | ok passed =>
    obtain ⟨answers, pending⟩ := passed
    obtain ⟨-, rfl⟩ := firstPass_ok order hpass
    rw [hpass] at h hmade
    dsimp only at h hmade
    have hwritten : (store.applyPuts (timedPuts clock (pendingPuts ops)) s).1 = .ok () := by
      cases hresult : (store.applyPuts (timedPuts clock (pendingPuts ops)) s).1 with
      | error =>
        rw [hresult] at h; cases h
      | ok => rfl
    rw [(applyPuts_made (timedPuts_distinct clock ops) s).2.2.mp hwritten] at hmade
    have hmem : put ∈ (timedPuts clock (pendingPuts ops)).map Prod.fst := by
      rw [timedPuts_map_fst]
      rw [← find_pendingPuts, (pendingPuts_increasing ops).find_eq_some_iff] at hlast
      exact mem_map.mpr ⟨_, hlast, rfl⟩
    obtain ⟨write, hwrite, rfl⟩ := mem_map.mp hmem
    exact ⟨write.2, hmade write hwrite⟩

theorem lastWrite_of_mem_madeWrites {clock : Nat → Int} {write : StorePutOp × Int}
    (h : write ∈ store.madeWrites order clock ops s) :
    lastWrite write.1.slot ops = some write.1 := by
  unfold madeWrites at h
  cases hpass : store.firstPass order ops s with
  | error =>
    rw [hpass] at h; cases h
  | ok passed =>
    obtain ⟨answers, pending⟩ := passed
    obtain ⟨-, rfl⟩ := firstPass_ok order hpass
    rw [hpass] at h
    have hmem : write.1 ∈ (timedPuts clock (pendingPuts ops)).map Prod.fst :=
      mem_map_of_mem (acceptedWrites_subset _ _ _ h)
    rw [timedPuts_map_fst] at hmem
    obtain ⟨entry, hentry, heq⟩ := mem_map.mp hmem
    obtain ⟨hslot, -⟩ := slot_of_mem_pendingPuts hentry
    rw [← heq, hslot, ← find_pendingPuts, (pendingPuts_increasing ops).find_eq_some_iff]
    exact hentry

theorem reads_unchanged_iff (clock : Nat → Int) (ops : List StoreOp) (s : TimedStorage) :
    (∀ op : StoreOp, store.answer order (store.batch order clock ops s).2 op =
      store.answer order s op) ↔
    ∀ write ∈ store.madeWrites order clock ops s, store.Invisible s write := by
  obtain ⟨hmade, hother⟩ := store.batch_made order clock ops s
  constructor
  · intro hreads write hwrite
    have hwrite := hmade write hwrite
    -- a `get` of the item shows what the write has left
    have hget : store.getItem write.1.slot.bucket write.1.slot.key
        (store.batch order clock ops s).2 = store.getItem write.1.slot.bucket write.1.slot.key s :=
      hreads (.get write.1.slot.bucket write.1.slot.key)
    rw [getItem_eq_view hwrite.valid hwrite.keyValid,
      getItem_eq_view hwrite.valid hwrite.keyValid] at hget
    exact invisible_iff.mpr ((view_of_get hget).symm.trans hwrite.view)
  · intro hinvisible op
    refine answer_congr order (fun key => ?_) op
    by_cases hkey : ∃ write ∈ store.madeWrites order clock ops s, key = store.keyAt write.1.slot
    · obtain ⟨write, hwrite, rfl⟩ := hkey
      rw [(hmade write hwrite).view, invisible_iff.mp (hinvisible write hwrite)]
    · exact (hother key fun write hwrite heq => hkey ⟨write, hwrite, heq⟩).view

theorem firstPass_ok_iff :
    (∃ results, store.firstPass order ops s = .ok (results, pendingPuts ops)) ↔
      store.validateOptions = .ok () ∧ ∀ op ∈ ops, ∃ result, store.answer order s op = .ok result := by
  rw [← exists_mapM_eq_ok_iff, firstPass, batchResults_eq]
  cases store.validateOptions with
  | error => simp [bind, Except.bind]
  | ok => cases ops.mapM (store.answer order s) <;> simp [Except.map]

/-- A batch that fails leaves every read as it was exactly if it fails before its first write, or
    the writes in front of the one that the storage refuses are invisible. -/
theorem failed_batch_unseen_iff (store : StorageStore) (clock : Nat → Int) (ops : List StoreOp)
    (s : TimedStorage) :
    ((∃ status, (store.batch order clock ops s).1 = .error status) →
      ∀ op : StoreOp, store.answer order (store.batch order clock ops s).2 op =
        store.answer order s op) ↔
    (let writes := timedPuts clock (pendingPuts ops)
      let accepted := store.acceptedWrites s s.storage.items.length writes
      store.validateOptions = .ok () → (∀ op ∈ ops, ∃ result, store.answer order s op = .ok result) →
        accepted ≠ writes → ∀ write ∈ accepted, store.Invisible s write) := by
  dsimp only
  rw [← and_imp, ← firstPass_ok_iff, reads_unchanged_iff, madeWrites, batch]
  cases hpass : store.firstPass order ops s with
  | error => simp
  | ok passed =>
    obtain ⟨results, pending⟩ := passed
    obtain ⟨-, rfl⟩ := firstPass_ok order hpass
    have hok : (store.applyPuts (timedPuts clock (pendingPuts ops)) s).1 = .ok () ↔ _ :=
      (applyPuts_made (timedPuts_distinct clock ops) s).2.2
    dsimp only
    rw [ne_eq, ← hok]
    cases (store.applyPuts (timedPuts clock (pendingPuts ops)) s).1 <;> simp [Except.map]

/-- The second key of the batch has 600 bytes, so the storage refuses its name of more than 1024
    bytes: the batch fails, and the item in front of it is there. -/
theorem failed_batch_leaves_item :
    let store : StorageStore := { json := plainJson }
    let s : TimedStorage := ⟨.empty, fun _ => ⟨0, 0⟩⟩
    let ops : List StoreOp :=
      [.put ⟨[lit "a"], lit "k", some (.int 1)⟩,
        .put ⟨[lit "a"], List.replicate 600 120, some (.int 2)⟩]
    (store.batch .ofIntegers (fun _ => 0) ops s).1 =
        .error (.invalidArgument (lit "storage key is too long")) ∧
      store.answer .ofIntegers s (.get [lit "a"] (lit "k")) = .ok .monostate ∧
      store.answer .ofIntegers (store.batch .ofIntegers (fun _ => 0) ops s).2
        (.get [lit "a"] (lit "k")) = .ok (.item ⟨[lit "a"], lit "k", .int 1, ⟨0, 0⟩⟩) := by
  decide +kernel

end StorageStore

end LangGraph
