import LangGraph.Store.InMemoryStore
import LangGraph.Store.StorageBatch

/-!
# The two stores side by side

`InMemoryStore` and `StorageStore` given the same batches.  A storage represents a content of the
in-memory store if every item is there, under its key, as the text of its envelope.  Batches that
both stores accept keep this, and their results agree as long as no search uses a wildcard, no
stored number is NaN or an infinity, and the order of the keys of the storage is the order of the
names in every search: it is not when it covers a namespace with items and another one below it
whose next part starts with a byte below `0xA0`, because `@` sorts above the digits `0`–`9` and
below the digits `a`–`f`.
-/

namespace LangGraph

open ByteString KeyPath ExceptList Store BucketMap StoreSearchState List

/-! ## 1. Order -/

/-- A namespace below the other comes after it in the storage too. -/
def ListedFirst (a b : StoreNamespace) : Prop :=
  ∀ part rest, b = a ++ part :: rest → ∀ byte ∈ part.head?, 160 ≤ byte.toNat

theorem ListedFirst.tail {part : Bytes} {a b : StoreNamespace}
    (h : ListedFirst (part :: a) (part :: b)) : ListedFirst a b :=
  fun next rest heq => h next rest (by rw [heq, cons_append])

theorem names_lt {a b : StoreNamespace} {k l : Bytes} (h : a < b ∨ a = b ∧ k < l)
    (hlisted : ListedFirst a b) (hparts : ∀ part ∈ b, part ≠ []) :
    key (a.map hexEncode ++ [lit "@", hexEncode k]) <
      key (b.map hexEncode ++ [lit "@", hexEncode l]) := by
  induction a generalizing b with
  | nil =>
    cases b with
    | nil =>
      rcases h with h | ⟨-, h⟩
      · exact absurd h (irrefl_of (· < ·) ([] : StoreNamespace))
      · exact Lex.append_left _ (hexEncode_lt h) (lit "@" ++ [slash])
    | cons part b =>
      -- `@` against the first digit of the part
      cases part with
      | nil => exact absurd rfl (hparts [] mem_cons_self)
      | cons byte part =>
        have hbyte : 160 ≤ byte.toNat := hlisted (byte :: part) b rfl byte rfl
        rw [map_cons, cons_append, key_cons (by simp), hexEncode_cons]
        refine cons_lt_cons_iff.mpr (.inl ?_)
        have hlt := byte.toNat_lt
        rw [UInt8.lt_iff_toNat_lt, nibble_toNat (by omega), if_neg (by omega)]
        change 64 < _; omega
  | cons part a ih =>
    cases b with
    | nil =>
      rcases h with h | ⟨h, -⟩
      · exact absurd h (not_lt_nil _)
      · cases h
    | cons other b =>
      rw [map_cons, map_cons, cons_append, cons_append, key_cons (by simp), key_cons (by simp)]
      have hrest : part < other ∨ part = other ∧ (a < b ∨ a = b ∧ k < l) := by
        rcases h with h | ⟨h, hkl⟩
        · rcases cons_lt_cons_iff.mp h with h | ⟨h, hab⟩
          · exact .inl h
          · exact .inr ⟨h, .inl hab⟩
        · obtain ⟨hpart, hab⟩ := cons.inj h
          exact .inr ⟨hpart, .inr ⟨hab, hkl⟩⟩
      rcases hrest with hpart | ⟨rfl, hrest⟩
      · exact segment_lt (hexEncode_lt hpart)
          (fun byte hbyte => slash_lt_of_isHex (isHex_of_mem_hexEncode hbyte)) _ _
      · have hlt := ih hrest hlisted.tail fun p hp => hparts p (mem_cons_of_mem _ hp)
        have := Lex.append_left (· < ·) hlt (hexEncode part ++ [slash])
        rwa [append_assoc, append_assoc] at this

namespace StorageStore

variable (store : StorageStore)

theorem keyAt_lt {a b : StoreSlot} (h : a < b) (hlisted : ListedFirst a.bucket b.bucket)
    (hparts : ∀ part ∈ b.bucket, part ≠ []) : store.keyAt a < store.keyAt b := by
  refine .inr ⟨rfl, ?_⟩
  change key (lit "items" :: (a.bucket.map hexEncode ++ _)) <
    key (lit "items" :: (b.bucket.map hexEncode ++ _))
  rw [key_cons (by simp), key_cons (by simp)]
  have := Lex.append_left (· < ·) (names_lt h hlisted hparts) (lit "items" ++ [slash])
  rwa [append_assoc, append_assoc] at this

/-! ## 2. Representation -/

/-- The text under which an item of the in-memory store is kept in the storage. -/
def textAt (entry : StoreSlot × StoreItem StoreTimes) : Bytes :=
  (storeEnvelopeFromItem entry.1.bucket entry.1.key entry.2.value).compact

/-- The last of the writes to a slot stored an item there. -/
def Held (written : List StoreOp) (slot : StoreSlot) : Prop :=
  ∃ put, lastWrite slot written = some put ∧ put.value ≠ none

/-- The items a scan below a path comes across are in the same order in both stores. -/
def ListedBelow (written : List StoreOp) (path : StoreNamespace) : Prop :=
  ∀ a b, Held written a → Held written b → path <+: a.bucket → path <+: b.bucket →
    ListedFirst a.bucket b.bucket

/-- An item that both stores hold after the given writes: its value is a value of the library that
    can be written and has no NaN and no infinity. -/
structure Holdable (written : List StoreOp) (slot : StoreSlot) (value : Json) : Prop where
  valid : ValidSlot slot
  held : Held written slot
  lawful : value.lawful store.json.isDouble = true
  finite : value.finite = true
  isUtf8 : (storeEnvelopeFromItem slot.bucket slot.key value).isUtf8 = true

/-- The scope of the store holds exactly the items of the in-memory store. -/
structure Represents (written : List StoreOp) (memory : Store.InMemoryStore)
    (s : TimedStorage) : Prop where
  find : ∀ slot, s.find (store.keyAt slot) = (memory.find slot).map fun item => textAt (slot, item)
  known : ∀ key text, key.scope = store.scope → s.find key = some text →
    ∃ slot, key = store.keyAt slot
  holdable : ∀ slot item, memory.find slot = some item → store.Holdable written slot item.value

theorem parts_ne_nil {nameSpace : StoreNamespace} (h : validateStoreNamespace nameSpace = .ok ()) :
    ∀ part ∈ nameSpace, part ≠ [] := by
  obtain ⟨-, h⟩ := of_require h
  obtain ⟨-, h⟩ := of_require h
  intro part hpart
  simpa using (of_require (forM_eq_ok_iff.mp h part hpart)).1

variable {store} {written : List StoreOp} {memory : Store.InMemoryStore} {s : TimedStorage}

section

variable (hrep : store.Represents written memory s)

include hrep

theorem Represents.read {slot : StoreSlot} {item found : StoreItem StoreTimes}
    (hitem : memory.find slot = some item)
    (hfound : store.itemAt s (store.keyAt slot, textAt (slot, item)) = .ok found) :
    found.timeless = item.timeless := by
  have hhold := hrep.holdable slot item hitem
  have hparse : Yields (parseStoreEnvelope store.json (textAt (slot, item))) _ _ :=
    parseStoreEnvelope_compact hhold.valid hhold.lawful hhold.isUtf8
  obtain ⟨envelope, henvelope, hfound⟩ := of_bind hfound
  obtain ⟨-, rfl⟩ := hparse.of_ok henvelope
  cases hfound
  have hslot : item.slot = slot := memory.named slot item hitem
  rw [Json.reread_of_finite _ hhold.finite]
  subst hslot; rfl

theorem Represents.view_eq (slot : StoreSlot) :
    store.view s (store.keyAt slot) = (memory.find slot).map fun item =>
      store.itemAt s (store.keyAt slot, textAt (slot, item)) := by
  rw [view, hrep.find, Option.map_map]; rfl

/-- A scan below a namespace finds the items at and below it. -/
theorem Represents.mem_views_iff (hscope : store.scope ≠ []) (nameSpace : StoreNamespace)
    {found : StorageKey × Result (StoreItem StoreTimes)} :
    found ∈ store.views s (dir (lit "items" :: nameSpace.map hexEncode)) ↔
      found ∈ (memory.items.entries.filter fun entry => nameSpace.isPrefixOf entry.1.bucket).map
        fun entry => (store.keyAt entry.1, store.itemAt s (store.keyAt entry.1, textAt entry)) := by
  have hviews : OrderedMap.Increasing
      (store.views s (dir (lit "items" :: nameSpace.map hexEncode))) :=
    pairwise_map.mpr (s.storage.increasing.filter _)
  obtain ⟨key, found⟩ := found
  rw [← hviews.find_eq_some_iff, find_views, mem_map]
  constructor
  · intro h
    split_ifs at h with hmatches
    -- the key belongs to the store, so it is the key of an item
    obtain ⟨text, htext, -⟩ := Option.map_eq_some_iff.mp h
    have hkeyScope : key.scope = store.scope :=
      ((storageKeyMatchesListOptions_iff
        (show (store.listOptions _).scope ≠ [] from hscope)).mp hmatches).1
    obtain ⟨slot, rfl⟩ := hrep.known key text hkeyScope htext
    rw [hrep.view_eq] at h
    obtain ⟨item, hitem, rfl⟩ := Option.map_eq_some_iff.mp h
    refine ⟨(slot, item), mem_filter.mpr ⟨mem_entries_iff.mpr hitem, ?_⟩, rfl⟩
    exact List.isPrefixOf_iff_prefix.mpr ((matches_keyAt_iff hscope).mp hmatches)
  · rintro ⟨⟨slot, item⟩, hentry, heq⟩
    cases heq
    obtain ⟨hmem, hprefixed⟩ := mem_filter.mp hentry
    have hbelow := List.isPrefixOf_iff_prefix.mp hprefixed
    rw [if_pos ((matches_keyAt_iff hscope).mpr hbelow),
      hrep.view_eq, show memory.find slot = some item from mem_entries_iff.mp hmem]
    rfl

/-- It goes through them in the order of the in-memory store. -/
theorem Represents.views_eq (hscope : store.scope ≠ []) {nameSpace : StoreNamespace}
    (hlisted : ListedBelow written nameSpace) :
    store.views s (dir (lit "items" :: nameSpace.map hexEncode)) =
      (memory.items.entries.filter fun entry => nameSpace.isPrefixOf entry.1.bucket).map
        fun entry => (store.keyAt entry.1, store.itemAt s (store.keyAt entry.1, textAt entry)) := by
  have hviews : OrderedMap.Increasing
      (store.views s (dir (lit "items" :: nameSpace.map hexEncode))) :=
    pairwise_map.mpr (s.storage.increasing.filter _)
  refine hviews.ext_mem (pairwise_map.mpr ?_) fun found => hrep.mem_views_iff hscope nameSpace
  refine (memory.items.entries_increasing.filter _).imp_of_mem fun {a b} ha hb hab => ?_
  obtain ⟨ha, hbelowA⟩ := mem_filter.mp ha
  obtain ⟨hb, hbelowB⟩ := mem_filter.mp hb
  have hholdA := hrep.holdable _ _ (mem_entries_iff.mp ha)
  have hholdB := hrep.holdable _ _ (mem_entries_iff.mp hb)
  have hprefixA := isPrefixOf_iff_prefix.mp hbelowA
  have hprefixB := isPrefixOf_iff_prefix.mp hbelowB
  exact store.keyAt_lt hab (hlisted _ _ hholdA.held hholdB.held hprefixA hprefixB)
    (parts_ne_nil hholdB.valid.1)

end

/-! ## 3. Reads -/

variable (order : JsonOrder)

theorem begins_iff {path : StoreNamespace} (hpath : wildcard ∉ path) {nameSpace : StoreNamespace} :
    Begins path nameSpace ↔ path <+: nameSpace := by
  rw [Begins, prefix_iff_getElem?]
  constructor
  · rintro ⟨-, hparts⟩ i hi
    rcases hparts i hi with hwildcard | hsame
    · exact absurd (mem_of_getElem? hwildcard) hpath
    · rw [← hsame, getElem?_eq_getElem hi]
  · intro hparts
    refine ⟨(prefix_iff_getElem?.mpr hparts).length_le, fun i hi => .inr ?_⟩
    rw [hparts i hi, getElem?_eq_getElem hi]

theorem reaches_eq {op : StoreSearchOp} (h : wildcard ∉ op.namespacePrefix)
    (nameSpace : StoreNamespace) :
    Store.InMemoryStore.reaches op nameSpace = op.namespacePrefix.isPrefixOf nameSpace := by
  rw [Store.InMemoryStore.reaches_eq, Bool.eq_iff_iff, decide_eq_true_eq, begins_iff h,
    isPrefixOf_iff_prefix]

theorem foldlM_agree {op : StoreSearchOp} {entries : List (StoreSlot × StoreItem StoreTimes)}
    {read : StoreSlot × StoreItem StoreTimes → StorageKey × Result (StoreItem StoreTimes)}
    (hread : ∀ entry ∈ entries, ∀ found, (read entry).2 = .ok found →
      found.timeless = entry.2.timeless)
    {a b r r' : StoreSearchState StoreTimes} (hab : b.timeless = a.timeless)
    (h : (entries.map Prod.snd).foldlM (visit order op) a = .ok r)
    (h' : (entries.map read).foldlM (visitView order op) b = .ok r') :
    r'.timeless = r.timeless := by
  induction entries generalizing a b with
  | nil =>
    cases h
    cases h'; exact hab
  | cons entry entries ih =>
    obtain ⟨hentry, hread⟩ := forall_mem_cons.mp hread
    rw [map_cons, foldlM_cons, bind_eq_ok] at h h'
    obtain ⟨a', ha', h⟩ := h
    obtain ⟨b', hb', h'⟩ := h'
    refine ih hread ?_ h h'
    have hlength : b.out.length = a.out.length := by
      have := congrArg (fun search => search.out.length) hab
      simpa [timeless] using this
    have hvisit := a.timeless_visit order ha'
    rw [visitView] at hb'
    split_ifs at hb' with hfull
    · -- both pages are full
      rw [hlength] at hfull
      rw [visit, if_pos hfull] at ha'
      cases ha'
      cases hb'; exact hab
    · obtain ⟨found, hfound, hb'⟩ := of_bind hb'
      have hvisit' := b.timeless_visit order hb'
      rw [hab, hentry found hfound, hvisit] at hvisit'
      exact (Except.ok.inj hvisit').symm

theorem contents_filter (memory : Store.InMemoryStore) (p : StoreNamespace → Bool) :
    memory.contents.filter (fun item => p item.nameSpace) =
      (memory.items.entries.filter fun entry => p entry.1.bucket).map Prod.snd := by
  rw [Store.InMemoryStore.contents, filter_map]
  refine congrArg _ (filter_congr fun entry hentry => ?_)
  have hslot := memory.named entry.1 entry.2 (mem_entries_iff.mp hentry)
  exact congrArg p (congrArg Slot.bucket hslot)

section Answers

variable (hrep : store.Represents written memory s)

include hrep

variable {r r' : StoreBatchResult StoreTimes}

theorem search_agree (hscope : store.scope ≠ []) {op : StoreSearchOp}
    (hop : wildcard ∉ op.namespacePrefix) (hlisted : ListedBelow written op.namespacePrefix)
    (h : memory.search order op = .ok r)
    (h' : store.search order op s = .ok r') : r'.timeless = r.timeless := by
  obtain ⟨-, -, h⟩ := of_bind h
  obtain ⟨-, -, h'⟩ := of_bind h'
  split_ifs at h h' with hlimit
  · cases h
    cases h'; rfl
  · obtain ⟨found, hfound, h⟩ := of_bind h
    obtain ⟨found', hfound', h'⟩ := of_bind h'
    cases h
    cases h'
    rw [Store.InMemoryStore.searchItems_eq, contents_filter] at hfound
    simp only [reaches_eq hop] at hfound
    rw [searchItems_eq] at hfound'
    obtain ⟨keyPrefix, hkeyPrefix, hfound'⟩ := of_bind hfound'
    obtain ⟨-, -, hkeyPrefix⟩ := of_bind hkeyPrefix
    cases hkeyPrefix
    obtain ⟨-, -, hfound'⟩ := of_bind hfound'
    rw [hrep.views_eq hscope hlisted] at hfound'
    have hout := foldlM_agree order (fun entry hentry found hread => hrep.read
      (mem_entries_iff.mp (mem_filter.mp hentry).1) hread) rfl hfound hfound'
    exact congrArg (fun search => StoreBatchResult.items search.out) hout

theorem getItem_agree {nameSpace : StoreNamespace} {name : Bytes}
    (h : memory.getItem nameSpace name = .ok r) (h' : store.getItem nameSpace name s = .ok r') :
    r'.timeless = r.timeless := by
  let slot : StoreSlot := ⟨nameSpace, name⟩
  obtain ⟨-, -, h⟩ := of_bind h
  obtain ⟨-, -, h⟩ := of_bind h
  have hview := h'
  obtain ⟨storageKey, hkey, h'⟩ := of_bind h'
  obtain ⟨hvalid, rfl⟩ := storageKeyFor_ok_iff.mp
    (show store.storageKeyFor slot.bucket slot.key = .ok storageKey from hkey)
  obtain ⟨found, hget, -⟩ := of_bind h'
  obtain ⟨⟨⟩, hkeyValid, -⟩ := of_bind hget
  rw [show store.getItem nameSpace name s = store.getItem slot.bucket slot.key s from rfl,
    getItem_eq_view hvalid hkeyValid, hrep.view_eq] at hview
  cases hitem : memory.find slot with
  | none =>
    rw [show memory.find ⟨nameSpace, name⟩ = none from hitem] at h
    rw [hitem] at hview
    cases h
    cases hview; rfl
  | some item =>
    rw [show memory.find ⟨nameSpace, name⟩ = some item from hitem] at h
    rw [hitem] at hview
    cases h
    cases hread : store.itemAt s (store.keyAt slot, textAt (slot, item)) with
    | error =>
      rw [Option.map_some, hread] at hview; cases hview
    | ok =>
      rw [Option.map_some, hread] at hview
      cases hview; exact congrArg StoreBatchResult.item (hrep.read hitem hread)

theorem listNamespaces_agree (hscope : store.scope ≠ []) {op : StoreListNamespacesOp}
    (h : memory.listNamespaces op = .ok r) (h' : store.listNamespaces op s = .ok r') :
    r'.timeless = r.timeless := by
  obtain ⟨-, -, h⟩ := of_bind h
  obtain ⟨-, -, h'⟩ := of_bind h'
  split_ifs at h h' with hlimit
  · cases h
    cases h'; rfl
  · obtain ⟨items, hitems, h'⟩ := of_bind h'
    cases h
    cases h'
    rw [listStorageStoreItems_eq] at hitems
    obtain ⟨-, -, hitems⟩ := of_bind hitems
    have hviews : ∀ found, found ∈ store.views s (dir [lit "items"]) ↔ _ := fun found =>
      hrep.mem_views_iff hscope []
    -- whatever their order, the items that were read are those in memory
    have hread : ∀ {entry : StoreSlot × StoreItem StoreTimes} {item : StoreItem StoreTimes},
        entry ∈ memory.items.entries → store.itemAt s (store.keyAt entry.1, textAt entry) = .ok item →
        item.nameSpace = entry.1.bucket := by
      intro entry item hentry hitem
      have hfind := mem_entries_iff.mp hentry
      have hsame := congrArg StoreItem.nameSpace (hrep.read hfind hitem)
      exact hsame.trans (congrArg Slot.bucket (memory.named _ _ hfind))
    refine congrArg StoreBatchResult.namespaces (op.page_congr fun nameSpace => ?_)
    rw [mem_buckets_iff, mem_map]
    constructor
    · rintro ⟨item, hitem, rfl⟩
      obtain ⟨found, hfound, hok⟩ := exists_of_mem_mapM hitems hitem
      obtain ⟨entry, hentry, rfl⟩ := mem_map.mp ((hviews found).mp hfound)
      have hmem := (mem_filter.mp hentry).1
      rw [hread hmem hok]
      exact ⟨entry.1.key, entry.2, mem_entries_iff.mp hmem⟩
    · rintro ⟨name, item, hitem⟩
      have hmem : ((⟨nameSpace, name⟩ : StoreSlot), item) ∈ memory.items.entries :=
        mem_entries_iff.mpr hitem
      obtain ⟨read, hin, hok⟩ := exists_mem_of_mapM hitems ((hviews _).mpr (mem_map.mpr
        ⟨_, mem_filter.mpr ⟨hmem, rfl⟩, rfl⟩))
      exact ⟨read, hin, hread hmem hok⟩

end Answers

/-! ## 4. Batches and runs -/

variable (store written) in
/-- The writes and searches of a batch on which the stores agree. -/
structure Fits (ops : List StoreOp) : Prop where
  put : ∀ put : StorePutOp, .put put ∈ ops → ∀ value ∈ put.value,
    value.lawful store.json.isDouble = true ∧ value.finite = true
  search : ∀ op : StoreSearchOp, .search op ∈ ops →
    wildcard ∉ op.namespacePrefix ∧ ListedBelow written op.namespacePrefix

variable {ops : List StoreOp}

theorem answer_agree (hrep : store.Represents written memory s) (hscope : store.scope ≠ [])
    (hfits : store.Fits written ops) {op : StoreOp} (hop : op ∈ ops)
    {r r' : StoreBatchResult StoreTimes} (h : memory.answer order op = .ok r)
    (h' : store.answer order s op = .ok r') : r'.timeless = r.timeless := by
  cases op with
  | get => exact getItem_agree hrep h h'
  | search op =>
    obtain ⟨hwildcard, hlisted⟩ := hfits.search op hop
    exact search_agree order hrep hscope hwildcard hlisted h h'
  | put =>
    obtain ⟨-, -, h⟩ := of_bind h
    obtain ⟨-, -, h⟩ := of_bind h
    obtain ⟨-, -, h'⟩ := of_bind h'
    cases h
    cases h'; rfl
  | listNamespaces => exact listNamespaces_agree hrep hscope h h'

theorem lastWrite_append (slot : StoreSlot) (written ops : List StoreOp) :
    lastWrite slot (written ++ ops) = (lastWrite slot ops).or (lastWrite slot written) := by
  rw [lastWrite, filterMap_append, reverse_append, find?_append]; rfl

theorem Represents.batch (hrep : store.Represents written memory s) (hfits : store.Fits written ops)
    {clock clock' : Nat → Int} {results : List (StoreBatchResult StoreTimes)}
    (h' : (store.batch order clock' ops s).1 = .ok results) :
    store.Represents (written ++ ops) (memory.applyPuts clock (pendingPuts ops))
      (store.batch order clock' ops s).2 := by
  obtain ⟨-, hother⟩ := store.batch_made order clock' ops s
  have huntouched : ∀ slot, lastWrite slot ops = none →
      Untouched (store.keyAt slot) s (store.batch order clock' ops s).2 := by
    refine fun slot hnone => hother _ fun write hwrite heq => ?_
    have hlast := lastWrite_of_mem_madeWrites order hwrite
    rw [← store.keyAt_injective heq, hnone] at hlast; cases hlast
  constructor
  · -- the clocks differ, but the stored text holds no time
    intro slot
    obtain ⟨tick, hfind⟩ := memory.find_applyPuts clock ops slot
    cases hlast : lastWrite slot ops with
    | none =>
      rw [hlast] at hfind
      rw [(huntouched slot hlast).1, hrep.find, hfind]
    | some put =>
      obtain ⟨rfl, -⟩ := mem_of_lastWrite hlast
      obtain ⟨now', hmade⟩ := store.made_of_batch_ok order h' hlast
      rw [hlast] at hfind
      rw [hmade.find, hfind, StorePutOp.text]
      change _ = (put.effect (clock tick) (memory.find put.slot)).map _
      rw [StorePutOp.effect, Option.map_map]
      cases put.value with
      | none => rfl
      | some value =>
        have hvalue : (put.written value (clock tick) (memory.find put.slot)).value = value := by
          cases memory.find put.slot <;> rfl
        exact congrArg (fun value => some (storeEnvelopeFromItem put.nameSpace put.key value).compact)
          hvalue.symm
  · -- a key of the scope is a slot's: either this batch wrote it or it was there before
    intro key text hkeyScope htext
    by_cases hkey : ∃ write ∈ store.madeWrites order clock' ops s, key = store.keyAt write.1.slot
    · obtain ⟨write, -, rfl⟩ := hkey
      exact ⟨_, rfl⟩
    · have hsame := hother key fun write hwrite heq => hkey ⟨write, hwrite, heq⟩
      exact hrep.known key text hkeyScope (hsame.1.symm.trans htext)
  · intro slot item hitem
    obtain ⟨tick, hfind⟩ := memory.find_applyPuts clock ops slot
    rw [hitem] at hfind
    cases hlast : lastWrite slot ops with
    | none =>
      rw [hlast] at hfind
      obtain ⟨put, hput, hsome⟩ := (hrep.holdable slot item hfind.symm).held
      have hheld : Held (written ++ ops) slot :=
        ⟨put, by rw [lastWrite_append, hlast, hput]; rfl, hsome⟩
      exact { hrep.holdable slot item hfind.symm with held := hheld }
    | some put =>
      obtain ⟨rfl, hmem⟩ := mem_of_lastWrite hlast
      obtain ⟨now', hmade⟩ := store.made_of_batch_ok order h' hlast
      rw [hlast] at hfind
      obtain ⟨value, hvalue, hwritten⟩ := Option.map_eq_some_iff.mp hfind.symm
      have hitemValue : item.value = value := by
        rw [← hwritten]
        cases memory.find put.slot <;> rfl
      rw [hitemValue]
      obtain ⟨hlawful, hfinite⟩ := hfits.put put hmem value hvalue
      have hheld : Held (written ++ ops) put.slot :=
        ⟨put, by rw [lastWrite_append, hlast]; rfl, by rw [hvalue]; exact Option.some_ne_none value⟩
      exact ⟨hmade.valid, hheld, hlawful, hfinite, hmade.isUtf8 value hvalue⟩

variable (store) in
/-- Batch after batch, as long as they are accepted.  `clock i` is the clock of batch `i`. -/
def run (clock : Nat → Nat → Int) :
    List (List StoreOp) → TimedStorage → Result (List (List (StoreBatchResult StoreTimes)))
  | [], _ => .ok []
  | ops :: batches, s => do
    let results ← (store.batch order (clock 0) ops s).1
    let rest ← run (fun i => clock (i + 1)) batches (store.batch order (clock 0) ops s).2
    return results :: rest

def runMemory (clock : Nat → Nat → Int) :
    List (List StoreOp) → Store.InMemoryStore → Result (List (List (StoreBatchResult StoreTimes)))
  | [], _ => .ok []
  | ops :: batches, memory => do
    let results ← (memory.batch order (clock 0) ops).1
    let rest ← runMemory (fun i => clock (i + 1)) batches (memory.batch order (clock 0) ops).2
    return results :: rest

/-- The results of batches without the times of the items. -/
def timelessResults (results : List (List (StoreBatchResult StoreTimes))) :
    List (List (StoreBatchResult Unit)) :=
  results.map fun batch => batch.map StoreBatchResult.timeless

theorem batch_agree (hrep : store.Represents written memory s) (hfits : store.Fits written ops)
    {clock clock' : Nat → Int} {r r' : List (StoreBatchResult StoreTimes)}
    (h : (memory.batch order clock ops).1 = .ok r)
    (h' : (store.batch order clock' ops s).1 = .ok r') :
    r'.map StoreBatchResult.timeless = r.map StoreBatchResult.timeless ∧
      store.Represents (written ++ ops) (memory.batch order clock ops).2
        (store.batch order clock' ops s).2 := by
  have hnext : store.Represents (written ++ ops) (memory.applyPuts clock (pendingPuts ops)) _ :=
    hrep.batch order hfits h'
  unfold Store.InMemoryStore.batch at h ⊢
  rw [batchResults_eq] at h ⊢
  cases hanswers : ops.mapM (memory.answer order) with
  | error =>
    rw [hanswers] at h; cases h
  | ok =>
    rw [hanswers] at h
    cases h
    refine ⟨?_, hnext⟩
    unfold batch at h'
    cases hpass : store.firstPass order ops s with
    | error =>
      rw [hpass] at h'; cases h'
    | ok passed =>
      obtain ⟨answers', pending⟩ := passed
      have hscope : store.scope ≠ [] := by
        obtain ⟨⟨⟩, hoptions, -⟩ := of_bind hpass
        simpa using (of_require hoptions).1
      obtain ⟨hanswers', rfl⟩ := firstPass_ok order hpass
      rw [hpass] at h'
      have hr' : r' = answers' := by
        dsimp only at h'
        cases hwritten : (store.applyPuts (timedPuts clock' (pendingPuts ops)) s).1 with
        | error =>
          rw [hwritten] at h'; cases h'
        | ok =>
          rw [hwritten] at h'; exact (Except.ok.inj h').symm
      subst hr'
      exact mapM_agree (fun op hop _ _ h h' => answer_agree order hrep hscope hfits hop h h')
        hanswers hanswers'

theorem run_agree {batches : List (List StoreOp)} (hrep : store.Represents written memory s)
    (hfits : ∀ before ops after, batches = before ++ ops :: after →
      store.Fits (written ++ before.flatten) ops) {clock clock' : Nat → Nat → Int}
    {r r' : List (List (StoreBatchResult StoreTimes))}
    (h : runMemory order clock batches memory = .ok r) (h' : store.run order clock' batches s = .ok r') :
    timelessResults r' = timelessResults r := by
  induction batches generalizing written memory s clock clock' r r' with
  | nil =>
    cases h
    cases h'; rfl
  | cons ops batches ih =>
    have hops : store.Fits written ops := by
      have hfirst := hfits [] ops batches rfl
      rwa [flatten_nil, append_nil] at hfirst
    obtain ⟨results, hresults, h⟩ := of_bind h
    obtain ⟨rest, hrest, h⟩ := of_bind h
    obtain ⟨results', hresults', h'⟩ := of_bind h'
    obtain ⟨rest', hrest', h'⟩ := of_bind h'
    cases h
    cases h'
    obtain ⟨hsame, hnext⟩ := batch_agree order hrep hops hresults hresults'
    have htail := ih hnext (fun before next after heq => ?_) hrest hrest'
    · exact congrArg₂ cons hsame htail
    · have hlater := hfits (ops :: before) next after (by rw [heq, cons_append])
      rwa [flatten_cons, ← append_assoc] at hlater

/-- Batches on which the two stores agree: no search has a wildcard, no value that is put has NaN
    or an infinity, and no search covers a namespace that has items by then and another one below
    it whose next part starts with a byte below `0xA0`. -/
structure Comparable (batches : List (List StoreOp)) : Prop where
  search : ∀ ops ∈ batches, ∀ op : StoreSearchOp, .search op ∈ ops → wildcard ∉ op.namespacePrefix
  finite : ∀ ops ∈ batches, ∀ put : StorePutOp, .put put ∈ ops → ∀ value ∈ put.value,
    value.finite = true
  ordered : ∀ before ops after, batches = before ++ ops :: after →
    ∀ op : StoreSearchOp, .search op ∈ ops → ListedBelow before.flatten op.namespacePrefix

/-- On comparable batches that both accept, a store whose scope of the storage is empty at the
    start gives the results of an empty in-memory store: the same items in the same order. -/
theorem stores_agree (store : StorageStore) {batches : List (List StoreOp)}
    (hcomparable : Comparable batches)
    (hlawful : ∀ ops ∈ batches, ∀ put : StorePutOp, .put put ∈ ops → ∀ value ∈ put.value,
      value.lawful store.json.isDouble = true)
    {s : TimedStorage} (hempty : ∀ key, key.scope = store.scope → s.find key = none)
    {clock clock' : Nat → Nat → Int} {r r' : List (List (StoreBatchResult StoreTimes))}
    (h : runMemory order clock batches .empty = .ok r)
    (h' : store.run order clock' batches s = .ok r') :
    timelessResults r' = timelessResults r := by
  have hrep : store.Represents [] .empty s := {
    find := fun slot => hempty _ rfl
    known := fun key text hscope hfind => by
      rw [hempty key hscope] at hfind; cases hfind
    holdable := fun slot item hitem => by cases hitem }
  refine run_agree order hrep (fun before ops after heq => ?_) h h'
  have hops : ops ∈ batches := heq ▸ mem_append_right before mem_cons_self
  exact {
    put := fun put hput value hvalue => ⟨hlawful ops hops put hput value hvalue,
      hcomparable.finite ops hops put hput value hvalue⟩
    search := fun op hop => ⟨hcomparable.search ops hops op hop,
      hcomparable.ordered before ops after heq op hop⟩ }

theorem stores_agree_on_page :
    let store : StorageStore := { json := plainJson }
    let batches : List (List StoreOp) :=
      [[.put ⟨[lit "b"], lit "k", some (.int 2)⟩, .put ⟨[lit "a"], lit "k", some (.int 1)⟩],
        [.search { namespacePrefix := [], limit := 1, offset := 1 }]]
    let found : List (List (StoreBatchResult StoreTimes)) :=
      [[.monostate, .monostate], [.items [⟨[lit "b"], lit "k", .int 2, ⟨7, 7⟩⟩]]]
    let found' : List (List (StoreBatchResult StoreTimes)) :=
      [[.monostate, .monostate], [.items [⟨[lit "b"], lit "k", .int 2, ⟨9, 9⟩⟩]]]
    runMemory .ofIntegers (fun _ _ => 7) batches .empty = .ok found ∧
      store.run .ofIntegers (fun _ _ => 9) batches ⟨.empty, fun _ => ⟨0, 0⟩⟩ = .ok found' ∧
      timelessResults found' = timelessResults found := by
  intro store batches found found'
  have hmemory : runMemory .ofIntegers (fun _ _ => 7) batches .empty = .ok found := by
    decide +kernel
  have hstorage : store.run .ofIntegers (fun _ _ => 9) batches ⟨.empty, fun _ => ⟨0, 0⟩⟩ =
      .ok found' := by
    decide +kernel
  have hputs : ∀ ops ∈ batches, ∀ put : StorePutOp, .put put ∈ ops →
      put = ⟨[lit "b"], lit "k", some (.int 2)⟩ ∨ put = ⟨[lit "a"], lit "k", some (.int 1)⟩ := by
    simp [batches]
  have hcomparable : Comparable batches := {
    search := by simp [batches]
    finite := fun ops hops put hput value hvalue => by
      rcases hputs ops hops put hput with rfl | rfl <;> cases hvalue <;> rfl
    ordered := by
      intro before ops after heq op _
      have hheld : ∀ slot, Held before.flatten slot → slot.bucket.length = 1 := by
        rintro slot ⟨put, hput, -⟩
        obtain ⟨rfl, hmem⟩ := mem_of_lastWrite hput
        obtain ⟨earlier, hearlier, hmem⟩ := mem_flatten.mp hmem
        rcases hputs earlier (heq ▸ mem_append_left _ hearlier) put hmem with rfl | rfl <;> rfl
      -- no namespace with items is below another
      intro a b ha hb _ _ part rest hbelow
      have hlength := congrArg length hbelow
      rw [length_append, hheld a ha, hheld b hb, length_cons] at hlength; omega }
  have hlawful : ∀ ops ∈ batches, ∀ put : StorePutOp, .put put ∈ ops → ∀ value ∈ put.value,
      value.lawful store.json.isDouble = true := by
    intro ops hops put hput value hvalue
    rcases hputs ops hops put hput with rfl | rfl <;> cases hvalue <;> decide +kernel
  exact ⟨hmemory, hstorage,
    stores_agree .ofIntegers store hcomparable hlawful (fun _ _ => rfl) hmemory hstorage⟩

/-- Three differences.  A wildcard in the path of a search is a wildcard in memory and a literal
    part in the storage.  Items of `a` and `a/b` come in this order in memory and the other way
    round from the storage.  And NaN comes back from the storage as null. -/
theorem stores_differ :
    let store : StorageStore := { json := plainJson }
    let s : TimedStorage := ⟨.empty, fun _ => ⟨0, 0⟩⟩
    let a : StoreItem StoreTimes := ⟨[lit "a"], lit "k", .int 1, ⟨0, 0⟩⟩
    let b : StoreItem StoreTimes := ⟨[lit "a", lit "b"], lit "k", .int 2, ⟨0, 0⟩⟩
    let puts : List StoreOp :=
      [.put ⟨[lit "a"], lit "k", some (.int 1)⟩, .put ⟨[lit "a", lit "b"], lit "k", some (.int 2)⟩]
    let search : List StoreOp := [.search { namespacePrefix := [wildcard] }]
    let scan : List StoreOp := [.search { namespacePrefix := [lit "a"] }]
    let nan : List StoreOp := [.put ⟨[lit "a"], lit "k", some .nonFinite⟩]
    let get : List StoreOp := [.get [lit "a"] (lit "k")]
    let done : List (StoreBatchResult StoreTimes) := [.monostate, .monostate]
    (runMemory .ofIntegers (fun _ _ => 0) [puts, search] .empty = .ok [done, [.items [a, b]]] ∧
      store.run .ofIntegers (fun _ _ => 0) [puts, search] s = .ok [done, [.items []]]) ∧
    (runMemory .ofIntegers (fun _ _ => 0) [puts, scan] .empty = .ok [done, [.items [a, b]]] ∧
      store.run .ofIntegers (fun _ _ => 0) [puts, scan] s = .ok [done, [.items [b, a]]]) ∧
    (runMemory .ofIntegers (fun _ _ => 0) [nan, get] .empty =
        .ok [[.monostate], [.item { a with value := .nonFinite }]] ∧
      store.run .ofIntegers (fun _ _ => 0) [nan, get] s =
        .ok [[.monostate], [.item { a with value := .null }]]) := by
  decide +kernel

end StorageStore

end LangGraph
