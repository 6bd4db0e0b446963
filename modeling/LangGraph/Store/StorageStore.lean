import LangGraph.Foundation.JsonLimits
import LangGraph.Foundation.JsonReread
import LangGraph.Foundation.Storage
import LangGraph.Lib.KeyPath
import LangGraph.Store.Types

/-!
# The store over a storage

`StorageStore` keeps each item under a key of a flat storage: `items/`, the parts of the namespace
in hexadecimal, `@` and the key in hexadecimal.  The value is the text of an envelope with the
names and the value of the item.  A batch first answers its reads, as the in-memory store does,
and then writes one item after another.
-/

namespace LangGraph

open ByteString KeyPath ExceptList Json List

/-! ## 1. Envelopes -/

def kStoreItemSchemaVersion : Nat := 1

structure ParsedStoreEnvelope where
  nameSpace : StoreNamespace
  key : Bytes
  value : Json
  schemaVersion : Nat
deriving DecidableEq

def storeNamespaceToJson (nameSpace : StoreNamespace) : Json := .arr (nameSpace.map .str)

def storeNamespacePartFromJson : Json → Result Bytes
  | .str part => .ok part
  | _ => .error (.invalidArgument (lit "stored store namespace parts must be strings"))

def storeNamespaceFromJson : Json → Result StoreNamespace
  | .arr items => do
    let nameSpace ← items.mapM storeNamespacePartFromJson
    validateStoreNamespace nameSpace
    return nameSpace
  | _ => .error (.invalidArgument (lit "stored store namespace must be an array"))

def checkStoreSchemaVersion (version : Nat) : Result Nat := do
  require (version ≤ 2 ^ 32 - 1)
    (.resourceExhausted (lit "stored store item schema_version is too large"))
  require (version ≤ kStoreItemSchemaVersion)
    (.unimplemented (lit "stored store item schema_version is newer than this runtime"))
  return version

def storeSchemaVersionFromJson (value : Json) : Result Nat :=
  match value.field (lit "schema_version") with
  | none => .ok 0
  | some (.int (.ofNat version)) => checkStoreSchemaVersion version
  | some _ =>
    .error (.invalidArgument (lit "stored store item schema_version must be unsigned integer"))

def storedField (name message : Bytes) (value : Json) : Result Json :=
  match value.field name with
  | some found => .ok found
  | none => .error (.invalidArgument message)

def storedKey (value : Json) : Result Bytes :=
  match value.field (lit "key") with
  | some (.str key) => .ok key
  | _ => .error (.invalidArgument (lit "stored store item key is required"))

def parseStoreEnvelope (json : JsonLibrary) (text : Bytes) : Result ParsedStoreEnvelope := do
  let parsed ← parseJsonWithLimits json text (lit "stored store item")
  require parsed.isObject (.invalidArgument (lit "stored store item must be an object"))
  let schemaVersion ← storeSchemaVersionFromJson parsed
  let namespaceField ←
    storedField (lit "namespace") (lit "stored store item namespace is required") parsed
  let key ← storedKey parsed
  let value ← storedField (lit "value") (lit "stored store item value is required") parsed
  let nameSpace ← storeNamespaceFromJson namespaceField
  validateStoreKey key
  return { nameSpace, key, value, schemaVersion }

def storeEnvelopeFromItem (nameSpace : StoreNamespace) (key : Bytes) (value : Json) : Json :=
  .object [(lit "schema_version", .ofNat kStoreItemSchemaVersion),
    (lit "namespace", storeNamespaceToJson nameSpace), (lit "key", .str key), (lit "value", value)]

/-! ## 2. The storage and the times of its items -/

/-- The storage, and beside it the times it keeps with its items. -/
structure TimedStorage where
  storage : MemoryStorage
  times : StorageKey → StoreTimes

namespace TimedStorage

variable (limits : StorageLimits)

def find (key : StorageKey) (s : TimedStorage) : Option Bytes := s.storage.find key

/-- The times of an item that is written now; one that is there keeps the time of its creation. -/
def timesNow (key : StorageKey) (now : Int) (s : TimedStorage) : StoreTimes where
  createdAt := if (s.find key).isSome then (s.times key).createdAt else now
  updatedAt := now

def put (key : StorageKey) (value : Bytes) (now : Int) (s : TimedStorage) :
    Result TimedStorage := do
  let storage ← s.storage.put limits key value .upsert
  return {
    storage := storage
    times := fun other => if other = key then s.timesNow key now else s.times other }

def remove (key : StorageKey) (s : TimedStorage) : Result TimedStorage := do
  let storage ← s.storage.remove limits key
  return { s with storage := storage }

end TimedStorage

/-! ## 3. The store -/

structure StorageStore where
  scope : Bytes := lit "langgraph/store"
  listPageSize : Nat := 100
  limits : StorageLimits := {}
  json : JsonLibrary

/-- The text of an item.  `dump` throws on text that is not UTF-8 and nothing catches it: the batch
    ends there, as it does at an error. -/
def storeItemText (json : JsonLibrary) (nameSpace : StoreNamespace) (key : Bytes) (value : Json) :
    Result Bytes :=
  match json.dump (storeEnvelopeFromItem nameSpace key value) with
  | .ok text => .ok text
  | .error what => .error (.unknown what)

namespace StorageStore

variable (store : StorageStore) (order : JsonOrder)

def validateOptions : Result Unit := do
  require (store.scope ≠ []) (.invalidArgument (lit "storage store scope cannot be empty"))
  require (store.listPageSize ≠ 0)
    (.invalidArgument (lit "storage store list page size must be greater than zero"))

def keyPrefixFor (nameSpace : StoreNamespace) : Result Bytes := do
  validateStoreNamespacePrefix nameSpace
  return dir (lit "items" :: nameSpace.map hexEncode)

def storageKeyFor (nameSpace : StoreNamespace) (key : Bytes) : Result StorageKey := do
  validateStoreNamespace nameSpace
  validateStoreKey key
  let keyPrefix ← keyPrefixFor nameSpace
  return ⟨store.scope, keyPrefix ++ lit "@/" ++ hexEncode key⟩

def itemFromStorageValue (times : StoreTimes) (value : Bytes) : Result (StoreItem StoreTimes) := do
  let envelope ← parseStoreEnvelope store.json value
  return { nameSpace := envelope.nameSpace, key := envelope.key, value := envelope.value, times }

def listOptions (keyPrefix : Bytes) : StorageListOptions where
  scope := store.scope
  keyPrefix := keyPrefix
  limit := store.listPageSize

def itemAt (s : TimedStorage) (item : StorageKey × Bytes) : Result (StoreItem StoreTimes) :=
  store.itemFromStorageValue (s.times item.1) item.2

def getItem (nameSpace : StoreNamespace) (key : Bytes) (s : TimedStorage) :
    Result (StoreBatchResult StoreTimes) := do
  let storageKey ← store.storageKeyFor nameSpace key
  let found ← s.storage.get store.limits storageKey
  match found with
  | none => return .monostate
  | some value => .item <$> store.itemAt s (storageKey, value)

/-- A search reads the next stored item, unless its page is already full. -/
def visitStored (op : StoreSearchOp) (s : TimedStorage) (search : StoreSearchState StoreTimes)
    (item : StorageKey × Bytes) : Result (StoreSearchState StoreTimes) :=
  if op.limit ≤ search.out.length then .ok search
  else do
    let found ← store.itemAt s item
    search.visit order op found

def searchItems (op : StoreSearchOp) (s : TimedStorage) : Result (StoreSearchState StoreTimes) := do
  let keyPrefix ← keyPrefixFor op.namespacePrefix
  s.storage.scan store.limits (store.listOptions keyPrefix) (store.visitStored order op s) {}

def search (op : StoreSearchOp) (s : TimedStorage) : Result (StoreBatchResult StoreTimes) := do
  validateStoreSearchOptions op
  if op.limit = 0 then return .items []
  else
    let found ← store.searchItems order op s
    return .items found.out

def collectItem (s : TimedStorage) (out : List (StoreItem StoreTimes)) (item : StorageKey × Bytes) :
    Result (List (StoreItem StoreTimes)) := do
  let found ← store.itemAt s item
  return out ++ [found]

def listStorageStoreItems (s : TimedStorage) (keyPrefix : Bytes) :
    Result (List (StoreItem StoreTimes)) :=
  s.storage.scan store.limits (store.listOptions keyPrefix) (store.collectItem s) []

def listNamespaces (op : StoreListNamespacesOp) (s : TimedStorage) :
    Result (StoreBatchResult StoreTimes) := do
  validateListNamespacesOp op
  if op.limit = 0 then return .namespaces []
  else
    let items ← store.listStorageStoreItems s (dir [lit "items"])
    return .namespaces (op.page (items.map StoreItem.nameSpace))

def answer (s : TimedStorage) : StoreOp → Result (StoreBatchResult StoreTimes)
  | .get nameSpace key => store.getItem nameSpace key s
  | .search op => store.search order op s
  | .put op => do
    let _ ← store.storageKeyFor op.nameSpace op.key
    return .monostate
  | .listNamespaces op => store.listNamespaces op s

def applyPut (put : StorePutOp) (now : Int) (s : TimedStorage) : Result TimedStorage := do
  let storageKey ← store.storageKeyFor put.nameSpace put.key
  match put.value with
  | none => s.remove store.limits storageKey
  | some value => do
    let text ← storeItemText store.json put.nameSpace put.key value
    s.put store.limits storageKey text now

/-- The writes one after another, each with the time at which it is made.  The first one that fails
    ends the batch and leaves what the ones in front of it have written. -/
def applyPuts : List (StorePutOp × Int) → TimedStorage → Result Unit × TimedStorage
  | [], s => (.ok (), s)
  | (put, now) :: writes, s =>
    match store.applyPut put now s with
    | .error status => (.error status, s)
    | .ok next => applyPuts writes next

/-- The writes of a batch in the order of their names, with the times at which they are made. -/
def timedPuts (clock : Nat → Int) (pending : List (StoreSlot × StorePutOp)) :
    List (StorePutOp × Int) :=
  pending.zipIdx.map fun entry => (entry.1.2, clock entry.2)

def firstPass (ops : List StoreOp) (s : TimedStorage) :
    Result (List (StoreBatchResult StoreTimes) × List (StoreSlot × StorePutOp)) := do
  store.validateOptions
  batchResults (store.answer order s) ops

def batch (clock : Nat → Int) (ops : List StoreOp) (s : TimedStorage) :
    Result (List (StoreBatchResult StoreTimes)) × TimedStorage :=
  match store.firstPass order ops s with
  | .error status => (.error status, s)
  | .ok (results, pending) =>
    let written := store.applyPuts (timedPuts clock pending) s
    (written.1.map fun _ => results, written.2)

/-! ## 4. Keys -/

def segments (slot : StoreSlot) : List Bytes :=
  lit "items" :: slot.bucket.map hexEncode ++ [lit "@", hexEncode slot.key]

def keyAt (slot : StoreSlot) : StorageKey := ⟨store.scope, key (segments slot)⟩

def ValidSlot (slot : StoreSlot) : Prop :=
  validateStoreNamespace slot.bucket = .ok () ∧ validateStoreKey slot.key = .ok ()

theorem plain_hexEncodes (parts : List Bytes) : Plain (parts.map hexEncode) := by
  intro segment hsegment
  obtain ⟨part, -, rfl⟩ := mem_map.mp hsegment
  exact slash_notMem_hexEncode part

theorem plain_items (nameSpace : StoreNamespace) :
    Plain (lit "items" :: nameSpace.map hexEncode) := by
  intro segment hsegment
  rcases mem_cons.mp hsegment with rfl | hsegment
  · decide
  · exact plain_hexEncodes nameSpace segment hsegment

theorem plain_segments (slot : StoreSlot) : Plain (segments slot) := by
  intro segment hsegment
  rcases mem_append.mp hsegment with hfront | hback
  · exact plain_items slot.bucket segment hfront
  · rcases mem_pair.mp hback with rfl | rfl
    · decide
    · exact slash_notMem_hexEncode slot.key

theorem segments_ne_nil (slot : StoreSlot) : segments slot ≠ [] := cons_ne_nil _ _

theorem map_hexEncode_injective {a b : List Bytes} (h : a.map hexEncode = b.map hexEncode) : a = b :=
  map_injective_iff.mpr (fun _ _ => hexEncode_injective) h

theorem keyAt_injective {a b : StoreSlot} (h : store.keyAt a = store.keyAt b) : a = b := by
  have hkey : key (segments a) = key (segments b) := congrArg StorageKey.key h
  have hsegments := key_injective (plain_segments a) (plain_segments b) (segments_ne_nil a)
    (segments_ne_nil b) hkey
  obtain ⟨hfront, hback⟩ := append_inj' hsegments rfl
  have hbucket : a.bucket = b.bucket := map_hexEncode_injective (cons.inj hfront).2
  have hname : a.key = b.key := hexEncode_injective (cons.inj (cons.inj hback).2).1
  cases a
  simp_all

variable {nameSpace : StoreNamespace} {name : Bytes} {value : Json}

theorem validateStoreNamespacePrefix_of_valid (h : validateStoreNamespace nameSpace = .ok ()) :
    validateStoreNamespacePrefix nameSpace = .ok () :=
  require_bind_eq_ok.mpr ⟨rfl, (of_require h).2⟩

variable {store}

theorem storageKeyFor_ok_iff {slot : StoreSlot} {storageKey : StorageKey} :
    store.storageKeyFor slot.bucket slot.key = .ok storageKey ↔
      ValidSlot slot ∧ storageKey = store.keyAt slot := by
  have hkey : (⟨store.scope, dir (lit "items" :: slot.bucket.map hexEncode) ++ lit "@/" ++
      hexEncode slot.key⟩ : StorageKey) = store.keyAt slot := by
    rw [keyAt, segments, key_append (cons_ne_nil _ _), append_assoc]; rfl
  constructor
  · intro h
    obtain ⟨⟨⟩, hns, h⟩ := of_bind h
    obtain ⟨⟨⟩, hname, h⟩ := of_bind h
    obtain ⟨keyPrefix, hprefix, h⟩ := of_bind h
    obtain ⟨-, -, hprefix⟩ := of_bind hprefix
    cases hprefix; exact ⟨⟨hns, hname⟩, (Except.ok.inj h).symm.trans hkey⟩
  · rintro ⟨⟨hns, hname⟩, rfl⟩
    rw [storageKeyFor, hns, ok_bind, hname, ok_bind, keyPrefixFor,
      validateStoreNamespacePrefix_of_valid hns, ← hkey]
    rfl

theorem at_ne_hexEncode (text : Bytes) : lit "@" ≠ hexEncode text := by
  intro h
  have hmem : (64 : UInt8) ∈ hexEncode text := h ▸ (by decide : (64 : UInt8) ∈ lit "@")
  have := isHex_of_mem_hexEncode hmem
  unfold IsHex at this
  revert this
  decide

theorem prefix_of_segments {nameSpace parts rest : List Bytes}
    (h : parts.map hexEncode ++ [lit "@", name] = nameSpace.map hexEncode ++ rest) :
    nameSpace <+: parts := by
  induction nameSpace generalizing parts with
  | nil => exact nil_prefix
  | cons part nameSpace ih =>
    cases parts with
    | nil => exact absurd (cons.inj h).1 (at_ne_hexEncode part)
    | cons =>
      obtain ⟨hhead, htail⟩ := cons.inj h
      rw [hexEncode_injective hhead]
      exact cons_prefix_cons.mpr ⟨rfl, ih htail⟩

theorem matches_keyAt_iff (hscope : store.scope ≠ []) {slot : StoreSlot} :
    storageKeyMatchesListOptions (store.keyAt slot)
        (store.listOptions (dir (lit "items" :: nameSpace.map hexEncode))) = true ↔
      nameSpace <+: slot.bucket := by
  rw [storageKeyMatchesListOptions_iff (show (store.listOptions _).scope ≠ [] from hscope)]
  change store.scope = store.scope ∧ dir (lit "items" :: nameSpace.map hexEncode) <+:
    key (segments slot) ↔ _
  rw [dir_prefix_key_iff (plain_items nameSpace) (plain_segments slot) (segments_ne_nil slot)]
  constructor
  · rintro ⟨-, rest, -, h⟩; exact prefix_of_segments (cons.inj h).2
  · rintro ⟨below, hbelow⟩
    rw [segments, ← hbelow]; simp

/-! ## 5. Reading an envelope -/

theorem envelope_eq (nameSpace : StoreNamespace) (name : Bytes) (value : Json) :
    storeEnvelopeFromItem nameSpace name value = .obj
      [(lit "key", .str name), (lit "namespace", storeNamespaceToJson nameSpace),
        (lit "schema_version", .int 1), (lit "value", value)] := by
  rfl

theorem reread_namespace (nameSpace : StoreNamespace) :
    (storeNamespaceToJson nameSpace).reread = storeNamespaceToJson nameSpace := by
  rw [storeNamespaceToJson, reread, rereadItems_eq_map, map_map]; rfl

theorem reread_envelope (nameSpace : StoreNamespace) (name : Bytes) (value : Json) :
    (storeEnvelopeFromItem nameSpace name value).reread =
      storeEnvelopeFromItem nameSpace name value.reread := by
  rw [storeEnvelopeFromItem, reread_object, storeEnvelopeFromItem]
  simp only [map_cons, map_nil, reread_namespace]; rfl

theorem lawfulItems_map_str (isDouble : Bytes → Bool) (parts : List Bytes) :
    lawfulItems isDouble (parts.map .str) = true := by
  induction parts with
  | nil => rfl
  | cons part parts ih =>
    rw [map_cons, lawfulItems, ih]; rfl

theorem lawful_envelope {isDouble : Bytes → Bool} (h : value.lawful isDouble = true)
    (nameSpace : StoreNamespace) (name : Bytes) :
    (storeEnvelopeFromItem nameSpace name value).lawful isDouble = true := by
  have hkeys : [lit "key", lit "namespace", lit "schema_version", lit "value"].Pairwise (· < ·) := by
    decide
  rw [envelope_eq, lawful, Bool.and_eq_true, decide_eq_true_eq]
  refine ⟨(pairwise_map (f := Prod.fst)).mp hkeys, ?_⟩
  simp [lawfulFields, lawful, storeNamespaceToJson, lawfulItems_map_str, h]

theorem mapM_part (parts : List Bytes) :
    (parts.map str).mapM storeNamespacePartFromJson = .ok parts := by
  rw [mapM_map]
  exact (mapM_eq_map (g := id) fun _ _ => rfl).trans (by rw [map_id])

theorem parse_fields {nameSpace : StoreNamespace} {name : Bytes} {value : Json}
    (hvalid : ValidSlot ⟨nameSpace, name⟩) {json : JsonLibrary} {text : Bytes}
    (h : parseJsonWithLimits json text (lit "stored store item") {} =
      .ok (storeEnvelopeFromItem nameSpace name value)) :
    parseStoreEnvelope json text = .ok ⟨nameSpace, name, value, 1⟩ := by
  have hns : storeNamespaceFromJson (storeNamespaceToJson nameSpace) = .ok nameSpace := by
    rw [storeNamespaceToJson, storeNamespaceFromJson, mapM_part, ok_bind, hvalid.1]
    rfl
  rw [parseStoreEnvelope, h, ok_bind, envelope_eq]
  change (do
    let nameSpace ← storeNamespaceFromJson (storeNamespaceToJson nameSpace)
    validateStoreKey name
    return ({ nameSpace, key := name, value, schemaVersion := 1 } : ParsedStoreEnvelope)) = _
  rw [hns, ok_bind, hvalid.2]; rfl

/-- The text of an item is read back exactly if the envelope is within the limits of the reader;
    NaN and the infinities come back as null. -/
theorem parseStoreEnvelope_compact {json : JsonLibrary} (hvalid : ValidSlot ⟨nameSpace, name⟩)
    (hlawful : value.lawful json.isDouble = true)
    (hdump : (storeEnvelopeFromItem nameSpace name value).isUtf8 = true) :
    Yields (parseStoreEnvelope json (storeEnvelopeFromItem nameSpace name value).compact)
      ((storeEnvelopeFromItem nameSpace name value).readable {})
      ⟨nameSpace, name, value.reread, 1⟩ where
  ok h := parse_fields hvalid (by
    rw [parseJsonWithLimits_compact (lawful_envelope hlawful _ _) hdump h, reread_envelope])
  error h := by
    obtain ⟨status, hparse⟩ : ∃ status, parseJsonWithLimits json
        (storeEnvelopeFromItem nameSpace name value).compact (lit "stored store item") {} =
          .error status :=
      parseJsonWithLimits_compact_error (lawful_envelope hlawful nameSpace name) hdump h
    exact ⟨status, by rw [parseStoreEnvelope, hparse]; rfl⟩

end StorageStore

end LangGraph
