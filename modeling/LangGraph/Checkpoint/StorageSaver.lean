import LangGraph.Checkpoint.Listing
import LangGraph.Foundation.JsonLimits
import LangGraph.Foundation.Storage
import LangGraph.Lib.KeyPath

/-!
# The storage saver

`StorageSaver` keeps checkpoints, pointers to the latest ones and pending writes in one key-value
storage.  All three kinds of keys are made of segments, with thread, namespace, ids and paths in
hexadecimal.  What is modelled here reads such a storage, whatever it holds.
-/

namespace LangGraph

open StableSort KeyPath

/-! ## 1. The saver and its keys -/

structure Payload where
  contentType : Bytes
  data : Bytes

/-- The half of `ICheckpointCodec` that reads. -/
structure CheckpointCodec where
  decode : Payload → Result Checkpoint
  decodeWrite : Payload → Result CheckpointWrite

def kCheckpointJsonContentType : Bytes := lit "application/vnd.langgraph-cpp.checkpoint+json"

def isCheckpointPayload (contentType : Bytes) : Bool := contentType = kCheckpointJsonContentType

/-- `StorageSaverOptions`, with the limits of the storage and the reader of JSON text. -/
structure StorageSaver where
  codec : CheckpointCodec
  scope : Bytes := lit "langgraph/checkpoints"
  listPageSize : Nat := 100
  limits : StorageLimits := {}
  json : JsonLibrary

namespace StorageSaver

/-- The segments of a namespace; the root namespace has none. -/
def namespaceSegments (checkpointNamespace : Bytes) : List Bytes :=
  if checkpointNamespace = [] then [] else [lit "ns", hexEncode checkpointNamespace]

variable (saver : StorageSaver)

def validateStorageSaverOptions : Result Unit := do
  require (saver.scope ≠ []) (.invalidArgument (lit "storage checkpointer scope cannot be empty"))
  require (saver.listPageSize ≠ 0)
    (.invalidArgument (lit "storage checkpointer list page size must be greater than zero"))

def keyPrefixFor (threadId checkpointNamespace : Bytes) : Result Bytes := do
  require (threadId ≠ []) (.invalidArgument (lit "checkpoint thread_id cannot be empty"))
  return dir (hexEncode threadId :: namespaceSegments checkpointNamespace)

def keyFor (threadId checkpointNamespace checkpointId : Bytes) : Result StorageKey := do
  require (threadId ≠ []) (.invalidArgument (lit "checkpoint thread_id cannot be empty"))
  require (checkpointId ≠ []) (.invalidArgument (lit "checkpoint checkpoint_id cannot be empty"))
  return {
    scope := saver.scope
    key := key (hexEncode threadId :: namespaceSegments checkpointNamespace
      ++ [hexEncode checkpointId]) }

def latestPointerKeyFor (threadId checkpointNamespace : Bytes) : Result StorageKey := do
  require (threadId ≠ []) (.invalidArgument (lit "checkpoint thread_id cannot be empty"))
  return {
    scope := saver.scope
    key := key (lit "latest" :: hexEncode threadId :: namespaceSegments checkpointNamespace) }

/-- The segments below which the writes of a checkpoint stand. -/
def writeSegments (threadId checkpointNamespace checkpointId : Bytes) : List Bytes :=
  lit "writes" :: hexEncode threadId :: namespaceSegments checkpointNamespace
    ++ [lit "checkpoint", hexEncode checkpointId]

def writeKeyPrefixFor (threadId checkpointNamespace checkpointId : Bytes) : Result Bytes := do
  require (threadId ≠ []) (.invalidArgument (lit "checkpoint writes thread_id cannot be empty"))
  require (checkpointId ≠ [])
    (.invalidArgument (lit "checkpoint writes checkpoint_id cannot be empty"))
  return dir (writeSegments threadId checkpointNamespace checkpointId)

/-! ## 2. Values -/

def payloadFromStorageValue (value : Bytes) : Result Payload := do
  let parsed ← parseJsonWithLimits saver.json value (lit "stored checkpoint")
  require parsed.isObject (.invalidArgument (lit "stored checkpoint must be a JSON object"))
  let contentType ← match parsed.field (lit "content_type") with
    | some (.str text) => .ok text
    | _ => .error (.invalidArgument (lit "stored checkpoint content_type is required"))
  let data ← match parsed.field (lit "data") with
    | some (.str text) => .ok text
    | _ => .error (.invalidArgument (lit "stored checkpoint data is required"))
  return { contentType, data }

/-! ## 3. Reading -/

def listOptions (keyPrefix : Bytes) : StorageListOptions where
  scope := saver.scope
  keyPrefix := keyPrefix
  limit := saver.listPageSize

def readWrites (threadId checkpointNamespace checkpointId : Bytes) (storage : MemoryStorage) :
    Result (List CheckpointWrite) := do
  let keyPrefix ← writeKeyPrefixFor threadId checkpointNamespace checkpointId
  let writes ← storage.scan saver.limits (saver.listOptions keyPrefix) (fun writes item => do
    let payload ← saver.payloadFromStorageValue item.2
    let write ← saver.codec.decodeWrite payload
    return writes ++ [write]) []
  return stableSort InMemorySaver.writeLess writes

def getCheckpoint (threadId checkpointId checkpointNamespace : Bytes) (storage : MemoryStorage) :
    Result (Option Checkpoint) := do
  saver.validateStorageSaverOptions
  let key ← saver.keyFor threadId checkpointNamespace checkpointId
  match ← storage.get saver.limits key with
  | none => return none
  | some value => do
    let payload ← saver.payloadFromStorageValue value
    let checkpoint ← saver.codec.decode payload
    let writes ← saver.readWrites threadId checkpointNamespace checkpointId storage
    return some (if checkpoint.pendingWrites = [] then
      { checkpoint with pendingWrites := writes } else checkpoint)

/-- What a listing does with one stored value: nothing if it is no JSON checkpoint. -/
def listedCheckpoint (value : Bytes) : Result (Option Checkpoint) := do
  let payload ← saver.payloadFromStorageValue value
  if isCheckpointPayload payload.contentType then some <$> saver.codec.decode payload
  else return none

/-- Adds the writes of a listed checkpoint to the map of them; `emplace` keeps an entry that is there. -/
def collectWrites (storage : MemoryStorage)
    (writesByCheckpoint : List (Bytes × List CheckpointWrite)) (checkpoint : Checkpoint) :
    Result (List (Bytes × List CheckpointWrite)) := do
  let writes ← saver.readWrites checkpoint.threadId checkpoint.checkpointNamespace
    checkpoint.checkpointId storage
  let key := checkpointWriteStorageKey checkpoint.threadId checkpoint.checkpointNamespace
    checkpoint.checkpointId
  return if writes = [] ∨ OrderedMap.contains key writesByCheckpoint then writesByCheckpoint
    else OrderedMap.set key writes writesByCheckpoint

def collectCheckpoint (checkpointNamespace : Option Bytes) (checkpoints : List Checkpoint)
    (item : StorageKey × Bytes) : Result (List Checkpoint) := do
  match ← saver.listedCheckpoint item.2 with
  | none => return checkpoints
  | some checkpoint =>
    return if InMemorySaver.inNamespace checkpointNamespace checkpoint then
      checkpoints ++ [checkpoint] else checkpoints

def list (options : CheckpointListOptions) (storage : MemoryStorage) :
    Result (List CheckpointTuple) := do
  saver.validateStorageSaverOptions
  validateCheckpointListOptions options
  let keyPrefix ← keyPrefixFor options.threadId (options.checkpointNamespace.getD [])
  let checkpoints ← storage.scan saver.limits (saver.listOptions keyPrefix)
    (saver.collectCheckpoint options.checkpointNamespace) []
  let writesByCheckpoint ← checkpoints.foldlM (saver.collectWrites storage) []
  return applyListOptions checkpoints writesByCheckpoint options

def listCheckpoints (threadId checkpointNamespace : Bytes) (storage : MemoryStorage) :
    Result (List Checkpoint) := do
  let records ← saver.list {
    threadId := threadId
    checkpointNamespace := some checkpointNamespace
    order := .oldestFirst } storage
  return records.map CheckpointTuple.checkpoint

def getLatestByScan (threadId checkpointNamespace : Bytes) (storage : MemoryStorage) :
    Result (Option Checkpoint) := do
  let checkpoints ← saver.listCheckpoints threadId checkpointNamespace storage
  return checkpoints.getLast?

def getLatestCheckpoint (threadId checkpointNamespace : Bytes) (storage : MemoryStorage) :
    Result (Option Checkpoint) := do
  saver.validateStorageSaverOptions
  let pointerKey ← saver.latestPointerKeyFor threadId checkpointNamespace
  match ← storage.get saver.limits pointerKey with
  | none => saver.getLatestByScan threadId checkpointNamespace storage
  | some pointer =>
    match ← saver.getCheckpoint threadId pointer checkpointNamespace storage with
    | none => saver.getLatestByScan threadId checkpointNamespace storage
    | some checkpoint => do
      let scanned ← saver.getLatestByScan threadId checkpointNamespace storage
      return if scanned.any (checkpointIsNewer · checkpoint) then scanned else some checkpoint

/-- The checkpoint a query names, or the latest one of its namespace. -/
def findCheckpoint (query : CheckpointQuery) (storage : MemoryStorage) :
    Result (Option Checkpoint) :=
  match query.checkpointId with
  | some id => saver.getCheckpoint query.threadId id query.checkpointNamespace storage
  | none => saver.getLatestCheckpoint query.threadId query.checkpointNamespace storage

def getTuple (query : CheckpointQuery) (storage : MemoryStorage) :
    Result (Option CheckpointTuple) := do
  validateCheckpointQuery query
  match ← saver.findCheckpoint query storage with
  | none => return none
  | some checkpoint => do
    let writes ← saver.readWrites checkpoint.threadId checkpoint.checkpointNamespace
      checkpoint.checkpointId storage
    return some {
      checkpoint := checkpoint
      pendingWrites := if writes = [] then checkpoint.pendingWrites else writes }

end StorageSaver

end LangGraph
