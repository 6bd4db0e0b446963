import LangGraph.Checkpoint.InMemorySaver

/-!
# Listings

What the savers share for `list`: the order of checkpoints and the filters of a listing.
-/

namespace LangGraph

open StableSort

inductive CheckpointListOrder where
  | oldestFirst
  | newestFirst
deriving DecidableEq

/-- No namespace means all of them; the empty text is the root namespace. -/
structure CheckpointListOptions where
  threadId : Bytes
  checkpointNamespace : Option Bytes := none
  checkpointId : Option Bytes := none
  beforeCheckpointId : Option Bytes := none
  limit : Option Nat := none
  metadataFilter : Json := .obj []
  order : CheckpointListOrder := .newestFirst
deriving DecidableEq

def validateCheckpointListOptions (options : CheckpointListOptions) : Result Unit := do
  require (options.threadId ≠ [])
    (.invalidArgument (lit "checkpoint list thread_id cannot be empty"))
  require (options.checkpointId ≠ some [])
    (.invalidArgument (lit "checkpoint list checkpoint_id cannot be empty"))
  require (options.beforeCheckpointId ≠ some [])
    (.invalidArgument (lit "checkpoint list before checkpoint_id cannot be empty"))
  require (options.limit ≠ some 0)
    (.invalidArgument (lit "checkpoint list limit must be greater than zero"))
  require options.metadataFilter.isObject
    (.invalidArgument (lit "checkpoint list metadata filter must be an object"))

/-- Older by step, then by time, then by the text of the id. -/
def checkpointIsOlder (lhs rhs : Checkpoint) : Bool :=
  if lhs.step ≠ rhs.step then lhs.step < rhs.step
  else if lhs.createdAt ≠ rhs.createdAt then lhs.createdAt < rhs.createdAt
  else lhs.checkpointId < rhs.checkpointId

def checkpointIsNewer (lhs rhs : Checkpoint) : Bool := checkpointIsOlder rhs lhs

/-- Every field of the filter stands in the metadata with the same value. -/
def metadataMatches (metadata filter : Json) : Bool :=
  match filter with
  | .obj fields => fields.all fun entry => metadata.field entry.1 = some entry.2
  | _ => filter.isEmpty

/-- The checkpoints before the one with the given id; none if it is not there. -/
def takeBefore (beforeCheckpointId : Option Bytes) (checkpoints : List Checkpoint) :
    List Checkpoint :=
  match beforeCheckpointId with
  | none => checkpoints
  | some id =>
    if checkpoints.any (·.checkpointId = id) then
      checkpoints.takeWhile (·.checkpointId ≠ id)
    else []

/-- The record of a listed checkpoint: the writes stored for it, or its own if there are none. -/
def listedTuple (writesByCheckpoint : List (Bytes × List CheckpointWrite))
    (checkpoint : Checkpoint) : CheckpointTuple :=
  let found := (OrderedMap.find (checkpointWriteStorageKey checkpoint.threadId
    checkpoint.checkpointNamespace checkpoint.checkpointId) writesByCheckpoint).getD []
  if found = [] then
    { checkpoint := checkpoint, pendingWrites := checkpoint.pendingWrites }
  else
    { checkpoint := if checkpoint.pendingWrites = [] then
        { checkpoint with pendingWrites := found } else checkpoint
      pendingWrites := found }

def applyListOptions (checkpoints : List Checkpoint)
    (writesByCheckpoint : List (Bytes × List CheckpointWrite)) (options : CheckpointListOptions) :
    List CheckpointTuple :=
  let sorted := takeBefore options.beforeCheckpointId (stableSort checkpointIsOlder checkpoints)
  let selected := sorted.filter fun checkpoint =>
    options.checkpointId.all (checkpoint.checkpointId = ·)
      && metadataMatches checkpoint.metadata options.metadataFilter
  let records := selected.map (listedTuple writesByCheckpoint)
  let ordered := match options.order with
    | .oldestFirst => records
    | .newestFirst => records.reverse
  match options.limit with
  | none => ordered
  | some limit => ordered.take limit

namespace InMemorySaver

def inNamespace (checkpointNamespace : Option Bytes) (checkpoint : Checkpoint) : Bool :=
  checkpointNamespace.all (checkpoint.checkpointNamespace = ·)

end InMemorySaver

end LangGraph
