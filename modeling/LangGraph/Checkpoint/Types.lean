import LangGraph.Foundation.State

/-!
# Checkpoint records

The data that a saver stores and a run reads back, and the checks every saver makes on it.  The
states in a record may have been built under any limits; what the runtime makes has the default
ones.  A time point is the number of nanoseconds since the epoch.
-/

namespace LangGraph

structure CheckpointTask (limits : JsonDecodeLimits := .standard) where
  taskId : Bytes := []
  nodeId : Bytes := []
  checkpointNamespace : Bytes := []
  state : Option (State limits) := none
  order : Option Nat := none
  error : Option Bytes := none
  interrupts : Json := .arr []
  metadata : Json := .obj []
deriving DecidableEq

structure CheckpointWrite (limits : JsonDecodeLimits := .standard) where
  taskId : Bytes := []
  taskPath : Bytes := []
  nodeId : Bytes := []
  checkpointNamespace : Bytes := []
  update : State limits := .empty
  order : Option Nat := none
  hasNextTasks : Bool := false
  nextTasks : List (CheckpointTask limits) := []
  metadata : Json := .obj []
deriving DecidableEq

structure Checkpoint (limits : JsonDecodeLimits := .standard) where
  threadId : Bytes := []
  checkpointId : Bytes := []
  checkpointNamespace : Bytes := []
  parentCheckpointId : Option Bytes := none
  step : Nat := 0
  state : State limits := .empty
  nextNodes : List Bytes := []
  nextTasks : List (CheckpointTask limits) := []
  writes : List (CheckpointWrite limits) := []
  pendingWrites : List (CheckpointWrite limits) := []
  channelVersions : Json := .obj []
  versionsSeen : Json := .obj []
  updatedChannels : List Bytes := []
  metadata : Json := .obj []
  createdAt : Int := 0
deriving DecidableEq

structure CheckpointQuery where
  threadId : Bytes
  checkpointNamespace : Bytes
  checkpointId : Option Bytes
deriving DecidableEq

def CheckpointQuery.latest (threadId checkpointNamespace : Bytes) : CheckpointQuery :=
  ⟨threadId, checkpointNamespace, none⟩

def CheckpointQuery.at (threadId checkpointId checkpointNamespace : Bytes) : CheckpointQuery :=
  ⟨threadId, checkpointNamespace, some checkpointId⟩

structure CheckpointWriteSet where
  threadId : Bytes
  checkpointNamespace : Bytes
  checkpointId : Bytes
  taskId : Bytes
  taskPath : Bytes
  writes : List CheckpointWrite
deriving DecidableEq

structure CheckpointTuple where
  checkpoint : Checkpoint
  pendingWrites : List CheckpointWrite
deriving DecidableEq

/-- Value of a missing order: it sorts after all numbered writes. -/
def maxOrder : Nat := 2 ^ 64 - 1

def CheckpointWrite.orderOrMax (write : CheckpointWrite) : Nat := write.order.getD maxOrder

/-! ## Checks shared by the savers -/

def validateCheckpointForStore (checkpoint : Checkpoint) : Result Unit :=
  if checkpoint.threadId = [] then
    .error (.invalidArgument (lit "checkpoint thread_id cannot be empty"))
  else if checkpoint.checkpointId = [] then
    .error (.invalidArgument (lit "checkpoint checkpoint_id cannot be empty"))
  else .ok ()

def validateCheckpointQuery (query : CheckpointQuery) : Result Unit :=
  if query.threadId = [] then
    .error (.invalidArgument (lit "checkpoint query thread_id cannot be empty"))
  else if query.checkpointId = some [] then
    .error (.invalidArgument (lit "checkpoint query checkpoint_id cannot be empty"))
  else .ok ()

/-- The write at position `i` of a set, with the fields it leaves empty taken from the set. -/
def normalizeWrite (set : CheckpointWriteSet) (i : Nat) (write : CheckpointWrite) :
    Result CheckpointWrite :=
  if write.nodeId = [] then
    .error (.invalidArgument (lit "checkpoint write node_id cannot be empty"))
  else if write.metadata.isObject = false then
    .error (.invalidArgument (lit "checkpoint write metadata must be an object"))
  else .ok { write with
    taskId := if write.taskId = [] then set.taskId else write.taskId
    taskPath := if write.taskPath = [] then set.taskPath else write.taskPath
    checkpointNamespace :=
      if write.checkpointNamespace = [] then set.checkpointNamespace else write.checkpointNamespace
    order := some (write.order.getD i) }

def normalizeWriteSet (set : CheckpointWriteSet) : Result CheckpointWriteSet :=
  if set.threadId = [] then
    .error (.invalidArgument (lit "checkpoint writes thread_id cannot be empty"))
  else if set.checkpointId = [] then
    .error (.invalidArgument (lit "checkpoint writes checkpoint_id cannot be empty"))
  else if set.taskId = [] then
    .error (.invalidArgument (lit "checkpoint writes task_id cannot be empty"))
  else do
    let writes ← set.writes.zipIdx.mapM fun entry => normalizeWrite set entry.2 entry.1
    return { set with writes := writes }

theorem normalizeWriteSet_ok {set normal : CheckpointWriteSet}
    (h : normalizeWriteSet set = .ok normal) : ∃ writes, normal = { set with writes := writes } := by
  unfold normalizeWriteSet at h
  split_ifs at h
  cases hw : set.writes.zipIdx.mapM fun entry => normalizeWrite set entry.2 entry.1 with
  | error =>
    rw [hw] at h; cases h
  | ok writes =>
    rw [hw] at h; exact ⟨writes, (Except.ok.inj h).symm⟩

/-! ## The saver interface -/

/-- `BaseCheckpointSaver`: the operations on a stored content `σ`.  An operation that fails may
    still have changed the content. -/
structure CheckpointSaver (σ : Type) where
  put : Checkpoint → σ → Result Unit × σ
  putWrites : CheckpointWriteSet → σ → Result Unit × σ
  getTuple : CheckpointQuery → σ → Result (Option CheckpointTuple)

end LangGraph
