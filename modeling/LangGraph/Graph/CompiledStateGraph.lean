import LangGraph.Graph.Run
import LangGraph.Lib.ExceptList

/-!
# The compiled graph: invoke, resume, replay and updateState

The public operations on a thread.  `invoke` starts at step zero; `resume` continues the newest
checkpoint of a thread and `replay` a named one, both through the checkpoint's own next tasks and
pending writes; `updateState` stores an edited checkpoint without running anything.
-/

namespace LangGraph

open ExceptList

variable {σ : Type}

/-! ## 1. Reading checkpoints -/

def nextTasksFromCheckpoint (checkpoint : Checkpoint) : List CheckpointTask :=
  if checkpoint.nextTasks ≠ [] then checkpoint.nextTasks
  else nextTasksFromTargets checkpoint.nextNodes

structure StateSnapshot where
  values : State
  next : List Bytes
  tasks : List CheckpointTask
  writes : List CheckpointWrite
  pendingWrites : List CheckpointWrite
  threadId : Bytes
  checkpointNamespace : Bytes
  checkpointId : Bytes
  parentCheckpointId : Option Bytes
  step : Nat
  createdAt : Int
deriving DecidableEq

def snapshotFromCheckpoint (checkpoint : Checkpoint) : StateSnapshot where
  values := checkpoint.state
  next := checkpoint.nextNodes
  tasks := nextTasksFromCheckpoint checkpoint
  writes := checkpoint.writes
  pendingWrites := checkpoint.pendingWrites
  threadId := checkpoint.threadId
  checkpointNamespace := checkpoint.checkpointNamespace
  checkpointId := checkpoint.checkpointId
  parentCheckpointId := checkpoint.parentCheckpointId
  step := checkpoint.step
  createdAt := checkpoint.createdAt

/-- The step to continue from: one back when part of the checkpoint's step is still to be run. -/
def replayStartStep (checkpoint : Checkpoint) : Nat :=
  if checkpoint.pendingWrites ≠ [] && !isTerminalNextTasks (nextTasksFromCheckpoint checkpoint)
      && 0 < checkpoint.step then checkpoint.step - 1
  else checkpoint.step

def requireRunCheckpointer (options : RunOptions σ) (action : String) :
    Result (CheckpointSaver σ) :=
  match options.checkpointer with
  | some saver => .ok saver
  | none => .error (.invalidArgument (lit action ++ lit " requires a checkpointer"))

def requireThreadId (threadId : Bytes) (action : String) : Result Unit :=
  if threadId = [] then .error (.invalidArgument (lit action ++ lit " thread_id cannot be empty"))
  else .ok ()

def requireSameThread (threadId : Bytes) (options : RunOptions σ) (action : String) : Result Unit :=
  if options.threadId ≠ [] && options.threadId ≠ threadId then
    .error (.invalidArgument (lit action ++ lit " thread_id conflicts with run options thread_id"))
  else .ok ()

def requireTuple (saver : CheckpointSaver σ) (query : CheckpointQuery) (message : String)
    (content : σ) : Result CheckpointTuple := do
  match ← saver.getTuple query content with
  | some tuple => return tuple
  | none => throw (.notFound (lit message))

namespace CompiledStateGraph

/-! ## 2. Runs -/

section Runs

variable (host : Host) (graph : StateGraph)

def startTasks : List CheckpointTask :=
  match OrderedMap.find START graph.edges with
  | some targets => nextTasksFromTargets targets
  | none => []

def invoke (input : State) (options : RunOptions σ) : GraphRun σ where
  host := host
  graph := graph
  state := input
  nextTasks := startTasks graph
  options := options
  writeInitialCheckpoint := true

def invokeSubgraph (input : State) (options : RunOptions σ) : GraphRun σ :=
  { invoke host graph input options with allowParentCommand := true }

def continueFrom (tuple : CheckpointTuple) (step : Nat) (threadId : Bytes) (options : RunOptions σ) :
    GraphRun σ where
  host := host
  graph := graph
  state := tuple.checkpoint.state
  nextTasks := nextTasksFromCheckpoint tuple.checkpoint
  pendingWrites := tuple.pendingWrites
  step := step
  parentCheckpointId := some tuple.checkpoint.checkpointId
  options := { options with
    threadId := threadId
    checkpointNamespace := if options.checkpointNamespace = [] then
        tuple.checkpoint.checkpointNamespace else options.checkpointNamespace }

/-- The checkpoint waits for an answer and the options hold none. -/
def needsCommand (checkpoint : Checkpoint) (options : RunOptions σ) : Bool :=
  stateHasInterruptMetadata checkpoint.state
    && !isTerminalNextTasks (nextTasksFromCheckpoint checkpoint) && options.command.isNone

/-- A checkpoint that waits for an answer is resumed with one, and a command must hold one. -/
def checkResumeCommand (checkpoint : Checkpoint) (options : RunOptions σ) : Result Unit :=
  if needsCommand checkpoint options then
    .error (.failedPrecondition (lit "resume of interrupted thread requires Command::resume"))
  else if options.command.isSome && (options.command.bind (·.resume)).isNone then
    .error (.invalidArgument (lit "unsupported resume command"))
  else .ok ()

def resume (threadId : Bytes) (options : RunOptions σ) (world : World σ) : Result (GraphRun σ) := do
  requireThreadId threadId "resume"
  requireSameThread threadId options "resume"
  let saver ← requireRunCheckpointer options "resume"
  let latest ← requireTuple saver (.latest threadId options.checkpointNamespace)
    "checkpoint not found for thread" world.saver
  checkResumeCommand latest.checkpoint options
  return continueFrom host graph latest (replayStartStep latest.checkpoint) threadId options

/-- What a replay comes to: a run, or at once the pause that the checkpoint records. -/
inductive ReplayStart (σ : Type) where
  | run (run : GraphRun σ)
  | paused (result : RunResult)

def pausedResult (checkpoint : Checkpoint) (runId threadId : Bytes) : RunResult where
  state := checkpoint.state
  runId := runId
  threadId := threadId
  checkpointNamespace := checkpoint.checkpointNamespace
  status := .paused
  step := checkpoint.step

/-- A replay never goes back behind the newest step of the thread. -/
def replayStep (record : CheckpointTuple) (latest : Option CheckpointTuple) : Nat :=
  match latest with
  | some latest =>
    if replayStartStep record.checkpoint ≤ latest.checkpoint.step then latest.checkpoint.step
    else replayStartStep record.checkpoint
  | none => replayStartStep record.checkpoint

def requireCheckpointId (checkpointId : Bytes) : Result Unit :=
  if checkpointId = [] then
    .error (.invalidArgument (lit "replay checkpoint_id cannot be empty"))
  else .ok ()

def replayFrom (record : CheckpointTuple) (saver : CheckpointSaver σ) (threadId : Bytes)
    (options : RunOptions σ) (world : World σ) : Result (ReplayStart σ) :=
  if needsCommand record.checkpoint options then
    let runId := if options.runId = [] then GraphRun.generatedId "run" world.graphCounter
      else options.runId
    .ok (.paused (pausedResult record.checkpoint runId threadId))
  else do
    let checkpointNamespace := if options.checkpointNamespace = [] then
      record.checkpoint.checkpointNamespace else options.checkpointNamespace
    let latest ← saver.getTuple (.latest threadId checkpointNamespace) world.saver
    return .run (continueFrom host graph record (replayStep record latest) threadId options)

def replay (threadId checkpointId : Bytes) (options : RunOptions σ) (world : World σ) :
    Result (ReplayStart σ) := do
  requireThreadId threadId "replay"
  requireCheckpointId checkpointId
  requireSameThread threadId options "replay"
  let saver ← requireRunCheckpointer options "replay"
  let record ← requireTuple saver (.at threadId checkpointId options.checkpointNamespace)
    "checkpoint not found" world.saver
  replayFrom host graph record saver threadId options world

def getState (threadId : Bytes) (options : RunOptions σ) (world : World σ) :
    Result StateSnapshot := do
  requireThreadId threadId "getState"
  let saver ← requireRunCheckpointer options "getState"
  let record ← requireTuple saver (.latest threadId options.checkpointNamespace)
    "checkpoint not found for thread" world.saver
  return snapshotFromCheckpoint record.checkpoint

end Runs

section Inversion

variable {host : Host} {graph : StateGraph} {threadId checkpointId : Bytes} {options : RunOptions σ}
  {world : World σ} {run : GraphRun σ}

theorem requireThreadId_ok {action : String} (h : requireThreadId threadId action = .ok ()) :
    threadId ≠ [] := by
  intro hnil
  simp [requireThreadId, hnil] at h

theorem requireRunCheckpointer_ok {action : String} {saver : CheckpointSaver σ}
    (h : requireRunCheckpointer options action = .ok saver) : options.checkpointer = some saver := by
  unfold requireRunCheckpointer at h
  split at h
  · rename_i hsome
    cases h; exact hsome
  · cases h

theorem requireTuple_ok {saver : CheckpointSaver σ} {query : CheckpointQuery} {message : String}
    {content : σ} {tuple : CheckpointTuple}
    (h : requireTuple saver query message content = .ok tuple) :
    saver.getTuple query content = .ok (some tuple) := by
  obtain ⟨found, hfound, h⟩ := of_bind h
  cases found with
  | none => cases h
  | some =>
    cases h; exact hfound

theorem resume_ok (h : resume host graph threadId options world = .ok run) :
    ∃ saver tuple, threadId ≠ [] ∧ options.checkpointer = some saver ∧
      saver.getTuple (.latest threadId options.checkpointNamespace) world.saver = .ok (some tuple) ∧
      checkResumeCommand tuple.checkpoint options = .ok () ∧
      run = continueFrom host graph tuple (replayStartStep tuple.checkpoint) threadId options := by
  obtain ⟨_, hthread, h⟩ := of_bind h
  obtain ⟨_, -, h⟩ := of_bind h
  obtain ⟨saver, hsaver, h⟩ := of_bind h
  obtain ⟨tuple, htuple, h⟩ := of_bind h
  obtain ⟨_, hcommand, h⟩ := of_bind h
  exact ⟨saver, tuple, requireThreadId_ok hthread, requireRunCheckpointer_ok hsaver,
    requireTuple_ok htuple, hcommand, (Except.ok.inj h).symm⟩

theorem replay_ok (h : replay host graph threadId checkpointId options world = .ok (.run run)) :
    ∃ saver tuple latest, threadId ≠ [] ∧ options.checkpointer = some saver ∧
      saver.getTuple (.at threadId checkpointId options.checkpointNamespace) world.saver
        = .ok (some tuple) ∧
      needsCommand tuple.checkpoint options = false ∧
      saver.getTuple (.latest threadId (if options.checkpointNamespace = [] then
        tuple.checkpoint.checkpointNamespace else options.checkpointNamespace)) world.saver
        = .ok latest ∧
      run = continueFrom host graph tuple (replayStep tuple latest) threadId options := by
  obtain ⟨_, hthread, h⟩ := of_bind h
  obtain ⟨_, -, h⟩ := of_bind h
  obtain ⟨_, -, h⟩ := of_bind h
  obtain ⟨saver, hsaver, h⟩ := of_bind h
  obtain ⟨tuple, htuple, h⟩ := of_bind h
  unfold replayFrom at h
  by_cases hneeds : needsCommand tuple.checkpoint options = true
  · rw [if_pos hneeds] at h; cases h
  · rw [if_neg hneeds] at h
    obtain ⟨latest, hlatest, h⟩ := of_bind h
    cases h
    exact ⟨saver, tuple, latest, requireThreadId_ok hthread, requireRunCheckpointer_ok hsaver,
      requireTuple_ok htuple, Bool.eq_false_iff.mpr hneeds, hlatest, rfl⟩

end Inversion

/-! ## 3. Editing a thread -/

def validateUserNodeId (id : Bytes) : Result Unit :=
  if id = [] then .error (.invalidArgument (lit "node id cannot be empty"))
  else if id = START || id = END then .error (.invalidArgument (lit "node id is reserved"))
  else if id.contains 124 then
    .error (.invalidArgument (lit "node id contains reserved namespace separator"))
  else if id.contains 58 then
    .error (.invalidArgument (lit "node id contains reserved namespace task separator"))
  else .ok ()

structure StateUpdateOptions where
  checkpointId : Bytes := []
  asNode : Option Bytes := none

/-- The step of an edited checkpoint: after its base and after the newest one. -/
def updateStep (base : CheckpointTuple) (latest : Option CheckpointTuple) : Nat :=
  match latest with
  | some latest =>
    if base.checkpoint.step + 1 ≤ latest.checkpoint.step then latest.checkpoint.step + 1
    else base.checkpoint.step + 1
  | none => base.checkpoint.step + 1

section Update

variable (host : Host) (graph : StateGraph)

/-- Computations that draw ids from the counter of `compiled_state_graph.cpp`. -/
abbrev IdM := EStateM Status Nat

def liftResult {α : Type} (result : Result α) : IdM α :=
  match result with
  | .ok value => pure value
  | .error status => throw status

def drawId (idPrefix : String) : IdM Bytes := fun counter =>
  .ok (GraphRun.generatedId idPrefix counter) (counter + 1)

/-- The next tasks of an edited checkpoint: its base's, or those that follow `asNode`. -/
def updatedTasks (base : Checkpoint) (asNode : Option Bytes) (state : State) (context : Runtime) :
    IdM (List CheckpointTask) :=
  match asNode with
  | none => return nextTasksFromCheckpoint base
  | some node => do
    liftResult (validateUserNodeId node)
    if OrderedMap.contains node graph.nodes = false then
      throw (.failedPrecondition (lit "updateState asNode is unknown: " ++ node))
    let runId ← drawId "update-run"
    liftResult (graph.nextTasksAfter node state { context with runId, nodeId := node })

def updatedCheckpoint (threadId : Bytes) (update : StateUpdate) (options : RunOptions σ)
    (updateOptions : StateUpdateOptions) (world : World σ) : IdM (CheckpointSaver σ × Checkpoint) := do
  liftResult (requireThreadId threadId "updateState")
  liftResult (requireSameThread threadId options "updateState")
  let saver ← liftResult (requireRunCheckpointer options "updateState")
  let query := if updateOptions.checkpointId = [] then
      CheckpointQuery.latest threadId options.checkpointNamespace
    else CheckpointQuery.at threadId updateOptions.checkpointId options.checkpointNamespace
  let base ← liftResult (requireTuple saver query "checkpoint not found" world.saver)
  let checkpointNamespace := if options.checkpointNamespace = [] then
    base.checkpoint.checkpointNamespace else options.checkpointNamespace
  -- the new step is behind the latest one, also where an older checkpoint is updated
  let latest ← liftResult (saver.getTuple (.latest threadId checkpointNamespace) world.saver)
  let step := updateStep base latest
  let baseState ← liftResult (withoutRunErrorMetadata base.checkpoint.state)
  let updatedState ← liftResult (applyStateUpdate baseState update options.reducers)
  liftResult (validateStateSchema updatedState graph.schemas.stateSchema "state")
  let nextTasks ← updatedTasks graph base.checkpoint updateOptions.asNode updatedState {
    threadId, checkpointNamespace, step }
  let checkpointId ← drawId "update"
  let updateState ← liftResult update.toState
  return (saver, {
    threadId, checkpointId, checkpointNamespace, step
    parentCheckpointId := some base.checkpoint.checkpointId
    state := updatedState
    nextNodes := nodeIdsFromTasks nextTasks
    nextTasks := nextTasks
    writes := [{ nodeId := updateOptions.asNode.getD (lit "__update__"), update := updateState }]
    createdAt := host.clock world.clockReads })

def updateState (threadId : Bytes) (update : StateUpdate) (options : RunOptions σ)
    (updateOptions : StateUpdateOptions) (world : World σ) : Result StateSnapshot × World σ :=
  match updatedCheckpoint host graph threadId update options updateOptions world
      world.graphCounter with
  | .error status counter => (.error status, { world with graphCounter := counter })
  | .ok (saver, checkpoint) counter =>
    let stored := saver.put checkpoint world.saver
    let world := { world with
      saver := stored.2, clockReads := world.clockReads + 1, graphCounter := counter }
    match stored.1 with
    | .error status => (.error status, world)
    | .ok () => (.ok (snapshotFromCheckpoint checkpoint), world)

end Update

end CompiledStateGraph

end LangGraph
