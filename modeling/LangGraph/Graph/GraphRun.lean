import LangGraph.Graph.Metadata
import LangGraph.Graph.Payload
import LangGraph.Graph.Tasks

/-!
# A graph run: publishing, storing and executing

The parts of `GraphRun` that one super-step is made of: publishing events, storing checkpoints,
executing tasks, building writes from their outputs, applying writes and routing.  Actions on the
run take its mutable state and return their result with the state after them.
-/

namespace LangGraph

/-! ## 1. State of a run -/

inductive SaverCall where
  | put (checkpoint : Checkpoint)
  | putWrites (set : CheckpointWriteSet)
deriving DecidableEq

/-- The mutable members of a run, what it runs on, and its trace: every event handed to `publish`
    and every call made to the saver, each with its answer. -/
structure RunState (σ : Type) where
  result : RunResult
  parentCheckpointId : Option Bytes := none
  resumeValuesByTask : List (Nat × Json) := []
  world : World σ
  log : List (RuntimeEvent × Result Unit) := []
  calls : List (SaverCall × Result Unit) := []

/-- A `GraphRun` object: the arguments of its constructor. -/
structure GraphRun (σ : Type) where
  host : Host
  graph : StateGraph
  state : State
  nextTasks : List CheckpointTask := []
  pendingWrites : List CheckpointWrite := []
  step : Nat := 0
  parentCheckpointId : Option Bytes := none
  options : RunOptions σ
  writeInitialCheckpoint : Bool := false
  allowParentCommand : Bool := false

structure NodeExecution where
  task : CheckpointTask
  output : Option NodeOutput := none
  status : Option Status := none
deriving DecidableEq

variable {σ : Type}

def RunState.withState (st : RunState σ) (state : State) : RunState σ :=
  { st with result := { st.result with state := state } }

def RunState.stored (st : RunState σ) : List Checkpoint :=
  st.calls.filterMap fun
    | (.put checkpoint, .ok ()) => some checkpoint
    | _ => none

/-! ## 2. Publishing events -/

def mergeEventTags (payload : JsonObject) (tags : List Bytes) : JsonObject :=
  if tags = [] then payload
  else
    let own := match OrderedMap.find (lit "tags") payload with
      | some (.arr items) => items.filter fun
        | .str _ => true
        | _ => false
      | _ => []
    OrderedMap.set (lit "tags") (.arr (tags.map .str ++ own)) payload

def mergeEventMetadata (payload : JsonObject) (metadata : Json) : JsonObject :=
  match metadata with
  | .obj [] => payload
  | .obj fields =>
    let own := match OrderedMap.find (lit "metadata") payload with
      | some (.obj own) => own
      | _ => []
    OrderedMap.set (lit "metadata") (.obj (OrderedMap.merge fields own)) payload
  | _ => payload

def addIfMissing (key : Bytes) (value : Json) (payload : JsonObject) : JsonObject :=
  if OrderedMap.contains key payload then payload else OrderedMap.set key value payload

namespace GraphRun

variable (run : GraphRun σ)

/-- The event as `publish` hands it on: ids, namespace, tags and metadata filled in. -/
def completeEvent (result : RunResult) (event : RuntimeEvent) : RuntimeEvent :=
  let payload := match event.payload with
    | .obj fields =>
      let named := if result.checkpointNamespace = [] then fields
        else addIfMissing (lit "checkpoint_ns") (.str result.checkpointNamespace)
          (addIfMissing (lit "ns") (.str result.checkpointNamespace) fields)
      .obj (mergeEventMetadata (mergeEventTags named run.options.tags) run.options.metadata)
    | other => other
  { event with
    runId := if event.runId = [] then result.runId else event.runId
    threadId := if event.threadId = [] then result.threadId else event.threadId
    payload := payload }

def isFiltered (event : RuntimeEvent) : Bool :=
  run.options.eventTypes ≠ [] && !run.options.eventTypes.contains event.type

/-- The answer to the `n`-th event: the check, then the callback, then the sink. -/
def publishAnswer (n : Nat) (event : RuntimeEvent) : Result Unit :=
  if run.isFiltered event then .ok ()
  else do
    validateRuntimeEvent run.host.json {} event
    match run.options.eventCallback with
    | some callback => callback n event
    | none => .ok ()
    match run.options.eventSink with
    | some sink => sink n event
    | none => .ok ()

def isCollected (event : RuntimeEvent) : Bool :=
  run.options.collectEvents && !run.isFiltered event
    && (validateRuntimeEvent run.host.json {} event).isOk

def publish (event : RuntimeEvent) (st : RunState σ) : Result Unit × RunState σ :=
  let event := run.completeEvent st.result event
  let answer := run.publishAnswer st.log.length event
  (answer, { st with
    result := { st.result with
      events := if run.isCollected event then st.result.events ++ [event] else st.result.events }
    log := st.log ++ [(event, answer)] })

def emit (type : RuntimeEventType) (step : Nat) (node : Bytes) (payload : Json) (message : Bytes)
    (st : RunState σ) : Result Unit × RunState σ :=
  run.publish { type, step, node, payload, message } st

def emitIgnored (type : RuntimeEventType) (step : Nat) (node : Bytes) (payload : Json)
    (message : Bytes) (st : RunState σ) : RunState σ :=
  (run.emit type step node payload message st).2

end GraphRun

/-! ## 3. Storing checkpoints -/

/-- Why a checkpoint is stored; its name is the checkpoint's `source`. -/
inductive CheckpointSource where
  | initial | taskWrites | step | completion | interrupt | parentCommand | failure
deriving DecidableEq

def CheckpointSource.name : CheckpointSource → Bytes
  | .initial => lit "initial"
  | .taskWrites => lit "task_writes"
  | .step => lit "step"
  | .completion => lit "completion"
  | .interrupt => lit "interrupt"
  | .parentCommand => lit "parent_command"
  | .failure => lit "failure"

def durabilityModeName : Durability → Bytes
  | .sync => lit "sync"
  | .async => lit "async"
  | .exit => lit "exit"

/-- `run-step-n`, or `run-step-n-writes-k` for the task writes of a super-step. -/
def checkpointIdFor (runId : Bytes) (step : Nat) (pending : Nat) (source : CheckpointSource) : Bytes :=
  let base := runId ++ lit "-step-" ++ decimal step
  match source with
  | .taskWrites => base ++ lit "-writes-" ++ decimal pending
  | _ => base

def RunState.afterCall (st : RunState σ) (call : SaverCall) (answer : Result Unit) (saver : σ) :
    RunState σ :=
  { st with
    world := { st.world with saver := saver }
    calls := st.calls ++ [(call, answer)] }

def RunState.tick (st : RunState σ) : RunState σ :=
  { st with world := { st.world with clockReads := st.world.clockReads + 1 } }

def pendingWriteSet (checkpoint : Checkpoint) (source : CheckpointSource) : CheckpointWriteSet where
  threadId := checkpoint.threadId
  checkpointNamespace := checkpoint.checkpointNamespace
  checkpointId := checkpoint.checkpointId
  taskId := checkpoint.checkpointId
  taskPath := source.name
  writes := checkpoint.pendingWrites

/-- Puts the checkpoint, then its pending writes if it has any. -/
def storeCheckpoint (saver : CheckpointSaver σ) (checkpoint : Checkpoint) (source : CheckpointSource)
    (st : RunState σ) : Result Unit × RunState σ :=
  let stored := saver.put checkpoint st.world.saver
  let st := st.afterCall (.put checkpoint) stored.1 stored.2
  match stored.1 with
  | .error status => (.error status, st)
  | .ok () =>
    if checkpoint.pendingWrites = [] then (.ok (), st)
    else
      let set := pendingWriteSet checkpoint source
      let storedWrites := saver.putWrites set st.world.saver
      (storedWrites.1, st.afterCall (.putWrites set) storedWrites.1 storedWrites.2)

namespace GraphRun

variable (run : GraphRun σ)

structure CheckpointRequest where
  step : Nat
  next : List CheckpointTask
  writes : List CheckpointWrite := []
  pending : List CheckpointWrite := []
  source : CheckpointSource
  terminal : Bool := false
  requireCheckpointEvent : Bool := true

def shouldStore (request : CheckpointRequest) : Bool :=
  run.options.durability ≠ .exit || request.source = .initial || request.terminal

def checkpointOf (request : CheckpointRequest) (st : RunState σ) : Checkpoint :=
  let next := annotateTasks st.result.runId st.result.checkpointNamespace request.step
    (normalizeNextTasks request.next)
  { threadId := st.result.threadId
    checkpointId := checkpointIdFor st.result.runId request.step request.pending.length request.source
    checkpointNamespace := st.result.checkpointNamespace
    parentCheckpointId := st.parentCheckpointId
    step := request.step
    state := st.result.state
    nextNodes := nodeIdsFromTasks next
    nextTasks := next
    writes := request.writes
    pendingWrites := request.pending
    metadata := .object [(lit "source", .str request.source.name),
      (lit "durability", .str (durabilityModeName run.options.durability))]
    createdAt := run.host.clock st.world.clockReads }

def storeInSaver (checkpoint : Checkpoint) (source : CheckpointSource) (st : RunState σ) :
    Result Unit × RunState σ :=
  match run.options.checkpointer with
  | some saver => storeCheckpoint saver checkpoint source st
  | none => (.ok (), st)

/-- Makes the checkpoint the parent of the next one and publishes it. -/
def announceCheckpoint (request : CheckpointRequest) (checkpoint : Checkpoint) (st : RunState σ) :
    Result Unit × RunState σ :=
  let emitted := run.emit .checkpointCreated request.step [] (checkpointPayload checkpoint) []
    { st with parentCheckpointId := some checkpoint.checkpointId }
  (if request.requireCheckpointEvent then emitted.1 else .ok (), emitted.2)

def putCheckpoint (request : CheckpointRequest) (st : RunState σ) : Result Unit × RunState σ :=
  let checkpoint := run.checkpointOf request st
  if run.shouldStore request then
    let stored := run.storeInSaver checkpoint request.source st.tick
    match stored.1 with
    | .error status => (.error status, stored.2)
    | .ok () => run.announceCheckpoint request checkpoint stored.2
  else (.ok (), st.tick)

/-! ## 4. Failing -/

/-- The places of `run` that end the run through `failRun`. -/
inductive FailSite where
  | runStarted | cleaned | command | stateSchema
  | cancelled | budget | nodeStarted | nodeFailed | interruptedNodeFailed
  | completedBesideFailure | writeBesideFailure
  | nodeCompleted | write | apply | route
  | parentCommand | interruptMetadata | interruptEvent | completion
deriving DecidableEq

/-- The arguments of a call to `failRun`, and where it is made. -/
structure FailCall where
  site : FailSite
  status : Status
  failedStep : Nat
  node : Bytes
  failureNext : List CheckpointTask := []
  failurePendingWrites : List CheckpointWrite := []

def runFailedPayload (node : Bytes) (step : Nat) (status : Status) : Json :=
  .object [(lit "node", .str node), (lit "step", .ofNat step), (lit "status", .str status.codeName),
    (lit "error", statusPayload status)]

/-- The tasks a failure checkpoint is asked to keep: those given, or else the failed node. -/
def FailCall.next (call : FailCall) : List CheckpointTask :=
  let failureNext := normalizeNextTasks call.failureNext
  if failureNext = [] && call.node ≠ [] then [{ nodeId := call.node }] else failureNext

def FailCall.request (call : FailCall) : CheckpointRequest where
  step := call.failedStep
  next := call.next
  pending := call.failurePendingWrites
  source := .failure
  terminal := true
  requireCheckpointEvent := false

def failRun (call : FailCall) (st : RunState σ) : Result RunResult × RunState σ :=
  let runStatus := runStatusFromStatus call.status
  let st := { st with result := { st.result with status := runStatus } }
  match withRunErrorMetadata st.result.state call.status call.node call.failedStep runStatus with
  -- an error entry beyond the limits hides the failure itself
  | .error status => (.error status, st)
  | .ok failedState =>
    let stored := run.putCheckpoint call.request (st.withState failedState)
    match stored.1 with
    | .error status => (.error status, stored.2)
    | .ok () =>
      let st := run.emitIgnored .runFailed call.failedStep call.node
        (runFailedPayload call.node call.failedStep call.status) call.status.toString stored.2
      (.ok st.result, st)

end GraphRun

end LangGraph
