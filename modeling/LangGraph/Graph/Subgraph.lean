import LangGraph.Graph.CompiledStateGraph

/-!
# Subgraph nodes

`StateGraph::addSubgraph` adds a node whose handler runs another compiled graph.  A call starts a
new run of the child each time, under a thread id and a checkpoint namespace made from the context
of the call, and turns the child's result into the output of the node.  What a child run leaves
behind in the saver is not fed back into the run of the parent, which never reads it.
-/

namespace LangGraph

variable {σ : Type}

inductive SubgraphPersistenceMode where
  | perInvocation | perThread | stateless
deriving DecidableEq

structure SubgraphOptions (σ : Type) where
  options : RunOptions σ := {}
  inheritThreadId : Bool := true
  threadIdSuffix : Bytes := []
  persistence : SubgraphPersistenceMode := .perInvocation
  checkpointNamespace : Bytes := []

structure Subgraph (σ : Type) where
  graph : StateGraph
  options : SubgraphOptions σ := {}

/-- What a subgraph node finds beside the runtime record of a call: the machine, the checkpointer of
    the parent run, the answer of the parent's event stream, the world the child run starts in, and
    whether the call came back after its deadline.  `fuel` bounds the super-steps of a child. -/
structure SubgraphHost (σ : Type) where
  host : Host
  checkpointer : Option (CheckpointSaver σ) := none
  publish : Runtime → Nat → RuntimeEvent → Result Unit := fun _ _ _ => .ok ()
  world : Runtime → World σ
  late : Runtime → Bool := fun _ => false
  fuel : Nat

/-! ## 1. The identity of a child run -/

def kCheckpointNamespaceSeparator : UInt8 := 124

def kCheckpointNamespaceTaskSeparator : UInt8 := 58

def joinCheckpointNamespace (parent child : Bytes) : Bytes :=
  let child := if child = [] then lit "subgraph" else child
  if parent = [] then child else parent ++ kCheckpointNamespaceSeparator :: child

def checkpointNamespaceWithTask (nameSpace taskId : Bytes) : Bytes :=
  if taskId = [] then nameSpace else nameSpace ++ kCheckpointNamespaceTaskSeparator :: taskId

/-- `run-step`: the call a per-invocation child belongs to. -/
def invocationId (context : Runtime) : Bytes := context.runId ++ lit "-" ++ decimal context.step

namespace SubgraphOptions

variable (options : SubgraphOptions σ) (context : Runtime)

def baseNamespace : Bytes :=
  let base := if options.checkpointNamespace = [] then context.nodeId else options.checkpointNamespace
  if options.persistence = .perInvocation then
    checkpointNamespaceWithTask base (invocationId context)
  else base

def childNamespace : Bytes :=
  joinCheckpointNamespace context.checkpointNamespace (options.baseNamespace context)

def inheritedThreadId : Bytes :=
  let base := context.threadId ++ lit "/" ++ context.nodeId
  let suffixed := if options.threadIdSuffix = [] then base
    else base ++ lit "/" ++ options.threadIdSuffix
  if options.persistence = .perInvocation then suffixed ++ lit "/" ++ invocationId context
  else suffixed

def childThreadId : Bytes :=
  if options.options.threadId = [] && options.inheritThreadId then options.inheritedThreadId context
  else options.options.threadId

end SubgraphOptions

/-! ## 2. Events of the child -/

def appendTraceSegment (tracePath : List Bytes) (segment : Bytes) : List Bytes :=
  if segment = [] || tracePath.contains segment then tracePath else tracePath ++ [segment]

def stringItems (key : String) (payload : JsonObject) : Option (List Bytes) :=
  match OrderedMap.find (lit key) payload with
  | some (.arr items) => some (items.filterMap fun
    | .str text => some text
    | _ => none)
  | _ => none

/-- The payload of a child's event as the parent's stream gets it. -/
def forwardedPayload (context : Runtime) (childNamespace : Bytes) (payload : JsonObject) :
    JsonObject :=
  let named := addIfMissing (lit "parent_node") (.str context.nodeId)
    (addIfMissing (lit "parent_thread_id") (.str context.threadId)
      (addIfMissing (lit "parent_run_id") (.str context.runId)
        (addIfMissing (lit "checkpoint_ns") (.str childNamespace)
          (addIfMissing (lit "ns") (.str childNamespace) payload))))
  let ancestors := match stringItems "parent_ids" named with
    | some parents => parents
    | none => match OrderedMap.find (lit "parent_run_id") named with
      | some (.str parent) => [parent]
      | _ => []
  let parentIds := context.runId :: ancestors.filter (· ≠ context.runId)
  let tracePath := (context.checkpointNamespace :: childNamespace ::
    (stringItems "trace_path" named).getD []).foldl appendTraceSegment []
  let effectiveNamespace := match OrderedMap.find (lit "checkpoint_ns") named with
    | some (.str nameSpace) => nameSpace
    | _ => childNamespace
  OrderedMap.merge named [(lit "parent_ids", .arr (parentIds.map .str)),
    (lit "trace_path", .arr (tracePath.map .str)),
    (lit "namespace", namespacePathFromString effectiveNamespace)]

def forwardedEvent (context : Runtime) (childNamespace : Bytes) (event : RuntimeEvent) :
    RuntimeEvent :=
  match event.payload with
  | .obj payload => { event with payload := .obj (forwardedPayload context childNamespace payload) }
  | _ => event

/-! ## 3. The child run -/

def subgraphInterruptId (nodeId : Bytes) : Bytes := lit "subgraph:" ++ nodeId

/-- The value the child is resumed with: the part of the command's value that names this node, or
    all of it. -/
def childResumeValue (context : Runtime) (value : Json) : Json :=
  (value.field (subgraphInterruptId context.nodeId)).getD value

/-- The options of a child run.  The cancellation token stays the one of the registration. -/
def childOptions (env : SubgraphHost σ) (options : SubgraphOptions σ) (context : Runtime) :
    RunOptions σ :=
  { options.options with
    checkpointNamespace := options.childNamespace context
    threadId := options.childThreadId context
    checkpointer :=
      if options.persistence = .stateless then none
      else match options.options.checkpointer with
        | some saver => some saver
        | none => env.checkpointer
    command := match context.resumeValue with
      | some value => some { resume := some (childResumeValue context value) }
      | none => options.options.command
    eventCallback := some fun n event => do
      match options.options.eventCallback with
      | some callback => callback n event
      | none => .ok ()
      env.publish context n (forwardedEvent context (options.childNamespace context) event) }

def childRun (env : SubgraphHost σ) (subgraph : Subgraph σ) (state : State) (context : Runtime) :
    GraphRun σ :=
  CompiledStateGraph.invokeSubgraph env.host subgraph.graph state
    (childOptions env subgraph.options context)

/-! ## 4. The output of the node -/

/-- The fields that changed; a field that is gone is set to null. -/
def stateDiffUpdate (before after : State) : Result StateUpdate :=
  let changed := after.view.filter fun entry =>
    OrderedMap.find entry.1 before.view ≠ some entry.2
  let gone := before.view.filter fun entry => !OrderedMap.contains entry.1 after.view
  StateUpdate.fromJsonValue (.obj (OrderedMap.merge []
    (changed ++ gone.map fun entry => (entry.1, .null))))

def statusCodeFromName (name : Bytes) : StatusCode :=
  ([.cancelled, .unknown, .invalidArgument, .deadlineExceeded, .notFound, .alreadyExists,
    .permissionDenied, .resourceExhausted, .failedPrecondition, .aborted, .outOfRange,
    .unimplemented, .internal, .unavailable, .dataLoss, .unauthenticated].find?
      fun code => statusCodeName code = name).getD .unknown

/-- A text field of the error a failed run left in its state. -/
def runErrorText (key : String) (state : State) : Option Bytes :=
  match (OrderedMap.find (lit "__run_error__") state.view).bind (·.field (lit key)) with
  | some (.str text) => some text
  | _ => none

def statusFromFailedSubgraphRun (child : RunResult) : Status :=
  let message := (runErrorText "message" child.state).getD (lit "subgraph run failed")
  let codeName := (runErrorText "code" child.state).getD []
  match child.status with
  | .cancelled => .cancelled message
  | .maxStepsExceeded =>
    .resourceExhausted (if message = [] then lit "subgraph exceeded max steps" else message)
  | _ =>
    if codeName ≠ [] then ⟨statusCodeFromName codeName, message⟩ else .failedPrecondition message

/-- What the node returns for the result of its child run. -/
def subgraphOutput (context : Runtime) (state : State) (child : RunResult) : Result NodeOutput :=
  match child.status with
  | .failed | .cancelled | .maxStepsExceeded => .error (statusFromFailedSubgraphRun child)
  | .paused => do
    let diff ← stateDiffUpdate state child.state
    return {
      update := diff
      interrupt := some {
        id := subgraphInterruptId context.nodeId, value := .obj child.state.view } }
  | .completed => do
    let diff ← stateDiffUpdate state child.state
    match child.parentCommand with
    | some command => return { update := diff, command := some { goto := command.goto, update := diff } }
    | none => return { update := diff }

/-- The handler of a subgraph node.  A child that needs more than the fuel of the host does not come
    back; the model has such a call throw. -/
def makeSubgraphNodeHandler (env : SubgraphHost σ) (subgraph : Subgraph σ) (state : State)
    (context : Runtime) : HandlerOutcome :=
  match ((childRun env subgraph state context).run env.fuel (env.world context)).1 with
  | none => .threw none
  | some child => .returned (do subgraphOutput context state (← child)) [] (env.late context)

def subgraphNode (env : SubgraphHost σ) (subgraph : Subgraph σ) (defaults : NodeOptions := {}) :
    NodeSpec where
  handler := makeSubgraphNodeHandler env subgraph
  options := defaults

end LangGraph
