import LangGraph.Checkpoint.Types
import LangGraph.Foundation.Event
import LangGraph.State.Reducer

/-!
# Graphs and run options

What a compiled graph and a run are made of.  Handlers, routers, event callbacks, the cancellation
token, the executor and the clock are code or hardware outside the runtime: each is a function of
everything that tells one call of it from another, so a handler with state of its own is covered.
-/

namespace LangGraph

def START : Bytes := lit "__start__"

def END : Bytes := lit "__end__"

inductive CommandGraph where
  | current | parent
deriving DecidableEq

inductive Durability where
  | sync | async | exit
deriving DecidableEq

structure Command where
  graph : CommandGraph := .current
  update : StateUpdate := .empty
  resume : Option Json := none
  goto : List Bytes := []
deriving DecidableEq

structure Interrupt where
  id : Bytes
  value : Json := .obj []
  resumeValues : Json := .obj []
deriving DecidableEq

structure NodeOutput where
  update : StateUpdate := .empty
  interrupt : Option Interrupt := none
  command : Option Command := none
deriving DecidableEq

/-! ## 1. Code outside the runtime -/

/-- What a handler or router is told about the call.  `call` is the position of the task in its
    super-step. -/
structure Runtime where
  runId : Bytes := []
  threadId : Bytes := []
  checkpointNamespace : Bytes := []
  taskId : Bytes := []
  step : Nat := 0
  nodeId : Bytes := []
  resumeValue : Option Json := none
  attempt : Nat := 1
  call : Nat := 0

/-- How a handler call ends: it returns, with the interrupt requests made through `Runtime` and
    whether it came back after its deadline, or it throws. -/
inductive HandlerOutcome where
  | returned (output : Result NodeOutput) (requestedInterrupts : List Json) (late : Bool)
  | threw (what : Option Bytes)

structure NodeOptions where
  maxAttempts : Nat := 1
  /-- Milliseconds waited after the given attempt. -/
  retryDelay : Nat → Nat := fun _ => 0
  hasTimeout : Bool := false
  errorHandler : Option (Status → State → Runtime → HandlerOutcome) := none

structure NodeSpec where
  handler : State → Runtime → HandlerOutcome
  options : NodeOptions := {}

structure RouteTarget where
  node : Bytes
  arg : Option State := none

abbrev Router := State → Runtime → Result (List RouteTarget)

abbrev JsonSchema := Json → Result Unit

structure StateSchemaOptions where
  inputSchema : Option JsonSchema := none
  stateSchema : Option JsonSchema := none
  outputSchema : Option JsonSchema := none

structure StateGraph where
  nodes : List (Bytes × NodeSpec) := []
  edges : List (Bytes × List Bytes) := []
  routers : List (Bytes × Router) := []
  routerDestinations : List (Bytes × List Bytes) := []
  commandDestinations : List (Bytes × List Bytes) := []
  schemas : StateSchemaOptions := {}

def StateGraph.hasNodeOrEnd (graph : StateGraph) (id : Bytes) : Bool :=
  id = END || OrderedMap.contains id graph.nodes

/-- The places where a run looks at its cancellation token. -/
inductive CancelPoint where
  | superStep (runId : Bytes) (step : Nat)
  | attempt (runId : Bytes) (step index attempt : Nat)
  | wait (runId : Bytes) (step index attempt : Nat)

structure ResourceLimits where
  maxSteps : Option Nat := some 100
  /-- The duration check made before the given step of the run is consumed. -/
  duration : Nat → Result Unit := fun _ => .ok ()

/-! ## 2. Runs -/

structure RunOptions (σ : Type) where
  runId : Bytes := []
  threadId : Bytes := []
  checkpointNamespace : Bytes := []
  durability : Durability := .async
  reducers : ReducerRegistry := {}
  limits : ResourceLimits := {}
  cancellationToken : CancelPoint → Result Unit := fun _ => .ok ()
  checkpointer : Option (CheckpointSaver σ) := none
  /-- The error a submitted task comes back with when it did not run (run id, step, index). -/
  executor : Option (Bytes → Nat → Nat → Option Status) := none
  maxConcurrency : Nat := 0
  /-- Answer to the `n`-th event of the run. -/
  eventCallback : Option (Nat → RuntimeEvent → Result Unit) := none
  eventSink : Option (Nat → RuntimeEvent → Result Unit) := none
  eventTypes : List RuntimeEventType := []
  command : Option Command := none
  tags : List Bytes := []
  metadata : Json := .obj []
  configurable : Json := .obj []
  collectEvents : Bool := false

inductive RunStatus where
  | completed | paused | failed | cancelled | maxStepsExceeded
deriving DecidableEq

structure RunResult where
  state : State
  runId : Bytes := []
  threadId : Bytes := []
  checkpointNamespace : Bytes := []
  status : RunStatus := .completed
  step : Nat := 0
  events : List RuntimeEvent := []
  parentCommand : Option Command := none
deriving DecidableEq

/-- The machine a run executes on: the successive readings of the system clock, the JSON library,
    the number of hardware threads and the answer of the runtime's own executor to a submitted
    task. -/
structure Host where
  clock : Nat → Int
  json : JsonLibrary
  hardwareConcurrency : Nat := 1
  ownExecutor : Bytes → Nat → Nat → Option Status := fun _ _ _ => none

/-- What outlives a run: the saver's content, the number of clock readings taken, and the id
    counters of `graph_run.cpp` and `compiled_state_graph.cpp`. -/
structure World (σ : Type) where
  saver : σ
  clockReads : Nat := 0
  runCounter : Nat := 1
  graphCounter : Nat := 1

end LangGraph
