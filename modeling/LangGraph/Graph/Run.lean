import LangGraph.Graph.SuperStep

/-!
# Running a graph

`GraphRun::run`: the start of a run, with its initial checkpoint or the answers of a resume
command, then super-steps until no task is left.
-/

namespace LangGraph

variable {σ : Type}

namespace GraphRun

variable (run : GraphRun σ)

/-! ## 1. Starting -/

def orExit {α : Type} (result : Result α) : RunM σ α :=
  match result with
  | .ok value => pure value
  | .error status => throw (.status status)

def validateRunOptionsConfig (options : RunOptions σ) : Result Unit :=
  if options.metadata.isObject = false then
    .error (.invalidArgument (lit "RunOptions metadata must be an object"))
  else if options.configurable.isObject = false then
    .error (.invalidArgument (lit "RunOptions configurable must be an object"))
  else .ok ()

/-- `generatedId`: the prefix and the next number of the counter. -/
def generatedId (idPrefix : String) (counter : Nat) : Bytes := lit idPrefix ++ lit "-" ++ decimal counter

/-- Run and thread id, generated where the options leave them empty. -/
def assignIds (st : RunState σ) : RunState σ :=
  let counter := st.world.runCounter
  let runId := if run.options.runId = [] then generatedId "run" counter else run.options.runId
  let counter := if run.options.runId = [] then counter + 1 else counter
  let threadId := if run.options.threadId = [] then generatedId "thread" counter
    else run.options.threadId
  let counter := if run.options.threadId = [] then counter + 1 else counter
  { st with
    world := { st.world with runCounter := counter }
    result := { st.result with
      runId := runId, threadId := threadId
      checkpointNamespace := run.options.checkpointNamespace } }

/-- A failure before the first super-step: it keeps the tasks and writes the run was given. -/
def startFailure (site : FailSite) (nextTasks : List CheckpointTask) (step : Nat) (node : Bytes)
    (status : Status) : FailCall where
  site := site
  status := status
  failedStep := step
  node := node
  failureNext := nextTasks
  failurePendingWrites := run.pendingWrites

/-- The first tasks: those given, or what the router of START says for a new run. -/
def firstTasks (st : RunState σ) : Result (List CheckpointTask) :=
  if run.writeInitialCheckpoint && OrderedMap.contains START run.graph.routers then do
    let routed ← run.graph.nextTasksAfter START st.result.state
      (routeContext st.result st.result.step START)
    return normalizeNextTasks routed
  else .ok (normalizeNextTasks run.nextTasks)

/-- The node/order match of an interrupt entry with a pending task. -/
def matchesTask (metadata : InterruptMetadata) (task : CheckpointTask) : Bool :=
  task.nodeId = metadata.node &&
    match metadata.order, task.order with
    | some a, some b => a = b
    | _, _ => true

/-- Positions of the tasks an entry matches, among those without a resume value yet. -/
def resumeCandidates (values : List (Nat × Json)) (nextTasks : List CheckpointTask)
    (metadata : InterruptMetadata) : List Nat :=
  (List.range nextTasks.length).filter fun index =>
    !OrderedMap.contains index values &&
      match nextTasks[index]? with
      | some task => matchesTask metadata task
      | none => false

def multipleMatches (node : Bytes) : Status :=
  .failedPrecondition (lit "resume command matches multiple pending tasks: " ++ node)

def notPending (node : Bytes) : Status :=
  .failedPrecondition (lit "resume node is not pending: " ++ node)

def matchInterrupts (commandValue : Json) (nextTasks : List CheckpointTask) (count : Nat) :
    List (Nat × Json) → List InterruptMetadata → Except (Bytes × Status) (List (Nat × Json))
  | values, [] => .ok values
  | values, metadata :: rest =>
    match resumeCandidates values nextTasks metadata with
    | [] => .error (metadata.node, notPending metadata.node)
    | [index] =>
      match resumeValueForInterrupt commandValue metadata count with
      | .error status => .error (metadata.node, status)
      | .ok value =>
        matchInterrupts commandValue nextTasks count (OrderedMap.set index value values) rest
    | _ :: _ :: _ => .error (metadata.node, multipleMatches metadata.node)

/-- The resume values of a command: node and status of the failure if it does not fit. -/
def resumeValues (value : Json) (nextTasks : List CheckpointTask) (state : State) :
    Except (Bytes × Status) (List (Nat × Json)) :=
  match interruptMetadataFromState state with
  | .error status => .error ([], status)
  | .ok [] =>
    if nextTasks.length = 1 then .ok [(0, value)]
    else .error ([], .failedPrecondition (lit
      "resume command requires a single pending node when no interrupt metadata exists"))
  | .ok (metadata :: rest) =>
    matchInterrupts value nextTasks (metadata :: rest).length [] (metadata :: rest)

/-- Answers the interrupts the run was resumed for and merges the command's update. -/
def applyCommand (nextTasks : List CheckpointTask) (command : Command) : RunM σ Unit := do
  let st ← get
  let failure := run.startFailure .command nextTasks st.result.step
  match command.resume with
  | none => throw (.fail (failure [] (.invalidArgument (lit "unsupported command"))))
  | some value =>
    match resumeValues value nextTasks st.result.state with
    | .error (node, status) => throw (.fail (failure node status))
    | .ok values =>
      effect fun st => { st with resumeValuesByTask := values }
      let cleaned ← orFail (withoutInterruptMetadata st.result.state) (failure [])
      effect (·.withState cleaned)
      let resumed ← orFail (applyStateUpdate cleaned command.update run.options.reducers) (failure [])
      effect (·.withState resumed)

/-- A resumed run drops the error entry of the run it continues. -/
def cleanRunError (nextTasks : List CheckpointTask) : RunM σ Unit := do
  if run.writeInitialCheckpoint = false then
    let st ← get
    let cleaned ← orFail (withoutRunErrorMetadata st.result.state)
      (run.startFailure .cleaned nextTasks st.result.step [])
    effect (·.withState cleaned)

def storeInitial (nextTasks : List CheckpointTask) : RunM σ Unit := do
  if run.writeInitialCheckpoint then
    let stored ← act (run.putCheckpoint { step := run.step, next := nextTasks, source := .initial })
    orExit stored

def checkInput (state : State) : Result Unit :=
  if run.writeInitialCheckpoint then
    validateStateSchema state run.graph.schemas.inputSchema "input"
  else .ok ()

def applyGivenCommand (nextTasks : List CheckpointTask) : RunM σ Unit :=
  match run.options.command with
  | some command => run.applyCommand nextTasks command
  | none => pure ()

def start : RunM σ LoopState := do
  orExit (validateRunOptionsConfig run.options)
  effect run.assignIds
  let st ← get
  orExit (run.checkInput st.result.state)
  let nextTasks ← orExit (run.firstTasks st)
  let emitted ← act (run.emit .runStarted st.result.step [] (.obj []) [])
  -- up to here an error is only returned; after this all but a refused store fail the run
  orFail emitted (run.startFailure .runStarted nextTasks st.result.step [])
  run.storeInitial nextTasks
  run.cleanRunError nextTasks
  run.applyGivenCommand nextTasks
  let st ← get
  orFail (validateStateSchema st.result.state run.graph.schemas.stateSchema "state")
    (run.startFailure .stateSchema nextTasks st.result.step [])
  return { nextTasks, pendingWrites := run.pendingWrites, budgetSteps := 0 }

/-! ## 2. The loop -/

/-- At most `fuel` super-steps; the result tells whether the loop ended. -/
def runLoop : Nat → LoopState → RunM σ Bool
  | fuel, loop =>
    if isTerminalNextTasks loop.nextTasks then pure true
    else match fuel with
      | 0 => pure false
      | fuel + 1 => do
        let next ← run.superStep loop
        runLoop fuel next

/-- After the loop.  The status is already `Completed` then, so that only the result is left. -/
def finish : RunM σ RunResult := do
  let st ← get
  if st.result.status ≠ .completed then
    effect (setStatus .completed)
    let failure := fun status => {
      site := .completion, status, failedStep := st.result.step, node := [] : FailCall }
    orFail (validateStateSchema st.result.state run.graph.schemas.outputSchema "output") failure
    let emitted ← act (run.emit .runCompleted st.result.step []
      (completedPayload st.result.state false) [])
    orFail emitted failure
  let st ← get
  return st.result

def body (fuel : Nat) : RunM σ (Option RunResult) := do
  let loop ← run.start
  if ← run.runLoop fuel loop then
    let result ← run.finish
    return some result
  else return none

/-! ## 3. The run -/

def initialState (world : World σ) : RunState σ where
  result := { state := run.state, step := run.step }
  parentCheckpointId := run.parentCheckpointId
  world := world

end GraphRun

/-- The result of the run, `none` while the fuel does not suffice, and the state it leaves. -/
def GraphRun.run (self : GraphRun σ) (fuel : Nat) (world : World σ) :
    Option (Result RunResult) × RunState σ :=
  match self.body fuel (self.initialState world) with
  | .ok result st => (result.map .ok, st)
  | .error (.done result) st => (some (.ok result), st)
  | .error (.status status) st => (some (.error status), st)
  | .error (.fail call) st => (some (self.failRun call st).1, (self.failRun call st).2)

end LangGraph
