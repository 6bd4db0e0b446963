import LangGraph.Graph.Execution

/-!
# The super-step

One iteration of the loop of `GraphRun::run`.  The stages run one after another on the state of
the run; a stage leaves the run early through `failRun`, with a result, or with a status.  The
exit names the `failRun` call, which `run` then makes.
-/

namespace LangGraph

open StableSort

variable {σ : Type}

namespace GraphRun

/-! ## 1. Leaving the run -/

inductive Exit where
  /-- `return failRun(...)` -/
  | fail (call : FailCall)
  /-- `return result` -/
  | done (result : RunResult)
  /-- `return status` -/
  | status (status : Status)

abbrev RunM (σ : Type) := EStateM Exit (RunState σ)

def act {α : Type} (action : RunState σ → α × RunState σ) : RunM σ α := fun st =>
  .ok (action st).1 (action st).2

def effect (action : RunState σ → RunState σ) : RunM σ Unit := fun st => .ok () (action st)

/-- The value of a result, or `return failRun(...)` with its status. -/
def orFail {α : Type} (result : Result α) (call : Status → FailCall) : RunM σ α :=
  match result with
  | .ok value => pure value
  | .error status => throw (.fail (call status))

variable (run : GraphRun σ)

/-! ## 2. What a super-step works on -/

structure LoopState where
  nextTasks : List CheckpointTask
  pendingWrites : List CheckpointWrite
  /-- Steps consumed from the execution budget. -/
  budgetSteps : Nat

structure StepContext where
  activeTasks : List CheckpointTask
  pendingWrites : List CheckpointWrite
  nextStep : Nat
  inputState : State

def StepContext.failureNode (ctx : StepContext) : Bytes :=
  match ctx.activeTasks with
  | task :: _ => task.nodeId
  | [] => []

def stepContext (loop : LoopState) (result : RunResult) : StepContext where
  activeTasks := annotateTasks result.runId result.checkpointNamespace (result.step + 1)
    (normalizeNextTasks loop.nextTasks)
  pendingWrites := loop.pendingWrites
  nextStep := result.step + 1
  inputState := result.state

/-- A failure that keeps every task of the step and the writes pending at its start. -/
def StepContext.failAll (ctx : StepContext) (site : FailSite) (node : Bytes) (status : Status) :
    FailCall where
  site := site
  status := status
  failedStep := ctx.nextStep
  node := node
  failureNext := ctx.activeTasks
  failurePendingWrites := ctx.pendingWrites

def maxStepsExceeded (limit : Nat) : Status :=
  .resourceExhausted (lit "execution budget exceeded max steps: " ++ decimal limit)

/-- `ExecutionBudget::consumeStep`: the number of steps consumed after it. -/
def consumeStep (limits : ResourceLimits) (steps : Nat) : Result Nat := do
  limits.duration steps
  match limits.maxSteps with
  | none => return steps + 1
  | some limit => if limit < steps + 1 then throw (maxStepsExceeded limit) else return steps + 1

def emitNodeStarted (ctx : StepContext) : List CheckpointTask → RunM σ Unit
  | [] => pure ()
  | task :: tasks => do
    let emitted ← act (run.emit .nodeStarted ctx.nextStep task.nodeId
      (nodeStartedPayload task ctx.inputState ctx.nextStep) [])
    orFail emitted (ctx.failAll .nodeStarted task.nodeId)
    emitNodeStarted ctx tasks

/-! ## 3. Sorting the executions -/

def outputProblem (allowParentCommand : Bool) (execution : NodeExecution) : Option Status :=
  match execution.output with
  | none => some (.internal (lit "node execution missing output"))
  | some output =>
    match output.command with
    | none => none
    | some command =>
      if output.interrupt.isSome then
        some (.invalidArgument (lit "node output cannot combine interrupt and command routing"))
      else if command.resume.isSome then
        some (.invalidArgument (lit "node returned unsupported resume command"))
      else if command.graph = .parent && !allowParentCommand then
        some (.failedPrecondition (lit "node returned parent command outside a subgraph"))
      else none

def rejectOutput (allowParentCommand : Bool) (execution : NodeExecution) : NodeExecution :=
  match execution.status with
  | some _ => execution
  | none => { execution with status := outputProblem allowParentCommand execution }

def NodeExecution.hasParentCommand (execution : NodeExecution) : Bool :=
  match execution.output.bind (·.command) with
  | some command => command.graph = .parent
  | none => false

def NodeExecution.interrupt (execution : NodeExecution) : Option Interrupt :=
  execution.output.bind (·.interrupt)

/-- Only the first parent command of a step stands; `seen` tells whether it came already. -/
def rejectExtraParents : Bool → List NodeExecution → List NodeExecution
  | _, [] => []
  | seen, execution :: rest =>
    if execution.status.isNone && NodeExecution.hasParentCommand execution then
      (if seen then { execution with status := some (.failedPrecondition
          (lit "multiple parent commands in one super-step are not supported")) }
        else execution) :: rejectExtraParents true rest
    else execution :: rejectExtraParents seen rest

def rejectParentAt (parent : Nat) (executions : List NodeExecution) : List NodeExecution :=
  executions.mapIdx fun index execution =>
    if index = parent then
      { execution with status := some (.failedPrecondition
          (lit "parent command cannot be combined with interrupts in one super-step")) }
    else execution

/-- Positions of the executions that satisfy a test, in order. -/
def positions (test : NodeExecution → Bool) (executions : List NodeExecution) : List Nat :=
  (List.range executions.length).filter fun index => executions[index]?.any test

def failedAt (executions : List NodeExecution) (index : Nat) : Bool :=
  executions[index]?.any (·.status.isSome)

def newlyFailed (before after : List NodeExecution) : List Nat :=
  (List.range before.length).filter fun index => !failedAt before index && failedAt after index

/-- The executions of a step once every failure is known. -/
structure Classified where
  executions : List NodeExecution
  failedIndexes : List Nat
  interruptIndexes : List Nat
  parentCommandIndex : Option Nat

def classify (allowParentCommand : Bool) (executions : List NodeExecution) : Classified :=
  let checked := executions.map (rejectOutput allowParentCommand)
  let interrupts := positions (fun e => e.status.isNone && (NodeExecution.interrupt e).isSome) checked
  let parent := checked.findIdx? fun e => e.status.isNone && NodeExecution.hasParentCommand e
  let single := rejectExtraParents false checked
  let conflict := parent.isSome && !interrupts.isEmpty
  let final := match parent with
    | some index => if conflict then rejectParentAt index single else single
    | none => single
  -- the failed positions are in the order in which the passes find them
  { executions := final
    failedIndexes := positions (·.status.isSome) executions ++ newlyFailed executions checked
      ++ newlyFailed checked single ++ newlyFailed single final
    interruptIndexes := interrupts
    parentCommandIndex := parent }

/-- Announces the failures: those of the handlers with their task, the others with the status
    only. -/
def announceFailures (ctx : StepContext) (raw : List NodeExecution) (classified : Classified)
    (st : RunState σ) : RunState σ :=
  classified.failedIndexes.foldl (fun st index =>
    match classified.executions[index]?, raw[index]? with
    | some failed, some before =>
      let status := failed.status.getD (.unknown [])
      let payload := if before.status.isSome then
          taskFailurePayload failed.task ctx.nextStep status else .null
      run.emitIgnored .nodeFailed ctx.nextStep failed.task.nodeId payload status.toString st
    | _, _ => st) st

/-! ## 4. A step with failures -/

def nodeFailedIgnored (ctx : StepContext) (node : Bytes) (status : Status) : RunM σ Unit :=
  effect (run.emitIgnored .nodeFailed ctx.nextStep node .null status.toString)

/-- The writes of the tasks that succeeded beside a failed one; `pending` collects them. -/
def writesBesideFailure (ctx : StepContext) (failureNext : List CheckpointTask) :
    List CheckpointWrite → List NodeExecution → RunM σ (List CheckpointWrite)
  | pending, [] => pure pending
  | pending, execution :: rest =>
    match execution.status, execution.output with
    | none, some output => do
      let emitted ← act (run.emit .nodeCompleted ctx.nextStep execution.task.nodeId
        (nodeCompletedPayload execution.task output.update ctx.nextStep) [])
      orFail emitted fun status => {
        site := .completedBesideFailure, status, failedStep := ctx.nextStep
        node := execution.task.nodeId, failureNext, failurePendingWrites := pending }
      let st ← get
      match run.writeFromExecution st.result execution.task output with
      | .error status =>
        run.nodeFailedIgnored ctx execution.task.nodeId status
        throw (.fail {
          -- here the tasks that failed first are not kept
          site := .writeBesideFailure, status, failedStep := ctx.nextStep
          node := execution.task.nodeId, failureNext := appendTask [] execution.task
          failurePendingWrites := pending })
      | .ok write => writesBesideFailure ctx failureNext (pending ++ [write]) rest
    | _, _ => writesBesideFailure ctx failureNext pending rest

def tasksAt (executions : List NodeExecution) (indexes : List Nat) : List CheckpointTask :=
  indexes.filterMap fun index => executions[index]?.map (·.task)

/-- The failure path: the failed tasks stay to be run, the others become pending writes, unless a
    task of the step was interrupted. -/
def failStep (ctx : StepContext) (classified : Classified) (first : NodeExecution) :
    RunM σ Unit := do
  let status := first.status.getD (.unknown [])
  if classified.interruptIndexes.isEmpty then
    let failureNext := appendTasks [] (tasksAt classified.executions classified.failedIndexes)
    let pending ← run.writesBesideFailure ctx failureNext ctx.pendingWrites classified.executions
    throw (.fail {
      site := .nodeFailed, status, failedStep := ctx.nextStep, node := first.task.nodeId
      failureNext, failurePendingWrites := pending })
  else throw (.fail (ctx.failAll .interruptedNodeFailed first.task.nodeId status))

def failIfAny (ctx : StepContext) (classified : Classified) : RunM σ Unit :=
  match classified.failedIndexes with
  | [] => pure ()
  | index :: _ =>
    match classified.executions[index]? with
    | some first => run.failStep ctx classified first
    | none => pure ()

/-! ## 5. A step without failures -/

def emitNodeCompleted (ctx : StepContext) : List NodeExecution → RunM σ Unit
  | [] => pure ()
  | execution :: rest =>
    match execution.output with
    | some output => do
      if output.interrupt.isNone then
        let emitted ← act (run.emit .nodeCompleted ctx.nextStep execution.task.nodeId
          (nodeCompletedPayload execution.task output.update ctx.nextStep) [])
        orFail emitted (ctx.failAll .nodeCompleted execution.task.nodeId)
      emitNodeCompleted ctx rest
    | none => emitNodeCompleted ctx rest

/-- A checkpoint that cannot be stored ends the run with the status. -/
def storeOrExit (ctx : StepContext) (node : Bytes) (request : CheckpointRequest) : RunM σ Unit := do
  let stored ← act (run.putCheckpoint request)
  match stored with
  | .ok () => pure ()
  | .error status =>
    effect (run.emitIgnored .runFailed ctx.nextStep node .null status.toString)
    throw (.status status)

/-- The writes of the step in execution order; `persist` stores them as they come. -/
def collectWrites (ctx : StepContext) (persist : Bool) :
    List CheckpointWrite → List NodeExecution → RunM σ (List CheckpointWrite)
  | writes, [] => pure writes
  | writes, execution :: rest => do
    let st ← get
    match run.writeFromExecution st.result execution.task (execution.output.getD {}) with
    | .error status =>
      run.nodeFailedIgnored ctx execution.task.nodeId status
      throw (.fail {
        site := .write, status, failedStep := ctx.nextStep, node := execution.task.nodeId
        failureNext := [execution.task], failurePendingWrites := ctx.pendingWrites })
    | .ok write =>
      if persist && !rest.isEmpty then
        run.storeOrExit ctx execution.task.nodeId {
          step := ctx.nextStep, next := appendTasks [] (rest.map (·.task))
          pending := writes ++ [write], source := .taskWrites }
      collectWrites ctx persist (writes ++ [write]) rest

def writeOrderLess (lhs rhs : CheckpointWrite) : Bool := lhs.orderOrMax < rhs.orderOrMax

/-- Merges one write into the state of the run.  The merged state stays even when the schema
    rejects it or the event is refused. -/
def applyWrite (write : CheckpointWrite) (step : Nat) (st : RunState σ) :
    Result Unit × RunState σ :=
  match StateUpdate.fromJsonValue (.obj write.update.view) with
  | .error status => (.error status, st)
  | .ok update =>
    match applyStateUpdate st.result.state update run.options.reducers with
    | .error status => (.error status, st)
    | .ok merged =>
      match validateStateSchema merged run.graph.schemas.stateSchema "state" with
      | .error status => (.error status, st.withState merged)
      | .ok () => run.emit .stateUpdated step write.nodeId (writePayload write) []
          (st.withState merged)

def applyWrites (ctx : StepContext) : List CheckpointWrite → RunM σ Unit
  | [] => pure ()
  | write :: writes => do
    let applied ← act (run.applyWrite write ctx.nextStep)
    match applied with
    | .error status =>
      run.nodeFailedIgnored ctx write.nodeId status
      throw (.fail (ctx.failAll .apply write.nodeId status))
    | .ok () => applyWrites ctx writes

/-- The tasks after the step, in the order of the writes. -/
def routeWrites (ctx : StepContext) :
    List CheckpointTask → List CheckpointWrite → RunM σ (List CheckpointTask)
  | routedNext, [] => pure routedNext
  | routedNext, write :: writes => do
    let st ← get
    match run.routeFromWrite st.result ctx.nextStep write routedNext with
    | .error status =>
      run.nodeFailedIgnored ctx write.nodeId status
      throw (.fail {
        site := .route, status, failedStep := ctx.nextStep, node := write.nodeId
        failureNext := ctx.activeTasks })
    | .ok routedNext => routeWrites ctx routedNext writes

/-! ## 6. Ending the step -/

def completedPayload (state : State) (parentCommand : Bool) : Json :=
  .obj (setIf parentCommand "parent_command" (.bool true) [(lit "state", .obj state.view)])

def setStep (step : Nat) (st : RunState σ) : RunState σ :=
  { st with result := { st.result with step := step } }

def setStatus (status : RunStatus) (st : RunState σ) : RunState σ :=
  { st with result := { st.result with status := status } }

/-- Output schema and `RunCompleted`; both fail the run without a list of tasks to keep. -/
def announceCompletion (ctx : StepContext) (site : FailSite) (node : Bytes)
    (next : List CheckpointTask) (parentCommand : Bool) : RunM σ Unit := do
  let call := fun status => {
    site, status, failedStep := ctx.nextStep, node, failureNext := next : FailCall }
  let st ← get
  orFail (validateStateSchema st.result.state run.graph.schemas.outputSchema "output") call
  effect (setStatus .completed)
  let emitted ← act (run.emit .runCompleted ctx.nextStep []
    (completedPayload st.result.state parentCommand) [])
  orFail emitted call

def finishParentCommand (ctx : StepContext) (execution : NodeExecution)
    (writes : List CheckpointWrite) : RunM σ LoopState := do
  effect (setStep ctx.nextStep)
  effect fun st => { st with
    result := { st.result with parentCommand := execution.output.bind (·.command) } }
  run.announceCompletion ctx .parentCommand execution.task.nodeId [] true
  run.storeOrExit ctx execution.task.nodeId {
    step := ctx.nextStep, next := [], writes, source := .parentCommand, terminal := true }
  let st ← get
  throw (.done st.result)

def NodeExecution.pending (execution : NodeExecution) (interrupt : Interrupt) :
    PendingInterrupt where
  interrupt := interrupt
  node := execution.task.nodeId
  order := execution.task.order

def interruptedOf (classified : Classified) : List (NodeExecution × Interrupt) :=
  classified.interruptIndexes.filterMap fun index =>
    classified.executions[index]?.bind fun execution =>
      (NodeExecution.interrupt execution).map fun interrupt => (execution, interrupt)

def isInterruptedWrite (interrupted : List (NodeExecution × Interrupt)) (write : CheckpointWrite) :
    Bool :=
  interrupted.any fun pair =>
    write.nodeId = pair.1.task.nodeId && write.order = pair.1.task.order

def interruptPayload (execution : NodeExecution) (interrupt : Interrupt) (step : Nat) : Json :=
  .obj (setIf (!interrupt.resumeValues.isEmpty) "resume_values" interrupt.resumeValues
    (OrderedMap.merge [] [(lit "id", .str interrupt.id), (lit "node", .str execution.task.nodeId),
      (lit "step", .ofNat step),
      (lit "value", interrupt.value)]))

def emitInterrupts (ctx : StepContext) (next : List CheckpointTask) :
    List (NodeExecution × Interrupt) → RunM σ Unit
  | [] => pure ()
  | (execution, interrupt) :: rest => do
    let published ← act (run.publish {
      type := .interruptRequested, step := ctx.nextStep, node := execution.task.nodeId
      name := interrupt.id, payload := interruptPayload execution interrupt ctx.nextStep })
    orFail published fun status => {
      site := .interruptEvent, status, failedStep := ctx.nextStep
      node := execution.task.nodeId, failureNext := next }
    emitInterrupts ctx next rest

/-- The run pauses: interrupted tasks first, then the successors of the others. -/
def pauseStep (ctx : StepContext) (interrupted : List (NodeExecution × Interrupt))
    (node : Bytes) (writes : List CheckpointWrite) : RunM σ LoopState := do
  let routedNext ← run.routeWrites ctx [] (writes.filter (!isInterruptedWrite interrupted ·))
  let next := appendTasks (appendTasks [] (interrupted.map (·.1.task))) routedNext
  effect (setStep ctx.nextStep)
  let st ← get
  let interruptedState ← orFail
    (withInterruptMetadata st.result.state
      (interrupted.map fun pair => NodeExecution.pending pair.1 pair.2) ctx.nextStep)
    fun status => { site := .interruptMetadata, status, failedStep := ctx.nextStep, node }
  effect (·.withState interruptedState)
  run.storeOrExit ctx node {
    step := ctx.nextStep, next, writes, source := .interrupt, terminal := true }
  run.emitInterrupts ctx next interrupted
  effect (setStatus .paused)
  let st ← get
  throw (.done st.result)

/-- The step is committed and the loop goes on with the routed tasks. -/
def finishStep (ctx : StepContext) (budgetSteps : Nat) (writes : List CheckpointWrite) :
    RunM σ LoopState := do
  let routedNext ← run.routeWrites ctx [] writes
  effect (setStep ctx.nextStep)
  let terminal := isTerminalNextTasks routedNext
  if terminal then
    run.announceCompletion ctx .completion ctx.failureNode routedNext false
  run.storeOrExit ctx ctx.failureNode {
    step := ctx.nextStep, next := routedNext, writes
    source := if terminal then .completion else .step, terminal }
  effect fun st => { st with resumeValuesByTask := [] }
  return { nextTasks := routedNext, pendingWrites := [], budgetSteps }

/-- Cancellation and budget, before anything of the step happens. -/
def enterStep (loop : LoopState) (ctx : StepContext) : RunM σ Nat := do
  let st ← get
  orFail (run.options.cancellationToken (.superStep st.result.runId ctx.nextStep))
    (ctx.failAll .cancelled ctx.failureNode)
  orFail (consumeStep run.options.limits loop.budgetSteps) (ctx.failAll .budget ctx.failureNode)

/-- Runs the tasks and leaves the step if one of them failed. -/
def executeStep (ctx : StepContext) : RunM σ Classified := do
  run.emitNodeStarted ctx ctx.activeTasks
  let st ← get
  let executions := run.dispatchExecutions st.result st.resumeValuesByTask ctx.activeTasks
    ctx.inputState ctx.nextStep
  let classified := classify run.allowParentCommand executions
  effect (run.announceFailures ctx executions classified)
  run.failIfAny ctx classified
  return classified

/-- Collects the writes of a step without failures and sorts them by order. -/
def prepareWrites (ctx : StepContext) (classified : Classified) : RunM σ (List CheckpointWrite) := do
  run.emitNodeCompleted ctx classified.executions
  let persist := run.options.durability = .sync && classified.interruptIndexes.isEmpty
    && classified.parentCommandIndex.isNone
  let writes ← run.collectWrites ctx persist ctx.pendingWrites classified.executions
  return stableSort writeOrderLess writes

def commitStep (ctx : StepContext) (budgetSteps : Nat) (classified : Classified)
    (writes : List CheckpointWrite) : RunM σ LoopState := do
  run.applyWrites ctx writes
  match classified.parentCommandIndex.bind (classified.executions[·]?) with
  | some execution => run.finishParentCommand ctx execution writes
  | none =>
    match interruptedOf classified with
    | [] => run.finishStep ctx budgetSteps writes
    | pair :: rest => run.pauseStep ctx (pair :: rest) pair.1.task.nodeId writes

def superStep (loop : LoopState) : RunM σ LoopState := do
  let st ← get
  let ctx := stepContext loop st.result
  let budgetSteps ← run.enterStep loop ctx
  let classified ← run.executeStep ctx
  let writes ← run.prepareWrites ctx classified
  run.commitStep ctx budgetSteps classified writes

end GraphRun

end LangGraph
