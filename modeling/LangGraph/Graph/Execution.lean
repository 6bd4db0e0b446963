import LangGraph.Graph.GraphRun

/-!
# Executing tasks, building writes and routing

One super-step dispatches all its tasks on the state it started with, turns each output into a
write, and asks for the tasks that follow.  None of this touches the state of the run.
-/

namespace LangGraph

variable {σ : Type}

def exceptionStatus (action : String) : Option Bytes → Status
  | some what => .internal (lit action ++ lit " threw: " ++ what)
  | none => .internal (lit action ++ lit " threw an unknown exception")

def kNodeTimeoutCancelReason : Bytes := lit "node handler exceeded timeout"

/-- What one handler call leads to: an output, or the status that a retry or the error handler
    sees. -/
def handlerResult (action : String) (hasTimeout : Bool) : HandlerOutcome → Result NodeOutput
  | .threw what => .error (exceptionStatus action what)
  | .returned output requestedInterrupts late =>
    if hasTimeout && late then .error (.deadlineExceeded kNodeTimeoutCancelReason)
    else match output with
      | .ok output => .ok output
      | .error status =>
        match requestedInterrupts with
        | request :: _ =>
          if status.code = .aborted then
            (interruptFromRuntimeRequest request).map fun interrupt => { interrupt := some interrupt }
          else .error status
        | [] => .error status

namespace GraphRun

variable (run : GraphRun σ)

def runtimeFor (result : RunResult) (task : CheckpointTask) (resumeValue : Option Json)
    (step index attempt : Nat) : Runtime where
  runId := result.runId
  threadId := result.threadId
  checkpointNamespace := result.checkpointNamespace
  taskId := task.taskId
  step := step
  nodeId := task.nodeId
  resumeValue := resumeValue
  attempt := attempt
  call := index

/-- How the attempts of a task end: with an execution, or with the status of the last one. -/
inductive AttemptsEnd where
  | finished (execution : NodeExecution)
  | exhausted (status : Status)

/-- The retry loop; `left` attempts remain, the next one is number `attempt`. -/
def attemptLoop (spec : NodeSpec) (task : CheckpointTask) (input : State) (step index : Nat)
    (runtime : Nat → Runtime) : (left attempt : Nat) → Status → AttemptsEnd
  | 0, _, status => .exhausted status
  | left + 1, attempt, _ =>
    match run.options.cancellationToken (.attempt (runtime attempt).runId step index attempt) with
    | .error status => .finished { task := task, status := some status }
    | .ok () =>
      match handlerResult "node handler" spec.options.hasTimeout
          (spec.handler input (runtime attempt)) with
      | .ok output => .finished { task := task, output := some output }
      | .error status =>
        if left = 0 then .exhausted status
        else
          -- the token is looked at during the wait, and without a delay there is none
          let waited := if 0 < spec.options.retryDelay attempt then
              run.options.cancellationToken (.wait (runtime attempt).runId step index attempt)
            else .ok ()
          match waited with
          | .error cancelled => .finished { task := task, status := some cancelled }
          | .ok () => attemptLoop spec task input step index runtime left (attempt + 1) status

def recoverTask (spec : NodeSpec) (task : CheckpointTask) (input : State) (status : Status)
    (runtime : Runtime) : NodeExecution :=
  match spec.options.errorHandler with
  | none => { task := task, status := some status }
  | some errorHandler =>
    match handlerResult "node error handler" false (errorHandler status input runtime) with
    | .ok output => { task := task, output := some output }
    | .error status => { task := task, status := some status }

def executeTask (result : RunResult) (resumeValues : List (Nat × Json)) (inputState : State)
    (step index : Nat) (task : CheckpointTask) : NodeExecution :=
  match OrderedMap.find task.nodeId run.graph.nodes with
  | none =>
    { task := task, status := some (.failedPrecondition (lit "node is unknown: " ++ task.nodeId)) }
  | some spec =>
    let input := task.state.getD inputState
    let attempts := max 1 spec.options.maxAttempts
    let runtime := runtimeFor result task (OrderedMap.find index resumeValues) step index
    match run.attemptLoop spec task input step index runtime attempts 1
        (.unknown (lit "node handler did not run")) with
    | .finished execution => execution
    -- the error handler runs as one attempt more
    | .exhausted status => recoverTask spec task input status (runtime (attempts + 1))

def fanOutConcurrency (hardware taskCount maxConcurrency : Nat) (boundByHardware : Bool) : Nat :=
  if taskCount ≤ 1 then taskCount
  else if maxConcurrency ≠ 0 then min maxConcurrency taskCount
  else if boundByHardware = false then taskCount
  else min taskCount (if hardware = 0 then 4 else hardware)

/-- Number of tasks in the batch that holds task `index`. -/
def batchSize (concurrency taskCount index : Nat) : Nat :=
  min concurrency (taskCount - index / concurrency * concurrency)

/-- Executes the tasks batch by batch: a batch of one inline, the others through the executor. -/
def dispatchExecutions (result : RunResult) (resumeValues : List (Nat × Json))
    (activeTasks : List CheckpointTask) (inputState : State) (step : Nat) : List NodeExecution :=
  let concurrency := fanOutConcurrency run.host.hardwareConcurrency activeTasks.length
    run.options.maxConcurrency run.options.executor.isNone
  let submit := run.options.executor.getD run.host.ownExecutor
  activeTasks.mapIdx fun index task =>
    if batchSize concurrency activeTasks.length index = 1 then
      run.executeTask result resumeValues inputState step index task
    else match submit result.runId step index with
      | some status => { task := task, status := some status }
      | none => run.executeTask result resumeValues inputState step index task

/-! ## Tasks keep their places -/

/-- An execution that the attempts end with is that of the task, and a success comes from the
    handler. -/
theorem attemptLoop_finished {spec : NodeSpec} {task : CheckpointTask} {input : State}
    {step index : Nat} {runtime : Nat → Runtime} {left attempt : Nat} {status : Status}
    {execution : NodeExecution}
    (h : run.attemptLoop spec task input step index runtime left attempt status
      = .finished execution) :
    execution.task = task ∧ (execution.status = none → ∃ attempt output,
      handlerResult "node handler" spec.options.hasTimeout (spec.handler input (runtime attempt))
        = .ok output ∧ execution.output = some output) := by
  induction left generalizing attempt status with
  | zero => cases h
  | succ left ih =>
    unfold attemptLoop at h
    split at h
    · cases h; exact ⟨rfl, nofun⟩
    · split at h
      · rename_i output houtput
        cases h; exact ⟨rfl, fun _ => ⟨attempt, output, houtput, rfl⟩⟩
      · by_cases hlast : left = 0
        · rw [if_pos hlast] at h; cases h
        · rw [if_neg hlast] at h
          dsimp only at h
          split at h
          · cases h; exact ⟨rfl, nofun⟩
          · exact ih h

theorem executeTask_task (result : RunResult) (resumeValues : List (Nat × Json)) (inputState : State)
    (step index : Nat) (task : CheckpointTask) :
    (run.executeTask result resumeValues inputState step index task).task = task := by
  unfold executeTask
  split
  · rfl
  · dsimp only
    split
    · rename_i hfinished
      exact (run.attemptLoop_finished hfinished).1
    · unfold recoverTask
      split
      · rfl
      · split <;> rfl

theorem dispatchExecutions_tasks (result : RunResult) (resumeValues : List (Nat × Json))
    (activeTasks : List CheckpointTask) (inputState : State) (step : Nat) :
    (run.dispatchExecutions result resumeValues activeTasks inputState step).map (·.task)
      = activeTasks := by
  unfold dispatchExecutions
  refine List.ext_getElem (by simp) fun index _ _ => ?_
  simp only [List.getElem_map, List.getElem_mapIdx]
  split_ifs
  · exact run.executeTask_task ..
  · split
    · rfl
    · exact run.executeTask_task ..

/-! ## Writes -/

/-- The plain tasks of the command's targets, each a declared destination of the node. -/
def gotoTasks (destinations : Option (List Bytes)) :
    List CheckpointTask → List Bytes → Result (List CheckpointTask)
  | tasks, [] => .ok tasks
  | tasks, target :: targets =>
    if run.graph.hasNodeOrEnd target = false then
      .error (.failedPrecondition (lit "command returned unknown node: " ++ target))
    else if (match destinations with
        | some declared => declared ≠ [] && !declared.contains target
        | none => false) then
      .error (.failedPrecondition
        (lit "command returned a node outside declared destinations: " ++ target))
    else gotoTasks destinations (appendPlainTask tasks { nodeId := target }) targets

def commandTasksAfter (node : Bytes) (command : Command) : Result (List CheckpointTask) :=
  if command.graph = .parent then .ok []
  else run.gotoTasks (OrderedMap.find node run.graph.commandDestinations) [] command.goto

def writeFromExecution (result : RunResult) (task : CheckpointTask) (output : NodeOutput) :
    Result CheckpointWrite := do
  let update ← output.update.toState
  let write : CheckpointWrite := {
    taskId := task.taskId
    nodeId := task.nodeId
    checkpointNamespace := result.checkpointNamespace
    update := update
    order := task.order
    metadata := .object [(lit "source", .ofText "node")] }
  match output.command with
  | none => return write
  | some command =>
    let tasks ← run.commandTasksAfter task.nodeId command
    return { write with hasNextTasks := true, nextTasks := tasks }

end GraphRun

/-! ## Routing -/

/-- The tasks of a router's targets, checked against its declared destinations. -/
def StateGraph.routedTasks (graph : StateGraph) (destinations : Option (List Bytes)) :
    List CheckpointTask → List RouteTarget → Result (List CheckpointTask)
  | tasks, [] => .ok tasks
  | tasks, target :: targets =>
    if graph.hasNodeOrEnd target.node = false then
      .error (.failedPrecondition (lit "router returned unknown node: " ++ target.node))
    else if (match destinations with
        | some declared => declared ≠ [] && !declared.contains target.node
        | none => false) then
      .error (.failedPrecondition
        (lit "router returned a node outside declared destinations: " ++ target.node))
    else match target.arg with
      | some branch =>
        if target.node = END then .error (.invalidArgument (lit "Send target cannot be END"))
        else routedTasks graph destinations
          (appendSendTask tasks { nodeId := target.node, state := some branch }) targets
      | none =>
        routedTasks graph destinations (appendPlainTask tasks { nodeId := target.node }) targets

/-- The tasks that follow a node: what its router says, or else its edges. -/
def StateGraph.nextTasksAfter (graph : StateGraph) (node : Bytes) (state : State)
    (context : Runtime) : Result (List CheckpointTask) :=
  match OrderedMap.find node graph.routers with
  | some router => do
    let targets ← router state context
    graph.routedTasks (OrderedMap.find node graph.routerDestinations) [] targets
  | none =>
    match OrderedMap.find node graph.edges with
    | some targets => .ok (nextTasksFromTargets targets)
    | none => .ok []

namespace GraphRun

variable (run : GraphRun σ)

def routeContext (result : RunResult) (step : Nat) (node : Bytes) : Runtime where
  runId := result.runId
  threadId := result.threadId
  checkpointNamespace := result.checkpointNamespace
  step := step
  nodeId := node

/-- The tasks a write leads to: those of its command, or those that follow its node. -/
def routeFromWrite (result : RunResult) (step : Nat) (write : CheckpointWrite)
    (routedNext : List CheckpointTask) : Result (List CheckpointTask) :=
  if write.hasNextTasks then .ok (appendTasks routedNext write.nextTasks)
  else do
    let routed ← run.graph.nextTasksAfter write.nodeId result.state
      (routeContext result step write.nodeId)
    return appendTasks routedNext routed

end GraphRun

end LangGraph
