import LangGraph.Graph.StepSpec
import LangGraph.Lib.Plan

/-!
# What a super-step computes

The super-step without its events and checkpoints: a plan that depends on the tasks, the pending
writes, the state and what the handlers answer.  As long as every event is taken and every
checkpoint is stored, the super-step does what the plan says.
-/

namespace LangGraph

open EarlyExit StableSort Follows

variable {σ : Type}

namespace GraphRun

/-! ## 1. The plan -/

/-- How a super-step leaves the run: through `failRun` in the given state, or with a result. -/
inductive Ending where
  | failed (call : FailCall) (state : State)
  | returned (status : RunStatus) (state : State)

def orFailed {α : Type} (result : Result α) (call : Status → FailCall) (state : State) :
    Except Ending α :=
  match result with
  | .ok value => .ok value
  | .error status => .error (.failed (call status) state)

@[simp] theorem orFailed_ok {α : Type} (value : α) (call : Status → FailCall) (state : State) :
    orFailed (.ok value) call state = .ok value := rfl

theorem ok_of_orFailed {α : Type} {result : Result α} {call : Status → FailCall} {state : State}
    {value : α} (h : orFailed result call state = .ok value) : result = .ok value := by
  cases result with
  | error => cases h
  | ok => exact congrArg Except.ok (Except.ok.inj h)

section Plan

variable (run : GraphRun σ) (ctx : StepContext)

def planEnter (loop : LoopState) (runId : Bytes) : Except Ending Nat := do
  orFailed (run.options.cancellationToken (.superStep runId ctx.nextStep))
    (ctx.failAll .cancelled ctx.failureNode) ctx.inputState
  orFailed (consumeStep run.options.limits loop.budgetSteps) (ctx.failAll .budget ctx.failureNode)
    ctx.inputState

/-- The writes of the tasks that succeeded beside a failed one. -/
def planBeside (result : RunResult) (failureNext : List CheckpointTask) :
    List CheckpointWrite → List NodeExecution → Except Ending (List CheckpointWrite)
  | pending, [] => .ok pending
  | pending, execution :: rest =>
    match execution.status, execution.output with
    | none, some output =>
      match run.writeFromExecution result execution.task output with
      | .error status => .error (.failed {
          site := .writeBesideFailure, status, failedStep := ctx.nextStep
          node := execution.task.nodeId, failureNext := appendTask [] execution.task
          failurePendingWrites := pending } ctx.inputState)
      | .ok write => planBeside result failureNext (pending ++ [write]) rest
    | _, _ => planBeside result failureNext pending rest

def planFailure (result : RunResult) (classified : Classified) (first : NodeExecution) :
    Except Ending Unit :=
  let status := first.status.getD (.unknown [])
  if classified.interruptIndexes.isEmpty then
    let failureNext := appendTasks [] (tasksAt classified.executions classified.failedIndexes)
    run.planBeside ctx result failureNext ctx.pendingWrites classified.executions >>= fun pending =>
      .error (.failed {
        site := .nodeFailed, status, failedStep := ctx.nextStep, node := first.task.nodeId
        failureNext, failurePendingWrites := pending } ctx.inputState)
  else .error (.failed (ctx.failAll .interruptedNodeFailed first.task.nodeId status) ctx.inputState)

def planExecute (result : RunResult) (classified : Classified) : Except Ending Unit :=
  match classified.failedIndexes with
  | [] => .ok ()
  | index :: _ =>
    match classified.executions[index]? with
    | some first => run.planFailure ctx result classified first
    | none => .ok ()

def planCollect (result : RunResult) :
    List CheckpointWrite → List NodeExecution → Except Ending (List CheckpointWrite)
  | writes, [] => .ok writes
  | writes, execution :: rest =>
    match run.writeOf result execution with
    | .error status => .error (.failed {
        site := .write, status, failedStep := ctx.nextStep, node := execution.task.nodeId
        failureNext := [execution.task], failurePendingWrites := ctx.pendingWrites } ctx.inputState)
    | .ok write => planCollect result (writes ++ [write]) rest

/-- Merges the writes into the state, each checked against the state schema. -/
def planMerge : State → List CheckpointWrite → Except Ending State
  | state, [] => .ok state
  | state, write :: writes =>
    match applyStateUpdate state ⟨write.update.view⟩ run.options.reducers with
    | .error status => .error (.failed (ctx.failAll .apply write.nodeId status) state)
    | .ok merged =>
      match validateStateSchema merged run.graph.schemas.stateSchema "state" with
      | .error status => .error (.failed (ctx.failAll .apply write.nodeId status) merged)
      | .ok () => planMerge merged writes

def planRoute (result : RunResult) :
    List CheckpointTask → List CheckpointWrite → Except Ending (List CheckpointTask)
  | routedNext, [] => .ok routedNext
  | routedNext, write :: writes => do
    let next ← orFailed (run.routeFromWrite result ctx.nextStep write routedNext)
      (fun status => {
        site := .route, status, failedStep := ctx.nextStep, node := write.nodeId
        failureNext := ctx.activeTasks }) result.state
    planRoute result next writes

def planCompletion (result : RunResult) (site : FailSite) (node : Bytes)
    (next : List CheckpointTask) : Except Ending Unit :=
  orFailed (validateStateSchema result.state run.graph.schemas.outputSchema "output")
    (fun status => { site, status, failedStep := ctx.nextStep, node, failureNext := next })
    result.state

def planParent (result : RunResult) (execution : NodeExecution) :
    Except Ending (List CheckpointTask) := do
  run.planCompletion ctx result .parentCommand execution.task.nodeId []
  .error (.returned .completed result.state)

def planPause (result : RunResult) (interrupted : List (NodeExecution × Interrupt)) (node : Bytes)
    (writes : List CheckpointWrite) : Except Ending (List CheckpointTask) := do
  let _ ← run.planRoute ctx result [] (writes.filter (!isInterruptedWrite interrupted ·))
  let state ← orFailed (withInterruptMetadata result.state
      (interrupted.map fun pair => NodeExecution.pending pair.1 pair.2) ctx.nextStep)
    (fun status => { site := .interruptMetadata, status, failedStep := ctx.nextStep, node })
    result.state
  .error (.returned .paused state)

def planFinish (result : RunResult) (writes : List CheckpointWrite) :
    Except Ending (List CheckpointTask) := do
  let routed ← run.planRoute ctx result [] writes
  if isTerminalNextTasks routed then
    run.planCompletion ctx result .completion ctx.failureNode routed
  return routed

/-- How a step ends once its writes are merged: `result` holds the merged state. -/
def planCommit (result : RunResult) (classified : Classified) (writes : List CheckpointWrite) :
    Except Ending (List CheckpointTask) :=
  match classified.parentCommandIndex.bind (classified.executions[·]?) with
  | some execution => run.planParent ctx result execution
  | none =>
    match interruptedOf classified with
    | [] => run.planFinish ctx result writes
    | pair :: rest => run.planPause ctx result (pair :: rest) pair.1.task.nodeId writes

end Plan

/-- The tasks and the state after a super-step, or how it leaves the run. -/
def planStep (run : GraphRun σ) (loop : LoopState) (st : RunState σ) :
    Except Ending (LoopState × State) := do
  let ctx := stepContext loop st.result
  let classified := run.stepClassified ctx st
  let budgetSteps ← run.planEnter ctx loop st.core.runId
  run.planExecute ctx st.core classified
  let writes ← run.planCollect ctx st.core ctx.pendingWrites classified.executions
  let merged ← run.planMerge ctx st.core.state (stableSort writeOrderLess writes)
  let nextTasks ← run.planCommit ctx { st.core with state := merged } classified
    (stableSort writeOrderLess writes)
  return ({ nextTasks, pendingWrites := [], budgetSteps }, merged)

end GraphRun

/-! ## 2. Undisturbed runs -/

/-- No event was refused and no call to the saver failed. -/
structure RunState.Clean (st : RunState σ) : Prop where
  log : ∀ entry ∈ st.log, entry.2 = .ok ()
  calls : ∀ call ∈ st.calls, call.2 = .ok ()

namespace GraphRun

/-- What an exit amounts to; a status is returned only when a checkpoint could not be stored. -/
def Exit.ending (exit : Exit) (st : RunState σ) : Option Ending :=
  match exit with
  | .fail call => some (.failed call st.result.state)
  | .done result => some (.returned result.status result.state)
  | .status _ => none

section Clean

variable {run : GraphRun σ} {st : RunState σ}

theorem clean_of_publish {event : RuntimeEvent} (h : (run.publish event st).2.Clean) : st.Clean :=
  ⟨fun entry he => h.log entry (List.mem_append_left _ he), h.calls⟩

theorem publish_answer_of_clean {event : RuntimeEvent} (h : (run.publish event st).2.Clean) :
    (run.publish event st).1 = .ok () :=
  h.log _ (List.mem_append_right _ (List.mem_singleton.mpr rfl))

theorem not_clean_of_publish {event : RuntimeEvent} {status : Status}
    (h : (run.publish event st).1 = .error status) : ¬ (run.publish event st).2.Clean := by
  intro hclean
  rw [publish_answer_of_clean hclean] at h; cases h

theorem clean_of_emitIgnored {type : RuntimeEventType} {step : Nat} {node : Bytes} {payload : Json}
    {message : Bytes} (h : (run.emitIgnored type step node payload message st).Clean) : st.Clean :=
  clean_of_publish h

theorem putCheckpoint_answer_of_clean {request : CheckpointRequest}
    (h : (run.putCheckpoint request st).2.Clean) : (run.putCheckpoint request st).1 = .ok () := by
  have hstore : ∀ {saver : CheckpointSaver σ} {c : Checkpoint} {source : CheckpointSource}
      {st : RunState σ}, (storeCheckpoint saver c source st).2.Clean →
      (storeCheckpoint saver c source st).1 = .ok () := by
    intro saver c source st h
    have hlast : ∀ {call : SaverCall} {answer : Result Unit} {saver : σ} {st : RunState σ},
        (st.afterCall call answer saver).Clean → answer = .ok () := fun h =>
      h.calls _ (List.mem_append_right _ (List.mem_singleton.mpr rfl))
    unfold storeCheckpoint at h ⊢
    dsimp only at h ⊢
    cases hput : (saver.put c st.world.saver).1 with
    | error =>
      rw [hput] at h
      cases hlast h
    | ok =>
      rw [hput] at h
      split_ifs at h ⊢
      · rfl
      · exact hlast h
  unfold putCheckpoint at h ⊢
  by_cases hshould : run.shouldStore request = true
  · rw [if_pos hshould] at h ⊢
    unfold storeInSaver at h ⊢
    cases hsaver : run.options.checkpointer with
    | none =>
      rw [hsaver] at h
      dsimp only [announceCheckpoint] at h ⊢
      split_ifs with hevent
      · exact publish_answer_of_clean h
      · rfl
    | some saver =>
      rw [hsaver] at h
      dsimp only at h ⊢
      cases hstored : (storeCheckpoint saver (run.checkpointOf request st) request.source st.tick).1 with
      | error =>
        rw [hstored] at h
        have hok := hstore h
        rw [hstored] at hok; cases hok
      | ok =>
        rw [hstored] at h
        dsimp only [announceCheckpoint] at h ⊢
        split_ifs with hevent
        · exact publish_answer_of_clean h
        · rfl
  · rw [if_neg hshould]

end Clean

/-! ## 3. The stages before the writes are merged -/

/-- The program does what the plan says, in a run that nothing disturbs. -/
abbrev Does {α β : Type} (m : RunM σ α) (st : RunState σ) (plan : Except Ending β)
    (R : α → RunState σ → β → Prop) : Prop :=
  Follows RunState.Clean Exit.ending m st plan R

section Rules

variable {run : GraphRun σ} {st st₀ : RunState σ} {α β : Type} {plan : Except Ending β}
  {R : α → RunState σ → β → Prop}

variable {node : Bytes}

theorem Does.emit {type : RuntimeEventType} {step : Nat} {payload : Json} {message : Bytes}
    {call : Status → FailCall} {f : Unit → RunM σ α}
    (hf : Does (f ()) (run.emit type step node payload message st₀).2 plan R) :
    Does (act (run.emit type step node payload message) >>= fun emitted =>
      orFail emitted call >>= f) st₀ plan R := by
  unfold Does Follows at hf ⊢
  simp only [ends_bind]
  exact ends_orFail _ (fun _ _ => hf) fun _ herror => (not_clean_of_publish herror).elim

theorem Does.effect {action : RunState σ → RunState σ} {f : Unit → RunM σ α}
    (hf : Does (f ()) (action st₀) plan R) : Does (effect action >>= f) st₀ plan R :=
  ends_bind.mpr hf

theorem Does.orFail {γ : Type} {result : Result γ} {call : Status → FailCall} {state : State}
    (hstate : st₀.result.state = state) :
    Does (orFail result call : RunM σ γ) st₀ (orFailed result call state)
      fun value st' planned => value = planned ∧ st' = st₀ := by
  subst hstate
  cases result with
  | ok => exact pure ⟨rfl, rfl⟩
  | error => exact throw rfl

theorem Does.failIgnored {ctx : StepContext} {status : Status} {call : FailCall} {state : State}
    (hstate : st₀.result.state = state) :
    Does (run.nodeFailedIgnored ctx node status >>= fun _ => throw (.fail call) : RunM σ α) st₀
      (.error (.failed call state)) R := by
  have hquiet := (run.emitIgnored_quiet st₀ .nodeFailed ctx.nextStep node .null
    status.toString).sameRun
  intro _; exact ⟨_, by rw [Exit.ending, hquiet.state, hstate], rfl⟩

theorem storeOrExit_silent {ctx : StepContext} {request : CheckpointRequest} :
    Ends (run.storeOrExit ctx node request) st₀ (fun _ st' => SameRun st₀ st')
      fun _ st' => ¬ st'.Clean := by
  unfold storeOrExit
  simp only [ends_bind, ends_act]
  cases hput : (run.putCheckpoint request st₀).1 with
  | ok => exact run.putCheckpoint_sameRun st₀ request
  | error =>
    intro hclean
    have hok := putCheckpoint_answer_of_clean (clean_of_emitIgnored hclean)
    rw [hput] at hok; cases hok

end Rules

section Stages

variable {run : GraphRun σ} {ctx : StepContext} {st st₀ : RunState σ}

theorem enterStep_does (loop : LoopState) (hinput : st.result.state = ctx.inputState) :
    Does (run.enterStep loop ctx) st (run.planEnter ctx loop st.core.runId)
      fun budget st' planned => budget = planned ∧ st' = st := by
  unfold enterStep planEnter
  refine bind_get (bind (Does.orFail hinput) fun _ st₁ _ h₁ => ?_)
  rw [h₁.2]; exact Does.orFail hinput

section

variable (same : SameRun st st₀)

include same

theorem emitNodeStarted_silent (tasks : List CheckpointTask) :
    Ends (run.emitNodeStarted ctx tasks) st₀ (fun _ st' => SameRun st st')
      fun _ st' => ¬ st'.Clean := by
  induction tasks generalizing st₀ with
  | nil => exact same
  | cons task tasks ih =>
    unfold emitNodeStarted
    simp only [ends_bind]
    exact ends_orFail _ (fun _ _ => ih (same.trans (run.emit_quiet ..).sameRun))
      fun _ => not_clean_of_publish

theorem emitNodeCompleted_silent (executions : List NodeExecution) :
    Ends (run.emitNodeCompleted ctx executions) st₀ (fun _ st' => SameRun st st')
      fun _ st' => ¬ st'.Clean := by
  induction executions generalizing st₀ with
  | nil => exact same
  | cons execution rest ih =>
    unfold emitNodeCompleted
    cases execution.output with
    | none => exact ih same
    | some =>
      dsimp only
      split_ifs with hi
      · simp only [ends_bind]
        exact ends_orFail _ (fun _ _ => ih (same.trans (run.emit_quiet ..).sameRun))
          fun _ => not_clean_of_publish
      · exact ih same

variable (hinput : st.result.state = ctx.inputState)

include hinput

theorem writesBesideFailure_does (failureNext : List CheckpointTask)
    (executions : List NodeExecution) (pending : List CheckpointWrite) :
    Does (run.writesBesideFailure ctx failureNext pending executions) st₀
      (run.planBeside ctx st.core failureNext pending executions)
      fun writes st' planned => writes = planned ∧ SameRun st st' := by
  induction executions generalizing pending st₀ with
  | nil => exact pure ⟨rfl, same⟩
  | cons execution rest ih =>
    unfold writesBesideFailure planBeside
    cases hs : execution.status with
    | some => exact ih same pending
    | none =>
      cases hout : execution.output with
      | none => exact ih same pending
      | some output =>
        refine Does.emit (bind_get ?_)
        have hemit := same.trans (run.emit_quiet st₀ .nodeCompleted ctx.nextStep
          execution.task.nodeId (nodeCompletedPayload execution.task output.update ctx.nextStep)
          []).sameRun
        dsimp only
        rw [writeFromExecution_same hemit]
        cases run.writeFromExecution st.core execution.task output with
        | error => exact Does.failIgnored (hemit.state.trans hinput)
        | ok write => exact ih hemit (pending ++ [write])

theorem failStep_does (classified : Classified) (first : NodeExecution) :
    Does (run.failStep ctx classified first) st₀ (run.planFailure ctx st.core classified first)
      fun _ _ _ => False := by
  unfold failStep planFailure
  split_ifs with hi
  · refine bind (writesBesideFailure_does same hinput _ _ _) fun pending st₁ planned h => ?_
    obtain ⟨rfl, same₁⟩ := h
    refine throw ?_
    rw [Exit.ending, same₁.state, hinput]
  · refine throw ?_
    rw [Exit.ending, same.state, hinput]

theorem failIfAny_does (run : GraphRun σ) (classified : Classified) :
    Does (run.failIfAny ctx classified) st₀ (run.planExecute ctx st.core classified)
      fun _ st' _ => SameRun st st' := by
  unfold failIfAny planExecute
  cases classified.failedIndexes with
  | nil => exact ⟨(), rfl, same⟩
  | cons index =>
    dsimp only
    cases classified.executions[index]? with
    | none => exact ⟨(), rfl, same⟩
    | some first => exact (failStep_does same hinput classified first).mono fun _ _ _ h => h.elim

theorem executeStep_does :
    Does (run.executeStep ctx) st₀ (run.planExecute ctx st.core (run.stepClassified ctx st))
      fun classified st' _ => classified = run.stepClassified ctx st ∧ SameRun st st' := by
  unfold executeStep
  refine bind_silent (emitNodeStarted_silent same _) fun _ st₁ same₁ => ?_
  refine bind_get ?_
  rw [dispatchExecutions_same same₁]
  have hann := same₁.trans (run.announceFailures_quiet st₁ ctx (run.stepExecutions ctx st)
    (run.stepClassified ctx st)).sameRun
  exact Does.effect ((failIfAny_does hann hinput run (run.stepClassified ctx st)).bind_pure
    fun _ _ _ hsame => ⟨rfl, hsame⟩)

theorem collectWrites_does (run : GraphRun σ) (persist : Bool) (executions : List NodeExecution)
    (writes : List CheckpointWrite) :
    Does (run.collectWrites ctx persist writes executions) st₀
      (run.planCollect ctx st.core writes executions)
      fun all st' planned => all = planned ∧ SameRun st st' := by
  induction executions generalizing writes st₀ with
  | nil => exact pure ⟨rfl, same⟩
  | cons execution rest ih =>
    unfold collectWrites planCollect
    refine bind_get ?_
    rw [writeFromExecution_same same, ← writeOf]
    cases run.writeOf st.core execution with
    | error => exact Does.failIgnored (same.state.trans hinput)
    | ok write =>
      split_ifs with hpersist
      · exact bind_silent storeOrExit_silent fun _ st₁ same₁ =>
          ih (same.trans same₁) (writes ++ [write])
      · exact ih same (writes ++ [write])

theorem prepareWrites_does (classified : Classified) :
    Does (run.prepareWrites ctx classified) st₀
      (run.planCollect ctx st.core ctx.pendingWrites classified.executions)
      fun sorted st' planned => sorted = stableSort writeOrderLess planned ∧ SameRun st st' := by
  unfold prepareWrites
  refine bind_silent (emitNodeCompleted_silent same _) fun _ st₁ same₁ => ?_
  refine (collectWrites_does same₁ hinput run _ classified.executions ctx.pendingWrites).bind_pure
    fun all st' planned h => ⟨?_, h.2⟩
  rw [h.1]

end

/-! ## 4. Merging, routing and ending the step -/

variable {state : State} {writes : List CheckpointWrite}

theorem applyWrites_does (st : RunState σ) (writes : List CheckpointWrite)
    (same : SameRun (st.withState state) st₀) :
    Does (run.applyWrites ctx writes) st₀ (run.planMerge ctx state writes)
      fun _ st' merged => SameRun (st.withState merged) st' := by
  induction writes generalizing state st₀ with
  | nil => exact ⟨state, rfl, same⟩
  | cons write writes ih =>
    have hstate : st₀.result.state = state := same.state
    unfold applyWrites planMerge applyWrite
    rw [StateUpdate.fromJsonValue_view]
    unfold Does Follows
    rw [ends_bind, ends_act]
    dsimp only
    rw [hstate]
    cases applyStateUpdate state ⟨write.update.view⟩ run.options.reducers with
    | error => exact Does.failIgnored hstate
    | ok merged =>
      dsimp only
      cases validateStateSchema merged run.graph.schemas.stateSchema "state" with
      | error => exact Does.failIgnored (show (st₀.withState merged).result.state = merged from rfl)
      | ok =>
        have hemit := (same.withState merged).trans (run.emit_quiet (st₀.withState merged)
          .stateUpdated ctx.nextStep write.nodeId (writePayload write) []).sameRun
        cases hanswer : (run.emit .stateUpdated ctx.nextStep write.nodeId (writePayload write) []
            (st₀.withState merged)).1 with
        | ok _ => exact ih hemit
        | error status =>
          exact fun hclean => (not_clean_of_publish hanswer (clean_of_emitIgnored hclean)).elim

theorem routeWrites_does (writes : List CheckpointWrite) (routedNext : List CheckpointTask)
    (same : SameRun (st.withState state) st₀) :
    Does (run.routeWrites ctx routedNext writes) st₀
      (run.planRoute ctx (st.withState state).core routedNext writes)
      fun routed st' planned => routed = planned ∧ SameRun (st.withState state) st' := by
  induction writes generalizing routedNext with
  | nil => exact pure ⟨rfl, same⟩
  | cons write writes ih =>
    unfold routeWrites planRoute
    refine bind_get ?_
    rw [routeFromWrite_same same]
    cases run.routeFromWrite (st.withState state).core ctx.nextStep write routedNext with
    | error => exact Does.failIgnored same.state
    | ok next => exact ih next

theorem announceCompletion_does {st₁ : RunState σ} {site : FailSite} {node : Bytes}
    {next : List CheckpointTask} {parentCommand : Bool} {result : RunResult}
    (same : SameRun st₁ st₀) (hstate : result.state = st₁.result.state) :
    Does (run.announceCompletion ctx site node next parentCommand) st₀
      (run.planCompletion ctx result site node next)
      fun _ st' _ => SameRun (setStatus .completed st₁) st' := by
  have hstate₀ : st₀.result.state = result.state := same.state.trans hstate.symm
  unfold announceCompletion planCompletion orFailed
  refine bind_get ?_
  rw [hstate₀]
  cases validateStateSchema result.state run.graph.schemas.outputSchema "output" with
  | error => exact throw (by rw [Exit.ending, hstate₀])
  | ok =>
    have hemit := (same.setStatus .completed).trans (run.emit_quiet
      (setStatus .completed st₀) .runCompleted ctx.nextStep []
      (completedPayload result.state parentCommand) []).sameRun
    refine bind_silent (P := fun _ st' => st' = st₀) rfl fun _ st' heq => ?_
    rw [heq]
    refine Does.effect ?_
    unfold Does Follows
    rw [ends_bind, ends_act]
    exact ends_orFail _ (fun _ _ => ⟨(), rfl, hemit⟩) fun _ herror hclean =>
      (not_clean_of_publish herror hclean).elim

/-- A committed step leaves the planned tasks in the loop and the planned state in the run. -/
structure Follow (ctx : StepContext) (st : RunState σ) (planned : LoopState × State)
    (loop' : LoopState) (st' : RunState σ) : Prop where
  loop : loop' = planned.1
  resumeValues : st'.resumeValuesByTask = []
  core : st'.core = { st.core with
    state := planned.2, step := ctx.nextStep
    status := if isTerminalNextTasks planned.1.nextTasks then .completed else st.core.status }

theorem finishStep_does {budgetSteps : Nat} (same : SameRun (st.withState state) st₀) :
    Does (run.finishStep ctx budgetSteps writes) st₀
      (run.planFinish ctx { st.core with state := state } writes)
      fun loop' st' nextTasks =>
        Follow ctx st ({ nextTasks, pendingWrites := [], budgetSteps }, state) loop' st' := by
  unfold finishStep planFinish
  refine bind (routeWrites_does writes [] same) fun routed st₂ planned h => ?_
  obtain ⟨rfl, same₂⟩ := h
  have hstep := same₂.setStep ctx.nextStep
  refine Does.effect ?_
  dsimp only
  split_ifs with hterminal
  · refine bind (announceCompletion_does hstep rfl) fun _ st₃ _ h₃ => ?_
    refine bind_silent storeOrExit_silent fun _ st₄ h₄ => ?_
    refine ⟨routed, rfl, rfl, rfl, (h₃.trans h₄).core.trans ?_⟩
    simp only [hterminal]; rfl
  · refine bind_silent storeOrExit_silent fun _ st₄ h₄ => ?_
    refine ⟨routed, rfl, rfl, rfl, (hstep.trans h₄).core.trans ?_⟩
    simp only [hterminal]; rfl

theorem finishParentCommand_does {execution : NodeExecution} {result : RunResult}
    {R : LoopState → RunState σ → List CheckpointTask → Prop}
    (hstate : result.state = st₀.result.state) :
    Does (run.finishParentCommand ctx execution writes) st₀ (run.planParent ctx result execution)
      R := by
  unfold finishParentCommand planParent
  refine Does.effect (Does.effect ?_)
  refine bind (announceCompletion_does (.refl _) ?_) fun _ st₂ _ h₂ => ?_
  · exact hstate
  refine bind_silent storeOrExit_silent fun _ st₃ h₃ => ?_
  refine bind_get (throw ?_)
  have hsame := h₂.trans h₃
  have hstatus : st₃.result.status = .completed :=
    (congrArg RunResult.status hsame.core :)
  rw [Exit.ending, hstatus, hsame.state, hstate]; rfl

theorem emitInterrupts_silent {next : List CheckpointTask}
    (interrupted : List (NodeExecution × Interrupt)) (same : SameRun st st₀) :
    Ends (run.emitInterrupts ctx next interrupted) st₀ (fun _ st' => SameRun st st')
      fun _ st' => ¬ st'.Clean := by
  induction interrupted generalizing st₀ with
  | nil => exact same
  | cons pair rest ih =>
    unfold emitInterrupts
    simp only [ends_bind]
    exact ends_orFail _ (fun _ _ => ih (same.trans (run.publish_quiet st₀ _).sameRun))
      fun _ => not_clean_of_publish

theorem pauseStep_does {interrupted : List (NodeExecution × Interrupt)} {node : Bytes}
    {R : LoopState → RunState σ → List CheckpointTask → Prop}
    (same : SameRun (st.withState state) st₀) :
    Does (run.pauseStep ctx interrupted node writes) st₀
      (run.planPause ctx { st.core with state := state } interrupted node writes) R := by
  unfold pauseStep planPause
  refine bind (routeWrites_does _ [] same) fun routed st₂ planned h => ?_
  have hstep := h.2.setStep ctx.nextStep
  refine Does.effect (bind_get ?_)
  rw [hstep.state]
  refine bind (Does.orFail hstep.state) fun paused st₃ planned' h₃ => ?_
  obtain ⟨rfl, rfl⟩ := h₃
  refine Does.effect ?_
  refine bind_silent storeOrExit_silent fun _ st₄ h₄ => ?_
  refine bind_silent (emitInterrupts_silent interrupted h₄) fun _ st₅ h₅ => ?_
  refine Does.effect (bind_get (throw ?_))
  have hfinal := h₅.setStatus .paused
  have hstatus : (setStatus .paused st₅).result.status = .paused := rfl
  rw [Exit.ending, hstatus, hfinal.state]; rfl

theorem commitStep_does {budgetSteps : Nat} {classified : Classified} (same : SameRun st st₀) :
    Does (run.commitStep ctx budgetSteps classified writes) st₀
      (run.planMerge ctx st.core.state writes >>= fun merged =>
        run.planCommit ctx { st.core with state := merged } classified writes >>= fun nextTasks =>
          .ok ({ nextTasks, pendingWrites := [], budgetSteps }, merged))
      fun loop' st' planned => Follow ctx st planned loop' st' := by
  unfold commitStep
  refine bind (applyWrites_does st writes same) fun _ st₁ merged same₁ => ?_
  -- The plan names the merged state beside the tasks that the program returns.
  have hpair : ∀ {m : RunM σ LoopState} {plan : Except Ending (List CheckpointTask)},
      Does m st₁ plan (fun loop' st' nextTasks =>
        Follow ctx st ({ nextTasks, pendingWrites := [], budgetSteps }, merged) loop' st') →
      Does m st₁ (plan >>= fun nextTasks =>
          .ok ({ nextTasks, pendingWrites := [], budgetSteps }, merged))
        fun loop' st' planned => Follow ctx st planned loop' st' := by
    intro m plan h
    refine Ends.mono h (fun loop' st' h => ?_) fun exit st' h hclean => ?_
    · obtain ⟨nextTasks, rfl, hfollow⟩ := h
      exact ⟨_, rfl, hfollow⟩
    · obtain ⟨ending, hview, rfl⟩ := h hclean
      exact ⟨ending, hview, rfl⟩
  refine hpair ?_
  unfold planCommit
  cases classified.parentCommandIndex.bind (classified.executions[·]?) with
  | some => exact finishParentCommand_does same₁.state.symm
  | none =>
    cases interruptedOf classified with
    | nil => exact finishStep_does same₁
    | cons => exact pauseStep_does same₁

end Stages

theorem superStep_does (run : GraphRun σ) (loop : LoopState) (st : RunState σ) :
    Does (run.superStep loop) st (run.planStep loop st) fun loop' st' planned =>
      Follow (stepContext loop st.result) st planned loop' st' := by
  unfold superStep planStep
  refine bind_get ?_
  refine bind (enterStep_does loop rfl) fun budgetSteps st₁ planned h₁ => ?_
  obtain ⟨rfl, rfl⟩ := h₁
  refine bind (executeStep_does (.refl _) rfl) fun classified st₂ _ h₂ => ?_
  obtain ⟨rfl, same₂⟩ := h₂
  refine bind (prepareWrites_does same₂ rfl _) fun writes st₃ planned h₃ => ?_
  obtain ⟨rfl, same₃⟩ := h₃
  exact commitStep_does same₃

end GraphRun

end LangGraph
