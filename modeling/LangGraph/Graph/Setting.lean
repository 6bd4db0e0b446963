import LangGraph.Graph.Reach

/-!
# What the code of a run does not look at

The state and the parent checkpoint a run is given only fill its members before it starts, and the
executor and its width are looked at only where tasks are dispatched.  A run whose dispatch gives
the same executions in another setting does the same in every other respect.
-/

namespace LangGraph

open EarlyExit

variable {σ : Type}

namespace GraphRun

structure Setting where
  state : State
  parentCheckpointId : Option Bytes
  executor : Option (Bytes → Nat → Nat → Option Status)
  maxConcurrency : Nat
  hardwareConcurrency : Nat
  ownExecutor : Bytes → Nat → Nat → Option Status

def setting (run : GraphRun σ) : Setting where
  state := run.state
  parentCheckpointId := run.parentCheckpointId
  executor := run.options.executor
  maxConcurrency := run.options.maxConcurrency
  hardwareConcurrency := run.host.hardwareConcurrency
  ownExecutor := run.host.ownExecutor

def inSetting (run : GraphRun σ) (setting : Setting) : GraphRun σ :=
  { run with
    state := setting.state
    parentCheckpointId := setting.parentCheckpointId
    options := { run.options with
      executor := setting.executor, maxConcurrency := setting.maxConcurrency }
    host := { run.host with
      hardwareConcurrency := setting.hardwareConcurrency, ownExecutor := setting.ownExecutor } }

section Stages

variable (run : GraphRun σ) (setting : Setting)

theorem attemptLoop_inSetting : (run.inSetting setting).attemptLoop = run.attemptLoop := by
  delta attemptLoop
  rfl

theorem executeTask_inSetting : (run.inSetting setting).executeTask = run.executeTask := by
  unfold executeTask
  rw [attemptLoop_inSetting]; rfl

theorem writeFromExecution_inSetting :
    (run.inSetting setting).writeFromExecution = run.writeFromExecution := by
  have hgoto : (run.inSetting setting).gotoTasks = run.gotoTasks := by
    delta gotoTasks
    rfl
  unfold writeFromExecution commandTasksAfter
  rw [hgoto]; rfl

theorem emitNodeStarted_inSetting : (run.inSetting setting).emitNodeStarted = run.emitNodeStarted := by
  delta emitNodeStarted
  rfl

theorem emitNodeCompleted_inSetting :
    (run.inSetting setting).emitNodeCompleted = run.emitNodeCompleted := by
  delta emitNodeCompleted
  rfl

theorem writesBesideFailure_inSetting (ctx : StepContext) (failureNext : List CheckpointTask)
    (pending : List CheckpointWrite) (executions : List NodeExecution) :
    (run.inSetting setting).writesBesideFailure ctx failureNext pending executions
      = run.writesBesideFailure ctx failureNext pending executions := by
  induction executions generalizing pending with
  | nil => rfl
  | cons execution rest ih =>
    unfold writesBesideFailure
    rw [writeFromExecution_inSetting]
    simp only [ih]; rfl

theorem collectWrites_inSetting (ctx : StepContext) (persist : Bool)
    (writes : List CheckpointWrite) (executions : List NodeExecution) :
    (run.inSetting setting).collectWrites ctx persist writes executions
      = run.collectWrites ctx persist writes executions := by
  induction executions generalizing writes with
  | nil => rfl
  | cons execution rest ih =>
    unfold collectWrites
    rw [writeFromExecution_inSetting]
    simp only [ih]; rfl

theorem applyWrites_inSetting : (run.inSetting setting).applyWrites = run.applyWrites := by
  delta applyWrites
  rfl

theorem commitStep_inSetting : (run.inSetting setting).commitStep = run.commitStep := by
  have hroute : (run.inSetting setting).routeWrites = run.routeWrites := by
    delta routeWrites
    rfl
  have hinterrupts : (run.inSetting setting).emitInterrupts = run.emitInterrupts := by
    delta emitInterrupts
    rfl
  unfold commitStep finishStep pauseStep
  rw [applyWrites_inSetting, hroute, hinterrupts]; rfl

/-- The dispatches a super-step can make give the same executions in the setting. -/
def SameDispatch (ctx : StepContext) (runId : Bytes) : Prop :=
  ∀ (result : RunResult) (resumeValues : List (Nat × Json)), result.runId = runId →
    (run.inSetting setting).dispatchExecutions result resumeValues ctx.activeTasks ctx.inputState
        ctx.nextStep
      = run.dispatchExecutions result resumeValues ctx.activeTasks ctx.inputState ctx.nextStep

variable {run setting}

theorem executeStep_inSetting {ctx : StepContext} {st : RunState σ}
    (hdispatch : SameDispatch run setting ctx st.result.runId) :
    (run.inSetting setting).executeStep ctx st = run.executeStep ctx st := by
  have hfail : ∀ classified,
      (run.inSetting setting).failIfAny ctx classified = run.failIfAny ctx classified := by
    intro classified
    unfold failIfAny failStep
    simp only [writesBesideFailure_inSetting]
  unfold executeStep
  rw [emitNodeStarted_inSetting]
  refine bind_congr_of_ok fun _ st₁ hstarted => ?_
  -- the events of the started nodes leave the run id alone
  have hsame := (emitNodeStarted_ends (SameRun.refl st) ctx.activeTasks).ok hstarted
  have hrunId : st₁.core.runId = st.core.runId := congrArg RunResult.runId hsame.core
  refine bind_congr_of_ok fun st₂ st₃ hget => ?_
  cases hget
  rw [hdispatch st₁.result _ hrunId]
  simp only [hfail]; rfl

theorem superStep_inSetting_of_dispatch {loop : LoopState} {st : RunState σ}
    (hdispatch : SameDispatch run setting (stepContext loop st.result) st.result.runId) :
    (run.inSetting setting).superStep loop st = run.superStep loop st := by
  unfold superStep
  refine bind_congr_of_ok fun st₀ st₁ hget => ?_
  cases hget
  refine bind_congr_of_ok fun budget st₁ hentered => ?_
  obtain rfl : st₁ = st := (enterStep_ends loop).ok hentered
  have hexecute := executeStep_inSetting hdispatch
  show ((run.inSetting setting).executeStep _ >>= _) st₁ = _
  unfold prepareWrites
  simp only [collectWrites_inSetting, emitNodeCompleted_inSetting, commitStep_inSetting]
  cases hstep : run.executeStep (stepContext loop st₁.result) st₁ with
  | ok =>
    rw [bind_of_ok hstep, bind_of_ok (hexecute.trans hstep)]; rfl
  | error => rw [bind_of_error hstep, bind_of_error (hexecute.trans hstep)]

variable (run setting)

theorem superStep_inSetting
    (hdispatch : (run.inSetting setting).dispatchExecutions = run.dispatchExecutions) :
    (run.inSetting setting).superStep = run.superStep := by
  funext loop st
  exact superStep_inSetting_of_dispatch fun _ _ _ => by rw [hdispatch]

theorem body_inSetting
    (hdispatch : (run.inSetting setting).dispatchExecutions = run.dispatchExecutions) (fuel : Nat) :
    (run.inSetting setting).body fuel = run.body fuel := by
  have hloop : ∀ fuel loop, (run.inSetting setting).runLoop fuel loop = run.runLoop fuel loop := by
    intro fuel
    induction fuel with
    | zero => exact fun _ => rfl
    | succ fuel ih =>
      intro loop
      unfold runLoop
      simp only [superStep_inSetting run setting hdispatch, ih]
  unfold body
  simp only [hloop]; rfl

end Stages

end GraphRun

end LangGraph
