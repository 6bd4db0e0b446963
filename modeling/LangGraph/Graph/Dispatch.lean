import LangGraph.Graph.Setting
import LangGraph.Lib.ForkJoin

/-!
# The dispatch of a super-step

`dispatchExecutions` hands its tasks to an executor batch by batch and joins the batch before the
next.  Seen as a machine with every order in which the executor may run what it took, it always
ends, with the executions that the model computes directly; and a run none of whose submissions is
rejected is the run that executes its tasks one after the other.
-/

namespace LangGraph

open EarlyExit

variable {σ : Type}

namespace GraphRun

/-! ## 1. The dispatch as a machine -/

section Machine

variable (run : GraphRun σ) (result : RunResult) (resumeValues : List (Nat × Json))
  (activeTasks : List CheckpointTask) (inputState : State) (step : Nat)

def concurrency (taskCount : Nat) : Nat :=
  fanOutConcurrency run.host.hardwareConcurrency taskCount run.options.maxConcurrency
    run.options.executor.isNone

/-- The executor's answer to the submission of a task, `none` if it takes the task. -/
def submission (runId : Bytes) (step index : Nat) : Option Status :=
  (run.options.executor.getD run.host.ownExecutor) runId step index

/-- The task is submitted and the executor does not take it. -/
def Rejected (runId : Bytes) (taskCount step index : Nat) : Prop :=
  batchSize (run.concurrency taskCount) taskCount index ≠ 1 ∧ run.submission runId step index ≠ none

theorem fanOutConcurrency_pos {hardware taskCount maxConcurrency : Nat} {boundByHardware : Bool}
    (htasks : 0 < taskCount) :
    0 < fanOutConcurrency hardware taskCount maxConcurrency boundByHardware := by
  unfold fanOutConcurrency
  split_ifs <;> omega

/-- One dispatch: the tasks, the width of a batch, what running a task gives, and the execution that
    stands for a task the executor rejected. -/
def dispatchJob : ForkJoin.Job NodeExecution where
  count := activeTasks.length
  width := run.concurrency activeTasks.length
  run index :=
    run.executeTask result resumeValues inputState step index (activeTasks.getD index {})
  refusal index := (run.submission result.runId step index).map fun status =>
    { task := activeTasks.getD index {}, status := some status }
  width_pos := fanOutConcurrency_pos

theorem accepted_dispatchJob (index : Nat) :
    (run.dispatchJob result resumeValues activeTasks inputState step).Accepted index
      ↔ ¬ run.Rejected result.runId activeTasks.length step index := by
  unfold ForkJoin.Job.Accepted Rejected
  rw [not_and_or, not_not, not_not]; exact or_congr Iff.rfl (by simp [dispatchJob])

theorem outcome_dispatchJob :
    (List.range activeTasks.length).map
        (run.dispatchJob result resumeValues activeTasks inputState step).outcome
      = run.dispatchExecutions result resumeValues activeTasks inputState step := by
  unfold dispatchExecutions
  refine List.ext_getElem (by simp) fun index hindex _ => ?_
  have htask : index < activeTasks.length := by simpa using hindex
  have hget : activeTasks.getD index {} = activeTasks[index] := by simp [htask]
  simp only [List.getElem_map, List.getElem_range, List.getElem_mapIdx]
  unfold ForkJoin.Job.outcome
  refine if_congr Iff.rfl ?_ ?_
  · simp only [dispatchJob, hget]
  · show (Option.map _ (run.submission result.runId step index)).getD _ = _
    unfold submission
    cases (run.options.executor.getD run.host.ownExecutor) result.runId step index with
    | none => simp only [dispatchJob, hget, Option.map_none, Option.getD_none]
    | some => simp only [hget, Option.map_some, Option.getD_some]

end Machine

/-! ## 2. Sequential execution -/

/-- The same run without an executor and with one task at a time. -/
def sequential (run : GraphRun σ) : GraphRun σ :=
  run.inSetting { run.setting with executor := none, maxConcurrency := 1 }

def executeAll (run : GraphRun σ) (result : RunResult) (resumeValues : List (Nat × Json))
    (activeTasks : List CheckpointTask) (inputState : State) (step : Nat) : List NodeExecution :=
  activeTasks.mapIdx fun index task =>
    run.executeTask result resumeValues inputState step index task

section Sequential

variable {run : GraphRun σ} {result : RunResult} {resumeValues : List (Nat × Json)}
  {activeTasks : List CheckpointTask} {inputState : State} {step : Nat}

theorem dispatchExecutions_of_accepted
    (h : ∀ index, index < activeTasks.length →
      ¬ run.Rejected result.runId activeTasks.length step index) :
    run.dispatchExecutions result resumeValues activeTasks inputState step
      = run.executeAll result resumeValues activeTasks inputState step := by
  unfold dispatchExecutions executeAll
  refine List.ext_getElem (by simp) fun index hindex _ => ?_
  have haccepted := h index (by simpa using hindex)
  simp only [List.getElem_mapIdx]
  split_ifs with hsize
  · rfl
  · have hnone : run.submission result.runId step index = none := by
      by_contra hne
      exact haccepted ⟨hsize, hne⟩
    unfold submission at hnone
    rw [hnone]

theorem batchSize_one {taskCount index : Nat} (hindex : index < taskCount) :
    batchSize 1 taskCount index = 1 := by
  unfold batchSize
  rw [Nat.div_one, Nat.mul_one]; omega

theorem dispatchExecutions_sequential :
    run.sequential.dispatchExecutions result resumeValues activeTasks inputState step
      = run.executeAll result resumeValues activeTasks inputState step := by
  rw [dispatchExecutions_of_accepted]
  · unfold executeAll
    rw [show run.sequential.executeTask = run.executeTask from run.executeTask_inSetting _]
  · intro index hindex hrejected
    -- a width of one leaves batches of one, which are run in place
    have hone : run.sequential.concurrency activeTasks.length = 1 := by
      show fanOutConcurrency _ activeTasks.length 1 _ = 1
      unfold fanOutConcurrency
      split_ifs <;> omega
    exact hrejected.1 (by rw [hone]; exact batchSize_one hindex)

def TakesAll (run : GraphRun σ) (world : World σ) : Prop :=
  ∀ loop st, Reaches run world loop st → isTerminalNextTasks loop.nextTasks = false →
    ∀ index, index < (stepContext loop st.result).activeTasks.length →
      ¬ run.Rejected st.result.runId (stepContext loop st.result).activeTasks.length
        (stepContext loop st.result).nextStep index

theorem superStep_sequential {loop : LoopState} {st : RunState σ}
    (h : ∀ index, index < (stepContext loop st.result).activeTasks.length →
      ¬ run.Rejected st.result.runId (stepContext loop st.result).activeTasks.length
        (stepContext loop st.result).nextStep index) :
    run.sequential.superStep loop st = run.superStep loop st := by
  refine superStep_inSetting_of_dispatch fun result resumeValues hrunId => ?_
  refine dispatchExecutions_sequential.trans (dispatchExecutions_of_accepted ?_).symm
  rw [hrunId]; exact h

theorem continueLoop_sequential {world : World σ} (htakes : run.TakesAll world) (fuel : Nat)
    {loop : LoopState} {st : RunState σ} (hreach : Reaches run world loop st) :
    run.sequential.continueLoop fuel loop st = run.continueLoop fuel loop st := by
  induction fuel generalizing loop st with
  | zero => rfl
  | succ fuel ih =>
    by_cases hterminal : isTerminalNextTasks loop.nextTasks = true
    · unfold continueLoop runLoop
      rw [if_pos hterminal, if_pos hterminal]; rfl
    · have hrun := Bool.eq_false_iff.mpr hterminal
      have hstep := superStep_sequential (htakes loop st hreach hrun)
      rw [continueLoop_step hrun, continueLoop_step hrun]
      cases hnext : run.superStep loop st with
      | ok =>
        rw [bind_of_ok hnext, bind_of_ok (hstep.trans hnext)]
        exact ih (.step hreach hrun hnext)
      | error => rw [bind_of_error hnext, bind_of_error (hstep.trans hnext)]

theorem run_sequential {world : World σ} (htakes : run.TakesAll world) (fuel : Nat) :
    run.sequential.run fuel world = run.run fuel world := by
  have hbody : run.sequential.body fuel (run.initialState world)
      = run.body fuel (run.initialState world) := by
    show (run.start >>= run.sequential.continueLoop fuel) (run.initialState world)
      = (run.start >>= run.continueLoop fuel) (run.initialState world)
    exact bind_congr_of_ok fun loop st hstart =>
      continueLoop_sequential htakes fuel (.start hstart)
  unfold GraphRun.run
  rw [show run.sequential.initialState world = run.initialState world from rfl, hbody]
  rfl

end Sequential

/-! ## 3. Parallel execution is deterministic -/

/-- Whatever the width and the executor, and in whatever order it runs what it took: a dispatch
    comes to an end and is never stuck before, it runs no task twice, and at its end it has one
    execution for each task, in the order of the tasks and the one the model computes, and has run
    the tasks that were not rejected.  A run with no rejected submission does in every respect what
    sequential execution does. -/
theorem dispatch_deterministic (run : GraphRun σ) :
    (∀ (result : RunResult) (resumeValues : List (Nat × Json)) (activeTasks : List CheckpointTask)
      (inputState : State) (step : Nat) (m : ForkJoin.Machine NodeExecution),
      (run.dispatchJob result resumeValues activeTasks inputState step).Reachable m →
        Acc (fun m' m => (run.dispatchJob result resumeValues activeTasks inputState step).Step m m')
          m ∧
        ((¬ ∃ m', (run.dispatchJob result resumeValues activeTasks inputState step).Step m m') →
          (run.dispatchJob result resumeValues activeTasks inputState step).Finished m) ∧
        m.executed.Nodup ∧
        ((run.dispatchJob result resumeValues activeTasks inputState step).Finished m →
          m.results = run.dispatchExecutions result resumeValues activeTasks inputState step ∧
          m.results.map (·.task) = activeTasks ∧
          ∀ index, index ∈ m.executed ↔ index < activeTasks.length ∧
            ¬ run.Rejected result.runId activeTasks.length step index)) ∧
    ∀ world, run.TakesAll world → ∀ fuel, run.run fuel world = run.sequential.run fuel world := by
  refine ⟨?_, fun world htakes fuel => (run_sequential htakes fuel).symm⟩
  intro result resumeValues activeTasks inputState step m hreach
  refine ⟨hreach.terminates, fun hstuck => ?_, hreach.inv.nodup, fun hfinished => ?_⟩
  · by_contra hmore
    exact hstuck (hreach.progress hmore)
  · have hresults : m.results
        = run.dispatchExecutions result resumeValues activeTasks inputState step :=
      (hreach.results_of_finished hfinished).trans (run.outcome_dispatchJob ..)
    refine ⟨hresults, ?_, fun index => ?_⟩
    · rw [hresults]; exact run.dispatchExecutions_tasks ..
    · rw [(hreach.executed_of_finished hfinished).2]
      exact and_congr_right fun _ => run.accepted_dispatchJob ..

/-- Two nodes behind START, run by an executor that takes everything. -/
def twoNodeRun : GraphRun Unit where
  host := countingHost
  graph := {
    nodes := [(lit "a", { handler := fun _ _ => .returned (.ok {}) [] false }),
      (lit "b", { handler := fun _ _ => .returned (.ok {}) [] false })]
    edges := [(START, [lit "a", lit "b"])] }
  state := .empty
  nextTasks := [{ nodeId := lit "a" }, { nodeId := lit "b" }]
  options := { runId := lit "r", threadId := lit "t", executor := some fun _ _ _ => none }

theorem twoNodeRun_takesAll (world : World Unit) : twoNodeRun.TakesAll world := by
  intro loop st _ _ index _ hrejected; exact hrejected.2 rfl

def twoNodeJob : ForkJoin.Job NodeExecution :=
  twoNodeRun.dispatchJob { state := twoNodeRun.state, step := 0, runId := lit "r" } []
    twoNodeRun.nextTasks twoNodeRun.state 1

theorem twoNodeJob_reachable : twoNodeJob.Reachable {
    first := 2, slots := [], results := [twoNodeJob.run 0, twoNodeJob.run 1], executed := [1, 0] } := by
  have submitted : twoNodeJob.Reachable ⟨0, [.waiting, .waiting], [], []⟩ :=
    .tail (.tail .refl (.submit (by decide) (by decide))) (.submit (by decide) (by decide))
  have second : twoNodeJob.Reachable ⟨0, [.waiting, .finished (twoNodeJob.run 1)], [], [1]⟩ :=
    submitted.tail (.work 1 rfl)
  have both : twoNodeJob.Reachable
      ⟨0, [.finished (twoNodeJob.run 0), .finished (twoNodeJob.run 1)], [], [1, 0]⟩ :=
    second.tail (.work 0 rfl)
  have first : twoNodeJob.Reachable ⟨0, [.finished (twoNodeJob.run 0), .finished (twoNodeJob.run 1)],
      [twoNodeJob.run 0], [1, 0]⟩ :=
    both.tail (.collect (by decide) rfl rfl)
  have collected : twoNodeJob.Reachable ⟨0,
      [.finished (twoNodeJob.run 0), .finished (twoNodeJob.run 1)],
      [twoNodeJob.run 0, twoNodeJob.run 1], [1, 0]⟩ :=
    first.tail (.collect (by decide) rfl rfl)
  exact collected.tail (.next (by decide) (by decide) (by decide))

theorem dispatch_deterministic_of_twoNodes :
    twoNodeJob.Finished ⟨2, [], [twoNodeJob.run 0, twoNodeJob.run 1], [1, 0]⟩ ∧
    [twoNodeJob.run 0, twoNodeJob.run 1] = twoNodeRun.dispatchExecutions
      { state := twoNodeRun.state, step := 0, runId := lit "r" } [] twoNodeRun.nextTasks
      twoNodeRun.state 1 ∧
    twoNodeRun.TakesAll { saver := () } ∧
    twoNodeRun.run 2 { saver := () } = twoNodeRun.sequential.run 2 { saver := () } := by
  have hfinished : twoNodeJob.Finished ⟨2, [], [twoNodeJob.run 0, twoNodeJob.run 1], [1, 0]⟩ :=
    Nat.le_refl 2
  have hdispatch := (dispatch_deterministic twoNodeRun).1 _ _ _ _ _ _ twoNodeJob_reachable
  exact ⟨hfinished, (hdispatch.2.2.2 hfinished).1, twoNodeRun_takesAll _,
    (dispatch_deterministic twoNodeRun).2 _ (twoNodeRun_takesAll _) 2⟩

end GraphRun

end LangGraph
