import LangGraph.Graph.Reach
import LangGraph.Graph.CompiledStateGraph
import LangGraph.Checkpoint.InMemorySaver

/-!
# What a failure checkpoint keeps

A super-step that fails stores a checkpoint to be resumed from.  Up to the moment its writes are
merged it stores the state the step started with, later the state with the writes merged so far.
Beside a failed handler it keeps the failed tasks.
-/

namespace LangGraph

open EarlyExit ExceptList List

variable {σ : Type}

namespace GraphRun

/-! ## 1. The checkpoint `failRun` stores -/

/-- The state `failRun` stores: the state at the call with the error entry. -/
def failedState (call : FailCall) (st : RunState σ) : Result State :=
  withRunErrorMetadata st.result.state call.status call.node call.failedStep
    (runStatusFromStatus call.status)

def atFailure (call : FailCall) (st : RunState σ) (failed : State) : RunState σ :=
  (setStatus (runStatusFromStatus call.status) st).withState failed

section FailRun

variable {run : GraphRun σ} {call : FailCall} {st : RunState σ} {c : Checkpoint}

theorem failRun_calls_of_ok {failed : State} (h : failedState call st = .ok failed) :
    (run.failRun call st).2.calls
      = (run.putCheckpoint call.request (atFailure call st failed)).2.calls := by
  have h' : withRunErrorMetadata st.result.state call.status call.node call.failedStep
    (runStatusFromStatus call.status) = .ok failed := h
  simp only [failRun, h']
  split <;> rfl

theorem failRun_of_put {failed : State} (h : failedState call st = .ok failed)
    (hput : (run.putCheckpoint call.request (atFailure call st failed)).1 = .ok ()) :
    ∃ result, (run.failRun call st).1 = .ok result := by
  have h' : withRunErrorMetadata st.result.state call.status call.node call.failedStep
    (runStatusFromStatus call.status) = .ok failed := h
  simp only [atFailure, setStatus] at hput
  simp only [failRun, h', hput]; exact ⟨_, rfl⟩

theorem failRun_ok {result : RunResult} (h : (run.failRun call st).1 = .ok result) :
    ∃ failed, failedState call st = .ok failed ∧
      (run.putCheckpoint call.request (atFailure call st failed)).1 = .ok () := by
  unfold failRun at h
  dsimp only at h
  split at h
  · cases h
  · rename_i failed hfailed
    refine ⟨failed, hfailed, ?_⟩
    split at h
    · cases h
    · rename_i hput
      exact hput

end FailRun

/-! ## 2. The stored state -/

section Values

variable (run : GraphRun σ) (ctx : StepContext) (st : RunState σ)

end Values

section State

variable {run : GraphRun σ} {world : World σ} {ctx : StepContext} {loop : LoopState}
  {st st' st₀ : RunState σ} {call : FailCall} {c : Checkpoint} {state : State}

theorem StepFailure.early_of_nodeFailed (h : StepFailure run ctx st st' call)
    (hsite : call.site = .nodeFailed) : SameRun st st' ∧ EarlyFailure run ctx st call := by
  cases h with
  | early same h => exact ⟨same, h⟩
  | apply | route => cases hsite
  | @ending site _ _ _ hmem =>
    obtain rfl : site = .nodeFailed := hsite
    simp at hmem

end State

section Tasks

variable {run : GraphRun σ} {loop : LoopState} {st st' : RunState σ} {call : FailCall}
  {failed : State}

theorem checkpointOf_nextTasks {request : CheckpointRequest} {ns : Bytes}
    (hns : st'.result.checkpointNamespace = ns)
    (hsettled : ∀ task ∈ request.next, task.Settled ns) :
    (run.checkpointOf request st').nextTasks = request.next := by
  have hnorm : normalizeNextTasks request.next = request.next := appendTasks_nil_of_settled hsettled
  show annotateTasks st'.result.runId st'.result.checkpointNamespace request.step
    (normalizeNextTasks request.next) = _
  rw [hns, hnorm]; exact annotateTasks_of_settled hsettled _ _

theorem failure_nextTasks
    (hns : st'.result.checkpointNamespace = st.result.checkpointNamespace)
    (hsettled : ∀ task ∈ call.failureNext, task.Settled st.result.checkpointNamespace)
    (hne : call.failureNext ≠ []) :
    (run.checkpointOf call.request (atFailure call st' failed)).nextTasks = call.failureNext := by
  have hnorm : normalizeNextTasks call.failureNext = call.failureNext :=
    appendTasks_nil_of_settled hsettled
  have hnext : call.request.next = call.failureNext := by
    simp only [FailCall.request, FailCall.next, hnorm, hne, decide_false, Bool.false_and,
      Bool.false_eq_true, if_false]
  rw [← hnext] at hsettled ⊢; exact checkpointOf_nextTasks hns hsettled

theorem failedTasks_perm (run : GraphRun σ) (ctx : StepContext) (st : RunState σ) :
    (tasksAt (run.stepClassified ctx st).executions (run.stepClassified ctx st).failedIndexes
      ++ (run.stepSucceeded ctx st).map (·.task)).Perm ctx.activeTasks := by
  have hfailed : (tasksAt (run.stepClassified ctx st).executions
        (run.stepClassified ctx st).failedIndexes).Perm
      (((run.stepClassified ctx st).executions.filter (·.status.isSome)).map (·.task)) := by
    rw [← tasksAt_positions]; exact tasksAt_perm (failedIndexes_perm _ _)
  refine (hfailed.append_right _).trans ?_
  rw [← map_append, ← stepClassified_tasks run ctx st]
  refine Perm.map _ ?_
  have hnot : (fun e : NodeExecution => !e.status.isSome) = fun e => e.status.isNone :=
    funext fun e => by cases e.status <;> rfl
  have hsplit := filter_append_perm (fun e : NodeExecution => e.status.isSome)
    (run.stepClassified ctx st).executions
  rw [hnot] at hsplit; exact hsplit

theorem failedTasks_ne_nil {ctx : StepContext}
    (h : (run.stepClassified ctx st).failedIndexes ≠ []) :
    tasksAt (run.stepClassified ctx st).executions (run.stepClassified ctx st).failedIndexes
      ≠ [] := by
  intro hnil
  have hperm : (run.stepClassified ctx st).failedIndexes.Perm
    (positions (·.status.isSome) (run.stepClassified ctx st).executions) := failedIndexes_perm _ _
  have htasks : (tasksAt (run.stepClassified ctx st).executions
      (run.stepClassified ctx st).failedIndexes).Perm _ := tasksAt_perm hperm
  rw [hnil, tasksAt_positions] at htasks
  rw [positions_eq_nil (map_eq_nil_iff.mp htasks.symm.eq_nil)] at hperm
  exact h hperm.eq_nil

theorem nodeFailed_nextTasks
    (hns : st'.result.checkpointNamespace = st.result.checkpointNamespace)
    (hfailed : (run.stepClassified (stepContext loop st.result) st).failedIndexes ≠ [])
    (hnext : call.failureNext
      = appendTasks [] (tasksAt (run.stepClassified (stepContext loop st.result) st).executions
        (run.stepClassified (stepContext loop st.result) st).failedIndexes)) :
    (run.checkpointOf call.request (atFailure call st' failed)).nextTasks
      = tasksAt (run.stepClassified (stepContext loop st.result) st).executions
        (run.stepClassified (stepContext loop st.result) st).failedIndexes := by
  have hperm := failedTasks_perm run (stepContext loop st.result) st
  have hsettled := fun task ht =>
    activeTasks_settled loop st.result task (hperm.subset (mem_append_left _ ht))
  rw [appendTasks_nil_of_settled hsettled] at hnext
  rw [← hnext] at hsettled ⊢
  exact failure_nextTasks hns hsettled (hnext ▸ failedTasks_ne_nil hfailed)

end Tasks

end GraphRun

end LangGraph
