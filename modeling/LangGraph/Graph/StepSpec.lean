import LangGraph.Graph.Frame

/-!
# What a super-step can do

One lemma per stage says how the stage ends, and `superStep_ends` puts them together: a step that
fails does so with one of the calls listed in `StepFailure`, and a step that comes back has merged
the sorted writes of all its tasks and routed from the merged state.
-/

namespace LangGraph

open EarlyExit StableSort Ends List

variable {σ : Type}

namespace GraphRun

/-! ## 1. The values a step computes -/

section Values

variable (run : GraphRun σ) (ctx : StepContext) (st : RunState σ)

def stepExecutions : List NodeExecution :=
  run.dispatchExecutions st.core st.resumeValuesByTask ctx.activeTasks ctx.inputState ctx.nextStep

def stepClassified : Classified := classify run.allowParentCommand (run.stepExecutions ctx st)

def stepSucceeded : List NodeExecution :=
  (run.stepClassified ctx st).executions.filter (·.status.isNone)

def writeOf (result : RunResult) (execution : NodeExecution) : Result CheckpointWrite :=
  run.writeFromExecution result execution.task (execution.output.getD {})

/-- `writes` are the writes of the executions, in their order. -/
def WritesOf (result : RunResult) (executions : List NodeExecution) (writes : List CheckpointWrite) :
    Prop :=
  List.Forall₂ (fun execution write => run.writeOf result execution = .ok write) executions writes

def mergeWrites (state : State) (writes : List CheckpointWrite) : Result State :=
  writes.foldlM (fun state write => applyStateUpdate state ⟨write.update.view⟩ run.options.reducers)
    state

def routeAll (result : RunResult) (step : Nat) (routedNext : List CheckpointTask)
    (writes : List CheckpointWrite) : Result (List CheckpointTask) :=
  writes.foldlM (fun routed write => run.routeFromWrite result step write routed) routedNext

end Values

variable {run : GraphRun σ}

section

variable {st st₀ : RunState σ} (same : SameRun st st₀)

include same

/-- A write reads only the namespace of the run, which no event changes. -/
theorem writeFromExecution_same (task : CheckpointTask) (output : NodeOutput) :
    run.writeFromExecution st₀.result task output = run.writeFromExecution st.core task output := by
  rw [← same.core]; rfl

theorem routeFromWrite_same (step : Nat) (write : CheckpointWrite) (routed : List CheckpointTask) :
    run.routeFromWrite st₀.result step write routed
      = run.routeFromWrite st.core step write routed := by
  rw [← same.core]; rfl

theorem dispatchExecutions_same (ctx : StepContext) :
    run.dispatchExecutions st₀.result st₀.resumeValuesByTask ctx.activeTasks ctx.inputState
      ctx.nextStep = run.stepExecutions ctx st := by
  rw [stepExecutions, ← same.core, ← same.resumeValues]; rfl

end

theorem writeOf_ids {result : RunResult} {execution : NodeExecution} {write : CheckpointWrite}
    (h : run.writeOf result execution = .ok write) :
    write.taskId = execution.task.taskId ∧ write.nodeId = execution.task.nodeId ∧
      write.order = execution.task.order := by
  unfold writeOf writeFromExecution at h
  cases hu : (execution.output.getD {}).update.toState with
  | error => rw [hu] at h; cases h
  | ok =>
    rw [hu] at h
    cases hc : (execution.output.getD {}).command with
    | none => simp only [hc] at h; cases h; exact ⟨rfl, rfl, rfl⟩
    | some command =>
      simp only [hc] at h
      cases ht : run.commandTasksAfter execution.task.nodeId command with
      | error => simp only [ht] at h; cases h
      | ok => simp only [ht] at h; cases h; exact ⟨rfl, rfl, rfl⟩

theorem activeTasks_settled (loop : LoopState) (result : RunResult) :
    ∀ task ∈ (stepContext loop result).activeTasks, task.Settled result.checkpointNamespace :=
  settled_annotateTasks (normal_normalizeNextTasks loop.nextTasks).runnable

theorem stepClassified_tasks (run : GraphRun σ) (ctx : StepContext) (st : RunState σ) :
    (run.stepClassified ctx st).executions.map (·.task) = ctx.activeTasks := by
  rw [stepClassified, classify_tasks]; exact run.dispatchExecutions_tasks ..

/-! ## 2. How a step fails -/

/-- The calls of `failRun` in front of the merge of the writes, with what is known where each is
    made.  `st` is the state of the run at the start of the step. -/
inductive EarlyFailure (run : GraphRun σ) (ctx : StepContext) (st : RunState σ) : FailCall → Prop
  | all {site : FailSite} {node : Bytes} {status : Status}
      (hsite : site ∈ [.cancelled, .budget, .nodeStarted, .interruptedNodeFailed, .nodeCompleted]) :
      EarlyFailure run ctx st (ctx.failAll site node status)
  | nodeFailed {node : Bytes} {status : Status} {writes : List CheckpointWrite}
      (failed : (run.stepClassified ctx st).failedIndexes ≠ [])
      (hwrites : run.WritesOf st.core (run.stepSucceeded ctx st) writes) :
      EarlyFailure run ctx st {
        site := .nodeFailed, status, failedStep := ctx.nextStep, node
        failureNext := appendTasks [] (tasksAt (run.stepClassified ctx st).executions
          (run.stepClassified ctx st).failedIndexes)
        failurePendingWrites := ctx.pendingWrites ++ writes }
  | completedBesideFailure {execution : NodeExecution} {done rest : List NodeExecution}
      {status : Status} {writes : List CheckpointWrite}
      (hsplit : run.stepSucceeded ctx st = done ++ execution :: rest)
      (hwrites : run.WritesOf st.core done writes) :
      EarlyFailure run ctx st {
        site := .completedBesideFailure, status, failedStep := ctx.nextStep
        node := execution.task.nodeId
        failureNext := appendTasks [] (tasksAt (run.stepClassified ctx st).executions
          (run.stepClassified ctx st).failedIndexes)
        failurePendingWrites := ctx.pendingWrites ++ writes }
  | writeBesideFailure {execution : NodeExecution} {done rest : List NodeExecution}
      {status : Status} {writes : List CheckpointWrite}
      (hsplit : run.stepSucceeded ctx st = done ++ execution :: rest)
      (hwrites : run.WritesOf st.core done writes) :
      EarlyFailure run ctx st {
        site := .writeBesideFailure, status, failedStep := ctx.nextStep
        node := execution.task.nodeId, failureNext := appendTask [] execution.task
        failurePendingWrites := ctx.pendingWrites ++ writes }
  | write {execution : NodeExecution} {status : Status}
      (hmem : execution ∈ (run.stepClassified ctx st).executions) :
      EarlyFailure run ctx st {
        site := .write, status, failedStep := ctx.nextStep, node := execution.task.nodeId
        failureNext := [execution.task], failurePendingWrites := ctx.pendingWrites }

/-- The calls of `failRun` a step can make; `st'` is the state of the run at the call. -/
inductive StepFailure (run : GraphRun σ) (ctx : StepContext) (st st' : RunState σ) :
    FailCall → Prop
  | early {call : FailCall} (same : SameRun st st') (h : EarlyFailure run ctx st call) :
      StepFailure run ctx st st' call
  | apply {node : Bytes} {status : Status} :
      StepFailure run ctx st st' (ctx.failAll .apply node status)
  | route {node : Bytes} {status : Status} :
      StepFailure run ctx st st' {
        site := .route, status, failedStep := ctx.nextStep, node, failureNext := ctx.activeTasks }
  | ending {site : FailSite} {node : Bytes} {status : Status} {next : List CheckpointTask}
      (hsite : site ∈ [.parentCommand, .interruptMetadata, .interruptEvent, .completion]) :
      StepFailure run ctx st st' {
        site, status, failedStep := ctx.nextStep, node, failureNext := next }

theorem StepFailure.failedStep {ctx : StepContext} {st st' : RunState σ} {call : FailCall}
    (h : StepFailure run ctx st st' call) : call.failedStep = ctx.nextStep := by
  cases h with
  | early _ h => cases h <;> rfl
  | apply | route | ending => rfl

/-- How a stage before the end of a step leaves the run: a `failRun` call of the step, or a
    checkpoint that could not be stored. -/
def FailsAs (run : GraphRun σ) (ctx : StepContext) (st : RunState σ) (exit : Exit)
    (st' : RunState σ) : Prop :=
  match exit with
  | .fail call => StepFailure run ctx st st' call
  | .done _ => False
  | .status _ => True

/-- How a stage before the merge leaves the run. -/
def FailsEarly (run : GraphRun σ) (ctx : StepContext) (st : RunState σ) (exit : Exit)
    (st' : RunState σ) : Prop :=
  match exit with
  | .fail call => SameRun st st' ∧ EarlyFailure run ctx st call
  | .done _ => False
  | .status _ => True

/-! ## 3. The stages before the writes are merged -/

section Stages

variable {run : GraphRun σ} {ctx : StepContext} {st st₀ : RunState σ}

theorem enterStep_ends (loop : LoopState) :
    Ends (run.enterStep loop ctx) st (fun _ st' => st' = st) (FailsEarly run ctx st) := by
  unfold enterStep
  simp only [ends_bind]
  refine ends_orFail _ (fun _ _ => ?_) fun status _ => ?_
  · exact ends_orFail _ (fun _ _ => rfl) fun status _ =>
      ⟨.refl st, .all (by simp)⟩
  · exact ⟨.refl st, .all (by simp)⟩

theorem storeOrExit_ends {E : Exit → RunState σ → Prop} {st₁ : RunState σ} {node : Bytes}
    {request : CheckpointRequest} (hstatus : ∀ status st', E (.status status) st')
    (same : SameRun st₁ st₀) :
    Ends (run.storeOrExit ctx node request) st₀ (fun _ st' => SameRun st₁ st') E := by
  have hput := same.trans (run.putCheckpoint_sameRun st₀ request)
  unfold storeOrExit
  simp only [ends_bind, ends_act]
  cases (run.putCheckpoint request st₀).1 with
  | ok => exact hput
  | error => exact hstatus _ _

section

variable (same : SameRun st st₀)

include same

theorem emitNodeStarted_ends (tasks : List CheckpointTask) :
    Ends (run.emitNodeStarted ctx tasks) st₀ (fun _ st' => SameRun st st') (FailsEarly run ctx st) := by
  induction tasks generalizing st₀ with
  | nil => exact same
  | cons task tasks ih =>
    have hemit := same.trans (run.emit_quiet st₀ .nodeStarted ctx.nextStep task.nodeId
      (nodeStartedPayload task ctx.inputState ctx.nextStep) []).sameRun
    unfold emitNodeStarted
    simp only [ends_bind]
    exact ends_orFail _ (fun _ _ => ih hemit) fun status _ => ⟨hemit, .all (by simp)⟩

theorem writesBesideFailure_ends (executions done : List NodeExecution) (writes : List CheckpointWrite)
    (hsplit : run.stepSucceeded ctx st = done ++ executions.filter (·.status.isNone))
    (houtput : ∀ e ∈ executions, e.status = none → ∃ output, e.output = some output)
    (hwrites : run.WritesOf st.core done writes) :
    Ends (run.writesBesideFailure ctx (appendTasks [] (tasksAt (run.stepClassified ctx st).executions
        (run.stepClassified ctx st).failedIndexes)) (ctx.pendingWrites ++ writes) executions) st₀
      (fun pending st' => SameRun st st' ∧ ∃ writes, pending = ctx.pendingWrites ++ writes ∧
        run.WritesOf st.core (run.stepSucceeded ctx st) writes)
      (FailsEarly run ctx st) := by
  -- `done` are the successful executions already written, `writes` what they wrote
  induction executions generalizing done writes st₀ with
  | nil =>
    rw [filter_nil, append_nil] at hsplit
    exact ⟨same, writes, rfl, hsplit ▸ hwrites⟩
  | cons execution rest ih =>
    have hrest : ∀ e ∈ rest, e.status = none → ∃ output, e.output = some output :=
      fun e he => houtput e (mem_cons_of_mem _ he)
    unfold writesBesideFailure
    cases hs : execution.status with
    | some =>
      rw [filter_cons_of_neg (by simp [hs])] at hsplit
      exact ih same _ _ hsplit hrest hwrites
    | none =>
      obtain ⟨output, hout⟩ := houtput execution mem_cons_self hs
      rw [filter_cons_of_pos (by simp [hs])] at hsplit
      have hemit := same.trans (run.emit_quiet st₀ .nodeCompleted ctx.nextStep execution.task.nodeId
        (nodeCompletedPayload execution.task output.update ctx.nextStep) []).sameRun
      simp only [hout, ends_bind, ends_get]
      refine ends_orFail _ (fun _ _ => ?_) fun status _ =>
        ⟨hemit, .completedBesideFailure hsplit hwrites⟩
      have hwrite : run.writeFromExecution st.core execution.task output
          = run.writeOf st.core execution := by
        rw [writeOf, hout]; rfl
      rw [writeFromExecution_same hemit, hwrite]
      cases hw : run.writeOf st.core execution with
      | error status =>
        have hquiet := (run.emitIgnored_quiet (run.emit .nodeCompleted ctx.nextStep
          execution.task.nodeId (nodeCompletedPayload execution.task output.update ctx.nextStep) []
          st₀).2 .nodeFailed ctx.nextStep execution.task.nodeId .null status.toString).sameRun
        exact ⟨hemit.trans hquiet, .writeBesideFailure hsplit hwrites⟩
      | ok write =>
        dsimp only
        rw [append_assoc]
        refine ih hemit (done ++ [execution]) (writes ++ [write]) ?_ hrest ?_
        · rw [hsplit, append_assoc]; rfl
        · exact rel_append hwrites (.cons hw .nil)

theorem failStep_ends (first : NodeExecution)
    (failed : (run.stepClassified ctx st).failedIndexes ≠ []) :
    Ends (run.failStep ctx (run.stepClassified ctx st) first) st₀ (fun _ _ => False)
      (FailsEarly run ctx st) := by
  unfold failStep
  split_ifs with hi
  · simp only [ends_bind]
    have hwrites := writesBesideFailure_ends same (run.stepClassified ctx st).executions [] [] rfl
      (fun e he hs => output_of_status_none _ _ he hs) .nil
    rw [append_nil] at hwrites
    refine hwrites.mono (fun pending st' h => ?_) fun _ _ h => h
    obtain ⟨hsame, writes, rfl, hw⟩ := h
    exact ⟨hsame, .nodeFailed failed hw⟩
  · exact ⟨same, .all (by simp)⟩

theorem failIfAny_ends :
    Ends (run.failIfAny ctx (run.stepClassified ctx st)) st₀
      (fun _ st' => SameRun st st' ∧ (run.stepClassified ctx st).failedIndexes = [])
      (FailsEarly run ctx st) := by
  unfold failIfAny
  cases hf : (run.stepClassified ctx st).failedIndexes with
  | nil => exact ⟨same, rfl⟩
  | cons =>
    have hperm : (run.stepClassified ctx st).failedIndexes.Perm
        (positions (·.status.isSome) (run.stepClassified ctx st).executions) :=
      failedIndexes_perm _ _
    have hpos := hperm.mem_iff.mp (hf ▸ mem_cons_self)
    have hlt := mem_range.mp (mem_of_mem_filter hpos)
    dsimp only
    rw [getElem?_eq_getElem hlt]
    exact (failStep_ends same _ (by rw [hf]; simp)).mono (fun _ _ h => h.elim) fun _ _ h => h

theorem executeStep_ends :
    Ends (run.executeStep ctx) st₀
      (fun classified st' => SameRun st st' ∧ classified = run.stepClassified ctx st ∧
        (run.stepClassified ctx st).failedIndexes = [])
      (FailsEarly run ctx st) := by
  unfold executeStep
  refine (emitNodeStarted_ends same ctx.activeTasks).bind fun _ st₁ same₁ => ?_
  simp only [ends_bind, ends_get]
  rw [dispatchExecutions_same same₁]
  have hann := same₁.trans (run.announceFailures_quiet st₁ ctx (run.stepExecutions ctx st)
    (run.stepClassified ctx st)).sameRun
  refine (failIfAny_ends hann).mono (fun _ st' h => ?_) fun _ _ h => h
  exact ⟨h.1, rfl, h.2⟩

theorem emitNodeCompleted_ends (executions : List NodeExecution) :
    Ends (run.emitNodeCompleted ctx executions) st₀ (fun _ st' => SameRun st st')
      (FailsEarly run ctx st) := by
  induction executions generalizing st₀ with
  | nil => exact same
  | cons execution rest ih =>
    unfold emitNodeCompleted
    cases hout : execution.output with
    | none => exact ih same
    | some output =>
      have hemit := same.trans (run.emit_quiet st₀ .nodeCompleted ctx.nextStep execution.task.nodeId
        (nodeCompletedPayload execution.task output.update ctx.nextStep) []).sameRun
      dsimp only
      split_ifs with hi
      · simp only [ends_bind]
        exact ends_orFail _ (fun _ _ => ih hemit) fun status _ => ⟨hemit, .all (by simp)⟩
      · exact ih same

theorem collectWrites_ends (persist : Bool) (executions done : List NodeExecution)
    (writes : List CheckpointWrite)
    (hsplit : (run.stepClassified ctx st).executions = done ++ executions)
    (hwrites : run.WritesOf st.core done writes) :
    Ends (run.collectWrites ctx persist (ctx.pendingWrites ++ writes) executions) st₀
      (fun all st' => SameRun st st' ∧ ∃ writes, all = ctx.pendingWrites ++ writes ∧
        run.WritesOf st.core (run.stepClassified ctx st).executions writes)
      (FailsEarly run ctx st) := by
  induction executions generalizing done writes st₀ with
  | nil =>
    rw [append_nil] at hsplit; exact ⟨same, writes, rfl, hsplit ▸ hwrites⟩
  | cons execution rest ih =>
    unfold collectWrites
    simp only [ends_bind, ends_get, writeFromExecution_same same]
    rw [← writeOf]
    cases hw : run.writeOf st.core execution with
    | error status =>
      have hquiet := (run.emitIgnored_quiet st₀ .nodeFailed ctx.nextStep execution.task.nodeId .null
        status.toString).sameRun
      exact ⟨same.trans hquiet, .write (by rw [hsplit]; simp)⟩
    | ok write =>
      -- storing in between changes nothing that the rest of the loop reads
      have hnext : ∀ {st₁}, SameRun st st₁ →
          Ends (run.collectWrites ctx persist (ctx.pendingWrites ++ writes ++ [write]) rest) st₁
            (fun all st' => SameRun st st' ∧ ∃ writes, all = ctx.pendingWrites ++ writes ∧
              run.WritesOf st.core (run.stepClassified ctx st).executions writes)
            (FailsEarly run ctx st) := fun same₁ => by
        rw [append_assoc]
        refine ih same₁ (done ++ [execution]) (writes ++ [write]) ?_ ?_
        · rw [hsplit, append_assoc]; rfl
        · exact rel_append hwrites (.cons hw .nil)
      split_ifs with hpersist
      · exact (storeOrExit_ends (fun _ _ => trivial) same).bind fun _ _ same₁ => hnext same₁
      · exact hnext same

theorem prepareWrites_ends :
    Ends (run.prepareWrites ctx (run.stepClassified ctx st)) st₀
      (fun sorted st' => SameRun st st' ∧ ∃ writes,
        sorted = stableSort writeOrderLess (ctx.pendingWrites ++ writes) ∧
        run.WritesOf st.core (run.stepClassified ctx st).executions writes)
      (FailsEarly run ctx st) := by
  unfold prepareWrites
  refine (emitNodeCompleted_ends same _).bind fun _ st₁ same₁ => ?_
  have hsplit : (run.stepClassified ctx st).executions
      = [] ++ (run.stepClassified ctx st).executions := rfl
  have hcollect := fun persist => collectWrites_ends same₁ persist _ [] [] hsplit .nil
  simp only [append_nil] at hcollect
  refine (hcollect _).bind fun all st₂ h => ?_
  obtain ⟨same₂, writes, rfl, hwrites⟩ := h
  exact ⟨same₂, writes, rfl, hwrites⟩

end

/-! ## 4. Merging and routing -/

theorem applyWrite_ok {write : CheckpointWrite} {step : Nat}
    (h : (run.applyWrite write step st₀).1 = .ok ()) :
    ∃ merged, applyStateUpdate st₀.result.state ⟨write.update.view⟩ run.options.reducers
        = .ok merged ∧ SameRun (st₀.withState merged) (run.applyWrite write step st₀).2 := by
  unfold applyWrite at h ⊢
  rw [StateUpdate.fromJsonValue_view] at h ⊢
  dsimp only at h ⊢
  cases ha : applyStateUpdate st₀.result.state ⟨write.update.view⟩ run.options.reducers with
  | error => rw [ha] at h; cases h
  | ok merged =>
    refine ⟨merged, rfl, ?_⟩
    dsimp only at h ⊢
    cases hv : validateStateSchema merged run.graph.schemas.stateSchema "state" with
    | error => exact .refl _
    | ok => exact (run.emit_quiet _ ..).sameRun

theorem applyWrites_ends (st : RunState σ) (writes : List CheckpointWrite) {state : State}
    (same : SameRun (st.withState state) st₀) :
    Ends (run.applyWrites ctx writes) st₀
      (fun _ st' => ∃ merged, run.mergeWrites state writes = .ok merged ∧
        SameRun (st.withState merged) st')
      (FailsAs run ctx st) := by
  induction writes generalizing state st₀ with
  | nil => exact ⟨state, rfl, same⟩
  | cons write writes ih =>
    unfold applyWrites
    simp only [ends_bind, ends_act]
    cases ha : (run.applyWrite write ctx.nextStep st₀).1 with
    | error => exact StepFailure.apply
    | ok =>
      obtain ⟨merged, hmerged, hsame⟩ := applyWrite_ok ha
      rw [same.state] at hmerged
      refine (ih ((same.withState merged).trans hsame)).mono (fun _ st' h => ?_) fun _ _ h => h
      obtain ⟨final, hfinal, hsame'⟩ := h
      refine ⟨final, ?_, hsame'⟩
      rw [mergeWrites, foldlM_cons]
      exact (congrArg (· >>= _) hmerged).trans hfinal

theorem routeWrites_ends {state : State} (writes : List CheckpointWrite)
    (routedNext : List CheckpointTask) (same : SameRun (st.withState state) st₀) :
    Ends (run.routeWrites ctx routedNext writes) st₀
      (fun routed st' => SameRun (st.withState state) st' ∧
        run.routeAll (st.withState state).core ctx.nextStep routedNext writes = .ok routed)
      (FailsAs run ctx st) := by
  induction writes generalizing routedNext with
  | nil => exact ⟨same, rfl⟩
  | cons write writes ih =>
    unfold routeWrites
    simp only [ends_bind, ends_get, routeFromWrite_same same]
    cases hr : run.routeFromWrite (st.withState state).core ctx.nextStep write routedNext with
    | error => exact StepFailure.route
    | ok next =>
      refine (ih next).mono (fun _ st' h => ⟨h.1, ?_⟩) fun _ _ h => h
      rw [routeAll, foldlM_cons]; exact (congrArg (· >>= _) hr).trans h.2

end Stages

/-! ## 5. How a step ends -/

structure Merged (run : GraphRun σ) (ctx : StepContext) (st : RunState σ)
    (writes : List CheckpointWrite) (merged : State) : Prop where
  noFailure : (run.stepClassified ctx st).failedIndexes = []
  collected : ∃ own, run.WritesOf st.core (run.stepClassified ctx st).executions own ∧
    writes = stableSort writeOrderLess (ctx.pendingWrites ++ own)
  merge : run.mergeWrites st.result.state writes = .ok merged

structure Committed (run : GraphRun σ) (ctx : StepContext) (st : RunState σ) (loop' : LoopState)
    (st' : RunState σ) (writes : List CheckpointWrite) (merged : State) : Prop where
  merging : Merged run ctx st writes merged
  noParent : (run.stepClassified ctx st).parentCommandIndex.bind
    ((run.stepClassified ctx st).executions[·]?) = none
  noInterrupt : interruptedOf (run.stepClassified ctx st) = []
  routing : run.routeAll (st.withState merged).core ctx.nextStep [] writes = .ok loop'.nextTasks
  pending : loop'.pendingWrites = []
  resumeValues : st'.resumeValuesByTask = []
  core : st'.core = { st.core with
    state := merged, step := ctx.nextStep
    status := if isTerminalNextTasks loop'.nextTasks then .completed else st.core.status }

/-- The tasks a paused step stores: the interrupted ones, then the routed ones. -/
def pausedNext (interrupted : List (NodeExecution × Interrupt)) (routed : List CheckpointTask) :
    List CheckpointTask :=
  appendTasks (appendTasks [] (interrupted.map (·.1.task))) routed

def pauseRequest (ctx : StepContext) (interrupted : List (NodeExecution × Interrupt))
    (routed : List CheckpointTask) (writes : List CheckpointWrite) : CheckpointRequest where
  step := ctx.nextStep
  next := pausedNext interrupted routed
  writes := writes
  source := .interrupt
  terminal := true

structure Paused (run : GraphRun σ) (ctx : StepContext) (st : RunState σ) (result : RunResult)
    (st' : RunState σ) (writes : List CheckpointWrite) (merged : State)
    (routed : List CheckpointTask) : Prop where
  merging : Merged run ctx st writes merged
  interrupted : interruptedOf (run.stepClassified ctx st) ≠ []
  routing : run.routeAll (st.withState merged).core ctx.nextStep []
    (writes.filter (!isInterruptedWrite (interruptedOf (run.stepClassified ctx st)) ·)) = .ok routed
  metadata : withInterruptMetadata merged
    ((interruptedOf (run.stepClassified ctx st)).map fun pair =>
      NodeExecution.pending pair.1 pair.2) ctx.nextStep = .ok result.state
  core : st'.core = { st.core with
    state := result.state, step := ctx.nextStep, status := .paused }
  returned : result = st'.result
  stored : ∀ saver, run.options.checkpointer = some saver →
    ∃ st₀, SameRun (setStep ctx.nextStep (st.withState result.state)) st₀ ∧
      st'.calls = st₀.calls ++ [(.put (run.checkpointOf (pauseRequest ctx
        (interruptedOf (run.stepClassified ctx st)) routed writes) st₀), .ok ())]

def StepExit (run : GraphRun σ) (ctx : StepContext) (st : RunState σ) (exit : Exit)
    (st' : RunState σ) : Prop :=
  match exit with
  | .fail call => StepFailure run ctx st st' call
  | .done result =>
    (result.status = .completed ∧ ∃ execution, (run.stepClassified ctx st).parentCommandIndex.bind
        ((run.stepClassified ctx st).executions[·]?) = some execution) ∨
      ∃ writes merged routed, Paused run ctx st result st' writes merged routed
  | .status _ => True

theorem FailsEarly.failsAs {ctx : StepContext} {st st' : RunState σ} {exit : Exit}
    (h : FailsEarly run ctx st exit st') : FailsAs run ctx st exit st' := by
  cases exit with
  | fail => exact .early h.1 h.2
  | done => exact h.elim
  | status => exact trivial

theorem FailsAs.stepExit {ctx : StepContext} {st st' : RunState σ} {exit : Exit}
    (h : FailsAs run ctx st exit st') : StepExit run ctx st exit st' := by
  cases exit with
  | fail => exact h
  | done => exact h.elim
  | status => exact trivial

section Ending

variable {run : GraphRun σ} {ctx : StepContext} {st st₀ st₁ : RunState σ}

theorem announceCompletion_ends {site : FailSite} {node : Bytes} {next : List CheckpointTask}
    {parentCommand : Bool} (same : SameRun st₁ st₀)
    (hsite : site ∈ [.parentCommand, .interruptMetadata, .interruptEvent, .completion]) :
    Ends (run.announceCompletion ctx site node next parentCommand) st₀
      (fun _ st' => SameRun (setStatus .completed st₁) st') (FailsAs run ctx st) := by
  unfold announceCompletion
  simp only [ends_bind]
  refine ends_orFail _ (fun _ _ => ?_) fun status _ => StepFailure.ending hsite
  have hemit := (same.setStatus .completed).trans (run.emit_quiet
    (setStatus .completed st₀) .runCompleted ctx.nextStep []
    (completedPayload st₀.result.state parentCommand) []).sameRun
  exact ends_orFail _ (fun _ _ => hemit) fun status _ => StepFailure.ending hsite

variable {writes : List CheckpointWrite}

theorem finishStep_ends {budgetSteps : Nat} {state : State}
    (same : SameRun (st.withState state) st₀) :
    Ends (run.finishStep ctx budgetSteps writes) st₀
      (fun loop' st' =>
        run.routeAll (st.withState state).core ctx.nextStep [] writes = .ok loop'.nextTasks ∧
        loop'.pendingWrites = [] ∧ st'.resumeValuesByTask = [] ∧
        st'.core = { st.core with
          state := state, step := ctx.nextStep
          status := if isTerminalNextTasks loop'.nextTasks then .completed else st.core.status })
      (FailsAs run ctx st) := by
  unfold finishStep
  refine (routeWrites_ends writes [] same).bind fun routed st₂ h => ?_
  have hstep := h.1.setStep ctx.nextStep
  rw [ends_bind, ends_effect]
  dsimp only
  split_ifs with hterminal
  · refine bind (announceCompletion_ends hstep (by simp)) fun _ st₃ h₃ => ?_
    refine (storeOrExit_ends (fun _ _ => trivial) h₃).bind fun _ st' hsame => ?_
    refine ⟨h.2, rfl, rfl, hsame.core.trans ?_⟩
    simp only [hterminal]; rfl
  · refine (storeOrExit_ends (fun _ _ => trivial) hstep).bind fun _ st' hsame => ?_
    refine ⟨h.2, rfl, rfl, hsame.core.trans ?_⟩
    simp only [hterminal]; rfl

theorem finishParentCommand_ends (st : RunState σ) {execution : NodeExecution} :
    Ends (run.finishParentCommand ctx execution writes) st₀ (fun _ _ => False) fun exit st' =>
      FailsAs run ctx st exit st' ∨ ∃ result, exit = .done result ∧ result.status = .completed := by
  unfold finishParentCommand
  simp only [ends_bind, ends_effect]
  refine mono (announceCompletion_ends (.refl _) (by simp)) (fun _ st₂ h₂ => ?_)
    fun _ _ h => .inl h
  refine (storeOrExit_ends (fun _ _ => trivial) h₂).mono (fun _ st₃ h₃ => ?_) fun _ _ h => .inl h
  refine .inr ⟨_, rfl, ?_⟩
  exact (congrArg RunResult.status h₃.core :)

theorem storeOrExit_calls (ctx : StepContext) (st st₀ : RunState σ) (node : Bytes)
    (request : CheckpointRequest) (hpending : request.pending = [])
    (hstore : run.shouldStore request = true) :
    Ends (run.storeOrExit ctx node request) st₀
      (fun _ st' => ∀ saver, run.options.checkpointer = some saver →
        st'.calls = st₀.calls ++ [(.put (run.checkpointOf request st₀), .ok ())])
      (FailsAs run ctx st) := by
  unfold storeOrExit
  simp only [ends_bind, ends_act]
  cases hput : (run.putCheckpoint request st₀).1 with
  | error => exact trivial
  | ok =>
    intro saver hsaver
    have hempty : (run.checkpointOf request st₀).pendingWrites = [] := hpending
    unfold putCheckpoint at hput ⊢
    simp only [hstore, storeInSaver, hsaver, storeCheckpoint, hempty] at hput ⊢
    cases hsaved : (saver.put (run.checkpointOf request st₀) st₀.tick.world.saver).1 with
    | error => simp only [hsaved] at hput; cases hput
    | ok => rfl

theorem emitInterrupts_ends {next : List CheckpointTask}
    (interrupted : List (NodeExecution × Interrupt)) (quiet : Quiet st₁ st₀) :
    Ends (run.emitInterrupts ctx next interrupted) st₀ (fun _ st' => Quiet st₁ st')
      (FailsAs run ctx st) := by
  induction interrupted generalizing st₀ with
  | nil => exact quiet
  | cons pair rest ih =>
    unfold emitInterrupts
    simp only [ends_bind]
    exact ends_orFail _ (fun _ _ => ih (quiet.trans (run.publish_quiet st₀ _)))
      fun status _ => StepFailure.ending (by simp)

theorem pauseStep_ends {merged : State} {node : Bytes} (merging : Merged run ctx st writes merged)
    (hinterrupted : interruptedOf (run.stepClassified ctx st) ≠ [])
    (same : SameRun (st.withState merged) st₀) :
    Ends (run.pauseStep ctx (interruptedOf (run.stepClassified ctx st)) node writes) st₀
      (fun _ _ => False) (StepExit run ctx st) := by
  unfold pauseStep
  refine bind ((routeWrites_ends _ [] same).mono (fun _ _ h => h) fun _ _ h => h.stepExit)
    fun routed st₂ h₂ => ?_
  have hstep := h₂.1.setStep ctx.nextStep
  simp only [ends_bind, ends_get]
  refine ends_orFail _ (fun state' hstate => ?_) fun status _ => StepFailure.ending (by simp)
  rw [hstep.state] at hstate
  have hsame := hstep.withState state'
  have hstored := storeOrExit_calls ctx st ((setStep ctx.nextStep st₂).withState state') node
    (pauseRequest ctx (interruptedOf (run.stepClassified ctx st)) routed writes) rfl
    (show run.shouldStore _ = true by simp [shouldStore, pauseRequest])
  refine ((storeOrExit_ends (E := fun _ _ => True) (fun _ _ => trivial) hsame).and hstored).mono
    (fun _ st₃ h₃ => ?_) fun _ _ h => h.2.stepExit
  refine (emitInterrupts_ends _ (.refl st₃)).mono (fun _ st₄ h₄ => ?_) fun _ _ h => h.stepExit
  have hcore := ((h₃.1.trans h₄.sameRun).setStatus .paused).core
  have hfinal : (setStatus .paused st₄).result.state = state' :=
    (congrArg RunResult.state hcore :)
  refine .inr ⟨writes, merged, routed, merging, hinterrupted, h₂.2, ?_, ?_, rfl, ?_⟩
  · rw [hfinal]; exact hstate
  · rw [hfinal]; exact hcore
  · intro saver hsaver
    rw [hfinal]
    refine ⟨_, hsame, ?_⟩
    rw [← h₃.2 saver hsaver]; exact h₄.calls

theorem commitStep_ends {budgetSteps : Nat} {own : List CheckpointWrite}
    (hnone : (run.stepClassified ctx st).failedIndexes = [])
    (hown : run.WritesOf st.core (run.stepClassified ctx st).executions own)
    (hwrites : writes = stableSort writeOrderLess (ctx.pendingWrites ++ own))
    (same : SameRun st st₀) :
    Ends (run.commitStep ctx budgetSteps (run.stepClassified ctx st) writes) st₀
      (fun loop' st' => ∃ writes merged, Committed run ctx st loop' st' writes merged)
      (StepExit run ctx st) := by
  unfold commitStep
  refine bind ((applyWrites_ends st writes same).mono (fun _ _ h => h)
    fun _ _ h => h.stepExit) fun _ st₁ h₁ => ?_
  obtain ⟨merged, hmerge, hsame⟩ := h₁
  have merging : Merged run ctx st writes merged := ⟨hnone, ⟨own, hown, hwrites⟩, hmerge⟩
  split
  · rename_i execution hparent
    refine (finishParentCommand_ends st).mono (fun _ _ h => h.elim) fun exit st' h => ?_
    rcases h with h | ⟨result, rfl, hstatus⟩
    · exact h.stepExit
    · exact .inl ⟨hstatus, execution, hparent⟩
  · rename_i hparent
    split
    · rename_i hinterrupted
      refine (finishStep_ends hsame).mono (fun loop' st' h => ?_) fun _ _ h => h.stepExit
      exact ⟨writes, merged, merging, hparent, hinterrupted, h.1, h.2.1, h.2.2.1, h.2.2.2⟩
    · rename_i pair rest hinterrupted
      rw [← hinterrupted]
      refine (pauseStep_ends merging ?_ hsame).mono (fun _ _ h => h.elim) fun _ _ h => h
      rw [hinterrupted]; simp

/-- The stages of a step in front of the merge of its writes. -/
def beforeMerge (run : GraphRun σ) (loop : LoopState) :
    RunM σ (Nat × Classified × List CheckpointWrite) := do
  let st ← get
  let ctx := stepContext loop st.result
  let budgetSteps ← run.enterStep loop ctx
  let classified ← run.executeStep ctx
  let writes ← run.prepareWrites ctx classified
  return (budgetSteps, classified, writes)

theorem ends_superStep {loop : LoopState} {st : RunState σ} {Q : LoopState → RunState σ → Prop}
    {E : Exit → RunState σ → Prop} {P : Nat × Classified × List CheckpointWrite → RunState σ → Prop}
    (hbefore : Ends (run.beforeMerge loop) st P E)
    (hcommit : ∀ x st₁, P x st₁ →
      Ends (run.commitStep (stepContext loop st.result) x.1 x.2.1 x.2.2) st₁ Q E) :
    Ends (run.superStep loop) st Q E := by
  have hget : ∀ {α : Type} (f : RunState σ → RunM σ α), (get >>= f) st = f st st := fun _ => rfl
  have heq : run.superStep loop st = (run.beforeMerge loop >>= fun x =>
      run.commitStep (stepContext loop st.result) x.1 x.2.1 x.2.2) st := by
    rw [superStep, hget, beforeMerge, bind_assoc, hget]
    simp only [bind_assoc, pure_bind]
  rw [Ends, heq]
  exact hbefore.bind hcommit

theorem beforeMerge_ends (loop : LoopState) (st : RunState σ) :
    Ends (run.beforeMerge loop) st
      (fun x st' => SameRun st st' ∧ x.2.1 = run.stepClassified (stepContext loop st.result) st ∧
        (run.stepClassified (stepContext loop st.result) st).failedIndexes = [] ∧ ∃ own,
        x.2.2 = stableSort writeOrderLess ((stepContext loop st.result).pendingWrites ++ own) ∧
        run.WritesOf st.core (run.stepClassified (stepContext loop st.result) st).executions own)
      (FailsEarly run (stepContext loop st.result) st) := by
  unfold beforeMerge
  rw [ends_bind, ends_get]
  refine bind (enterStep_ends loop) fun budgetSteps st₁ h₁ => ?_
  subst h₁
  refine bind (executeStep_ends (.refl _)) fun classified st₂ h₂ => ?_
  obtain ⟨same₂, rfl, hnone⟩ := h₂
  refine bind (prepareWrites_ends same₂) fun writes st₃ h₃ => ?_
  exact ⟨h₃.1, rfl, hnone, h₃.2⟩

theorem superStep_ends (run : GraphRun σ) (loop : LoopState) (st : RunState σ) :
    Ends (run.superStep loop) st
      (fun loop' st' => ∃ writes merged,
        Committed run (stepContext loop st.result) st loop' st' writes merged)
      (StepExit run (stepContext loop st.result) st) := by
  refine ends_superStep ((beforeMerge_ends loop st).mono (fun _ _ h => h)
    fun _ _ h => h.failsAs.stepExit) fun ⟨_, _, _⟩ st₁ h => ?_
  obtain ⟨same, rfl, hnone, own, hwrites, hown⟩ := h
  exact commitStep_ends hnone hown hwrites same

end Ending

end GraphRun

end LangGraph
