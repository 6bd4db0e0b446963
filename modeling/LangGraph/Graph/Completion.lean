import LangGraph.Graph.Closure
import LangGraph.Graph.CompiledStateGraph

/-!
# Completion

A run that returns with status Completed has checked its final state against the output schema and
has published `RunCompleted` once, exactly if it had a task to run and its options let the event
through.  Without a task the loop is not entered, and a result has the status Completed from the
moment it is created.

The log holds the events of the run itself, not those that node code publishes on its own.
-/

namespace LangGraph

open EarlyExit Ends

variable {σ : Type}

/-! ## 1. The events that announce completion -/

/-- The `RunCompleted` events handed to `publish`, each with its answer.  The filter of the options
    may still drop them: see `GraphRun.announcements`. -/
def RunState.completions (st : RunState σ) : List (RuntimeEvent × Result Unit) :=
  st.log.filter (·.1.type = .runCompleted)

theorem RunState.completions_concat {st st' : RunState σ} {event : RuntimeEvent}
    {answer : Result Unit} (h : st'.log = st.log ++ [(event, answer)]) :
    st'.completions =
      st.completions ++ if event.type = .runCompleted then [(event, answer)] else [] := by
  unfold completions
  rw [h, List.filter_append]
  by_cases htype : event.type = .runCompleted
  · simp [htype]
  · simp [htype]

namespace GraphRun

variable {run : GraphRun σ} {ctx : StepContext} {st st' : RunState σ}

theorem publish_completions (run : GraphRun σ) (event : RuntimeEvent) (st : RunState σ) :
    ∃ published, (run.publish event st).2.completions = st.completions ++
      if event.type = .runCompleted then [(published, (run.publish event st).1)] else [] := by
  have hlog : (run.publish event st).2.log
    = st.log ++ [(run.completeEvent st.result event, (run.publish event st).1)] := rfl
  have hcompletions := RunState.completions_concat hlog; exact ⟨_, hcompletions⟩

theorem storeInSaver_log (run : GraphRun σ) (checkpoint : Checkpoint) (source : CheckpointSource)
    (st : RunState σ) : (run.storeInSaver checkpoint source st).2.log = st.log := by
  unfold storeInSaver
  split
  · unfold storeCheckpoint
    dsimp only
    split
    · rfl
    · split_ifs <;> rfl
  · rfl

theorem putCheckpoint_completions (run : GraphRun σ) (request : CheckpointRequest) (st : RunState σ) :
    (run.putCheckpoint request st).2.completions = st.completions := by
  have hstore : ∀ source, (run.storeInSaver (run.checkpointOf request st) source
      st.tick).2.completions = st.completions := fun source => by
    unfold RunState.completions
    rw [storeInSaver_log]; rfl
  unfold putCheckpoint
  dsimp only
  split_ifs
  · split
    · exact hstore _
    · unfold announceCheckpoint
      obtain ⟨published, hcompletions⟩ := run.publish_completions
        { type := .checkpointCreated, step := request.step, node := []
          payload := checkpointPayload (run.checkpointOf request st), message := [] }
        { (run.storeInSaver (run.checkpointOf request st) request.source st.tick).2 with
          parentCheckpointId := some (run.checkpointOf request st).checkpointId }
      refine hcompletions.trans ?_
      rw [if_neg (by simp), List.append_nil]; exact hstore _
  · rfl

theorem completions_closed (run : GraphRun σ) :
    StageClosed run False (fun _ => True) (fun st st' => st'.completions = st.completions)
      fun st _ st' => st'.completions = st.completions :=
  EventClosed.stage {
    refl := fun _ => rfl
    trans := fun hab hbc => hbc.trans hab
    publish := fun event st h => by
      obtain ⟨published, hcompletions⟩ := run.publish_completions event st
      rw [hcompletions, if_neg h, List.append_nil]
    compute := fun h => by rw [RunState.completions, h.log, RunState.completions]
    put := fun request st _ => run.putCheckpoint_completions request st }

/-! ## 2. One super-step -/

/-- Between the two states the final state was checked and its completion announced. -/
structure Completes (run : GraphRun σ) (st st' : RunState σ) : Prop where
  checked : validateStateSchema st'.result.state run.graph.schemas.outputSchema "output" = .ok ()
  announced : ∃ event, st'.completions = st.completions ++ [(event, .ok ())]

theorem Completes.later (h : Completes run st st') {st₁ : RunState σ}
    (hstate : st₁.result.state = st'.result.state) (hsame : st₁.completions = st'.completions) :
    Completes run st st₁ := by
  obtain ⟨event, hevent⟩ := h.announced
  exact ⟨hstate ▸ h.checked, event, hsame.trans hevent⟩

variable {st₀ : RunState σ} {node : Bytes} {writes : List CheckpointWrite}

theorem Completes.earlier (h : Completes run st st') (hsame : st.completions = st₀.completions) :
    Completes run st₀ st' := by
  obtain ⟨event, hevent⟩ := h.announced
  exact ⟨h.checked, event, by rw [hevent, hsame]⟩

/-- An exit with the status Completed comes after the announcement. -/
def DoneIfCompleted (run : GraphRun σ) (st : RunState σ) (exit : Exit) (st' : RunState σ) : Prop :=
  ∀ result, exit = .done result → result = st'.result ∧
    (result.status = .completed → Completes run st st')

theorem FailsAs.doneIfCompleted {exit : Exit} (h : FailsAs run ctx st₀ exit st') :
    DoneIfCompleted run st exit st' := by
  intro result hexit
  subst hexit; exact h.elim

theorem announceCompletion_completes {site : FailSite} {next : List CheckpointTask}
    {parentCommand : Bool} :
    Ends (run.announceCompletion ctx site node next parentCommand) st
      (fun _ st' => st'.result.state = st.result.state ∧ st'.result.status = .completed ∧
        Completes run st st')
      fun exit _ => ∃ call, exit = .fail call := by
  unfold announceCompletion
  rw [ends_bind, ends_get, ends_bind]
  refine ends_orFail _ (fun _ hchecked => ?_) fun _ _ => ⟨_, rfl⟩
  refine ends_orFail _ (fun _ haccepted => ?_) fun _ _ => ⟨_, rfl⟩
  obtain ⟨published, hcompletions⟩ := run.publish_completions
    { type := .runCompleted, step := ctx.nextStep, node := []
      payload := completedPayload st.result.state parentCommand, message := [] }
    (setStatus .completed st)
  refine ⟨rfl, rfl, hchecked, published, ?_⟩
  refine hcompletions.trans ?_
  rw [show (run.publish _ _).1 = .ok () from haccepted]; rfl

theorem storeOrExit_completes {st₁ : RunState σ} {request : CheckpointRequest}
    (h : Completes run st₀ st) (hsame : SameRun st₁ st) :
    Ends (run.storeOrExit ctx node request) st (fun _ st' => SameRun st₁ st' ∧ Completes run st₀ st')
      (DoneIfCompleted run st₀) := by
  have hstored : Keeps _ (run.storeOrExit ctx node request) :=
    (completions_closed run).storeOrExit node request trivial
  have hends : Ends (run.storeOrExit ctx node request) st _ (FailsAs run ctx st) :=
    storeOrExit_ends (fun _ _ => trivial) hsame
  refine (hends.and (hstored st)).mono (fun _ st' h' => ?_) fun _ _ h' => h'.1.doneIfCompleted
  exact ⟨h'.1, h.later (h'.1.state.trans hsame.state.symm) h'.2⟩

theorem finishStep_completes {budgetSteps : Nat} :
    Ends (run.finishStep ctx budgetSteps writes) st
      (fun loop' st' => if isTerminalNextTasks loop'.nextTasks then Completes run st st'
        else st'.completions = st.completions)
      (DoneIfCompleted run st) := by
  have closed := completions_closed run
  have hself : SameRun (st.withState st.result.state) st := .refl st
  unfold finishStep
  refine bind (((closed.routeWrites st).and (routeWrites_ends writes [] hself)).mono
    (fun _ _ h => h) fun _ _ h => h.2.doneIfCompleted) fun routed st₁ h₁ => ?_
  rw [ends_bind, ends_effect]
  dsimp only
  have hsame₁ : (setStep ctx.nextStep st₁).completions = st.completions := h₁.1
  split_ifs with hterminal
  · refine bind (announceCompletion_completes.mono (fun _ _ h => h) fun _ _ h => ?_)
      fun _ st₂ h₂ => ?_
    · obtain ⟨call, rfl⟩ := h
      exact nofun
    · refine bind (storeOrExit_completes (h₂.2.2.earlier hsame₁) (.refl st₂)) fun _ st₃ h₃ => ?_
      rw [ends_bind, ends_effect, ends_pure, if_pos hterminal]
      exact h₃.2.later rfl rfl
  · have hends : ∀ {node request}, Ends (run.storeOrExit ctx node request)
        (setStep ctx.nextStep st₁) _ (FailsAs run ctx st) :=
      storeOrExit_ends (fun _ _ => trivial) (.refl _)
    refine bind (((closed.storeOrExit ctx.failureNode _ trivial _).and hends).mono
      (fun _ _ h => h) fun _ _ h => h.2.doneIfCompleted) fun _ st₃ h₃ => ?_
    rw [ends_bind, ends_effect, ends_pure, if_neg hterminal]
    exact h₃.1.trans hsame₁

theorem DoneIfCompleted.earlier {exit : Exit} (h : DoneIfCompleted run st exit st')
    (hsame : st.completions = st₀.completions) : DoneIfCompleted run st₀ exit st' := by
  intro result hexit
  obtain ⟨hresult, hcompletes⟩ := h result hexit
  exact ⟨hresult, fun hstatus => (hcompletes hstatus).earlier hsame⟩

theorem finishParentCommand_completes {execution : NodeExecution} :
    Ends (run.finishParentCommand ctx execution writes) st (fun _ _ => False)
      (DoneIfCompleted run st) := by
  unfold finishParentCommand
  simp only [ends_bind]
  refine announceCompletion_completes.mono (fun _ st₁ h₁ => ?_) fun _ _ h => ?_
  · refine (storeOrExit_completes h₁.2.2 (.refl st₁)).mono (fun _ st₂ h₂ => ?_)
      fun _ _ h => h.earlier rfl
    intro result hexit
    cases hexit; exact ⟨rfl, fun _ => h₂.2.earlier rfl⟩
  · obtain ⟨call, rfl⟩ := h
    intro result hexit; cases hexit

theorem pauseStep_completes {interrupted : List (NodeExecution × Interrupt)} :
    Ends (run.pauseStep ctx interrupted node writes) st (fun _ _ => False)
      (DoneIfCompleted run st) := by
  have hself : SameRun (st.withState st.result.state) st := .refl st
  have hstore : ∀ {st₀ node request}, Ends (run.storeOrExit ctx node request) st₀ _
    (FailsAs run ctx st) := storeOrExit_ends (fun _ _ => trivial) (.refl _)
  have hemit : ∀ {st₀ next}, Ends (run.emitInterrupts ctx next interrupted) st₀ _
    (FailsAs run ctx st) := emitInterrupts_ends interrupted (.refl _)
  unfold pauseStep
  refine bind ((routeWrites_ends _ [] hself).mono (fun _ _ h => h)
    fun _ _ h => h.doneIfCompleted) fun routed st₁ _ => ?_
  simp only [ends_bind, ends_get]
  refine ends_orFail _ (fun state _ => ?_) fun _ _ result hexit => by cases hexit
  refine hstore.mono (fun _ st₂ _ => ?_) fun _ _ h => h.doneIfCompleted
  refine hemit.mono (fun _ st₃ _ => ?_) fun _ _ h => h.doneIfCompleted
  intro result hexit
  cases hexit; exact ⟨rfl, fun hstatus => by cases hstatus⟩

theorem commitStep_completes {budgetSteps : Nat} {classified : Classified} :
    Ends (run.commitStep ctx budgetSteps classified writes) st
      (fun loop' st' => if isTerminalNextTasks loop'.nextTasks then Completes run st st'
        else st'.completions = st.completions)
      (DoneIfCompleted run st) := by
  have hself : SameRun (st.withState st.result.state) st := .refl st
  unfold commitStep
  refine bind ((((completions_closed run).applyWrites st).and (applyWrites_ends st writes
    hself)).mono (fun _ _ h => h.1) fun _ _ h => h.2.doneIfCompleted) fun _ st₁ h₁ => ?_
  split
  · exact finishParentCommand_completes.mono (fun _ _ h => h.elim) fun _ _ h => h.earlier h₁
  · split
    · refine finishStep_completes.mono (fun loop' st' h => ?_) fun _ _ h => h.earlier h₁
      split_ifs at h ⊢
      · exact h.earlier h₁
      · exact h.trans h₁
    · exact pauseStep_completes.mono (fun _ _ h => h.elim) fun _ _ h => h.earlier h₁

/-- A super-step announces completion exactly if it leaves no task to run, or ends the run with a
    command for the parent graph. -/
theorem superStep_completes (run : GraphRun σ) (loop : LoopState) (st : RunState σ) :
    Ends (run.superStep loop) st
      (fun loop' st' => if isTerminalNextTasks loop'.nextTasks then Completes run st st'
        else st'.completions = st.completions)
      (DoneIfCompleted run st) := by
  have closed := completions_closed run
  refine ends_superStep ((closed.beforeMerge fun _ _ => trivial).and (beforeMerge_ends loop st) |>.mono
    (fun _ _ h => h.1) fun _ _ h => h.2.failsAs.doneIfCompleted) fun _ st₁ hsame => ?_
  refine commitStep_completes.mono (fun loop' st' h => ?_) fun _ _ h => h.earlier hsame
  split_ifs at h ⊢
  · exact h.earlier hsame
  · exact h.trans hsame

/-! ## 3. Whole runs -/

section Runs

variable {world : World σ} {loop : LoopState} {fuel : Nat} {result : RunResult}

/-- The run has something to do: the edges or the router of START, or the checkpoint it continues,
    give it a node to execute. -/
def HasTasks (run : GraphRun σ) (world : World σ) : Prop :=
  ∃ tasks, run.firstTasks (run.identified world) = .ok tasks ∧ isTerminalNextTasks tasks = false

theorem Reaches.hasTasks (h : Reaches run world loop st)
    (hrun : isTerminalNextTasks loop.nextTasks = false) : run.HasTasks world := by
  induction h with
  | start h =>
    obtain ⟨cleaned, started⟩ := (start_ends run world).ok h
    exact ⟨_, started.nextTasks, hrun⟩
  | step _ hbefore _ ih => exact ih hbefore

theorem start_completions (h : run.start (run.initialState world) = .ok loop st) :
    st.completions = [] :=
  ((completions_closed run).start world fun _ _ => trivial).ok h

/-- Between super-steps nothing is announced as long as tasks are left; where none is left, the run
    had none to begin with or its last step completed it. -/
theorem Reaches.completions (h : Reaches run world loop st) :
    (isTerminalNextTasks loop.nextTasks = false → st.completions = []) ∧
      (isTerminalNextTasks loop.nextTasks = true →
        (run.start (run.initialState world) = .ok loop st ∨ (run.HasTasks world ∧
          ∃ st₀ : RunState σ, st₀.completions = [] ∧ Completes run st₀ st))) := by
  induction h with
  | start h => exact ⟨fun _ => start_completions h, fun _ => .inl h⟩
  | @step loop loop' st st' hbefore hrun hstep ih =>
    have hcompletes := (superStep_completes run loop st).ok hstep
    have hnone := ih.1 hrun
    refine ⟨fun hterminal => ?_, fun hterminal => .inr ?_⟩
    · rw [if_neg (by simp [hterminal])] at hcompletes; exact hcompletes.trans hnone
    · rw [if_pos hterminal] at hcompletes
      exact ⟨hbefore.hasTasks hrun, st, hnone, hcompletes⟩

theorem status_of_failRun {call : FailCall} (h : (run.failRun call st).1 = .ok result) :
    result.status = runStatusFromStatus call.status := by
  unfold failRun at h
  dsimp only at h
  split at h
  · cases h
  · rename_i failed _
    split at h
    · cases h
    · cases h
      exact congrArg RunResult.status (run.putCheckpoint_sameRun
        ((setStatus (runStatusFromStatus call.status) st).withState failed) call.request).core

theorem failRun_status {call : FailCall} (h : (run.failRun call st).1 = .ok result) :
    result.status ≠ .completed := by
  rw [status_of_failRun h, runStatusFromStatus]
  split_ifs <;> nofun

/-- The `RunCompleted` events that pass the filter: the ones that are collected and that the
    callback and the sink receive. -/
def announcements (run : GraphRun σ) (st : RunState σ) : List (RuntimeEvent × Result Unit) :=
  st.completions.filter (!run.isFiltered ·.1)

/-- The options ask for every event, or for `RunCompleted` among others. -/
def WantsCompleted (run : GraphRun σ) : Prop :=
  run.options.eventTypes = [] ∨ .runCompleted ∈ run.options.eventTypes

theorem isFiltered_eq_false_iff {event : RuntimeEvent} (htype : event.type = .runCompleted) :
    run.isFiltered event = false ↔ run.WantsCompleted := by
  simp only [isFiltered, WantsCompleted, htype, Bool.and_eq_false_iff, decide_eq_false_iff_not,
    not_not, Bool.not_eq_false', List.contains_iff_mem]

/-- The result satisfies the output schema, and one `RunCompleted` was published and accepted. -/
structure CheckedAndAnnounced (run : GraphRun σ) (result : RunResult) (st : RunState σ) : Prop where
  checked : validateStateSchema result.state run.graph.schemas.outputSchema "output" = .ok ()
  announced : ∃ event, run.announcements st = [(event, .ok ())]

theorem Completes.checkedAndAnnounced_iff {st₀ : RunState σ} (h : Completes run st₀ st)
    (hnone : st₀.completions = []) :
    CheckedAndAnnounced run st.result st ↔ run.WantsCompleted := by
  obtain ⟨event, hevent⟩ := h.announced
  rw [hnone, List.nil_append] at hevent
  have hmem : (event, .ok ()) ∈ st.log.filter (·.1.type = .runCompleted) := by
    rw [← RunState.completions, hevent]; exact List.mem_singleton_self _
  have hfilter : run.isFiltered event = false ↔ run.WantsCompleted :=
    isFiltered_eq_false_iff (of_decide_eq_true (List.mem_filter.mp hmem).2)
  rw [← hfilter]
  constructor
  · -- A filtered event leaves no announcement.
    rintro ⟨-, announced, hannounced⟩
    rw [announcements, hevent] at hannounced
    by_contra hdropped
    simp [hdropped] at hannounced
  · intro hpasses
    exact ⟨h.checked, event, by rw [announcements, hevent]; simp [hpasses]⟩

/-- Completed means checked and announced exactly for the runs that have a task to begin with and
    whose options do not leave the event out. -/
theorem completed_checked_announced_iff (h : (run.run fuel world).1 = some (.ok result))
    (hstatus : result.status = .completed) :
    CheckedAndAnnounced run result (run.run fuel world).2 ↔
      run.HasTasks world ∧ run.WantsCompleted := by
  cases returned_of_run h with
  | completed hreach hterminal heq =>
    subst heq
    rcases hreach.completions.2 hterminal with hstart | ⟨htasks, st₁, hnone, hcompletes⟩
    · -- No super-step was taken, so that nothing was announced.
      obtain ⟨cleaned, started⟩ := (start_ends run world).ok hstart
      refine iff_of_false (fun hboth => ?_) fun hwants => ?_
      · obtain ⟨event, hevent⟩ := hboth.announced
        rw [announcements, start_completions hstart] at hevent; cases hevent
      · obtain ⟨tasks, htasks, hrun⟩ := hwants.1
        cases htasks.symm.trans started.nextTasks
        rw [hterminal] at hrun; cases hrun
    · rw [hcompletes.checkedAndAnnounced_iff hnone]; exact (and_iff_right htasks).symm
  | left hleaves =>
    obtain ⟨rfl, hcompletes⟩ := (superStep_completes run _ _).error hleaves.leaves _ rfl
    have hnone := hleaves.reached.completions.1 hleaves.runnable
    rw [(hcompletes hstatus).checkedAndAnnounced_iff hnone]
    exact (and_iff_right (hleaves.reached.hasTasks hleaves.runnable)).symm
  | failed _ hanswer => exact absurd hstatus (failRun_status hanswer)

end Runs

def answerSchema : JsonSchema := fun value =>
  if (value.field (lit "answer")).isSome then .ok ()
  else .error (.invalidArgument (lit "answer is missing"))

/-- An invoke of a graph whose output must hold an answer: with one node that gives it, or with
    none, so that START leads to END. -/
def answerRun (answers : Bool) : GraphRun Unit :=
  CompiledStateGraph.invoke countingHost
    { nodes := if answers then
        [(lit "a", constantNode { update := ⟨[(lit "answer", .int 42)]⟩ })] else []
      edges := [(START, [if answers then lit "a" else END])]
      schemas := { outputSchema := some answerSchema } } .empty
    { eventTypes := [.runStarted, .runCompleted] }

theorem completed_checked_announced_of_task :
    ∃ result, ((answerRun true).run 1 { saver := () }).1 = some (.ok result) ∧
      CheckedAndAnnounced (answerRun true) result
        ((answerRun true).run 1 { saver := () }).2 := by
  have htest : (((answerRun true).run 1 { saver := () }).1.any fun answer =>
      answer.toOption.any (·.status = .completed)) = true := by
    decide +kernel
  simp only [Option.any_eq_true, decide_eq_true_eq] at htest
  obtain ⟨answer, hanswer, result, hresult, hstatus⟩ := htest
  cases answer with
  | error => cases hresult
  | ok =>
    cases hresult
    refine ⟨result, hanswer, (completed_checked_announced_iff hanswer hstatus).mpr ?_⟩
    exact ⟨⟨[{ nodeId := lit "a" }], by decide +kernel, by decide +kernel⟩,
      .inr (by decide +kernel)⟩

/-- START leads straight to END: the run returns Completed with a state that the output schema
    rejects, and announces nothing. -/
theorem completed_without_check_or_announcement :
    ∃ result, ((answerRun false).run 0 { saver := () }).1 = some (.ok result) ∧
      result.status = .completed ∧
      validateStateSchema result.state (answerRun false).graph.schemas.outputSchema "output" ≠ .ok () ∧
      ((answerRun false).run 0 { saver := () }).2.completions = [] := by
  have htest : (((answerRun false).run 0 { saver := () }).1.any fun answer =>
      answer.toOption.any fun result => result.status = .completed &&
        validateStateSchema result.state (answerRun false).graph.schemas.outputSchema "output"
          ≠ .ok () &&
        ((answerRun false).run 0 { saver := () }).2.completions.isEmpty) = true := by
    decide +kernel
  simp only [Option.any_eq_true, Bool.and_eq_true, decide_eq_true_eq, List.isEmpty_iff] at htest
  obtain ⟨answer, hanswer, result, hresult, ⟨hstatus, hschema⟩, hnone⟩ := htest
  cases answer with
  | error => cases hresult
  | ok =>
    cases hresult; exact ⟨result, hanswer, hstatus, hschema, hnone⟩

end GraphRun

end LangGraph
