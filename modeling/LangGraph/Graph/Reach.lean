import LangGraph.Graph.StepSpec

/-!
# Runs as sequences of super-steps

What the start of a run hands to the loop, the loop states a run reaches, and how the result of
`run` comes from the last of them.
-/

namespace LangGraph

open EarlyExit

variable {σ : Type}

namespace GraphRun

/-! ## 1. The start of a run -/

section Values

variable (run : GraphRun σ)

def identified (world : World σ) : RunState σ := run.assignIds (run.initialState world)

/-- The state a run begins with: a continued run drops the error entry. -/
def cleanedState : Result State :=
  if run.writeInitialCheckpoint then .ok run.state else withoutRunErrorMetadata run.state

/-- What a command makes of the state, and the values it hands to the tasks. -/
def answerOf (command : Command) (nextTasks : List CheckpointTask) (state : State) :
    Except (Bytes × Status) (State × List (Nat × Json)) :=
  match command.resume with
  | none => .error ([], .invalidArgument (lit "unsupported command"))
  | some value =>
    match resumeValues value nextTasks state with
    | .error failure => .error failure
    | .ok values =>
      match withoutInterruptMetadata state with
      | .error status => .error ([], status)
      | .ok cleaned =>
        match applyStateUpdate cleaned command.update run.options.reducers with
        | .error status => .error ([], status)
        | .ok resumed => .ok (resumed, values)

def givenAnswer (nextTasks : List CheckpointTask) (state : State) :
    Except (Bytes × Status) (State × List (Nat × Json)) :=
  match run.options.command with
  | none => .ok (state, [])
  | some command => run.answerOf command nextTasks state

/-- The first event of a run, published before anything else is done. -/
def announce (run : GraphRun σ) (world : World σ) : Result Unit × RunState σ :=
  run.emit .runStarted run.step [] (.obj []) [] (run.identified world)

/-- What a start does once the run is announced. -/
def enterRun (nextTasks : List CheckpointTask) : RunM σ LoopState := do
  run.storeInitial nextTasks
  run.cleanRunError nextTasks
  run.applyGivenCommand nextTasks
  let st ← get
  orFail (validateStateSchema st.result.state run.graph.schemas.stateSchema "state")
    (run.startFailure .stateSchema nextTasks st.result.step [])
  return { nextTasks, pendingWrites := run.pendingWrites, budgetSteps := 0 }

end Values

structure Started (run : GraphRun σ) (world : World σ) (loop : LoopState) (st : RunState σ)
    (cleaned : State) : Prop where
  nextTasks : run.firstTasks (run.identified world) = .ok loop.nextTasks
  pendingWrites : loop.pendingWrites = run.pendingWrites
  budget : loop.budgetSteps = 0
  cleaning : run.cleanedState = .ok cleaned
  answer : run.givenAnswer loop.nextTasks cleaned = .ok (st.result.state, st.resumeValuesByTask)
  core : st.core = { (run.identified world).core with state := st.result.state }

/-- A start that fails does so at the step of the run, and because of the command only with the
    command's own failure. -/
def StartFailure (run : GraphRun σ) (world : World σ) (exit : Exit) : Prop :=
  match exit with
  | .fail call => call.failedStep = run.step ∧ (call.site = .command → ∃ nextTasks cleaned node,
      run.firstTasks (run.identified world) = .ok nextTasks ∧ run.cleanedState = .ok cleaned ∧
        run.givenAnswer nextTasks cleaned = .error (node, call.status))
  | .done _ => False
  | .status _ => True

section Start

variable {run : GraphRun σ} {world : World σ} {st st₀ : RunState σ}

variable {nextTasks : List CheckpointTask}

theorem storeInitial_ends (same : SameRun st st₀) :
    Ends (run.storeInitial nextTasks) st₀ (fun _ st' => SameRun st st')
      (fun exit _ => StartFailure run world exit) := by
  unfold storeInitial
  split_ifs
  · rw [ends_bind, ends_act]
    exact ends_orExit _ (fun _ _ => same.trans (run.putCheckpoint_sameRun ..)) fun _ _ => trivial
  · exact same

theorem cleanRunError_ends (same : SameRun st st₀) (hstate : st.result.state = run.state)
    (hstep : st.result.step = run.step) :
    Ends (run.cleanRunError nextTasks) st₀
      (fun _ st' => ∃ cleaned, run.cleanedState = .ok cleaned ∧ SameRun (st.withState cleaned) st')
      (fun exit _ => StartFailure run world exit) := by
  unfold cleanRunError
  split_ifs with hinitial
  · simp only [ends_bind]
    refine ends_orFail _ (fun cleaned hcleaned => ?_) fun _ _ =>
      ⟨same.step.trans hstep, fun hsite => by cases hsite⟩
    refine ⟨cleaned, ?_, same.withState cleaned⟩
    rw [cleanedState, if_neg (by simp [hinitial]), ← hstate, ← same.state]
    exact hcleaned
  · refine ⟨run.state, by simp [cleanedState, hinitial], ?_⟩
    rw [← hstate]; exact same

theorem applyGivenCommand_ends {cleaned : State} (same : SameRun (st.withState cleaned) st₀)
    (hnone : st.resumeValuesByTask = []) (hstep : st.result.step = run.step)
    (hnext : run.firstTasks (run.identified world) = .ok nextTasks)
    (hcleaned : run.cleanedState = .ok cleaned) :
    Ends (run.applyGivenCommand nextTasks) st₀
      (fun _ st' => run.givenAnswer nextTasks cleaned
          = .ok (st'.result.state, st'.resumeValuesByTask) ∧
        st'.core = { st.core with state := st'.result.state })
      (fun exit _ => StartFailure run world exit) := by
  have hstate : st₀.result.state = cleaned := same.state
  unfold applyGivenCommand
  cases hcommand : run.options.command with
  | none =>
    rw [ends_pure, hstate, same.resumeValues]
    refine ⟨?_, same.core⟩
    rw [givenAnswer, hcommand]
    exact congrArg (fun values => Except.ok (cleaned, values)) hnone.symm
  | some command =>
    have hfail : ∀ {node : Bytes} {status : Status},
        run.answerOf command nextTasks cleaned = .error (node, status) →
        StartFailure run world
          (.fail (run.startFailure .command nextTasks st₀.result.step node status)) :=
      fun h => ⟨same.step.trans hstep, fun _ =>
        ⟨nextTasks, cleaned, _, hnext, hcleaned, by rw [givenAnswer, hcommand]; exact h⟩⟩
    unfold applyCommand
    rw [ends_bind, ends_get, hstate]
    unfold answerOf at hfail
    simp only [givenAnswer, hcommand, answerOf]
    cases hresume : command.resume with
    | none => exact hfail (by rw [hresume])
    | some value =>
      simp only [hresume] at hfail
      cases hvalues : resumeValues value nextTasks cleaned with
      | error =>
        simp only [hvalues]; exact hfail (by rw [hvalues])
      | ok =>
        simp only [hvalues, ends_bind] at hfail ⊢
        refine ends_orFail _ (fun unmarked hunmarked => ?_) fun status hstatus => ?_
        · simp only [hunmarked] at hfail ⊢
          refine ends_orFail _ (fun resumed hresumed => ?_) fun status hstatus => ?_
          · simp only [hresumed]
            refine ⟨rfl, ?_⟩
            exact (congrArg (fun core : RunResult => { core with state := resumed }) same.core :)
          · exact hfail (by rw [hstatus])
        · exact hfail (by rw [hstatus])

/-- A start returns a status before the run is announced, fails where the event is refused, or enters
    the run. -/
theorem ends_start {Q : LoopState → RunState σ → Prop} {E : Exit → RunState σ → Prop}
    (hstatus : ∀ {status st}, st = run.initialState world ∨ st = run.identified world →
      E (.status status) st)
    (hrefused : ∀ {nextTasks status},
      E (.fail (run.startFailure .runStarted nextTasks run.step [] status)) (run.announce world).2)
    (henter : ∀ {nextTasks}, run.firstTasks (run.identified world) = .ok nextTasks →
      Ends (run.enterRun nextTasks) (run.announce world).2 Q E) :
    Ends run.start (run.initialState world) Q E := by
  unfold start
  refine Ends.bind (ends_orExit _ (fun _ _ => rfl) fun _ _ => hstatus (.inl rfl)) fun _ st₁ h₁ => ?_
  subst h₁
  rw [ends_bind, ends_effect, ends_bind, ends_get]
  show Ends _ (run.identified world) _ _
  refine Ends.bind (ends_orExit _ (fun _ _ => rfl) fun _ _ => hstatus (.inr rfl)) fun _ st₂ h₂ => ?_
  subst h₂
  refine Ends.bind (P := fun next st => st = run.identified world ∧
      run.firstTasks (run.identified world) = .ok next)
    (ends_orExit _ (fun _ h => ⟨rfl, h⟩) fun _ _ => hstatus (.inr rfl)) fun nextTasks st₃ h₃ => ?_
  obtain ⟨rfl, hnext⟩ := h₃
  rw [ends_bind, ends_act, ends_bind]
  exact ends_orFail _ (fun _ _ => henter hnext) fun _ _ => hrefused

theorem announce_sameRun : SameRun (run.identified world) (run.announce world).2 :=
  (run.emit_quiet (run.identified world) .runStarted run.step [] (.obj []) []).sameRun

theorem start_ends (run : GraphRun σ) (world : World σ) :
    Ends run.start (run.initialState world)
      (fun loop st => ∃ cleaned, Started run world loop st cleaned)
      (fun exit _ => StartFailure run world exit) := by
  refine ends_start (fun _ => trivial) ⟨rfl, fun hsite => by cases hsite⟩ fun {nextTasks} hnext => ?_
  unfold enterRun
  refine (storeInitial_ends announce_sameRun).bind fun _ st₄ h₄ => ?_
  refine (cleanRunError_ends h₄ rfl rfl).bind fun _ st₅ h₅ => ?_
  obtain ⟨cleaned, hcleaned, h₅⟩ := h₅
  refine (applyGivenCommand_ends h₅ rfl rfl hnext hcleaned).bind fun _ st₆ h₆ => ?_
  have hstep : st₆.result.step = run.step :=
    (congrArg RunResult.step h₆.2 :)
  rw [ends_bind, ends_get, ends_bind]
  refine ends_orFail _ (fun _ _ => ?_) fun _ _ => ⟨hstep, fun hsite => by cases hsite⟩
  exact ⟨cleaned, hnext, rfl, rfl, hcleaned, h₆.1, h₆.2⟩

end Start

/-! ## 2. The loop -/

/-- The loop states a run reaches, each before its super-step. -/
inductive Reaches (run : GraphRun σ) (world : World σ) : LoopState → RunState σ → Prop
  | start {loop : LoopState} {st : RunState σ}
      (h : run.start (run.initialState world) = .ok loop st) : Reaches run world loop st
  | step {loop loop' : LoopState} {st st' : RunState σ} (h : Reaches run world loop st)
      (hrun : isTerminalNextTasks loop.nextTasks = false)
      (hstep : run.superStep loop st = .ok loop' st') : Reaches run world loop' st'

structure LeavesAt (run : GraphRun σ) (world : World σ) (loop : LoopState) (st : RunState σ)
    (exit : Exit) (st' : RunState σ) : Prop where
  reached : Reaches run world loop st
  runnable : isTerminalNextTasks loop.nextTasks = false
  leaves : run.superStep loop st = .error exit st'

def continueLoop (run : GraphRun σ) (fuel : Nat) (loop : LoopState) : RunM σ (Option RunResult) := do
  if ← run.runLoop fuel loop then
    let result ← run.finish
    return some result
  else return none

section Loop

variable {run : GraphRun σ} {world : World σ} {loop : LoopState} {st st' : RunState σ}

theorem continueLoop_step (hrun : isTerminalNextTasks loop.nextTasks = false) (fuel : Nat) :
    run.continueLoop (fuel + 1) loop st
      = (run.superStep loop >>= fun next => run.continueLoop fuel next) st := by
  unfold continueLoop
  rw [runLoop, if_neg (by simp [hrun]), bind_assoc]

theorem Reaches.body (h : Reaches run world loop st) :
    ∃ used, ∀ fuel, run.body (fuel + used) (run.initialState world)
      = run.continueLoop fuel loop st := by
  induction h with
  | start h => exact ⟨0, fun fuel => bind_of_ok h⟩
  | step _ hrun hstep ih =>
    obtain ⟨used, hused⟩ := ih
    refine ⟨used + 1, fun fuel => ?_⟩
    rw [show fuel + (used + 1) = fuel + 1 + used by omega, hused, continueLoop_step hrun]
    exact bind_of_ok hstep

variable {exit : Exit} {fuel : Nat}

theorem LeavesAt.body (h : LeavesAt run world loop st exit st') :
    ∃ used, ∀ fuel, run.body (fuel + used) (run.initialState world) = .error exit st' := by
  obtain ⟨used, hused⟩ := h.reached.body
  refine ⟨used + 1, fun fuel => ?_⟩
  rw [show fuel + (used + 1) = fuel + 1 + used by omega, hused, continueLoop_step h.runnable]
  exact bind_of_error h.leaves

theorem Reaches.identity (h : Reaches run world loop st) :
    ∃ state step, st.core = { (run.identified world).core with state := state, step := step } := by
  induction h with
  | start h =>
    obtain ⟨cleaned, started⟩ := (start_ends run world).ok h
    exact ⟨_, _, started.core⟩
  | @step loop loop' st st' _ hrun hstep ih =>
    obtain ⟨state, step, hcore⟩ := ih
    obtain ⟨writes, merged, committed⟩ := (superStep_ends run loop st).ok hstep
    refine ⟨merged, (stepContext loop st.result).nextStep, ?_⟩
    rw [committed.core, hcore]
    split <;> rfl

theorem Reaches.status (h : Reaches run world loop st) : st.result.status = .completed := by
  obtain ⟨state, step, hcore⟩ := h.identity
  exact (congrArg RunResult.status hcore :)

theorem finish_of_completed (h : st.result.status = .completed) :
    run.finish st = .ok st.result st := by
  unfold finish
  rw [bind_of_ok (show (get : RunM σ (RunState σ)) st = .ok st st from rfl)]
  simp only [h, ne_eq]; rfl

theorem continueLoop_terminal (hterminal : isTerminalNextTasks loop.nextTasks = true)
    (hstatus : st.result.status = .completed) (fuel : Nat) :
    run.continueLoop fuel loop st = .ok (some st.result) st := by
  have hloop : run.runLoop fuel loop st = .ok true st := by
    cases fuel <;> rw [runLoop, if_pos hterminal] <;> rfl
  rw [continueLoop, bind_of_ok hloop]
  exact bind_of_ok (finish_of_completed hstatus)

theorem continueLoop_ends (h : Reaches run world loop st) :
    Ends (run.continueLoop fuel loop) st
      (fun result st' => ∃ loop', Reaches run world loop' st' ∧ ∀ returned, result = some returned →
          isTerminalNextTasks loop'.nextTasks = true ∧ returned = st'.result)
      fun exit st' => ∃ loop st, LeavesAt run world loop st exit st' := by
  induction fuel generalizing loop st with
  | zero =>
    by_cases hterminal : isTerminalNextTasks loop.nextTasks = true
    · rw [Ends, continueLoop_terminal hterminal h.status]
      exact ⟨loop, h, fun _ hresult => ⟨hterminal, (Option.some.inj hresult).symm⟩⟩
    · rw [Ends, continueLoop, runLoop, if_neg hterminal]; exact ⟨loop, h, by simp⟩
  | succ fuel ih =>
    by_cases hterminal : isTerminalNextTasks loop.nextTasks = true
    · rw [Ends, continueLoop_terminal hterminal h.status]
      exact ⟨loop, h, fun _ hresult => ⟨hterminal, (Option.some.inj hresult).symm⟩⟩
    · have hrun := Bool.eq_false_iff.mpr hterminal
      rw [Ends, continueLoop_step hrun]
      exact Ends.bind (P := fun next st₁ => run.superStep loop st = .ok next st₁)
        (ends_self.mono (fun _ _ h => h) fun _ _ hleft => ⟨loop, st, h, hrun, hleft⟩)
        fun _ _ hstep => ih (h.step hrun hstep)

theorem body_ends (run : GraphRun σ) (world : World σ) (fuel : Nat) :
    Ends (run.body fuel) (run.initialState world)
      (fun result st' => ∃ loop', Reaches run world loop' st' ∧ ∀ returned, result = some returned →
          isTerminalNextTasks loop'.nextTasks = true ∧ returned = st'.result)
      fun exit st' => run.start (run.initialState world) = .error exit st' ∨
        ∃ loop st, LeavesAt run world loop st exit st' :=
  Ends.bind (P := fun loop st => run.start (run.initialState world) = .ok loop st)
    (ends_self.mono (fun _ _ h => h) fun _ _ h => .inl h) fun _ _ hstart =>
      (continueLoop_ends (.start hstart)).mono (fun _ _ h => h) fun _ _ h => .inr h

/-- Where the result of a run comes from. -/
inductive Returned (run : GraphRun σ) (world : World σ) (fuel : Nat) (result : RunResult) :
    RunState σ → Prop
  | completed {loop : LoopState} {st : RunState σ} (reached : Reaches run world loop st)
      (terminal : isTerminalNextTasks loop.nextTasks = true) (eq : result = st.result) :
      Returned run world fuel result st
  | left {loop : LoopState} {st st' : RunState σ}
      (leaves : LeavesAt run world loop st (.done result) st') : Returned run world fuel result st'
  | failed {call : FailCall} {st st' : RunState σ}
      (body : run.body fuel (run.initialState world) = .error (.fail call) st)
      (answer : (run.failRun call st).1 = .ok result) (after : st' = (run.failRun call st).2) :
      Returned run world fuel result st'

theorem returned_of_run {result : RunResult} (h : (run.run fuel world).1 = some (.ok result)) :
    Returned run world fuel result (run.run fuel world).2 := by
  have hends := body_ends run world fuel
  unfold GraphRun.run at h ⊢
  cases hbody : run.body fuel (run.initialState world) with
  | ok =>
    rw [hbody] at h
    obtain ⟨_, rfl, heq⟩ := Option.map_eq_some_iff.mp h
    obtain ⟨loop, hreach, hreturned⟩ := hends.ok hbody
    obtain ⟨hterminal, rfl⟩ := hreturned _ rfl
    exact .completed hreach hterminal (Except.ok.inj heq).symm
  | error exit =>
    rw [hbody] at h
    cases exit with
    | fail => exact .failed hbody (Option.some.inj h) rfl
    | status => cases h
    | done =>
      cases h
      rcases hends.error hbody with hstart | ⟨loop, st₀, hleaves⟩
      · exact ((start_ends run world).error hstart).elim
      · exact .left hleaves

end Loop

/-! ## 3. Evaluating runs -/

/-- The first super-step leaves the run as the test says. -/
def firstStepLeaves (run : GraphRun σ) (world : World σ)
    (test : LoopState → RunState σ → Exit → RunState σ → Bool) : Bool :=
  match run.start (run.initialState world) with
  | .error _ _ => false
  | .ok loop st =>
    !isTerminalNextTasks loop.nextTasks &&
      match run.superStep loop st with
      | .error exit st' => test loop st exit st'
      | .ok _ _ => false

variable {run : GraphRun σ} {world : World σ}

theorem leavesAt_of_firstStepLeaves {test : LoopState → RunState σ → Exit → RunState σ → Bool}
    (h : run.firstStepLeaves world test = true) :
    ∃ loop st exit st', LeavesAt run world loop st exit st' ∧ test loop st exit st' = true := by
  unfold firstStepLeaves at h
  cases hstart : run.start (run.initialState world) with
  | error => simp [hstart] at h
  | ok loop st =>
    simp only [hstart, Bool.and_eq_true, Bool.not_eq_true'] at h
    obtain ⟨hrun, htest⟩ := h
    cases hstep : run.superStep loop st with
    | ok => simp [hstep] at htest
    | error exit st' =>
      rw [hstep] at htest
      exact ⟨loop, st, exit, st', ⟨.start hstart, hrun, hstep⟩, htest⟩

/-- The first super-step returns a result the test accepts. -/
def firstStepReturns (run : GraphRun σ) (world : World σ)
    (test : LoopState → RunState σ → RunResult → RunState σ → Bool) : Bool :=
  run.firstStepLeaves world fun loop st exit st' => match exit with
    | .done result => test loop st result st'
    | _ => false

theorem leavesAt_of_firstStepReturns
    {test : LoopState → RunState σ → RunResult → RunState σ → Bool}
    (h : run.firstStepReturns world test = true) :
    ∃ loop st result st', LeavesAt run world loop st (.done result) st' ∧
      test loop st result st' = true := by
  obtain ⟨loop, st, exit, st', hleaves, htest⟩ := leavesAt_of_firstStepLeaves h
  cases exit with
  | done result => exact ⟨loop, st, result, st', hleaves, htest⟩
  | fail | status => cases htest

end GraphRun

def constantNode (output : NodeOutput) : NodeSpec where
  handler := fun _ _ => .returned (.ok output) [] false

def failingNode (status : Status) : NodeSpec where
  handler := fun _ _ => .returned (.error status) [] false

def countingHost : Host where
  json := plainJson
  clock := fun n => n

end LangGraph
