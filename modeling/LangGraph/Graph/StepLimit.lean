import LangGraph.Graph.Cancellation
import LangGraph.Graph.Completion
import LangGraph.Graph.Failure
import LangGraph.Graph.StepPlan

/-!
# The step limit

A run consumes one step of its budget before each super-step, so a graph with cycles comes to an end.
Whether it ended because of the limit is read off the status of the failure, by its code and a part
of its message; a failure of another origin with such a status is taken for a spent budget.
-/

namespace LangGraph

open EarlyExit ExceptList

variable {σ : Type}

namespace GraphRun

/-! ## 1. The budget of a run -/

/-- The run has used its steps up and one more would begin. -/
structure RunsOut (run : GraphRun σ) (world : World σ) (limit : Nat) (loop : LoopState)
    (st : RunState σ) : Prop where
  reached : Reaches run world loop st
  runnable : isTerminalNextTasks loop.nextTasks = false
  spent : loop.budgetSteps = limit
  goesOn : run.options.cancellationToken
    (.superStep st.result.runId (stepContext loop st.result).nextStep) = .ok ()
  inTime : run.options.limits.duration limit = .ok ()

def beyondLimit (limit : Nat) (loop : LoopState) (st : RunState σ) : FailCall :=
  (stepContext loop st.result).failAll .budget (stepContext loop st.result).failureNode
    (maxStepsExceeded limit)

/-- The failures a run meets at other places than its budget: at its start, at its cancellation token
    or in a super-step that was entered. -/
inductive FailsElsewhere (run : GraphRun σ) (world : World σ) : FailCall → Prop
  | start {call : FailCall} {st : RunState σ}
      (h : run.start (run.initialState world) = .error (.fail call) st) : FailsElsewhere run world call
  | cancelled {loop : LoopState} {st : RunState σ} {status : Status} (h : Reaches run world loop st)
      (hrun : isTerminalNextTasks loop.nextTasks = false)
      (htoken : run.options.cancellationToken
        (.superStep st.result.runId (stepContext loop st.result).nextStep) = .error status) :
      FailsElsewhere run world ((stepContext loop st.result).failAll .cancelled
        (stepContext loop st.result).failureNode status)
  | entered {loop : LoopState} {st st₁ st' : RunState σ} {after : Nat} {call : FailCall}
      (h : LeavesAt run world loop st (.fail call) st')
      (henter : run.enterStep loop (stepContext loop st.result) st = .ok after st₁) :
      FailsElsewhere run world call

variable {run : GraphRun σ} {world : World σ} {loop loop' : LoopState} {st st' : RunState σ}
  {limit fuel : Nat}

theorem consumeStep_ok {limits : ResourceLimits} {steps after : Nat}
    (h : consumeStep limits steps = .ok after) (hlimit : limits.maxSteps = some limit) :
    after = steps + 1 ∧ steps < limit := by
  obtain ⟨_, _, h⟩ := of_bind h
  rw [hlimit] at h
  dsimp only at h
  split_ifs at h with hover
  exact ⟨(Except.ok.inj h).symm, by omega⟩

variable (hlimit : run.options.limits.maxSteps = some limit)

include hlimit

theorem budget_of_enterStep {after : Nat}
    (h : run.enterStep loop (stepContext loop st.result) st = .ok after st') :
    after = loop.budgetSteps + 1 ∧ loop.budgetSteps < limit := by
  rw [enterStep_eq] at h
  obtain ⟨_, st₁, _, h⟩ := bind_ok h
  cases hconsume : consumeStep run.options.limits loop.budgetSteps with
  | error => rw [hconsume] at h; cases h
  | ok =>
    rw [hconsume] at h
    cases h; exact consumeStep_ok hconsume hlimit

theorem budget_of_superStep (h : run.superStep loop st = .ok loop' st') :
    loop'.budgetSteps = loop.budgetSteps + 1 ∧ loop.budgetSteps < limit := by
  obtain ⟨planned, hplan, follow⟩ := (superStep_does run loop st).ok h
  obtain ⟨steps, hsteps, hplan⟩ := of_bind hplan
  obtain ⟨_, _, hplan⟩ := of_bind hplan
  obtain ⟨_, _, hplan⟩ := of_bind hplan
  obtain ⟨_, _, hplan⟩ := of_bind hplan
  obtain ⟨_, _, hplan⟩ := of_bind hplan
  rw [follow.loop, ← Except.ok.inj hplan]
  obtain ⟨after, st₁, henter, _⟩ := bind_ok (show (run.enterStep loop (stepContext loop st.result) >>=
    fun _ => _ : RunM σ LoopState) st = _ from h)
  obtain ⟨_, hafter, rfl, _⟩ := (enterStep_does loop rfl).ok henter
  obtain rfl := Except.ok.inj (hsteps.symm.trans hafter)
  exact budget_of_enterStep hlimit henter

theorem Reaches.budget_le (h : Reaches run world loop st) : loop.budgetSteps ≤ limit := by
  cases h with
  | start h =>
    obtain ⟨_, started⟩ := (start_ends run world).ok h
    exact started.budget ▸ Nat.zero_le _
  | step _ _ hstep =>
    obtain ⟨hnext, hlt⟩ := budget_of_superStep hlimit hstep
    omega

/-- The budget counts the super-steps that led to a loop state. -/
theorem Reaches.body_budget (h : Reaches run world loop st) (fuel : Nat) :
    run.body (fuel + loop.budgetSteps) (run.initialState world) = run.continueLoop fuel loop st := by
  induction h generalizing fuel with
  | start h =>
    obtain ⟨_, started⟩ := (start_ends run world).ok h
    rw [started.budget]; exact bind_of_ok h
  | step _ hrun hstep ih =>
    rw [(budget_of_superStep hlimit hstep).1, show ∀ n, fuel + (n + 1) = fuel + 1 + n by omega, ih,
      continueLoop_step hrun]
    exact bind_of_ok hstep

omit hlimit

/-! ## 2. Where a run is left -/

def Steps (run : GraphRun σ) (a b : LoopState × RunState σ) : Prop :=
  isTerminalNextTasks a.1.nextTasks = false ∧ run.superStep a.1 a.2 = .ok b.1 b.2

theorem steps_rightUnique : Relator.RightUnique run.Steps := by
  rintro a ⟨loop, st⟩ ⟨loop', st'⟩ ⟨_, hb⟩ ⟨_, hc⟩
  cases hb.symm.trans hc; rfl

theorem Reaches.steps (h : Reaches run world loop st) :
    ∃ loop₀ st₀, run.start (run.initialState world) = .ok loop₀ st₀ ∧
      Relation.ReflTransGen run.Steps (loop₀, st₀) (loop, st) := by
  induction h with
  | start h => exact ⟨_, _, h, .refl⟩
  | step _ hrun hstep ih =>
    obtain ⟨loop₀, st₀, hstart, hsteps⟩ := ih
    exact ⟨loop₀, st₀, hstart, hsteps.tail ⟨hrun, hstep⟩⟩

theorem LeavesAt.stays {exit : Exit} {st₁ : RunState σ} {a : LoopState × RunState σ}
    (h : LeavesAt run world loop st exit st₁) (hsteps : Relation.ReflTransGen run.Steps (loop, st) a) :
    a = (loop, st) := by
  rcases hsteps.cases_head with heq | ⟨b, ⟨_, hb⟩, _⟩
  · exact heq.symm
  · cases h.leaves.symm.trans hb

/-- A run is left in one loop state only. -/
theorem LeavesAt.unique {exit exit' : Exit} {st₁ st₁' : RunState σ}
    (h : LeavesAt run world loop st exit st₁) (h' : LeavesAt run world loop' st' exit' st₁') :
    loop = loop' ∧ st = st' := by
  obtain ⟨loop₀, st₀, hstart, hsteps⟩ := h.reached.steps
  obtain ⟨loop₀', st₀', hstart', hsteps'⟩ := h'.reached.steps
  cases hstart.symm.trans hstart'
  rcases hsteps.total_of_right_unique steps_rightUnique hsteps' with hlater | hlater
  · cases h.stays hlater; exact ⟨rfl, rfl⟩
  · cases h'.stays hlater; exact ⟨rfl, rfl⟩

theorem enterStep_of_token {status : Status} (htoken : run.options.cancellationToken
      (.superStep st.result.runId (stepContext loop st.result).nextStep) = .error status) :
    run.enterStep loop (stepContext loop st.result) st
      = .error (.fail ((stepContext loop st.result).failAll .cancelled
          (stepContext loop st.result).failureNode status)) st := by
  rw [enterStep_eq, htoken]; rfl

theorem enterStep_of_consume {status : Status} (htoken : run.options.cancellationToken
      (.superStep st.result.runId (stepContext loop st.result).nextStep) = .ok ())
    (hconsume : consumeStep run.options.limits loop.budgetSteps = .error status) :
    run.enterStep loop (stepContext loop st.result) st
      = .error (.fail ((stepContext loop st.result).failAll .budget
          (stepContext loop st.result).failureNode status)) st := by
  rw [enterStep_eq, htoken, hconsume]; rfl

theorem leavesAt_of_enterStep {exit : Exit} (h : Reaches run world loop st)
    (hrun : isTerminalNextTasks loop.nextTasks = false)
    (henter : run.enterStep loop (stepContext loop st.result) st = .error exit st') :
    LeavesAt run world loop st exit st' :=
  ⟨h, hrun, (bind_of_error henter :
    (run.enterStep loop (stepContext loop st.result) >>= fun _ => _ : RunM σ LoopState) st = _)⟩

include hlimit

theorem RunsOut.leaves (h : RunsOut run world limit loop st) :
    LeavesAt run world loop st (.fail (beyondLimit limit loop st)) st := by
  refine leavesAt_of_enterStep h.reached h.runnable (enterStep_of_consume h.goesOn ?_)
  rw [consumeStep, h.spent, h.inTime, hlimit]; exact if_pos (Nat.lt_succ_self _)

theorem LeavesAt.body_of_limit {exit : Exit} {st₁ : RunState σ}
    (h : LeavesAt run world loop st exit st₁) (hfuel : limit < fuel) :
    run.body fuel (run.initialState world) = .error exit st₁ := by
  have hle := h.reached.budget_le hlimit
  obtain ⟨more, rfl⟩ : ∃ more, fuel = more + 1 + loop.budgetSteps :=
    ⟨fuel - loop.budgetSteps - 1, by omega⟩
  rw [h.reached.body_budget hlimit, continueLoop_step h.runnable]
  exact bind_of_error h.leaves

/-- A failure elsewhere ends the run, and then its budget is not what ends it. -/
theorem FailsElsewhere.body {call : FailCall} (h : FailsElsewhere run world call)
    (hfuel : limit < fuel) :
    (∃ st, run.body fuel (run.initialState world) = .error (.fail call) st) ∧
      ¬ ∃ loop st, RunsOut run world limit loop st := by
  cases h with
  | start h =>
    refine ⟨⟨_, bind_of_error h⟩, fun ⟨loop, st, hout⟩ => ?_⟩
    obtain ⟨_, _, hstart, _⟩ := hout.reached.steps
    cases h.symm.trans hstart
  | cancelled h hrun htoken =>
    have hleaves := leavesAt_of_enterStep h hrun (enterStep_of_token htoken)
    refine ⟨⟨_, hleaves.body_of_limit hlimit hfuel⟩, fun ⟨loop, st, hout⟩ => ?_⟩
    obtain ⟨rfl, rfl⟩ := hleaves.unique (hout.leaves hlimit)
    cases htoken.symm.trans hout.goesOn
  | entered h henter =>
    refine ⟨⟨_, h.body_of_limit hlimit hfuel⟩, fun ⟨loop, st, hout⟩ => ?_⟩
    obtain ⟨rfl, rfl⟩ := h.unique (hout.leaves hlimit)
    exact absurd hout.spent (Nat.ne_of_lt (budget_of_enterStep hlimit henter).2)

omit hlimit

end GraphRun

end LangGraph
