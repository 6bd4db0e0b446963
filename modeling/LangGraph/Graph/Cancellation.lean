import LangGraph.Graph.Dispatch
import LangGraph.Graph.Subgraph

/-!
# Cancellation of nested runs

A run looks at its own cancellation token before every super-step.  The options of a child run are
those of the subgraph's registration, so its loop looks at the token given there and never at the
one of the run it is part of.
-/

namespace LangGraph

open EarlyExit

variable {σ : Type}

namespace GraphRun

/-! ## 1. Nested runs -/

/-- The iteration gets past its checks and events and hands its tasks to `dispatchExecutions`. -/
def dispatches (run : GraphRun σ) (loop : LoopState) (st : RunState σ) : Bool :=
  match run.enterStep loop (stepContext loop st.result) st with
  | .error _ _ => false
  | .ok _ st' =>
    match run.emitNodeStarted (stepContext loop st.result) (stepContext loop st.result).activeTasks
        st' with
    | .error _ _ => false
    | .ok _ _ => true

/-- A call of a handler: the step, the position of the task and the attempt. -/
structure CallSite where
  step : Nat
  index : Nat
  attempt : Nat
deriving DecidableEq

section Calls

variable (run : GraphRun σ) (spec : NodeSpec) (input : State) (runtime : Nat → Runtime)
  (step index : Nat)

/-- The attempts at which the retry loop calls the handler. -/
inductive Calls : Nat → Prop
  | first (h : run.options.cancellationToken (.attempt (runtime 1).runId step index 1) = .ok ()) :
      Calls 1
  | retry {attempt : Nat} {status : Status} (h : Calls attempt)
      (hfailed : handlerResult "node handler" spec.options.hasTimeout
        (spec.handler input (runtime attempt)) = .error status)
      (hleft : attempt < max 1 spec.options.maxAttempts)
      (hwait : 0 < spec.options.retryDelay attempt →
        run.options.cancellationToken (.wait (runtime attempt).runId step index attempt) = .ok ())
      (hcheck : run.options.cancellationToken
        (.attempt (runtime (attempt + 1)).runId step index (attempt + 1)) = .ok ()) :
      Calls (attempt + 1)

end Calls

/-- What `addSubgraph` was called with for the nodes of each graph. -/
abbrev Registrations (σ : Type) := StateGraph → Bytes → Option (SubgraphHost σ × Subgraph σ)

/-- No subgraph was registered with a cancellation token of its own. -/
def Registrations.NoTokens (added : Registrations σ) : Prop :=
  ∀ graph node env subgraph, added graph node = some (env, subgraph) →
    ∀ point, subgraph.options.options.cancellationToken point = .ok ()

/-- The runs that take place inside a run, each with the calls that lead to it. -/
inductive Nests (added : Registrations σ) (top : GraphRun σ) (world : World σ) :
    List CallSite → GraphRun σ → World σ → Prop
  | outermost : Nests added top world [] top world
  | child {path : List CallSite} {run : GraphRun σ} {within : World σ} {loop : LoopState}
      {st : RunState σ} {index attempt : Nat} {task : CheckpointTask} {spec : NodeSpec}
      {env : SubgraphHost σ} {subgraph : Subgraph σ}
      (h : Nests added top world path run within) (hreach : Reaches run within loop st)
      (hrun : isTerminalNextTasks loop.nextTasks = false) (hdispatch : run.dispatches loop st = true)
      (htask : (stepContext loop st.result).activeTasks[index]? = some task)
      (htaken : ¬ run.Rejected st.result.runId (stepContext loop st.result).activeTasks.length
        (stepContext loop st.result).nextStep index)
      (hnode : OrderedMap.find task.nodeId run.graph.nodes = some spec)
      (hadded : added run.graph task.nodeId = some (env, subgraph))
      (hsubgraph : spec.handler = makeSubgraphNodeHandler env subgraph)
      (hcall : Calls run spec (task.state.getD st.result.state)
        (runtimeFor st.result task (OrderedMap.find index st.resumeValuesByTask)
          (stepContext loop st.result).nextStep index)
        (stepContext loop st.result).nextStep index attempt) :
      Nests added top world (path ++ [⟨(stepContext loop st.result).nextStep, index, attempt⟩])
        (childRun env subgraph (task.state.getD st.result.state)
          (runtimeFor st.result task (OrderedMap.find index st.resumeValuesByTask)
            (stepContext loop st.result).nextStep index attempt))
        (env.world (runtimeFor st.result task (OrderedMap.find index st.resumeValuesByTask)
          (stepContext loop st.result).nextStep index attempt))

/-- `cancelled path point`: the token of the outermost run has been cancelled by the time the run at
    `path` gets to `point`. -/
abbrev Signal := List CallSite → CancelPoint → Prop

def Signal.Watched (cancelled : Signal) (top : GraphRun σ) : Prop :=
  ∀ point, top.options.cancellationToken point = .ok () ↔ ¬ cancelled [] point

/-- An iteration of the run at `path` that begins after the cancellation. -/
structure BeginsCancelled (added : Registrations σ) (top : GraphRun σ) (world : World σ)
    (cancelled : Signal) (path : List CallSite) (run : GraphRun σ) (loop : LoopState)
    (st : RunState σ) : Prop where
  nested : ∃ within, Nests added top world path run within ∧ Reaches run within loop st
  runnable : isTerminalNextTasks loop.nextTasks = false
  signalled : cancelled path (.superStep st.result.runId (stepContext loop st.result).nextStep)

/-! ## 2. What the loops look at -/

section Loops

variable {added : Registrations σ} {top run : GraphRun σ} {world : World σ} {path : List CallSite}
  {loop : LoopState} {st : RunState σ}

theorem enterStep_eq (ctx : StepContext) :
    run.enterStep loop ctx st
      = (orFail (run.options.cancellationToken (.superStep st.result.runId ctx.nextStep))
          (ctx.failAll .cancelled ctx.failureNode) >>= fun _ =>
        orFail (consumeStep run.options.limits loop.budgetSteps)
          (ctx.failAll .budget ctx.failureNode) : RunM σ Nat) st := rfl

theorem dispatches_of_cancelled {status : Status}
    (h : run.options.cancellationToken (.superStep st.result.runId (stepContext loop st.result).nextStep)
      = .error status) : run.dispatches loop st = false := by
  unfold dispatches
  rw [enterStep_eq, h]; rfl

/-- The step is within the budget and its `node_started` events are accepted. -/
def MayDispatch (run : GraphRun σ) (loop : LoopState) (st : RunState σ) : Prop :=
  (∃ budget, consumeStep run.options.limits loop.budgetSteps = .ok budget) ∧
    ∃ st', run.emitNodeStarted (stepContext loop st.result) (stepContext loop st.result).activeTasks st
      = .ok () st'

theorem dispatches_iff
    (h : run.options.cancellationToken (.superStep st.result.runId (stepContext loop st.result).nextStep)
      = .ok ()) : run.dispatches loop st = true ↔ run.MayDispatch loop st := by
  unfold dispatches MayDispatch
  rw [enterStep_eq, h]
  cases hbudget : consumeStep run.options.limits loop.budgetSteps with
  | error =>
    show false = true ↔ _; simp
  | ok =>
    show (match run.emitNodeStarted _ _ st with | .error _ _ => false | .ok _ _ => true) = true ↔ _
    cases hevents : run.emitNodeStarted (stepContext loop st.result)
        (stepContext loop st.result).activeTasks st with
    | error | ok => simp

theorem Nests.eq_top {within : World σ} (h : Nests added top world [] run within) : run = top := by
  generalize hpath : ([] : List CallSite) = path at h
  cases h with
  | outermost => rfl
  | child => simp at hpath

theorem Nests.token_of_child {within : World σ} (htokens : added.NoTokens)
    (h : Nests added top world path run within) (hchild : path ≠ []) (point : CancelPoint) :
    run.options.cancellationToken point = .ok () := by
  cases h with
  | outermost => exact absurd rfl hchild
  | child _ _ _ _ _ _ _ hadded => exact htokens _ _ _ _ hadded point

end Loops

/-! ## 3. Cancelling the outermost run -/

/-- No iteration that begins after the cancellation is dispatched, at any depth, exactly if no
    iteration of a child run that may dispatch begins after it.  The outermost run always stops. -/
theorem cancellation_stops_iff {added : Registrations σ} {top : GraphRun σ} {world : World σ}
    {cancelled : Signal} (hwatched : cancelled.Watched top) (htokens : added.NoTokens) :
    (∀ path run loop st, BeginsCancelled added top world cancelled path run loop st →
      run.dispatches loop st = false) ↔
    ∀ path run loop st, path ≠ [] → BeginsCancelled added top world cancelled path run loop st →
      ¬ run.MayDispatch loop st := by
  constructor
  · intro hstops path run loop st hchild hbegins hmay
    obtain ⟨within, hnests, -⟩ := hbegins.nested
    have hdispatches := (dispatches_iff (hnests.token_of_child htokens hchild _)).mpr hmay
    rw [hstops path run loop st hbegins] at hdispatches; cases hdispatches
  · intro hmay path run loop st hbegins
    obtain ⟨within, hnests, -⟩ := hbegins.nested
    by_cases hchild : path = []
    · -- the outermost run looks at the token itself
      subst hchild
      obtain rfl := hnests.eq_top
      have hsignal := hbegins.signalled
      cases htoken : run.options.cancellationToken
          (.superStep st.result.runId (stepContext loop st.result).nextStep) with
      | error status => exact dispatches_of_cancelled htoken
      | ok _ => exact absurd hsignal ((hwatched _).mp htoken)
    · rw [← Bool.not_eq_true]
      intro hdispatches
      exact hmay path run loop st hchild hbegins
        ((dispatches_iff (hnests.token_of_child htokens hchild _)).mp hdispatches)

/-! ## 4. Cancelling before and during a call -/

def workerChild : Subgraph Unit where
  graph := {
    nodes := [(lit "n", { handler := fun _ _ => .returned (.ok {}) [] false })]
    edges := [(START, [lit "n"])] }

def workerHost : SubgraphHost Unit where
  host := countingHost
  world := fun _ => { saver := () }
  fuel := 2

def workerAdded : Registrations Unit := fun _ node =>
  if node = lit "s" then some (workerHost, workerChild) else none

theorem workerAdded_noTokens : workerAdded.NoTokens := by
  intro graph node env subgraph hadded point
  unfold workerAdded at hadded
  split_ifs at hadded
  cases hadded; rfl

/-- A run of the child and then of a plain node, with the given token. -/
def nestingRun (cancellationToken : CancelPoint → Result Unit) : GraphRun Unit :=
  CompiledStateGraph.invoke countingHost {
      nodes := [(lit "s", subgraphNode workerHost workerChild), (lit "t", constantNode {})]
      edges := [(START, [lit "s"]), (lit "s", [lit "t"])] }
    .empty { runId := lit "r", threadId := lit "t", cancellationToken := cancellationToken }

def operationCancelled : Status := .cancelled (lit "operation cancelled")

/-- Cancelled while the node `s` of the first super-step is at work. -/
def duringFirstCall (path : List CallSite) (point : CancelPoint) : Bool :=
  match point with
  | .superStep _ step | .attempt _ step _ _ | .wait _ step _ _ => path ≠ [] || 1 < step

def interruptedRun : GraphRun Unit :=
  nestingRun fun point => if duringFirstCall [] point then .error operationCancelled else .ok ()

/-- Cancelled between the first super-step and the second one. -/
def afterFirstStep (path : List CallSite) (point : CancelPoint) : Bool :=
  match path with
  | [] => duringFirstCall [] point
  | site :: _ => 1 < site.step

theorem watched_of_outermost {cancelled : List CallSite → CancelPoint → Bool}
    (h : ∀ point, cancelled [] point = duringFirstCall [] point) :
    Signal.Watched (fun path point => cancelled path point = true) interruptedRun := by
  intro point
  show (if duringFirstCall [] point = true then _ else _) = _ ↔ ¬ cancelled [] point = true
  rw [h]
  split_ifs with hcancelled
  · simp [hcancelled]
  · simp [hcancelled]

/-- Evaluates the run up to its second iteration, behind the end of the child. -/
def secondStepBegins : Bool :=
  match interruptedRun.start (interruptedRun.initialState { saver := () }) with
  | .error _ _ => false
  | .ok loop st =>
    !isTerminalNextTasks loop.nextTasks &&
    match interruptedRun.superStep loop st with
    | .error _ _ => false
    | .ok next st' =>
      !isTerminalNextTasks next.nextTasks && decide ((stepContext next st'.result).nextStep = 2)

/-- Cancelled after the child has finished, the run dispatches nothing any more, at any depth. -/
theorem cancellation_stops_of_finished_child :
    Signal.Watched (fun path point => afterFirstStep path point = true) interruptedRun ∧
    (∃ loop st, BeginsCancelled workerAdded interruptedRun { saver := () }
      (fun path point => afterFirstStep path point = true) [] interruptedRun loop st) ∧
    ∀ path run loop st, BeginsCancelled workerAdded interruptedRun { saver := () }
      (fun path point => afterFirstStep path point = true) path run loop st →
      run.dispatches loop st = false := by
  have hwatched : Signal.Watched (fun path point => afterFirstStep path point = true)
    interruptedRun := watched_of_outermost fun _ => rfl
  refine ⟨hwatched, ?_, (cancellation_stops_iff hwatched workerAdded_noTokens).mpr ?_⟩
  · have h : secondStepBegins = true := by decide +kernel
    unfold secondStepBegins at h
    split at h
    · cases h
    · rename_i loop st hstart
      rw [Bool.and_eq_true, Bool.not_eq_true'] at h
      obtain ⟨hrun, h⟩ := h
      split at h
      · cases h
      · rename_i next st' hnext
        simp only [Bool.and_eq_true, Bool.not_eq_true', decide_eq_true_eq] at h
        refine ⟨next, st', ⟨_, .outermost, .step (.start hstart) hrun hnext⟩, h.1, ?_⟩
        rw [h.2]; rfl
  · intro path run loop st hchild hbegins
    obtain ⟨within, hnests, -⟩ := hbegins.nested
    -- the outermost run calls the child in its first super-step only
    have hfirst : ∀ {path run within}, Nests workerAdded interruptedRun { saver := () } path run
        within → ∀ site ∈ path.head?, ¬ 1 < site.step := by
      intro path run within h
      induction h with
      | outermost => exact fun site hsite => by cases hsite
      | @child path _ _ loop st _ _ _ _ _ _ h _ _ hdispatch _ _ _ _ _ _ ih =>
        intro site hsite hlate
        cases path with
        | nil =>
          obtain rfl := h.eq_top
          cases hsite
          have hcancelled : duringFirstCall [] (.superStep st.result.runId
              (stepContext loop st.result).nextStep) = true := decide_eq_true hlate
          rw [dispatches_of_cancelled (if_pos hcancelled)] at hdispatch; cases hdispatch
        | cons => exact ih site hsite hlate
    cases path with
    | nil => exact absurd rfl hchild
    | cons site => exact absurd (of_decide_eq_true hbegins.signalled) (hfirst hnests site rfl)

/-- The context of the call of `s`, given the state of the run before its first super-step. -/
def firstContext (loop : LoopState) (st : RunState Unit) (task : CheckpointTask) : Runtime :=
  runtimeFor st.result task (OrderedMap.find 0 st.resumeValuesByTask)
    (stepContext loop st.result).nextStep 0 1

def firstChild (loop : LoopState) (st : RunState Unit) (task : CheckpointTask) : GraphRun Unit :=
  childRun workerHost workerChild (task.state.getD st.result.state) (firstContext loop st task)

theorem firstChild_nests {loop : LoopState} {st : RunState Unit} {task : CheckpointTask}
    (hstart : interruptedRun.start (interruptedRun.initialState { saver := () }) = .ok loop st)
    (hrun : isTerminalNextTasks loop.nextTasks = false)
    (hdispatch : interruptedRun.dispatches loop st = true)
    (htasks : (stepContext loop st.result).activeTasks = [task]) (hnode : task.nodeId = lit "s")
    (hstep : (stepContext loop st.result).nextStep = 1) :
    Nests workerAdded interruptedRun { saver := () }
      [⟨(stepContext loop st.result).nextStep, 0, 1⟩] (firstChild loop st task) { saver := () } := by
  have hspec : OrderedMap.find task.nodeId interruptedRun.graph.nodes
      = some (subgraphNode workerHost workerChild) := by
    rw [hnode]; rfl
  have hadded : workerAdded interruptedRun.graph task.nodeId = some (workerHost, workerChild) := by
    rw [hnode]; rfl
  have htaken : ¬ interruptedRun.Rejected st.result.runId
      (stepContext loop st.result).activeTasks.length (stepContext loop st.result).nextStep 0 := by
    rw [htasks]; exact fun hrejected => hrejected.1 (batchSize_one Nat.one_pos)
  refine .child .outermost (.start hstart) hrun hdispatch (by rw [htasks]; rfl) htaken hspec hadded
    rfl (.first ?_)
  rw [hstep]; rfl

/-- Evaluates the run up to the first iteration of the child. -/
def childDispatches : Bool :=
  match interruptedRun.start (interruptedRun.initialState { saver := () }) with
  | .error _ _ => false
  | .ok loop st =>
    !isTerminalNextTasks loop.nextTasks && interruptedRun.dispatches loop st &&
    decide ((stepContext loop st.result).nextStep = 1) &&
    match (stepContext loop st.result).activeTasks with
    | [task] =>
      decide (task.nodeId = lit "s") &&
      match (firstChild loop st task).start ((firstChild loop st task).initialState { saver := () }) with
      | .error _ _ => false
      | .ok childLoop childSt =>
        !isTerminalNextTasks childLoop.nextTasks && (firstChild loop st task).dispatches childLoop childSt
    | _ => false

theorem childDispatches_spec (h : childDispatches = true) :
    ∃ path run loop st, BeginsCancelled workerAdded interruptedRun { saver := () }
      (fun path point => duringFirstCall path point = true) path run loop st ∧
      run.dispatches loop st = true := by
  unfold childDispatches at h
  split at h
  · cases h
  · rename_i loop st hstart
    simp only [Bool.and_eq_true, Bool.not_eq_true', decide_eq_true_eq] at h
    obtain ⟨⟨⟨hrun, hdispatch⟩, hstep⟩, h⟩ := h
    split at h
    · rename_i task htasks
      rw [Bool.and_eq_true, decide_eq_true_eq] at h
      have hnests := firstChild_nests hstart hrun hdispatch htasks h.1 hstep
      have h := h.2
      split at h
      · cases h
      · rename_i childLoop childSt hchild
        rw [Bool.and_eq_true, Bool.not_eq_true'] at h
        exact ⟨_, _, childLoop, childSt, ⟨⟨_, hnests, .start hchild⟩, h.1, rfl⟩, h.2⟩
    · cases h

/-- The child starts a super-step although the outermost run has been cancelled. -/
theorem cancelled_child_dispatches :
    Signal.Watched (fun path point => duringFirstCall path point = true) interruptedRun ∧
    workerAdded.NoTokens ∧
    ∃ path run loop st, BeginsCancelled workerAdded interruptedRun { saver := () }
      (fun path point => duringFirstCall path point = true) path run loop st ∧
      run.dispatches loop st = true := by
  exact ⟨watched_of_outermost fun _ => rfl, workerAdded_noTokens,
    childDispatches_spec (by decide +kernel)⟩

end GraphRun

end LangGraph
