import LangGraph.Graph.Reach

/-!
# Invariants of whole runs

Everything a super-step does to the run is publishing events, storing checkpoints under the number
of the step, and changing the state being computed.  A relation that these three respect holds
between the states before and after any stage, so an invariant of a run needs one lemma for each
of the three.
-/

namespace LangGraph

open EarlyExit

variable {σ : Type}

/-- `st'` differs from `st` in the state being computed and the resume values only. -/
structure Internal (st st' : RunState σ) : Prop where
  runId : st'.result.runId = st.result.runId
  threadId : st'.result.threadId = st.result.threadId
  checkpointNamespace : st'.result.checkpointNamespace = st.result.checkpointNamespace
  events : st'.result.events = st.result.events
  parent : st'.parentCheckpointId = st.parentCheckpointId
  world : st'.world = st.world
  log : st'.log = st.log
  calls : st'.calls = st.calls

namespace GraphRun

structure ActionClosed (run : GraphRun σ) (R : RunState σ → RunState σ → Prop) : Prop where
  refl : ∀ st, R st st
  trans : ∀ {a b c}, R a b → R b c → R a c
  publish : ∀ event st, R st (run.publish event st).2
  compute : ∀ {st st'}, Internal st st' → R st st'

/-- A relation that storing the allowed checkpoints respects too. -/
structure StepClosed (run : GraphRun σ) (allowed : CheckpointRequest → Prop)
    (R : RunState σ → RunState σ → Prop) : Prop extends ActionClosed run R where
  put : ∀ request st, allowed request → R st (run.putCheckpoint request st).2

/-- The same with the events told apart: `RunCompleted` is published only if `completes` allows it. -/
structure EventClosed (run : GraphRun σ) (completes : Prop) (allowed : CheckpointRequest → Prop)
    (R : RunState σ → RunState σ → Prop) : Prop where
  refl : ∀ st, R st st
  trans : ∀ {a b c}, R a b → R b c → R a c
  publish : ∀ event st, (event.type = .runCompleted → completes) → R st (run.publish event st).2
  compute : ∀ {st st'}, Internal st st' → R st st'
  put : ∀ request st, allowed request → R st (run.putCheckpoint request st).2

/-- The same with the exits told apart: a status is returned only where storing was refused. -/
structure StageClosed (run : GraphRun σ) (completes : Prop) (allowed : CheckpointRequest → Prop)
    (R : RunState σ → RunState σ → Prop) (X : RunState σ → Exit → RunState σ → Prop) : Prop
    extends EventClosed run completes allowed R where
  after : ∀ {a b c exit}, R a b → X b exit c → X a exit c
  later : ∀ {a b c exit}, X a exit b → R b c → X a exit c
  fail : ∀ call st, X st (.fail call) st
  done : ∀ result st, X st (.done result) st
  refused : ∀ {request st status}, allowed request →
    (run.putCheckpoint request st).1 = .error status →
    X st (.status status) (run.putCheckpoint request st).2

variable {R : RunState σ → RunState σ → Prop} {X : RunState σ → Exit → RunState σ → Prop}

theorem EventClosed.stage {run : GraphRun σ} {completes : Prop} {allowed : CheckpointRequest → Prop}
    (closed : EventClosed run completes allowed R) :
    StageClosed run completes allowed R fun st _ st' => R st st' :=
  { closed with
    after := closed.trans, later := closed.trans, fail := fun _ => closed.refl
    done := fun _ => closed.refl, refused := fun h _ => closed.put _ _ h }

theorem ActionClosed.events {run : GraphRun σ} (closed : ActionClosed run R) :
    StageClosed run True (fun _ => False) R fun st _ st' => R st st' :=
  EventClosed.stage
    ⟨closed.refl, closed.trans, fun event st _ => closed.publish event st, closed.compute, nofun⟩

theorem StepClosed.events {run : GraphRun σ} {allowed : CheckpointRequest → Prop}
    (closed : StepClosed run allowed R) : StageClosed run True allowed R fun st _ st' => R st st' :=
  EventClosed.stage
    ⟨closed.refl, closed.trans, fun event st _ => closed.publish event st, closed.compute, closed.put⟩

theorem walks_act {α : Type} {action : RunState σ → α × RunState σ} (h : ∀ st, R st (action st).2) :
    Walks R X (act action) :=
  fun st => h st

theorem walks_effect {action : RunState σ → RunState σ} (h : ∀ st, R st (action st)) :
    Walks R X (effect action) := fun st => h st

namespace StageClosed

variable {run : GraphRun σ} {completes : Prop} {allowed : CheckpointRequest → Prop}
  (closed : StageClosed run completes allowed R X) {ctx : StepContext}
include closed

/-! ## 1. Building blocks -/

variable {α : Type} {n : Nat} {node : Bytes} {executions : List NodeExecution}
  {writes : List CheckpointWrite} {nextTasks : List CheckpointTask}

theorem pure (a : α) : Walks R X (Pure.pure a : RunM σ α) := closed.refl

theorem throwFail (call : FailCall) : Walks R X (throw (.fail call) : RunM σ α) := closed.fail call

theorem throwDone (result : RunResult) : Walks R X (throw (.done result) : RunM σ α) :=
  closed.done result

theorem bind {β : Type} {m : RunM σ α} {f : α → RunM σ β} (hm : Walks R X m)
    (hf : ∀ a, Walks R X (f a)) : Walks R X (m >>= f) :=
  Walks.bind closed.trans closed.after hm hf

theorem get {f : RunState σ → RunM σ β} (hf : ∀ st, Walks R X (f st)) :
    Walks R X (MonadState.get >>= f) :=
  closed.bind (fun st => closed.refl st) hf

theorem orFail {result : Result α} {call : Status → FailCall} :
    Walks R X (GraphRun.orFail result call : RunM σ α) := by
  unfold GraphRun.orFail
  cases result with
  | ok value => exact closed.pure value
  | error => exact closed.throwFail _

theorem emit {type : RuntimeEventType} {payload : Json} {message : Bytes}
    (h : type = .runCompleted → completes) (st : RunState σ) :
    R st (run.emit type n node payload message st).2 :=
  closed.publish _ st h

theorem emitIgnored {type : RuntimeEventType} {payload : Json} {message : Bytes}
    (h : type = .runCompleted → completes) (st : RunState σ) :
    R st (run.emitIgnored type n node payload message st) :=
  closed.publish _ st h

theorem withState (st : RunState σ) (state : State) : R st (st.withState state) :=
  closed.compute ⟨rfl, rfl, rfl, rfl, rfl, rfl, rfl, rfl⟩

theorem setStep (n : Nat) (st : RunState σ) : R st (setStep n st) :=
  closed.compute ⟨rfl, rfl, rfl, rfl, rfl, rfl, rfl, rfl⟩

theorem setStatus (status : RunStatus) (st : RunState σ) : R st (GraphRun.setStatus status st) :=
  closed.compute ⟨rfl, rfl, rfl, rfl, rfl, rfl, rfl, rfl⟩

/-! ## 2. The stages of a super-step -/

theorem emitNodeStarted {tasks : List CheckpointTask} : Walks R X (run.emitNodeStarted ctx tasks) := by
  induction tasks with
  | nil => exact closed.pure ()
  | cons task tasks ih =>
    unfold GraphRun.emitNodeStarted
    exact closed.bind (walks_act (closed.emit (by simp))) fun _ =>
      closed.bind closed.orFail fun _ => ih

theorem nodeFailedIgnored {status : Status} : Walks R X (run.nodeFailedIgnored ctx node status) :=
  walks_effect (closed.emitIgnored nofun)

theorem announceFailures {raw : List NodeExecution} {classified : Classified} (st : RunState σ) :
    R st (run.announceFailures ctx raw classified st) := by
  unfold GraphRun.announceFailures
  generalize classified.failedIndexes = indexes
  induction indexes generalizing st with
  | nil => exact closed.refl st
  | cons index indexes ih =>
    rw [List.foldl_cons]
    refine closed.trans ?_ (ih _)
    split
    · exact closed.emitIgnored (by nofun) st
    · exact closed.refl st

theorem writesBesideFailure {failureNext : List CheckpointTask} {pending : List CheckpointWrite} :
    Walks R X (run.writesBesideFailure ctx failureNext pending executions) := by
  induction executions generalizing pending with
  | nil => exact closed.pure pending
  | cons execution rest ih =>
    unfold GraphRun.writesBesideFailure
    split
    · refine closed.bind (walks_act (closed.emit nofun)) fun _ => closed.bind closed.orFail fun _ =>
        closed.get fun st => ?_
      split
      · exact closed.bind closed.nodeFailedIgnored fun _ => closed.throwFail _
      · exact ih
    · exact ih

theorem failIfAny {classified : Classified} : Walks R X (run.failIfAny ctx classified) := by
  unfold GraphRun.failIfAny
  split
  · exact closed.pure ()
  · split
    · unfold failStep
      split_ifs
      · exact closed.bind closed.writesBesideFailure fun _ => closed.throwFail _
      · exact closed.throwFail _
    · exact closed.pure ()

theorem executeStep : Walks R X (run.executeStep ctx) := by
  unfold GraphRun.executeStep
  refine closed.bind closed.emitNodeStarted fun _ => closed.get fun st => ?_
  exact closed.bind (walks_effect closed.announceFailures) fun _ =>
    closed.bind closed.failIfAny fun _ => closed.pure _

theorem emitNodeCompleted : Walks R X (run.emitNodeCompleted ctx executions) := by
  induction executions with
  | nil => exact closed.pure ()
  | cons execution rest ih =>
    unfold GraphRun.emitNodeCompleted
    split
    · split_ifs
      · exact closed.bind (walks_act (closed.emit nofun)) fun _ =>
          closed.bind closed.orFail fun _ => ih
      · exact ih
    · exact ih

theorem applyWrite {write : CheckpointWrite} (st : RunState σ) :
    R st (run.applyWrite write n st).2 := by
  unfold GraphRun.applyWrite
  split
  · exact closed.refl st
  · split
    · exact closed.refl st
    · split
      · exact closed.withState ..
      · exact closed.trans (closed.withState ..) (closed.emit (by nofun) _)

theorem applyWrites : Walks R X (run.applyWrites ctx writes) := by
  induction writes with
  | nil => exact closed.pure ()
  | cons write writes ih =>
    unfold GraphRun.applyWrites
    refine closed.bind (walks_act closed.applyWrite) fun applied => ?_
    split
    · exact closed.bind closed.nodeFailedIgnored fun _ => closed.throwFail _
    · exact ih

theorem routeWrites {routedNext : List CheckpointTask} :
    Walks R X (run.routeWrites ctx routedNext writes) := by
  induction writes generalizing routedNext with
  | nil => exact closed.pure _
  | cons write writes ih =>
    unfold GraphRun.routeWrites
    refine closed.get fun st => ?_
    split
    · exact closed.bind closed.nodeFailedIgnored fun _ => closed.throwFail _
    · exact ih

theorem announceCompletion (h : completes) {site : FailSite} {next : List CheckpointTask}
    {parentCommand : Bool} : Walks R X (run.announceCompletion ctx site node next parentCommand) := by
  unfold GraphRun.announceCompletion
  refine closed.get fun st => closed.bind closed.orFail fun _ => ?_
  exact closed.bind (walks_effect (closed.setStatus _)) fun _ =>
    closed.bind (walks_act (closed.emit fun _ => h)) fun _ => closed.orFail

theorem emitInterrupts {next : List CheckpointTask} {interrupted : List (NodeExecution × Interrupt)} :
    Walks R X (run.emitInterrupts ctx next interrupted) := by
  induction interrupted with
  | nil => exact closed.pure ()
  | cons pair rest ih =>
    unfold GraphRun.emitInterrupts
    exact closed.bind (walks_act fun st => closed.publish _ st (by simp)) fun _ =>
      closed.bind closed.orFail fun _ => ih

theorem cleanRunError : Walks R X (run.cleanRunError nextTasks) := by
  unfold GraphRun.cleanRunError
  split_ifs
  · exact closed.get fun st => closed.bind closed.orFail fun cleaned =>
      walks_effect fun st => closed.withState st cleaned
  · exact closed.pure ()

theorem applyGivenCommand : Walks R X (run.applyGivenCommand nextTasks) := by
  unfold GraphRun.applyGivenCommand
  split
  · unfold applyCommand
    refine closed.get fun st => ?_
    split
    · exact closed.throwFail _
    · split
      · exact closed.throwFail _
      · refine closed.bind
          (walks_effect fun st => closed.compute ⟨rfl, rfl, rfl, rfl, rfl, rfl, rfl, rfl⟩)
          fun _ => closed.bind closed.orFail fun cleaned => ?_
        refine closed.bind (walks_effect fun st => closed.withState st cleaned) fun _ => ?_
        exact closed.bind closed.orFail fun resumed =>
          walks_effect fun st => closed.withState st resumed
  · exact closed.pure ()

theorem storeOrExit (node : Bytes) (request : CheckpointRequest) (h : allowed request) :
    Walks R X (run.storeOrExit ctx node request) := by
  intro st
  unfold GraphRun.storeOrExit
  simp only [ends_bind, ends_act]
  cases hput : (run.putCheckpoint request st).1 with
  | ok => exact closed.put request st h
  | error => exact closed.later (closed.refused h hput) (closed.emitIgnored (by simp) _)

theorem collectWrites {persist : Bool} {executions : List NodeExecution}
    {writes : List CheckpointWrite}
    (h : ∀ request : CheckpointRequest, request.step = ctx.nextStep → request.source = .taskWrites →
      allowed request) : Walks R X (run.collectWrites ctx persist writes executions) := by
  induction executions generalizing writes with
  | nil => exact closed.pure writes
  | cons execution rest ih =>
    unfold GraphRun.collectWrites
    refine closed.get fun st => ?_
    split
    · exact closed.bind closed.nodeFailedIgnored fun _ => closed.throwFail _
    · split_ifs
      · exact closed.bind (closed.storeOrExit _ _ (h _ rfl rfl)) fun _ => ih
      · exact ih

section Ending

variable (h : ∀ request : CheckpointRequest, request.step = ctx.nextStep →
  request.source ≠ .taskWrites → allowed request)
include h

variable {writes : List CheckpointWrite}

theorem pauseStep {interrupted : List (NodeExecution × Interrupt)} {node : Bytes} :
    Walks R X (run.pauseStep ctx interrupted node writes) := by
  unfold GraphRun.pauseStep
  refine closed.bind closed.routeWrites fun routedNext => ?_
  refine closed.bind (walks_effect (closed.setStep _)) fun _ => closed.get fun st => ?_
  refine closed.bind closed.orFail fun state => ?_
  refine closed.bind (walks_effect fun st => closed.withState st state) fun _ => ?_
  refine closed.bind (closed.storeOrExit _ _ (h _ rfl (by simp))) fun _ => ?_
  refine closed.bind closed.emitInterrupts fun _ => ?_
  exact closed.bind (walks_effect (closed.setStatus _)) fun _ => closed.get fun st => closed.throwDone _

variable (hcompletes : completes)
include hcompletes

theorem finishParentCommand {execution : NodeExecution} :
    Walks R X (run.finishParentCommand ctx execution writes) := by
  unfold GraphRun.finishParentCommand
  refine closed.bind (walks_effect (closed.setStep _)) fun _ => ?_
  refine closed.bind (walks_effect fun st => closed.compute ⟨rfl, rfl, rfl, rfl, rfl, rfl, rfl, rfl⟩)
    fun _ => ?_
  exact closed.bind (closed.announceCompletion hcompletes) fun _ =>
    closed.bind (closed.storeOrExit _ _ (h _ rfl (by simp))) fun _ =>
      closed.get fun _ => closed.throwDone _

theorem finishStep {budgetSteps : Nat} : Walks R X (run.finishStep ctx budgetSteps writes) := by
  have hstore : ∀ request : CheckpointRequest, request.step = ctx.nextStep →
      request.source ≠ .taskWrites → ∀ loop' : LoopState, Walks R X (do
        run.storeOrExit ctx ctx.failureNode request
        effect fun st => { st with resumeValuesByTask := [] }
        return loop' : RunM σ LoopState) := fun request hstep hsource loop' =>
    closed.bind (closed.storeOrExit _ _ (h request hstep hsource)) fun _ =>
      closed.bind (walks_effect fun st => closed.compute ⟨rfl, rfl, rfl, rfl, rfl, rfl, rfl, rfl⟩)
        fun _ => closed.pure loop'
  unfold GraphRun.finishStep
  refine closed.bind closed.routeWrites fun routedNext => ?_
  refine closed.bind (walks_effect (closed.setStep _)) fun _ => ?_
  dsimp only
  split_ifs
  · exact closed.bind (closed.announceCompletion hcompletes) fun _ => hstore _ rfl (by simp) _
  · exact hstore _ rfl (by simp) _

theorem commitStep {budgetSteps : Nat} {classified : Classified} :
    Walks R X (run.commitStep ctx budgetSteps classified writes) := by
  unfold GraphRun.commitStep
  refine closed.bind closed.applyWrites fun _ => ?_
  split
  · exact closed.finishParentCommand h hcompletes
  · split
    · exact closed.finishStep h hcompletes
    · exact closed.pauseStep h

end Ending

theorem enterStep {loop : LoopState} : Walks R X (run.enterStep loop ctx) :=
  closed.get fun _ => closed.bind closed.orFail fun _ => closed.orFail

section Step

variable {loop : LoopState} {st : RunState σ}
  (h : ∀ request : CheckpointRequest, request.step = st.result.step + 1 → allowed request)
include h

theorem beforeMerge : Ends (run.beforeMerge loop) st (fun _ st' => R st st') (X st) := by
  unfold GraphRun.beforeMerge
  rw [ends_bind, ends_get]
  refine closed.bind closed.enterStep (fun _ => closed.bind closed.executeStep fun _ =>
    closed.bind ?_ fun _ => closed.pure _) st
  exact closed.bind closed.emitNodeCompleted fun _ =>
    closed.bind (closed.collectWrites fun request hstep _ => h request hstep) fun _ => closed.pure _

theorem superStep (hcompletes : completes) :
    Ends (run.superStep loop) st (fun _ st' => R st st') (X st) :=
  ends_superStep (closed.beforeMerge h) fun _ st₁ h₁ =>
    (closed.commitStep (fun request hstep _ => h request hstep) hcompletes st₁).mono
      (fun _ _ => closed.trans h₁) fun _ _ => closed.after h₁

end Step

theorem failRun (call : FailCall) (st : RunState σ) (h : allowed call.request) :
    R st (run.failRun call st).2 := by
  unfold GraphRun.failRun
  dsimp only
  have hstatus := closed.setStatus (runStatusFromStatus call.status) st
  split
  · exact hstatus
  · rename_i failed _
    have hput := closed.trans hstatus (closed.trans
      (closed.withState (GraphRun.setStatus (runStatusFromStatus call.status) st) failed)
      (closed.put call.request _ h))
    split
    · exact hput
    · exact closed.trans hput (closed.emitIgnored (by nofun) _)

/-! ## 3. The start of a run -/

theorem storeInitial (h : ∀ request : CheckpointRequest, request.step = run.step → allowed request)
    {nextTasks : List CheckpointTask} : Walks R X (run.storeInitial nextTasks) := by
  unfold GraphRun.storeInitial
  split_ifs
  · intro st
    rw [ends_bind, ends_act]
    exact ends_orExit _ (fun _ _ => closed.put _ st (h _ rfl)) fun _ => closed.refused (h _ rfl)
  · exact closed.pure ()

theorem enterRun (h : ∀ request : CheckpointRequest, request.step = run.step → allowed request)
    {nextTasks : List CheckpointTask} : Walks R X (run.enterRun nextTasks) :=
  closed.bind (closed.storeInitial h) fun _ => closed.bind closed.cleanRunError fun _ =>
    closed.bind closed.applyGivenCommand fun _ => closed.get fun _ =>
      closed.bind closed.orFail fun _ => closed.pure _

/-- Before the first event a start is left with a status only. -/
theorem start (world : World σ)
    (h : ∀ request : CheckpointRequest, request.step = run.step → allowed request) :
    Ends run.start (run.initialState world) (fun _ st' => R (run.identified world) st')
      (fun exit st' => ((st' = run.initialState world ∨ st' = run.identified world) ∧
        ∃ status, exit = .status status) ∨ X (run.identified world) exit st') := by
  have hemit : R (run.identified world) (run.announce world).2 := closed.emit (by nofun) _
  refine ends_start (fun hst => .inl ⟨hst, _, rfl⟩) (.inr (closed.after hemit (closed.fail _ _)))
    fun _ => ?_
  exact (closed.enterRun h _).mono (fun _ _ h => closed.trans hemit h)
    fun _ _ h => .inr (closed.after hemit h)

end StageClosed

/-! ## 4. Whole runs -/

/-- An invariant indexed by the step number: the actions of a super-step keep it at their number,
    and it may be weakened to a later one. -/
structure RunInvariant (run : GraphRun σ) (P : Nat → RunState σ → Prop) : Prop where
  mono : ∀ {n m : Nat} {st : RunState σ}, n ≤ m → P n st → P m st
  closed : ∀ n, run.step ≤ n → StepClosed run (·.step = n) fun st st' => P n st → P n st'

section Runs

variable {run : GraphRun σ} {world : World σ} {P : Nat → RunState σ → Prop}

variable {st : RunState σ}

section

variable (inv : RunInvariant run P) (hinit : P run.step (run.identified world))

include inv hinit

theorem Reaches.invariant {loop : LoopState} (h : Reaches run world loop st) :
    run.step ≤ st.result.step ∧ P st.result.step st := by
  induction h with
  | start h =>
    obtain ⟨cleaned, started⟩ := (start_ends run world).ok h
    have hstep : _ = run.step := congrArg RunResult.step started.core
    have hP := ((inv.closed run.step le_rfl).events.start world fun _ h => h).ok h hinit
    rw [← hstep] at hP ⊢; exact ⟨le_rfl, hP⟩
  | @step loop loop' st st' _ hrun hstep ih =>
    obtain ⟨hle, hP⟩ := ih
    obtain ⟨writes, merged, committed⟩ := (superStep_ends run loop st).ok hstep
    have hnext : st'.result.step = st.result.step + 1 :=
      (congrArg RunResult.step committed.core :)
    have hclosed := inv.closed (st.result.step + 1) (by omega)
    have hP' := (hclosed.events.superStep (fun _ h => h) trivial).ok hstep
      (inv.mono (Nat.le_succ _) hP)
    rw [hnext]; exact ⟨by omega, hP'⟩

theorem exit_invariant {fuel : Nat} {exit : Exit}
    (h : run.body fuel (run.initialState world) = .error exit st) :
    (st = run.initialState world ∧ ∃ status, exit = .status status) ∨
      ∃ n, run.step ≤ n ∧ P n st ∧ ∀ call, exit = .fail call → call.failedStep = n := by
  rcases (body_ends ..).error h with hstart | ⟨loop, st₀, hleaves⟩
  · rcases ((inv.closed run.step le_rfl).events.start world fun _ h => h).error hstart with
      ⟨rfl | rfl, hstatus⟩ | h
    · exact .inl ⟨rfl, hstatus⟩
    · obtain ⟨status, rfl⟩ := hstatus
      exact .inr ⟨run.step, le_rfl, hinit, nofun⟩
    · refine .inr ⟨run.step, le_rfl, h hinit, fun call hcall => ?_⟩
      have hfail := (start_ends run world).error hstart
      rw [hcall] at hfail; exact hfail.1
  · obtain ⟨hle, hP⟩ := hleaves.reached.invariant inv hinit
    have hclosed := inv.closed (st₀.result.step + 1) (by omega)
    refine .inr ⟨st₀.result.step + 1, by omega, ?_, fun call hcall => ?_⟩
    · exact (hclosed.events.superStep (fun _ h => h) trivial).error hleaves.leaves
        (inv.mono (Nat.le_succ _) hP)
    · have hfail := (superStep_ends run loop st₀).error hleaves.leaves
      rw [hcall] at hfail; exact StepFailure.failedStep hfail

theorem run_invariant (fuel : Nat) :
    (run.run fuel world).2 = run.initialState world ∨ ∃ n, P n (run.run fuel world).2 := by
  unfold GraphRun.run
  cases hbody : run.body fuel (run.initialState world) with
  | ok =>
    obtain ⟨loop, hreach, _⟩ := (body_ends ..).ok hbody
    exact .inr ⟨_, (hreach.invariant inv hinit).2⟩
  | error exit st =>
    rcases exit_invariant inv hinit hbody with ⟨rfl, status, rfl⟩ | ⟨n, hle, hP, hfail⟩
    · exact .inl rfl
    · cases exit with
      | fail call => exact .inr ⟨n, (inv.closed n hle).events.failRun call st (hfail call rfl) hP⟩
      | done | status => exact .inr ⟨n, hP⟩

end

/-! ## 5. Runs store a checkpoint -/

variable {saver : CheckpointSaver σ}

section

variable (hsaver : run.options.checkpointer = some saver)

include hsaver

theorem putCheckpoint_stored {request : CheckpointRequest}
    (hstore : run.shouldStore request = true) (h : (run.putCheckpoint request st).1 = .ok ()) :
    (run.putCheckpoint request st).2.stored = st.stored ++ [run.checkpointOf request st] := by
  unfold putCheckpoint at h ⊢
  simp only [hstore, storeInSaver, hsaver] at h ⊢
  have hcases : (storeCheckpoint saver (run.checkpointOf request st) request.source st.tick).1
        = .ok () →
      (storeCheckpoint saver (run.checkpointOf request st) request.source st.tick).2.stored
        = st.stored ++ [run.checkpointOf request st] := by
    unfold storeCheckpoint
    dsimp only
    cases hput : (saver.put (run.checkpointOf request st) st.tick.world.saver).1 with
    | error => intro h; cases h
    | ok =>
      intro _
      split_ifs <;> simp [RunState.stored, RunState.afterCall, RunState.tick]
  cases hstored : (storeCheckpoint saver (run.checkpointOf request st) request.source st.tick).1 with
  | error =>
    rw [hstored] at h; cases h
  | ok => exact hcases hstored

theorem stored_closed (n : Nat) :
    StepClosed run (·.step = n) fun st st' => st.stored ≠ [] → st'.stored ≠ [] where
  refl _ h := h
  trans hab hbc h := hbc (hab h)
  publish _ _ h := h
  put request st _ h := by
    obtain ⟨added, hadded, -⟩ := run.putCheckpoint_effect st hsaver request
    rw [RunState.stored, hadded, List.filterMap_append]
    exact List.append_ne_nil_of_left_ne_nil h _
  compute hinternal h := by
    rw [RunState.stored, hinternal.calls]; exact h

theorem start_stored (hnew : run.writeInitialCheckpoint = true) :
    Ends run.start (run.initialState world) (fun _ st => st.stored ≠ []) fun _ _ => True := by
  have closed := (stored_closed hsaver 0).events
  refine ends_start (fun _ => trivial) trivial fun {nextTasks} _ => ?_
  have hinitial : Ends (run.storeInitial nextTasks) (run.announce world).2
      (fun _ st' => st'.stored ≠ []) fun _ _ => True := by
    unfold storeInitial
    rw [if_pos hnew, ends_bind, ends_act]
    refine ends_orExit _ (fun _ hok => ?_) fun _ _ => trivial
    rw [putCheckpoint_stored hsaver (by simp [shouldStore]) hok]; simp
  refine hinitial.bind fun _ st₁ hstored => ?_
  have hrest : ∀ {m : RunM σ LoopState}, Keeps (fun st st' => st.stored ≠ [] → st'.stored ≠ []) m →
      Ends m st₁ (fun _ st => st.stored ≠ []) fun _ _ => True := fun hm =>
    (hm st₁).mono (fun _ _ h => h hstored) fun _ _ _ => trivial
  refine hrest (closed.bind closed.cleanRunError fun _ => ?_)
  refine closed.bind closed.applyGivenCommand fun _ => closed.get fun st => ?_
  exact closed.bind closed.orFail fun _ => closed.pure _

theorem failRun_stored {call : FailCall} {result : RunResult}
    (h : (run.failRun call st).1 = .ok result) : (run.failRun call st).2.stored ≠ [] := by
  unfold failRun at h ⊢
  dsimp only at h ⊢
  split at h
  · cases h
  · split at h
    · cases h
    · rename_i failed hfailed _ hput
      have hstored := putCheckpoint_stored hsaver (by simp [shouldStore, FailCall.request]) hput
      show (run.putCheckpoint call.request _).2.stored ≠ []
      rw [hstored]; simp

theorem run_stored {fuel : Nat} {result : RunResult} (hnew : run.writeInitialCheckpoint = true)
    (h : (run.run fuel world).1 = some (.ok result)) : (run.run fuel world).2.stored ≠ [] := by
  have hreached : ∀ {loop st}, Reaches run world loop st → st.stored ≠ [] := by
    intro loop st hreach
    induction hreach with
    | start hstart => exact (start_stored hsaver hnew).ok hstart
    | step _ _ hstep ih =>
      exact ((stored_closed hsaver _).events.superStep (fun _ h => h) trivial).ok hstep ih
  cases returned_of_run h with
  | completed hreach => exact hreached hreach
  | left hleaves =>
    exact ((stored_closed hsaver _).events.superStep (fun _ h => h) trivial).error hleaves.leaves
      (hreached hleaves.reached)
  | failed _ hanswer hafter => exact hafter ▸ failRun_stored hsaver hanswer

end

end Runs

end GraphRun

end LangGraph
