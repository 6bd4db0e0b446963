import LangGraph.Lib.Interleaving
import LangGraph.Scheduler.TaskRecord

/-!
# The task scheduler

The scheduler with its worker thread, its executor, the callers that schedule, cancel and close, and
the sink that the events go to.  A move is one critical section, one call of a callback or one
publication.  A call that schedules is named by a number, and so is its task.

The function that runs a task is carried from one place to the next: an entry in the queue holds it,
then the worker, the executor, and the worker or the thread of the executor that ends the task or
puts it back into the queue.
-/

namespace LangGraph

namespace Scheduler

/-! ## 1. Events, carriers and operators -/

inductive SchedulerEventType where
  | scheduled
  | started
  | completed
  | cancelled
  | failed
  | retrying
  | closed
deriving DecidableEq

structure SchedulerEvent where
  type : SchedulerEventType
  task : Option TaskId
  status : Outcome := .ok ()
  attempt : Nat := 0
deriving DecidableEq

def SchedulerEvent.ends (task : TaskId) (event : SchedulerEvent) : Bool :=
  event.task == some task && match event.type with
    | .completed | .cancelled | .failed => true
    | _ => false

structure RetryReport where
  attempts : Nat
  retries : Nat
  status : Outcome
deriving DecidableEq

structure ScheduledEntry where
  due : Int
  sequence : Nat
  task : TaskId
deriving DecidableEq

def ScheduledEntry.before (a b : ScheduledEntry) : Prop :=
  a.due < b.due ∨ a.due = b.due ∧ a.sequence ≤ b.sequence

instance : DecidableRel ScheduledEntry.before := fun a b =>
  inferInstanceAs (Decidable (a.due < b.due ∨ a.due = b.due ∧ a.sequence ≤ b.sequence))

inductive Hand where
  | worker
  | executor
deriving DecidableEq

/-- A time to come, fixed or from the moment at which it is needed. -/
inductive Due where
  | at (time : Int)
  | after (delay : Int)
deriving DecidableEq

def Due.time (now : Int) : Due → Int
  | .at time => time
  | .after delay => dueAfter now delay

inductive Phase where
  /-- `startTask`, by the worker that has taken the entry from the queue. -/
  | fired
  | posting
  /-- The executor has the function. -/
  | posted
  /-- The function looks at the token. -/
  | entering
  /-- The callback of the user runs. -/
  | calling
  /-- A periodic task has run. -/
  | counting
  | rescheduling (due : Due)
  /-- The completion callback of `finishRetry`. -/
  | completing (finalState : ScheduledTaskState) (status : Outcome)
  | finishing (finalState : ScheduledTaskState) (status : Outcome) (attempt : Nat)
deriving DecidableEq

structure Carrier where
  hand : Hand
  task : TaskId
  phase : Phase
deriving DecidableEq

inductive Operator where
  | worker
  | executor (task : TaskId)
  | caller (task : TaskId)
  | canceller (number : Nat)
  | closer (number : Nat)
deriving DecidableEq

def Carrier.operator (c : Carrier) : Operator :=
  match c.hand with
  | .worker => .worker
  | .executor => .executor c.task

inductive Call where
  | unmade
  | made (due : Int)
  | accepted
  | rejected
deriving DecidableEq

inductive SchedulerClosePolicy where
  | cancelPending
  | drainPending
deriving DecidableEq

/-- Where a call of `close` is: with records from the queue to cancel, for the first or for the
    second time, about to publish that the scheduler is closed, or in `waitIdle`. -/
inductive Closer where
  | free
  | cancelling (records : List TaskId) (again : Bool)
  | announcing
  | waitingIdle
deriving DecidableEq

structure State where
  closed : Bool := false
  now : Int := 0
  active : Nat := 0
  nextEntryId : Nat := 1
  queue : List ScheduledEntry := []
  record : TaskId → TaskRecord := fun _ => {}
  call : TaskId → Call := fun _ => .unmade
  accepted : List TaskId := []
  /-- The counters that the functions of periodic and retry tasks share. -/
  runs : TaskId → Nat := fun _ => 0
  attempts : TaskId → Nat := fun _ => 0
  lastDue : TaskId → Int := fun _ => 0
  carriers : List Carrier := []
  closer : Nat → Closer := fun _ => .free
  stopped : Token → Option Bytes := fun _ => none
  /-- What an operator has still to publish before it goes on. -/
  debts : List (Operator × SchedulerEvent) := []
  events : List SchedulerEvent := []
  reports : List (TaskId × RetryReport) := []
  /-- The tasks that `startTask` has started and those whose callback was called, each as often. -/
  started : List TaskId := []
  called : List TaskId := []

/-- What `post` of the executor does; where it fails it does not run the function. -/
inductive Posting where
  | accepts
  | rejects (status : Status)
  | throws (thrown : Thrown)
deriving DecidableEq

inductive Move where
  | tick (time : Int)
  | stop (token : Token) (reason : Bytes)
  | make (task : TaskId)
  | enter (task : TaskId)
  | fire
  | start (c : Carrier)
  | post (c : Carrier) (result : Posting)
  | take (c : Carrier)
  | discard (c : Carrier)
  | check (c : Carrier)
  | callEnds (c : Carrier) (result : CallResult) (delay : Result Int)
  | count (c : Carrier)
  | complete (c : Carrier)
  | finish (c : Carrier)
  | reschedule (c : Carrier)
  /-- `ScheduledTask::cancel`. -/
  | cancel (number : Nat) (task : TaskId)
  /-- The callback of the token of the task. -/
  | cancelByToken (number : Nat) (task : TaskId)
  | close (number : Nat) (policy : SchedulerClosePolicy)
  | cancelRecord (number : Nat)
  | announce (number : Nat)
  | idle (number : Nat)
  | expire (number : Nat)
  | publish (operator : Operator)
deriving DecidableEq

/-! ## 2. Moves -/

namespace State

def owes (operator : Operator) (s : State) : Bool := s.debts.any fun debt => debt.1 = operator

def pass (c : Carrier) (next : Carrier) (s : State) : State :=
  { s with carriers := next :: s.carriers.erase c }

def drop (c : Carrier) (s : State) : State := { s with carriers := s.carriers.erase c }

def owe (operator : Operator) (event : SchedulerEvent) (s : State) : State :=
  { s with debts := (operator, event) :: s.debts }

/-- The record after an operation; where that has ended the task it is no longer active. -/
def write (task : TaskId) (result : TaskRecord × Bool) (s : State) : State :=
  { s with
    record := Function.update s.record task result.1
    active := if result.2 then s.active - 1 else s.active }

def push (task : TaskId) (due : Int) (s : State) : State :=
  { s with
    queue := s.queue.orderedInsert ScheduledEntry.before
      { due, sequence := s.nextEntryId, task }
    nextEntryId := s.nextEntryId + 1 }

def setCall (task : TaskId) (call : Call) (s : State) : State :=
  { s with call := Function.update s.call task call }

def accept (task : TaskId) (s : State) : State :=
  { s.setCall task .accepted with
    active := s.active + 1
    accepted := task :: s.accepted }

def reject (task : TaskId) (s : State) : State :=
  { s.setCall task .rejected with
    record := Function.update s.record task (s.record task).reject }

def setLastDue (task : TaskId) (due : Int) (s : State) : State :=
  { s with lastDue := Function.update s.lastDue task due }

/-- The checks of a call that schedules, and the record it makes. -/
def make (request : Request) (task : TaskId) (s : State) : State :=
  match request.check s.stopped with
  | .error _ => s.setCall task .rejected
  | .ok () =>
    let due := request.job.firstDue s.now
    (s.setCall task (.made due)).setLastDue task due

def enter (task : TaskId) (due : Int) (s : State) : State :=
  if s.closed then s.reject task
  else
    ((s.push task due).accept task).owe (.caller task) { type := .scheduled, task := some task }

def noteStart (task : TaskId) (s : State) : State := { s with started := task :: s.started }

def startTask (c : Carrier) (s : State) : State :=
  match (s.record c.task).start with
  | none => s.drop c
  | some r =>
    (((s.pass c { c with phase := .posting }).write c.task (r, false)).noteStart c.task).owe
      c.operator { type := .started, task := some c.task }

/-- The last phase of a task: a retry task reports first. -/
def ending (request : Request) (finalState : ScheduledTaskState) (status : Outcome) : Phase :=
  if request.job.isRetry then .completing finalState status else .finishing finalState status 0

def post (request : Request) (c : Carrier) (result : Posting) (s : State) : State :=
  match result with
  | .accepts => s.pass c { c with hand := .executor, phase := .posted }
  | .rejects status => s.pass c { c with phase := ending request .failed (.error status) }
  | .throws thrown =>
    -- the worker loop catches the exception; it knows nothing of completion callbacks
    s.pass c { c with
      phase := .finishing .completed
        (currentExceptionStatus (lit "scheduled fire callback failed") thrown) 0 }

def noteCall (request : Request) (task : TaskId) (s : State) : State :=
  { s with
    called := task :: s.called
    attempts := if request.job.isRetry then
        Function.update s.attempts task (s.attempts task + 1)
      else s.attempts }

def check (request : Request) (c : Carrier) (s : State) : State :=
  match cancelledReason s.stopped request.token with
  | some reason =>
    s.pass c { c with phase := ending request .cancelled (.error (.cancelled reason)) }
  | none => (s.pass c { c with phase := .calling }).noteCall request c.task

def attemptEnds (policy : RetryPolicy) (c : Carrier) (result : Outcome) (delay : Result Int)
    (s : State) : State :=
  match result with
  | .ok () => s.pass c { c with phase := .completing .completed (.ok ()) }
  | .error status =>
    match policy.decide (.error status) (s.attempts c.task) delay with
    | .error failure => s.pass c { c with phase := .completing .failed (.error failure) }
    | .ok decision =>
      if decision.retry then
        (s.pass c { c with phase := .rescheduling (.after decision.delay) }).owe c.operator
          { type := .retrying
            task := some c.task
            status := .error status
            attempt := decision.nextAttempt }
      -- attempts used up: the task completes, with the error as its status
      else s.pass c { c with phase := .completing .completed (.error status) }

def callEnds (request : Request) (c : Carrier) (result : CallResult) (delay : Result Int)
    (s : State) : State :=
  match request.job with
  | .scheduleAt _ | .scheduleAfter _ =>
    match result with
    | .returned _ => s.pass c { c with phase := .finishing .completed (.ok ()) 0 }
    | .threw thrown =>
      s.pass c { c with
        phase := .finishing .completed
          (currentExceptionStatus (lit "scheduled task failed") thrown) 0 }
  | .periodic _ _ _ _ =>
    match result with
    | .returned _ => s.pass c { c with phase := .counting }
    | .threw thrown =>
      -- a run that throws is published as failed, and the task goes on
      (s.pass c { c with phase := .counting }).owe c.operator
        { type := .failed
          task := some c.task
          status := currentExceptionStatus (lit "periodic task failed") thrown }
  | .retry policy _ _ _ =>
    s.attemptEnds policy c (result.status (lit "retry operation failed")) delay

def countRun (task : TaskId) (s : State) : State :=
  { s with runs := Function.update s.runs task (s.runs task + 1) }

def count (request : Request) (c : Carrier) (s : State) : State :=
  match request.job with
  | .periodic interval maxRuns mode _ =>
    if maxRuns.any fun maxRuns => decide (maxRuns ≤ s.runs c.task + 1) then
      (s.pass c { c with phase := .finishing .completed (.ok ()) 0 }).countRun c.task
    else
      let due := nextDue interval s.now (s.lastDue c.task) mode
      ((s.pass c { c with phase := .rescheduling (.at due) }).countRun c.task).setLastDue c.task due
  | _ => s

def report (task : TaskId) (status : Outcome) (s : State) : State :=
  { s with
    reports := (task,
      { attempts := s.attempts task, retries := s.attempts task - 1, status }) :: s.reports }

def complete (request : Request) (c : Carrier) (finalState : ScheduledTaskState)
    (status : Outcome) (s : State) : State :=
  let passed := s.pass c { c with phase := .finishing finalState status (s.attempts c.task) }
  if request.job.hasCompletion then passed.report c.task status else passed

def eventType : ScheduledTaskState → SchedulerEventType
  | .cancelled => .cancelled
  | .failed => .failed
  | _ => .completed

def finishTask (c : Carrier) (finalState : ScheduledTaskState) (status : Outcome) (attempt : Nat)
    (s : State) : State :=
  let result := (s.record c.task).finish finalState status
  let settled := TaskRecord.settle finalState status
  let written := (s.drop c).write c.task result
  if result.2 then
    written.owe c.operator
      { type := eventType settled.1
        task := some c.task
        status := settled.2
        attempt }
  else written

/-- Nothing is published where the task cannot go back into the queue. -/
def reschedule (c : Carrier) (due : Due) (s : State) : State :=
  let result := (s.record c.task).reschedule s.closed
  let written := (s.drop c).write c.task result
  if result.1.active then written.push c.task (due.time s.now) else written

def requestCancel (operator : Operator) (task : TaskId) (status : Status) (s : State) : State :=
  match (s.record task).requestCancel (.error status) with
  | none => s
  | some result =>
    let written := s.write task result
    if result.2 then
      written.owe operator { type := .cancelled, task := some task, status := .error status }
    else written

def drainQueue (s : State) : State := { s with queue := [] }

def queuedTasks (s : State) : List TaskId := s.queue.map (·.task)

def moveCloser (number : Nat) (closer : Closer) (s : State) : State :=
  { s with closer := Function.update s.closer number closer }

def close (number : Nat) (policy : SchedulerClosePolicy) (s : State) : State :=
  if s.closed then s.moveCloser number (.cancelling [] false)
  else
    match policy with
    | .cancelPending =>
      { (s.drainQueue.moveCloser number (.cancelling s.queuedTasks false)) with closed := true }
    | .drainPending => { s.moveCloser number (.cancelling [] false) with closed := true }

def publish (operator : Operator) (s : State) : Option State :=
  (s.debts.find? fun debt => debt.1 = operator).map fun debt =>
    { s with
      debts := s.debts.erase debt
      events := debt.2 :: s.events }

section Step

variable (requests : TaskId → Request)

def Ready (c : Carrier) (s : State) : Prop := c ∈ s.carriers ∧ s.owes c.operator = false

instance (c : Carrier) (s : State) : Decidable (s.Ready c) :=
  inferInstanceAs (Decidable (_ ∧ _))

def WorkerIdle (s : State) : Prop :=
  (∀ c ∈ s.carriers, c.hand ≠ .worker) ∧ s.owes .worker = false

instance (s : State) : Decidable s.WorkerIdle := inferInstanceAs (Decidable (_ ∧ _))

def fire (s : State) : Option State :=
  match s.queue with
  | [] => none
  | entry :: rest =>
    if s.WorkerIdle ∧ entry.due ≤ s.now then
      some { s with
        queue := rest
        carriers := { hand := .worker, task := entry.task, phase := .fired } :: s.carriers }
    else none

def go (move : Move) (c : Carrier) (s : State) : Option State :=
  match move, c.phase with
  | .start _, .fired => some (s.startTask c)
  | .post _ result, .posting => some (s.post (requests c.task) c result)
  | .take _, .posted => some (s.pass c { c with phase := .entering })
  | .discard _, .posted => some (s.drop c)
  | .check _, .entering => some (s.check (requests c.task) c)
  | .callEnds _ result delay, .calling => some (s.callEnds (requests c.task) c result delay)
  | .count _, .counting => some (s.count (requests c.task) c)
  | .complete _, .completing finalState status =>
    some (s.complete (requests c.task) c finalState status)
  | .finish _, .finishing finalState status attempt =>
    some (s.finishTask c finalState status attempt)
  | .reschedule _, .rescheduling due => some (s.reschedule c due)
  | _, _ => none

def cancelRecord (number : Nat) (s : State) : Option State :=
  match s.closer number with
  | .cancelling (task :: rest) again =>
    some ((s.requestCancel (.closer number) task (.cancelled (lit "scheduler closed"))).moveCloser
      number (.cancelling rest again))
  | .cancelling [] false => some (s.moveCloser number .announcing)
  | .cancelling [] true => some (s.moveCloser number .free)
  | _ => none

def step (move : Move) (s : State) : Option State :=
  match move with
  | .tick time => if s.now ≤ time then some { s with now := time } else none
  | .stop token reason =>
    if s.stopped token = none then
      some { s with stopped := Function.update s.stopped token (some reason) }
    else none
  | .make task =>
    if s.call task = .unmade then some (s.make (requests task) task) else none
  | .enter task =>
    match s.call task with
    | .made due => some (s.enter task due)
    | _ => none
  | .fire => s.fire
  | .start c | .post c _ | .take c | .discard c | .check c | .callEnds c _ _ | .count c
  | .complete c | .finish c | .reschedule c =>
    if s.Ready c then s.go requests move c else none
  | .cancel number task =>
    if s.owes (.canceller number) = false ∧ s.call task = .accepted then
      some (s.requestCancel (.canceller number) task
        (.cancelled (lit "scheduled task cancelled")))
    else none
  | .cancelByToken number task =>
    match cancelledReason s.stopped (requests task).token with
    | some reason =>
      if s.owes (.canceller number) = false ∧ s.call task = .accepted then
        some (s.requestCancel (.canceller number) task (.cancelled reason))
      else none
    | none => none
  | .close number policy =>
    if s.closer number = .free ∧ s.owes (.closer number) = false then
      some (s.close number policy)
    else none
  | .cancelRecord number =>
    if s.owes (.closer number) = false then s.cancelRecord number else none
  | .announce number =>
    if s.closer number = .announcing then
      some { s.moveCloser number .waitingIdle with
        events := { type := .closed, task := none } :: s.events }
    else none
  | .idle number =>
    if s.closer number = .waitingIdle ∧ s.active = 0 then some (s.moveCloser number .free)
    else none
  | .expire number =>
    -- `waitIdle` timed out: whatever the policy, what is still queued is cancelled
    if s.closer number = .waitingIdle ∧ s.active ≠ 0 then
      some (s.drainQueue.moveCloser number (.cancelling s.queuedTasks true))
    else none
  | .publish operator => s.publish operator

inductive Change (s : State) : Move → State → Prop where
  | tick (time) : Change s (.tick time) { s with now := time }
  | stop (token reason) :
    Change s (.stop token reason)
      { s with stopped := Function.update s.stopped token (some reason) }
  | make {task} (hcall : s.call task = .unmade) :
    Change s (.make task) (s.make (requests task) task)
  | enter {task due} (hcall : s.call task = .made due) : Change s (.enter task) (s.enter task due)
  | fire {s'} (hfire : s.fire = some s') : Change s .fire s'
  | start {c} (hmem : c ∈ s.carriers) (hphase : c.phase = .fired) :
    Change s (.start c) (s.startTask c)
  | post {c} (result) (hmem : c ∈ s.carriers) (hphase : c.phase = .posting) :
    Change s (.post c result) (s.post (requests c.task) c result)
  | take {c} (hmem : c ∈ s.carriers) (hphase : c.phase = .posted) :
    Change s (.take c) (s.pass c { c with phase := .entering })
  | discard {c} (hmem : c ∈ s.carriers) (hphase : c.phase = .posted) :
    Change s (.discard c) (s.drop c)
  | check {c} (hmem : c ∈ s.carriers) (hphase : c.phase = .entering) :
    Change s (.check c) (s.check (requests c.task) c)
  | callEnds {c} (result delay) (hmem : c ∈ s.carriers) (hphase : c.phase = .calling) :
    Change s (.callEnds c result delay) (s.callEnds (requests c.task) c result delay)
  | count {c} (hmem : c ∈ s.carriers) (hphase : c.phase = .counting) :
    Change s (.count c) (s.count (requests c.task) c)
  | complete {c finalState status} (hmem : c ∈ s.carriers)
    (hphase : c.phase = .completing finalState status) :
    Change s (.complete c) (s.complete (requests c.task) c finalState status)
  | finish {c finalState status attempt} (hmem : c ∈ s.carriers)
    (hphase : c.phase = .finishing finalState status attempt) :
    Change s (.finish c) (s.finishTask c finalState status attempt)
  | reschedule {c due} (hmem : c ∈ s.carriers) (hphase : c.phase = .rescheduling due) :
    Change s (.reschedule c) (s.reschedule c due)
  | cancel {move number task} (status) (hcall : s.call task = .accepted)
    (hmove : move = .cancel number task ∨ move = .cancelByToken number task) :
    Change s move (s.requestCancel (.canceller number) task status)
  | close (number policy) : Change s (.close number policy) (s.close number policy)
  | cancelRecord {number s'} (hcancel : s.cancelRecord number = some s') :
    Change s (.cancelRecord number) s'
  | announce (number) :
    Change s (.announce number) { s.moveCloser number .waitingIdle with
      events := { type := .closed, task := none } :: s.events }
  | idle (number) : Change s (.idle number) (s.moveCloser number .free)
  | expire (number) :
    Change s (.expire number) (s.drainQueue.moveCloser number (.cancelling s.queuedTasks true))
  | publish {operator s'} (hpublish : s.publish operator = some s') :
    Change s (.publish operator) s'

theorem change_of_step {move : Move} {s s' : State} (hstep : s.step requests move = some s') :
    s.Change requests move s' := by
  unfold step at hstep
  cases move with
  | fire => exact .fire hstep
  | publish => exact .publish hstep
  | enter =>
    dsimp only at hstep
    split at hstep
    · cases hstep; exact .enter ‹_›
    · cases hstep
  | cancelByToken =>
    dsimp only at hstep
    split at hstep
    · obtain ⟨⟨_, hcall⟩, hs'⟩ := Option.ite_none_right_eq_some.mp hstep
      cases hs'; exact .cancel _ hcall (.inr rfl)
    · cases hstep
  | _ =>
    obtain ⟨hguard, hs'⟩ := Option.ite_none_right_eq_some.mp hstep
    first
    | exact .cancelRecord hs'
    | cases hs'
      first
      | exact .cancel _ hguard.2 (.inl rfl)
      | exact .make hguard
      | constructor
    | -- a carrier: the move fits its phase
      unfold go at hs'
      split at hs' <;> cases hs' <;> first
        | contradiction
        | exact .start hguard.1 ‹_›
        | cases ‹Move.post _ _ = .post _ _›; exact .post _ hguard.1 ‹_›
        | exact .take hguard.1 ‹_›
        | exact .discard hguard.1 ‹_›
        | exact .check hguard.1 ‹_›
        | cases ‹Move.callEnds _ _ _ = .callEnds _ _ _›; exact .callEnds _ _ hguard.1 ‹_›
        | exact .count hguard.1 ‹_›
        | exact .complete hguard.1 ‹_›
        | exact .finish hguard.1 ‹_›
        | exact .reschedule hguard.1 ‹_›

end Step

end State

def run (requests : TaskId → Request) (moves : List Move) : Option State :=
  Interleaving.run (State.step requests) moves {}

end Scheduler

end LangGraph
