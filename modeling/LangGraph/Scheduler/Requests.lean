import LangGraph.Foundation.Status

/-!
# What is scheduled

The calls `scheduleAt`, `scheduleAfter`, `schedulePeriodic` and `scheduleRetry` with their options
and checks, the retry policy as far as it decides, and the times at which a task is due.
-/

namespace LangGraph

namespace Scheduler

abbrev TaskId := Nat

abbrev Token := Nat

abbrev Outcome := Result Unit

def Outcome.isOk : Outcome → Bool
  | .ok _ => true
  | .error _ => false

/-! ## 1. Exceptions and retries -/

inductive Thrown where
  | interrupted (status : Outcome)
  | exception (what : Bytes)
  | other
deriving DecidableEq

def currentExceptionStatus (fallback : Bytes) : Thrown → Outcome
  | .interrupted status => status
  | .exception what => .error (.unknown (fallback ++ lit ": " ++ what))
  | .other => .error (.unknown fallback)

/-- How a callback of the user ends.  A task returns nothing, a retry operation a status. -/
inductive CallResult where
  | returned (status : Outcome)
  | threw (thrown : Thrown)
deriving DecidableEq

def CallResult.status (fallback : Bytes) : CallResult → Outcome
  | .returned status => status
  | .threw thrown => currentExceptionStatus fallback thrown

structure RetryPolicy where
  maxAttempts : Nat := 1
  retryableStatusCodes : List StatusCode := []
  retryOnAnyError : Bool := false
  /-- What the backoff and the source of its jitter say to `validate`. -/
  backoff : Result Unit := .ok ()
deriving DecidableEq

structure RetryDecision where
  retry : Bool
  nextAttempt : Nat
  retriesUsed : Nat
  delay : Int
  reason : Outcome
deriving DecidableEq

namespace RetryPolicy

def validate (policy : RetryPolicy) : Result Unit :=
  if policy.maxAttempts = 0 then
    .error (.invalidArgument (lit "retry max attempts must be at least 1"))
  else policy.backoff

def retryable (policy : RetryPolicy) : Outcome → Bool
  | .ok _ => false
  | .error status => policy.retryOnAnyError || policy.retryableStatusCodes.contains status.code

def shouldRetry (policy : RetryPolicy) (status : Outcome) (attemptsSoFar : Nat) : Bool :=
  attemptsSoFar != 0 && decide (attemptsSoFar < policy.maxAttempts) && policy.retryable status

/-- The delay is a matter of the backoff, with its jitter. -/
def decide (policy : RetryPolicy) (status : Outcome) (attemptsSoFar : Nat) (delay : Result Int) :
    Result RetryDecision :=
  if policy.shouldRetry status attemptsSoFar then
    delay.map fun delay =>
      { retry := true
        nextAttempt := attemptsSoFar + 1
        retriesUsed := attemptsSoFar
        delay
        reason := status }
  else
    .ok
      { retry := false
        nextAttempt := attemptsSoFar
        retriesUsed := attemptsSoFar - 1
        delay := 0
        reason := status }

end RetryPolicy

/-! ## 2. Requests -/

inductive PeriodicScheduleMode where
  | fixedDelay
  | fixedRate
deriving DecidableEq

inductive Job where
  | scheduleAt (when : Int)
  | scheduleAfter (delay : Int)
  | periodic (interval : Int) (maxRuns : Option Nat) (mode : PeriodicScheduleMode)
      (startImmediately : Bool)
  | retry (policy : RetryPolicy) (completion : Bool) (runImmediately : Bool) (initialDelay : Int)
deriving DecidableEq

def dueAfter (now delay : Int) : Int := if delay ≤ 0 then now else now + delay

namespace Job

def firstDue (now : Int) : Job → Int
  | .scheduleAt when => when
  | .scheduleAfter delay => dueAfter now delay
  | .periodic interval _ _ startImmediately =>
    if startImmediately then now else dueAfter now interval
  | .retry _ _ runImmediately initialDelay =>
    if runImmediately then now else dueAfter now initialDelay

def maxRuns : Job → Option Nat
  | .periodic _ maxRuns _ _ => maxRuns
  | _ => none

def isPeriodic : Job → Bool
  | .periodic _ _ _ _ => true
  | _ => false

def isRetry : Job → Bool
  | .retry _ _ _ _ => true
  | _ => false

def hasCompletion : Job → Bool
  | .retry _ completion _ _ => completion
  | _ => false

end Job

structure Request where
  job : Job
  /-- The callback is empty. -/
  empty : Bool := false
  token : Option Token := none
deriving DecidableEq

def cancelledReason (stopped : Token → Option Bytes) (token : Option Token) : Option Bytes :=
  token.bind stopped

namespace Request

def check (stopped : Token → Option Bytes) (request : Request) : Result Unit := do
  match request.job with
  | .scheduleAt _ | .scheduleAfter _ =>
    require (!request.empty) (.invalidArgument (lit "scheduled task callback cannot be empty"))
  | .periodic interval maxRuns _ _ =>
    require (!request.empty) (.invalidArgument (lit "periodic task callback cannot be empty"))
    require (0 < interval) (.invalidArgument (lit "periodic task interval must be positive"))
    require (maxRuns != some 0)
      (.invalidArgument (lit "periodic task maxRuns must be greater than zero"))
  | .retry policy _ _ _ =>
    require (!request.empty) (.invalidArgument (lit "retry operation cannot be empty"))
    policy.validate
  match cancelledReason stopped request.token with
  | some reason => .error (.cancelled reason)
  | none => .ok ()

theorem maxRuns_pos {stopped : Token → Option Bytes} {request : Request}
    (h : request.check stopped = .ok ()) {runs : Nat} (hruns : request.job.maxRuns = some runs) :
    0 < runs := by
  cases hjob : request.job with
  | periodic interval maxRuns =>
    rw [hjob] at hruns
    obtain rfl : maxRuns = some runs := hruns
    refine Nat.pos_of_ne_zero fun hzero => ?_
    subst hzero
    cases hempty : request.empty <;> by_cases hinterval : 0 < interval <;>
      simp [check, require, hjob, hempty, hinterval, bind, Except.bind] at h
  | _ => simp [hjob, Job.maxRuns] at hruns

end Request

/-! ## 3. The next run of a periodic task -/

/-- Intervals are added until the time is not in the past. -/
def catchUp (interval now due : Int) : Int :=
  if 0 < interval ∧ due < now then catchUp interval now (due + interval) else due
termination_by (now - due).toNat
decreasing_by omega

def nextDue (interval now last : Int) : PeriodicScheduleMode → Int
  | .fixedRate => catchUp interval now (last + interval)
  | .fixedDelay => dueAfter now interval

end Scheduler

end LangGraph
