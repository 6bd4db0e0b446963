import LangGraph.Scheduler.Requests

/-!
# Task records of the scheduler

What the scheduler does to the record of a task while it holds its own mutex and that of the task.
Each of the functions says besides whether it has ended the task: then it has also unregistered the
cancellation callback and counted the active tasks down.
-/

namespace LangGraph

namespace Scheduler

inductive ScheduledTaskState where
  | pending
  | running
  | cancelling
  | completed
  | failed
  | cancelled
deriving DecidableEq

namespace ScheduledTaskState

def isTerminal : ScheduledTaskState → Bool
  | .completed | .failed | .cancelled => true
  | _ => false

end ScheduledTaskState

structure TaskRecord where
  state : ScheduledTaskState := .pending
  status : Outcome := .ok ()
  cancelRequested : Bool := false
  running : Bool := false
  active : Bool := true
  /-- The record has the registration of its cancellation callback. -/
  registered : Bool := false
deriving DecidableEq

namespace TaskRecord

def start (r : TaskRecord) : Option TaskRecord :=
  if !r.active || r.cancelRequested || r.state.isTerminal then none
  else some { r with running := true, state := .running }

def settle (finalState : ScheduledTaskState) (status : Outcome) : ScheduledTaskState × Outcome :=
  let finalState :=
    if finalState = .completed ∧ Outcome.isOk status = false then .failed else finalState
  let status :=
    if finalState = .cancelled ∧ Outcome.isOk status = true then
      .error (.cancelled (lit "scheduled task cancelled"))
    else status
  (finalState, status)

def finish (finalState : ScheduledTaskState) (status : Outcome) (r : TaskRecord) :
    TaskRecord × Bool :=
  if r.active then
    ({ r with
        running := false
        state := (settle finalState status).1
        status := (settle finalState status).2
        active := false
        registered := false }, true)
  else ({ r with running := false }, false)

/-- `requestCancel`; nothing if the task has ended already. -/
def requestCancel (status : Outcome) (r : TaskRecord) : Option (TaskRecord × Bool) :=
  if !r.active || r.state.isTerminal then none
  else if r.running then some ({ r with cancelRequested := true, state := .cancelling }, false)
  else
    some ({ r with
        cancelRequested := true
        state := .cancelled
        status := if Outcome.isOk status then
            .error (.cancelled (lit "scheduled task cancelled"))
          else status
        active := false
        registered := false }, true)

/-- `reschedule`; the task goes back into the queue if it is pending afterwards. -/
def reschedule (closed : Bool) (r : TaskRecord) : TaskRecord × Bool :=
  if closed || !r.active || r.cancelRequested then
    if r.active then
      ({ r with
          running := false
          state := .cancelled
          status := .error (.cancelled (lit "scheduler closed"))
          active := false
          registered := false }, true)
    else ({ r with running := false }, false)
  else ({ r with running := false, state := .pending }, false)

def reject (r : TaskRecord) : TaskRecord :=
  { r with
    state := .failed
    status := .error (.failedPrecondition (lit "scheduler is closed"))
    active := false }

/-! ## What the operations keep -/

variable {r : TaskRecord}

theorem start_eq_some {started : TaskRecord} (h : r.start = some started) :
    r.active = true ∧ r.cancelRequested = false ∧ r.state.isTerminal = false ∧
      started = { r with running := true, state := .running } := by
  rw [start] at h
  split at h
  · cases h
  · rename_i hstart
    simp only [Bool.or_eq_true, Bool.not_eq_true', not_or, Bool.not_eq_true,
      Bool.not_eq_false] at hstart
    exact ⟨hstart.1.1, hstart.1.2, hstart.2, (Option.some.inj h).symm⟩

/-- An operation ends an active task or leaves it as active as it was. -/
def Operates (r : TaskRecord) (result : TaskRecord × Bool) : Prop :=
  result.1.active = (r.active && !result.2) ∧ (result.2 = true → r.active = true)

theorem finish_operates (finalState : ScheduledTaskState) (status : Outcome) :
    r.Operates (r.finish finalState status) := by
  unfold Operates finish
  split <;> simp_all

theorem requestCancel_eq_some {status : Outcome} {result : TaskRecord × Bool}
    (h : r.requestCancel status = some result) :
    r.active = true ∧ r.state.isTerminal = false ∧ result.1.cancelRequested = true ∧
      (r.running = true ∧ result.2 = false ∧ result.1.running = true ∧ result.1.active = true ∧
          result.1.state = .cancelling ∨
        r.running = false ∧ result.2 = true ∧ result.1.running = false ∧
          result.1.active = false ∧ result.1.state = .cancelled) := by
  unfold requestCancel at h
  split at h
  · cases h
  · rename_i hgoing
    simp only [Bool.or_eq_true, Bool.not_eq_true', not_or, Bool.not_eq_true,
      Bool.not_eq_false] at hgoing
    split at h
    · rename_i hrunning
      cases h
      exact ⟨hgoing.1, hgoing.2, rfl, Or.inl ⟨hrunning, rfl, hrunning, hgoing.1, rfl⟩⟩
    · rename_i hrunning
      rw [Bool.not_eq_true] at hrunning
      cases h
      exact ⟨hgoing.1, hgoing.2, rfl, Or.inr ⟨hrunning, rfl, hrunning, rfl, rfl⟩⟩

theorem finish_of_active (h : r.active = true) (finalState : ScheduledTaskState)
    (status : Outcome) :
    r.finish finalState status = ({ r with
          running := false
          state := (settle finalState status).1
          status := (settle finalState status).2
          active := false
          registered := false }, true) :=
  if_pos h

theorem settle_isTerminal {finalState : ScheduledTaskState} (h : finalState.isTerminal = true)
    (status : Outcome) : (settle finalState status).1.isTerminal = true := by
  simp only [settle]
  split
  · rfl
  · exact h

theorem settle_status {finalState : ScheduledTaskState} {status : Outcome}
    (h : finalState = .cancelled → Outcome.isOk status = false) :
    (settle finalState status).2 = status := by
  refine if_neg fun ⟨hcancelled, hok⟩ => ?_
  split at hcancelled
  · cases hcancelled
  · rw [h hcancelled] at hok; cases hok

theorem reschedule_of_active (h : r.active = true) (closed : Bool) :
    (r.reschedule closed).1.running = false ∧
      ((closed || r.cancelRequested) = true ∧ (r.reschedule closed).2 = true ∧
          (r.reschedule closed).1.active = false ∧
          (r.reschedule closed).1.state = .cancelled ∨
        (closed || r.cancelRequested) = false ∧ (r.reschedule closed).2 = false ∧
          (r.reschedule closed).1.active = true ∧
          (r.reschedule closed).1.state = .pending) := by
  unfold reschedule
  rw [h]
  cases closed <;> cases r.cancelRequested <;> simp

theorem requestCancel_operates {status : Outcome} {result : TaskRecord × Bool}
    (h : r.requestCancel status = some result) : r.Operates result := by
  unfold requestCancel at h
  split at h
  · cases h
  · split at h
    all_goals
      cases h
      simp_all [Operates]

theorem reschedule_operates (closed : Bool) : r.Operates (r.reschedule closed) := by
  unfold Operates reschedule
  split
  · split <;> simp_all
  · simp

theorem finish_cancelRequested (finalState : ScheduledTaskState) (status : Outcome) :
    (r.finish finalState status).1.cancelRequested = r.cancelRequested := by
  unfold finish
  split <;> rfl

theorem reschedule_cancelRequested (closed : Bool) :
    (r.reschedule closed).1.cancelRequested = r.cancelRequested := by
  unfold reschedule
  split
  · split <;> rfl
  · rfl

end TaskRecord

end Scheduler

end LangGraph
