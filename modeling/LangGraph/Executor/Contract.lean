import LangGraph.Executor.ConcurrentExecutor
import LangGraph.Executor.SerialExecutor

/-!
# What the status of a submission means

For the concurrent executor the status is the truth in every run.  For the serial executor it is the
truth in the runs in which every dispatch was admitted, and in no others.
-/

namespace LangGraph

namespace Executor

/-- A task whose call returned OK is brought to its start by the workers, unless `close` of the serial
    executor threw it away, and one whose call failed is never started: after every run of the
    concurrent executor, and after a run of the serial one exactly if all its dispatches were
    admitted. -/
theorem executors_honour
    (maxPendingDispatch requested hardwareConcurrency maxPendingSubmit : Nat)
    (moves : List SerialExecutor.Move) (moves' : List ConcurrentExecutor.Move)
    (s : SerialExecutor.State) (s' : ConcurrentExecutor.State) :
    (SerialExecutor.run maxPendingDispatch moves = some s →
      (SerialExecutor.Honours maxPendingDispatch s ↔
        SerialExecutor.Admitted maxPendingDispatch moves)) ∧
    let threadCount := ConcurrentExecutor.resolveThreadCount requested hardwareConcurrency
    ConcurrentExecutor.run threadCount maxPendingSubmit moves' = some s' →
      ConcurrentExecutor.Honours threadCount maxPendingSubmit s' := by
  constructor
  · intro hrun; exact SerialExecutor.honours_iff hrun
  · intro threadCount hrun
    exact ConcurrentExecutor.honours_of_run
      (ConcurrentExecutor.resolveThreadCount_pos requested hardwareConcurrency) hrun

/-- One task runs and posts another, a third call comes after `close`, which throws the second task
    away. -/
def closedWithTasks : List SerialExecutor.Move :=
  [.begin 0 { kind := .post }, .check 0, .stamp 0, .enqueue 0, .take, .start,
    .begin 1 { kind := .post, onWorker := true }, .check 1, .stamp 1, .enqueue 1,
    .begin 2 { kind := .execute, onWorker := true }, .leave 2,
    .close 0 false, .begin 3 { kind := .post }, .check 3, .goOn 0, .goOn 0, .finish, .exit, .goOn 0]

/-- A call finds the queue of the pool full; the pool is shut down with a task in its queue, which a
    worker takes afterwards. -/
def shutDownWithTask : List ConcurrentExecutor.Move :=
  [.begin 0 { kind := .post }, .goOn 0, .goOn 0, .goOn 0,
    .begin 1 { kind := .execute }, .goOn 1, .goOn 1, .goOn 1, .goOn 1,
    .close 0, .closeOn 0, .closeOn 0, .take, .start 0]

theorem executors_honour_closed :
    (∃ s, SerialExecutor.run 2 closedWithTasks = some s ∧ s.started = [0, 2] ∧
      s.discarded = [1] ∧ SerialExecutor.Honours 2 s) ∧
    ∃ s, ConcurrentExecutor.run 1 1 shutDownWithTask = some s ∧ s.started = [0] ∧
      ConcurrentExecutor.Honours 1 1 s := by
  have hserial : ∃ s, SerialExecutor.run 2 closedWithTasks = some s ∧ s.started = [0, 2] ∧
      s.discarded = [1] := ⟨_, rfl, rfl, rfl⟩
  have hconcurrent : ∃ s, ConcurrentExecutor.run 1 1 shutDownWithTask = some s ∧
      s.started = [0] := ⟨_, rfl, rfl⟩
  obtain ⟨s, hs, hstarted, hdiscarded⟩ := hserial
  obtain ⟨s', hs', hstarted'⟩ := hconcurrent
  have hadmitted : SerialExecutor.Admitted 2 closedWithTasks := by decide +kernel
  have hboth := executors_honour 2 1 0 1 closedWithTasks shutDownWithTask s s'
  exact ⟨⟨s, hs, hstarted, hdiscarded, (hboth.1 hs).mpr hadmitted⟩, s', hs', hstarted', hboth.2 hs'⟩

/-- `close` comes between the look at the thread and the dispatch. -/
def closedBeforeDispatch : List SerialExecutor.Move :=
  [.begin 0 { kind := .post }, .check 0, .close 0 false, .stamp 0, .enqueue 0]

def queueFull : List SerialExecutor.Move :=
  [.begin 0 { kind := .post }, .check 0, .stamp 0, .enqueue 0,
    .begin 1 { kind := .post }, .check 1, .stamp 1, .enqueue 1]

/-- The call returned OK and its task is nowhere. -/
theorem serial_drops_task :
    (∃ s, SerialExecutor.run 0 closedBeforeDispatch = some s ∧
      s.answer 0 = some ({ kind := .post }, .ok ()) ∧ s.ledger.count 0 = 0 ∧
      ¬ SerialExecutor.Honours 0 s) ∧
    ∃ s, SerialExecutor.run 1 queueFull = some s ∧ s.running = true ∧
      s.answer 1 = some ({ kind := .post }, .ok ()) ∧ s.ledger.count 1 = 0 ∧
      ¬ SerialExecutor.Honours 1 s := by
  have hlost : ∀ {maxPendingDispatch : Nat} {s : SerialExecutor.State} (call : Call),
      s.answer call = some ({ kind := .post }, .ok ()) → s.ledger.count call = 0 →
      ¬ SerialExecutor.Honours maxPendingDispatch s := by
    intro maxPendingDispatch s call hanswer hnowhere h
    rw [h.accounts.once call _ hanswer] at hnowhere; cases hnowhere
  exact ⟨⟨_, rfl, rfl, rfl, hlost 0 rfl rfl⟩, _, rfl, rfl, rfl, rfl, hlost 1 rfl rfl⟩

end Executor

end LangGraph
