import LangGraph.Foundation.Status
import LangGraph.Lib.Ledger

/-!
# Executors

What the two executors have in common: what is submitted, how a call that runs its task itself
answers, and what a caller may rely on.  A call is named by a number, and so is its task.
-/

namespace LangGraph

namespace Executor

abbrev Call := Nat

inductive Kind where
  | post
  | postDelayed (delay : Int)
  | execute
deriving DecidableEq

inductive Ending where
  | returns
  | throws (what : Bytes)
  | throwsOther
deriving DecidableEq

/-- A call with its task.  `onWorker` says that a task of this executor makes the call. -/
structure Submission where
  kind : Kind
  empty : Bool := false
  onWorker : Bool := false
  ending : Ending := .returns
deriving DecidableEq

namespace Submission

/-- The call runs its task itself: `execute` on a thread of the executor. -/
def inline (submission : Submission) : Bool :=
  submission.kind = .execute && submission.onWorker && !submission.empty

def runTask (submission : Submission) : Result Unit :=
  match submission.ending with
  | .returns => .ok ()
  | .throws what => .error (.internal (lit "executor task threw: " ++ what))
  | .throwsOther => .error (.internal (lit "executor task threw a non-std exception"))

end Submission

def emptyTask : Result Unit :=
  .error (.invalidArgument (lit "executor task must not be empty"))

/-- What the callers of an executor rely on: a call that returned OK has its task at one place, and
    one that returned an error without running its task itself has it nowhere. -/
structure Accounts (ledger : Ledger Call) (answer : Call → Option (Submission × Result Unit)) :
    Prop where
  once : ∀ call submission, answer call = some (submission, .ok ()) → ledger.count call = 1
  never : ∀ call submission status, answer call = some (submission, .error status) →
    submission.inline = false → ledger.count call = 0

/-- Nothing waits: every task whose call returned OK was started once, unless it was thrown away. -/
theorem Accounts.started {ledger : Ledger Call} {answer : Call → Option (Submission × Result Unit)}
    (h : Accounts ledger answer) (hqueued : ledger.queued = []) (hheld : ledger.held = [])
    {call : Call} {submission : Submission}
    (hanswer : answer call = some (submission, .ok ())) :
    ledger.started.count call + ledger.discarded.count call = 1 := by
  have hone := h.once call submission hanswer
  simp only [Ledger.count, hqueued, hheld] at hone; omega

end Executor

end LangGraph
