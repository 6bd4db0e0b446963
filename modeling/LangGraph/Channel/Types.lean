import LangGraph.Foundation.Status
import LangGraph.Lib.MonitorSerial

/-!
# Channels

What the two channels have in common: the condition variables, what an operation answers, and the
status of a cancelled one.  A call of an operation is named by a number, and so is a cancellation
token; a thread that makes several calls has several numbers.
-/

namespace LangGraph

namespace Channel

abbrev Call := Nat

abbrev Token := Nat

inductive Condition where
  | notEmpty
  | notFull
deriving DecidableEq

inductive Answer (α : Type) where
  | sent (status : Result Unit)
  | received (value : Result (Option α))
  | closed
deriving DecidableEq

/-- `token.check(message)` for a token that was cancelled for this reason. -/
def cancelledStatus (reason message : Bytes) : Status :=
  .cancelled (if reason = [] then message else reason)

def sendCancelled {α : Type} (reason : Bytes) : Answer α :=
  .sent (.error (cancelledStatus reason (lit "channel send cancelled")))

def receiveCancelled {α : Type} (reason : Bytes) : Answer α :=
  .received (.error (cancelledStatus reason (lit "channel receive cancelled")))

def sendTimedOut {α : Type} : Answer α :=
  .sent (.error (.deadlineExceeded (lit "channel send timed out")))

def receiveTimedOut {α : Type} : Answer α :=
  .received (.error (.deadlineExceeded (lit "channel receive timed out")))

def sendRejected {α : Type} : Answer α := .sent (.error (.unavailable (lit "channel is closed")))

/-- `notifyBlockedOperations`, without the waiters of a `select`. -/
def notifyBlockedOperations : List Condition := [.notEmpty, .notFull]

end Channel

end LangGraph
