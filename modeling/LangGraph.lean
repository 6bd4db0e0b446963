import LangGraph.Graph.Contract
import LangGraph.Graph.Isolation
import LangGraph.Graph.Cancellation
import LangGraph.Checkpoint.StorageSaver
import LangGraph.Foundation.HttpWorker
import LangGraph.Store.Readback
import LangGraph.Store.Agreement
import LangGraph.Model.Stream
import LangGraph.Graph.Answering
import LangGraph.Channel.Wakeups
import LangGraph.Executor.Contract
import LangGraph.Versioning.Migration
import LangGraph.Scheduler.Deadlock
import LangGraph.Scheduler.Notifications
import LangGraph.Graph.Validation
import LangGraph.Graph.StepLimit
import LangGraph.Checkpoint.DeltaHistory
import LangGraph.Foundation.SseParser
import LangGraph.Foundation.RateLimiter
import LangGraph.Foundation.Redactor
