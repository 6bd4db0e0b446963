import LangGraph.Graph.Types

/-!
# Event payloads

The JSON payloads of the events a run emits about its tasks, writes and checkpoints.
-/

namespace LangGraph

def namespacePathFromString (nameSpace : Bytes) : Json :=
  .arr (((nameSpace.splitOn 124).filter (· ≠ [])).map .str)

def setIf (condition : Bool) (key : String) (value : Json) (payload : JsonObject) : JsonObject :=
  if condition then OrderedMap.set (lit key) value payload else payload

def setNamespace (nameSpace : Bytes) (payload : JsonObject) : JsonObject :=
  if nameSpace = [] then payload
  else OrderedMap.merge payload [(lit "checkpoint_ns", .str nameSpace), (lit "ns", .str nameSpace),
    (lit "namespace", namespacePathFromString nameSpace)]

def setOptional (key : String) (value : Option Json) (payload : JsonObject) : JsonObject :=
  match value with
  | some value => OrderedMap.set (lit key) value payload
  | none => payload

def taskRuntimePayload (task : CheckpointTask) (step : Nat) : JsonObject :=
  let base := OrderedMap.merge [] [(lit "id", .str task.taskId), (lit "task_id", .str task.taskId),
    (lit "name", .str task.nodeId),
    (lit "node", .str task.nodeId),
    (lit "node_id", .str task.nodeId),
    (lit "step", .ofNat step)]
  setOptional "state" (task.state.map fun s => .obj s.view)
    (setIf (!task.metadata.isEmpty) "metadata" task.metadata
      (setIf (!task.interrupts.isEmpty) "interrupts" task.interrupts
        (setOptional "error" (task.error.map .str)
          (setOptional "order" (task.order.map .ofNat)
            (setNamespace task.checkpointNamespace base)))))

def statusPayload (status : Status) : Json :=
  .object [(lit "message", .str status.toString), (lit "code", .str status.codeName)]

def taskFailurePayload (task : CheckpointTask) (step : Nat) (status : Status) : Json :=
  .obj (OrderedMap.set (lit "error") (statusPayload status) (taskRuntimePayload task step))

def nodeStartedPayload (task : CheckpointTask) (inputState : State) (step : Nat) : Json :=
  .obj (OrderedMap.merge (taskRuntimePayload task step) [
    (lit "input", .obj (task.state.getD inputState).view),
    (lit "triggers", .arr (if step = 1 then [.str START] else []))])

def stateUpdatePayload (update : StateUpdate) : JsonObject := [(lit "update", .obj update.values)]

def nodeCompletedPayload (task : CheckpointTask) (update : StateUpdate) (step : Nat) : Json :=
  .obj (OrderedMap.merge (taskRuntimePayload task step) [
    (lit "result", .obj (stateUpdatePayload update)),
    (lit "update", .obj update.values)])

def writePayload (write : CheckpointWrite) : Json :=
  .obj (setIf (!write.metadata.isEmpty) "metadata" write.metadata
    (setOptional "order" (write.order.map .ofNat)
      (setNamespace write.checkpointNamespace
        (setIf (write.taskId ≠ []) "task_id" (.str write.taskId)
          (stateUpdatePayload ⟨write.update.view⟩)))))

def runnableConfig (threadId checkpointId checkpointNamespace : Bytes) : Json :=
  .object [(lit "configurable", .obj
    (OrderedMap.set (lit "checkpoint_ns") (.str checkpointNamespace)
      (setIf (checkpointId ≠ []) "checkpoint_id" (.str checkpointId)
        (setIf (threadId ≠ []) "thread_id" (.str threadId) []))))]

def unixMillis (time : Int) : Int := time.tdiv 1000000

def checkpointTaskPayload (task : CheckpointTask) : Json :=
  let base := OrderedMap.merge [] [(lit "id", .str task.taskId), (lit "name", .str task.nodeId)]
  .obj (OrderedMap.set (lit "state")
    (match task.state with
      | some s => .obj s.view
      | none => .null)
    (setIf (!task.interrupts.isEmpty) "interrupts" task.interrupts
      (setOptional "error" (task.error.map .str) base)))

def checkpointPayload (checkpoint : Checkpoint) : Json :=
  let metadata := match checkpoint.metadata with
    | .obj fields => fields
    | _ => []
  .object [(lit "values", .obj checkpoint.state.view),
    (lit "next", .arr (checkpoint.nextNodes.map .str)),
    (lit "tasks", .arr (checkpoint.nextTasks.map checkpointTaskPayload)),
    (lit "config", runnableConfig checkpoint.threadId checkpoint.checkpointId
      checkpoint.checkpointNamespace),
    (lit "parent_config", match checkpoint.parentCheckpointId with
      | some parent => runnableConfig checkpoint.threadId parent checkpoint.checkpointNamespace
      | none => .null),
    (lit "metadata", .obj (OrderedMap.merge metadata [(lit "step", .ofNat checkpoint.step),
      (lit "created_at_ms", .int (unixMillis checkpoint.createdAt))]))]

end LangGraph
