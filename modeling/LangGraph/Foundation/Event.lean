import LangGraph.Foundation.JsonLibrary

/-!
# Runtime events

The events a run publishes and the check every published event must pass.  The event id, sequence
number and timestamp, which `ensureRuntimeEventIdentity` always fills in with valid values, are
left out.
-/

namespace LangGraph

inductive RuntimeEventType where
  | unknown | runStarted | runCompleted | runFailed | nodeStarted | nodeCompleted | nodeFailed
  | toolCallStarted | toolCallCompleted | toolCallFailed | token | stateUpdated
  | checkpointCreated | interruptRequested | custom
deriving DecidableEq

structure RuntimeEvent where
  type : RuntimeEventType
  runId : Bytes := []
  threadId : Bytes := []
  step : Nat := 0
  node : Bytes := []
  name : Bytes := []
  message : Bytes := []
  payload : Json := .obj []
deriving DecidableEq

/-- The limits of `RuntimeEventLimits`; zero means no limit. -/
structure RuntimeEventLimits where
  maxPayloadBytes : Nat := 64 * 1024
  maxStringLength : Nat := 4096
  maxJsonDepth : Nat := 32
  maxJsonNodes : Nat := 4096
  maxJsonItems : Nat := 1024

section Validate

variable (json : JsonLibrary) (limits : RuntimeEventLimits)

def validRuntimeIdChar (ch : UInt8) : Bool :=
  (48 ≤ ch && ch ≤ 57) || (65 ≤ ch && ch ≤ 90) || (97 ≤ ch && ch ≤ 122) || ch ∈ lit "_-.:/@"

def validateStringLength (value field : Bytes) : Result Unit :=
  if limits.maxStringLength = 0 || value.length ≤ limits.maxStringLength then .ok ()
  else .error (.resourceExhausted (lit "runtime event field is too long: " ++ field))

def validateIdField (value field : Bytes) : Result Unit :=
  if value = [] then .ok ()
  else do
    validateStringLength limits value field
    if value.all validRuntimeIdChar then return ()
    else throw (.invalidArgument
      (lit "runtime event id field contains invalid characters: " ++ field))

/-- The depth and node checks made on entering a value; the result is the new node count. -/
def enterJsonValue (depth nodes : Nat) : Result Nat :=
  if limits.maxJsonDepth ≠ 0 && limits.maxJsonDepth < depth then
    .error (.resourceExhausted (lit "runtime event payload exceeds max json depth"))
  else if limits.maxJsonNodes = 0 then .ok nodes
  else if limits.maxJsonNodes < nodes + 1 then
    .error (.resourceExhausted (lit "runtime event payload exceeds max json nodes"))
  else .ok (nodes + 1)

mutual
/-- Checks a value; the result is the number of values seen so far. -/
def validateJsonValue (depth nodes : Nat) : Json → Result Nat
  | .obj fields => do
    let nodes ← enterJsonValue limits depth nodes
    if limits.maxJsonItems ≠ 0 && limits.maxJsonItems < fields.length then
      throw (.resourceExhausted (lit "runtime event payload object has too many fields"))
    else validateJsonFields (depth + 1) nodes fields
  | .arr items => do
    let nodes ← enterJsonValue limits depth nodes
    if limits.maxJsonItems ≠ 0 && limits.maxJsonItems < items.length then
      throw (.resourceExhausted (lit "runtime event payload array has too many items"))
    else validateJsonItems (depth + 1) nodes items
  | .str text => do
    let nodes ← enterJsonValue limits depth nodes
    validateStringLength limits text (lit "payload_string")
    return nodes
  | _ => enterJsonValue limits depth nodes
def validateJsonItems (depth nodes : Nat) : List Json → Result Nat
  | [] => .ok nodes
  | item :: items => do
    let nodes ← validateJsonValue depth nodes item
    validateJsonItems depth nodes items
def validateJsonFields (depth nodes : Nat) : JsonObject → Result Nat
  | [] => .ok nodes
  | (k, value) :: fields => do
    validateStringLength limits k (lit "payload_key")
    let nodes ← validateJsonValue depth nodes value
    validateJsonFields depth nodes fields
end

def validatePayload (payload : Json) : Result Unit := do
  let _ ← validateJsonValue limits 0 0 payload
  match json.dump payload with
  | .error what =>
    throw (.invalidArgument (lit "runtime event payload serialization failed: " ++ what))
  | .ok text =>
    if limits.maxPayloadBytes ≠ 0 && limits.maxPayloadBytes < text.length then
      throw (.resourceExhausted (lit "runtime event payload exceeds max bytes"))
    else return ()

def validateRuntimeEvent (event : RuntimeEvent) : Result Unit := do
  if event.type = .unknown then
    throw (.invalidArgument (lit "runtime event type cannot be unknown"))
  if event.type = .custom && event.name = [] then
    throw (.invalidArgument (lit "custom runtime event name cannot be empty"))
  validateStringLength limits event.runId (lit "run_id")
  validateStringLength limits event.threadId (lit "thread_id")
  validateStringLength limits event.node (lit "node")
  validateStringLength limits event.name (lit "name")
  validateStringLength limits event.message (lit "message")
  validateIdField limits event.runId (lit "run_id")
  validateIdField limits event.threadId (lit "thread_id")
  validatePayload json limits event.payload

end Validate

end LangGraph
