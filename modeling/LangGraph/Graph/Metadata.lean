import LangGraph.Graph.Types

/-!
# Run metadata in the state

A failed run leaves a `__run_error__` entry in the stored state and a paused run an
`__interrupt__` entry, which a later resume reads and removes.
-/

namespace LangGraph

def kInterruptStateKey : Bytes := lit "__interrupt__"

def kRunErrorStateKey : Bytes := lit "__run_error__"

/-! ## 1. Run errors -/

def runStatusFromStatus (status : Status) : RunStatus :=
  if status.code = .cancelled then .cancelled
  else if status.code = .resourceExhausted && ByteString.occursIn (lit "max steps") status.message then
    .maxStepsExceeded
  else .failed

def runErrorJson (status : Status) (node : Bytes) (step : Nat) (runStatus : RunStatus) : Json :=
  .object [(lit "code", .str status.codeName), (lit "message", .str status.toString),
    (lit "node", .str node),
    (lit "step", .ofNat step),
    (lit "status", match runStatus with
      | .cancelled => .ofText "cancelled"
      | .maxStepsExceeded => .ofText "max_steps_exceeded"
      | _ => .ofText "failed")]

def withRunErrorMetadata (state : State) (status : Status) (node : Bytes) (step : Nat)
    (runStatus : RunStatus) : Result State :=
  State.fromJsonValue (.obj
    (OrderedMap.set kRunErrorStateKey (runErrorJson status node step runStatus) state.view))

def withoutRunErrorMetadata (state : State) : Result State :=
  State.fromJsonValue (.obj (OrderedMap.erase kRunErrorStateKey state.view))

/-! ## 2. Interrupts -/

structure PendingInterrupt where
  interrupt : Interrupt
  node : Bytes
  order : Option Nat
deriving DecidableEq

structure InterruptMetadata where
  id : Bytes := []
  node : Bytes
  step : Nat := 0
  value : Json := .obj []
  resumeValues : Json := .obj []
  order : Option Nat := none
deriving DecidableEq

def interruptEntryJson (step : Nat) (pending : PendingInterrupt) : Json :=
  let base := OrderedMap.merge [] [(lit "id", .str pending.interrupt.id),
    (lit "node", .str pending.node),
    (lit "step", .ofNat step),
    (lit "value", pending.interrupt.value)]
  let withValues := if pending.interrupt.resumeValues.isEmpty then base
    else OrderedMap.set (lit "resume_values") pending.interrupt.resumeValues base
  match pending.order with
  | none => .obj withValues
  | some order => .obj (OrderedMap.set (lit "order") (.ofNat order) withValues)

def interruptStateJson (interrupts : List PendingInterrupt) (step : Nat) : Json :=
  .object [(lit "step", .ofNat step),
    (lit "interrupts", .arr (interrupts.map (interruptEntryJson step)))]

def withInterruptMetadata (state : State) (interrupts : List PendingInterrupt) (step : Nat) :
    Result State :=
  if interrupts = [] then State.fromJsonValue (.obj state.view)
  else State.fromJsonValue (.obj
    (OrderedMap.set kInterruptStateKey (interruptStateJson interrupts step) state.view))

def withoutInterruptMetadata (state : State) : Result State :=
  State.fromJsonValue (.obj (OrderedMap.erase kInterruptStateKey state.view))

def stateHasInterruptMetadata (state : State) : Bool :=
  OrderedMap.contains kInterruptStateKey state.view

def readUnsigned (value : Json) (key : Bytes) (fallback : Option Nat) (message : String) :
    Result (Option Nat) :=
  match value.field key with
  | none => .ok fallback
  | some (.int (.ofNat n)) => .ok (some n)
  | some _ => .error (.invalidArgument (lit message))

def readInterruptId (value : Json) : Result Bytes :=
  match value.field (lit "id") with
  | none => .ok []
  | some (.str id) => .ok id
  | some _ => .error (.invalidArgument (lit "interrupt metadata id must be a string"))

def readResumeValues (value : Json) : Result Json :=
  match value.field (lit "resume_values") with
  | none => .ok (.obj [])
  | some (.obj fields) => .ok (.obj fields)
  | some _ => .error (.invalidArgument (lit "interrupt metadata resume_values must be an object"))

def interruptMetadataFromJson (value : Json) (fallbackStep : Nat) : Result InterruptMetadata :=
  match value with
  | .obj _ =>
    match value.field (lit "node") with
    | some (.str node) => do
      let id ← readInterruptId value
      let step ← readUnsigned value (lit "step") (some fallbackStep)
        "interrupt metadata step must be an unsigned integer"
      let resumeValues ← readResumeValues value
      let order ← readUnsigned value (lit "order") none
        "interrupt metadata order must be an unsigned integer"
      return { id, node, step := step.getD fallbackStep
               value := (value.field (lit "value")).getD (.obj []), resumeValues, order }
    | _ => .error (.invalidArgument (lit "interrupt metadata node must be a string"))
  | _ => .error (.invalidArgument (lit "interrupt metadata entry must be an object"))

def interruptMetadataFromState (state : State) : Result (List InterruptMetadata) :=
  match OrderedMap.find kInterruptStateKey state.view with
  | none => .ok []
  | some (.obj fields) => do
    let step ← readUnsigned (.obj fields) (lit "step") (some 0)
      "interrupt metadata step must be an unsigned integer"
    match OrderedMap.find (lit "interrupts") fields with
    | some (.arr items) => items.mapM (interruptMetadataFromJson · (step.getD 0))
    | some _ => throw (.invalidArgument (lit "interrupt metadata interrupts must be an array"))
    | none => do
      let parsed ← interruptMetadataFromJson (.obj fields) (step.getD 0)
      return [parsed]
  | some _ => .error (.invalidArgument (lit "interrupt metadata must be an object"))

/-- The part of a resume command's value that answers one interrupt. -/
def resumeValueForInterrupt (commandValue : Json) (metadata : InterruptMetadata)
    (interruptCount : Nat) : Result Json :=
  -- values from earlier resumes are kept and the new one added to them
  if metadata.resumeValues.isEmpty = false then
    match metadata.resumeValues with
    | .obj values =>
      match commandValue with
      | .obj fields => .ok (.obj (OrderedMap.merge values fields))
      | other =>
        if metadata.id ≠ [] then .ok (.obj (OrderedMap.set metadata.id other values))
        else .ok (.obj (OrderedMap.set (lit "value") other values))
    | _ => .error (.invalidArgument (lit "interrupt metadata resume_values must be an object"))
  else if interruptCount ≤ 1 then .ok commandValue
  else match commandValue with
    | .obj fields =>
      -- the id of the interrupt goes before the name of its node
      match (if metadata.id ≠ [] then OrderedMap.find metadata.id fields else none) with
      | some value => .ok value
      | none =>
        match OrderedMap.find metadata.node fields with
        | some value => .ok value
        | none => .error (.failedPrecondition
            (lit "resume value missing for interrupted node: " ++ metadata.node))
    | _ => .error (.invalidArgument
        (lit "multi-interrupt resume value must be an object keyed by interrupt id or node"))

def interruptFromRuntimeRequest (request : Json) : Result Interrupt :=
  match request with
  | .obj fields =>
    match OrderedMap.find (lit "id") fields with
    | some (.str id) =>
      let value := (OrderedMap.find (lit "value") fields).getD (.obj [])
      match OrderedMap.find (lit "resume_values") fields with
      | none => .ok { id, value }
      | some (.obj values) => .ok { id, value, resumeValues := .obj values }
      | some _ => .error (.invalidArgument
          (lit "runtime interrupt request resume_values must be an object"))
    | _ => .error (.invalidArgument (lit "runtime interrupt request id must be a string"))
  | _ => .error (.invalidArgument (lit "runtime interrupt request must be an object"))

/-! ## 3. Schemas -/

def validateStateSchema (state : State) (schema : Option JsonSchema) (label : String) :
    Result Unit :=
  match schema with
  | none => .ok ()
  | some check =>
    match check (.obj state.view) with
    | .ok () => .ok ()
    | .error status =>
      .error ⟨status.code, lit label ++ lit " schema validation failed: " ++ status.toString⟩

/-! ## 4. Removing what was added -/

theorem withoutRunErrorMetadata_of_with {state failed : State} {status : Status} {node : Bytes}
    {step : Nat} {runStatus : RunStatus}
    (hkey : OrderedMap.find kRunErrorStateKey state.view = none)
    (h : withRunErrorMetadata state status node step runStatus = .ok failed) :
    withoutRunErrorMetadata failed = .ok state := by
  unfold withoutRunErrorMetadata
  rw [State.view_of_fromJsonValue h, OrderedMap.erase_set_of_find_none hkey]
  exact State.fromJsonValue_view state

theorem withoutRunErrorMetadata_of_find_none {state : State}
    (hkey : OrderedMap.find kRunErrorStateKey state.view = none) :
    withoutRunErrorMetadata state = .ok state := by
  unfold withoutRunErrorMetadata
  rw [OrderedMap.erase_of_find_none hkey]; exact State.fromJsonValue_view state

end LangGraph
