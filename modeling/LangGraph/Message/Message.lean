import LangGraph.Message.UsageMetadata

/-!
# Messages

A message is written with its content twice, as text and as content blocks, and an AI message
with its tool calls twice, as `tool_calls` and as blocks of type `tool_call`.  The reader puts the
two forms together again and normalises the blocks of other providers.
-/

namespace LangGraph

open ExceptList ByteString

/-! ## 1. Messages -/

inductive MessageType where
  | system | human | ai | tool
deriving DecidableEq

def providerRoleName : MessageType → Bytes
  | .system => lit "system"
  | .human => lit "user"
  | .ai => lit "assistant"
  | .tool => lit "tool"

def messageTypeFromRole (role : Bytes) : Result MessageType :=
  if role = lit "system" then .ok .system
  else if role = lit "user" ∨ role = lit "human" then .ok .human
  else if role = lit "assistant" ∨ role = lit "ai" then .ok .ai
  else if role = lit "tool" then .ok .tool
  else .error (invalid "unknown message role")

def messageTypeName : MessageType → Bytes
  | .system => lit "system"
  | .human => lit "human"
  | .ai => lit "ai"
  | .tool => lit "tool"

def messageTypeFromName (name : Bytes) : Result MessageType :=
  if name = lit "system" then .ok .system
  else if name = lit "human" then .ok .human
  else if name = lit "ai" then .ok .ai
  else if name = lit "tool" then .ok .tool
  else .error (invalid "unknown message type")

structure ToolCall where
  id : Bytes
  name : Bytes
  args : Json := .obj []
deriving DecidableEq

/-- A message.  The content blocks are a JSON array in every message the runtime builds. -/
structure BaseMessage where
  id : Bytes := []
  type : MessageType := .human
  content : Bytes := []
  contentBlocks : List Json := []
  toolCalls : List ToolCall := []
  toolCallId : Bytes := []
  name : Bytes := []
  usageMetadata : UsageMetadata := {}
  responseMetadata : Json := .null
  artifact : Json := .null
deriving DecidableEq

def Json.isString : Json → Bool
  | .str _ => true
  | _ => false

def Json.isStringOrNull (value : Json) : Bool := value.isString || value.isNull

def Json.isUnsignedOrNull : Json → Bool
  | .int (.ofNat _) => true
  | .null => true
  | _ => false

/-! ## 2. Content blocks -/

def textContentBlock (text : Bytes) : Json :=
  .object [(lit "type", .ofText "text"), (lit "text", .str text)]

def contentBlocksFromText (text : Bytes) : List Json :=
  if text = [] then [] else [textContentBlock text]

def isKnownMultimodalBlock (type : Bytes) : Bool :=
  type = lit "image" || type = lit "audio" || type = lit "video" || type = lit "file"

def blockField (block : JsonObject) (key : String) : Option Json := OrderedMap.find (lit key) block

/-- The type of a block, which is a string wherever this is used. -/
def blockType (block : JsonObject) : Bytes :=
  match blockField block "type" with
  | some (.str type) => type
  | _ => []

/-- The image of an `image_url` block: a text, or an object whose other fields are kept. -/
def imageBlock : Json → Result JsonObject
  | .str url => .ok (OrderedMap.merge [] [(lit "type", .ofText "image"), (lit "url", .str url)])
  | .obj image =>
    match blockField image "url" with
    | some (.str url) =>
      let extras := OrderedMap.erase (lit "url") image
      .ok (OrderedMap.merge [] ([(lit "type", .ofText "image"), (lit "url", .str url)] ++
        entryIf (!extras.isEmpty) "extras" (.obj extras)))
    | _ => .error (invalid "image_url content block requires image_url.url")
  | _ => .error (invalid "image_url content block requires image_url.url")

def audioData (audio : JsonObject) : JsonObject :=
  match blockField audio "data" with
  | some (.str text) => [(lit "base64", .str text)]
  | _ => []

def audioMimeType (audio : JsonObject) : JsonObject :=
  match blockField audio "format" with
  | some (.str format) => [(lit "mime_type", .str (lit "audio/" ++ format))]
  | _ => []

def audioBlock (audio : JsonObject) : JsonObject :=
  OrderedMap.merge [] ([(lit "type", .ofText "audio")] ++ audioData audio ++ audioMimeType audio)

def normalizeProviderContentBlock (block : JsonObject) : Result JsonObject :=
  if blockType block = lit "image_url" then
    match blockField block "image_url" with
    | some image => imageBlock image
    | none => .error (invalid "image_url content block requires image_url")
  else if blockType block = lit "input_audio" then
    match blockField block "input_audio" with
    | some (.obj audio) => .ok (audioBlock audio)
    | _ => .error (invalid "input_audio content block requires input_audio object")
  else .ok block

def normalizeTextBlock (block : JsonObject) : Result JsonObject := do
  require ((blockField block "text").any Json.isString)
    (invalid "text content block requires text")
  return block

/-- A reasoning block that has only a text gets it as its reasoning. -/
def withReasoning (block : JsonObject) : JsonObject :=
  match blockField block "text", blockField block "reasoning" with
  | some text, none => OrderedMap.set (lit "reasoning") text block
  | _, _ => block

def normalizeReasoningBlock (block : JsonObject) : Result JsonObject := do
  require ((blockField (withReasoning block) "reasoning").all Json.isString)
    (invalid "reasoning content block reasoning must be a string")
  return withReasoning block

def normalizeMultimodalBlock (block : JsonObject) : Result JsonObject := do
  require ((blockField block "base64").all Json.isString)
    (invalid "multimodal content block base64 must be a string")
  require ((blockField block "base64").isNone || (blockField block "mime_type").any Json.isString)
    (invalid "base64 multimodal content block requires mime_type")
  require (["url", "file_id", "id", "mime_type"].all fun key =>
      (blockField block key).all Json.isString)
    (invalid "multimodal content block string field has invalid type")
  return block

def withArgs (block : JsonObject) : JsonObject :=
  match blockField block "args" with
  | some _ => block
  | none => OrderedMap.set (lit "args") (.obj []) block

def normalizeToolCallBlock (block : JsonObject) : Result JsonObject := do
  require ((blockField block "name").any Json.isString)
    (invalid "tool_call content block requires name")
  require ((blockField (withArgs block) "args").any Json.isObject)
    (invalid "tool_call content block args must be an object")
  require ((blockField block "id").all Json.isStringOrNull)
    (invalid "tool_call content block id must be a string or null")
  return withArgs block

def normalizeToolCallChunkBlock (block : JsonObject) : Result JsonObject := do
  require ((blockField block "id").all Json.isStringOrNull)
    (invalid "tool_call_chunk id must be a string or null")
  require ((blockField block "name").all Json.isStringOrNull)
    (invalid "tool_call_chunk name must be a string or null")
  require ((blockField block "args").all Json.isString)
    (invalid "tool_call_chunk args must be a string")
  require ((blockField block "index").all Json.isUnsignedOrNull)
    (invalid "tool_call_chunk index must be unsigned or null")
  return block

/-- The checks of a block by its type; a block of another type is kept as it is. -/
def normalizeTypedBlock (block : JsonObject) : Result JsonObject :=
  if blockType block = lit "text" then normalizeTextBlock block
  else if blockType block = lit "reasoning" then normalizeReasoningBlock block
  else if isKnownMultimodalBlock (blockType block) then normalizeMultimodalBlock block
  else if blockType block = lit "tool_call" then normalizeToolCallBlock block
  else if blockType block = lit "tool_call_chunk" then normalizeToolCallChunkBlock block
  else .ok block

def normalizeContentBlock : Json → Result Json
  | .obj block => do
    require ((blockField block "type").any Json.isString) (invalid "content block type is required")
    let provided ← normalizeProviderContentBlock block
    let normalized ← normalizeTypedBlock provided
    return .obj normalized
  | _ => .error (invalid "content block must be a JSON object")

def normalizeContentBlocks : Json → Result (List Json)
  | .arr items => items.mapM normalizeContentBlock
  | _ => .error (invalid "content_blocks must be an array")

def blockText (block : Json) : Bytes :=
  match block.field (lit "text") with
  | some (.str text) => if block.field (lit "type") = some (.ofText "text") then text else []
  | _ => []

def contentBlocksText (blocks : List Json) : Bytes := blocks.flatMap blockText

/-! ## 3. Tool calls -/

def isToolCallBlock (block : Json) : Bool := block.field (lit "type") = some (.ofText "tool_call")

def toolCallToJson (call : ToolCall) : Json :=
  .object [(lit "id", .str call.id), (lit "name", .str call.name), (lit "args", call.args)]

def requiredText (value : Json) (key message : String) : Result Bytes :=
  match value.field (lit key) with
  | some (.str text) => .ok text
  | _ => .error (invalid message)

def requiredArgs (value : Json) : Result Json :=
  match value.field (lit "args") with
  | some (.obj args) => .ok (.obj args)
  | some _ => .error (invalid "tool call args must be a JSON object")
  | none => .error (invalid "tool call args are required")

def toolCallFromJson (value : Json) : Result ToolCall := do
  require value.isObject (invalid "tool call must be a JSON object")
  let id ← requiredText value "id" "tool call id is required"
  let name ← requiredText value "name" "tool call name is required"
  let args ← requiredArgs value
  require (id ≠ []) (invalid "tool call id cannot be empty")
  require (name ≠ []) (invalid "tool call name cannot be empty")
  return { id, name, args }

def toolCallContentBlock (call : ToolCall) : Json :=
  .object [(lit "type", .ofText "tool_call"),
    (lit "id", if call.id = [] then .null else .str call.id), (lit "name", .str call.name),
    (lit "args", call.args)]

/-! ## 4. Writing -/

/-- The blocks of a message, from its text if it has none. -/
def BaseMessage.ownBlocks (message : BaseMessage) : List Json :=
  if message.contentBlocks = [] then contentBlocksFromText message.content
  else message.contentBlocks

def messageContentBlocks (message : BaseMessage) : List Json :=
  if message.type = .ai ∧ message.ownBlocks.any isToolCallBlock = false then
    message.ownBlocks ++ message.toolCalls.map toolCallContentBlock
  else message.ownBlocks

def BaseMessage.writtenContent (message : BaseMessage) : Bytes :=
  if message.content = [] then contentBlocksText message.contentBlocks else message.content

def baseMessageToJson (message : BaseMessage) : Json := .object (
  [(lit "type", .str (messageTypeName message.type)),
    (lit "role", .str (providerRoleName message.type)),
    (lit "content", .str message.writtenContent)] ++
  entryIf (messageContentBlocks message ≠ []) "content_blocks" (.arr (messageContentBlocks message)) ++
  entryIf (message.id ≠ []) "id" (.str message.id) ++
  entryIf (message.toolCalls ≠ []) "tool_calls" (.arr (message.toolCalls.map toolCallToJson)) ++
  entryIf (message.toolCallId ≠ []) "tool_call_id" (.str message.toolCallId) ++
  entryIf (message.name ≠ []) "name" (.str message.name) ++
  entryIf (!message.usageMetadata.empty) "usage_metadata"
    (usageMetadataToJson message.usageMetadata) ++
  entryIf (!message.responseMetadata.isNull) "response_metadata" message.responseMetadata ++
  entryIf (!message.artifact.isNull) "artifact" message.artifact)

def messagesToJson (messages : List BaseMessage) : Json := .arr (messages.map baseMessageToJson)

/-! ## 5. Reading -/

def isContent : Json → Bool
  | .str _ => true
  | .arr _ => true
  | .null => true
  | _ => false

def checkMessageFields (value : Json) : Result Unit := do
  require value.isObject (invalid "message must be a JSON object")
  require ((value.field (lit "type")).isSome || (value.field (lit "role")).isSome)
    (invalid "message type or role is required")
  require ((value.field (lit "type")).all Json.isString) (invalid "message type must be a string")
  require ((value.field (lit "role")).all Json.isString) (invalid "message role must be a string")
  require ((value.field (lit "content")).all isContent)
    (invalid "message content must be a string, array, or null")
  require ((value.field (lit "content_blocks")).all Json.isArray)
    (invalid "message content_blocks must be an array")

def messageTypeFromJson (value : Json) : Result MessageType :=
  match value.field (lit "type"), value.field (lit "role") with
  | some (.str name), _ => messageTypeFromName name
  | none, some (.str role) => messageTypeFromRole role
  | _, _ => .error (invalid "message type or role is required")

def blocksFromJson (value : Json) : Result (List Json) :=
  match value.field (lit "content_blocks"), value.field (lit "content") with
  | some blocks, _ => normalizeContentBlocks blocks
  | none, some (.arr items) => normalizeContentBlocks (.arr items)
  | none, _ => .ok []

/-- The text of a message and its blocks, each from the other where it is missing. -/
def contentFromJson (value : Json) (blocks : List Json) : Bytes × List Json :=
  match value.field (lit "content") with
  | some (.str text) => (text, if blocks = [] then contentBlocksFromText text else blocks)
  | _ => (contentBlocksText blocks, blocks)

def toolCallsFromJson (value : Json) : Result (List ToolCall) := do
  let items ← expectArray "message tool_calls must be an array" value
  items.mapM toolCallFromJson

def toolCallOfBlock (block : Json) : Result ToolCall :=
  match block.field (lit "id"), block.field (lit "name"), block.field (lit "args") with
  | some (.str id), some (.str name), some (.obj args) => .ok { id, name, args := .obj args }
  | _, _, _ => .error (invalid "tool_call content block requires id, name, and object args")

def ToolCall.knownTo (call : ToolCall) (calls : List ToolCall) : Bool :=
  calls.any fun other => other.id = call.id && other.name = call.name

/-- One block of an AI message: a tool call moves to the calls of the message. -/
def liftToolCallBlock (lifted : List Json × List ToolCall) (block : Json) :
    Result (List Json × List ToolCall) :=
  if isToolCallBlock block then do
    let call ← toolCallOfBlock block
    return if call.knownTo lifted.2 then lifted else (lifted.1, lifted.2 ++ [call])
  else .ok (lifted.1 ++ [block], lifted.2)

def liftToolCallBlocks (type : MessageType) (blocks : List Json) (calls : List ToolCall) :
    Result (List Json × List ToolCall) :=
  if type = .ai then blocks.foldlM liftToolCallBlock ([], calls) else .ok (blocks, calls)

def checkMessage (message : BaseMessage) : Result Unit := do
  require (message.type ≠ .tool || message.toolCallId ≠ [])
    (invalid "tool message requires tool_call_id")
  require (message.type = .ai || message.content ≠ [] || message.contentBlocks ≠ [] ||
      message.toolCalls ≠ [])
    (invalid "message content is required")

def baseMessageFromJson (value : Json) : Result BaseMessage := do
  checkMessageFields value
  let type ← messageTypeFromJson value
  let given ← blocksFromJson value
  let id ← fieldOr value "id" [] (expectString "message id must be a string")
  let listed ← fieldOr value "tool_calls" [] toolCallsFromJson
  let lifted ← liftToolCallBlocks type (contentFromJson value given).2 listed
  let toolCallId ← fieldOr value "tool_call_id" []
    (expectString "message tool_call_id must be a string")
  let name ← fieldOr value "name" [] (expectString "message name must be a string")
  let usageMetadata ← fieldOr value "usage_metadata" {} usageMetadataFromJson
  let message : BaseMessage := {
    id, type, toolCallId, name, usageMetadata
    content := (contentFromJson value given).1
    contentBlocks := lifted.1
    toolCalls := lifted.2
    responseMetadata := (value.field (lit "response_metadata")).getD .null
    artifact := (value.field (lit "artifact")).getD .null }
  checkMessage message
  return message

def messagesFromJson : Json → Result (List BaseMessage)
  | .arr items => items.mapM baseMessageFromJson
  | _ => .error (invalid "messages must be a JSON array")

/-! ## 6. The `add_messages` reducer -/

/-- A value of the channel: a list of messages, or one message. -/
def messagesFromAddMessagesValue : Json → Result (List BaseMessage)
  | .arr items => messagesFromJson (.arr items)
  | .obj fields => do
    let message ← baseMessageFromJson (.obj fields)
    return [message]
  | _ => .error (invalid "add_messages reducer value must be a message or message array")

/-- Where the messages with an id stand; of several with one id, the last. -/
def indexMessages (messages : List BaseMessage) : List (Bytes × Nat) :=
  messages.zipIdx.foldl (fun indexById entry =>
    if entry.1.id = [] then indexById else OrderedMap.set entry.1.id entry.2 indexById) []

/-- A message with a known id takes the place of the one there; another one comes last. -/
def addMessage (added : List BaseMessage × List (Bytes × Nat)) (message : BaseMessage) :
    List BaseMessage × List (Bytes × Nat) :=
  if message.id = [] then (added.1 ++ [message], added.2)
  else match OrderedMap.find message.id added.2 with
    | some index => (added.1.set index message, added.2)
    | none => (added.1 ++ [message], OrderedMap.set message.id added.1.length added.2)

/-- The messages the channel has, none where it is absent or null. -/
def messagesFromChannel (value : Json) : Result (List BaseMessage) :=
  if value.isNull then .ok [] else messagesFromAddMessagesValue value

/-- The merge of the `add_messages` reducer, for `ReducerRegistry.addMessages`. -/
def addMessages (current value : Json) : Result Json := do
  let left ← messagesFromChannel current
  let right ← messagesFromAddMessagesValue value
  return messagesToJson (right.foldl addMessage (left, indexMessages left)).1

end LangGraph
