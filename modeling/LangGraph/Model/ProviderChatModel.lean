import LangGraph.Message.Message

/-!
# The answers of a provider

`ProviderChatModel` turns the JSON body of an HTTP response into an AI message, or assembles one
from the events of a stream.  The JSON parser, the token counter and the handler of the chunks are
parameters.  Where the source reads a field with `json::value` and it has another type, the library
throws; that is an error here.
-/

namespace LangGraph

open ExceptList ByteString

/-! ## 1. Options -/

inductive ChatProviderKind where
  | openAICompatible | anthropic | qwen | deepSeek
deriving DecidableEq

def chatProviderName : ChatProviderKind → Bytes
  | .openAICompatible => lit "openai-compatible"
  | .anthropic => lit "anthropic"
  | .qwen => lit "qwen"
  | .deepSeek => lit "deepseek"

structure TokenCounter where
  countTextTokens : Bytes → Result Nat
  countMessageTokens : List BaseMessage → Result Nat

/-- What the answers depend on; `parse` is the parser of the JSON library. -/
structure ProviderChatModel where
  provider : ChatProviderKind
  model : Bytes
  tokenCounter : Option TokenCounter := none
  parse : Bytes → Except Bytes Json

structure HttpResponse where
  statusCode : Nat
  body : Bytes

def httpStatusOk (statusCode : Nat) : Bool := 200 ≤ statusCode && statusCode < 300

def parseJsonResult (parse : Bytes → Except Bytes Json) (text context : Bytes) : Result Json :=
  match parse text with
  | .ok value => .ok value
  | .error what => .error (.invalidArgument (context ++ lit " JSON parse failed: " ++ what))

def textOr (value : Json) (key : String) : Result Bytes :=
  fieldOr value key [] fun found => match found with
    | .str text => .ok text
    | _ => .error (.unknown (lit "[json.exception.type_error.302] type must be string"))

/-! ## 2. Usage -/

def providerCount (usage : JsonObject) (key : String) : Option Nat :=
  match blockField usage key with
  | some (.int (.ofNat n)) => some n
  | _ => none

def inferTotalTokens (usage : TokenUsage) : TokenUsage :=
  match usage.totalTokens, usage.inputTokens, usage.outputTokens with
  | none, some input, some output =>
    -- The sum of two counts is left out where it does not fit.
    if input ≤ 2 ^ 64 - 1 - output then { usage with totalTokens := some (input + output) }
    else usage
  | _, _, _ => usage

def reportedTokens : ChatProviderKind → JsonObject → TokenUsage
  | .anthropic, usage => {
      inputTokens := providerCount usage "input_tokens"
      outputTokens := providerCount usage "output_tokens"
      details := usage.filter fun entry =>
        entry.1 ≠ lit "input_tokens" && entry.1 ≠ lit "output_tokens" }
  | _, usage => {
      inputTokens := providerCount usage "prompt_tokens"
      outputTokens := providerCount usage "completion_tokens"
      totalTokens := providerCount usage "total_tokens"
      details := OrderedMap.merge []
        (entryOf "input_tokens" (blockField usage "prompt_tokens_details") ++
          entryOf "output_tokens" (blockField usage "completion_tokens_details")) }

def normalizeProviderUsage (provider : ChatProviderKind) (model : Bytes) : Json → UsageMetadata
  | .obj (entry :: usage) => {
      tokens := inferTotalTokens (reportedTokens provider (entry :: usage))
      source := .provider
      provider := chatProviderName provider
      model := model
      raw := entry :: usage }
  | _ => {}

def usageFromBody (body : Json) : Json := (body.field (lit "usage")).getD (.obj [])

def countIfMissing (count : Option Nat) (counted : Result Nat) : Result (Option Nat) :=
  match count with
  | some n => .ok (some n)
  | none => some <$> counted

def completeUsageMetadata (usage : UsageMetadata) (counter : Option TokenCounter)
    (prompt : List BaseMessage) (output provider model : Bytes) : Result UsageMetadata :=
  match counter with
  | none => .ok usage
  | some counter => do
    let inputTokens ← countIfMissing usage.tokens.inputTokens (counter.countMessageTokens prompt)
    let outputTokens ← countIfMissing usage.tokens.outputTokens (counter.countTextTokens output)
    let counted := usage.tokens.inputTokens.isNone || usage.tokens.outputTokens.isNone
    return {
      tokens := inferTotalTokens { usage.tokens with inputTokens, outputTokens }
      source := if counted then if usage.source = .provider then .mixed else .local else usage.source
      provider := if usage.provider = [] then provider else usage.provider
      model := if usage.model = [] then model else usage.model
      raw := usage.raw }

/-! ## 3. Answers of the OpenAI form -/

def parseToolArguments (parse : Bytes → Except Bytes Json) (context : Bytes) : Json → Result Json
  | .obj fields => .ok (.obj fields)
  | .null => .ok (.obj [])
  | .str [] => .ok (.obj [])
  | .str text => parseJsonResult parse text context
  | _ => .error (.invalidArgument (context ++ lit " arguments must be object or JSON string"))

def BaseMessage.answer (content : Bytes) (toolCalls : List ToolCall) (contentBlocks : List Json) :
    BaseMessage :=
  { type := .ai, content, toolCalls, contentBlocks }

def openAIChoice (body : Json) : Result Json :=
  match body.field (lit "choices") with
  | some (.arr (choice :: _)) => .ok choice
  | _ => .error (invalid "OpenAI-compatible response requires choices[0]")

def openAIFunction (item : Json) : Result Json :=
  match item.field (lit "function") with
  | some (.obj function) => .ok (.obj function)
  | _ => .error (invalid "OpenAI-compatible tool call requires function")

def openAIToolCall (parse : Bytes → Except Bytes Json) (item : Json) : Result ToolCall := do
  require item.isObject (invalid "OpenAI-compatible tool call must be an object")
  let function ← openAIFunction item
  let name ← requiredText function "name" "OpenAI-compatible tool call requires function.name"
  let args ← parseToolArguments parse (lit "OpenAI-compatible tool call")
    ((function.field (lit "arguments")).getD (.obj []))
  let id ← textOr item "id"
  return { id, name, args }

def openAIToolCalls (parse : Bytes → Except Bytes Json) (message : Json) : Result (List ToolCall) :=
  fieldOr message "tool_calls" [] fun calls => do
    let items ← expectArray "OpenAI-compatible tool_calls must be an array" calls
    items.mapM (openAIToolCall parse)

def openAIContent (message : Json) : Result (Bytes × List Json) :=
  fieldOr message "content" ([], []) fun content => match content with
    | .str text => .ok (text, contentBlocksFromText text)
    | .arr items => do
      let blocks ← normalizeContentBlocks (.arr items)
      return (contentBlocksText blocks, blocks)
    | .null => .ok ([], [])
    | _ => .error (invalid "OpenAI-compatible message content must be string, array, or null")

def openAIMessage (parse : Bytes → Except Bytes Json) (message : Json) : Result BaseMessage := do
  let toolCalls ← openAIToolCalls parse message
  let content ← openAIContent message
  return .answer content.1 toolCalls content.2

def openAIChoiceMessage (parse : Bytes → Except Bytes Json) (choice : Json) : Result BaseMessage :=
  match choice.field (lit "message"), choice.field (lit "text") with
  | some (.obj message), _ => openAIMessage parse (.obj message)
  | _, some (.str text) => .ok (.answer text [] (contentBlocksFromText text))
  | _, _ => .error (invalid "OpenAI-compatible response missing message content")

def parseOpenAIMessage (parse : Bytes → Except Bytes Json) (body : Json) : Result BaseMessage := do
  let choice ← openAIChoice body
  openAIChoiceMessage parse choice

/-! ## 4. Answers of Anthropic -/

def hasType (type : String) (value : Json) : Bool := value.field (lit "type") = some (.ofText type)

def anthropicText (item : Json) : Option Bytes :=
  match item.field (lit "text") with
  | some (.str text) =>
    if (item.field (lit "type")).isNone || hasType "text" item then some text else none
  | _ => none

def textEntry (key : String) (value : Option Json) : JsonObject :=
  match value with
  | some (.str text) => [(lit key, .str text)]
  | _ => []

def anthropicReasoningBlock (item : Json) : Json := .object (
  [(lit "type", .ofText "reasoning")] ++
  textEntry "reasoning" (item.field (lit "thinking")) ++
  textEntry "reasoning" (item.field (lit "text")) ++
  match item.field (lit "signature") with
  | some (.str signature) => [(lit "extras", .object [(lit "signature", .str signature)])]
  | _ => [])

def anthropicToolCall (item : Json) : Result ToolCall := do
  let name ← requiredText item "name" "Anthropic tool_use requires name"
  let id ← textOr item "id"
  return { id, name, args := (item.field (lit "input")).getD (.obj []) }

/-- One item of the content; items of other types are skipped. -/
def anthropicItem (answer : BaseMessage) (item : Json) : Result BaseMessage :=
  match anthropicText item with
  | some text => .ok { answer with
      content := answer.content ++ text
      contentBlocks := answer.contentBlocks ++ [textContentBlock text] }
  | none =>
    if hasType "thinking" item || hasType "reasoning" item then
      .ok { answer with contentBlocks := answer.contentBlocks ++ [anthropicReasoningBlock item] }
    else if hasType "tool_use" item then do
      let call ← anthropicToolCall item
      return { answer with toolCalls := answer.toolCalls ++ [call] }
    else .ok answer

def parseAnthropicMessage (body : Json) : Result BaseMessage :=
  match body.field (lit "content") with
  | some (.arr items) => items.foldlM anthropicItem (.answer [] [] [])
  | _ => .error (invalid "Anthropic response requires content array")

/-! ## 5. A response -/

namespace ProviderChatModel

variable (chat : ProviderChatModel)

def isAnthropic : Bool := chat.provider = .anthropic

def parseBody (body : Json) : Result BaseMessage :=
  if chat.isAnthropic then parseAnthropicMessage body else parseOpenAIMessage chat.parse body

def responseMetadata : Json :=
  .object [(lit "provider", .str (chatProviderName chat.provider)), (lit "model", .str chat.model)]

/-- The message with the usage of the answer and what the counter adds to it. -/
def withUsage (message : BaseMessage) (usage : UsageMetadata) (prompt : List BaseMessage) :
    Result BaseMessage := do
  let completed ← completeUsageMetadata usage chat.tokenCounter prompt message.content
    (chatProviderName chat.provider) chat.model
  return { message with
    usageMetadata := if completed.empty then message.usageMetadata else completed
    responseMetadata := chat.responseMetadata }

def parseResponse (response : HttpResponse) (prompt : List BaseMessage) : Result BaseMessage := do
  require (httpStatusOk response.statusCode)
    ⟨.unavailable, lit "provider returned HTTP " ++ decimal response.statusCode⟩
  let body ← parseJsonResult chat.parse response.body (lit "provider response")
  let parsed ← chat.parseBody body
  chat.withUsage parsed (normalizeProviderUsage chat.provider chat.model (usageFromBody body)) prompt

end ProviderChatModel

/-! ## 6. A stream -/

structure ToolCallChunk where
  index : Option Nat := none
  id : Bytes := []
  name : Bytes := []
  argumentsDelta : Bytes := []

structure AIMessageChunk where
  text : Bytes := []
  contentBlocks : List Json := []
  toolCallChunks : List ToolCallChunk := []
  message : Option BaseMessage := none
  usageMetadata : UsageMetadata := {}
  metadata : Json := .obj []
  done : Bool := false

def unsignedIndex (value : Json) : Option Nat :=
  match value.field (lit "index") with
  | some (.int (.ofNat n)) => some n
  | _ => none

def objectField (key : String) (value : Json) : Option Json :=
  match value.field (lit key) with
  | some (.obj fields) => some (.obj fields)
  | _ => none

def textField (key : String) (value : Json) : Option Bytes :=
  match value.field (lit key) with
  | some (.str text) => some text
  | _ => none

def openAIDelta (body : Json) : Option Json :=
  match body.field (lit "choices") with
  | some (.arr (choice :: _)) => objectField "delta" choice
  | _ => none

def openAIStreamDelta (body : Json) : Option Bytes := (openAIDelta body).bind (textField "content")

def anthropicDelta (body : Json) : Option Json :=
  if hasType "content_block_delta" body then objectField "delta" body else none

def anthropicStreamDelta (body : Json) : Option Bytes := (anthropicDelta body).bind (textField "text")

def anthropicReasoningDelta (body : Json) : Option Bytes :=
  (anthropicDelta body).bind fun delta =>
    if hasType "thinking_delta" delta then textField "thinking" delta else none

def openAIToolCallChunk (item : Json) : Result ToolCallChunk := do
  let function := (objectField "function" item).getD .null
  let id ← textOr item "id"
  let name ← textOr function "name"
  return { index := unsignedIndex item, id, name
           argumentsDelta := (textField "arguments" function).getD [] }

def openAIToolCallChunks (body : Json) : Result (List ToolCallChunk) :=
  match (openAIDelta body).bind (Json.field (lit "tool_calls")) with
  | some (.arr items) =>
    (items.filter fun item => (objectField "function" item).isSome).mapM openAIToolCallChunk
  | _ => .ok []

def anthropicToolUseChunk (body block : Json) : Result (List ToolCallChunk) :=
  if hasType "tool_use" block then do
    let id ← textOr block "id"
    let name ← textOr block "name"
    return [{ index := unsignedIndex body, id, name }]
  else .ok []

def anthropicInputChunk (body delta : Json) : Result (List ToolCallChunk) :=
  if hasType "input_json_delta" delta then do
    let argumentsDelta ← textOr delta "partial_json"
    return [{ index := unsignedIndex body, argumentsDelta }]
  else .ok []

def anthropicToolCallChunks (body : Json) : Result (List ToolCallChunk) :=
  match hasType "content_block_start" body, objectField "content_block" body, anthropicDelta body with
  | true, some block, _ => anthropicToolUseChunk body block
  | _, _, some delta => anthropicInputChunk body delta
  | _, _, none => .ok []

def reasoningContentBlock (reasoning : Bytes) : Json :=
  .object [(lit "type", .ofText "reasoning"), (lit "reasoning", .str reasoning)]

/-- The blocks for the text and the reasoning of an event. -/
def streamContentBlocks (text : Bytes) (reasoning : Option Bytes) : List Json :=
  contentBlocksFromText text ++ match reasoning with
    | some (byte :: rest) => [reasoningContentBlock (byte :: rest)]
    | _ => []

def nullIfEmpty (text : Bytes) : Json := if text = [] then .null else .str text

def toolCallChunkContentBlock (chunk : ToolCallChunk) : Json :=
  .object [(lit "type", .ofText "tool_call_chunk"), (lit "id", nullIfEmpty chunk.id),
    (lit "name", nullIfEmpty chunk.name), (lit "args", .str chunk.argumentsDelta),
    (lit "index", (chunk.index.map Json.ofNat).getD .null)]

structure ToolCallBuilder where
  id : Bytes := []
  name : Bytes := []
  arguments : Bytes := []

def ToolCallBuilder.add (builder : ToolCallBuilder) (chunk : ToolCallChunk) : ToolCallBuilder where
  id := if chunk.id = [] then builder.id else chunk.id
  name := if chunk.name = [] then builder.name else chunk.name
  arguments := builder.arguments ++ chunk.argumentsDelta

/-- A chunk without an index belongs to the call at its place in the event. -/
def indexed (chunks : List ToolCallChunk) : List (Nat × ToolCallChunk) :=
  chunks.zipIdx.map fun entry => (entry.1.index.getD entry.2, entry.1)

structure StreamState where
  content : Bytes := []
  builders : List (Nat × ToolCallBuilder) := []
  blocks : List Json := []
  usage : UsageMetadata := {}

def addChunk (builders : List (Nat × ToolCallBuilder)) (entry : Nat × ToolCallChunk) :
    List (Nat × ToolCallBuilder) :=
  OrderedMap.set entry.1 (((OrderedMap.find entry.1 builders).getD {}).add entry.2) builders

def toolCallOfBuilder (parse : Bytes → Except Bytes Json) (builder : ToolCallBuilder) :
    Result ToolCall := do
  let args ← parseToolArguments parse (lit "OpenAI-compatible streaming tool call")
    (.str builder.arguments)
  return { id := builder.id, name := builder.name, args }

/-- The calls of the builders, in the order of their indices; one without a name is skipped. -/
def builtToolCalls (parse : Bytes → Except Bytes Json) (builders : List (Nat × ToolCallBuilder)) :
    Result (List ToolCall) :=
  (builders.filter fun entry => entry.2.name ≠ []).mapM fun entry => toolCallOfBuilder parse entry.2

namespace ProviderChatModel

variable (chat : ProviderChatModel)

def commonMetadata (usage : UsageMetadata) : Json := .object (
  [(lit "provider", .str (chatProviderName chat.provider)), (lit "model", .str chat.model)] ++
  entryIf (!usage.empty) "usage" (usageMetadataToJson usage))

def textDelta (body : Json) : Option Bytes :=
  if chat.isAnthropic then anthropicStreamDelta body else openAIStreamDelta body

def reasoningDelta (body : Json) : Option Bytes :=
  if chat.isAnthropic then anthropicReasoningDelta body else none

def toolCallChunks (body : Json) : Result (List ToolCallChunk) :=
  if chat.isAnthropic then anthropicToolCallChunks body else openAIToolCallChunks body

def absorb (state : StreamState) (body : Json) (chunks : List ToolCallChunk) : StreamState where
  content := state.content ++ (chat.textDelta body).getD []
  builders := (indexed chunks).foldl addChunk state.builders
  blocks := state.blocks ++
    streamContentBlocks ((chat.textDelta body).getD []) (chat.reasoningDelta body)
  usage :=
    let reported := normalizeProviderUsage chat.provider chat.model (usageFromBody body)
    if reported.empty then state.usage else reported

/-- An event without text, reasoning and calls is not shown to the handler. -/
def isSilent (body : Json) (chunks : List ToolCallChunk) : Bool :=
  (chat.textDelta body).getD [] = [] && (chat.reasoningDelta body).getD [] = [] && chunks.isEmpty

def chunkOfEvent (state : StreamState) (body : Json) (chunks : List ToolCallChunk) :
    AIMessageChunk where
  text := (chat.textDelta body).getD []
  contentBlocks := streamContentBlocks ((chat.textDelta body).getD []) (chat.reasoningDelta body) ++
    chunks.map toolCallChunkContentBlock
  toolCallChunks := chunks
  usageMetadata := state.usage
  metadata := chat.commonMetadata state.usage

def onEvent (onChunk : AIMessageChunk → Result Unit) (state : StreamState) (data : Bytes) :
    Result StreamState :=
  if data = lit "[DONE]" then .ok state else do
    let body ← parseJsonResult chat.parse data (lit "provider SSE event")
    let chunks ← chat.toolCallChunks body
    let next := chat.absorb state body chunks
    if chat.isSilent body chunks then return next
    onChunk (chat.chunkOfEvent next body chunks)
    return next

def streamMessage (state : StreamState) : Result BaseMessage := do
  let toolCalls ← builtToolCalls chat.parse state.builders
  return .answer state.content toolCalls
    (if state.blocks = [] then contentBlocksFromText state.content else state.blocks)

/-- The message of a stream of events, which ends with a status code or an error. -/
def stream (onChunk : AIMessageChunk → Result Unit) (events : List Bytes) (outcome : Result Nat)
    (prompt : List BaseMessage) : Result BaseMessage := do
  let state ← events.foldlM (chat.onEvent onChunk) {}
  -- the chunks have been delivered by the time the status code is known
  let statusCode ← outcome
  require (httpStatusOk statusCode)
    ⟨.unavailable, lit "provider stream returned HTTP " ++ decimal statusCode⟩
  let assembled ← chat.streamMessage state
  let message ← chat.withUsage assembled state.usage prompt
  onChunk {
    message := some message
    usageMetadata := message.usageMetadata
    metadata := chat.commonMetadata message.usageMetadata
    done := true }
  return message

end ProviderChatModel

end LangGraph
