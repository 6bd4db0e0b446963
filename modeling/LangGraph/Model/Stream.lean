import LangGraph.Foundation.JsonLibrary
import LangGraph.Model.Answers

/-!
# Which streams can be stored

The parts of a call come in several events and are put together by the index of the call.  The
message of a stream is stored under the same condition as a response, on the call that the parts
with one index make.
-/

namespace LangGraph

open ExceptList ByteString OrderedMap List

/-! ## 1. What a stream leaves -/

theorem plainBlocks_streamContentBlocks (text : Bytes) (reasoning : Option Bytes) :
    PlainBlocks (streamContentBlocks text reasoning) := by
  unfold streamContentBlocks
  refine (plainBlocks_contentBlocksFromText text).append ?_
  split
  · refine plainBlocks_reasoning ?_ ?_ ?_ <;> simp [find_cons, lit_inj, Json.isString]
  · exact plainBlocks_nil

namespace ToolCallBuilder

/-- The builder of some chunks: the last name and the last id they give, and all their arguments. -/
theorem foldl_add (chunks : List ToolCallChunk) (builder : ToolCallBuilder) :
    ((chunks.foldl add builder).name ≠ [] ↔ builder.name ≠ [] ∨ ∃ chunk ∈ chunks, chunk.name ≠ []) ∧
    ((chunks.foldl add builder).id ≠ [] ↔ builder.id ≠ [] ∨ ∃ chunk ∈ chunks, chunk.id ≠ []) ∧
    (chunks.foldl add builder).arguments =
      builder.arguments ++ chunks.flatMap ToolCallChunk.argumentsDelta := by
  induction chunks generalizing builder with
  | nil => simp
  | cons chunk chunks ih =>
    obtain ⟨hname, hid, harguments⟩ := ih (builder.add chunk)
    have hnext : (builder.add chunk).name ≠ [] ↔ builder.name ≠ [] ∨ chunk.name ≠ [] := by
      by_cases hempty : chunk.name = [] <;> simp [add, hempty]
    have hnextId : (builder.add chunk).id ≠ [] ↔ builder.id ≠ [] ∨ chunk.id ≠ [] := by
      by_cases hempty : chunk.id = [] <;> simp [add, hempty]
    refine ⟨?_, ?_, ?_⟩
    · rw [foldl_cons, hname, hnext, or_assoc, exists_mem_cons_iff]
    · rw [foldl_cons, hid, hnextId, or_assoc, exists_mem_cons_iff]
    · rw [foldl_cons, harguments, flatMap_cons, ← append_assoc]; rfl

end ToolCallBuilder

theorem toolCallOfBuilder_listed {parse : Bytes → Except Bytes Json} {builder : ToolCallBuilder}
    {call : ToolCall} (h : toolCallOfBuilder parse builder = .ok call) :
    call.listed = true ↔ builder.id ≠ [] ∧ builder.name ≠ [] ∧
      objectArguments parse (.str builder.arguments) = true := by
  obtain ⟨args, hargs, h⟩ := of_bind h
  cases h
  rw [ToolCall.listed_iff, parseToolArguments_isObject hargs]

/-- The calls of the builders are taken if each builder with a name has an id and an object of
    arguments. -/
theorem builtToolCalls_listed {parse : Bytes → Except Bytes Json}
    {builders : List (Nat × ToolCallBuilder)} {calls : List ToolCall}
    (h : builtToolCalls parse builders = .ok calls) :
    (∀ call ∈ calls, call.listed = true) ↔ ∀ entry ∈ builders, entry.2.name ≠ [] →
      entry.2.id ≠ [] ∧ objectArguments parse (.str entry.2.arguments) = true := by
  constructor
  · intro hall entry hentry hname
    obtain ⟨call, hcall, hread⟩ :=
      exists_mem_of_mapM h (mem_filter.mpr ⟨hentry, decide_eq_true hname⟩)
    obtain ⟨hid, -, hargs⟩ := (toolCallOfBuilder_listed hread).mp (hall call hcall)
    exact ⟨hid, hargs⟩
  · intro hall call hcall
    obtain ⟨entry, hentry, hread⟩ := exists_of_mem_mapM h hcall
    obtain ⟨hentry, hname⟩ := mem_filter.mp hentry
    obtain ⟨hid, hargs⟩ := hall entry hentry (of_decide_eq_true hname)
    exact (toolCallOfBuilder_listed hread).mpr ⟨hid, of_decide_eq_true hname, hargs⟩

def isReport : Json → Bool
  | .obj (_ :: _) => true
  | _ => false

def lastReport (start : Json) (bodies : List Json) : Json :=
  bodies.foldl (fun last body => if isReport (usageFromBody body) then usageFromBody body else last)
    start

theorem empty_normalizeProviderUsage (provider : ChatProviderKind) (model : Bytes) (usage : Json) :
    (normalizeProviderUsage provider model usage).empty = !isReport usage := by
  cases usage with
  | obj fields =>
    cases fields with
    | nil => rfl
    | cons => simp [normalizeProviderUsage, UsageMetadata.empty, isReport]
  | _ => rfl

namespace ProviderChatModel

variable (chat : ProviderChatModel)

def eventBodies (events : List Bytes) : List Json :=
  (events.filter fun data => data ≠ lit "[DONE]").filterMap fun data => (chat.parse data).toOption

/-- The chunks of calls in an event, each with the index of its call. -/
def callChunks (body : Json) : List (Nat × ToolCallChunk) :=
  indexed ((chat.toolCallChunks body).toOption.getD [])

def streamChunks (bodies : List Json) : List (Nat × ToolCallChunk) := bodies.flatMap chat.callChunks

/-- The chunks of the call with an index, in the order they came. -/
def chunksAt (bodies : List Json) (index : Nat) : List ToolCallChunk :=
  OrderedMap.valuesAt index (chat.streamChunks bodies)

def streamText (bodies : List Json) : Bytes := bodies.flatMap fun body => (chat.textDelta body).getD []

/-- Each call of a stream that gets a name also gets an id, and the arguments that are sent for it
    make an object. -/
def StreamStorable (bodies : List Json) : Prop :=
  ∀ entry ∈ chat.streamChunks bodies, entry.2.name ≠ [] →
    (∃ chunk ∈ chat.chunksAt bodies entry.1, chunk.id ≠ []) ∧
    objectArguments chat.parse
      (.str ((chat.chunksAt bodies entry.1).flatMap ToolCallChunk.argumentsDelta)) = true

instance (bodies : List Json) : Decidable (chat.StreamStorable bodies) :=
  inferInstanceAs (Decidable (∀ entry ∈ chat.streamChunks bodies, _))

/-- What the events so far have left in the state of the stream. -/
structure Streamed (bodies : List Json) (state : StreamState) : Prop where
  content : state.content = chat.streamText bodies
  builders : state.builders = OrderedMap.collect ToolCallBuilder.add {} [] (chat.streamChunks bodies)
  blocks : PlainBlocks state.blocks
  usage : state.usage =
    normalizeProviderUsage chat.provider chat.model (lastReport (.obj []) bodies)

variable {chat}

variable {bodies : List Json} {state : StreamState}

theorem Streamed.absorb {body : Json} {chunks : List ToolCallChunk}
    (h : chat.Streamed bodies state) (hchunks : chat.toolCallChunks body = .ok chunks) :
    chat.Streamed (bodies ++ [body]) (chat.absorb state body chunks) where
  content := by
    rw [streamText, flatMap_append, flatMap_singleton]
    exact congrArg (· ++ _) h.content
  builders := by
    have hcall : chat.callChunks body = indexed chunks := by rw [callChunks, hchunks]; rfl
    rw [streamChunks, flatMap_append, flatMap_singleton, hcall, collect, foldl_append]
    exact congrArg (fun builders => (indexed chunks).foldl addChunk builders) h.builders
  blocks := h.blocks.append (plainBlocks_streamContentBlocks _ _)
  usage := by
    have hlast : lastReport (.obj []) (bodies ++ [body]) =
        if isReport (usageFromBody body) then usageFromBody body
        else lastReport (.obj []) bodies :=
      foldl_concat _ _ _ _
    rw [hlast]
    change (if (normalizeProviderUsage chat.provider chat.model (usageFromBody body)).empty
      then state.usage else _) = _
    rw [empty_normalizeProviderUsage]
    cases hreport : isReport (usageFromBody body) with
    | false => exact h.usage
    | true => rfl

theorem Streamed.onEvent {next : StreamState} {data : Bytes}
    {onChunk : AIMessageChunk → Result Unit} (h : chat.Streamed bodies state)
    (hnext : chat.onEvent onChunk state data = .ok next) :
    chat.Streamed (bodies ++ chat.eventBodies [data]) next := by
  unfold ProviderChatModel.onEvent at hnext
  split_ifs at hnext with hdone
  · cases hnext
    rw [hdone]; exact (append_nil bodies).symm ▸ h
  · obtain ⟨body, hbody, hnext⟩ := of_bind hnext
    obtain ⟨chunks, hchunks, hnext⟩ := of_bind hnext
    have hparsed := parseJsonResult_ok hbody
    have hevents : chat.eventBodies [data] = [body] := by
      simp [eventBodies, hdone, hparsed, Except.toOption]
    have hstate : next = chat.absorb state body chunks := by
      split_ifs at hnext
      · exact (Except.ok.inj hnext).symm
      · obtain ⟨-, -, hnext⟩ := of_bind hnext
        exact (Except.ok.inj hnext).symm
    rw [hevents, hstate]; exact h.absorb hchunks

theorem eventBodies_append (events more : List Bytes) :
    chat.eventBodies (events ++ more) = chat.eventBodies events ++ chat.eventBodies more := by
  rw [eventBodies, filter_append, filterMap_append]; rfl

theorem Streamed.events {final : StreamState} {events : List Bytes}
    {onChunk : AIMessageChunk → Result Unit} (h : chat.Streamed bodies state)
    (hfinal : events.foldlM (chat.onEvent onChunk) state = .ok final) :
    chat.Streamed (bodies ++ chat.eventBodies events) final := by
  induction events generalizing bodies state with
  | nil =>
    cases hfinal; exact (append_nil bodies).symm ▸ h
  | cons data events ih =>
    obtain ⟨next, hnext, hfinal⟩ := of_bind hfinal
    have hrest := ih (h.onEvent hnext) hfinal
    rwa [append_assoc, ← eventBodies_append] at hrest

theorem streamed_start : chat.Streamed [] {} := ⟨rfl, rfl, plainBlocks_nil, rfl⟩

theorem Streamed.builders_iff (h : chat.Streamed bodies state) :
    (∀ entry ∈ state.builders, entry.2.name ≠ [] →
      entry.2.id ≠ [] ∧ objectArguments chat.parse (.str entry.2.arguments) = true) ↔
    chat.StreamStorable bodies := by
  have hincreasing : Increasing state.builders := by
    rw [h.builders]; exact Increasing.collect _ _ Pairwise.nil _
  have hfind : ∀ index, find index state.builders = if chat.chunksAt bodies index = [] then none
      else some ((chat.chunksAt bodies index).foldl ToolCallBuilder.add {}) := fun index => by
    rw [h.builders]; exact find_collect _ _ index [] _
  constructor
  · intro hall entry hentry hname
    have hmem : entry.2 ∈ chat.chunksAt bodies entry.1 := mem_valuesAt.mpr hentry
    obtain ⟨hnameIff, hidIff, harguments⟩ :=
      ToolCallBuilder.foldl_add (chat.chunksAt bodies entry.1) {}
    have hbuilder := hfind entry.1
    rw [if_neg (ne_nil_of_mem hmem)] at hbuilder
    obtain ⟨hid, hargs⟩ := hall _ (hincreasing.find_eq_some_iff.mp hbuilder)
      (hnameIff.mpr (.inr ⟨entry.2, hmem, hname⟩))
    rw [harguments] at hargs
    exact ⟨(hidIff.mp hid).resolve_left fun h => h rfl, hargs⟩
  · intro hall entry hentry hname
    have hbuilder := hincreasing.find_eq_some_iff.mpr hentry
    rw [hfind] at hbuilder
    split_ifs at hbuilder
    rw [← Option.some.inj hbuilder] at hname ⊢
    obtain ⟨hnameIff, hidIff, harguments⟩ :=
      ToolCallBuilder.foldl_add (chat.chunksAt bodies entry.1) {}
    obtain ⟨chunk, hchunk, hchunkName⟩ := (hnameIff.mp hname).resolve_left fun h => h rfl
    obtain ⟨hid, hargs⟩ := hall (entry.1, chunk) (mem_valuesAt.mp hchunk) hchunkName
    rw [harguments]; exact ⟨hidIff.mpr (.inr hid), hargs⟩

theorem streamMessage_parsed {message : BaseMessage} (hstreamed : chat.Streamed bodies state)
    (h : chat.streamMessage state = .ok message) :
    Parsed message (chat.streamText bodies) (chat.StreamStorable bodies) := by
  obtain ⟨calls, hcalls, h⟩ := of_bind h
  cases h
  rw [← hstreamed.content]
  refine Parsed.of_plain ?_ ((builtToolCalls_listed hcalls).trans hstreamed.builders_iff)
  split_ifs
  · exact plainBlocks_contentBlocksFromText _
  · exact hstreamed.blocks

/-! ## 2. The answers of a provider -/

variable (chat)

def BodyStorable (body : Json) : Prop :=
  if chat.isAnthropic then ∀ item ∈ anthropicItems body, anthropicCallStorable item
  else openAIStorable chat.parse body

instance (body : Json) : Decidable (chat.BodyStorable body) := by
  unfold BodyStorable
  infer_instance

def answerText (body : Json) : Bytes :=
  if chat.isAnthropic then anthropicTexts (anthropicItems body) else openAIText body

theorem parseBody_parsed {body : Json} {message : BaseMessage}
    (h : chat.parseBody body = .ok message) :
    Parsed message (chat.answerText body) (chat.BodyStorable body) := by
  unfold parseBody at h
  unfold answerText BodyStorable
  split_ifs at h ⊢
  · exact parseAnthropicMessage_parsed h
  · exact parseOpenAIMessage_parsed h

/-- The answer of a provider can be stored exactly if its tool calls have an id, a name and an
    object of arguments, its blocks ask for no other call, and its counts fit: for a response, and
    for a stream, whose calls are made of the chunks with one index. -/
theorem provider_answer_storable_iff (prompt : List BaseMessage) :
    (∀ response message, chat.parseResponse response prompt = .ok message →
      ∃ body, chat.parse response.body = .ok body ∧ (message.Storable ↔ chat.BodyStorable body ∧
          chat.usageStorable (usageFromBody body) prompt (chat.answerText body) = true)) ∧
    (∀ onChunk events outcome message, chat.stream onChunk events outcome prompt = .ok message →
      (message.Storable ↔ chat.StreamStorable (chat.eventBodies events) ∧
        chat.usageStorable (lastReport (.obj []) (chat.eventBodies events)) prompt
          (chat.streamText (chat.eventBodies events)) = true)) := by
  constructor
  · intro response message h
    obtain ⟨-, h⟩ := of_require h
    obtain ⟨body, hbody, h⟩ := of_bind h
    obtain ⟨parsed, hparsed, h⟩ := of_bind h
    exact ⟨body, parseJsonResult_ok hbody, (chat.parseBody_parsed hparsed).storable_iff h⟩
  · intro onChunk events outcome message h
    obtain ⟨state, hstate, h⟩ := of_bind h
    obtain ⟨statusCode, -, h⟩ := of_bind h
    obtain ⟨-, h⟩ := of_require h
    obtain ⟨assembled, hassembled, h⟩ := of_bind h
    obtain ⟨result, hresult, h⟩ := of_bind h
    obtain ⟨-, -, h⟩ := of_bind h
    cases h
    have hstreamed := streamed_start.events hstate
    rw [hstreamed.usage] at hresult
    exact (streamMessage_parsed hstreamed hassembled).storable_iff hresult

end ProviderChatModel

def plainChat (provider : ChatProviderKind) : ProviderChatModel :=
  { provider, model := lit "m", parse := plainJson.parse }

def askingAnswer (id : Option Json) (arguments : Json) : Json :=
  .object [(lit "choices", .arr [.object [(lit "message", .object [(lit "tool_calls", .arr [
    .object (entryOf "id" id ++ [(lit "function", .object [(lit "name", .ofText "search"),
      (lit "arguments", arguments)])])])])]])]

def askingEvent (id : Option Json) (arguments : Json) : Json :=
  .object [(lit "choices", .arr [.object [(lit "delta", .object [(lit "tool_calls", .arr [
    .object (entryOf "id" id ++ [(lit "function", .object [(lit "name", .ofText "search"),
      (lit "arguments", arguments)])])])])]])]

def askingMessageOf (chat : ProviderChatModel) (id : Bytes) (args : Json) : BaseMessage :=
  { type := .ai, toolCalls := [⟨id, lit "search", args⟩], responseMetadata := chat.responseMetadata }

theorem asking_answer_storable :
    (askingMessageOf (plainChat .qwen) (lit "1") (.obj [])).Storable ∧
    (askingMessageOf (plainChat .deepSeek) (lit "1") (.obj [])).Storable := by
  obtain ⟨body, hbody, hiff⟩ := (ProviderChatModel.provider_answer_storable_iff (plainChat .qwen) []).1
    ⟨200, (askingAnswer (some (.ofText "1")) .null).compact⟩
    (askingMessageOf (plainChat .qwen) (lit "1") (.obj [])) (by decide +kernel)
  obtain rfl : body = askingAnswer (some (.ofText "1")) .null :=
    Except.ok.inj (hbody.symm.trans (by decide +kernel))
  exact ⟨hiff.mpr (by decide +kernel),
    ((ProviderChatModel.provider_answer_storable_iff (plainChat .deepSeek) []).2 (fun _ => .ok ())
      [(askingEvent (some (.ofText "1")) (.ofText "\x7b")).compact,
        (askingEvent none (.ofText "\x7d")).compact, lit "[DONE]"] (.ok 200)
      (askingMessageOf (plainChat .deepSeek) (lit "1") (.obj [])) (by decide +kernel)).mpr
      (by decide +kernel)⟩

/-- Answers without an id for the call, with a list for its arguments, and with too large a count:
    each gives a message, and the JSON form of the message is refused. -/
theorem answers_not_storable :
    (∃ message, (plainChat .openAICompatible).parseResponse
        ⟨200, (askingAnswer none .null).compact⟩ [] = .ok message ∧
      baseMessageFromJson (baseMessageToJson message) =
        .error (invalid "tool call id cannot be empty")) ∧
    (∃ message, (plainChat .anthropic).parseResponse ⟨200, (Json.object [(lit "content", .arr [
        .object [(lit "type", .ofText "tool_use"), (lit "id", .ofText "1"),
          (lit "name", .ofText "search"), (lit "input", .arr [])]])]).compact⟩ [] = .ok message ∧
      baseMessageFromJson (baseMessageToJson message) =
        .error (invalid "tool_call content block args must be an object")) ∧
    (∃ message, (plainChat .openAICompatible).stream (fun _ => .ok ())
        [(askingEvent none (.ofText "")).compact, lit "[DONE]"] (.ok 200) [] = .ok message ∧
      baseMessageFromJson (baseMessageToJson message) =
        .error (invalid "tool call id cannot be empty")) ∧
    (∃ message, (plainChat .openAICompatible).parseResponse ⟨200, (Json.object [
        (lit "choices", .arr [.object [(lit "text", .ofText "hi")]]),
        (lit "usage", .object [(lit "prompt_tokens", .ofNat (2 ^ 63))])]).compact⟩ [] = .ok message ∧
      baseMessageFromJson (baseMessageToJson message) =
        .error (invalid "input_tokens must be a non-negative integer")) := by
  refine ⟨⟨askingMessageOf (plainChat .openAICompatible) [] (.obj []), by decide +kernel,
      by decide +kernel⟩,
    ⟨askingMessageOf (plainChat .anthropic) (lit "1") (.arr []), by decide +kernel,
      by decide +kernel⟩,
    ⟨askingMessageOf (plainChat .openAICompatible) [] (.obj []), by decide +kernel,
      by decide +kernel⟩,
    ⟨{ type := .ai, content := lit "hi", contentBlocks := [textContentBlock (lit "hi")]
       usageMetadata := normalizeProviderUsage .openAICompatible (lit "m")
         (.object [(lit "prompt_tokens", .ofNat (2 ^ 63))])
       responseMetadata := (plainChat .openAICompatible).responseMetadata },
      by decide +kernel, by decide +kernel⟩⟩

end LangGraph
