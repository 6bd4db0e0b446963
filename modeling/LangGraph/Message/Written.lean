import LangGraph.Message.ContentBlocks

/-!
# Reading a written message

A written message is read field by field.  The calls of an AI message come twice, in its list of
calls and in its blocks; the reader takes those of the blocks that the list does not have.
-/

namespace LangGraph

open ExceptList ByteString OrderedMap BaseMessage List

/-! ## 1. Tool calls of the blocks -/

def ToolCall.listed (call : ToolCall) : Bool :=
  call.id ≠ [] && call.name ≠ [] && call.args.isObject

def Asks (block : Json) (calls : List ToolCall) : Prop :=
  ∃ call ∈ calls, block.field (lit "id") = some (.str call.id) ∧
    block.field (lit "name") = some (.str call.name)

variable {call : ToolCall} {calls : List ToolCall} {block : Json} {message : BaseMessage}

theorem ToolCall.listed_iff :
    call.listed = true ↔ call.id ≠ [] ∧ call.name ≠ [] ∧ call.args.isObject = true := by
  rw [listed, Bool.and_eq_true, Bool.and_eq_true, decide_eq_true_iff, decide_eq_true_iff, and_assoc]

theorem knownTo_iff :
    call.knownTo calls = true ↔ ∃ other ∈ calls, other.id = call.id ∧ other.name = call.name := by
  simp [ToolCall.knownTo]

theorem toolCallOfBlock_ok_iff :
    toolCallOfBlock block = .ok call ↔ block.field (lit "id") = some (.str call.id) ∧
      block.field (lit "name") = some (.str call.name) ∧
      block.field (lit "args") = some call.args ∧ call.args.isObject = true := by
  constructor
  · intro h
    unfold toolCallOfBlock at h
    split at h
    · rename_i id name args hid hname hargs
      cases h; exact ⟨hid, hname, hargs, rfl⟩
    · cases h
  · rintro ⟨hid, hname, hargs, hobject⟩
    obtain ⟨id, name, args⟩ := call
    cases args with
    | obj => rw [toolCallOfBlock, hid, hname, hargs]
    | _ => cases hobject

structure Lifted (blocks : List Json) (start result : List Json × List ToolCall) : Prop where
  kept : result.1 = start.1 ++ blocks.filter fun block => !isToolCallBlock block
  added : ∃ calls, result.2 = start.2 ++ calls ∧
    ∀ call ∈ calls, ∃ block ∈ blocks, isToolCallBlock block = true ∧
      toolCallOfBlock block = .ok call
  asked : ∀ block ∈ blocks, isToolCallBlock block = true → Asks block result.2

theorem Asks.append (h : Asks block calls) (more : List ToolCall) : Asks block (calls ++ more) := by
  obtain ⟨call, hmem, hfields⟩ := h
  exact ⟨call, mem_append_left _ hmem, hfields⟩

theorem liftToolCallBlock_lifted {start result : List Json × List ToolCall}
    (h : liftToolCallBlock start block = .ok result) : Lifted [block] start result := by
  unfold liftToolCallBlock at h
  split_ifs at h with hcall
  · obtain ⟨call, hread, h⟩ := of_bind h
    obtain ⟨hid, hname, -, -⟩ := toolCallOfBlock_ok_iff.mp hread
    have hfilter : [block].filter (fun block => !isToolCallBlock block) = [] := by simp [hcall]
    have hresult := (Except.ok.inj h).symm
    by_cases hknown : call.knownTo start.2 = true
    · rw [if_pos hknown] at hresult
      subst hresult
      obtain ⟨other, hmem, hotherId, hotherName⟩ := knownTo_iff.mp hknown
      refine ⟨by rw [hfilter, append_nil], ⟨[], by simp, by simp⟩, fun other' hother _ => ?_⟩
      rw [mem_singleton.mp hother]
      exact ⟨other, hmem, by rw [hotherId]; exact hid, by rw [hotherName]; exact hname⟩
    · rw [if_neg hknown] at hresult
      subst hresult
      refine ⟨by rw [hfilter, append_nil], ⟨[call], rfl, fun added hadded => ?_⟩,
        fun other hother _ => ?_⟩
      · rw [mem_singleton.mp hadded]
        exact ⟨block, mem_singleton_self _, hcall, hread⟩
      · rw [mem_singleton.mp hother]
        exact ⟨call, mem_append_right _ (mem_singleton_self _), hid, hname⟩
  · cases h
    refine ⟨by simp [hcall], ⟨[], by simp, by simp⟩, fun other hother hother' => ?_⟩
    rw [mem_singleton.mp hother] at hother'; exact absurd hother' hcall

theorem foldlM_liftToolCallBlock {blocks : List Json} {start result : List Json × List ToolCall}
    (h : blocks.foldlM liftToolCallBlock start = .ok result) : Lifted blocks start result := by
  induction blocks generalizing start with
  | nil =>
    cases h; exact ⟨by simp, ⟨[], by simp, by simp⟩, by simp⟩
  | cons block blocks ih =>
    obtain ⟨next, hnext, h⟩ := of_bind h
    have hfirst := liftToolCallBlock_lifted hnext
    have hrest := ih h
    obtain ⟨first, hfirstCalls, hfirstOf⟩ := hfirst.added
    obtain ⟨rest, hrestCalls, hrestOf⟩ := hrest.added
    refine ⟨?_, ⟨first ++ rest, ?_, fun call hcall => ?_⟩, fun other hother hcall => ?_⟩
    · rw [hrest.kept, hfirst.kept, append_assoc, ← filter_append, singleton_append]
    · rw [hrestCalls, hfirstCalls, append_assoc]
    · rcases mem_append.mp hcall with hcall | hcall
      · obtain ⟨of, hof, hread⟩ := hfirstOf call hcall
        exact ⟨of, mem_cons.mpr (.inl (mem_singleton.mp hof)), hread⟩
      · obtain ⟨of, hof, hread⟩ := hrestOf call hcall
        exact ⟨of, mem_cons_of_mem _ hof, hread⟩
    · rcases mem_cons.mp hother with rfl | hother
      · rw [hrestCalls]
        exact (hfirst.asked other (mem_singleton_self _) hcall).append rest
      · exact hrest.asked other hother hcall

theorem foldlM_liftToolCallBlock_asked {blocks : List Json} {calls : List ToolCall}
    (hnormal : ∀ block ∈ blocks, normalizeContentBlock block = .ok block)
    (hasked : ∀ block ∈ blocks, isToolCallBlock block = true → Asks block calls)
    (kept : List Json) :
    blocks.foldlM liftToolCallBlock (kept, calls) =
      .ok (kept ++ blocks.filter (fun block => !isToolCallBlock block), calls) := by
  induction blocks generalizing kept with
  | nil =>
    rw [filter_nil, append_nil]; rfl
  | cons block blocks ih =>
    have hrest := ih (fun other hother => hnormal other (mem_cons_of_mem _ hother))
      fun other hother => hasked other (mem_cons_of_mem _ hother)
    by_cases hcall : isToolCallBlock block = true
    · obtain ⟨call, hmem, hid, hname⟩ := hasked block mem_cons_self hcall
      obtain ⟨name, args, -, hargs⟩ := toolCall_fields (hnormal block mem_cons_self) hcall
      have hread : toolCallOfBlock block = .ok ⟨call.id, call.name, .obj args⟩ :=
        toolCallOfBlock_ok_iff.mpr ⟨hid, hname, hargs, rfl⟩
      have hknown : (⟨call.id, call.name, .obj args⟩ : ToolCall).knownTo calls = true :=
        knownTo_iff.mpr ⟨call, hmem, rfl, rfl⟩
      have hstep : liftToolCallBlock (kept, calls) block = .ok (kept, calls) := by
        rw [liftToolCallBlock, if_pos hcall, hread, ok_bind, if_pos hknown]; rfl
      rw [foldlM_cons, hstep, ok_bind, hrest, filter_cons_of_neg (by simp [hcall])]
    · have hstep : liftToolCallBlock (kept, calls) block = .ok (kept ++ [block], calls) := by
        rw [liftToolCallBlock, if_neg hcall]
      rw [foldlM_cons, hstep, ok_bind, hrest, filter_cons_of_pos (by simp [hcall]),
        append_assoc, singleton_append]

/-! ## 2. Written calls -/

theorem field_toolCallToJson (call : ToolCall) : HasFields (toolCallToJson call)
    [("id", some (.str call.id)), ("name", some (.str call.name)), ("args", some call.args)] := by
  simp [HasFields, toolCallToJson, field_object, find_cons, lit_inj]

theorem toolCallFromJson_ok {value : Json} (h : toolCallFromJson value = .ok call) :
    call.listed = true := by
  obtain ⟨-, h⟩ := of_require h
  obtain ⟨id, -, h⟩ := of_bind h
  obtain ⟨name, -, h⟩ := of_bind h
  obtain ⟨args, hargs, h⟩ := of_bind h
  obtain ⟨hid, h⟩ := of_require h
  obtain ⟨hname, h⟩ := of_require h
  cases h
  have hobject : args.isObject = true := by
    unfold requiredArgs at hargs
    split at hargs
    · rw [← Except.ok.inj hargs]; rfl
    · cases hargs
    · cases hargs
  rw [ToolCall.listed, hid, hname, hobject]; rfl

theorem yields_require (condition : Bool) (status : Status) :
    Yields (require condition status) condition () where
  ok h := by rw [h]; rfl
  error h := ⟨status, by rw [h]; rfl⟩

theorem toolCallFromJson_toJson (call : ToolCall) :
    Yields (toolCallFromJson (toolCallToJson call)) call.listed call := by
  obtain ⟨hid, hname, hargs, -⟩ := field_toolCallToJson call
  have rid : requiredText (toolCallToJson call) "id" "tool call id is required" = .ok call.id := by
    rw [requiredText, hid]
  have rname : requiredText (toolCallToJson call) "name" "tool call name is required" =
      .ok call.name := by
    rw [requiredText, hname]
  have rargs : Yields (requiredArgs (toolCallToJson call)) call.args.isObject call.args := by
    rw [requiredArgs, hargs]
    cases call.args with
    | obj => exact ⟨fun _ => rfl, nofun⟩
    | _ => exact ⟨nofun, fun _ => ⟨_, rfl⟩⟩
  rw [toolCallFromJson, show (toolCallToJson call).isObject = true from rfl, require_true, ok_bind,
    rid, ok_bind, rname, ok_bind, ToolCall.listed, Bool.and_comm]
  exact rargs.bind ((yields_require _ _).bind ((yields_require _ _).map fun _ => call))

theorem field_toolCallContentBlock (call : ToolCall) : HasFields (toolCallContentBlock call)
    [("type", some (.ofText "tool_call")),
      ("id", some (if call.id = [] then .null else .str call.id)),
      ("name", some (.str call.name)), ("args", some call.args)] := by
  simp [HasFields, toolCallContentBlock, field_object, find_cons, lit_inj]

theorem isToolCallBlock_toolCallContentBlock (call : ToolCall) :
    isToolCallBlock (toolCallContentBlock call) = true :=
  decide_eq_true (field_toolCallContentBlock call).1

theorem normalizeContentBlock_toolCallContentBlock (h : call.listed = true) :
    normalizeContentBlock (toolCallContentBlock call) = .ok (toolCallContentBlock call) := by
  obtain ⟨htype, hid, hname, hargs, -⟩ := field_toolCallContentBlock call
  obtain ⟨hne, -, hobject⟩ := ToolCall.listed_iff.mp h
  rw [if_neg hne] at hid
  cases hblock : toolCallContentBlock call with
  | obj =>
    rw [hblock, field_obj] at htype hid hname hargs
    refine normalizeContentBlock_own (by decide) htype ?_
    rw [normalizeTypedBlock_toolCall htype, normalizeToolCallBlock, withArgs_of_args hargs, hname,
      hargs, hid, Option.any_some, Option.any_some, Option.all_some, hobject]
    rfl
  | _ => cases hblock

theorem normalizeContentBlock_textContentBlock (text : Bytes) :
    normalizeContentBlock (textContentBlock text) = .ok (textContentBlock text) := by
  have htype : (textContentBlock text).field (lit "type") = some (.ofText "text") := by
    simp [textContentBlock, field_object, find_cons, lit_inj]
  have htext : (textContentBlock text).field (lit "text") = some (.str text) := by
    simp [textContentBlock, field_object, find_cons]
  cases hblock : textContentBlock text with
  | obj =>
    rw [hblock, field_obj] at htype htext
    refine normalizeContentBlock_own (by decide) htype ?_
    rw [normalizeTypedBlock, blockType_eq htype, if_pos rfl, normalizeTextBlock, htext]
    rfl
  | _ => cases hblock

theorem isToolCallBlock_textContentBlock (text : Bytes) :
    isToolCallBlock (textContentBlock text) = false := by
  refine decide_eq_false ?_
  simp [textContentBlock, field_object, find_cons, lit_inj, Json.ofText]

/-! ## 3. Written messages -/

/-- What the reader checks of a message besides its calls. -/
structure BaseMessage.Regular (message : BaseMessage) : Prop where
  normal : ∀ block ∈ message.contentBlocks, normalizeContentBlock block = .ok block
  checked : checkMessage message = .ok ()

theorem mem_ownBlocks (h : block ∈ message.ownBlocks) :
    block ∈ message.contentBlocks ∨ block = textContentBlock message.content := by
  unfold ownBlocks contentBlocksFromText at h
  split_ifs at h with hblocks hcontent
  · cases h
  · exact .inr (mem_singleton.mp h)
  · exact .inl h

theorem mem_messageContentBlocks (h : block ∈ messageContentBlocks message) :
    block ∈ message.contentBlocks ∨ block = textContentBlock message.content ∨
      message.type = .ai ∧ ∃ call ∈ message.toolCalls, block = toolCallContentBlock call := by
  unfold messageContentBlocks at h
  split_ifs at h with hai
  · rcases mem_append.mp h with h | h
    · exact (mem_ownBlocks h).imp_right .inl
    · obtain ⟨call, hcall, rfl⟩ := mem_map.mp h
      exact .inr (.inr ⟨hai.1, call, hcall, rfl⟩)
  · exact (mem_ownBlocks h).imp_right .inl

theorem BaseMessage.Regular.normal_written (h : message.Regular)
    (hcalls : ∀ call ∈ message.toolCalls, call.listed = true) :
    ∀ block ∈ messageContentBlocks message, normalizeContentBlock block = .ok block := by
  intro block hblock
  rcases mem_messageContentBlocks hblock with hown | rfl | ⟨-, call, hcall, rfl⟩
  · exact h.normal block hown
  · exact normalizeContentBlock_textContentBlock _
  · exact normalizeContentBlock_toolCallContentBlock (hcalls call hcall)

theorem field_baseMessageToJson (message : BaseMessage) : HasFields (baseMessageToJson message)
    [("type", some (.str (messageTypeName message.type))),
      ("role", some (.str (providerRoleName message.type))),
      ("content", some (.str message.writtenContent)),
      ("content_blocks", if messageContentBlocks message ≠ []
        then some (.arr (messageContentBlocks message)) else none),
      ("id", if message.id ≠ [] then some (.str message.id) else none),
      ("tool_calls", if message.toolCalls ≠ []
        then some (.arr (message.toolCalls.map toolCallToJson)) else none),
      ("tool_call_id", if message.toolCallId ≠ [] then some (.str message.toolCallId) else none),
      ("name", if message.name ≠ [] then some (.str message.name) else none),
      ("usage_metadata", if !message.usageMetadata.empty
        then some (usageMetadataToJson message.usageMetadata) else none),
      ("response_metadata", if !message.responseMetadata.isNull
        then some message.responseMetadata else none),
      ("artifact", if !message.artifact.isNull then some message.artifact else none)] := by
  simp [HasFields, baseMessageToJson, field_object, find_append, find_cons, find_entryIf, lit_inj]

theorem messageTypeFromName_name (type : MessageType) :
    messageTypeFromName (messageTypeName type) = .ok type := by
  cases type <;> rfl

theorem getD_null_field {found : Option Json} {value : Json}
    (h : found = if !value.isNull then some value else none) : found.getD .null = value := by
  rw [h]
  cases value <;> rfl

/-- What a written message is read as: its text and its blocks filled in from each other, and the
    tool calls of an AI message in the list of calls only. -/
def BaseMessage.rewritten (message : BaseMessage) : BaseMessage :=
  { message with
    content := message.writtenContent
    contentBlocks :=
      if message.type = .ai then message.ownBlocks.filter fun block => !isToolCallBlock block
      else message.ownBlocks }

theorem usage_eq_default {usage : UsageMetadata} (h : usage.empty = true) : usage = {} := by
  obtain ⟨⟨input, output, total, details⟩, source, provider, model, raw⟩ := usage
  simp only [UsageMetadata.empty, TokenUsage.empty, Bool.and_eq_true, Option.isNone_iff_eq_none,
    List.isEmpty_iff, decide_eq_true_eq] at h
  obtain ⟨⟨⟨⟨⟨⟨⟨rfl, rfl⟩, rfl⟩, rfl⟩, rfl⟩, rfl⟩, rfl⟩, rfl⟩ := h
  rfl

theorem usageMetadata_read (h : message.usageMetadata.tokens.countable = true) :
    fieldOr (baseMessageToJson message) "usage_metadata" {} usageMetadataFromJson =
      .ok message.usageMetadata := by
  obtain ⟨-, -, -, -, -, -, -, -, husage, -, -⟩ := field_baseMessageToJson message
  exact fieldOr_entryIf husage (fun hempty => (usage_eq_default (by simpa using hempty)).symm)
    ((usageMetadataFromJson_toJson _).ok h)

theorem toolCalls_read (h : ∀ call ∈ message.toolCalls, call.listed = true) :
    fieldOr (baseMessageToJson message) "tool_calls" [] toolCallsFromJson =
      .ok message.toolCalls := by
  obtain ⟨-, -, -, -, -, hcalls, -⟩ := field_baseMessageToJson message
  refine fieldOr_ok hcalls (fun hnone => ?_) fun value hsome => ?_
  · by_contra hne
    rw [if_pos (Ne.symm hne)] at hnone; cases hnone
  · split_ifs at hsome
    cases hsome
    rw [toolCallsFromJson, expectArray_arr, ok_bind]
    refine mapM_eq_ok_iff.mpr ?_
    rw [forall₂_map_left_iff]
    exact forall₂_same.mpr fun call hcall => (toolCallFromJson_toJson call).ok (h call hcall)

theorem ownBlocks_eq_nil_of_written (h : messageContentBlocks message = []) :
    message.ownBlocks = [] := by
  unfold messageContentBlocks at h
  split_ifs at h
  · exact (append_eq_nil_iff.mp h).1
  · exact h

theorem content_of_ownBlocks_nil (h : message.ownBlocks = []) :
    message.contentBlocks = [] ∧ message.content = [] := by
  unfold ownBlocks contentBlocksFromText at h
  split_ifs at h with hblocks hcontent
  · exact ⟨hblocks, hcontent⟩
  · exact absurd h hblocks

theorem contentFromJson_toJson (hregular : message.Regular)
    (hcalls : ∀ call ∈ message.toolCalls, call.listed = true) :
    ∃ given, blocksFromJson (baseMessageToJson message) = .ok given ∧
      contentFromJson (baseMessageToJson message) given =
        (message.writtenContent, messageContentBlocks message) := by
  obtain ⟨-, -, hcontent, hblocks, -⟩ := field_baseMessageToJson message
  refine ⟨messageContentBlocks message, ?_, ?_⟩
  · by_cases hempty : messageContentBlocks message = []
    · rw [if_neg (not_not.mpr hempty)] at hblocks
      rw [blocksFromJson, hblocks, hcontent, hempty]
    · rw [if_pos hempty] at hblocks
      rw [blocksFromJson, hblocks, hcontent]
      have hmap := mapM_eq_map (hregular.normal_written hcalls)
      rwa [map_id'] at hmap
  · rw [contentFromJson, hcontent]
    by_cases hempty : messageContentBlocks message = []
    · obtain ⟨hown, htext⟩ := content_of_ownBlocks_nil (ownBlocks_eq_nil_of_written hempty)
      have hwritten : message.writtenContent = [] := by
        rw [writtenContent, if_pos htext, hown]; rfl
      simp only [hempty, if_true, hwritten, contentBlocksFromText]
    · simp only [if_neg hempty]

theorem filter_messageContentBlocks (message : BaseMessage) :
    (messageContentBlocks message).filter (fun block => !isToolCallBlock block) =
      message.ownBlocks.filter fun block => !isToolCallBlock block := by
  unfold messageContentBlocks
  split_ifs
  · have hnone : (message.toolCalls.map toolCallContentBlock).filter
        (fun block => !isToolCallBlock block) = [] := by
      refine filter_eq_nil_iff.mpr fun block hblock => ?_
      obtain ⟨call, -, rfl⟩ := mem_map.mp hblock
      simp [isToolCallBlock_toolCallContentBlock]
    rw [filter_append, hnone, append_nil]
  · rfl

theorem asks_toolCallContentBlock (hcall : call ∈ calls) (hlisted : call.listed = true) :
    Asks (toolCallContentBlock call) calls := by
  obtain ⟨-, hid, hname, -⟩ := field_toolCallContentBlock call
  rw [if_neg (ToolCall.listed_iff.mp hlisted).1] at hid; exact ⟨call, hcall, hid, hname⟩

theorem liftToolCallBlocks_toJson {message : BaseMessage} (hregular : message.Regular)
    (hcalls : ∀ call ∈ message.toolCalls, call.listed = true)
    (hasked : message.type = .ai → ∀ block ∈ message.contentBlocks, isToolCallBlock block = true →
      Asks block message.toolCalls) :
    liftToolCallBlocks message.type (messageContentBlocks message) message.toolCalls =
      .ok (message.rewritten.contentBlocks, message.toolCalls) := by
  unfold liftToolCallBlocks rewritten
  by_cases hai : message.type = .ai
  · have hall : ∀ block ∈ messageContentBlocks message, isToolCallBlock block = true →
        Asks block message.toolCalls := by
      intro block hblock hcall
      rcases mem_messageContentBlocks hblock with hown | rfl | ⟨-, call, hmem, rfl⟩
      · exact hasked hai block hown hcall
      · rw [isToolCallBlock_textContentBlock] at hcall; cases hcall
      · exact asks_toolCallContentBlock hmem (hcalls call hmem)
    simp only [if_pos hai]
    rw [foldlM_liftToolCallBlock_asked (hregular.normal_written hcalls) hall, nil_append,
      filter_messageContentBlocks]
  · have hwritten : messageContentBlocks message = message.ownBlocks := by
      rw [messageContentBlocks, if_neg fun h => hai h.1]
    simp only [if_neg hai, hwritten]

theorem checkMessage_rewritten (h : checkMessage message = .ok ()) :
    checkMessage message.rewritten = .ok () := by
  obtain ⟨htool, h⟩ := of_require h
  refine require_bind_eq_ok.mpr ⟨htool, require_eq_ok.mpr ?_⟩
  have hcontent := require_eq_ok.mp h
  simp only [Bool.or_eq_true, decide_eq_true_eq] at hcontent ⊢
  have hblocks : message.type ≠ .ai → message.rewritten.contentBlocks = message.ownBlocks :=
    fun hai => if_neg hai
  by_cases hai : message.type = .ai
  · exact .inl (.inl (.inl hai))
  · rcases hcontent with ((hai' | htext) | hown) | hcalls
    · exact absurd hai' hai
    · refine .inl (.inl (.inr ?_))
      rwa [show message.rewritten.content = message.content from if_neg htext]
    · refine .inl (.inr ?_)
      rw [hblocks hai, ownBlocks, if_neg hown]; exact hown
    · exact .inr hcalls

/-- A regular message whose calls the list takes, and whose blocks ask for no other call, is read
    back when it has been written. -/
theorem baseMessageFromJson_toJson {message : BaseMessage} (hregular : message.Regular)
    (hcalls : ∀ call ∈ message.toolCalls, call.listed = true)
    (husage : message.usageMetadata.tokens.countable = true)
    (hasked : message.type = .ai → ∀ block ∈ message.contentBlocks, isToolCallBlock block = true →
      Asks block message.toolCalls) :
    baseMessageFromJson (baseMessageToJson message) = .ok message.rewritten := by
  obtain ⟨ftype, frole, fcontent, fblocks, fid, -, ftoolCallId, fname, -, fresponse, fartifact, -⟩ :=
    field_baseMessageToJson message
  obtain ⟨given, hgiven, hcontent⟩ := contentFromJson_toJson hregular hcalls
  have hfields : checkMessageFields (baseMessageToJson message) = .ok () := by
    rw [checkMessageFields, ftype, frole, fcontent, fblocks]
    split_ifs <;> rfl
  have htype : messageTypeFromJson (baseMessageToJson message) = .ok message.type := by
    rw [messageTypeFromJson, ftype]; exact messageTypeFromName_name _
  have hchecked := checkMessage_rewritten hregular.checked
  unfold baseMessageFromJson
  simp only [hfields, ok_bind, htype, hgiven, fieldOr_string fid, toolCalls_read hcalls, hcontent,
    liftToolCallBlocks_toJson hregular hcalls hasked, fieldOr_string ftoolCallId,
    fieldOr_string fname, usageMetadata_read husage, getD_null_field fresponse,
    getD_null_field fartifact]
  change (checkMessage message.rewritten >>= fun _ => pure message.rewritten) = _
  rw [hchecked]; rfl

theorem baseMessageToJson_rewritten
    (h : message.type = .ai → ∀ block ∈ message.contentBlocks, isToolCallBlock block = false) :
    baseMessageToJson message.rewritten = baseMessageToJson message := by
  have hblocks : message.rewritten.contentBlocks = message.ownBlocks := by
    unfold rewritten
    by_cases hai : message.type = .ai
    · simp only [if_pos hai]
      refine filter_eq_self.mpr fun block hblock => ?_
      rcases mem_ownBlocks hblock with hown | rfl
      · rw [h hai block hown]; rfl
      · rw [isToolCallBlock_textContentBlock]; rfl
    · simp only [if_neg hai]
  have hown : message.rewritten.ownBlocks = message.ownBlocks := by
    rw [ownBlocks, hblocks]
    split_ifs with hnil
    · obtain ⟨hnone, htext⟩ := content_of_ownBlocks_nil hnil
      rw [hnil, show message.rewritten.content = [] from ?_]
      · rfl
      · change message.writtenContent = []
        rw [writtenContent, if_pos htext, hnone]; rfl
    · rfl
  have hall : messageContentBlocks message.rewritten = messageContentBlocks message := by
    rw [messageContentBlocks, messageContentBlocks, hown]; rfl
  have hcontent : message.rewritten.writtenContent = message.writtenContent := by
    change (if message.writtenContent = [] then contentBlocksText message.rewritten.contentBlocks
      else message.writtenContent) = message.writtenContent
    split_ifs with hnil
    · rw [hblocks, hnil]
      unfold writtenContent at hnil
      split_ifs at hnil with htext
      · unfold ownBlocks
        split_ifs
        · rw [htext]; rfl
        · exact hnil
      · exact absurd hnil htext
    · rfl
  rw [baseMessageToJson, baseMessageToJson, hall, hcontent]; rfl

end LangGraph
