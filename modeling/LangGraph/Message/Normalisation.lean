import LangGraph.Message.Written

/-!
# Normal forms of messages

A message that was read is written in a form that is read again, unless it has a tool call without
an id or a name: the reader takes such a call from a content block and refuses it in the list of
calls.
-/

namespace LangGraph

open ExceptList ByteString List Except

/-! ## 1. Messages that were read -/

def givenBlocks (value : Json) : List Json :=
  match value.field (lit "content_blocks"), value.field (lit "content") with
  | some (.arr items), _ => items
  | none, some (.arr items) => items
  | _, _ => []

/-- A `tool_call` block with an empty id or an empty name. -/
def isUnnamedToolCall (block : Json) : Bool :=
  isToolCallBlock block && (block.field (lit "id") = some (.str []) ||
    block.field (lit "name") = some (.str []))

def hasUnnamedToolCall (value : Json) : Bool :=
  messageTypeFromJson value = .ok .ai && (givenBlocks value).any isUnnamedToolCall

variable {value : Json} {message : BaseMessage}

theorem blocksFromJson_ok {given : List Json} (h : blocksFromJson value = .ok given) :
    (givenBlocks value).mapM normalizeContentBlock = .ok given := by
  unfold blocksFromJson at h
  unfold givenBlocks
  cases hblocks : value.field (lit "content_blocks") with
  | some blocks =>
    rw [hblocks] at h
    cases blocks with
    | arr => exact h
    | _ => cases h
  | none =>
    rw [hblocks] at h
    cases hcontent : value.field (lit "content") with
    | none =>
      rw [hcontent] at h; exact h
    | some content =>
      rw [hcontent] at h
      cases content <;> exact h

theorem mem_contentFromJson {block : Json} {given : List Json} (h : block ∈ given) :
    block ∈ (contentFromJson value given).2 := by
  unfold contentFromJson
  split
  · dsimp only; rwa [if_neg (ne_nil_of_mem h)]
  · exact h

/-- How a message was read: from which blocks and which list of calls. -/
structure ReadFrom (value : Json) (message : BaseMessage) (given : List Json)
    (listed : List ToolCall) : Prop where
  type_eq : messageTypeFromJson value = .ok message.type
  blocks : blocksFromJson value = .ok given
  calls : fieldOr value "tool_calls" [] toolCallsFromJson = .ok listed
  lifted : liftToolCallBlocks message.type (contentFromJson value given).2 listed =
    .ok (message.contentBlocks, message.toolCalls)
  usage : fieldOr value "usage_metadata" {} usageMetadataFromJson = .ok message.usageMetadata
  checked : checkMessage message = .ok ()

theorem readFrom_of_ok (h : baseMessageFromJson value = .ok message) :
    ∃ given listed, ReadFrom value message given listed := by
  obtain ⟨-, -, h⟩ := of_bind h
  obtain ⟨type, htype, h⟩ := of_bind h
  obtain ⟨given, hgiven, h⟩ := of_bind h
  obtain ⟨id, -, h⟩ := of_bind h
  obtain ⟨listed, hlisted, h⟩ := of_bind h
  obtain ⟨lifted, hlifted, h⟩ := of_bind h
  obtain ⟨toolCallId, -, h⟩ := of_bind h
  obtain ⟨name, -, h⟩ := of_bind h
  obtain ⟨usage, husage, h⟩ := of_bind h
  obtain ⟨⟨⟩, hchecked, h⟩ := of_bind h
  cases h; exact ⟨given, listed, htype, hgiven, hlisted, hlifted, husage, hchecked⟩

theorem listed_of_toolCalls {calls : List ToolCall}
    (h : fieldOr value "tool_calls" [] toolCallsFromJson = .ok calls) :
    ∀ call ∈ calls, call.listed = true := by
  unfold fieldOr at h
  split at h
  · cases h; exact fun call hcall => (nomatch hcall)
  · obtain ⟨items, -, h⟩ := of_bind h
    intro call hcall
    obtain ⟨item, -, hread⟩ := exists_of_mem_mapM h hcall
    exact toolCallFromJson_ok hread

namespace ReadFrom

variable {value : Json} {message : BaseMessage} {given : List Json} {listed : List ToolCall}

section

variable (h : ReadFrom value message given listed)

include h

theorem mem_blocks {block : Json} (hblock : block ∈ (contentFromJson value given).2) :
    normalizeContentBlock block = .ok block ∧ (isToolCallBlock block = true →
        ∃ raw ∈ givenBlocks value, normalizeContentBlock raw = .ok block) := by
  have hgiven : block ∈ given →
      ∃ raw ∈ givenBlocks value, normalizeContentBlock raw = .ok block := fun hmem =>
    exists_of_mem_mapM (blocksFromJson_ok h.blocks) hmem
  have hnormal : block ∈ given → normalizeContentBlock block = .ok block := fun hmem => by
    obtain ⟨raw, -, hraw⟩ := hgiven hmem
    exact normalizeContentBlock_again hraw
  unfold contentFromJson contentBlocksFromText at hblock
  split at hblock
  · split_ifs at hblock
    · cases hblock
    · rw [mem_singleton.mp hblock]
      refine ⟨normalizeContentBlock_textContentBlock _, fun hcall => ?_⟩
      rw [isToolCallBlock_textContentBlock] at hcall; cases hcall
    · exact ⟨hnormal hblock, fun _ => hgiven hblock⟩
  · exact ⟨hnormal hblock, fun _ => hgiven hblock⟩

theorem regular : message.Regular := by
  refine ⟨fun block hblock => ?_, h.checked⟩
  have hlifted := h.lifted
  unfold liftToolCallBlocks at hlifted
  split_ifs at hlifted
  · have hkept := (foldlM_liftToolCallBlock hlifted).kept
    change message.contentBlocks = _ at hkept
    rw [hkept] at hblock; exact (h.mem_blocks (mem_filter.mp hblock).1).1
  · rw [← (Prod.mk.inj (ok.inj hlifted)).1] at hblock
    exact (h.mem_blocks hblock).1

theorem noToolCallBlock (hai : message.type = .ai) :
    ∀ block ∈ message.contentBlocks, isToolCallBlock block = false := by
  have hlifted := h.lifted
  rw [liftToolCallBlocks, if_pos hai] at hlifted
  have hkept := (foldlM_liftToolCallBlock hlifted).kept
  change message.contentBlocks = _ at hkept
  intro block hblock
  rw [hkept] at hblock; simpa using (mem_filter.mp hblock).2

theorem countable : message.usageMetadata.tokens.countable = true := by
  have husage := h.usage
  unfold fieldOr at husage
  split at husage
  · rw [← ok.inj husage]; rfl
  · exact countable_of_usageMetadataFromJson husage

/-- The calls of a message that was read go into the list of calls, unless one of them came from an
    unnamed block. -/
theorem listed_iff :
    (∀ call ∈ message.toolCalls, call.listed = true) ↔ hasUnnamedToolCall value = false := by
  have hlistedCalls := listed_of_toolCalls h.calls
  have hlifted := h.lifted
  rw [hasUnnamedToolCall, h.type_eq]
  unfold liftToolCallBlocks at hlifted
  by_cases hai : message.type = .ai
  · rw [if_pos hai] at hlifted
    have hall := foldlM_liftToolCallBlock hlifted
    rw [hai, decide_eq_true rfl, Bool.true_and, any_eq_false]
    constructor
    · intro hcalls raw hraw hunnamed
      rw [isUnnamedToolCall, Bool.and_eq_true] at hunnamed
      obtain ⟨hcall, hempty⟩ := hunnamed
      -- The normal form of the unnamed block asks for a call, which then has no name or no id.
      obtain ⟨block, hblock, hnormal⟩ := exists_mem_of_mapM (blocksFromJson_ok h.blocks) hraw
      obtain ⟨hsame, hfields⟩ := isToolCallBlock_normalized hnormal
      obtain ⟨hid, hname⟩ := hfields hcall
      have hmem : block ∈ (contentFromJson value given).2 := mem_contentFromJson hblock
      obtain ⟨call, hcallMem, hcallId, hcallName⟩ := hall.asked block hmem (hsame.trans hcall)
      obtain ⟨hidNe, hnameNe, -⟩ := ToolCall.listed_iff.mp (hcalls call hcallMem)
      rw [Bool.or_eq_true, decide_eq_true_iff, decide_eq_true_iff, ← hid, ← hname, hcallId,
        hcallName] at hempty
      rcases hempty with hempty | hempty
      · exact hidNe (Json.str.inj (Option.some.inj hempty))
      · exact hnameNe (Json.str.inj (Option.some.inj hempty))
    · intro hnamed call hcall
      obtain ⟨added, hadded, hof⟩ := hall.added
      change message.toolCalls = listed ++ added at hadded
      rw [hadded] at hcall
      rcases mem_append.mp hcall with hcall | hcall
      · exact hlistedCalls call hcall
      · obtain ⟨block, hblock, hisCall, hread⟩ := hof call hcall
        obtain ⟨raw, hraw, hnormal⟩ := (h.mem_blocks hblock).2 hisCall
        obtain ⟨hsame, hfields⟩ := isToolCallBlock_normalized hnormal
        obtain ⟨hid, hname⟩ := hfields (hsame.symm.trans hisCall)
        obtain ⟨hcallId, hcallName, -, hobject⟩ := toolCallOfBlock_ok_iff.mp hread
        have hraw' := hnamed raw hraw
        rw [isUnnamedToolCall, hsame.symm.trans hisCall, Bool.true_and, ← hid, ← hname, hcallId,
          hcallName, Bool.or_eq_true, decide_eq_true_iff, decide_eq_true_iff, not_or] at hraw'
        exact ToolCall.listed_iff.mpr ⟨fun hnil => hraw'.1 (by rw [hnil]),
          fun hnil => hraw'.2 (by rw [hnil]), hobject⟩
  · rw [if_neg hai] at hlifted
    rw [← (Prod.mk.inj (ok.inj hlifted)).2,
      decide_eq_false fun heq => hai (ok.inj heq), Bool.false_and]
    exact ⟨fun _ => rfl, fun _ => hlistedCalls⟩

end

end ReadFrom

theorem reread_of_named (h : baseMessageFromJson value = .ok message)
    (hnamed : hasUnnamedToolCall value = false) :
    baseMessageFromJson (baseMessageToJson message) = .ok message.rewritten ∧
      baseMessageToJson message.rewritten = baseMessageToJson message := by
  obtain ⟨given, listed, hread⟩ := readFrom_of_ok h
  refine ⟨baseMessageFromJson_toJson hread.regular (hread.listed_iff.mpr hnamed) hread.countable ?_,
    baseMessageToJson_rewritten hread.noToolCallBlock⟩
  intro hai block hblock hcall
  rw [hread.noToolCallBlock hai block hblock] at hcall; cases hcall

theorem listed_of_reread {again : BaseMessage}
    (h : baseMessageFromJson (baseMessageToJson message) = .ok again) :
    ∀ call ∈ message.toolCalls, call.listed = true := by
  obtain ⟨given, listed, hread⟩ := readFrom_of_ok h
  obtain ⟨-, -, -, -, -, hcalls, -⟩ := field_baseMessageToJson message
  have hlisted := hread.calls
  intro call hcall
  rw [fieldOr, hcalls, if_pos (ne_nil_of_mem hcall)] at hlisted
  obtain ⟨other, -, hother⟩ := exists_mem_of_mapM hlisted (mem_map_of_mem hcall)
  exact ((toolCallFromJson_toJson call).of_ok hother).1

theorem named_of_reread {again : BaseMessage} (h : baseMessageFromJson value = .ok message)
    (hagain : baseMessageFromJson (baseMessageToJson message) = .ok again) :
    hasUnnamedToolCall value = false := by
  obtain ⟨given, listed, hread⟩ := readFrom_of_ok h
  exact hread.listed_iff.mp (listed_of_reread hagain)

/-! ## 2. Lists of messages -/

def channelItems : Json → List Json
  | .arr items => items
  | value => [value]

theorem messagesFromAddMessagesValue_eq {messages : List BaseMessage}
    (h : messagesFromAddMessagesValue value = .ok messages) :
    (channelItems value).mapM baseMessageFromJson = .ok messages := by
  cases value with
  | arr => exact h
  | obj =>
    obtain ⟨message, hmessage, h⟩ := of_bind h
    cases h
    rw [channelItems, mapM_cons, hmessage]
    · rfl
    · exact fun _ h => (nomatch h)
  | _ => cases h

theorem messagesFromJson_toJson {messages : List BaseMessage}
    (h : ∀ message ∈ messages, ∃ value, baseMessageFromJson value = .ok message ∧
      hasUnnamedToolCall value = false) :
    messagesFromJson (messagesToJson messages) = .ok (messages.map BaseMessage.rewritten) ∧
      messagesToJson (messages.map BaseMessage.rewritten) = messagesToJson messages := by
  constructor
  · refine mapM_eq_ok_iff.mpr ?_
    rw [forall₂_map_left_iff, forall₂_map_right_iff]
    refine forall₂_same.mpr fun message hmessage => ?_
    obtain ⟨value, hread, hnamed⟩ := h message hmessage
    exact (reread_of_named hread hnamed).1
  · rw [messagesToJson, messagesToJson, map_map]
    refine congrArg Json.arr (map_congr_left fun message hmessage => ?_)
    obtain ⟨value, hread, hnamed⟩ := h message hmessage
    exact (reread_of_named hread hnamed).2

theorem mem_addMessage {added : List BaseMessage × List (Bytes × Nat)} {right : List BaseMessage}
    (h : message ∈ (right.foldl addMessage added).1) : message ∈ added.1 ∨ message ∈ right := by
  induction right generalizing added with
  | nil => exact .inl h
  | cons next right ih =>
    rcases ih h with hstep | hright
    · have hnext : message ∈ added.1 ∨ message = next := by
        unfold addMessage at hstep
        split_ifs at hstep
        · simpa using hstep
        · split at hstep
          · exact (mem_or_eq_of_mem_set hstep)
          · simpa using hstep
      rcases hnext with hmem | rfl
      · exact .inl hmem
      · exact .inr mem_cons_self
    · exact .inr (mem_cons_of_mem _ hright)

theorem messagesFromChannel_mem {current : Json} {left : List BaseMessage}
    (h : messagesFromChannel current = .ok left) (hmem : message ∈ left) :
    ∃ item ∈ channelItems current, baseMessageFromJson item = .ok message := by
  unfold messagesFromChannel at h
  split_ifs at h
  · cases h; cases hmem
  · exact exists_of_mem_mapM (messagesFromAddMessagesValue_eq h) hmem

theorem messagesFromJson_stored {current value stored : Json}
    (h : addMessages current value = .ok stored)
    (hnamed : ∀ item ∈ channelItems current ++ channelItems value,
      hasUnnamedToolCall item = false) :
    ∃ messages, messagesFromChannel stored = .ok messages := by
  obtain ⟨left, hleft, h⟩ := of_bind h
  obtain ⟨right, hright, h⟩ := of_bind h
  cases h
  refine ⟨_, (messagesFromJson_toJson fun message hmessage => ?_).1⟩
  rcases mem_addMessage hmessage with hmem | hmem
  · obtain ⟨item, hitem, hread⟩ := messagesFromChannel_mem hleft hmem
    exact ⟨item, hread, hnamed item (mem_append_left _ hitem)⟩
  · obtain ⟨item, hitem, hread⟩ :=
      exists_of_mem_mapM (messagesFromAddMessagesValue_eq hright) hmem
    exact ⟨item, hread, hnamed item (mem_append_right _ hitem)⟩

/-- Messages that were read are written in a normal form, which is read again and written the same
    way, exactly if none of them has a `tool_call` block with an empty id or name; a channel to
    which only such messages were added can always be reduced again. -/
theorem messages_normal_iff_named (items : List Json) (messages : List BaseMessage)
    (current value stored : Json) :
    (messagesFromJson (.arr items) = .ok messages →
      ((∃ again, messagesFromJson (messagesToJson messages) = .ok again ∧
          messagesToJson again = messagesToJson messages) ↔
        ∀ item ∈ items, hasUnnamedToolCall item = false)) ∧
    (addMessages current value = .ok stored →
      (∀ item ∈ channelItems current ++ channelItems value, hasUnnamedToolCall item = false) →
      ∀ more right, messagesFromAddMessagesValue more = .ok right →
        ∃ next, addMessages stored more = .ok next) := by
  constructor
  · intro h
    constructor
    · rintro ⟨again, hagain, -⟩ item hitem
      obtain ⟨message, hmessage, hread⟩ := exists_mem_of_mapM h hitem
      obtain ⟨other, -, hother⟩ :=
        exists_mem_of_mapM hagain (mem_map_of_mem hmessage)
      exact named_of_reread hread hother
    · intro hnamed
      refine ⟨_, messagesFromJson_toJson fun message hmessage => ?_⟩
      obtain ⟨item, hitem, hread⟩ := exists_of_mem_mapM h hmessage
      exact ⟨item, hread, hnamed item hitem⟩
  · intro h hnamed more right hmore
    obtain ⟨left, hleft⟩ := messagesFromJson_stored h hnamed
    exact ⟨_, by rw [addMessages, hleft, ok_bind, hmore, ok_bind]; rfl⟩

def askingMessage (id : Bytes) : Json :=
  .object [(lit "type", .ofText "ai"), (lit "content_blocks", .arr [
    .object [(lit "type", .ofText "tool_call"), (lit "id", .str id), (lit "name", .ofText "search")]])]

theorem asking_message_normal :
    (∃ again, messagesFromJson (messagesToJson [{
        type := .ai, toolCalls := [⟨lit "1", lit "search", .obj []⟩] }]) = .ok again ∧
      messagesToJson again = messagesToJson [{
        type := .ai, toolCalls := [⟨lit "1", lit "search", .obj []⟩] }]) ∧
    ∃ next, addMessages (messagesToJson [{
        type := .ai, toolCalls := [⟨lit "1", lit "search", .obj []⟩] }])
      (askingMessage (lit "2")) = .ok next :=
  ⟨((messages_normal_iff_named [askingMessage (lit "1")] _ .null .null .null).1
      (by decide +kernel)).mpr (by decide +kernel),
    (messages_normal_iff_named [] [] .null (askingMessage (lit "1")) _).2 (by decide +kernel)
      (by decide +kernel) (askingMessage (lit "2")) [{
        type := .ai, toolCalls := [⟨lit "2", lit "search", .obj []⟩] }] (by decide +kernel)⟩

/-- A call with an empty id is taken from a block; the list that holds it is refused. -/
theorem unnamed_call_blocks_channel :
    messagesFromJson (.arr [askingMessage []]) =
      .ok [{ type := .ai, toolCalls := [⟨[], lit "search", .obj []⟩] }] ∧
    messagesFromJson (messagesToJson [{
        type := .ai, toolCalls := [⟨[], lit "search", .obj []⟩] }]) =
      .error (invalid "tool call id cannot be empty") ∧
    ∃ stored, addMessages .null (.arr [askingMessage []]) = .ok stored ∧
      addMessages stored (.arr []) = .error (invalid "tool call id cannot be empty") :=
  ⟨by decide +kernel, by decide +kernel, _, by rfl, by decide +kernel⟩

end LangGraph
