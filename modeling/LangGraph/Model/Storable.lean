import LangGraph.Message.Normalisation
import LangGraph.Model.ProviderChatModel

/-!
# Answers that can be stored

An answer is added to a channel of messages in its JSON form, so it has to be read back from that
form with the calls it has.  The parsers are more generous than the reader of messages: they take
calls without an id or with arguments that are no object, and counts that do not fit `int64_t`.
-/

namespace LangGraph

open ExceptList ByteString Option Except

/-! ## 1. AI messages that are read back -/

/-- The JSON form of the message is accepted, and gives the same tool calls. -/
def BaseMessage.Storable (message : BaseMessage) : Prop :=
  ∃ again, baseMessageFromJson (baseMessageToJson message) = .ok again ∧
    again.toolCalls = message.toolCalls

theorem countable_of_reread {message again : BaseMessage}
    (h : baseMessageFromJson (baseMessageToJson message) = .ok again) :
    message.usageMetadata.tokens.countable = true := by
  obtain ⟨given, listed, hread⟩ := readFrom_of_ok h
  obtain ⟨-, -, -, -, -, -, -, -, husage, -, -⟩ := field_baseMessageToJson message
  have hfield := hread.usage
  rw [fieldOr, husage] at hfield
  cases hempty : message.usageMetadata.empty with
  | true =>
    rw [usage_eq_default hempty]; rfl
  | false =>
    rw [hempty] at hfield
    exact ((usageMetadataFromJson_toJson message.usageMetadata).of_ok hfield).1

theorem mem_messageContentBlocks_of_mem {message : BaseMessage} {block : Json}
    (h : block ∈ message.contentBlocks) : block ∈ messageContentBlocks message := by
  have hown : block ∈ message.ownBlocks := by
    rw [BaseMessage.ownBlocks, if_neg (List.ne_nil_of_mem h)]; exact h
  unfold messageContentBlocks
  split_ifs
  · exact List.mem_append_left _ hown
  · exact hown

/-- An AI message with normal blocks is read back with its calls exactly if the list takes each of
    them, its counts are taken, and its blocks ask for no other call. -/
theorem storable_iff {message : BaseMessage} (hai : message.type = .ai)
    (hnormal : ∀ block ∈ message.contentBlocks, normalizeContentBlock block = .ok block) :
    message.Storable ↔ (∀ call ∈ message.toolCalls, call.listed = true) ∧
      (∀ block ∈ message.contentBlocks, isToolCallBlock block = true →
        Asks block message.toolCalls) ∧
      message.usageMetadata.tokens.countable = true := by
  have hregular : message.Regular := by
    refine ⟨hnormal, ?_⟩
    rw [checkMessage, hai]; rfl
  constructor
  · rintro ⟨again, hagain, hsame⟩
    have hcalls := listed_of_reread hagain
    refine ⟨hcalls, fun block hblock hcall => ?_, countable_of_reread hagain⟩
    obtain ⟨given, listed, hread⟩ := readFrom_of_ok hagain
    obtain ⟨given', hgiven, hcontent⟩ := contentFromJson_toJson hregular hcalls
    obtain rfl : given' = given := ok.inj (hgiven.symm.trans hread.blocks)
    have htype : again.type = .ai := by
      obtain ⟨ftype, -⟩ := field_baseMessageToJson message
      have hagainType := hread.type_eq
      rw [messageTypeFromJson, ftype] at hagainType
      rw [← hai]
      exact (ok.inj ((messageTypeFromName_name message.type).symm.trans hagainType)).symm
    have hlifted := hread.lifted
    rw [liftToolCallBlocks, if_pos htype, hcontent] at hlifted
    have hasked := (foldlM_liftToolCallBlock hlifted).asked block
      (mem_messageContentBlocks_of_mem hblock) hcall
    rwa [hsame] at hasked
  · rintro ⟨hcalls, hasked, husage⟩
    exact ⟨_, baseMessageFromJson_toJson hregular hcalls husage fun _ => hasked, rfl⟩

/-! ## 2. Counts -/

def sumOf (input output : Option Nat) : Option Nat :=
  input.bind fun i => output.map fun o => i + o

/-- Counts that a message can be stored with: each of them fits, and so does their sum where no
    total is reported. -/
def countsStorable (input output total : Option Nat) : Bool :=
  input.all (· < 2 ^ 63) && output.all (· < 2 ^ 63) && (total.or (sumOf input output)).all (· < 2 ^ 63)

theorem countable_inferTotalTokens (usage : TokenUsage) :
    (inferTotalTokens usage).countable =
      countsStorable usage.inputTokens usage.outputTokens usage.totalTokens := by
  obtain ⟨input, output, total, details⟩ := usage
  cases total with
  | some => rfl
  | none =>
    cases input with
    | none => rfl
    | some input =>
      cases output with
      | none => rfl
      | some output =>
        -- Where the sum does not fit, one of the counts is too large already.
        simp only [inferTotalTokens]
        split_ifs with hfits
        · rfl
        · simp only [TokenUsage.countable, countsStorable, all_some, all_none, Bool.and_true]
          by_cases hinput : input < 2 ^ 63
          · have houtput : ¬ output < 2 ^ 63 := by omega
            rw [decide_eq_false houtput, Bool.and_false, Bool.false_and]
          · rw [decide_eq_false hinput, Bool.false_and, Bool.false_and]

theorem countsStorable_inferTotalTokens (usage : TokenUsage) {input output : Option Nat}
    (hinput : usage.inputTokens.or input = input) (houtput : usage.outputTokens.or output = output) :
    countsStorable input output (inferTotalTokens usage).totalTokens =
      countsStorable input output usage.totalTokens := by
  obtain ⟨known, knownOutput, total, details⟩ := usage
  cases total with
  | some => rfl
  | none =>
    cases known with
    | none => rfl
    | some i =>
      cases knownOutput with
      | none => rfl
      | some o =>
        obtain rfl : some i = input := hinput
        obtain rfl : some o = output := houtput
        simp only [inferTotalTokens]
        split_ifs <;> rfl

namespace ProviderChatModel

variable (chat : ProviderChatModel)

def reported : Json → TokenUsage
  | .obj (entry :: usage) => reportedTokens chat.provider (entry :: usage)
  | _ => {}

/-- The counter's count of the prompt, if there is a counter. -/
def countedInput (prompt : List BaseMessage) : Option Nat :=
  chat.tokenCounter.bind fun counter => (counter.countMessageTokens prompt).toOption

def countedOutput (text : Bytes) : Option Nat :=
  chat.tokenCounter.bind fun counter => (counter.countTextTokens text).toOption

/-- The counts of an answer can be stored: those it reports, and the counter's for the missing. -/
def usageStorable (usage : Json) (prompt : List BaseMessage) (text : Bytes) : Bool :=
  countsStorable ((chat.reported usage).inputTokens.or (chat.countedInput prompt))
    ((chat.reported usage).outputTokens.or (chat.countedOutput text)) (chat.reported usage).totalTokens

theorem tokens_normalizeProviderUsage (usage : Json) :
    (normalizeProviderUsage chat.provider chat.model usage).tokens =
      inferTotalTokens (chat.reported usage) := by
  cases usage with
  | obj fields => cases fields <;> rfl
  | _ => rfl

theorem inputTokens_inferTotalTokens (usage : TokenUsage) :
    (inferTotalTokens usage).inputTokens = usage.inputTokens ∧
      (inferTotalTokens usage).outputTokens = usage.outputTokens := by
  unfold inferTotalTokens
  split
  · split_ifs
    · exact ⟨rfl, rfl⟩
    · exact ⟨rfl, rfl⟩
  · exact ⟨rfl, rfl⟩

theorem countIfMissing_ok {count result : Option Nat} {counted : Result Nat}
    (h : countIfMissing count counted = .ok result) : result = count.or counted.toOption := by
  cases count with
  | some => exact (ok.inj h).symm
  | none =>
    cases counted with
    | error => cases h
    | ok => exact (ok.inj h).symm

theorem countable_completeUsageMetadata {usage : Json} {prompt : List BaseMessage} {text : Bytes}
    {completed : UsageMetadata}
    (h : completeUsageMetadata (normalizeProviderUsage chat.provider chat.model usage)
      chat.tokenCounter prompt text (chatProviderName chat.provider) chat.model = .ok completed) :
    completed.tokens.countable = chat.usageStorable usage prompt text := by
  have htokens := chat.tokens_normalizeProviderUsage usage
  obtain ⟨hinput, houtput⟩ := inputTokens_inferTotalTokens (chat.reported usage)
  unfold completeUsageMetadata at h
  unfold usageStorable countedInput countedOutput
  cases hcounter : chat.tokenCounter with
  | none =>
    rw [hcounter] at h
    cases h
    rw [htokens, countable_inferTotalTokens, bind_none, bind_none, or_none, or_none]
  | some =>
    rw [hcounter] at h
    obtain ⟨inputTokens, hcountedInput, h⟩ := of_bind h
    obtain ⟨outputTokens, hcountedOutput, h⟩ := of_bind h
    cases h
    obtain rfl := countIfMissing_ok hcountedInput
    obtain rfl := countIfMissing_ok hcountedOutput
    rw [countable_inferTotalTokens, htokens, hinput, houtput, bind_some, bind_some,
      countsStorable_inferTotalTokens]
    · rw [← Option.or_assoc, Option.or_self]
    · rw [← Option.or_assoc, Option.or_self]

theorem withUsage_ok {message result : BaseMessage} {usage : Json} {prompt : List BaseMessage}
    (hempty : message.usageMetadata = {})
    (h : chat.withUsage message (normalizeProviderUsage chat.provider chat.model usage) prompt =
      .ok result) :
    result.type = message.type ∧ result.contentBlocks = message.contentBlocks ∧
      result.toolCalls = message.toolCalls ∧
      result.usageMetadata.tokens.countable = chat.usageStorable usage prompt message.content := by
  obtain ⟨completed, hcompleted, h⟩ := of_bind h
  cases h
  refine ⟨rfl, rfl, rfl, ?_⟩
  have hsame : (if completed.empty then message.usageMetadata else completed) = completed := by
    split_ifs with hnone
    · rw [hempty, usage_eq_default hnone]
    · rfl
  rw [hsame]; exact chat.countable_completeUsageMetadata hcompleted

end ProviderChatModel

/-- What a parser gives: an AI message with normal blocks, whose calls are read back exactly under
    the condition. -/
structure Parsed (message : BaseMessage) (text : Bytes) (condition : Prop) : Prop where
  type_eq : message.type = .ai
  usage_eq : message.usageMetadata = {}
  content_eq : message.content = text
  normal : ∀ block ∈ message.contentBlocks, normalizeContentBlock block = .ok block
  calls_iff : ((∀ call ∈ message.toolCalls, call.listed = true) ∧
      ∀ block ∈ message.contentBlocks, isToolCallBlock block = true →
        Asks block message.toolCalls) ↔ condition

theorem Parsed.storable_iff {chat : ProviderChatModel} {message result : BaseMessage} {text : Bytes}
    {condition : Prop} {usage : Json} {prompt : List BaseMessage}
    (hparsed : Parsed message text condition)
    (h : chat.withUsage message (normalizeProviderUsage chat.provider chat.model usage) prompt =
      .ok result) :
    result.Storable ↔ condition ∧ chat.usageStorable usage prompt text = true := by
  obtain ⟨htype, hblocks, hcalls, husage⟩ := chat.withUsage_ok hparsed.usage_eq h
  rw [LangGraph.storable_iff (htype.trans hparsed.type_eq) (by rw [hblocks]; exact hparsed.normal),
    hblocks, hcalls, husage, hparsed.content_eq, ← and_assoc, hparsed.calls_iff]

/-- Blocks that are normal and none of which is a tool call. -/
def PlainBlocks (blocks : List Json) : Prop :=
  ∀ block ∈ blocks, normalizeContentBlock block = .ok block ∧ isToolCallBlock block = false

theorem PlainBlocks.append {blocks more : List Json} (h : PlainBlocks blocks)
    (hmore : PlainBlocks more) : PlainBlocks (blocks ++ more) := fun block hblock =>
  (List.mem_append.mp hblock).elim (h block) (hmore block)

theorem plainBlocks_nil : PlainBlocks [] := fun _ h => (nomatch h)

theorem plainBlocks_text (text : Bytes) : PlainBlocks [textContentBlock text] := by
  intro block hblock
  rw [List.mem_singleton.mp hblock]
  exact ⟨normalizeContentBlock_textContentBlock text, isToolCallBlock_textContentBlock text⟩

theorem plainBlocks_contentBlocksFromText (text : Bytes) :
    PlainBlocks (contentBlocksFromText text) := by
  unfold contentBlocksFromText
  split_ifs
  · exact plainBlocks_nil
  · exact plainBlocks_text text

theorem Parsed.of_plain {content : Bytes} {calls : List ToolCall} {blocks : List Json}
    {condition : Prop} (hblocks : PlainBlocks blocks)
    (hcalls : (∀ call ∈ calls, call.listed = true) ↔ condition) :
    Parsed (.answer content calls blocks) content condition where
  type_eq := rfl
  usage_eq := rfl
  content_eq := rfl
  normal := fun block hblock => (hblocks block hblock).1
  calls_iff := by
    refine ⟨fun h => hcalls.mp h.1, fun h => ⟨hcalls.mpr h, fun block hblock hcall => ?_⟩⟩
    rw [(hblocks block hblock).2] at hcall; cases hcall

end LangGraph
