import LangGraph.Model.Storable

/-!
# Which responses can be stored

For each form of a response, the condition on what the provider sent: its tool calls have an id, a
name and an object of arguments, and its blocks ask for no other call.
-/

namespace LangGraph

open ExceptList ByteString OrderedMap Json List Except

/-! ## 1. Fields of an answer -/

def isNonEmptyText : Option Json → Bool
  | some (.str (_ :: _)) => true
  | _ => false

variable {text : Bytes} {parse : Bytes → Except Bytes Json} {value item message : Json}
  {key : String} {call : ToolCall} {items blocks : List Json} {calls : List ToolCall}
  {answer : BaseMessage}

theorem isNonEmptyText_str : isNonEmptyText (some (.str text)) = true ↔ text ≠ [] := by
  cases text with
  | nil => exact ⟨fun h => (nomatch h), fun h => absurd rfl h⟩
  | cons => exact ⟨fun _ => cons_ne_nil _ _, fun _ => rfl⟩

/-- The arguments are an object, or nothing, or a text that parses to an object. -/
def objectArguments (parse : Bytes → Except Bytes Json) : Json → Bool
  | .obj _ => true
  | .null => true
  | .str [] => true
  | .str text => (parse text).toOption.any Json.isObject
  | _ => false

theorem parseJsonResult_ok {context : Bytes} (h : parseJsonResult parse text context = .ok value) :
    parse text = .ok value := by
  unfold parseJsonResult at h
  split at h
  · rename_i parsed hparsed
    rw [hparsed, ok.inj h]
  · cases h

theorem parseToolArguments_isObject {context : Bytes} {args : Json}
    (h : parseToolArguments parse context value = .ok args) :
    args.isObject = objectArguments parse value := by
  unfold parseToolArguments at h
  split at h
  · cases h; rfl
  · cases h; rfl
  · cases h; rfl
  · rename_i text hnonempty
    cases text with
    | nil => exact absurd rfl hnonempty
    | cons =>
      rw [objectArguments, parseJsonResult_ok h]
      · rfl
      · exact cons_ne_nil _ _
  · cases h

theorem textOr_ok (h : textOr value key = .ok text) :
    value.field (lit key) = some (.str text) ∨ value.field (lit key) = none ∧ text = [] := by
  unfold textOr fieldOr at h
  split at h
  · rename_i hnone
    exact .inr ⟨hnone, (ok.inj h).symm⟩
  · rename_i found hfound
    cases found with
    | str =>
      rw [hfound, ← ok.inj h]; exact .inl rfl
    | _ => cases h

theorem isNonEmptyText_of_textOr (h : textOr value key = .ok text) :
    isNonEmptyText (value.field (lit key)) = true ↔ text ≠ [] := by
  rcases textOr_ok h with hfield | ⟨hfield, rfl⟩
  · rw [hfield]; exact isNonEmptyText_str
  · rw [hfield]; exact ⟨fun h => (nomatch h), fun h => absurd rfl h⟩

theorem requiredText_ok {message : String} (h : requiredText value key message = .ok text) :
    value.field (lit key) = some (.str text) := by
  unfold requiredText at h
  split at h
  · rename_i hfield
    rw [hfield, ok.inj h]
  · cases h

/-! ## 2. Answers of the OpenAI form -/

def calledFunction (item : Json) : Json := (objectField "function" item).getD .null

/-- A tool call with an id, a name and an object of arguments. -/
def openAICallStorable (parse : Bytes → Except Bytes Json) (item : Json) : Prop :=
  isNonEmptyText (item.field (lit "id")) = true ∧
  isNonEmptyText ((calledFunction item).field (lit "name")) = true ∧
  objectArguments parse (((calledFunction item).field (lit "arguments")).getD (.obj [])) = true

instance (parse : Bytes → Except Bytes Json) (item : Json) :
    Decidable (openAICallStorable parse item) :=
  inferInstanceAs (Decidable (_ ∧ _ ∧ _))

theorem openAIToolCall_ok (h : openAIToolCall parse item = .ok call) :
    textOr item "id" = .ok call.id ∧
      (calledFunction item).field (lit "name") = some (.str call.name) ∧
      (call.listed = true ↔ openAICallStorable parse item) := by
  obtain ⟨-, h⟩ := of_require h
  obtain ⟨function, hfunction, h⟩ := of_bind h
  obtain ⟨name, hname, h⟩ := of_bind h
  obtain ⟨args, hargs, h⟩ := of_bind h
  obtain ⟨id, hid, h⟩ := of_bind h
  cases h
  have hcalled : calledFunction item = function := by
    unfold openAIFunction at hfunction
    unfold calledFunction objectField
    split at hfunction
    · exact ok.inj hfunction
    · cases hfunction
  have hfield := requiredText_ok hname
  refine ⟨hid, by rw [hcalled]; exact hfield, ?_⟩
  rw [ToolCall.listed_iff, openAICallStorable, hcalled, isNonEmptyText_of_textOr hid, hfield,
    isNonEmptyText_str, parseToolArguments_isObject hargs]

def openAIMessageOf (body : Json) : Option Json :=
  match body.field (lit "choices") with
  | some (.arr (choice :: _)) => objectField "message" choice
  | _ => none

def arrayItems : Option Json → List Json
  | some (.arr items) => items
  | _ => []

def openAICallItems (body : Json) : List Json :=
  arrayItems ((openAIMessageOf body).bind (Json.field (lit "tool_calls")))

def openAIGivenBlocks (body : Json) : List Json :=
  arrayItems ((openAIMessageOf body).bind (Json.field (lit "content")))

def givenText : Option Json → Bytes
  | some (.str text) => text
  | some (.arr items) => contentBlocksText items
  | _ => []

def openAIText (body : Json) : Bytes :=
  match openAIMessageOf body, body.field (lit "choices") with
  | some message, _ => givenText (message.field (lit "content"))
  | none, some (.arr (choice :: _)) => givenText (choice.field (lit "text"))
  | none, _ => []

/-- A `tool_call` block of the content that stands for one of the tool calls. -/
def asksForItem (block item : Json) : Prop :=
  block.field (lit "id") = item.field (lit "id") ∧
    block.field (lit "name") = (calledFunction item).field (lit "name")

instance (block item : Json) : Decidable (asksForItem block item) :=
  inferInstanceAs (Decidable (_ ∧ _))

/-- The tool calls of the answer have an id, a name and an object of arguments, and its blocks ask
    for no other call. -/
def openAIStorable (parse : Bytes → Except Bytes Json) (body : Json) : Prop :=
  (∀ item ∈ openAICallItems body, openAICallStorable parse item) ∧
    ∀ block ∈ openAIGivenBlocks body, isToolCallBlock block = true →
      ∃ item ∈ openAICallItems body, asksForItem block item

instance (parse : Bytes → Except Bytes Json) (body : Json) : Decidable (openAIStorable parse body) :=
  inferInstanceAs (Decidable (_ ∧ _))

theorem blockText_normalized {raw block : Json} (h : normalizeContentBlock raw = .ok block) :
    blockText block = blockText raw := by
  obtain ⟨fields, provided, settled, rfl, -, hprovided, hsettled, rfl⟩ :=
    normalizeContentBlock_ok_iff.mp h
  have hnone : ∀ {other : JsonObject}, blockField other "type" ≠ some (.ofText "text") →
      blockText (.obj other) = [] := by
    intro other hother
    unfold blockText
    split
    · rw [field_obj, if_neg hother]
    · rfl
  have htype := (normalizeTypedBlock_settled hsettled).type_eq
  rcases normalizeProviderContentBlock_ok hprovided with ⟨rfl, -⟩ | ⟨hprovider, hmade⟩
  · by_cases htext : blockField provided "type" = some (.ofText "text")
    · rw [normalizeTypedBlock, blockType_eq htext, if_pos rfl] at hsettled
      rw [ok.inj (of_require hsettled).2]
    · rw [hnone htext, hnone (by rwa [htype])]
  · have hbefore : blockField fields "type" ≠ some (.ofText "text") := by
      intro htext
      rw [isProviderBlock, blockType_eq htext, lit_inj, lit_inj] at hprovider
      exact absurd hprovider (by decide)
    have hafter : blockField settled "type" ≠ some (.ofText "text") := by
      rw [htype]
      rcases hmade with hmade | hmade <;> rw [hmade] <;> decide
    rw [hnone hbefore, hnone hafter]

theorem contentBlocksText_normalized (h : items.mapM normalizeContentBlock = .ok blocks) :
    contentBlocksText blocks = contentBlocksText items := by
  have hall := mapM_eq_ok_iff.mp h
  clear h
  induction hall with
  | nil => rfl
  | cons hblock _ ih =>
    rw [contentBlocksText, flatMap_cons, blockText_normalized hblock]
    exact congrArg _ ih

theorem openAIToolCalls_ok (h : openAIToolCalls parse message = .ok calls) :
    (arrayItems (message.field (lit "tool_calls"))).mapM (openAIToolCall parse) = .ok calls := by
  unfold openAIToolCalls fieldOr at h
  split at h
  · rename_i hnone
    rw [hnone]; exact h
  · rename_i found hfound
    rw [hfound]
    cases found with
    | arr => exact h
    | _ => cases h

theorem openAIContent_ok {content : Bytes × List Json} (h : openAIContent message = .ok content) :
    content.1 = givenText (message.field (lit "content")) ∧
      (PlainBlocks content.2 ∧ arrayItems (message.field (lit "content")) = [] ∨
        (arrayItems (message.field (lit "content"))).mapM normalizeContentBlock =
          .ok content.2) := by
  unfold openAIContent fieldOr at h
  split at h
  · rename_i hnone
    cases h
    rw [hnone]; exact ⟨rfl, .inl ⟨plainBlocks_nil, rfl⟩⟩
  · rename_i found hfound
    rw [hfound]
    cases found with
    | str text =>
      cases h; exact ⟨rfl, .inl ⟨plainBlocks_contentBlocksFromText text, rfl⟩⟩
    | arr =>
      obtain ⟨blocks, hblocks, h⟩ := of_bind h
      cases h; exact ⟨contentBlocksText_normalized hblocks, .inr hblocks⟩
    | null =>
      cases h; exact ⟨rfl, .inl ⟨plainBlocks_nil, rfl⟩⟩
    | _ => cases h

theorem asks_iff (hitems : items.mapM (openAIToolCall parse) = .ok calls)
    (hlisted : ∀ call ∈ calls, call.listed = true) (block : Json) :
    Asks block calls ↔ ∃ item ∈ items, asksForItem block item := by
  have hid : ∀ {item : Json} {call : ToolCall}, call ∈ calls → openAIToolCall parse item = .ok call →
      item.field (lit "id") = some (.str call.id) := by
    intro item call hcall hread
    rcases textOr_ok (openAIToolCall_ok hread).1 with hfield | ⟨-, hempty⟩
    · exact hfield
    · exact absurd hempty (ToolCall.listed_iff.mp (hlisted call hcall)).1
  constructor
  · rintro ⟨call, hcall, hblockId, hblockName⟩
    obtain ⟨item, hitem, hread⟩ := exists_of_mem_mapM hitems hcall
    exact ⟨item, hitem, by rw [hblockId, hid hcall hread],
      by rw [hblockName, (openAIToolCall_ok hread).2.1]⟩
  · rintro ⟨item, hitem, hblockId, hblockName⟩
    obtain ⟨call, hcall, hread⟩ := exists_mem_of_mapM hitems hitem
    exact ⟨call, hcall, by rw [hblockId, hid hcall hread],
      by rw [hblockName, (openAIToolCall_ok hread).2.1]⟩

theorem openAIMessage_parsed (h : openAIMessage parse message = .ok answer) :
    Parsed answer (givenText (message.field (lit "content")))
      ((∀ item ∈ arrayItems (message.field (lit "tool_calls")), openAICallStorable parse item) ∧
        ∀ block ∈ arrayItems (message.field (lit "content")), isToolCallBlock block = true →
          ∃ item ∈ arrayItems (message.field (lit "tool_calls")), asksForItem block item) := by
  obtain ⟨calls, hcalls, h⟩ := of_bind h
  obtain ⟨content, hcontent, h⟩ := of_bind h
  cases h
  have hitems := openAIToolCalls_ok hcalls
  obtain ⟨htext, hblocks⟩ := openAIContent_ok hcontent
  have hlisted : (∀ call ∈ calls, call.listed = true) ↔
      ∀ item ∈ arrayItems (message.field (lit "tool_calls")), openAICallStorable parse item := by
    constructor
    · intro hall item hitem
      obtain ⟨call, hcall, hread⟩ := exists_mem_of_mapM hitems hitem
      exact (openAIToolCall_ok hread).2.2.mp (hall call hcall)
    · intro hall call hcall
      obtain ⟨item, hitem, hread⟩ := exists_of_mem_mapM hitems hcall
      exact (openAIToolCall_ok hread).2.2.mpr (hall item hitem)
  rcases hblocks with ⟨hplain, hnone⟩ | hgiven
  · have hparsed : Parsed (.answer content.1 calls content.2) content.1 _ :=
      Parsed.of_plain hplain hlisted
    rw [hnone]
    refine { hparsed with content_eq := htext, calls_iff := hparsed.calls_iff.trans ?_ }
    exact (and_iff_left fun _ h => (nomatch h)).symm
  · refine ⟨rfl, rfl, htext, fun block hblock => ?_, ?_⟩
    · obtain ⟨raw, -, hraw⟩ := exists_of_mem_mapM hgiven hblock
      exact normalizeContentBlock_again hraw
    · change ((∀ call ∈ calls, call.listed = true) ∧ ∀ block ∈ content.2,
        isToolCallBlock block = true → Asks block calls) ↔ _
      rw [← hlisted]
      refine and_congr_right fun hall => ?_
      constructor
      · intro hasked raw hraw hcall
        obtain ⟨block, hblock, hnormal⟩ := exists_mem_of_mapM hgiven hraw
        obtain ⟨hsame, hfields⟩ := isToolCallBlock_normalized hnormal
        obtain ⟨hid, hname⟩ := hfields hcall
        obtain ⟨item, hitem, hasks⟩ :=
          (asks_iff hitems hall block).mp (hasked block hblock (hsame.trans hcall))
        exact ⟨item, hitem, hid.symm.trans hasks.1, hname.symm.trans hasks.2⟩
      · intro hasked block hblock hcall
        obtain ⟨raw, hraw, hnormal⟩ := exists_of_mem_mapM hgiven hblock
        obtain ⟨hsame, hfields⟩ := isToolCallBlock_normalized hnormal
        have hrawCall := hsame.symm.trans hcall
        obtain ⟨hid, hname⟩ := hfields hrawCall
        obtain ⟨item, hitem, hasks⟩ := hasked raw hraw hrawCall
        exact (asks_iff hitems hall block).mpr
          ⟨item, hitem, hid.trans hasks.1, hname.trans hasks.2⟩

theorem parseOpenAIMessage_parsed {body : Json} (h : parseOpenAIMessage parse body = .ok answer) :
    Parsed answer (openAIText body) (openAIStorable parse body) := by
  obtain ⟨choice, hchoice, h⟩ := of_bind h
  unfold openAIChoice at hchoice
  split at hchoice
  · rename_i first rest hchoices
    cases hchoice
    unfold openAIStorable openAICallItems openAIGivenBlocks openAIText openAIMessageOf objectField
    rw [hchoices]
    unfold openAIChoiceMessage at h
    split at h
    · rename_i message hmessage
      simp only [hmessage]; exact openAIMessage_parsed h
    · rename_i text htext hnone
      cases h
      simp only [htext]
      refine Parsed.of_plain (plainBlocks_contentBlocksFromText text) ?_
      exact ⟨fun _ => ⟨fun _ h => (nomatch h), fun _ h => (nomatch h)⟩, fun _ _ h => (nomatch h)⟩
    · cases h
  · cases hchoice

/-! ## 3. Answers of Anthropic -/

/-- An item that asks for a tool does so with an id, a name and an object of input. -/
def anthropicCallStorable (item : Json) : Prop :=
  hasType "tool_use" item = true → isNonEmptyText (item.field (lit "id")) = true ∧
    isNonEmptyText (item.field (lit "name")) = true ∧
    ((item.field (lit "input")).getD (.obj [])).isObject = true

instance (item : Json) : Decidable (anthropicCallStorable item) :=
  inferInstanceAs (Decidable (_ → _))

theorem anthropicToolCall_listed (h : anthropicToolCall item = .ok call)
    (htype : hasType "tool_use" item = true) : call.listed = true ↔ anthropicCallStorable item := by
  obtain ⟨name, hname, h⟩ := of_bind h
  obtain ⟨id, hid, h⟩ := of_bind h
  cases h
  rw [ToolCall.listed_iff, anthropicCallStorable, isNonEmptyText_of_textOr hid, requiredText_ok hname,
    isNonEmptyText_str]
  exact ⟨fun h _ => h, fun h => h htype⟩

theorem normalizeContentBlock_reasoning {block : JsonObject}
    (htype : blockField block "type" = some (.ofText "reasoning"))
    (htext : blockField block "text" = none)
    (hreasoning : (blockField block "reasoning").all isString = true) :
    normalizeContentBlock (.obj block) = .ok (.obj block) := by
  have hsame : withReasoning block = block := by rw [withReasoning, htext]
  refine normalizeContentBlock_own (by decide) htype ?_
  rw [normalizeTypedBlock, blockType_eq htype, if_neg (by rw [lit_inj]; decide), if_pos rfl,
    normalizeReasoningBlock, hsame, hreasoning]
  rfl

theorem plainBlocks_reasoning {entries : JsonObject}
    (htype : find (lit "type") entries.reverse = some (.ofText "reasoning"))
    (htext : find (lit "text") entries.reverse = none)
    (hreasoning : (find (lit "reasoning") entries.reverse).all isString = true) :
    PlainBlocks [object entries] := by
  intro block hblock
  rw [mem_singleton.mp hblock]
  have hfield : ∀ key : String, blockField (merge [] entries) key =
      find (lit key) entries.reverse := fun key => field_object entries (lit key)
  refine ⟨normalizeContentBlock_reasoning ?_ ?_ ?_, ?_⟩
  · rw [hfield, htype]
  · rw [hfield, htext]
  · rw [hfield, hreasoning]
  · refine decide_eq_false ?_
    rw [field_object, htype]; decide

theorem find_textEntry (key other : String) (value : Option Json) :
    find (lit other) (textEntry key value) =
      if key = other ∧ value.any isString = true then value else none := by
  rcases value with - | (_ | _ | _ | _ | _ | text | _ | _) <;>
    simp [textEntry, find_cons, isString, lit_inj]

theorem reverse_textEntry (key : String) (value : Option Json) :
    (textEntry key value).reverse = textEntry key value := by
  unfold textEntry
  split <;> rfl

theorem plainBlocks_anthropicReasoningBlock (item : Json) :
    PlainBlocks [anthropicReasoningBlock item] := by
  refine plainBlocks_reasoning ?_ ?_ ?_
  · cases hsignature : item.field (lit "signature") with
    | none => simp [reverse_textEntry, find_append, find_textEntry, find_cons]
    | some value =>
      cases value <;> simp [reverse_textEntry, find_append, find_textEntry, find_cons, lit_inj]
  · cases hsignature : item.field (lit "signature") with
    | none =>
      simp [reverse_textEntry, find_append, find_textEntry, find_cons, lit_inj]
    | some value =>
      cases value <;> simp [reverse_textEntry, find_append, find_textEntry, find_cons, lit_inj]
  · have hall : ∀ value other : Option Json, ((if value.any isString = true then value else none).or
          (if other.any isString = true then other else none)).all isString = true := by
      intro value other
      rcases value with - | (_ | _ | _ | _ | _ | text | _ | _) <;>
        rcases other with - | (_ | _ | _ | _ | _ | text' | _ | _) <;> rfl
    cases hsignature : item.field (lit "signature") with
    | none =>
      simpa [reverse_textEntry, find_append, find_textEntry, find_cons, lit_inj] using hall _ _
    | some value =>
      cases value <;> simpa [reverse_textEntry, find_append, find_textEntry,
        find_cons, lit_inj] using hall _ _

theorem anthropicItem_ok {content : Bytes} {next : BaseMessage}
    (h : anthropicItem (.answer content calls blocks) item = .ok next) :
    ∃ moreCalls moreBlocks,
      next = .answer (content ++ (anthropicText item).getD []) (calls ++ moreCalls)
        (blocks ++ moreBlocks) ∧
      PlainBlocks moreBlocks ∧
      ((∀ call ∈ moreCalls, call.listed = true) ↔ anthropicCallStorable item) := by
  have hother : hasType "tool_use" item ≠ true → anthropicCallStorable item := fun hne htype =>
    absurd htype hne
  unfold anthropicItem at h
  cases htext : anthropicText item with
  | some text =>
    rw [htext] at h
    cases h
    refine ⟨[], [textContentBlock text], by rw [append_nil]; rfl, plainBlocks_text text,
      ⟨fun _ => hother ?_, fun _ _ h => (nomatch h)⟩⟩
    -- A text has type `text` or none.
    intro htool
    unfold anthropicText at htext
    unfold hasType at htool htext
    rw [of_decide_eq_true htool] at htext
    split at htext
    · rw [if_neg (by decide)] at htext; cases htext
    · cases htext
  | none =>
    rw [htext] at h
    rw [Option.getD_none, append_nil]
    split_ifs at h with hreasoning htool
    · cases h
      refine ⟨[], [anthropicReasoningBlock item], by rw [append_nil]; rfl,
        plainBlocks_anthropicReasoningBlock item, ⟨fun _ => hother ?_, fun _ _ h => (nomatch h)⟩⟩
      intro htool
      unfold hasType at htool hreasoning
      rw [of_decide_eq_true htool] at hreasoning
      exact absurd hreasoning (by decide)
    · obtain ⟨call, hcall, h⟩ := of_bind h
      cases h
      refine ⟨[call], [], by rw [append_nil]; rfl, plainBlocks_nil, ?_⟩
      rw [← anthropicToolCall_listed hcall htool]
      exact ⟨fun h => h call (mem_singleton_self _), fun h other hother => by
        rw [mem_singleton.mp hother]; exact h⟩
    · cases h
      exact ⟨[], [], by rw [append_nil, append_nil], plainBlocks_nil,
        ⟨fun _ => hother htool, fun _ _ h => (nomatch h)⟩⟩

def anthropicTexts (items : List Json) : Bytes := items.flatMap fun item => (anthropicText item).getD []

theorem foldlM_anthropicItem {content : Bytes} {result : BaseMessage}
    (h : items.foldlM anthropicItem (.answer content calls blocks) = .ok result) :
    ∃ moreCalls moreBlocks,
      result = .answer (content ++ anthropicTexts items) (calls ++ moreCalls) (blocks ++ moreBlocks) ∧
      PlainBlocks moreBlocks ∧
      ((∀ call ∈ moreCalls, call.listed = true) ↔ ∀ item ∈ items, anthropicCallStorable item) := by
  induction items generalizing content calls blocks with
  | nil =>
    cases h; exact ⟨[], [], by simp [anthropicTexts], plainBlocks_nil, by simp⟩
  | cons item items ih =>
    obtain ⟨next, hnext, h⟩ := of_bind h
    obtain ⟨firstCalls, firstBlocks, rfl, hfirstPlain, hfirst⟩ := anthropicItem_ok hnext
    obtain ⟨restCalls, restBlocks, rfl, hrestPlain, hrest⟩ := ih h
    refine ⟨firstCalls ++ restCalls, firstBlocks ++ restBlocks, ?_,
      hfirstPlain.append hrestPlain, ?_⟩
    · have htexts : anthropicTexts (item :: items) =
          (anthropicText item).getD [] ++ anthropicTexts items := flatMap_cons
      rw [htexts, append_assoc, append_assoc, append_assoc]
    · rw [forall_mem_append, forall_mem_cons, hfirst, hrest]

def anthropicItems (body : Json) : List Json := arrayItems (body.field (lit "content"))

theorem parseAnthropicMessage_parsed {body : Json} (h : parseAnthropicMessage body = .ok answer) :
    Parsed answer (anthropicTexts (anthropicItems body))
      (∀ item ∈ anthropicItems body, anthropicCallStorable item) := by
  unfold parseAnthropicMessage at h
  unfold anthropicItems
  split at h
  · rename_i items hitems
    obtain ⟨calls, blocks, rfl, hplain, hcalls⟩ := foldlM_anthropicItem h
    rw [hitems]; exact Parsed.of_plain hplain hcalls
  · cases h

end LangGraph
