import LangGraph.Message.Message

/-!
# Normal content blocks

The reader brings a content block into a form that it leaves alone the next time.
-/

namespace LangGraph

open ExceptList ByteString OrderedMap Json Except

/-! ## 1. Fields of a block -/

theorem any_isString_iff {found : Option Json} :
    found.any isString = true ↔ ∃ text, found = some (.str text) := by
  constructor
  · intro h
    cases found with
    | none => cases h
    | some value =>
      cases value with
      | str text => exact ⟨text, rfl⟩
      | _ => cases h
  · rintro ⟨text, rfl⟩; rfl

theorem any_isObject_iff {found : Option Json} :
    found.any isObject = true ↔ ∃ fields, found = some (.obj fields) := by
  constructor
  · intro h
    cases found with
    | none => cases h
    | some value =>
      cases value with
      | obj fields => exact ⟨fields, rfl⟩
      | _ => cases h
  · rintro ⟨fields, rfl⟩; rfl

theorem field_obj (block : JsonObject) (key : String) :
    (obj block).field (lit key) = blockField block key := rfl

variable {block settled : JsonObject} {key : String} {value normalized : Json}

theorem blockField_set_ne {other : String} (h : key ≠ other) :
    blockField (set (lit key) value block) other = blockField block other :=
  find_set_ne (fun heq => h (lit_inj.mp heq)) value block

theorem blockField_set_self (block : JsonObject) (key : String) (value : Json) :
    blockField (set (lit key) value block) key = some value :=
  find_set_self (lit key) value block

theorem blockType_congr {other : JsonObject}
    (h : blockField block "type" = blockField other "type") :
    blockType block = blockType other := by
  rw [blockType, blockType, h]

theorem blockField_withReasoning (h : key ≠ "reasoning") :
    blockField (withReasoning block) key = blockField block key := by
  unfold withReasoning
  split
  · exact blockField_set_ne h.symm
  · rfl

theorem withReasoning_of_reasoning {reasoning : Json}
    (h : blockField block "reasoning" = some reasoning) : withReasoning block = block := by
  unfold withReasoning
  rw [h]
  cases blockField block "text" <;> rfl

theorem withReasoning_withReasoning (block : JsonObject) :
    withReasoning (withReasoning block) = withReasoning block := by
  cases htext : blockField block "text" with
  | none =>
    have hself : withReasoning block = block := by simp [withReasoning, htext]
    rw [hself, hself]
  | some text =>
    have hreasoning : ∃ reasoning, blockField (withReasoning block) "reasoning" = some reasoning := by
      cases hfield : blockField block "reasoning" with
      | none => exact ⟨text, by simp [withReasoning, htext, hfield, blockField_set_self]⟩
      | some reasoning => exact ⟨reasoning, by simp [withReasoning, hfield]⟩
    obtain ⟨reasoning, hreasoning⟩ := hreasoning
    exact withReasoning_of_reasoning hreasoning

theorem blockField_withArgs (h : key ≠ "args") :
    blockField (withArgs block) key = blockField block key := by
  unfold withArgs
  split
  · rfl
  · exact blockField_set_ne h.symm

theorem withArgs_of_args {args : Json} (h : blockField block "args" = some args) :
    withArgs block = block := by
  rw [withArgs, h]

theorem withArgs_withArgs (block : JsonObject) : withArgs (withArgs block) = withArgs block := by
  have hargs : ∃ args, blockField (withArgs block) "args" = some args := by
    cases hfield : blockField block "args" with
    | none => exact ⟨.obj [], by simp [withArgs, hfield, blockField_set_self]⟩
    | some args => exact ⟨args, by simp [withArgs, hfield]⟩
  obtain ⟨args, hargs⟩ := hargs
  exact withArgs_of_args hargs

/-! ## 2. The checks by type -/

structure Settled (normalize : JsonObject → Result JsonObject) (block settled : JsonObject) : Prop where
  type_eq : blockField settled "type" = blockField block "type"
  again : normalize settled = .ok settled

theorem Settled.of_same {normalize : JsonObject → Result JsonObject}
    (h : normalize block = .ok settled) (hsame : settled = block) :
    Settled normalize block settled := by
  subst hsame; exact ⟨rfl, h⟩

theorem normalizeTextBlock_settled (h : normalizeTextBlock block = .ok settled) :
    Settled normalizeTextBlock block settled :=
  .of_same h (ok.inj (of_require h).2).symm

theorem normalizeReasoningBlock_settled (h : normalizeReasoningBlock block = .ok settled) :
    Settled normalizeReasoningBlock block settled := by
  obtain ⟨hstring, h⟩ := of_require h
  cases h
  refine ⟨blockField_withReasoning (by decide), require_bind_eq_ok.mpr ?_⟩
  rw [withReasoning_withReasoning]; exact ⟨hstring, rfl⟩

theorem normalizeMultimodalBlock_settled (h : normalizeMultimodalBlock block = .ok settled) :
    Settled normalizeMultimodalBlock block settled := by
  refine .of_same h ?_
  obtain ⟨-, h⟩ := of_require h
  obtain ⟨-, h⟩ := of_require h
  obtain ⟨-, h⟩ := of_require h
  exact (ok.inj h).symm

theorem normalizeToolCallBlock_ok (h : normalizeToolCallBlock block = .ok settled) :
    settled = withArgs block ∧ (blockField block "name").any isString = true ∧
      (blockField settled "args").any isObject = true := by
  obtain ⟨hname, h⟩ := of_require h
  obtain ⟨hargs, h⟩ := of_require h
  obtain ⟨-, h⟩ := of_require h
  cases h; exact ⟨rfl, hname, hargs⟩

theorem normalizeToolCallBlock_settled (h : normalizeToolCallBlock block = .ok settled) :
    Settled normalizeToolCallBlock block settled := by
  obtain rfl := (normalizeToolCallBlock_ok h).1
  refine ⟨blockField_withArgs (by decide), ?_⟩
  have hname : blockField (withArgs block) "name" = blockField block "name" :=
    blockField_withArgs (by decide)
  have hid : blockField (withArgs block) "id" = blockField block "id" :=
    blockField_withArgs (by decide)
  rw [← h, normalizeToolCallBlock, normalizeToolCallBlock, withArgs_withArgs, hname, hid]

theorem normalizeToolCallChunkBlock_settled (h : normalizeToolCallChunkBlock block = .ok settled) :
    Settled normalizeToolCallChunkBlock block settled := by
  refine .of_same h ?_
  obtain ⟨-, h⟩ := of_require h
  obtain ⟨-, h⟩ := of_require h
  obtain ⟨-, h⟩ := of_require h
  obtain ⟨-, h⟩ := of_require h
  exact (ok.inj h).symm

theorem normalizeTypedBlock_settled (h : normalizeTypedBlock block = .ok settled) :
    Settled normalizeTypedBlock block settled := by
  -- The check by type depends on the type alone, which each check keeps.
  have hlift : ∀ {normalize : JsonObject → Result JsonObject}, Settled normalize block settled →
      (blockField settled "type" = blockField block "type" →
        normalizeTypedBlock settled = normalize settled) →
      Settled normalizeTypedBlock block settled := fun hsettled heq =>
    ⟨hsettled.type_eq, (heq hsettled.type_eq).trans hsettled.again⟩
  unfold normalizeTypedBlock at h
  split_ifs at h with htext hreasoning hmultimodal hcall hchunk
  · refine hlift (normalizeTextBlock_settled h) fun htype => ?_
    rw [normalizeTypedBlock, blockType_congr htype, if_pos htext]
  · refine hlift (normalizeReasoningBlock_settled h) fun htype => ?_
    rw [normalizeTypedBlock, blockType_congr htype, if_neg htext, if_pos hreasoning]
  · refine hlift (normalizeMultimodalBlock_settled h) fun htype => ?_
    rw [normalizeTypedBlock, blockType_congr htype, if_neg htext, if_neg hreasoning,
      if_pos hmultimodal]
  · refine hlift (normalizeToolCallBlock_settled h) fun htype => ?_
    rw [normalizeTypedBlock, blockType_congr htype, if_neg htext, if_neg hreasoning,
      if_neg hmultimodal, if_pos hcall]
  · refine hlift (normalizeToolCallChunkBlock_settled h) fun htype => ?_
    rw [normalizeTypedBlock, blockType_congr htype, if_neg htext, if_neg hreasoning,
      if_neg hmultimodal, if_neg hcall, if_pos hchunk]
  · cases h
    refine ⟨rfl, ?_⟩
    rw [normalizeTypedBlock, if_neg htext, if_neg hreasoning, if_neg hmultimodal, if_neg hcall,
      if_neg hchunk]

/-! ## 3. Normal blocks -/

def isProviderBlock (block : JsonObject) : Prop :=
  blockType block = lit "image_url" ∨ blockType block = lit "input_audio"

theorem normalizeProviderContentBlock_own (h : ¬ isProviderBlock block) :
    normalizeProviderContentBlock block = .ok block := by
  rw [isProviderBlock, not_or] at h
  rw [normalizeProviderContentBlock, if_neg h.1, if_neg h.2]

theorem normalizeProviderContentBlock_ok {provided : JsonObject}
    (h : normalizeProviderContentBlock block = .ok provided) :
    (provided = block ∧ ¬ isProviderBlock block) ∨
      (isProviderBlock block ∧ (blockField provided "type" = some (.ofText "image") ∨
        blockField provided "type" = some (.ofText "audio"))) := by
  unfold normalizeProviderContentBlock at h
  split_ifs at h with himage haudio
  · refine .inr ⟨.inl himage, .inl ?_⟩
    split at h
    · unfold imageBlock at h
      split at h
      · rw [← ok.inj h]
        simp [blockField, find_merge, find_cons, lit_inj]
      · split at h
        · rw [← ok.inj h]
          simp [blockField, find_merge, find_append, find_cons, find_entryIf, lit_inj]
        · cases h
      · cases h
    · cases h
  · refine .inr ⟨.inr haudio, .inr ?_⟩
    split at h
    · rename_i audio _
      rw [← ok.inj h]
      unfold audioBlock audioData audioMimeType
      split <;> split <;>
        simp [blockField, find_merge, find_cons, lit_inj]
    · cases h
  · exact .inl ⟨(ok.inj h).symm, fun hprovider => hprovider.elim himage haudio⟩

theorem blockType_eq {type : String} (h : blockField block "type" = some (.ofText type)) :
    blockType block = lit type := by
  rw [blockType, h]; rfl

theorem isProviderBlock_normalized {provided : JsonObject}
    (h : normalizeProviderContentBlock block = .ok provided) : ¬ isProviderBlock provided := by
  rcases normalizeProviderContentBlock_ok h with ⟨rfl, hown⟩ | ⟨-, htype | htype⟩
  · exact hown
  · rw [isProviderBlock, blockType_eq htype, lit_inj, lit_inj]; decide
  · rw [isProviderBlock, blockType_eq htype, lit_inj, lit_inj]; decide

theorem normalizeContentBlock_ok_iff :
    normalizeContentBlock value = .ok normalized ↔ ∃ block provided settled, value = .obj block ∧
        (blockField block "type").any isString = true ∧
        normalizeProviderContentBlock block = .ok provided ∧
        normalizeTypedBlock provided = .ok settled ∧ normalized = .obj settled := by
  constructor
  · intro h
    cases value with
    | obj block =>
      obtain ⟨htype, h⟩ := of_require h
      obtain ⟨provided, hprovided, h⟩ := of_bind h
      obtain ⟨settled, hsettled, h⟩ := of_bind h
      exact ⟨block, provided, settled, rfl, htype, hprovided, hsettled, (ok.inj h).symm⟩
    | _ => cases h
  · rintro ⟨block, provided, settled, rfl, htype, hprovided, hsettled, rfl⟩
    exact require_bind_eq_ok.mpr ⟨htype, by rw [hprovided, ok_bind, hsettled]; rfl⟩

theorem normalizeContentBlock_own {type : String} (hown : type ≠ "image_url" ∧ type ≠ "input_audio")
    (htype : blockField block "type" = some (.ofText type))
    (htyped : normalizeTypedBlock block = .ok block) :
    normalizeContentBlock (.obj block) = .ok (.obj block) := by
  have hprovider : ¬ isProviderBlock block := by
    rw [isProviderBlock, blockType_eq htype, lit_inj, lit_inj, not_or]; exact hown
  exact normalizeContentBlock_ok_iff.mpr ⟨block, block, block, rfl, by rw [htype]; rfl,
    normalizeProviderContentBlock_own hprovider, htyped, rfl⟩

theorem normalizeContentBlock_again (h : normalizeContentBlock value = .ok normalized) :
    normalizeContentBlock normalized = .ok normalized := by
  obtain ⟨block, provided, settled, rfl, htype, hprovided, hsettled, rfl⟩ :=
    normalizeContentBlock_ok_iff.mp h
  have hafter := normalizeTypedBlock_settled hsettled
  have hown : ¬ isProviderBlock settled := by
    have := isProviderBlock_normalized hprovided
    rwa [isProviderBlock, blockType_congr hafter.type_eq]
  refine normalizeContentBlock_ok_iff.mpr ⟨settled, settled, settled, rfl, ?_,
    normalizeProviderContentBlock_own hown, hafter.again, rfl⟩
  rw [hafter.type_eq]
  rcases normalizeProviderContentBlock_ok hprovided with ⟨rfl, -⟩ | ⟨-, himage | haudio⟩
  · exact htype
  · rw [himage]; rfl
  · rw [haudio]; rfl

/-! ## 4. Blocks with tool calls -/

theorem isToolCallBlock_obj :
    isToolCallBlock (.obj block) = true ↔ blockField block "type" = some (.ofText "tool_call") := by
  rw [isToolCallBlock, decide_eq_true_iff, field_obj]

theorem normalizeTypedBlock_toolCall (h : blockField block "type" = some (.ofText "tool_call")) :
    normalizeTypedBlock block = normalizeToolCallBlock block := by
  have hmultimodal : isKnownMultimodalBlock (lit "tool_call") = false := by decide
  rw [normalizeTypedBlock, blockType_eq h, if_neg (by rw [lit_inj]; decide),
    if_neg (by rw [lit_inj]; decide), hmultimodal, if_neg Bool.false_ne_true, if_pos rfl]

theorem isToolCallBlock_normalized (h : normalizeContentBlock value = .ok normalized) :
    isToolCallBlock normalized = isToolCallBlock value ∧ (isToolCallBlock value = true →
        normalized.field (lit "id") = value.field (lit "id") ∧
        normalized.field (lit "name") = value.field (lit "name")) := by
  obtain ⟨block, provided, settled, rfl, -, hprovided, hsettled, rfl⟩ :=
    normalizeContentBlock_ok_iff.mp h
  have htype := (normalizeTypedBlock_settled hsettled).type_eq
  rcases normalizeProviderContentBlock_ok hprovided with ⟨rfl, -⟩ | ⟨hprovider, hmade⟩
  · refine ⟨?_, fun hcall => ?_⟩
    · rw [isToolCallBlock, isToolCallBlock, field_obj, field_obj, htype]
    · rw [normalizeTypedBlock_toolCall (isToolCallBlock_obj.mp hcall)] at hsettled
      obtain rfl := (normalizeToolCallBlock_ok hsettled).1
      exact ⟨blockField_withArgs (by decide), blockField_withArgs (by decide)⟩
  · have hbefore : isToolCallBlock (.obj block) = false := by
      by_contra hcall
      rw [Bool.not_eq_false, isToolCallBlock_obj] at hcall
      rw [isProviderBlock, blockType_eq hcall, lit_inj, lit_inj] at hprovider
      exact absurd hprovider (by decide)
    have hafter : isToolCallBlock (.obj settled) = false := by
      rw [isToolCallBlock, field_obj, htype]
      rcases hmade with hmade | hmade <;> rw [hmade] <;> decide
    exact ⟨hafter.trans hbefore.symm, fun hcall => absurd hcall (by rw [hbefore]; decide)⟩

theorem toolCall_fields {block : Json} (h : normalizeContentBlock block = .ok block)
    (hcall : isToolCallBlock block = true) :
    ∃ name args, block.field (lit "name") = some (.str name) ∧
      block.field (lit "args") = some (.obj args) := by
  obtain ⟨fields, provided, settled, rfl, -, hprovided, hsettled, heq⟩ :=
    normalizeContentBlock_ok_iff.mp h
  obtain rfl := obj.inj heq
  rcases normalizeProviderContentBlock_ok hprovided with ⟨rfl, -⟩ | ⟨hprovider, -⟩
  · rw [normalizeTypedBlock_toolCall (isToolCallBlock_obj.mp hcall)] at hsettled
    obtain ⟨-, hname, hargs⟩ := normalizeToolCallBlock_ok hsettled
    obtain ⟨name, hname⟩ := any_isString_iff.mp hname
    obtain ⟨args, hargs⟩ := any_isObject_iff.mp hargs
    exact ⟨name, args, hname, hargs⟩
  · rw [isProviderBlock, blockType_eq (isToolCallBlock_obj.mp hcall), lit_inj, lit_inj] at hprovider
    exact absurd hprovider (by decide)

end LangGraph
