import LangGraph.Foundation.JsonRecord

/-!
# Token usage of a message

Counts are `uint64_t` in the source.  Its reader takes a count through `int64_t`, so it refuses
the upper half of what the writer writes.
-/

namespace LangGraph

open ExceptList ByteString Except

/-! ## 1. Records -/

inductive UsageMetadataSource where
  | unknown | provider | local | mixed
deriving DecidableEq

def usageMetadataSourceName : UsageMetadataSource → Bytes
  | .unknown => lit "unknown"
  | .provider => lit "provider"
  | .local => lit "local"
  | .mixed => lit "mixed"

def usageMetadataSourceFromName (name : Bytes) : Result UsageMetadataSource :=
  if name = lit "unknown" then .ok .unknown
  else if name = lit "provider" then .ok .provider
  else if name = lit "local" then .ok .local
  else if name = lit "mixed" then .ok .mixed
  else .error (invalid "usage metadata source is invalid")

/-- The details are a JSON object in every value the runtime builds. -/
structure TokenUsage where
  inputTokens : Option Nat := none
  outputTokens : Option Nat := none
  totalTokens : Option Nat := none
  details : JsonObject := []
deriving DecidableEq

structure UsageMetadata where
  tokens : TokenUsage := {}
  source : UsageMetadataSource := .unknown
  provider : Bytes := []
  model : Bytes := []
  raw : JsonObject := []
deriving DecidableEq

def TokenUsage.empty (usage : TokenUsage) : Bool :=
  usage.inputTokens.isNone && usage.outputTokens.isNone && usage.totalTokens.isNone &&
    usage.details.isEmpty

def UsageMetadata.empty (usage : UsageMetadata) : Bool :=
  usage.tokens.empty && usage.source = .unknown && usage.provider.isEmpty && usage.model.isEmpty &&
    usage.raw.isEmpty

/-! ## 2. Writing and reading -/

def tokenUsageEntries (usage : TokenUsage) : JsonObject :=
  entryOf "input_tokens" (usage.inputTokens.map .ofNat) ++
  entryOf "output_tokens" (usage.outputTokens.map .ofNat) ++
  entryOf "total_tokens" (usage.totalTokens.map .ofNat) ++
  entryIf (!usage.details.isEmpty) "details" (.obj usage.details)

def usageMetadataToJson (usage : UsageMetadata) : Json := .object (
  tokenUsageEntries usage.tokens ++
  entryIf (usage.source ≠ .unknown) "source" (.str (usageMetadataSourceName usage.source)) ++
  entryIf (usage.provider ≠ []) "provider" (.str usage.provider) ++
  entryIf (usage.model ≠ []) "model" (.str usage.model) ++
  entryIf (!usage.raw.isEmpty) "raw" (.obj usage.raw))

/-- `get<int64_t>` turns a count from `2 ^ 63` on into a negative number. -/
def unsignedIntegerFromJson (field : String) : Json → Result Nat
  | .int (.ofNat n) =>
    if n < 2 ^ 63 then .ok n
    else .error (.invalidArgument (lit field ++ lit " must be a non-negative integer"))
  | _ => .error (.invalidArgument (lit field ++ lit " must be a non-negative integer"))

def optionalCountFromJson (value : Json) (field : String) : Result (Option Nat) :=
  fieldOr value field none fun count => some <$> unsignedIntegerFromJson field count

def expectFields (message : String) : Json → Result JsonObject
  | .obj fields => .ok fields
  | _ => .error (invalid message)

def tokenUsageFromJson (value : Json) : Result TokenUsage :=
  if value.isNull then .ok {} else do
    require value.isObject (invalid "token usage must be a JSON object")
    let inputTokens ← optionalCountFromJson value "input_tokens"
    let outputTokens ← optionalCountFromJson value "output_tokens"
    let totalTokens ← optionalCountFromJson value "total_tokens"
    let details ← fieldOr value "details" []
      (expectFields "token usage details must be a JSON object")
    return { inputTokens, outputTokens, totalTokens, details }

def kUsageMetadataKnownFields : List Bytes :=
  [lit "input_tokens", lit "output_tokens", lit "total_tokens", lit "details", lit "source",
    lit "provider", lit "model", lit "raw"]

def isKnownUsageMetadataField (field : Bytes) : Bool := field ∈ kUsageMetadataKnownFields

/-- The fields of the value that have no place in the record are kept with the raw ones. -/
def unknownUsageFields : Json → JsonObject
  | .obj fields => fields.filter fun entry => !isKnownUsageMetadataField entry.1
  | _ => []

def usageSourceFromJson (value : Json) : Result UsageMetadataSource := do
  usageMetadataSourceFromName (← expectString "usage metadata source must be a string" value)

def usageMetadataFromJson (value : Json) : Result UsageMetadata :=
  if value.isNull then .ok {} else do
    require value.isObject (invalid "usage metadata must be a JSON object")
    let tokens ← tokenUsageFromJson value
    let source ← fieldOr value "source" .unknown usageSourceFromJson
    let provider ← fieldOr value "provider" []
      (expectString "usage metadata provider must be a string")
    let model ← fieldOr value "model" [] (expectString "usage metadata model must be a string")
    let raw ← fieldOr value "raw" [] (expectFields "usage metadata raw must be a JSON object")
    return { tokens, source, provider, model, raw := OrderedMap.merge raw (unknownUsageFields value) }

/-! ## 3. What is read back -/

def TokenUsage.countable (usage : TokenUsage) : Bool :=
  usage.inputTokens.all (· < 2 ^ 63) && usage.outputTokens.all (· < 2 ^ 63) &&
    usage.totalTokens.all (· < 2 ^ 63)

theorem usageMetadataSourceFromName_name (source : UsageMetadataSource) :
    usageMetadataSourceFromName (usageMetadataSourceName source) = .ok source := by
  cases source <;> rfl

theorem field_usageMetadataToJson (usage : UsageMetadata) : HasFields (usageMetadataToJson usage)
    [("input_tokens", usage.tokens.inputTokens.map .ofNat),
      ("output_tokens", usage.tokens.outputTokens.map .ofNat),
      ("total_tokens", usage.tokens.totalTokens.map .ofNat),
      ("details", if !usage.tokens.details.isEmpty then some (.obj usage.tokens.details) else none),
      ("source", if usage.source ≠ .unknown
        then some (.str (usageMetadataSourceName usage.source)) else none),
      ("provider", if usage.provider ≠ [] then some (.str usage.provider) else none),
      ("model", if usage.model ≠ [] then some (.str usage.model) else none),
      ("raw", if !usage.raw.isEmpty then some (.obj usage.raw) else none)] := by
  simp [HasFields, usageMetadataToJson, tokenUsageEntries, field_object, OrderedMap.find_append,
    find_entryIf, find_entryOf]

theorem unknownUsageFields_toJson (usage : UsageMetadata) :
    unknownUsageFields (usageMetadataToJson usage) = [] := by
  refine List.filter_eq_nil_iff.mpr fun entry hentry => ?_
  rcases OrderedMap.mem_merge hentry with hnil | hentry
  · cases hnil
  · simp only [tokenUsageEntries, List.mem_append] at hentry
    rcases hentry with (((((((h | h) | h) | h) | h) | h) | h) | h)
    all_goals first | rw [mem_entryIf h] | rw [mem_entryOf h]
    all_goals simp [isKnownUsageMetadataField, kUsageMetadataKnownFields]

theorem optionalCountFromJson_yields {value : Json} {field : String} {count : Option Nat}
    (hfield : value.field (lit field) = count.map .ofNat) :
    Yields (optionalCountFromJson value field) (count.all (· < 2 ^ 63)) count := by
  rw [optionalCountFromJson, fieldOr, hfield]
  cases count with
  | none => exact ⟨fun _ => rfl, fun h => by cases h⟩
  | some n =>
    change Yields (some <$> (if n < 2 ^ 63 then ok n else .error _)) (decide (n < 2 ^ 63)) _
    by_cases hn : n < 2 ^ 63
    · rw [if_pos hn]
      exact ⟨fun _ => rfl, fun h => absurd hn (of_decide_eq_false h)⟩
    · rw [if_neg hn]
      exact ⟨fun h => absurd (of_decide_eq_true h) hn, fun _ => ⟨_, rfl⟩⟩

theorem fieldOr_fields {input : Json} {fields : JsonObject} {key : String} {message : String}
    (hfield : input.field (lit key) = if !fields.isEmpty then some (.obj fields) else none) :
    fieldOr input key [] (expectFields message) = .ok fields :=
  fieldOr_entryIf hfield (fun h => (List.isEmpty_iff.mp (by simpa using h)).symm) rfl

theorem usageMetadataFromJson_toJson (usage : UsageMetadata) :
    Yields (usageMetadataFromJson (usageMetadataToJson usage)) usage.tokens.countable usage := by
  obtain ⟨finput, foutput, ftotal, fdetails, fsource, fprovider, fmodel, fraw, -⟩ :=
    field_usageMetadataToJson usage
  have hnull : (usageMetadataToJson usage).isNull = false := rfl
  have hobject : (usageMetadataToJson usage).isObject = true := rfl
  have htokens : Yields (tokenUsageFromJson (usageMetadataToJson usage)) usage.tokens.countable
      usage.tokens := by
    rw [tokenUsageFromJson, hnull, if_neg Bool.false_ne_true, hobject, require_true, ok_bind,
      TokenUsage.countable, Bool.and_assoc]
    refine (optionalCountFromJson_yields finput).bind
      ((optionalCountFromJson_yields foutput).bind ?_)
    rw [← Bool.and_true (Option.all _ _)]
    refine (optionalCountFromJson_yields ftotal).bind ?_
    rw [fieldOr_fields fdetails]; exact ⟨fun _ => rfl, fun h => (nomatch h)⟩
  have rsource : fieldOr (usageMetadataToJson usage) "source" .unknown usageSourceFromJson =
      .ok usage.source := by
    refine fieldOr_ok fsource (fun h => ?_) fun value h => ?_
    · by_contra hne
      rw [if_pos (Ne.symm hne)] at h; cases h
    · split_ifs at h
      cases h; exact usageMetadataSourceFromName_name usage.source
  rw [usageMetadataFromJson, hnull, if_neg Bool.false_ne_true, hobject, require_true, ok_bind,
    ← Bool.and_true usage.tokens.countable]
  refine htokens.bind ?_
  rw [rsource, ok_bind, fieldOr_string fprovider, ok_bind, fieldOr_string fmodel, ok_bind,
    fieldOr_fields fraw, ok_bind, unknownUsageFields_toJson]
  exact ⟨fun _ => rfl, fun h => (nomatch h)⟩

theorem countable_of_usageMetadataFromJson {value : Json} {usage : UsageMetadata}
    (h : usageMetadataFromJson value = .ok usage) : usage.tokens.countable = true := by
  have hcount : ∀ {field : String} {count : Option Nat},
      optionalCountFromJson value field = .ok count → count.all (· < 2 ^ 63) = true := by
    intro field count h
    unfold optionalCountFromJson fieldOr at h
    split at h
    · rw [← ok.inj h]; rfl
    · rename_i found _
      dsimp only at h
      cases hfound : unsignedIntegerFromJson field found with
      | error =>
        rw [hfound] at h; cases h
      | ok =>
        rw [hfound] at h
        rw [← ok.inj h]
        unfold unsignedIntegerFromJson at hfound
        split at hfound
        · split_ifs at hfound with hn
          rw [← ok.inj hfound]; exact decide_eq_true hn
        · cases hfound
  unfold usageMetadataFromJson at h
  split_ifs at h with hnull
  · rw [← ok.inj h]; rfl
  · obtain ⟨-, h⟩ := of_require h
    obtain ⟨tokens, htokens, h⟩ := of_bind h
    obtain ⟨source, -, h⟩ := of_bind h
    obtain ⟨provider, -, h⟩ := of_bind h
    obtain ⟨model, -, h⟩ := of_bind h
    obtain ⟨raw, -, h⟩ := of_bind h
    rw [← ok.inj h]
    unfold tokenUsageFromJson at htokens
    rw [if_neg hnull] at htokens
    obtain ⟨-, htokens⟩ := of_require htokens
    obtain ⟨inputTokens, hinput, htokens⟩ := of_bind htokens
    obtain ⟨outputTokens, houtput, htokens⟩ := of_bind htokens
    obtain ⟨totalTokens, htotal, htokens⟩ := of_bind htokens
    obtain ⟨details, -, htokens⟩ := of_bind htokens
    rw [← ok.inj htokens]
    simp only [TokenUsage.countable, hcount hinput, hcount houtput, hcount htotal, Bool.and_self]

end LangGraph
