import LangGraph.Foundation.Json

/-!
# Redaction

`Redactor` walks a JSON value and replaces what is stored under sensitive keys, what matches one of
its patterns and whole subtrees that are beyond its limits.  The counts of nodes and of output bytes
go through the whole walk.  The search for a pattern is that of `std::regex`, a parameter.
-/

namespace LangGraph

open ByteString

/-! ## 1. The redactor -/

structure RedactionConfig where
  replacement : Bytes := lit "[REDACTED]"
  sensitiveKeys : List Bytes := []
  sensitiveKeySubstrings : List Bytes := []
  redactSensitiveKeys : Bool := true
  redactStringValues : Bool := true
  redactEmailAddresses : Bool := true
  redactCreditCardNumbers : Bool := true
  maxDepth : Nat := 32
  maxStringLengthToScan : Nat := 4096
  maxJsonNodes : Nat := 4096
  maxObjectSize : Nat := 1024
  maxArraySize : Nat := 4096
  maxOutputBytes : Nat := 1024 * 1024

inductive RedactionPattern where
  | bearer | querySecret | sk | jwt | awsAccessKey | email | creditCard

structure RegexMatch where
  position : Nat
  length : Nat
  group : Option Bytes

/-- The matches of a pattern in a text, in their order. -/
abbrev RegexSearch := RedactionPattern → Bytes → List RegexMatch

structure RedactionReport where
  fields : Nat := 0
  strings : Nat := 0

structure RedactionResult (τ : Type) where
  value : τ
  report : RedactionReport := {}

structure Redactor where
  search : RegexSearch
  config : RedactionConfig
  normalizedSensitiveKeys : List Bytes
  normalizedSensitiveKeySubstrings : List Bytes

def normalizeKey (value : Bytes) : Bytes :=
  value.filterMap fun byte =>
    if 48 ≤ byte ∧ byte ≤ 57 ∨ 97 ≤ byte ∧ byte ≤ 122 then some byte
    else if 65 ≤ byte ∧ byte ≤ 90 then some (byte + 32)
    else none

def containsAny (haystack : Bytes) (needles : List Bytes) : Bool :=
  needles.any fun needle => needle ≠ [] && occursIn needle haystack

namespace Redactor

def create (search : RegexSearch) (config : RedactionConfig) : Redactor where
  search := search
  config :=
    if config.replacement = [] then { config with replacement := lit "[REDACTED]" } else config
  normalizedSensitiveKeys := (config.sensitiveKeys.map normalizeKey).filter (· ≠ [])
  normalizedSensitiveKeySubstrings :=
    (config.sensitiveKeySubstrings.map normalizeKey).filter (· ≠ [])

variable (r : Redactor)

def sensitiveKey (key : Bytes) : Bool :=
  r.config.redactSensitiveKeys && normalizeKey key ≠ [] &&
    (r.normalizedSensitiveKeys.contains (normalizeKey key) ||
      containsAny (normalizeKey key) r.normalizedSensitiveKeySubstrings)

/-- The text with the matches replaced behind their first group, and the number of strings so
    far. -/
def regexReplace (pattern : RedactionPattern) (input : Bytes × Nat) : Bytes × Nat :=
  let found := r.search pattern input.1
  let replaced := found.foldl (fun (output, cursor) next =>
    (output ++ (input.1.drop cursor).take (next.position - cursor) ++ next.group.getD []
      ++ r.config.replacement, next.position + next.length)) (([], 0) : Bytes × Nat)
  (replaced.1 ++ input.1.drop replaced.2, input.2 + found.length)

def redactValuePatterns (value : Bytes) : Bytes × Nat :=
  if value = [] ∨ r.config.redactStringValues = false then (value, 0)
  else if r.config.maxStringLengthToScan ≠ 0 ∧ r.config.maxStringLengthToScan < value.length then
    (r.config.replacement, 1)
  else
    let patterns := [.bearer, .querySecret, .sk, .jwt, .awsAccessKey]
      ++ (if r.config.redactEmailAddresses then [.email] else [])
      ++ if r.config.redactCreditCardNumbers then [.creditCard] else []
    patterns.foldl (fun input pattern => r.regexReplace pattern input) (value, 0)

/-- The counts that go through the whole walk. -/
structure Counters where
  nodes : Nat := 0
  outputBytes : Nat := 0

def accountOutput (bytes : Nat) (counters : Counters) : Option Counters :=
  if r.config.maxOutputBytes = 0 then some counters
  else if r.config.maxOutputBytes < counters.outputBytes ∨
      r.config.maxOutputBytes - counters.outputBytes < bytes then none
  else some { counters with outputBytes := counters.outputBytes + bytes }

def redactedScalar (report : RedactionReport) : RedactionResult Json :=
  ⟨.str r.config.replacement, report⟩

/-- The part of `redactJsonValue` before it looks at the value. -/
def visitNode (depth : Nat) (counters : Counters)
    (redact : Counters → RedactionResult Json × Counters) : RedactionResult Json × Counters :=
  if r.config.maxDepth < depth then (r.redactedScalar { fields := 1 }, counters)
  else if r.config.maxJsonNodes = 0 then redact counters
  else
    let counters := { counters with nodes := counters.nodes + 1 }
    if r.config.maxJsonNodes < counters.nodes then (r.redactedScalar { fields := 1 }, counters)
    else redact counters

mutual
def redactJsonValue (depth : Nat) (counters : Counters) : Json → RedactionResult Json × Counters
  | .obj fields => r.visitNode depth counters fun counters =>
    if r.config.maxObjectSize ≠ 0 ∧ r.config.maxObjectSize < fields.length then
      (r.redactedScalar { fields := 1 }, counters)
    else redactFields depth [] {} counters fields
  | .arr items => r.visitNode depth counters fun counters =>
    if r.config.maxArraySize ≠ 0 ∧ r.config.maxArraySize < items.length then
      (r.redactedScalar { fields := 1 }, counters)
    else redactItems depth [] {} counters items
  | .str text => r.visitNode depth counters fun counters =>
    let redacted := r.redactValuePatterns text
    match r.accountOutput redacted.1.length counters with
    | none => (r.redactedScalar { fields := 1, strings := redacted.2 }, counters)
    | some counters => (⟨.str redacted.1, { strings := redacted.2 }⟩, counters)
  -- any other scalar counts as 32 bytes of output
  | value => r.visitNode depth counters fun counters =>
    match r.accountOutput 32 counters with
    | none => (r.redactedScalar { fields := 1 }, counters)
    | some counters => (⟨value, {}⟩, counters)
def redactFields (depth : Nat) (out : JsonObject) (stats : RedactionReport) (counters : Counters) :
    JsonObject → RedactionResult Json × Counters
  | [] => (⟨.obj out, stats⟩, counters)
  | (key, value) :: fields =>
    match r.accountOutput key.length counters with
    | none => (r.redactedScalar { stats with fields := stats.fields + 1 }, counters)
    | some counters =>
      if r.sensitiveKey key then
        match r.accountOutput r.config.replacement.length counters with
        | none => (r.redactedScalar { stats with fields := stats.fields + 2 }, counters)
        | some counters =>
          redactFields depth (OrderedMap.set key (.str r.config.replacement) out)
            { stats with fields := stats.fields + 1 } counters fields
      else
        let redacted := redactJsonValue (depth + 1) counters value
        redactFields depth (OrderedMap.set key redacted.1.value out)
          ⟨stats.fields + redacted.1.report.fields, stats.strings + redacted.1.report.strings⟩
          redacted.2 fields
def redactItems (depth : Nat) (out : List Json) (stats : RedactionReport) (counters : Counters) :
    List Json → RedactionResult Json × Counters
  | [] => (⟨.arr out, stats⟩, counters)
  | item :: items =>
    let redacted := redactJsonValue (depth + 1) counters item
    redactItems depth (out ++ [redacted.1.value])
      ⟨stats.fields + redacted.1.report.fields, stats.strings + redacted.1.report.strings⟩
      redacted.2 items
end

def redactWithReport (value : Json) : RedactionResult Json := (r.redactJsonValue 0 {} value).1

/-! ## 2. Values that differ under sensitive keys -/

mutual
/-- The values are the same but for what is stored under sensitive keys. -/
inductive SameBut (sensitive : Bytes → Bool) : Json → Json → Prop where
  | same (value : Json) : SameBut sensitive value value
  | arr {items items' : List Json} (h : List.Forall₂ (SameBut sensitive) items items') :
      SameBut sensitive (.arr items) (.arr items')
  | obj {fields fields' : JsonObject} (h : List.Forall₂ (SameField sensitive) fields fields') :
      SameBut sensitive (.obj fields) (.obj fields')
inductive SameField (sensitive : Bytes → Bool) : Bytes × Json → Bytes × Json → Prop where
  | hidden {key : Bytes} (h : sensitive key = true) (value value' : Json) :
      SameField sensitive (key, value) (key, value')
  | shown (key : Bytes) {value value' : Json} (h : SameBut sensitive value value') :
      SameField sensitive (key, value) (key, value')
end

variable {r}

mutual
theorem redactJsonValue_same : ∀ {value value' : Json}, SameBut r.sensitiveKey value value' →
    ∀ depth counters,
      r.redactJsonValue depth counters value' = r.redactJsonValue depth counters value
  | .obj fields, _, h, depth, counters => by
    cases h with
    | same => rfl
    | obj h =>
      rw [redactJsonValue, redactJsonValue, h.length_eq]
      simp only [redactFields_same h]
  | .arr items, _, h, depth, counters => by
    cases h with
    | same => rfl
    | arr h =>
      rw [redactJsonValue, redactJsonValue, h.length_eq]
      simp only [redactItems_same h]
  | .null, _, h, _, _ | .bool _, _, h, _, _ | .int _, _, h, _, _ | .float _, _, h, _, _
  | .nonFinite, _, h, _, _ | .str _, _, h, _, _ => by cases h; rfl
theorem redactFields_same : ∀ {fields fields' : JsonObject},
    List.Forall₂ (SameField r.sensitiveKey) fields fields' → ∀ depth out stats counters,
      r.redactFields depth out stats counters fields' = r.redactFields depth out stats counters fields
  | [], _, .nil, _, _, _, _ => rfl
  | (key, value) :: fields, (_, value') :: fields', .cons hfield hfields, depth, out, stats,
      counters => by
    rw [redactFields, redactFields]
    cases hfield with
    -- What is stored under a sensitive key is not looked at.
    | hidden h => simp only [redactFields_same hfields, h, if_true]
    | shown _ h => simp only [redactFields_same hfields, redactJsonValue_same h]
theorem redactItems_same : ∀ {items items' : List Json},
    List.Forall₂ (SameBut r.sensitiveKey) items items' → ∀ depth out stats counters,
      r.redactItems depth out stats counters items' = r.redactItems depth out stats counters items
  | [], _, .nil, _, _, _, _ => rfl
  | item :: items, item' :: items', .cons hitem hitems, depth, out, stats, counters => by
    rw [redactItems, redactItems]
    simp only [redactJsonValue_same hitem, redactItems_same hitems]
end

/-- What is stored under sensitive keys shows neither in the redacted value nor in the report. -/
theorem redaction_hides_sensitive_values (search : RegexSearch) (config : RedactionConfig)
    {value value' : Json} (h : SameBut (create search config).sensitiveKey value value') :
    (create search config).redactWithReport value' = (create search config).redactWithReport value := by
  unfold redactWithReport
  rw [redactJsonValue_same h]

theorem redaction_hides_password :
    (create (fun _ _ => []) { sensitiveKeys := [lit "pass_word"] }).redactWithReport
        (.arr [.obj [(lit "Password", .str (lit "a much longer one"))]]) =
      (create (fun _ _ => []) { sensitiveKeys := [lit "pass_word"] }).redactWithReport
        (.arr [.obj [(lit "Password", .null)]]) :=
  redaction_hides_sensitive_values _ _ (.arr (.cons (.obj (.cons (.hidden rfl _ _) .nil)) .nil))

end Redactor

end LangGraph
