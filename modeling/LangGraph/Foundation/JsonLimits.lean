import LangGraph.Foundation.JsonLibrary
import LangGraph.Foundation.State
import LangGraph.Lib.ExceptList

/-!
# Limits on JSON text

`validateJsonTextLimits` runs over a text before it is parsed and counts the bytes of each string
and the depth of nesting.  Section 2 says of which values it accepts the compact text.  The text of
a string is counted with its escapes, but compared with the limit only where a byte is written as it
is, so escapes at the end of a string are never too many.
-/

namespace LangGraph

open ExceptList Json Status List

/-! ## 1. The run over the text -/

/-- Where the run stands: outside strings, in one, or behind a backslash in one. -/
inductive JsonTextPosition where
  | outside (depth : Nat)
  | inString (depth stringBytes : Nat)
  | escaped (depth stringBytes : Nat)
deriving DecidableEq

section Run

variable (label : Bytes) (limits : JsonDecodeLimits)

def backslash : UInt8 := 0x5C

def isOpening (ch : UInt8) : Bool := ch = 0x7B || ch = 0x5B

def isClosing (ch : UInt8) : Bool := ch = 0x7D || ch = 0x5D

def readTextByte : JsonTextPosition → UInt8 → Result JsonTextPosition
  | .escaped depth stringBytes, _ => .ok (.inString depth (stringBytes + 1))
  | .inString depth stringBytes, ch =>
    if ch = backslash then .ok (.escaped depth (stringBytes + 1))
    else if ch = quote then .ok (.outside depth)
    else if exceedsJsonLimit (stringBytes + 1) limits.maxStringBytes then
      .error (.resourceExhausted (label ++ lit " JSON string is too large"))
    else .ok (.inString depth (stringBytes + 1))
  | .outside depth, ch =>
    if ch = quote then .ok (.inString depth 0)
    else if isOpening ch then
      if exceedsJsonLimit (depth + 1) limits.maxDepth then
        .error (.resourceExhausted (label ++ lit " JSON nesting is too deep"))
      else .ok (.outside (depth + 1))
    else if isClosing ch then .ok (.outside (depth - 1))
    else .ok (.outside depth)

def readText (text : Bytes) (position : JsonTextPosition) : Result JsonTextPosition :=
  text.foldlM (readTextByte label limits) position

def validateJsonTextLimits (text : Bytes) : Result Unit := do
  require (!exceedsJsonLimit text.length limits.maxBytes)
    (.resourceExhausted (label ++ lit " JSON is too large"))
  let _ ← readText label limits text (.outside 0)
  return ()

end Run

/-! ## 2. Which compact texts it accepts -/

/-- Bytes an escape takes, if the byte is escaped with a backslash and one letter. -/
def isShortEscape (b : UInt8) : Bool :=
  b = 0x08 || b = 0x09 || b = 0x0A || b = 0x0C || b = 0x0D || b = 0x22 || b = 0x5C

/-- The string, behind `count` bytes of its text, never has a byte written as it is beyond the
    limit.  A control character takes six bytes, of which the last four are written as they are. -/
def stringFits (limit : Nat) : Nat → Bytes → Bool
  | _, [] => true
  | count, b :: rest =>
    if isShortEscape b then stringFits limit (count + 2) rest
    else if b < 0x20 then !exceedsJsonLimit (count + 6) limit && stringFits limit (count + 6) rest
    else !exceedsJsonLimit (count + 1) limit && stringFits limit (count + 1) rest

mutual
/-- Strings and nesting of a value, inside `depth` containers, are within the limits on text. -/
def Json.textFits (limits : JsonDecodeLimits) (depth : Nat) : Json → Bool
  | .str text => stringFits limits.maxStringBytes 0 text
  | .arr items => !exceedsJsonLimit (depth + 1) limits.maxDepth && itemsFit limits (depth + 1) items
  | .obj fields =>
    !exceedsJsonLimit (depth + 1) limits.maxDepth && fieldsFit limits (depth + 1) fields
  | _ => true
def Json.itemsFit (limits : JsonDecodeLimits) (depth : Nat) : List Json → Bool
  | [] => true
  | item :: items => item.textFits limits depth && Json.itemsFit limits depth items
def Json.fieldsFit (limits : JsonDecodeLimits) (depth : Nat) : JsonObject → Bool
  | [] => true
  | (k, value) :: fields =>
    stringFits limits.maxStringBytes 0 k && value.textFits limits depth
      && Json.fieldsFit limits depth fields
end

section Accepts

variable {label : Bytes} {limits : JsonDecodeLimits}

/-- What the run does over a text that fits, or does not. -/
def Reads (label : Bytes) (limits : JsonDecodeLimits) (text : Bytes) (fits : Bool)
    (before after : JsonTextPosition) : Prop :=
  if fits then readText label limits text before = .ok after
  else ∃ status, readText label limits text before = .error status

theorem readText_append (a b : Bytes) (position : JsonTextPosition) :
    readText label limits (a ++ b) position =
      readText label limits a position >>= readText label limits b :=
  foldlM_append

theorem readText_cons (ch : UInt8) (text : Bytes) (position : JsonTextPosition) :
    readText label limits (ch :: text) position =
      readTextByte label limits position ch >>= readText label limits text :=
  foldlM_cons

theorem Reads.append {a b : Bytes} {fa fb : Bool} {p q r : JsonTextPosition}
    (ha : Reads label limits a fa p q) (hb : Reads label limits b fb q r) :
    Reads label limits (a ++ b) (fa && fb) p r := by
  unfold Reads at *
  rw [readText_append]
  cases fa with
  | false =>
    obtain ⟨status, ha⟩ := ha
    exact ⟨status, by rw [ha]; rfl⟩
  | true =>
    rw [ha]; exact hb

variable {ch : UInt8} {text : Bytes}

theorem Reads.cons {fits : Bool} {p q r : JsonTextPosition}
    (hch : readTextByte label limits p ch = .ok q) (htext : Reads label limits text fits q r) :
    Reads label limits (ch :: text) fits p r := by
  unfold Reads at *
  rw [readText_cons, hch]; exact htext

theorem Reads.nil {p : JsonTextPosition} : Reads label limits [] true p p := rfl

theorem reads_stringByte (hb : ch ≠ backslash) (hq : ch ≠ quote) (depth count : Nat) :
    Reads label limits [ch] (!exceedsJsonLimit (count + 1) limits.maxStringBytes)
      (.inString depth count) (.inString depth (count + 1)) := by
  unfold Reads readText
  rw [foldlM_cons, readTextByte, if_neg hb, if_neg hq]
  by_cases hex : exceedsJsonLimit (count + 1) limits.maxStringBytes = true
  · rw [if_pos hex, hex]; exact ⟨_, rfl⟩
  · rw [if_neg hex, Bool.eq_false_iff.mpr hex]; rfl

theorem exceedsJsonLimit_mono {m n limit : Nat} (h : m ≤ n)
    (hn : exceedsJsonLimit n limit = false) : exceedsJsonLimit m limit = false := by
  rw [exceedsJsonLimit_eq_false] at *; omega

theorem hexDigit_plain {n : Nat} (h : n < 16) : hexDigit n ≠ backslash ∧ hexDigit n ≠ quote := by
  have : ∀ n < 16, hexDigit n ≠ backslash ∧ hexDigit n ≠ quote := by decide
  exact this n h

theorem reads_stringBytes (hne : text ≠ []) (hplain : ∀ ch ∈ text, ch ≠ backslash ∧ ch ≠ quote)
    (depth count : Nat) :
    Reads label limits text (!exceedsJsonLimit (count + text.length) limits.maxStringBytes)
      (.inString depth count) (.inString depth (count + text.length)) := by
  induction text generalizing count with
  | nil => exact absurd rfl hne
  | cons ch text ih =>
    have hch := hplain ch (by simp)
    have hfirst : Reads label limits [ch] (!exceedsJsonLimit (count + 1) limits.maxStringBytes)
        (.inString depth count) (.inString depth (count + 1)) :=
      reads_stringByte hch.1 hch.2 depth count
    cases text with
    | nil => exact hfirst
    | cons next text =>
      have hrest := ih (by simp) (fun c hc => hplain c (by simp [hc])) (count + 1)
      have htotal : count + 1 + (next :: text).length = count + (ch :: next :: text).length := by
        simp only [length_cons]; omega
      rw [htotal] at hrest
      have hboth := hfirst.append hrest
      -- a count within the limit was within it before
      have hfits : (!exceedsJsonLimit (count + 1) limits.maxStringBytes &&
          !exceedsJsonLimit (count + (ch :: next :: text).length) limits.maxStringBytes) =
          !exceedsJsonLimit (count + (ch :: next :: text).length) limits.maxStringBytes := by
        cases hex : exceedsJsonLimit (count + (ch :: next :: text).length) limits.maxStringBytes with
        | true => simp
        | false =>
          have hfirst : exceedsJsonLimit (count + 1) limits.maxStringBytes = false :=
            exceedsJsonLimit_mono (by simp only [length_cons]; omega) hex
          rw [hfirst]; rfl
      rwa [hfits] at hboth

theorem reads_escapes (depth : Nat) (text : Bytes) (count : Nat) :
    Reads label limits (text.flatMap escapeByte ++ [quote])
      (stringFits limits.maxStringBytes count text) (.inString depth count) (.outside depth) := by
  induction text generalizing count with
  | nil => exact Reads.cons rfl .nil
  | cons b text ih =>
    rw [flatMap_cons, append_assoc, stringFits]
    by_cases hshort : isShortEscape b = true
    · -- a backslash and a letter are not compared with the limit
      rw [if_pos hshort]
      have hescape : ∃ letter, escapeByte b = [backslash, letter] := by
        simp only [isShortEscape, Bool.or_eq_true, decide_eq_true_eq] at hshort
        rcases hshort with (((((rfl | rfl) | rfl) | rfl) | rfl) | rfl) | rfl <;>
          exact ⟨_, rfl⟩
      obtain ⟨letter, hescape⟩ := hescape
      rw [hescape]; exact .cons rfl (.cons rfl (ih (count + 2)))
    · rw [if_neg hshort]
      simp only [isShortEscape, Bool.or_eq_true, decide_eq_true_eq, not_or] at hshort
      obtain ⟨⟨⟨⟨⟨⟨h1, h2⟩, h3⟩, h4⟩, h5⟩, h6⟩, h7⟩ := hshort
      by_cases hcontrol : b < 0x20
      · -- of the six bytes of a control character only the last four are compared
        have hlt : b.toNat < 32 := hcontrol
        have hescape : escapeByte b = backslash :: 0x75 :: 0x30 :: 0x30 ::
            [hexDigit (b.toNat / 16), hexDigit (b.toNat % 16)] := by
          simp only [escapeByte, h1, h2, h3, h4, h5, h6, h7, hcontrol, if_true]
          rfl
        have hhigh := hexDigit_plain (show b.toNat / 16 < 16 by omega)
        have hlow := hexDigit_plain (show b.toNat % 16 < 16 by omega)
        have hplain : ∀ ch ∈ [0x30, 0x30, hexDigit (b.toNat / 16), hexDigit (b.toNat % 16)],
            ch ≠ backslash ∧ ch ≠ quote := by
          simp only [mem_cons, not_mem_nil, or_false]
          rintro ch (rfl | rfl | rfl | rfl)
          · decide
          · decide
          · exact hhigh
          · exact hlow
        rw [if_pos hcontrol, hescape]
        exact .cons rfl (.cons rfl
          ((reads_stringBytes (by simp) hplain depth (count + 2)).append (ih (count + 6))))
      · have hescape : escapeByte b = [b] := by
          simp only [escapeByte, h1, h2, h3, h4, h5, h6, h7, hcontrol, if_false]
        rw [if_neg hcontrol, hescape]
        exact (reads_stringByte h7 h6 depth count).append (ih (count + 1))

theorem reads_compactString (depth : Nat) (text : Bytes) :
    Reads label limits (compactString text) (stringFits limits.maxStringBytes 0 text)
      (.outside depth) (.outside depth) :=
  .cons rfl (reads_escapes depth text 0)

/-- A byte outside strings that neither starts one nor opens or closes a container. -/
def isQuiet (ch : UInt8) : Bool := ch ≠ quote && !isOpening ch && !isClosing ch

theorem reads_quiet (h : text.all isQuiet = true) (depth : Nat) :
    Reads label limits text true (.outside depth) (.outside depth) := by
  induction text with
  | nil => exact .nil
  | cons ch text ih =>
    rw [all_cons, Bool.and_eq_true] at h
    refine .cons ?_ (ih h.2)
    simp only [isQuiet, Bool.and_eq_true, decide_eq_true_eq, Bool.not_eq_true'] at h
    simp [readTextByte, h.1.1.1, h.1.1.2, h.1.2]

theorem isQuiet_of_number (h : isNumberByte ch = true) : isQuiet ch = true := by
  by_contra hloud
  simp only [isQuiet, isOpening, isClosing, Bool.and_eq_true, Bool.not_eq_true', decide_eq_true_eq,
    not_and_or, ne_eq, not_not, Bool.or_eq_false_iff, decide_eq_false_iff_not] at hloud
  rcases hloud with (rfl | rfl | rfl) | rfl | rfl <;> revert h <;> decide

theorem reads_number (h : text.all isNumberByte = true) (depth : Nat) :
    Reads label limits text true (.outside depth) (.outside depth) :=
  reads_quiet (all_eq_true.mpr fun ch hch =>
    isQuiet_of_number (all_eq_true.mp h ch hch)) depth

theorem Reads.container {opening closing : UInt8} {fits : Bool} {depth : Nat}
    (hopen : isOpening opening = true) (hclose : isClosing closing = true)
    (htext : Reads label limits text fits (.outside (depth + 1)) (.outside (depth + 1))) :
    Reads label limits (opening :: (text ++ [closing]))
      (!exceedsJsonLimit (depth + 1) limits.maxDepth && fits) (.outside depth) (.outside depth) := by
  have hquote : opening ≠ quote := by rintro rfl; revert hopen; decide
  have hend : readTextByte label limits (.outside (depth + 1)) closing = .ok (.outside depth) := by
    simp only [isClosing, Bool.or_eq_true, decide_eq_true_eq] at hclose
    rcases hclose with rfl | rfl <;> rfl
  by_cases hex : exceedsJsonLimit (depth + 1) limits.maxDepth = true
  · rw [hex]
    refine ⟨.resourceExhausted (label ++ lit " JSON nesting is too deep"), ?_⟩
    rw [readText_cons, readTextByte, if_neg hquote, if_pos hopen, if_pos hex]; rfl
  · rw [Bool.eq_false_iff.mpr hex]
    have hbegin : readTextByte label limits (.outside depth) opening = .ok (.outside (depth + 1)) := by
      rw [readTextByte, if_neg hquote, if_pos hopen, if_neg hex]
    have hboth := Reads.cons hbegin (htext.append (Reads.cons hend .nil))
    rwa [Bool.and_true] at hboth

section Values

variable (json : JsonLibrary)

mutual
theorem reads_compact : ∀ (value : Json) (depth : Nat), value.lawful json.isDouble = true →
    Reads label limits value.compact (value.textFits limits depth) (.outside depth) (.outside depth)
  | .null, depth, _ => reads_quiet (by decide) depth
  | .nonFinite, depth, _ => reads_quiet (by decide) depth
  | .bool true, depth, _ => reads_quiet (by decide) depth
  | .bool false, depth, _ => reads_quiet (by decide) depth
  | .int i, depth, _ => reads_number (PlainJson.compactInt_number i).2 depth
  | .float text, depth, h => reads_number (json.numberBytes h) depth
  | .str text, depth, _ => reads_compactString depth text
  | .arr items, depth, h => by
    rw [compact_arr, textFits]
    exact .container rfl rfl (reads_compactItems items (depth + 1) (by simpa [lawful] using h))
  | .obj fields, depth, h => by
    rw [lawful, Bool.and_eq_true] at h
    rw [compact_obj, textFits]
    exact .container rfl rfl (reads_compactFields fields (depth + 1) h.2)
theorem reads_compactItems : ∀ (items : List Json) (depth : Nat),
    lawfulItems json.isDouble items = true →
    Reads label limits (compactItems items) (itemsFit limits depth items)
      (.outside depth) (.outside depth)
  | [], _, _ => .nil
  | [item], depth, h => by
    rw [lawfulItems, Bool.and_eq_true] at h
    rw [compactItems, itemsFit, itemsFit, Bool.and_true]
    exact reads_compact item depth h.1
  | item :: next :: items, depth, h => by
    rw [lawfulItems, Bool.and_eq_true] at h
    rw [compactItems_cons_cons, itemsFit]
    exact (reads_compact item depth h.1).append
      (.cons rfl (reads_compactItems (next :: items) depth h.2))
theorem reads_compactFields : ∀ (fields : JsonObject) (depth : Nat),
    lawfulFields json.isDouble fields = true →
    Reads label limits (compactFields fields) (fieldsFit limits depth fields)
      (.outside depth) (.outside depth)
  | [], _, _ => .nil
  | [(k, value)], depth, h => by
    rw [lawfulFields, Bool.and_eq_true] at h
    rw [compactFields_singleton, fieldsFit, fieldsFit, Bool.and_true]
    exact (reads_compactString depth k).append (.cons rfl (reads_compact value depth h.1))
  | (k, value) :: (l, next) :: fields, depth, h => by
    rw [lawfulFields, Bool.and_eq_true] at h
    rw [compactFields_cons_cons, fieldsFit, Bool.and_assoc]
    exact (reads_compactString depth k).append (.cons rfl ((reads_compact value depth h.1).append
      (.cons rfl (reads_compactFields ((l, next) :: fields) depth h.2))))
end

theorem validateJsonTextLimits_compact {value : Json} (h : value.lawful json.isDouble = true) :
    validateJsonTextLimits label limits value.compact = .ok () ↔
      exceedsJsonLimit value.compact.length limits.maxBytes = false ∧
        value.textFits limits 0 = true := by
  have hread : Reads label limits value.compact (value.textFits limits 0) (.outside 0) (.outside 0) :=
    reads_compact json value 0 h
  unfold validateJsonTextLimits
  rw [bind_eq_ok]
  constructor
  · rintro ⟨⟨⟩, hbytes, hrun⟩
    rw [require_eq_ok, Bool.not_eq_true'] at hbytes
    refine ⟨hbytes, ?_⟩
    by_contra hfits
    rw [Reads, if_neg hfits] at hread
    obtain ⟨status, hread⟩ := hread
    rw [hread] at hrun; cases hrun
  · rintro ⟨hbytes, hfits⟩
    rw [Reads, if_pos hfits] at hread
    exact ⟨(), by simp [hbytes], by rw [hread]; rfl⟩

end Values

end Accepts

/-! ## 3. Parsing -/

def parseJsonWithLimits (json : JsonLibrary) (text label : Bytes) (limits : JsonDecodeLimits := {}) :
    Result Json := do
  validateJsonTextLimits label limits text
  match json.parse text with
  | .error what =>
    .error (.invalidArgument (lit "failed to parse " ++ label ++ lit ": " ++ what))
  | .ok parsed =>
    validateJsonValueLimits label limits parsed
    return parsed

/-- The value and its text are within the limits of a reader. -/
def Json.readable (limits : JsonDecodeLimits) (value : Json) : Bool :=
  !exceedsJsonLimit value.compact.length limits.maxBytes && value.textFits limits 0
    && value.withinLimits limits

mutual
theorem Json.nodes_reread : ∀ value : Json, value.reread.nodes = value.nodes
  | .null | .bool _ | .int _ | .float _ | .nonFinite | .str _ => rfl
  | .arr items => by rw [reread, nodes, nodes, nodes_rereadItems items]
  | .obj fields => by rw [reread, nodes, nodes, nodes_rereadFields fields]
theorem Json.nodes_rereadItems :
    ∀ items : List Json, nodesItems (rereadItems items) = nodesItems items
  | [] => rfl
  | item :: items => by
    rw [rereadItems, nodesItems, nodesItems, nodes_reread item, nodes_rereadItems items]
theorem Json.nodes_rereadFields :
    ∀ fields : JsonObject, nodesFields (rereadFields fields) = nodesFields fields
  | [] => rfl
  | (k, value) :: fields => by
    rw [rereadFields, nodesFields, nodesFields, nodes_reread value, nodes_rereadFields fields]
end

theorem Json.length_rereadItems (items : List Json) :
    (rereadItems items).length = items.length := by
  induction items with
  | nil => rfl
  | cons item items ih => rw [rereadItems, length_cons, ih, length_cons]

theorem Json.length_rereadFields (fields : JsonObject) :
    (rereadFields fields).length = fields.length := by
  induction fields with
  | nil => rfl
  | cons entry fields ih => rw [rereadFields, length_cons, ih, length_cons]

mutual
theorem Json.sizesWithin_reread (limits : JsonDecodeLimits) :
    ∀ value : Json, value.reread.sizesWithin limits = value.sizesWithin limits
  | .null | .bool _ | .int _ | .float _ | .nonFinite | .str _ => rfl
  | .arr items => by
    rw [reread, sizesWithin, sizesWithin, length_rereadItems, itemsWithin_reread limits items]
  | .obj fields => by
    rw [reread, sizesWithin, sizesWithin, length_rereadFields, fieldsWithin_reread limits fields]
theorem Json.itemsWithin_reread (limits : JsonDecodeLimits) : ∀ items : List Json,
    itemsWithin limits (rereadItems items) = itemsWithin limits items
  | [] => rfl
  | item :: items => by
    rw [rereadItems, itemsWithin, itemsWithin, sizesWithin_reread limits item,
      itemsWithin_reread limits items]
theorem Json.fieldsWithin_reread (limits : JsonDecodeLimits) : ∀ fields : JsonObject,
    fieldsWithin limits (rereadFields fields) = fieldsWithin limits fields
  | [] => rfl
  | (k, value) :: fields => by
    rw [rereadFields, fieldsWithin, fieldsWithin,
      sizesWithin_reread limits value, fieldsWithin_reread limits fields]
end

theorem Json.withinLimits_reread (limits : JsonDecodeLimits) (value : Json) :
    value.reread.withinLimits limits = value.withinLimits limits := by
  rw [withinLimits, withinLimits, sizesWithin_reread, nodes_reread]

section Parse

variable {json : JsonLibrary} {label : Bytes} {limits : JsonDecodeLimits} {value : Json}

theorem parseJsonWithLimits_compact (hlawful : value.lawful json.isDouble = true)
    (hdump : value.isUtf8 = true) (h : value.readable limits = true) :
    parseJsonWithLimits json value.compact label limits = .ok value.reread := by
  simp only [readable, Bool.and_eq_true, Bool.not_eq_true'] at h
  have htext : validateJsonTextLimits label limits value.compact = .ok () :=
    (validateJsonTextLimits_compact json hlawful).mpr h.1
  have hvalue : validateJsonValueLimits label limits value.reread = .ok () :=
    validateJsonValueLimits_ok_iff.mpr (by rw [withinLimits_reread]; exact h.2)
  rw [parseJsonWithLimits, htext, ok_bind, json.parse_compact hlawful hdump]
  simp only [hvalue, ok_bind]; rfl

theorem parseJsonWithLimits_compact_error (hlawful : value.lawful json.isDouble = true)
    (hdump : value.isUtf8 = true) (h : value.readable limits = false) :
    ∃ status, parseJsonWithLimits json value.compact label limits = .error status := by
  cases htext : validateJsonTextLimits label limits value.compact with
  | error status => exact ⟨status, by rw [parseJsonWithLimits, htext]; rfl⟩
  | ok =>
    cases hvalue : validateJsonValueLimits label limits value.reread with
    | error status =>
      refine ⟨status, ?_⟩
      rw [parseJsonWithLimits, htext, ok_bind, json.parse_compact hlawful hdump]
      simp only [hvalue]; rfl
    | ok =>
      have hbounds := (validateJsonTextLimits_compact json hlawful).mp htext
      have hwithin := validateJsonValueLimits_ok_iff.mp hvalue
      rw [withinLimits_reread] at hwithin
      simp [readable, hbounds.1, hbounds.2, hwithin] at h

end Parse

def nestedArrays : Nat → Json
  | 0 => .null
  | n + 1 => .arr [nestedArrays n]

end LangGraph
