import LangGraph.Foundation.Json

/-!
# JSON text

`compact` is the text of a value without blanks: object fields in key order, control characters
escaped, other bytes as they are.  It is a text of JSON only if all strings of the value are UTF-8.
-/

namespace LangGraph

open Json

/-! ## 1. UTF-8 -/

def isContinuation (b : UInt8) : Bool := 0x80 ≤ b && b ≤ 0xBF

/-- Well-formed UTF-8: no overlong forms, no surrogates, nothing above U+10FFFF. -/
def validUtf8 : Bytes → Bool
  | [] => true
  | a :: rest =>
    if a < 0x80 then validUtf8 rest
    else match rest with
      | [] => false
      | b :: rest =>
        if 0xC2 ≤ a && a ≤ 0xDF then isContinuation b && validUtf8 rest
        else match rest with
          | [] => false
          | c :: rest =>
            if 0xE0 ≤ a && a ≤ 0xEF then
              isContinuation b && isContinuation c
                && (a ≠ 0xE0 || 0xA0 ≤ b) && (a ≠ 0xED || b ≤ 0x9F) && validUtf8 rest
            else match rest with
              | [] => false
              | d :: rest =>
                0xF0 ≤ a && a ≤ 0xF4 && isContinuation b && isContinuation c && isContinuation d
                  && (a ≠ 0xF0 || 0x90 ≤ b) && (a ≠ 0xF4 || b ≤ 0x8F) && validUtf8 rest

/-! ## 2. Compact text -/

def hexDigit (n : Nat) : UInt8 := UInt8.ofNat (if n < 10 then 48 + n else 87 + n)

def escapeByte (b : UInt8) : Bytes :=
  if b = 0x08 then lit "\\b"
  else if b = 0x09 then lit "\\t"
  else if b = 0x0A then lit "\\n"
  else if b = 0x0C then lit "\\f"
  else if b = 0x0D then lit "\\r"
  else if b = 0x22 then lit "\\\""
  else if b = 0x5C then lit "\\\\"
  else if b < 0x20 then lit "\\u00" ++ [hexDigit (b.toNat / 16), hexDigit (b.toNat % 16)]
  else [b]

def quote : UInt8 := 0x22

def compactString (text : Bytes) : Bytes := quote :: (text.flatMap escapeByte ++ [quote])

def compactInt : Int → Bytes
  | .ofNat n => decimal n
  | .negSucc n => lit "-" ++ decimal (n + 1)

mutual
def Json.compact : Json → Bytes
  | .null => lit "null"
  | .bool true => lit "true"
  | .bool false => lit "false"
  | .int i => compactInt i
  | .float text => text
  | .nonFinite => lit "null"
  | .str text => compactString text
  | .arr items => lit "[" ++ Json.compactItems items ++ lit "]"
  | .obj fields => lit "\x7b" ++ Json.compactFields fields ++ lit "\x7d"
def Json.compactItems : List Json → Bytes
  | [] => []
  | [item] => item.compact
  | item :: items => item.compact ++ lit "," ++ Json.compactItems items
def Json.compactFields : JsonObject → Bytes
  | [] => []
  | [(k, value)] => compactString k ++ lit ":" ++ value.compact
  | (k, value) :: fields =>
    compactString k ++ lit ":" ++ value.compact ++ lit "," ++ Json.compactFields fields
end

mutual
def Json.isUtf8 : Json → Bool
  | .str text => validUtf8 text
  | .arr items => Json.isUtf8Items items
  | .obj fields => Json.isUtf8Fields fields
  | _ => true
def Json.isUtf8Items : List Json → Bool
  | [] => true
  | item :: items => item.isUtf8 && Json.isUtf8Items items
def Json.isUtf8Fields : JsonObject → Bool
  | [] => true
  | (k, value) :: fields => validUtf8 k && value.isUtf8 && Json.isUtf8Fields fields
end

theorem compact_arr (items : List Json) :
    (arr items).compact = 0x5B :: (compactItems items ++ [0x5D]) := by
  rw [compact]; rfl

theorem compact_obj (fields : JsonObject) :
    (obj fields).compact = 0x7B :: (compactFields fields ++ [0x7D]) := by
  rw [compact]; rfl

theorem compactItems_cons_cons (a b : Json) (items : List Json) :
    compactItems (a :: b :: items) = a.compact ++ 0x2C :: compactItems (b :: items) := by
  rw [compactItems, List.append_assoc]
  · rfl
  · nofun

theorem compactFields_singleton (k : Bytes) (value : Json) :
    compactFields [(k, value)] = compactString k ++ 0x3A :: value.compact := by
  rw [compactFields, List.append_assoc]; rfl

theorem compactFields_cons_cons (k l : Bytes) (a b : Json) (fields : JsonObject) :
    compactFields ((k, a) :: (l, b) :: fields) =
      compactString k ++ 0x3A :: (a.compact ++ 0x2C :: compactFields ((l, b) :: fields)) := by
  rw [compactFields]
  · simp only [List.append_assoc]; rfl
  · nofun

example : (object [(lit "b", .arr [.int (-3), .null]), (lit "a", .ofText "x\n")]).compact
    = lit "\x7b\"a\":\"x\\n\",\"b\":[-3,null]\x7d" := by decide +kernel

end LangGraph
