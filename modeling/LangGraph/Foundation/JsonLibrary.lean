import LangGraph.Foundation.JsonText

/-!
# The JSON library

`nlohmann::json` is not part of the sources.  A `JsonLibrary` has its `dump` and `parse`, and what is
assumed of them: `dump` writes compact text and throws on a string that is not UTF-8, and `parse`
reads compact text back, up to NaN and the infinities, which are written as `null`.  Sections 3 and
4 give one, so that the assumptions can be met.
-/

namespace LangGraph

open Json List OrderedMap

/-! ## 1. The values the library can hold -/

def isNumberByte (b : UInt8) : Bool := (48 ≤ b && b ≤ 57) || b ∈ lit "+-.eE"

mutual
/-- A value of the library: integers have 64 bits, a floating-point number has one of the texts
    that `dump` writes for them, and objects are maps. -/
def Json.lawful (isDouble : Bytes → Bool) : Json → Bool
  | .int i => -2 ^ 63 ≤ i && i < 2 ^ 64
  | .float text => isDouble text
  | .arr items => Json.lawfulItems isDouble items
  | .obj fields => decide (OrderedMap.Increasing fields) && Json.lawfulFields isDouble fields
  | _ => true
def Json.lawfulItems (isDouble : Bytes → Bool) : List Json → Bool
  | [] => true
  | item :: items => item.lawful isDouble && Json.lawfulItems isDouble items
def Json.lawfulFields (isDouble : Bytes → Bool) : JsonObject → Bool
  | [] => true
  | (_, value) :: fields => value.lawful isDouble && Json.lawfulFields isDouble fields
end

mutual
def Json.reread : Json → Json
  | .nonFinite => .null
  | .arr items => .arr (Json.rereadItems items)
  | .obj fields => .obj (Json.rereadFields fields)
  | value => value
def Json.rereadItems : List Json → List Json
  | [] => []
  | item :: items => item.reread :: Json.rereadItems items
def Json.rereadFields : JsonObject → JsonObject
  | [] => []
  | (k, value) :: fields => (k, value.reread) :: Json.rereadFields fields
end

mutual
def Json.finite : Json → Bool
  | .nonFinite => false
  | .arr items => Json.finiteItems items
  | .obj fields => Json.finiteFields fields
  | _ => true
def Json.finiteItems : List Json → Bool
  | [] => true
  | item :: items => item.finite && Json.finiteItems items
def Json.finiteFields : JsonObject → Bool
  | [] => true
  | (_, value) :: fields => value.finite && Json.finiteFields fields
end

mutual
theorem Json.reread_of_finite : ∀ value : Json, value.finite = true → value.reread = value
  | .null, _ | .bool _, _ | .int _, _ | .float _, _ | .str _, _ => by simp [reread]
  | .nonFinite, h => by simp [finite] at h
  | .arr items, h => by
    rw [reread, rereadItems_of_finite items (by simpa [finite] using h)]
  | .obj fields, h => by
    rw [reread, rereadFields_of_finite fields (by simpa [finite] using h)]
theorem Json.rereadItems_of_finite :
    ∀ items : List Json, finiteItems items = true → rereadItems items = items
  | [], _ => rfl
  | item :: items, h => by
    rw [finiteItems, Bool.and_eq_true] at h
    rw [rereadItems, reread_of_finite item h.1, rereadItems_of_finite items h.2]
theorem Json.rereadFields_of_finite :
    ∀ fields : JsonObject, finiteFields fields = true → rereadFields fields = fields
  | [], _ => rfl
  | (k, value) :: fields, h => by
    rw [finiteFields, Bool.and_eq_true] at h
    rw [rereadFields, reread_of_finite value h.1, rereadFields_of_finite fields h.2]
end

/-! ## 2. The library -/

structure JsonLibrary where
  /-- The texts that `dump` writes for finite floating-point numbers. -/
  isDouble : Bytes → Bool
  /-- The text of a value, or that of the exception that is thrown instead. -/
  dump : Json → Except Bytes Bytes
  parse : Bytes → Except Bytes Json
  numberBytes : ∀ {text : Bytes}, isDouble text = true → text.all isNumberByte = true
  dump_utf8 : ∀ {value : Json}, value.isUtf8 = true → dump value = .ok value.compact
  dump_throws : ∀ {value : Json}, value.isUtf8 = false → ∃ what, dump value = .error what
  parse_compact : ∀ {value : Json}, value.lawful isDouble = true → value.isUtf8 = true →
    parse value.compact = .ok value.reread

theorem JsonLibrary.dump_ok_iff (json : JsonLibrary) {value : Json} {text : Bytes} :
    json.dump value = .ok text ↔ value.isUtf8 = true ∧ text = value.compact := by
  cases hutf8 : value.isUtf8 with
  | true => simp [json.dump_utf8 hutf8, eq_comm]
  | false =>
    obtain ⟨what, hthrows⟩ := json.dump_throws hutf8
    simp [hthrows]

/-! ## 3. A library -/

namespace PlainJson

/-- A number with a point or an exponent is a floating-point number. -/
def isDouble (text : Bytes) : Bool := text.all isNumberByte && text.any fun b => b ∈ lit ".eE"

def backslash : UInt8 := 0x5C

def unescape (c : UInt8) : UInt8 :=
  if c = 0x62 then 0x08
  else if c = 0x74 then 0x09
  else if c = 0x6E then 0x0A
  else if c = 0x66 then 0x0C
  else if c = 0x72 then 0x0D
  else c

def hexValue (c : UInt8) : Nat := if c.toNat < 58 then c.toNat - 48 else c.toNat - 87

/-- The string up to the closing quote, and the text behind it. -/
def readString : Bytes → Option (Bytes × Bytes)
  | [] => none
  | a :: rest =>
    if a = quote then some ([], rest)
    else if a = backslash then
      match rest with
      | 0x75 :: _ :: _ :: h :: l :: rest =>
        (readString rest).map fun (text, rest) =>
          (UInt8.ofNat (16 * hexValue h + hexValue l) :: text, rest)
      | c :: rest => (readString rest).map fun (text, rest) => (unescape c :: text, rest)
      | [] => none
    else (readString rest).map fun (text, rest) => (a :: text, rest)

def readNumber (text : Bytes) : Json :=
  if text.any fun b => b ∈ lit ".eE" then .float text
  else if text.head? = some 0x2D then .int (-(ByteString.digitsValue text.tail : Int))
  else .int (ByteString.digitsValue text)

mutual
def readValue : Nat → Bytes → Option (Json × Bytes)
  | 0, _ => none
  | fuel + 1, text =>
    match text with
    | [] => none
    | ch :: rest =>
      if ch = quote then (readString rest).map fun (text, rest) => (.str text, rest)
      else if ch = 0x5B then (readItems fuel rest).map fun (items, rest) => (.arr items, rest)
      else if ch = 0x7B then
        (readFields fuel rest).map fun (fields, rest) => (Json.object fields, rest)
      else if isNumberByte ch then
        some (readNumber (text.takeWhile isNumberByte), text.dropWhile isNumberByte)
      else if (lit "null").isPrefixOf text then some (.null, text.drop 4)
      else if (lit "true").isPrefixOf text then some (.bool true, text.drop 4)
      else if (lit "false").isPrefixOf text then some (.bool false, text.drop 5)
      else none
def readItems : Nat → Bytes → Option (List Json × Bytes)
  | 0, _ => none
  | fuel + 1, text =>
    if text.head? = some 0x5D then some ([], text.tail)
    else match readValue fuel text with
      | none => none
      | some (item, rest) =>
        if rest.head? = some 0x2C then
          (readItems fuel rest.tail).map fun (items, rest) => (item :: items, rest)
        else if rest.head? = some 0x5D then some ([item], rest.tail)
        else none
def readFields : Nat → Bytes → Option (JsonObject × Bytes)
  | 0, _ => none
  | fuel + 1, text =>
    if text.head? = some 0x7D then some ([], text.tail)
    else match readString text.tail with
      | none => none
      | some (k, rest) =>
        match readValue fuel rest.tail with
        | none => none
        | some (value, rest) =>
          if rest.head? = some 0x2C then
            (readFields fuel rest.tail).map fun (fields, rest) => ((k, value) :: fields, rest)
          else if rest.head? = some 0x7D then some ([(k, value)], rest.tail)
          else none
end

def parse (text : Bytes) : Except Bytes Json :=
  match readValue text.length text with
  | some (value, []) => .ok value
  | _ => .error (lit "[json.exception.parse_error.101] parse error")

example : parse (lit "\x7b\"a\":\"x\\n\",\"b\":[-3,null,1.5]\x7d")
    = .ok (.obj [(lit "a", .ofText "x\n"), (lit "b", .arr [.int (-3), .null, .float (lit "1.5")])]) := by
  decide +kernel

/-! ## 4. It reads compact text back -/

theorem hexValue_hexDigit {n : Nat} (h : n < 16) : hexValue (hexDigit n) = n := by
  have hdigit : (hexDigit n).toNat = if n < 10 then 48 + n else 87 + n := by
    rw [hexDigit, UInt8.toNat_ofNat']
    split_ifs <;> omega
  rw [hexValue, hdigit]
  split_ifs <;> omega

variable {b : UInt8} {text rest : Bytes}

theorem readString_plain (hq : b ≠ quote) (hb : b ≠ backslash) (rest : Bytes) :
    readString (b :: rest) = (readString rest).map fun p => (b :: p.1, p.2) := by
  rw [readString.eq_def]; simp [hq, hb]

theorem readString_escapeByte (b : UInt8) (rest : Bytes) :
    readString (escapeByte b ++ rest) = (readString rest).map fun p => (b :: p.1, p.2) := by
  unfold escapeByte
  split_ifs with h1 h2 h3 h4 h5 h6 h7 h8
  · subst h1; rfl
  · subst h2; rfl
  · subst h3; rfl
  · subst h4; rfl
  · subst h5; rfl
  · subst h6; rfl
  · subst h7; rfl
  · have hlt : b.toNat < 32 := h8
    have hvalue : UInt8.ofNat (16 * hexValue (hexDigit (b.toNat / 16))
        + hexValue (hexDigit (b.toNat % 16))) = b := by
      rw [hexValue_hexDigit (by omega), hexValue_hexDigit (by omega),
        show 16 * (b.toNat / 16) + b.toNat % 16 = b.toNat by omega, UInt8.ofNat_toNat]
    show readString (0x5C :: 0x75 :: 0x30 :: 0x30 :: _ :: _ :: rest) = _
    rw [readString.eq_def]; simp [hvalue, quote, backslash]
  · exact readString_plain h6 h7 rest

theorem readString_compact (text rest : Bytes) :
    readString (text.flatMap escapeByte ++ quote :: rest) = some (text, rest) := by
  induction text with
  | nil =>
    rw [readString.eq_def]; simp
  | cons b text ih =>
    rw [flatMap_cons, append_assoc, readString_escapeByte, ih]; rfl

def EndsNumber (rest : Bytes) : Prop := ∀ ch ∈ rest.head?, isNumberByte ch = false

theorem takeWhile_number (htext : text.all isNumberByte = true) (hrest : EndsNumber rest) :
    (text ++ rest).takeWhile isNumberByte = text ∧ (text ++ rest).dropWhile isNumberByte = rest := by
  induction text with
  | nil =>
    cases rest with
    | nil => exact ⟨rfl, rfl⟩
    | cons ch =>
      have hch : isNumberByte ch = false := hrest ch rfl; simp [hch]
  | cons b text ih =>
    rw [all_cons, Bool.and_eq_true] at htext
    obtain ⟨htake, hdrop⟩ := ih htext.2
    simp [htext.1, htake, hdrop]

theorem readValue_number (hne : text ≠ []) (htext : text.all isNumberByte = true)
    (hrest : EndsNumber rest) (fuel : Nat) :
    readValue (fuel + 1) (text ++ rest) = some (readNumber text, rest) := by
  obtain ⟨htake, hdrop⟩ := takeWhile_number htext hrest
  cases text with
  | nil => exact absurd rfl hne
  | cons ch =>
    have hch : isNumberByte ch = true := all_eq_true.mp htext ch (by simp)
    have hquote : ch ≠ quote := by rintro rfl; revert hch; decide
    have harr : ch ≠ 0x5B := by rintro rfl; revert hch; decide
    have hobj : ch ≠ 0x7B := by rintro rfl; revert hch; decide
    rw [readValue.eq_def]
    simp only [cons_append] at htake hdrop ⊢
    simp [hquote, harr, hobj, hch, htake, hdrop]

theorem isNumberByte_digit (h : 48 ≤ b.toNat ∧ b.toNat ≤ 57) : isNumberByte b = true := by
  have hlow : (48 : UInt8) ≤ b := UInt8.le_iff_toNat_le.mpr h.1
  have hhigh : b ≤ (57 : UInt8) := UInt8.le_iff_toNat_le.mpr h.2
  simp [isNumberByte, hlow, hhigh]

theorem decimal_digits {n : Nat} (h : b ∈ decimal n) : 48 ≤ b.toNat ∧ b.toNat ≤ 57 :=
  ByteString.mem_decimalLoop h

theorem not_point_of_digit (h : 48 ≤ b.toNat ∧ b.toNat ≤ 57) : b ∉ lit ".eE" := by
  intro hm
  have hm : b ∈ ([0x2E, 0x65, 0x45] : Bytes) := hm
  simp only [mem_cons, not_mem_nil, or_false] at hm
  rcases hm with rfl | rfl | rfl <;> revert h <;> decide

theorem no_point_decimal (n : Nat) : (decimal n).any (fun b => b ∈ lit ".eE") = false := by
  rw [any_eq_false]
  exact fun b hb => by simpa using not_point_of_digit (decimal_digits hb)

theorem readNumber_compactInt (i : Int) : readNumber (compactInt i) = .int i := by
  cases i with
  | ofNat n =>
    have hsign : (decimal n).head? ≠ some 0x2D := fun h =>
      absurd (decimal_digits (mem_of_mem_head? h)) (by decide)
    rw [compactInt, readNumber, if_neg (by rw [no_point_decimal]; decide), if_neg hsign,
      ByteString.digitsValue_decimal]
    rfl
  | negSucc n =>
    have hpoint : (lit "-" ++ decimal (n + 1)).any (fun b => b ∈ lit ".eE") = false := by
      rw [any_append, no_point_decimal]; decide
    have hsign : (lit "-" ++ decimal (n + 1)).head? = some 0x2D := rfl
    rw [compactInt, readNumber, if_neg (by rw [hpoint]; decide), if_pos hsign]
    show int (-(ByteString.digitsValue (decimal (n + 1)) : Int)) = _
    rw [ByteString.digitsValue_decimal]; rfl

theorem compactInt_number (i : Int) : compactInt i ≠ [] ∧ (compactInt i).all isNumberByte = true := by
  have hdecimal : ∀ n, (decimal n).all isNumberByte = true := fun n =>
    all_eq_true.mpr fun b hb => isNumberByte_digit (decimal_digits hb)
  cases i with
  | ofNat n => exact ⟨ByteString.decimal_ne_nil n, hdecimal n⟩
  | negSucc =>
    refine ⟨by simp [compactInt, ByteString.decimal_ne_nil], ?_⟩
    rw [compactInt, all_append, hdecimal]; decide

theorem float_number (h : isDouble text = true) :
    text ≠ [] ∧ text.all isNumberByte = true ∧ readNumber text = .float text := by
  rw [isDouble, Bool.and_eq_true] at h
  refine ⟨?_, h.1, by rw [readNumber, if_pos h.2]⟩
  rintro rfl
  simp at h

theorem compact_head (value : Json) (h : value.lawful isDouble = true) :
    ∃ ch rest, value.compact = ch :: rest ∧ ch ≠ 0x5D := by
  have hnumber : ∀ text : Bytes, text ≠ [] → text.all isNumberByte = true →
      ∃ ch rest, text = ch :: rest ∧ ch ≠ 0x5D := by
    intro text hne hall
    cases text with
    | nil => exact absurd rfl hne
    | cons ch rest =>
      refine ⟨ch, rest, rfl, ?_⟩
      rintro rfl
      rw [all_cons, Bool.and_eq_true] at hall; exact absurd hall.1 (by decide)
  cases value with
  | null | nonFinite | str | arr | obj => exact ⟨_, _, rfl, by decide⟩
  | bool b => cases b <;> exact ⟨_, _, rfl, by decide⟩
  | int i =>
    obtain ⟨hne, hall⟩ := compactInt_number i
    exact hnumber _ hne hall
  | float text =>
    obtain ⟨hne, hall, -⟩ := float_number (show isDouble text = true from h)
    exact hnumber _ hne hall

theorem increasing_rereadFields {fields : JsonObject} (h : Increasing fields) :
    Increasing (rereadFields fields) := by
  have hmap : rereadFields fields = fields.map fun entry => (entry.1, entry.2.reread) := by
    clear h
    induction fields with
    | nil => rfl
    | cons entry fields ih => rw [rereadFields, map_cons, ih]
  rw [hmap, Increasing, pairwise_map]; exact h

theorem readItems_step {item : Json} {fuel : Nat} (hopen : text.head? ≠ some 0x5D)
    (hitem : readValue fuel text = some (item, rest)) :
    readItems (fuel + 1) text =
      if rest.head? = some 0x2C then (readItems fuel rest.tail).map fun p => (item :: p.1, p.2)
      else if rest.head? = some 0x5D then some ([item], rest.tail)
      else none := by
  rw [readItems, if_neg hopen, hitem]

theorem readFields_step {k : Bytes} {value : Json} {fuel : Nat}
    (hvalue : readValue fuel text = some (value, rest)) :
    readFields (fuel + 1) (compactString k ++ 0x3A :: text) = if rest.head? = some 0x2C then
        (readFields fuel rest.tail).map fun p => ((k, value) :: p.1, p.2)
      else if rest.head? = some 0x7D then some ([(k, value)], rest.tail)
      else none := by
  have hopen : (compactString k ++ 0x3A :: text).head? ≠ some 0x7D := by
    rw [compactString, cons_append, head?_cons]; decide
  have hkey : readString (compactString k ++ 0x3A :: text).tail = some (k, 0x3A :: text) := by
    rw [compactString, cons_append, tail_cons, append_assoc]
    exact readString_compact k (0x3A :: text)
  rw [readFields, if_neg hopen, hkey]
  simp only [tail_cons, hvalue]

theorem endsNumber_cons {ch : UInt8} (h : isNumberByte ch = false) (rest : Bytes) :
    EndsNumber (ch :: rest) := by
  rintro _ ⟨⟩; exact h

mutual
theorem readValue_compact : ∀ (value : Json) (fuel : Nat) (rest : Bytes),
    value.lawful isDouble = true → value.compact.length ≤ fuel → EndsNumber rest →
    readValue fuel (value.compact ++ rest) = some (value.reread, rest)
  | value, 0, rest, hvalue, hfuel, _ => by
    obtain ⟨ch, tail, hdump, -⟩ := compact_head value hvalue
    rw [hdump] at hfuel; cases hfuel
  | .null, fuel + 1, rest, _, _, _ => rfl
  | .nonFinite, fuel + 1, rest, _, _, _ => rfl
  | .bool true, fuel + 1, rest, _, _, _ => rfl
  | .bool false, fuel + 1, rest, _, _, _ => rfl
  | .int i, fuel + 1, rest, _, _, hrest => by
    obtain ⟨hne, hall⟩ := compactInt_number i
    rw [compact, readValue_number hne hall hrest, readNumber_compactInt]; rfl
  | .float text, fuel + 1, rest, hvalue, _, hrest => by
    obtain ⟨hne, hall, hread⟩ := float_number (show isDouble text = true from hvalue)
    rw [compact, readValue_number hne hall hrest, hread]; rfl
  | .str text, fuel + 1, rest, _, _, _ => by
    rw [compact, compactString, cons_append, append_assoc, readValue.eq_def]
    simp only [if_true, singleton_append, readString_compact, Option.map_some, reread]
  | .arr items, fuel + 1, rest, hvalue, hfuel, _ => by
    have hlength : (compactItems items).length < fuel := by
      rw [compact_arr] at hfuel
      simp only [length_cons, length_append, length_nil] at hfuel
      omega
    have hitems := readItems_compact items fuel rest (by simpa [lawful] using hvalue) hlength
    rw [compact_arr, cons_append, append_assoc, singleton_append, readValue.eq_def]
    simp only [hitems, reread]; rfl
  | .obj fields, fuel + 1, rest, hvalue, hfuel, _ => by
    have hlength : (compactFields fields).length < fuel := by
      rw [compact_obj] at hfuel
      simp only [length_cons, length_append, length_nil] at hfuel
      omega
    rw [lawful, Bool.and_eq_true, decide_eq_true_eq] at hvalue
    have hfields := readFields_compact fields fuel rest hvalue.2 hlength
    have hobject : object (rereadFields fields) = .obj (rereadFields fields) :=
      congrArg obj (Increasing.merge_eq (m := [])
        (increasing_rereadFields hvalue.1))
    rw [compact_obj, cons_append, append_assoc, singleton_append, readValue.eq_def]
    simp only [hfields, reread, ← hobject]; rfl
theorem readItems_compact : ∀ (items : List Json) (fuel : Nat) (rest : Bytes),
    lawfulItems isDouble items = true → (compactItems items).length < fuel →
    readItems fuel (compactItems items ++ 0x5D :: rest) = some (rereadItems items, rest)
  | _, 0, _, _, hfuel => by cases hfuel
  | [], fuel + 1, rest, _, _ => rfl
  | [item], fuel + 1, rest, hitems, hfuel => by
    rw [lawfulItems, Bool.and_eq_true] at hitems
    have hitem := readValue_compact item fuel (0x5D :: rest) hitems.1
      (by rw [compactItems] at hfuel; omega) (endsNumber_cons (by decide) rest)
    obtain ⟨ch, tail, hhead, hch⟩ := compact_head item hitems.1
    rw [compactItems, readItems_step (by simpa [hhead] using hch) hitem]; rfl
  | item :: next :: items, fuel + 1, rest, hitems, hfuel => by
    rw [lawfulItems, Bool.and_eq_true] at hitems
    rw [compactItems_cons_cons] at hfuel ⊢
    rw [length_append, length_cons] at hfuel
    have hitem := readValue_compact item fuel (0x2C :: (compactItems (next :: items) ++ 0x5D :: rest))
      hitems.1 (by omega) (endsNumber_cons (by decide) _)
    have hrest := readItems_compact (next :: items) fuel rest hitems.2 (by omega)
    obtain ⟨ch, tail, hhead, hch⟩ := compact_head item hitems.1
    rw [append_assoc, cons_append, readItems_step (by simpa [hhead] using hch) hitem,
      head?_cons, if_pos rfl, tail_cons, hrest]
    rfl
theorem readFields_compact : ∀ (fields : JsonObject) (fuel : Nat) (rest : Bytes),
    lawfulFields isDouble fields = true → (compactFields fields).length < fuel →
    readFields fuel (compactFields fields ++ 0x7D :: rest) = some (rereadFields fields, rest)
  | _, 0, _, _, hfuel => by cases hfuel
  | [], fuel + 1, rest, _, _ => rfl
  | [(k, value)], fuel + 1, rest, hfields, hfuel => by
    rw [lawfulFields, Bool.and_eq_true] at hfields
    rw [compactFields_singleton] at hfuel ⊢
    rw [length_append, length_cons] at hfuel
    have hvalue := readValue_compact value fuel (0x7D :: rest) hfields.1 (by omega)
      (endsNumber_cons (by decide) rest)
    rw [append_assoc, cons_append, readFields_step hvalue]; rfl
  | (k, value) :: (l, next) :: fields, fuel + 1, rest, hfields, hfuel => by
    rw [lawfulFields, Bool.and_eq_true] at hfields
    rw [compactFields_cons_cons] at hfuel ⊢
    simp only [length_append, length_cons] at hfuel
    have hvalue := readValue_compact value fuel
      (0x2C :: (compactFields ((l, next) :: fields) ++ 0x7D :: rest)) hfields.1 (by omega)
      (endsNumber_cons (by decide) _)
    have hrest := readFields_compact ((l, next) :: fields) fuel rest hfields.2 (by omega)
    rw [append_assoc, cons_append, append_assoc, cons_append,
      readFields_step hvalue, head?_cons, if_pos rfl, tail_cons, hrest]
    rfl
end

theorem parse_compact {value : Json} (h : value.lawful isDouble = true) :
    parse value.compact = .ok value.reread := by
  have hread := readValue_compact value value.compact.length [] h (Nat.le_refl _) (by nofun)
  rw [append_nil] at hread
  rw [parse, hread]

/-- The position that the exception reports is left out. -/
def dump (value : Json) : Except Bytes Bytes :=
  if value.isUtf8 then .ok value.compact
  else .error (lit "[json.exception.type_error.316] invalid UTF-8 byte")

end PlainJson

def plainJson : JsonLibrary where
  isDouble := PlainJson.isDouble
  dump := PlainJson.dump
  parse := PlainJson.parse
  numberBytes h := (PlainJson.float_number h).2.1
  dump_utf8 h := by rw [PlainJson.dump, if_pos h]
  dump_throws h := ⟨_, by rw [PlainJson.dump, h]; rfl⟩
  parse_compact h _ := PlainJson.parse_compact h

end LangGraph
