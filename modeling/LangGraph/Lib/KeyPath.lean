import LangGraph.Lib.ByteString

/-!
# Keys made of segments

A flat key space is often given structure by keys whose segments are joined by slashes and by
scans over a prefix that ends in one.  As long as no segment contains a slash, such a prefix
selects exactly the keys that start with its segments: a segment that merely starts with the text
of another is never selected by it.  Arbitrary text becomes a segment in hexadecimal.
-/

namespace KeyPath

open ByteString List

def slash : UInt8 := 47

/-! ## 1. Keys and prefixes -/

def key : List Bytes → Bytes
  | [] => []
  | [segment] => segment
  | segment :: rest => segment ++ slash :: key rest

/-- The prefix of the keys below the segments: a slash behind each of them. -/
def dir : List Bytes → Bytes
  | [] => []
  | segment :: rest => segment ++ slash :: dir rest

def Plain (segments : List Bytes) : Prop := ∀ segment ∈ segments, slash ∉ segment

theorem key_cons {segment : Bytes} {rest : List Bytes} (h : rest ≠ []) :
    key (segment :: rest) = segment ++ slash :: key rest := by
  cases rest with
  | nil => exact absurd rfl h
  | cons => rfl

theorem key_append {ds rest : List Bytes} (h : rest ≠ []) :
    key (ds ++ rest) = dir ds ++ key rest := by
  induction ds with
  | nil => rfl
  | cons segment ds ih =>
    rw [cons_append, key_cons (by simp [h]), ih, dir, append_assoc, cons_append]

theorem key_injective {a b : List Bytes} (ha : Plain a) (hb : Plain b) (hane : a ≠ [])
    (hbne : b ≠ []) (h : key a = key b) : a = b := by
  induction a generalizing b with
  | nil => exact absurd rfl hane
  | cons s a ih =>
    cases b with
    | nil => exact absurd rfl hbne
    | cons u b =>
      have hs : slash ∉ s := ha s (by simp)
      have hu : slash ∉ u := hb u (by simp)
      by_cases hanil : a = []
      · by_cases hbnil : b = []
        · subst hanil hbnil; exact congrArg (· :: []) h
        · -- the longer key has a slash that the shorter one lacks
          rw [hanil, key_cons hbnil] at h
          exact absurd (show slash ∈ s from (show s = _ from h) ▸ by simp) hs
      · by_cases hbnil : b = []
        · rw [hbnil, key_cons hanil] at h
          exact absurd (show slash ∈ u from (show _ = u from h) ▸ by simp) hu
        · rw [key_cons hanil, key_cons hbnil] at h
          obtain ⟨hsu, hrest⟩ := append_cons_inj hs hu h
          rw [hsu, ih (fun x hx => ha x (by simp [hx])) (fun x hx => hb x (by simp [hx]))
            hanil hbnil hrest]

theorem dir_prefix_key_iff {ds segments : List Bytes} (hds : Plain ds) (hs : Plain segments)
    (hne : segments ≠ []) :
    dir ds <+: key segments ↔ ∃ rest, rest ≠ [] ∧ segments = ds ++ rest := by
  induction ds generalizing segments with
  | nil => exact ⟨fun _ => ⟨segments, hne, rfl⟩, fun _ => nil_prefix⟩
  | cons d ds ih =>
    cases segments with
    | nil => exact absurd rfl hne
    | cons s segments =>
      have hd : slash ∉ d := hds d (by simp)
      have hsl : slash ∉ s := hs s (by simp)
      by_cases hnil : segments = []
      · subst hnil
        constructor
        · rintro ⟨t, ht⟩
          -- the prefix ends in a slash, and a key of one segment has none
          exact absurd (show slash ∈ s from (show _ = s from ht) ▸ by simp [dir]) hsl
        · rintro ⟨rest, hrest, heq⟩
          obtain ⟨-, hempty⟩ := cons.inj heq
          exact absurd (append_eq_nil_iff.mp hempty.symm).2 hrest
      · have hiff := ih (fun x hx => hds x (by simp [hx])) (fun x hx => hs x (by simp [hx])) hnil
        rw [key_cons hnil]
        constructor
        · rintro ⟨t, ht⟩
          rw [dir, append_assoc, cons_append] at ht
          obtain ⟨hds', htail⟩ := append_cons_inj hd hsl ht
          obtain ⟨rest, hrest, heq⟩ := hiff.mp ⟨t, htail⟩
          exact ⟨rest, hrest, by rw [hds', heq, cons_append]⟩
        · rintro ⟨rest, hrest, heq⟩
          obtain ⟨hsd, htail⟩ := cons.inj heq
          obtain ⟨t, ht⟩ := hiff.mpr ⟨rest, hrest, htail⟩
          exact ⟨t, by rw [dir, ← ht, hsd]; simp⟩

/-! ## 2. Hexadecimal segments -/

/-- The digit of a number below sixteen: `0`–`9`, `a`–`f`. -/
def nibble (n : Nat) : UInt8 := UInt8.ofNat (if n < 10 then 48 + n else 87 + n)

def hexEncode (text : Bytes) : Bytes :=
  text.flatMap fun byte => [nibble (byte.toNat / 16), nibble (byte.toNat % 16)]

def IsHex (byte : UInt8) : Prop :=
  48 ≤ byte.toNat ∧ byte.toNat ≤ 57 ∨ 97 ≤ byte.toNat ∧ byte.toNat ≤ 102

theorem nibble_toNat {n : Nat} (h : n < 16) :
    (nibble n).toNat = if n < 10 then 48 + n else 87 + n := by
  rw [nibble, UInt8.toNat_ofNat']
  split_ifs <;> omega

theorem nibble_injective {m n : Nat} (hm : m < 16) (hn : n < 16) (h : nibble m = nibble n) :
    m = n := by
  have := congrArg UInt8.toNat h
  rw [nibble_toNat hm, nibble_toNat hn] at this
  split_ifs at this <;> omega

theorem isHex_nibble {n : Nat} (h : n < 16) : IsHex (nibble n) := by
  unfold IsHex
  rw [nibble_toNat h]
  split_ifs <;> omega

theorem isHex_of_mem_hexEncode {text : Bytes} {byte : UInt8} (h : byte ∈ hexEncode text) :
    IsHex byte := by
  obtain ⟨source, -, hb⟩ := mem_flatMap.mp h
  have hlt := source.toNat_lt
  rcases mem_pair.mp hb with rfl | rfl
  · exact isHex_nibble (by omega)
  · exact isHex_nibble (by omega)

theorem slash_notMem_hexEncode (text : Bytes) : slash ∉ hexEncode text := by
  intro h
  have := isHex_of_mem_hexEncode h
  revert this
  unfold IsHex; decide

theorem hexEncode_injective {a b : Bytes} (h : hexEncode a = hexEncode b) : a = b := by
  induction a generalizing b with
  | nil =>
    cases b with
    | nil => rfl
    | cons => simp [hexEncode] at h
  | cons x a ih =>
    cases b with
    | nil => simp [hexEncode] at h
    | cons y =>
      have hx := x.toNat_lt
      have hy := y.toNat_lt
      simp only [hexEncode, flatMap_cons, cons_append, cons.injEq] at h
      obtain ⟨hhigh, hlow, hrest⟩ := h
      have hhigh := nibble_injective (by omega) (by omega) hhigh
      have hlow := nibble_injective (by omega) (by omega) hlow
      rw [ih hrest, UInt8.toNat_inj.mp (show x.toNat = y.toNat by omega)]

/-! ## 3. Order

A slash sorts below the digits, so segments in hexadecimal keep the order of the texts, the shorter
of two first. -/

theorem nibble_lt {m n : Nat} (hn : n < 16) (h : m < n) : nibble m < nibble n := by
  rw [UInt8.lt_iff_toNat_lt, nibble_toNat (by omega), nibble_toNat hn]
  split_ifs <;> omega

theorem hexEncode_cons (byte : UInt8) (text : Bytes) :
    hexEncode (byte :: text) =
      nibble (byte.toNat / 16) :: nibble (byte.toNat % 16) :: hexEncode text := rfl

theorem hexEncode_lt {a b : Bytes} (h : a < b) : hexEncode a < hexEncode b := by
  induction a generalizing b with
  | nil =>
    cases b with
    | nil => exact absurd h (irrefl_of (· < ·) ([] : Bytes))
    | cons => exact nil_lt_cons _ _
  | cons x a ih =>
    cases b with
    | nil => exact absurd h (not_lt_nil _)
    | cons y =>
      have hy := y.toNat_lt
      rw [hexEncode_cons, hexEncode_cons, cons_lt_cons_iff, cons_lt_cons_iff]
      rcases cons_lt_cons_iff.mp h with hxy | ⟨rfl, hab⟩
      · rw [UInt8.lt_iff_toNat_lt] at hxy
        -- the first digits differ, or the second ones do
        by_cases hhigh : x.toNat / 16 = y.toNat / 16
        · exact .inr ⟨by rw [hhigh], .inl (nibble_lt (by omega) (by omega))⟩
        · exact .inl (nibble_lt (by omega) (by omega))
      · exact .inr ⟨rfl, .inr ⟨rfl, ih hab⟩⟩

theorem slash_lt_of_isHex {byte : UInt8} (h : IsHex byte) : slash < byte := by
  rw [UInt8.lt_iff_toNat_lt]
  change 47 < byte.toNat
  unfold IsHex at h; omega

theorem segment_lt {a b : Bytes} (h : a < b) (hb : ∀ byte ∈ b, slash < byte) (x y : Bytes) :
    a ++ slash :: x < b ++ slash :: y := by
  induction a generalizing b with
  | nil =>
    cases b with
    | nil => exact absurd h (irrefl_of (· < ·) ([] : Bytes))
    | cons c => exact cons_lt_cons_iff.mpr (.inl (hb c mem_cons_self))
  | cons c a ih =>
    cases b with
    | nil => exact absurd h (not_lt_nil _)
    | cons =>
      refine cons_lt_cons_iff.mpr ?_
      rcases cons_lt_cons_iff.mp h with hcd | ⟨rfl, hab⟩
      · exact .inl hcd
      · exact .inr ⟨rfl, ih hab fun byte hbyte => hb byte (mem_cons_of_mem _ hbyte)⟩

end KeyPath
