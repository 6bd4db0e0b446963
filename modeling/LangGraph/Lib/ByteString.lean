import Mathlib

/-!
# Byte strings

A string of the modelled programs is a list of bytes.  This file holds what is needed of such
strings: text literals, the decimal text of a number, length-prefixed text, which can be read
back from the front of a longer string, and that the order of `<` is total.
-/

namespace ByteString

open List

abbrev Bytes := List UInt8

instance : LawfulBEq Bytes := inferInstance

def lit (s : String) : Bytes := s.toUTF8.data.toList

theorem lit_inj {s t : String} : lit s = lit t ↔ s = t := by
  constructor
  · intro h
    have hbytes : s.toUTF8 = t.toUTF8 := ByteArray.ext (Array.toList_inj.mp h)
    exact String.toByteArray_inj.mp hbytes
  · rintro rfl; rfl

def occursIn (pattern : Bytes) : Bytes → Bool
  | [] => pattern.isEmpty
  | byte :: text => pattern.isPrefixOf (byte :: text) || occursIn pattern text

def digit (d : Nat) : UInt8 := UInt8.ofNat (48 + d)

/-- Decimal digits of `n`, most significant first; `fuel` bounds their number. -/
def decimalLoop : Nat → Nat → Bytes
  | 0, _ => []
  | fuel + 1, n =>
    if n < 10 then [digit n] else decimalLoop fuel (n / 10) ++ [digit (n % 10)]

def decimal (n : Nat) : Bytes := decimalLoop (n + 1) n

def digitsValue (text : Bytes) : Nat :=
  text.foldl (fun value byte => 10 * value + (byte.toNat - 48)) 0

theorem digitsValue_append_one (text : Bytes) (byte : UInt8) :
    digitsValue (text ++ [byte]) = 10 * digitsValue text + (byte.toNat - 48) := by
  simp [digitsValue]

theorem digit_toNat {d : Nat} (h : d < 10) : (digit d).toNat = 48 + d := by
  simp only [digit, UInt8.toNat_ofNat']; omega

theorem digitsValue_decimalLoop {fuel n : Nat} (h : n < fuel) :
    digitsValue (decimalLoop fuel n) = n := by
  induction fuel generalizing n with
  | zero => omega
  | succ fuel ih =>
    rw [decimalLoop]
    split
    · have hd := digit_toNat (d := n) (by omega); simp [digitsValue, hd]
    · rw [digitsValue_append_one, ih (by omega), digit_toNat (by omega)]; omega

@[simp] theorem digitsValue_decimal (n : Nat) : digitsValue (decimal n) = n :=
  digitsValue_decimalLoop (Nat.lt_succ_self n)

theorem decimal_injective {m n : Nat} (h : decimal m = decimal n) : m = n := by
  rw [← digitsValue_decimal m, h, digitsValue_decimal]

theorem decimalLoop_ne_nil (fuel n : Nat) : decimalLoop (fuel + 1) n ≠ [] := by
  rw [decimalLoop]
  split <;> simp

theorem decimal_ne_nil (n : Nat) : decimal n ≠ [] := decimalLoop_ne_nil n n

theorem mem_decimalLoop {fuel n : Nat} {byte : UInt8} (h : byte ∈ decimalLoop fuel n) :
    48 ≤ byte.toNat ∧ byte.toNat ≤ 57 := by
  induction fuel generalizing n with
  | zero => simp [decimalLoop] at h
  | succ fuel ih =>
    rw [decimalLoop] at h
    split at h
    · rw [mem_singleton.mp h, digit_toNat (by omega)]; omega
    · rcases mem_append.mp h with h | h
      · exact ih h
      · rw [mem_singleton.mp h, digit_toNat (by omega)]; omega

theorem notMem_decimal {n : Nat} {byte : UInt8} (h : byte.toNat < 48 ∨ 57 < byte.toNat) :
    byte ∉ decimal n := by
  intro hm
  have := mem_decimalLoop hm; omega

/-! ## 2. Length-prefixed text -/

def colon : UInt8 := 58

def sized (text : Bytes) : Bytes := decimal text.length ++ colon :: text

theorem append_cons_inj {c : UInt8} {a b x y : Bytes} (ha : c ∉ a) (hb : c ∉ b)
    (h : a ++ c :: x = b ++ c :: y) : a = b ∧ x = y := by
  induction a generalizing b with
  | nil =>
    cases b with
    | nil => exact ⟨rfl, (cons.inj h).2⟩
    | cons => exact absurd (mem_cons.mpr (.inl (cons.inj h).1)) hb
  | cons d a ih =>
    cases b with
    | nil => exact absurd (mem_cons.mpr (.inl (cons.inj h).1.symm)) ha
    | cons =>
      rw [mem_cons, not_or] at ha hb
      obtain ⟨hde, htail⟩ := cons.inj h
      obtain ⟨hab, hxy⟩ := ih ha.2 hb.2 htail
      exact ⟨by rw [hde, hab], hxy⟩

theorem colon_notMem_decimal (n : Nat) : colon ∉ decimal n :=
  notMem_decimal (Or.inr (by decide))

theorem sized_append_inj {a b x y : Bytes} (h : sized a ++ x = sized b ++ y) :
    a = b ∧ x = y := by
  simp only [sized, append_assoc] at h
  obtain ⟨hlen, hrest⟩ := append_cons_inj (colon_notMem_decimal _) (colon_notMem_decimal _) h
  exact append_inj hrest (decimal_injective hlen)

theorem sized_injective {a b : Bytes} (h : sized a = sized b) : a = b :=
  (sized_append_inj (x := []) (y := []) (by simpa using h)).1

/-! ## 3. Order -/

instance uInt8Order : IsStrictTotalOrder UInt8 (· < ·) where
  irrefl _ := UInt8.lt_irrefl _
  trans _ _ _ := UInt8.lt_trans
  trichotomous a b hab hba := by
    rw [UInt8.lt_iff_toNat_lt] at hab hba; exact UInt8.toNat_inj.mp (by omega)

instance : IsStrictTotalOrder Bytes (· < ·) :=
  have hweak : IsStrictWeakOrder Bytes (List.Lex (· < ·)) := isStrictWeakOrder_of_isOrderConnected
  { List.Lex.trichotomous (α := UInt8) (· < ·), hweak with }

end ByteString
