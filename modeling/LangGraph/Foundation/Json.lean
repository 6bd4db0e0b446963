import LangGraph.Foundation.Status
import LangGraph.Lib.OrderedMap

/-!
# JSON values

The `nlohmann::json` values the runtime carries.  Signed and unsigned integers that compare equal
are one value; a nonnegative one answers `is_number_unsigned`.  A finite floating-point number is
identified with its dump text, and NaN and the infinities, which all dump as `null`, are one value.
Objects list their fields in key order, as `std::map` does.
-/

namespace LangGraph

inductive Json where
  | null
  | bool (b : Bool)
  | int (i : Int)
  | float (text : Bytes)
  | nonFinite
  | str (text : Bytes)
  | arr (items : List Json)
  | obj (fields : List (Bytes × Json))

abbrev JsonObject := List (Bytes × Json)

namespace Json

instance : Inhabited Json := ⟨.null⟩

/-! ## 1. Decidable equality -/

mutual
def beq : Json → Json → Bool
  | .null, .null => true
  | .bool a, .bool b => a == b
  | .int a, .int b => a == b
  | .float a, .float b => a == b
  | .nonFinite, .nonFinite => true
  | .str a, .str b => a == b
  | .arr as, .arr bs => beqItems as bs
  | .obj as, .obj bs => beqFields as bs
  | _, _ => false
def beqItems : List Json → List Json → Bool
  | [], [] => true
  | a :: as, b :: bs => beq a b && beqItems as bs
  | _, _ => false
def beqFields : JsonObject → JsonObject → Bool
  | [], [] => true
  | (k, a) :: as, (l, b) :: bs => k == l && beq a b && beqFields as bs
  | _, _ => false
end

mutual
theorem eq_of_beq : ∀ (a b : Json), beq a b = true → a = b
  | .null, b, h => by cases b <;> simp_all [beq]
  | .bool _, b, h => by cases b <;> simp_all [beq]
  | .int _, b, h => by cases b <;> simp_all [beq]
  | .float _, b, h => by cases b <;> simp_all [beq]
  | .nonFinite, b, h => by cases b <;> simp_all [beq]
  | .str _, b, h => by cases b <;> simp_all [beq]
  | .arr as, b, h => by
    cases b with
    | arr bs => rw [eq_of_beqItems as bs (by simpa [beq] using h)]
    | _ => simp [beq] at h
  | .obj as, b, h => by
    cases b with
    | obj bs => rw [eq_of_beqFields as bs (by simpa [beq] using h)]
    | _ => simp [beq] at h
theorem eq_of_beqItems : ∀ (as bs : List Json), beqItems as bs = true → as = bs
  | [], bs, h => by cases bs <;> simp_all [beqItems]
  | a :: as, bs, h => by
    cases bs with
    | nil => simp [beqItems] at h
    | cons b bs =>
      rw [beqItems, Bool.and_eq_true] at h
      rw [eq_of_beq a b h.1, eq_of_beqItems as bs h.2]
theorem eq_of_beqFields : ∀ (as bs : JsonObject), beqFields as bs = true → as = bs
  | [], bs, h => by cases bs <;> simp_all [beqFields]
  | (k, a) :: as, bs, h => by
    cases bs with
    | nil => simp [beqFields] at h
    | cons entry bs =>
      obtain ⟨l, b⟩ := entry
      rw [beqFields, Bool.and_eq_true, Bool.and_eq_true, beq_iff_eq] at h
      rw [h.1.1, eq_of_beq a b h.1.2, eq_of_beqFields as bs h.2]
end

mutual
theorem beq_self : ∀ a : Json, beq a a = true
  | .null | .nonFinite => by simp [beq]
  | .bool _ | .int _ | .float _ | .str _ => by simp [beq]
  | .arr as => by simpa [beq] using beqItems_self as
  | .obj as => by simpa [beq] using beqFields_self as
theorem beqItems_self : ∀ as : List Json, beqItems as as = true
  | [] => by simp [beqItems]
  | a :: as => by simp [beqItems, beq_self a, beqItems_self as]
theorem beqFields_self : ∀ as : JsonObject, beqFields as as = true
  | [] => by simp [beqFields]
  | (_, a) :: as => by simp [beqFields, beq_self a, beqFields_self as]
end

instance : DecidableEq Json := fun a b =>
  if h : beq a b = true then isTrue (eq_of_beq a b h)
  else isFalse fun e => h (e ▸ beq_self a)

/-! ## 2. Reading values -/

def isObject : Json → Bool
  | .obj _ => true
  | _ => false

def isArray : Json → Bool
  | .arr _ => true
  | _ => false

def isNull : Json → Bool
  | .null => true
  | _ => false

/-- The field of an object, if the value is an object that has it. -/
def field (k : Bytes) : Json → Option Json
  | .obj fields => OrderedMap.find k fields
  | _ => none

def isEmpty : Json → Bool
  | .null => true
  | .arr items => items.isEmpty
  | .obj fields => fields.isEmpty
  | _ => false

def ofNat (n : Nat) : Json := .int n

def ofText (s : String) : Json := .str (lit s)

/-- An object literal: the entries set one after another. -/
def object (entries : List (Bytes × Json)) : Json := .obj (OrderedMap.merge [] entries)

end Json

end LangGraph
