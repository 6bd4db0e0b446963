import LangGraph.Foundation.Json
import LangGraph.Lib.ExceptList

/-!
# Records as JSON objects

Writers set the fields of a record one after another and leave some out; readers look each field
up, check its type and use a default where it is missing.
-/

namespace LangGraph

open ExceptList ByteString OrderedMap

/-! ## 1. Writing -/

def entryIf (condition : Bool) (key : String) (value : Json) : JsonObject :=
  if condition then [(lit key, value)] else []

def entryOf (key : String) (value : Option Json) : JsonObject :=
  match value with
  | some value => [(lit key, value)]
  | none => []

/-! ## 2. Reading -/

def invalid (message : String) : Status := .invalidArgument (lit message)

def expectString (message : String) : Json → Result Bytes
  | .str text => .ok text
  | _ => .error (invalid message)

def expectArray (message : String) : Json → Result (List Json)
  | .arr items => .ok items
  | _ => .error (invalid message)

def fieldOr {α : Type} (input : Json) (key : String) (default : α) (read : Json → Result α) : Result α :=
  match input.field (lit key) with
  | none => .ok default
  | some value => read value

/-! ## 3. Fields of written objects -/

/-- The object has under each key of the table what the table says. -/
def HasFields (input : Json) : List (String × Option Json) → Prop
  | [] => True
  | (key, found) :: rest => input.field (lit key) = found ∧ HasFields input rest

theorem field_object (entries : JsonObject) (k : Bytes) :
    (Json.object entries).field k = find k entries.reverse := by
  rw [Json.object, Json.field, find_merge, find_nil, Option.or_none]

@[simp] theorem reverse_entryIf (condition : Bool) (key : String) (value : Json) :
    (entryIf condition key value).reverse = entryIf condition key value := by
  cases condition <;> rfl

@[simp] theorem reverse_entryOf (key : String) (value : Option Json) :
    (entryOf key value).reverse = entryOf key value := by
  cases value <;> rfl

theorem find_entryIf (condition : Bool) (key : String) (value : Json) (k : String) :
    find (lit k) (entryIf condition key value) =
      if key = k ∧ condition then some value else none := by
  cases condition <;> simp [entryIf, find_cons, lit_inj]

theorem find_entryOf (key : String) (value : Option Json) (k : String) :
    find (lit k) (entryOf key value) = if key = k then value else none := by
  cases value <;> simp [entryOf, find_cons, lit_inj]

variable {key : String} {value : Json}

theorem mem_entryIf {condition : Bool} {entry : Bytes × Json}
    (h : entry ∈ entryIf condition key value) : entry.1 = lit key := by
  cases condition with
  | false => cases h
  | true => rw [List.mem_singleton.mp h]

theorem mem_entryOf {value : Option Json} {entry : Bytes × Json} (h : entry ∈ entryOf key value) :
    entry.1 = lit key := by
  cases value with
  | none => cases h
  | some => rw [List.mem_singleton.mp h]

section FieldOr

variable {α : Type} {input : Json} {key : String} {default x : α} {read : Json → Result α}

/-- A field reads as `x` if its default is `x` where it is missing and its value reads as `x` where
    it is not. -/
theorem fieldOr_ok {found : Option Json} (hfield : input.field (lit key) = found)
    (hnone : found = none → default = x) (hsome : ∀ value, found = some value → read value = .ok x) :
    fieldOr input key default read = .ok x := by
  rw [fieldOr, hfield]
  cases found with
  | none => exact congrArg Except.ok (hnone rfl)
  | some value => exact hsome value rfl

theorem fieldOr_entryIf {condition : Bool} {value : Json}
    (hfield : input.field (lit key) = if condition then some value else none)
    (hnone : condition = false → default = x) (hsome : read value = .ok x) :
    fieldOr input key default read = .ok x := by
  refine fieldOr_ok hfield (fun hmissing => hnone ?_) fun found hfound => ?_
  · cases condition with
    | false => rfl
    | true => cases hmissing
  · cases condition with
    | false => cases hfound
    | true =>
      cases hfound; exact hsome

end FieldOr

theorem expectArray_arr (message : String) (items : List Json) :
    expectArray message (.arr items) = .ok items := rfl

theorem fieldOr_string {input : Json} {text : Bytes} {message : String}
    (hfield : input.field (lit key) = if text ≠ [] then some (.str text) else none) :
    fieldOr input key [] (expectString message) = .ok text := by
  by_cases hempty : text = []
  · rw [fieldOr, hfield, if_neg (not_not.mpr hempty), hempty]
  · rw [fieldOr, hfield, if_pos hempty]; rfl

end LangGraph
