import LangGraph.Foundation.JsonLibrary
import LangGraph.Store.Types

/-!
# Where a filter fails

A filter with an operator that the store does not know fails on a number, and on nothing else.  So
whether there is a filter that fails on an item depends on where its value has numbers.
-/

namespace LangGraph

open ExceptList OrderedMap List

/-! ## 1. Numbers that a filter can come to -/

mutual
/-- A filter can come to a number of the value: it goes into arrays, and into objects by names that
    are not those of operators. -/
def Json.showsNumber : Json → Bool
  | .int _ | .float _ | .nonFinite => true
  | .arr items => Json.showsNumberItems items
  | .obj fields => Json.showsNumberFields fields
  | _ => false
def Json.showsNumberItems : List Json → Bool
  | [] => false
  | item :: items => item.showsNumber || Json.showsNumberItems items
def Json.showsNumberFields : JsonObject → Bool
  | [] => false
  | (key, value) :: fields =>
    !startsWithDollar key && value.showsNumber || Json.showsNumberFields fields
end

/-- The same for the value of an item, into which a filter goes by any name. -/
def Json.offersNumber : Json → Bool
  | .obj fields => fields.any fun entry => entry.2.showsNumber
  | _ => false

theorem Json.isNumber_of_shows {value : Json} (h : value.showsNumber = false) :
    value.isNumber = false := by
  cases value <;> first | rfl | cases h

theorem Json.showsNumberFields_eq_any (fields : JsonObject) :
    Json.showsNumberFields fields =
      fields.any fun entry => !startsWithDollar entry.1 && entry.2.showsNumber := by
  induction fields with
  | nil => rfl
  | cons entry fields ih => rw [Json.showsNumberFields, ih, any_cons]

theorem Json.showsNumber_of_mem {fields : JsonObject} {entry : Bytes × Json}
    (h : Json.showsNumberFields fields = false) (hentry : entry ∈ fields)
    (hkey : startsWithDollar entry.1 = false) : entry.2.showsNumber = false := by
  rw [Json.showsNumberFields_eq_any] at h
  simpa [hkey] using any_eq_false.mp h entry hentry

theorem Json.field_shows {value : Json} {key : Bytes} (h : value.showsNumber = false)
    (hkey : startsWithDollar key = false) :
    ((value.field key).getD .null).showsNumber = false := by
  cases hfield : value.field key with
  | none => rfl
  | some found =>
    cases value with
    | obj fields => exact Json.showsNumber_of_mem h (mem_of_find_eq_some hfield) hkey
    | _ => cases hfield

/-! ## 2. Values on which every filter can be evaluated -/

section

variable (order : JsonOrder) {value : Json}

theorem applyStoreFilterOperators_total (h : value.isNumber = false) (fields : JsonObject) :
    ∃ matched, applyStoreFilterOperators order value fields = .ok matched := by
  induction fields with
  | nil => exact ⟨true, rfl⟩
  | cons entry fields ih =>
    obtain ⟨op, expected⟩ := entry
    obtain ⟨matched, hmatched⟩ : ∃ matched,
        applyStoreFilterOperator order value op expected = .ok matched := by
      unfold applyStoreFilterOperator
      split_ifs with heq hne hnumbers
      · exact ⟨_, rfl⟩
      · exact ⟨_, rfl⟩
      · exact ⟨_, rfl⟩
      all_goals simp [h] at hnumbers
    rw [applyStoreFilterOperators, hmatched, ok_bind]
    cases matched with
    | false => exact ⟨false, rfl⟩
    | true => exact ih

mutual
theorem compareStoreFilterValue_total : ∀ (filter value : Json), value.showsNumber = false →
    ∃ matched, compareStoreFilterValue order value filter = .ok matched
  | .obj fields, value, h => by
    rw [compareStoreFilterValue]
    split_ifs with hoperators hobject
    · exact applyStoreFilterOperators_total order (Json.isNumber_of_shows h) fields
    · exact ⟨_, rfl⟩
    · refine compareStoreFilterObject_total fields value h fun entry hentry => ?_
      simpa using any_eq_false.mp (Bool.eq_false_iff.mpr hoperators) entry hentry
  | .arr items, .arr values, h => by
    rw [compareStoreFilterValue]
    split_ifs
    · exact ⟨_, rfl⟩
    · exact compareStoreFilterArray_total items values h
  | .arr items, .null, _ | .arr items, .bool _, _ | .arr items, .int _, _ | .arr items, .float _, _
  | .arr items, .nonFinite, _ | .arr items, .str _, _ | .arr items, .obj _, _ =>
    ⟨_, by rw [compareStoreFilterValue]; simp⟩
  | .null, _, _ | .bool _, _, _ | .int _, _, _ | .float _, _, _ | .nonFinite, _, _ | .str _, _, _ =>
    ⟨_, by rw [compareStoreFilterValue] <;> simp⟩
theorem compareStoreFilterObject_total : ∀ (fields : JsonObject) (value : Json),
    value.showsNumber = false → (∀ entry ∈ fields, startsWithDollar entry.1 = false) →
    ∃ matched, compareStoreFilterObject order value fields = .ok matched
  | [], _, _, _ => ⟨true, by rw [compareStoreFilterObject]⟩
  | (key, expected) :: fields, value, h, hplain => by
    obtain ⟨hkey, hplain⟩ := forall_mem_cons.mp hplain
    obtain ⟨matched, hmatched⟩ := compareStoreFilterValue_total expected _ (Json.field_shows h hkey)
    rw [compareStoreFilterObject, if_neg (by simp [hkey]), hmatched, ok_bind]
    cases matched with
    | false => exact ⟨false, rfl⟩
    | true => exact compareStoreFilterObject_total fields value h hplain
theorem compareStoreFilterArray_total : ∀ items values : List Json,
    Json.showsNumberItems values = false →
    ∃ matched, compareStoreFilterArray order values items = .ok matched
  | [], values, _ => ⟨true, by cases values <;> rw [compareStoreFilterArray] <;> simp⟩
  | _ :: _, [], _ => ⟨true, by rw [compareStoreFilterArray]; simp⟩
  | expected :: items, value :: values, h => by
    rw [Json.showsNumberItems, Bool.or_eq_false_iff] at h
    obtain ⟨matched, hmatched⟩ := compareStoreFilterValue_total expected value h.1
    rw [compareStoreFilterArray, hmatched, ok_bind]
    cases matched with
    | false => exact ⟨false, rfl⟩
    | true => exact compareStoreFilterArray_total items values h.2
end

/-- No filter fails on an item whose value offers it no number. -/
theorem storeItemMatchesFilter_total {τ : Type} {item : StoreItem τ}
    (h : item.value.offersNumber = false) (fields : JsonObject) :
    ∃ matched, storeItemMatchesFilter order item (some (.obj fields)) = .ok matched := by
  change ∃ matched, storeValueMatchesFields order item.value fields = .ok matched
  induction fields with
  | nil => exact ⟨true, rfl⟩
  | cons entry fields ih =>
    obtain ⟨key, expected⟩ := entry
    have hfield : ((item.value.field key).getD .null).showsNumber = false := by
      cases hfound : item.value.field key with
      | none => rfl
      | some found =>
        cases hvalue : item.value with
        | obj inner =>
          rw [hvalue] at h hfound
          simpa using any_eq_false.mp h _ (mem_of_find_eq_some hfound)
        | _ => rw [hvalue] at hfound; cases hfound
    obtain ⟨matched, hmatched⟩ := compareStoreFilterValue_total order expected _ hfield
    rw [storeValueMatchesFields, hmatched, ok_bind]
    cases matched with
    | false => exact ⟨false, rfl⟩
    | true => exact ih

/-! ## 3. A filter that fails -/

variable {isDouble : Bytes → Bool}

theorem find_of_lawful {fields : JsonObject} {entry : Bytes × Json}
    (h : (Json.obj fields).lawful isDouble = true) (hentry : entry ∈ fields) :
    find entry.1 fields = some entry.2 := by
  rw [Json.lawful, Bool.and_eq_true, decide_eq_true_eq] at h
  exact h.1.find_eq_some_iff.mpr hentry

/-- A value without NaN is equal to itself. -/
def JsonOrder.SelfEqual (order : JsonOrder) : Prop :=
  ∀ value : Json, value.finite = true → order.equal value value = true

variable {order}

theorem compareStoreFilterValue_self (hself : order.SelfEqual) (h : value.finite = true) :
    compareStoreFilterValue order value (.obj [(lit "$eq", value)]) = .ok true := by
  rw [compareStoreFilterValue, if_pos (show isStoreFilterOperatorObject _ = true from rfl)]
  simp [applyStoreFilterOperators, applyStoreFilterOperator, hself value h]

mutual
theorem exists_filter_error (hself : order.SelfEqual) : ∀ value : Json,
    value.lawful isDouble = true → value.finite = true → value.showsNumber = true →
    ∃ filter status, compareStoreFilterValue order value filter = .error status
  | .int _, _, _, _ | .float _, _, _, _ =>
    ⟨.obj [(lit "$", .int 0)], .invalidArgument (lit "unsupported store filter operator: $"), by
      rw [compareStoreFilterValue, if_pos (show isStoreFilterOperatorObject _ = true from rfl)]
      rfl⟩
  | .nonFinite, _, hfinite, _ => by cases hfinite
  | .null, _, _, h | .bool _, _, _, h | .str _, _, _, h => by cases h
  | .arr items, hlawful, hfinite, h => by
    obtain ⟨filters, status, hlength, herror⟩ := exists_filters_error hself items hlawful hfinite h
    refine ⟨.arr filters, status, ?_⟩
    rw [compareStoreFilterValue, if_neg (by simp [hlength])]; exact herror
  | .obj fields, hlawful, hfinite, h => by
    have hfields := (Bool.and_eq_true_iff.mp hlawful).2
    rw [Json.showsNumber, Json.showsNumberFields_eq_any] at h
    obtain ⟨entry, hentry, hplain, filter, status, herror⟩ :=
      exists_field_error hself (fun key => !startsWithDollar key) fields hfields hfinite h
    have hkey : startsWithDollar entry.1 = false := by simpa using hplain
    refine ⟨.obj [(entry.1, filter)], status, ?_⟩
    rw [compareStoreFilterValue, if_neg (by simp [isStoreFilterOperatorObject, hkey]),
      if_neg (by simp [Json.isObject]), compareStoreFilterObject, if_neg (by simp [hkey]),
      Json.field, find_of_lawful hlawful hentry, Option.getD_some, herror]
    rfl
theorem exists_filters_error (hself : order.SelfEqual) : ∀ items : List Json,
    Json.lawfulItems isDouble items = true →
    Json.finiteItems items = true → Json.showsNumberItems items = true →
    ∃ filters status, filters.length = items.length ∧
      compareStoreFilterArray order items filters = .error status
  | [], _, _, h => by cases h
  | item :: items, hlawful, hfinite, h => by
    rw [Json.lawfulItems, Bool.and_eq_true] at hlawful
    rw [Json.finiteItems, Bool.and_eq_true] at hfinite
    rw [Json.showsNumberItems, Bool.or_eq_true] at h
    rcases h with h | h
    · obtain ⟨filter, status, herror⟩ := exists_filter_error hself item hlawful.1 hfinite.1 h
      refine ⟨filter :: items, status, rfl, ?_⟩
      rw [compareStoreFilterArray, herror]; rfl
    · -- the first item is matched with itself
      obtain ⟨filters, status, hlength, herror⟩ :=
        exists_filters_error hself items hlawful.2 hfinite.2 h
      refine ⟨.obj [(lit "$eq", item)] :: filters, status, by simp [hlength], ?_⟩
      rw [compareStoreFilterArray, compareStoreFilterValue_self hself hfinite.1]
      exact herror
theorem exists_field_error (hself : order.SelfEqual) (p : Bytes → Bool) : ∀ fields : JsonObject,
    Json.lawfulFields isDouble fields = true → Json.finiteFields fields = true →
    (fields.any fun entry => p entry.1 && entry.2.showsNumber) = true →
    ∃ entry ∈ fields, p entry.1 = true ∧
      ∃ filter status, compareStoreFilterValue order entry.2 filter = .error status
  | [], _, _, h => by cases h
  | (key, value) :: fields, hlawful, hfinite, h => by
    rw [Json.lawfulFields, Bool.and_eq_true] at hlawful
    rw [Json.finiteFields, Bool.and_eq_true] at hfinite
    rw [any_cons, Bool.or_eq_true, Bool.and_eq_true] at h
    rcases h with ⟨hkey, h⟩ | h
    · exact ⟨_, mem_cons_self, hkey, exists_filter_error hself value hlawful.1 hfinite.1 h⟩
    · obtain ⟨entry, hentry, hkey, herror⟩ := exists_field_error hself p fields hlawful.2 hfinite.2 h
      exact ⟨entry, mem_cons_of_mem _ hentry, hkey, herror⟩
end

/-- There is a filter that fails on an item whose value offers it a number. -/
theorem exists_itemFilter_error {τ : Type} {item : StoreItem τ} (hself : order.SelfEqual)
    (hlawful : item.value.lawful isDouble = true) (hfinite : item.value.finite = true)
    (h : item.value.offersNumber = true) :
    ∃ fields status, storeItemMatchesFilter order item (some (.obj fields)) = .error status := by
  cases hvalue : item.value with
  | obj fields =>
    rw [hvalue] at hlawful hfinite h
    have hfields := (Bool.and_eq_true_iff.mp hlawful).2
    obtain ⟨entry, hentry, -, filter, status, herror⟩ := exists_field_error hself
      (fun _ => true) fields hfields hfinite (by simpa [Json.offersNumber] using h)
    refine ⟨[(entry.1, filter)], status, ?_⟩
    rw [storeItemMatchesFilter, storeValueMatchesFields, hvalue, Json.field,
      find_of_lawful hlawful hentry, Option.getD_some, herror]
    rfl
  | _ => rw [hvalue] at h; cases h

end

end LangGraph
