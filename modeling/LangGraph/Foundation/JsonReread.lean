import LangGraph.Foundation.JsonLibrary

/-!
# Values that were written and read

What `Json.reread` does to a value, part by part: only NaN and the infinities are changed, and
every other value is read back as it was.
-/

namespace LangGraph

open Json

theorem Json.rereadFields_eq_map (fields : JsonObject) :
    rereadFields fields = fields.map fun entry => (entry.1, entry.2.reread) := by
  induction fields with
  | nil => rfl
  | cons entry fields ih => rw [rereadFields, ih, List.map_cons]

theorem Json.rereadItems_eq_map (items : List Json) :
    rereadItems items = items.map reread := by
  induction items with
  | nil => rfl
  | cons item items ih => rw [rereadItems, ih, List.map_cons]

theorem Json.rereadFields_set (k : Bytes) (value : Json) (fields : JsonObject) :
    rereadFields (OrderedMap.set k value fields) =
      OrderedMap.set k value.reread (rereadFields fields) := by
  induction fields with
  | nil => rfl
  | cons entry fields ih =>
    rw [OrderedMap.set, rereadFields, OrderedMap.set]
    split_ifs
    · rfl
    · rfl
    · rw [rereadFields, ih]

theorem Json.rereadFields_merge (fields updates : JsonObject) :
    rereadFields (OrderedMap.merge fields updates) =
      OrderedMap.merge (rereadFields fields) (rereadFields updates) := by
  induction updates generalizing fields with
  | nil => rfl
  | cons entry updates ih =>
    change rereadFields (OrderedMap.merge (OrderedMap.set entry.1 entry.2 fields) updates) = _
    rw [ih, rereadFields_set]; rfl

theorem Json.reread_object (entries : JsonObject) :
    (object entries).reread = object (entries.map fun entry => (entry.1, entry.2.reread)) := by
  rw [object, reread, rereadFields_merge, rereadFields_eq_map entries]
  rfl

mutual
theorem Json.finite_of_reread_eq : ∀ value : Json, value.reread = value → value.finite = true
  | .null, _ | .bool _, _ | .int _, _ | .float _, _ | .str _, _ => by simp [finite]
  | .nonFinite, h => by simp [reread] at h
  | .arr items, h => by
    rw [reread] at h
    rw [finite]; exact finiteItems_of_reread_eq items (arr.inj h)
  | .obj fields, h => by
    rw [reread] at h
    rw [finite]; exact finiteFields_of_reread_eq fields (obj.inj h)
theorem Json.finiteItems_of_reread_eq :
    ∀ items : List Json, rereadItems items = items → finiteItems items = true
  | [], _ => rfl
  | item :: items, h => by
    rw [rereadItems] at h
    obtain ⟨hitem, hitems⟩ := List.cons.inj h
    rw [finiteItems, finite_of_reread_eq item hitem, finiteItems_of_reread_eq items hitems]
    rfl
theorem Json.finiteFields_of_reread_eq :
    ∀ fields : JsonObject, rereadFields fields = fields → finiteFields fields = true
  | [], _ => rfl
  | (k, value) :: fields, h => by
    rw [rereadFields] at h
    obtain ⟨hentry, hfields⟩ := List.cons.inj h
    rw [finiteFields, finite_of_reread_eq value (Prod.mk.inj hentry).2,
      finiteFields_of_reread_eq fields hfields]
    rfl
end

end LangGraph
