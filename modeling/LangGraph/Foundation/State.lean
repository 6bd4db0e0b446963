import LangGraph.Foundation.Json

/-!
# Limits on JSON values, and `State`

`validateJsonValueLimits` walks a value with an explicit stack; section 2 says what it accepts.  A
`State` is a JSON object that the walk accepts, as every constructor of the source checks at the
boundary.  The limits are an argument there; the runtime builds all its states under the default
ones.
-/

namespace LangGraph

open Json Bool

/-! ## 1. The walk -/

/-- The limits of `JsonDecodeLimits`; zero means no limit. -/
structure JsonDecodeLimits where
  maxBytes : Nat := 64 * 1024 * 1024
  maxDepth : Nat := 64
  maxStringBytes : Nat := 1024 * 1024
  maxArrayItems : Nat := 100000
  maxObjectFields : Nat := 4096
  maxNodes : Nat := 1000000
def exceedsJsonLimit (value limit : Nat) : Bool := limit ≠ 0 && limit < value

mutual
def Json.nodes : Json → Nat
  | .arr items => 1 + Json.nodesItems items
  | .obj fields => 1 + Json.nodesFields fields
  | _ => 1
def Json.nodesItems : List Json → Nat
  | [] => 0
  | item :: items => item.nodes + Json.nodesItems items
def Json.nodesFields : JsonObject → Nat
  | [] => 0
  | (_, value) :: fields => value.nodes + Json.nodesFields fields
end

section Walk

variable (label : Bytes) (limits : JsonDecodeLimits)

/-- Checks one value; its children, in order, are what the source pushes on the stack. -/
def visitJsonValue : Json → Result (List Json)
  | .str text =>
    if exceedsJsonLimit text.length limits.maxStringBytes then
      .error (.resourceExhausted (label ++ lit " JSON string is too large"))
    else .ok []
  | .arr items =>
    if exceedsJsonLimit items.length limits.maxArrayItems then
      .error (.resourceExhausted (label ++ lit " JSON array is too large"))
    else .ok items
  | .obj fields =>
    if exceedsJsonLimit fields.length limits.maxObjectFields then
      .error (.resourceExhausted (label ++ lit " JSON object has too many fields"))
    else .ok (fields.map Prod.snd)
  | _ => .ok []

/-- The loop over the stack; `fuel` is at least the number of values still to be visited. -/
def validateJsonValueLoop : Nat → Nat → List Json → Result Unit
  | 0, _, _ => .ok ()
  | _ + 1, _, [] => .ok ()
  | fuel + 1, nodes, current :: stack =>
    if exceedsJsonLimit (nodes + 1) limits.maxNodes then
      .error (.resourceExhausted (label ++ lit " JSON has too many nodes"))
    else match visitJsonValue label limits current with
      | .error status => .error status
      | .ok children => validateJsonValueLoop fuel (nodes + 1) (children.reverse ++ stack)

def validateJsonValueLimits (value : Json) : Result Unit :=
  validateJsonValueLoop label limits value.nodes 0 [value]

end Walk

/-! ## 2. What the walk accepts -/

mutual
/-- Strings, arrays and objects of the value are within their limits. -/
def Json.sizesWithin (limits : JsonDecodeLimits) : Json → Bool
  | .str text => !exceedsJsonLimit text.length limits.maxStringBytes
  | .arr items =>
    !exceedsJsonLimit items.length limits.maxArrayItems && Json.itemsWithin limits items
  | .obj fields =>
    !exceedsJsonLimit fields.length limits.maxObjectFields && Json.fieldsWithin limits fields
  | _ => true
def Json.itemsWithin (limits : JsonDecodeLimits) : List Json → Bool
  | [] => true
  | item :: items => item.sizesWithin limits && Json.itemsWithin limits items
def Json.fieldsWithin (limits : JsonDecodeLimits) : JsonObject → Bool
  | [] => true
  | (_, value) :: fields => value.sizesWithin limits && Json.fieldsWithin limits fields
end

def Json.withinLimits (limits : JsonDecodeLimits) (value : Json) : Bool :=
  value.sizesWithin limits && !exceedsJsonLimit value.nodes limits.maxNodes

theorem Json.nodes_pos (value : Json) : 0 < value.nodes := by
  cases value <;> simp only [nodes] <;> omega

theorem Json.nodesItems_append (a b : List Json) :
    nodesItems (a ++ b) = nodesItems a + nodesItems b := by
  induction a with
  | nil => simp [nodesItems]
  | cons item a ih => simp [nodesItems, ih, Nat.add_assoc]

theorem Json.nodesItems_reverse (a : List Json) :
    nodesItems a.reverse = nodesItems a := by
  induction a with
  | nil => rfl
  | cons item a ih => simp [nodesItems, nodesItems_append, ih, Nat.add_comm]

theorem Json.nodesItems_map_snd (fields : JsonObject) :
    nodesItems (fields.map Prod.snd) = nodesFields fields := by
  induction fields with
  | nil => rfl
  | cons entry fields ih => simp [nodesItems, nodesFields, ih]

variable {limits : JsonDecodeLimits}

theorem Json.itemsWithin_iff {items : List Json} :
    itemsWithin limits items = true ↔ ∀ item ∈ items, item.sizesWithin limits = true := by
  induction items with
  | nil => simp [itemsWithin]
  | cons item items ih => simp [itemsWithin, ih]

theorem Json.itemsWithin_map_snd (limits : JsonDecodeLimits) (fields : JsonObject) :
    itemsWithin limits (fields.map Prod.snd) = fieldsWithin limits fields := by
  induction fields with
  | nil => rfl
  | cons entry fields ih => simp [itemsWithin, fieldsWithin, ih]

theorem exceedsJsonLimit_eq_false {value limit : Nat} :
    exceedsJsonLimit value limit = false ↔ limit = 0 ∨ value ≤ limit := by
  simp [exceedsJsonLimit]
  omega

theorem visitJsonValue_cases (label : Bytes) (limits : JsonDecodeLimits) (value : Json) :
    (∃ status, visitJsonValue label limits value = .error status ∧
      value.sizesWithin limits = false) ∨
    ∃ children, visitJsonValue label limits value = .ok children ∧
      1 + nodesItems children = value.nodes ∧
      value.sizesWithin limits = itemsWithin limits children := by
  cases value with
  | str text =>
    by_cases hs : exceedsJsonLimit text.length limits.maxStringBytes = true
    · exact .inl ⟨_, if_pos hs, by simp [sizesWithin, hs]⟩
    · exact .inr ⟨[], if_neg hs, rfl, by simp [sizesWithin, hs, itemsWithin]⟩
  | arr items =>
    by_cases hs : exceedsJsonLimit items.length limits.maxArrayItems = true
    · exact .inl ⟨_, if_pos hs, by simp [sizesWithin, hs]⟩
    · exact .inr ⟨items, if_neg hs, rfl, by simp [sizesWithin, hs]⟩
  | obj fields =>
    by_cases hs : exceedsJsonLimit fields.length limits.maxObjectFields = true
    · exact .inl ⟨_, if_pos hs, by simp [sizesWithin, hs]⟩
    · refine .inr ⟨fields.map Prod.snd, if_neg hs, ?_, ?_⟩
      · rw [nodesItems_map_snd, nodes]
      · simp [sizesWithin, hs, itemsWithin_map_snd]
  | null | bool | int | float | nonFinite => exact .inr ⟨[], rfl, rfl, rfl⟩

/-- The loop accepts exactly the stacks whose values have sizes within the limits and whose total
    number of values, added to those already visited, is within the node limit. -/
theorem validateJsonValueLoop_ok_iff (label : Bytes) (limits : JsonDecodeLimits)
    (fuel nodes : Nat) (stack : List Json) (hfuel : nodesItems stack ≤ fuel)
    (hnodes : exceedsJsonLimit nodes limits.maxNodes = false) :
    validateJsonValueLoop label limits fuel nodes stack = .ok () ↔ itemsWithin limits stack = true ∧
        exceedsJsonLimit (nodes + nodesItems stack) limits.maxNodes = false := by
  induction fuel generalizing nodes stack with
  | zero =>
    cases stack with
    | nil => simpa [validateJsonValueLoop, nodesItems, itemsWithin] using hnodes
    | cons value =>
      have := value.nodes_pos
      simp only [nodesItems] at hfuel; omega
  | succ fuel ih =>
    cases stack with
    | nil => simpa [validateJsonValueLoop, nodesItems, itemsWithin] using hnodes
    | cons value stack =>
      have hpos := value.nodes_pos
      simp only [nodesItems] at hfuel
      rw [validateJsonValueLoop, itemsWithin, nodesItems]
      by_cases hone : exceedsJsonLimit (nodes + 1) limits.maxNodes = true
      · rw [if_pos hone]
        simp only [exceedsJsonLimit, and_eq_true, decide_eq_true_eq] at hone
        simp only [reduceCtorEq, exceedsJsonLimit_eq_false, false_iff]; omega
      · rw [if_neg hone]
        rcases visitJsonValue_cases label limits value with ⟨status, hv, hw⟩ | ⟨children, hv, hc, hw⟩
        · simp [hv, hw]
        · -- the children replace the value on the stack, and the total stays the same
          have hsum : nodes + 1 + nodesItems (children.reverse ++ stack)
              = nodes + (value.nodes + nodesItems stack) := by
            rw [nodesItems_append, nodesItems_reverse]; omega
          rw [hv, hw]
          show validateJsonValueLoop label limits fuel (nodes + 1) (children.reverse ++ stack) = _ ↔ _
          rw [ih _ _ (by rw [nodesItems_append, nodesItems_reverse]; omega)
            (eq_false_iff.mpr hone), hsum, and_eq_true]
          simp only [itemsWithin_iff, List.mem_append, List.mem_reverse, or_imp, forall_and]

theorem validateJsonValueLimits_ok_iff {label : Bytes} {value : Json} :
    validateJsonValueLimits label limits value = .ok () ↔ value.withinLimits limits = true := by
  rw [validateJsonValueLimits, validateJsonValueLoop_ok_iff label limits _ _ _
    (by simp [nodesItems]) (by simp [exceedsJsonLimit])]
  simp [withinLimits, nodesItems, itemsWithin]

theorem Json.withinLimits_of_sublist {fewer fields : JsonObject} (hsub : fewer.Sublist fields)
    (h : (obj fields).withinLimits limits = true) :
    (obj fewer).withinLimits limits = true := by
  have hfields : fieldsWithin limits fields = true → fieldsWithin limits fewer = true := by
    clear h
    induction hsub with
    | slnil => exact id
    | cons entry _ ih =>
      intro hall
      simp only [fieldsWithin, and_eq_true] at hall; exact ih hall.2
    | cons_cons entry _ ih =>
      intro hall
      simp only [fieldsWithin, and_eq_true] at hall ⊢
      exact ⟨hall.1, ih hall.2⟩
  have hnodes : nodesFields fewer ≤ nodesFields fields := by
    clear h hfields
    induction hsub with
    | slnil => exact Nat.le_refl _
    | cons | cons_cons =>
      simp only [nodesFields]; omega
  have hlength := hsub.length_le
  simp only [withinLimits, sizesWithin, nodes, and_eq_true, not_eq_true',
    exceedsJsonLimit_eq_false] at h ⊢
  obtain ⟨⟨hcount, hvalues⟩, htotal⟩ := h
  exact ⟨⟨by omega, hfields hvalues⟩, by omega⟩

/-! ## 3. `State` -/

abbrev JsonDecodeLimits.standard : JsonDecodeLimits := {}

structure State (limits : JsonDecodeLimits := .standard) where
  view : JsonObject
  valid : validateJsonValueLimits (lit "state") limits (.obj view) = .ok ()

namespace State

theorem ext {s t : State limits} (h : s.view = t.view) : s = t := by
  cases s; cases t; cases h; rfl

instance : DecidableEq (State limits) := fun s t =>
  if h : s.view = t.view then isTrue (ext h) else isFalse fun e => h (congrArg view e)

def fromJsonValue : Json → Result State
  | .obj fields =>
    match h : validateJsonValueLimits (lit "state") {} (.obj fields) with
    | .ok () => .ok ⟨fields, h⟩
    | .error status => .error status
  | _ => .error (.invalidArgument (lit "state must be a JSON object"))

/-- The empty object is one value, which no limit refuses. -/
def empty : State limits := ⟨[], validateJsonValueLimits_ok_iff.mpr (by
  simp [withinLimits, sizesWithin, fieldsWithin, nodes, nodesFields, exceedsJsonLimit])⟩

@[simp] theorem fromJsonValue_view (s : State) : fromJsonValue (.obj s.view) = .ok s := by
  simp only [fromJsonValue]
  split
  · rfl
  · rename_i status h
    rw [s.valid] at h; cases h

theorem view_of_fromJsonValue {fields : JsonObject} {s : State}
    (h : fromJsonValue (.obj fields) = .ok s) : s.view = fields := by
  simp only [fromJsonValue] at h
  split at h
  · cases h; rfl
  · cases h

theorem fromJsonValue_ok_iff {fields : JsonObject} :
    (∃ s, fromJsonValue (.obj fields) = .ok s) ↔ (obj fields).withinLimits {} = true := by
  rw [← validateJsonValueLimits_ok_iff]
  constructor
  · rintro ⟨s, h⟩
    rw [← view_of_fromJsonValue h]; exact s.valid
  · intro h; exact ⟨⟨fields, h⟩, fromJsonValue_view ⟨fields, h⟩⟩

theorem fromJsonValue_erase (s : State) (key : Bytes) :
    ∃ erased, fromJsonValue (.obj (OrderedMap.erase key s.view)) = .ok erased :=
  fromJsonValue_ok_iff.mpr (withinLimits_of_sublist (OrderedMap.erase_sublist key s.view)
    (validateJsonValueLimits_ok_iff.mp s.valid))

end State

end LangGraph
