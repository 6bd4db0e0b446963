import LangGraph.Foundation.State

/-!
# State updates and reducers

`applyStateUpdate` merges an update into a state field by field: an overwrite marker replaces the
field, a custom reducer computes it, and otherwise the reducer kind registered for the field
decides.  The `add_messages` merge (message lists joined by message id) is a function of the
registry here; nothing below depends on what it does.
-/

namespace LangGraph

open OrderedMap Except

structure StateUpdate where
  values : JsonObject := []
deriving DecidableEq

namespace StateUpdate

def empty : StateUpdate := {}

def fromJsonValue : Json → Result StateUpdate
  | .obj fields => do
    validateJsonValueLimits (lit "state update") {} (.obj fields)
    return ⟨fields⟩
  | _ => .error (.invalidArgument (lit "state update must be a JSON object"))

def toState (update : StateUpdate) : Result State := State.fromJsonValue (.obj update.values)

@[simp] theorem fromJsonValue_view (s : State) : fromJsonValue (.obj s.view) = .ok ⟨s.view⟩ := by
  have hs : validateJsonValueLimits (lit "state update") {} (.obj s.view) = .ok () :=
    validateJsonValueLimits_ok_iff.mpr (validateJsonValueLimits_ok_iff.mp s.valid)
  simp only [fromJsonValue, hs]; rfl

end StateUpdate

/-! ## 1. Overwrite markers -/

def kOverwriteType : Bytes := lit "__overwrite__"

def isOverwriteJson (value : Json) : Bool :=
  value.field (lit "type") = some (.str kOverwriteType)

def overwriteFromJson (value : Json) : Result Json :=
  if isOverwriteJson value then
    match value.field (lit "value") with
    | some inner => .ok inner
    | none => .error (.invalidArgument (lit "overwrite update value is required"))
  else .error (.invalidArgument (lit "overwrite update must declare type __overwrite__"))

/-! ## 2. The registry -/

inductive ReducerKind where
  | overwrite | append | addMessages | mergeObject
deriving DecidableEq

structure ReducerRegistry where
  reducers : List (Bytes × ReducerKind) := []
  customReducers : List (Bytes × (Json → Json → Result Json)) := []
  /-- Merge of the current messages of a field (null when it is absent) with new ones. -/
  addMessages : Json → Json → Result Json := fun _ value => .ok value

def ReducerRegistry.reducerFor (registry : ReducerRegistry) (field : Bytes) : ReducerKind :=
  (OrderedMap.find field registry.reducers).getD .overwrite

def ReducerRegistry.customReducerFor (registry : ReducerRegistry) (field : Bytes) :
    Option (Json → Json → Result Json) :=
  OrderedMap.find field registry.customReducers

/-! ## 3. The built-in reducers -/

/-- The value of a field, null when it is absent (`state[field]`). -/
def fieldOrNull (merged : JsonObject) (field : Bytes) : Json :=
  (OrderedMap.find field merged).getD .null

def applyAppend (merged : JsonObject) (field : Bytes) (value : Json) : Result JsonObject :=
  let added := match value with
    | .arr items => items
    | other => [other]
  match fieldOrNull merged field with
  | .null => .ok (OrderedMap.set field (.arr added) merged)
  | .arr items => .ok (OrderedMap.set field (.arr (items ++ added)) merged)
  | _ => .error (.invalidArgument (lit "append reducer target must be an array: " ++ field))

def applyMergeObject (merged : JsonObject) (field : Bytes) (value : Json) : Result JsonObject :=
  match value with
  | .obj updates =>
    match fieldOrNull merged field with
    | .null => .ok (OrderedMap.set field (.obj (OrderedMap.merge [] updates)) merged)
    | .obj fields => .ok (OrderedMap.set field (.obj (OrderedMap.merge fields updates)) merged)
    | _ => .error (.invalidArgument (lit "merge_object reducer target must be an object: " ++ field))
  | _ => .error (.invalidArgument (lit "merge_object reducer update must be an object: " ++ field))

def applyAddMessages (registry : ReducerRegistry) (merged : JsonObject) (field : Bytes)
    (value : Json) : Result JsonObject := do
  let messages ← registry.addMessages (fieldOrNull merged field) value
  return OrderedMap.set field messages merged

/-- One iteration of the loop over the fields of the update. -/
def applyField (registry : ReducerRegistry) (merged : JsonObject) (entry : Bytes × Json) :
    Result JsonObject :=
  if isOverwriteJson entry.2 then do
    let value ← overwriteFromJson entry.2
    return OrderedMap.set entry.1 value merged
  else match registry.customReducerFor entry.1 with
    | some custom => do
      let reduced ← custom (fieldOrNull merged entry.1) entry.2
      return OrderedMap.set entry.1 reduced merged
    | none => match registry.reducerFor entry.1 with
      | .overwrite => .ok (OrderedMap.set entry.1 entry.2 merged)
      | .append => applyAppend merged entry.1 entry.2
      | .addMessages => applyAddMessages registry merged entry.1 entry.2
      | .mergeObject => applyMergeObject merged entry.1 entry.2

def applyStateUpdate (state : State) (update : StateUpdate) (registry : ReducerRegistry) :
    Result State := do
  let merged ← update.values.foldlM (applyField registry) state.view
  State.fromJsonValue (.obj merged)

/-! ## 4. Fields that an update does not name -/

theorem applyField_eq_set {registry : ReducerRegistry} {merged result : JsonObject}
    {entry : Bytes × Json} (h : applyField registry merged entry = .ok result) :
    ∃ value, result = set entry.1 value merged := by
  have hset : ∀ {value : Result Json}, (value >>= fun v => pure (set entry.1 v merged))
      = .ok result → ∃ value, result = set entry.1 value merged := by
    intro value h
    cases value with
    | error => cases h
    | ok v => exact ⟨v, (ok.inj h).symm⟩
  unfold applyField at h
  split at h
  · exact hset h
  · split at h
    · exact hset h
    · split at h
      · exact ⟨_, (ok.inj h).symm⟩
      · unfold applyAppend at h
        dsimp only at h
        split at h
        · exact ⟨_, (ok.inj h).symm⟩
        · exact ⟨_, (ok.inj h).symm⟩
        · cases h
      · exact hset h
      · unfold applyMergeObject at h
        split at h
        · split at h
          · exact ⟨_, (ok.inj h).symm⟩
          · exact ⟨_, (ok.inj h).symm⟩
          · cases h
        · cases h

theorem find_applyStateUpdate {state merged : State} {update : StateUpdate}
    {registry : ReducerRegistry} {key : Bytes}
    (h : applyStateUpdate state update registry = .ok merged)
    (hkey : find key update.values = none) :
    find key merged.view = find key state.view := by
  have hfold : ∀ (entries : JsonObject) (before after : JsonObject),
      (∀ entry ∈ entries, entry.1 ≠ key) →
      entries.foldlM (applyField registry) before = .ok after →
      find key after = find key before := by
    intro entries
    induction entries with
    | nil =>
      intro before after _ h
      rw [← ok.inj h]
    | cons entry entries ih =>
      intro before after hne h
      rw [List.foldlM_cons] at h
      cases hentry : applyField registry before entry with
      | error =>
        rw [hentry] at h; cases h
      | ok =>
        rw [hentry] at h
        obtain ⟨value, rfl⟩ := applyField_eq_set hentry
        rw [ih _ _ (fun e he => hne e (List.mem_cons_of_mem _ he)) h,
          find_set_ne (hne entry List.mem_cons_self)]
  unfold applyStateUpdate at h
  cases hmerged : update.values.foldlM (applyField registry) state.view with
  | error =>
    rw [hmerged] at h; cases h
  | ok =>
    rw [hmerged] at h
    rw [State.view_of_fromJsonValue h]
    exact hfold _ _ _ (find_eq_none_iff.mp hkey) hmerged

end LangGraph
