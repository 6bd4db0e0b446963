import LangGraph.Lib.OrderedMap

/-!
# Depth-first search with an explicit stack

The adjacency map is an ordered map from a vertex to its targets, the set of visited vertices an
ordered map without values.  The search visits exactly the vertices the start reaches.
-/

namespace Search

open OrderedMap Relation
open List hiding set merge erase contains

variable {κ : Type*} [DecidableEq κ]

def targetsOf (adjacency : List (κ × List κ)) (v : κ) : List κ := (find v adjacency).getD []

variable {m : List (κ × List κ)}

theorem targetsOf_of_not_contains {v : κ} (h : ¬ contains v m) : targetsOf m v = [] := by
  rw [targetsOf, Option.not_isSome_iff_eq_none.mp h, Option.getD_none]

theorem exists_mem_of_mem_targetsOf {v w : κ} (h : w ∈ targetsOf m v) :
    ∃ targets, (v, targets) ∈ m ∧ w ∈ targets := by
  cases hfind : find v m with
  | none => simp [targetsOf, hfind] at h
  | some targets =>
    rw [targetsOf, hfind, Option.getD_some] at h
    exact ⟨targets, mem_of_find_eq_some hfind, h⟩

theorem targetsOf_foldl {α : Type*} {step : List (κ × List κ) → κ × α → List (κ × List κ)}
    {g : κ → List κ → List κ} {entries : List (κ × α)} (hkeys : (entries.map Prod.fst).Nodup)
    (h : ∀ m, ∀ entry ∈ entries, ∀ v, targetsOf (step m entry) v =
      if entry.1 = v then g v (targetsOf m v) else targetsOf m v)
    (m : List (κ × List κ)) (v : κ) :
    targetsOf (entries.foldl step m) v =
      if contains v entries then g v (targetsOf m v) else targetsOf m v := by
  induction entries generalizing m with
  | nil => rfl
  | cons entry entries ih =>
    obtain ⟨hfresh, hkeys⟩ := nodup_cons.mp hkeys
    rw [foldl_cons, ih hkeys fun m e he => h m e (mem_cons_of_mem _ he),
      h m entry mem_cons_self, contains, contains, find_cons]
    by_cases hkey : entry.1 = v
    · have hnone : find v entries = none := find_eq_none_iff.mpr fun other hmem heq =>
        hfresh (mem_map.mpr ⟨other, hmem, heq.trans hkey.symm⟩)
      simp [hnone]
    · simp [hkey]

variable [LT κ] [DecidableLT κ]

theorem targetsOf_set (k : κ) (targets : List κ) (m : List (κ × List κ)) (v : κ) :
    targetsOf (set k targets m) v = if k = v then targets else targetsOf m v := by
  unfold targetsOf
  split_ifs with h
  · subst h
    rw [find_set_self, Option.getD_some]
  · rw [find_set_ne h]

omit [DecidableLT κ] in
theorem targetsOf_of_mem [IsStrictTotalOrder κ (· < ·)] (hm : Increasing m) {entry : κ × List κ}
    (h : entry ∈ m) : targetsOf m entry.1 = entry.2 := by
  rw [targetsOf, hm.find_eq_some_iff.mpr h, Option.getD_some]

theorem filter_unvisited (adjacency : List (κ × List κ)) (visited : List (κ × Unit)) (node : κ) :
    (adjacency.filter fun entry => !contains entry.1 (set node () visited)) =
      (adjacency.filter fun entry => !contains entry.1 visited).filter
        fun entry => !decide (entry.1 = node) := by
  rw [filter_filter]
  refine filter_congr fun entry _ => ?_
  rw [Bool.eq_iff_iff]; simp [← Bool.not_eq_true, contains_set]

def searchFrom (adjacency : List (κ × List κ)) (visited : List (κ × Unit)) (stack : List κ) :
    List (κ × Unit) :=
  match stack with
  | [] => visited
  | node :: stack =>
    if _hnew : contains node visited then searchFrom adjacency visited stack
    else
      let visited' := set node () visited
      match _hfind : find node adjacency with
      | none => searchFrom adjacency visited' stack
      | some targets =>
        searchFrom adjacency visited'
          ((targets.filter fun target => !contains target visited').reverse ++ stack)
termination_by
  ((adjacency.filter fun entry => !contains entry.1 visited).length, stack.length)
decreasing_by
  · exact Prod.Lex.right _ (Nat.lt_succ_self _)
  · have hsame : (adjacency.filter fun entry => !contains entry.1 (set node () visited)) =
        adjacency.filter fun entry => !contains entry.1 visited := by
      rw [filter_unvisited]
      refine List.filter_eq_self.mpr fun entry hentry => ?_
      simp [find_eq_none_iff.mp _hfind entry (List.mem_filter.mp hentry).1]
    rw [hsame]; exact Prod.Lex.right _ (Nat.lt_succ_self _)
  · refine Prod.Lex.left _ _ ?_
    rw [filter_unvisited]
    refine List.length_filter_lt_length_iff_exists.mpr ⟨(node, targets), ?_, by simp⟩
    exact List.mem_filter.mpr ⟨mem_of_find_eq_some _hfind, by simp [_hnew]⟩

def search (adjacency : List (κ × List κ)) (start : κ) : List (κ × Unit) :=
  searchFrom adjacency [] [start]

/-- A target of a visited vertex is visited or on the stack. -/
def Closed (adjacency : List (κ × List κ)) (visited : List (κ × Unit)) (stack : List κ) : Prop :=
  ∀ v w, contains v visited → w ∈ targetsOf adjacency v → contains w visited ∨ w ∈ stack

theorem Closed.visit {adjacency : List (κ × List κ)} {visited : List (κ × Unit)} {node : κ}
    {stack stack' : List κ} (h : Closed adjacency visited (node :: stack))
    (hstack : ∀ w ∈ stack, w ∈ stack')
    (htargets : ∀ w ∈ targetsOf adjacency node, contains w (set node () visited) ∨ w ∈ stack') :
    Closed adjacency (set node () visited) stack' := by
  intro v w hv hw
  rcases contains_set.mp hv with rfl | hv
  · exact htargets w hw
  · rcases h v w hv hw with hw | hw
    · exact .inl (contains_set.mpr (.inr hw))
    · rcases mem_cons.mp hw with rfl | hw
      · exact .inl (contains_set.mpr (.inl rfl))
      · exact .inr (hstack w hw)

/-- What has been visited or is on the stack is visited in the end, and then no target of a
    visited vertex is left. -/
theorem searchFrom_closed (adjacency : List (κ × List κ)) (visited : List (κ × Unit))
    (stack : List κ) (hclosed : Closed adjacency visited stack) :
    (∀ v, contains v visited ∨ v ∈ stack → contains v (searchFrom adjacency visited stack)) ∧
    Closed adjacency (searchFrom adjacency visited stack) [] := by
  fun_induction searchFrom adjacency visited stack with
  | case1 => exact ⟨fun v hv => hv.resolve_right not_mem_nil, hclosed⟩
  | case2 visited node stack hold ih =>
    have hskip : ∀ w, contains w visited ∨ w ∈ node :: stack → contains w visited ∨ w ∈ stack := by
      rintro w (hw | hw)
      · exact .inl hw
      · rcases mem_cons.mp hw with rfl | hw
        · exact .inl hold
        · exact .inr hw
    obtain ⟨hmem, hend⟩ := ih fun v w hv hw => hskip w (hclosed v w hv hw)
    exact ⟨fun v hv => hmem v (hskip v hv), hend⟩
  | case3 visited node stack hnew visited' hfind ih =>
    obtain ⟨hmem, hend⟩ := ih (hclosed.visit (fun _ h => h) (by simp [targetsOf, hfind]))
    refine ⟨fun v hv => hmem v ?_, hend⟩
    simpa [visited', contains_set, or_assoc, or_left_comm] using hv
  | case4 visited node stack hnew visited' targets hfind ih =>
    -- the targets left out of the push are those already visited
    have hpushed : ∀ w ∈ targetsOf adjacency node, contains w visited' ∨
        w ∈ (targets.filter fun target => !contains target visited').reverse ++ stack := by
      intro w hw
      have hw : w ∈ targets := by simpa [targetsOf, hfind] using hw
      by_cases hseen : contains w visited'
      · exact .inl hseen
      · exact .inr (mem_append_left _ (by simp [hw, hseen]))
    obtain ⟨hmem, hend⟩ :=
      ih (hclosed.visit (fun _ h => mem_append_right _ h) hpushed)
    refine ⟨fun v hv => hmem v ?_, hend⟩
    rcases hv with hv | hv
    · exact .inl (contains_set.mpr (.inr hv))
    · rcases mem_cons.mp hv with rfl | hv
      · exact .inl (contains_set.mpr (.inl rfl))
      · exact .inr (mem_append_right _ hv)

theorem exists_reaches_of_mem_searchFrom (adjacency : List (κ × List κ))
    (visited : List (κ × Unit)) (stack : List κ) {v : κ}
    (hv : contains v (searchFrom adjacency visited stack)) :
    ∃ u, (contains u visited ∨ u ∈ stack) ∧
      ReflTransGen (fun a b => b ∈ targetsOf adjacency a) u v := by
  fun_induction searchFrom adjacency visited stack with
  | case1 => exact ⟨v, .inl hv, .refl⟩
  | case2 visited node stack hold ih =>
    obtain ⟨u, hu, hreach⟩ := ih hv
    exact ⟨u, hu.imp_right (mem_cons_of_mem _), hreach⟩
  | case3 visited node stack hnew visited' hfind ih =>
    obtain ⟨u, hu, hreach⟩ := ih hv
    refine ⟨u, ?_, hreach⟩
    simpa [visited', contains_set, or_assoc, or_left_comm] using hu
  | case4 visited node stack hnew visited' targets hfind ih =>
    obtain ⟨u, hu, hreach⟩ := ih hv
    rcases hu with hu | hu
    · rcases contains_set.mp hu with rfl | hu
      · exact ⟨u, .inr mem_cons_self, hreach⟩
      · exact ⟨u, .inl hu, hreach⟩
    · rcases mem_append.mp hu with hu | hu
      · have htarget : u ∈ targetsOf adjacency node := by
          rw [targetsOf, hfind]
          exact (mem_filter.mp (mem_reverse.mp hu)).1
        exact ⟨node, .inr mem_cons_self, hreach.head htarget⟩
      · exact ⟨u, .inr (mem_cons_of_mem _ hu), hreach⟩

theorem mem_search_iff (adjacency : List (κ × List κ)) (start v : κ) :
    contains v (search adjacency start) ↔
      ReflTransGen (fun a b => b ∈ targetsOf adjacency a) start v := by
  constructor
  · intro hv
    obtain ⟨u, hu, hreach⟩ := exists_reaches_of_mem_searchFrom adjacency [] [start] hv
    obtain rfl : u = start := by simpa [contains] using hu
    exact hreach
  · intro hreach
    obtain ⟨hmem, hend⟩ := searchFrom_closed adjacency [] [start]
      fun _ _ hv => absurd hv Bool.false_ne_true
    induction hreach with
    | refl => exact hmem start (.inr mem_cons_self)
    | tail _ hstep ih => exact (hend _ _ ih hstep).resolve_right not_mem_nil

end Search
