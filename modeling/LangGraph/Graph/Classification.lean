import LangGraph.Graph.SuperStep

/-!
# What sorting the executions does

`classify` only ever turns an OK status into a failure, keeps the tasks in their places, and lists
every failed position once.
-/

namespace LangGraph

open List

namespace GraphRun

/-! ## 1. Positions -/

theorem filterMap_positions {β : Type} (f : NodeExecution → β) (test : NodeExecution → Bool)
    (executions : List NodeExecution) :
    ((positions test executions).filterMap fun index => executions[index]?.map f)
      = (executions.filter test).map f := by
  induction executions using reverseRecOn with
  | nil => rfl
  | append_singleton executions last ih =>
    have hold : ∀ index ∈ range executions.length,
        (executions ++ [last])[index]? = executions[index]? := fun index hi =>
      getElem?_append_left (mem_range.mp hi)
    have hrange : range (executions ++ [last]).length
        = range executions.length ++ [executions.length] := by
      rw [length_append, length_singleton, range_succ]
    have hfilter : (range executions.length).filter
          (fun index => (executions ++ [last])[index]?.any test)
        = positions test executions :=
      filter_congr fun index hi => by rw [hold index hi]
    have hmap : ((positions test executions).filterMap
          fun index => (executions ++ [last])[index]?.map f)
        = (executions.filter test).map f := by
      rw [← ih]
      refine filterMap_congr fun index hi => ?_
      rw [hold index (mem_of_mem_filter hi)]
    rw [positions, hrange, filter_append, hfilter, filterMap_append, hmap]
    by_cases ht : test last = true <;> simp [ht]

theorem tasksAt_positions (test : NodeExecution → Bool) (executions : List NodeExecution) :
    tasksAt executions (positions test executions) = (executions.filter test).map (·.task) :=
  filterMap_positions _ test executions

variable {executions before after : List NodeExecution} {index : Nat}

theorem positions_eq_nil {test : NodeExecution → Bool} (h : executions.filter test = []) :
    positions test executions = [] := by
  refine filter_eq_nil_iff.mpr fun index _ hany => ?_
  obtain ⟨execution, hat, htest⟩ := (Option.any_eq_true _ _).mp hany
  exact filter_eq_nil_iff.mp h execution (mem_of_getElem? hat) htest

theorem tasksAt_perm {a b : List Nat} (h : a.Perm b) :
    (tasksAt executions a).Perm (tasksAt executions b) :=
  h.filterMap _

/-! ## 2. Statuses only get worse -/

/-- `after` is `before` with some OK statuses turned into failures. -/
def Worse (before after : List NodeExecution) : Prop :=
  List.Forall₂ (fun b a => a.task = b.task ∧ a.output = b.output ∧
    (b.status.isSome = true → a.status = b.status)) before after

theorem Worse.refl (executions : List NodeExecution) : Worse executions executions :=
  forall₂_same.mpr fun _ _ => ⟨rfl, rfl, fun _ => rfl⟩

theorem Worse.trans {a b c : List NodeExecution} (hab : Worse a b) (hbc : Worse b c) :
    Worse a c := by
  induction hab generalizing c with
  | nil => cases hbc; exact .nil
  | cons hhead _ ih =>
    cases hbc with
    | cons hhead' htail =>
      refine .cons ⟨hhead'.1.trans hhead.1, hhead'.2.1.trans hhead.2.1, fun hs => ?_⟩ (ih htail)
      have hb := hhead.2.2 hs; exact (hhead'.2.2 (by rw [hb]; exact hs)).trans hb

section

variable (h : Worse before after)

include h

theorem Worse.tasks : after.map (·.task) = before.map (·.task) := by
  induction h with
  | nil => rfl
  | cons hhead _ ih => rw [map_cons, map_cons, hhead.1, ih]

theorem Worse.origin {execution : NodeExecution} (hmem : execution ∈ after) :
    ∃ origin ∈ before, execution.task = origin.task ∧ execution.output = origin.output ∧
      (origin.status.isSome = true → execution.status = origin.status) := by
  induction h with
  | nil => cases hmem
  | cons hhead _ ih =>
    rcases mem_cons.mp hmem with heq | hmem
    · rw [heq]; exact ⟨_, mem_cons_self, hhead⟩
    · obtain ⟨origin, horigin, hrel⟩ := ih hmem
      exact ⟨origin, mem_cons_of_mem _ horigin, hrel⟩

theorem Worse.failedAt (hf : failedAt before index = true) :
    GraphRun.failedAt after index = true := by
  induction h generalizing index with
  | nil => exact hf
  | cons hhead _ ih =>
    cases index with
    | zero =>
      simp only [GraphRun.failedAt, getElem?_cons_zero, Option.any_some] at hf ⊢
      rw [hhead.2.2 hf]; exact hf
    | succ =>
      simp only [GraphRun.failedAt] at hf ⊢; exact ih hf

theorem Worse.positions_perm :
    (positions (·.status.isSome) before ++ newlyFailed before after).Perm
      (positions (·.status.isSome) after) := by
  have hlen : after.length = before.length := (Forall₂.length_eq h).symm
  have hsplit := filter_append_perm (fun index => GraphRun.failedAt before index)
    ((range before.length).filter fun index => GraphRun.failedAt after index)
  rw [filter_filter, filter_filter] at hsplit
  have hleft : (range before.length).filter
        (fun index => GraphRun.failedAt before index && GraphRun.failedAt after index)
      = positions (·.status.isSome) before :=
    filter_congr fun index _ => by
      by_cases hf : GraphRun.failedAt before index = true
      · rw [hf, h.failedAt hf]; exact hf.symm
      · rw [Bool.eq_false_iff.mpr hf]; exact (Bool.eq_false_iff.mpr hf).symm
  rw [hleft] at hsplit
  unfold positions at hsplit ⊢
  rw [hlen]; exact hsplit

end

theorem worse_rejectOutput (allow : Bool) (executions : List NodeExecution) :
    Worse executions (executions.map (rejectOutput allow)) := by
  induction executions with
  | nil => exact .nil
  | cons execution rest ih =>
    refine .cons ?_ ih
    unfold rejectOutput
    cases hs : execution.status with
    | none => exact ⟨rfl, rfl, by simp⟩
    | some => exact ⟨rfl, rfl, fun _ => hs⟩

theorem worse_rejectExtraParents (seen : Bool) (executions : List NodeExecution) :
    Worse executions (rejectExtraParents seen executions) := by
  induction executions generalizing seen with
  | nil => exact .nil
  | cons execution rest ih =>
    unfold rejectExtraParents
    split_ifs with hcase hseen
    · refine .cons ⟨rfl, rfl, fun hs => ?_⟩ (ih true)
      simp only [Bool.and_eq_true, Option.isNone_iff_eq_none] at hcase
      simp [hcase.1] at hs
    · exact .cons ⟨rfl, rfl, fun _ => rfl⟩ (ih true)
    · exact .cons ⟨rfl, rfl, fun _ => rfl⟩ (ih seen)

theorem rejectExtraParents_first {executions : List NodeExecution} {index : Nat}
    (h : (executions.findIdx? fun e => e.status.isNone && NodeExecution.hasParentCommand e)
      = some index) :
    ∃ execution, executions[index]? = some execution ∧ execution.status = none ∧
      (rejectExtraParents false executions)[index]? = some execution := by
  induction executions generalizing index with
  | nil => simp at h
  | cons execution rest ih =>
    rw [findIdx?_cons] at h
    by_cases hp : (execution.status.isNone && NodeExecution.hasParentCommand execution) = true
    · rw [if_pos hp] at h
      cases h
      refine ⟨execution, rfl, ?_, ?_⟩
      · simp only [Bool.and_eq_true, Option.isNone_iff_eq_none] at hp; exact hp.1
      · rw [rejectExtraParents, if_pos hp]; rfl
    · rw [if_neg hp, Option.map_eq_some_iff] at h
      obtain ⟨index', h', rfl⟩ := h
      obtain ⟨found, hat, hnone, hkept⟩ := ih h'
      refine ⟨found, hat, hnone, ?_⟩
      rw [rejectExtraParents, if_neg hp]; exact hkept

theorem worse_rejectParentAt
    (h : ∃ execution, executions[index]? = some execution ∧ execution.status = none) :
    Worse executions (rejectParentAt index executions) := by
  obtain ⟨execution, hat, hnone⟩ := h
  unfold Worse rejectParentAt
  rw [forall₂_iff_get]
  refine ⟨by simp, fun i hi hi' => ?_⟩
  simp only [get_eq_getElem, getElem_mapIdx]
  split_ifs with heq
  · refine ⟨rfl, rfl, fun hs => ?_⟩
    subst heq
    rw [getElem?_eq_getElem hi, Option.some.injEq] at hat
    rw [hat, hnone] at hs; cases hs
  · exact ⟨rfl, rfl, fun _ => rfl⟩

/-! ## 3. The classified executions -/

section Classify

variable (allow : Bool) (executions : List NodeExecution)

theorem classify_chain :
    ∃ checked single, checked = executions.map (rejectOutput allow) ∧
      single = rejectExtraParents false checked ∧
      Worse executions checked ∧ Worse checked single ∧
      Worse single (classify allow executions).executions ∧
      (classify allow executions).failedIndexes =
        positions (·.status.isSome) executions ++ newlyFailed executions checked
          ++ newlyFailed checked single
          ++ newlyFailed single (classify allow executions).executions := by
  refine ⟨_, _, rfl, rfl, worse_rejectOutput _ _, worse_rejectExtraParents _ _, ?_, rfl⟩
  unfold classify
  dsimp only
  split
  · rename_i index hindex
    obtain ⟨execution, -, hnone, hkept⟩ := rejectExtraParents_first hindex
    split_ifs
    · exact worse_rejectParentAt ⟨execution, hkept, hnone⟩
    · exact .refl _
  · exact .refl _

theorem worse_classify : Worse executions (classify allow executions).executions := by
  obtain ⟨checked, single, -, -, h₁, h₂, h₃, -⟩ := classify_chain allow executions
  exact h₁.trans (h₂.trans h₃)

theorem failedIndexes_perm :
    (classify allow executions).failedIndexes.Perm
      (positions (·.status.isSome) (classify allow executions).executions) := by
  obtain ⟨checked, single, -, -, h₁, h₂, h₃, hfailed⟩ := classify_chain allow executions
  rw [hfailed]
  refine Perm.trans ?_ h₃.positions_perm
  refine Perm.append_right _ ?_
  refine Perm.trans ?_ h₂.positions_perm
  exact Perm.append_right _ h₁.positions_perm

@[simp] theorem classify_tasks :
    (classify allow executions).executions.map (·.task) = executions.map (·.task) :=
  (worse_classify allow executions).tasks

theorem output_of_status_none {execution : NodeExecution}
    (hmem : execution ∈ (classify allow executions).executions) (hs : execution.status = none) :
    ∃ output, execution.output = some output := by
  obtain ⟨checked, single, hchecked, -, -, h₂, h₃, -⟩ := classify_chain allow executions
  obtain ⟨before, hbefore, -, hout, hstatus⟩ := (h₂.trans h₃).origin hmem
  have hb : before.status = none := by
    cases hbs : before.status with
    | none => rfl
    | some =>
      have := hstatus (by simp [hbs])
      rw [hs, hbs] at this; cases this
  rw [hchecked, mem_map] at hbefore
  obtain ⟨raw, -, rfl⟩ := hbefore
  rw [hout]
  unfold rejectOutput at hb ⊢
  cases hraw : raw.status with
  | some => simp [hraw] at hb
  | none =>
    simp only [hraw] at hb ⊢
    cases hout : raw.output with
    | none => simp [outputProblem, hout] at hb
    | some output => exact ⟨output, rfl⟩

end Classify

end GraphRun

/-! ## 4. Plain outputs -/

/-- An output that neither interrupts the run nor commands the parent graph. -/
structure NodeOutput.Plain (output : NodeOutput) : Prop where
  interrupt : output.interrupt = none
  command : ∀ command, output.command = some command →
    command.resume = none ∧ command.graph = .current

def NodeExecution.Plain (execution : NodeExecution) : Prop :=
  execution.status = none ∧ ∃ output, execution.output = some output ∧ output.Plain

namespace GraphRun

section Plain

variable {allow : Bool} {executions : List NodeExecution}

variable {execution : NodeExecution}

theorem rejectOutput_of_plain (h : execution.Plain) : rejectOutput allow execution = execution := by
  obtain ⟨hstatus, output, hout, hplain⟩ := h
  have hproblem : outputProblem allow execution = none := by
    unfold outputProblem
    rw [hout]
    dsimp only
    cases hcommand : output.command with
    | none => rfl
    | some command =>
      obtain ⟨hresume, hgraph⟩ := hplain.command command hcommand
      simp [hplain.interrupt, hresume, hgraph]
  unfold rejectOutput
  rw [hstatus, hproblem]
  dsimp only
  rw [← hstatus]

theorem hasParentCommand_of_plain (h : execution.Plain) :
    NodeExecution.hasParentCommand execution = false := by
  obtain ⟨-, output, hout, hplain⟩ := h
  unfold NodeExecution.hasParentCommand
  rw [hout, Option.bind_some]
  cases hcommand : output.command with
  | none => rfl
  | some command => simp [(hplain.command command hcommand).2]

theorem rejectExtraParents_of_none {seen : Bool}
    (h : ∀ execution ∈ executions,
      (execution.status.isNone && NodeExecution.hasParentCommand execution) = false) :
    rejectExtraParents seen executions = executions := by
  induction executions with
  | nil => rfl
  | cons execution rest ih =>
    rw [rejectExtraParents, if_neg (Bool.eq_false_iff.mp (h execution mem_cons_self)),
      ih fun e he => h e (mem_cons_of_mem _ he)]

theorem newlyFailed_self (executions : List NodeExecution) : newlyFailed executions executions = [] :=
  filter_eq_nil_iff.mpr fun index _ => by simp

theorem classify_of_plain (h : ∀ execution ∈ executions, execution.Plain) :
    classify allow executions = ⟨executions, [], [], none⟩ := by
  have hchecked : executions.map (rejectOutput allow) = executions := by
    refine (map_congr_left fun e he => ?_).trans (map_id executions)
    exact rejectOutput_of_plain (h e he)
  have hnone : positions (·.status.isSome) executions = [] :=
    positions_eq_nil (filter_eq_nil_iff.mpr fun e he => by simp [(h e he).1])
  have hinterrupts : positions (fun e => e.status.isNone && (NodeExecution.interrupt e).isSome)
      executions = [] := by
    refine positions_eq_nil (filter_eq_nil_iff.mpr fun e he => ?_)
    obtain ⟨-, output, hout, hplain⟩ := h e he
    simp [NodeExecution.interrupt, hout, hplain.interrupt]
  have hnoParent : ∀ e ∈ executions,
      (e.status.isNone && NodeExecution.hasParentCommand e) = false := fun e he => by
    rw [hasParentCommand_of_plain (h e he), Bool.and_false]
  have hparent : (executions.findIdx? fun e =>
      e.status.isNone && NodeExecution.hasParentCommand e) = none :=
    findIdx?_eq_none_iff.mpr hnoParent
  unfold classify
  simp only [hchecked, hinterrupts, hparent, hnone, rejectExtraParents_of_none hnoParent,
    newlyFailed_self, append_nil]

theorem status_none_of_worse {before after : List NodeExecution} (h : Worse before after)
    (hafter : ∀ execution ∈ after, execution.status = none) :
    ∀ execution ∈ before, execution.status = none := by
  induction h with
  | nil => simp
  | @cons b a before after hhead _ ih =>
    intro execution hmem
    rcases mem_cons.mp hmem with rfl | hmem
    · cases hs : execution.status with
      | none => rfl
      | some =>
        have hkept := hhead.2.2 (by simp [hs])
        rw [hafter a mem_cons_self, hs] at hkept; cases hkept
    · exact ih (fun e he => hafter e (mem_cons_of_mem _ he)) execution hmem

theorem status_none_of_failedIndexes (h : (classify allow executions).failedIndexes = []) :
    ∀ execution ∈ (classify allow executions).executions, execution.status = none := by
  have hperm := failedIndexes_perm allow executions
  rw [h] at hperm
  intro execution hmem
  obtain ⟨index, hindex, rfl⟩ := getElem_of_mem hmem
  have hnot := filter_eq_nil_iff.mp hperm.nil_eq.symm index (mem_range.mpr hindex)
  rw [getElem?_eq_getElem hindex] at hnot; simpa using hnot

theorem rejectOutput_eq_self (h : (rejectOutput allow execution).status = none) :
    rejectOutput allow execution = execution := by
  unfold rejectOutput at h ⊢
  cases hs : execution.status with
  | some => rfl
  | none =>
    rw [hs] at h
    dsimp only at h ⊢
    rw [h, ← hs]

theorem output_of_rejectOutput (h : (rejectOutput allow execution).status = none) :
    ∃ output, execution.output = some output ∧ ∀ command, output.command = some command →
      output.interrupt = none ∧ command.resume = none := by
  unfold rejectOutput at h
  cases hs : execution.status with
  | some =>
    rw [hs] at h
    cases hs.symm.trans h
  | none =>
    rw [hs] at h
    dsimp only [outputProblem] at h
    cases hout : execution.output with
    | none =>
      rw [hout] at h; cases h
    | some output =>
      refine ⟨output, rfl, fun command hcommand => ?_⟩
      rw [hout] at h
      simp only [hcommand] at h
      split_ifs at h with hi hr
      exact ⟨Option.not_isSome_iff_eq_none.mp hi, Option.not_isSome_iff_eq_none.mp hr⟩

theorem plain_of_classify (hfailed : (classify allow executions).failedIndexes = [])
    (hparent : (classify allow executions).parentCommandIndex.bind
      ((classify allow executions).executions[·]?) = none)
    (hinterrupted : interruptedOf (classify allow executions) = []) :
    ∀ execution ∈ executions, execution.Plain := by
  obtain ⟨checked, single, hchecked, hsingle, h₁, h₂, h₃, -⟩ := classify_chain allow executions
  have hfinal := status_none_of_failedIndexes hfailed
  have hrejected : ∀ e ∈ executions, (rejectOutput allow e).status = none := fun e he =>
    status_none_of_worse (h₂.trans h₃) hfinal _ (hchecked ▸ mem_map_of_mem he)
  have hsame : executions.map (rejectOutput allow) = executions :=
    (map_congr_left fun e he => rejectOutput_eq_self (hrejected e he)).trans
      (map_id executions)
  have hindexes : (classify allow executions).interruptIndexes
      = positions (fun e => e.status.isNone && (NodeExecution.interrupt e).isSome) executions := by
    unfold classify
    rw [hsame]
  have hindex : (classify allow executions).parentCommandIndex
      = executions.findIdx? fun e => e.status.isNone && NodeExecution.hasParentCommand e := by
    unfold classify
    rw [hsame]
  have hnoParent : ∀ e ∈ executions,
      (e.status.isNone && NodeExecution.hasParentCommand e) = false := by
    refine findIdx?_eq_none_iff.mp ?_
    cases hfound : executions.findIdx? fun e =>
        e.status.isNone && NodeExecution.hasParentCommand e with
    | none => rfl
    | some index =>
      have hlength : (classify allow executions).executions.length = executions.length :=
        (Forall₂.length_eq (worse_classify allow executions)).symm
      have hlt : index < (classify allow executions).executions.length := by
        rw [hlength]; exact (findIdx?_eq_some_iff_getElem.mp hfound).1
      rw [hindex, hfound, Option.bind_some, getElem?_eq_getElem hlt] at hparent
      cases hparent
  have hnone : (executions.findIdx? fun e =>
      e.status.isNone && NodeExecution.hasParentCommand e) = none :=
    findIdx?_eq_none_iff.mpr hnoParent
  have hexecutions : (classify allow executions).executions = executions := by
    unfold classify
    simp only [hsame, hnone, rejectExtraParents_of_none hnoParent]
  intro execution hmem
  have hstatus : execution.status = none := hfinal execution (hexecutions.symm ▸ hmem)
  obtain ⟨output, hout, hcommand⟩ := output_of_rejectOutput (hrejected execution hmem)
  refine ⟨hstatus, output, hout, ?_, fun command hsome => ⟨(hcommand command hsome).2, ?_⟩⟩
  · cases hi : output.interrupt with
    | none => rfl
    | some interrupt =>
      -- An interrupted execution would be listed.
      have hlisted : (execution, interrupt) ∈ interruptedOf (classify allow executions) := by
        obtain ⟨index, hlt, rfl⟩ := getElem_of_mem hmem
        rw [interruptedOf, mem_filterMap, hindexes, hexecutions]
        refine ⟨index, mem_filter.mpr ⟨mem_range.mpr hlt, ?_⟩, ?_⟩
        · simp [hlt, hstatus, NodeExecution.interrupt, hout, hi]
        · simp [hlt, NodeExecution.interrupt, hout, hi]
      rw [hinterrupted] at hlisted; cases hlisted
  · have hno := hnoParent execution hmem
    rw [hstatus, NodeExecution.hasParentCommand, hout, Option.bind_some, hsome] at hno
    cases hgraph : command.graph with
    | current => rfl
    | parent => simp [hgraph] at hno

end Plain

end GraphRun

end LangGraph
