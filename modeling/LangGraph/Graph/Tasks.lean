import LangGraph.Graph.Types
import LangGraph.Lib.StableSort

/-!
# Task lists

How next tasks are collected: a plain task joins a list unless the same node is already there as a
plain task, a `Send` task and a task with an order number always join, and END never does.
Annotation gives every task of a list its namespace, order and task id.
-/

namespace LangGraph

open StableSort ByteString CheckpointTask List

/-! ## 1. Collecting tasks -/

def CheckpointTask.runnable (task : CheckpointTask) : Bool := task.nodeId ≠ [] && task.nodeId ≠ END

/-- A task without branch state and order number: the kind that is kept once per node. -/
def CheckpointTask.plain (task : CheckpointTask) : Bool := task.state.isNone && task.order.isNone

def appendPlainTask (tasks : List CheckpointTask) (task : CheckpointTask) : List CheckpointTask :=
  if task.runnable = false then tasks
  else if task.order.isSome then tasks ++ [task]
  else if tasks.any fun existing => existing.plain && existing.nodeId = task.nodeId then tasks
  else tasks ++ [task]

def appendSendTask (tasks : List CheckpointTask) (task : CheckpointTask) : List CheckpointTask :=
  if task.runnable = false then tasks else tasks ++ [task]

def appendTask (tasks : List CheckpointTask) (task : CheckpointTask) : List CheckpointTask :=
  if task.state.isSome then appendSendTask tasks task else appendPlainTask tasks task

def appendTasks (tasks added : List CheckpointTask) : List CheckpointTask :=
  added.foldl appendTask tasks

def normalizeNextTasks (tasks : List CheckpointTask) : List CheckpointTask := appendTasks [] tasks

def nodeIdsFromTasks (tasks : List CheckpointTask) : List Bytes :=
  (tasks.filter CheckpointTask.runnable).map (·.nodeId)

def isTerminalNextTasks (tasks : List CheckpointTask) : Bool :=
  tasks.all fun task => !task.runnable

def nextTasksFromTargets (targets : List Bytes) : List CheckpointTask :=
  targets.foldl (fun tasks target => appendPlainTask tasks { nodeId := target }) []

/-! ## 2. Annotation -/

/-- The id of task `i` of a super-step: `run:step:i:node`. -/
def generatedTaskId (runId : Bytes) (taskStep i : Nat) (nodeId : Bytes) : Bytes :=
  runId ++ lit ":" ++ decimal taskStep ++ lit ":" ++ decimal i ++ lit ":" ++ nodeId

def annotateTask (runId checkpointNamespace : Bytes) (taskStep i : Nat) (task : CheckpointTask) :
    CheckpointTask :=
  if task.runnable = false then task
  else { task with
    checkpointNamespace :=
      if task.checkpointNamespace = [] then checkpointNamespace else task.checkpointNamespace
    order := some (task.order.getD i)
    taskId := if task.taskId = [] then generatedTaskId runId taskStep i task.nodeId else task.taskId }

def annotateTasks (runId checkpointNamespace : Bytes) (taskStep : Nat)
    (tasks : List CheckpointTask) : List CheckpointTask :=
  tasks.mapIdx (annotateTask runId checkpointNamespace taskStep)

/-! ## 3. Lists that collecting leaves alone -/

/-- Two tasks that may stand in one list: not both plain tasks of one node. -/
def CheckpointTask.Compatible (a b : CheckpointTask) : Prop :=
  ¬ (a.plain = true ∧ b.plain = true ∧ a.nodeId = b.nodeId)

instance (a b : CheckpointTask) : Decidable (a.Compatible b) :=
  inferInstanceAs (Decidable (¬ (a.plain = true ∧ b.plain = true ∧ a.nodeId = b.nodeId)))

structure Normal (tasks : List CheckpointTask) : Prop where
  runnable : ∀ task ∈ tasks, task.runnable = true
  distinct : tasks.Pairwise CheckpointTask.Compatible

theorem appendTask_eq (tasks : List CheckpointTask) (task : CheckpointTask) :
    appendTask tasks task = if task.runnable = true ∧ ∀ existing ∈ tasks, existing.Compatible task
      then tasks ++ [task] else tasks := by
  unfold appendTask appendSendTask appendPlainTask
  by_cases hr : task.runnable = true
  · cases hs : task.state with
    | some => simp [hr, Compatible, plain, hs]
    | none =>
      cases ho : task.order with
      | some => simp [hr, Compatible, plain, ho]
      | none =>
        by_cases hany : tasks.any
            (fun existing => existing.plain && existing.nodeId = task.nodeId) = true
        · have hno : ¬ ∀ existing ∈ tasks, existing.Compatible task := by
            simp only [any_eq_true, Bool.and_eq_true, decide_eq_true_eq] at hany
            obtain ⟨existing, hmem, hplain, hnode⟩ := hany
            intro hall
            exact hall existing hmem ⟨hplain, by simp [plain, hs, ho], hnode⟩
          simp [hany, hno]
        · have hyes : ∀ existing ∈ tasks, existing.Compatible task := by
            intro existing hmem hboth
            apply hany
            simp only [any_eq_true, Bool.and_eq_true, decide_eq_true_eq]
            exact ⟨existing, hmem, hboth.1, hboth.2.2⟩
          simpa [hr, hany] using hyes
  · have hr' := Bool.eq_false_iff.mpr hr; simp [hr']

variable {tasks added : List CheckpointTask} {task : CheckpointTask}

theorem Normal.appendTask (h : Normal tasks) (task : CheckpointTask) :
    Normal (appendTask tasks task) := by
  rw [appendTask_eq]
  split_ifs with hjoin
  · refine ⟨?_, ?_⟩
    · intro t ht
      rcases mem_append.mp ht with ht | ht
      · exact h.runnable t ht
      · rw [mem_singleton.mp ht]; exact hjoin.1
    · rw [pairwise_append]
      refine ⟨h.distinct, pairwise_singleton _ _, fun a ha b hb => ?_⟩
      rw [mem_singleton.mp hb]; exact hjoin.2 a ha
  · exact h

theorem Normal.appendTasks (h : Normal tasks) (added : List CheckpointTask) :
    Normal (appendTasks tasks added) := by
  induction added generalizing tasks with
  | nil => exact h
  | cons task added ih => exact ih (h.appendTask task)

theorem normal_nil : Normal [] := ⟨by simp, Pairwise.nil⟩

theorem normal_normalizeNextTasks (tasks : List CheckpointTask) : Normal (normalizeNextTasks tasks) :=
  normal_nil.appendTasks tasks

theorem appendTasks_of_normal (h : Normal (tasks ++ added)) :
    appendTasks tasks added = tasks ++ added := by
  induction added generalizing tasks with
  | nil => simp [appendTasks]
  | cons task added ih =>
    have hjoin : appendTask tasks task = tasks ++ [task] := by
      rw [appendTask_eq, if_pos]
      refine ⟨h.runnable task (by simp), fun existing hmem => ?_⟩
      exact (pairwise_append.mp h.distinct).2.2 existing hmem task (by simp)
    have hrest : Normal (tasks ++ [task] ++ added) := by simpa using h
    show appendTasks (appendTask tasks task) added = _
    rw [hjoin, ih hrest]; simp

theorem normalizeNextTasks_of_normal (h : Normal tasks) : normalizeNextTasks tasks = tasks :=
  appendTasks_of_normal (by simpa using h)

theorem normal_of_ordered (hr : ∀ task ∈ tasks, task.runnable = true)
    (ho : ∀ task ∈ tasks, task.order.isSome = true) : Normal tasks := by
  refine ⟨hr, pairwise_of_forall_mem_list fun a ha b _ hboth => ?_⟩
  have := ho a ha
  simp only [plain, Bool.and_eq_true, Option.isNone_iff_eq_none] at hboth
  simp [hboth.1.2] at this

/-! ## 4. What annotation keeps -/

section Annotate

variable (runId ns : Bytes) (step i : Nat) (task : CheckpointTask)

@[simp] theorem annotateTask_nodeId : (annotateTask runId ns step i task).nodeId = task.nodeId := by
  unfold annotateTask; split_ifs <;> rfl

@[simp] theorem annotateTask_state : (annotateTask runId ns step i task).state = task.state := by
  unfold annotateTask; split_ifs <;> rfl

@[simp] theorem annotateTask_runnable :
    (annotateTask runId ns step i task).runnable = task.runnable := by
  simp [runnable]

theorem annotateTask_order (h : task.runnable = true) :
    (annotateTask runId ns step i task).order = some (task.order.getD i) := by
  simp [annotateTask, h]

theorem annotateTask_eq_self (ho : task.order.isSome = true) (hid : task.taskId ≠ [])
    (hns : task.checkpointNamespace = [] → ns = []) : annotateTask runId ns step i task = task := by
  obtain ⟨n, hn⟩ := Option.isSome_iff_exists.mp ho
  have hns' : (if task.checkpointNamespace = [] then ns else task.checkpointNamespace)
      = task.checkpointNamespace := by
    split_ifs with h
    · rw [h, hns h]
    · rfl
  have ho' : some (task.order.getD i) = task.order := by rw [hn]; rfl
  unfold annotateTask
  rw [hns', ho', if_neg hid, ite_self]

end Annotate

structure CheckpointTask.Settled (checkpointNamespace : Bytes) (task : CheckpointTask) : Prop where
  runnable : task.runnable = true
  order : task.order.isSome = true
  taskId : task.taskId ≠ []
  inNamespace : task.checkpointNamespace = [] → checkpointNamespace = []

theorem settled_annotateTask {runId ns : Bytes} {step i : Nat} (h : task.runnable = true) :
    (annotateTask runId ns step i task).Settled ns := by
  refine ⟨by simpa using h, by simp [annotateTask_order _ _ _ _ _ h], ?_, ?_⟩
  · simp only [annotateTask, h, Bool.true_eq_false, if_false]
    split_ifs with hid
    · intro hnil
      have hnode := (append_eq_nil_iff.mp hnil).2
      simp [runnable, hnode] at h
    · exact hid
  · simp only [annotateTask, h, Bool.true_eq_false, if_false]
    split_ifs with hns
    · exact id
    · exact fun hns' => absurd hns' hns

theorem settled_annotateTasks {runId ns : Bytes} {step : Nat}
    (h : ∀ task ∈ tasks, task.runnable = true) :
    ∀ task ∈ annotateTasks runId ns step tasks, task.Settled ns := by
  intro task htask
  obtain ⟨i, hi, rfl⟩ := mem_mapIdx.mp htask
  exact settled_annotateTask (h _ (getElem_mem hi))

section Settled

variable {ns : Bytes} {tasks : List CheckpointTask} (h : ∀ task ∈ tasks, task.Settled ns)
include h

theorem annotateTasks_of_settled (runId : Bytes) (step : Nat) :
    annotateTasks runId ns step tasks = tasks := by
  refine ext_getElem (by simp [annotateTasks]) fun i _ hi => ?_
  have hs := h _ (getElem_mem hi)
  simp only [annotateTasks, getElem_mapIdx]
  exact annotateTask_eq_self _ _ _ _ _ hs.order hs.taskId hs.inNamespace

theorem normal_of_settled : Normal tasks :=
  normal_of_ordered (fun task ht => (h task ht).runnable) fun task ht => (h task ht).order

theorem appendTasks_nil_of_settled : appendTasks [] tasks = tasks :=
  normalizeNextTasks_of_normal (normal_of_settled h)

end Settled

theorem mem_of_mem_appendTasks (h : task ∈ appendTasks tasks added) :
    task ∈ tasks ∨ task ∈ added := by
  induction added generalizing tasks with
  | nil => exact .inl h
  | cons first added ih =>
    rcases ih h with h | h
    · rw [appendTask_eq] at h
      split_ifs at h
      · rcases mem_append.mp h with h | h
        · exact .inl h
        · rw [mem_singleton.mp h]; exact .inr mem_cons_self
      · exact .inl h
    · exact .inr (mem_cons_of_mem _ h)

theorem mem_of_mem_normalizeNextTasks (h : task ∈ normalizeNextTasks tasks) : task ∈ tasks :=
  (mem_of_mem_appendTasks h).resolve_left (by simp)

@[simp] theorem length_annotateTasks (runId ns : Bytes) (step : Nat) (tasks : List CheckpointTask) :
    (annotateTasks runId ns step tasks).length = tasks.length := by
  simp [annotateTasks]

end LangGraph
