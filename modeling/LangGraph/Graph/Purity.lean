import LangGraph.Graph.StepPlan
import LangGraph.Lib.ExceptList

/-!
# What a step of pure nodes depends on

Two runs of one graph that merge writes with the same content and route with routers that look at
the state only come to the same state and the same next tasks, whatever their ids and step numbers.
The content of a write is determined by the task, if the node computes a function of its input.
-/

namespace LangGraph

open EarlyExit ExceptRel StableSort ExceptList List

variable {σ τ : Type}

/-! ## 1. Merging and routing -/

structure WriteContent where
  nodeId : Bytes
  update : State
  order : Option Nat
  hasNextTasks : Bool
  nextTasks : List CheckpointTask
deriving DecidableEq

def CheckpointWrite.content (write : CheckpointWrite) : WriteContent where
  nodeId := write.nodeId
  update := write.update
  order := write.order
  hasNextTasks := write.hasNextTasks
  nextTasks := write.nextTasks

def StateGraph.RoutesPurely (graph : StateGraph) : Prop :=
  ∀ node router, OrderedMap.find node graph.routers = some router →
    ∀ state context context', router state context = router state context'

theorem StateGraph.RoutesPurely.nextTasksAfter {graph : StateGraph} (h : graph.RoutesPurely)
    (node : Bytes) (state : State) (context context' : Runtime) :
    graph.nextTasksAfter node state context = graph.nextTasksAfter node state context' := by
  unfold StateGraph.nextTasksAfter
  split
  · rename_i router hrouter
    rw [h node router hrouter state context context']
  · rfl

namespace GraphRun

structure SameProgram (run : GraphRun σ) (run' : GraphRun τ) : Prop where
  graph : run'.graph = run.graph
  reducers : run'.options.reducers = run.options.reducers

section Agree

variable {run : GraphRun σ} {run' : GraphRun τ} {ctx ctx' : StepContext} {E : Ending → Ending → Prop}

/-- A relation of endings that compares neither the tasks nor the writes a failure keeps. -/
def IgnoresKept (ctx ctx' : StepContext) (E : Ending → Ending → Prop) : Prop :=
  ∀ site status node next next' pending pending' state,
    E (.failed ⟨site, status, ctx.nextStep, node, next, pending⟩ state)
      (.failed ⟨site, status, ctx'.nextStep, node, next', pending'⟩ state)

theorem orFailed_agree {α : Type} {result : Result α} {call call' : Status → FailCall}
    {state : State} (hE : ∀ status, E (.failed (call status) state) (.failed (call' status) state)) :
    Agree E Eq (orFailed result call state) (orFailed result call' state) := by
  cases result with
  | ok => exact .ok rfl
  | error status => exact .error (hE status)

variable {writes writes' : List CheckpointWrite} {result result' : RunResult}

theorem planMerge_agree (same : SameProgram run run') (hE : IgnoresKept ctx ctx' E) (state : State)
    (hwrites : writes'.map (·.content) = writes.map (·.content)) :
    Agree E Eq (run.planMerge ctx state writes) (run'.planMerge ctx' state writes') := by
  induction writes generalizing state writes' with
  | nil =>
    rw [map_nil, map_eq_nil_iff] at hwrites
    rw [hwrites]; exact .ok rfl
  | cons write writes ih =>
    obtain ⟨write', rest', rfl, hhead, htail⟩ := map_eq_cons_iff.mp hwrites
    have hnode : write'.nodeId = write.nodeId := congrArg WriteContent.nodeId hhead
    have hupdate : write'.update = write.update := congrArg WriteContent.update hhead
    unfold planMerge
    rw [hnode, hupdate, same.graph, same.reducers]
    cases applyStateUpdate state ⟨write.update.view⟩ run.options.reducers with
    | error => exact .error (hE ..)
    | ok merged =>
      dsimp only
      cases validateStateSchema merged run.graph.schemas.stateSchema "state" with
      | error => exact .error (hE ..)
      | ok => exact ih merged htail

theorem routeFromWrite_eq (same : SameProgram run run') (hpure : run.graph.RoutesPurely)
    (hstate : result'.state = result.state) {step step' : Nat} {write write' : CheckpointWrite}
    (hwrite : write'.content = write.content) (routed : List CheckpointTask) :
    run'.routeFromWrite result' step' write' routed = run.routeFromWrite result step write routed := by
  have hnode : write'.nodeId = write.nodeId := congrArg WriteContent.nodeId hwrite
  have hflag : write'.hasNextTasks = write.hasNextTasks := congrArg WriteContent.hasNextTasks hwrite
  have htasks : write'.nextTasks = write.nextTasks := congrArg WriteContent.nextTasks hwrite
  unfold routeFromWrite
  rw [hnode, hflag, htasks, same.graph, hstate, hpure.nextTasksAfter write.nodeId result.state _
    (routeContext result step write.nodeId)]

theorem planRoute_agree (same : SameProgram run run') (hpure : run.graph.RoutesPurely)
    (hE : IgnoresKept ctx ctx' E) (hstate : result'.state = result.state)
    (routed : List CheckpointTask) (hwrites : writes'.map (·.content) = writes.map (·.content)) :
    Agree E Eq (run.planRoute ctx result routed writes)
      (run'.planRoute ctx' result' routed writes') := by
  induction writes generalizing routed writes' with
  | nil =>
    rw [map_nil, map_eq_nil_iff] at hwrites
    rw [hwrites]; exact .ok rfl
  | cons write writes ih =>
    obtain ⟨write', rest', rfl, hhead, htail⟩ := map_eq_cons_iff.mp hwrites
    have hnode : write'.nodeId = write.nodeId := congrArg WriteContent.nodeId hhead
    unfold planRoute
    rw [routeFromWrite_eq same hpure hstate hhead routed, hnode, hstate]
    refine (orFailed_agree fun _ => hE ..).bind fun next next' heq => ?_
    rw [← heq]; exact ih next htail

theorem planCompletion_agree (same : SameProgram run run') {result result' : RunResult}
    (hstate : result'.state = result.state) {site : FailSite} {node node' : Bytes}
    {next next' : List CheckpointTask}
    (hE : ∀ status, E
      (.failed { site, status, failedStep := ctx.nextStep, node, failureNext := next } result.state)
      (.failed { site, status, failedStep := ctx'.nextStep, node := node', failureNext := next' }
        result.state)) :
    Agree E Eq (run.planCompletion ctx result site node next)
      (run'.planCompletion ctx' result' site node' next') := by
  unfold planCompletion
  rw [same.graph, hstate]; exact orFailed_agree hE

theorem planFinish_agree (same : SameProgram run run') (hpure : run.graph.RoutesPurely)
    (hE : IgnoresKept ctx ctx' E) {result result' : RunResult} (hstate : result'.state = result.state)
    {writes writes' : List CheckpointWrite} (hwrites : writes'.map (·.content) = writes.map (·.content))
    (hcompletion : ∀ status next, E
      (.failed { site := .completion, status, failedStep := ctx.nextStep, node := ctx.failureNode
                 failureNext := next } result.state)
      (.failed { site := .completion, status, failedStep := ctx'.nextStep, node := ctx'.failureNode
                 failureNext := next } result.state)) :
    Agree E Eq (run.planFinish ctx result writes) (run'.planFinish ctx' result' writes') := by
  unfold planFinish
  refine (planRoute_agree same hpure hE hstate [] hwrites).bind fun routed routed' heq => ?_
  subst heq
  split_ifs
  · exact (planCompletion_agree same hstate fun status => hcompletion status routed).bind
      fun _ _ _ => .ok rfl
  · exact .ok rfl

end Agree

/-! ## 2. Nodes that compute a function -/

end GraphRun

/-- Whenever the node succeeds, by itself or through its error handler, its output is `f` of the
    input. -/
structure NodeSpec.Computes (spec : NodeSpec) (f : State → NodeOutput) : Prop where
  handler : ∀ input runtime output,
    handlerResult "node handler" spec.options.hasTimeout (spec.handler input runtime) = .ok output →
    output = f input
  errorHandler : ∀ errorHandler, spec.options.errorHandler = some errorHandler →
    ∀ status input runtime output,
      handlerResult "node error handler" false (errorHandler status input runtime) = .ok output →
      output = f input

def StateGraph.Computes (graph : StateGraph) (f : Bytes → State → NodeOutput) : Prop :=
  ∀ node spec, OrderedMap.find node graph.nodes = some spec → spec.Computes (f node)

/-- What a task is about: the node, the branch state and the place in the step. -/
structure TaskWork where
  nodeId : Bytes
  state : Option State
  order : Option Nat
deriving DecidableEq

def CheckpointTask.work (task : CheckpointTask) : TaskWork where
  nodeId := task.nodeId
  state := task.state
  order := task.order

def TaskWork.output (work : TaskWork) (f : Bytes → State → NodeOutput) (state : State) : NodeOutput :=
  f work.nodeId (work.state.getD state)

namespace GraphRun

section Computes

variable {run : GraphRun σ} {f : Bytes → State → NodeOutput}

theorem executeTask_output (hgraph : run.graph.Computes f) {result : RunResult}
    {resumeValues : List (Nat × Json)} {inputState : State} {step index : Nat} {task : CheckpointTask}
    (hok : (run.executeTask result resumeValues inputState step index task).status = none) :
    (run.executeTask result resumeValues inputState step index task).output
      = some (task.work.output f inputState) := by
  unfold executeTask at hok ⊢
  cases hspec : OrderedMap.find task.nodeId run.graph.nodes with
  | none =>
    rw [hspec] at hok; cases hok
  | some spec =>
    have hcomputes := hgraph _ _ hspec
    rw [hspec] at hok
    dsimp only at hok ⊢
    split at hok
    · rename_i execution hfinished
      obtain ⟨_, output, houtput, hsome⟩ := (run.attemptLoop_finished hfinished).2 hok
      rw [hcomputes.handler _ _ _ houtput] at hsome; exact hsome
    · unfold recoverTask at hok ⊢
      cases hhandler : spec.options.errorHandler with
      | none =>
        rw [hhandler] at hok; cases hok
      | some errorHandler =>
        rw [hhandler] at hok
        dsimp only at hok ⊢
        split at hok
        · rename_i output houtput
          rw [hcomputes.errorHandler errorHandler hhandler _ _ _ _ houtput]; rfl
        · cases hok

variable {execution : NodeExecution}

theorem dispatchExecutions_output (hgraph : run.graph.Computes f) {result : RunResult}
    {resumeValues : List (Nat × Json)} {activeTasks : List CheckpointTask} {inputState : State}
    {step : Nat}
    (hmem : execution ∈ run.dispatchExecutions result resumeValues activeTasks inputState step)
    (hok : execution.status = none) :
    execution.output = some (execution.task.work.output f inputState) := by
  obtain ⟨index, hindex, rfl⟩ := mem_mapIdx.mp hmem
  have hexecuted : ∀ {task : CheckpointTask},
      (run.executeTask result resumeValues inputState step index task).status = none →
      (run.executeTask result resumeValues inputState step index task).output = some
        ((run.executeTask result resumeValues inputState step index task).task.work.output f
          inputState) := fun hok => by
    rw [executeTask_output hgraph hok, executeTask_task]
  split_ifs at hok ⊢
  · exact hexecuted hok
  · split at hok
    · cases hok
    · exact hexecuted hok

theorem stepClassified_output (hgraph : run.graph.Computes f) {ctx : StepContext} {st : RunState σ}
    (hmem : execution ∈ (run.stepClassified ctx st).executions) (hok : execution.status = none) :
    execution.output = some (execution.task.work.output f ctx.inputState) := by
  obtain ⟨origin, horigin, htask, hout, hstatus⟩ := (worse_classify _ _).origin hmem
  rw [htask, hout]
  refine dispatchExecutions_output hgraph horigin ?_
  cases hs : origin.status with
  | none => rfl
  | some =>
    have := hstatus (by simp [hs])
    rw [hok, hs] at this; cases this

end Computes

/-! ## 3. The content of a write -/

def contentOf (run : GraphRun σ) (f : Bytes → State → NodeOutput) (state : State) (work : TaskWork) :
    Result WriteContent :=
  (run.writeFromExecution { state } { nodeId := work.nodeId, order := work.order }
    (work.output f state)).map (·.content)

section Content

variable {run : GraphRun σ} {run' : GraphRun τ} {f : Bytes → State → NodeOutput}

variable {result : RunResult} {state : State} {writes : List CheckpointWrite}
  {works : List TaskWork}

/-- Apart from the ids it carries, a write is determined by the graph, the node, the order and the
    output. -/
theorem map_content_writeFromExecution (hgraph : run'.graph = run.graph) {result' : RunResult}
    {task task' : CheckpointTask} (hnode : task'.nodeId = task.nodeId)
    (horder : task'.order = task.order) (output : NodeOutput) :
    (run'.writeFromExecution result' task' output).map (·.content)
      = (run.writeFromExecution result task output).map (·.content) := by
  have htasks : ∀ command, run'.commandTasksAfter task'.nodeId command
      = run.commandTasksAfter task.nodeId command := by
    intro command
    have hgoto : ∀ destinations targets tasks, run'.gotoTasks destinations tasks targets
        = run.gotoTasks destinations tasks targets := by
      intro destinations targets
      induction targets with
      | nil => exact fun _ => rfl
      | cons target targets ih =>
        intro tasks
        unfold gotoTasks
        rw [hgraph, ih]
    unfold commandTasksAfter
    rw [hnode, hgraph, hgoto]
  unfold writeFromExecution
  cases output.update.toState with
  | error => rfl
  | ok =>
    cases output.command with
    | none =>
      show Except.ok _ = Except.ok _; simp [CheckpointWrite.content, hnode, horder]
    | some command =>
      dsimp only [bind, Except.bind]
      rw [htasks]
      cases run.commandTasksAfter task.nodeId command with
      | error => rfl
      | ok =>
        show Except.ok _ = Except.ok _
        simp [CheckpointWrite.content, hnode, horder]

theorem contentOf_congr (hgraph : run'.graph = run.graph) (state : State) (work : TaskWork) :
    run'.contentOf f state work = run.contentOf f state work :=
  map_content_writeFromExecution hgraph rfl rfl _

theorem writeOf_content {execution : NodeExecution}
    (hout : execution.output = some (execution.task.work.output f state)) :
    (run.writeOf result execution).map (·.content) = run.contentOf f state execution.task.work := by
  rw [writeOf, hout, Option.getD_some, contentOf]
  refine map_content_writeFromExecution rfl ?_ ?_ _ <;> rfl

theorem contentOf_order {work : TaskWork} {content : WriteContent}
    (h : run.contentOf f state work = .ok content) : content.order = work.order := by
  unfold contentOf at h
  cases hwrite : run.writeFromExecution { state } { nodeId := work.nodeId, order := work.order }
      (work.output f state) with
  | error status =>
    rw [hwrite] at h; cases h
  | ok write =>
    rw [hwrite] at h
    cases h
    have hids := writeOf_ids (show run.writeOf { state }
      { task := { nodeId := work.nodeId, order := work.order }
        output := some (work.output f state) } = .ok write from hwrite)
    exact hids.2.2

/-- The writes are those of the tasks, whatever run they come from. -/
def ContentsOf (run : GraphRun σ) (f : Bytes → State → NodeOutput) (state : State)
    (works : List TaskWork) (writes : List CheckpointWrite) : Prop :=
  works.map (run.contentOf f state) = writes.map fun write => .ok write.content

theorem WritesOf.contents {result : RunResult} {executions : List NodeExecution}
    {writes : List CheckpointWrite} {state : State} (h : run.WritesOf result executions writes)
    (hout : ∀ execution ∈ executions,
      execution.output = some (execution.task.work.output f state)) :
    run.ContentsOf f state (executions.map (·.task.work)) writes := by
  unfold ContentsOf
  induction h with
  | nil => rfl
  | @cons execution write executions writes hhead _ ih =>
    have hcontent : (run.writeOf result execution).map (·.content) = _ :=
      writeOf_content (hout execution mem_cons_self)
    rw [hhead] at hcontent
    rw [map_cons, map_cons, map_cons, ih fun e he => hout e (mem_cons_of_mem _ he), ← hcontent]
    rfl

theorem ContentsOf.append {works' : List TaskWork} {writes' : List CheckpointWrite}
    (h : run.ContentsOf f state works writes) (h' : run.ContentsOf f state works' writes') :
    run.ContentsOf f state (works ++ works') (writes ++ writes') := by
  unfold ContentsOf at h h' ⊢
  rw [map_append, map_append, h, h']

theorem ContentsOf.congr (hgraph : run'.graph = run.graph)
    (h : run.ContentsOf f state works writes) : run'.ContentsOf f state works writes := by
  unfold ContentsOf at h ⊢
  rw [← h]
  exact map_congr_left fun work _ => contentOf_congr hgraph state work

section

variable (h : run.ContentsOf f state works writes)

include h

theorem ContentsOf.exists_content {work : TaskWork} (hwork : work ∈ works) :
    ∃ content, run.contentOf f state work = .ok content := by
  have hmem := mem_map_of_mem (f := run.contentOf f state) hwork
  rw [h] at hmem
  obtain ⟨write, -, hwrite⟩ := mem_map.mp hmem
  exact ⟨write.content, hwrite.symm⟩

theorem ContentsOf.perm {works' : List TaskWork} {writes' : List CheckpointWrite}
    (h' : run.ContentsOf f state works' writes') (hperm : works.Perm works') :
    (writes.map (·.content)).Perm (writes'.map (·.content)) := by
  have hok : Function.Injective (Except.ok : WriteContent → Result WriteContent) :=
    fun _ _ heq => Except.ok.inj heq
  rw [← map_perm_map_iff hok, map_map, map_map]
  have := hperm.map (run.contentOf f state)
  rw [h, h'] at this; exact this

theorem ContentsOf.orders : (writes.map (·.content)).map (·.order) = works.map (·.order) := by
  unfold ContentsOf at h
  induction works generalizing writes with
  | nil => rw [map_eq_nil_iff.mp h.symm]; rfl
  | cons work works ih =>
    obtain ⟨write, rest, rfl, hhead, htail⟩ := map_eq_cons_iff.mp h.symm
    rw [map_cons, map_cons, map_cons, ih htail.symm, contentOf_order hhead.symm]

end

theorem exists_writesOf {result : RunResult} {executions : List NodeExecution} {state : State}
    (hout : ∀ execution ∈ executions, execution.output = some (execution.task.work.output f state))
    (hok : ∀ execution ∈ executions, ∃ content,
      run.contentOf f state execution.task.work = .ok content) :
    ∃ writes, run.WritesOf result executions writes := by
  induction executions with
  | nil => exact ⟨[], .nil⟩
  | cons execution executions ih =>
    obtain ⟨writes, hwrites⟩ := ih (fun e he => hout e (mem_cons_of_mem _ he))
      fun e he => hok e (mem_cons_of_mem _ he)
    obtain ⟨content, hcontent⟩ := hok execution mem_cons_self
    have hwrite : (run.writeOf result execution).map (·.content) = _ :=
      writeOf_content (hout execution mem_cons_self)
    rw [hcontent] at hwrite
    cases hown : run.writeOf result execution with
    | error =>
      rw [hown] at hwrite; cases hwrite
    | ok write => exact ⟨write :: writes, .cons hown hwrites⟩

end Content

/-! ## 4. Steps whose tasks all succeed -/

def WriteContent.orderLess (lhs rhs : WriteContent) : Bool :=
  lhs.order.getD maxOrder < rhs.order.getD maxOrder

theorem stableSort_contents {writes writes' : List CheckpointWrite}
    (hperm : (writes.map (·.content)).Perm (writes'.map (·.content)))
    (hties : (writes.map (·.content)).Pairwise fun c d =>
      WriteContent.orderLess c d = true ∨ WriteContent.orderLess d c = true) :
    (stableSort writeOrderLess writes).map (·.content)
      = (stableSort writeOrderLess writes').map (·.content) := by
  have hmap : ∀ writes : List CheckpointWrite, (stableSort writeOrderLess writes).map (·.content)
      = stableSort WriteContent.orderLess (writes.map (·.content)) := fun writes =>
    map_stableSort _ _ _ fun _ _ _ _ => rfl
  have horder : StrictWeakOrder WriteContent.orderLess := by
    refine .of_key (fun c : WriteContent => c.order.getD maxOrder) _ fun c d => ?_
    rw [WriteContent.orderLess, decide_eq_true_eq]
  rw [hmap, hmap]; exact stableSort_eq_of_perm horder hperm hties

theorem pairwise_orderLess {contents : List WriteContent} {n : Nat}
    (h : contents.map (·.order) = (range n).map some) :
    contents.Pairwise fun c d =>
      WriteContent.orderLess c d = true ∨ WriteContent.orderLess d c = true := by
  have horders : (contents.map (·.order)).Pairwise fun o p => o.getD maxOrder < p.getD maxOrder := by
    rw [h, pairwise_map]; exact pairwise_lt_range
  rw [pairwise_map] at horders
  exact horders.imp fun hlt => .inl (decide_eq_true hlt)

section Plain

variable {run : GraphRun σ} {ctx : StepContext}

theorem planCollect_ok_iff {result : RunResult} {executions : List NodeExecution}
    {writes all : List CheckpointWrite} :
    run.planCollect ctx result writes executions = .ok all ↔
      ∃ own, all = writes ++ own ∧ run.WritesOf result executions own := by
  induction executions generalizing writes with
  | nil =>
    constructor
    · intro h; exact ⟨[], by simpa [planCollect] using h.symm, .nil⟩
    · rintro ⟨own, rfl, hown⟩
      cases hown; simp [planCollect]
  | cons execution rest ih =>
    unfold planCollect
    cases hwrite : run.writeOf result execution with
    | error =>
      constructor
      · intro h; cases h
      · rintro ⟨own, -, hown⟩
        cases hown with
        | cons hhead => cases hhead.symm.trans hwrite
    | ok write =>
      rw [ih]
      constructor
      · rintro ⟨own, rfl, hown⟩; exact ⟨write :: own, by simp, .cons hwrite hown⟩
      · rintro ⟨own, rfl, hown⟩
        cases hown with
        | @cons _ write' _ own hhead htail =>
          obtain rfl : write = write' := Except.ok.inj (hwrite.symm.trans hhead)
          exact ⟨own, by simp, htail⟩

/-- A step whose outputs are all plain: the writes of its tasks, with those that were pending, merge
    to the given state and lead to the given tasks. -/
structure PlainStep (run : GraphRun σ) (loop : LoopState) (st : RunState σ)
    (own : List CheckpointWrite) (merged : State) (nextTasks : List CheckpointTask) : Prop where
  plain : ∀ execution ∈ run.stepExecutions (stepContext loop st.result) st, execution.Plain
  writes : run.WritesOf st.core (run.stepExecutions (stepContext loop st.result) st) own
  merge : run.planMerge (stepContext loop st.result) st.core.state
    (stableSort writeOrderLess (loop.pendingWrites ++ own)) = .ok merged
  finish : run.planFinish (stepContext loop st.result) { st.core with state := merged }
    (stableSort writeOrderLess (loop.pendingWrites ++ own)) = .ok nextTasks

section PlainStep

variable {loop loop' : LoopState} {st st' : RunState σ}

theorem stepClassified_of_plain
    (hplain : ∀ execution ∈ run.stepExecutions (stepContext loop st.result) st, execution.Plain) :
    run.stepClassified (stepContext loop st.result) st
      = ⟨run.stepExecutions (stepContext loop st.result) st, [], [], none⟩ :=
  classify_of_plain hplain

theorem plainStep_of_superStep (h : run.superStep loop st = .ok loop' st') :
    ∃ own, PlainStep run loop st own st'.result.state loop'.nextTasks := by
  obtain ⟨_, _, committed⟩ := (superStep_ends run loop st).ok h
  have hplain := plain_of_classify committed.merging.noFailure committed.noParent
    committed.noInterrupt
  obtain ⟨planned, hplan, follow⟩ := (superStep_does run loop st).ok h
  unfold planStep at hplan
  dsimp only at hplan
  rw [stepClassified_of_plain hplain] at hplan
  obtain ⟨budget, -, hplan⟩ := of_bind hplan
  obtain ⟨_, -, hplan⟩ := of_bind hplan
  obtain ⟨all, hcollect, hplan⟩ := of_bind hplan
  obtain ⟨merged, hmerge, hplan⟩ := of_bind hplan
  obtain ⟨nextTasks, hfinish, hplan⟩ := of_bind hplan
  cases hplan
  obtain ⟨own, rfl, hown⟩ := planCollect_ok_iff.mp hcollect
  have hstate : st'.result.state = merged :=
    (congrArg RunResult.state follow.core :)
  rw [hstate, follow.loop]; exact ⟨own, hplain, hown, hmerge, hfinish⟩

theorem PlainStep.planStep {own : List CheckpointWrite} {merged : State}
    {nextTasks : List CheckpointTask} {budgetSteps : Nat}
    (h : PlainStep run loop st own merged nextTasks)
    (henter : run.planEnter (stepContext loop st.result) loop st.core.runId = .ok budgetSteps) :
    run.planStep loop st = .ok ({ nextTasks, pendingWrites := [], budgetSteps }, merged) := by
  have hcollect : run.planCollect (stepContext loop st.result) st.core loop.pendingWrites
      (run.stepExecutions (stepContext loop st.result) st) = .ok (loop.pendingWrites ++ own) :=
    planCollect_ok_iff.mpr ⟨own, rfl, h.writes⟩
  unfold GraphRun.planStep
  dsimp only
  rw [stepClassified_of_plain h.plain, henter]
  refine bind_eq_ok.mpr ⟨_, rfl, ?_⟩
  refine bind_eq_ok.mpr ⟨(), rfl, ?_⟩
  refine bind_eq_ok.mpr ⟨_, hcollect, ?_⟩
  refine bind_eq_ok.mpr ⟨merged, h.merge, ?_⟩
  exact bind_eq_ok.mpr ⟨nextTasks, h.finish, rfl⟩

end PlainStep

/-- Steps of one graph on one state whose writes have the same contents come to the same state and
    tasks. -/
theorem PlainStep.transfer {run' : GraphRun τ} {loop loop' : LoopState} {st : RunState σ}
    {st' : RunState τ} {own own' : List CheckpointWrite} {merged : State}
    {nextTasks : List CheckpointTask} (h : PlainStep run loop st own merged nextTasks)
    (same : SameProgram run run') (hroutes : run.graph.RoutesPurely)
    (hstate : st'.result.state = st.result.state)
    (hplain : ∀ execution ∈ run'.stepExecutions (stepContext loop' st'.result) st', execution.Plain)
    (hwrites : run'.WritesOf st'.core (run'.stepExecutions (stepContext loop' st'.result) st') own')
    (hcontents : (stableSort writeOrderLess (loop'.pendingWrites ++ own')).map (·.content)
      = (stableSort writeOrderLess (loop.pendingWrites ++ own)).map (·.content)) :
    PlainStep run' loop' st' own' merged nextTasks := by
  have hignore : IgnoresKept (stepContext loop st.result) (stepContext loop' st'.result)
    fun _ _ => True := fun _ _ _ _ _ _ _ _ => trivial
  have hmerge := planMerge_agree same hignore st.core.state hcontents
  rw [h.merge] at hmerge
  obtain ⟨_, hmerge, rfl⟩ := hmerge.of_ok
  have hresult : ({ st'.core with state := merged } : RunResult).state
    = ({ st.core with state := merged } : RunResult).state := rfl
  have hfinish := planFinish_agree same hroutes hignore hresult hcontents fun _ _ => trivial
  rw [h.finish] at hfinish
  obtain ⟨_, hfinish, rfl⟩ := hfinish.of_ok
  refine ⟨hplain, hwrites, ?_, hfinish⟩
  rw [show st'.core.state = st.core.state from hstate]; exact hmerge

end Plain

end GraphRun

end LangGraph
