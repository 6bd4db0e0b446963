import LangGraph.Graph.Attempt
import LangGraph.Graph.Head

/-!
# Recovering a super-step

A super-step of pure nodes may be tried any number of times: each attempt may fail in some of its
handlers or stop after some of its task writes, and the next one resumes the thread.  The attempt in
which everything that is left succeeds comes to the state and the next tasks of a step that
succeeded at once, as long as `latest` finds what the attempt before it stored.
-/

namespace LangGraph

open EarlyExit InMemorySaver StableSort ExceptRel OrderedMap List Except Bool

variable {σ : Type}

namespace CompiledStateGraph

/-! ## 1. The start of a continued run -/

/-- What a run that continues a checkpoint without a command begins with. -/
structure Continued (tuple : CheckpointTuple) (step : Nat) (threadId checkpointNamespace : Bytes)
    (loop : GraphRun.LoopState) (st : RunState σ) : Prop where
  nextTasks : loop.nextTasks = normalizeNextTasks (nextTasksFromCheckpoint tuple.checkpoint)
  pendingWrites : loop.pendingWrites = tuple.pendingWrites
  budget : loop.budgetSteps = 0
  state : withoutRunErrorMetadata tuple.checkpoint.state = .ok st.result.state
  resumeValues : st.resumeValuesByTask = []
  step : st.result.step = step
  threadId : st.result.threadId = threadId
  checkpointNamespace : st.result.checkpointNamespace = checkpointNamespace

theorem continueFrom_start {host : Host} {graph : StateGraph} {tuple : CheckpointTuple} {step : Nat}
    {threadId : Bytes} {options : RunOptions σ} {world : World σ} {loop : GraphRun.LoopState}
    {st : RunState σ} (hthread : threadId ≠ []) (hcommand : options.command = none)
    (h : (continueFrom host graph tuple step threadId options).start
      ((continueFrom host graph tuple step threadId options).initialState world) = .ok loop st) :
    Continued tuple step threadId (if options.checkpointNamespace = [] then
      tuple.checkpoint.checkpointNamespace else options.checkpointNamespace) loop st := by
  obtain ⟨cleaned, started⟩ := (GraphRun.start_ends _ world).ok h
  have hanswer := started.answer
  rw [GraphRun.givenAnswer, show (continueFrom host graph tuple step threadId options).options.command
    = none from hcommand] at hanswer
  have hcleaned : cleaned = st.result.state := congrArg Prod.fst (ok.inj hanswer)
  have hids : ((continueFrom host graph tuple step threadId options).identified world).result.threadId
      = threadId := by
    simp [GraphRun.identified, GraphRun.assignIds, continueFrom, hthread]
  exact {
    __ := started
    nextTasks := (ok.inj started.nextTasks).symm
    state := hcleaned ▸ started.cleaning
    resumeValues := (congrArg Prod.snd (ok.inj hanswer)).symm
    step := (congrArg RunResult.step started.core :)
    threadId := (congrArg RunResult.threadId started.core :).trans hids
    checkpointNamespace :=
      (congrArg RunResult.checkpointNamespace started.core :) }

end CompiledStateGraph

namespace GraphRun

/-! ## 2. Attempts at a step -/

/-- The attempt resumes what an earlier one left, with the same options and a new run id. -/
structure Resumed (host : Host) (graph : StateGraph) (options : RunOptions InMemoryStore)
    (thread : Bytes) (store : InMemoryStore) (reads : Nat) (a : Attempt) : Prop where
  content : a.world.saver = store
  clock : reads ≤ a.world.clockReads
  resumed : ∃ runId,
    CompiledStateGraph.resume host graph thread { options with runId := runId } a.world = .ok a.run
  started : a.run.start (a.run.initialState a.world) = .ok a.loop a.st
  fresh : FreshId store thread options.checkpointNamespace a.st.result.runId

/-- The attempts at the super-step that `first` is about to execute. -/
inductive Attempts (host : Host) (graph : StateGraph) (options : RunOptions InMemoryStore)
    (first : Attempt) : Attempt → Prop
  | first : Attempts host graph options first first
  | again {a a' : Attempt} {store : InMemoryStore} {reads : Nat}
      (h : Attempts host graph options first a) (stopped : Stopped a store reads)
      (resumed : Resumed host graph options first.st.result.threadId store reads a') :
      Attempts host graph options first a'

structure EntersStep (host : Host) (graph : StateGraph) (options : RunOptions InMemoryStore)
    (a : Attempt) : Prop where
  onHost : a.run.host = host
  ofGraph : a.run.graph = graph
  withOptions : a.run.options
    = { options with runId := a.run.options.runId, threadId := a.run.options.threadId }
  reached : Reaches a.run a.world a.loop a.st
  runnable : isTerminalNextTasks a.loop.nextTasks = false
  routed : ∀ task ∈ a.loop.nextTasks, task.order = none
  noPending : a.loop.pendingWrites = []

/-- Nothing stands in the way of a resume: the thread is kept in memory under a clock that does not
    go back, none of its checkpoints is ahead of the step, and the state has no error entry. -/
structure Recoverable (host : Host) (options : RunOptions InMemoryStore) (a : Attempt) : Prop where
  saver : options.checkpointer = some inMemorySaver
  command : options.command = none
  sound : Sound host a.world.clockReads a.world.saver
  steady : host.Steady a.world.clockReads
  noError : OrderedMap.find kRunErrorStateKey a.st.result.state.view = none
  notAhead : ∀ d ∈ threadCheckpoints a.world.saver a.st.result.threadId,
    d.checkpointNamespace = options.checkpointNamespace → d.step ≤ a.st.result.step + 1

def Attempt.works (a : Attempt) : List TaskWork :=
  (stepContext a.loop a.st.result).activeTasks.map (·.work)

/-- The attempt is at the same step as the first one: what it does not execute is pending. -/
structure Rest (host : Host) (graph : StateGraph) (options : RunOptions InMemoryStore)
    (f : Bytes → State → NodeOutput) (first a : Attempt) : Prop where
  onHost : a.run.host = host
  ofGraph : a.run.graph = graph
  reducers : a.run.options.reducers = options.reducers
  saver : a.run.options.checkpointer = some inMemorySaver
  reached : Reaches a.run a.world a.loop a.st
  runnable : isTerminalNextTasks a.loop.nextTasks = false
  sound : Sound host a.world.clockReads a.world.saver
  steady : host.Steady a.world.clockReads
  notAhead : ∀ d ∈ threadCheckpoints a.world.saver a.st.result.threadId,
    d.checkpointNamespace = options.checkpointNamespace → d.step ≤ a.st.result.step + 1
  threadId : a.st.result.threadId = first.st.result.threadId
  checkpointNamespace : a.st.result.checkpointNamespace = options.checkpointNamespace
  state : a.st.result.state = first.st.result.state
  storable : ∀ write ∈ a.loop.pendingWrites, write.Storable
  split : ∃ done, (a.works ++ done).Perm first.works ∧
    a.run.ContentsOf f first.st.result.state done a.loop.pendingWrites

theorem EntersStep.rest {host : Host} {graph : StateGraph} {options : RunOptions InMemoryStore}
    {a : Attempt} (enters : EntersStep host graph options a)
    (recoverable : Recoverable host options a) (f : Bytes → State → NodeOutput) :
    Rest host graph options f a a := by
  obtain ⟨state, step, hcore⟩ := enters.reached.identity
  have hns : a.st.result.checkpointNamespace = a.run.options.checkpointNamespace :=
    (congrArg RunResult.checkpointNamespace hcore :)
  have hoptions := enters.withOptions
  exact {
    __ := enters
    reducers := by rw [hoptions]
    saver := by rw [hoptions]; exact recoverable.saver
    sound := recoverable.sound
    steady := recoverable.steady
    notAhead := recoverable.notAhead
    threadId := rfl
    checkpointNamespace := hns.trans (by rw [hoptions])
    state := rfl
    storable := by simp [enters.noPending]
    split := ⟨[], by simp, by rw [enters.noPending]; rfl⟩ }

theorem isTerminalNextTasks_of_settled {ns : Bytes} {tasks : List CheckpointTask} (hne : tasks ≠ [])
    (h : ∀ task ∈ tasks, task.Settled ns) : isTerminalNextTasks tasks = false := by
  obtain ⟨task, htask⟩ := exists_mem_of_ne_nil tasks hne
  exact all_eq_false.mpr ⟨task, htask, by simp [(h task htask).runnable]⟩

theorem replayStartStep_le {c : Checkpoint} : c.step ≤ replayStartStep c + 1 := by
  unfold replayStartStep
  split_ifs <;> omega

section Again

variable {host : Host} {graph : StateGraph} {options : RunOptions InMemoryStore}
  {f : Bytes → State → NodeOutput} {first a a' : Attempt} {store : InMemoryStore} {reads : Nat}

theorem Resumed.continues (resumed : Resumed host graph options first.st.result.threadId store reads a')
    (hsaver : options.checkpointer = some inMemorySaver) {c : Checkpoint} (hvalid : Valid store)
    (hthread : c.threadId = first.st.result.threadId) (hne : c.threadId ≠ [])
    (hns : c.checkpointNamespace = options.checkpointNamespace)
    (hlatest : findCheckpoint (.latest c.threadId c.checkpointNamespace) store = some c) :
    ∃ runId, a'.run = CompiledStateGraph.continueFrom host graph ⟨c, c.pendingWrites⟩
      (replayStartStep c) c.threadId { options with runId := runId } := by
  obtain ⟨runId, hresume⟩ := resumed.resumed
  obtain ⟨saver, tuple, -, hgiven, htuple, -, hrun⟩ := CompiledStateGraph.resume_ok hresume
  obtain rfl : saver = inMemorySaver := Option.some.inj (hgiven.symm.trans hsaver)
  have hget := (getTuple_latest_iff hvalid hne).mpr hlatest
  rw [resumed.content, ← hthread, show ({ options with runId := runId } : RunOptions
    InMemoryStore).checkpointNamespace = c.checkpointNamespace from hns.symm] at htuple
  obtain rfl : tuple = ⟨c, c.pendingWrites⟩ :=
    Option.some.inj (ok.inj (htuple.symm.trans hget))
  exact ⟨runId, hthread ▸ hrun⟩

theorem Rest.again (hgraph : graph.Computes f) (hsaver : options.checkpointer = some inMemorySaver)
    (hcommand : options.command = none)
    (hkey : find kRunErrorStateKey first.st.result.state.view = none)
    (rest : Rest host graph options f first a) (stopped : Stopped a store reads)
    (resumed : Resumed host graph options first.st.result.threadId store reads a') :
    Rest host graph options f first a' := by
  have honHost := rest.onHost
  subst honHost
  have hahead := rest.notAhead
  rw [← rest.checkpointNamespace] at hahead
  obtain ⟨c, hpart, hne, hlatest, hsound, hreads⟩ := stopped.head rest.saver rest.reached
    (rest.state ▸ hkey) rest.sound rest.steady hahead
  have hthread := hpart.threadId.trans rest.threadId
  have hns := hpart.checkpointNamespace.trans rest.checkpointNamespace
  -- the resume finds the checkpoint of the failed attempt and starts from it
  obtain ⟨runId, hrun⟩ := resumed.continues hsaver hsound.valid hthread hne hns hlatest
  have hstart := resumed.started
  rw [hrun] at hstart
  have cont := CompiledStateGraph.continueFrom_start hne (show ({ options with runId := runId } :
    RunOptions InMemoryStore).command = none from hcommand) hstart
  have hns' : a'.st.result.checkpointNamespace = a.st.result.checkpointNamespace := by
    rw [cont.checkpointNamespace, rest.checkpointNamespace]
    split_ifs
    · exact hns
    · rfl
  -- what earlier attempts have done, and what this one adds to it before it stops
  obtain ⟨done, hperm, hcontents⟩ := rest.split
  obtain ⟨succeeded, own, hsplit, hsucceeded, hwrites, hpending⟩ := hpart.split
  have hsettled := fun task ht =>
    activeTasks_settled a.loop a.st.result task (hsplit.subset (mem_append_left _ ht))
  have hnormal : normalizeNextTasks c.nextTasks = c.nextTasks :=
    normalizeNextTasks_of_normal (normal_of_settled hsettled)
  have hnext : a'.loop.nextTasks = c.nextTasks := by
    rw [cont.nextTasks, nextTasksFromCheckpoint, if_pos hpart.remaining, hnormal]
  have hworks : a'.works = c.nextTasks.map (·.work) := by
    unfold Attempt.works stepContext
    rw [hnext, hns', hnormal, annotateTasks_of_settled hsettled]
  have hgraph' : a'.run.graph = graph := by rw [hrun]; rfl
  exact {
    onHost := by rw [hrun]; rfl
    ofGraph := hgraph'
    reducers := by rw [hrun]; rfl
    saver := by rw [hrun]; exact hsaver
    reached := .start resumed.started
    runnable := by
      rw [hnext]; exact isTerminalNextTasks_of_settled hpart.remaining hsettled
    sound := by rw [resumed.content]; exact hsound.mono resumed.clock
    steady := rest.steady.mono (hreads.trans resumed.clock)
    notAhead := by
      intro d hd hdns
      rw [resumed.content, cont.threadId] at hd
      rw [cont.step]
      exact (step_le_latest hsound.valid hlatest hd (hdns.trans hns.symm)).trans replayStartStep_le
    threadId := cont.threadId.trans hthread
    checkpointNamespace := hns'.trans rest.checkpointNamespace
    state := by
      have hstate := ok.inj (cont.state.symm.trans hpart.state)
      exact hstate.trans rest.state
    storable := by
      intro write hwrite
      rw [cont.pendingWrites, hpending] at hwrite
      rcases mem_append.mp hwrite with hwrite | hwrite
      · exact rest.storable write hwrite
      · exact hwrites.storable (fun e he => stepClassified_nodeId _ _ _ e (hsucceeded e he).2) write
          hwrite
    split := by
      refine ⟨done ++ succeeded.map (·.task.work), ?_, ?_⟩
      · have htasks : (c.nextTasks.map (·.work) ++ succeeded.map (·.task.work)).Perm a.works := by
          have := hsplit.map (·.work); rwa [map_append, map_map] at this
        rw [hworks]
        refine (perm_append_comm.append_left _).trans ?_
        rw [← append_assoc]; exact (htasks.append_right done).trans hperm
      · have hown : a.run.ContentsOf f first.st.result.state (succeeded.map (·.task.work)) own :=
          hwrites.contents fun e he => by
            rw [← rest.state]
            exact stepClassified_output (rest.ofGraph.symm ▸ hgraph) (hsucceeded e he).2
              (hsucceeded e he).1
        rw [cont.pendingWrites, hpending]
        exact (hcontents.append hown).congr (hgraph'.trans rest.ofGraph.symm) }

theorem Attempts.rest (hgraph : graph.Computes f) (enters : EntersStep host graph options first)
    (recoverable : Recoverable host options first) (h : Attempts host graph options first a) :
    Rest host graph options f first a := by
  induction h with
  | first => exact enters.rest recoverable f
  | again _ stopped resumed ih =>
    exact ih.again hgraph recoverable.saver recoverable.command recoverable.noError stopped resumed

end Again

/-! ## 3. The last attempt -/

/-- Everything that is left of the step succeeds, and nothing else ends the run: it is not cancelled,
    has steps left and no event is refused. -/
structure Attempt.Succeeds (a : Attempt) : Prop where
  notCancelled : a.run.options.cancellationToken
    (.superStep a.st.result.runId (a.st.result.step + 1)) = .ok ()
  inBudget : ∃ steps, consumeStep a.run.options.limits a.loop.budgetSteps = .ok steps
  tasks : ∀ execution ∈ a.run.stepExecutions (stepContext a.loop a.st.result) a.st,
    execution.status = none
  accepted : ∀ entry ∈ (stateAfter (a.run.superStep a.loop) a.st).log, entry.2 = .ok ()

/-- A super-step of any run of the graph in which every task of the step succeeds. -/
structure SucceedsAtOnce (graph : StateGraph) (reducers : ReducerRegistry)
    (nextTasks : List CheckpointTask) (state : State) (run : GraphRun σ) (loop : LoopState)
    (st : RunState σ) (loop' : LoopState) (st' : RunState σ) : Prop where
  ofGraph : run.graph = graph
  withReducers : run.options.reducers = reducers
  tasks : loop.nextTasks = nextTasks
  noPending : loop.pendingWrites = []
  fromState : st.result.state = state
  superStep : run.superStep loop st = .ok loop' st'

section Last

variable {host : Host} {graph : StateGraph} {options : RunOptions InMemoryStore}
  {f : Bytes → State → NodeOutput} {first a a' : Attempt} {store : InMemoryStore} {reads : Nat}
  {run : GraphRun σ} {loop loop' : LoopState} {st st' : RunState σ}

theorem works_of_routed {tasks : List CheckpointTask} (h : ∀ task ∈ tasks, task.order = none)
    (runId ns : Bytes) (step : Nat) :
    (annotateTasks runId ns step (normalizeNextTasks tasks)).map (·.work)
      = (normalizeNextTasks tasks).mapIdx fun i task => ⟨task.nodeId, task.state, some i⟩ := by
  unfold annotateTasks
  refine ext_getElem (by simp) fun i _ hi => ?_
  rw [length_mapIdx] at hi
  have hmem := getElem_mem hi
  have hrunnable := (normal_normalizeNextTasks tasks).runnable _ hmem
  simp only [getElem_map, getElem_mapIdx, CheckpointTask.work, annotateTask_nodeId, annotateTask_state,
    annotateTask_order _ _ _ _ _ hrunnable, h _ (mem_of_mem_normalizeNextTasks hmem),
    Option.getD_none]

theorem orders_of_routed {tasks : List CheckpointTask} (h : ∀ task ∈ tasks, task.order = none)
    (runId ns : Bytes) (step : Nat) :
    ((annotateTasks runId ns step (normalizeNextTasks tasks)).map (·.work)).map (·.order)
      = (range (normalizeNextTasks tasks).length).map some := by
  rw [works_of_routed h]; exact ext_getElem (by simp) fun i _ _ => by simp

theorem stepExecutions_works (run : GraphRun σ) (loop : LoopState) (st : RunState σ) :
    (run.stepExecutions (stepContext loop st.result) st).map (·.task.work)
      = (stepContext loop st.result).activeTasks.map (·.work) := by
  have h := run.dispatchExecutions_tasks st.core st.resumeValuesByTask
    (stepContext loop st.result).activeTasks (stepContext loop st.result).inputState
    (stepContext loop st.result).nextStep
  rw [← h, map_map]; rfl

theorem stepExecutions_output (hgraph : run.graph.Computes f)
    (h : ∀ execution ∈ run.stepExecutions (stepContext loop st.result) st, execution.status = none) :
    ∀ execution ∈ run.stepExecutions (stepContext loop st.result) st,
      execution.output = some (execution.task.work.output f st.result.state) :=
  fun execution hmem => dispatchExecutions_output hgraph hmem (h execution hmem)

theorem SucceedsAtOnce.contents (hgraph : graph.Computes f)
    (hrouted : ∀ task ∈ first.loop.nextTasks, task.order = none)
    (atOnce : SucceedsAtOnce graph options.reducers first.loop.nextTasks first.st.result.state
      run loop st loop' st')
    {own : List CheckpointWrite} (h : PlainStep run loop st own st'.result.state loop'.nextTasks) :
    (run.stepExecutions (stepContext loop st.result) st).map (·.task.work) = first.works ∧
      run.ContentsOf f first.st.result.state first.works own := by
  have hworks : (run.stepExecutions (stepContext loop st.result) st).map (·.task.work)
      = first.works := by
    unfold Attempt.works
    rw [stepExecutions_works]
    unfold stepContext
    rw [atOnce.tasks, works_of_routed hrouted, works_of_routed hrouted]
  have hcontents := h.writes.contents (stepExecutions_output (atOnce.ofGraph.symm ▸ hgraph)
    fun e he => (h.plain e he).1)
  rw [hworks, atOnce.fromState] at hcontents; exact ⟨hworks, hcontents⟩

theorem Rest.plainStep (hgraph : graph.Computes f) (hroutes : graph.RoutesPurely)
    (hrouted : ∀ task ∈ first.loop.nextTasks, task.order = none)
    (rest : Rest host graph options f first a) (succeeds : a.Succeeds)
    (atOnce : SucceedsAtOnce graph options.reducers first.loop.nextTasks first.st.result.state
      run loop st loop' st') :
    ∃ own, PlainStep a.run a.loop a.st own st'.result.state loop'.nextTasks := by
  have same : SameProgram run a.run := ⟨rest.ofGraph.trans atOnce.ofGraph.symm,
    rest.reducers.trans atOnce.withReducers.symm⟩
  obtain ⟨own, hstep⟩ := plainStep_of_superStep atOnce.superStep
  obtain ⟨hworks, hcontents⟩ := atOnce.contents hgraph hrouted hstep
  replace hcontents := hcontents.congr same.graph
  have hout := stepExecutions_output (atOnce.ofGraph.symm ▸ hgraph) fun e he => (hstep.plain e he).1
  have hout' := stepExecutions_output (rest.ofGraph.symm ▸ hgraph) succeeds.tasks
  rw [atOnce.fromState] at hout
  rw [rest.state] at hout'
  -- The tasks of the last attempt are among those of the whole step.
  obtain ⟨done, hperm, hdone⟩ := rest.split
  have hworks' : (a.run.stepExecutions (stepContext a.loop a.st.result) a.st).map (·.task.work)
      = a.works := stepExecutions_works ..
  have hmem : ∀ e ∈ a.run.stepExecutions (stepContext a.loop a.st.result) a.st,
      e.task.work ∈ first.works := fun e he =>
    hperm.subset (mem_append_left _ (hworks' ▸ mem_map_of_mem he))
  have hplain : ∀ e ∈ a.run.stepExecutions (stepContext a.loop a.st.result) a.st, e.Plain := by
    intro e he
    obtain ⟨e₀, he₀, hwork⟩ := mem_map.mp (hworks.symm ▸ hmem e he)
    obtain ⟨-, output, houtput, hoplain⟩ := hstep.plain e₀ he₀
    refine ⟨succeeds.tasks e he, output, ?_, hoplain⟩
    rw [hout' e he, ← hwork, ← hout e₀ he₀, houtput]
  obtain ⟨own', hown'⟩ : ∃ own', a.run.WritesOf a.st.core _ own' :=
    exists_writesOf hout' fun e he => hcontents.exists_content (hmem e he)
  have hcontents' := hdone.append (hworks' ▸ hown'.contents hout')
  refine ⟨own', hstep.transfer same (atOnce.ofGraph.symm ▸ hroutes)
    (rest.state.trans atOnce.fromState.symm) hplain hown' ?_⟩
  rw [atOnce.noPending, nil_append]
  exact (stableSort_contents
    (hcontents.perm hcontents' (hperm.symm.trans perm_append_comm))
    (pairwise_orderLess (hcontents.orders.trans (orders_of_routed hrouted ..)))).symm

theorem Rest.room (rest : Rest host graph options f first a)
    (resumed : Resumed host graph options first.st.result.threadId store reads a) :
    Room InMemorySaver.Has (a.st.result.step + 1) (some 0) a.st := by
  obtain ⟨cleaned, started⟩ := (start_ends a.run a.world).ok resumed.started
  have hid : a.st.result.runId = (a.run.identified a.world).result.runId :=
    (congrArg RunResult.runId started.core :)
  have hthread : a.st.result.threadId = (a.run.identified a.world).result.threadId :=
    (congrArg RunResult.threadId started.core :)
  have hns : a.st.result.checkpointNamespace = a.run.options.checkpointNamespace :=
    (congrArg RunResult.checkpointNamespace started.core :)
  have fresh : Fresh InMemorySaver.Has a.run a.world := by
    refine ⟨storesIn_inMemorySaver rest.saver, ?_, started.pendingWrites ▸ rest.storable⟩
    rw [← hid, ← hthread, ← hns, rest.threadId, rest.checkpointNamespace, resumed.content]
    exact resumed.fresh.not_has
  exact (Reaches.room fresh (.start resumed.started)).1

/-- However often a step of pure nodes was tried, the resume in which everything that is left
    succeeds comes to the state and the next tasks of a step that succeeded at once. -/
theorem recovered_step_eq (hgraph : graph.Computes f) (hroutes : graph.RoutesPurely)
    (enters : EntersStep host graph options first) (recoverable : Recoverable host options first)
    (attempts : Attempts host graph options first a) (stopped : Stopped a store reads)
    (resumed : Resumed host graph options first.st.result.threadId store reads a')
    (succeeds : a'.Succeeds)
    (atOnce : SucceedsAtOnce graph options.reducers first.loop.nextTasks first.st.result.state
      run loop st loop' st') :
    ∃ loop₁ st₁, Reaches a'.run a'.world loop₁ st₁ ∧ a'.run.superStep a'.loop a'.st = .ok loop₁ st₁ ∧
      st₁.result.state = st'.result.state ∧ loop₁.nextTasks = loop'.nextTasks := by
  have rest := (attempts.again stopped resumed).rest hgraph enters recoverable
  obtain ⟨own, hplain⟩ := rest.plainStep hgraph hroutes enters.routed succeeds atOnce
  obtain ⟨budgetSteps, hbudget⟩ := succeeds.inBudget
  have henter : a'.run.planEnter (stepContext a'.loop a'.st.result) a'.loop a'.st.core.runId
      = .ok budgetSteps := by
    unfold planEnter
    rw [show (CancelPoint.superStep a'.st.core.runId (stepContext a'.loop a'.st.result).nextStep)
      = .superStep a'.st.result.runId (a'.st.result.step + 1) from rfl, succeeds.notCancelled, hbudget]
    rfl
  have hclean : Ends (a'.run.superStep a'.loop) a'.st (fun _ _ => True) fun _ st₁ => st₁.Clean := by
    have hroom := superStep_room (storesIn_inMemorySaver rest.saver) (rest.room resumed) rest.storable
    refine (ends_self.and hroom).mono (fun _ _ _ => trivial) fun exit st₁ h => ⟨?_, h.2.1⟩
    have hlog := succeeds.accepted
    rw [stateAfter, h.1] at hlog; exact hlog
  have hdoes := superStep_does a'.run a'.loop a'.st
  rw [hplain.planStep henter] at hdoes
  obtain ⟨loop₁, st₁, hstep, follow⟩ := hdoes.comes_back hclean
  refine ⟨loop₁, st₁, .step rest.reached rest.runnable hstep, hstep, ?_, by rw [follow.loop]⟩
  exact (congrArg RunResult.state follow.core :)

end Last

/-! ## 4. A node that fails in one run -/

/-- A node that fails in the run with the given id and returns its output in every other one. -/
def flakyNode (failing : Bytes) (output : NodeOutput) : NodeSpec where
  handler := fun _ runtime => .returned
    (if runtime.runId = failing then .error (.internal (lit "not now")) else .ok output) [] false

def flakyOutput (node : Bytes) (_ : State) : NodeOutput :=
  if node = lit "a" then { update := ⟨[(lit "x", .int 1)]⟩ } else { update := ⟨[(lit "y", .int 2)]⟩ }

/-- Two nodes side by side; `b` fails in the run with the given id. -/
def flakyGraph (failing : Bytes) : StateGraph where
  nodes := [(lit "a", constantNode (flakyOutput (lit "a") .empty)),
    (lit "b", flakyNode failing (flakyOutput (lit "b") .empty))]
  edges := [(START, [lit "a", lit "b"])]

theorem flakyGraph_computes (failing : Bytes) : (flakyGraph failing).Computes flakyOutput := by
  intro node spec hspec
  unfold flakyGraph at hspec
  simp only [find] at hspec
  split_ifs at hspec with ha hb
  · cases hspec
    refine ⟨fun input runtime output h => ?_, nofun⟩
    rw [← ha]; exact (ok.inj h).symm
  · cases hspec
    refine ⟨fun input runtime output h => ?_, nofun⟩
    rw [← hb]
    dsimp only [flakyNode, handlerResult, Bool.false_and] at h
    by_cases hrun : runtime.runId = failing
    · rw [if_pos hrun] at h; cases h
    · rw [if_neg hrun] at h; exact (ok.inj h).symm

theorem flakyGraph_routesPurely (failing : Bytes) : (flakyGraph failing).RoutesPurely := nofun

def threadOptions (runId : Bytes) : RunOptions InMemoryStore where
  runId := runId
  threadId := lit "t"
  checkpointer := some inMemorySaver

def Attempt.ofStart (run : GraphRun InMemoryStore) (world : World InMemoryStore) : Option Attempt :=
  match run.start (run.initialState world) with
  | .ok loop st => some ⟨run, world, loop, st⟩
  | .error _ _ => none

def Attempt.invoked (failing runId : Bytes) (world : World InMemoryStore) : Option Attempt :=
  ofStart (CompiledStateGraph.invoke countingHost (flakyGraph failing) .empty (threadOptions runId))
    world

/-- The state of the run once its super-step failed and the failure is stored. -/
def Attempt.failed (a : Attempt) : Option (RunState InMemoryStore) :=
  match a.run.superStep a.loop a.st with
  | .error (.fail call) st =>
    if call.site = .nodeFailed && (a.run.failRun call st).1.isOk then some (a.run.failRun call st).2
    else none
  | _ => none

def Attempt.resumedIn (failing runId : Bytes) (world : World InMemoryStore) : Option Attempt :=
  match CompiledStateGraph.resume countingHost (flakyGraph failing) (lit "t")
      (threadOptions runId) world with
  | .ok run => ofStart run world
  | .error _ => none

theorem Attempt.ofStart_eq {run : GraphRun InMemoryStore} {world : World InMemoryStore} {a : Attempt}
    (h : ofStart run world = some a) :
    a.run = run ∧ a.world = world ∧ run.start (run.initialState world) = .ok a.loop a.st := by
  unfold ofStart at h
  split at h
  · rename_i loop st hstart
    cases h; exact ⟨rfl, rfl, hstart⟩
  · cases h

theorem Attempt.stopped {a : Attempt} {st : RunState InMemoryStore} (h : a.failed = some st) :
    Stopped a st.world.saver st.world.clockReads := by
  unfold failed at h
  split at h
  · rename_i call st' hfail
    split_ifs at h with hcall
    cases h
    rw [and_eq_true, decide_eq_true_eq] at hcall
    cases hresult : (a.run.failRun call st').1 with
    | ok => exact .failed hfail hcall.1 hresult
    | error =>
      rw [hresult] at hcall; cases hcall.2
  · cases h

theorem freshId_of_head {store : InMemoryStore} {thread ns runId : Bytes} (hne : runId ≠ [])
    (h : ∀ d ∈ threadCheckpoints store thread, d.checkpointId.head? ≠ runId.head?) :
    FreshId store thread ns runId := by
  intro d hd _ m j source hid
  refine h d hd ?_
  rw [hid]
  cases runId with
  | nil => exact absurd rfl hne
  | cons => cases source <;> rfl

/-- What the flaky graph does at one step: it is invoked, fails, and is resumed under a new id. -/
def failsThenResumes (failing fresh : Bytes) (world : World InMemoryStore) :
    Option (Attempt × RunState InMemoryStore × Attempt) := do
  let first ← Attempt.invoked failing failing world
  let after ← first.failed
  let again ← Attempt.resumedIn failing fresh after.world
  return (first, after, again)

/-- The step of the flaky graph in a run in which both nodes succeed. -/
def succeedsAtOnce (failing runId : Bytes) : Option (Attempt × LoopState × RunState InMemoryStore) :=
  match Attempt.invoked failing runId { saver := {} } with
  | some a =>
    match a.run.superStep a.loop a.st with
    | .ok loop st => some (a, loop, st)
    | .error _ _ => none
  | none => none

section Flaky

variable {failing fresh : Bytes} {world : World InMemoryStore} {first again : Attempt}
  {after : RunState InMemoryStore}

/-- What evaluation tells about the run that fails: it enters the step with new tasks of thread `t`,
    and the ids of its thread do not begin like the new one. -/
def entersFresh (fresh : Bytes) (first : Attempt) (after : RunState InMemoryStore) : Bool :=
  !isTerminalNextTasks first.loop.nextTasks && first.loop.nextTasks.all (·.order.isNone) &&
    first.loop.pendingWrites.isEmpty && first.st.result.threadId = lit "t" &&
    (threadCheckpoints after.world.saver (lit "t")).all (·.checkpointId.head? ≠ fresh.head?)

theorem failsThenResumes_spec (hfresh : fresh ≠ [])
    (h : failsThenResumes failing fresh world = some (first, after, again))
    (hid : again.st.result.runId = fresh) (htest : entersFresh fresh first after = true) :
    first.world = world ∧ first.st.result.threadId = lit "t" ∧
      EntersStep countingHost (flakyGraph failing) (threadOptions []) first ∧
      Stopped first after.world.saver after.world.clockReads ∧
      Resumed countingHost (flakyGraph failing) (threadOptions []) (lit "t") after.world.saver
        after.world.clockReads again := by
  unfold failsThenResumes at h
  simp only [Option.bind_eq_bind, Option.bind_eq_some_iff] at h
  obtain ⟨first', hfirst, after', hafter, again', hagain, heq⟩ := h
  cases heq
  obtain ⟨hrun, hworld, hstart⟩ := Attempt.ofStart_eq hfirst
  simp only [entersFresh, and_eq_true, not_eq_true', all_eq_true,
    Option.isNone_iff_eq_none, List.isEmpty_iff, decide_eq_true_eq] at htest
  obtain ⟨⟨⟨⟨hrunnable, hrouted⟩, hpending⟩, hthread⟩, hheads⟩ := htest
  refine ⟨hworld, hthread, ?_, Attempt.stopped hafter, ?_⟩
  · exact {
      onHost := by rw [hrun]; rfl
      ofGraph := by rw [hrun]; rfl
      withOptions := by rw [hrun]; rfl
      reached := by rw [hrun, hworld]; exact .start hstart
      runnable := hrunnable
      routed := hrouted
      noPending := hpending }
  · unfold Attempt.resumedIn at hagain
    split at hagain
    · rename_i run hresume
      obtain ⟨hrun', hworld', hstart'⟩ := Attempt.ofStart_eq hagain
      exact {
        content := by rw [hworld']
        clock := by rw [hworld']
        resumed := ⟨fresh, by rw [hrun', hworld']; exact hresume⟩
        started := by rw [hrun', hworld']; exact hstart'
        fresh := hid.symm ▸ freshId_of_head hfresh hheads }
    · cases hagain

/-- What evaluation tells about the resumed run: everything that is left succeeds. -/
def succeedsNow (again : Attempt) : Bool :=
  (again.run.options.cancellationToken
      (.superStep again.st.result.runId (again.st.result.step + 1))).isOk &&
    (consumeStep again.run.options.limits again.loop.budgetSteps).isOk &&
    (again.run.stepExecutions (stepContext again.loop again.st.result) again.st).all
      (·.status.isNone) &&
    (stateAfter (again.run.superStep again.loop) again.st).log.all (·.2.isOk)

theorem eq_ok_of_isOk {result : Result Unit} (h : result.isOk = true) : result = .ok () := by
  cases result with
  | ok => rfl
  | error => cases h

theorem succeeds_of_succeedsNow (h : succeedsNow again = true) : again.Succeeds := by
  simp only [succeedsNow, and_eq_true, all_eq_true, Option.isNone_iff_eq_none] at h
  obtain ⟨⟨⟨hcancel, hbudget⟩, htasks⟩, hlog⟩ := h
  refine ⟨eq_ok_of_isOk hcancel, ?_, htasks, fun entry hentry => eq_ok_of_isOk (hlog entry hentry)⟩
  cases hsteps : consumeStep again.run.options.limits again.loop.budgetSteps with
  | ok steps => exact ⟨steps, rfl⟩
  | error =>
    rw [hsteps] at hbudget; cases hbudget

theorem succeedsAtOnce_spec {runId : Bytes} {a : Attempt} {loop : LoopState}
    {st : RunState InMemoryStore} (h : succeedsAtOnce failing runId = some (a, loop, st))
    (htasks : a.loop.nextTasks = first.loop.nextTasks) (hpending : a.loop.pendingWrites = [])
    (hstate : a.st.result.state = first.st.result.state) :
    SucceedsAtOnce (flakyGraph failing) (threadOptions []).reducers first.loop.nextTasks
      first.st.result.state a.run a.loop a.st loop st := by
  unfold succeedsAtOnce at h
  split at h
  · rename_i a' hinvoked
    split at h
    · rename_i loop' st' hstep
      cases h
      obtain ⟨hrun, -, -⟩ := Attempt.ofStart_eq hinvoked
      refine ⟨?_, ?_, htasks, hpending, hstate, hstep⟩
      · rw [hrun]; rfl
      · rw [hrun]; rfl
    · cases h
  · cases h

end Flaky

/-- In run `r` node `b` fails beside node `a`; the resume in run `s` finishes the step. -/
theorem recovered_step_eq_after_failure :
    ∃ first after again, failsThenResumes (lit "r") (lit "s") { saver := {} }
        = some (first, after, again) ∧
      ∃ loop st, again.run.superStep again.loop again.st = .ok loop st ∧
        st.result.state.view = [(lit "x", .int 1), (lit "y", .int 2)] := by
  have htest : ((failsThenResumes (lit "r") (lit "s") { saver := {} }).any fun entry =>
      (succeedsAtOnce (lit "r") (lit "q")).any fun once =>
        entersFresh (lit "s") entry.1 entry.2.1 && succeedsNow entry.2.2 &&
        entry.2.2.st.result.runId = lit "s" &&
        (find kRunErrorStateKey entry.1.st.result.state.view).isNone &&
        once.1.loop.nextTasks = entry.1.loop.nextTasks && once.1.loop.pendingWrites.isEmpty &&
        once.1.st.result.state = entry.1.st.result.state &&
        once.2.2.result.state.view = [(lit "x", .int 1), (lit "y", .int 2)]) = true := by
    decide +kernel
  simp only [Option.any_eq_true, and_eq_true, decide_eq_true_eq, List.isEmpty_iff,
    Option.isNone_iff_eq_none] at htest
  obtain ⟨⟨first, after, again⟩, hfails, ⟨a, loop, st⟩, honce,
    ⟨⟨⟨⟨⟨⟨henters, hsucceeds⟩, hid⟩, herror⟩, htasks⟩, hpending⟩, hstate⟩, hfinal⟩ := htest
  obtain ⟨hworld, hthread, enters, stopped, resumed⟩ :=
    failsThenResumes_spec (by decide) hfails hid henters
  have recoverable : Recoverable countingHost (threadOptions []) first := {
    saver := rfl
    command := rfl
    sound := by rw [hworld]; exact sound_empty _ _
    steady := countingHost_steady _
    noError := herror
    notAhead := by
      rw [hworld]
      intro d hd
      cases hd }
  obtain ⟨loop₁, st₁, -, hstep, heq, -⟩ := recovered_step_eq (flakyGraph_computes _)
    (flakyGraph_routesPurely _) enters recoverable .first stopped (hthread.symm ▸ resumed)
    (succeeds_of_succeedsNow hsucceeds) (succeedsAtOnce_spec honce htasks hpending hstate)
  exact ⟨first, after, again, hfails, loop₁, st₁, hstep, by rw [heq]; exact hfinal⟩

/-- The thread holds an older run of two super-steps.  Run `s` fails in its first one, and the resume
    takes up the older run, which is complete: the step is never finished. -/
theorem resume_skips_failed_step :
    ∃ first after again, failsThenResumes (lit "s") (lit "u") afterTwoSteps
        = some (first, after, again) ∧
      (flakyGraph (lit "s")).Computes flakyOutput ∧ (flakyGraph (lit "s")).RoutesPurely ∧
      EntersStep countingHost (flakyGraph (lit "s")) (threadOptions []) first ∧
      Sound countingHost first.world.clockReads first.world.saver ∧
      countingHost.Steady first.world.clockReads ∧
      OrderedMap.find kRunErrorStateKey first.st.result.state.view = none ∧
      Stopped first after.world.saver after.world.clockReads ∧
      Resumed countingHost (flakyGraph (lit "s")) (threadOptions []) (lit "t") after.world.saver
        after.world.clockReads again ∧
      isTerminalNextTasks again.loop.nextTasks = true ∧
      ∃ (a : Attempt) (loop : LoopState) (st : RunState InMemoryStore),
        SucceedsAtOnce (flakyGraph (lit "s")) (threadOptions []).reducers
          first.loop.nextTasks first.st.result.state a.run a.loop a.st loop st ∧
        again.st.result.state ≠ st.result.state := by
  have htest : ((failsThenResumes (lit "s") (lit "u") afterTwoSteps).any fun entry =>
      (succeedsAtOnce (lit "s") (lit "q")).any fun once =>
        entersFresh (lit "u") entry.1 entry.2.1 && entry.2.2.st.result.runId = lit "u" &&
        (find kRunErrorStateKey entry.1.st.result.state.view).isNone &&
        isTerminalNextTasks entry.2.2.loop.nextTasks &&
        once.1.loop.nextTasks = entry.1.loop.nextTasks && once.1.loop.pendingWrites.isEmpty &&
        once.1.st.result.state = entry.1.st.result.state &&
        entry.2.2.st.result.state ≠ once.2.2.result.state) = true := by
    decide +kernel
  simp only [Option.any_eq_true, and_eq_true, decide_eq_true_eq, List.isEmpty_iff,
    Option.isNone_iff_eq_none] at htest
  obtain ⟨⟨first, after, again⟩, hfails, ⟨a, loop, st⟩, honce,
    ⟨⟨⟨⟨⟨⟨henters, hid⟩, herror⟩, hterminal⟩, htasks⟩, hpending⟩, hstate⟩, hfinal⟩ := htest
  obtain ⟨hworld, -, enters, stopped, resumed⟩ :=
    failsThenResumes_spec (by decide) hfails hid henters
  exact ⟨first, after, again, hfails, flakyGraph_computes _, flakyGraph_routesPurely _, enters,
    by rw [hworld]; exact history_afterTwoSteps.sound, countingHost_steady _, herror, stopped, resumed,
    hterminal, a, loop, st, succeedsAtOnce_spec honce htasks hpending hstate, hfinal⟩

end GraphRun

end LangGraph
