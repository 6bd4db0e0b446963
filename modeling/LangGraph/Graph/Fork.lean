import LangGraph.Graph.Recovery

/-!
# Forks

`updateState` stores an edited checkpoint at the head of its thread.  Section 1 says what it
stores, section 2 where the checkpoint stands in the in-memory saver, and section 3 what is left of
the work its base had not finished.
-/

namespace LangGraph

open EarlyExit InMemorySaver OrderedMap

variable {σ : Type}

namespace CompiledStateGraph

/-! ## 1. The edited checkpoint -/

/-- Which checkpoint is edited: the named one, or the newest. -/
def baseQuery (threadId : Bytes) (options : RunOptions σ) (updateOptions : StateUpdateOptions) :
    CheckpointQuery :=
  if updateOptions.checkpointId = [] then .latest threadId options.checkpointNamespace
  else .at threadId updateOptions.checkpointId options.checkpointNamespace

structure Edited (host : Host) (graph : StateGraph) (threadId : Bytes) (update : StateUpdate)
    (options : RunOptions σ) (updateOptions : StateUpdateOptions) (world : World σ)
    (saver : CheckpointSaver σ) (base : CheckpointTuple) (latest : Option CheckpointTuple)
    (c : Checkpoint) : Prop where
  saver_eq : options.checkpointer = some saver
  base_eq : saver.getTuple (baseQuery threadId options updateOptions) world.saver = .ok (some base)
  latest_eq : saver.getTuple (.latest threadId c.checkpointNamespace) world.saver = .ok latest
  thread_ne : threadId ≠ []
  thread_eq : c.threadId = threadId
  namespace_eq : c.checkpointNamespace = if options.checkpointNamespace = [] then
    base.checkpoint.checkpointNamespace else options.checkpointNamespace
  step_eq : c.step = updateStep base latest
  date : c.createdAt = host.clock world.clockReads
  state : ∃ cleaned, withoutRunErrorMetadata base.checkpoint.state = .ok cleaned ∧
    applyStateUpdate cleaned update options.reducers = .ok c.state
  nodes : c.nextNodes = nodeIdsFromTasks c.nextTasks
  kept : updateOptions.asNode = none → c.nextTasks = nextTasksFromCheckpoint base.checkpoint
  routed : ∀ node, updateOptions.asNode = some node →
    ∃ context, graph.nextTasksAfter node c.state context = .ok c.nextTasks
  pending : c.pendingWrites = []

section Edited

variable {host : Host} {graph : StateGraph} {threadId : Bytes} {update : StateUpdate}
  {options : RunOptions σ} {updateOptions : StateUpdateOptions} {world world' : World σ}

variable {counter : Nat}

theorem ends_liftResult_bind {α β : Type} {result : Result α} {rest : α → IdM β}
    {Q : β → Nat → Prop}
    (h : ∀ value, result = .ok value → Ends (rest value) counter Q fun _ _ => True) :
    Ends (liftResult result >>= rest) counter Q fun _ _ => True :=
  ends_bind.mpr (ends_liftResult h)

theorem ends_drawId_bind {β : Type} {idPrefix : String} {rest : Bytes → IdM β} {Q : β → Nat → Prop}
    (h : ∀ id, Ends (rest id) (counter + 1) Q fun _ _ => True) :
    Ends (drawId idPrefix >>= rest) counter Q fun _ _ => True :=
  ends_bind.mpr (h _)

theorem updatedTasks_ends {base : Checkpoint} {asNode : Option Bytes} {state : State}
    {context : Runtime} :
    Ends (updatedTasks graph base asNode state context) counter
      (fun tasks _ => (asNode = none → tasks = nextTasksFromCheckpoint base) ∧
        ∀ node, asNode = some node → ∃ context, graph.nextTasksAfter node state context = .ok tasks)
      fun _ _ => True := by
  unfold updatedTasks
  cases asNode with
  | none => exact ⟨fun _ => rfl, nofun⟩
  | some node =>
    refine ends_liftResult_bind fun _ _ => ?_
    by_cases hknown : contains node graph.nodes = false
    · rw [if_pos hknown]; trivial
    · rw [if_neg hknown]
      refine ends_drawId_bind fun runId => ends_liftResult fun tasks htasks => ⟨nofun, ?_⟩
      intro other hother
      cases hother; exact ⟨_, htasks⟩

theorem updatedCheckpoint_edited :
    Ends (updatedCheckpoint host graph threadId update options updateOptions world) counter
      (fun pair _ => ∃ base latest,
        Edited host graph threadId update options updateOptions world pair.1 base latest pair.2)
      fun _ _ => True := by
  unfold updatedCheckpoint
  refine ends_liftResult_bind fun _ hthread => ?_
  refine ends_liftResult_bind fun _ _ => ?_
  refine ends_liftResult_bind fun saver hsaver => ?_
  refine ends_liftResult_bind fun base hbase => ?_
  refine ends_liftResult_bind fun latest hlatest => ?_
  refine ends_liftResult_bind fun cleaned hcleaned => ?_
  refine ends_liftResult_bind fun state hstate => ?_
  refine ends_liftResult_bind fun _ _ => ?_
  refine Ends.bind updatedTasks_ends fun tasks _ htasks => ?_
  refine ends_drawId_bind fun checkpointId => ?_
  refine ends_liftResult_bind fun written _ => ?_
  exact ⟨base, latest, {
    saver_eq := requireRunCheckpointer_ok hsaver
    base_eq := requireTuple_ok hbase
    latest_eq := hlatest
    thread_ne := requireThreadId_ok hthread
    thread_eq := rfl
    namespace_eq := rfl
    step_eq := rfl
    date := rfl
    state := ⟨cleaned, hcleaned, hstate⟩
    nodes := rfl
    kept := htasks.1
    routed := htasks.2
    pending := rfl }⟩

theorem updateState_ok {snapshot : StateSnapshot}
    (h : updateState host graph threadId update options updateOptions world
      = (.ok snapshot, world')) :
    ∃ saver base latest c,
      Edited host graph threadId update options updateOptions world saver base latest c ∧
      saver.put c world.saver = (.ok (), world'.saver) ∧ snapshot = snapshotFromCheckpoint c := by
  have hends : Ends (updatedCheckpoint host graph threadId update options updateOptions world)
    world.graphCounter _ _ := updatedCheckpoint_edited
  unfold updateState at h
  cases hmade : updatedCheckpoint host graph threadId update options updateOptions world
      world.graphCounter with
  | error status counter =>
    rw [hmade] at h; cases h
  | ok pair counter =>
    obtain ⟨saver, c⟩ := pair
    obtain ⟨base, latest, hedited⟩ := hends.ok hmade
    rw [hmade] at h
    dsimp only at h
    cases hput : saver.put c world.saver with
    | mk answer =>
      rw [hput] at h
      cases answer with
      | error => cases h
      | ok =>
        cases h; exact ⟨saver, base, latest, c, hedited, hput, rfl⟩

variable {saver : CheckpointSaver σ} {base : CheckpointTuple} {latest : Option CheckpointTuple}
  {c : Checkpoint}

theorem Edited.tasks
    (h : Edited host graph threadId update options updateOptions world saver base latest c) :
    nextTasksFromCheckpoint c = c.nextTasks := by
  unfold nextTasksFromCheckpoint
  by_cases hnext : c.nextTasks = []
  · rw [if_neg (not_not.mpr hnext), h.nodes, hnext]; rfl
  · rw [if_pos hnext]

theorem Edited.interrupts
    (h : Edited host graph threadId update options updateOptions world saver base latest c)
    (hkey : find kInterruptStateKey update.values = none) :
    find kInterruptStateKey c.state.view = find kInterruptStateKey base.checkpoint.state.view := by
  obtain ⟨cleaned, hcleaned, hmerged⟩ := h.state
  rw [find_applyStateUpdate hmerged hkey, State.view_of_fromJsonValue hcleaned,
    find_erase_ne (by decide)]

end Edited

/-! ## 2. Its place in the thread -/

section Place

variable {host : Host} {graph : StateGraph} {threadId : Bytes} {update : StateUpdate}
  {options : RunOptions InMemoryStore} {updateOptions : StateUpdateOptions}
  {world world' : World InMemoryStore} {base : CheckpointTuple} {latest : Option CheckpointTuple}
  {c : Checkpoint}

theorem Edited.step_lt (hvalid : Valid world.saver)
    (h : Edited host graph threadId update options updateOptions world inMemorySaver base latest c)
    {d : Checkpoint} (hd : d ∈ threadCheckpoints world.saver threadId)
    (hns : d.checkpointNamespace = c.checkpointNamespace) : d.step < c.step := by
  obtain ⟨tuple, rfl, hstep⟩ := step_le_of_getTuple hvalid h.thread_ne h.latest_eq hd hns
  rw [h.step_eq, updateStep]
  split_ifs
  · omega
  · omega

theorem Edited.isHead (hvalid : Valid world.saver)
    (h : Edited host graph threadId update options updateOptions world inMemorySaver base latest c)
    (hput : put c world.saver = (.ok (), world'.saver)) : IsHead host world' c := by
  have hok : (put c world.saver).1 = .ok () := congrArg Prod.fst hput
  have hstore : (put c world.saver).2 = world'.saver := congrArg Prod.snd hput
  have hthread : c.threadId ≠ [] := h.thread_eq ▸ h.thread_ne
  rw [isHead_iff hthread, getTuple_latest_iff (hstore ▸ hvalid.put hok) hthread, ← hstore,
    findCheckpoint_latest_put hok hvalid]
  intro d hd hns
  have hstep := h.step_lt hvalid (h.thread_eq ▸ hd) hns
  rw [putLess, if_pos (by omega)]; exact decide_eq_false (by omega)

end Place

/-! ## 3. Unfinished work -/

/-- An edited checkpoint has the next tasks of its base but never its pending writes: the outputs of
    tasks that finished beside a failed one are lost to every later resume, exactly if the base has
    any. -/
theorem updateState_keeps_work_iff {host : Host} {graph : StateGraph} {threadId : Bytes}
    {update : StateUpdate} {options : RunOptions σ} {updateOptions : StateUpdateOptions}
    {world world' : World σ} {snapshot : StateSnapshot} {saver : CheckpointSaver σ}
    {base : CheckpointTuple} (hsaver : options.checkpointer = some saver)
    (hasNode : updateOptions.asNode = none)
    (hbase : saver.getTuple (baseQuery threadId options updateOptions) world.saver
      = .ok (some base))
    (h : updateState host graph threadId update options updateOptions world
      = (.ok snapshot, world')) :
    ∃ c, saver.put c world.saver = (.ok (), world'.saver) ∧ snapshot = snapshotFromCheckpoint c ∧
      (nextTasksFromCheckpoint c = nextTasksFromCheckpoint base.checkpoint ∧
        c.pendingWrites = base.pendingWrites ↔ base.pendingWrites = []) ∧
      ∀ (resumeOptions : RunOptions σ) (run : GraphRun σ), resumeOptions.checkpointer = some saver →
        resumeOptions.checkpointNamespace = c.checkpointNamespace →
        saver.getTuple (.latest threadId c.checkpointNamespace) world'.saver
          = .ok (some ⟨c, c.pendingWrites⟩) →
        resume host graph threadId resumeOptions world' = .ok run →
        (run.nextTasks = nextTasksFromCheckpoint base.checkpoint ∧
          run.pendingWrites = base.pendingWrites ↔ base.pendingWrites = []) := by
  obtain ⟨saver', base', latest, c, hedited, hput, hsnapshot⟩ := updateState_ok h
  obtain rfl : saver' = saver := Option.some.inj (hedited.saver_eq.symm.trans hsaver)
  obtain rfl : base' = base := Option.some.inj (Except.ok.inj (hedited.base_eq.symm.trans hbase))
  have htasks : nextTasksFromCheckpoint c = nextTasksFromCheckpoint base'.checkpoint :=
    hedited.tasks.trans (hedited.kept hasNode)
  have hwork : nextTasksFromCheckpoint c = nextTasksFromCheckpoint base'.checkpoint ∧
      c.pendingWrites = base'.pendingWrites ↔ base'.pendingWrites = [] := by
    rw [hedited.pending]; exact ⟨fun h => h.2.symm, fun h => ⟨htasks, h.symm⟩⟩
  refine ⟨c, hput, hsnapshot, hwork, fun resumeOptions run hgiven hns hlatest hresume => ?_⟩
  obtain ⟨saver'', tuple, -, hsaver', htuple, -, rfl⟩ := resume_ok hresume
  obtain rfl : saver'' = saver' := Option.some.inj (hsaver'.symm.trans hgiven)
  rw [hns, hlatest] at htuple
  obtain rfl : ⟨c, c.pendingWrites⟩ = tuple := Option.some.inj (Except.ok.inj htuple)
  exact hwork

/-- An empty update of the checkpoint between two super-steps, which has no pending writes. -/
def editBetweenSteps : Result StateSnapshot × World InMemoryStore :=
  updateState countingHost (chainRun "r" [lit "a", lit "b"]).graph (lit "t") {}
    (chainRun "r" [lit "a", lit "b"]).options { checkpointId := lit "r-step-1" } afterTwoSteps

theorem updateState_keeps_work_between_steps :
    ∃ base c, getTuple (.at (lit "t") (lit "r-step-1") []) afterTwoSteps.saver = .ok (some base) ∧
      editBetweenSteps.1 = .ok (snapshotFromCheckpoint c) ∧ nextTasksFromCheckpoint c ≠ [] ∧
      nextTasksFromCheckpoint c = nextTasksFromCheckpoint base.checkpoint ∧
      c.pendingWrites = base.pendingWrites := by
  have hfound : (getTuple (.at (lit "t") (lit "r-step-1") []) afterTwoSteps.saver).toOption.join.any
      (fun base => nextTasksFromCheckpoint base.checkpoint ≠ [] && base.pendingWrites = []) = true := by
    decide +kernel
  have hedit : editBetweenSteps.1.isOk = true := by decide +kernel
  obtain ⟨base, hbase, htest⟩ := (Option.any_eq_true _ _).mp hfound
  rw [Bool.and_eq_true, decide_eq_true_eq, decide_eq_true_eq] at htest
  cases hget : getTuple (.at (lit "t") (lit "r-step-1") []) afterTwoSteps.saver with
  | error =>
    rw [hget] at hbase; cases hbase
  | ok found =>
    rw [hget] at hbase
    obtain rfl : found = some base := hbase
    cases hresult : editBetweenSteps.1 with
    | error =>
      rw [hresult] at hedit; cases hedit
    | ok snapshot =>
      have hstored : editBetweenSteps = (.ok snapshot, editBetweenSteps.2) := by rw [← hresult]
      have hsaver : (chainRun "r" [lit "a", lit "b"]).options.checkpointer = some inMemorySaver := rfl
      obtain ⟨c, -, rfl, hwork, -⟩ :=
        updateState_keeps_work_iff hsaver rfl (by exact hget) hstored
      obtain ⟨htasks, hpending⟩ := hwork.mpr htest.2
      exact ⟨base, c, rfl, rfl, htasks ▸ htest.1, htasks, hpending⟩

/-- The world after a run in which `a` finished and `b` beside it failed. -/
def failedBeside : World InMemoryStore :=
  ((CompiledStateGraph.invoke countingHost (GraphRun.flakyGraph (lit "r")) .empty
    (GraphRun.threadOptions (lit "r"))).run 1 { saver := {} }).2.world

/-- An empty update of the newest checkpoint of that thread. -/
def emptyEdit : Result StateSnapshot × World InMemoryStore :=
  updateState countingHost (GraphRun.flakyGraph (lit "r")) (lit "t") {} (GraphRun.threadOptions [])
    {} failedBeside

/-- The state a resume of the thread in another run ends with. -/
def resumedState (world : World InMemoryStore) : Option JsonObject :=
  match resume countingHost (GraphRun.flakyGraph (lit "r")) (lit "t")
      (GraphRun.threadOptions (lit "s")) world with
  | .error _ => none
  | .ok run =>
    match (run.run 1 world).1 with
    | some (.ok result) => some result.state.view
    | _ => none

/-- Resuming the failed run applies the write of `a` and runs `b` again; resuming it after an empty
    update runs `b` alone. -/
theorem empty_edit_loses_writes :
    History countingHost failedBeside ∧ emptyEdit.1.isOk = true ∧
      resumedState failedBeside = some [(lit "x", .int 1), (lit "y", .int 2)] ∧
      resumedState emptyEdit.2 = some [(lit "y", .int 2)] := by
  refine ⟨?_, by decide +kernel, by decide +kernel, by decide +kernel⟩
  unfold failedBeside; exact .invoke (.empty rfl) _ _ _ rfl 1

end CompiledStateGraph

end LangGraph
