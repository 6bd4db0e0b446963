import LangGraph.Graph.Failure
import LangGraph.Graph.FreshRun
import LangGraph.Graph.Purity

/-!
# What an attempt at a super-step leaves

A super-step whose tasks fail stores the failed tasks with the writes of the others, and one whose
durability is `Sync` stores the writes it has collected before each further one.  Either way the
checkpoint splits the tasks of the step into those still to be run and those with a pending write.
-/

namespace LangGraph

open EarlyExit InMemorySaver OrderedMap
open List hiding set merge erase contains

variable {σ : Type}

/-! ## 1. Checkpoints that hold part of a step -/

/-- The entry of the metadata that tells why the checkpoint was stored. -/
def Checkpoint.source (c : Checkpoint) : Option Bytes :=
  match c.metadata.field (lit "source") with
  | some (.str name) => some name
  | _ => none

namespace GraphRun

/-- The checkpoint stands between two attempts at the step: the state is the one the step starts
    with, and the pending writes are those from before and those of the tasks that are done. -/
structure PartOf (run : GraphRun σ) (loop : LoopState) (st : RunState σ) (c : Checkpoint) : Prop where
  threadId : c.threadId = st.result.threadId
  checkpointNamespace : c.checkpointNamespace = st.result.checkpointNamespace
  step : c.step = st.result.step + 1
  state : withoutRunErrorMetadata c.state = .ok st.result.state
  remaining : c.nextTasks ≠ []
  split : ∃ succeeded own,
    (c.nextTasks ++ succeeded.map (·.task)).Perm (stepContext loop st.result).activeTasks ∧
    (∀ execution ∈ succeeded, execution.status = none ∧
      execution ∈ (run.stepClassified (stepContext loop st.result) st).executions) ∧
    run.WritesOf st.core succeeded own ∧ c.pendingWrites = loop.pendingWrites ++ own

section PartOf

variable {run : GraphRun σ} {loop : LoopState} {st st' : RunState σ}

theorem checkpointOf_source (request : CheckpointRequest) :
    (run.checkpointOf request st).source = some request.source.name := by
  have hne : lit "durability" ≠ lit "source" := by decide
  simp [Checkpoint.source, checkpointOf, Json.object, Json.field, merge, find_set_ne hne]

theorem taskWrites_of_name {source : CheckpointSource}
    (h : source.name = CheckpointSource.taskWrites.name) : source = .taskWrites := by
  revert h
  cases source <;> decide

theorem StepFailure.partOf {call : FailCall} {failed : State}
    (h : StepFailure run (stepContext loop st.result) st st' call) (hsite : call.site = .nodeFailed)
    (hkey : find kRunErrorStateKey st.result.state.view = none)
    (hfailed : failedState call st' = .ok failed) :
    PartOf run loop st (run.checkpointOf call.request (atFailure call st' failed)) := by
  obtain ⟨same, h⟩ := h.early_of_nodeFailed hsite
  rw [failedState, same.state] at hfailed
  have hclean := withoutRunErrorMetadata_of_with hkey hfailed
  cases h with
  | @all site node status hmem =>
    obtain rfl : site = .nodeFailed := hsite
    simp at hmem
  | completedBesideFailure | writeBesideFailure | write => cases hsite
  | @nodeFailed node status writes hfailure hwrites =>
    refine ⟨same.threadId, same.checkpointNamespace, rfl, hclean, ?_,
      run.stepSucceeded (stepContext loop st.result) st, writes, ?_, ?_, hwrites, rfl⟩
    · rw [nodeFailed_nextTasks same.checkpointNamespace hfailure rfl]
      exact failedTasks_ne_nil hfailure
    · rw [nodeFailed_nextTasks same.checkpointNamespace hfailure rfl]
      exact failedTasks_perm run (stepContext loop st.result) st
    · intro execution he
      have hmem := mem_filter.mp he
      exact ⟨Option.isNone_iff_eq_none.mp hmem.2, hmem.1⟩

end PartOf

/-! ## 2. The task writes of a step -/

/-- The task writes among the calls made from `st` to `st'` are all of the given kind. -/
def AddsTaskWrites (Q : Checkpoint → Prop) (st st' : RunState σ) : Prop :=
  ∃ added, st'.calls = st.calls ++ added ∧ ∀ c answer, (SaverCall.put c, answer) ∈ added →
    c.source = some CheckpointSource.taskWrites.name → Q c

theorem addsTaskWrites_of_calls {Q : Checkpoint → Prop} {st st' : RunState σ}
    (h : st'.calls = st.calls) : AddsTaskWrites Q st st' :=
  ⟨[], h.trans (append_nil _).symm, by simp⟩

section TaskWrites

variable {run : GraphRun σ} {Q : Checkpoint → Prop} {saver : CheckpointSaver σ}
  (hsaver : run.options.checkpointer = some saver)
include hsaver

theorem putCheckpoint_addsTaskWrites {request : CheckpointRequest} {st : RunState σ}
    (h : request.source = .taskWrites → Q (run.checkpointOf request st)) :
    AddsTaskWrites Q st (run.putCheckpoint request st).2 := by
  obtain ⟨added, hcalls, heffect⟩ := run.putCheckpoint_effect st hsaver request
  have hQ : (run.checkpointOf request st).source = some CheckpointSource.taskWrites.name →
      Q (run.checkpointOf request st) := fun hsource =>
    h (taskWrites_of_name (Option.some.inj ((checkpointOf_source request).symm.trans hsource)))
  refine ⟨added, hcalls, fun c answer hmem hsource => ?_⟩
  generalize (run.putCheckpoint request st).2.world.saver = content at heffect
  cases heffect with
  | skipped => cases hmem
  | put =>
    cases mem_singleton.mp hmem; exact hQ hsource
  | putWrites =>
    rcases mem_cons.mp hmem with heq | hmem
    · cases heq; exact hQ hsource
    · cases mem_singleton.mp hmem

theorem addsTaskWrites_closed :
    StepClosed run (·.source ≠ .taskWrites) (AddsTaskWrites Q) where
  refl _ := addsTaskWrites_of_calls rfl
  trans := by
    rintro a b c ⟨added, hb, hadded⟩ ⟨more, hc, hmore⟩
    refine ⟨added ++ more, by rw [hc, hb, append_assoc], fun c answer hmem => ?_⟩
    rcases mem_append.mp hmem with hmem | hmem
    · exact hadded c answer hmem
    · exact hmore c answer hmem
  publish _ _ := addsTaskWrites_of_calls rfl
  compute hinternal := addsTaskWrites_of_calls hinternal.calls
  put _ _ hsource := putCheckpoint_addsTaskWrites hsaver fun h => absurd h hsource

end TaskWrites

section Collect

variable {run : GraphRun σ} {loop : LoopState} {st st₀ : RunState σ} {saver : CheckpointSaver σ}

theorem partOf_taskWrites {execution : NodeExecution} {done rest : List NodeExecution}
    {writes : List CheckpointWrite} {write : CheckpointWrite}
    (hsplit : (run.stepClassified (stepContext loop st.result) st).executions
      = done ++ execution :: rest)
    (hfailed : (run.stepClassified (stepContext loop st.result) st).failedIndexes = [])
    (hwrites : run.WritesOf st.core (done ++ [execution]) (writes ++ [write])) (hrest : rest ≠ [])
    (hkey : find kRunErrorStateKey st.result.state.view = none) (same : SameRun st st₀) :
    PartOf run loop st (run.checkpointOf {
      step := (stepContext loop st.result).nextStep, next := appendTasks [] (rest.map (·.task))
      pending := loop.pendingWrites ++ writes ++ [write], source := .taskWrites } st₀) := by
  have htasks := stepClassified_tasks run (stepContext loop st.result) st
  rw [hsplit, map_append, map_cons] at htasks
  have hsettled : ∀ task ∈ rest.map (·.task), task.Settled st.result.checkpointNamespace := by
    intro task htask
    refine activeTasks_settled loop st.result task ?_
    rw [← htasks]; exact mem_append_right _ (mem_cons_of_mem _ htask)
  have hnext := appendTasks_nil_of_settled hsettled
  have hstored : ∀ {request : CheckpointRequest},
      request.next = appendTasks [] (rest.map (·.task)) →
      (run.checkpointOf request st₀).nextTasks = rest.map (·.task) := by
    intro request hrequest
    rw [hnext] at hrequest
    rw [← hrequest] at hsettled ⊢
    exact checkpointOf_nextTasks same.checkpointNamespace hsettled
  refine ⟨same.threadId, same.checkpointNamespace, rfl, ?_, ?_, done ++ [execution],
    writes ++ [write], ?_, ?_, hwrites, append_assoc ..⟩
  · show withoutRunErrorMetadata st₀.result.state = _
    rw [same.state]; exact withoutRunErrorMetadata_of_find_none hkey
  · rw [hstored rfl]; exact fun hnil => hrest (map_eq_nil_iff.mp hnil)
  · rw [hstored rfl, ← htasks, map_append, map_cons, map_nil]
    refine perm_append_comm.trans ?_
    rw [append_assoc]; rfl
  · intro e he
    have hmem : e ∈ (run.stepClassified (stepContext loop st.result) st).executions := by
      rw [hsplit]
      rcases mem_append.mp he with he | he
      · exact mem_append_left _ he
      · rw [mem_singleton.mp he]
        exact mem_append_right _ mem_cons_self
    exact ⟨status_none_of_failedIndexes hfailed e hmem, hmem⟩

theorem collectWrites_partOf (hsaver : run.options.checkpointer = some saver)
    (hfailed : (run.stepClassified (stepContext loop st.result) st).failedIndexes = [])
    (hkey : find kRunErrorStateKey st.result.state.view = none) (persist : Bool)
    (executions done : List NodeExecution) (writes : List CheckpointWrite)
    (hsplit : (run.stepClassified (stepContext loop st.result) st).executions = done ++ executions)
    (hwrites : run.WritesOf st.core done writes) (same : SameRun st st₀) :
    Ends (run.collectWrites (stepContext loop st.result) persist (loop.pendingWrites ++ writes)
        executions) st₀
      (fun _ st' => AddsTaskWrites (PartOf run loop st) st₀ st')
      (fun _ st' => AddsTaskWrites (PartOf run loop st) st₀ st') := by
  have closed : StageClosed run True _ (AddsTaskWrites (PartOf run loop st)) _ :=
    (addsTaskWrites_closed hsaver).events
  induction executions generalizing done writes st₀ with
  | nil => exact closed.refl st₀
  | cons execution rest ih =>
    unfold collectWrites
    simp only [ends_bind, ends_get, writeFromExecution_same same]
    rw [← writeOf]
    cases hw : run.writeOf st.core execution with
    | error => exact closed.emitIgnored (by simp) st₀
    | ok write =>
      have hall : run.WritesOf st.core (done ++ [execution]) (writes ++ [write]) :=
        rel_append hwrites (.cons hw .nil)
      have hnext : ∀ {st₁}, SameRun st st₁ → AddsTaskWrites (PartOf run loop st) st₀ st₁ →
          Ends (run.collectWrites (stepContext loop st.result) persist
              (loop.pendingWrites ++ writes ++ [write]) rest) st₁
            (fun _ st' => AddsTaskWrites (PartOf run loop st) st₀ st')
            (fun _ st' => AddsTaskWrites (PartOf run loop st) st₀ st') := fun same₁ hadds => by
        rw [append_assoc]
        refine (ih (done ++ [execution]) (writes ++ [write]) ?_ hall same₁).mono
          (fun _ _ h => closed.trans hadds h) fun _ _ h => closed.trans hadds h
        rw [hsplit, append_assoc]; rfl
      split_ifs with hpersist
      · -- after the last execution nothing is stored here: the commit stores it
        have hrest : rest ≠ [] := fun hnil => by simp [hnil] at hpersist
        have hput : AddsTaskWrites (PartOf run loop st) st₀ _ := putCheckpoint_addsTaskWrites hsaver
          fun _ => partOf_taskWrites hsplit hfailed hall hrest hkey same
        unfold storeOrExit
        simp only [ends_bind, ends_act]
        split
        · exact hnext (same.trans (run.putCheckpoint_sameRun ..)) hput
        · exact closed.trans hput (closed.emitIgnored (by simp) _)
      · exact hnext same (closed.refl st₀)

theorem superStep_partOf (hsaver : run.options.checkpointer = some saver)
    (hkey : find kRunErrorStateKey st.result.state.view = none) :
    Ends (run.superStep loop) st (fun _ st' => AddsTaskWrites (PartOf run loop st) st st')
      (fun _ st' => AddsTaskWrites (PartOf run loop st) st st') := by
  have closed : StageClosed run True _ (AddsTaskWrites (PartOf run loop st)) _ :=
    (addsTaskWrites_closed hsaver).events
  unfold superStep
  rw [ends_bind, ends_get]
  dsimp only
  -- Whatever comes later adds to what was added before.
  have hfrom : ∀ {α : Type} {m : RunM σ α} {st₁ : RunState σ},
      AddsTaskWrites (PartOf run loop st) st st₁ →
      Ends m st₁ (fun _ st' => AddsTaskWrites (PartOf run loop st) st₁ st')
        (fun _ st' => AddsTaskWrites (PartOf run loop st) st₁ st') →
      Ends m st₁ (fun _ st' => AddsTaskWrites (PartOf run loop st) st st')
        (fun _ st' => AddsTaskWrites (PartOf run loop st) st st') := fun hadds hm =>
    hm.mono (fun _ _ h => closed.trans hadds h) fun _ _ h => closed.trans hadds h
  refine Ends.bind (((closed.enterStep st).and (enterStep_ends loop)).mono (fun _ _ h => h.2)
    fun _ _ h => h.1) fun budgetSteps st₁ h₁ => ?_
  subst h₁
  refine Ends.bind (((closed.executeStep st₁).and (executeStep_ends (.refl _))).mono (fun _ _ h => h)
    fun _ _ h => h.1) fun classified st₂ h₂ => ?_
  obtain ⟨hadds₂, same₂, rfl, hfailed⟩ := h₂
  unfold prepareWrites
  rw [ends_bind]
  refine Ends.bind ((hfrom hadds₂ (closed.emitNodeCompleted st₂)).and
    (emitNodeCompleted_ends same₂ _) |>.mono (fun _ _ h => h) fun _ _ h => h.1) fun _ st₃ h₃ => ?_
  dsimp only
  have hcollect := fun persist => collectWrites_partOf hsaver hfailed hkey persist
    (run.stepClassified (stepContext loop st₁.result) st₁).executions [] [] rfl .nil h₃.2
  simp only [append_nil] at hcollect
  refine Ends.bind (hfrom h₃.1 (hcollect _)) fun writes st₄ h₄ => ?_
  exact hfrom h₄ (closed.commitStep (fun _ _ hsource => hsource) trivial st₄)

end Collect

/-! ## 3. The head after an attempt -/

def stateAfter {α : Type} (m : RunM σ α) (st : RunState σ) : RunState σ :=
  match m st with
  | .ok _ st' => st'
  | .error _ st' => st'

theorem stateAfter_of_ends {α : Type} {m : RunM σ α} {st : RunState σ} {P : RunState σ → Prop}
    (h : Ends m st (fun _ st' => P st') fun _ st' => P st') : P (stateAfter m st) := by
  unfold stateAfter
  unfold Ends at h
  cases hm : m st <;> simpa [hm] using h

/-- A run in a world, about to execute a super-step or what is left of it. -/
structure Attempt where
  run : GraphRun InMemoryStore
  world : World InMemoryStore
  loop : LoopState
  st : RunState InMemoryStore

/-- The attempt at the step ends before all its tasks are done: handlers failed and the run stored
    its failure checkpoint, or the process stopped with task writes as the last checkpoint stored.
    The content of the saver and a number of clock readings by then are left. -/
inductive Stopped (a : Attempt) : InMemoryStore → Nat → Prop
  | failed {call : FailCall} {st' : RunState InMemoryStore} {result : RunResult}
      (hfail : a.run.superStep a.loop a.st = .error (.fail call) st')
      (hsite : call.site = .nodeFailed) (hstored : (a.run.failRun call st').1 = .ok result) :
      Stopped a (a.run.failRun call st').2.world.saver (a.run.failRun call st').2.world.clockReads
  | afterTaskWrites {done : List (SaverCall × Result Unit)} {c : Checkpoint}
      (hdone : a.st.calls ++ done <+: (stateAfter (a.run.superStep a.loop) a.st).calls)
      (hlast : (storedBy done).getLast? = some c)
      (hsource : c.source = some CheckpointSource.taskWrites.name) :
      Stopped a (contentAfter inMemorySaver (a.st.calls ++ done) a.world.saver)
        (stateAfter (a.run.superStep a.loop) a.st).world.clockReads

section Head

variable {a : Attempt} {store : InMemoryStore} {reads : Nat}

theorem Stopped.stored (hsaver : a.run.options.checkpointer = some inMemorySaver)
    (hreach : Reaches a.run a.world a.loop a.st)
    (hkey : find kRunErrorStateKey a.st.result.state.view = none)
    (h : Stopped a store reads) :
    ∃ calls c thread ns reads' n, PartOf a.run a.loop a.st c ∧ (storedBy calls).getLast? = some c ∧
      store = contentAfter inMemorySaver calls a.world.saver ∧
      Recorded a.run.host a.world.clockReads a.world.saver thread ns calls reads' n ∧
      reads' ≤ reads := by
  have inv : RunInvariant a.run (Ledger a.run.host a.world) := ledger_invariant hsaver
  obtain ⟨hle, hledger⟩ := hreach.invariant inv (ledger_identified _ a.world)
  have hclosed := (inv.closed (a.st.result.step + 1) (by omega)).events
  have hstep : Ends (a.run.superStep a.loop) a.st _ _ := hclosed.superStep (fun _ h => h) trivial
  replace hledger := inv.mono (Nat.le_succ a.st.result.step) hledger
  cases h with
  | @failed call st' result hfail hsite hstored =>
    have hfailure : StepFailure a.run (stepContext a.loop a.st.result) a.st st' call :=
      (superStep_ends a.run a.loop a.st).error hfail
    obtain ⟨hcontent, reads', n, hrecorded, hreads, -⟩ :=
      hclosed.failRun call st' hfailure.failedStep (hstep.error hfail hledger)
    obtain ⟨failed, hfailed, hput⟩ := failRun_ok hstored
    refine ⟨_, _, _, _, reads', n, hfailure.partOf hsite hkey hfailed, ?_, hcontent, hrecorded,
      hreads⟩
    rw [failRun_calls_of_ok hfailed, ← RunState.stored_eq,
      putCheckpoint_stored hsaver (by simp [shouldStore, FailCall.request]) hput, getLast?_concat]
  | @afterTaskWrites done c hdone hlast hsource =>
    have hafter : Ledger a.run.host a.world _ (stateAfter (a.run.superStep a.loop) a.st) :=
      stateAfter_of_ends (hstep.mono (fun _ _ h => h hledger) fun _ _ h => h hledger)
    obtain ⟨hcontent, reads', n, hrecorded, hreads, -⟩ := hafter
    obtain ⟨reads₁, n₁, hrecorded, hle⟩ := hrecorded.stopped hdone
    obtain ⟨added, hadded, hpart⟩ := stateAfter_of_ends (superStep_partOf hsaver hkey)
    refine ⟨_, c, _, _, reads₁, n₁, ?_, ?_, rfl, hrecorded, hle.trans hreads⟩
    · rw [hadded, prefix_append_right_inj] at hdone
      exact hpart c _ (hdone.subset (mem_storedBy.mp (mem_of_getLast? hlast))) hsource
    · rw [storedBy_append, getLast?_append, hlast]; rfl

/-- The checkpoint that a stopped attempt stored last is the newest of its thread and namespace, if
    none from before the run is ahead of the step. -/
theorem Stopped.head (hsaver : a.run.options.checkpointer = some inMemorySaver)
    (hreach : Reaches a.run a.world a.loop a.st)
    (hkey : find kRunErrorStateKey a.st.result.state.view = none)
    (hsound : Sound a.run.host a.world.clockReads a.world.saver)
    (hclock : a.run.host.Steady a.world.clockReads)
    (hahead : ∀ d ∈ threadCheckpoints a.world.saver a.st.result.threadId,
      d.checkpointNamespace = a.st.result.checkpointNamespace → d.step ≤ a.st.result.step + 1)
    (h : Stopped a store reads) :
    ∃ c, PartOf a.run a.loop a.st c ∧ c.threadId ≠ [] ∧
      findCheckpoint (.latest c.threadId c.checkpointNamespace) store = some c ∧
      Sound a.run.host reads store ∧ a.world.clockReads ≤ reads := by
  obtain ⟨calls, c, thread, ns, reads', n, hpart, hlast, rfl, hrecorded, hle⟩ :=
    h.stored hsaver hreach hkey
  obtain ⟨hthread, -, -, hiff⟩ := hrecorded.head hsound hclock hlast
  refine ⟨c, hpart, hthread, hiff.mpr fun d hd hns => ?_, (hrecorded.sound hsound).mono hle,
    hrecorded.first_le.trans hle⟩
  rw [hpart.threadId] at hd
  rw [hpart.checkpointNamespace] at hns
  rw [hpart.step]; exact hahead d hd hns

end Head

end GraphRun

end LangGraph
