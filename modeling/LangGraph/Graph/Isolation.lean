import LangGraph.Graph.Closure
import LangGraph.Graph.Subgraph
import LangGraph.Checkpoint.InMemorySaver

/-!
# Isolation of per-invocation subgraphs

A per-invocation child stores its checkpoints under a thread id and a namespace that end in the run
id and the step of the call, but not in the task.  Section 1 says when two calls get different
identities, section 2 what follows for the saver when they do.
-/

namespace LangGraph

open ByteString InMemorySaver List

variable {σ : Type}

/-! ## 1. Identities -/

namespace SubgraphOptions

/-- The thread id and checkpoint namespace handed to `invokeSubgraph`. -/
def identity (options : SubgraphOptions σ) (context : Runtime) : Bytes × Bytes :=
  (options.childThreadId context, options.childNamespace context)

/-- A per-invocation registration that leaves the thread id to the parent. -/
structure Inherits (options : SubgraphOptions σ) : Prop where
  perInvocation : options.persistence = .perInvocation
  noThreadId : options.options.threadId = []
  inherit : options.inheritThreadId = true

/-- Node, suffix and run id, as they stand in the thread id. -/
def callPath (options : SubgraphOptions σ) (context : Runtime) : Bytes :=
  (if options.threadIdSuffix = [] then context.nodeId
    else context.nodeId ++ lit "/" ++ options.threadIdSuffix) ++ lit "/" ++ context.runId

/-- Parent namespace, own namespace and run id, as they stand in the namespace. -/
def callNamespace (options : SubgraphOptions σ) (context : Runtime) : Bytes :=
  joinCheckpointNamespace context.checkpointNamespace
    ((if options.checkpointNamespace = [] then context.nodeId else options.checkpointNamespace)
      ++ kCheckpointNamespaceTaskSeparator :: context.runId)

variable {options options' : SubgraphOptions σ} {context context' : Runtime}

theorem joinCheckpointNamespace_append (parent : Bytes) {child : Bytes} (hchild : child ≠ [])
    (rest : Bytes) :
    joinCheckpointNamespace parent (child ++ rest) = joinCheckpointNamespace parent child ++ rest := by
  have happend : child ++ rest ≠ [] := append_ne_nil_of_left_ne_nil hchild rest
  unfold joinCheckpointNamespace
  rw [if_neg hchild, if_neg happend]
  split_ifs
  · rfl
  · rw [append_assoc, cons_append]

theorem Inherits.childThreadId (h : options.Inherits) :
    options.childThreadId context
      = context.threadId ++ lit "/" ++ (options.callPath context ++ lit "-" ++ decimal context.step) := by
  unfold SubgraphOptions.childThreadId inheritedThreadId callPath invocationId
  rw [h.noThreadId, h.inherit, h.perInvocation]
  simp only [decide_true, Bool.and_self]
  split_ifs <;> simp only [append_assoc]

theorem Inherits.childNamespace (h : options.Inherits) :
    options.childNamespace context
      = options.callNamespace context ++ lit "-" ++ decimal context.step := by
  have hid : invocationId context ≠ [] := by simp [invocationId, decimal_ne_nil]
  unfold SubgraphOptions.childNamespace baseNamespace callNamespace checkpointNamespaceWithTask
  rw [if_pos h.perInvocation, if_neg hid, append_assoc,
    ← joinCheckpointNamespace_append _ (by simp)]
  simp [invocationId]

theorem dash_decimal_inj {a b : Bytes} {m n : Nat}
    (h : a ++ lit "-" ++ decimal m = b ++ lit "-" ++ decimal n) : a = b ∧ m = n := by
  have hdash : ∀ k, (45 : UInt8) ∉ (decimal k).reverse := fun k hmem =>
    notMem_decimal (.inl (by decide)) (mem_reverse.mp hmem)
  have hreverse := congrArg reverse h
  rw [show lit "-" = [45] by decide] at hreverse
  simp only [append_assoc, singleton_append, reverse_append, reverse_cons]
    at hreverse
  obtain ⟨hstep, hprefix⟩ := append_cons_inj (hdash m) (hdash n) hreverse
  exact ⟨reverse_inj.mp hprefix, decimal_injective (reverse_inj.mp hstep)⟩

/-- Two calls on one thread have the same identity exactly when they agree in the step and in the
    texts made of their names and run ids. -/
theorem identity_eq_iff (h : options.Inherits) (h' : options'.Inherits)
    (hthread : context.threadId = context'.threadId) :
    options.identity context = options'.identity context' ↔
      context.step = context'.step ∧ options.callPath context = options'.callPath context' ∧
        options.callNamespace context = options'.callNamespace context' := by
  unfold identity
  rw [Prod.mk.injEq, h.childThreadId, h'.childThreadId, h.childNamespace, h'.childNamespace, hthread,
    append_right_inj]
  constructor
  · rintro ⟨hpath, hnamespace⟩
    exact ⟨(dash_decimal_inj hpath).2, (dash_decimal_inj hpath).1, (dash_decimal_inj hnamespace).1⟩
  · rintro ⟨hstep, hpath, hnamespace⟩
    rw [hstep, hpath, hnamespace]; exact ⟨rfl, rfl⟩

theorem identity_eq_iff_of_node (h : options.Inherits)
    (hthread : context.threadId = context'.threadId) (hnode : context.nodeId = context'.nodeId)
    (hnamespace : context.checkpointNamespace = context'.checkpointNamespace) :
    options.identity context = options.identity context' ↔
      context.runId = context'.runId ∧ context.step = context'.step := by
  rw [identity_eq_iff h h hthread]
  unfold callPath callNamespace
  rw [hnode, hnamespace]
  constructor
  · rintro ⟨hstep, hpath, -⟩; exact ⟨append_cancel_left hpath, hstep⟩
  · rintro ⟨hrun, hstep⟩
    rw [hrun, hstep]; exact ⟨rfl, rfl, rfl⟩

end SubgraphOptions

/-! ## 2. What a run does to other threads and namespaces -/

/-- What is stored under one thread and namespace does not show in an observation of the content. -/
structure CheckpointSaver.Blind {α : Type} (saver : CheckpointSaver σ) (identity : Bytes × Bytes)
    (inv : σ → Prop) (observe : σ → α) : Prop where
  put : ∀ (c : Checkpoint) {content : σ}, inv content →
    (c.threadId, c.checkpointNamespace) = identity →
    inv (saver.put c content).2 ∧ observe (saver.put c content).2 = observe content
  putWrites : ∀ (set : CheckpointWriteSet) {content : σ}, inv content →
    (set.threadId, set.checkpointNamespace) = identity →
    inv (saver.putWrites set content).2 ∧ observe (saver.putWrites set content).2 = observe content

theorem inMemorySaver_blind {identity : Bytes × Bytes} {query : CheckpointQuery}
    (hne : identity ≠ (query.threadId, query.checkpointNamespace)) :
    inMemorySaver.Blind identity Ordered (getTuple query) where
  put := by
    rintro c content hordered rfl
    exact ⟨hordered.put c, getTuple_put hordered hne⟩
  putWrites := by
    rintro set content hordered rfl
    exact ⟨hordered.putWrites set, getTuple_putWrites hordered hne⟩

namespace GraphRun

variable {run : GraphRun σ} {saver : CheckpointSaver σ} {α : Type} {inv : σ → Prop} {observe : σ → α}

theorem blind_invariant {identity : Bytes × Bytes} (content : σ)
    (hsaver : run.options.checkpointer = some saver) (blind : saver.Blind identity inv observe) :
    RunInvariant run fun _ st =>
      (st.result.threadId, st.result.checkpointNamespace) = identity ∧ inv st.world.saver ∧
        observe st.world.saver = observe content where
  mono _ h := h
  closed _ _ := {
    refl := fun _ h => h
    trans := fun hab hbc h => hbc (hab h)
    publish := fun _ _ h => h
    put := fun request st _ h => by
      obtain ⟨hidentity, hinv, hobserve⟩ := h
      have hsame := run.putCheckpoint_sameRun st request
      obtain ⟨added, -, heffect⟩ := run.putCheckpoint_effect st hsaver request
      refine ⟨by rw [hsame.threadId, hsame.checkpointNamespace]; exact hidentity, ?_⟩
      generalize (run.putCheckpoint request st).2.world.saver = stored at heffect
      cases heffect with
      | skipped => exact ⟨hinv, hobserve⟩
      | put =>
        obtain ⟨hinv', heq⟩ := blind.put (run.checkpointOf request st) hinv hidentity
        exact ⟨hinv', heq.trans hobserve⟩
      | putWrites _ _ source =>
        obtain ⟨hinv', heq⟩ := blind.put (run.checkpointOf request st) hinv hidentity
        obtain ⟨hinv'', heq'⟩ := blind.putWrites
          (pendingWriteSet (run.checkpointOf request st) source) hinv' hidentity
        exact ⟨hinv'', (heq'.trans heq).trans hobserve⟩
    compute := fun hinternal h => by
      rw [hinternal.threadId, hinternal.checkpointNamespace, hinternal.world]
      exact h }

theorem run_blind {world : World σ} (hsaver : run.options.checkpointer = some saver)
    (hthread : run.options.threadId ≠ [])
    (blind : saver.Blind (run.options.threadId, run.options.checkpointNamespace) inv observe)
    (hinv : inv world.saver) (fuel : Nat) :
    observe (run.run fuel world).2.world.saver = observe world.saver := by
  have hinit : ((run.identified world).result.threadId,
        (run.identified world).result.checkpointNamespace)
      = (run.options.threadId, run.options.checkpointNamespace) := by
    simp only [identified, assignIds, if_neg hthread]
  have hinvariant := blind_invariant world.saver hsaver blind
  rcases run_invariant hinvariant ⟨hinit, hinv, rfl⟩ fuel with heq | ⟨_, -, -, hobserve⟩
  · rw [heq]; rfl
  · exact hobserve

/-! ## 3. Per-invocation subgraphs -/

section PerInvocation

variable {options options' : SubgraphOptions InMemoryStore} {context context' : Runtime}

/-- Two per-invocation calls on one thread get different identities exactly when they differ in the
    step or in the texts made of names and run id; calls of one node, exactly when they belong to
    different runs or super-steps.  What a child stores is then invisible under the other identity,
    whatever it runs. -/
theorem perInvocation_isolated_iff (h : options.Inherits) (h' : options'.Inherits)
    (hthread : context.threadId = context'.threadId) :
    (options.identity context ≠ options'.identity context' ↔
      context.step ≠ context'.step ∨ options.callPath context ≠ options'.callPath context' ∨
        options.callNamespace context ≠ options'.callNamespace context') ∧
    (options = options' → context.nodeId = context'.nodeId →
      context.checkpointNamespace = context'.checkpointNamespace →
      (options.identity context ≠ options'.identity context' ↔
        context.runId ≠ context'.runId ∨ context.step ≠ context'.step)) ∧
    (options.identity context ≠ options'.identity context' →
      ∀ (env : SubgraphHost InMemoryStore) (graph : StateGraph) (state : State) (fuel : Nat)
        (checkpointId : Option Bytes),
        (childOptions env options context).checkpointer = some inMemorySaver →
        InMemorySaver.Ordered (env.world context).saver →
        InMemorySaver.getTuple
            ⟨options'.childThreadId context', options'.childNamespace context', checkpointId⟩
            ((childRun env ⟨graph, options⟩ state context).run fuel (env.world context)).2.world.saver
          = InMemorySaver.getTuple
            ⟨options'.childThreadId context', options'.childNamespace context', checkpointId⟩
            (env.world context).saver) := by
  refine ⟨?_, fun heq hnode hnamespace => ?_, fun hne env graph state fuel id hsaver hordered => ?_⟩
  · rw [ne_eq, SubgraphOptions.identity_eq_iff h h' hthread, not_and_or, not_and_or]
  · subst heq
    rw [ne_eq, SubgraphOptions.identity_eq_iff_of_node h hthread hnode hnamespace, not_and_or]
  · have hchild : options.childThreadId context ≠ [] := by
      rw [h.childThreadId]
      simp [show lit "/" = [47] by decide]
    exact run_blind hsaver hchild (inMemorySaver_blind hne) hordered fuel

end PerInvocation

def quietChild : Subgraph InMemoryStore where
  graph := {
    nodes := [(lit "n", { handler := fun _ _ => .returned (.ok {}) [] false })]
    edges := [(START, [lit "n"])] }

/-- The context of a call of node `s` in a step of run `r`. -/
def callContext (step : Nat) : Runtime :=
  { runId := lit "r", threadId := lit "t", nodeId := lit "s", step := step }

/-- The same node called in two super-steps of one run. -/
theorem perInvocation_isolated_of_steps :
    quietChild.options.Inherits ∧
      quietChild.options.identity (callContext 1) ≠ quietChild.options.identity (callContext 2) := by
  have hinherits : quietChild.options.Inherits := ⟨rfl, rfl, rfl⟩
  have hisolated := perInvocation_isolated_iff hinherits hinherits
    (show (callContext 1).threadId = (callContext 2).threadId from rfl)
  exact ⟨hinherits, (hisolated.2.1 rfl rfl rfl).mpr (.inr (by decide))⟩

def twoSendsRun : GraphRun InMemoryStore :=
  CompiledStateGraph.invoke countingHost {
      nodes := [(lit "s", subgraphNode
        { host := countingHost, checkpointer := some inMemorySaver
          world := fun _ => { saver := {} }, fuel := 2 } quietChild)]
      routers := [(START, fun state _ => .ok [
        { node := lit "s", arg := some state }, { node := lit "s", arg := some state }])] }
    .empty { runId := lit "r", threadId := lit "t", checkpointer := some inMemorySaver }

/-- The identities of the subgraph calls of the first super-step, if the run gets there. -/
def firstIdentities (run : GraphRun InMemoryStore) (options : SubgraphOptions InMemoryStore)
    (world : World InMemoryStore) : Option (List (Bytes × Bytes)) :=
  match run.start (run.initialState world) with
  | .ok loop st => some ((stepContext loop st.result).activeTasks.mapIdx fun index task =>
      options.identity (runtimeFor st.result task none (stepContext loop st.result).nextStep index 1))
  | .error _ _ => none

/-- Two `Send` tasks of one super-step share thread and namespace. -/
theorem sends_share_identity :
    firstIdentities twoSendsRun quietChild.options { saver := {} }
      = some [(lit "t/s/r-1", lit "s:r-1"), (lit "t/s/r-1", lit "s:r-1")] := by
  decide +kernel

end GraphRun

end LangGraph
