import LangGraph.Graph.CompiledStateGraph
import LangGraph.Graph.Ledger

/-!
# The head of a thread in the in-memory saver

Which checkpoint `CheckpointQuery::latest` finds after a run.  The saver orders a thread by step
number and then by creation time, while every new run starts again at step zero.
-/

namespace LangGraph

open EarlyExit InMemorySaver Option

/-! ## 1. Histories -/

variable {host : Host} {world : World InMemoryStore}

theorem GraphRun.run_sound {run : GraphRun InMemoryStore}
    (hsaver : run.options.checkpointer = some inMemorySaver) (hhost : run.host = host)
    (h : Sound host world.clockReads world.saver) (fuel : Nat) :
    Sound host (run.run fuel world).2.world.clockReads (run.run fuel world).2.world.saver := by
  subst hhost
  rcases run_ledger hsaver world fuel with heq | ⟨_, hcontent, reads, _, hrecorded, hreads, -⟩
  · rw [heq]; exact h
  · rw [hcontent]; exact (hrecorded.sound h).mono hreads

namespace CompiledStateGraph

theorem ends_liftResult {α : Type} {result : Result α} {counter : Nat} {Q : α → Nat → Prop}
    (h : ∀ value, result = .ok value → Q value counter) :
    Ends (liftResult result) counter Q fun _ _ => True := by
  unfold liftResult
  cases result with
  | ok value => exact h value rfl
  | error => trivial

theorem updatedCheckpoint_ends {host : Host} {graph : StateGraph} {threadId : Bytes}
    {update : StateUpdate} {options : RunOptions InMemoryStore} {updateOptions : StateUpdateOptions}
    {world : World InMemoryStore} {counter : Nat} :
    Ends (updatedCheckpoint host graph threadId update options updateOptions world) counter
      (fun pair _ => options.checkpointer = some pair.1 ∧
        pair.2.createdAt = host.clock world.clockReads)
      fun _ _ => True := by
  unfold updatedCheckpoint
  have hany : ∀ {α β : Type} {m : IdM α} {f : α → IdM β} {n : Nat} {Q : β → Nat → Prop},
      (∀ a n, Ends (f a) n Q fun _ _ => True) → Ends (m >>= f) n Q fun _ _ => True :=
    fun hf => ends_bind.mpr (ends_self.mono (fun a n _ => hf a n) fun _ _ _ => trivial)
  refine hany fun _ _ => hany fun _ _ => ?_
  refine Ends.bind (P := fun saver _ => options.checkpointer = some saver)
    (ends_liftResult fun saver hsaver => requireRunCheckpointer_ok hsaver) fun saver _ hsaver => ?_
  dsimp only
  refine hany fun base _ => hany fun latest _ => hany fun baseState _ => hany fun state _ => ?_
  refine hany fun _ _ => hany fun nextTasks _ => hany fun checkpointId _ => hany fun update _ => ?_
  exact ⟨hsaver, rfl⟩

theorem updateState_sound (host : Host) (graph : StateGraph) (threadId : Bytes)
    (update : StateUpdate) {options : RunOptions InMemoryStore} (updateOptions : StateUpdateOptions)
    {world : World InMemoryStore} (hsaver : options.checkpointer = some inMemorySaver)
    (h : Sound host world.clockReads world.saver) :
    Sound host (updateState host graph threadId update options updateOptions world).2.clockReads
      (updateState host graph threadId update options updateOptions world).2.saver := by
  have hends : Ends (updatedCheckpoint host graph threadId update options updateOptions world)
    world.graphCounter _ _ := updatedCheckpoint_ends
  unfold updateState
  cases hmade : updatedCheckpoint host graph threadId update options updateOptions world
      world.graphCounter with
  | error status counter => exact h
  | ok pair counter =>
    obtain ⟨saver, checkpoint⟩ := pair
    obtain ⟨hgiven, hdate⟩ := hends.ok hmade
    have hsame : saver = inMemorySaver := some.inj (hgiven.symm.trans hsaver)
    subst hsame
    dsimp only
    cases (inMemorySaver.put checkpoint world.saver).1 with
    | error | ok => exact h.put le_rfl hdate

end CompiledStateGraph

/-- The worlds a sequence of calls leads to, each on the in-memory saver. -/
inductive History (host : Host) : World InMemoryStore → Prop
  | empty {world : World InMemoryStore} (h : world.saver = {}) : History host world
  | invoke {world : World InMemoryStore} (h : History host world) (graph : StateGraph)
      (input : State) (options : RunOptions InMemoryStore)
      (hsaver : options.checkpointer = some inMemorySaver) (fuel : Nat) :
      History host ((CompiledStateGraph.invoke host graph input options).run fuel world).2.world
  | resume {world : World InMemoryStore} (h : History host world) {graph : StateGraph}
      {threadId : Bytes} {options : RunOptions InMemoryStore} {run : GraphRun InMemoryStore}
      (hsaver : options.checkpointer = some inMemorySaver)
      (hrun : CompiledStateGraph.resume host graph threadId options world = .ok run) (fuel : Nat) :
      History host (run.run fuel world).2.world
  | replay {world : World InMemoryStore} (h : History host world) {graph : StateGraph}
      {threadId checkpointId : Bytes} {options : RunOptions InMemoryStore}
      {run : GraphRun InMemoryStore} (hsaver : options.checkpointer = some inMemorySaver)
      (hrun : CompiledStateGraph.replay host graph threadId checkpointId options world
        = .ok (.run run)) (fuel : Nat) :
      History host (run.run fuel world).2.world
  | updateState {world : World InMemoryStore} (h : History host world) (graph : StateGraph)
      (threadId : Bytes) (update : StateUpdate) (options : RunOptions InMemoryStore)
      (updateOptions : CompiledStateGraph.StateUpdateOptions)
      (hsaver : options.checkpointer = some inMemorySaver) :
      History host
        (CompiledStateGraph.updateState host graph threadId update options updateOptions world).2

theorem History.sound (h : History host world) : Sound host world.clockReads world.saver := by
  induction h with
  | empty h =>
    rw [h]; exact sound_empty host _
  | invoke _ graph input options hsaver fuel ih =>
    refine GraphRun.run_sound ?_ ?_ ih fuel
    · exact hsaver
    · rfl
  | resume _ hsaver hrun fuel ih =>
    obtain ⟨_, _, -, -, -, -, rfl⟩ := CompiledStateGraph.resume_ok hrun
    refine GraphRun.run_sound ?_ ?_ ih fuel
    · exact hsaver
    · rfl
  | replay _ hsaver hrun fuel ih =>
    obtain ⟨_, _, _, -, -, -, -, -, rfl⟩ := CompiledStateGraph.replay_ok hrun
    refine GraphRun.run_sound ?_ ?_ ih fuel
    · exact hsaver
    · rfl
  | updateState _ graph threadId update options updateOptions hsaver ih =>
    exact CompiledStateGraph.updateState_sound _ graph threadId update updateOptions hsaver ih

/-! ## 2. The newest checkpoint -/

namespace GraphRun

variable {run : GraphRun InMemoryStore}

theorem thread_invariant (run : GraphRun InMemoryStore) (thread ns : Bytes) :
    RunInvariant run fun _ st => st.result.threadId = thread ∧ st.result.checkpointNamespace = ns where
  mono _ h := h
  closed _ _ := {
    refl := fun _ h => h
    trans := fun hab hbc h => hbc (hab h)
    publish := fun _ _ h => h
    put := fun request st _ h => by
      have hsame := run.putCheckpoint_sameRun st request
      rw [hsame.threadId, hsame.checkpointNamespace]; exact h
    compute := fun hinternal h => by
      rw [hinternal.threadId, hinternal.checkpointNamespace]
      exact h }

theorem run_thread {world : World InMemoryStore} {fuel : Nat}
    (h : (run.run fuel world).2 ≠ run.initialState world) :
    (run.run fuel world).2.result.threadId = (run.identified world).result.threadId ∧
      (run.run fuel world).2.result.checkpointNamespace = run.options.checkpointNamespace := by
  rcases run_invariant (thread_invariant run _ _) ⟨rfl, rfl⟩ fuel with heq | ⟨_, hsame⟩
  · exact absurd heq h
  · exact hsame

/-- The last checkpoint of a run on a sound store is the newest of its thread and namespace exactly
    if no earlier one is ahead of it. -/
theorem run_head {world : World InMemoryStore} {fuel : Nat} {c : Checkpoint}
    (hsaver : run.options.checkpointer = some inMemorySaver)
    (hclock : run.host.Steady world.clockReads)
    (hsound : Sound run.host world.clockReads world.saver)
    (hlast : (run.run fuel world).2.stored.getLast? = some c) :
    c.threadId ≠ [] ∧ c.threadId = (run.identified world).result.threadId ∧
      c.checkpointNamespace = run.options.checkpointNamespace ∧
      (findCheckpoint (.latest c.threadId c.checkpointNamespace) (run.run fuel world).2.world.saver
        = some c ↔ NotAhead world.saver c) := by
  have hne : (run.run fuel world).2 ≠ run.initialState world := by
    intro heq
    rw [heq] at hlast; cases hlast
  obtain ⟨hthread, hns⟩ := run_thread hne
  rcases run_ledger hsaver world fuel with heq | ⟨_, hcontent, _, _, hrecorded, -, -⟩
  · exact absurd heq hne
  · obtain ⟨hnonempty, hc, hcns, hiff⟩ := hrecorded.head hsound hclock hlast
    rw [hcontent]; exact ⟨hnonempty, hc.trans hthread, hcns.trans hns, hiff⟩

section Stopped

variable {world : World InMemoryStore} {fuel : Nat} {done : List (SaverCall × Result Unit)}
  (hsaver : run.options.checkpointer = some inMemorySaver)
  (hdone : done <+: (run.run fuel world).2.calls)

include hsaver hdone

theorem stopped_recorded : ∃ reads n, Recorded run.host world.clockReads world.saver
    (run.identified world).result.threadId run.options.checkpointNamespace done reads n := by
  by_cases heq : (run.run fuel world).2 = run.initialState world
  · rw [heq] at hdone
    rw [List.prefix_nil.mp hdone]; exact ⟨_, _, .nil⟩
  · obtain ⟨hthread, hns⟩ := run_thread heq
    obtain ⟨_, _, _, _, hrecorded, _⟩ := (run_ledger hsaver world fuel).resolve_left heq
    rw [hthread, hns] at hrecorded
    obtain ⟨reads, n, hstopped, _⟩ := hrecorded.stopped hdone
    exact ⟨reads, n, hstopped⟩

/-- After any of a run's calls the saver holds what it held before the run and the checkpoints it
    has acknowledged since.  All of these are of the run's thread and namespace. -/
theorem stopped_run_extends_history :
    (run.run fuel world).2.world.saver
        = contentAfter inMemorySaver (run.run fuel world).2.calls world.saver ∧
      (∀ t d, d ∈ threadCheckpoints (contentAfter inMemorySaver done world.saver) t ↔
        d ∈ threadCheckpoints world.saver t ∨ d ∈ storedBy done ∧
          t = (run.identified world).result.threadId ∧
          d.checkpointNamespace = run.options.checkpointNamespace) ∧
      ∀ d ∈ storedBy done, d.threadId = (run.identified world).result.threadId ∧
        d.checkpointNamespace = run.options.checkpointNamespace := by
  obtain ⟨_, _, hrecorded⟩ := stopped_recorded hsaver hdone
  refine ⟨?_, fun t d => hrecorded.mem_iff, fun d hd => hrecorded.inThread hd⟩
  rcases run_ledger hsaver world fuel with heq | ⟨_, hledger⟩
  · rw [heq]; rfl
  · exact hledger.content

/-- After any of a run's calls, on any history, what the saver holds is read back by its name. -/
theorem stopped_run_reads_back (history : History run.host world) {c : Checkpoint}
    (hc : c ∈ threadCheckpoints (contentAfter inMemorySaver done world.saver) c.threadId)
    (hthread : c.threadId ≠ []) (hid : c.checkpointId ≠ []) :
    getTuple (.at c.threadId c.checkpointId c.checkpointNamespace)
      (contentAfter inMemorySaver done world.saver) = .ok (some ⟨c, c.pendingWrites⟩) := by
  obtain ⟨_, _, hrecorded⟩ := stopped_recorded hsaver hdone
  exact getTuple_at (hrecorded.sound history.sound).valid hc hthread hid

end Stopped

end GraphRun

/-! ## 3. A new invoke -/

/-- The checkpoint is what `latest`, `getState` and `resume` find for its thread and namespace. -/
structure IsHead (host : Host) (world : World InMemoryStore) (c : Checkpoint) : Prop where
  latest : getTuple (.latest c.threadId c.checkpointNamespace) world.saver
    = .ok (some ⟨c, c.pendingWrites⟩)
  getState : ∀ options : RunOptions InMemoryStore, options.checkpointer = some inMemorySaver →
    options.checkpointNamespace = c.checkpointNamespace →
    CompiledStateGraph.getState c.threadId options world = .ok (snapshotFromCheckpoint c)
  resume : ∀ (graph : StateGraph) (options : RunOptions InMemoryStore)
    (run : GraphRun InMemoryStore), options.checkpointer = some inMemorySaver →
    options.checkpointNamespace = c.checkpointNamespace →
    CompiledStateGraph.resume host graph c.threadId options world = .ok run →
    run = CompiledStateGraph.continueFrom host graph ⟨c, c.pendingWrites⟩ (replayStartStep c)
      c.threadId options

theorem isHead_iff {c : Checkpoint} (hthread : c.threadId ≠ []) :
    IsHead host world c ↔ getTuple (.latest c.threadId c.checkpointNamespace) world.saver
      = .ok (some ⟨c, c.pendingWrites⟩) := by
  refine ⟨IsHead.latest, fun hlatest => ⟨hlatest, ?_, ?_⟩⟩
  · intro options hsaver hns
    have hget : inMemorySaver.getTuple (.latest c.threadId c.checkpointNamespace) world.saver
      = .ok (some ⟨c, c.pendingWrites⟩) := hlatest
    have hfound : ∀ message, requireTuple inMemorySaver
        (.latest c.threadId c.checkpointNamespace) message world.saver
        = .ok ⟨c, c.pendingWrites⟩ := fun message => by
      rw [requireTuple, hget]; rfl
    rw [CompiledStateGraph.getState, requireThreadId, if_neg hthread, requireRunCheckpointer,
      hsaver, hns]
    exact congrArg (Except.map fun record => snapshotFromCheckpoint record.checkpoint) (hfound _)
  · intro graph options run hsaver hns hresume
    obtain ⟨saver, tuple, -, hgiven, htuple, -, rfl⟩ := CompiledStateGraph.resume_ok hresume
    have hsame : saver = inMemorySaver := some.inj (hgiven.symm.trans hsaver)
    rw [hsame, hns] at htuple
    have heq : some tuple = some ⟨c, c.pendingWrites⟩ := Except.ok.inj (htuple.symm.trans hlatest)
    rw [some.inj heq]

/-- After any history of calls and a further invoke, the last checkpoint of the invoke is the head
    of its thread exactly if no earlier checkpoint has a greater step. -/
theorem invoke_becomes_head_iff {host : Host} {world : World InMemoryStore} {graph : StateGraph}
    {input : State} {options : RunOptions InMemoryStore} {fuel : Nat} {result : RunResult}
    (history : History host world) (hclock : host.Steady world.clockReads)
    (hsaver : options.checkpointer = some inMemorySaver)
    (hresult : ((CompiledStateGraph.invoke host graph input options).run fuel world).1
      = some (.ok result)) :
    ∃ c, ((CompiledStateGraph.invoke host graph input options).run fuel world).2.stored.getLast?
        = some c ∧
      (options.threadId ≠ [] → c.threadId = options.threadId) ∧
      c.checkpointNamespace = options.checkpointNamespace ∧
      (IsHead host ((CompiledStateGraph.invoke host graph input options).run fuel world).2.world c ↔
        NotAhead world.saver c) := by
  have hgiven : (CompiledStateGraph.invoke host graph input options).options.checkpointer
    = some inMemorySaver := hsaver
  have hsome := List.getLast?_isSome.mpr (GraphRun.run_stored hgiven rfl hresult)
  obtain ⟨c, hlast⟩ := isSome_iff_exists.mp hsome
  obtain ⟨hnonempty, hthread, hns, hiff⟩ := GraphRun.run_head hgiven hclock history.sound hlast
  have hsound := GraphRun.run_sound hgiven rfl history.sound fuel
  refine ⟨c, hlast, fun hgiven => ?_, hns, ?_⟩
  · rw [hthread]
    simp [GraphRun.identified, GraphRun.assignIds, CompiledStateGraph.invoke, hgiven]
  · rw [isHead_iff hnonempty, getTuple_latest_iff hsound.valid hnonempty]
    exact hiff

/-- An invoke on thread `t` of a graph that runs the given nodes one after the other. -/
def chainRun (runId : String) (nodes : List Bytes) : GraphRun InMemoryStore :=
  CompiledStateGraph.invoke countingHost
    { nodes := nodes.map fun node => (node, constantNode {})
      edges := (START :: nodes).zip (nodes.map fun node => [node]) } .empty
    { runId := lit runId, threadId := lit "t", checkpointer := some inMemorySaver }

/-- The world after a run of two super-steps on an empty store. -/
def afterTwoSteps : World InMemoryStore :=
  ((chainRun "r" [lit "a", lit "b"]).run 2 { saver := {} }).2.world

/-- The first two calls to the saver in a run of two super-steps. -/
def twoCalls : List (SaverCall × Result Unit) :=
  ((chainRun "r" [lit "a", lit "b"]).run 2 { saver := {} }).2.calls.take 2

theorem twoCalls_extend_history :
    (storedBy twoCalls).length = 2 ∧
      (∀ t d, d ∈ threadCheckpoints (contentAfter inMemorySaver twoCalls {}) t ↔
        d ∈ threadCheckpoints {} t ∨ d ∈ storedBy twoCalls ∧ t = lit "t" ∧
          d.checkpointNamespace = []) ∧
      ∀ d ∈ storedBy twoCalls, d.threadId = lit "t" ∧ d.checkpointNamespace = [] := by
  have hdone : twoCalls <+: _ := List.take_prefix 2 _
  have hextends := (GraphRun.stopped_run_extends_history rfl hdone).2
  exact ⟨by decide +kernel, hextends⟩

/-- A run on thread `t` one of whose two nodes fails in the first super-step. -/
def halfFailedRun : GraphRun InMemoryStore :=
  CompiledStateGraph.invoke countingHost
    { nodes := [(lit "a", constantNode { update := ⟨[(lit "x", .int 1)]⟩ }),
        (lit "b", failingNode (.internal (lit "b failed")))]
      edges := [(START, [lit "a", lit "b"])] } .empty
    { runId := lit "r", threadId := lit "t", checkpointer := some inMemorySaver }

def halfFailedCalls : List (SaverCall × Result Unit) :=
  (halfFailedRun.run 1 { saver := {} }).2.calls

/-- The write of the node that succeeded is read back as a pending one. -/
theorem halfFailed_reads_back :
    ∃ c, c.pendingWrites ≠ [] ∧ getTuple (.at c.threadId c.checkpointId c.checkpointNamespace)
      (contentAfter inMemorySaver halfFailedCalls {}) = .ok (some ⟨c, c.pendingWrites⟩) := by
  have hdone : halfFailedCalls <+: (halfFailedRun.run 1 { saver := {} }).2.calls :=
    List.prefix_rfl
  have htest : ((threadCheckpoints (contentAfter inMemorySaver halfFailedCalls {})
      (lit "t")).any fun c => c.pendingWrites ≠ [] && c.threadId = lit "t" && c.checkpointId ≠ [])
        = true := by decide +kernel
  simp only [List.any_eq_true, Bool.and_eq_true, decide_eq_true_eq] at htest
  obtain ⟨c, hc, ⟨hpending, ht⟩, hid⟩ := htest
  exact ⟨c, hpending, GraphRun.stopped_run_reads_back rfl hdone (.empty rfl) (ht ▸ hc)
    (by rw [ht]; decide) hid⟩

theorem countingHost_steady (reads : Nat) : countingHost.Steady reads := fun _ _ _ h =>
  Int.ofNat_le.mpr h

theorem history_afterTwoSteps : History countingHost afterTwoSteps := by
  unfold afterTwoSteps chainRun; exact .invoke (.empty rfl) _ _ _ rfl 2

/-- The new run has as many super-steps as the older one. -/
theorem invoke_becomes_head_afterTwoSteps :
    ∃ c, ((chainRun "s" [lit "a", lit "b"]).run 2 afterTwoSteps).2.stored.getLast? = some c ∧
      threadCheckpoints afterTwoSteps.saver c.threadId ≠ [] ∧
      IsHead countingHost ((chainRun "s" [lit "a", lit "b"]).run 2 afterTwoSteps).2.world c := by
  have htest : (((chainRun "s" [lit "a", lit "b"]).run 2 afterTwoSteps).1.any (·.isOk) &&
      ((chainRun "s" [lit "a", lit "b"]).run 2 afterTwoSteps).2.stored.getLast?.any fun c =>
        threadCheckpoints afterTwoSteps.saver c.threadId ≠ [] &&
        (threadCheckpoints afterTwoSteps.saver c.threadId).all fun d => d.step ≤ c.step) = true := by
    decide +kernel
  simp only [Bool.and_eq_true, any_eq_true, List.all_eq_true, decide_eq_true_eq] at htest
  obtain ⟨⟨answer, hanswer, hisOk⟩, c, hlast, hearlier, hsteps⟩ := htest
  cases answer with
  | error => cases hisOk
  | ok result =>
    obtain ⟨c', hlast', -, -, hiff⟩ := invoke_becomes_head_iff history_afterTwoSteps
      (countingHost_steady _) rfl hanswer
    have hsame : c' = c := some.inj (hlast'.symm.trans hlast)
    rw [hsame] at hiff
    refine ⟨c, hlast, hearlier, ?_⟩
    unfold chainRun
    exact hiff.mpr fun d hd _ => hsteps d hd

/-- The older run had two super-steps and the new one has one: `latest` still finds the last
    checkpoint of the older run. -/
theorem shorter_invoke_is_not_head :
    ∃ result c d, ((chainRun "s" [lit "a"]).run 1 afterTwoSteps).1 = some (.ok result) ∧
      ((chainRun "s" [lit "a"]).run 1 afterTwoSteps).2.stored.getLast? = some c ∧
      ¬ IsHead countingHost ((chainRun "s" [lit "a"]).run 1 afterTwoSteps).2.world c ∧
      d ∈ threadCheckpoints afterTwoSteps.saver (lit "t") ∧
      IsHead countingHost ((chainRun "s" [lit "a"]).run 1 afterTwoSteps).2.world d ∧
      History countingHost afterTwoSteps ∧ countingHost.Steady afterTwoSteps.clockReads := by
  have htest : (((chainRun "s" [lit "a"]).run 1 afterTwoSteps).1.any (·.isOk) &&
      ((chainRun "s" [lit "a"]).run 1 afterTwoSteps).2.stored.getLast?.any fun c =>
        (threadCheckpoints afterTwoSteps.saver (lit "t")).any fun d =>
          c ≠ d && c.threadId = lit "t" && d.threadId = lit "t" &&
          c.checkpointNamespace = d.checkpointNamespace &&
          getTuple (.latest d.threadId d.checkpointNamespace)
            ((chainRun "s" [lit "a"]).run 1 afterTwoSteps).2.world.saver
            = .ok (some ⟨d, d.pendingWrites⟩)) = true := by
    decide +kernel
  simp only [Bool.and_eq_true, any_eq_true, List.any_eq_true, decide_eq_true_eq] at htest
  obtain ⟨⟨answer, hanswer, hisOk⟩, c, hlast, d, hd, ⟨⟨⟨hne, hc⟩, hdt⟩, hns⟩, hlatest⟩ := htest
  cases answer with
  | error => cases hisOk
  | ok result =>
    refine ⟨result, c, d, hanswer, hlast, fun hhead => ?_, hd, ?_, history_afterTwoSteps,
      countingHost_steady _⟩
    · have hcontra := hhead.latest
      rw [hc, ← hdt, hns, hlatest] at hcontra
      cases hcontra; exact hne rfl
    · refine (isHead_iff ?_).mpr hlatest
      rw [hdt]; decide

end LangGraph
