import LangGraph.Graph.Classification
import LangGraph.Graph.Run
import LangGraph.Lib.EarlyExit

/-!
# What the actions of a run leave alone

Publishing an event changes only the trace and the collected events; storing a checkpoint changes
only these, the saver, the clock and the parent id.  Neither touches the state that is being
computed.
-/

namespace LangGraph

open EarlyExit

variable {σ : Type}

def RunState.core (st : RunState σ) : RunResult := { st.result with events := [] }

theorem RunState.getLast?_stored {st : RunState σ} {calls : List (SaverCall × Result Unit)}
    {c : Checkpoint} (h : st.calls = calls ++ [(.put c, .ok ())]) :
    st.stored.getLast? = some c := by
  simp [RunState.stored, h]

structure Quiet (st st' : RunState σ) : Prop where
  core : st'.core = st.core
  resumeValues : st'.resumeValuesByTask = st.resumeValuesByTask
  parent : st'.parentCheckpointId = st.parentCheckpointId
  world : st'.world = st.world
  calls : st'.calls = st.calls

/-- `st'` is `st` after publishing events and storing checkpoints. -/
structure SameRun (st st' : RunState σ) : Prop where
  core : st'.core = st.core
  resumeValues : st'.resumeValuesByTask = st.resumeValuesByTask

namespace Quiet

theorem refl (st : RunState σ) : Quiet st st := ⟨rfl, rfl, rfl, rfl, rfl⟩

theorem trans {a b c : RunState σ} (hab : Quiet a b) (hbc : Quiet b c) : Quiet a c :=
  ⟨hbc.core.trans hab.core, hbc.resumeValues.trans hab.resumeValues, hbc.parent.trans hab.parent,
    hbc.world.trans hab.world, hbc.calls.trans hab.calls⟩

theorem sameRun {st st' : RunState σ} (h : Quiet st st') : SameRun st st' :=
  ⟨h.core, h.resumeValues⟩

end Quiet

namespace SameRun

theorem refl (st : RunState σ) : SameRun st st := ⟨rfl, rfl⟩

theorem trans {a b c : RunState σ} (hab : SameRun a b) (hbc : SameRun b c) : SameRun a c :=
  ⟨hbc.core.trans hab.core, hbc.resumeValues.trans hab.resumeValues⟩

variable {st st' : RunState σ}

section

variable (h : SameRun st st')

include h

theorem state : st'.result.state = st.result.state :=
  (congrArg RunResult.state h.core :)

theorem step : st'.result.step = st.result.step :=
  (congrArg RunResult.step h.core :)

theorem runId : st'.result.runId = st.result.runId :=
  (congrArg RunResult.runId h.core :)

theorem threadId : st'.result.threadId = st.result.threadId :=
  (congrArg RunResult.threadId h.core :)

theorem checkpointNamespace : st'.result.checkpointNamespace = st.result.checkpointNamespace :=
  (congrArg RunResult.checkpointNamespace h.core :)

theorem withState (state : State) : SameRun (st.withState state) (st'.withState state) :=
  ⟨congrArg (fun core : RunResult => { core with state := state }) h.core, h.resumeValues⟩

theorem setStep (step : Nat) : SameRun (GraphRun.setStep step st) (GraphRun.setStep step st') :=
  ⟨congrArg (fun core : RunResult => { core with step := step }) h.core, h.resumeValues⟩

theorem setStatus (status : RunStatus) :
    SameRun (GraphRun.setStatus status st) (GraphRun.setStatus status st') :=
  ⟨congrArg (fun core : RunResult => { core with status := status }) h.core, h.resumeValues⟩

end

end SameRun

namespace GraphRun

variable (run : GraphRun σ) (st : RunState σ)

theorem publish_quiet (event : RuntimeEvent) : Quiet st (run.publish event st).2 :=
  ⟨rfl, rfl, rfl, rfl, rfl⟩

theorem emit_quiet (type : RuntimeEventType) (step : Nat) (node : Bytes) (payload : Json)
    (message : Bytes) : Quiet st (run.emit type step node payload message st).2 :=
  run.publish_quiet st _

theorem emitIgnored_quiet (type : RuntimeEventType) (step : Nat) (node : Bytes) (payload : Json)
    (message : Bytes) : Quiet st (run.emitIgnored type step node payload message st) :=
  run.publish_quiet st _

theorem announceFailures_quiet (ctx : StepContext) (raw : List NodeExecution)
    (classified : Classified) : Quiet st (run.announceFailures ctx raw classified st) := by
  unfold announceFailures
  generalize classified.failedIndexes = indexes
  induction indexes generalizing st with
  | nil => exact .refl st
  | cons index indexes ih =>
    rw [List.foldl_cons]
    refine Quiet.trans ?_ (ih _)
    split
    · exact run.emitIgnored_quiet st ..
    · exact .refl st

theorem storeCheckpoint_sameRun (saver : CheckpointSaver σ) (checkpoint : Checkpoint)
    (source : CheckpointSource) : SameRun st (storeCheckpoint saver checkpoint source st).2 := by
  unfold storeCheckpoint
  dsimp only
  split
  · exact ⟨rfl, rfl⟩
  · split_ifs
    · exact ⟨rfl, rfl⟩
    · exact ⟨rfl, rfl⟩

theorem storeInSaver_sameRun (checkpoint : Checkpoint) (source : CheckpointSource) :
    SameRun st (run.storeInSaver checkpoint source st).2 := by
  unfold storeInSaver
  split
  · exact storeCheckpoint_sameRun st ..
  · exact .refl st

theorem announceCheckpoint_sameRun (request : CheckpointRequest) (checkpoint : Checkpoint) :
    SameRun st (run.announceCheckpoint request checkpoint st).2 :=
  ⟨rfl, rfl⟩

theorem putCheckpoint_sameRun (request : CheckpointRequest) :
    SameRun st (run.putCheckpoint request st).2 := by
  have htick : SameRun st st.tick := ⟨rfl, rfl⟩
  have hstored := htick.trans
    (run.storeInSaver_sameRun st.tick (run.checkpointOf request st) request.source)
  unfold putCheckpoint
  dsimp only
  split
  · split
    · exact hstored
    · exact hstored.trans (run.announceCheckpoint_sameRun _ _ _)
  · exact htick

/-- The calls that storing a checkpoint makes, and the content of the saver after them. -/
inductive PutEffect (saver : CheckpointSaver σ) (c : Checkpoint) (content : σ) :
    List (SaverCall × Result Unit) → σ → Prop
  | skipped : PutEffect saver c content [] content
  | put {answer : Result Unit} (h : (saver.put c content).1 = answer) :
      PutEffect saver c content [(.put c, answer)] (saver.put c content).2
  | putWrites (h : (saver.put c content).1 = .ok ()) (hpending : c.pendingWrites ≠ [])
      (source : CheckpointSource) : PutEffect saver c content
        [(.put c, .ok ()), (.putWrites (pendingWriteSet c source),
          (saver.putWrites (pendingWriteSet c source) (saver.put c content).2).1)]
        (saver.putWrites (pendingWriteSet c source) (saver.put c content).2).2

theorem storeCheckpoint_effect (saver : CheckpointSaver σ) (c : Checkpoint)
    (source : CheckpointSource) :
    ∃ added, (storeCheckpoint saver c source st).2.calls = st.calls ++ added ∧
      PutEffect saver c st.world.saver added (storeCheckpoint saver c source st).2.world.saver := by
  unfold storeCheckpoint
  dsimp only
  cases hput : (saver.put c st.world.saver).1 with
  | error => exact ⟨_, rfl, .put hput⟩
  | ok =>
    split_ifs with hpending
    · exact ⟨_, rfl, .put hput⟩
    · exact ⟨_, List.append_assoc .., .putWrites hput hpending source⟩

theorem putCheckpoint_effect {saver : CheckpointSaver σ}
    (hsaver : run.options.checkpointer = some saver) (request : CheckpointRequest) :
    ∃ added, (run.putCheckpoint request st).2.calls = st.calls ++ added ∧
      PutEffect saver (run.checkpointOf request st) st.world.saver added
        (run.putCheckpoint request st).2.world.saver := by
  unfold putCheckpoint
  split_ifs
  · have heffect := storeCheckpoint_effect st.tick saver (run.checkpointOf request st) request.source
    simp only [storeInSaver, hsaver]
    split <;> exact heffect
  · exact ⟨[], (List.append_nil _).symm, .skipped⟩

theorem putCheckpoint_noSaver (hnone : run.options.checkpointer = none) (request : CheckpointRequest) :
    (run.putCheckpoint request st).2.world.saver = st.world.saver ∧
      (run.putCheckpoint request st).2.calls = st.calls := by
  unfold putCheckpoint storeInSaver
  rw [hnone]
  split_ifs
  · exact ⟨rfl, rfl⟩
  · exact ⟨rfl, rfl⟩

theorem putCheckpoint_clockReads (request : CheckpointRequest) :
    (run.putCheckpoint request st).2.world.clockReads = st.world.clockReads + 1 := by
  have hstore : ∀ saver c source, (storeCheckpoint saver c source st.tick).2.world.clockReads
      = st.world.clockReads + 1 := by
    intro saver c source
    unfold storeCheckpoint
    dsimp only
    split
    · rfl
    · split_ifs <;> rfl
  unfold putCheckpoint storeInSaver
  dsimp only
  split_ifs
  · cases run.options.checkpointer with
    | none => rfl
    | some =>
      split <;> exact hstore ..
  · rfl

variable {α : Type} {E : Exit → RunState σ → Prop} {Q : α → RunState σ → Prop}

@[simp] theorem ends_act {action : RunState σ → α × RunState σ} :
    Ends (act action) st Q E ↔ Q (action st).1 (action st).2 :=
  Iff.rfl

@[simp] theorem ends_effect {action : RunState σ → RunState σ} {Q : Unit → RunState σ → Prop} :
    Ends (effect action) st Q E ↔ Q () (action st) := Iff.rfl

theorem ends_orFail {result : Result α} {call : Status → FailCall}
    (hok : ∀ value, result = .ok value → Q value st)
    (hfail : ∀ status, result = .error status → E (.fail (call status)) st) :
    Ends (orFail result call) st Q E := by
  unfold orFail
  cases result with
  | ok value => exact hok value rfl
  | error status => exact hfail status rfl

theorem ends_orExit {result : Result α} (hok : ∀ value, result = .ok value → Q value st)
    (hexit : ∀ status, result = .error status → E (.status status) st) :
    Ends (orExit result) st Q E := by
  unfold orExit
  cases result with
  | ok value => exact hok value rfl
  | error status => exact hexit status rfl

end GraphRun

end LangGraph
