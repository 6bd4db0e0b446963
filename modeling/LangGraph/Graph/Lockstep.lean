import LangGraph.Graph.Closure
import LangGraph.Graph.StepPlan

/-!
# Two runs in lockstep

A run that nothing disturbs does what the plans of its super-steps say.  Two such runs whose plans
agree from step to step therefore go through related loop states and end alike, whatever they store
and publish on the way.
-/

namespace LangGraph

open EarlyExit ExceptRel

variable {σ τ : Type}

/-! ## 1. Traces only grow -/

/-- `st'` has the events and the saver calls of `st`, and perhaps more. -/
structure Extends (st st' : RunState σ) : Prop where
  log : st.log <+: st'.log
  calls : st.calls <+: st'.calls

namespace Extends

theorem of_eq {st st' : RunState σ} (hlog : st'.log = st.log) (hcalls : st'.calls = st.calls) :
    Extends st st' where
  log := ⟨[], (List.append_nil _).trans hlog.symm⟩
  calls := ⟨[], (List.append_nil _).trans hcalls.symm⟩

theorem trans {a b c : RunState σ} (hab : Extends a b) (hbc : Extends b c) : Extends a c :=
  ⟨hab.log.trans hbc.log, hab.calls.trans hbc.calls⟩

theorem clean {st st' : RunState σ} (h : Extends st st') (hclean : st'.Clean) : st.Clean :=
  ⟨fun entry he => hclean.log entry (h.log.subset he),
    fun call hc => hclean.calls call (h.calls.subset hc)⟩

end Extends

namespace GraphRun

theorem publish_extends (run : GraphRun σ) (event : RuntimeEvent) (st : RunState σ) :
    Extends st (run.publish event st).2 :=
  ⟨List.prefix_append .., List.prefix_rfl⟩

theorem putCheckpoint_extends (run : GraphRun σ) (request : CheckpointRequest) (st : RunState σ) :
    Extends st (run.putCheckpoint request st).2 := by
  have hcall : ∀ {st : RunState σ} {call : SaverCall} {answer : Result Unit} {content : σ},
      Extends st (st.afterCall call answer content) := ⟨List.prefix_rfl, List.prefix_append ..⟩
  have htick : Extends st st.tick := .of_eq rfl rfl
  have hstore : ∀ (saver : CheckpointSaver σ) (c : Checkpoint) (source : CheckpointSource),
      Extends st (storeCheckpoint saver c source st.tick).2 := by
    intro saver c source
    unfold storeCheckpoint
    dsimp only
    split
    · exact htick.trans hcall
    · split_ifs
      · exact htick.trans hcall
      · exact (htick.trans hcall).trans hcall
  have hannounce : ∀ {c : Checkpoint} {st : RunState σ},
      Extends st (run.announceCheckpoint request c st).2 := fun {c st} =>
    have hparent : Extends st { st with parentCheckpointId := some c.checkpointId } := .of_eq rfl rfl
    hparent.trans (run.publish_extends _ _)
  unfold putCheckpoint storeInSaver
  dsimp only
  split_ifs
  · cases run.options.checkpointer with
    | none =>
      dsimp only; exact htick.trans hannounce
    | some =>
      split
      · exact hstore ..
      · exact (hstore ..).trans hannounce
  · exact .of_eq rfl rfl

theorem extends_closed (run : GraphRun σ) : StepClosed run (fun _ => True) Extends where
  refl _ := .of_eq rfl rfl
  trans := .trans
  publish := run.publish_extends
  compute hinternal := .of_eq hinternal.log hinternal.calls
  put request st _ := run.putCheckpoint_extends request st

/-! ## 2. Lockstep -/

def advance (run : GraphRun σ) : Nat → LoopState → RunM σ LoopState
  | 0, loop => pure loop
  | n + 1, loop =>
    if isTerminalNextTasks loop.nextTasks then pure loop
    else do
      let next ← run.superStep loop
      run.advance n next

/-- What is left when the loop has stopped or the fuel is used up. -/
def conclude (run : GraphRun σ) (loop : LoopState) : RunM σ (Option RunResult) :=
  if isTerminalNextTasks loop.nextTasks then do
    let result ← run.finish
    return some result
  else return none

theorem conclude_extends (run : GraphRun σ) (loop : LoopState) : Keeps Extends (run.conclude loop) := by
  have closed := (run.extends_closed).events
  unfold conclude finish
  split_ifs
  · refine closed.bind (closed.get fun st => ?_) fun result => closed.pure _
    split_ifs
    · exact closed.bind (walks_effect (closed.setStatus _)) fun _ => closed.bind closed.orFail fun _ =>
        closed.bind (walks_act (closed.emit fun _ => trivial)) fun _ => closed.bind closed.orFail
          fun _ => closed.get fun st => closed.pure _
    · exact closed.get fun st => closed.pure _
  · exact closed.pure _

theorem continueLoop_eq (run : GraphRun σ) (fuel : Nat) (loop : LoopState) (st : RunState σ) :
    run.continueLoop fuel loop st = (run.advance fuel loop >>= run.conclude) st := by
  induction fuel generalizing loop st with
  | zero =>
    unfold continueLoop advance conclude runLoop
    split_ifs with hterminal
    · simp only [pure_bind, hterminal]
    · simp only [pure_bind, hterminal]
  | succ fuel ih =>
    by_cases hterminal : isTerminalNextTasks loop.nextTasks = true
    · unfold continueLoop advance conclude runLoop
      rw [if_pos hterminal, if_pos hterminal]
      simp only [pure_bind, hterminal, if_true]
    · have hrun := Bool.eq_false_iff.mpr hterminal
      rw [continueLoop_step hrun, advance, if_neg hterminal, bind_assoc]
      cases hstep : run.superStep loop st with
      | error => rw [bind_of_error hstep, bind_of_error hstep]
      | ok next st' =>
        rw [bind_of_ok hstep, bind_of_ok hstep]; exact ih next st'

/-- The plans of two runs agree in related loop states, and lead to related ones. -/
structure Lockstep (run : GraphRun σ) (run' : GraphRun τ) (E : Ending → Ending → Prop)
    (R : LoopState → RunState σ → LoopState → RunState τ → Prop) : Prop where
  terminal : ∀ {loop st loop' st'}, R loop st loop' st' →
    isTerminalNextTasks loop'.nextTasks = isTerminalNextTasks loop.nextTasks
  plan : ∀ {loop st loop' st'}, R loop st loop' st' → isTerminalNextTasks loop.nextTasks = false →
    Agree E (fun planned planned' => ∀ next st₁ next' st₁',
        Follow (stepContext loop st.result) st planned next st₁ →
        Follow (stepContext loop' st'.result) st' planned' next' st₁' → R next st₁ next' st₁')
      (run.planStep loop st) (run'.planStep loop' st')

/-- Runs in lockstep that nothing disturbs are in related states after any number of super-steps,
    or have ended alike. -/
theorem Lockstep.advance {run : GraphRun σ} {run' : GraphRun τ} {E : Ending → Ending → Prop}
    {R : LoopState → RunState σ → LoopState → RunState τ → Prop} (lock : Lockstep run run' E R)
    (n : Nat) {loop : LoopState} {st : RunState σ} {loop' : LoopState} {st' : RunState τ}
    (h : R loop st loop' st')
    (hclean : Ends (run.advance n loop) st (fun _ t => t.Clean) fun _ t => t.Clean)
    (hclean' : Ends (run'.advance n loop') st' (fun _ t => t.Clean) fun _ t => t.Clean) :
    Alike Exit.ending Exit.ending E R (run.advance n loop st) (run'.advance n loop' st') := by
  induction n generalizing loop st loop' st' with
  | zero => exact .ok h
  | succ n ih =>
    have hterminal := lock.terminal h
    unfold GraphRun.advance at hclean hclean' ⊢
    by_cases hstop : isTerminalNextTasks loop.nextTasks = true
    · rw [if_pos hstop, if_pos (hterminal.trans hstop)]; exact .ok h
    · have hstop' : ¬ isTerminalNextTasks loop'.nextTasks = true := by rwa [hterminal]
      rw [if_neg hstop] at hclean ⊢
      rw [if_neg hstop'] at hclean' ⊢
      rw [ends_bind] at hclean hclean'
      refine Alike.bind (R := R) ((superStep_does run loop st).alike (superStep_does run' loop' st')
        (lock.plan h (Bool.eq_false_iff.mpr hstop))
        (fun next st₁ planned next' st₁' planned' hR hfollow hfollow' =>
          hR next st₁ next' st₁' hfollow hfollow')
        (hclean.mono (fun _ _ _ => trivial) fun _ _ h => h)
        (hclean'.mono (fun _ _ _ => trivial) fun _ _ h => h)) ?_
      intro next st₁ next' st₁' hstep hstep' h₁
      exact ih h₁ (hclean.ok hstep) (hclean'.ok hstep')

/-! ## 3. Outcomes -/

/-- What the caller sees of a run: its status and state, or the error. -/
def outcome (answer : Option (Result RunResult)) : Option (Result (RunStatus × State)) :=
  answer.map fun result => result.map fun result => (result.status, result.state)

def Ending.outcome : Ending → Result (RunStatus × State)
  | .returned status state => .ok (status, state)
  | .failed call state =>
    (withRunErrorMetadata state call.status call.node call.failedStep
      (runStatusFromStatus call.status)).map fun failed => (runStatusFromStatus call.status, failed)

section Outcome

variable {run : GraphRun σ} {world : World σ} {fuel : Nat} {st : RunState σ}

theorem failRun_outcome {call : FailCall} (hclean : (run.failRun call st).2.Clean) :
    outcome (some (run.failRun call st).1) = some (Ending.failed call st.result.state).outcome := by
  unfold failRun at hclean ⊢
  unfold Ending.outcome
  dsimp only at hclean ⊢
  cases hfailed : withRunErrorMetadata st.result.state call.status call.node call.failedStep
      (runStatusFromStatus call.status) with
  | error status => rfl
  | ok failed =>
    rw [hfailed] at hclean
    dsimp only at hclean ⊢
    have hsame := run.putCheckpoint_sameRun
      ((setStatus (runStatusFromStatus call.status) st).withState failed) call.request
    have hanswer : (run.putCheckpoint call.request
        ((setStatus (runStatusFromStatus call.status) st).withState failed)).2.Clean → _ :=
      putCheckpoint_answer_of_clean
    simp only [setStatus] at hsame hanswer
    generalize run.putCheckpoint call.request _ = stored at hsame hanswer hclean ⊢
    obtain ⟨answer, stored⟩ := stored
    cases answer with
    | error => cases hanswer hclean
    | ok =>
      have hstatus : stored.core.status = _ := congrArg RunResult.status hsame.core
      have hstate : stored.core.state = _ := congrArg RunResult.state hsame.core
      show some (Except.ok (stored.core.status, stored.core.state)) = _
      rw [hstatus, hstate]; rfl

theorem run_outcome_of_error {exit : Exit} {ending : Ending}
    (hbody : run.body fuel (run.initialState world) = .error exit st)
    (hending : exit.ending st = some ending) (hclean : (run.run fuel world).2.Clean) :
    outcome (run.run fuel world).1 = some ending.outcome := by
  unfold GraphRun.run at hclean ⊢
  rw [hbody] at hclean ⊢
  cases exit with
  | fail =>
    cases hending; exact failRun_outcome hclean
  | done =>
    cases hending; rfl
  | status => cases hending

theorem body_clean (hclean : (run.run fuel world).2.Clean) :
    Ends (run.body fuel) (run.initialState world) (fun _ t => t.Clean) fun _ t => t.Clean := by
  unfold GraphRun.run at hclean
  refine ends_self.mono (fun result t hbody => ?_) fun exit t hbody => ?_
  · rw [hbody] at hclean; exact hclean
  · rw [hbody] at hclean
    cases exit with
    | fail call =>
      exact ((run.extends_closed).events.failRun call t trivial).clean hclean
    | done | status => exact hclean

end Outcome

end GraphRun

end LangGraph
