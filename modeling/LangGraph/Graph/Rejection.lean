import LangGraph.Graph.Head
import LangGraph.Graph.Lockstep
import LangGraph.Graph.Pause
import LangGraph.Graph.Setting

/-!
# Resume commands that are rejected

A run that continues a paused thread looks at its command after `RunStarted`.  The values are
matched with the interrupts first; then the interrupt entry is taken out of the state, the update
of the command is merged and the result is checked against the state schema.  A command that fails
stores a failure checkpoint with the state as it is by then, and that checkpoint becomes the newest
of the thread.
-/

namespace LangGraph

open EarlyExit ExceptRel InMemorySaver OrderedMap Bool

variable {σ : Type}

namespace GraphRun

/-! ## 1. The start of a continued run -/

/-- What the command makes of the state, or how it fails. -/
def planCommand (run : GraphRun σ) (tasks : List CheckpointTask) (state : State) :
    Except Ending (State × List (Nat × Json)) :=
  let failure := run.startFailure .command tasks run.step
  match run.options.command with
  | none => .ok (state, [])
  | some command =>
    match command.resume with
    | none => .error (.failed (failure [] (.invalidArgument (lit "unsupported command"))) state)
    | some value =>
      match resumeValues value tasks state with
      | .error (node, status) => .error (.failed (failure node status) state)
      | .ok values => do
        let unmarked ← orFailed (withoutInterruptMetadata state) (failure []) state
        -- From here on the state has lost its interrupt entry.
        let resumed ← orFailed (applyStateUpdate unmarked command.update run.options.reducers)
          (failure []) unmarked
        return (resumed, values)

/-- What a continued run begins its loop with, or how its start fails. -/
def planStart (run : GraphRun σ) : Except Ending (LoopState × State × List (Nat × Json)) := do
  let tasks := normalizeNextTasks run.nextTasks
  let cleaned ← orFailed (withoutRunErrorMetadata run.state)
    (run.startFailure .cleaned tasks run.step []) run.state
  let answered ← run.planCommand tasks cleaned
  orFailed (validateStateSchema answered.1 run.graph.schemas.stateSchema "state")
    (run.startFailure .stateSchema tasks run.step []) answered.1
  return ({ nextTasks := tasks, pendingWrites := run.pendingWrites, budgetSteps := 0 }, answered)

theorem start_refused {run : GraphRun σ} {status : Status}
    (h : validateRunOptionsConfig run.options = .error status) (st : RunState σ) :
    run.start st = .error (.status status) st := by
  unfold start
  rw [h]; rfl

theorem planStart_of_cleaned {run : GraphRun σ} {cleaned : State}
    (h : withoutRunErrorMetadata run.state = .ok cleaned) :
    run.planStart = (run.planCommand (normalizeNextTasks run.nextTasks) cleaned >>= fun answered =>
      orFailed (validateStateSchema answered.1 run.graph.schemas.stateSchema "state")
        (run.startFailure .stateSchema (normalizeNextTasks run.nextTasks) run.step []) answered.1 >>=
          fun _ => pure (⟨normalizeNextTasks run.nextTasks, run.pendingWrites, 0⟩, answered)) := by
  unfold planStart
  rw [h]; rfl

/-- A continued run that has been announced and has the given state; nothing is stored yet. -/
structure Begun (run : GraphRun σ) (world : World σ) (state : State) (st : RunState σ) : Prop where
  core : st.core = { (run.identified world).core with state := state }
  world : st.world = (run.identified world).world
  calls : st.calls = []
  clean : st.Clean

section Start

variable {run : GraphRun σ} {world : World σ} {current : State} {st : RunState σ}

section

variable (h : Begun run world current st)

include h

theorem Begun.state : st.result.state = current :=
  (congrArg RunResult.state h.core :)

theorem Begun.step : st.result.step = run.step :=
  (congrArg RunResult.step h.core :)

theorem Begun.withState (state' : State) :
    Begun run world state' (st.withState state') where
  __ := h
  core := by
    have hcore := congrArg (fun core : RunResult => { core with state := state' }) h.core
    exact hcore
  clean := ⟨h.clean.log, h.clean.calls⟩

theorem Begun.withValues (values : List (Nat × Json)) :
    Begun run world current { st with resumeValuesByTask := values } :=
  ⟨h.core, h.world, h.calls, h.clean.log, h.clean.calls⟩

end

def StartsAs (run : GraphRun σ) (world : World σ) (loop : LoopState) (st : RunState σ) : Prop :=
  run.planStart = .ok (loop, st.result.state, st.resumeValuesByTask) ∧
    Begun run world st.result.state st

def StartFailsAs {α : Type} (run : GraphRun σ) (world : World σ) (plan : Except Ending α) (exit : Exit)
    (st : RunState σ) : Prop :=
  ∃ call, exit = .fail call ∧ plan = .error (.failed call st.result.state) ∧
    Begun run world st.result.state st

theorem Begun.orFail {α β : Type} {result : Result α} {call : Status → FailCall}
    {rest : α → Except Ending β} {Q : α → RunState σ → Prop} (h : Begun run world current st)
    (hok : ∀ value, result = .ok value → Q value st) :
    Ends (orFail result call) st Q (StartFailsAs run world (orFailed result call current >>= rest)) := by
  refine ends_orFail _ hok fun status herror => ⟨_, rfl, ?_, ?_⟩
  · rw [herror, h.state]; rfl
  · rw [h.state]; exact h

theorem applyGivenCommand_plan (tasks : List CheckpointTask) (h : Begun run world current st)
    (hvalues : st.resumeValuesByTask = []) :
    Ends (run.applyGivenCommand tasks) st
      (fun _ st' => run.planCommand tasks current = .ok (st'.result.state, st'.resumeValuesByTask) ∧
        Begun run world st'.result.state st')
      (StartFailsAs run world (run.planCommand tasks current)) := by
  have hself : ∀ {state' : State} {st' : RunState σ}, Begun run world state' st' →
      Begun run world st'.result.state st' := fun h' => by rwa [h'.state]
  have hfails : ∀ {node : Bytes} {status : Status} {plan : Except Ending (State × List (Nat × Json))},
      plan = .error (.failed (run.startFailure .command tasks run.step node status) current) →
      StartFailsAs run world plan (.fail (run.startFailure .command tasks st.result.step node status)) st :=
    fun hplan => ⟨_, rfl, by rw [h.state, h.step]; exact hplan, hself h⟩
  unfold applyGivenCommand planCommand
  cases run.options.command with
  | none =>
    refine ⟨?_, hself h⟩
    rw [h.state, hvalues]
  | some command =>
    unfold applyCommand
    dsimp only
    rw [ends_bind, ends_get, h.state]
    cases command.resume with
    | none => exact hfails rfl
    | some value =>
      dsimp only
      cases resumeValues value tasks current with
      | error failure =>
        obtain ⟨node, status⟩ := failure
        exact hfails rfl
      | ok values =>
        dsimp only
        rw [ends_bind, ends_effect, h.step]
        have hmarked := h.withValues values
        refine Ends.bind (P := fun unmarked st' => withoutInterruptMetadata current = .ok unmarked ∧
            Begun run world current st' ∧ st'.resumeValuesByTask = values) ?_ fun unmarked st₁ h₁ => ?_
        · exact hmarked.orFail fun unmarked hunmarked => ⟨hunmarked, hmarked, rfl⟩
        obtain ⟨hunmarked, h₁, rfl⟩ := h₁
        rw [hunmarked, ends_bind, ends_effect, ends_bind]
        refine (h₁.withState unmarked).orFail fun resumed hresumed => ⟨?_, h₁.withState resumed⟩
        show (orFailed (applyStateUpdate unmarked command.update run.options.reducers) _ unmarked
          >>= _) = _
        rw [hresumed]; rfl

def continuedRest (run : GraphRun σ) : RunM σ LoopState := do
  run.cleanRunError (normalizeNextTasks run.nextTasks)
  run.applyGivenCommand (normalizeNextTasks run.nextTasks)
  let st ← get
  orFail (validateStateSchema st.result.state run.graph.schemas.stateSchema "state")
    (run.startFailure .stateSchema (normalizeNextTasks run.nextTasks) st.result.step [])
  return {
    nextTasks := normalizeNextTasks run.nextTasks, pendingWrites := run.pendingWrites
    budgetSteps := 0 }

theorem continued_rest_plan (hold : run.writeInitialCheckpoint = false)
    (h : Begun run world run.state st) (hvalues : st.resumeValuesByTask = []) :
    Ends run.continuedRest st (StartsAs run world) (StartFailsAs run world run.planStart) := by
  unfold continuedRest cleanRunError StartsAs
  rw [if_pos hold, bind_assoc, ends_bind, ends_get, bind_assoc, h.state, h.step]
  refine Ends.bind (P := fun cleaned st' => withoutRunErrorMetadata run.state = .ok cleaned ∧ st' = st)
    (h.orFail fun cleaned hcleaned => ⟨hcleaned, rfl⟩) fun cleaned st₁ h₁ => ?_
  obtain ⟨hcleaned, rfl⟩ := h₁
  rw [planStart_of_cleaned hcleaned, ends_bind, ends_effect]
  have hcommand := applyGivenCommand_plan (normalizeNextTasks run.nextTasks) (h.withState cleaned)
    hvalues
  refine Ends.bind (hcommand.mono (fun _ _ h => h) fun exit st' hfails => ?_) fun _ st₂ h₂ => ?_
  · obtain ⟨call, rfl, hplan, hbegun⟩ := hfails
    refine ⟨call, rfl, ?_, hbegun⟩
    rw [hplan]; rfl
  · obtain ⟨hplan, hbegun⟩ := h₂
    rw [hplan, ends_bind, ends_get, ends_bind, hbegun.step]
    refine hbegun.orFail fun _ hschema => ⟨?_, hbegun⟩
    show (orFailed (validateStateSchema st₂.result.state _ "state") _ _ >>= _) = _
    rw [hschema]; rfl

section

variable (hold : run.writeInitialCheckpoint = false)
  (hconfig : validateRunOptionsConfig run.options = .ok ())

include hold hconfig

theorem continued_start_eq :
    run.start (run.initialState world) =
      (orFail (run.announce world).1 (run.startFailure .runStarted
        (normalizeNextTasks run.nextTasks) run.step []) >>= fun _ => run.continuedRest)
        (run.announce world).2 := by
  have hinput : run.checkInput (run.identified world).result.state = .ok () := by
    rw [checkInput, hold]; rfl
  have hfirst : run.firstTasks (run.identified world) = .ok (normalizeNextTasks run.nextTasks) := by
    rw [firstTasks, hold]; rfl
  have hstore : run.storeInitial (normalizeNextTasks run.nextTasks) = pure () := by
    rw [storeInitial, hold]; rfl
  unfold start
  rw [hconfig]
  change (orExit (run.checkInput (run.identified world).result.state) >>= fun _ =>
    orExit (run.firstTasks (run.identified world)) >>= fun nextTasks =>
      act (run.emit .runStarted run.step [] (.obj []) []) >>= fun emitted =>
        orFail emitted (run.startFailure .runStarted nextTasks run.step []) >>= fun _ =>
          run.enterRun nextTasks : RunM σ LoopState) (run.identified world) = _
  rw [hinput, hfirst]
  dsimp only [orExit]
  rw [pure_bind, pure_bind, enterRun, hstore]; rfl

theorem announced_start_plan (hanswer : (run.announce world).1 = .ok ()) :
    Ends run.start (run.initialState world) (StartsAs run world)
      (StartFailsAs run world run.planStart) := by
  have hquiet := run.emit_quiet (run.identified world) .runStarted run.step [] (.obj []) []
  have hbegun : Begun run world run.state (run.announce world).2 := by
    refine ⟨hquiet.core, hquiet.world, hquiet.calls, fun entry he => ?_, fun call hc => ?_⟩
    · rw [List.mem_singleton.mp he]; exact hanswer
    · cases hc
  unfold Ends
  rw [continued_start_eq hold hconfig, hanswer]
  exact continued_rest_plan hold hbegun rfl

theorem continued_start_plan :
    Ends run.start (run.initialState world) (StartsAs run world) fun exit st =>
      (∃ call, exit = .fail call ∧ call.site = .runStarted ∧ ¬ st.Clean) ∨
        StartFailsAs run world run.planStart exit st := by
  cases hanswer : (run.announce world).1 with
  | ok => exact (announced_start_plan hold hconfig hanswer).mono (fun _ _ h => h) fun _ _ => .inr
  | error =>
    unfold Ends
    rw [continued_start_eq hold hconfig, hanswer]
    refine .inl ⟨_, rfl, rfl, fun hclean => ?_⟩
    have hok : (run.announce world).1 = .ok () := publish_answer_of_clean hclean
    cases hok.symm.trans hanswer

theorem continued_start_does :
    Does run.start (run.initialState world) run.planStart fun loop st planned =>
      planned = (loop, st.result.state, st.resumeValuesByTask) ∧
        Begun run world st.result.state st := by
  refine (continued_start_plan hold hconfig).mono (fun loop st h => ⟨_, h.1, rfl, h.2⟩)
    fun exit st h hclean => ?_
  rcases h with ⟨_, -, -, hrefused⟩ | ⟨call, rfl, hplan, -⟩
  · exact absurd hclean hrefused
  · exact ⟨_, rfl, hplan⟩

end

end Start

/-! ## 2. Runs that begin with the same cleaned state -/

/-- The run with another state to begin with and another parent checkpoint. -/
def begunFrom (run : GraphRun σ) (state : State) (parent : Option Bytes) : GraphRun σ :=
  run.inSetting { run.setting with state := state, parentCheckpointId := parent }

/-- Two runs compute the same; what they have stored and published may differ. -/
structure Twin (loop : LoopState) (st : RunState σ) (loop' : LoopState) (st' : RunState σ) :
    Prop where
  loop : loop' = loop
  core : st'.core = st.core
  resumeValues : st'.resumeValuesByTask = st.resumeValuesByTask
  completed : st.result.status = .completed

section Twin

variable {run : GraphRun σ} {world world' : World σ} {state cleaned : State}
  {parent : Option Bytes} {fuel : Nat}

theorem body_begunFrom (fuel : Nat) : (run.begunFrom state parent).body fuel = run.body fuel := by
  refine run.body_inSetting _ ?_ fuel
  unfold dispatchExecutions
  rw [executeTask_inSetting]; rfl

theorem planStep_of_core {loop : LoopState} {st st' : RunState σ} (hcore : st'.core = st.core)
    (hvalues : st'.resumeValuesByTask = st.resumeValuesByTask) :
    run.planStep loop st' = run.planStep loop st := by
  have hctx : stepContext loop st'.core = stepContext loop st.core := by rw [hcore]
  have hclassified : ∀ ctx, run.stepClassified ctx st' = run.stepClassified ctx st := fun ctx => by
    unfold stepClassified stepExecutions
    rw [hcore, hvalues]
  unfold planStep
  simp only [show stepContext loop st'.result = stepContext loop st.result from hctx, hclassified,
    hcore]

theorem twin_lockstep (run : GraphRun σ) : Lockstep run run Eq Twin where
  terminal h := by rw [h.loop]
  plan {loop st loop' st'} h _ := by
    obtain ⟨rfl, hcore, hvalues, hcompleted⟩ := h
    rw [planStep_of_core hcore hvalues]
    cases run.planStep loop' st with
    | error => exact .error rfl
    | ok =>
      refine .ok fun next st₁ next' st₁' hfollow hfollow' => ?_
      have hstep : st'.result.step = st.result.step :=
        (congrArg RunResult.step hcore :)
      refine ⟨hfollow'.loop.trans hfollow.loop.symm, ?_,
        hfollow'.resumeValues.trans hfollow.resumeValues.symm, ?_⟩
      · rw [hfollow'.core, hfollow.core, hcore]
        dsimp only [stepContext]
        rw [hstep]
      · show st₁.core.status = _
        rw [hfollow.core]
        dsimp only
        rw [show st.core.status = .completed from hcompleted, ite_self]

theorem planStart_begunFrom (hcleaned : withoutRunErrorMetadata run.state = .ok cleaned)
    (hsame : withoutRunErrorMetadata state = .ok cleaned) :
    (run.begunFrom state parent).planStart = run.planStart := by
  have hsame' : withoutRunErrorMetadata (run.begunFrom state parent).state = .ok cleaned := hsame
  rw [planStart_of_cleaned hcleaned, planStart_of_cleaned hsame']; rfl

theorem identified_begunFrom (hrunId : run.options.runId ≠ []) (hthread : run.options.threadId ≠ [])
    (current : State) :
    { ((run.begunFrom state parent).identified world').core with state := current }
      = { (run.identified world).core with state := current } := by
  have hrunId' : (run.begunFrom state parent).options.runId ≠ [] := hrunId
  have hthread' : (run.begunFrom state parent).options.threadId ≠ [] := hthread
  simp only [RunState.core, identified, assignIds, if_neg hrunId, if_neg hthread, if_neg hrunId',
    if_neg hthread']
  rfl

theorem conclude_twin {loop loop' : LoopState} {st st' : RunState σ} (h : Twin loop st loop' st') :
    Alike Exit.ending Exit.ending Eq (fun result _ result' _ =>
        outcome (result'.map .ok) = outcome (result.map .ok))
      (run.conclude loop st) (run.conclude loop' st') := by
  obtain ⟨rfl, hcore, -, hcompleted⟩ := h
  have hcompleted' : st'.result.status = .completed :=
    (congrArg RunResult.status hcore :).trans hcompleted
  unfold conclude
  split_ifs
  · rw [bind_of_ok (finish_of_completed hcompleted), bind_of_ok (finish_of_completed hcompleted')]
    refine .ok ?_
    show some (Except.ok (st'.core.status, st'.core.state)) = some (.ok (st.core.status, st.core.state))
    rw [hcore]
  · exact .ok rfl

section

variable (hold : run.writeInitialCheckpoint = false)
  (hcleaned : withoutRunErrorMetadata run.state = .ok cleaned)
  (hsame : withoutRunErrorMetadata state = .ok cleaned)
  (hrunId : run.options.runId ≠ []) (hthread : run.options.threadId ≠ [])

include hold hcleaned hsame hrunId hthread

theorem start_twin (hconfig : validateRunOptionsConfig run.options = .ok ())
    (hclean : Ends run.start (run.initialState world) (fun _ _ => True) fun _ t => t.Clean)
    (hclean' : Ends run.start ((run.begunFrom state parent).initialState world')
      (fun _ _ => True) fun _ t => t.Clean) :
    Alike Exit.ending Exit.ending Eq Twin (run.start (run.initialState world))
      (run.start ((run.begunFrom state parent).initialState world')) := by
  have hdoes : Does run.start (run.initialState world) run.planStart _ :=
    continued_start_does hold hconfig
  have hdoes' : Does run.start ((run.begunFrom state parent).initialState world')
      (run.begunFrom state parent).planStart _ :=
    continued_start_does (show (run.begunFrom state parent).writeInitialCheckpoint = false from hold)
      hconfig
  rw [planStart_begunFrom hcleaned hsame] at hdoes'
  refine hdoes.alike hdoes' (agree_refl _) ?_ hclean hclean'
  rintro loop st planned loop' st' planned' heq ⟨rfl, hbegun⟩ ⟨rfl, hbegun'⟩
  obtain ⟨hloop, hpair⟩ := Prod.mk.inj heq
  obtain ⟨hstate, hvalues⟩ := Prod.mk.inj hpair
  refine ⟨hloop.symm, ?_, hvalues.symm, ?_⟩
  · rw [hbegun'.core, hbegun.core, ← hstate]
    exact identified_begunFrom hrunId hthread _
  · exact (congrArg RunResult.status hbegun.core :)

theorem body_twin (hconfig : validateRunOptionsConfig run.options = .ok ())
    (hclean : Ends (run.body fuel) (run.initialState world) (fun _ t => t.Clean) fun _ t => t.Clean)
    (hclean' : Ends (run.body fuel) ((run.begunFrom state parent).initialState world')
      (fun _ t => t.Clean) fun _ t => t.Clean) :
    Alike Exit.ending Exit.ending Eq (fun result _ result' _ =>
        outcome (result'.map .ok) = outcome (result.map .ok))
      (run.body fuel (run.initialState world))
      (run.body fuel ((run.begunFrom state parent).initialState world')) := by
  have hsplit : run.body fuel = run.start >>= fun loop => run.continueLoop fuel loop := rfl
  -- A state in which the loop ends is clean if the run is clean at its end.
  have hadvance : ∀ {loop st}, Ends (run.continueLoop fuel loop) st (fun _ t => t.Clean)
      (fun _ t => t.Clean) →
      Ends (run.advance fuel loop) st (fun _ t => t.Clean) fun _ t => t.Clean := by
    intro loop st h
    rw [Ends, continueLoop_eq] at h
    replace h : Ends (run.advance fuel loop >>= run.conclude) st _ _ := h
    refine (ends_bind.mp h).mono (fun loop' t h' => ?_) fun _ _ h' => h'
    have hextends := run.conclude_extends loop' t
    unfold Ends at h' hextends
    cases hend : run.conclude loop' t <;> rw [hend] at h' hextends <;> exact hextends.clean h'
  rw [hsplit] at hclean hclean' ⊢
  rw [ends_bind] at hclean hclean'
  refine Alike.bind (start_twin hold hcleaned hsame hrunId hthread hconfig
    (hclean.mono (fun _ _ _ => trivial) fun _ _ h => h)
    (hclean'.mono (fun _ _ _ => trivial) fun _ _ h => h)) fun loop st loop' st' hs hs' htwin => ?_
  rw [continueLoop_eq, continueLoop_eq]
  exact Alike.bind ((twin_lockstep run).advance fuel htwin (hadvance (hclean.ok hs))
    (hadvance (hclean'.ok hs'))) fun _ _ _ _ _ _ h => conclude_twin h

/-- Two runs that begin with the same cleaned state have the same outcome, whatever they find in
    the saver, if no event is refused and no checkpoint either. -/
theorem begunFrom_outcome (hclean : (run.run fuel world).2.Clean)
    (hclean' : ((run.begunFrom state parent).run fuel world').2.Clean) :
    outcome ((run.begunFrom state parent).run fuel world').1 = outcome (run.run fuel world).1 := by
  have hbody := body_clean hclean
  have hbody' := body_clean hclean'
  rw [body_begunFrom] at hbody'
  cases hconfig : validateRunOptionsConfig run.options with
  | error status =>
    have hrefused : ∀ st, run.body fuel st = .error (.status status) st := fun st =>
      bind_of_error (start_refused hconfig st)
    rw [GraphRun.run, GraphRun.run, body_begunFrom, hrefused, hrefused]
  | ok =>
    have halike := body_twin hold hcleaned hsame hrunId hthread hconfig hbody hbody'
    generalize hr : run.body fuel (run.initialState world) = r at halike
    generalize hr' : run.body fuel ((run.begunFrom state parent).initialState world') = r' at halike
    cases halike with
    | ok h =>
      rw [GraphRun.run, GraphRun.run, body_begunFrom, hr, hr']; exact h
    | error hending hending' h =>
      rw [← body_begunFrom] at hr'
      rw [run_outcome_of_error hr hending hclean, run_outcome_of_error hr' hending' hclean', h]

end

end Twin

/-! ## 3. How a start is rejected -/

/-- The values of the command do not fit the interrupts of the checkpoint. -/
def ValuesRejected (options : RunOptions σ) (c : Checkpoint) : Prop :=
  ∃ command value cleaned failure, options.command = some command ∧ command.resume = some value ∧
    withoutRunErrorMetadata c.state = .ok cleaned ∧
    resumeValues value c.nextTasks cleaned = .error failure

/-- The update of the command does not write the interrupt entry itself. -/
def UpdateSparesEntry (options : RunOptions σ) : Prop :=
  ∀ command, options.command = some command →
    OrderedMap.find kInterruptStateKey command.update.values = none

theorem find_withoutInterruptMetadata {state unmarked : State}
    (h : withoutInterruptMetadata state = .ok unmarked) :
    find kInterruptStateKey unmarked.view = none := by
  rw [State.view_of_fromJsonValue h, find_erase_self]

theorem find_withoutRunErrorMetadata {state cleaned : State}
    (h : withoutRunErrorMetadata state = .ok cleaned) :
    find kInterruptStateKey cleaned.view = find kInterruptStateKey state.view ∧
      find kRunErrorStateKey cleaned.view = none := by
  rw [State.view_of_fromJsonValue h]
  exact ⟨find_erase_ne (by decide) _, find_erase_self ..⟩

theorem find_failedState {call : FailCall} {st : RunState σ} {failed : State}
    (h : failedState call st = .ok failed) :
    find kInterruptStateKey failed.view = find kInterruptStateKey st.result.state.view := by
  rw [State.view_of_fromJsonValue h]; exact find_set_ne (by decide) _ _

section Rejected

variable {run : GraphRun σ} {call : FailCall} {state : State}

/-- A start rejected for its command or its state: because of the values, with the cleaned state,
    or later, with a state that has lost its interrupt entry. -/
theorem planStart_rejected {command : Command} {value : Json}
    (hcommand : run.options.command = some command) (hresume : command.resume = some value)
    (h : run.planStart = .error (.failed call state))
    (hsite : call.site = .command ∨ call.site = .stateSchema) :
    ∃ cleaned, withoutRunErrorMetadata run.state = .ok cleaned ∧ (∃ site node status, call
        = run.startFailure site (normalizeNextTasks run.nextTasks) run.step node status) ∧
      ((state = cleaned ∧
          ∃ failure, resumeValues value (normalizeNextTasks run.nextTasks) cleaned = .error failure) ∨
        ((∃ values, resumeValues value (normalizeNextTasks run.nextTasks) cleaned = .ok values) ∧
          (find kInterruptStateKey command.update.values = none →
            find kInterruptStateKey state.view = none))) := by
  obtain ⟨cleaned, hcleaned⟩ : ∃ cleaned, withoutRunErrorMetadata run.state = .ok cleaned :=
    run.state.fromJsonValue_erase kRunErrorStateKey
  refine ⟨cleaned, hcleaned, ?_⟩
  rw [planStart_of_cleaned hcleaned, planCommand, hcommand] at h
  dsimp only at h
  rw [hresume] at h
  dsimp only at h
  cases hvalues : resumeValues value (normalizeNextTasks run.nextTasks) cleaned with
  | error failure =>
    obtain ⟨node, status⟩ := failure
    rw [hvalues] at h
    cases h; exact ⟨⟨_, _, _, rfl⟩, .inl ⟨rfl, _, rfl⟩⟩
  | ok =>
    obtain ⟨unmarked, hunmarked⟩ : ∃ unmarked, withoutInterruptMetadata cleaned = .ok unmarked :=
      cleaned.fromJsonValue_erase kInterruptStateKey
    -- from here on the state has no interrupt entry but one the update brings
    have hlost := find_withoutInterruptMetadata hunmarked
    rw [hvalues] at h
    dsimp only at h
    rw [hunmarked] at h
    simp only [orFailed_ok, ExceptList.ok_bind] at h
    cases hupdate : applyStateUpdate unmarked command.update run.options.reducers with
    | error =>
      rw [hupdate] at h
      cases h; exact ⟨⟨_, _, _, rfl⟩, .inr ⟨⟨_, rfl⟩, fun _ => hlost⟩⟩
    | ok resumed =>
      rw [hupdate] at h
      simp only [orFailed_ok, ExceptList.ok_bind, pure_bind] at h
      cases hschema : validateStateSchema resumed run.graph.schemas.stateSchema "state" with
      | error =>
        rw [hschema] at h
        cases h
        refine ⟨⟨_, _, _, rfl⟩, .inr ⟨⟨_, rfl⟩, fun hspares => ?_⟩⟩
        exact (find_applyStateUpdate hupdate hspares).trans hlost
      | ok =>
        rw [hschema] at h; cases h

end Rejected

end GraphRun

/-! ## 4. The thread after a rejected resume -/

open GraphRun CompiledStateGraph

/-- The thread waits for answers: its newest checkpoint has an interrupt entry and tasks, annotated
    as a run stores them, and no pending writes. -/
structure PausedThread (world : World InMemoryStore) (threadId ns : Bytes) (c : Checkpoint) :
    Prop where
  latest : getTuple (.latest threadId ns) world.saver = .ok (some ⟨c, c.pendingWrites⟩)
  interrupted : stateHasInterruptMetadata c.state = true
  tasks : c.nextTasks ≠ []
  settled : ∀ task ∈ c.nextTasks, task.Settled ns
  pending : c.pendingWrites = []

/-- A resume does the same in two worlds: it is refused for the same reason, or the two runs have
    the same outcome if nothing disturbs them. -/
def SameFollowUp (host : Host) (graph : StateGraph) (threadId : Bytes)
    (options : RunOptions InMemoryStore) (world world' : World InMemoryStore) : Prop :=
  match resume host graph threadId options world, resume host graph threadId options world' with
  | .ok run, .ok run' => ∀ fuel, (run.run fuel world).2.Clean → (run'.run fuel world').2.Clean →
      outcome (run'.run fuel world').1 = outcome (run.run fuel world).1
  | .error status, .error status' => status' = status
  | _, _ => False

/-- The thread still waits for the same answers, and whatever resume comes next goes as it would
    have gone before. -/
structure KeepsPause (host : Host) (threadId ns : Bytes) (c : Checkpoint)
    (world world' : World InMemoryStore) : Prop where
  checkpoint : ∃ c', getTuple (.latest threadId ns) world'.saver = .ok (some ⟨c', c'.pendingWrites⟩) ∧
    OrderedMap.find kInterruptStateKey c'.state.view
      = OrderedMap.find kInterruptStateKey c.state.view ∧
    nextTasksFromCheckpoint c' = nextTasksFromCheckpoint c
  followUp : ∀ (graph : StateGraph) (options : RunOptions InMemoryStore),
    options.checkpointer = some inMemorySaver → options.checkpointNamespace = ns →
    options.runId ≠ [] → SameFollowUp host graph threadId options world world'

section Resume

variable {host : Host} {graph : StateGraph} {threadId : Bytes} {options : RunOptions InMemoryStore}
  {world world' : World InMemoryStore} {c c' : Checkpoint}

theorem resume_of_latest (hsaver : options.checkpointer = some inMemorySaver)
    (hlatest : getTuple (.latest threadId options.checkpointNamespace) world.saver
      = .ok (some ⟨c, c.pendingWrites⟩)) :
    resume host graph threadId options world = (do
      requireThreadId threadId "resume"
      requireSameThread threadId options "resume"
      checkResumeCommand c options
      return continueFrom host graph ⟨c, c.pendingWrites⟩ (replayStartStep c) threadId options) := by
  have htuple : ∀ message, requireTuple inMemorySaver (.latest threadId options.checkpointNamespace)
      message world.saver = .ok ⟨c, c.pendingWrites⟩ := fun message => by
    have hget : inMemorySaver.getTuple (.latest threadId options.checkpointNamespace) world.saver
      = .ok (some ⟨c, c.pendingWrites⟩) := hlatest
    rw [requireTuple, hget]; rfl
  unfold resume requireRunCheckpointer
  rw [hsaver]
  simp only [ExceptList.ok_bind, htuple]

theorem PausedThread.nextTasks {ns : Bytes} (paused : PausedThread world threadId ns c) :
    nextTasksFromCheckpoint c = c.nextTasks ∧ normalizeNextTasks c.nextTasks = c.nextTasks := by
  refine ⟨?_, appendTasks_nil_of_settled paused.settled⟩
  rw [nextTasksFromCheckpoint, if_pos paused.tasks]

theorem sameFollowUp_of_paused (hsaver : options.checkpointer = some inMemorySaver)
    (hrunId : options.runId ≠ [])
    (paused : PausedThread world threadId options.checkpointNamespace c)
    (paused' : PausedThread world' threadId options.checkpointNamespace c')
    (htasks : c'.nextTasks = c.nextTasks) (hstep : c'.step = c.step)
    (hns : c'.checkpointNamespace = c.checkpointNamespace)
    (hcleaned : withoutRunErrorMetadata c'.state = withoutRunErrorMetadata c.state) :
    SameFollowUp host graph threadId options world world' := by
  obtain ⟨cleaned, hok⟩ : ∃ cleaned, withoutRunErrorMetadata c.state = .ok cleaned :=
    c.state.fromJsonValue_erase kRunErrorStateKey
  have hcheck : checkResumeCommand c' options = checkResumeCommand c options := by
    unfold checkResumeCommand needsCommand
    rw [paused.interrupted, paused'.interrupted, paused.nextTasks.1, paused'.nextTasks.1, htasks]
  have hrun : continueFrom host graph ⟨c', c'.pendingWrites⟩ (replayStartStep c') threadId options
      = (continueFrom host graph ⟨c, c.pendingWrites⟩ (replayStartStep c) threadId options).begunFrom
        c'.state (some c'.checkpointId) := by
    unfold continueFrom replayStartStep
    dsimp only
    rw [paused.pending, paused'.pending, paused.nextTasks.1, paused'.nextTasks.1, htasks, hstep, hns]
    rfl
  unfold SameFollowUp
  rw [resume_of_latest hsaver paused.latest, resume_of_latest hsaver paused'.latest, hcheck]
  unfold requireThreadId
  split_ifs with hthread
  · rfl
  · cases requireSameThread threadId options "resume" with
    | error => rfl
    | ok =>
      cases checkResumeCommand c options with
      | error => rfl
      | ok =>
        intro fuel hclean hclean'
        simp only [hrun] at hclean' ⊢
        exact begunFrom_outcome rfl hok (hcleaned.trans hok) hrunId hthread hclean hclean'

/-- The run continues the checkpoint that the thread waits at. -/
structure ContinuesPause (run : GraphRun InMemoryStore) (host : Host) (threadId ns : Bytes)
    (c : Checkpoint) : Prop where
  host : run.host = host
  saver : run.options.checkpointer = some inMemorySaver
  old : run.writeInitialCheckpoint = false
  state : run.state = c.state
  step : run.step = c.step
  tasks : normalizeNextTasks run.nextTasks = c.nextTasks
  pending : run.pendingWrites = []
  threadId : run.options.threadId = threadId
  checkpointNamespace : run.options.checkpointNamespace = ns

theorem PausedThread.continues (hsaver : options.checkpointer = some inMemorySaver)
    (hvalid : Valid world.saver) (hthread : threadId ≠ [])
    (paused : PausedThread world threadId options.checkpointNamespace c) :
    ContinuesPause (continueFrom host graph ⟨c, c.pendingWrites⟩ (replayStartStep c) threadId options)
      host threadId options.checkpointNamespace c where
  host := rfl
  saver := hsaver
  old := rfl
  state := rfl
  step := by
    show replayStartStep c = c.step; simp [replayStartStep, paused.pending]
  tasks := by
    show normalizeNextTasks (nextTasksFromCheckpoint c) = _
    rw [paused.nextTasks.1, paused.nextTasks.2]
  pending := paused.pending
  threadId := rfl
  checkpointNamespace := by
    have hns := (mem_of_latest hvalid ((getTuple_latest_iff hvalid hthread).mp paused.latest)).2.2
    show (if options.checkpointNamespace = [] then c.checkpointNamespace else _) = _
    split_ifs with hroot
    · rw [hns, hroot]
    · rfl

theorem rejected_head {run : GraphRun InMemoryStore} {call : FailCall} {st : RunState InMemoryStore}
    {ns : Bytes} {fuel : Nat} {result : RunResult}
    (hsound : Sound host world.clockReads world.saver) (hclock : host.Steady world.clockReads)
    (hthread : threadId ≠ []) (paused : PausedThread world threadId ns c)
    (continues : ContinuesPause run host threadId ns c)
    (hreject : run.start (run.initialState world) = .error (.fail call) st)
    (hbegun : Begun run world st.result.state st)
    (hcall : ∃ site node status, call
      = run.startFailure site (normalizeNextTasks run.nextTasks) run.step node status)
    (hreturned : (run.run fuel world).1 = some (.ok result)) :
    ∃ c', failedState call st = .ok c'.state ∧ c'.nextTasks = c.nextTasks ∧
      c'.pendingWrites = [] ∧ c'.step = c.step ∧ c'.checkpointNamespace = ns ∧
      getTuple (.latest threadId ns) (run.run fuel world).2.world.saver
        = .ok (some ⟨c', c'.pendingWrites⟩) := by
  have hbody : run.body fuel (run.initialState world) = .error (.fail call) st := bind_of_error hreject
  have hfinal : run.run fuel world = (some (run.failRun call st).1, (run.failRun call st).2) := by
    rw [GraphRun.run, hbody]
  have hok := hreturned
  rw [hfinal] at hok
  obtain ⟨failed, hfailed, hput⟩ := failRun_ok (Option.some.inj hok)
  have hlast : (run.run fuel world).2.stored.getLast?
      = some (run.checkpointOf call.request (atFailure call st failed)) := by
    rw [hfinal, RunState.stored_eq, failRun_calls_of_ok hfailed, ← RunState.stored_eq,
      putCheckpoint_stored continues.saver (by simp [shouldStore, FailCall.request]) hput,
      List.getLast?_concat]
  have hns : st.result.checkpointNamespace = ns :=
    (congrArg RunResult.checkpointNamespace hbegun.core :).trans continues.checkpointNamespace
  have hid : st.result.threadId = threadId := by
    have hgiven : (run.identified world).core.threadId = run.options.threadId := by
      rw [continues.threadId.symm] at hthread
      simp [RunState.core, identified, assignIds, hthread]
    exact ((congrArg RunResult.threadId hbegun.core :).trans hgiven).trans
      continues.threadId
  obtain ⟨site, node, status, rfl⟩ := hcall
  have hkept : ∀ task ∈ normalizeNextTasks run.nextTasks, task.Settled st.result.checkpointNamespace := by
    rw [hns, continues.tasks]; exact paused.settled
  have hsome : normalizeNextTasks run.nextTasks ≠ [] := by rw [continues.tasks]; exact paused.tasks
  have hnext : (run.checkpointOf _ (atFailure _ st failed)).nextTasks
      = (run.startFailure site (normalizeNextTasks run.nextTasks) run.step node status).failureNext :=
    failure_nextTasks rfl hkept hsome
  obtain ⟨-, -, -, hiff⟩ := run_head continues.saver (continues.host ▸ hclock)
    (continues.host ▸ hsound) hlast
  have hafter := run_sound continues.saver continues.host hsound fuel
  refine ⟨_, hfailed, hnext.trans continues.tasks, continues.pending, continues.step, hns, ?_⟩
  refine (getTuple_latest_iff hafter.valid hthread).mpr ?_
  rw [← hid, ← hns]
  refine hiff.mpr fun d hd hdns => ?_
  -- The newest checkpoint so far has the greatest step, and the run stays at it.
  have hfound := (getTuple_latest_iff hsound.valid hthread).mp paused.latest
  rw [← hid, ← hns] at hfound
  exact (step_le_latest hsound.valid hfound hd hdns).trans continues.step.ge

theorem PausedThread.answered {ns : Bytes} (paused : PausedThread world threadId ns c)
    (hcheck : checkResumeCommand c options = .ok ()) :
    ∃ command value, options.command = some command ∧ command.resume = some value := by
  have hrunnable : isTerminalNextTasks (nextTasksFromCheckpoint c) = false := by
    rw [paused.nextTasks.1]
    obtain ⟨task, htask⟩ := List.exists_mem_of_ne_nil _ paused.tasks
    simp only [isTerminalNextTasks, List.all_eq_false, not_eq_true, not_eq_false']
    exact ⟨task, htask, (paused.settled task htask).runnable⟩
  unfold checkResumeCommand needsCommand at hcheck
  rw [paused.interrupted, hrunnable] at hcheck
  cases hcommand : options.command with
  | none => simp [hcommand] at hcheck
  | some command =>
    cases hresume : command.resume with
    | none => simp [hcommand, hresume] at hcheck
    | some value => exact ⟨command, value, rfl, hresume⟩

theorem PausedThread.keeps (host : Host) {ns : Bytes} {cleaned : State}
    (paused : PausedThread world threadId ns c)
    (hlatest : getTuple (.latest threadId ns) world'.saver = .ok (some ⟨c', c'.pendingWrites⟩))
    (htasks : c'.nextTasks = c.nextTasks) (hpending : c'.pendingWrites = [])
    (hstep : c'.step = c.step) (hns : c'.checkpointNamespace = c.checkpointNamespace)
    (hentry : find kInterruptStateKey c'.state.view = find kInterruptStateKey c.state.view)
    (hcleaned : withoutRunErrorMetadata c.state = .ok cleaned)
    (hcleaned' : withoutRunErrorMetadata c'.state = .ok cleaned) :
    KeepsPause host threadId ns c world world' := by
  have paused' : PausedThread world' threadId ns c' := by
    refine ⟨hlatest, ?_, ?_, ?_, hpending⟩
    · rw [stateHasInterruptMetadata, contains, hentry]
      exact paused.interrupted
    · rw [htasks]; exact paused.tasks
    · rw [htasks]; exact paused.settled
  refine ⟨⟨c', hlatest, hentry, ?_⟩, fun graph options hsaver hsame hrunId => ?_⟩
  · rw [paused.nextTasks.1, paused'.nextTasks.1, htasks]
  · subst hsame
    exact sameFollowUp_of_paused hsaver hrunId paused paused' htasks hstep hns
      (hcleaned'.trans hcleaned.symm)

end Resume

theorem pausedThread_of_pause {run : GraphRun InMemoryStore} {world : World InMemoryStore}
    {loop : LoopState} {st st' : RunState InMemoryStore} {result : RunResult}
    (h : LeavesAt run world loop st (.done result) st') (hpaused : result.status = .paused)
    (hsaver : run.options.checkpointer = some inMemorySaver)
    (hsound : Sound run.host world.clockReads world.saver)
    (hclock : run.host.Steady world.clockReads) :
    ∃ c, st'.stored.getLast? = some c ∧ (NotAhead world.saver c →
      PausedThread st'.world c.threadId c.checkpointNamespace c) := by
  rcases (superStep_ends run loop st).error h.leaves with ⟨hcompleted, -⟩ | ⟨_, merged, routed, paused⟩
  · rw [hpaused] at hcompleted; cases hcompleted
  obtain ⟨c, hlast, hstate, runId, hnext⟩ := paused.checkpoint hsaver
  obtain ⟨st₀, hsame, hcalls⟩ := paused.stored inMemorySaver hsaver
  cases hlast.symm.trans (RunState.getLast?_stored hcalls)
  obtain ⟨used, hbody⟩ := h.body
  have hfinal : run.run (0 + used) world = (some (.ok result), st') := by rw [GraphRun.run, hbody]
  have hlast' := hlast
  rw [show st' = (run.run (0 + used) world).2 by rw [hfinal]] at hlast'
  obtain ⟨hthread, -, -, hiff⟩ := run_head hsaver hclock hsound hlast'
  have hafter := run_sound hsaver rfl hsound (0 + used)
  rw [hfinal] at hiff hafter
  have hsettled := interruptedTasks_settled run loop st
  have hnormal := normal_interrupted_append hsettled (routeAll_normal normal_nil paused.routing)
  refine ⟨_, hlast, fun hahead => ⟨(getTuple_latest_iff hafter.valid hthread).mpr (hiff.mpr hahead),
    ?_, ?_, ?_, rfl⟩⟩
  · rw [stateHasInterruptMetadata, contains, hstate]
    have hmetadata := paused.metadata
    rw [withInterruptMetadata, if_neg (by simpa using paused.interrupted)] at hmetadata
    rw [State.view_of_fromJsonValue hmetadata, find_set_self]; rfl
  · intro hnil
    have hlen := congrArg List.length (hnext.symm.trans hnil)
    rw [length_annotateTasks, List.length_append] at hlen
    have := List.length_pos_iff.mpr paused.interrupted
    simp only [interruptedTasks, List.length_map, List.length_nil] at hlen; omega
  · rw [hnext]
    have hns : st₀.result.checkpointNamespace = st.result.checkpointNamespace :=
      hsame.checkpointNamespace
    intro task htask
    show task.Settled st₀.result.checkpointNamespace
    rw [hns]; exact settled_annotateTasks hnormal.runnable task htask

/-- A resume that is rejected after `RunStarted` and returns: as long as it is rejected for its
    values, the thread stays as it was for every later resume; a command rejected later, whose
    update leaves the interrupt entry alone, takes the entry away. -/
theorem rejected_resume_keeps_pause_iff {host : Host} {graph : StateGraph} {threadId : Bytes}
    {options : RunOptions InMemoryStore} {world : World InMemoryStore} {c : Checkpoint}
    {run : GraphRun InMemoryStore} {call : FailCall} {st : RunState InMemoryStore} {fuel : Nat}
    {result : RunResult} (history : History host world) (hclock : host.Steady world.clockReads)
    (hsaver : options.checkpointer = some inMemorySaver)
    (paused : PausedThread world threadId options.checkpointNamespace c)
    (hresume : resume host graph threadId options world = .ok run)
    (hreject : run.start (run.initialState world) = .error (.fail call) st)
    (hsite : call.site = .command ∨ call.site = .stateSchema)
    (hreturned : (run.run fuel world).1 = some (.ok result)) :
    (ValuesRejected options c →
      KeepsPause host threadId options.checkpointNamespace c world (run.run fuel world).2.world) ∧
    (UpdateSparesEntry options →
      (KeepsPause host threadId options.checkpointNamespace c world (run.run fuel world).2.world ↔
        ValuesRejected options c)) := by
  obtain ⟨saver, tuple, hthread, hgiven, htuple, hcheck, hrun⟩ := resume_ok hresume
  cases hgiven.symm.trans hsaver
  have heq : some tuple = some ⟨c, c.pendingWrites⟩ :=
    Except.ok.inj (htuple.symm.trans paused.latest)
  cases heq
  have hsound := history.sound
  have continues : ContinuesPause run host threadId options.checkpointNamespace c :=
    hrun ▸ paused.continues hsaver hsound.valid hthread
  have hoptions : run.options.command = options.command := by rw [hrun]; rfl
  obtain ⟨command, value, hcommand, hvalue⟩ := paused.answered hcheck
  have hconfig : validateRunOptionsConfig run.options = .ok () := by
    cases hconfig : validateRunOptionsConfig run.options with
    | ok => rfl
    | error => cases hreject.symm.trans (start_refused hconfig _)
  -- a start that fails before its plan fails at neither of the two sites
  rcases (continued_start_plan continues.old hconfig).error hreject with
    ⟨_, hcall, hstarted, -⟩ | ⟨_, hcall, hplan, hbegun⟩
  · cases hcall
    rw [hstarted] at hsite
    simp at hsite
  cases hcall
  obtain ⟨cleaned, hcleaned, hcall, hstate⟩ :=
    planStart_rejected (hoptions.trans hcommand) hvalue hplan hsite
  rw [continues.state] at hcleaned
  rw [continues.tasks] at hstate
  obtain ⟨c', hfailed, htasks, hpending, hstep, hns, hlatest⟩ :=
    rejected_head hsound hclock hthread paused continues hreject hbegun hcall hreturned
  have hentry := find_failedState hfailed
  obtain ⟨hkept, hnoError⟩ := find_withoutRunErrorMetadata hcleaned
  rcases hstate with ⟨hstate, failure, hfailure⟩ | ⟨⟨values, hvalues⟩, hlost⟩
  · -- rejected for its values: the state of the failure still has the interrupt entry
    have hnamespace : c.checkpointNamespace = options.checkpointNamespace :=
      (mem_of_latest hsound.valid ((getTuple_latest_iff hsound.valid hthread).mp paused.latest)).2.2
    rw [failedState, hstate] at hfailed
    rw [hstate] at hentry
    have keeps := paused.keeps host hlatest htasks hpending hstep (hns.trans hnamespace.symm)
      (hentry.trans hkept) hcleaned (withoutRunErrorMetadata_of_with hnoError hfailed)
    have rejected : ValuesRejected options c :=
      ⟨command, value, cleaned, failure, hcommand, hvalue, hcleaned, hfailure⟩
    exact ⟨fun _ => keeps, fun _ => iff_of_true keeps rejected⟩
  · -- rejected later: `resumeValues` has taken the entry out, and only the update can bring it back
    have haccepted : ¬ ValuesRejected options c := by
      rintro ⟨command', value', cleaned', failure, hcommand', hvalue', hcleaned', hfailure⟩
      cases hcommand.symm.trans hcommand'
      cases hvalue.symm.trans hvalue'
      cases hcleaned.symm.trans hcleaned'
      cases hvalues.symm.trans hfailure
    refine ⟨fun h => absurd h haccepted, fun hspares => iff_of_false (fun keeps => ?_) haccepted⟩
    obtain ⟨c'', hlatest', hsame, -⟩ := keeps.checkpoint
    cases hlatest.symm.trans hlatest'
    have hgone := hentry.trans (hlost (hspares command hcommand))
    have hinterrupted := paused.interrupted
    rw [stateHasInterruptMetadata, contains, ← hsame, hgone] at hinterrupted
    cases hinterrupted

/-- A node that asks for a value and writes the answer under its own name. -/
def questionNode : NodeSpec where
  handler := fun _ runtime => match runtime.resumeValue with
    | none => .returned (.ok { interrupt := some { id := runtime.nodeId } }) [] false
    | some answer => .returned (.ok { update := ⟨[(runtime.nodeId, answer)]⟩ }) [] false

def questionGraph : StateGraph where
  nodes := [(lit "a", questionNode), (lit "b", questionNode)]
  edges := [(START, [lit "a", lit "b"])]

/-- Options on thread `t`; the field `log` is appended to. -/
def questionOptions (runId : String) (command : Option Command) : RunOptions InMemoryStore where
  runId := lit runId
  threadId := lit "t"
  checkpointer := some inMemorySaver
  reducers := { reducers := [(lit "log", .append)] }
  command := command

/-- An invoke that pauses with a question of each node.  Its field `log` is no array. -/
def questionRun : GraphRun InMemoryStore :=
  invoke countingHost questionGraph ⟨[(lit "log", .bool true)], by decide +kernel⟩
    (questionOptions "r" none)

def bothAnswers : Json := .obj [(lit "a", .int 1), (lit "b", .int 2)]

def resumedStatus (options : RunOptions InMemoryStore) (world : World InMemoryStore) :
    Option RunStatus :=
  match resume countingHost questionGraph (lit "t") options world with
  | .error _ => none
  | .ok run => (run.run 2 world).1.bind fun answer => answer.toOption.map (·.status)

/-- The resume is rejected because of its command and comes back with a result. -/
def rejectsCommand (options : RunOptions InMemoryStore) (world : World InMemoryStore) : Bool :=
  match resume countingHost questionGraph (lit "t") options world with
  | .error _ => false
  | .ok run => (run.run 2 world).1.any (·.isOk) &&
      match run.start (run.initialState world) with
      | .error (.fail call) _ => call.site = .command
      | _ => false

theorem rejectsCommand_spec {options : RunOptions InMemoryStore} {world : World InMemoryStore}
    (h : rejectsCommand options world = true) :
    ∃ run call st result, resume countingHost questionGraph (lit "t") options world = .ok run ∧
      run.start (run.initialState world) = .error (.fail call) st ∧ call.site = .command ∧
      (run.run 2 world).1 = some (.ok result) := by
  unfold rejectsCommand at h
  split at h
  · cases h
  · rename_i run hrun
    rw [and_eq_true, Option.any_eq_true] at h
    obtain ⟨⟨answer, hanswer, hok⟩, hstart⟩ := h
    split at hstart
    · rename_i call st hcall
      cases answer with
      | error => cases hok
      | ok result => exact ⟨run, call, st, result, hrun, hcall, of_decide_eq_true hstart, hanswer⟩
    · cases hstart

theorem questionRun_pauses (test : Checkpoint → World InMemoryStore → Bool)
    (h : questionRun.firstStepReturns { saver := {} } (fun _ _ result st' =>
      result.status = .paused && st'.stored.getLast?.any fun c => c.threadId = lit "t" &&
        c.checkpointNamespace = [] && test c st'.world) = true) :
    ∃ c world, History countingHost world ∧ PausedThread world (lit "t") [] c ∧
      test c world = true := by
  obtain ⟨loop, st, result, st', hleaves, htest⟩ := leavesAt_of_firstStepReturns h
  simp only [and_eq_true, Option.any_eq_true, decide_eq_true_eq] at htest
  obtain ⟨hpaused, c, hc, ⟨hthread, hns⟩, htest⟩ := htest
  obtain ⟨used, hbody⟩ := hleaves.body
  have hfinal : questionRun.run (0 + used) { saver := {} } = (some (.ok result), st') := by
    rw [GraphRun.run, hbody]
  have history : History countingHost (questionRun.run (0 + used) { saver := {} }).2.world := by
    unfold questionRun; exact .invoke (.empty rfl) _ _ _ rfl _
  rw [hfinal] at history
  obtain ⟨c', hc', hthreads⟩ := pausedThread_of_pause hleaves hpaused rfl (sound_empty _ _)
    (countingHost_steady _)
  cases hc.symm.trans hc'
  have paused := hthreads fun d hd => by cases hd
  rw [hthread, hns] at paused; exact ⟨c, st'.world, history, paused, htest⟩

/-- One answer for two questions is refused, and the questions stay. -/
theorem rejected_resume_keeps_pause_of_single_answer :
    ∃ c world run, History countingHost world ∧ PausedThread world (lit "t") [] c ∧
      resume countingHost questionGraph (lit "t")
        (questionOptions "s" (some { resume := some (.int 5) })) world = .ok run ∧
      KeepsPause countingHost (lit "t") [] c world (run.run 2 world).2.world := by
  obtain ⟨c, world, history, paused, htest⟩ := questionRun_pauses (fun c world =>
      rejectsCommand (questionOptions "s" (some { resume := some (.int 5) })) world &&
        match withoutRunErrorMetadata c.state with
        | .ok cleaned => (resumeValues (.int 5) c.nextTasks cleaned).toOption.isNone
        | .error _ => false) (by decide +kernel)
  rw [and_eq_true] at htest
  obtain ⟨run, call, st, result, hrun, hreject, hsite, hreturned⟩ := rejectsCommand_spec htest.1
  refine ⟨c, world, run, history, paused, hrun, ?_⟩
  refine (rejected_resume_keeps_pause_iff history (countingHost_steady _) rfl paused hrun hreject
    (.inl hsite) hreturned).1 ?_
  obtain ⟨cleaned, hcleaned⟩ : ∃ cleaned, withoutRunErrorMetadata c.state = .ok cleaned :=
    c.state.fromJsonValue_erase kRunErrorStateKey
  have hvalues := htest.2
  rw [hcleaned] at hvalues
  cases hrejected : resumeValues (.int 5) c.nextTasks cleaned with
  | ok => simp [hrejected, Except.toOption] at hvalues
  | error failure => exact ⟨_, _, cleaned, failure, rfl, rfl, hcleaned, hrejected⟩

/-- Both answers are given, with an update that the reducer of `log` refuses.  The failure
    checkpoint has no interrupt entry, so that the same answers without the update, which complete
    the thread otherwise, are now refused. -/
theorem rejected_update_loses_questions :
    ∃ c world run, History countingHost world ∧ PausedThread world (lit "t") [] c ∧
      resume countingHost questionGraph (lit "t") (questionOptions "s" (some
        { resume := some bothAnswers, update := ⟨[(lit "log", .int 1)]⟩ })) world = .ok run ∧
      resumedStatus (questionOptions "u" (some { resume := some bothAnswers })) world
        = some .completed ∧
      resumedStatus (questionOptions "u" (some { resume := some bothAnswers }))
        (run.run 2 world).2.world = some .failed ∧
      ¬ KeepsPause countingHost (lit "t") [] c world (run.run 2 world).2.world := by
  obtain ⟨c, world, history, paused, htest⟩ := questionRun_pauses (fun c world =>
      rejectsCommand (questionOptions "s" (some
        { resume := some bothAnswers, update := ⟨[(lit "log", .int 1)]⟩ })) world &&
      resumedStatus (questionOptions "u" (some { resume := some bothAnswers })) world
        = some .completed &&
      match resume countingHost questionGraph (lit "t") (questionOptions "s" (some
        { resume := some bothAnswers, update := ⟨[(lit "log", .int 1)]⟩ })) world with
      | .error _ => false
      | .ok run => resumedStatus (questionOptions "u" (some { resume := some bothAnswers }))
          (run.run 2 world).2.world = some .failed &&
          match getTuple (.latest (lit "t") []) (run.run 2 world).2.world.saver with
          | .ok (some tuple) => find kInterruptStateKey tuple.checkpoint.state.view
              ≠ find kInterruptStateKey c.state.view
          | .ok none | .error _ => false) (by decide +kernel)
  simp only [and_eq_true, decide_eq_true_eq] at htest
  obtain ⟨⟨hrejects, hcompleted⟩, hafter⟩ := htest
  obtain ⟨run, -, -, -, hrun, -⟩ := rejectsCommand_spec hrejects
  rw [hrun] at hafter
  simp only [and_eq_true, decide_eq_true_eq] at hafter
  refine ⟨c, world, run, history, paused, hrun, hcompleted, hafter.1, fun keeps => ?_⟩
  obtain ⟨c', hlatest, hentry, -⟩ := keeps.checkpoint
  have hlost := hafter.2
  rw [hlatest] at hlost; exact of_decide_eq_true hlost hentry

end LangGraph
