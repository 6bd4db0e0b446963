import LangGraph.Graph.Attempt
import LangGraph.Graph.Completion
import LangGraph.Graph.Lockstep

/-!
# The failure contract

Once `RunStarted` is published, a failure is to come back as a result with its own status.  A run
whose id is new keeps this unless it collides with a checkpoint of its own: a new run stores its
initial checkpoint before it checks the command and the state schema, and a pause stores its
checkpoint before it announces its interrupts, while the failure of either asks for the same id once
more.
-/

namespace LangGraph

open EarlyExit

variable {σ : Type}

namespace GraphRun

/-! ## 1. Exits with a status -/

/-- The saver refused a call, or the announcement of a checkpoint was refused. -/
def StoreRefused (st : RunState σ) : Prop :=
  (∃ call ∈ st.calls, call.2 ≠ .ok ()) ∨
    ∃ entry ∈ st.log, entry.1.type = .checkpointCreated ∧ entry.2 ≠ .ok ()

/-- The program returns a status only when a checkpoint could not be stored. -/
def Reports {α : Type} (m : RunM σ α) : Prop :=
  ∀ st, Ends m st (fun _ _ => True) fun exit st' => ∀ status, exit = .status status → StoreRefused st'

section Storing

variable {run : GraphRun σ} {ctx : StepContext} {st : RunState σ} {request : CheckpointRequest}

theorem storeInSaver_error {checkpoint : Checkpoint} {source : CheckpointSource} {status : Status}
    (h : (run.storeInSaver checkpoint source st).1 = .error status) :
    ∃ call ∈ (run.storeInSaver checkpoint source st).2.calls, call.2 ≠ .ok () := by
  unfold storeInSaver at h ⊢
  cases hgiven : run.options.checkpointer with
  | none =>
    rw [hgiven] at h; cases h
  | some saver =>
    rw [hgiven] at h
    unfold storeCheckpoint at h ⊢
    dsimp only at h ⊢
    cases hput : (saver.put checkpoint st.world.saver).1 with
    | error =>
      exact ⟨_, List.mem_append_right _ (List.mem_singleton.mpr rfl), nofun⟩
    | ok =>
      rw [hput] at h
      split_ifs at h ⊢
      exact ⟨_, List.mem_append_right _ (List.mem_singleton.mpr rfl), by rw [h]; nofun⟩

theorem putCheckpoint_error {status : Status} (h : (run.putCheckpoint request st).1 = .error status) :
    (∃ call ∈ (run.putCheckpoint request st).2.calls, call.2 ≠ .ok ()) ∨
      (request.requireCheckpointEvent = true ∧ ∃ entry ∈ (run.putCheckpoint request st).2.log,
          entry.1.type = .checkpointCreated ∧ entry.2 ≠ .ok ()) := by
  unfold putCheckpoint at h ⊢
  dsimp only at h ⊢
  split_ifs at h ⊢
  · cases hstore : (run.storeInSaver (run.checkpointOf request st) request.source st.tick).1 with
    | error => exact .inl (storeInSaver_error hstore)
    | ok =>
      rw [hstore] at h
      unfold announceCheckpoint at h ⊢
      dsimp only at h ⊢
      split_ifs at h with hrequired
      exact .inr ⟨hrequired, publish_refused h⟩

theorem StoreRefused.later {st' : RunState σ} (h : StoreRefused st) (hextends : Extends st st') :
    StoreRefused st' :=
  h.imp (fun ⟨call, hcall, hrefused⟩ => ⟨call, hextends.calls.subset hcall, hrefused⟩)
    fun ⟨entry, hentry, hrefused⟩ => ⟨entry, hextends.log.subset hentry, hrefused⟩

theorem reports_closed (run : GraphRun σ) : StageClosed run True (fun _ => True) Extends
    fun _ exit st' => ∀ status, exit = .status status → StoreRefused st' :=
  { run.extends_closed.events.toEventClosed with
    after := fun _ h => h
    later := fun h hextends status hexit => (h status hexit).later hextends
    fail := fun _ _ => nofun
    done := fun _ _ => nofun
    refused := fun _ herror _ _ => (putCheckpoint_error herror).imp_right And.right }

theorem Reports.superStep {loop : LoopState} : Reports (run.superStep loop) := fun _ =>
  ((reports_closed run).superStep (fun _ _ => trivial) trivial).mono (fun _ _ _ => trivial)
    fun _ _ h => h

end Storing

/-! ## 2. The start of a run -/

section Start

variable {run : GraphRun σ} {world : World σ} {has : σ → Bytes → Bytes → Bytes → Prop}
  {st : RunState σ}

theorem start_reports (run : GraphRun σ) (world : World σ) :
    Ends run.start (run.initialState world) (fun _ _ => True) fun exit st =>
      ∀ status, exit = .status status → st.log = [] ∨ StoreRefused st := by
  refine ((reports_closed run).start world fun _ _ => trivial).mono (fun _ _ _ => trivial) ?_
  rintro exit st (⟨rfl | rfl, _⟩ | h) status hexit
  · exact .inl rfl
  · exact .inl rfl
  · exact .inr (h status hexit)

/-- A new run accepts its command and its state, so that nothing fails between the initial checkpoint
    and the first super-step. -/
def StartAccepted (run : GraphRun σ) (world : World σ) : Prop :=
  run.writeInitialCheckpoint = true → ∀ tasks, run.firstTasks (run.identified world) = .ok tasks →
    ∃ state values, run.givenAnswer tasks run.state = .ok (state, values) ∧
      validateStateSchema state run.graph.schemas.stateSchema "state" = .ok ()

structure StartFails (has : σ → Bytes → Bytes → Bytes → Prop) (run : GraphRun σ) (call : FailCall)
    (st : RunState σ) : Prop where
  failedStep : call.failedStep = run.step
  pending : call.failurePendingWrites = run.pendingWrites
  room : Room has run.step none st

variable {nextTasks : List CheckpointTask}

theorem applyGivenCommand_site :
    Ends (run.applyGivenCommand nextTasks) st (fun _ _ => True) fun exit _ =>
      ∀ call, exit = .fail call → call.site = .command := by
  have hsite : ∀ {step node status call}, (.fail (run.startFailure .command nextTasks step node status)
      : Exit) = .fail call → call.site = .command := fun h => by cases h; rfl
  unfold applyGivenCommand
  split
  · unfold applyCommand
    rw [ends_bind, ends_get]
    split
    · exact fun _ => hsite
    · split
      · exact fun _ => hsite
      · simp only [ends_bind]
        refine ends_orFail _ (fun _ _ => ?_) fun _ _ _ => hsite
        exact ends_orFail _ (fun _ _ => trivial) fun _ _ _ => hsite
  · trivial

/-- A new run that accepts its command and its state enters the loop once its initial checkpoint is
    stored. -/
theorem accepted_start (hnew : run.writeInitialCheckpoint = true)
    (accepted : run.StartAccepted world)
    (hnext : run.firstTasks (run.identified world) = .ok nextTasks)
    (same : SameRun (run.identified world) st) :
    Ends (run.enterRun nextTasks) st (fun _ _ => True) fun exit _ => ∀ call, exit ≠ .fail call := by
  obtain ⟨state, values, hanswer, hschema⟩ := accepted hnew nextTasks hnext
  have hcleaned : run.cleanedState = .ok run.state := by simp [cleanedState, hnew]
  have hstore : Ends (run.storeInitial nextTasks) st (fun _ st' => SameRun (run.identified world) st')
      fun exit _ => ∀ call, exit ≠ .fail call := by
    unfold storeInitial
    rw [if_pos hnew, ends_bind, ends_act]
    exact ends_orExit _ (fun _ _ => same.trans (run.putCheckpoint_sameRun ..)) (by simp)
  refine hstore.bind fun _ st₁ same₁ => ?_
  have hclean : run.cleanRunError nextTasks st₁ = .ok () st₁ := by
    unfold cleanRunError
    rw [if_neg (by simp [hnew])]; rfl
  rw [Ends, bind_of_ok hclean]
  show Ends _ st₁ _ _
  have same₂ : SameRun ((run.identified world).withState run.state) st₁ := same₁
  have hcommand : Ends (run.applyGivenCommand nextTasks) st₁ _ fun exit _ =>
      StartFailure run world exit := applyGivenCommand_ends same₂ rfl rfl hnext hcleaned
  refine Ends.bind ((hcommand.and applyGivenCommand_site).mono (fun _ _ h => h.1) ?_)
    fun _ st₂ h₂ => ?_
  · rintro exit st' ⟨hfailure, hsite⟩ call rfl
    obtain ⟨tasks, cleaned, node, htasks, hcleaned', herror⟩ := hfailure.2 (hsite call rfl)
    cases htasks.symm.trans hnext
    cases hcleaned'.symm.trans hcleaned
    cases hanswer.symm.trans herror
  · cases hanswer.symm.trans h₂.1
    rw [ends_bind, ends_get, hschema]; exact trivial

theorem continued_start (hold : run.writeInitialCheckpoint = false)
    (room : Room has run.step (some 0) st) (hstep : st.result.step = run.step) :
    Ends (run.enterRun nextTasks) st (fun _ _ => True)
      fun exit st' => ∀ call, exit = .fail call → StartFails has run call st' := by
  -- Every failure comes from `startFailure` in a state with the same room and step.
  have hfails : ∀ {site node status} {st' : RunState σ}, Room has run.step (some 0) st' →
      ∀ call, (.fail (run.startFailure site nextTasks st.result.step node status) : Exit) = .fail call →
        StartFails has run call st' := by
    intro site node status st' room' call hcall
    cases hcall; exact ⟨hstep, rfl, room'.last⟩
  have hstore : run.storeInitial nextTasks st = .ok () st := by
    unfold storeInitial
    rw [if_neg (by simp [hold])]; rfl
  unfold enterRun
  rw [Ends, bind_of_ok hstore]
  show Ends _ st _ _
  unfold cleanRunError
  rw [if_pos hold, ends_bind, ends_bind, ends_get, ends_bind]
  refine ends_orFail _ (fun cleaned _ => ?_) fun _ _ => hfails room
  rw [ends_effect]
  have room₁ : Room has run.step (some 0) (st.withState cleaned) := room.same rfl rfl rfl rfl rfl
  refine Ends.bind (P := fun _ st' => Room has run.step (some 0) st' ∧
    st'.result.step = st.result.step) ?_ fun _ st₂ h₂ => ?_
  · unfold applyGivenCommand
    split
    · unfold applyCommand
      rw [ends_bind, ends_get]
      split
      · exact hfails room₁
      · split
        · exact hfails room₁
        · simp only [ends_bind]
          refine ends_orFail _ (fun unmarked _ => ?_) fun _ _ =>
            hfails (room.same rfl rfl rfl rfl rfl)
          exact ends_orFail _ (fun resumed _ => ⟨room.same rfl rfl rfl rfl rfl, rfl⟩) fun _ _ =>
            hfails (room.same rfl rfl rfl rfl rfl)
    · exact ⟨room₁, rfl⟩
  · rw [ends_bind, ends_get, h₂.2, ends_bind]
    exact ends_orFail _ (fun _ _ => trivial) fun _ _ => hfails h₂.1

theorem start_fails (fresh : Fresh has run world) (accepted : run.StartAccepted world) :
    Ends run.start (run.initialState world) (fun _ _ => True) fun exit st =>
      ∀ call, exit = .fail call → StartFails has run call st := by
  have room : Room has run.step (some 0) (run.announce world).2 :=
    (room_closed has run run.step (some 0)).events.emit (by nofun) _ (fresh.room _ _)
  refine ends_start (fun _ => nofun) (fun call hcall => ?_) fun hnext => ?_
  · cases hcall; exact ⟨rfl, rfl, room.last⟩
  · cases hnew : run.writeInitialCheckpoint with
    | true =>
      exact (accepted_start hnew accepted hnext announce_sameRun).mono (fun _ _ h => h)
        fun _ _ h call hcall => absurd hcall (h call)
    | false => exact continued_start hnew room announce_sameRun.step

end Start

/-! ## 3. Whole runs -/

/-- Nothing outside the runtime makes the run collide with a checkpoint of its own or keeps it from
    reporting a failure: the start is accepted, no announcement of an interrupt or a checkpoint is
    refused, and a state that fails has room for its error entry. -/
structure Undisturbed (run : GraphRun σ) (fuel : Nat) (world : World σ) : Prop where
  start : run.StartAccepted world
  announced : ∀ entry ∈ (stateAfter (run.body fuel) (run.initialState world)).log,
    entry.1.type = .interruptRequested ∨ entry.1.type = .checkpointCreated → entry.2 = .ok ()
  errorFits : ∀ call st, run.body fuel (run.initialState world) = .error (.fail call) st →
    ∃ failed, failedState call st = .ok failed

/-- The contract: no checkpoint is refused, a status is returned only before `RunStarted`, and every
    failure comes back as a result with a status other than Completed. -/
structure KeepsContract (run : GraphRun σ) (fuel : Nat) (world : World σ) : Prop where
  noCollision : ∀ call ∈ (run.run fuel world).2.calls, call.2 = .ok ()
  noStatus : ∀ status, (run.run fuel world).1 = some (.error status) →
    (run.run fuel world).2.log = []
  failed : ∀ call st, run.body fuel (run.initialState world) = .error (.fail call) st →
    ∃ result, (run.run fuel world).1 = some (.ok result) ∧ result.status ≠ .completed

section Runs

variable {run : GraphRun σ} {world : World σ} {has : σ → Bytes → Bytes → Bytes → Prop} {fuel : Nat}
  {st : RunState σ}

theorem failRun_returns {call : FailCall} (saver : run.StoresIn has)
    (room : Room has call.failedStep none st)
    (hpending : ∀ write ∈ call.failurePendingWrites, write.Storable)
    {failed : State} (hfailed : failedState call st = .ok failed) :
    (∀ entry ∈ (run.failRun call st).2.calls, entry.2 = .ok ()) ∧
      ∃ result, (run.failRun call st).1 = .ok result ∧ result.status ≠ .completed := by
  have hcalls := failRun_room saver room hpending
  refine ⟨hcalls, ?_⟩
  have hput : (run.putCheckpoint call.request (atFailure call st failed)).1 = .ok () := by
    cases hput : (run.putCheckpoint call.request (atFailure call st failed)).1 with
    | ok => rfl
    | error =>
      rw [failRun_calls_of_ok hfailed] at hcalls
      rcases putCheckpoint_error hput with ⟨entry, hentry, hrefused⟩ | ⟨hrequired, -⟩
      · exact absurd (hcalls entry hentry) hrefused
      · cases hrequired
  obtain ⟨result, hresult⟩ := failRun_of_put hfailed hput
  exact ⟨result, hresult, failRun_status hresult⟩

/-- How an undisturbed run is left: the saver refused nothing, a status comes before any event, and a
    failure has room for its checkpoint. -/
theorem exit_spec {exit : Exit} (fresh : Fresh has run world) (accepted : run.StartAccepted world)
    (hannounced : ∀ entry ∈ st.log,
      entry.1.type = .interruptRequested ∨ entry.1.type = .checkpointCreated → entry.2 = .ok ())
    (h : run.body fuel (run.initialState world) = .error exit st) :
    (∀ call ∈ st.calls, call.2 = .ok ()) ∧ (∀ status, exit = .status status → st.log = []) ∧
      ∀ call, exit = .fail call → Room has call.failedStep none st ∧
        ∀ write ∈ call.failurePendingWrites, write.Storable := by
  have hstored : (∀ call ∈ st.calls, call.2 = .ok ()) → ¬ StoreRefused st := by
    rintro hcalls (⟨call, hcall, hrefused⟩ | ⟨entry, hentry, htype, hrefused⟩)
    · exact hrefused (hcalls call hcall)
    · exact hrefused (hannounced entry hentry (.inr htype))
  rcases (body_ends ..).error h with hstart | ⟨loop, st₀, hleaves⟩
  · have hcalls := (start_room fresh).error hstart
    refine ⟨hcalls, fun status hexit => ?_, fun call hexit => ?_⟩
    · exact ((start_reports run world).error hstart status hexit).resolve_right (hstored hcalls)
    · have hfails := (start_fails fresh accepted).error hstart call hexit
      rw [hfails.failedStep, hfails.pending]; exact ⟨hfails.room, fresh.pending⟩
  · obtain ⟨room, hpending⟩ := hleaves.reached.room fresh
    obtain ⟨hcalls, hroom⟩ := (superStep_room fresh.saver room hpending).error hleaves.leaves
    refine ⟨hcalls, fun status hexit => ?_, fun call hexit => ?_⟩
    · exact absurd ((Reports.superStep st₀).error hleaves.leaves status hexit) (hstored hcalls)
    · subst hexit
      have hfailure : StepFailure run _ st₀ st call := (superStep_ends run loop st₀).error hleaves.leaves
      rw [hfailure.failedStep]
      exact ⟨hroom (fun entry hentry htype => hannounced entry hentry (.inl htype)) call rfl,
        hfailure.storable hpending⟩

/-- A run with a new id that is not disturbed keeps the failure contract. -/
theorem fresh_run_keeps_contract (fresh : Fresh has run world)
    (undisturbed : Undisturbed run fuel world) : KeepsContract run fuel world := by
  cases hbody : run.body fuel (run.initialState world) with
  | ok returned st =>
    -- completed, or out of fuel: no checkpoint was refused on the way
    obtain ⟨loop, hreach, _⟩ := (body_ends ..).ok hbody
    have hrun : run.run fuel world = (returned.map .ok, st) := by rw [GraphRun.run, hbody]
    refine ⟨hrun ▸ (hreach.room fresh).1.calls, fun status h => ?_, fun call st h => ?_⟩
    · rw [hrun] at h
      cases returned <;> cases h
    · rw [hbody] at h; cases h
  | error exit st =>
    have hafter : stateAfter (run.body fuel) (run.initialState world) = st := by
      rw [stateAfter, hbody]
    have hannounced := hafter ▸ undisturbed.announced
    obtain ⟨hcalls, hstatus, hfail⟩ := exit_spec fresh undisturbed.start hannounced hbody
    cases exit with
    | fail call =>
      obtain ⟨room, hpending⟩ := hfail call rfl
      obtain ⟨failed, hfailed⟩ := undisturbed.errorFits call st hbody
      obtain ⟨hcalls', result, hresult, hnot⟩ := failRun_returns fresh.saver room hpending hfailed
      have hrun : run.run fuel world = (some (run.failRun call st).1, (run.failRun call st).2) := by
        rw [GraphRun.run, hbody]
      rw [hresult] at hrun
      refine ⟨hrun ▸ hcalls', fun status h => ?_, fun _ _ _ => ⟨result, by rw [hrun], hnot⟩⟩
      rw [hrun] at h; cases h
    | done result =>
      have hrun : run.run fuel world = (some (.ok result), st) := by rw [GraphRun.run, hbody]
      refine ⟨hrun ▸ hcalls, fun status h => ?_, fun call st h => ?_⟩
      · rw [hrun] at h; cases h
      · rw [hbody] at h; cases h
    | status status =>
      have hrun : run.run fuel world = (some (.error status), st) := by rw [GraphRun.run, hbody]
      refine ⟨hrun ▸ hcalls, fun _ _ => hrun ▸ hstatus status rfl, fun call st h => ?_⟩
      rw [hbody] at h; cases h

end Runs

/-- A first run on thread `t` of a graph with one node, under the given state schema. -/
def oneNodeRun (node : NodeSpec) (schema : Option JsonSchema) : GraphRun InMemoryStore :=
  CompiledStateGraph.invoke countingHost
    { nodes := [(lit "a", node)], edges := [(START, [lit "a"])], schemas := { stateSchema := schema } }
    .empty { runId := lit "r", threadId := lit "t", checkpointer := some inMemorySaver }

theorem oneNodeRun_fresh (node : NodeSpec) (schema : Option JsonSchema) :
    Fresh InMemorySaver.Has (oneNodeRun node schema) { saver := {} } where
  saver := storesIn_inMemorySaver rfl
  id := by
    rintro m j source ⟨d, hd, -⟩; cases hd
  pending := by
    intro write hwrite; cases hwrite

/-- A handler that fails: its failure comes back as a result. -/
theorem fresh_run_keeps_contract_of_handler_failure :
    KeepsContract (oneNodeRun (failingNode (.internal (lit "no"))) none) 1 { saver := {} } := by
  have htest : (match (oneNodeRun (failingNode (.internal (lit "no"))) none).body 1
        ((oneNodeRun (failingNode (.internal (lit "no"))) none).initialState { saver := {} }) with
      | .error (.fail call) st => (failedState call st).isOk && st.log.all (·.2.isOk)
      | .error (.done _) _ | .error (.status _) _ | .ok _ _ => false) = true := by
    decide +kernel
  split at htest
  · rename_i call st hbody
    rw [Bool.and_eq_true, List.all_eq_true] at htest
    refine fresh_run_keeps_contract (oneNodeRun_fresh _ _) ⟨fun _ _ _ => ⟨_, _, rfl, rfl⟩, ?_, ?_⟩
    · rw [stateAfter, hbody]
      intro entry hentry _
      have hok := htest.2 entry hentry
      cases hanswer : entry.2 with
      | ok => rfl
      | error =>
        rw [hanswer] at hok; cases hok
    · intro call' st' hbody'
      cases hbody.symm.trans hbody'
      cases hfailed : failedState call st with
      | ok failed => exact ⟨failed, rfl⟩
      | error =>
        rw [hfailed] at htest; cases htest.1
  all_goals cases htest

/-- The state schema rejects the input of a new run on an empty store: the failure asks for the id of
    the initial checkpoint again, and instead of a failed result the run returns AlreadyExists. -/
theorem rejected_start_collides :
    Fresh InMemorySaver.Has (oneNodeRun (constantNode {}) (some answerSchema)) { saver := {} } ∧
      ∃ status, ((oneNodeRun (constantNode {}) (some answerSchema)).run 1 { saver := {} }).1
          = some (.error status) ∧
        status.code = .alreadyExists ∧
        (∃ call ∈ ((oneNodeRun (constantNode {}) (some answerSchema)).run 1 { saver := {} }).2.calls,
          call.2 = .error status) ∧
        ((oneNodeRun (constantNode {}) (some answerSchema)).run 1 { saver := {} }).2.log ≠ [] := by
  have htest : (((oneNodeRun (constantNode {}) (some answerSchema)).run 1 { saver := {} }).1.any
      fun answer => match answer with
        | .ok _ => false
        | .error status => status.code = .alreadyExists &&
          (((oneNodeRun (constantNode {}) (some answerSchema)).run 1 { saver := {} }).2.calls.any
            (·.2 = .error status)) &&
          ((oneNodeRun (constantNode {}) (some answerSchema)).run 1 { saver := {} }).2.log.length ≠ 0)
      = true := by
    decide +kernel
  obtain ⟨answer, hanswer, htest⟩ := (Option.any_eq_true _ _).mp htest
  cases answer with
  | ok => cases htest
  | error status =>
    simp only [Bool.and_eq_true, decide_eq_true_eq, List.any_eq_true] at htest
    obtain ⟨⟨hcode, call, hcall, hrefused⟩, hlog⟩ := htest
    exact ⟨oneNodeRun_fresh _ _, status, hanswer, hcode, ⟨call, hcall, hrefused⟩,
      List.ne_nil_of_length_pos (Nat.pos_of_ne_zero hlog)⟩

end GraphRun

end LangGraph
