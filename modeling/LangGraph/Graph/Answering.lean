import LangGraph.Graph.Fork
import LangGraph.Graph.Rejection

/-!
# Answering the interrupts of an edited thread

`updateState` keeps the interrupt entry of its base and may route to other tasks than those that
asked.  `resume` refuses such a checkpoint without a command, and the run refuses a command whose
interrupts have no task.  Section 1 says which interrupts can be answered at all, section 2 when some
resume executes the tasks of a stored checkpoint, and section 3 applies this to an edited one.
-/

namespace LangGraph

open EarlyExit InMemorySaver ExceptList OrderedMap Option Except

variable {σ : Type}

namespace GraphRun

/-! ## 1. Interrupts that can be answered -/

/-- Positions of the tasks an interrupt entry matches, without those that are taken. -/
def freeMatches (tasks : List CheckpointTask) (taken : List Nat) (entry : InterruptMetadata) :
    List Nat :=
  (List.range tasks.length).filter fun index =>
    !taken.contains index && tasks[index]?.any (matchesTask entry)

/-- One after the other, every entry finds exactly one task that no earlier one has taken. -/
def everyEntryServed (tasks : List CheckpointTask) : List Nat → List InterruptMetadata → Bool
  | _, [] => true
  | taken, entry :: rest =>
    match freeMatches tasks taken entry with
    | [index] => everyEntryServed tasks (index :: taken) rest
    | _ => false

/-- Some command gives all entries their answer; without entries it answers the only task. -/
def entriesServed (tasks : List CheckpointTask) (entries : List InterruptMetadata) : Bool :=
  if entries = [] then tasks.length = 1 else everyEntryServed tasks [] entries

section Served

variable {tasks : List CheckpointTask} {taken : List Nat} {values : List (Nat × Json)}
  {entries : List InterruptMetadata} {value : Json} {count : Nat}

/-- The positions with a resume value are the taken ones. -/
def Takes (taken : List Nat) (values : List (Nat × Json)) : Prop :=
  ∀ index, taken.contains index = OrderedMap.contains index values

theorem Takes.cons (h : Takes taken values) (index : Nat) (answer : Json) :
    Takes (index :: taken) (set index answer values) := by
  intro other
  rw [List.contains_cons]
  by_cases heq : index = other
  · rw [heq, contains, find_set_self]; simp
  · have hne : (other == index) = false := beq_eq_false_iff_ne.mpr (Ne.symm heq)
    rw [hne, Bool.false_or, h other, contains, contains, find_set_ne heq]

theorem freeMatches_eq (h : Takes taken values) (entry : InterruptMetadata) :
    freeMatches tasks taken entry = resumeCandidates values tasks entry := by
  unfold freeMatches resumeCandidates
  refine List.filter_congr fun index _ => ?_
  rw [h index]
  cases tasks[index]? <;> rfl

theorem served_of_matchInterrupts {result : List (Nat × Json)} (htaken : Takes taken values)
    (h : matchInterrupts value tasks count values entries = .ok result) :
    everyEntryServed tasks taken entries = true := by
  induction entries generalizing taken values with
  | nil => rfl
  | cons entry rest ih =>
    rw [everyEntryServed, freeMatches_eq htaken]
    unfold matchInterrupts at h
    split at h
    · cases h
    · rename_i index hone
      rw [hone]
      split at h
      · cases h
      · exact ih (htaken.cons index _) h
    · cases h

theorem matchInterrupts_of_served (htaken : Takes taken values)
    (hvalue : ∀ entry ∈ entries, ∃ answer, resumeValueForInterrupt value entry count = .ok answer)
    (h : everyEntryServed tasks taken entries = true) :
    ∃ result, matchInterrupts value tasks count values entries = .ok result := by
  induction entries generalizing taken values with
  | nil => exact ⟨values, rfl⟩
  | cons entry rest ih =>
    rw [everyEntryServed, freeMatches_eq htaken] at h
    obtain ⟨answer, hanswer⟩ := hvalue entry List.mem_cons_self
    unfold matchInterrupts
    split at h
    · rename_i index hone
      rw [hone]
      dsimp only
      rw [hanswer]
      exact ih (htaken.cons index answer) (fun e he => hvalue e (List.mem_cons_of_mem _ he)) h
    · cases h

end Served

def answerAll (entries : List InterruptMetadata) : JsonObject :=
  entries.foldr (fun entry fields => OrderedMap.set entry.node .null fields) []

variable {entries : List InterruptMetadata} {entry : InterruptMetadata} {state : State}

theorem find_answerAll (h : entry ∈ entries) :
    find entry.node (answerAll entries) = some .null := by
  induction entries with
  | nil => cases h
  | cons first rest ih =>
    show find entry.node (set first.node .null (answerAll rest)) = some .null
    by_cases hnode : first.node = entry.node
    · rw [hnode, find_set_self]
    · rw [find_set_ne hnode]
      rcases List.mem_cons.mp h with rfl | h
      · exact absurd rfl hnode
      · exact ih h

theorem resumeValueForInterrupt_answerAll (h : entry ∈ entries)
    (hobject : entry.resumeValues.isObject = true) (count : Nat) :
    ∃ answer, resumeValueForInterrupt (.obj (answerAll entries)) entry count = .ok answer := by
  unfold resumeValueForInterrupt
  by_cases hvalues : entry.resumeValues.isEmpty = false
  · rw [if_pos hvalues]
    cases hjson : entry.resumeValues with
    | obj => exact ⟨_, rfl⟩
    | _ =>
      rw [hjson] at hobject; cases hobject
  · rw [if_neg hvalues]
    by_cases hcount : count ≤ 1
    · rw [if_pos hcount]; exact ⟨_, rfl⟩
    · rw [if_neg hcount]
      dsimp only
      split
      · exact ⟨_, rfl⟩
      · rw [find_answerAll h]; exact ⟨_, rfl⟩

theorem interruptMetadataFromJson_resumeValues {value : Json} {step : Nat}
    (h : interruptMetadataFromJson value step = .ok entry) :
    entry.resumeValues.isObject = true := by
  unfold interruptMetadataFromJson at h
  split at h
  · split at h
    · obtain ⟨id, -, h⟩ := of_bind h
      obtain ⟨step, -, h⟩ := of_bind h
      obtain ⟨values, hvalues, h⟩ := of_bind h
      obtain ⟨order, -, h⟩ := of_bind h
      cases h
      unfold readResumeValues at hvalues
      split at hvalues
      · cases hvalues; rfl
      · cases hvalues; rfl
      · cases hvalues
    · cases h
  · cases h

theorem interruptMetadataFromState_resumeValues
    (h : interruptMetadataFromState state = .ok entries) :
    ∀ entry ∈ entries, entry.resumeValues.isObject = true := by
  unfold interruptMetadataFromState at h
  split at h
  · cases h; exact nofun
  · obtain ⟨step, -, h⟩ := of_bind h
    split at h
    · intro entry hentry
      obtain ⟨item, -, hitem⟩ := exists_of_mem_mapM h hentry
      exact interruptMetadataFromJson_resumeValues hitem
    · cases h
    · obtain ⟨parsed, hparsed, h⟩ := of_bind h
      cases h
      intro entry hentry
      rw [List.mem_singleton.mp hentry]
      exact interruptMetadataFromJson_resumeValues hparsed
  · cases h

theorem exists_resumeValues_iff {tasks : List CheckpointTask} :
    (∃ value values, resumeValues value tasks state = .ok values) ↔
      ∃ entries, interruptMetadataFromState state = .ok entries ∧
        entriesServed tasks entries = true := by
  unfold resumeValues entriesServed
  constructor
  · rintro ⟨value, values, h⟩
    split at h
    · cases h
    · rename_i hentries
      refine ⟨[], hentries, ?_⟩
      rw [if_pos rfl, decide_eq_true_eq]
      by_contra hlength
      rw [if_neg hlength] at h; cases h
    · rename_i entry rest hentries
      refine ⟨entry :: rest, hentries, ?_⟩
      rw [if_neg (List.cons_ne_nil _ _)]
      exact served_of_matchInterrupts (fun _ => rfl) h
  · rintro ⟨entries, hentries, hserved⟩
    cases entries with
    | nil =>
      rw [if_pos rfl, decide_eq_true_eq] at hserved
      refine ⟨.null, [(0, .null)], ?_⟩
      rw [hentries]; exact if_pos hserved
    | cons entry rest =>
      rw [if_neg (List.cons_ne_nil _ _)] at hserved
      have htaken : Takes [] [] := fun _ => rfl
      obtain ⟨values, hvalues⟩ := matchInterrupts_of_served htaken
        (fun e he => resumeValueForInterrupt_answerAll he
          (interruptMetadataFromState_resumeValues hentries e he) (entry :: rest).length) hserved
      refine ⟨.obj (answerAll (entry :: rest)), values, ?_⟩
      rw [hentries]; exact hvalues

/-! ## 2. Resumes that execute -/

/-- The run begins its first super-step with the given tasks and gets to executing them. -/
def Executes (run : GraphRun σ) (world : World σ) (tasks : List CheckpointTask) : Prop :=
  ∃ loop st budget st₁ st₂, run.start (run.initialState world) = .ok loop st ∧
    loop.nextTasks = tasks ∧
    run.enterStep loop (stepContext loop st.result) st = .ok budget st₁ ∧
    run.emitNodeStarted (stepContext loop st.result) (stepContext loop st.result).activeTasks st₁
      = .ok () st₂

/-- A state from which some resume can start: it has no interrupts, or they can be answered and
    some update of the rest is accepted. -/
def Answerable (schema : Option JsonSchema) (state : State) (tasks : List CheckpointTask) : Prop :=
  ∃ cleaned, withoutRunErrorMetadata state = .ok cleaned ∧
    (stateHasInterruptMetadata state = false ∧ validateStateSchema cleaned schema "state" = .ok () ∨
      ∃ entries unmarked update reducers resumed,
        interruptMetadataFromState cleaned = .ok entries ∧ entriesServed tasks entries = true ∧
        withoutInterruptMetadata cleaned = .ok unmarked ∧
        applyStateUpdate unmarked update reducers = .ok resumed ∧
        validateStateSchema resumed schema "state" = .ok ())

theorem answerable_none_iff {tasks : List CheckpointTask} :
    Answerable none state tasks ↔ stateHasInterruptMetadata state = false ∨
      ∃ entries, interruptMetadataFromState state = .ok entries ∧
        entriesServed tasks entries = true := by
  obtain ⟨cleaned, hcleaned⟩ := State.fromJsonValue_erase state kRunErrorStateKey
  have hsame : interruptMetadataFromState cleaned = interruptMetadataFromState state :=
    interruptMetadataFromState_of_cleaned hcleaned
  constructor
  · rintro ⟨cleaned', hcleaned', h⟩
    obtain rfl : cleaned = cleaned' := ok.inj (hcleaned.symm.trans hcleaned')
    rcases h with ⟨hmarked, -⟩ | ⟨entries, _, _, _, _, hentries, hserved, -⟩
    · exact .inl hmarked
    · exact .inr ⟨entries, hsame ▸ hentries, hserved⟩
  · rintro (hmarked | ⟨entries, hentries, hserved⟩)
    · exact ⟨cleaned, hcleaned, .inl ⟨hmarked, rfl⟩⟩
    · obtain ⟨unmarked, hunmarked⟩ := State.fromJsonValue_erase cleaned kInterruptStateKey
      exact ⟨cleaned, hcleaned, .inr ⟨entries, unmarked, {}, {}, unmarked, hsame.trans hentries,
        hserved, hunmarked, State.fromJsonValue_view unmarked, rfl⟩⟩

section Plan

variable {run : GraphRun σ} {world : World σ}

theorem planCommand_ok {tasks : List CheckpointTask} {state : State}
    {answered : State × List (Nat × Json)} (h : run.planCommand tasks state = .ok answered) :
    (run.options.command = none ∧ answered.1 = state) ∨
      ∃ command value unmarked, run.options.command = some command ∧
        command.resume = some value ∧ resumeValues value tasks state = .ok answered.2 ∧
        withoutInterruptMetadata state = .ok unmarked ∧
        applyStateUpdate unmarked command.update run.options.reducers = .ok answered.1 := by
  unfold planCommand at h
  cases hcommand : run.options.command with
  | none =>
    rw [hcommand] at h
    cases h; exact .inl ⟨rfl, rfl⟩
  | some command =>
    rw [hcommand] at h
    dsimp only at h
    cases hresume : command.resume with
    | none =>
      rw [hresume] at h; cases h
    | some value =>
      rw [hresume] at h
      dsimp only at h
      cases hvalues : resumeValues value tasks state with
      | error =>
        rw [hvalues] at h; cases h
      | ok =>
        rw [hvalues] at h
        obtain ⟨unmarked, hunmarked, h⟩ := of_bind h
        obtain ⟨resumed, hresumed, h⟩ := of_bind h
        cases h
        exact .inr ⟨command, value, unmarked, rfl, hresume, hvalues, ok_of_orFailed hunmarked,
          ok_of_orFailed hresumed⟩

theorem planStart_ok {planned : LoopState × State × List (Nat × Json)}
    (h : run.planStart = .ok planned) :
    ∃ cleaned, withoutRunErrorMetadata run.state = .ok cleaned ∧
      run.planCommand (normalizeNextTasks run.nextTasks) cleaned = .ok planned.2 ∧
      validateStateSchema planned.2.1 run.graph.schemas.stateSchema "state" = .ok () ∧
      planned.1 = ⟨normalizeNextTasks run.nextTasks, run.pendingWrites, 0⟩ := by
  unfold planStart at h
  obtain ⟨cleaned, hcleaned, h⟩ := of_bind h
  obtain ⟨answered, hanswered, h⟩ := of_bind h
  obtain ⟨_, hschema, h⟩ := of_bind h
  cases h
  exact ⟨cleaned, ok_of_orFailed hcleaned, hanswered, ok_of_orFailed hschema, rfl⟩

theorem planStart_of_answered {cleaned : State} {answered : State × List (Nat × Json)}
    (hcleaned : withoutRunErrorMetadata run.state = .ok cleaned)
    (hcommand : run.planCommand (normalizeNextTasks run.nextTasks) cleaned = .ok answered)
    (hschema : validateStateSchema answered.1 run.graph.schemas.stateSchema "state" = .ok ()) :
    run.planStart = .ok (⟨normalizeNextTasks run.nextTasks, run.pendingWrites, 0⟩, answered) := by
  rw [planStart_of_cleaned hcleaned, hcommand]
  show (orFailed (validateStateSchema answered.1 _ _) _ _ >>= _) = _
  rw [hschema]; rfl

theorem planCommand_of_answer {tasks : List CheckpointTask} {state unmarked resumed : State}
    {command : Command} {value : Json} {values : List (Nat × Json)}
    (hcommand : run.options.command = some command) (hresume : command.resume = some value)
    (hvalues : resumeValues value tasks state = .ok values)
    (hunmarked : withoutInterruptMetadata state = .ok unmarked)
    (hresumed : applyStateUpdate unmarked command.update run.options.reducers = .ok resumed) :
    run.planCommand tasks state = .ok (resumed, values) := by
  unfold planCommand
  rw [hcommand]
  dsimp only
  rw [hresume]
  dsimp only
  rw [hvalues]
  dsimp only
  rw [hunmarked, orFailed_ok]
  show (orFailed (applyStateUpdate unmarked _ _) _ _ >>= _) = _
  rw [hresumed]; rfl

theorem planStart_of_start {loop : LoopState} {st : RunState σ}
    (hold : run.writeInitialCheckpoint = false)
    (h : run.start (run.initialState world) = .ok loop st) :
    run.planStart = .ok (loop, st.result.state, st.resumeValuesByTask) := by
  have hconfig : validateRunOptionsConfig run.options = .ok () := by
    cases hoptions : validateRunOptionsConfig run.options with
    | ok => rfl
    | error =>
      rw [start_refused hoptions] at h; cases h
  exact ((continued_start_plan hold hconfig).ok h).1

theorem emit_of_filtered {type : RuntimeEventType} (htypes : run.options.eventTypes ≠ [])
    (htype : run.options.eventTypes.contains type = false) (step : Nat) (node : Bytes)
    (payload : Json) (message : Bytes) (st : RunState σ) :
    (run.emit type step node payload message st).1 = .ok () := by
  have hfiltered : run.isFiltered
      (run.completeEvent st.result { type, step, node, payload, message }) = true := by
    unfold isFiltered completeEvent
    dsimp only
    rw [htype]; simpa using htypes
  show run.publishAnswer _ _ = .ok ()
  rw [publishAnswer, if_pos hfiltered]

theorem emitNodeStarted_of_filtered (htypes : run.options.eventTypes ≠ [])
    (htype : run.options.eventTypes.contains .nodeStarted = false) (ctx : StepContext)
    (tasks : List CheckpointTask) (st : RunState σ) :
    ∃ st', run.emitNodeStarted ctx tasks st = .ok () st' := by
  induction tasks generalizing st with
  | nil => exact ⟨st, rfl⟩
  | cons task tasks ih =>
    have hanswer := emit_of_filtered htypes htype ctx.nextStep task.nodeId
      (nodeStartedPayload task ctx.inputState ctx.nextStep) [] st
    obtain ⟨st', hrest⟩ := ih (run.emit .nodeStarted ctx.nextStep task.nodeId
      (nodeStartedPayload task ctx.inputState ctx.nextStep) [] st).2
    refine ⟨st', ?_⟩
    show (orFail (run.emit _ _ _ _ _ st).1 _ >>= _) (run.emit _ _ _ _ _ st).2 = _
    rw [hanswer]; exact hrest

/-- A run that publishes nothing and keeps the default limits executes its tasks once its start is
    planned. -/
theorem executes_of_plan {planned : LoopState × State × List (Nat × Json)}
    (hold : run.writeInitialCheckpoint = false)
    (hconfig : validateRunOptionsConfig run.options = .ok ())
    (htypes : run.options.eventTypes = [.runFailed])
    (hcancel : ∀ point, run.options.cancellationToken point = .ok ())
    (hlimits : run.options.limits = {}) (hplan : run.planStart = .ok planned) :
    run.Executes world (normalizeNextTasks run.nextTasks) := by
  have hsome : run.options.eventTypes ≠ [] := by rw [htypes]; decide
  have hquiet : ∀ type, type ≠ .runFailed → run.options.eventTypes.contains type = false := by
    intro type htype
    rw [htypes]; simpa using htype
  have hstart : Ends run.start (run.initialState world) _ _ := announced_start_plan hold hconfig
    (emit_of_filtered hsome (hquiet _ (by decide)) _ _ _ _ _)
  unfold Ends at hstart
  cases hrun : run.start (run.initialState world) with
  | error =>
    rw [hrun] at hstart
    obtain ⟨call, -, hfailed, -⟩ := hstart
    rw [hplan] at hfailed; cases hfailed
  | ok loop st =>
    rw [hrun] at hstart
    obtain ⟨_, -, -, -, hloop⟩ := planStart_ok hstart.1
    obtain rfl : loop = ⟨normalizeNextTasks run.nextTasks, run.pendingWrites, 0⟩ := hloop
    obtain ⟨st', hstarted⟩ := emitNodeStarted_of_filtered hsome (hquiet _ (by decide))
      (stepContext _ st.result) (stepContext _ st.result).activeTasks st
    refine ⟨_, st, 1, st, st', hrun, rfl, ?_, hstarted⟩
    show (orFail (run.options.cancellationToken _) _ >>= fun _ =>
      orFail (consumeStep run.options.limits 0) _) st = _
    rw [hcancel, hlimits]; rfl

end Plan

end GraphRun

namespace CompiledStateGraph

open GraphRun

section Resume

variable {host : Host} {graph : StateGraph} {threadId : Bytes} {world : World σ}
  {saver : CheckpointSaver σ} {tuple : CheckpointTuple}

def quietOptions (saver : CheckpointSaver σ) (checkpointNamespace : Bytes)
    (reducers : ReducerRegistry) (command : Option Command) : RunOptions σ where
  checkpointNamespace := checkpointNamespace
  checkpointer := some saver
  eventTypes := [.runFailed]
  reducers := reducers
  command := command

theorem resume_quiet {ns : Bytes} {reducers : ReducerRegistry} {command : Option Command}
    (hthread : threadId ≠ [])
    (hlatest : saver.getTuple (.latest threadId ns) world.saver = .ok (some tuple))
    (hcommand : checkResumeCommand tuple.checkpoint (quietOptions saver ns reducers command)
      = .ok ()) :
    resume host graph threadId (quietOptions saver ns reducers command) world
      = .ok (continueFrom host graph tuple (replayStartStep tuple.checkpoint) threadId
          (quietOptions saver ns reducers command)) := by
  have hfound : ∀ message, requireTuple saver (.latest threadId ns) message world.saver
      = .ok tuple := fun message => by
    rw [requireTuple, hlatest]; rfl
  have hsame : requireSameThread threadId (quietOptions saver ns reducers command) "resume"
    = .ok () := rfl
  have hgiven : requireRunCheckpointer (quietOptions saver ns reducers command) "resume"
    = .ok saver := rfl
  unfold resume
  rw [requireThreadId, if_neg hthread, hsame, hgiven]
  show (requireTuple saver (.latest threadId ns) _ world.saver >>= _) = _
  rw [hfound]
  show (checkResumeCommand tuple.checkpoint _ >>= _) = _
  rw [hcommand]; rfl

theorem checkResumeCommand_ok {options : RunOptions σ}
    (htasks : isTerminalNextTasks (nextTasksFromCheckpoint tuple.checkpoint) = false)
    (h : checkResumeCommand tuple.checkpoint options = .ok ()) (hnone : options.command = none) :
    stateHasInterruptMetadata tuple.checkpoint.state = false := by
  unfold checkResumeCommand needsCommand at h
  rw [htasks, hnone] at h
  cases hmarked : stateHasInterruptMetadata tuple.checkpoint.state with
  | false => rfl
  | true =>
    rw [hmarked] at h; cases h

/-- Some resume executes the tasks of the newest checkpoint exactly if its interrupts can be
    answered. -/
theorem resume_executes_iff (hthread : threadId ≠ [])
    (hlatest : saver.getTuple (.latest threadId tuple.checkpoint.checkpointNamespace) world.saver
      = .ok (some tuple))
    (htasks : isTerminalNextTasks (nextTasksFromCheckpoint tuple.checkpoint) = false) :
    (∃ (options : RunOptions σ) (run : GraphRun σ), options.checkpointer = some saver ∧
        options.checkpointNamespace = tuple.checkpoint.checkpointNamespace ∧
        resume host graph threadId options world = .ok run ∧
        run.Executes world (normalizeNextTasks (nextTasksFromCheckpoint tuple.checkpoint))) ↔
      Answerable graph.schemas.stateSchema tuple.checkpoint.state
        (normalizeNextTasks (nextTasksFromCheckpoint tuple.checkpoint)) := by
  constructor
  · rintro ⟨options, run, hsaver, hns, hresume, loop, st, _, _, _, hstart, -, -, -⟩
    obtain ⟨saver', tuple', -, hsaver', htuple, hcommand, rfl⟩ := resume_ok hresume
    obtain rfl : saver = saver' := some.inj (hsaver.symm.trans hsaver')
    rw [hns, hlatest] at htuple
    obtain rfl : tuple = tuple' := some.inj (ok.inj htuple)
    obtain ⟨cleaned, hcleaned, hplan, hschema, -⟩ := planStart_ok (planStart_of_start rfl hstart)
    refine ⟨cleaned, hcleaned, ?_⟩
    rcases planCommand_ok hplan with ⟨hnone, hstate⟩ | ⟨command, value, unmarked, -, -, hvalues,
      hunmarked, hresumed⟩
    · exact .inl ⟨checkResumeCommand_ok htasks hcommand hnone, hstate ▸ hschema⟩
    · obtain ⟨entries, hentries, hserved⟩ := exists_resumeValues_iff.mp ⟨value, _, hvalues⟩
      exact .inr ⟨entries, unmarked, command.update, _, _, hentries, hserved, hunmarked, hresumed,
        hschema⟩
  · rintro ⟨cleaned, hcleaned, ⟨hmarked, hschema⟩ | ⟨entries, unmarked, update, reducers, resumed,
      hentries, hserved, hunmarked, hresumed, hschema⟩⟩
    · -- Without interrupts no command is needed.
      have hcommand : checkResumeCommand tuple.checkpoint (quietOptions saver
          tuple.checkpoint.checkpointNamespace {} none) = .ok () := by
        unfold checkResumeCommand needsCommand
        rw [hmarked]; rfl
      refine ⟨_, _, rfl, rfl, resume_quiet hthread hlatest hcommand, ?_⟩
      exact executes_of_plan rfl rfl rfl (fun _ => rfl) rfl
        (planStart_of_answered hcleaned rfl hschema)
    · obtain ⟨value, values, hvalues⟩ := exists_resumeValues_iff.mpr ⟨entries, hentries, hserved⟩
      have hcommand : checkResumeCommand tuple.checkpoint (quietOptions saver
          tuple.checkpoint.checkpointNamespace reducers
          (some { update := update, resume := some value })) = .ok () := by
        unfold checkResumeCommand needsCommand; simp [quietOptions]
      refine ⟨_, _, rfl, rfl, resume_quiet hthread hlatest hcommand, ?_⟩
      exact executes_of_plan rfl rfl rfl (fun _ => rfl) rfl (planStart_of_answered hcleaned
        (planCommand_of_answer rfl rfl hvalues hunmarked hresumed) hschema)

end Resume

/-! ## 3. Edits as a node -/

/-- Some resume executes the tasks of an edited checkpoint exactly if they answer its interrupts. -/
theorem Edited.executes_iff {host : Host} {graph : StateGraph} {threadId : Bytes}
    {update : StateUpdate} {options : RunOptions InMemoryStore} {updateOptions : StateUpdateOptions}
    {world world' : World InMemoryStore} {base : CheckpointTuple} {latest : Option CheckpointTuple}
    {c : Checkpoint} (hvalid : Valid world.saver)
    (h : Edited host graph threadId update options updateOptions world inMemorySaver base latest c)
    (hput : put c world.saver = (.ok (), world'.saver))
    (hrouted : isTerminalNextTasks c.nextTasks = false) :
    (∃ (resumeOptions : RunOptions InMemoryStore) (run : GraphRun InMemoryStore),
        resumeOptions.checkpointer = some inMemorySaver ∧
        resumeOptions.checkpointNamespace = c.checkpointNamespace ∧
        resume host graph threadId resumeOptions world' = .ok run ∧
        run.Executes world' (normalizeNextTasks c.nextTasks)) ↔
      Answerable graph.schemas.stateSchema c.state (normalizeNextTasks c.nextTasks) := by
  have hlatest : inMemorySaver.getTuple (.latest c.threadId
      (CheckpointTuple.mk c c.pendingWrites).checkpoint.checkpointNamespace) world'.saver
      = .ok (some ⟨c, c.pendingWrites⟩) := (h.isHead hvalid hput).latest
  rw [h.thread_eq] at hlatest
  rw [← h.tasks] at hrouted ⊢; exact resume_executes_iff h.thread_ne hlatest hrouted

/-- After an edit as a node that routes to some task, a resume executes the routed tasks exactly if
    the interrupts of the edited state can be answered by them; the edit keeps the interrupts of its
    base unless it names their key. -/
theorem updateState_unblocks_iff {host : Host} {graph : StateGraph} {threadId : Bytes}
    {update : StateUpdate} {options : RunOptions InMemoryStore} {updateOptions : StateUpdateOptions}
    {world world' : World InMemoryStore} {snapshot : StateSnapshot} {node : Bytes}
    {base : CheckpointTuple} (history : History host world)
    (hsaver : options.checkpointer = some inMemorySaver)
    (hnode : updateOptions.asNode = some node)
    (hbase : getTuple (baseQuery threadId options updateOptions) world.saver = .ok (some base))
    (h : updateState host graph threadId update options updateOptions world
      = (.ok snapshot, world'))
    (hrouted : isTerminalNextTasks snapshot.tasks = false) :
    ∃ cleaned state context tasks, withoutRunErrorMetadata base.checkpoint.state = .ok cleaned ∧
      applyStateUpdate cleaned update options.reducers = .ok state ∧
      graph.nextTasksAfter node state context = .ok tasks ∧
      snapshot.values = state ∧ snapshot.tasks = tasks ∧
      (OrderedMap.find kInterruptStateKey update.values = none →
        OrderedMap.find kInterruptStateKey state.view
          = OrderedMap.find kInterruptStateKey base.checkpoint.state.view) ∧
      ((∃ (resumeOptions : RunOptions InMemoryStore) (run : GraphRun InMemoryStore),
          resumeOptions.checkpointer = some inMemorySaver ∧
          resumeOptions.checkpointNamespace = snapshot.checkpointNamespace ∧
          resume host graph threadId resumeOptions world' = .ok run ∧
          run.Executes world' (normalizeNextTasks tasks)) ↔
        Answerable graph.schemas.stateSchema state (normalizeNextTasks tasks)) := by
  obtain ⟨saver, base', latest, c, hedited, hput, rfl⟩ := updateState_ok h
  obtain rfl : saver = inMemorySaver := some.inj (hedited.saver_eq.symm.trans hsaver)
  obtain rfl : base' = base := some.inj (ok.inj (hedited.base_eq.symm.trans hbase))
  obtain ⟨cleaned, hcleaned, hstate⟩ := hedited.state
  obtain ⟨context, htasks⟩ := hedited.routed node hnode
  have htasks' : (snapshotFromCheckpoint c).tasks = c.nextTasks := hedited.tasks
  rw [htasks'] at hrouted
  exact ⟨cleaned, c.state, context, c.nextTasks, hcleaned, hstate, htasks, rfl, htasks',
    hedited.interrupts, hedited.executes_iff history.sound.valid hput hrouted⟩

/-- A graph whose node `ask` waits for an answer; after `fix` comes the given node. -/
def askingGraph (target : String) : StateGraph where
  nodes := [(lit "ask", interruptingNode (lit "i")), (lit "done", constantNode {}),
    (lit "fix", constantNode {})]
  edges := [(START, [lit "ask"]), (lit "ask", [lit "fix", lit "done"]), (lit "fix", [lit target])]

def waitingWorld (target : String) : World InMemoryStore :=
  ((invoke countingHost (askingGraph target) .empty (threadOptions (lit "r"))).run 1
    { saver := {} }).2.world

/-- An empty update of the waiting thread in the place of `fix`. -/
def editedAsFix (target : String) : Result StateSnapshot × World InMemoryStore :=
  updateState countingHost (askingGraph target) (lit "t") {} (threadOptions [])
    { asNode := some (lit "fix") } (waitingWorld target)

theorem history_waitingWorld (target : String) : History countingHost (waitingWorld target) := by
  unfold waitingWorld; exact .invoke (.empty rfl) _ _ _ rfl 1

/-- The edit succeeds and routes to a task, which serves the stored entries or not. -/
def editServes (target : String) (served : Bool) : Bool :=
  match (editedAsFix target).1 with
  | .error _ => false
  | .ok snapshot =>
    stateHasInterruptMetadata snapshot.values && !isTerminalNextTasks snapshot.tasks &&
      match interruptMetadataFromState snapshot.values with
      | .error _ => false
      | .ok entries => entriesServed (normalizeNextTasks snapshot.tasks) entries = served

theorem editServes_spec {target : String} {served : Bool} (h : editServes target served = true) :
    ∃ snapshot entries, editedAsFix target = (.ok snapshot, (editedAsFix target).2) ∧
      stateHasInterruptMetadata snapshot.values = true ∧
      isTerminalNextTasks snapshot.tasks = false ∧
      interruptMetadataFromState snapshot.values = .ok entries ∧
      entriesServed (normalizeNextTasks snapshot.tasks) entries = served := by
  unfold editServes at h
  split at h
  · cases h
  · rename_i snapshot hresult
    rw [Bool.and_eq_true, Bool.and_eq_true, Bool.not_eq_true'] at h
    obtain ⟨⟨hmarked, hrouted⟩, h⟩ := h
    split at h
    · cases h
    · rename_i entries hentries
      refine ⟨snapshot, entries, ?_, hmarked, hrouted, hentries, of_decide_eq_true h⟩
      rw [← hresult]

/-- `fix` leads back to `ask`, whose stored interrupt is answered by the new task. -/
theorem updateState_unblocks_asking :
    ∃ (resumeOptions : RunOptions InMemoryStore) (run : GraphRun InMemoryStore)
      (tasks : List CheckpointTask), isTerminalNextTasks tasks = false ∧
      resume countingHost (askingGraph "ask") (lit "t") resumeOptions (editedAsFix "ask").2 = .ok run ∧
      run.Executes (editedAsFix "ask").2 (normalizeNextTasks tasks) := by
  obtain ⟨snapshot, entries, hedit, -, hrouted, hentries, hserved⟩ := editServes_spec
    (show editServes "ask" true = true by decide +kernel)
  obtain ⟨saver, base, _, _, hedited, -, -⟩ := updateState_ok hedit
  obtain rfl : inMemorySaver = saver := some.inj hedited.saver_eq
  obtain ⟨_, state, _, tasks, -, -, -, hstate, htasks, -, hiff⟩ := updateState_unblocks_iff
    (history_waitingWorld "ask") hedited.saver_eq rfl hedited.base_eq hedit hrouted
  rw [← hstate, ← htasks] at hiff
  obtain ⟨resumeOptions, run, -, -, hresume, hexecutes⟩ := hiff.mpr
    (answerable_none_iff.mpr (.inr ⟨entries, hentries, hserved⟩))
  exact ⟨resumeOptions, run, snapshot.tasks, hrouted, hresume, hexecutes⟩

/-- `fix` leads to `done`: no resume of the thread, with or without a command, gets to executing
    the task that the edit routed to. -/
theorem edit_blocks_thread :
    ∃ snapshot, (editedAsFix "done").1 = .ok snapshot ∧ isTerminalNextTasks snapshot.tasks = false ∧
      ∀ (resumeOptions : RunOptions InMemoryStore) (run : GraphRun InMemoryStore),
        resumeOptions.checkpointer = some inMemorySaver →
        resumeOptions.checkpointNamespace = snapshot.checkpointNamespace →
        resume countingHost (askingGraph "done") (lit "t") resumeOptions (editedAsFix "done").2
          = .ok run →
        ¬ run.Executes (editedAsFix "done").2 (normalizeNextTasks snapshot.tasks) := by
  obtain ⟨snapshot, entries, hedit, hmarked, hrouted, hentries, hserved⟩ := editServes_spec
    (show editServes "done" false = true by decide +kernel)
  obtain ⟨saver, base, _, c, hedited, hput, rfl⟩ := updateState_ok hedit
  obtain rfl : inMemorySaver = saver := some.inj hedited.saver_eq
  have htasks : (snapshotFromCheckpoint c).tasks = c.nextTasks := hedited.tasks
  have hblocked : ¬ Answerable none c.state (normalizeNextTasks c.nextTasks) := by
    rw [answerable_none_iff]
    rintro (hunmarked | ⟨entries', hentries', hserved'⟩)
    · cases hmarked.symm.trans hunmarked
    · obtain rfl : entries = entries' := ok.inj (hentries.symm.trans hentries')
      rw [← htasks, hserved] at hserved'; cases hserved'
  refine ⟨_, congrArg Prod.fst hedit, hrouted,
    fun resumeOptions run hsaver hns hresume hexecutes => ?_⟩
  rw [htasks] at hrouted hexecutes
  exact hblocked ((hedited.executes_iff (history_waitingWorld "done").sound.valid hput hrouted).mp
    ⟨resumeOptions, run, hsaver, hns, hresume, hexecutes⟩)

end CompiledStateGraph

end LangGraph
