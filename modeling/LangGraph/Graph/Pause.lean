import LangGraph.Graph.Failure

/-!
# Paused runs

A paused super-step stores the interrupted tasks with the order they had in the step, followed by
the tasks routed from the others, which are numbered by their place in the stored list.  A resume
finds the task of each interrupt by node and order.
-/

namespace LangGraph

open EarlyExit StableSort ExceptList OrderedMap CheckpointTask Option
open List hiding set merge erase contains any_eq_true

variable {σ : Type}

/-! ## 1. The stored interrupt entries -/

theorem interruptEntryJson_fields (step : Nat) (pending : PendingInterrupt) :
    ∃ fields, interruptEntryJson step pending = .obj fields ∧
      find (lit "node") fields = some (.str pending.node) ∧
      find (lit "order") fields = pending.order.map Json.ofNat := by
  have hbase : ∃ fields, interruptEntryJson step { pending with order := none } = .obj fields ∧
      find (lit "node") fields = some (.str pending.node) ∧
      find (lit "order") fields = none := by
    unfold interruptEntryJson
    split_ifs
    · exact ⟨_, rfl, rfl, rfl⟩
    · refine ⟨_, rfl, ?_, ?_⟩
      · rw [find_set_ne (by decide)]; rfl
      · rw [find_set_ne (by decide)]; rfl
  obtain ⟨fields, hentry, hnode, horder⟩ := hbase
  unfold interruptEntryJson at hentry ⊢
  cases ho : pending.order with
  | none => exact ⟨fields, hentry, hnode, horder⟩
  | some =>
    simp only [Json.obj.injEq] at hentry
    dsimp only
    rw [hentry]
    refine ⟨_, rfl, ?_, ?_⟩
    · rw [find_set_ne (by decide), hnode]
    · rw [find_set_self]; rfl

theorem interruptMetadataFromJson_entry {step fallback : Nat} {pending : PendingInterrupt}
    {metadata : InterruptMetadata}
    (h : interruptMetadataFromJson (interruptEntryJson step pending) fallback = .ok metadata) :
    metadata.node = pending.node ∧ metadata.order = pending.order := by
  obtain ⟨fields, hentry, hnode, horder⟩ := interruptEntryJson_fields step pending
  rw [hentry] at h
  have hnode' : Json.field (lit "node") (.obj fields) = some (.str pending.node) := hnode
  have horder' : readUnsigned (.obj fields) (lit "order") none
      "interrupt metadata order must be an unsigned integer" = .ok pending.order := by
    unfold readUnsigned
    have : Json.field (lit "order") (.obj fields) = pending.order.map Json.ofNat := horder
    rw [this]
    cases pending.order <;> rfl
  unfold interruptMetadataFromJson at h
  simp only [hnode', horder'] at h
  obtain ⟨id, -, h⟩ := of_bind h
  obtain ⟨step, -, h⟩ := of_bind h
  obtain ⟨values, -, h⟩ := of_bind h
  cases h; exact ⟨rfl, rfl⟩

theorem interruptMetadataFromState_of_with {state paused : State} {step : Nat}
    {interrupts : List PendingInterrupt} {entries : List InterruptMetadata}
    (hne : interrupts ≠ []) (hwith : withInterruptMetadata state interrupts step = .ok paused)
    (h : interruptMetadataFromState paused = .ok entries) :
    Forall₂ (fun pending metadata =>
      metadata.node = pending.node ∧ metadata.order = pending.order) interrupts entries := by
  rw [withInterruptMetadata, if_neg hne] at hwith
  unfold interruptMetadataFromState at h
  rw [State.view_of_fromJsonValue hwith, find_set_self] at h
  have hstate : interruptStateJson interrupts step = .obj [
      (lit "interrupts", .arr (interrupts.map (interruptEntryJson step))),
      (lit "step", .ofNat step)] := rfl
  rw [hstate] at h
  obtain ⟨read, -, h⟩ := of_bind h
  have hitems : find (lit "interrupts") [
      (lit "interrupts", Json.arr (interrupts.map (interruptEntryJson step))),
      (lit "step", .ofNat step)] = some (.arr (interrupts.map (interruptEntryJson step))) := rfl
  have hall := mapM_eq_ok_iff.mp h
  rw [forall₂_map_left_iff] at hall
  exact hall.imp fun _ _ hentry => interruptMetadataFromJson_entry hentry

/-! ## 2. Matching entries with tasks -/

def CheckpointTask.key (task : CheckpointTask) : Bytes × Option Nat := (task.nodeId, task.order)

namespace GraphRun

/-- Every entry matches exactly one task, and no two entries the same one. -/
def Matched (entries : List InterruptMetadata) (tasks : List CheckpointTask) : Prop :=
  ∃ positions : List Nat, positions.Nodup ∧
    List.Forall₂ (fun entry position => resumeCandidates [] tasks entry = [position])
      entries positions

/-- The interrupted tasks differ in node or order, and no routed task goes to an interrupted node
    with the order it is going to be numbered with. -/
def NoClash (interrupted routed : List CheckpointTask) : Prop :=
  (interrupted.map CheckpointTask.key).Nodup ∧
    ∀ (i : Nat) (task : CheckpointTask), routed[i]? = some task →
      (task.nodeId, some (task.order.getD (interrupted.length + i)))
        ∉ interrupted.map CheckpointTask.key

section Candidates

variable {entry : InterruptMetadata} {tasks : List CheckpointTask} {values : List (Nat × Json)}

theorem matchesTask_iff {task : CheckpointTask} (hentry : entry.order.isSome = true)
    (htask : task.order.isSome = true) :
    matchesTask entry task = true ↔ task.key = (entry.node, entry.order) := by
  obtain ⟨a, ha⟩ := isSome_iff_exists.mp hentry
  obtain ⟨b, hb⟩ := isSome_iff_exists.mp htask
  simp only [matchesTask, key, ha, hb, Bool.and_eq_true, decide_eq_true_eq,
    Prod.mk.injEq, some.injEq]
  exact and_congr_right fun _ => eq_comm

theorem mem_resumeCandidates {i : Nat} :
    i ∈ resumeCandidates values tasks entry ↔ contains i values = false ∧
        ∃ task, tasks[i]? = some task ∧ matchesTask entry task = true := by
  unfold resumeCandidates
  rw [mem_filter, mem_range, Bool.and_eq_true, Bool.not_eq_true']
  constructor
  · rintro ⟨hi, hvalue, hmatch⟩
    rw [getElem?_eq_getElem hi] at hmatch ⊢; exact ⟨hvalue, _, rfl, hmatch⟩
  · rintro ⟨hvalue, task, htask, hmatch⟩
    refine ⟨(List.getElem?_eq_some_iff.mp htask).1, hvalue, ?_⟩
    rw [htask]; exact hmatch

theorem resumeCandidates_eq_singleton_iff {i : Nat} :
    resumeCandidates values tasks entry = [i] ↔
      ∀ k, k ∈ resumeCandidates values tasks entry ↔ k = i := by
  constructor
  · intro h k
    rw [h, mem_singleton]
  · intro h
    have hnodup : (resumeCandidates values tasks entry).Nodup := nodup_range.filter _
    refine perm_singleton.mp ((perm_ext_iff_of_nodup hnodup (nodup_singleton i)).mpr ?_)
    intro k
    rw [h, mem_singleton]

end Candidates

section Stored

variable {interrupted routed : List CheckpointTask} {entries : List InterruptMetadata}
  {runId ns : Bytes} {step : Nat}

/-- The stored task at a position: an interrupted one as it was, a routed one with its place as
    order unless it has one. -/
theorem storedTask_key (runId : Bytes) (step : Nat) (hsettled : ∀ task ∈ interrupted, task.Settled ns)
    (hrunnable : ∀ task ∈ routed, task.runnable = true) (i : Nat) :
    ((annotateTasks runId ns step (interrupted ++ routed))[i]?).map key =
      if i < interrupted.length then interrupted[i]?.map key
      else (routed[i - interrupted.length]?).map
        fun task => (task.nodeId, some (task.order.getD i)) := by
  unfold annotateTasks
  rw [getElem?_mapIdx]
  split_ifs with hi
  · rw [getElem?_append_left hi, getElem?_eq_getElem hi]
    have hs := hsettled _ (getElem_mem hi)
    simp only [map_some]
    rw [annotateTask_eq_self _ _ _ _ _ hs.order hs.taskId hs.inNamespace]
  · rw [getElem?_append_right (Nat.le_of_not_lt hi)]
    cases htask : routed[i - interrupted.length]? with
    | none => rfl
    | some task =>
      have hr := hrunnable task (mem_of_getElem? htask)
      simp only [map_some, key, annotateTask_nodeId, annotateTask_order _ _ _ _ _ hr]

/-- No other stored task has the key of the interrupted task `j`. -/
def KeyUnique (tasks : List CheckpointTask) (n : Nat) : Prop :=
  ∀ j < n, ∀ (i : Nat) (key : Bytes × Option Nat),
    tasks[j]?.map CheckpointTask.key = some key → tasks[i]?.map CheckpointTask.key = some key → i = j

theorem keyUnique_iff_noClash (hsettled : ∀ task ∈ interrupted, task.Settled ns)
    (hrunnable : ∀ task ∈ routed, task.runnable = true) :
    KeyUnique (annotateTasks runId ns step (interrupted ++ routed)) interrupted.length ↔
      NoClash interrupted routed := by
  have hkey := storedTask_key runId step hsettled hrunnable
  constructor
  · intro hunique
    refine ⟨?_, fun i task htask hmem => ?_⟩
    · rw [nodup_iff_getElem?_ne_getElem?]
      intro i j hij hj heq
      rw [length_map] at hj
      have hi := hij.trans hj
      rw [getElem?_map, getElem?_map, getElem?_eq_getElem hi] at heq
      have := hunique j hj i interrupted[i].key (by rw [hkey, if_pos hj, ← heq]; rfl)
        (by rw [hkey, if_pos hi, getElem?_eq_getElem hi]; rfl)
      omega
    · obtain ⟨j, hj⟩ := mem_iff_getElem?.mp hmem
      rw [getElem?_map] at hj
      have hlt : j < interrupted.length := by
        by_contra hge
        rw [getElem?_eq_none (Nat.le_of_not_lt hge)] at hj; cases hj
      have := hunique j hlt (interrupted.length + i) _ (by rw [hkey, if_pos hlt, hj])
        (by rw [hkey, if_neg (by omega), Nat.add_sub_cancel_left, htask]; rfl)
      omega
  · rintro ⟨hnodup, hrouted⟩ j hj i key hjkey hikey
    rw [hkey, if_pos hj] at hjkey
    rw [hkey] at hikey
    split_ifs at hikey with hi
    · rw [← getElem?_map] at hjkey hikey
      exact (getElem?_inj (by simpa using hi) hnodup).mp (hikey.trans hjkey.symm)
    · obtain ⟨task, htask, rfl⟩ := map_eq_some_iff.mp hikey
      refine absurd (mem_iff_getElem?.mpr ⟨j, ?_⟩) (hrouted _ task htask)
      rw [getElem?_map, hjkey, Nat.add_sub_cancel' (Nat.le_of_not_lt hi)]

theorem matched_iff_keyUnique {tasks : List CheckpointTask}
    (hordered : ∀ task ∈ tasks, task.order.isSome = true)
    (hentries : Forall₂ (fun (task : CheckpointTask) (entry : InterruptMetadata) =>
      task.key = (entry.node, entry.order)) (tasks.take entries.length) entries) :
    Matched entries tasks ↔ KeyUnique tasks entries.length := by
  have hlen : entries.length ≤ tasks.length := by
    have := hentries.length_eq
    rw [length_take] at this; omega
  have hget : ∀ j (hj : j < entries.length),
      (tasks[j]?).map key = some (entries[j].node, entries[j].order) := by
    intro j hj
    have h := (forall₂_iff_get.mp hentries).2 j (by rw [length_take]; omega) hj
    rw [getElem?_eq_getElem (hj.trans_le hlen)]; simpa using h
  have hcandidates : ∀ j (hj : j < entries.length) (i : Nat),
      i ∈ resumeCandidates [] tasks entries[j] ↔
        (tasks[i]?).map key = some (entries[j].node, entries[j].order) := by
    intro j hj i
    have hentry : entries[j].order.isSome = true := by
      obtain ⟨task, htask, hkey⟩ := map_eq_some_iff.mp (hget j hj)
      have := hordered task (mem_of_getElem? htask)
      rwa [show task.order = entries[j].order from congrArg Prod.snd hkey] at this
    rw [mem_resumeCandidates]
    constructor
    · rintro ⟨-, task, htask, hmatch⟩
      rw [htask, map_some,
        (matchesTask_iff hentry (hordered task (mem_of_getElem? htask))).mp hmatch]
    · intro h
      obtain ⟨task, htask, hkey⟩ := map_eq_some_iff.mp h
      exact ⟨rfl, task, htask,
        (matchesTask_iff hentry (hordered task (mem_of_getElem? htask))).mpr hkey⟩
  constructor
  · rintro ⟨positions, -, hall⟩ j hj i key hjkey hikey
    have hone := (forall₂_iff_get.mp hall).2 j hj (by rw [← hall.length_eq]; exact hj)
    have hmem := resumeCandidates_eq_singleton_iff.mp hone
    rw [hget j hj] at hjkey
    have hi := (hmem i).mp ((hcandidates j hj i).mpr (hikey.trans hjkey.symm))
    have hj' := (hmem j).mp ((hcandidates j hj j).mpr (hget j hj))
    exact hi.trans hj'.symm
  · intro hunique
    -- entry `j` is matched with task `j`
    refine ⟨range entries.length, nodup_range, ?_⟩
    rw [forall₂_iff_get]
    refine ⟨by simp, fun j hj _ => ?_⟩
    simp only [get_eq_getElem, getElem_range]
    rw [resumeCandidates_eq_singleton_iff]
    intro i
    rw [hcandidates j hj]
    exact ⟨fun h => hunique j hj i _ (hget j hj) h, fun h => h ▸ hget j hj⟩

end Stored

/-! ## 3. Answering the interrupts -/

variable {tasks : List CheckpointTask} {value : Json} {status : Status} {state : State}

theorem resumeCandidates_of_fresh {values : List (Nat × Json)} {entry : InterruptMetadata}
    {position : Nat} (h : resumeCandidates [] tasks entry = [position])
    (hfresh : contains position values = false) :
    resumeCandidates values tasks entry = [position] := by
  rw [resumeCandidates_eq_singleton_iff] at h ⊢
  intro k
  rw [mem_resumeCandidates]
  constructor
  · rintro ⟨-, hmatch⟩; exact (h k).mp (mem_resumeCandidates.mpr ⟨rfl, hmatch⟩)
  · rintro rfl; exact ⟨hfresh, (mem_resumeCandidates.mp ((h k).mpr rfl)).2⟩

theorem matchInterrupts_error {value : Json} {tasks : List CheckpointTask} {count : Nat}
    {entries : List InterruptMetadata} {positions : List Nat} {values : List (Nat × Json)}
    {node : Bytes} {status : Status} (hnodup : positions.Nodup)
    (hall : Forall₂ (fun entry position => resumeCandidates [] tasks entry = [position])
      entries positions)
    (hfresh : ∀ position ∈ positions, contains position values = false)
    (h : matchInterrupts value tasks count values entries = .error (node, status)) :
    ∃ entry, resumeValueForInterrupt value entry count = .error status := by
  induction hall generalizing values with
  | nil => cases h
  | @cons entry position entries positions hone _ ih =>
    rw [nodup_cons] at hnodup
    unfold matchInterrupts at h
    rw [resumeCandidates_of_fresh hone (hfresh position mem_cons_self)] at h
    cases hvalue : resumeValueForInterrupt value entry count with
    | error =>
      rw [hvalue] at h
      cases h; exact ⟨entry, hvalue⟩
    | ok =>
      rw [hvalue] at h
      refine ih hnodup.2 (fun other hother => ?_) h
      have hne : position ≠ other := fun heq => hnodup.1 (heq ▸ hother)
      have hold := hfresh other (mem_cons_of_mem _ hother)
      unfold contains at hold ⊢
      rw [find_set_ne hne, hold]

/-- The status tells the caller that an interrupt has no task, or more than one. -/
def Unmatched (status : Status) : Prop :=
  ∃ node, status = notPending node ∨ status = multipleMatches node

theorem not_unmatched_of_code (h : status.code ≠ .failedPrecondition) : ¬ Unmatched status := by
  rintro ⟨node, rfl | rfl⟩ <;> exact h rfl

theorem not_unmatched_of_resumeValueForInterrupt {entry : InterruptMetadata} {count : Nat}
    (h : resumeValueForInterrupt value entry count = .error status) : ¬ Unmatched status := by
  have hmissing : ∀ name, ¬ Unmatched (.failedPrecondition
      (lit "resume value missing for interrupted node: " ++ name)) := by
    rintro name ⟨node, heq | heq⟩
    all_goals
      -- The texts differ in their eighth byte.
      have h7 := congrArg (fun status : Status => status.message[7]?) heq
      simp only [notPending, multipleMatches, Status.failedPrecondition] at h7
      rw [getElem?_append_left (by decide), getElem?_append_left (by decide)] at h7
      exact absurd h7 (by decide)
  unfold resumeValueForInterrupt at h
  split at h
  · split at h
    · split at h
      · cases h
      · split_ifs at h
    · cases h; exact not_unmatched_of_code (by decide)
  · by_cases hcount : count ≤ 1
    · rw [if_pos hcount] at h; cases h
    rw [if_neg hcount] at h
    split at h
    · split at h
      · cases h
      · split at h
        · cases h
        · cases h; exact hmissing _
    · cases h; exact not_unmatched_of_code (by decide)

theorem readUnsigned_code {key : Bytes} {fallback : Option Nat} {message : String}
    (h : readUnsigned value key fallback message = .error status) :
    status.code = .invalidArgument := by
  unfold readUnsigned at h
  split at h <;> cases h
  rfl

theorem interruptMetadataFromJson_code {fallback : Nat}
    (h : interruptMetadataFromJson value fallback = .error status) :
    status.code = .invalidArgument := by
  unfold interruptMetadataFromJson at h
  split at h
  · split at h
    · rcases bind_eq_error.mp h with h | ⟨id, -, h⟩
      · unfold readInterruptId at h
        split at h <;> cases h
        rfl
      rcases bind_eq_error.mp h with h | ⟨step, -, h⟩
      · exact readUnsigned_code h
      rcases bind_eq_error.mp h with h | ⟨values, -, h⟩
      · unfold readResumeValues at h
        split at h <;> cases h
        rfl
      rcases bind_eq_error.mp h with h | ⟨order, -, h⟩
      · exact readUnsigned_code h
      · cases h
    · cases h; rfl
  · cases h; rfl

theorem interruptMetadataFromState_code (h : interruptMetadataFromState state = .error status) :
    status.code = .invalidArgument := by
  unfold interruptMetadataFromState at h
  split at h
  · cases h
  · rcases bind_eq_error.mp h with h | ⟨step, -, h⟩
    · exact readUnsigned_code h
    split at h
    · obtain ⟨item, -, hitem⟩ := mapM_eq_error h
      exact interruptMetadataFromJson_code hitem
    · cases h; rfl
    · rcases bind_eq_error.mp h with h | ⟨parsed, -, h⟩
      · exact interruptMetadataFromJson_code h
      · cases h
  · cases h; rfl

theorem not_unmatched_of_resumeValues {value : Json} {tasks : List CheckpointTask} {state : State}
    {node : Bytes} {status : Status}
    (hmatched : ∀ entries, interruptMetadataFromState state = .ok entries →
      entries ≠ [] ∧ Matched entries tasks)
    (h : resumeValues value tasks state = .error (node, status)) : ¬ Unmatched status := by
  unfold resumeValues at h
  split at h
  · rename_i hparse
    cases h
    refine not_unmatched_of_code ?_
    rw [interruptMetadataFromState_code hparse]; decide
  · rename_i hparse
    exact absurd rfl (hmatched _ hparse).1
  · rename_i metadata rest hparse
    obtain ⟨positions, hnodup, hall⟩ := (hmatched _ hparse).2
    obtain ⟨entry, hentry⟩ := matchInterrupts_error hnodup hall (fun _ _ => rfl) h
    exact not_unmatched_of_resumeValueForInterrupt hentry

/-! ## 4. Paused super-steps -/

section Values

variable (run : GraphRun σ) (ctx : StepContext) (st : RunState σ)

def interruptedTasks : List CheckpointTask :=
  (interruptedOf (run.stepClassified ctx st)).map (·.1.task)

/-- The tasks a pausing step routes to: those that follow the tasks that were not interrupted. -/
def pausedRouting : Result (List CheckpointTask) := do
  let own ← (run.stepClassified ctx st).executions.mapM (run.writeOf st.core)
  let writes := stableSort writeOrderLess (ctx.pendingWrites ++ own)
  let merged ← run.mergeWrites st.result.state writes
  run.routeAll (st.withState merged).core ctx.nextStep []
    (writes.filter (!isInterruptedWrite (interruptedOf (run.stepClassified ctx st)) ·))

end Values

section Paused

variable {run : GraphRun σ} {ctx : StepContext} {st st' : RunState σ} {result : RunResult}
  {writes : List CheckpointWrite} {merged : State} {routed : List CheckpointTask}

theorem Paused.pausedRouting (h : Paused run ctx st result st' writes merged routed) :
    run.pausedRouting ctx st = .ok routed := by
  obtain ⟨own, hown, rfl⟩ := h.merging.collected
  unfold GraphRun.pausedRouting
  refine bind_eq_ok.mpr ⟨own, mapM_eq_ok_iff.mpr hown, ?_⟩
  exact bind_eq_ok.mpr ⟨merged, h.merging.merge, h.routing⟩

theorem routeFromWrite_normal {write : CheckpointWrite} {step : Nat} {before : List CheckpointTask}
    (hbefore : Normal before) (h : run.routeFromWrite result step write before = .ok routed) :
    Normal routed := by
  unfold routeFromWrite at h
  split_ifs at h
  · cases h; exact hbefore.appendTasks _
  · obtain ⟨tasks, -, h⟩ := of_bind h
    cases h; exact hbefore.appendTasks _

theorem routeAll_normal {step : Nat} {before : List CheckpointTask} (hbefore : Normal before)
    (h : run.routeAll result step before writes = .ok routed) : Normal routed := by
  induction writes generalizing before with
  | nil => cases h; exact hbefore
  | cons write writes ih =>
    obtain ⟨next, hnext, h⟩ := of_bind h
    exact ih (routeFromWrite_normal hbefore hnext) h

theorem interruptedTasks_settled (run : GraphRun σ) (loop : LoopState) (st : RunState σ) :
    ∀ task ∈ run.interruptedTasks (stepContext loop st.result) st,
      task.Settled st.result.checkpointNamespace := by
  intro task htask
  obtain ⟨pair, hpair, rfl⟩ := mem_map.mp htask
  obtain ⟨index, -, hat⟩ := mem_filterMap.mp hpair
  obtain ⟨execution, hexecution, hmap⟩ := bind_eq_some_iff.mp hat
  obtain ⟨interrupt, -, rfl⟩ := map_eq_some_iff.mp hmap
  refine activeTasks_settled loop st.result _ ?_
  rw [← stepClassified_tasks run (stepContext loop st.result) st]
  exact mem_map_of_mem (mem_of_getElem? hexecution)

theorem normal_interrupted_append {interrupted : List CheckpointTask} {ns : Bytes}
    (hsettled : ∀ task ∈ interrupted, task.Settled ns) (hrouted : Normal routed) :
    Normal (interrupted ++ routed) := by
  refine ⟨fun task htask => ?_, pairwise_append.mpr
    ⟨(normal_of_settled hsettled).distinct, hrouted.distinct, fun a ha b _ hboth => ?_⟩⟩
  · rcases mem_append.mp htask with h | h
    · exact (hsettled task h).runnable
    · exact hrouted.runnable task h
  · have horder := (hsettled a ha).order
    simp only [plain, Bool.and_eq_true, isNone_iff_eq_none] at hboth
    simp [hboth.1.2] at horder

theorem Paused.checkpoint {loop : LoopState} {saver : CheckpointSaver σ}
    (h : Paused run (stepContext loop st.result) st result st' writes merged routed)
    (hsaver : run.options.checkpointer = some saver) :
    ∃ c, st'.stored.getLast? = some c ∧ c.state = result.state ∧
      ∃ runId, c.nextTasks = annotateTasks runId st.result.checkpointNamespace c.step
        (run.interruptedTasks (stepContext loop st.result) st ++ routed) := by
  obtain ⟨st₀, hsame, hcalls⟩ := h.stored saver hsaver
  have hsettled := interruptedTasks_settled run loop st
  have hnormal := normal_interrupted_append hsettled (routeAll_normal normal_nil h.routing)
  have hnext : pausedNext (interruptedOf (run.stepClassified (stepContext loop st.result) st)) routed
      = run.interruptedTasks (stepContext loop st.result) st ++ routed := by
    unfold pausedNext
    have htasks := appendTasks_nil_of_settled hsettled
    unfold interruptedTasks at htasks hnormal
    rw [htasks, appendTasks_of_normal hnormal]; rfl
  refine ⟨_, RunState.getLast?_stored hcalls, hsame.state, st₀.result.runId, ?_⟩
  show annotateTasks st₀.result.runId st₀.result.checkpointNamespace _
    (normalizeNextTasks (pausedNext _ routed)) = _
  rw [hnext, normalizeNextTasks_of_normal hnormal, hsame.checkpointNamespace]; rfl

theorem Paused.entries (h : Paused run ctx st result st' writes merged routed)
    {entries : List InterruptMetadata}
    (hentries : interruptMetadataFromState result.state = .ok entries) :
    Forall₂ (fun (task : CheckpointTask) (entry : InterruptMetadata) =>
      task.key = (entry.node, entry.order)) (run.interruptedTasks ctx st) entries := by
  have hall := interruptMetadataFromState_of_with (by simpa using h.interrupted) h.metadata hentries
  rw [forall₂_map_left_iff] at hall
  unfold interruptedTasks
  rw [forall₂_map_left_iff]
  exact hall.imp fun pair entry hentry => by
    rw [key, hentry.1, hentry.2]; rfl

end Paused

theorem firstTasks_of_settled {resumed : GraphRun σ} {world : World σ} {c : Checkpoint} {ns : Bytes}
    {nextTasks : List CheckpointTask} (hinitial : resumed.writeInitialCheckpoint = false)
    (hnext : resumed.nextTasks = nextTasksFromCheckpoint c) (hne : c.nextTasks ≠ [])
    (hsettled : ∀ task ∈ c.nextTasks, task.Settled ns)
    (h : resumed.firstTasks (resumed.identified world) = .ok nextTasks) : nextTasks = c.nextTasks := by
  unfold firstTasks at h
  rw [hinitial, Bool.false_and, if_neg (by simp), hnext, nextTasksFromCheckpoint, if_pos hne] at h
  rw [← Except.ok.inj h]; exact appendTasks_nil_of_settled hsettled

theorem interruptMetadataFromState_of_cleaned {cleaned : State}
    (h : withoutRunErrorMetadata state = .ok cleaned) :
    interruptMetadataFromState cleaned = interruptMetadataFromState state := by
  unfold interruptMetadataFromState
  rw [State.view_of_fromJsonValue h, find_erase_ne (by decide)]

/-- A paused run can be resumed exactly if the stored keys are unambiguous: then, and only then,
    every stored entry matches one stored task and no two the same one, and a run that continues
    the checkpoint with any command is not rejected for want of a task or for having several. -/
theorem paused_entries_match_iff_no_clash {run : GraphRun σ} {world : World σ} {loop : LoopState}
    {st st' : RunState σ} {result : RunResult} {saver : CheckpointSaver σ}
    (h : LeavesAt run world loop st (.done result) st') (hpaused : result.status = .paused)
    (hsaver : run.options.checkpointer = some saver) :
    ∃ c routed, st'.stored.getLast? = some c ∧
      run.pausedRouting (stepContext loop st.result) st = .ok routed ∧
      (∀ entries, interruptMetadataFromState c.state = .ok entries → (Matched entries c.nextTasks ↔
          NoClash (run.interruptedTasks (stepContext loop st.result) st) routed)) ∧
      (NoClash (run.interruptedTasks (stepContext loop st.result) st) routed →
        ∀ (resumed : GraphRun σ) (world' : World σ) (nextTasks : List CheckpointTask)
          (cleaned : State) (value : Json) (node : Bytes) (status : Status),
          resumed.writeInitialCheckpoint = false → resumed.state = c.state →
          resumed.nextTasks = nextTasksFromCheckpoint c →
          resumed.firstTasks (resumed.identified world') = .ok nextTasks →
          resumed.cleanedState = .ok cleaned →
          resumeValues value nextTasks cleaned = .error (node, status) → ¬ Unmatched status) := by
  have hexit := (superStep_ends run loop st).error h.leaves
  rcases hexit with ⟨hcompleted, -⟩ | ⟨writes, merged, routed, paused⟩
  · rw [hpaused] at hcompleted; cases hcompleted
  obtain ⟨c, hlast, hstate, runId, hnext⟩ := paused.checkpoint hsaver
  have hsettled := interruptedTasks_settled run loop st
  have hrouted := routeAll_normal normal_nil paused.routing
  have hnormal := normal_interrupted_append hsettled hrouted
  have hstored : ∀ task ∈ c.nextTasks, task.Settled st.result.checkpointNamespace := by
    rw [hnext]; exact settled_annotateTasks hnormal.runnable
  have hmatched : ∀ entries, interruptMetadataFromState c.state = .ok entries →
      (Matched entries c.nextTasks ↔
        NoClash (run.interruptedTasks (stepContext loop st.result) st) routed) := by
    intro entries hentries
    rw [hstate] at hentries
    have hkeys := paused.entries hentries
    have hlength := hkeys.length_eq
    -- the interrupted tasks come first among the stored ones, in the order of their entries
    have htake : c.nextTasks.take entries.length
        = run.interruptedTasks (stepContext loop st.result) st := by
      rw [hnext, ← hlength, annotateTasks, mapIdx_append, ← annotateTasks,
        annotateTasks_of_settled hsettled, take_left]
    rw [matched_iff_keyUnique (fun task ht => (hstored task ht).order) (by rw [htake]; exact hkeys),
      ← hlength, hnext, keyUnique_iff_noClash hsettled hrouted.runnable]
  refine ⟨c, routed, hlast, paused.pausedRouting, hmatched, ?_⟩
  -- the resumed run reads the stored tasks back as they are, and its cleaned state the entries
  intro hclash resumed world' nextTasks cleaned value node status hinitial hres hresnext hfirst
    hcleaned herror
  have hne : c.nextTasks ≠ [] := by
    intro hnil
    have hlen := congrArg length (hnext.symm.trans hnil)
    rw [length_annotateTasks, length_append] at hlen
    have := length_pos_iff.mpr paused.interrupted
    simp only [interruptedTasks, length_map, length_nil] at hlen; omega
  rw [firstTasks_of_settled hinitial hresnext hne hstored hfirst] at herror
  rw [cleanedState, hinitial, if_neg (by simp), hres] at hcleaned
  refine not_unmatched_of_resumeValues (fun entries hentries => ?_) herror
  rw [interruptMetadataFromState_of_cleaned hcleaned] at hentries
  refine ⟨fun hnil => ?_, (hmatched entries hentries).mpr hclash⟩
  rw [hstate] at hentries
  have hlength := (paused.entries hentries).length_eq
  have := length_pos_iff.mpr paused.interrupted
  rw [hnil] at hlength
  simp only [interruptedTasks, length_map, length_nil] at hlength; omega

def interruptingNode (id : Bytes) : NodeSpec := constantNode { interrupt := some { id := id } }

/-- A new run of nodes `b` and `a`, of which `a` asks for an answer, on an empty saver. -/
def askingRun (edges : List (Bytes × List Bytes)) : GraphRun InMemoryStore :=
  CompiledStateGraph.invoke countingHost
    { nodes := [(lit "b", constantNode {}), (lit "a", interruptingNode (lit "i"))]
      edges := (START, [lit "b", lit "a"]) :: edges } .empty
    { runId := lit "r", threadId := lit "t", checkpointer := some inMemorySaver }

/-- Only `a` is interrupted and nothing is routed, so the keys are unambiguous. -/
theorem paused_entries_match_iff_no_clash_asking :
    ∃ loop st result st' c routed, LeavesAt (askingRun []) { saver := {} } loop st (.done result) st' ∧
      st'.stored.getLast? = some c ∧
      NoClash ((askingRun []).interruptedTasks (stepContext loop st.result) st) routed ∧
      (∀ entries, interruptMetadataFromState c.state = .ok entries → Matched entries c.nextTasks) ∧
      ∀ (resumed : GraphRun InMemoryStore) (world' : World InMemoryStore)
        (nextTasks : List CheckpointTask) (cleaned : State) (value : Json) (node : Bytes)
        (status : Status), resumed.writeInitialCheckpoint = false → resumed.state = c.state →
        resumed.nextTasks = nextTasksFromCheckpoint c →
        resumed.firstTasks (resumed.identified world') = .ok nextTasks →
        resumed.cleanedState = .ok cleaned →
        resumeValues value nextTasks cleaned = .error (node, status) → ¬ Unmatched status := by
  obtain ⟨loop, st, result, st', hleaves, htest⟩ := leavesAt_of_firstStepReturns
    (show (askingRun []).firstStepReturns { saver := {} } (fun loop st result _ =>
      result.status = .paused &&
        ((askingRun []).interruptedTasks (stepContext loop st.result) st).length = 1 &&
        (askingRun []).pausedRouting (stepContext loop st.result) st = .ok []) = true by
      decide +kernel)
  simp only [Bool.and_eq_true, decide_eq_true_eq] at htest
  obtain ⟨⟨hpaused, hone⟩, hnothing⟩ := htest
  obtain ⟨c, routed, hlast, hrouted, hmatched, hnever⟩ :=
    paused_entries_match_iff_no_clash hleaves hpaused rfl
  obtain rfl : routed = [] := Except.ok.inj (hrouted.symm.trans hnothing)
  have hclash : NoClash ((askingRun []).interruptedTasks (stepContext loop st.result) st) [] := by
    obtain ⟨task, htask⟩ := length_eq_one_iff.mp hone
    rw [htask]
    exact ⟨nodup_singleton _, fun i task hi => by cases hi⟩
  exact ⟨loop, st, result, st', c, [], hleaves, hlast, hclash,
    fun entries hentries => (hmatched entries hentries).mpr hclash, hnever hclash⟩

/-- The entry of `a` matches both the interrupted task, which was second in its step, and the task
    that `b` routes to `a`, which is second in the stored list. -/
theorem paused_entry_matches_two_tasks :
    ∃ loop st result st' c entries,
      LeavesAt (askingRun [(lit "b", [lit "a"])]) { saver := {} } loop st (.done result) st' ∧
      result.status = .paused ∧ st'.stored.getLast? = some c ∧
      interruptMetadataFromState c.state = .ok entries ∧ ¬ Matched entries c.nextTasks ∧
      resumeValues (.obj [(lit "i", .int 5)]) c.nextTasks c.state
        = .error (lit "a", multipleMatches (lit "a")) := by
  obtain ⟨loop, st, result, st', hleaves, htest⟩ := leavesAt_of_firstStepReturns
    (show (askingRun [(lit "b", [lit "a"])]).firstStepReturns { saver := {} }
      (fun _ _ result st' => result.status = .paused && st'.stored.getLast?.any fun c =>
        (match interruptMetadataFromState c.state with
          | .ok [entry] => resumeCandidates [] c.nextTasks entry = [0, 1]
          | .ok [] | .ok (_ :: _ :: _) | .error _ => false) &&
        resumeValues (.obj [(lit "i", .int 5)]) c.nextTasks c.state
          = .error (lit "a", multipleMatches (lit "a"))) = true by decide +kernel)
  simp only [Bool.and_eq_true, any_eq_true, decide_eq_true_eq] at htest
  obtain ⟨hstatus, c, hc, hentry, hrejected⟩ := htest
  split at hentry
  · rename_i entry hentries
    refine ⟨loop, st, result, st', c, [entry], hleaves, hstatus, hc, hentries, ?_, hrejected⟩
    rintro ⟨positions, -, hall⟩
    cases hall with
    | cons hone =>
      rw [of_decide_eq_true hentry] at hone; cases hone
  all_goals cases hentry

end GraphRun

end LangGraph
