import LangGraph.Graph.Ledger
import LangGraph.Graph.StepPlan
import LangGraph.Lib.ExceptList

/-!
# Runs with a fresh id

A saver refuses a checkpoint whose id the thread already has.  A super-step asks for no id twice, so
that a run whose id is new is refused nothing there: `Room` says which ids are still free.
-/

namespace LangGraph

open EarlyExit InMemorySaver ByteString Ends
open List hiding after

variable {σ : Type}

/-! ## 1. Checkpoint ids -/

/-- The bytes of `-writes-` after the dash they begin with. -/
def writesMark : Bytes := lit "writes-"

theorem checkpointIdFor_injective {runId : Bytes} {m m' j j' : Nat} {s s' : CheckpointSource}
    (h : checkpointIdFor runId m j s = checkpointIdFor runId m' j' s') :
    m = m' ∧ (s = .taskWrites ↔ s' = .taskWrites) ∧ (s = .taskWrites → j = j') := by
  have hid : ∀ (m j : Nat) (s : CheckpointSource), checkpointIdFor runId m j s
      = runId ++ lit "-step-" ++ (decimal m ++
        if s = .taskWrites then 45 :: (writesMark ++ decimal j) else []) := by
    intro m j s
    have hmark : lit "-writes-" = 45 :: writesMark := by decide
    cases s <;> simp [checkpointIdFor, hmark]
  have hdash : ∀ n, (45 : UInt8) ∉ decimal n := fun n => notMem_decimal (.inl (by decide))
  rw [hid, hid] at h
  replace h := append_cancel_left h
  by_cases hs : s = .taskWrites
  · by_cases hs' : s' = .taskWrites
    · rw [if_pos hs, if_pos hs'] at h
      obtain ⟨hm, hj⟩ := append_cons_inj (hdash m) (hdash m') h
      exact ⟨decimal_injective hm, iff_of_true hs hs', fun _ =>
        decimal_injective (append_cancel_left hj)⟩
    · rw [if_pos hs, if_neg hs', append_nil] at h
      exact absurd (h ▸ mem_append_right _ mem_cons_self) (hdash m')
  · by_cases hs' : s' = .taskWrites
    · rw [if_neg hs, if_pos hs', append_nil] at h
      exact absurd (h ▸ mem_append_right _ mem_cons_self) (hdash m)
    · rw [if_neg hs, if_neg hs', append_nil, append_nil] at h
      exact ⟨decimal_injective h, iff_of_false hs hs', fun h => absurd h hs⟩

theorem checkpointIdFor_ne_nil (runId : Bytes) (m j : Nat) (s : CheckpointSource) :
    checkpointIdFor runId m j s ≠ [] := by
  cases s <;> simp [checkpointIdFor, decimal_ne_nil]

/-! ## 2. What the saver accepts -/

/-- A write the saver takes: it names its node and its metadata is an object. -/
def CheckpointWrite.Storable (write : CheckpointWrite) : Prop :=
  write.nodeId ≠ [] ∧ write.metadata.isObject = true

theorem InMemorySaver.put_accepts {c : Checkpoint} {store : InMemoryStore} (hthread : c.threadId ≠ [])
    (hid : c.checkpointId ≠ [])
    (hfree : ∀ d ∈ threadCheckpoints store c.threadId,
      d.checkpointNamespace = c.checkpointNamespace → d.checkpointId ≠ c.checkpointId) :
    (put c store).1 = .ok () := by
  have hnone : (threadCheckpoints store c.threadId).any (sameName · c) = false := by
    rw [any_eq_false]
    intro d hd hsame
    simp only [sameName, Bool.and_eq_true, decide_eq_true_eq] at hsame
    exact hfree d hd hsame.1 hsame.2
  simp [put, validateCheckpointForStore, hthread, hid, hnone]

theorem InMemorySaver.putWrites_accepts {set : CheckpointWriteSet} {store : InMemoryStore}
    (hthread : set.threadId ≠ []) (hid : set.checkpointId ≠ []) (htask : set.taskId ≠ [])
    (hwrites : ∀ write ∈ set.writes, write.Storable) : (putWrites set store).1 = .ok () := by
  have hnormal : ∃ writes, set.writes.zipIdx.mapM (fun entry => normalizeWrite set entry.2 entry.1)
      = .ok writes := by
    cases hmap : set.writes.zipIdx.mapM (fun entry => normalizeWrite set entry.2 entry.1) with
    | ok writes => exact ⟨writes, rfl⟩
    | error =>
      obtain ⟨entry, hentry, herror⟩ := ExceptList.mapM_eq_error hmap
      obtain ⟨hnode, hmeta⟩ := hwrites _ (fst_mem_of_mem_zipIdx hentry)
      simp [normalizeWrite, hnode, hmeta] at herror
  obtain ⟨writes, hmap⟩ := hnormal
  have hset : normalizeWriteSet set = .ok { set with writes := writes } := by
    rw [normalizeWriteSet, if_neg hthread, if_neg hid, if_neg htask, hmap]; rfl
  rw [putWrites, hset]

/-- The saver refuses a checkpoint only if it holds one of the same thread, namespace and id; `has`
    tells which names a content holds. -/
structure RefusesOnlyExisting (saver : CheckpointSaver σ) (has : σ → Bytes → Bytes → Bytes → Prop) :
    Prop where
  put : ∀ c content, c.threadId ≠ [] → c.checkpointId ≠ [] →
    ¬ has content c.threadId c.checkpointNamespace c.checkpointId → (saver.put c content).1 = .ok ()
  has_put : ∀ {c content thread ns id}, has (saver.put c content).2 thread ns id →
    has content thread ns id ∨
      (thread = c.threadId ∧ ns = c.checkpointNamespace ∧ id = c.checkpointId)
  putWrites : ∀ set content, set.threadId ≠ [] → set.checkpointId ≠ [] → set.taskId ≠ [] →
    (∀ write ∈ set.writes, write.Storable) → (saver.putWrites set content).1 = .ok ()
  has_putWrites : ∀ {set content thread ns id}, has (saver.putWrites set content).2 thread ns id →
    has content thread ns id

def InMemorySaver.Has (store : InMemoryStore) (thread ns id : Bytes) : Prop :=
  ∃ d ∈ threadCheckpoints store thread, d.checkpointNamespace = ns ∧ d.checkpointId = id

theorem inMemorySaver_refusesOnlyExisting : RefusesOnlyExisting inMemorySaver Has where
  put c content hthread hid hnone := by
    refine put_accepts hthread hid fun d hd hns hsame => hnone ⟨d, hd, hns, hsame⟩
  has_put := by
    rintro c content thread ns id ⟨d, hd, hns, hid⟩
    cases hput : (put c content).1 with
    | error =>
      rw [show (inMemorySaver.put c content).2 = content from put_error hput] at hd
      exact .inl ⟨d, hd, hns, hid⟩
    | ok =>
      rcases (mem_threadCheckpoints_put hput).mp hd with hd | ⟨hthread, rfl⟩
      · exact .inl ⟨d, hd, hns, hid⟩
      · exact .inr ⟨hthread, hns.symm, hid.symm⟩
  putWrites set content := putWrites_accepts
  has_putWrites := by
    rintro set content thread ns id ⟨d, hd, hname⟩
    rw [show threadCheckpoints (inMemorySaver.putWrites set content).2 thread = _ from
      threadCheckpoints_putWrites _ _ _] at hd
    exact ⟨d, hd, hname⟩

/-- The run's saver, if it has one, refuses existing names only. -/
def GraphRun.StoresIn (run : GraphRun σ) (has : σ → Bytes → Bytes → Bytes → Prop) : Prop :=
  ∀ saver, run.options.checkpointer = some saver → RefusesOnlyExisting saver has

theorem GraphRun.storesIn_inMemorySaver {run : GraphRun InMemoryStore}
    (h : run.options.checkpointer = some inMemorySaver) : run.StoresIn Has := by
  intro saver hsaver
  cases h.symm.trans hsaver; exact inMemorySaver_refusesOnlyExisting

/-! ## 3. Ids that are still free -/

/-- The id comes after those used so far: it is of a step after `n`, or of step `n` and either not
    of task writes or of at least `k` of them. -/
def ComesAfter (n : Nat) (k : Option Nat) (m j : Nat) (source : CheckpointSource) : Prop :=
  n < m ∨ (m = n ∧ (source = .taskWrites → ∃ k' ∈ k, k' ≤ j))

/-- The saver holds none of the names that the run may still ask for, and nothing was refused so
    far. -/
structure Room (has : σ → Bytes → Bytes → Bytes → Prop) (n : Nat) (k : Option Nat)
    (st : RunState σ) : Prop where
  thread : st.result.threadId ≠ []
  free : ∀ {m j : Nat} {source : CheckpointSource}, ComesAfter n k m j source →
    ¬ has st.world.saver st.result.threadId st.result.checkpointNamespace
      (checkpointIdFor st.result.runId m j source)
  calls : ∀ call ∈ st.calls, call.2 = .ok ()

def CheckpointRequest.after (request : GraphRun.CheckpointRequest) : Nat × Option Nat :=
  if request.source = .taskWrites then (request.step, some (request.pending.length + 1))
  else (request.step + 1, some 0)

open CheckpointRequest (after)

section Room

variable {has : σ → Bytes → Bytes → Bytes → Prop} {n : Nat} {k : Option Nat} {st st' : RunState σ}

theorem Room.mono {n' : Nat} {k' : Option Nat} (h : Room has n k st)
    (hafter : ∀ {m j : Nat} {source : CheckpointSource}, ComesAfter n' k' m j source →
      ComesAfter n k m j source) : Room has n' k' st :=
  ⟨h.thread, fun hlater => h.free (hafter hlater), h.calls⟩

theorem Room.last (h : Room has n k st) : Room has n none st :=
  h.mono fun hlater => by
    rcases hlater with hlt | ⟨rfl, hwrites⟩
    · exact .inl hlt
    · refine .inr ⟨rfl, fun hsource => ?_⟩
      obtain ⟨_, hmem, -⟩ := hwrites hsource
      cases hmem

theorem Room.nextStep (h : Room has n k st) : Room has (n + 1) (some 0) st :=
  h.mono fun hlater => by
    rcases hlater with hlt | ⟨rfl, -⟩
    · exact .inl (by omega)
    · exact .inl (by omega)

theorem Room.same (h : Room has n k st) (hworld : st'.world = st.world) (hcalls : st'.calls = st.calls)
    (hrun : st'.result.runId = st.result.runId) (hthread : st'.result.threadId = st.result.threadId)
    (hns : st'.result.checkpointNamespace = st.result.checkpointNamespace) : Room has n k st' where
  thread := hthread ▸ h.thread
  free := by
    rw [hworld, hthread, hns, hrun]; exact h.free
  calls := hcalls ▸ h.calls

theorem not_comesAfter_self {request : GraphRun.CheckpointRequest} {runId : Bytes} {m j : Nat}
    {source : CheckpointSource}
    (h : ComesAfter (after request).1 (after request).2 m j
      source) :
    checkpointIdFor runId request.step request.pending.length request.source
      ≠ checkpointIdFor runId m j source := by
  intro hid
  obtain ⟨hm, hsource, hj⟩ := checkpointIdFor_injective hid
  unfold after at h
  split_ifs at h with htask
  · rcases h with hlt | ⟨-, hwrites⟩
    · exact absurd hm (by simpa using hlt.ne)
    · obtain ⟨k', hk', hle⟩ := hwrites (hsource.mp htask)
      cases hk'
      have := hj htask; omega
  · rcases h with hlt | ⟨heq, -⟩
    · simp only at hlt; omega
    · simp only at heq; omega

theorem comesAfter_of_after {request : GraphRun.CheckpointRequest} {m j : Nat}
    {source : CheckpointSource} (hid : request.source = .taskWrites →
      ∃ k' ∈ k, k' ≤ request.pending.length)
    (h : ComesAfter (after request).1 (after request).2 m j
      source) : ComesAfter request.step k m j source := by
  unfold after at h
  split_ifs at h with htask
  · rcases h with hlt | ⟨heq, hwrites⟩
    · exact .inl hlt
    · refine .inr ⟨heq, fun hsource => ?_⟩
      obtain ⟨k', hk', hle⟩ := hid htask
      obtain ⟨j', hj', hle'⟩ := hwrites hsource
      cases hj'; exact ⟨k', hk', by omega⟩
  · rcases h with hlt | ⟨heq, -⟩
    · exact .inl (by simp only at hlt; omega)
    · exact .inl (by simp only at heq; omega)

end Room

namespace GraphRun

variable {has : σ → Bytes → Bytes → Bytes → Prop} {run : GraphRun σ} {n : Nat} {k : Option Nat}
  {st : RunState σ}

theorem putCheckpoint_room (hsaver : run.StoresIn has)
    (room : Room has n k st) {request : CheckpointRequest} (hstep : request.step = n)
    (hid : request.source = .taskWrites → ∃ k' ∈ k, k' ≤ request.pending.length)
    (hpending : ∀ write ∈ request.pending, write.Storable) :
    Room has (after request).1 (after request).2
      (run.putCheckpoint request st).2 := by
  subst hstep
  have hsame := run.putCheckpoint_sameRun st request
  have hkeep := room.mono (comesAfter_of_after hid)
  cases hgiven : run.options.checkpointer with
  | none =>
    obtain ⟨hcontent, hcalls⟩ := run.putCheckpoint_noSaver st hgiven request
    refine ⟨hsame.threadId ▸ room.thread, ?_, hcalls ▸ room.calls⟩
    rw [hsame.threadId, hsame.checkpointNamespace, hsame.runId, hcontent]
    exact hkeep.free
  | some saver =>
    have law := hsaver saver hgiven
    have hput : (saver.put (run.checkpointOf request st) st.world.saver).1 = .ok () :=
      law.put _ _ room.thread (checkpointIdFor_ne_nil _ _ _ _) (room.free (.inr ⟨rfl, hid⟩))
    -- The checkpoint itself is not in the way of the later ids.
    have hfree : ∀ {m j : Nat} {source : CheckpointSource},
        ComesAfter (after request).1 (after request).2 m j
          source →
        ¬ has (saver.put (run.checkpointOf request st) st.world.saver).2 st.result.threadId
          st.result.checkpointNamespace (checkpointIdFor st.result.runId m j source) := by
      intro m j source hlater hhas
      rcases law.has_put hhas with hbefore | ⟨-, -, hself⟩
      · exact hkeep.free hlater hbefore
      · exact not_comesAfter_self hlater hself.symm
    obtain ⟨added, hcalls, heffect⟩ := run.putCheckpoint_effect st hgiven request
    generalize run.putCheckpoint request st = stored at *
    generalize hcontent : stored.2.world.saver = content at heffect
    refine ⟨hsame.threadId ▸ room.thread, ?_, ?_⟩
    · rw [hsame.threadId, hsame.checkpointNamespace, hsame.runId, hcontent]
      cases heffect with
      | skipped => exact hkeep.free
      | put => exact hfree
      | putWrites => exact fun hlater hhas => hfree hlater (law.has_putWrites hhas)
    · rw [hcalls]
      intro call hcall
      rcases mem_append.mp hcall with hcall | hcall
      · exact room.calls call hcall
      · cases heffect with
        | skipped => cases hcall
        | put hanswer =>
          rw [mem_singleton.mp hcall, ← hanswer]; exact hput
        | putWrites =>
          rcases mem_cons.mp hcall with rfl | hcall
          · rfl
          · rw [mem_singleton.mp hcall]
            exact law.putWrites _ _ room.thread (checkpointIdFor_ne_nil _ _ _ _)
              (checkpointIdFor_ne_nil _ _ _ _) hpending

/-! ## 4. Super-steps -/

/-- How a stage of step `n` leaves the run: the saver refused nothing, and if no announcement of an
    interrupt was refused either, the last checkpoint of the step can be stored. -/
def ExitRoom (has : σ → Bytes → Bytes → Bytes → Prop) (n : Nat) (exit : Exit) (st : RunState σ) :
    Prop :=
  (∀ call ∈ st.calls, call.2 = .ok ()) ∧
    ((∀ entry ∈ st.log, entry.1.type = .interruptRequested → entry.2 = .ok ()) →
      ∀ call, exit = .fail call → Room has n none st)

theorem ExitRoom.of_room {exit : Exit} (h : Room has n k st) : ExitRoom has n exit st :=
  ⟨h.calls, fun _ _ _ => h.last⟩

theorem room_closed (has : σ → Bytes → Bytes → Bytes → Prop) (run : GraphRun σ) (n : Nat)
    (k : Option Nat) :
    ActionClosed run fun st st' => Room has n k st → Room has n k st' where
  refl _ h := h
  trans hab hbc h := hbc (hab h)
  publish _ _ h := h.same rfl rfl rfl rfl rfl
  compute hinternal h := h.same hinternal.world hinternal.calls hinternal.runId hinternal.threadId
    hinternal.checkpointNamespace

theorem ends_room {α : Type} {m : RunM σ α}
    (hm : Keeps (fun st st' => Room has n k st → Room has n k st') m) (room : Room has n k st) :
    Ends m st (fun _ st' => Room has n k st') (ExitRoom has n) :=
  (hm st).mono (fun _ _ h => h room) fun _ _ h => .of_room (h room)

variable {ctx : StepContext}

theorem storeOrExit_room {node : Bytes} {request : CheckpointRequest} (hsaver : run.StoresIn has)
    (room : Room has n k st) (hstep : request.step = n)
    (hid : request.source = .taskWrites → ∃ k' ∈ k, k' ≤ request.pending.length)
    (hpending : ∀ write ∈ request.pending, write.Storable) :
    Ends (run.storeOrExit ctx node request) st
      (fun _ st' => Room has (after request).1 (after request).2 st')
      (ExitRoom has n) := by
  have hroom := putCheckpoint_room hsaver room hstep hid hpending
  unfold storeOrExit
  simp only [ends_bind, ends_act]
  split
  · exact hroom
  · refine ⟨?_, fun _ call hcall => by cases hcall⟩
    exact ((room_closed has run _ _).publish _ _ hroom).calls

theorem writeOf_storable {result : RunResult} {execution : NodeExecution} {write : CheckpointWrite}
    (hnode : execution.task.nodeId ≠ []) (h : run.writeOf result execution = .ok write) :
    write.Storable := by
  refine ⟨(writeOf_ids h).2.1 ▸ hnode, ?_⟩
  unfold writeOf writeFromExecution at h
  obtain ⟨update, -, h⟩ := ExceptList.of_bind h
  split at h
  · cases h; rfl
  · obtain ⟨tasks, -, h⟩ := ExceptList.of_bind h
    cases h; rfl

theorem WritesOf.storable {result : RunResult} {executions : List NodeExecution}
    {writes : List CheckpointWrite} (h : run.WritesOf result executions writes)
    (hnodes : ∀ execution ∈ executions, execution.task.nodeId ≠ []) :
    ∀ write ∈ writes, write.Storable := by
  induction h with
  | nil => simp
  | cons hhead _ ih =>
    intro write hwrite
    rcases mem_cons.mp hwrite with rfl | hwrite
    · exact writeOf_storable (hnodes _ mem_cons_self) hhead
    · exact ih (fun e he => hnodes e (mem_cons_of_mem _ he)) write hwrite

theorem stepClassified_nodeId (run : GraphRun σ) (loop : LoopState)
    (st : RunState σ) :
    ∀ execution ∈ (run.stepClassified (stepContext loop st.result) st).executions,
      execution.task.nodeId ≠ [] := by
  intro execution he hnil
  have htask : execution.task ∈ (stepContext loop st.result).activeTasks := by
    rw [← stepClassified_tasks run _ st]; exact mem_map_of_mem he
  have hrunnable := (activeTasks_settled loop st.result _ htask).runnable
  simp [CheckpointTask.runnable, hnil] at hrunnable

theorem publish_refused {event : RuntimeEvent} {status : Status}
    (h : (run.publish event st).1 = .error status) :
    ∃ entry ∈ (run.publish event st).2.log, entry.1.type = event.type ∧ entry.2 ≠ .ok () := by
  have hlog : (run.publish event st).2.log
    = st.log ++ [(run.completeEvent st.result event, (run.publish event st).1)] := rfl
  rw [hlog]
  refine ⟨_, mem_append_right _ (mem_singleton.mpr rfl), rfl, ?_⟩
  rw [h]; nofun

theorem emitInterrupts_refused {next : List CheckpointTask}
    (interrupted : List (NodeExecution × Interrupt)) :
    Ends (run.emitInterrupts ctx next interrupted) st (fun _ _ => True) fun _ st' =>
      ∃ entry ∈ st'.log, entry.1.type = .interruptRequested ∧ entry.2 ≠ .ok () := by
  induction interrupted generalizing st with
  | nil => trivial
  | cons pair rest ih =>
    unfold emitInterrupts
    simp only [ends_bind]
    exact ends_orFail _ (fun _ _ => ih) fun status herror => publish_refused herror

theorem emitInterrupts_room {next : List CheckpointTask}
    {interrupted : List (NodeExecution × Interrupt)} (room : Room has n k st) {m : Nat} :
    Ends (run.emitInterrupts ctx next interrupted) st (fun _ st' => Room has n k st')
      (ExitRoom has m) := by
  have hkept : Keeps (fun st st' => Room has n k st → Room has n k st')
    (run.emitInterrupts ctx next interrupted) := (room_closed has run n k).events.emitInterrupts
  refine ((hkept st).and (emitInterrupts_refused interrupted)).mono (fun _ _ h => h.1 room)
    fun exit st' h => ⟨(h.1 room).calls, fun hlog => ?_⟩
  obtain ⟨entry, hentry, htype, hrefused⟩ := h.2
  exact absurd (hlog entry hentry htype) hrefused

section Stages

variable {ctx : StepContext} (hsaver : run.StoresIn has)
  (hstep : ctx.nextStep = n)
include hsaver hstep

variable {writes : List CheckpointWrite}

theorem collectWrites_room {persist : Bool} {executions : List NodeExecution} {first : Nat}
    (room : Room has n (some first) st) (hfirst : first ≤ writes.length + 1)
    (hwrites : ∀ write ∈ writes, write.Storable)
    (hnodes : ∀ execution ∈ executions, execution.task.nodeId ≠ []) :
    Ends (run.collectWrites ctx persist writes executions) st (fun _ st' => Room has n none st')
      (ExitRoom has n) := by
  induction executions generalizing writes first st with
  | nil => exact room.last
  | cons execution rest ih =>
    have hrest := fun e he => hnodes e (mem_cons_of_mem execution he)
    unfold collectWrites
    rw [ends_bind, ends_get]
    cases hwrite : run.writeFromExecution st.result execution.task (execution.output.getD {}) with
    | error =>
      have hclosed := (room_closed has run n (some first)).events
      exact ends_room (hclosed.bind hclosed.nodeFailedIgnored fun _ => hclosed.throwFail _) room
        |>.mono (fun _ _ h => h.last) fun _ _ h => h
    | ok write =>
      have hstorable := writeOf_storable (hnodes execution mem_cons_self) hwrite
      have hall : ∀ w ∈ writes ++ [write], w.Storable := by
        intro w hw
        rcases mem_append.mp hw with hw | hw
        · exact hwrites w hw
        · rw [mem_singleton.mp hw]; exact hstorable
      have hlength : (writes ++ [write]).length = writes.length + 1 := by simp
      split_ifs
      · refine bind (storeOrExit_room hsaver room hstep (fun _ => ⟨first, rfl, ?_⟩) hall)
          fun _ st₁ room₁ => ?_
        · rw [hlength]; exact hfirst
        · rw [after, if_pos rfl] at room₁
          have room₂ : Room has n (some ((writes ++ [write]).length + 1)) st₁ := hstep ▸ room₁
          exact ih room₂ le_rfl hall hrest
      · exact ih room (by omega) hall hrest

theorem prepareWrites_room {classified : Classified} (room : Room has n (some 0) st)
    (hpending : ∀ write ∈ ctx.pendingWrites, write.Storable)
    (hnodes : ∀ execution ∈ classified.executions, execution.task.nodeId ≠ []) :
    Ends (run.prepareWrites ctx classified) st (fun _ st' => Room has n none st') (ExitRoom has n) := by
  unfold prepareWrites
  refine bind (ends_room (room_closed has run _ _).events.emitNodeCompleted room) fun _ st₁ room₁ => ?_
  rw [ends_bind]
  exact collectWrites_room hsaver hstep room₁ (Nat.zero_le _) hpending hnodes

section

variable (room : Room has n k st)

include room

theorem finishParentCommand_room {execution : NodeExecution} :
    Ends (run.finishParentCommand ctx execution writes) st (fun _ _ => False) (ExitRoom has n) := by
  have hclosed := (room_closed has run n k).events
  unfold finishParentCommand
  refine bind (ends_room (walks_effect (hclosed.setStep _)) room) fun _ st₁ room₁ => ?_
  refine bind (ends_room (walks_effect fun st => hclosed.compute
    ⟨rfl, rfl, rfl, rfl, rfl, rfl, rfl, rfl⟩) room₁) fun _ st₂ room₂ => ?_
  refine bind (ends_room (hclosed.announceCompletion trivial) room₂) fun _ st₃ room₃ => ?_
  refine bind (storeOrExit_room hsaver room₃ hstep (by simp) (by simp)) fun _ st₄ room₄ => ?_
  exact ⟨room₄.calls, fun _ call hcall => by cases hcall⟩

theorem pauseStep_room {interrupted : List (NodeExecution × Interrupt)} {node : Bytes} :
    Ends (run.pauseStep ctx interrupted node writes) st (fun _ _ => False) (ExitRoom has n) := by
  have hclosed := (room_closed has run n k).events
  unfold pauseStep
  refine bind (ends_room hclosed.routeWrites room) fun routed st₁ room₁ => ?_
  refine bind (ends_room (walks_effect (hclosed.setStep _)) room₁) fun _ st₂ room₂ => ?_
  rw [ends_bind, ends_get]
  refine bind (ends_room hclosed.orFail room₂) fun state st₃ room₃ => ?_
  refine bind (ends_room (walks_effect fun st => hclosed.withState st state) room₃)
    fun _ st₄ room₄ => ?_
  refine bind (storeOrExit_room hsaver room₄ hstep (by simp) (by simp)) fun _ st₅ room₅ => ?_
  refine bind (emitInterrupts_room room₅) fun _ st₆ room₆ => ?_
  rw [ends_bind, ends_effect, ends_bind, ends_get, ends_throw]
  exact ⟨room₆.calls, fun _ call hcall => by cases hcall⟩

theorem finishStep_room {budgetSteps : Nat} :
    Ends (run.finishStep ctx budgetSteps writes) st (fun _ st' => Room has (n + 1) (some 0) st')
      (ExitRoom has n) := by
  have hclosed := (room_closed has run n k).events
  have hstore : ∀ {st₀ : RunState σ} {request : CheckpointRequest} {loop' : LoopState},
      Room has n k st₀ → request.step = n → request.source ≠ .taskWrites → request.pending = [] →
      Ends (do
        run.storeOrExit ctx ctx.failureNode request
        effect fun st => { st with resumeValuesByTask := [] }
        return loop' : RunM σ LoopState) st₀
        (fun _ st' => Room has (n + 1) (some 0) st') (ExitRoom has n) := by
    intro st₀ request loop' room₀ hrequest hsource hpending
    refine bind (storeOrExit_room hsaver room₀ hrequest (fun h => absurd h hsource)
      (by simp [hpending])) fun _ st₁ room₁ => ?_
    rw [after, if_neg hsource, hrequest] at room₁
    rw [ends_bind, ends_effect, ends_pure]; exact room₁.same rfl rfl rfl rfl rfl
  unfold finishStep
  refine bind (ends_room hclosed.routeWrites room) fun routed st₁ room₁ => ?_
  refine bind (ends_room (walks_effect (hclosed.setStep _)) room₁) fun _ st₂ room₂ => ?_
  dsimp only
  split_ifs
  · refine bind (ends_room (hclosed.announceCompletion trivial) room₂) fun _ st₃ room₃ => ?_
    exact hstore room₃ hstep (by simp) rfl
  · exact hstore room₂ hstep (by simp) rfl

theorem commitStep_room {budgetSteps : Nat} {classified : Classified} :
    Ends (run.commitStep ctx budgetSteps classified writes) st
      (fun _ st' => Room has (n + 1) (some 0) st') (ExitRoom has n) := by
  have hclosed := (room_closed has run n k).events
  unfold commitStep
  refine bind (ends_room hclosed.applyWrites room) fun _ st₁ room₁ => ?_
  split
  · exact (finishParentCommand_room hsaver hstep room₁).mono (fun _ _ h => h.elim) fun _ _ h => h
  · split
    · exact finishStep_room hsaver hstep room₁
    · exact (pauseStep_room hsaver hstep room₁).mono (fun _ _ h => h.elim) fun _ _ h => h

end

end Stages

theorem superStep_room {loop : LoopState} (hsaver : run.StoresIn has)
    (room : Room has (st.result.step + 1) (some 0) st)
    (hpending : ∀ write ∈ loop.pendingWrites, write.Storable) :
    Ends (run.superStep loop) st (fun _ st' => Room has (st.result.step + 2) (some 0) st')
      (ExitRoom has (st.result.step + 1)) := by
  have hclosed := (room_closed has run (st.result.step + 1) (some 0)).events
  have hnodes := stepClassified_nodeId run loop st
  unfold superStep
  rw [ends_bind, ends_get]
  dsimp only
  refine bind ((ends_room hclosed.enterStep room).and (enterStep_ends loop) |>.mono (fun _ _ h => h)
    fun _ _ h => h.1) fun budgetSteps st₁ h₁ => ?_
  obtain ⟨room₁, rfl⟩ := h₁
  refine bind ((ends_room hclosed.executeStep room₁).and (executeStep_ends (.refl _)) |>.mono
    (fun _ _ h => h) fun _ _ h => h.1) fun classified st₂ h₂ => ?_
  obtain ⟨room₂, -, rfl, -⟩ := h₂
  exact bind (prepareWrites_room hsaver rfl room₂ hpending hnodes) fun writes st₄ room₄ =>
    commitStep_room hsaver rfl room₄

theorem StepFailure.storable {loop : LoopState} {st' : RunState σ} {call : FailCall}
    (h : StepFailure run (stepContext loop st.result) st st' call)
    (hpending : ∀ write ∈ loop.pendingWrites, write.Storable) :
    ∀ write ∈ call.failurePendingWrites, write.Storable := by
  have hnodes := stepClassified_nodeId run loop st
  have hjoin : ∀ {executions writes}, run.WritesOf st.core executions writes →
      (∀ e ∈ executions, e ∈ (run.stepClassified (stepContext loop st.result) st).executions) →
      ∀ write ∈ loop.pendingWrites ++ writes, write.Storable := by
    intro executions writes hwrites hsub write hwrite
    rcases mem_append.mp hwrite with hwrite | hwrite
    · exact hpending write hwrite
    · exact hwrites.storable (fun e he => hnodes e (hsub e he)) write hwrite
  have hsucceeded : ∀ e ∈ run.stepSucceeded (stepContext loop st.result) st,
      e ∈ (run.stepClassified (stepContext loop st.result) st).executions := fun e he =>
    mem_of_mem_filter he
  cases h with
  | early _ h =>
    cases h with
    | all | write => exact hpending
    | nodeFailed _ hwrites => exact hjoin hwrites hsucceeded
    | completedBesideFailure hsplit hwrites | writeBesideFailure hsplit hwrites =>
      exact hjoin hwrites fun e he => hsucceeded e (hsplit ▸ mem_append_left _ he)
  | apply => exact hpending
  | route | ending => simp

theorem failRun_room {call : FailCall} (hsaver : run.StoresIn has)
    (room : Room has call.failedStep none st)
    (hpending : ∀ write ∈ call.failurePendingWrites, write.Storable) :
    ∀ entry ∈ (run.failRun call st).2.calls, entry.2 = .ok () := by
  unfold failRun
  dsimp only
  split
  · exact room.calls
  · rename_i failed _
    have hroom : Room has call.failedStep none
        ((setStatus (runStatusFromStatus call.status) st).withState failed) :=
      room.same rfl rfl rfl rfl rfl
    have hput := putCheckpoint_room hsaver hroom (show call.request.step = call.failedStep from rfl)
      (fun h => by cases h) hpending
    split
    · exact hput.calls
    · exact ((room_closed has run _ _).publish _ _ hput).calls

/-! ## 5. Whole runs -/

/-- No checkpoint of the thread and namespace has an id that a run of this name could give. -/
def FreshId (store : InMemoryStore) (thread ns runId : Bytes) : Prop :=
  ∀ d ∈ threadCheckpoints store thread, d.checkpointNamespace = ns →
    ∀ (m j : Nat) (source : CheckpointSource), d.checkpointId ≠ checkpointIdFor runId m j source

/-- The run has a new id, and pending writes that the saver takes. -/
structure Fresh (has : σ → Bytes → Bytes → Bytes → Prop) (run : GraphRun σ) (world : World σ) :
    Prop where
  saver : run.StoresIn has
  id : ∀ m j source, ¬ has world.saver (run.identified world).result.threadId
    run.options.checkpointNamespace (checkpointIdFor (run.identified world).result.runId m j source)
  pending : ∀ write ∈ run.pendingWrites, write.Storable

theorem FreshId.not_has {store : InMemoryStore} {thread ns runId : Bytes}
    (h : FreshId store thread ns runId) (m j : Nat) (source : CheckpointSource) :
    ¬ Has store thread ns (checkpointIdFor runId m j source) := by
  rintro ⟨d, hd, hns, hid⟩; exact h d hd hns m j source hid

theorem identified_threadId (run : GraphRun σ) (world : World σ) :
    (run.identified world).result.threadId ≠ [] := by
  unfold identified assignIds
  by_cases h : run.options.threadId = []
  · simp [h, generatedId, decimal_ne_nil]
  · simp [h]

section Runs

variable {world : World σ} {loop : LoopState}

theorem Fresh.room (fresh : Fresh has run world) (n : Nat) (k : Option Nat) :
    Room has n k (run.identified world) :=
  ⟨identified_threadId run world, fun _ => fresh.id _ _ _,
    by simp [identified, assignIds, initialState]⟩

theorem storeInitial_room {nextTasks : List CheckpointTask}
    (hsaver : run.StoresIn has) (room : Room has run.step k st) :
    Ends (run.storeInitial nextTasks) st (fun _ st' => Room has (run.step + 1) (some 0) st')
      fun _ st' => ∀ call ∈ st'.calls, call.2 = .ok () := by
  unfold storeInitial
  split_ifs
  · have hroom := putCheckpoint_room hsaver room
      (show ({ step := run.step, next := nextTasks, source := .initial } : CheckpointRequest).step
        = run.step from rfl) (fun h => by cases h) (by simp)
    rw [ends_bind, ends_act]
    exact ends_orExit _ (fun _ _ => hroom) fun _ _ => hroom.calls
  · exact room.nextStep

theorem start_room (fresh : Fresh has run world) :
    Ends run.start (run.initialState world) (fun _ st => Room has (run.step + 1) (some 0) st)
      fun _ st => ∀ call ∈ st.calls, call.2 = .ok () := by
  have hkeeps : ∀ {α : Type} {m : RunM σ α} {n : Nat} {st : RunState σ},
      Keeps (fun st st' => Room has n (some 0) st → Room has n (some 0) st') m → Room has n (some 0) st →
      Ends m st (fun _ st' => Room has n (some 0) st') fun _ st' => ∀ call ∈ st'.calls, call.2 = .ok () :=
    fun hm room => (hm _).mono (fun _ _ h => h room) fun _ _ h => (h room).calls
  have hclosed := fun n => (room_closed has run n (some 0)).events
  have room₀ : Room has run.step (some 0) (run.identified world) := fresh.room _ _
  have room₃ : Room has run.step (some 0) (run.announce world).2 := (hclosed _).emit (by nofun) _ room₀
  refine ends_start ?_ room₃.calls fun _ => ?_
  · rintro status st (rfl | rfl)
    · simp [initialState]
    · exact room₀.calls
  refine bind (storeInitial_room fresh.saver room₃) fun _ st₅ room₅ => ?_
  refine bind (hkeeps (hclosed _).cleanRunError room₅) fun _ st₆ room₆ => ?_
  refine bind (hkeeps (hclosed _).applyGivenCommand room₆) fun _ st₇ room₇ => ?_
  rw [ends_bind, ends_get]
  exact bind (hkeeps (hclosed _).orFail room₇) fun _ _ room₈ => room₈

theorem Reaches.room (fresh : Fresh has run world) (h : Reaches run world loop st) :
    Room has (st.result.step + 1) (some 0) st ∧ ∀ write ∈ loop.pendingWrites, write.Storable := by
  induction h with
  | start h =>
    obtain ⟨cleaned, started⟩ := (start_ends run world).ok h
    have hstep : _ = run.step := congrArg RunResult.step started.core
    refine ⟨?_, started.pendingWrites ▸ fresh.pending⟩
    have hroom := (start_room fresh).ok h
    rw [← hstep] at hroom; exact hroom
  | @step loop loop' st st' _ hrun hstep ih =>
    obtain ⟨writes, merged, committed⟩ := (superStep_ends run loop st).ok hstep
    have hnext : st'.result.step = st.result.step + 1 :=
      (congrArg RunResult.step committed.core :)
    refine ⟨?_, by simp [committed.pending]⟩
    rw [hnext]; exact (superStep_room fresh.saver ih.1 ih.2).ok hstep

end Runs

end GraphRun

end LangGraph
