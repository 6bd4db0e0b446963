import LangGraph.Graph.Closure
import LangGraph.Checkpoint.InMemorySaver

/-!
# The calls of a run to the in-memory saver

A run hands its checkpoints to the saver in the order of their steps and of the clock.  `Recorded`
lists the calls a run can have made; every prefix of such a list is one, so that it also describes
what a process leaves behind that stops after any of its calls.
-/

namespace LangGraph

open EarlyExit InMemorySaver

variable {σ : Type}

/-! ## 1. Contents -/

def SaverCall.apply (saver : CheckpointSaver σ) (content : σ) : SaverCall → Result Unit × σ
  | .put checkpoint => saver.put checkpoint content
  | .putWrites set => saver.putWrites set content

def contentAfter (saver : CheckpointSaver σ) (calls : List (SaverCall × Result Unit)) (content : σ) :
    σ :=
  calls.foldl (fun content call => (call.1.apply saver content).2) content

theorem contentAfter_append (saver : CheckpointSaver σ) (calls more : List (SaverCall × Result Unit))
    (content : σ) :
    contentAfter saver (calls ++ more) content
      = contentAfter saver more (contentAfter saver calls content) :=
  List.foldl_append

def storedBy (calls : List (SaverCall × Result Unit)) : List Checkpoint :=
  calls.filterMap fun
    | (.put checkpoint, .ok ()) => some checkpoint
    | _ => none

theorem RunState.stored_eq (st : RunState σ) : st.stored = storedBy st.calls := rfl

theorem storedBy_append (calls more : List (SaverCall × Result Unit)) :
    storedBy (calls ++ more) = storedBy calls ++ storedBy more :=
  List.filterMap_append

variable {c : Checkpoint} {host : Host} {store : InMemoryStore}

theorem storedBy_putWrites {calls : List (SaverCall × Result Unit)} {set : CheckpointWriteSet}
    {answer : Result Unit} : storedBy (calls ++ [(.putWrites set, answer)]) = storedBy calls := by
  rw [storedBy_append]; exact List.append_nil _

theorem mem_storedBy {calls : List (SaverCall × Result Unit)} :
    c ∈ storedBy calls ↔ (SaverCall.put c, .ok ()) ∈ calls := by
  rw [storedBy, List.mem_filterMap]
  constructor
  · rintro ⟨⟨call, answer⟩, hmem, hput⟩
    cases call with
    | putWrites => cases hput
    | put =>
      cases answer with
      | error => cases hput
      | ok =>
        cases hput; exact hmem
  · intro hmem; exact ⟨_, hmem, rfl⟩

/-! ## 2. Sound stores -/

/-- A valid store whose checkpoints were created at readings of the clock before the given one. -/
structure Sound (host : Host) (reads : Nat) (store : InMemoryStore) : Prop where
  valid : Valid store
  dated : ∀ {t : Bytes} {c : Checkpoint}, c ∈ threadCheckpoints store t →
    ∃ i < reads, c.createdAt = host.clock i

/-- The clock does not go back from the given reading on. -/
def Host.Steady (host : Host) (reads : Nat) : Prop :=
  ∀ i j, reads ≤ j → i ≤ j → host.clock i ≤ host.clock j

/-- No checkpoint of the thread and namespace has a greater step. -/
def NotAhead (store : InMemoryStore) (c : Checkpoint) : Prop :=
  ∀ d ∈ threadCheckpoints store c.threadId,
    d.checkpointNamespace = c.checkpointNamespace → d.step ≤ c.step

theorem Host.Steady.mono {reads reads' : Nat} (h : host.Steady reads) (hle : reads ≤ reads') :
    host.Steady reads' :=
  fun i j hj hij => h i j (hle.trans hj) hij

theorem sound_empty (host : Host) (reads : Nat) : Sound host reads {} :=
  ⟨valid_empty, fun h => by cases h⟩

theorem Sound.mono {reads reads' : Nat} (h : Sound host reads store) (hle : reads ≤ reads') :
    Sound host reads' store := by
  refine ⟨h.valid, fun hc => ?_⟩
  obtain ⟨i, hi, hdate⟩ := h.dated hc
  exact ⟨i, hi.trans_le hle, hdate⟩

theorem Sound.put {reads i : Nat} (h : Sound host reads store) (hi : reads ≤ i)
    (hdate : c.createdAt = host.clock i) : Sound host (i + 1) (put c store).2 := by
  cases hput : (InMemorySaver.put c store).1 with
  | error =>
    rw [put_error hput]; exact h.mono (by omega)
  | ok =>
    refine ⟨h.valid.put hput, fun {t d} hd => ?_⟩
    rcases (mem_threadCheckpoints_put hput).mp hd with hd | ⟨-, rfl⟩
    · obtain ⟨j, hj, hdate⟩ := h.dated hd
      exact ⟨j, by omega, hdate⟩
    · exact ⟨i, by omega, hdate⟩

theorem Sound.putWrites {reads : Nat} (h : Sound host reads store)
    (hc : c ∈ threadCheckpoints store c.threadId) (hpending : c.pendingWrites ≠ [])
    (source : CheckpointSource) :
    Sound host reads (putWrites (pendingWriteSet c source) store).2 := by
  refine ⟨h.valid.putWrites hc hpending rfl, fun {t d} hd => ?_⟩
  rw [threadCheckpoints_putWrites] at hd; exact h.dated hd

/-! ## 3. Records of calls -/

/-- Calls of a run on one thread and namespace, from clock reading `first` on: all readings used
    are before `reads`, and no step is greater than `n`. -/
inductive Recorded (host : Host) (first : Nat) (store : InMemoryStore) (thread ns : Bytes) :
    List (SaverCall × Result Unit) → Nat → Nat → Prop
  | nil : Recorded host first store thread ns [] first 0
  | put {calls : List (SaverCall × Result Unit)} {reads n i : Nat} {c : Checkpoint}
      {answer : Result Unit} (h : Recorded host first store thread ns calls reads n)
      (later : reads ≤ i) (inThread : c.threadId = thread) (inNamespace : c.checkpointNamespace = ns)
      (step : n ≤ c.step) (dated : c.createdAt = host.clock i)
      (answered : (InMemorySaver.put c (contentAfter inMemorySaver calls store)).1 = answer) :
      Recorded host first store thread ns (calls ++ [(.put c, answer)]) (i + 1) c.step
  | putWrites {calls : List (SaverCall × Result Unit)} {reads n : Nat} {c : Checkpoint}
      {source : CheckpointSource} {answer : Result Unit}
      (h : Recorded host first store thread ns calls reads n)
      (stored : c ∈ threadCheckpoints (contentAfter inMemorySaver calls store) c.threadId)
      (pending : c.pendingWrites ≠ []) :
      Recorded host first store thread ns (calls ++ [(.putWrites (pendingWriteSet c source), answer)])
        reads n

namespace Recorded

variable {host : Host} {first reads n : Nat} {store : InMemoryStore} {thread ns : Bytes}
  {calls : List (SaverCall × Result Unit)}

section

variable (h : Recorded host first store thread ns calls reads n)

include h

theorem first_le : first ≤ reads := by
  induction h with
  | nil => exact le_rfl
  | put _ later _ _ _ _ _ ih => omega
  | putWrites _ _ _ ih => exact ih

theorem stopped {done : List (SaverCall × Result Unit)} (hdone : done <+: calls) :
    ∃ reads' n', Recorded host first store thread ns done reads' n' ∧ reads' ≤ reads := by
  induction h with
  | nil =>
    rw [List.prefix_nil.mp hdone]; exact ⟨_, _, .nil, le_rfl⟩
  | put h later inThread inNamespace step dated answered ih =>
    rcases List.prefix_concat_iff.mp hdone with rfl | hdone
    · exact ⟨_, _, .put h later inThread inNamespace step dated answered, le_rfl⟩
    · obtain ⟨reads', n', hdone, hle⟩ := ih hdone
      exact ⟨reads', n', hdone, by omega⟩
  | putWrites h stored pending ih =>
    rcases List.prefix_concat_iff.mp hdone with rfl | hdone
    · exact ⟨_, _, .putWrites h stored pending, le_rfl⟩
    · exact ih hdone

theorem sound (hsound : Sound host first store) :
    Sound host reads (contentAfter inMemorySaver calls store) := by
  induction h with
  | nil => exact hsound
  | put _ later _ _ _ dated _ ih =>
    rw [contentAfter_append]; exact ih.put later dated
  | putWrites _ stored pending ih =>
    rw [contentAfter_append]; exact ih.putWrites stored pending _

theorem mem_iff {t : Bytes} {d : Checkpoint} :
    d ∈ threadCheckpoints (contentAfter inMemorySaver calls store) t ↔
      d ∈ threadCheckpoints store t ∨
        d ∈ storedBy calls ∧ t = thread ∧ d.checkpointNamespace = ns := by
  induction h with
  | nil => simp [contentAfter, storedBy]
  | @put calls _ _ _ c answer _ _ inThread inNamespace _ _ answered ih =>
    rw [contentAfter_append, storedBy_append, List.mem_append, @mem_storedBy d [_]]
    show d ∈ threadCheckpoints (InMemorySaver.put c _).2 t ↔ _
    cases answer with
    | error => rw [put_error answered, ih]; simp
    | ok =>
      rw [mem_threadCheckpoints_put answered, ih, inThread]
      grind
  | putWrites _ _ _ ih =>
    rw [contentAfter_append, storedBy_putWrites, ← ih]
    show d ∈ threadCheckpoints (InMemorySaver.putWrites _ _).2 t ↔ _
    rw [threadCheckpoints_putWrites]

theorem inThread {d : Checkpoint} (hd : d ∈ storedBy calls) :
    d.threadId = thread ∧ d.checkpointNamespace = ns := by
  induction h with
  | nil => cases hd
  | @put _ _ _ _ c answer _ _ inThread inNamespace _ _ _ ih =>
    rw [storedBy_append, List.mem_append, @mem_storedBy d [_]] at hd
    rcases hd with hd | hd
    · exact ih hd
    · have heq : (SaverCall.put d, Except.ok ()) = (SaverCall.put c, answer) :=
        List.mem_singleton.mp hd
      cases heq; exact ⟨inThread, inNamespace⟩
  | putWrites _ _ _ ih =>
    rw [storedBy_putWrites] at hd; exact ih hd

theorem step_le {d : Checkpoint} (hd : d ∈ storedBy calls) : d.step ≤ n := by
  induction h with
  | nil => cases hd
  | @put _ _ _ _ c answer _ _ _ _ step _ _ ih =>
    rw [storedBy_append, List.mem_append, @mem_storedBy d [_]] at hd
    rcases hd with hd | hd
    · exact (ih hd).trans step
    · simp only [List.mem_singleton, Prod.mk.injEq, SaverCall.put.injEq] at hd
      rw [hd.1]
  | putWrites _ _ _ ih =>
    rw [storedBy_putWrites] at hd; exact ih hd

/-- The last checkpoint stored is the newest of its thread and namespace exactly if no checkpoint
    from before the calls is ahead of it. -/
theorem head (hsound : Sound host first store) (hclock : host.Steady first) {c : Checkpoint}
    (hlast : (storedBy calls).getLast? = some c) :
    c.threadId ≠ [] ∧ c.threadId = thread ∧ c.checkpointNamespace = ns ∧
      (findCheckpoint (.latest c.threadId c.checkpointNamespace)
        (contentAfter inMemorySaver calls store) = some c ↔ NotAhead store c) := by
  induction h with
  | nil => cases hlast
  | @put calls _ _ _ c' answer h later inThread inNamespace step dated answered ih =>
    rw [storedBy_append] at hlast
    rw [contentAfter_append]
    cases answer with
    | error status =>
      have hsame : contentAfter inMemorySaver [(.put c', .error status)]
          (contentAfter inMemorySaver calls store) = contentAfter inMemorySaver calls store :=
        put_error answered
      rw [show storedBy [(.put c', .error status)] = [] from rfl, List.append_nil] at hlast
      rw [hsame]; exact ih hlast
    | ok =>
      rw [show storedBy [(.put c', .ok ())] = [c'] from rfl, List.getLast?_concat] at hlast
      cases hlast
      refine ⟨(put_ok answered).1, inThread, inNamespace, ?_⟩
      refine (findCheckpoint_latest_put answered (h.sound hsound).valid).trans ⟨?_, ?_⟩
      · -- `putLess` looks at the steps first: a smaller one cannot be the latest
        intro hall d hd hns
        have hless := hall d (h.mem_iff.mpr (.inl hd)) hns
        unfold putLess at hless
        split_ifs at hless with hne
        · have := of_decide_eq_false hless; omega
        · omega
      · intro hall d hd hns
        obtain ⟨i, hi, hdate⟩ := (h.sound hsound).dated hd
        -- at an equal step the clock decides, and it has only moved on
        refine putLess_of_later ?_ ?_
        · rcases h.mem_iff.mp hd with hold | ⟨hnew, -⟩
          · exact hall d hold hns
          · exact (h.step_le hnew).trans step
        · rw [hdate, dated]
          exact hclock i _ (h.first_le.trans later) (hi.le.trans later)
  | putWrites _ _ _ ih =>
    rw [storedBy_putWrites] at hlast
    rw [contentAfter_append]
    show _ ∧ _ ∧ _ ∧ (findCheckpoint _ (InMemorySaver.putWrites _ _).2 = _ ↔ _)
    unfold findCheckpoint
    rw [threadCheckpoints_putWrites]; exact ih hlast

end

end Recorded

/-! ## 4. The calls of a run -/

/-- The calls of a run that began in `before`, with steps up to `n`, are what led to its saver. -/
structure Ledger (host : Host) (before : World InMemoryStore) (n : Nat)
    (st : RunState InMemoryStore) : Prop where
  content : st.world.saver = contentAfter inMemorySaver st.calls before.saver
  recorded : ∃ reads m, Recorded host before.clockReads before.saver st.result.threadId
    st.result.checkpointNamespace st.calls reads m ∧ reads ≤ st.world.clockReads ∧ m ≤ n

namespace GraphRun

variable {run : GraphRun InMemoryStore} {before : World InMemoryStore}

theorem putCheckpoint_recorded {st : RunState InMemoryStore} {n : Nat}
    (hsaver : run.options.checkpointer = some inMemorySaver) (h : Ledger run.host before n st)
    (request : CheckpointRequest) (hstep : request.step = n) :
    Ledger run.host before n (run.putCheckpoint request st).2 := by
  obtain ⟨hcontent, reads, m, hrecorded, hreads, hm⟩ := h
  have hsame := run.putCheckpoint_sameRun st request
  have hclock := run.putCheckpoint_clockReads st request
  obtain ⟨added, hcalls, heffect⟩ := run.putCheckpoint_effect st hsaver request
  have hput : ∀ {answer}, (inMemorySaver.put (run.checkpointOf request st) st.world.saver).1 = answer →
      Recorded run.host before.clockReads before.saver st.result.threadId
        st.result.checkpointNamespace (st.calls ++ [(.put (run.checkpointOf request st), answer)])
        (st.world.clockReads + 1) request.step := fun {answer} hanswer => by
    refine .put hrecorded hreads rfl rfl (hm.trans hstep.ge) rfl ?_
    rw [← hcontent]; exact hanswer
  generalize run.putCheckpoint request st = stored at *
  generalize hcontent' : stored.2.world.saver = content at heffect
  refine ⟨?_, ?_⟩
  · rw [hcalls, contentAfter_append, ← hcontent, hcontent']
    cases heffect <;> rfl
  rw [hsame.threadId, hsame.checkpointNamespace, hcalls, hclock]
  cases heffect with
  | skipped =>
    rw [List.append_nil]; exact ⟨reads, m, hrecorded, by omega, hm⟩
  | put hanswer => exact ⟨_, _, hput hanswer, le_rfl, hstep.le⟩
  | putWrites hanswer hpending =>
    refine ⟨_, _, ?_, le_rfl, hstep.le⟩
    rw [List.append_cons]
    refine .putWrites (hput hanswer) ?_ hpending
    rw [contentAfter_append, ← hcontent]
    exact (mem_threadCheckpoints_put hanswer).mpr (.inr ⟨rfl, rfl⟩)

theorem ledger_invariant (hsaver : run.options.checkpointer = some inMemorySaver) :
    RunInvariant run (Ledger run.host before) where
  mono hle h := by
    obtain ⟨hcontent, reads, m, hrecorded, hreads, hm⟩ := h
    exact ⟨hcontent, reads, m, hrecorded, hreads, hm.trans hle⟩
  closed n _ := {
    refl := fun _ h => h
    trans := fun hab hbc h => hbc (hab h)
    publish := fun _ _ h => ⟨h.content, h.recorded⟩
    put := fun request st hstep h => putCheckpoint_recorded hsaver h request hstep
    compute := fun hinternal h => by
      obtain ⟨hcontent, hrecorded⟩ := h
      refine ⟨?_, ?_⟩
      · rw [hinternal.world, hinternal.calls]; exact hcontent
      · rw [hinternal.world, hinternal.calls, hinternal.threadId, hinternal.checkpointNamespace]
        exact hrecorded }

theorem ledger_identified (n : Nat) (world : World InMemoryStore) :
    Ledger run.host world n (run.identified world) :=
  ⟨rfl, _, _, .nil, le_rfl, n.zero_le⟩

theorem run_ledger (hsaver : run.options.checkpointer = some inMemorySaver)
    (world : World InMemoryStore) (fuel : Nat) :
    (run.run fuel world).2 = run.initialState world ∨
      ∃ n, Ledger run.host world n (run.run fuel world).2 :=
  run_invariant (ledger_invariant hsaver) (ledger_identified _ world) fuel

end GraphRun

end LangGraph
