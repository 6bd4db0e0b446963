import LangGraph.Checkpoint.Types
import LangGraph.Lib.StableSort

/-!
# The in-memory saver

`InMemorySaver` keeps the checkpoints of each thread sorted by step and creation time, and pending
writes under a text key made of thread, namespace and checkpoint id.
-/

namespace LangGraph

open StableSort ByteString List OrderedMap

/-! ## 1. Operations -/

def bar : UInt8 := 124

/-- Key of the pending writes of a checkpoint: its three names, each behind its length. -/
def checkpointWriteStorageKey (threadId checkpointNamespace checkpointId : Bytes) : Bytes :=
  sized threadId ++ bar :: (sized checkpointNamespace ++ bar :: sized checkpointId)

structure InMemoryStore where
  checkpoints : List (Bytes × List Checkpoint) := []
  writes : List (Bytes × List CheckpointWrite) := []
deriving DecidableEq

namespace InMemorySaver

/-- The comparison `put` sorts by: step, then creation time. -/
def putLess (lhs rhs : Checkpoint) : Bool :=
  if lhs.step ≠ rhs.step then lhs.step < rhs.step else lhs.createdAt < rhs.createdAt

def threadCheckpoints (store : InMemoryStore) (threadId : Bytes) : List Checkpoint :=
  (OrderedMap.find threadId store.checkpoints).getD []

def sameName (a b : Checkpoint) : Bool :=
  a.checkpointNamespace = b.checkpointNamespace && a.checkpointId = b.checkpointId

def put (checkpoint : Checkpoint) (store : InMemoryStore) : Result Unit × InMemoryStore :=
  match validateCheckpointForStore checkpoint with
  | .error status => (.error status, store)
  | .ok () =>
    let existing := threadCheckpoints store checkpoint.threadId
    if existing.any (sameName · checkpoint) then
      (.error (.alreadyExists (lit "checkpoint already exists")), store)
    else
      (.ok (), { store with
        checkpoints := OrderedMap.set checkpoint.threadId
          (stableSort putLess (existing ++ [checkpoint])) store.checkpoints })

def writeLess (lhs rhs : CheckpointWrite) : Bool :=
  if lhs.taskId ≠ rhs.taskId then lhs.taskId < rhs.taskId
  else if lhs.taskPath ≠ rhs.taskPath then lhs.taskPath < rhs.taskPath
  else lhs.orderOrMax < rhs.orderOrMax

def sameWrite (a b : CheckpointWrite) : Bool :=
  a.taskId = b.taskId && a.taskPath = b.taskPath && a.order = b.order

/-- Replaces the first stored write of the same task, path and order, or appends. -/
def upsertWrite (stored : List CheckpointWrite) (write : CheckpointWrite) : List CheckpointWrite :=
  match stored with
  | [] => [write]
  | existing :: rest =>
    if sameWrite existing write then write :: rest else existing :: upsertWrite rest write

def putWrites (set : CheckpointWriteSet) (store : InMemoryStore) : Result Unit × InMemoryStore :=
  match normalizeWriteSet set with
  | .error status => (.error status, store)
  | .ok set =>
    let key := checkpointWriteStorageKey set.threadId set.checkpointNamespace set.checkpointId
    let stored := (OrderedMap.find key store.writes).getD []
    (.ok (), { store with
      writes := OrderedMap.set key
        (stableSort writeLess (set.writes.foldl upsertWrite stored)) store.writes })

/-- The checkpoint a query names, or the last one of its namespace. -/
def findCheckpoint (query : CheckpointQuery) (store : InMemoryStore) : Option Checkpoint :=
  match query.checkpointId with
  | some id => (threadCheckpoints store query.threadId).find? fun candidate =>
      candidate.checkpointNamespace = query.checkpointNamespace && candidate.checkpointId = id
  | none => (threadCheckpoints store query.threadId).reverse.find? fun candidate =>
      candidate.checkpointNamespace = query.checkpointNamespace

/-- The stored checkpoint with its pending writes: the inline copy unless it is empty. -/
def tupleOf (store : InMemoryStore) (checkpoint : Checkpoint) : CheckpointTuple :=
  let stored := OrderedMap.find (checkpointWriteStorageKey checkpoint.threadId
    checkpoint.checkpointNamespace checkpoint.checkpointId) store.writes
  let pendingWrites := if checkpoint.pendingWrites = [] then stored.getD [] else checkpoint.pendingWrites
  { checkpoint := { checkpoint with pendingWrites := pendingWrites }
    pendingWrites := pendingWrites }

def getTuple (query : CheckpointQuery) (store : InMemoryStore) : Result (Option CheckpointTuple) := do
  validateCheckpointQuery query
  return (findCheckpoint query store).map (tupleOf store)

/-! ## 2. The order of a thread -/

theorem putLess_strictWeakOrder : StrictWeakOrder putLess := by
  refine .of_key (fun c => toLex (c.step, c.createdAt)) putLess fun a b => ?_
  rw [Prod.Lex.toLex_lt_toLex]
  unfold putLess
  split_ifs with h
  · rw [decide_eq_true_eq]
    exact ⟨.inl, fun h' => h'.resolve_right fun h'' => h h''.1⟩
  · rw [ne_eq, not_not] at h
    rw [decide_eq_true_eq, h]; simp

variable {c : Checkpoint} {t ns : Bytes} {store : InMemoryStore}

theorem putLess_of_later {d : Checkpoint} (hstep : d.step ≤ c.step)
    (htime : d.createdAt ≤ c.createdAt) : putLess c d = false := by
  unfold putLess
  split_ifs
  · exact decide_eq_false (by omega)
  · exact decide_eq_false (by omega)

/-- What every sequence of operations keeps: a thread lists its own checkpoints in order and under
    different names, and pending writes belong to a checkpoint that has some. -/
structure Valid (store : InMemoryStore) : Prop where
  thread : ∀ {t : Bytes} {c : Checkpoint}, c ∈ threadCheckpoints store t → c.threadId = t
  sorted : ∀ t : Bytes, Sorted putLess (threadCheckpoints store t)
  distinct : ∀ {t : Bytes} {c d : Checkpoint}, c ∈ threadCheckpoints store t →
    d ∈ threadCheckpoints store t → sameName c d = true → c = d
  writes : ∀ {key : Bytes} {writes : List CheckpointWrite},
    OrderedMap.find key store.writes = some writes →
    ∃ c ∈ threadCheckpoints store c.threadId, c.pendingWrites ≠ [] ∧
      key = checkpointWriteStorageKey c.threadId c.checkpointNamespace c.checkpointId

theorem valid_empty : Valid {} where
  thread h := by cases h
  sorted _ := .nil
  distinct h := by cases h
  writes h := by cases h

theorem checkpointWriteStorageKey_injective {id t' ns' id' : Bytes}
    (h : checkpointWriteStorageKey t ns id = checkpointWriteStorageKey t' ns' id') :
    t = t' ∧ ns = ns' ∧ id = id' := by
  obtain ⟨ht, hrest⟩ := sized_append_inj h
  obtain ⟨hns, hid⟩ := sized_append_inj (cons.inj hrest).2
  exact ⟨ht, hns, sized_injective (cons.inj hid).2⟩

theorem put_ok (h : (put c store).1 = .ok ()) :
    c.threadId ≠ [] ∧ (∀ d ∈ threadCheckpoints store c.threadId, sameName d c = false) ∧
      (put c store).2 = { store with
        checkpoints := OrderedMap.set c.threadId
          (stableSort putLess (threadCheckpoints store c.threadId ++ [c])) store.checkpoints } := by
  unfold put at h ⊢
  cases hv : validateCheckpointForStore c with
  | error => simp [hv] at h
  | ok =>
    simp only [hv] at h ⊢
    by_cases hany : (threadCheckpoints store c.threadId).any (sameName · c) = true
    · simp [hany] at h
    · rw [if_neg hany]
      refine ⟨?_, ?_, rfl⟩
      · intro hnil
        simp [validateCheckpointForStore, hnil] at hv
      · simpa using hany

theorem put_error {status : Status} (h : (put c store).1 = .error status) :
    (put c store).2 = store := by
  unfold put at h ⊢
  cases hv : validateCheckpointForStore c with
  | error => rfl
  | ok =>
    simp only [hv] at h ⊢
    split_ifs at h ⊢
    · rfl

theorem putWrites_snd (set : CheckpointWriteSet) (store : InMemoryStore) :
    (putWrites set store).2 = store ∨ ∃ writes, (putWrites set store).2 = { store with
        writes := OrderedMap.set
          (checkpointWriteStorageKey set.threadId set.checkpointNamespace set.checkpointId)
          writes store.writes } := by
  unfold putWrites
  cases hn : normalizeWriteSet set with
  | error => exact .inl rfl
  | ok =>
    obtain ⟨writes, rfl⟩ := normalizeWriteSet_ok hn
    exact .inr ⟨_, rfl⟩

section Put

variable {c : Checkpoint} {store : InMemoryStore} (h : (put c store).1 = .ok ())
include h

theorem threadCheckpoints_put (t : Bytes) :
    threadCheckpoints (put c store).2 t =
      if t = c.threadId then stableSort putLess (threadCheckpoints store t ++ [c])
      else threadCheckpoints store t := by
  rw [(put_ok h).2.2]
  unfold threadCheckpoints
  split_ifs with ht
  · rw [ht, find_set_self]; rfl
  · rw [find_set_ne (Ne.symm ht)]

theorem mem_threadCheckpoints_put {t : Bytes} {d : Checkpoint} :
    d ∈ threadCheckpoints (put c store).2 t ↔
      d ∈ threadCheckpoints store t ∨ (t = c.threadId ∧ d = c) := by
  rw [threadCheckpoints_put h]
  split_ifs with ht
  · simp [ht]
  · simp [ht]

theorem Valid.put (hvalid : Valid store) : Valid (InMemorySaver.put c store).2 where
  thread := by
    intro t d hd
    rcases (mem_threadCheckpoints_put h).mp hd with hd | ⟨ht, rfl⟩
    · exact hvalid.thread hd
    · exact ht.symm
  sorted t := by
    rw [threadCheckpoints_put h]
    split_ifs
    · exact sorted_stableSort putLess_strictWeakOrder _
    · exact hvalid.sorted t
  distinct := by
    intro t d e hd he hname
    have hfresh := (put_ok h).2.1
    rcases (mem_threadCheckpoints_put h).mp hd with hd' | ⟨ht, rfl⟩
    · rcases (mem_threadCheckpoints_put h).mp he with he' | ⟨ht, rfl⟩
      · exact hvalid.distinct hd' he' hname
      · rw [hfresh d (ht ▸ hd')] at hname; cases hname
    · rcases (mem_threadCheckpoints_put h).mp he with he' | ⟨_, rfl⟩
      · have := hfresh e (ht ▸ he')
        unfold sameName at this hname
        simp only [Bool.and_eq_true, decide_eq_true_eq] at hname
        simp [hname.1, hname.2] at this
      · rfl
  writes := by
    intro key writes hfind
    rw [(put_ok h).2.2] at hfind
    obtain ⟨d, hd, hpending, hkey⟩ := hvalid.writes hfind
    exact ⟨d, (mem_threadCheckpoints_put h).mpr (.inl hd), hpending, hkey⟩

/-- The newest checkpoint of the namespace after a put is the one just put, unless the thread has
    one that is ordered behind it. -/
theorem findCheckpoint_latest_put (hvalid : Valid store) :
    findCheckpoint (.latest c.threadId c.checkpointNamespace) (put c store).2 = some c ↔
      ∀ d ∈ threadCheckpoints store c.threadId,
        d.checkpointNamespace = c.checkpointNamespace → putLess c d = false := by
  have hlist : threadCheckpoints (put c store).2 c.threadId
      = (threadCheckpoints store c.threadId).filter (!putLess c ·)
        ++ c :: (threadCheckpoints store c.threadId).filter (putLess c ·) := by
    rw [threadCheckpoints_put h, if_pos rfl]
    exact stableSort_append_one putLess_strictWeakOrder (hvalid.sorted _) c
  have hself : c ∉ threadCheckpoints store c.threadId := fun hmem => by
    have := (put_ok h).2.1 c hmem
    simp [sameName] at this
  show (threadCheckpoints (put c store).2 c.threadId).reverse.find?
    (fun candidate => candidate.checkpointNamespace = c.checkpointNamespace) = some c ↔ _
  rw [hlist, reverse_append, reverse_cons, append_assoc, find?_append]
  cases hfind : ((threadCheckpoints store c.threadId).filter (putLess c ·)).reverse.find?
      (fun candidate => candidate.checkpointNamespace = c.checkpointNamespace) with
  | none =>
    have hnone : ∀ d ∈ threadCheckpoints store c.threadId,
        d.checkpointNamespace = c.checkpointNamespace → putLess c d = false := by
      intro d hd hns
      by_contra hless
      have := find?_eq_none.mp hfind d (mem_reverse.mpr
        (mem_filter.mpr ⟨hd, Bool.eq_true_of_not_eq_false hless⟩))
      exact this (decide_eq_true hns)
    simpa using hnone
  | some d =>
    have hmem := mem_filter.mp (mem_reverse.mp (mem_of_find?_eq_some hfind))
    have hns := find?_some hfind
    constructor
    · intro heq
      cases heq; exact absurd hmem.1 hself
    · intro hall
      rw [hall d hmem.1 (of_decide_eq_true hns)] at hmem
      exact absurd hmem.2 (by simp)

end Put

theorem Valid.putWrites {c : Checkpoint} {store : InMemoryStore} {set : CheckpointWriteSet}
    (hvalid : Valid store) (hc : c ∈ threadCheckpoints store c.threadId)
    (hpending : c.pendingWrites ≠ [])
    (hkey : checkpointWriteStorageKey set.threadId set.checkpointNamespace set.checkpointId
      = checkpointWriteStorageKey c.threadId c.checkpointNamespace c.checkpointId) :
    Valid (InMemorySaver.putWrites set store).2 := by
  rcases putWrites_snd set store with heq | ⟨writes, heq⟩
  · rw [heq]; exact hvalid
  · rw [heq]
    refine ⟨hvalid.thread, hvalid.sorted, hvalid.distinct, fun {key found} hfind => ?_⟩
    by_cases hsame : key = checkpointWriteStorageKey set.threadId set.checkpointNamespace
        set.checkpointId
    · exact ⟨c, hc, hpending, hsame.trans hkey⟩
    · rw [find_set_ne (Ne.symm hsame)] at hfind
      exact hvalid.writes hfind

/-! ## 3. Reading -/

theorem getTuple_latest (ht : t ≠ []) (store : InMemoryStore) :
    getTuple (.latest t ns) store
      = .ok ((findCheckpoint (.latest t ns) store).map (tupleOf store)) := by
  have hquery : validateCheckpointQuery (.latest t ns) = .ok () := by
    simp [validateCheckpointQuery, CheckpointQuery.latest, ht]
  rw [getTuple, hquery]; rfl

section Read

variable {store : InMemoryStore} (hvalid : Valid store)
include hvalid

variable {c : Checkpoint} {t ns : Bytes}

theorem tupleOf_eq (hc : c ∈ threadCheckpoints store c.threadId) :
    tupleOf store c = ⟨c, c.pendingWrites⟩ := by
  unfold tupleOf
  dsimp only
  by_cases hpending : c.pendingWrites = []
  · have hnone : find (checkpointWriteStorageKey c.threadId c.checkpointNamespace
        c.checkpointId) store.writes = none := by
      cases hfind : find (checkpointWriteStorageKey c.threadId c.checkpointNamespace
          c.checkpointId) store.writes with
      | none => rfl
      | some writes =>
        obtain ⟨d, hd, hne, hkey⟩ := hvalid.writes hfind
        obtain ⟨ht, hns, hid⟩ := checkpointWriteStorageKey_injective hkey
        rw [← ht] at hd
        have := hvalid.distinct hd hc (by simp [sameName, hns, hid])
        exact absurd (this ▸ hpending) hne
    rw [if_pos hpending, hnone]
    cases c
    simp_all
  · rw [if_neg hpending]

theorem getTuple_latest_iff (ht : t ≠ []) :
    getTuple (.latest t ns) store = .ok (some ⟨c, c.pendingWrites⟩) ↔
      findCheckpoint (.latest t ns) store = some c := by
  rw [getTuple_latest ht, Except.ok.injEq]
  cases hfind : findCheckpoint (.latest t ns) store with
  | none => simp
  | some d =>
    have hd : d ∈ threadCheckpoints store t :=
      mem_reverse.mp (mem_of_find?_eq_some hfind)
    rw [Option.map_some, tupleOf_eq hvalid (hvalid.thread hd ▸ hd)]
    constructor
    · intro h
      cases h; rfl
    · intro h
      cases h; rfl

theorem getTuple_at (hc : c ∈ threadCheckpoints store c.threadId) (ht : c.threadId ≠ [])
    (hid : c.checkpointId ≠ []) :
    getTuple (.at c.threadId c.checkpointId c.checkpointNamespace) store
      = .ok (some ⟨c, c.pendingWrites⟩) := by
  have hfound : findCheckpoint (.at c.threadId c.checkpointId c.checkpointNamespace) store
      = some c := by
    cases hfind : findCheckpoint (.at c.threadId c.checkpointId c.checkpointNamespace) store with
    | none => simpa [CheckpointQuery.at] using find?_eq_none.mp hfind c hc
    | some d =>
      have hd : d ∈ threadCheckpoints store c.threadId := mem_of_find?_eq_some hfind
      have hname : sameName d c = true := find?_some (p := (sameName · c)) hfind
      rw [hvalid.distinct hd hc hname]
  rw [getTuple, hfound, Option.map_some, tupleOf_eq hvalid hc]
  simp [validateCheckpointQuery, CheckpointQuery.at, ht, hid]

theorem mem_of_latest (hlatest : findCheckpoint (.latest t ns) store = some c) :
    c ∈ threadCheckpoints store t ∧ c.threadId = t ∧ c.checkpointNamespace = ns := by
  have hmem : c ∈ threadCheckpoints store t :=
    mem_reverse.mp (mem_of_find?_eq_some hlatest)
  have hns := find?_some hlatest
  exact ⟨hmem, hvalid.thread hmem, of_decide_eq_true hns⟩

theorem step_le_latest {d : Checkpoint} (hlatest : findCheckpoint (.latest t ns) store = some c)
    (hd : d ∈ threadCheckpoints store t) (hns : d.checkpointNamespace = ns) : d.step ≤ c.step := by
  obtain ⟨-, later, earlier, hsplit, hlater⟩ := find?_eq_some_iff_append.mp hlatest
  have hmem : d ∈ later ++ c :: earlier := hsplit ▸ mem_reverse.mpr hd
  rcases mem_append.mp hmem with hmem | hmem
  · have := hlater d hmem
    simp [hns, CheckpointQuery.latest] at this
  · rcases mem_cons.mp hmem with rfl | hmem
    · exact le_rfl
    · have hsorted := hvalid.sorted t
      rw [show threadCheckpoints store t = earlier.reverse ++ c :: later.reverse by
        rw [← reverse_reverse (threadCheckpoints store t)]
        exact (congrArg reverse hsplit).trans (by simp)] at hsorted
      have hless := (pairwise_append.mp hsorted).2.2 d (mem_reverse.mpr hmem) c
        mem_cons_self
      rw [NotAfter, putLess] at hless
      split_ifs at hless
      · have := of_decide_eq_false hless; omega
      · omega

/-- What the query for the newest checkpoint finds is at or after every checkpoint of its thread and
    namespace. -/
theorem step_le_of_getTuple {d : Checkpoint} {latest : Option CheckpointTuple} (ht : t ≠ [])
    (hlatest : getTuple (.latest t ns) store = .ok latest) (hd : d ∈ threadCheckpoints store t)
    (hns : d.checkpointNamespace = ns) :
    ∃ tuple, latest = some tuple ∧ d.step ≤ tuple.checkpoint.step := by
  rw [getTuple_latest ht, Except.ok.injEq] at hlatest
  cases hfind : findCheckpoint (.latest t ns) store with
  | none =>
    have := find?_eq_none.mp hfind d (mem_reverse.mpr hd)
    exact absurd (decide_eq_true hns) this
  | some c =>
    rw [hfind] at hlatest
    have hstep : d.step ≤ c.step := step_le_latest hvalid hfind hd hns
    exact ⟨tupleOf store c, hlatest.symm, hstep⟩

end Read

/-! ## 4. Other threads and namespaces -/

/-- The part of `Valid` that does not speak of pending writes: every put and putWrites keeps it. -/
structure Ordered (store : InMemoryStore) : Prop where
  thread : ∀ {t : Bytes} {c : Checkpoint}, c ∈ threadCheckpoints store t → c.threadId = t
  sorted : ∀ t : Bytes, Sorted putLess (threadCheckpoints store t)

theorem Ordered.put (h : Ordered store) (c : Checkpoint) :
    Ordered (InMemorySaver.put c store).2 := by
  cases hput : (InMemorySaver.put c store).1 with
  | error =>
    rw [put_error hput]; exact h
  | ok =>
    refine ⟨fun hd => ?_, fun t => ?_⟩
    · rcases (mem_threadCheckpoints_put hput).mp hd with hd | ⟨ht, rfl⟩
      · exact h.thread hd
      · exact ht.symm
    · rw [threadCheckpoints_put hput]
      split_ifs
      · exact sorted_stableSort putLess_strictWeakOrder _
      · exact h.sorted t

theorem threadCheckpoints_putWrites (set : CheckpointWriteSet) (store : InMemoryStore) (t : Bytes) :
    threadCheckpoints (putWrites set store).2 t = threadCheckpoints store t := by
  rcases putWrites_snd set store with heq | ⟨writes, heq⟩
  · rw [heq]
  · rw [heq]; rfl

theorem Ordered.putWrites (h : Ordered store) (set : CheckpointWriteSet) :
    Ordered (InMemorySaver.putWrites set store).2 := by
  refine ⟨fun {t c} hc => ?_, fun t => ?_⟩
  · rw [threadCheckpoints_putWrites] at hc; exact h.thread hc
  · rw [threadCheckpoints_putWrites]; exact h.sorted t

def history (store : InMemoryStore) (t ns : Bytes) : List Checkpoint :=
  (threadCheckpoints store t).filter fun c => c.checkpointNamespace = ns

theorem findCheckpoint_eq_history (query : CheckpointQuery) (store : InMemoryStore) :
    findCheckpoint query store = match query.checkpointId with
      | some id => (history store query.threadId query.checkpointNamespace).find?
          fun c => c.checkpointId = id
      | none => (history store query.threadId query.checkpointNamespace).getLast? := by
  unfold findCheckpoint history
  cases query.checkpointId with
  | some => simp only [find?_filter, Bool.decide_and, Bool.decide_eq_true]
  | none =>
    rw [getLast?_eq_head?_reverse, ← filter_reverse, head?_filter]

theorem history_put (h : Ordered store) (hne : (c.threadId, c.checkpointNamespace) ≠ (t, ns)) :
    history (put c store).2 t ns = history store t ns := by
  cases hput : (put c store).1 with
  | error => rw [put_error hput]
  | ok =>
    unfold history
    rw [threadCheckpoints_put hput]
    split_ifs with ht
    · refine filter_stableSort_append_one putLess_strictWeakOrder (h.sorted t) ?_
      exact decide_eq_false fun hns => hne (by rw [ht, hns])
    · rfl

theorem getTuple_put (h : Ordered store) {query : CheckpointQuery}
    (hne : (c.threadId, c.checkpointNamespace) ≠ (query.threadId, query.checkpointNamespace)) :
    getTuple query (put c store).2 = getTuple query store := by
  have hwrites : (put c store).2.writes = store.writes := by
    cases hput : (put c store).1 with
    | error => rw [put_error hput]
    | ok => rw [(put_ok hput).2.2]
  have htuple : tupleOf (put c store).2 = tupleOf store := by
    unfold tupleOf
    rw [hwrites]
  unfold getTuple
  rw [findCheckpoint_eq_history, findCheckpoint_eq_history, history_put h hne, htuple]

theorem getTuple_putWrites {set : CheckpointWriteSet} (h : Ordered store) {query : CheckpointQuery}
    (hne : (set.threadId, set.checkpointNamespace) ≠ (query.threadId, query.checkpointNamespace)) :
    getTuple query (putWrites set store).2 = getTuple query store := by
  have hfind : findCheckpoint query (putWrites set store).2 = findCheckpoint query store := by
    unfold findCheckpoint
    rw [threadCheckpoints_putWrites]
  have htuple : ∀ c ∈ history store query.threadId query.checkpointNamespace,
      tupleOf (putWrites set store).2 c = tupleOf store c := by
    intro c hc
    obtain ⟨hmem, hns⟩ := mem_filter.mp hc
    -- the key of a write set of another thread or namespace is another one
    have hkey : checkpointWriteStorageKey set.threadId set.checkpointNamespace set.checkpointId
        ≠ checkpointWriteStorageKey c.threadId c.checkpointNamespace c.checkpointId := by
      intro heq
      obtain ⟨ht, hns', -⟩ := checkpointWriteStorageKey_injective heq
      exact hne (by rw [ht, hns', h.thread hmem, of_decide_eq_true hns])
    rcases putWrites_snd set store with heq | ⟨writes, heq⟩
    · rw [heq]
    · unfold tupleOf
      rw [heq, find_set_ne hkey]
  unfold getTuple
  rw [hfind]
  cases hfound : findCheckpoint query store with
  | none => rfl
  | some c =>
    have hc : c ∈ history store query.threadId query.checkpointNamespace := by
      rw [findCheckpoint_eq_history] at hfound
      split at hfound
      · exact mem_of_find?_eq_some hfound
      · exact mem_of_getLast? hfound
    simp only [Option.map_some, htuple c hc]

end InMemorySaver

def inMemorySaver : CheckpointSaver InMemoryStore where
  put := InMemorySaver.put
  putWrites := InMemorySaver.putWrites
  getTuple := InMemorySaver.getTuple

end LangGraph
