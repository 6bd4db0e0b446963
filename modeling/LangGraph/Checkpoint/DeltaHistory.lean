import LangGraph.Checkpoint.InMemorySaver
import LangGraph.Checkpoint.StorageSaver

/-!
# Delta histories

`getDeltaChannelHistoryWith` follows the parents of a checkpoint.  One walk serves all channels: it
goes on until each of them has its seed, and on its way it takes the writes of every channel, those
behind the seed too.  Nothing stops it on a chain of parents that comes back to itself.
-/

namespace LangGraph

open OrderedMap ExceptList KeyPath InMemorySaver Option Nat
open List hiding set merge erase contains

structure DeltaChannelHistoryQuery where
  threadId : Bytes
  checkpointNamespace : Bytes := []
  checkpointId : Bytes
  channels : List Bytes

structure DeltaChannelHistory where
  writes : List CheckpointWrite := []
  seed : Option Json := none
deriving DecidableEq

/-! ## 1. The walk -/

namespace DeltaHistory

def validateDeltaQuery (query : DeltaChannelHistoryQuery) : Result Unit := do
  require (query.threadId ≠ [])
    (.invalidArgument (lit "checkpoint delta thread_id cannot be empty"))
  require (query.checkpointId ≠ [])
    (.invalidArgument (lit "checkpoint delta checkpoint_id cannot be empty"))
  require (query.channels ≠ [])
    (.invalidArgument (lit "checkpoint delta requires at least one channel"))
  query.channels.forM fun channel =>
    require (channel ≠ []) (.invalidArgument (lit "checkpoint delta channel cannot be empty"))

/-- The writes of a record: the pending ones, or those of its checkpoint. -/
def writesOf (record : CheckpointTuple) : List CheckpointWrite :=
  if record.pendingWrites = [] then record.checkpoint.writes else record.pendingWrites

def mentions (channel : Bytes) (write : CheckpointWrite) : Bool := contains channel write.update.view

def seedOf (channel : Bytes) (record : CheckpointTuple) : Option Json :=
  find channel record.checkpoint.state.view

abbrev Histories := List (Bytes × DeltaChannelHistory)

/-- The writes of a record, the last one first, each for the channels that it mentions. -/
def noteWrites (channels : List Bytes) (record : CheckpointTuple) (histories : Histories) :
    Histories :=
  collect (fun history write => { history with writes := history.writes ++ [write] }) {} histories
    ((writesOf record).reverse.flatMap fun write =>
      (channels.filter (mentions · write)).map fun channel => (channel, write))

def noteSeeds (remaining : List Bytes) (record : CheckpointTuple) (histories : Histories) :
    Histories :=
  collect (fun history value => { history with seed := some value }) {} histories
    (remaining.filterMap fun channel => (seedOf channel record).map fun value => (channel, value))

def unseeded (record : CheckpointTuple) (remaining : List Bytes) : List Bytes :=
  remaining.filter fun channel => (seedOf channel record).isNone

def reversed (histories : Histories) : Histories :=
  histories.map fun entry => (entry.1, { entry.2 with writes := entry.2.writes.reverse })

section Walk

variable (getTuple : CheckpointQuery → Result (Option CheckpointTuple))
  (query : DeltaChannelHistoryQuery)

def recordAt (id : Bytes) : Result (Option CheckpointTuple) :=
  getTuple (.at query.threadId id query.checkpointNamespace)

/-- The loop; it has no result if `fuel` rounds are not enough. -/
def walk (fuel : Nat) (cursor : Option Bytes) (remaining : List Bytes) (histories : Histories) :
    Option (Result Histories) :=
  match cursor with
  | none => some (.ok (reversed histories))
  | some id =>
    if remaining = [] then some (.ok (reversed histories))
    else match fuel with
      | 0 => none
      | fuel + 1 =>
        match recordAt getTuple query id with
        | .error status => some (.error status)
        | .ok none => some (.ok (reversed histories))
        | .ok (some record) =>
          walk fuel record.checkpoint.parentCheckpointId (unseeded record remaining)
            (noteSeeds remaining record (noteWrites query.channels record histories))

def channelSet : List Bytes := (merge [] (query.channels.map fun channel => (channel, ()))).map Prod.fst

def getDeltaChannelHistory (fuel : Nat) : Option (Result Histories) :=
  match validateDeltaQuery query with
  | .error status => some (.error status)
  | .ok () =>
    match recordAt getTuple query query.checkpointId with
    | .error status => some (.error status)
    | .ok none => some (.error (.notFound (lit "checkpoint delta target checkpoint not found")))
    | .ok (some target) =>
      walk getTuple query fuel target.checkpoint.parentCheckpointId (channelSet query)
        (merge [] (query.channels.map fun channel => (channel, {})))

end Walk

/-! ## 2. What a history is to be -/

section Ancestors

variable (getTuple : CheckpointQuery → Result (Option CheckpointTuple))
  (query : DeltaChannelHistoryQuery)

def found (id : Bytes) : Option CheckpointTuple :=
  match recordAt getTuple query id with
  | .ok record => record
  | .error _ => none

/-- The ancestors, the nearest one first, up to the one at which the last of the channels has its
    seed; at most `fuel` of them. -/
def ancestors (fuel : Nat) (cursor : Option Bytes) (channels : List Bytes) : List CheckpointTuple :=
  match fuel with
  | 0 => []
  | fuel + 1 =>
    if channels = [] then []
    else match cursor.bind (found getTuple query) with
      | none => []
      | some record =>
        record :: ancestors fuel record.checkpoint.parentCheckpointId (unseeded record channels)

/-- The seed of the nearest ancestor that has one, and the writes of all ancestors from there on,
    the oldest one first: those that a checkpoint carries and those put beside it later. -/
def expected (fuel : Nat) (target : CheckpointTuple) (channel : Bytes) : DeltaChannelHistory :=
  let records := ancestors getTuple query fuel target.checkpoint.parentCheckpointId [channel]
  { writes := records.reverse.flatMap fun record =>
      (record.checkpoint.writes ++ record.pendingWrites).filter (mentions channel)
    seed := records.findSome? (seedOf channel) }

end Ancestors

def Unmentioned (channel : Bytes) (records : List CheckpointTuple) : Prop :=
  ∀ record ∈ records, ∀ write ∈ writesOf record, mentions channel write = false

/-- No record has pending writes beside a write of its own that mentions the channel: the walk does
    not look at the own writes then. -/
def Unhidden (channel : Bytes) (records : List CheckpointTuple) : Prop :=
  ∀ record ∈ records, record.pendingWrites ≠ [] →
    ∀ write ∈ record.checkpoint.writes, mentions channel write = false

theorem filter_writes_eq {channel : Bytes} {record : CheckpointTuple}
    (h : record.pendingWrites ≠ [] →
      ∀ write ∈ record.checkpoint.writes, mentions channel write = false) :
    (record.checkpoint.writes ++ record.pendingWrites).filter (mentions channel) =
      (writesOf record).filter (mentions channel) := by
  unfold writesOf
  split_ifs with hpending
  · rw [hpending, append_nil]
  · rw [filter_append, filter_eq_nil_iff.mpr fun write hwrite => by simp [h hpending write hwrite],
      nil_append]

/-! ## 3. One channel of the walk -/

section Channel

variable {getTuple : CheckpointQuery → Result (Option CheckpointTuple)}
  {query : DeltaChannelHistoryQuery} {channel : Bytes} {record : CheckpointTuple}
  {histories : Histories} {history : DeltaChannelHistory}

/-- What the walk takes of a record for a channel: a channel that is asked for twice gets every
    write twice. -/
def share (channels : List Bytes) (channel : Bytes) (record : CheckpointTuple) :
    List CheckpointWrite :=
  ((writesOf record).reverse.filter (mentions channel)).flatMap
    (List.replicate (channels.count channel))

theorem valuesAt_pairs (channels : List Bytes) (writes : List CheckpointWrite) :
    valuesAt channel (writes.flatMap fun write =>
      (channels.filter (mentions · write)).map fun other => (other, write)) =
      (writes.filter (mentions channel)).flatMap (replicate (channels.count channel)) := by
  have hone (write : CheckpointWrite) :
      valuesAt channel ((channels.filter (mentions · write)).map fun other => (other, write)) =
        if mentions channel write then replicate (channels.count channel) write else [] := by
    induction channels with
    | nil => simp [valuesAt]
    | cons other channels ih =>
      rw [count_cons]
      by_cases hkey : other = channel
      · subst hkey
        by_cases hmentions : mentions other write = true <;>
          simpa [valuesAt, hmentions, replicate_succ] using ih
      · by_cases hmentions : mentions other write = true <;>
          simpa [valuesAt, hkey, hmentions] using ih
  induction writes with
  | nil => rfl
  | cons write writes ih =>
    rw [flatMap_cons, valuesAt, filter_append, map_append]
    change valuesAt channel _ ++ valuesAt channel _ = _
    rw [hone, ih, filter_cons]
    split_ifs <;> simp

theorem find_noteWrites (channels : List Bytes) (h : find channel histories = some history) :
    find channel (noteWrites channels record histories) =
      some { history with writes := history.writes ++ share channels channel record } := by
  have hfold : ∀ (writes : List CheckpointWrite) (history : DeltaChannelHistory),
      writes.foldl (fun history write => { history with writes := history.writes ++ [write] })
        history = { history with writes := history.writes ++ writes } := by
    intro writes
    induction writes with
    | nil => simp
    | cons write writes ih => simp [ih]
  rw [noteWrites, find_collect, valuesAt_pairs, h, getD_some, hfold]
  split_ifs with hnil
  · rw [share, hnil, append_nil]
  · rfl

theorem find_noteSeeds (remaining : List Bytes) (h : find channel histories = some history) :
    find channel (noteSeeds remaining record histories) = some { history with
      seed := if channel ∈ remaining then (seedOf channel record).or history.seed
        else history.seed } := by
  have hmem : ∀ value, value ∈ valuesAt channel (remaining.filterMap fun other =>
      (seedOf other record).map fun value => (other, value)) ↔
        channel ∈ remaining ∧ seedOf channel record = some value := by
    intro value; simp [mem_valuesAt]
  have hfold : ∀ (values : List Json) (history : DeltaChannelHistory), (∀ value ∈ values,
      seedOf channel record = some value) → values ≠ [] →
        values.foldl (fun history value => { history with seed := some value }) history =
          { history with seed := seedOf channel record } := by
    intro values
    induction values with
    | nil => exact fun _ _ hne => absurd rfl hne
    | cons value values ih =>
      intro history hall _
      have hvalue := hall value mem_cons_self
      cases values with
      | nil => simp [hvalue]
      | cons =>
        exact ih _ (fun v hv => hall v (mem_cons_of_mem _ hv)) (cons_ne_nil _ _)
  rw [noteSeeds, find_collect, h, getD_some]
  split_ifs with hnil hin hin
  · cases hseed : seedOf channel record with
    | none => rfl
    | some value =>
      have := (hmem value).mpr ⟨hin, hseed⟩
      rw [hnil] at this; cases this
  · rfl
  · rw [hfold _ _ (fun value hvalue => ((hmem value).mp hvalue).2) hnil]
    obtain ⟨value, hvalue⟩ := exists_mem_of_ne_nil _ hnil
    rw [((hmem value).mp hvalue).2, some_or]
  · obtain ⟨value, hvalue⟩ := exists_mem_of_ne_nil _ hnil
    exact absurd ((hmem value).mp hvalue).1 hin

theorem find_reversed (h : find channel histories = some history) :
    find channel (reversed histories) = some { history with writes := history.writes.reverse } := by
  induction histories with
  | nil => cases h
  | cons entry histories ih =>
    rw [find_cons] at h
    rw [reversed, map_cons, find_cons]
    split_ifs at h ⊢ with hkey
    · rw [← some.inj h]
    · exact ih h

variable {fuel : Nat} {cursor : Option Bytes}

/-- A walk that returns has come to its end or looks at one more ancestor. -/
theorem walk_ok_cases {remaining : List Bytes} {out : Histories}
    (h : walk getTuple query fuel cursor remaining histories = some (.ok out)) :
    out = reversed histories ∧ ancestors getTuple query fuel cursor remaining = [] ∨
      ∃ rest record, fuel = rest + 1 ∧ ancestors getTuple query fuel cursor remaining = record ::
          ancestors getTuple query rest record.checkpoint.parentCheckpointId
            (unseeded record remaining) ∧
        walk getTuple query rest record.checkpoint.parentCheckpointId (unseeded record remaining)
          (noteSeeds remaining record (noteWrites query.channels record histories)) =
            some (.ok out) := by
  unfold walk at h
  split at h
  · cases h; exact .inl ⟨rfl, by cases fuel <;> simp [ancestors]⟩
  · split_ifs at h with hnil
    · cases h; exact .inl ⟨rfl, by cases fuel <;> simp [ancestors, hnil]⟩
    · cases fuel with
      | zero => cases h
      | succ fuel =>
        dsimp only at h
        split at h
        · cases h
        · cases h; exact .inl ⟨rfl, by simp [ancestors, found, *]⟩
        · rename_i record hrecord
          exact .inr ⟨fuel, record, rfl, by simp [ancestors, found, *], h⟩

theorem walk_channel {remaining : List Bytes} {out : Histories}
    (hwalk : walk getTuple query fuel cursor remaining histories = some (.ok out))
    (h : find channel histories = some history) :
    find channel out = some {
      writes := (history.writes ++ (ancestors getTuple query fuel cursor remaining).flatMap
          (share query.channels channel)).reverse
      seed := if channel ∈ remaining then
          ((ancestors getTuple query fuel cursor remaining).findSome? (seedOf channel)).or
            history.seed
        else history.seed } := by
  induction fuel generalizing cursor remaining histories history with
  | zero =>
    obtain ⟨rfl, hnil⟩ | ⟨rest, record, hfuel, -⟩ := walk_ok_cases hwalk
    · simp [hnil, find_reversed h]
    · cases hfuel
  | succ fuel ih =>
    obtain ⟨rfl, hnil⟩ | ⟨rest, record, hfuel, hcons, hrest⟩ := walk_ok_cases hwalk
    · simp [hnil, find_reversed h]
    · cases hfuel
      rw [ih hrest (find_noteSeeds remaining (find_noteWrites query.channels h)), hcons]
      by_cases hin : channel ∈ remaining <;> cases hseed : seedOf channel record <;>
        simp [unseeded, hseed]

/-- The walk for several channels looks at the ancestors for one of them first; it goes on behind
    the seed only. -/
theorem exists_ancestors_append {channels : List Bytes} (h : channel ∈ channels) :
    ∃ extra, ancestors getTuple query fuel cursor channels =
        ancestors getTuple query fuel cursor [channel] ++ extra ∧
      ((ancestors getTuple query fuel cursor [channel]).findSome? (seedOf channel) = none →
        extra = []) := by
  induction fuel generalizing cursor channels with
  | zero => exact ⟨[], rfl, fun _ => rfl⟩
  | succ fuel ih =>
    unfold ancestors
    rw [if_neg (ne_nil_of_mem h), if_neg (cons_ne_nil _ _)]
    cases hfound : cursor.bind (found getTuple query) with
    | none => exact ⟨[], rfl, fun _ => rfl⟩
    | some record =>
      cases hseed : seedOf channel record with
      | some =>
        have hend : ∀ cursor, ancestors getTuple query fuel cursor (unseeded record [channel]) = [] := by
          intro cursor
          cases fuel <;> simp [ancestors, unseeded, hseed]
        exact ⟨_, by dsimp only; rw [hend]; rfl, fun hnone => by simp [hseed] at hnone⟩
      | none =>
        have hsame : unseeded record [channel] = [channel] := by simp [unseeded, hseed]
        obtain ⟨extra, heq, hextra⟩ := @ih record.checkpoint.parentCheckpointId (unseeded record channels)
          (mem_filter.mpr ⟨h, by rw [hseed]; rfl⟩)
        refine ⟨extra, by dsimp only; rw [heq, hsame]; rfl, fun hnone => hextra ?_⟩
        simpa [hseed, hsame] using hnone

theorem flatMap_filter_eq_nil_iff {records : List CheckpointTuple} :
    (records.flatMap fun record => (writesOf record).reverse.filter (mentions channel)) = [] ↔
      Unmentioned channel records := by
  simp [Unmentioned, filter_eq_nil_iff]

/-- Repeating the elements of a list and adding some gives the list only where nothing is repeated
    or added. -/
theorem flatMap_replicate_append_eq_iff {α : Type} {a e : List α} {k : Nat} (hk : 0 < k) :
    (a ++ e).flatMap (replicate k) = a ↔ e = [] ∧ (k = 1 ∨ a = []) := by
  constructor
  · intro h
    have hlength := congrArg length h
    simp only [length_flatMap, length_replicate, map_const',
      sum_replicate_nat, length_append] at hlength
    obtain ⟨k, rfl⟩ : ∃ n, k = n + 1 := ⟨k - 1, by omega⟩
    rw [Nat.mul_add, Nat.mul_one] at hlength
    have he : e.length = 0 := by omega
    refine ⟨length_eq_zero_iff.mp he, ?_⟩
    rw [he, add_zero] at hlength
    rcases Nat.mul_eq_zero.mp (show a.length * k = 0 by omega) with ha | hk
    · exact .inr (length_eq_zero_iff.mp ha)
    · exact .inl (by omega)
  · rintro ⟨rfl, rfl | rfl⟩
    · rw [append_nil]; exact flatMap_singleton' a
    · rfl

end Channel

/-! ## 4. The history of a channel -/

theorem find_merge_const {α : Type} {channels : List Bytes} {channel : Bytes} (value : α)
    (h : channel ∈ channels) :
    find channel (merge [] (channels.map fun other => (other, value))) = some value := by
  rw [find_merge]
  cases hfind : find channel (channels.map fun other => (other, value)).reverse with
  | none => exact absurd rfl (find_eq_none_iff.mp hfind (channel, value) (by simpa using h))
  | some =>
    have hmem := mem_of_find_eq_some hfind
    simp only [List.mem_reverse, List.mem_map] at hmem
    obtain ⟨-, -, -, rfl⟩ := hmem
    rfl

/-- Where no ancestor up to the seed hides a write of its own for the channel, the history of the
    channel is what it is to be exactly if the channel is asked for once and no ancestor behind the
    seed that the walk still looks at for the others has a write for it. -/
theorem history_exact_iff (getTuple : CheckpointQuery → Result (Option CheckpointTuple))
    (query : DeltaChannelHistoryQuery) (fuel : Nat) (histories : Histories)
    (target : CheckpointTuple) (channel : Bytes)
    (hreturn : getDeltaChannelHistory getTuple query fuel = some (.ok histories))
    (htarget : recordAt getTuple query query.checkpointId = .ok (some target))
    (hchannel : channel ∈ query.channels)
    (hunhidden : Unhidden channel
      (ancestors getTuple query fuel target.checkpoint.parentCheckpointId [channel])) :
    find channel histories = some (expected getTuple query fuel target channel) ↔
      let near := ancestors getTuple query fuel target.checkpoint.parentCheckpointId [channel]
      let seen :=
        ancestors getTuple query fuel target.checkpoint.parentCheckpointId (channelSet query)
      Unmentioned channel (seen.drop near.length) ∧
        (query.channels.count channel = 1 ∨ Unmentioned channel near) := by
  have hin : channel ∈ channelSet query :=
    mem_map_of_mem (mem_of_find_eq_some (find_merge_const () hchannel))
  unfold getDeltaChannelHistory at hreturn
  split at hreturn
  · cases hreturn
  · rw [htarget] at hreturn
    have hfound := walk_channel hreturn (find_merge_const ({} : DeltaChannelHistory) hchannel)
    obtain ⟨extra, happend, hextra⟩ := @exists_ancestors_append getTuple query channel fuel
      target.checkpoint.parentCheckpointId _ hin
    rw [if_pos hin, happend] at hfound
    dsimp only
    rw [hfound, happend, drop_left, expected, some.injEq, DeltaChannelHistory.mk.injEq]
    generalize ancestors getTuple query fuel _ [channel] = near at hextra hunhidden
    -- the seed is the nearest one, also where the walk goes on for the other channels
    have hseed : ((near ++ extra).findSome? (seedOf channel)).or none =
        near.findSome? (seedOf channel) := by
      rw [or_none, findSome?_append]
      cases hnear : near.findSome? (seedOf channel) with
      | none => rw [hextra hnear]; rfl
      | some => rfl
    have hoccurs : 0 < query.channels.count channel := count_pos_iff.mpr hchannel
    have hnear : (near.reverse.flatMap fun record =>
        (record.checkpoint.writes ++ record.pendingWrites).filter (mentions channel)) =
        (near.flatMap fun record => (writesOf record).reverse.filter (mentions channel)).reverse := by
      rw [reverse_flatMap, flatMap_congr fun record hrecord =>
        filter_writes_eq (hunhidden record (mem_reverse.mp hrecord))]
      simp only [Function.comp_def, ← filter_reverse, reverse_reverse]
    -- each write is collected as often as the channel is asked for
    have hseen : (near ++ extra).flatMap (share query.channels channel) =
        ((near ++ extra).flatMap fun record =>
          (writesOf record).reverse.filter (mentions channel)).flatMap
            (replicate (query.channels.count channel)) := by
      rw [flatMap_assoc]; rfl
    rw [and_iff_left hseed, nil_append, hnear, reverse_inj, hseen, flatMap_append,
      flatMap_replicate_append_eq_iff hoccurs, flatMap_filter_eq_nil_iff, flatMap_filter_eq_nil_iff]

def writingX : CheckpointWrite := { update := ⟨[(lit "x", .int 1)], by decide⟩ }

/-- The chain `a ← b ← c`: a write of `x` at `a`, a seed of `x` at `b`. -/
def chain : InMemoryStore :=
  let a : Checkpoint := { threadId := lit "t", checkpointId := lit "a", writes := [writingX] }
  let b : Checkpoint :=
    { threadId := lit "t", checkpointId := lit "b", parentCheckpointId := some (lit "a")
      step := 1, state := ⟨[(lit "x", .int 1)], by decide⟩ }
  let c : Checkpoint :=
    { threadId := lit "t", checkpointId := lit "c", parentCheckpointId := some (lit "b"), step := 2 }
  [a, b, c].foldl (fun store checkpoint => (InMemorySaver.put checkpoint store).2) {}

theorem history_depends_on_the_others :
    let history channels := getDeltaChannelHistory (InMemorySaver.getTuple · chain)
      { threadId := lit "t", checkpointId := lit "c", channels := channels } 2
    history [lit "x"] = some (.ok [(lit "x", { seed := some (.int 1) })]) ∧
      history [lit "x", lit "y"] = some (.ok
        [(lit "x", { writes := [writingX], seed := some (.int 1) }), (lit "y", {})]) := by
  exact ⟨rfl, rfl⟩

theorem history_exact_of_one_channel :
    let query : DeltaChannelHistoryQuery :=
      { threadId := lit "t", checkpointId := lit "c", channels := [lit "x"] }
    ∃ histories target,
      getDeltaChannelHistory (InMemorySaver.getTuple · chain) query 2 = some (.ok histories) ∧
      recordAt (InMemorySaver.getTuple · chain) query query.checkpointId = .ok (some target) ∧
      find (lit "x") histories =
        some (expected (InMemorySaver.getTuple · chain) query 2 target (lit "x")) :=
  ⟨_, _, rfl, rfl, (history_exact_iff _ _ 2 _ _ (lit "x") rfl rfl (List.mem_singleton_self _)
    (by exact List.forall_mem_singleton.mpr fun h => absurd rfl h)).mpr
      ⟨fun _ h => (nomatch h), .inl rfl⟩⟩

/-! ## 5. When the walk ends -/

section Returns

variable (getTuple : CheckpointQuery → Result (Option CheckpointTuple))
  (query : DeltaChannelHistoryQuery)

/-- One round, as far as it decides about the next one: the next ancestor and the channels without a
    seed. -/
def advance (place : Option Bytes × List Bytes) : Option Bytes × List Bytes :=
  match place.1.bind (found getTuple query) with
  | none => (none, place.2)
  | some record => (record.checkpoint.parentCheckpointId, unseeded record place.2)

def place (start : Option Bytes × List Bytes) (round : Nat) : Option Bytes × List Bytes :=
  (advance getTuple query)^[round] start

def Seedless (channel : Bytes) (cursor : Option Bytes) : Prop :=
  ∀ record, cursor.bind (found getTuple query) = some record → seedOf channel record = none

def GoesOn (place : Option Bytes × List Bytes) : Prop := place.1.isSome ∧ place.2 ≠ []

def Returns : Prop := ∃ fuel, (getDeltaChannelHistory getTuple query fuel).isSome

/-- The walk comes to an ancestor for the second time, with a channel still without a seed. -/
def ComesBack : Prop :=
  validateDeltaQuery query = .ok () ∧
    ∃ target, recordAt getTuple query query.checkpointId = .ok (some target) ∧
      let start := (target.checkpoint.parentCheckpointId, channelSet query)
      ∃ i j, i < j ∧ (place getTuple query start i).1 = (place getTuple query start j).1 ∧
        GoesOn (place getTuple query start j)

variable {getTuple query}

theorem walk_eq_none_iff {start : Option Bytes × List Bytes} {fuel : Nat} {histories : Histories} :
    walk getTuple query fuel start.1 start.2 histories = none ↔
      ∀ round ≤ fuel, GoesOn (place getTuple query start round) := by
  obtain ⟨cursor, remaining⟩ := start
  induction fuel generalizing cursor remaining histories with
  | zero =>
    cases cursor with
    | none => simp [walk, place, GoesOn]
    | some => by_cases hnil : remaining = [] <;> simp [walk, place, GoesOn]
  | succ fuel ih =>
    have hsplit : (∀ round ≤ fuel + 1, GoesOn (place getTuple query (cursor, remaining) round)) ↔
        GoesOn (cursor, remaining) ∧ ∀ round ≤ fuel,
          GoesOn (place getTuple query (advance getTuple query (cursor, remaining)) round) :=
      ⟨fun h => ⟨h 0 (zero_le _), fun round hround => h (round + 1) (by omega)⟩,
        fun h round hround => by
          cases round with
          | zero => exact h.1
          | succ round => exact h.2 round (by omega)⟩
    rw [hsplit]
    cases cursor with
    | none => simp [walk, GoesOn]
    | some id =>
      by_cases hnil : remaining = []
      · simp [walk, GoesOn, hnil]
      · rw [walk, if_neg hnil, and_iff_right ⟨rfl, hnil⟩]
        have hend : ¬ ∀ round ≤ fuel, GoesOn (place getTuple query (none, remaining) round) :=
          fun h => nomatch (h 0 (zero_le _)).1
        cases hrecord : recordAt getTuple query id with
        | error => simpa [advance, found, hrecord] using hend
        | ok record =>
          cases record with
          | none => simpa [advance, found, hrecord] using hend
          | some record =>
            have hadvance : advance getTuple query (some id, remaining) =
                (record.checkpoint.parentCheckpointId, unseeded record remaining) := by
              simp [advance, found, hrecord]
            rw [hadvance]; exact ih _ _

section Advances

variable {places : Nat → Option Bytes × List Bytes}
  (hnext : ∀ round, places (round + 1) = advance getTuple query (places round))

include hnext

/-- The next ancestor depends on the last one only. -/
theorem cursor_congr {i j : Nat} (h : (places i).1 = (places j).1) (m : Nat) :
    (places (i + m)).1 = (places (j + m)).1 := by
  induction m with
  | zero => exact h
  | succ m ih =>
    rw [← add_assoc, ← add_assoc, hnext, hnext, advance, advance, ih]
    cases (places (j + m)).1.bind (found getTuple query) <;> rfl

theorem isSome_of_later {i j : Nat} (hle : i ≤ j) (h : (places j).1.isSome) :
    (places i).1.isSome := by
  induction j, hle using le_induction with
  | base => exact h
  | succ j _ ih =>
    refine ih ?_
    rw [hnext, advance] at h
    cases hcursor : (places j).1 with
    | none => simp [hcursor] at h
    | some => rfl

theorem mem_remaining_iff {channel : Bytes} {round : Nat} :
    channel ∈ (places round).2 ↔ channel ∈ (places 0).2 ∧
      ∀ m < round, Seedless getTuple query channel (places m).1 := by
  induction round with
  | zero => simp
  | succ round ih =>
    have hstep : channel ∈ (places (round + 1)).2 ↔
        channel ∈ (places round).2 ∧ Seedless getTuple query channel (places round).1 := by
      rw [hnext, advance, Seedless]
      cases (places round).1.bind (found getTuple query) with
      | none => simp
      | some => simp [unseeded]
    rw [hstep, ih, and_assoc]
    refine and_congr_right fun _ => ⟨fun ⟨h, hlast⟩ m hm => ?_, fun h => ⟨fun m hm => h m (by omega),
      h round (lt_succ_self _)⟩⟩
    rcases Nat.lt_succ_iff_lt_or_eq.mp hm with hm | rfl
    · exact h m hm
    · exact hlast

/-- Where finitely many checkpoints are found, a walk goes on for ever exactly if it comes back to one
    of them. -/
theorem goesOn_forever_iff (hfinite : {id | (found getTuple query id).isSome}.Finite) :
    (∀ round, GoesOn (places round)) ↔
      ∃ i j, i < j ∧ (places i).1 = (places j).1 ∧ GoesOn (places j) := by
  constructor
  · intro h
    have hmem : ∀ round, (places round).1 ∈ some '' {id | (found getTuple query id).isSome} := by
      intro round
      obtain ⟨id, hid⟩ := isSome_iff_exists.mp (h round).1
      refine ⟨id, ?_, hid.symm⟩
      have hgoes := (h (round + 1)).1
      rw [hnext, advance, hid, bind_some] at hgoes
      cases hfound : found getTuple query id with
      | none => simp [hfound] at hgoes
      | some => simp [hfound]
    obtain ⟨i, j, hlt, heq⟩ := Set.Finite.exists_lt_map_eq_of_forall_mem hmem (hfinite.image _)
    exact ⟨i, j, hlt, heq, h j⟩
  · rintro ⟨i, j, hlt, heq, hcursor, hremaining⟩
    obtain ⟨channel, hchannel⟩ := exists_mem_of_ne_nil _ hremaining
    obtain ⟨hstart, hseedless⟩ := (mem_remaining_iff hnext).mp hchannel
    -- from `i` on the ancestors repeat those before `j`
    have hall : ∀ round, (places round).1.isSome ∧
        Seedless getTuple query channel (places round).1 := by
      intro round
      induction round using Nat.strong_induction_on with
      | _ round ih =>
        by_cases hround : round < j
        · exact ⟨isSome_of_later hnext hround.le hcursor, hseedless round hround⟩
        · have hback := cursor_congr hnext heq (round - j)
          rw [show j + (round - j) = round by omega] at hback
          rw [← hback]; exact ih _ (by omega)
    exact fun round => ⟨(hall round).1,
      ne_nil_of_mem ((mem_remaining_iff hnext).mpr ⟨hstart, fun m _ => (hall m).2⟩)⟩

end Advances

theorem returns_iff (hfinite : {id | (found getTuple query id).isSome}.Finite) :
    Returns getTuple query ↔ ¬ ComesBack getTuple query := by
  unfold Returns ComesBack getDeltaChannelHistory
  cases validateDeltaQuery query with
  | error => simp
  | ok =>
    cases hrecord : recordAt getTuple query query.checkpointId with
    | error => simp
    | ok record =>
      cases record with
      | none => simp
      | some =>
        simp only [true_and, Except.ok.injEq, some.injEq, exists_eq_left']
        rw [← goesOn_forever_iff (fun _ => Function.iterate_succ_apply' ..) hfinite, not_forall]
        refine ⟨fun ⟨fuel, hfuel⟩ => ?_, fun ⟨round, hround⟩ => ⟨round, ?_⟩⟩
        · by_contra hall
          push Not at hall
          rw [(@walk_eq_none_iff _ _ (_, _) _ _).mpr fun round _ => hall round] at hfuel
          cases hfuel
        · rw [isSome_iff_ne_none]
          exact fun hnone => hround ((@walk_eq_none_iff _ _ (_, _) _ _).mp hnone round le_rfl)

end Returns

theorem recordAt_of_isSome_found {getTuple : CheckpointQuery → Result (Option CheckpointTuple)}
    {query : DeltaChannelHistoryQuery} {id : Bytes} (h : (found getTuple query id).isSome) :
    ∃ record, recordAt getTuple query id = .ok (some record) := by
  unfold found at h
  split at h
  case h_1 record hrecord =>
    obtain ⟨record, rfl⟩ := isSome_iff_exists.mp h
    exact ⟨record, hrecord⟩
  case h_2 => cases h

theorem finite_found_inMemory (store : InMemoryStore) (query : DeltaChannelHistoryQuery) :
    {id | (found (getTuple · store) query id).isSome}.Finite := by
  refine (finite_toSet ((threadCheckpoints store query.threadId).map
    Checkpoint.checkpointId)).subset fun id hid => ?_
  obtain ⟨record, hrecord⟩ := recordAt_of_isSome_found hid
  obtain ⟨_, _, hrecord⟩ := of_bind hrecord
  obtain ⟨c, hc, -⟩ := map_eq_some_iff.mp (Except.ok.inj hrecord)
  have hname := find?_some hc
  simp only [Bool.and_eq_true, decide_eq_true_eq] at hname
  exact List.mem_map.mpr ⟨c, mem_of_find?_eq_some hc, hname.2⟩

theorem find_keyFor_of_getCheckpoint {saver : StorageSaver} {threadId id ns : Bytes}
    {storage : MemoryStorage} {c : Checkpoint}
    (h : saver.getCheckpoint threadId id ns storage = .ok (some c)) :
    (storage.find ⟨saver.scope, dir (hexEncode threadId :: StorageSaver.namespaceSegments ns) ++
      hexEncode id⟩).isSome := by
  obtain ⟨_, _, h⟩ := of_bind h
  obtain ⟨key, hkey, h⟩ := of_bind h
  obtain ⟨_, hkey⟩ := of_require hkey
  obtain ⟨_, hkey⟩ := of_require hkey
  obtain ⟨value, hget, h⟩ := of_bind h
  obtain ⟨_, _, hget⟩ := of_bind hget
  cases hkey
  rw [key_append (cons_ne_nil _ _)] at hget
  cases value with
  | none => cases h
  | some value => exact isSome_iff_exists.mpr ⟨value, Except.ok.inj hget⟩

theorem finite_found_storage (saver : StorageSaver) (storage : MemoryStorage)
    (query : DeltaChannelHistoryQuery) :
    {id | (found (saver.getTuple · storage) query id).isSome}.Finite := by
  have hfinite := (finite_toSet (storage.items.map Prod.fst)).preimage (f := fun id : Bytes =>
    (⟨saver.scope, dir (hexEncode query.threadId ::
      StorageSaver.namespaceSegments query.checkpointNamespace) ++ hexEncode id⟩ : StorageKey))
    fun a _ b _ h => hexEncode_injective (append_cancel_left (StorageKey.mk.inj h).2)
  refine hfinite.subset fun id hid => ?_
  obtain ⟨record, hrecord⟩ := recordAt_of_isSome_found hid
  obtain ⟨_, _, hrecord⟩ := of_bind hrecord
  obtain ⟨checkpoint, hfind, hrecord⟩ := of_bind hrecord
  cases checkpoint with
  | none => cases hrecord
  | some =>
    obtain ⟨value, hvalue⟩ := isSome_iff_exists.mp (find_keyFor_of_getCheckpoint hfind)
    exact List.mem_map.mpr ⟨_, mem_of_find_eq_some hvalue, rfl⟩

/-- With either saver the walk ends exactly if it does not come back to a checkpoint while a channel
    is without a seed. -/
theorem delta_history_returns_iff (store : InMemoryStore) (saver : StorageSaver)
    (storage : MemoryStorage) (query : DeltaChannelHistoryQuery) :
    (Returns (InMemorySaver.getTuple · store) query ↔
      ¬ ComesBack (InMemorySaver.getTuple · store) query) ∧
    (Returns (saver.getTuple · storage) query ↔ ¬ ComesBack (saver.getTuple · storage) query) :=
  ⟨returns_iff (finite_found_inMemory store query),
    returns_iff (finite_found_storage saver storage query)⟩

/-- A checkpoint that is its own parent. -/
theorem history_of_own_parent :
    let a : Checkpoint :=
      { threadId := lit "t", checkpointId := lit "a", parentCheckpointId := some (lit "a") }
    let stored := InMemorySaver.put a {}
    stored.1 = .ok () ∧ ∀ fuel, getDeltaChannelHistory (InMemorySaver.getTuple · stored.2)
      { threadId := lit "t", checkpointId := lit "a", channels := [lit "x"] } fuel = none := by
  refine ⟨rfl, fun fuel => ?_⟩
  have hloop : ∀ histories, walk (getTuple · (put
      { threadId := lit "t", checkpointId := lit "a"
        parentCheckpointId := some (lit "a") } {}).2)
      { threadId := lit "t", checkpointId := lit "a", channels := [lit "x"] } fuel (some (lit "a"))
      [lit "x"] histories = none := by
    induction fuel with
    | zero => exact fun _ => rfl
    | succ fuel ih => exact fun _ => ih _
  exact hloop _

end DeltaHistory

end LangGraph
