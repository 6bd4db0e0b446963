import LangGraph.Lib.MonitorSerial

/-!
# Sleepers and their callbacks

A thread is stuck if it sleeps although what it waits for is there and nobody is about to notify its
condition variable.  `Rationing` says how a monitor pays for its `notify_one`s: there is a supply of
things to wait for at each condition variable, and an operation that adds to the supply wakes as many
threads, or all of them.  `Bedded` is the part of the argument that is about cancellation: a sleeper
whose token is stopped has a callback that will notify it, as long as a callback does not notify
between the test and the sleep of its operation.
-/

namespace Monitor

open Function List

variable {τ κ δ γ ρ ι χ : Type} [DecidableEq τ] [DecidableEq κ]

/-! ## 1. Stuck threads -/

/-- The callback still has to notify the condition variable. -/
def Callback.owes (cv : κ) : Callback κ ι → Bool
  | .registered _ => true
  | .running _ rest => decide (cv ∈ rest)
  | _ => false

def Outcome.wakes : Outcome δ κ γ ρ → List (Wake κ)
  | .finish exit => exit.wakes
  | .next _ wakes _ => wakes

/-- The thread is in the operation of this stage, past its first look, and does not sleep. -/
inductive Awake (spec : Spec τ κ δ γ ρ ι χ) (s : State τ κ δ γ ρ ι χ) (thread : τ) (stage : γ) :
    Prop where
  | woken (point : s.point thread = .waiting stage)
      (awake : thread ∉ s.sleepers (spec.cv stage))
  | testing (point : s.point thread = .testing stage)
  | overdue (point : s.point thread = .overdue stage)
  | lastLook (point : s.point thread = .lastLook stage)
  | deciding (point : s.point thread = .deciding stage)

/-- Somebody is about to notify: the condition variable itself, or, as an operation that waited for
    the same thing, whoever comes next. -/
inductive AboutToNotify (spec : Spec τ κ δ γ ρ ι χ) (s : State τ κ δ γ ρ ι χ) (cv : κ) :
    Prop where
  | late {thread : τ} {stage : γ} {late : List κ} {result : ρ}
      (point : s.point thread = .leaving stage late result) (mem : cv ∈ late)
  | callback {thread : τ} {stage : γ} (progress : s.progress thread = .at stage)
      (stopped : (s.stopReason spec stage).isSome = true)
      (owes : (s.callback thread).owes cv = true)
  | operation {thread : τ} {stage : γ} (cv_eq : spec.cv stage = cv)
      (awake : Awake spec s thread stage) (running : s.stopReason spec stage = none)
      (ready : spec.ready stage s.data = true)
      (wakes : (spec.act stage thread s.data).wakes ≠ [])

/-- The thread sleeps in an untimed wait whose predicate is true, and nobody is about to notify. -/
structure Stuck (spec : Spec τ κ δ γ ρ ι χ) (s : State τ κ δ γ ρ ι χ) (thread : τ) (stage : γ) :
    Prop where
  point : s.point thread = .waiting stage
  untimed : spec.patience stage = .untimed
  asleep : thread ∈ s.sleepers (spec.cv stage)
  predicate : spec.ready stage s.data = true ∨ (s.stopReason spec stage).isSome = true
  silent : ¬ AboutToNotify spec s (spec.cv stage)

/-- A callback does not notify between the test and the sleep of its own operation, and the turns of
    the operations heed a condition of their own, on the data, on who sleeps, and on whether the
    callback of the operation has still to notify. -/
def Careful (spec : Spec τ κ δ γ ρ ι χ) (heed : γ → Turn χ → Bool → δ → (κ → List τ) → Prop)
    (move : Move τ γ ι χ) (s : State τ κ δ γ ρ ι χ) : Prop :=
  match move with
  | .alarm thread =>
    match s.callback thread, s.point thread with
    | .running _ (cv :: _), .falling stage => spec.cv stage ≠ cv
    | _, _ => True
  | .step thread _ =>
    match s.turn spec thread with
    | none => True
    | some (stage, turn) =>
      heed stage turn ((s.callback thread).owes (spec.cv stage)) s.data s.sleepers
  | _ => True

instance (spec : Spec τ κ δ γ ρ ι χ) (heed : γ → Turn χ → Bool → δ → (κ → List τ) → Prop)
    [∀ stage turn owes data sleepers, Decidable (heed stage turn owes data sleepers)]
    (move : Move τ γ ι χ) (s : State τ κ δ γ ρ ι χ) : Decidable (Careful spec heed move s) :=
  match move with
  | .alarm thread => by
    rcases hc : s.callback thread with _ | _ | ⟨_, _ | ⟨cv, _⟩⟩ | _
    case running.cons =>
      cases hp : s.point thread
      case falling stage => exact decidable_of_iff (spec.cv stage ≠ cv) (by simp [Careful, hc, hp])
      all_goals exact isTrue (by simp [Careful, hc, hp])
    all_goals exact isTrue (by simp [Careful, hc])
  | .step thread _ => by
    cases ht : s.turn spec thread with
    | none => exact isTrue (by simp [Careful, ht])
    | some turn =>
      exact decidable_of_iff (heed turn.1 turn.2 ((s.callback thread).owes (spec.cv turn.1)) s.data
        s.sleepers) (by simp [Careful, ht])
  | .call .. | .rouse _ | .lapse _ | .stop .. | .fire _ => isTrue trivial

/-! ## 2. How notifications are paid for -/

/-- What an operation writes when it takes its turn: the data and the notifications with the mutex
    and after it. -/
inductive Writes (spec : Spec τ κ δ γ ρ ι χ) (thread : τ) (stage : γ) (data : δ) :
    Turn χ → δ → List (Wake κ) → List κ → Prop where
  | exit {turn : Turn χ} {exit : Exit δ κ ρ}
      (exit_eq : spec.exit stage thread data turn = some exit) :
      Writes spec thread stage data turn exit.data exit.wakes exit.late
  | next {data' : δ} {wakes : List (Wake κ)} {stage' : γ}
      (act_eq : spec.act stage thread data = .next data' wakes stage') :
      Writes spec thread stage data .act data' wakes []

def Turn.isAct : Turn χ → Bool
  | .act => true
  | _ => false

/-- An operation that waited at the condition variable and acts takes one thing from its supply. -/
def Spec.consumes (spec : Spec τ κ δ γ ρ ι χ) (stage : γ) (turn : Turn χ) (cv : κ) : Nat :=
  if turn.isAct = true ∧ spec.cv stage = cv ∧ spec.patience stage ≠ .instant then 1 else 0

omit [DecidableEq τ] in
theorem Spec.consumes_cases (spec : Spec τ κ δ γ ρ ι χ) (stage : γ) (turn : Turn χ) (cv : κ) :
    spec.consumes stage turn cv = 0 ∨
      spec.consumes stage turn cv = 1 ∧ cv = spec.cv stage ∧ spec.patience stage ≠ .instant := by
  unfold Spec.consumes
  split_ifs with hconsumes
  · exact .inr ⟨rfl, hconsumes.2.1.symm, hconsumes.2.2⟩
  · exact .inl rfl

/-- A supply for each condition variable such that a waiting operation is ready if there is some of
    it or the monitor is shut for good. -/
structure Rationing (spec : Spec τ κ δ γ ρ ι χ)
    (heed : γ → Turn χ → Bool → δ → (κ → List τ) → Prop) where
  supply : κ → δ → Nat
  shut : δ → Bool
  /-- Every thread woken at this condition variable takes its share and notifies the next. -/
  counts : κ → Bool
  ready_iff : ∀ stage data, spec.patience stage ≠ .instant →
    (spec.ready stage data = true ↔ shut data = true ∨ 0 < supply (spec.cv stage) data)
  alarm : ∀ cv, cv ∈ spec.alarm
  productive : ∀ stage thread data, counts (spec.cv stage) = true →
    spec.patience stage ≠ .instant → spec.ready stage data = true → shut data = false →
    (spec.act stage thread data).wakes ≠ []
  keeps_token : ∀ {stage thread data data' wakes stage'},
    spec.act stage thread data = .next data' wakes stage' → spec.token stage' = spec.token stage
  /-- What shuts the monitor notifies everybody. -/
  announces : ∀ {thread stage data turn data' wakes late},
    Writes spec thread stage data turn data' wakes late →
    (turn = .act → spec.ready stage data = true) → shut data = false → shut data' = true →
    ∀ cv, cv ∈ late
  /-- Who gives up although there is some of the supply leaves nobody behind who waits for it. -/
  yields : ∀ {stage reason data sleepers}, heed stage (.abandon reason) true data sleepers →
    counts (spec.cv stage) = true → spec.patience stage ≠ .instant → shut data = false →
    spec.ready stage data = true → sleepers (spec.cv stage) = []
  feeds : ∀ {thread stage data turn owes data' wakes late chosen sleepers sleepers'},
    heed stage turn owes data sleepers → Writes spec thread stage data turn data' wakes late →
    (turn = .act → spec.ready stage data = true) →
    wakeUp wakes chosen sleepers = some sleepers' → shut data = false → shut data' = false →
    ∀ cv, counts cv = true ∨ supply cv data = 0 → sleepers' cv = [] ∨ supply cv data' = 0 ∨
      (counts cv = true ∧ supply cv data' + spec.consumes stage turn cv ≤
        supply cv data + wakes.count (.one cv))

/-! ## 3. Sleepers -/

theorem wakeUp_spec {wakes : List (Wake κ)} {chosen : List τ} {sleepers sleepers' : κ → List τ}
    (h : wakeUp wakes chosen sleepers = some sleepers') (hnodup : ∀ cv, (sleepers cv).Nodup)
    (cv : κ) :
    (sleepers' cv).Nodup ∧ (∀ thread ∈ sleepers' cv, thread ∈ sleepers cv) ∧
      (sleepers' cv = [] ∨ ∃ woken : Finset τ, woken.card = wakes.count (.one cv) ∧
        ∀ thread ∈ woken, thread ∈ sleepers cv ∧ thread ∉ sleepers' cv) := by
  induction wakes generalizing chosen sleepers with
  | nil =>
    cases h; exact ⟨hnodup cv, fun _ hthread => hthread, .inr ⟨∅, rfl, by simp⟩⟩
  | cons wake wakes ih =>
    cases wake with
    | all other =>
      have hnodup' : ∀ cv, (update sleepers other [] cv).Nodup :=
        (forall_update_iff _ fun _ => Nodup).mpr
          ⟨nodup_nil, fun cv _ => hnodup cv⟩
      obtain ⟨hnodup'', hsub, hwoken⟩ := ih h hnodup'
      by_cases hcv : cv = other
      · subst hcv
        rw [update_self] at hsub
        have hempty : sleepers' cv = [] := eq_nil_iff_forall_not_mem.mpr fun thread hmem =>
          not_mem_nil (hsub thread hmem)
        exact ⟨hnodup'', fun thread hmem => absurd (hsub thread hmem) not_mem_nil, .inl hempty⟩
      · rw [update_of_ne hcv] at hsub hwoken
        refine ⟨hnodup'', hsub, ?_⟩
        rwa [count_cons_of_ne (by simp)]
    | one other =>
      unfold wakeUp at h
      split_ifs at h with hnone
      · obtain ⟨hnodup', hsub, hwoken⟩ := ih h hnodup
        by_cases hcv : cv = other
        · subst hcv
          refine ⟨hnodup', hsub, .inl (eq_nil_iff_forall_not_mem.mpr fun thread hmem => ?_)⟩
          have hmem' := hsub thread hmem
          rw [hnone] at hmem'; cases hmem'
        · refine ⟨hnodup', hsub, ?_⟩
          rwa [count_cons_of_ne (by simpa using Ne.symm hcv)]
      · split at h
        · cases h
        · rename_i first chosen'
          split_ifs at h with hfirst
          have hnodup' : ∀ cv, (update sleepers other ((sleepers other).erase first) cv).Nodup :=
            (forall_update_iff _ fun _ => Nodup).mpr
              ⟨(hnodup other).erase first, fun cv _ => hnodup cv⟩
          obtain ⟨hnodup'', hsub, hwoken⟩ := ih h hnodup'
          by_cases hcv : cv = other
          · subst hcv
            rw [update_self] at hsub hwoken
            refine ⟨hnodup'', fun thread hmem => mem_of_mem_erase (hsub thread hmem), ?_⟩
            rw [count_cons_self]
            rcases hwoken with hempty | ⟨woken, hcard, hwoken⟩
            · exact .inl hempty
            · -- the thread that was chosen is not among those woken later
              have hnot : first ∉ woken := by
                intro hmem; exact (hnodup cv).not_mem_erase (hwoken first hmem).1
              refine .inr ⟨insert first woken, by rw [Finset.card_insert_of_notMem hnot, hcard], ?_⟩
              intro thread hmem
              rcases Finset.mem_insert.mp hmem with rfl | hmem
              · exact ⟨hfirst, fun hstill => (hnodup cv).not_mem_erase (hsub thread hstill)⟩
              · exact ⟨mem_of_mem_erase (hwoken thread hmem).1, (hwoken thread hmem).2⟩
          · rw [update_of_ne hcv] at hsub hwoken
            refine ⟨hnodup'', hsub, ?_⟩
            rwa [count_cons_of_ne (by simpa using Ne.symm hcv)]

/-- The stage of a call whose callback has been registered, or need not be. -/
def Point.bookedStage : Point κ γ ρ → Option γ
  | .confirming stage | .registered stage | .testing stage | .falling stage | .waiting stage
  | .overdue stage | .lastLook stage | .deciding stage => some stage
  | _ => none

/-- The stage of a thread that goes to sleep or has slept. -/
def Point.waitStage : Point κ γ ρ → Option γ
  | .falling stage | .waiting stage | .overdue stage | .lastLook stage => some stage
  | _ => none

/-- Who sleeps where, and whose callback is to wake them. -/
structure Bedded (spec : Spec τ κ δ γ ρ ι χ) (s : State τ κ δ γ ρ ι χ) : Prop where
  nodup : ∀ cv, (s.sleepers cv).Nodup
  asleep : ∀ cv, ∀ thread ∈ s.sleepers cv, ∃ stage, s.point thread = .waiting stage ∧
    spec.cv stage = cv
  booked : ∀ thread stage token, (s.point thread).bookedStage = some stage →
    spec.token stage = some token → s.stopped token = none →
    s.callback thread = .registered token
  waits : ∀ thread stage, (s.point thread).waitStage = some stage → spec.patience stage ≠ .instant
  /-- A thread on its way to sleep does not miss that its token is stopped. -/
  falling : ∀ thread stage, s.point thread = .falling stage → s.stopReason spec stage = none ∨
    (s.callback thread).owes (spec.cv stage) = true
  /-- A sleeper whose token is stopped will be notified. -/
  owed : ∀ thread stage, s.point thread = .waiting stage →
    thread ∈ s.sleepers (spec.cv stage) → (s.stopReason spec stage).isSome = true →
    (s.callback thread).owes (spec.cv stage) = true

omit [DecidableEq τ] in
theorem bedded_start {spec : Spec τ κ δ γ ρ ι χ} (data : δ) : Bedded spec { data := data } where
  nodup cv := nodup_nil
  asleep cv thread h := by cases h
  booked thread stage token h := by cases h
  waits thread stage h := by cases h
  falling thread stage h := by cases h
  owed thread stage h := by cases h

section Bedded

variable {spec : Spec τ κ δ γ ρ ι χ} {heed : γ → Turn χ → Bool → δ → (κ → List τ) → Prop}
  {s s' : State τ κ δ γ ρ ι χ}

section

variable (h : Bedded spec s) {thread : τ} {next : Point κ γ ρ} {data : δ} {owner : Option τ}
  (hbooked : ∀ stage token, next.bookedStage = some stage → spec.token stage = some token →
    s.stopped token = none → s.callback thread = .registered token)
  (hwaits : ∀ stage, next.waitStage = some stage → spec.patience stage ≠ .instant)
  (hfalling : ∀ stage, next = .falling stage → s.stopReason spec stage = none ∨
    (s.callback thread).owes (spec.cv stage) = true)

include h hbooked hwaits hfalling

theorem Bedded.of_moveTo {sleepers : κ → List τ} (hnodup : ∀ cv, (sleepers cv).Nodup)
    (hsub : ∀ cv, ∀ other ∈ sleepers cv, other ≠ thread → other ∈ s.sleepers cv)
    (hself : ∀ cv, thread ∈ sleepers cv → ∃ stage, next = .waiting stage ∧ spec.cv stage = cv)
    (howed : ∀ stage, next = .waiting stage → s.stopReason spec stage = none ∨
      (s.callback thread).owes (spec.cv stage) = true) :
    Bedded spec
      { s.moveTo thread next with data := data, owner := owner, sleepers := sleepers } where
  nodup := hnodup
  asleep cv := (forall_update_iff s.point fun other point => other ∈ sleepers cv →
      ∃ stage, point = .waiting stage ∧ spec.cv stage = cv).mpr
    ⟨hself cv, fun other hne hother => h.asleep cv other (hsub cv other hother hne)⟩
  booked := (forall_update_iff s.point fun other point => ∀ stage token,
      point.bookedStage = some stage → spec.token stage = some token → s.stopped token = none →
      s.callback other = .registered token).mpr ⟨hbooked, fun other _ => h.booked other⟩
  waits := (forall_update_iff s.point fun _ point => ∀ stage,
      point.waitStage = some stage → spec.patience stage ≠ .instant).mpr
    ⟨hwaits, fun other _ => h.waits other⟩
  falling := (forall_update_iff s.point fun other point => ∀ stage,
      point = .falling stage → s.stopReason spec stage = none ∨
        (s.callback other).owes (spec.cv stage) = true).mpr
    ⟨hfalling, fun other _ => h.falling other⟩
  owed := by
    refine (forall_update_iff s.point fun other point => ∀ stage,
      point = .waiting stage → other ∈ sleepers (spec.cv stage) →
      (s.stopReason spec stage).isSome = true →
      (s.callback other).owes (spec.cv stage) = true).mpr ⟨?_, ?_⟩
    · intro stage hpoint _ hstopped
      refine (howed stage hpoint).resolve_left fun hrunning => ?_
      rw [hrunning] at hstopped; cases hstopped
    · intro other hne stage hpoint hasleep
      exact h.owed other stage hpoint (hsub _ other hasleep hne)

theorem Bedded.walk (hpoint : ∀ cv, thread ∉ s.sleepers cv)
    (hwaiting : ∀ stage, next ≠ .waiting stage) :
    Bedded spec { s.moveTo thread next with data := data, owner := owner } :=
  h.of_moveTo hbooked hwaits hfalling h.nodup (fun _ _ hother _ => hother)
    (fun cv hself => absurd hself (hpoint cv)) fun stage hnext => absurd hnext (hwaiting stage)

end

omit [DecidableEq τ] in
theorem Bedded.wake (h : Bedded spec s) {sleepers : κ → List τ}
    (hnodup : ∀ cv, (sleepers cv).Nodup)
    (hsub : ∀ cv, ∀ thread ∈ sleepers cv, thread ∈ s.sleepers cv) :
    Bedded spec { s with sleepers := sleepers } where
  __ := h
  nodup := hnodup
  asleep cv thread hthread := h.asleep cv thread (hsub cv thread hthread)
  owed thread stage hpoint hasleep := h.owed thread stage hpoint (hsub _ thread hasleep)

omit [DecidableEq τ] in
theorem Bedded.notifyAll (h : Bedded spec s) (cv : κ) : Bedded spec (s.notifyAll cv) := by
  refine h.wake ?_ ?_
  · exact (forall_update_iff _ fun _ => Nodup).mpr
      ⟨nodup_nil, fun other _ => h.nodup other⟩
  · exact (forall_update_iff _ fun other threads =>
      ∀ thread ∈ threads, thread ∈ s.sleepers other).mpr ⟨nofun, fun _ _ _ hthread => hthread⟩

theorem Bedded.rouse (h : Bedded spec s) (cv : κ) (thread : τ) :
    (∀ other, (update s.sleepers cv ((s.sleepers cv).erase thread) other).Nodup) ∧
      ∀ other, ∀ sleeper ∈ update s.sleepers cv ((s.sleepers cv).erase thread) other,
        sleeper ∈ s.sleepers other := by
  constructor
  · exact (forall_update_iff _ fun _ => Nodup).mpr
      ⟨(h.nodup cv).erase thread, fun other _ => h.nodup other⟩
  · exact (forall_update_iff _ fun other threads =>
      ∀ sleeper ∈ threads, sleeper ∈ s.sleepers other).mpr
      ⟨fun _ => mem_of_mem_erase, fun _ _ _ hsleeper => hsleeper⟩

theorem Bedded.of_setCallback (h : Bedded spec s) {thread : τ} {callback : Callback κ ι}
    (hbooked : ∀ stage token, (s.point thread).bookedStage = some stage →
      spec.token stage = some token → s.stopped token = none → callback = .registered token)
    (howed : ∀ stage, s.point thread = .waiting stage →
      thread ∈ s.sleepers (spec.cv stage) → (s.callback thread).owes (spec.cv stage) = true →
      callback.owes (spec.cv stage) = true)
    (hfalling : ∀ stage, s.point thread = .falling stage →
      (s.callback thread).owes (spec.cv stage) = true → callback.owes (spec.cv stage) = true) :
    Bedded spec (s.setCallback thread callback) where
  __ := h
  booked := (forall_update_iff s.callback fun other callback => ∀ stage token,
      (s.point other).bookedStage = some stage → spec.token stage = some token →
      s.stopped token = none → callback = .registered token).mpr
    ⟨hbooked, fun other _ => h.booked other⟩
  falling := (forall_update_iff s.callback fun other callback => ∀ stage,
      s.point other = .falling stage → s.stopReason spec stage = none ∨
        callback.owes (spec.cv stage) = true).mpr
    ⟨fun stage hpoint => (h.falling thread stage hpoint).imp id (hfalling stage hpoint),
      fun other _ => h.falling other⟩
  owed := (forall_update_iff s.callback fun other callback => ∀ stage,
      s.point other = .waiting stage → other ∈ s.sleepers (spec.cv stage) →
      (s.stopReason spec stage).isSome = true → callback.owes (spec.cv stage) = true).mpr
    ⟨fun stage hpoint hasleep hstopped => howed stage hpoint hasleep
      (h.owed thread stage hpoint hasleep hstopped), fun other _ => h.owed other⟩

variable {thread : τ} {stage : γ} {token : ι}

omit [DecidableEq τ] in
theorem Bedded.not_asleep (h : Bedded spec s) (hpoint : ∀ stage, s.point thread ≠ .waiting stage)
    (cv : κ) : thread ∉ s.sleepers cv := by
  intro hasleep
  obtain ⟨stage, hwaiting, -⟩ := h.asleep cv thread hasleep
  exact hpoint stage hwaiting

omit [DecidableEq τ] in
theorem Bedded.cv_eq (h : Bedded spec s) {cv : κ} (hpoint : s.point thread = .waiting stage)
    (hasleep : thread ∈ s.sleepers cv) : spec.cv stage = cv := by
  obtain ⟨other, hother, hcv⟩ := h.asleep cv thread hasleep
  rw [hpoint] at hother
  cases hother; exact hcv

omit [DecidableEq τ] [DecidableEq κ] in
theorem ne_waiting_of_holdsMutex (h : (s.point thread).holdsMutex = true) (stage : γ) :
    s.point thread ≠ .waiting stage := by
  intro hpoint
  rw [hpoint] at h; cases h

section Steps

omit [DecidableEq τ] [DecidableEq κ]

variable {thread : τ} {point next : Point κ γ ρ} {callback : Callback κ ι} {stage : γ}

theorem Walk.ne_waiting (h : Walk spec s point next) :
    point ≠ .waiting stage ∧ next ≠ .waiting stage := by
  cases h <;> exact ⟨nofun, nofun⟩

theorem Walk.bookedStage (h : Walk spec s point next) (hnext : next.bookedStage = some stage) :
    point.bookedStage = some stage ∨ spec.token stage = none := by
  cases h with
  | check => cases hnext
  | tokenless none =>
    cases hnext; exact .inr none
  | confirm | pass | fall | grab => exact .inl hnext

theorem Walk.waitStage (h : Walk spec s point next) (hnext : next.waitStage = some stage) :
    next = .falling stage := by
  cases h <;> cases hnext
  rfl

section

variable (h : Entry spec s thread point next)

include h

theorem Entry.bookedStage_eq : next.bookedStage = point.bookedStage := by
  cases h <;> rfl

theorem Entry.waitStage (hnext : next.waitStage = some stage) : point.waitStage = some stage := by
  cases h <;> cases hnext
  rfl

theorem Entry.ne_waiting : next ≠ .waiting stage := by
  cases h <;> exact nofun

end

section

variable (h : Booking spec s thread point callback next)

include h

theorem Booking.ne_waiting : point ≠ .waiting stage ∧ next ≠ .waiting stage := by
  cases h <;> exact ⟨nofun, nofun⟩

theorem Booking.ne_falling : point ≠ .falling stage := by
  cases h <;> exact nofun

theorem Booking.waitStage : next.waitStage = none := by
  cases h <;> rfl

theorem Booking.booked {token : ι}
    (hstage : point.bookedStage = some stage ∨ next.bookedStage = some stage)
    (htoken : spec.token stage = some token) (hrunning : s.stopped token = none) :
    callback = .registered token := by
  have hreason : s.stopReason spec stage = none := by rw [State.stopReason, htoken]; exact hrunning
  cases h with
  | inline stopped =>
    rcases hstage with hstage | hstage
    · cases hstage
    · cases hstage
      rw [hreason] at stopped; cases stopped
  | register token_eq =>
    rcases hstage with hstage | hstage
    · cases hstage
    · cases hstage
      rw [htoken] at token_eq
      cases token_eq; rfl
  | @withdraw stage' stopped =>
    have hsame : stage' = stage := by simpa [Point.bookedStage] using hstage
    rw [hsame, hreason] at stopped; cases stopped
  | close =>
    rcases hstage with hstage | hstage
    · cases hstage
    · cases hstage

end

end Steps

variable [DecidableEq ι]

omit [DecidableEq τ] [DecidableEq κ] in
theorem stopReason_stop_eq_none {reason : χ} (h : s.stopReason spec stage = none)
    (htoken : spec.token stage ≠ some token) :
    State.stopReason spec
      { s with stopped := update s.stopped token (some reason) } stage = none := by
  unfold State.stopReason at h ⊢
  cases hstage : spec.token stage with
  | none => rfl
  | some other =>
    rw [hstage] at h htoken
    have hne : other ≠ token := fun hsame => htoken (by rw [hsame])
    change update s.stopped token (some reason) other = none
    rw [update_of_ne hne]; exact h

omit [DecidableEq τ] [DecidableEq κ] in
theorem stopped_of_stop {other : ι} {reason : χ}
    (h : update s.stopped token (some reason) other = none) : s.stopped other = none := by
  by_cases hother : other = token
  · subst hother
    rw [update_self] at h; cases h
  · rwa [update_of_ne hother] at h

omit [DecidableEq τ] in
theorem Bedded.owes_of_stop (h : Bedded spec s) (token : ι) (reason : χ)
    (hbooked : (s.point thread).bookedStage = some stage)
    (howes : s.stopReason spec stage = none ∨ (s.callback thread).owes (spec.cv stage) = true) :
    State.stopReason spec
        { s with stopped := update s.stopped token (some reason) } stage = none ∨
      (s.callback thread).owes (spec.cv stage) = true := by
  rcases howes with hrunning | howes
  · by_cases htoken : spec.token stage = some token
    · rw [State.stopReason, htoken] at hrunning
      rw [h.booked thread stage token hbooked htoken hrunning]; exact .inr rfl
    · exact .inl (stopReason_stop_eq_none hrunning htoken)
  · exact .inr howes

omit [DecidableEq τ] in
theorem Bedded.stop (h : Bedded spec s) (token : ι) (reason : χ) :
    Bedded spec { s with stopped := update s.stopped token (some reason) } where
  __ := h
  booked thread stage other hpoint htoken hrunning :=
    h.booked thread stage other hpoint htoken (stopped_of_stop hrunning)
  falling thread stage hpoint :=
    h.owes_of_stop token reason (by rw [show s.point thread = _ from hpoint]; rfl)
      (h.falling thread stage hpoint)
  owed thread stage hpoint hasleep hstopped := by
    have hpoint' : s.point thread = .waiting stage := hpoint
    have hbefore : s.stopReason spec stage = none ∨
        (s.callback thread).owes (spec.cv stage) = true := by
      cases hreason : s.stopReason spec stage with
      | none => exact .inl rfl
      | some => exact .inr (h.owed thread stage hpoint hasleep (by rw [hreason]; rfl))
    rcases h.owes_of_stop token reason (by rw [hpoint']; rfl) hbefore with
      hrunning | howes
    · rw [hrunning] at hstopped; cases hstopped
    · exact howes

omit [DecidableEq ι] in
theorem Bedded.fire (h : Bedded spec s) (r : Rationing spec heed)
    (hcallback : s.callback thread = .registered token)
    (hstopped : (s.stopped token).isSome = true) :
    Bedded spec (s.setCallback thread (.running false spec.alarm)) := by
  refine h.of_setCallback (fun stage other hpoint htoken hrunning => ?_)
    (fun stage _ _ _ => decide_eq_true (r.alarm _)) fun stage _ _ => decide_eq_true (r.alarm _)
  have hsame := h.booked thread stage other hpoint htoken hrunning
  rw [hcallback] at hsame
  cases hsame
  rw [hrunning] at hstopped; cases hstopped

omit [DecidableEq ι] in
theorem Bedded.ring (h : Bedded spec s) {thread : τ} {inline : Bool} {rest : List κ}
    {callback : Callback κ ι} (hcallback : s.callback thread = .running inline rest)
    (hwaiting : ∀ stage, s.point thread = .waiting stage → thread ∈ s.sleepers (spec.cv stage) →
      spec.cv stage ∈ rest → callback.owes (spec.cv stage) = true)
    (hfalling : ∀ stage, s.point thread = .falling stage →
      spec.cv stage ∈ rest → callback.owes (spec.cv stage) = true) :
    Bedded spec (s.setCallback thread callback) := by
  refine h.of_setCallback (fun stage token hpoint htoken hrunning => ?_)
    (fun stage hpoint hasleep howed => ?_) fun stage hpoint howed => ?_
  · have hsame := h.booked thread stage token hpoint htoken hrunning
    rw [hcallback] at hsame; cases hsame
  · rw [hcallback] at howed
    exact hwaiting stage hpoint hasleep (of_decide_eq_true howed)
  · rw [hcallback] at howed; exact hfalling stage hpoint (of_decide_eq_true howed)

omit [DecidableEq ι] in
/-- The one step that puts a thread to bed: it was in no other list, so no list gets it twice. -/
theorem Bedded.sleep (h : Bedded spec s) (point : s.point thread = .falling stage) :
    Bedded spec { s.moveTo thread (.waiting stage) with
      owner := none
      sleepers := update s.sleepers (spec.cv stage) (thread :: s.sleepers (spec.cv stage)) } := by
  have hawake : ∀ cv, thread ∉ s.sleepers cv :=
    h.not_asleep (ne_waiting_of_holdsMutex (by rw [point]; rfl))
  refine h.of_moveTo (fun stage' token hnext => ?_) (fun stage' hnext => ?_) (by nofun) ?_ ?_
    (fun cv hself => ?_) (fun stage' hnext => ?_)
  · cases hnext; exact h.booked thread stage token (by rw [point]; rfl)
  · cases hnext; exact h.waits thread stage (by rw [point]; rfl)
  · exact (forall_update_iff _ fun _ => Nodup).mpr
      ⟨nodup_cons.mpr ⟨hawake _, h.nodup _⟩, fun cv _ => h.nodup cv⟩
  · exact (forall_update_iff _ fun cv threads => ∀ other ∈ threads, other ≠ thread →
      other ∈ s.sleepers cv).mpr ⟨fun _ hother => (mem_cons.mp hother).resolve_left,
        fun _ _ _ hother _ => hother⟩
  · by_cases hcv : cv = spec.cv stage
    · exact ⟨stage, rfl, hcv.symm⟩
    · rw [update_of_ne hcv] at hself; exact absurd hself (hawake cv)
  · cases hnext; exact h.falling thread stage point

omit [DecidableEq ι] in
/-- A timeout takes the thread out of the only list it can be in. -/
theorem Bedded.lapse (h : Bedded spec s) (point : s.point thread = .waiting stage) :
    Bedded spec { s.moveTo thread (.overdue stage) with
      sleepers := update s.sleepers (spec.cv stage)
        ((s.sleepers (spec.cv stage)).erase thread) } := by
  obtain ⟨hnodup, hsub⟩ := h.rouse (spec.cv stage) thread
  refine h.of_moveTo (fun stage' token hnext => ?_) (fun stage' hnext => ?_) (by nofun) hnodup
    (fun cv other hother _ => hsub cv other hother) (fun cv hself => ?_) nofun
  · cases hnext; exact h.booked thread stage token (by rw [point]; rfl)
  · cases hnext; exact h.waits thread stage (by rw [point]; rfl)
  · have hcv := h.cv_eq point (hsub cv thread hself)
    subst hcv
    rw [update_self] at hself
    exact absurd hself (h.nodup _).not_mem_erase

omit [DecidableEq ι] in
/-- A callback notifies one condition variable more.  A thread about to sleep there would miss the
    notification. -/
theorem Bedded.alarm (h : Bedded spec s) {thread : τ} {inline : Bool} {cv : κ} {rest : List κ}
    (hcallback : s.callback thread = .running inline (cv :: rest))
    (hcareful : ∀ stage, s.point thread = .falling stage → spec.cv stage ≠ cv) :
    Bedded spec ((s.notifyAll cv).setCallback thread (.running inline rest)) := by
  refine (h.notifyAll cv).ring (s := s.notifyAll cv) hcallback (fun stage _ hasleep hmem => ?_)
    fun stage hpoint hmem => ?_
  · -- who sleeps at another condition variable is still to be notified
    have hne : spec.cv stage ≠ cv := by
      intro hsame
      change thread ∈ update s.sleepers cv [] (spec.cv stage) at hasleep
      rw [hsame, update_self] at hasleep; cases hasleep
    exact decide_eq_true ((mem_cons.mp hmem).resolve_left hne)
  · exact decide_eq_true ((mem_cons.mp hmem).resolve_left (hcareful stage hpoint))

theorem Bedded.step {move : Move τ γ ι χ} (h : Bedded spec s) (r : Rationing spec heed)
    (hcareful : Careful spec heed move s)
    (hstep : s.step spec move = some s') : Bedded spec s' := by
  cases step_change hstep with
  | call idle =>
    exact h.walk nofun nofun nofun
      (h.not_asleep fun stage hpoint => by rw [idle] at hpoint; cases hpoint) nofun
  | refuse point =>
    exact h.walk nofun nofun nofun
      (h.not_asleep fun stage hpoint => by rw [point] at hpoint; cases hpoint) nofun
  | @walk thread chosen next walk =>
    refine h.walk (fun stage token hnext htoken => ?_) (fun stage hnext => ?_)
      (fun stage hnext => ?_) (h.not_asleep fun _ => walk.ne_waiting.1) fun _ => walk.ne_waiting.2
    · rcases walk.bookedStage hnext with hpoint | hnone
      · exact h.booked thread stage token hpoint htoken
      · rw [htoken] at hnone; cases hnone
    · have hfalling := walk.waitStage hnext
      subst hfalling; exact walk.of_falling.2.2
    · subst hnext; exact .inl walk.of_falling.2.1
  | @book thread chosen callback next booking =>
    have hbedded : Bedded spec (s.setCallback thread callback) :=
      h.of_setCallback (fun stage token hpoint => booking.booked (.inl hpoint))
        (fun stage hpoint => absurd hpoint booking.ne_waiting.1)
        fun stage hpoint => absurd hpoint booking.ne_falling
    refine hbedded.walk (fun stage token hnext htoken hrunning => ?_) (fun stage hnext => ?_)
      (fun stage hnext => ?_) (h.not_asleep fun _ => booking.ne_waiting.1)
      fun _ => booking.ne_waiting.2
    · change update s.callback thread callback thread = _
      rw [update_self]; exact booking.booked (.inr hnext) htoken hrunning
    · rw [booking.waitStage] at hnext; cases hnext
    · rw [hnext] at booking; cases booking.waitStage
  | @lock thread chosen next free entry =>
    have hawake : ∀ cv, thread ∉ s.sleepers cv := by
      intro cv hasleep
      obtain ⟨stage, hwaiting, hcv⟩ := h.asleep cv thread hasleep
      rw [hwaiting] at entry
      cases entry with
      | wake awake => exact awake (hcv ▸ hasleep)
    refine h.walk (fun stage token hnext => ?_) (fun stage hnext => ?_)
      (fun stage hnext => absurd hnext entry.ne_falling) hawake fun _ => entry.ne_waiting
    · exact h.booked thread stage token (entry.bookedStage_eq ▸ hnext)
    · exact h.waits thread stage (entry.waitStage hnext)
  | sleep point => exact h.sleep point
  | @leave thread chosen stage turn exit sleepers held stage_eq turn_eq exit_eq woken =>
    have hwoken := fun cv => wakeUp_spec woken h.nodup cv
    have hawake := h.not_asleep (ne_waiting_of_holdsMutex held)
    exact h.of_moveTo (by nofun) (by nofun) (by nofun) (fun cv => (hwoken cv).1)
      (fun cv other hother _ => (hwoken cv).2.1 other hother)
      (fun cv hself => absurd ((hwoken cv).2.1 thread hself) (hawake cv)) nofun
  | @goOn thread chosen stage next data wakes sleepers point turn_eq act_eq woken =>
    have hwoken := fun cv => wakeUp_spec woken h.nodup cv
    have hawake := h.not_asleep (ne_waiting_of_holdsMutex (s := s) (by rw [point]; rfl))
    refine h.of_moveTo (fun stage' token hnext htoken => ?_) (by nofun) (by nofun)
      (fun cv => (hwoken cv).1) (fun cv other hother _ => (hwoken cv).2.1 other hother)
      (fun cv hself => absurd ((hwoken cv).2.1 thread hself) (hawake cv)) nofun
    cases hnext
    exact h.booked thread stage token (by rw [point]; rfl) (r.keeps_token act_eq ▸ htoken)
  | @notify thread chosen stage cv late result point =>
    have hnot : ∀ other, thread ∉ (s.notifyAll cv).sleepers other :=
      (h.notifyAll cv).not_asleep fun stage' hpoint => by
        have hpoint' : s.point thread = .waiting stage' := hpoint
        rw [point] at hpoint'; cases hpoint'
    exact (h.notifyAll cv).walk nofun nofun nofun hnot nofun
  | @rouse thread stage =>
    obtain ⟨hnodup, hsub⟩ := h.rouse (spec.cv stage) thread
    exact h.wake hnodup hsub
  | lapse point => exact h.lapse point
  | stop => exact h.stop _ _
  | fire callback stopped => exact h.fire r callback stopped
  | alarm callback =>
    refine h.alarm callback fun stage hpoint => ?_
    simpa only [Careful, callback, hpoint] using hcareful
  | ring callback =>
    exact h.ring callback (fun _ _ _ hmem => nomatch hmem) fun _ _ hmem => nomatch hmem

end Bedded

end Monitor
