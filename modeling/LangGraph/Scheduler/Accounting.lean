import LangGraph.Scheduler.Invariant

/-!
# The accounts of the scheduler

What the counter of active tasks counts, that a task ends once, that a task which is cancelled
before it starts does not run, and how often a periodic task runs.
-/

namespace LangGraph

namespace Scheduler

variable {requests : TaskId → Request} {s s' : State} {task : TaskId}

def Later (requests : TaskId → Request) (s s' : State) : Prop :=
  ∃ moves, Interleaving.run (State.step requests) moves s = some s'

/-! ## 1. What lasts in every run -/

theorem State.Inv.lasts (h : s.Inv requests) (hlater : Later requests s s') {P : Life → Prop}
    (hP : ∀ {l l' : Life} {place : Place} {regular : Bool}, l.Sound (requests task).job place →
      Life.Step (requests task).job regular l l' → P l → P l')
    (hs : P (s.life task)) : P (s'.life task) := by
  obtain ⟨moves, hrun⟩ := hlater
  refine (Interleaving.invariant (P := fun s => s.Inv requests ∧ P (s.life task)) ?_ ⟨h, hs⟩ hrun).2
  intro move s s' ⟨hinv, hlife⟩ hmove
  refine ⟨hinv.step hmove, ?_⟩
  obtain ⟨place, hsound⟩ := hinv.lives task
  rcases State.follows_step hinv.known hmove task with hsame | ⟨regular, hstep, _⟩
  · rw [hsame]; exact hlife
  · exact hP hsound hstep hlife

section

variable (h : s.Inv requests) (hlater : Later requests s s')

include h hlater

theorem State.Inv.record_of_terminal (hterminal : (s.record task).state.isTerminal = true) :
    s'.record task = s.record task := by
  refine h.lasts hlater (P := fun l => l.record = s.record task) ?_ rfl
  intro l l' place regular hsound hstep hl
  rw [hsound.record_of_terminal hstep (hl ▸ hterminal), hl]

theorem State.Inv.started_of_cancelRequested (hcancel : (s.record task).cancelRequested = true) :
    s'.started.count task = s.started.count task := by
  refine (h.lasts hlater (P := fun l => l.record.cancelRequested = true ∧
    l.started = s.started.count task) ?_ ⟨hcancel, rfl⟩).2
  intro l l' place regular _ hstep ⟨hl, hstarted⟩
  obtain ⟨hl', hsame⟩ := Life.started_of_cancelRequested hstep hl
  exact ⟨hl', hsame.trans hstarted⟩

theorem State.Inv.called_of_cancelRequested (hcancel : (s.record task).cancelRequested = true)
    (hrunning : (s.record task).running = false) : s'.called.count task = s.called.count task := by
  refine (h.lasts hlater (P := fun l => l.record.cancelRequested = true ∧
    l.record.running = false ∧ l.called = s.called.count task) ?_ ⟨hcancel, hrunning, rfl⟩).2.2
  intro l l' place regular hsound hstep ⟨hl, hidle, hcalled⟩
  obtain ⟨hidle', hsame⟩ := hsound.called_of_cancelRequested hstep hl hidle
  exact ⟨(Life.started_of_cancelRequested hstep hl).1, hidle', hsame.trans hcalled⟩

end

/-! ## 2. A token that is stopped -/

/-- The token of the task is stopped; whether its callback has reached the record does not matter. -/
def TokenStopped (requests : TaskId → Request) (s : State) (task : TaskId) : Prop :=
  (cancelledReason s.stopped (requests task).token).isSome

theorem State.Change.not_called {move : Move} (h : s.Change requests move s')
    (hstopped : TokenStopped requests s task) :
    TokenStopped requests s' task ∧ s'.called.count task = s.called.count task := by
  have hsame : ∀ {s' : State}, s'.stopped = s.stopped → s'.called = s.called →
      TokenStopped requests s' task ∧ s'.called.count task = s.called.count task := by
    intro s' hs' hcalled
    exact ⟨by rw [TokenStopped, hs']; exact hstopped, by rw [hcalled]⟩
  cases h with
  | stop token =>
    refine ⟨?_, rfl⟩
    unfold TokenStopped cancelledReason at hstopped ⊢
    cases htoken : (requests task).token with
    | none => rw [htoken] at hstopped; cases hstopped
    | some other =>
      rw [htoken, Option.bind_some] at hstopped
      change (Function.update s.stopped token _ other).isSome = true
      by_cases hother : other = token
      · rw [hother, Function.update_self]; rfl
      · rw [Function.update_of_ne hother]; exact hstopped
  | @check c =>
    -- the only move that calls: it has looked at the token
    unfold State.check
    split
    · exact hsame rfl rfl
    · rename_i hgoing
      have hne : c.task ≠ task := by
        rintro rfl
        rw [TokenStopped, hgoing] at hstopped; cases hstopped
      exact ⟨hstopped, List.count_cons_of_ne hne⟩
  | make => unfold State.make; split <;> exact hsame rfl rfl
  | enter => unfold State.enter; split <;> exact hsame rfl rfl
  | fire hfire =>
    unfold State.fire at hfire
    split at hfire
    · cases hfire
    · split at hfire <;> cases hfire
      exact hsame rfl rfl
  | start => unfold startTask; split <;> exact hsame rfl rfl
  | post result => cases result <;> exact hsame rfl rfl
  | callEnds =>
    unfold State.callEnds attemptEnds
    repeat' split
    all_goals exact hsame rfl rfl
  | count =>
    unfold State.count
    repeat' split
    all_goals exact hsame rfl rfl
  | complete => unfold State.complete; dsimp only; split <;> exact hsame rfl rfl
  | finish => unfold finishTask; dsimp only; split <;> exact hsame rfl rfl
  | reschedule => unfold State.reschedule; dsimp only; split <;> exact hsame rfl rfl
  | cancel =>
    unfold requestCancel
    split
    · exact hsame rfl rfl
    · dsimp only; split <;> exact hsame rfl rfl
  | close =>
    unfold State.close
    repeat' split
    all_goals exact hsame rfl rfl
  | cancelRecord hcancel =>
    unfold State.cancelRecord requestCancel at hcancel
    repeat' split at hcancel
    all_goals cases hcancel
    all_goals exact hsame rfl rfl
  | publish hpublish =>
    obtain ⟨debt, -, rfl⟩ := Option.map_eq_some_iff.mp hpublish
    exact hsame rfl rfl
  | tick | take | discard | announce | idle | expire => exact hsame rfl rfl

theorem called_of_tokenStopped (hlater : Later requests s s')
    (hstopped : TokenStopped requests s task) : s'.called.count task = s.called.count task := by
  obtain ⟨moves, hrun⟩ := hlater
  refine (Interleaving.invariant (P := fun t => TokenStopped requests t task ∧
    t.called.count task = s.called.count task) ?_ ⟨hstopped, rfl⟩ hrun).2
  intro move t t' ⟨ht, hcalled⟩ hmove
  obtain ⟨ht', hsame⟩ := (State.change_of_step requests hmove).not_called ht
  exact ⟨ht', hsame.trans hcalled⟩

/-! ## 3. A task ends once -/

/-- How often the task goes from a state that is not terminal to a terminal one. -/
def endings (requests : TaskId → Request) (task : TaskId) : List Move → State → Nat
  | [], _ => 0
  | move :: moves, s =>
    match s.step requests move with
    | none => 0
    | some s' =>
      (if (s.record task).state.isTerminal = false ∧ (s'.record task).state.isTerminal = true then 1
        else 0) + endings requests task moves s'

theorem endings_of_terminal (h : s.Inv requests)
    (hterminal : (s.record task).state.isTerminal = true) (moves : List Move) :
    endings requests task moves s = 0 := by
  induction moves generalizing s with
  | nil => rfl
  | cons move moves ih =>
    rw [endings]
    cases hstep : s.step requests move with
    | none => rfl
    | some s' =>
      have hsame : s'.record task = s.record task :=
        h.record_of_terminal ⟨[move], by rw [Interleaving.run, hstep]; rfl⟩ hterminal
      simp only [hterminal, Bool.true_eq_false, false_and, if_false, Nat.zero_add]
      exact ih (h.step hstep) (hsame ▸ hterminal)

theorem endings_le_one (h : s.Inv requests) (moves : List Move) :
    endings requests task moves s ≤ 1 := by
  induction moves generalizing s with
  | nil => exact Nat.zero_le 1
  | cons move moves ih =>
    rw [endings]
    cases hstep : s.step requests move with
    | none => exact Nat.zero_le 1
    | some =>
      simp only
      split
      · rename_i hended
        rw [endings_of_terminal (h.step hstep) hended.2]
      · rw [Nat.zero_add]; exact ih (h.step hstep)

/-! ## 4. Runs -/

theorem State.Inv.called_le_maxRuns (h : s.Inv requests) {n : Nat}
    (hn : (requests task).job.maxRuns = some n) : s.called.count task ≤ n := by
  obtain ⟨place, hsound⟩ := h.lives task
  have hperiodic : (requests task).job.isPeriodic = true := by
    cases hjob : (requests task).job with
    | periodic => rfl
    | _ => rw [hjob] at hn; cases hn
  have hcalled : s.called.count task = s.runs task + place.uncounted := hsound.called hperiodic
  have hruns : s.runs task ≤ n := hsound.runs n hn
  rw [hcalled]
  by_cases hzero : place.uncounted = 0
  · omega
  · -- the run that is not counted yet is below the limit
    have hmayRun : place.MayRun ∧ place.uncounted = 1 := by
      unfold Place.uncounted at hzero ⊢
      unfold Place.MayRun
      split at hzero
      · split at hzero <;> simp_all
      · simp at hzero
    have hlt : s.runs task < n := hsound.mayRun hmayRun.1 n hn; omega

theorem State.Inv.calling_le_one (h : s.Inv requests) (task : TaskId) :
    s.carriers.countP (fun c => c.task == task && c.phase == .calling) ≤ 1 := by
  obtain ⟨place, hsound⟩ := h.lives task
  have hlength : (s.life task).carriers.length ≤ 1 := by
    rw [hsound.carriers]
    cases place <;> simp [Place.carriers]
  calc s.carriers.countP (fun c => c.task == task && c.phase == .calling)
      ≤ s.carriers.countP (·.task == task) := by
        refine List.countP_mono_left fun c _ hc => ?_
        exact (Bool.and_eq_true_iff.mp hc).1
    _ = (s.life task).carriers.length := List.countP_eq_length_filter
    _ ≤ 1 := hlength

/-- The accounts of the scheduler in a state that a run has come to. -/
structure Accounted (requests : TaskId → Request) (s : State) : Prop where
  /-- The counter of active tasks is the number of accepted tasks without a terminal state. -/
  active : s.active = s.accepted.countP fun task => !(s.record task).state.isTerminal
  /-- A task does not leave its terminal state. -/
  final : ∀ s', Later requests s s' → ∀ task, (s.record task).state.isTerminal = true →
    (s'.record task).state = (s.record task).state
  /-- A task that is cancelled before it starts never runs. -/
  neverRuns : ∀ s', Later requests s s' → ∀ task, (s.record task).cancelRequested = true →
    task ∉ s.started → task ∉ s'.started ∧ task ∉ s'.called
  /-- A task whose token is stopped before its call is never called, though its record may not yet
      say that it is cancelled. -/
  notCalled : ∀ s', Later requests s s' → ∀ task, TokenStopped requests s task →
    s'.called.count task = s.called.count task
  /-- A task that is cancelled between two of its runs does not run again. -/
  notAgain : ∀ s', Later requests s s' → ∀ task, (s.record task).cancelRequested = true →
    (s.record task).running = false → s'.called.count task = s.called.count task
  maxRuns : ∀ task n, (requests task).job.maxRuns = some n → s.called.count task ≤ n
  /-- No two runs of a task are under way at the same time. -/
  oneRun : ∀ task, s.carriers.countP (fun c => c.task == task && c.phase == .calling) ≤ 1

theorem State.Inv.accounted (h : s.Inv requests) : Accounted requests s where
  active := by
    rw [h.books.active]
    refine List.countP_congr fun task hmem => ?_
    obtain ⟨place, hsound⟩ := h.lives task
    have hactive : (s.record task).active = true ↔ (s.record task).state.isTerminal = false :=
      hsound.active_iff ((h.books.mem_iff task).mp hmem)
    rw [hactive, Bool.not_eq_true']
  final s' hlater task hterminal := by rw [h.record_of_terminal hlater hterminal]
  neverRuns s' hlater task hcancel hstarted := by
    have hnone : s'.started.count task = 0 := by
      rw [h.started_of_cancelRequested hlater hcancel]
      exact List.count_eq_zero.mpr hstarted
    obtain ⟨moves, hrun⟩ := hlater
    obtain ⟨place, hsound⟩ := (h.run hrun).lives task
    have hle : s'.called.count task ≤ s'.started.count task := hsound.called_le
    exact ⟨List.count_eq_zero.mp hnone, List.count_eq_zero.mp (by omega)⟩
  notCalled s' hlater task := called_of_tokenStopped hlater
  notAgain s' hlater task := h.called_of_cancelRequested hlater
  maxRuns task n := h.called_le_maxRuns
  oneRun := h.calling_le_one

/-- Every run of the scheduler keeps its accounts, and in the run each task ends once at most. -/
theorem scheduler_accounts {moves : List Move} (hrun : run requests moves = some s) :
    Accounted requests s ∧ ∀ task, endings requests task moves {} ≤ 1 :=
  ⟨(State.Inv.initial.run hrun).accounted, fun _ => endings_le_one State.Inv.initial moves⟩

/-- A periodic task that may run twice, and a task that is to run later. -/
def twoRequests : TaskId → Request
  | 0 => { job := .periodic 1 (some 2) .fixedDelay true }
  | _ => { job := .scheduleAfter 10 }

/-- One round of a task from the queue to the end of its callback. -/
def round (task : TaskId) : List Move :=
  [.fire, .start ⟨.worker, task, .fired⟩, .publish .worker, .post ⟨.worker, task, .posting⟩ .accepts,
    .take ⟨.executor, task, .posted⟩, .check ⟨.executor, task, .entering⟩,
    .callEnds ⟨.executor, task, .calling⟩ (.returned (.ok ())) (.ok 0)]

/-- The periodic task runs twice; the other task is cancelled in the meantime. -/
def twoRuns : List Move :=
  [.make 0, .enter 0, .publish (.caller 0), .make 1, .enter 1, .publish (.caller 1)] ++ round 0 ++
    [.count ⟨.executor, 0, .counting⟩, .reschedule ⟨.executor, 0, .rescheduling (.at 1)⟩,
      .cancel 0 1, .publish (.canceller 0), .tick 1] ++ round 0 ++
    [.count ⟨.executor, 0, .counting⟩, .finish ⟨.executor, 0, .finishing .completed (.ok ()) 0⟩,
      .publish (.executor 0)]

theorem scheduler_accounts_twoRuns :
    ∃ s, run twoRequests twoRuns = some s ∧ s.active = 0 ∧ s.called = [0, 0] ∧
      (s.record 1).cancelRequested = true ∧ Accounted twoRequests s ∧
      ∀ task, endings twoRequests task twoRuns {} ≤ 1 := by
  have hrun : ∃ s, run twoRequests twoRuns = some s ∧ s.active = 0 ∧ s.called = [0, 0] ∧
      (s.record 1).cancelRequested = true := ⟨_, rfl, rfl, rfl, rfl⟩
  obtain ⟨s, hrun, hactive, hcalled, hcancel⟩ := hrun
  exact ⟨s, hrun, hactive, hcalled, hcancel, scheduler_accounts hrun⟩

end Scheduler

end LangGraph
