import LangGraph.Scheduler.TaskLife

/-!
# The scheduler as a set of lives

A move of the scheduler is a step in the life of one task, or of all tasks in the queue, and leaves
every other life as it is.
-/

namespace LangGraph

open Function List

namespace Scheduler

namespace State

/-! ## 1. The life of a task -/

def life (s : State) (task : TaskId) : Life where
  call := s.call task
  record := s.record task
  waiting := s.queue.countP (·.task == task)
  carriers := s.carriers.filter (·.task == task)
  runs := s.runs task
  started := s.started.count task
  called := s.called.count task
  owed := s.debts.countP fun debt => debt.2.ends task
  published := s.events.countP (·.ends task)
  reported := (s.reports.filter (·.1 == task)).map (·.2.status)

variable {s : State} {c : Carrier} {task other : TaskId}

theorem mem_life_carriers (hc : c ∈ s.carriers) : c ∈ (s.life c.task).carriers :=
  mem_filter.mpr ⟨hc, beq_self_eq_true c.task⟩

theorem filter_erase_of_ne (hne : c.task ≠ task) (carriers : List Carrier) :
    (carriers.erase c).filter (·.task == task) = carriers.filter (·.task == task) := by
  rw [← erase_filter]
  refine erase_of_not_mem fun hmem => hne ?_
  simpa using (mem_filter.mp hmem).2

@[simp] theorem not_ends_of_ne {type : SchedulerEventType} {status : Outcome} {attempt : Nat}
    (hne : other ≠ task) : SchedulerEvent.ends task ⟨type, some other, status, attempt⟩ = false := by
  simp [SchedulerEvent.ends, hne]

/-! ## 2. What a move is for one task -/

/-- The terminal events and reports of the task are as they should be after the move. -/
def Announced (requests : TaskId → Request) (move : Move) (s : State) : Prop :=
  match move with
  | .reschedule c => s.closed = false ∧ (s.record c.task).cancelRequested = false
  | .cancel _ task | .cancelByToken _ task => unreported requests task s = false
  | .cancelRecord number =>
    match s.closer number with
    | .cancelling (task :: _) _ => unreported requests task s = false
    | _ => True
  | .callEnds c (.threw _) _ => (requests c.task).job.isPeriodic = false
  | .post c (.throws _) => (requests c.task).job.hasCompletion = false
  | _ => True
where
  /-- A task with a completion callback that a cancellation would end. -/
  unreported (requests : TaskId → Request) (task : TaskId) (s : State) : Bool :=
    (requests task).job.hasCompletion && (s.record task).active && !(s.record task).running

instance (requests : TaskId → Request) (move : Move) (s : State) :
    Decidable (s.Announced requests move) := by
  unfold Announced
  split
  all_goals try infer_instance
  split <;> infer_instance

/-- Nothing happens to the task, or one step of its life; the step is a regular one if the move is
    announced. -/
def Follows (requests : TaskId → Request) (announced : Prop) (s s' : State) (task : TaskId) :
    Prop :=
  s'.life task = s.life task ∨
    ∃ regular, Life.Step (requests task).job regular (s.life task) (s'.life task) ∧
      (announced → regular = true)

/-! ## 3. Carriers -/

section Carriers

variable {requests : TaskId → Request} {announced : Prop}

theorem life_pass (hand : Hand) (phase : Phase) :
    (s.pass c ⟨hand, c.task, phase⟩).life c.task = { s.life c.task with
        carriers := ⟨hand, c.task, phase⟩ :: (s.life c.task).carriers.erase c } := by
  simp [life, pass, erase_filter]

@[simp] theorem life_pass_of_ne (hand : Hand) (phase : Phase) (hne : c.task ≠ task) :
    (s.pass c ⟨hand, c.task, phase⟩).life task = s.life task := by
  simp [life, pass, hne, filter_erase_of_ne hne]

theorem life_drop : (s.drop c).life c.task =
    { s.life c.task with carriers := (s.life c.task).carriers.erase c } := by
  simp only [life, drop, erase_filter]

@[simp] theorem life_drop_of_ne (hne : c.task ≠ task) : (s.drop c).life task = s.life task := by
  simp only [life, drop, filter_erase_of_ne hne]

theorem life_owe (operator : Operator) (event : SchedulerEvent) :
    (s.owe operator event).life task = { s.life task with
        owed := if event.ends task then (s.life task).owed + 1 else (s.life task).owed } := by
  simp only [life, owe, countP_cons]
  split <;> rfl

@[simp] theorem life_owe_of_not_ends {operator : Operator} {event : SchedulerEvent}
    (h : event.ends task = false) : (s.owe operator event).life task = s.life task := by
  rw [life_owe, h]; rfl

theorem life_write {result : TaskRecord × Bool} :
    (s.write task result).life task = { s.life task with record := result.1 } := by
  simp only [life, write, update_self]

@[simp] theorem life_write_of_ne {result : TaskRecord × Bool} (hne : other ≠ task) :
    (s.write other result).life task = s.life task := by
  simp only [life, write, update_of_ne hne.symm]

theorem countP_push (s : State) (other task : TaskId) (due : Int) :
    (s.push other due).queue.countP (·.task == task) =
      s.queue.countP (·.task == task) + if other = task then 1 else 0 := by
  rw [push, (perm_orderedInsert _ _ _).countP_eq, countP_cons]; simp

theorem life_push (due : Int) : (s.push task due).life task =
    { s.life task with waiting := (s.life task).waiting + 1 } := by
  have hcount := countP_push s task task due
  simp only [life, hcount]; rfl

@[simp] theorem life_push_of_ne (due : Int) (hne : other ≠ task) :
    (s.push other due).life task = s.life task := by
  have hcount := countP_push s other task due
  rw [if_neg hne, Nat.add_zero] at hcount
  simp only [life, hcount]; rfl

theorem life_noteStart : (s.noteStart task).life task =
    { s.life task with started := (s.life task).started + 1 } := by
  simp [life, noteStart]

@[simp] theorem life_noteStart_of_ne (hne : other ≠ task) :
    (s.noteStart other).life task = s.life task := by
  simp [life, noteStart, hne]

theorem life_noteCall (request : Request) : (s.noteCall request task).life task =
    { s.life task with called := (s.life task).called + 1 } := by
  simp [life, noteCall]

@[simp] theorem life_noteCall_of_ne (request : Request) (hne : other ≠ task) :
    (s.noteCall request other).life task = s.life task := by
  simp [life, noteCall, hne]

theorem life_countRun : (s.countRun task).life task =
    { s.life task with runs := (s.life task).runs + 1 } := by
  simp [life, countRun]

@[simp] theorem life_countRun_of_ne (hne : other ≠ task) :
    (s.countRun other).life task = s.life task := by
  simp [life, countRun, update_of_ne hne.symm]

theorem life_report (status : Outcome) : (s.report task status).life task =
    { s.life task with reported := status :: (s.life task).reported } := by
  simp [life, report]

@[simp] theorem life_report_of_ne (status : Outcome) (hne : other ≠ task) :
    (s.report other status).life task = s.life task := by
  simp [life, report, hne]

/-- A move that is a step of one life and leaves the others as they are. -/
theorem follows_own {s' : State} {regular : Bool} (other task : TaskId)
    (hstep : Life.Step (requests other).job regular (s.life other) (s'.life other))
    (hothers : ∀ {task}, other ≠ task → s'.life task = s.life task)
    (hregular : announced → regular = true) :
    Follows requests announced s s' task := by
  by_cases hne : other = task
  · subst hne; exact Or.inr ⟨regular, hstep, hregular⟩
  · exact Or.inl (hothers hne)

theorem follows_pass (hc : c ∈ s.carriers) (hand : Hand) {phase : Phase}
    (hleads : Phase.Leads (requests c.task).job c.phase phase) (task : TaskId) :
    Follows requests announced s (s.pass c ⟨hand, c.task, phase⟩) task := by
  refine follows_own c.task task ?_ (life_pass_of_ne hand phase) fun _ => rfl
  rw [life_pass]; exact .pass (mem_life_carriers hc) hleads

theorem follows_startTask (hc : c ∈ s.carriers) (hphase : c.phase = .fired) (task : TaskId) :
    Follows requests announced s (s.startTask c) task := by
  unfold startTask
  cases hstart : (s.record c.task).start with
  | none =>
    refine follows_own c.task task ?_ life_drop_of_ne fun _ => rfl
    rw [life_drop]; exact .leave (mem_life_carriers hc) (Or.inl hphase)
  | some =>
    refine follows_own c.task task ?_ (fun hne => by simp [hne]) fun _ => rfl
    rw [life_owe_of_not_ends (by simp [SchedulerEvent.ends]), life_noteStart, life_write, life_pass]
    exact .start (mem_life_carriers hc) hphase hstart

variable {finalState : ScheduledTaskState} {status : Outcome}

theorem leads_ending {request : Request} {phase : Phase}
    (hphase : phase = .posting ∨ phase = .entering) (hsettles : Settles finalState status) :
    Phase.Leads request.job phase (ending request finalState status) := by
  unfold ending
  split
  · rename_i hjob
    exact .complete (hphase.imp_right Or.inl) hjob hsettles
  · rename_i hjob
    exact .finish (hphase.imp_right Or.inl) (Bool.eq_false_iff.mpr hjob) hsettles

section

variable (hc : c ∈ s.carriers)

include hc

theorem follows_post (hphase : c.phase = .posting) (result : Posting) (task : TaskId) :
    Follows requests (s.Announced requests (.post c result)) s
      (s.post (requests c.task) c result) task := by
  cases result with
  | accepts =>
    refine follows_pass hc _ ?_ task
    rw [hphase]; exact .post
  | rejects =>
    refine follows_pass hc _ ?_ task
    rw [hphase]; exact leads_ending (Or.inl rfl) ⟨rfl, nofun⟩
  | throws thrown =>
    have hregular : s.Announced requests (.post c (.throws thrown)) →
        (!(requests c.task).job.hasCompletion) = true := congrArg not
    refine follows_own c.task task ?_ (life_pass_of_ne _ _) hregular
    rw [post, life_pass]; exact .postThrows (mem_life_carriers hc) hphase rfl

theorem follows_check (hphase : c.phase = .entering) (task : TaskId) :
    Follows requests announced s (s.check (requests c.task) c) task := by
  unfold check
  cases cancelledReason s.stopped (requests c.task).token with
  | some =>
    refine follows_pass hc _ ?_ task
    rw [hphase]; exact leads_ending (Or.inr rfl) ⟨rfl, fun _ => rfl⟩
  | none =>
    refine follows_own c.task task ?_ (fun hne => by simp [hne]) fun _ => rfl
    rw [life_noteCall, life_pass]; exact .check (mem_life_carriers hc) hphase rfl

theorem follows_attemptEnds {policy : RetryPolicy} (hphase : c.phase = .calling)
    (hjob : (requests c.task).job.isRetry = true) (result : Outcome) (delay : Result Int)
    (task : TaskId) : Follows requests announced s (s.attemptEnds policy c result delay) task := by
  have hcompleting : ∀ {finalState status}, Settles finalState status →
      Follows requests announced s (s.pass c { c with phase := .completing finalState status })
        task := by
    intro finalState status hsettles
    refine follows_pass hc _ ?_ task
    rw [hphase]; exact .complete (Or.inr (Or.inr rfl)) hjob hsettles
  unfold attemptEnds
  split
  · exact hcompleting ⟨rfl, nofun⟩
  · split
    · exact hcompleting ⟨rfl, nofun⟩
    · split
      · -- the event of a retry is not a terminal one
        rw [Follows, life_owe_of_not_ends (by simp [SchedulerEvent.ends])]
        refine follows_pass hc _ ?_ task
        rw [hphase]; exact .retry hjob
      · exact hcompleting ⟨rfl, nofun⟩

theorem follows_callEnds (hphase : c.phase = .calling) (result : CallResult) (delay : Result Int)
    (task : TaskId) :
    Follows requests (s.Announced requests (.callEnds c result delay)) s
      (s.callEnds (requests c.task) c result delay) task := by
  have hfinishing : (requests c.task).job.isPeriodic = false →
      (requests c.task).job.isRetry = false → ∀ status,
      Follows requests (s.Announced requests (.callEnds c result delay)) s
        (s.pass c { c with phase := .finishing .completed status 0 }) task := by
    intro hperiodic hretry status
    refine follows_pass hc _ ?_ task
    rw [hphase]
    exact .finish (Or.inr (Or.inr ⟨rfl, hperiodic⟩)) hretry ⟨rfl, nofun⟩
  unfold callEnds
  cases hjob : (requests c.task).job with
  | scheduleAt | scheduleAfter =>
    rw [hjob] at hfinishing
    cases result <;> exact hfinishing rfl rfl _
  | periodic =>
    have hperiodic : (requests c.task).job.isPeriodic = true := by rw [hjob]; rfl
    have hleads : Phase.Leads (requests c.task).job c.phase .counting := by
      rw [hphase]; exact .count hperiodic
    cases result with
    | returned => exact follows_pass hc _ hleads task
    | threw thrown =>
      have hregular : s.Announced requests (.callEnds c (.threw thrown) delay) → false = true :=
        fun hnot => hnot.symm.trans hperiodic
      refine follows_own c.task task ?_ (fun hne => by simp [hne]) hregular
      simp only
      rw [life_owe, life_pass, if_pos (by simp [SchedulerEvent.ends])]
      exact .runFails (mem_life_carriers hc) hphase rfl hperiodic
  | retry =>
    exact follows_attemptEnds hc hphase (by rw [hjob]; rfl) _ delay task

theorem follows_count (hphase : c.phase = .counting) (task : TaskId) :
    Follows requests announced s (s.count (requests c.task) c) task := by
  unfold count
  cases hjob : (requests c.task).job with
  | periodic interval maxRuns =>
    simp only
    split
    · refine follows_own c.task task ?_ (fun hne => by simp [hne]) fun _ => rfl
      rw [life_countRun, life_pass]
      exact .lastRun (mem_life_carriers hc) hphase rfl (by rw [hjob]; rfl)
    · rename_i hmore
      change Follows requests announced s (((s.pass c _).countRun c.task)) task
      refine follows_own c.task task ?_ (fun hne => by simp [hne]) fun _ => rfl
      rw [life_countRun, life_pass]
      refine .nextRun (mem_life_carriers hc) hphase rfl ?_
      intro n hn
      rw [hjob] at hn
      obtain rfl : maxRuns = some n := hn
      have hlt : s.runs c.task + 1 < n := by simpa using hmore
      exact hlt
  | _ => exact Or.inl rfl

theorem follows_complete (hphase : c.phase = .completing finalState status) (task : TaskId) :
    Follows requests announced s (s.complete (requests c.task) c finalState status) task := by
  have hstep : Life.Step (requests c.task).job true (s.life c.task) { s.life c.task with
      carriers := { c with phase := .finishing finalState status (s.attempts c.task) } ::
        (s.life c.task).carriers.erase c
      reported := if (requests c.task).job.hasCompletion then
          status :: (s.life c.task).reported
        else (s.life c.task).reported } :=
    .complete (mem_life_carriers hc) hphase rfl
  unfold complete
  dsimp only
  split
  · rename_i hcompletion
    refine follows_own c.task task ?_ (fun hne => by simp [hne]) fun _ => rfl
    rw [if_pos hcompletion] at hstep
    rw [life_report, life_pass]; exact hstep
  · rename_i hcompletion
    refine follows_own c.task task ?_ (life_pass_of_ne _ _) fun _ => rfl
    rw [if_neg hcompletion] at hstep
    rw [life_pass]; exact hstep

end

theorem eventType_ends (finalState : ScheduledTaskState) (status : Outcome) (attempt : Nat) :
    ({ type := eventType finalState, task := some task, status, attempt } : SchedulerEvent).ends
      task = true := by
  cases finalState <;> simp [SchedulerEvent.ends, eventType]

theorem follows_finishTask (hc : c ∈ s.carriers) {attempt : Nat}
    (hphase : c.phase = .finishing finalState status attempt) (task : TaskId) :
    Follows requests announced s (s.finishTask c finalState status attempt) task := by
  have hstep : Life.Step (requests c.task).job true (s.life c.task) _ :=
    .finish (mem_life_carriers hc) hphase
  unfold finishTask
  dsimp only
  split
  · rename_i hended
    refine follows_own c.task task ?_ (fun hne => by simp [hne]) fun _ => rfl
    rw [life_owe, eventType_ends, life_write, life_drop]
    simpa [life, hended] using hstep
  · rename_i hended
    refine follows_own c.task task ?_ (fun hne => by simp [hne]) fun _ => rfl
    rw [life_write, life_drop]; simpa [life, hended] using hstep

theorem follows_reschedule (hc : c ∈ s.carriers) {due : Due}
    (hphase : c.phase = .rescheduling due) (hactive : (s.record c.task).active = true)
    (task : TaskId) :
    Follows requests (s.Announced requests (.reschedule c)) s (s.reschedule c due) task := by
  have hstep : Life.Step (requests c.task).job _ (s.life c.task) _ :=
    .reschedule s.closed (mem_life_carriers hc) hphase
  have hregular : s.Announced requests (.reschedule c) →
      (!((s.record c.task).reschedule s.closed).2) = true := by
    intro ⟨hopen, hkept⟩
    obtain ⟨_, hended | hpending⟩ := TaskRecord.reschedule_of_active hactive s.closed
    · rw [hopen, hkept] at hended; cases hended.1
    · rw [hpending.2.1]; rfl
  unfold reschedule
  dsimp only
  split
  · rename_i hpending
    refine follows_own c.task task ?_ (fun hne => by simp [hne]) hregular
    rw [life_push, life_write, life_drop]; simpa [life, hpending] using hstep
  · rename_i hended
    refine follows_own c.task task ?_ (fun hne => by simp [hne]) hregular
    rw [life_write, life_drop]; simpa [life, hended] using hstep

end Carriers

/-! ## 4. Calls -/

section Calls

variable {requests : TaskId → Request} {announced : Prop}

theorem follows_requestCancel (operator : Operator) (status : Status)
    (hcall : s.call other = .accepted)
    (hannounced : announced → Announced.unreported requests other s = false) (task : TaskId) :
    Follows requests announced s (s.requestCancel operator other status) task := by
  unfold requestCancel
  cases hcancel : (s.record other).requestCancel (.error status) with
  | none => exact Or.inl rfl
  | some result =>
    have hregular : announced → (!(result.2 && (requests other).job.hasCompletion)) = true := by
      intro h
      have hreported := hannounced h
      obtain ⟨hactive, _, _, hresult⟩ := TaskRecord.requestCancel_eq_some hcancel
      rcases hresult with ⟨_, hended, _⟩ | ⟨hrunning, _, _⟩
      · rw [hended]; rfl
      · rw [Announced.unreported, hactive, hrunning] at hreported
        simp only [Bool.and_true, Bool.not_false] at hreported
        rw [hreported, Bool.and_false]; rfl
    have hstep : Life.Step (requests other).job _ (s.life other) _ := .cancel hcall hcancel
    dsimp only
    split
    · rename_i hended
      refine follows_own other task ?_ (fun hne => by simp [hne]) hregular
      rw [life_owe, life_write]
      simpa [hended, SchedulerEvent.ends] using hstep
    · rename_i hended
      refine follows_own other task ?_ life_write_of_ne hregular
      rw [life_write]; simpa [life, hended] using hstep

theorem life_setCall (call : Call) :
    (s.setCall task call).life task = { s.life task with call := call } := by
  simp [life, setCall]

@[simp] theorem life_setCall_of_ne (call : Call) (hne : other ≠ task) :
    (s.setCall other call).life task = s.life task := by
  simp [life, setCall, update_of_ne hne.symm]

theorem life_accept : (s.accept task).life task = { s.life task with call := .accepted } :=
  life_setCall .accepted

@[simp] theorem life_accept_of_ne (hne : other ≠ task) : (s.accept other).life task = s.life task :=
  life_setCall_of_ne .accepted hne

theorem life_reject : (s.reject task).life task =
    { s.life task with call := .rejected, record := (s.life task).record.reject } := by
  simp [life, reject, setCall]

@[simp] theorem life_reject_of_ne (hne : other ≠ task) : (s.reject other).life task = s.life task := by
  simp [life, reject, setCall, update_of_ne hne.symm]

theorem follows_make (hcall : s.call other = .unmade) (task : TaskId) :
    Follows requests announced s (s.make (requests other) other) task := by
  unfold make
  split
  · refine follows_own other task ?_ (life_setCall_of_ne _) fun _ => rfl
    rw [life_setCall]; exact .decline hcall
  · rename_i hcheck
    -- the time of the first run is no part of a life
    change Follows _ _ s (s.setCall other (.made _)) task
    refine follows_own other task ?_ (life_setCall_of_ne _) fun _ => rfl
    rw [life_setCall]; exact .make hcall fun n hn => Request.maxRuns_pos hcheck hn

theorem follows_enter {due : Int} (hcall : s.call other = .made due) (task : TaskId) :
    Follows requests announced s (s.enter other due) task := by
  unfold enter
  split
  · refine follows_own other task ?_ life_reject_of_ne fun _ => rfl
    rw [life_reject]; exact .reject hcall
  · refine follows_own other task ?_ (fun hne => by simp [hne]) fun _ => rfl
    rw [life_owe_of_not_ends (by simp [SchedulerEvent.ends]), life_accept, life_push]
    exact .accept hcall

theorem follows_fire {s' : State} (hfire : s.fire = some s') (task : TaskId) :
    Follows requests announced s s' task := by
  unfold fire at hfire
  split at hfire
  · cases hfire
  · rename_i entry rest hqueue
    rw [Option.ite_none_right_eq_some, Option.some.injEq] at hfire
    obtain ⟨_, rfl⟩ := hfire
    refine follows_own entry.task task ?_ (fun hne => by simp [life, hqueue, hne]) fun _ => rfl
    have hwaiting : (s.life entry.task).waiting = rest.countP (·.task == entry.task) + 1 := by
      simp [life, hqueue]
    have hphase : ({ hand := .worker, task := entry.task, phase := .fired } : Carrier).phase =
      .fired := rfl
    have hstep : Life.Step (requests entry.task).job true (s.life entry.task) _ :=
      .fire hwaiting hphase
    simpa [life] using hstep

theorem follows_drainQueue (task : TaskId) : Follows requests announced s s.drainQueue task := by
  refine Or.inr ⟨true, ?_, fun _ => rfl⟩
  have hstep : Life.Step (requests task).job true (s.life task) _ := .drain
  simpa [life, drainQueue] using hstep

theorem follows_close (number : Nat) (policy : SchedulerClosePolicy) (task : TaskId) :
    Follows requests announced s (s.close number policy) task := by
  unfold close
  split
  · exact Or.inl rfl
  · cases policy with
    | cancelPending =>
      have hdrained : Follows requests announced s s.drainQueue task := follows_drainQueue task
      exact hdrained
    | drainPending => exact Or.inl rfl

theorem follows_publish {operator : Operator} {s' : State}
    (hpublish : s.publish operator = some s') (task : TaskId) :
    Follows requests announced s s' task := by
  obtain ⟨debt, hfind, rfl⟩ := Option.map_eq_some_iff.mp hpublish
  have hmem : debt ∈ s.debts := mem_of_find?_eq_some hfind
  have howed := countP_erase (fun debt => SchedulerEvent.ends task debt.2) s.debts debt
  cases hends : debt.2.ends task with
  | false =>
    refine Or.inl ?_
    simp [life, howed, hends]
  | true =>
    refine Or.inr ⟨true, ?_, fun _ => rfl⟩
    have hpos : 0 < (s.life task).owed := countP_pos_iff.mpr ⟨debt, hmem, hends⟩
    obtain ⟨n, hn⟩ : ∃ n, (s.life task).owed = n + 1 := ⟨_, (Nat.succ_pred_eq_of_pos hpos).symm⟩
    have hstep : Life.Step (requests task).job true (s.life task) _ := .publish hn
    have hn' : s.debts.countP (fun debt => debt.2.ends task) = n + 1 := hn
    simpa [life, howed, hends, hmem, hn'] using hstep

end Calls

/-! ## 5. Moves -/

section Moves

variable {requests : TaskId → Request}

/-- Who is queued, carried or waits to be cancelled by `close` was accepted, and a task that goes
    back into the queue is active. -/
structure Known (s : State) : Prop where
  doomed : ∀ number records again, s.closer number = .cancelling records again →
    ∀ task ∈ records, s.call task = .accepted
  active : ∀ c ∈ s.carriers, c.phase ≠ .fired → (s.record c.task).active = true

theorem follows_step {move : Move} {s' : State} (hknown : s.Known)
    (hstep : s.step requests move = some s') (task : TaskId) :
    Follows requests (s.Announced requests move) s s' task := by
  cases change_of_step requests hstep with
  | tick | stop | idle => exact .inl rfl
  | make hcall => exact follows_make hcall task
  | enter hcall => exact follows_enter hcall task
  | fire hfire => exact follows_fire hfire task
  | start hmem hphase => exact follows_startTask hmem hphase task
  | post result hmem hphase => exact follows_post hmem hphase result task
  | take hmem hphase =>
    refine follows_pass hmem _ ?_ task
    rw [hphase]; exact .take
  | @discard c hmem hphase =>
    refine follows_own c.task task ?_ life_drop_of_ne fun _ => rfl
    rw [life_drop]; exact .leave (mem_life_carriers hmem) (Or.inr hphase)
  | check hmem hphase => exact follows_check hmem hphase task
  | callEnds result delay hmem hphase => exact follows_callEnds hmem hphase result delay task
  | count hmem hphase => exact follows_count hmem hphase task
  | complete hmem hphase => exact follows_complete hmem hphase task
  | finish hmem hphase => exact follows_finishTask hmem hphase task
  | @reschedule c due hmem hphase =>
    have hactive := hknown.active c hmem (by rw [hphase]; exact nofun)
    exact follows_reschedule hmem hphase hactive task
  | cancel status hcall hmove =>
    rcases hmove with rfl | rfl <;> exact follows_requestCancel _ _ hcall (fun h => h) task
  | close number policy => exact follows_close number policy task
  | @cancelRecord number s' h =>
    unfold cancelRecord at h
    split at h
    · rename_i other rest again hcloser
      cases h
      have hcall : s.call other = .accepted := hknown.doomed _ _ _ hcloser other mem_cons_self
      have hfollows : Follows requests (s.Announced requests (.cancelRecord number)) s
          (s.requestCancel (.closer number) other (.cancelled (lit "scheduler closed"))) task := by
        refine follows_requestCancel _ _ hcall (fun hannounced => ?_) task
        simp only [Announced, hcloser] at hannounced; exact hannounced
      exact hfollows
    · cases h; exact Or.inl rfl
    · cases h; exact Or.inl rfl
    · cases h
  | announce => exact .inl (by simp [life, moveCloser, SchedulerEvent.ends])
  | expire number =>
    have hdrained : Follows requests (s.Announced requests (.expire number)) s s.drainQueue task :=
      follows_drainQueue task
    exact hdrained
  | publish hpublish => exact follows_publish hpublish task

end Moves

end State

end Scheduler

end LangGraph
