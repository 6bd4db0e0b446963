import LangGraph.Scheduler.Accounting

/-!
# Terminal events and reports

When a task that has ended has one terminal event and, where it has a completion callback, one
report with its final status.
-/

namespace LangGraph

open List

namespace Scheduler

/-! ## 1. One life -/

def Phase.finalStatus : Phase → Option Outcome
  | .finishing _ status _ => some status
  | _ => none

namespace Life

variable {job : Job} {l : Life} {place : Place}

def Over (l : Life) : Prop := l.call = .accepted ∧ l.record.state.isTerminal = true

instance (l : Life) : Decidable l.Over := inferInstanceAs (Decidable (_ ∧ _))

/-- The events and reports of a life: none before the task is over, except for a report on the way
    to the end. -/
structure Noted (job : Job) (l : Life) : Prop where
  events : l.published + l.owed = if l.Over then 1 else 0
  reports : job.hasCompletion = true → l.reported = if l.Over then [l.record.status]
      else l.carriers.filterMap fun c => c.phase.finalStatus

theorem Noted.initial : Noted job {} where
  events := rfl
  reports _ := rfl

theorem isRetry_of_hasCompletion (h : job.hasCompletion = true) : job.isRetry = true := by
  cases job with
  | retry => rfl
  | _ => cases h

variable {c : Carrier} {l' : Life} {status : Outcome}

theorem Sound.not_over (h : Sound job l place) (hc : c ∈ l.carriers) (hphase : c.phase ≠ .fired) :
    ¬l.Over := by
  intro ⟨hcall, hterminal⟩
  obtain ⟨rfl, _⟩ := h.held hc
  rw [(h.active_iff hcall).mp (h.late hphase).2] at hterminal; cases hterminal

def carried (l : Life) : List Outcome := l.carriers.filterMap fun c => c.phase.finalStatus

theorem Noted.ongoing (hn : Noted job l) (hbefore : ¬l.Over) (hafter : ¬l'.Over)
    (hpublished : l'.published = l.published) (howed : l'.owed = l.owed)
    (hreported : l'.reported = l.reported)
    (hcarried : job.hasCompletion = true → l'.carried = l.carried) : Noted job l' where
  events := by
    have hevents := hn.events
    rw [if_neg hbefore] at hevents
    rw [if_neg hafter, hpublished, howed, hevents]
  reports hjob := by
    have hreports := hn.reports hjob
    rw [if_neg hbefore] at hreports
    rw [if_neg hafter, hreported, hreports]; exact (hcarried hjob).symm

theorem Noted.frame (hn : Noted job l) (hcall : l'.call = l.call) (hrecord : l'.record = l.record)
    (hpublished : l'.published = l.published) (howed : l'.owed = l.owed)
    (hreported : l'.reported = l.reported)
    (hcarried : job.hasCompletion = true → l'.carried = l.carried) : Noted job l' := by
  have hover : l'.Over ↔ l.Over := by rw [Over, Over, hcall, hrecord]
  constructor
  · rw [hpublished, howed, hn.events]; exact if_congr hover.symm rfl rfl
  · intro hjob
    rw [hreported, hn.reports hjob, hrecord]
    exact if_congr hover.symm rfl (hcarried hjob).symm

theorem Sound.carried_eq (h : Sound job l place) (hc : c ∈ l.carriers) :
    l.carried = c.phase.finalStatus.toList := by
  obtain ⟨rfl, _⟩ := h.held hc
  rw [carried, h.carriers, Place.carriers, filterMap_cons]
  cases c.phase.finalStatus <;> rfl

theorem carried_singleton (next : Carrier) (h : l'.carriers = [next]) :
    l'.carried = next.phase.finalStatus.toList := by
  rw [carried, h, filterMap_cons]
  cases next.phase.finalStatus <;> rfl

section

variable (hn : Noted job l) (h : Sound job l place)

include hn h

theorem Noted.carry {next : Carrier} (hc : c ∈ l.carriers)
    (hstatus : job.hasCompletion = true → next.phase.finalStatus = c.phase.finalStatus)
    (called runs : Nat) :
    Noted job { l with
      carriers := next :: l.carriers.erase c
      called := called
      runs := runs } := by
  refine hn.frame rfl rfl rfl rfl rfl fun hjob => ?_
  rw [h.carried_eq hc, ← hstatus hjob]
  refine carried_singleton next ?_
  simp only [(h.held hc).2.1]

theorem Noted.start (hc : c ∈ l.carriers) (hphase : c.phase = .fired) {r : TaskRecord}
    (hstart : l.record.start = some r) :
    Noted job { l with
      record := r
      carriers := { c with phase := .posting } :: l.carriers.erase c
      started := l.started + 1 } := by
  obtain ⟨_, _, hterminal, hr⟩ := TaskRecord.start_eq_some hstart
  refine hn.ongoing ?_ ?_ rfl rfl rfl fun _ => ?_
  · intro hover
    rw [hover.2] at hterminal; cases hterminal
  · intro ⟨_, hstate⟩
    rw [hr] at hstate; cases hstate
  · rw [h.carried_eq hc, hphase]
    refine carried_singleton { c with phase := .posting } ?_
    simp only [(h.held hc).2.1]

theorem Noted.leave (hc : c ∈ l.carriers) (hphase : c.phase.finalStatus = none) :
    Noted job { l with carriers := l.carriers.erase c } := by
  refine hn.frame rfl rfl rfl rfl rfl fun _ => ?_
  rw [h.carried_eq hc, hphase, carried]
  simp only [(h.held hc).2.1]; rfl

theorem Noted.complete {next : Carrier} (hc : c ∈ l.carriers) {finalState : ScheduledTaskState}
    {attempt : Nat} (hphase : c.phase = .completing finalState status)
    (hnext : next.phase = .finishing finalState status attempt) :
    Noted job { l with
      carriers := next :: l.carriers.erase c
      reported := if job.hasCompletion then status :: l.reported else l.reported } where
  events := hn.events
  reports hjob := by
    have hover : ¬l.Over := h.not_over hc (by rw [hphase]; exact nofun)
    have hreports : l.reported = l.carried := (hn.reports hjob).trans (if_neg hover)
    rw [h.carried_eq hc, hphase] at hreports
    rw [if_pos hjob, hreports]
    change _ = if l.Over then _ else _
    rw [if_neg hover, (h.held hc).2.1, filterMap_cons, hnext]; rfl

theorem Noted.finish (hc : c ∈ l.carriers) {finalState : ScheduledTaskState} {attempt : Nat}
    (hphase : c.phase = .finishing finalState status attempt) :
    Noted job { l with
      record := (l.record.finish finalState status).1
      carriers := l.carriers.erase c
      owed := if (l.record.finish finalState status).2 then l.owed + 1 else l.owed } := by
  obtain ⟨rfl, _, _, hcall⟩ := h.held hc
  have hlate : (Place.held c).Late := by simp [Place.Late, hphase]
  have hbefore := h.not_over hc hlate
  have hvalid := h.valid c rfl
  rw [hphase] at hvalid
  rw [TaskRecord.finish_of_active (h.late hlate).2]
  have hafter : Over { l with
      record := { l.record with
        running := false
        state := (TaskRecord.settle finalState status).1
        status := (TaskRecord.settle finalState status).2
        active := false
        registered := false }
      carriers := l.carriers.erase c
      owed := if true then l.owed + 1 else l.owed } :=
    ⟨hcall, TaskRecord.settle_isTerminal hvalid.1 status⟩
  constructor
  · rw [if_pos hafter]
    have hevents := hn.events
    rw [if_neg hbefore] at hevents
    simp only [if_true]; omega
  · intro hjob
    rw [if_pos hafter]
    have hreports := hn.reports hjob
    rw [if_neg hbefore, h.carriers] at hreports
    simp only [hreports, Place.carriers, filterMap_cons, filterMap_nil, hphase,
      Phase.finalStatus, TaskRecord.settle_status hvalid.2]

theorem Noted.reschedule (hc : c ∈ l.carriers) {due : Due} (hphase : c.phase = .rescheduling due)
    (closed : Bool) (hregular : (l.record.reschedule closed).2 = false) (waiting : Nat) :
    Noted job { l with
      record := (l.record.reschedule closed).1
      carriers := l.carriers.erase c
      waiting := waiting } := by
  have hlate : c.phase ≠ .fired := by rw [hphase]; exact nofun
  obtain ⟨rfl, herase, _⟩ := h.held hc
  have hpending : (l.record.reschedule closed).1.state = .pending := by
    obtain ⟨_, hended | hpending⟩ := TaskRecord.reschedule_of_active (h.late hlate).2 closed
    · rw [hended.2.1] at hregular; cases hregular
    · exact hpending.2.2.2
  refine hn.ongoing (h.not_over hc hlate) ?_ rfl rfl rfl fun _ => ?_
  · intro ⟨_, hstate⟩
    simp only [hpending] at hstate; cases hstate
  · rw [h.carried_eq hc, hphase, carried]
    simp only [herase]; rfl

end

theorem Noted.cancel (hn : Noted job l) (hcall : l.call = .accepted) {result : TaskRecord × Bool}
    (hcancel : l.record.requestCancel status = some result)
    (hregular : (result.2 && job.hasCompletion) = false) :
    Noted job { l with
      record := result.1
      owed := if result.2 then l.owed + 1 else l.owed } := by
  obtain ⟨_, hgoing, _, hresult⟩ := TaskRecord.requestCancel_eq_some hcancel
  have hbefore : ¬l.Over := by
    intro hover
    rw [hover.2] at hgoing; cases hgoing
  rcases hresult with ⟨_, hended, _, _, hstate⟩ | ⟨_, hended, _, _, hstate⟩
  · refine hn.ongoing hbefore ?_ rfl (by rw [hended]; rfl) rfl fun _ => rfl
    intro ⟨_, hterminal⟩
    simp only [hstate] at hterminal; cases hterminal
  · constructor
    · have hafter : Over { l with
          record := result.1
          owed := if result.2 then l.owed + 1 else l.owed } :=
        ⟨hcall, by simp only [hstate]; rfl⟩
      have hevents := hn.events
      rw [if_neg hbefore] at hevents
      rw [if_pos hafter]
      simp only [hended, if_true]; omega
    · -- a task with a completion callback is not ended by a cancellation here
      intro hjob
      rw [hended, hjob] at hregular; cases hregular

theorem finalStatus_of_leads {phase next : Phase} (hjob : job.hasCompletion = true)
    (h : Phase.Leads job phase next) : next.finalStatus = phase.finalStatus := by
  cases h with
  | finish _ hnot =>
    rw [isRetry_of_hasCompletion hjob] at hnot; cases hnot
  | complete hphase => rcases hphase with rfl | rfl | rfl <;> rfl
  | _ => rfl

theorem Noted.answer (hn : Noted job l) (hcall : l.call ≠ .accepted) {call : Call} {r : TaskRecord}
    {waiting : Nat} (hafter : call = .accepted → r.state.isTerminal = false) :
    Noted job { l with call := call, record := r, waiting := waiting } := by
  refine hn.ongoing (fun hover => hcall hover.1) ?_ rfl rfl rfl fun _ => rfl
  intro ⟨haccepted, hterminal⟩
  rw [hafter haccepted] at hterminal; cases hterminal

theorem Noted.step {regular : Bool} (hn : Noted job l) (h : Sound job l place)
    (hstep : Step job regular l l') (hregular : regular = true) : Noted job l' := by
  cases hstep with
  | decline hcall | make hcall | reject hcall => exact hn.answer (by rw [hcall]; exact nofun) nofun
  | accept hcall =>
    refine hn.answer (by rw [hcall]; exact nofun) fun _ => ?_
    rw [(h.fresh _ (Or.inr hcall)).1]; rfl
  | fire hwaiting hphase =>
    refine hn.frame rfl rfl rfl rfl rfl fun _ => ?_
    rw [carried, carried, filterMap_cons, hphase]; rfl
  | drain => exact ⟨hn.events, hn.reports⟩
  | start hc hphase hstart => exact hn.start h hc hphase hstart
  | leave hc hphase =>
    refine hn.leave h hc ?_
    rcases hphase with hphase | hphase <;> rw [hphase] <;> rfl
  | pass hc hleads => exact hn.carry h hc (fun hjob => finalStatus_of_leads hjob hleads) _ _
  | postThrows hc =>
    refine hn.carry h hc (fun hjob => ?_) _ _
    rw [hjob] at hregular; cases hregular
  | check hc hphase hnext | nextRun hc hphase hnext =>
    refine hn.carry h hc (fun _ => ?_) _ _
    rw [hphase, hnext]; rfl
  -- a failed run publishes an event of its own
  | runFails => cases hregular
  | lastRun hc hphase hnext hperiodic =>
    refine hn.carry h hc (fun hjob => ?_) _ _
    rw [isPeriodic_of_isRetry (isRetry_of_hasCompletion hjob)] at hperiodic
    cases hperiodic
  | complete hc hphase hnext => exact hn.complete h hc hphase hnext
  | finish hc hphase => exact hn.finish h hc hphase
  | reschedule closed hc hphase =>
    rw [Bool.not_eq_true'] at hregular
    exact hn.reschedule h hc hphase closed hregular _
  | cancel hcall hcancel =>
    rw [Bool.not_eq_true'] at hregular; exact hn.cancel hcall hcancel hregular
  | publish =>
    refine ⟨?_, hn.reports⟩
    have hevents := hn.events
    change _ = if l.Over then 1 else 0
    rw [← hevents]
    simp only; omega

end Life

/-! ## 2. Runs -/

variable {requests : TaskId → Request} {s s' : State} {task : TaskId}

/-- The invariant together with events and reports in order. -/
def State.Orderly (requests : TaskId → Request) (s : State) : Prop :=
  s.Inv requests ∧ ∀ task, (s.life task).Noted (requests task).job

theorem State.Orderly.step (h : s.Orderly requests) {move : Move}
    (hannounced : s.Announced requests move) (hstep : s.step requests move = some s') :
    s'.Orderly requests := by
  refine ⟨h.1.step hstep, fun task => ?_⟩
  obtain ⟨place, hsound⟩ := h.1.lives task
  rcases follows_step h.1.known hstep task with hsame | ⟨regular, hlife, hregular⟩
  · rw [hsame]; exact h.2 task
  · exact (h.2 task).step hsound hlife (hregular hannounced)

/-- In a run of announced moves a task that has ended, and for which nobody has anything terminal
    left to publish, has one terminal event and, with a completion callback, one report with its
    status. -/
theorem one_terminal_notification {moves : List Move}
    (hannounced : Interleaving.Obeys (State.step requests)
      (fun move s => s.Announced requests move) moves {})
    (hrun : run requests moves = some s) (haccepted : task ∈ s.accepted)
    (hterminal : (s.record task).state.isTerminal = true)
    (hreturned : ∀ debt ∈ s.debts, debt.2.ends task = false) :
    s.events.countP (·.ends task) = 1 ∧ ((requests task).job.hasCompletion = true →
        (s.reports.filter (·.1 == task)).map (·.2.status) = [(s.record task).status]) := by
  have hinitial : State.Orderly requests {} := ⟨State.Inv.initial, fun _ => Life.Noted.initial⟩
  have horderly : s.Orderly requests :=
    hannounced.invariant (fun hs hmove hstep => hs.step hmove hstep) hinitial hrun
  have hnoted := horderly.2 task
  have hover : (s.life task).Over := ⟨(horderly.1.books.mem_iff task).mp haccepted, hterminal⟩
  have howed : (s.life task).owed = 0 := by
    refine countP_eq_zero.mpr fun debt hdebt => ?_
    rw [hreturned debt hdebt]; exact Bool.false_ne_true
  constructor
  · have hevents := hnoted.events
    rw [if_pos hover, howed] at hevents; exact hevents
  · intro hjob
    have hreports := hnoted.reports hjob
    rw [if_pos hover] at hreports; exact hreports

/-- A task that fails once and is tried again, with a completion callback. -/
def retryRequest : TaskId → Request :=
  fun _ => { job := .retry { maxAttempts := 2, retryOnAnyError := true } true true 0 }

def periodicRequest : TaskId → Request :=
  fun _ => { job := .periodic 1 (some 2) .fixedDelay true }

def firstRound (result : CallResult) : List Move :=
  [.make 0, .enter 0, .publish (.caller 0), .fire, .start ⟨.worker, 0, .fired⟩, .publish .worker,
    .post ⟨.worker, 0, .posting⟩ .accepts, .take ⟨.executor, 0, .posted⟩,
    .check ⟨.executor, 0, .entering⟩, .callEnds ⟨.executor, 0, .calling⟩ result (.ok 0)]

def unavailable : CallResult := .returned (.error (.unavailable []))

def secondAttempt : List Move :=
  firstRound unavailable ++
    [.publish (.executor 0), .reschedule ⟨.executor, 0, .rescheduling (.after 0)⟩] ++ round 0 ++
    [.complete ⟨.executor, 0, .completing .completed (.ok ())⟩,
      .finish ⟨.executor, 0, .finishing .completed (.ok ()) 2⟩, .publish (.executor 0)]

theorem one_terminal_notification_secondAttempt :
    ∃ s, run retryRequest secondAttempt = some s ∧ s.events.countP (·.ends 0) = 1 ∧
      (s.reports.filter (·.1 == 0)).map (·.2.status) = [.ok ()] := by
  have hrun : ∃ s, run retryRequest secondAttempt = some s ∧ s.accepted = [0] ∧ s.debts = [] ∧
      (s.record 0).state = .completed ∧ (s.record 0).status = .ok () := ⟨_, rfl, rfl, rfl, rfl, rfl⟩
  obtain ⟨s, hrun, haccepted, hdebts, hstate, hstatus⟩ := hrun
  have hannounced : Interleaving.Obeys (State.step retryRequest)
      (fun move s => s.Announced retryRequest move) secondAttempt {} := by decide +kernel
  have hmem : 0 ∈ s.accepted := by simp [haccepted]
  have hone := one_terminal_notification hannounced hrun hmem (by rw [hstate]; rfl)
    (by simp [hdebts])
  exact ⟨s, hrun, hone.1, hstatus ▸ hone.2 rfl⟩

/-- Once a task is in a terminal state, its callback is not under way and is never called again. -/
theorem terminal_task_never_called {moves : List Move} (hrun : run requests moves = some s)
    (hterminal : (s.record task).state.isTerminal = true) (hlater : Later requests s s') :
    s'.called.count task = s.called.count task ∧
      ∀ c ∈ s'.carriers, c.task = task → c.phase = .fired := by
  have hinv : s.Inv requests := State.Inv.initial.run hrun
  have hfired : ∀ {l : Life} {place : Place} {c : Carrier}, l.Sound (requests task).job place →
      l.record = s.record task → c ∈ l.carriers → c.phase = .fired := fun hsound hl hc => by
    by_contra hphase
    exact hsound.not_over hc hphase ⟨(hsound.held hc).2.2.2, hl ▸ hterminal⟩
  obtain ⟨hrecord, hcalled⟩ := hinv.lasts hlater (P := fun l => l.record = s.record task ∧
      l.called = s.called.count task) (fun hsound hstep ⟨hl, hcalled⟩ => by
    refine ⟨(hsound.record_of_terminal hstep (hl ▸ hterminal)).trans hl, ?_⟩
    cases hstep with
    | check hc hphase =>
      rw [hfired hsound hl hc] at hphase; cases hphase
    | _ => exact hcalled) ⟨rfl, rfl⟩
  refine ⟨hcalled, ?_⟩
  rintro c hc rfl
  obtain ⟨_, hrun'⟩ := hlater
  obtain ⟨_, hsound⟩ := (hinv.run hrun').lives c.task
  exact hfired hsound hrecord (State.mem_life_carriers hc)

theorem secondAttempt_never_called_again :
    ∃ s, run retryRequest secondAttempt = some s ∧
      ∀ s', Later retryRequest s s' → s'.called.count 0 = 2 :=
  ⟨_, rfl, fun _ hlater =>
    (@terminal_task_never_called _ _ _ 0 secondAttempt rfl rfl hlater).1⟩

def cancelledBetween : List Move :=
  firstRound unavailable ++
    [.publish (.executor 0), .reschedule ⟨.executor, 0, .rescheduling (.after 0)⟩, .cancel 0 0,
      .publish (.canceller 0)]

def closedDuringRun : List Move :=
  firstRound (.returned (.ok ())) ++ [.close 0 .drainPending, .count ⟨.executor, 0, .counting⟩,
      .reschedule ⟨.executor, 0, .rescheduling (.at 1)⟩]

def firstRunThrows : List Move :=
  firstRound (.threw .other) ++ [.publish (.executor 0), .count ⟨.executor, 0, .counting⟩,
      .reschedule ⟨.executor, 0, .rescheduling (.at 1)⟩, .tick 1] ++ round 0 ++
    [.count ⟨.executor, 0, .counting⟩, .finish ⟨.executor, 0, .finishing .completed (.ok ()) 0⟩,
      .publish (.executor 0)]

/-- Three tasks that have ended, with nothing left to publish: one without a report, one without a
    terminal event, and one with two. -/
theorem terminal_notifications_missing :
    (∃ s, run retryRequest cancelledBetween = some s ∧ 0 ∈ s.accepted ∧
      (s.record 0).state = .cancelled ∧ s.debts = [] ∧ s.reports = []) ∧
    (∃ s, run periodicRequest closedDuringRun = some s ∧ 0 ∈ s.accepted ∧
      (s.record 0).state = .cancelled ∧ s.debts = [] ∧ s.events.countP (·.ends 0) = 0) ∧
    ∃ s, run periodicRequest firstRunThrows = some s ∧ 0 ∈ s.accepted ∧
      (s.record 0).state = .completed ∧ s.debts = [] ∧ s.events.countP (·.ends 0) = 2 := by
  refine ⟨⟨_, rfl, ?_, rfl, rfl, rfl⟩, ⟨_, rfl, ?_, rfl, rfl, rfl⟩, ⟨_, rfl, ?_, rfl, rfl, rfl⟩⟩
  all_goals exact mem_singleton_self 0

end Scheduler

end LangGraph
