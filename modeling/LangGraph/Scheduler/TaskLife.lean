import LangGraph.Scheduler.TaskScheduler

/-!
# The life of one task

What the scheduler has of a single task, and what can happen to it.  A move of the scheduler is for
every task one of these steps or nothing at all, so what holds of a life holds of every task.
-/

namespace LangGraph

namespace Scheduler

/-- What the scheduler has of one task: its call and record, how many entries the queue has for it
    and who carries its function, its runs and starts, the terminal events still to be published and
    those that were, and the statuses its completion callback was called with. -/
structure Life where
  call : Call := .unmade
  record : TaskRecord := {}
  waiting : Nat := 0
  carriers : List Carrier := []
  runs : Nat := 0
  started : Nat := 0
  called : Nat := 0
  owed : Nat := 0
  published : Nat := 0
  reported : List Outcome := []

/-! ## 1. Steps -/

/-- A final state with its status as `finishTask` and `finishRetry` are called with them. -/
def Settles (finalState : ScheduledTaskState) (status : Outcome) : Prop :=
  finalState.isTerminal = true ∧ (finalState = .cancelled → Outcome.isOk status = false)

/-- How a function goes on where nothing but its phase changes. -/
inductive Phase.Leads (job : Job) : Phase → Phase → Prop where
  | post : Leads job .posting .posted
  | take : Leads job .posted .entering
  | finish {phase finalState status attempt}
      (hphase : phase = .posting ∨ phase = .entering ∨ phase = .calling ∧ job.isPeriodic = false)
      (hjob : job.isRetry = false) (hsettles : Settles finalState status) :
      Leads job phase (.finishing finalState status attempt)
  | complete {phase finalState status}
      (hphase : phase = .posting ∨ phase = .entering ∨ phase = .calling)
      (hjob : job.isRetry = true) (hsettles : Settles finalState status) :
      Leads job phase (.completing finalState status)
  | count (hjob : job.isPeriodic = true) : Leads job .calling .counting
  | retry {due} (hjob : job.isRetry = true) : Leads job .calling (.rescheduling due)

/-- A step in the life of a task.  The flag is off at the four steps after which a terminal event or
    a report is missing or one event too many. -/
inductive Life.Step (job : Job) : Bool → Life → Life → Prop where
  | decline {l} (hcall : l.call = .unmade) : Step job true l { l with call := .rejected }
  | make {l due} (hcall : l.call = .unmade) (hruns : ∀ n, job.maxRuns = some n → 0 < n) :
      Step job true l { l with call := .made due }
  | accept {l due} (hcall : l.call = .made due) :
      Step job true l { l with call := .accepted, waiting := l.waiting + 1 }
  | reject {l due} (hcall : l.call = .made due) :
      Step job true l { l with call := .rejected, record := l.record.reject }
  | fire {l n c} (hwaiting : l.waiting = n + 1) (hphase : c.phase = .fired) :
      Step job true l { l with waiting := n, carriers := c :: l.carriers }
  | drain {l} : Step job true l { l with waiting := 0 }
  | start {l c r} (hc : c ∈ l.carriers) (hphase : c.phase = .fired)
      (hstart : l.record.start = some r) :
      Step job true l { l with
        record := r
        carriers := { c with phase := .posting } :: l.carriers.erase c
        started := l.started + 1 }
  | leave {l c} (hc : c ∈ l.carriers) (hphase : c.phase = .fired ∨ c.phase = .posted) :
      Step job true l { l with carriers := l.carriers.erase c }
  | pass {l c next} (hc : c ∈ l.carriers) (hleads : Phase.Leads job c.phase next.phase) :
      Step job true l { l with carriers := next :: l.carriers.erase c }
  | postThrows {l c next status} (hc : c ∈ l.carriers) (hphase : c.phase = .posting)
      (hnext : next.phase = .finishing .completed status 0) :
      Step job (!job.hasCompletion) l { l with carriers := next :: l.carriers.erase c }
  | check {l c next} (hc : c ∈ l.carriers) (hphase : c.phase = .entering)
      (hnext : next.phase = .calling) :
      Step job true l { l with
        carriers := next :: l.carriers.erase c
        called := l.called + 1 }
  | runFails {l c next} (hc : c ∈ l.carriers) (hphase : c.phase = .calling)
      (hnext : next.phase = .counting) (hjob : job.isPeriodic = true) :
      Step job false l { l with
        carriers := next :: l.carriers.erase c
        owed := l.owed + 1 }
  | lastRun {l c next} (hc : c ∈ l.carriers) (hphase : c.phase = .counting)
      (hnext : next.phase = .finishing .completed (.ok ()) 0) (hjob : job.isPeriodic = true) :
      Step job true l { l with
        carriers := next :: l.carriers.erase c
        runs := l.runs + 1 }
  | nextRun {l c next due} (hc : c ∈ l.carriers) (hphase : c.phase = .counting)
      (hnext : next.phase = .rescheduling due)
      (hruns : ∀ n, job.maxRuns = some n → l.runs + 1 < n) :
      Step job true l { l with
        carriers := next :: l.carriers.erase c
        runs := l.runs + 1 }
  | complete {l c next finalState status attempt} (hc : c ∈ l.carriers)
      (hphase : c.phase = .completing finalState status)
      (hnext : next.phase = .finishing finalState status attempt) :
      Step job true l { l with
        carriers := next :: l.carriers.erase c
        reported := if job.hasCompletion then status :: l.reported else l.reported }
  | finish {l c finalState status attempt} (hc : c ∈ l.carriers)
      (hphase : c.phase = .finishing finalState status attempt) :
      Step job true l { l with
        record := (l.record.finish finalState status).1
        carriers := l.carriers.erase c
        owed := if (l.record.finish finalState status).2 then l.owed + 1 else l.owed }
  | reschedule {l c due} (closed : Bool) (hc : c ∈ l.carriers)
      (hphase : c.phase = .rescheduling due) :
      Step job (!(l.record.reschedule closed).2) l { l with
        record := (l.record.reschedule closed).1
        carriers := l.carriers.erase c
        waiting := if (l.record.reschedule closed).1.active then l.waiting + 1 else l.waiting }
  | cancel {l status result} (hcall : l.call = .accepted)
      (hcancel : l.record.requestCancel (.error status) = some result) :
      Step job (!(result.2 && job.hasCompletion)) l { l with
        record := result.1
        owed := if result.2 then l.owed + 1 else l.owed }
  | publish {l n} (howed : l.owed = n + 1) :
      Step job true l { l with owed := n, published := l.published + 1 }

/-! ## 2. Where the function of a task is -/

inductive Place where
  | nowhere
  | queued
  | held (c : Carrier)

namespace Place

def waiting : Place → Nat
  | .queued => 1
  | _ => 0

def carriers : Place → List Carrier
  | .held c => [c]
  | _ => []

def Early : Place → Prop
  | .nowhere => False
  | .queued => True
  | .held c => c.phase = .fired

/-- The task has started and its function has still to end it or put it back. -/
def Late : Place → Prop
  | .held c => c.phase ≠ .fired
  | _ => False

/-- The task has started and its callback was not called since. -/
def Uncalled : Place → Prop
  | .held c => c.phase = .posting ∨ c.phase = .posted ∨ c.phase = .entering
  | _ => False

/-- The callback of a periodic task runs or has run and is not counted yet. -/
def uncounted : Place → Nat
  | .held c =>
    match c.phase with
    | .calling | .counting => 1
    | _ => 0
  | _ => 0

def MayRun : Place → Prop
  | .nowhere => False
  | .queued => True
  | .held c =>
    match c.phase with
    | .completing _ _ | .finishing _ _ _ => False
    | _ => True

end Place

def Phase.Valid : Phase → Prop
  | .completing finalState status | .finishing finalState status _ => Settles finalState status
  | _ => True

/-- The function of a task is at one place at most, and the record and the counters fit the place. -/
structure Life.Sound (job : Job) (l : Life) (place : Place) : Prop where
  waiting : l.waiting = place.waiting
  carriers : l.carriers = place.carriers
  accepted : l.call ≠ .accepted → place = .nowhere
  fresh : ∀ due, l.call = .unmade ∨ l.call = .made due → l.record = {} ∧ l.runs = 0 ∧ l.called = 0
  allowed : ∀ due, l.call = .made due → ∀ n, job.maxRuns = some n → 0 < n
  early : place.Early → l.record.running = false
  late : place.Late → l.record.running = true ∧ l.record.active = true
  valid : ∀ c, place = .held c → c.phase.Valid
  active_iff : l.call = .accepted → (l.record.active = true ↔ l.record.state.isTerminal = false)
  called : job.isPeriodic = true → l.called = l.runs + place.uncounted
  runs : ∀ n, job.maxRuns = some n → l.runs ≤ n
  mayRun : place.MayRun → ∀ n, job.maxRuns = some n → l.runs < n
  called_le : l.called ≤ l.started
  called_lt : place.Uncalled → l.called < l.started

namespace Life

variable {job : Job} {l : Life} {place : Place} {c : Carrier}

theorem Sound.initial : Sound job {} .nowhere where
  waiting := rfl
  carriers := rfl
  accepted _ := rfl
  fresh _ _ := ⟨rfl, rfl, rfl⟩
  allowed _ h := nomatch h
  early h := h.elim
  late h := h.elim
  valid _ h := nomatch h
  active_iff h := nomatch h
  called _ := rfl
  runs _ _ := Nat.zero_le _
  mayRun h := h.elim
  called_le := Nat.le_refl _
  called_lt h := h.elim

theorem Sound.held (h : Sound job l place) (hc : c ∈ l.carriers) :
    place = .held c ∧ l.carriers.erase c = [] ∧ l.waiting = 0 ∧ l.call = .accepted := by
  have hplace : place = .held c := by
    rw [h.carriers] at hc
    cases place with
    | held => rw [List.mem_singleton.mp hc]
    | _ => cases hc
  refine ⟨hplace, ?_, ?_, ?_⟩
  · rw [h.carriers, hplace]; exact List.erase_cons_head c []
  · rw [h.waiting, hplace]; rfl
  · by_contra hcall
    rw [h.accepted hcall] at hplace; cases hplace

theorem not_fresh {call : Call} (h : call = .accepted) {due : Int} :
    ¬(call = .unmade ∨ call = .made due) := by
  subst h; exact nofun

variable {next : Carrier} {r : TaskRecord} {regular : Bool} {l' : Life}

/-- The function of a task goes on to its next phase; the two phases alone decide what is left to
    show. -/
theorem Sound.carry (h : Sound job l place) (hc : c ∈ l.carriers) {phase after : Phase}
    (hphase : c.phase = phase) (hnext : next.phase = after)
    (hlate : phase ≠ .fired ∧ after ≠ .fired) (hvalid : after.Valid) {called runs : Nat}
    (hcalled : job.isPeriodic = true →
      l.called = l.runs + (Place.held { c with phase := phase }).uncounted →
      called = runs + (Place.held { next with phase := after }).uncounted)
    (hruns : ∀ n, job.maxRuns = some n → runs ≤ n)
    (hmayRun : (Place.held { next with phase := after }).MayRun →
      ∀ n, job.maxRuns = some n → runs < n)
    (hle : called ≤ l.started)
    (hlt : (Place.held { next with phase := after }).Uncalled → called < l.started) (owed : Nat)
    (reported : List Outcome) :
    Sound job { l with
      carriers := next :: l.carriers.erase c
      called := called
      runs := runs
      owed := owed
      reported := reported } (.held next) := by
  obtain ⟨rfl, herase, hwaiting, hcall⟩ := h.held hc
  subst hphase hnext
  exact {
    __ := h
    waiting := hwaiting
    carriers := by rw [herase]; rfl
    accepted := fun hne => (hne hcall).elim
    fresh := fun _ hfresh => (not_fresh hcall hfresh).elim
    early := fun hearly => (hlate.2 hearly).elim
    late := fun _ => h.late hlate.1
    valid := fun other hother => by cases hother; exact hvalid
    called := fun hjob => hcalled hjob (h.called hjob)
    runs := hruns
    mayRun := hmayRun
    called_le := hle
    called_lt := hlt }

theorem Sound.release (h : Sound job l place) (hc : c ∈ l.carriers) (owed : Nat)
    (hactive : r.active = true ↔ r.state.isTerminal = false)
    (hcalled : job.isPeriodic = true → l.called = l.runs) :
    Sound job { l with record := r, carriers := l.carriers.erase c, owed := owed } .nowhere := by
  obtain ⟨rfl, herase, hwaiting, hcall⟩ := h.held hc
  exact {
    __ := h
    waiting := hwaiting
    carriers := herase
    accepted := fun _ => rfl
    fresh := fun _ hfresh => (not_fresh hcall hfresh).elim
    early := False.elim
    late := False.elim
    valid := nofun
    active_iff := fun _ => hactive
    called := hcalled
    mayRun := False.elim
    called_lt := False.elim }

theorem Sound.requeue (h : Sound job l (.held c)) {due : Due}
    (hphase : c.phase = .rescheduling due) (hcall : l.call = .accepted)
    (hrunning : r.running = false) (hactive : r.active = true ↔ r.state.isTerminal = false) :
    Sound job { l with record := r, carriers := [], waiting := 1 } .queued where
  __ := h
  waiting := rfl
  carriers := rfl
  accepted hne := (hne hcall).elim
  fresh _ hfresh := (not_fresh hcall hfresh).elim
  early _ := hrunning
  late := False.elim
  valid := nofun
  active_iff _ := hactive
  called hjob := by simpa [Place.uncounted, hphase] using h.called hjob
  mayRun _ := h.mayRun (by simp [Place.MayRun, hphase])
  called_lt := False.elim

section

variable (h : Sound job l place)

include h

theorem Sound.accept {due : Int} (hcall : l.call = .made due) :
    Sound job { l with call := .accepted, waiting := l.waiting + 1 } .queued := by
  obtain rfl : place = .nowhere := h.accepted (by rw [hcall]; exact nofun)
  obtain ⟨hrecord, hruns, hcalled⟩ := h.fresh due (Or.inr hcall)
  exact { h with
    waiting := by rw [h.waiting]; rfl
    accepted := fun hne => (hne rfl).elim
    fresh := nofun
    allowed := nofun
    early := fun _ => by rw [hrecord]
    valid := nofun
    active_iff := fun _ => by rw [hrecord]; decide
    mayRun := fun _ n hn => hruns ▸ h.allowed due hcall n hn
    called_lt := False.elim }

theorem Sound.answer (hcall : l.call ≠ .accepted) {call : Call} (hnew : call ≠ .accepted)
    (hfresh : ∀ due, call = .unmade ∨ call = .made due → r = {} ∧ l.runs = 0 ∧ l.called = 0)
    (hallowed : ∀ due, call = .made due → ∀ n, job.maxRuns = some n → 0 < n) :
    Sound job { l with call := call, record := r } .nowhere := by
  obtain rfl : place = .nowhere := h.accepted hcall
  exact { h with
    accepted := fun _ => rfl
    fresh := hfresh
    allowed := hallowed
    early := False.elim
    late := False.elim
    active_iff := fun h => (hnew h).elim }

theorem Sound.fire {n : Nat} (hwaiting : l.waiting = n + 1) (hphase : c.phase = .fired) :
    Sound job { l with waiting := n, carriers := c :: l.carriers } (.held c) := by
  have hplace : place = .queued := by
    rw [h.waiting] at hwaiting
    cases place with
    | queued => rfl
    | _ => cases hwaiting
  subst hplace
  obtain rfl : n = 0 := by rw [h.waiting] at hwaiting; exact (Nat.succ.inj hwaiting).symm
  have hcall : l.call = .accepted := by
    by_contra hne
    exact nomatch h.accepted hne
  exact { h with
    waiting := rfl
    carriers := by rw [h.carriers]; rfl
    accepted := fun hne => (hne hcall).elim
    early := fun _ => h.early trivial
    late := fun hlate => (hlate hphase).elim
    valid := fun other hother => by cases hother; rw [hphase]; trivial
    called := fun hjob => by simpa [Place.uncounted, hphase] using h.called hjob
    mayRun := fun _ => h.mayRun trivial
    called_lt := fun huncalled => by simp [Place.Uncalled, hphase] at huncalled }

theorem Sound.drain : ∃ place', Sound job { l with waiting := 0 } place' := by
  cases place with
  | queued =>
    exact ⟨.nowhere, { h with
      waiting := rfl
      accepted := fun _ => rfl
      early := False.elim
      valid := nofun
      mayRun := False.elim
      called_lt := False.elim }⟩
  | nowhere => exact ⟨.nowhere, { h with waiting := rfl }⟩
  | held c => exact ⟨.held c, { h with waiting := rfl }⟩

theorem Sound.start (hc : c ∈ l.carriers) (hphase : c.phase = .fired)
    (hstart : l.record.start = some r) :
    Sound job { l with
      record := r
      carriers := { c with phase := .posting } :: l.carriers.erase c
      started := l.started + 1 } (.held { c with phase := .posting }) := by
  obtain ⟨rfl, herase, hwaiting, hcall⟩ := h.held hc
  obtain ⟨hactive, _, _, rfl⟩ := TaskRecord.start_eq_some hstart
  exact { h with
    carriers := by rw [herase]; rfl
    accepted := fun hne => (hne hcall).elim
    fresh := fun _ hfresh => (not_fresh hcall hfresh).elim
    early := nofun
    late := fun _ => ⟨rfl, hactive⟩
    valid := fun other hother => by cases hother; trivial
    active_iff := fun _ => iff_of_true hactive rfl
    called := fun hjob => by simpa [Place.uncounted, hphase] using h.called hjob
    mayRun := fun _ => h.mayRun (by simp [Place.MayRun, hphase])
    called_le := Nat.le_succ_of_le h.called_le
    called_lt := fun _ => Nat.lt_succ_of_le h.called_le }

theorem Sound.cancel {status : Outcome} {result : TaskRecord × Bool} (hcall : l.call = .accepted)
    (hcancel : l.record.requestCancel status = some result) (owed : Nat) :
    Sound job { l with record := result.1, owed := owed } place := by
  obtain ⟨_, _, _, hresult⟩ := TaskRecord.requestCancel_eq_some hcancel
  rcases hresult with ⟨hran, _, hrunning, hactive, hstate⟩ | ⟨hran, _, hrunning, hactive, hstate⟩
  · exact { h with
      fresh := fun _ hfresh => (not_fresh hcall hfresh).elim
      early := fun hearly => by
        rw [h.early hearly] at hran; cases hran
      late := fun _ => ⟨hrunning, hactive⟩
      active_iff := fun _ => iff_of_true hactive (by rw [hstate]; rfl) }
  · exact { h with
      fresh := fun _ hfresh => (not_fresh hcall hfresh).elim
      early := fun _ => hrunning
      late := fun hlate => by
        rw [(h.late hlate).1] at hran; cases hran
      active_iff := fun _ => by
        rw [hactive, hstate]
        decide }

theorem Sound.finish (hc : c ∈ l.carriers) {finalState : ScheduledTaskState} {status : Outcome}
    {attempt : Nat} (hphase : c.phase = .finishing finalState status attempt) (owed : Nat) :
    Sound job { l with
      record := (l.record.finish finalState status).1
      carriers := l.carriers.erase c
      owed := owed } .nowhere := by
  obtain ⟨rfl, _, _, hcall⟩ := h.held hc
  have hvalid := h.valid c rfl
  rw [hphase] at hvalid
  have hactive := (h.late (by simp [Place.Late, hphase])).2
  refine h.release hc owed ?_ fun hjob => by simpa [Place.uncounted, hphase] using h.called hjob
  rw [TaskRecord.finish_of_active hactive]
  exact iff_of_false (by simp) (by simp [TaskRecord.settle_isTerminal hvalid.1])

theorem Sound.reschedule (hc : c ∈ l.carriers) {due : Due} (hphase : c.phase = .rescheduling due)
    (closed : Bool) :
    ∃ place', Sound job { l with
      record := (l.record.reschedule closed).1
      carriers := l.carriers.erase c
      waiting := if (l.record.reschedule closed).1.active then l.waiting + 1 else l.waiting }
      place' := by
  obtain ⟨rfl, herase, hwaiting, hcall⟩ := h.held hc
  have hactive := (h.late (by simp [Place.Late, hphase])).2
  obtain ⟨hrunning, hended | hpending⟩ := TaskRecord.reschedule_of_active hactive closed
  · obtain ⟨_, _, hinactive, hstate⟩ := hended
    refine ⟨.nowhere, ?_⟩
    rw [hinactive]
    refine h.release hc l.owed ?_ fun hjob => by simpa [Place.uncounted, hphase] using h.called hjob
    rw [hinactive, hstate]; decide
  · obtain ⟨_, _, hstill, hstate⟩ := hpending
    refine ⟨.queued, ?_⟩
    rw [if_pos hstill, herase, hwaiting]
    refine h.requeue hphase hcall hrunning ?_
    rw [hstill, hstate]; decide

end

/-- A phase that leads to another one is late, the other one is late too, and the same runs are
    uncounted. -/
theorem leads_spec {phase next : Phase} (h : Phase.Leads job phase next) :
    phase ≠ .fired ∧ next ≠ .fired ∧ next.Valid := by
  cases h with
  | post | take | count | retry => exact ⟨nofun, nofun, trivial⟩
  | finish hphase _ hsettles =>
    refine ⟨?_, nofun, hsettles⟩
    rcases hphase with rfl | rfl | ⟨rfl, _⟩ <;> exact nofun
  | complete hphase _ hsettles =>
    refine ⟨?_, nofun, hsettles⟩
    rcases hphase with rfl | rfl | rfl <;> exact nofun

theorem isPeriodic_of_isRetry (h : job.isRetry = true) : job.isPeriodic = false := by
  cases job with
  | retry => rfl
  | _ => cases h

section

variable (h : Phase.Leads job c.phase next.phase)

include h

theorem uncounted_of_leads (hjob : job.isPeriodic = true) :
    (Place.held next).uncounted = (Place.held c).uncounted := by
  generalize hphase : c.phase = phase at h
  generalize hnext : next.phase = after at h
  simp only [Place.uncounted, hphase, hnext]
  cases h with
  | post | take | count => rfl
  | finish hearly =>
    rcases hearly with rfl | rfl | ⟨_, hnot⟩
    · rfl
    · rfl
    · rw [hjob] at hnot; cases hnot
  | complete _ hretry | retry hretry =>
    rw [isPeriodic_of_isRetry hretry] at hjob; cases hjob

theorem mayRun_of_leads : (Place.held c).MayRun := by
  generalize hphase : c.phase = phase at h
  generalize next.phase = after at h
  simp only [Place.MayRun, hphase]
  cases h with
  | finish hearly => rcases hearly with rfl | rfl | ⟨rfl, _⟩ <;> trivial
  | complete hearly => rcases hearly with rfl | rfl | rfl <;> trivial
  | _ => trivial

theorem uncalled_of_leads (hnext : (Place.held next).Uncalled) : (Place.held c).Uncalled := by
  generalize hphase : c.phase = phase at h
  generalize hafter : next.phase = after at h
  simp only [Place.Uncalled, hphase, hafter] at hnext ⊢
  cases h with
  | post => exact Or.inl rfl
  | take => exact Or.inr (Or.inl rfl)
  | _ => rcases hnext with hnext | hnext | hnext <;> cases hnext

end

theorem Sound.pass (h : Sound job l place) (hc : c ∈ l.carriers)
    (hleads : Phase.Leads job c.phase next.phase) :
    Sound job { l with carriers := next :: l.carriers.erase c } (.held next) := by
  obtain ⟨rfl, _⟩ := h.held hc
  obtain ⟨hphase, hnext, hvalid⟩ := leads_spec hleads
  refine h.carry hc rfl rfl ⟨hphase, hnext⟩ hvalid ?_ h.runs
    (fun _ => h.mayRun (mayRun_of_leads hleads)) h.called_le
    (fun huncalled => h.called_lt (uncalled_of_leads hleads huncalled)) l.owed l.reported
  intro hjob hcalled
  rw [hcalled]; exact congrArg _ (uncounted_of_leads hleads hjob).symm

theorem Sound.step (h : Sound job l place) (hstep : Step job regular l l') :
    ∃ place', Sound job l' place' := by
  cases hstep with
  | decline hcall | reject hcall =>
    refine ⟨.nowhere, h.answer ?_ ?_ ?_ ?_⟩
    · rw [hcall]; exact nofun
    all_goals exact nofun
  | make hcall hruns =>
    refine ⟨.nowhere, h.answer ?_ ?_ ?_ ?_⟩
    · rw [hcall]; exact nofun
    · exact nofun
    · exact fun _ _ => h.fresh 0 (Or.inl hcall)
    · exact fun _ _ => hruns
  | accept hcall => exact ⟨_, h.accept hcall⟩
  | fire hwaiting hphase => exact ⟨_, h.fire hwaiting hphase⟩
  | drain => exact h.drain
  | start hc hphase hstart => exact ⟨_, h.start hc hphase hstart⟩
  | @leave _ c hc hphase =>
    -- the record cannot be started any more, or the executor drops the closure: no call is made
    obtain ⟨rfl, _, _, hcall⟩ := h.held hc
    refine ⟨_, h.release hc l.owed (h.active_iff hcall) fun hjob => ?_⟩
    rcases hphase with hphase | hphase <;> simpa [Place.uncounted, hphase] using h.called hjob
  | pass hc hleads => exact ⟨_, h.pass hc hleads⟩
  | postThrows hc hphase hnext =>
    exact ⟨_, h.carry hc hphase hnext ⟨nofun, nofun⟩ ⟨rfl, nofun⟩ (fun _ => id) h.runs False.elim
      h.called_le (by simp [Place.Uncalled]) l.owed l.reported⟩
  | @check _ c next hc hphase hnext =>
    -- the call is counted here, so the bound on the calls has to be strict before
    obtain ⟨rfl, _⟩ := h.held hc
    have hlt := h.called_lt (by simp [Place.Uncalled, hphase])
    have hmayRun := h.mayRun (by simp [Place.MayRun, hphase])
    exact ⟨_, h.carry hc hphase hnext ⟨nofun, nofun⟩ trivial (fun _ => congrArg (· + 1)) h.runs
      (fun _ => hmayRun) hlt (by simp [Place.Uncalled]) l.owed l.reported⟩
  | @runFails _ c next hc hphase hnext hjob =>
    have hleads : Phase.Leads job c.phase next.phase := by rw [hphase, hnext]; exact .count hjob
    refine ⟨.held next, ?_⟩
    exact { h.pass hc hleads with }
  | @lastRun _ c next hc hphase hnext =>
    obtain ⟨rfl, _⟩ := h.held hc
    have hmayRun := h.mayRun (by simp [Place.MayRun, hphase])
    exact ⟨_, h.carry hc hphase hnext ⟨nofun, nofun⟩ ⟨rfl, nofun⟩ (fun _ => id) hmayRun False.elim
      h.called_le (by simp [Place.Uncalled]) l.owed l.reported⟩
  | nextRun hc hphase hnext hruns =>
    exact ⟨_, h.carry hc hphase hnext ⟨nofun, nofun⟩ trivial (fun _ => id)
      (fun n hn => Nat.le_of_lt (hruns n hn)) (fun _ => hruns) h.called_le (by simp [Place.Uncalled])
      l.owed l.reported⟩
  | @complete _ c next finalState status attempt hc hphase hnext =>
    obtain ⟨rfl, _⟩ := h.held hc
    have hvalid := h.valid c rfl
    rw [hphase] at hvalid
    exact ⟨_, h.carry hc hphase hnext ⟨nofun, nofun⟩ hvalid (fun _ => id) h.runs False.elim
      h.called_le (by simp [Place.Uncalled]) l.owed _⟩
  | finish hc hphase => exact ⟨_, h.finish hc hphase _⟩
  | reschedule closed hc hphase => exact h.reschedule hc hphase closed
  | cancel hcall hcancel => exact ⟨_, h.cancel hcall hcancel _⟩
  | publish => exact ⟨place, { h with }⟩

/-! ## 3. What lasts -/

theorem Sound.record_of_terminal (h : Sound job l place) (hstep : Step job regular l l')
    (hterminal : l.record.state.isTerminal = true) : l'.record = l.record := by
  have hinactive : l.call = .accepted → l.record.active ≠ true := by
    intro hcall
    rw [ne_eq, h.active_iff hcall, hterminal]; exact nofun
  cases hstep with
  | reject hmade =>
    rw [(h.fresh _ (Or.inr hmade)).1] at hterminal; cases hterminal
  | start hc hphase hstart =>
    exact (hinactive (h.held hc).2.2.2 (TaskRecord.start_eq_some hstart).1).elim
  | finish hc hphase | reschedule closed hc hphase =>
    obtain ⟨rfl, _, _, hcall⟩ := h.held hc
    exact (hinactive hcall (h.late (by simp [Place.Late, hphase])).2).elim
  | cancel hcall hcancel =>
    exact (hinactive hcall (TaskRecord.requestCancel_eq_some hcancel).1).elim
  | _ => rfl

theorem started_of_cancelRequested (hstep : Step job regular l l')
    (hcancel : l.record.cancelRequested = true) :
    l'.record.cancelRequested = true ∧ l'.started = l.started := by
  cases hstep with
  | start hc hphase hstart =>
    rw [(TaskRecord.start_eq_some hstart).2.1] at hcancel; cases hcancel
  | finish => exact ⟨(TaskRecord.finish_cancelRequested _ _).trans hcancel, rfl⟩
  | reschedule =>
    exact ⟨(TaskRecord.reschedule_cancelRequested _).trans hcancel, rfl⟩
  | cancel hcall h => exact ⟨(TaskRecord.requestCancel_eq_some h).2.2.1, rfl⟩
  | _ => exact ⟨hcancel, rfl⟩

theorem Sound.called_of_cancelRequested (h : Sound job l place) (hstep : Step job regular l l')
    (hcancel : l.record.cancelRequested = true) (hrunning : l.record.running = false) :
    l'.record.running = false ∧ l'.called = l.called := by
  have hnot : ∀ {c}, c ∈ l.carriers → c.phase = .fired := by
    intro c hc
    obtain ⟨rfl, _⟩ := h.held hc
    by_contra hphase
    rw [(h.late hphase).1] at hrunning; cases hrunning
  cases hstep with
  | start hc hphase hstart =>
    rw [(TaskRecord.start_eq_some hstart).2.1] at hcancel; cases hcancel
  | check hc hphase | finish hc hphase | reschedule closed hc hphase =>
    rw [hnot hc] at hphase; cases hphase
  | cancel hcall h =>
    obtain ⟨_, _, _, ⟨hran, _⟩ | ⟨_, _, hafter, _⟩⟩ := TaskRecord.requestCancel_eq_some h
    · rw [hran] at hrunning; cases hrunning
    · exact ⟨hafter, rfl⟩
  | _ => exact ⟨hrunning, rfl⟩

end Life

end Scheduler

end LangGraph
