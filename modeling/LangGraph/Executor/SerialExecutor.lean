import LangGraph.Executor.Types
import LangGraph.Lib.Interleaving

/-!
# The serial executor

A worker thread with a queue ordered by due time.  `SerialExecutor` asks whether the thread is
running and then dispatches, in two steps: the thread may be shut down in between, and its queue may
be full, and in both cases the dispatch drops the task without a word.

Everything between two locks of the mutex of the thread is one move.  `started`, `discarded` and
`dropped` are histories that the code does not have; of the tasks that were dropped it has the number
only.
-/

namespace LangGraph

namespace SerialExecutor

open Executor Function Interleaving

/-! ## 1. The executor -/

structure Work where
  due : Nat
  sequence : Nat
  call : Call
deriving DecidableEq

def Work.before (work other : Work) : Prop :=
  work.due < other.due ∨ work.due = other.due ∧ work.sequence ≤ other.sequence

instance : DecidableRel Work.before := fun _ _ => inferInstanceAs (Decidable (_ ∨ _))

inductive Point where
  | idle
  /-- At `isClosed`. -/
  | checking (submission : Submission)
  | checked (submission : Submission)
  /-- In `enqueue` of the thread, with the due time. -/
  | dispatching (submission : Submission) (due : Nat)
  /-- The call runs its task itself. -/
  | running (submission : Submission)
  | done (submission : Submission) (result : Result Unit)

inductive Hand where
  | free
  | taken (call : Call)
  | busy (call : Call)
  | exited
deriving DecidableEq

/-- `shutdown`: it stops the thread, waits until the thread is idle, throws the queue away and joins
    the worker. -/
inductive Closing where
  | idle
  | waiting (forever : Bool)
  | discarding
  | joining
  | done
deriving DecidableEq

structure State where
  now : Nat := 0
  running : Bool := true
  stopping : Bool := false
  queue : List Work := []
  outstanding : Nat := 0
  nextSequence : Nat := 1
  hand : Hand := .free
  joined : Bool := false
  point : Call → Point := fun _ => .idle
  closing : Nat → Closing := fun _ => .idle
  started : List Call := []
  discarded : List Call := []
  dropped : List Call := []

inductive Move where
  | tick (time : Nat)
  | begin (call : Call) (submission : Submission)
  | check (call : Call)
  /-- The call reads the clock. -/
  | stamp (call : Call)
  | enqueue (call : Call)
  /-- A call that ran its task itself returns. -/
  | leave (call : Call)
  | take
  | start
  | finish
  | exit
  /-- `close`; on the worker, the `shutdown` of the helper thread, which waits for ever. -/
  | close (closer : Nat) (forever : Bool)
  | goOn (closer : Nat)
deriving DecidableEq

namespace State

def setPoint (call : Call) (point : Point) (s : State) : State :=
  { s with point := Function.update s.point call point }

def setClosing (closer : Nat) (closing : Closing) (s : State) : State :=
  { s with closing := Function.update s.closing closer closing }

def isBusy (s : State) : Bool :=
  match s.hand with
  | .busy _ => true
  | _ => false

def isRunning (s : State) : Bool := s.running && !s.stopping

def admits (maxPendingDispatch : Nat) (s : State) : Bool :=
  s.isRunning && (maxPendingDispatch = 0 || decide (s.outstanding < maxPendingDispatch))

def begin (call : Call) (submission : Submission) (s : State) : Option State :=
  match s.point call with
  | .idle =>
    if submission.onWorker && !s.isBusy then none
    else if submission.empty then some (s.setPoint call (.done submission emptyTask))
    else if submission.inline then
      some { s.setPoint call (.running submission) with started := s.started ++ [call] }
    else some (s.setPoint call (.checking submission))
  | _ => none

def check (call : Call) (s : State) : Option State :=
  match s.point call with
  | .checking submission =>
    if s.isRunning then some (s.setPoint call (.checked submission))
    else some (s.setPoint call
      (.done submission (.error (.unavailable (lit "serial executor is closed")))))
  | _ => none

def stamp (call : Call) (s : State) : Option State :=
  match s.point call with
  | .checked submission =>
    let delay := match submission.kind with
      | .postDelayed delay => delay.toNat
      | _ => 0
    some (s.setPoint call (.dispatching submission (s.now + delay)))
  | _ => none

/-- `dispatchAsync` does not say whether the task was taken. -/
def enqueue (maxPendingDispatch : Nat) (call : Call) (s : State) : Option State :=
  match s.point call with
  | .dispatching submission due =>
    if s.admits maxPendingDispatch then
      some { s.setPoint call (.done submission (.ok ())) with
        queue := s.queue.orderedInsert Work.before ⟨due, s.nextSequence, call⟩
        nextSequence := s.nextSequence + 1
        outstanding := s.outstanding + 1 }
    else
      some { s.setPoint call (.done submission (.ok ())) with dropped := s.dropped ++ [call] }
  | _ => none

def leave (call : Call) (s : State) : Option State :=
  match s.point call with
  | .running submission => some (s.setPoint call (.done submission submission.runTask))
  | _ => none

def take (s : State) : Option State :=
  match s.hand, s.queue with
  | .free, work :: rest =>
    if work.due ≤ s.now then some { s with hand := .taken work.call, queue := rest } else none
  | _, _ => none

def start (s : State) : Option State :=
  match s.hand with
  | .taken call => some { s with hand := .busy call, started := s.started ++ [call] }
  | _ => none

def finish (s : State) : Option State :=
  match s.hand with
  | .busy _ => some { s with hand := .free, outstanding := s.outstanding - 1 }
  | _ => none

def exit (s : State) : Option State :=
  match s.hand, s.queue with
  | .free, [] => if s.stopping then some { s with hand := .exited } else none
  | _, _ => none

def close (closer : Nat) (forever : Bool) (s : State) : Option State :=
  match s.closing closer with
  | .idle =>
    if !s.running && s.joined then some (s.setClosing closer .done)
    else some { s.setClosing closer (.waiting forever) with running := false }
  | _ => none

def goOn (closer : Nat) (s : State) : Option State :=
  match s.closing closer with
  | .waiting forever =>
    -- a timeout may pass at any time
    if forever && s.outstanding != 0 then none else some (s.setClosing closer .discarding)
  | .discarding =>
    some { s.setClosing closer .joining with
      queue := []
      outstanding := s.outstanding - s.queue.length
      stopping := true
      discarded := s.discarded ++ s.queue.map Work.call }
  | .joining =>
    match s.hand with
    | .exited => some { s.setClosing closer .done with joined := true }
    | _ => none
  | _ => none

def step (maxPendingDispatch : Nat) (move : Move) (s : State) : Option State :=
  match move with
  | .tick time => some { s with now := s.now + time }
  | .begin call submission => s.begin call submission
  | .check call => s.check call
  | .stamp call => s.stamp call
  | .enqueue call => s.enqueue maxPendingDispatch call
  | .leave call => s.leave call
  | .take => s.take
  | .start => s.start
  | .finish => s.finish
  | .exit => s.exit
  | .close closer forever => s.close closer forever
  | .goOn closer => s.goOn closer

def ledger (s : State) : Ledger Call where
  queued := s.queue.map Work.call
  held := match s.hand with
    | .taken call => [call]
    | _ => []
  started := s.started
  discarded := s.discarded

def answer (s : State) (call : Call) : Option (Submission × Result Unit) :=
  match s.point call with
  | .done submission result => some (submission, result)
  | _ => none

end State

def run (maxPendingDispatch : Nat) (moves : List Move) : Option State :=
  Interleaving.run (State.step maxPendingDispatch) moves {}

/-- A dispatch finds the thread running, with room in its queue. -/
def Admits (maxPendingDispatch : Nat) (move : Move) (s : State) : Prop :=
  match move with
  | .enqueue _ => s.admits maxPendingDispatch = true
  | _ => True

instance (maxPendingDispatch : Nat) (move : Move) (s : State) :
    Decidable (Admits maxPendingDispatch move s) := by
  unfold Admits
  split <;> infer_instance

def Admitted (maxPendingDispatch : Nat) (moves : List Move) : Prop :=
  Interleaving.Obeys (State.step maxPendingDispatch) (Admits maxPendingDispatch) moves {}

instance (maxPendingDispatch : Nat) (moves : List Move) :
    Decidable (Admitted maxPendingDispatch moves) :=
  inferInstanceAs (Decidable (Interleaving.Obeys _ _ _ _))

/-! ## 2. What a move can do -/

/-- The task of a call neither comes nor goes: the call is refused, moves on, or returns. -/
inductive Advance (s : State) : Point → Point → Prop where
  | refuse {submission : Submission} (empty : submission.empty = true) :
      Advance s .idle (.done submission emptyTask)
  | begin {submission : Submission} (queued : submission.inline = false) :
      Advance s .idle (.checking submission)
  | reject {submission : Submission} {status : Status} :
      Advance s (.checking submission) (.done submission (.error status))
  | pass {submission : Submission} (running : s.isRunning = true) :
      Advance s (.checking submission) (.checked submission)
  | stamp {submission : Submission} {due : Nat} :
      Advance s (.checked submission) (.dispatching submission due)
  | leave {submission : Submission} :
      Advance s (.running submission) (.done submission submission.runTask)

inductive Change (maxPendingDispatch : Nat) (s : State) : Move → State → Prop where
  | tick {time : Nat} : Change maxPendingDispatch s (.tick time) { s with now := s.now + time }
  | advance {move : Move} {call : Call} {point : Point} (advance : Advance s (s.point call) point)
      (other : ∀ call, move ≠ .enqueue call) :
      Change maxPendingDispatch s move (s.setPoint call point)
  | inline {call : Call} {submission : Submission} (idle : s.point call = .idle)
      (inline : submission.inline = true) :
      Change maxPendingDispatch s (.begin call submission)
        { s.setPoint call (.running submission) with started := s.started ++ [call] }
  | enqueue {call : Call} {submission : Submission} {due : Nat}
      (point : s.point call = .dispatching submission due)
      (admits : s.admits maxPendingDispatch = true) :
      Change maxPendingDispatch s (.enqueue call)
        { s.setPoint call (.done submission (.ok ())) with
          queue := s.queue.orderedInsert Work.before ⟨due, s.nextSequence, call⟩
          nextSequence := s.nextSequence + 1
          outstanding := s.outstanding + 1 }
  | drop {call : Call} {submission : Submission} {due : Nat}
      (point : s.point call = .dispatching submission due)
      (full : s.admits maxPendingDispatch = false) :
      Change maxPendingDispatch s (.enqueue call)
        { s.setPoint call (.done submission (.ok ())) with dropped := s.dropped ++ [call] }
  | take {work : Work} {rest : List Work} (free : s.hand = .free)
      (queue : s.queue = work :: rest) (due : work.due ≤ s.now) :
      Change maxPendingDispatch s .take { s with hand := .taken work.call, queue := rest }
  | start {call : Call} (taken : s.hand = .taken call) :
      Change maxPendingDispatch s .start
        { s with hand := .busy call, started := s.started ++ [call] }
  | finish {call : Call} (busy : s.hand = .busy call) :
      Change maxPendingDispatch s .finish
        { s with hand := .free, outstanding := s.outstanding - 1 }
  | exit (free : s.hand = .free) (queue : s.queue = []) (stopping : s.stopping = true) :
      Change maxPendingDispatch s .exit { s with hand := .exited }
  | shut {closer : Nat} {forever : Bool} (joined : s.running = false) :
      Change maxPendingDispatch s (.close closer forever) (s.setClosing closer .done)
  | close {closer : Nat} {forever : Bool} :
      Change maxPendingDispatch s (.close closer forever)
        { s.setClosing closer (.waiting forever) with running := false }
  | await {closer : Nat} (closing : s.closing closer ≠ .idle) :
      Change maxPendingDispatch s (.goOn closer) (s.setClosing closer .discarding)
  | discard {closer : Nat} (closing : s.closing closer = .discarding) :
      Change maxPendingDispatch s (.goOn closer)
        { s.setClosing closer .joining with
          queue := []
          outstanding := s.outstanding - s.queue.length
          stopping := true
          discarded := s.discarded ++ s.queue.map Work.call }
  | join {closer : Nat} (closing : s.closing closer ≠ .idle) :
      Change maxPendingDispatch s (.goOn closer)
        { s.setClosing closer .done with joined := true }

section Changes

variable {maxPendingDispatch : Nat} {s s' : State} {call : Call}

theorem change_of_begin {submission : Submission} (h : s.begin call submission = some s') :
    Change maxPendingDispatch s (.begin call submission) s' := by
  unfold State.begin at h
  cases hpoint : s.point call with
  | idle =>
    simp only [hpoint] at h
    split_ifs at h with hworker hempty hinline
    · cases h; exact .advance (hpoint ▸ .refuse hempty) nofun
    · cases h; exact .inline hpoint hinline
    · cases h
      exact .advance (hpoint ▸ .begin (Bool.eq_false_iff.mpr hinline)) nofun
  | _ => simp only [hpoint] at h; cases h

theorem change_of_check (h : s.check call = some s') :
    Change maxPendingDispatch s (.check call) s' := by
  unfold State.check at h
  cases hpoint : s.point call with
  | checking =>
    simp only [hpoint] at h
    split_ifs at h with hrunning
    · cases h; exact .advance (hpoint ▸ .pass hrunning) nofun
    · cases h; exact .advance (hpoint ▸ .reject) nofun
  | _ => simp only [hpoint] at h; cases h

theorem change_of_stamp (h : s.stamp call = some s') :
    Change maxPendingDispatch s (.stamp call) s' := by
  unfold State.stamp at h
  cases hpoint : s.point call with
  | checked =>
    simp only [hpoint] at h
    cases h; exact .advance (hpoint ▸ .stamp) nofun
  | _ => simp only [hpoint] at h; cases h

theorem change_of_enqueue (h : s.enqueue maxPendingDispatch call = some s') :
    Change maxPendingDispatch s (.enqueue call) s' := by
  unfold State.enqueue at h
  cases hpoint : s.point call with
  | dispatching =>
    simp only [hpoint] at h
    split_ifs at h with hadmits
    · cases h; exact .enqueue hpoint hadmits
    · cases h; exact .drop hpoint (Bool.eq_false_iff.mpr hadmits)
  | _ => simp only [hpoint] at h; cases h

theorem change_of_leave (h : s.leave call = some s') :
    Change maxPendingDispatch s (.leave call) s' := by
  unfold State.leave at h
  cases hpoint : s.point call with
  | running =>
    simp only [hpoint] at h
    cases h; exact .advance (hpoint ▸ .leave) nofun
  | _ => simp only [hpoint] at h; cases h

theorem change_of_goOn {closer : Nat} (h : s.goOn closer = some s') :
    Change maxPendingDispatch s (.goOn closer) s' := by
  unfold State.goOn at h
  cases hclosing : s.closing closer with
      simp only [hclosing] at h
  | waiting =>
    split_ifs at h
    cases h; exact .await (by rw [hclosing]; exact nofun)
  | discarding =>
    cases h; exact .discard hclosing
  | joining =>
    split at h
    · cases h; exact .join (by rw [hclosing]; exact nofun)
    · cases h
  | idle | done => cases h

theorem step_change {move : Move} (h : s.step maxPendingDispatch move = some s') :
    Change maxPendingDispatch s move s' := by
  cases move with
  | tick => exact Option.some.inj h ▸ .tick
  | begin => exact change_of_begin h
  | check => exact change_of_check h
  | stamp => exact change_of_stamp h
  | enqueue => exact change_of_enqueue h
  | leave => exact change_of_leave h
  | take =>
    simp only [State.step, State.take] at h
    split at h
    · rename_i work rest hfree hqueue
      split_ifs at h with hdue
      cases h; exact .take hfree hqueue hdue
    · cases h
  | start =>
    simp only [State.step, State.start] at h
    split at h
    · rename_i call htaken
      cases h; exact .start htaken
    · cases h
  | finish =>
    simp only [State.step, State.finish] at h
    split at h
    · rename_i call hbusy
      cases h; exact .finish hbusy
    · cases h
  | exit =>
    simp only [State.step, State.exit] at h
    split at h
    · rename_i hfree hqueue
      split_ifs at h with hstopping
      cases h; exact .exit hfree hqueue hstopping
    · cases h
  | close =>
    simp only [State.step, State.close] at h
    split at h
    · split_ifs at h with hjoined
      · cases h; exact .shut (by simpa using (Bool.and_eq_true_iff.mp hjoined).1)
      · cases h; exact .close
    · cases h
  | goOn => exact change_of_goOn h

end Changes

/-! ## 3. Where the tasks are -/

namespace Point

/-- How often the task of a call at this point should be there. -/
def expected (lost : Bool) : Point → Nat
  | .running _ => 1
  | .done submission result =>
    if submission.inline then 1
    else match result with
      | .ok _ => if lost then 0 else 1
      | .error _ => 0
  | _ => 0

/-- A call at this point runs its task itself, or leaves it to the worker. -/
def Fits : Point → Prop
  | .running submission => submission.inline = true
  | .checking submission | .checked submission | .dispatching submission _ =>
    submission.inline = false
  | _ => True

def isDone : Point → Bool
  | .done _ _ => true
  | _ => false

end Point

section Tracking

variable {maxPendingDispatch : Nat} {s s' : State} {call : Call}

structure Tracked (s : State) : Prop where
  count : ∀ call, s.ledger.count call = (s.point call).expected (decide (call ∈ s.dropped))
  fits : ∀ call, (s.point call).Fits
  /-- A dropped task belongs to a call that returned OK without running it. -/
  dropped : ∀ call ∈ s.dropped, ∃ submission,
    s.point call = .done submission (.ok ()) ∧ submission.inline = false

theorem tracked_start : Tracked {} where
  count _ := rfl
  fits _ := trivial
  dropped _ h := nomatch h

theorem Advance.expected_eq {point next : Point} (h : Advance s point next) (hfits : point.Fits) :
    next.expected false = point.expected false ∧ next.Fits ∧ point.isDone = false := by
  cases h with
  | refuse empty => exact ⟨by simp [Point.expected, Submission.inline, empty, emptyTask], trivial, rfl⟩
  | begin queued => exact ⟨rfl, queued, rfl⟩
  | reject =>
    have hqueued : _ = false := hfits
    exact ⟨by simp [Point.expected, hqueued], trivial, rfl⟩
  | pass | stamp => exact ⟨rfl, hfits, rfl⟩
  | leave =>
    have hinline : _ = true := hfits
    exact ⟨by simp [Point.expected, hinline], trivial, rfl⟩

theorem Tracked.not_dropped (h : Tracked s) (hpoint : (s.point call).isDone = false) :
    call ∉ s.dropped := by
  intro hdropped
  obtain ⟨submission, hdone, -⟩ := h.dropped call hdropped
  rw [hdone] at hpoint; cases hpoint

theorem Tracked.of_carried (h : Tracked s) (hpoint : s'.point = s.point)
    (hdropped : s'.dropped = s.dropped) (hledger : s.ledger.Carried s'.ledger) : Tracked s' where
  count call := by rw [hledger call, hpoint, hdropped, h.count]
  fits call := by rw [hpoint]; exact h.fits call
  dropped := by rw [hdropped, hpoint]; exact h.dropped

theorem Tracked.of_update (h : Tracked s) {next : Point} (arrives : Nat)
    (hpoint : s'.point = update s.point call next)
    (hdropped : s'.dropped = s.dropped) (hnot : (s.point call).isDone = false)
    (hfits : next.Fits) (hnext : next.expected false = (s.point call).expected false + arrives)
    (hledger : ∀ other, s'.ledger.count other =
      s.ledger.count other + if other = call then arrives else 0) : Tracked s' where
  count other := by
    rw [hledger, hpoint, hdropped, h.count]
    by_cases hother : other = call
    · subst hother
      have hlost : decide (other ∈ s.dropped) = false := decide_eq_false (h.not_dropped hnot)
      rw [update_self, hlost, hnext, if_pos rfl]
    · rw [update_of_ne hother, if_neg hother, Nat.add_zero]
  fits := hpoint ▸ (forall_update_iff s.point fun _ => Point.Fits).mpr
    ⟨hfits, fun other _ => h.fits other⟩
  dropped other hother := by
    rw [hdropped] at hother
    have hne : other ≠ call := by rintro rfl; exact h.not_dropped hnot hother
    rw [hpoint, update_of_ne hne]; exact h.dropped other hother

theorem Tracked.drop (h : Tracked s) {submission : Submission} {due : Nat}
    (hpoint : s.point call = .dispatching submission due) :
    Tracked { s.setPoint call (.done submission (.ok ())) with dropped := s.dropped ++ [call] } where
  count other := by
    change s.ledger.count other =
      (update s.point call _ other).expected (decide (other ∈ s.dropped ++ [call]))
    have hqueued : submission.inline = false := by
      have hfits := h.fits call; rwa [hpoint] at hfits
    rw [h.count]
    by_cases hother : other = call
    · subst hother
      rw [update_self, hpoint]; simp [Point.expected, hqueued]
    · rw [update_of_ne hother]; simp [hother]
  fits := (forall_update_iff s.point fun _ => Point.Fits).mpr
    ⟨trivial, fun other _ => h.fits other⟩
  dropped other hother := by
    change ∃ submission', update s.point call _ other = _ ∧ _
    by_cases hsame : other = call
    · subst hsame
      have hfits := h.fits other
      rw [hpoint] at hfits; exact ⟨submission, update_self .., hfits⟩
    · rw [update_of_ne hsame]
      have hbefore : other ∈ s.dropped := by simpa [hsame] using hother
      exact h.dropped other hbefore

theorem ledger_take {work : Work} {rest : List Work} (hfree : s.hand = .free)
    (hqueue : s.queue = work :: rest) :
    s.ledger.Carried ({ s with hand := .taken work.call, queue := rest } : State).ledger := by
  have hqueued : s.ledger.queued = work.call :: rest.map Work.call := by
    rw [State.ledger, hqueue]; rfl
  have hheld : s.ledger.held = [] := by simp only [State.ledger, hfree]
  have hcarried := Ledger.carried_take hqueued
  rw [hheld] at hcarried; exact hcarried

theorem ledger_start (htaken : s.hand = .taken call) :
    s.ledger.Carried
      ({ s with hand := .busy call, started := s.started ++ [call] } : State).ledger := by
  have hheld : s.ledger.held.Perm (call :: []) := by simp only [State.ledger, htaken]; exact .refl _
  exact Ledger.carried_start hheld

theorem Tracked.step {move : Move} (h : Tracked s)
    (hstep : s.step maxPendingDispatch move = some s') : Tracked s' := by
  cases step_change hstep with
  | tick | shut | close | await | join => exact h.of_carried rfl rfl fun _ => rfl
  | @advance _ call point advance other =>
    obtain ⟨hexpected, hfits, hnot⟩ := advance.expected_eq (h.fits call)
    refine h.of_update 0 rfl rfl hnot hfits hexpected fun other => ?_
    change s.ledger.count other = _; simp
  | @inline call submission idle inline =>
    have hentered : s.ledger.Entered call
        { s.ledger with started := s.ledger.started ++ [call] } := Ledger.entered_start
    refine h.of_update 1 rfl rfl (by rw [idle]; rfl) inline ?_ hentered
    rw [idle]; rfl
  | @enqueue call submission due point =>
    have hqueued : submission.inline = false := by
      have hfits := h.fits call; rwa [point] at hfits
    let queue := s.queue.orderedInsert Work.before ⟨due, s.nextSequence, call⟩
    have hentered : s.ledger.Entered call { s.ledger with queued := queue.map Work.call } :=
      Ledger.entered_queue ((List.perm_orderedInsert _ _ _).map Work.call)
    refine h.of_update 1 rfl rfl (by rw [point]; rfl) trivial ?_ hentered
    rw [point]; simp [Point.expected, hqueued]
  | drop point => exact h.drop point
  | take free queue => exact h.of_carried rfl rfl (ledger_take free queue)
  | start taken => exact h.of_carried rfl rfl (ledger_start taken)
  | finish busy =>
    refine h.of_carried rfl rfl fun call => ?_
    simp only [State.ledger, busy]
  | exit free =>
    refine h.of_carried rfl rfl fun call => ?_
    simp only [State.ledger, free]
  | discard => exact h.of_carried rfl rfl Ledger.carried_discard

end Tracking

/-! ## 4. The worker goes on -/

section Draining

variable {maxPendingDispatch : Nat} {s s' : State}

/-- Nothing is put into the queue once the thread is stopped. -/
structure Steady (s : State) : Prop where
  stopped : s.stopping = true → s.running = false ∧ s.queue = []
  exited : s.hand = .exited → s.stopping = true
  closing : ∀ closer, s.closing closer ≠ .idle → s.running = false

theorem steady_start : Steady {} where
  stopped h := nomatch h
  exited h := nomatch h
  closing _ h := absurd rfl h

theorem Steady.setClosing (h : Steady s) {closer : Nat} {closing : Closing}
    (hrunning : s.running = false) : Steady (s.setClosing closer closing) :=
  ⟨h.stopped, h.exited, fun _ _ => hrunning⟩

theorem Steady.step {move : Move} (h : Steady s)
    (hstep : s.step maxPendingDispatch move = some s') : Steady s' := by
  cases step_change hstep with
  | tick | advance | inline | drop => exact { h with }
  | enqueue point admits =>
    have hrunning : s.running = true := by
      simp only [State.admits, State.isRunning, Bool.and_eq_true] at admits
      exact admits.1.1
    refine ⟨fun hstopping => ?_, h.exited, h.closing⟩
    rw [(h.stopped hstopping).1] at hrunning; cases hrunning
  | take free queue =>
    refine ⟨fun hstopping => ?_, nofun, h.closing⟩
    rw [(h.stopped hstopping).2] at queue; cases queue
  | start | finish => exact ⟨h.stopped, nofun, h.closing⟩
  | exit free queue stopping => exact ⟨h.stopped, fun _ => stopping, h.closing⟩
  | shut joined => exact h.setClosing joined
  | close => exact ⟨fun hstopping => ⟨rfl, (h.stopped hstopping).2⟩, h.exited, fun _ _ => rfl⟩
  | await closing => exact h.setClosing (h.closing _ closing)
  | discard closing =>
    have hrunning := h.closing _ (by rw [closing]; exact nofun)
    exact ⟨fun _ => ⟨hrunning, rfl⟩, fun _ => rfl, fun _ _ => hrunning⟩
  | join closing =>
    have hrunning := h.closing _ closing
    exact ⟨h.stopped, h.exited, fun _ _ => hrunning⟩

def Move.isWorker : Move → Bool
  | .tick _ | .take | .start | .finish => true
  | _ => false

structure Frame (s s' : State) : Prop where
  point : s'.point = s.point
  discarded : s'.discarded = s.discarded
  dropped : s'.dropped = s.dropped

def State.work (s : State) : Nat :=
  3 * s.queue.length + match s.hand with
    | .taken _ => 2
    | .busy _ => 1
    | _ => 0

theorem Frame.trans {s'' : State} (h : Frame s s') (h' : Frame s' s'') : Frame s s'' :=
  ⟨h'.point.trans h.point, h'.discarded.trans h.discarded, h'.dropped.trans h.dropped⟩

theorem exists_round (maxPendingDispatch : Nat) (h : Steady s) (hwork : s.work ≠ 0) :
    ∃ moves s', (∀ move ∈ moves, Move.isWorker move = true) ∧
      Interleaving.run (State.step maxPendingDispatch) moves s = some s' ∧
      s'.work < s.work ∧ Frame s s' := by
  unfold State.work at hwork ⊢
  cases hhand : s.hand with
  | free =>
    cases hqueue : s.queue with
    | nil => simp [hqueue, hhand] at hwork
    | cons work rest =>
      -- time passes until the first task is due
      refine ⟨[.tick work.due, .take],
        { s with now := s.now + work.due, hand := .taken work.call, queue := rest }, ?_, ?_,
        by simp [Nat.mul_add], rfl, rfl, rfl⟩
      · intro move hmove
        rcases List.mem_pair.mp hmove with rfl | rfl <;> rfl
      · simp [Interleaving.run, State.step, State.take, hhand, hqueue]
  | taken call =>
    refine ⟨[.start], { s with hand := .busy call, started := s.started ++ [call] }, by decide, ?_,
      by simp, rfl, rfl, rfl⟩
    simp [Interleaving.run, State.step, State.start, hhand]
  | busy =>
    refine ⟨[.finish], { s with hand := .free, outstanding := s.outstanding - 1 }, by decide, ?_,
      by simp, rfl, rfl, rfl⟩
    simp [Interleaving.run, State.step, State.finish, hhand]
  | exited =>
    have hqueue := (h.stopped (h.exited hhand)).2
    simp [hqueue, hhand] at hwork

theorem ledger_of_work_eq_zero (h : s.work = 0) :
    s.ledger.queued = [] ∧ s.ledger.held = [] := by
  obtain ⟨hqueue, hhand⟩ := Nat.add_eq_zero_iff.mp h
  have hempty : s.queue = [] := List.length_eq_zero_iff.mp (by omega)
  constructor
  · simp only [State.ledger, hempty, List.map_nil]
  · simp only [State.ledger]
    split
    · rename_i call htaken
      rw [htaken] at hhand; cases hhand
    · rfl

theorem exists_drain (maxPendingDispatch : Nat) (h : Steady s) :
    ∃ moves s', (∀ move ∈ moves, Move.isWorker move = true) ∧
      Interleaving.run (State.step maxPendingDispatch) moves s = some s' ∧
      s'.ledger.queued = [] ∧ s'.ledger.held = [] ∧ Frame s s' := by
  have hround : ∀ s, Steady s → s.work ≠ 0 → ∃ moves s',
      (∀ move ∈ moves, Move.isWorker move = true) ∧
      Interleaving.run (State.step maxPendingDispatch) moves s = some s' ∧ s'.work < s.work ∧
      Frame s s' ∧ Steady s' := by
    intro s hs hwork
    obtain ⟨moves, s', hworker, hrun, hless, hframe⟩ := exists_round maxPendingDispatch hs hwork
    exact ⟨moves, s', hworker, hrun, hless, hframe,
      invariant (P := Steady) (fun hs hstep => hs.step hstep) hs hrun⟩
  obtain ⟨moves, s', hworker, hrun, hzero, hframe⟩ :=
    exists_run_of_measure (R := Frame) State.work (fun _ => ⟨rfl, rfl, rfl⟩)
      Frame.trans hround h
  obtain ⟨hqueued, hheld⟩ := ledger_of_work_eq_zero hzero
  exact ⟨moves, s', hworker, hrun, hqueued, hheld, hframe⟩

end Draining

/-! ## 5. What the callers get -/

section Contract

variable {maxPendingDispatch : Nat} {s s' : State}

/-- The callers get what they rely on, and the worker alone brings every task whose call returned OK
    to its start, unless `close` threw it away. -/
structure Honours (maxPendingDispatch : Nat) (s : State) : Prop where
  accounts : Accounts s.ledger s.answer
  starts : ∃ moves s', (∀ move ∈ moves, Move.isWorker move = true) ∧
    Interleaving.run (State.step maxPendingDispatch) moves s = some s' ∧
    s'.discarded = s.discarded ∧ ∀ call submission, s.answer call = some (submission, .ok ()) →
      s'.started.count call + s.discarded.count call = 1

theorem dropped_of_step {move : Move} (hstep : s.step maxPendingDispatch move = some s') :
    s.dropped.length ≤ s'.dropped.length ∧
      (Admits maxPendingDispatch move s ↔ s'.dropped.length = s.dropped.length) := by
  cases step_change hstep with
  | @advance move call point advance other =>
    refine ⟨Nat.le_refl _, ?_⟩
    cases move with
    | enqueue call' => exact absurd rfl (other call')
    | _ => exact ⟨fun _ => rfl, fun _ => trivial⟩
  | enqueue point admits => exact ⟨Nat.le_refl _, fun _ => rfl, fun _ => admits⟩
  | drop point full => simp [Admits, full]
  | _ => exact ⟨Nat.le_refl _, fun _ => rfl, fun _ => trivial⟩

variable {moves : List Move}

theorem obeys_iff_dropped
    (hrun : Interleaving.run (State.step maxPendingDispatch) moves s = some s') :
    s.dropped.length ≤ s'.dropped.length ∧
      (Obeys (State.step maxPendingDispatch) (Admits maxPendingDispatch) moves s ↔
        s'.dropped.length = s.dropped.length) := by
  induction moves generalizing s with
  | nil =>
    cases hrun; exact ⟨Nat.le_refl _, fun _ => rfl, fun _ => trivial⟩
  | cons move moves ih =>
    obtain ⟨middle, hmove, hrest⟩ := run_cons_eq_some.mp hrun
    obtain ⟨hle, hfirst⟩ := dropped_of_step hmove
    obtain ⟨hle', hmore⟩ := ih hrest
    rw [obeys_cons hmove, hfirst, hmore]; omega

theorem admitted_iff_dropped (hrun : run maxPendingDispatch moves = some s) :
    Admitted maxPendingDispatch moves ↔ s.dropped = [] := by
  rw [Admitted, (obeys_iff_dropped hrun).2]; exact List.length_eq_zero_iff

theorem Tracked.accounts_iff (h : Tracked s) : Accounts s.ledger s.answer ↔ s.dropped = [] := by
  constructor
  · intro haccounts
    refine List.eq_nil_iff_forall_not_mem.mpr fun call hdropped => ?_
    obtain ⟨submission, hdone, hqueued⟩ := h.dropped call hdropped
    have hone := haccounts.once call submission (by rw [State.answer, hdone])
    rw [h.count, hdone] at hone
    simp [Point.expected, hqueued, hdropped] at hone
  · intro hnone
    have hpoint : ∀ {call submission result}, s.answer call = some (submission, result) →
        s.point call = .done submission result := by
      intro call submission result hanswer
      unfold State.answer at hanswer
      split at hanswer
      · rename_i submission' result' hdone
        cases hanswer; exact hdone
      · cases hanswer
    constructor
    · intro call submission hanswer
      rw [h.count, hpoint hanswer]; simp [Point.expected, hnone]
    · intro call submission status hanswer hqueued
      rw [h.count, hpoint hanswer]; simp [Point.expected, hqueued]

theorem tracked_of_run (hrun : run maxPendingDispatch moves = some s) : Tracked s ∧ Steady s :=
  invariant (P := fun s => Tracked s ∧ Steady s)
    (fun hs hstep => ⟨hs.1.step hstep, hs.2.step hstep⟩) ⟨tracked_start, steady_start⟩ hrun

theorem honours_iff (hrun : run maxPendingDispatch moves = some s) :
    Honours maxPendingDispatch s ↔ Admitted maxPendingDispatch moves := by
  obtain ⟨htracked, hsteady⟩ := tracked_of_run hrun
  rw [admitted_iff_dropped hrun]
  constructor
  · intro h; exact htracked.accounts_iff.mp h.accounts
  · intro hnone
    refine ⟨htracked.accounts_iff.mpr hnone, ?_⟩
    obtain ⟨moves', s', hworker, hrun', hqueued, hheld, hframe⟩ :=
      exists_drain maxPendingDispatch hsteady
    refine ⟨moves', s', hworker, hrun', hframe.discarded, fun call submission hanswer => ?_⟩
    have htracked' : Tracked s' :=
      invariant (P := Tracked) (fun hs hstep => hs.step hstep) htracked hrun'
    have haccounts : Accounts s'.ledger s'.answer :=
      htracked'.accounts_iff.mpr (hframe.dropped.trans hnone)
    have hanswer' : s'.answer call = some (submission, .ok ()) := by
      rw [State.answer, hframe.point]; exact hanswer
    have hstarted := haccounts.started hqueued hheld hanswer'
    rwa [show s'.ledger.discarded = s.discarded from hframe.discarded] at hstarted

end Contract

end SerialExecutor

end LangGraph
