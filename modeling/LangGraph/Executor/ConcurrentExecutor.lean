import LangGraph.Executor.Types
import LangGraph.Lib.Interleaving

/-!
# The concurrent executor

A pool of worker threads with one queue.  `ConcurrentExecutor` looks at its own flag and at the pool
before it submits, but what it answers is the answer of the pool, which decides with the mutex held.
The workers empty the queue before they exit, so a shutdown throws nothing away.

The workers are told apart by the calls they work for: `taken` and `busy` are the tasks in their
hands, and the others wait or have exited.
-/

namespace LangGraph

namespace ConcurrentExecutor

open Executor Function List

/-! ## 1. The executor -/

def resolveThreadCount (requested hardwareConcurrency : Nat) : Nat :=
  if requested ≠ 0 then requested
  else max 1 (if hardwareConcurrency = 0 then 1 else hardwareConcurrency)

inductive Point where
  | idle
  /-- At the flag of the executor. -/
  | checking (submission : Submission)
  /-- At `isRunning` of the pool. -/
  | asking (submission : Submission)
  | submitting (submission : Submission)
  /-- The pool has refused the task. -/
  | refused (submission : Submission) (status : Status)
  /-- The call runs its task itself. -/
  | running (submission : Submission)
  | done (submission : Submission) (result : Result Unit)

inductive Closing where
  | idle
  | stopping (forever : Bool)
  | waiting (forever : Bool)
  | joining
  | done
deriving DecidableEq

structure State where
  closed : Bool := false
  running : Bool := true
  queue : List Call := []
  outstanding : Nat := 0
  taken : List Call := []
  busy : List Call := []
  exited : Nat := 0
  point : Call → Point := fun _ => .idle
  closing : Nat → Closing := fun _ => .idle
  started : List Call := []

inductive Move where
  | begin (call : Call) (submission : Submission)
  | goOn (call : Call)
  | take
  | start (call : Call)
  | finish (call : Call)
  | exit
  /-- `close` of the executor. -/
  | close (closer : Nat)
  /-- `shutdown` of the pool, by somebody else who has it. -/
  | shutdown (closer : Nat) (forever : Bool)
  | closeOn (closer : Nat)
deriving DecidableEq

def closedStatus : Result Unit := .error (.unavailable (lit "executor is closed"))

namespace State

def setPoint (call : Call) (point : Point) (s : State) : State :=
  { s with point := Function.update s.point call point }

def setClosing (closer : Nat) (closing : Closing) (s : State) : State :=
  { s with closing := Function.update s.closing closer closing }

def begin (call : Call) (submission : Submission) (s : State) : Option State :=
  match s.point call with
  | .idle =>
    if submission.onWorker && s.busy.isEmpty then none
    else if submission.empty then some (s.setPoint call (.done submission emptyTask))
    else if submission.inline then
      some { s.setPoint call (.running submission) with started := s.started ++ [call] }
    else some (s.setPoint call (.checking submission))
  | _ => none

def submit (maxPendingSubmit : Nat) (call : Call) (submission : Submission) (s : State) : State :=
  if !s.running then
    s.setPoint call (.refused submission (.failedPrecondition (lit "thread pool is stopped")))
  else if maxPendingSubmit != 0 && decide (maxPendingSubmit ≤ s.outstanding) then
    s.setPoint call (.refused submission (.resourceExhausted (lit "thread pool queue is full")))
  else
    { s.setPoint call (.done submission (.ok ())) with
      queue := s.queue ++ [call]
      outstanding := s.outstanding + 1 }

def goOn (maxPendingSubmit : Nat) (call : Call) (s : State) : Option State :=
  match s.point call with
  | .checking submission =>
    if s.closed then some (s.setPoint call (.done submission closedStatus))
    else some (s.setPoint call (.asking submission))
  | .asking submission =>
    if !s.running then some (s.setPoint call (.done submission closedStatus))
    else match submission.kind with
      | .postDelayed delay =>
        if 0 < delay then
          some (s.setPoint call (.done submission (.error (.unimplemented
            (lit "concurrent executor does not support delayed execution")))))
        -- without a delay it is `post`, which asks again
        else some (s.setPoint call (.checking { submission with kind := .post }))
      | _ => some (s.setPoint call (.submitting submission))
  | .submitting submission => some (s.submit maxPendingSubmit call submission)
  | .refused submission status =>
    if !s.running then some { s.setPoint call (.done submission closedStatus) with closed := true }
    else some (s.setPoint call (.done submission (.error status)))
  | .running submission => some (s.setPoint call (.done submission submission.runTask))
  | _ => none

/-- One of the workers that neither works nor has exited goes to the queue. -/
def take (threadCount : Nat) (s : State) : Option State :=
  match s.queue with
  | call :: rest =>
    if s.taken.length + s.busy.length + s.exited < threadCount then
      some { s with taken := call :: s.taken, queue := rest }
    else none
  | [] => none

def start (call : Call) (s : State) : Option State :=
  if call ∈ s.taken then
    some { s with
      taken := s.taken.erase call, busy := call :: s.busy, started := s.started ++ [call] }
  else none

def finish (call : Call) (s : State) : Option State :=
  if call ∈ s.busy then
    some { s with busy := s.busy.erase call, outstanding := s.outstanding - 1 }
  else none

def exit (threadCount : Nat) (s : State) : Option State :=
  if s.running = false ∧ s.queue = [] ∧ s.taken.length + s.busy.length + s.exited < threadCount then
    some { s with exited := s.exited + 1 }
  else none

def close (closer : Nat) (s : State) : Option State :=
  match s.closing closer with
  | .idle =>
    if s.closed then some (s.setClosing closer .done)
    else some { s.setClosing closer (.stopping false) with closed := true }
  | _ => none

def closeOn (threadCount : Nat) (closer : Nat) (s : State) : Option State :=
  match s.closing closer with
  | .stopping forever => some { s.setClosing closer (.waiting forever) with running := false }
  | .waiting forever =>
    -- a timeout may pass at any time
    if forever && s.outstanding != 0 then none else some (s.setClosing closer .joining)
  | .joining => if s.exited = threadCount then some (s.setClosing closer .done) else none
  | _ => none

def step (threadCount maxPendingSubmit : Nat) (move : Move) (s : State) : Option State :=
  match move with
  | .begin call submission => s.begin call submission
  | .goOn call => s.goOn maxPendingSubmit call
  | .take => s.take threadCount
  | .start call => s.start call
  | .finish call => s.finish call
  | .exit => s.exit threadCount
  | .close closer => s.close closer
  | .shutdown closer forever =>
    if s.closing closer = .idle then some (s.setClosing closer (.stopping forever)) else none
  | .closeOn closer => s.closeOn threadCount closer

def ledger (s : State) : Ledger Call where
  queued := s.queue
  held := s.taken
  started := s.started

def answer (s : State) (call : Call) : Option (Submission × Result Unit) :=
  match s.point call with
  | .done submission result => some (submission, result)
  | _ => none

end State

def run (threadCount maxPendingSubmit : Nat) (moves : List Move) : Option State :=
  Interleaving.run (State.step threadCount maxPendingSubmit) moves {}

/-! ## 2. Where the tasks are -/

namespace Point

/-- How often the task of a call at this point should be there. -/
def expected : Point → Nat
  | .running _ => 1
  | .done submission result =>
    if submission.inline then 1
    else match result with
      | .ok _ => 1
      | .error _ => 0
  | _ => 0

/-- A call at this point runs its task itself, or leaves it to the workers. -/
def Fits : Point → Prop
  | .running submission => submission.inline = true
  | .checking submission | .asking submission | .submitting submission
  | .refused submission _ => submission.inline = false
  | _ => True

end Point

structure Tracked (s : State) : Prop where
  count : ∀ call, s.ledger.count call = (s.point call).expected
  fits : ∀ call, (s.point call).Fits
  /-- A worker exits when the pool is stopped and the queue is empty; nothing comes in any more. -/
  exited : s.exited ≠ 0 → s.running = false ∧ s.queue = []

theorem tracked_start : Tracked {} where
  count _ := rfl
  fits _ := trivial
  exited h := absurd rfl h

section Steps

variable {threadCount maxPendingSubmit : Nat} {s s' : State} {call : Call}

theorem Tracked.of_carried (h : Tracked s) (hpoint : s'.point = s.point)
    (hledger : s.ledger.Carried s'.ledger)
    (hexited : s'.exited ≠ 0 → s'.running = false ∧ s'.queue = []) : Tracked s' where
  count call := by rw [hledger call, hpoint, h.count]
  fits call := by rw [hpoint]; exact h.fits call
  exited := hexited

theorem Tracked.of_update (h : Tracked s) {next : Point} (arrives : Nat)
    (hpoint : s'.point = update s.point call next) (hfits : next.Fits)
    (hnext : next.expected = (s.point call).expected + arrives)
    (hledger : ∀ other, s'.ledger.count other =
      s.ledger.count other + if other = call then arrives else 0)
    (hexited : s'.exited ≠ 0 → s'.running = false ∧ s'.queue = []) : Tracked s' where
  count other := by
    rw [hledger, hpoint, h.count]
    by_cases hother : other = call
    · subst hother
      rw [update_self, hnext, if_pos rfl]
    · rw [update_of_ne hother, if_neg hother, Nat.add_zero]
  fits := hpoint ▸ (forall_update_iff s.point fun _ => Point.Fits).mpr
    ⟨hfits, fun other _ => h.fits other⟩
  exited := hexited

theorem Tracked.setPoint (h : Tracked s) {next : Point} (hfits : next.Fits)
    (hnext : next.expected = (s.point call).expected) : Tracked (s.setPoint call next) := by
  refine h.of_update 0 rfl hfits hnext (fun other => ?_) h.exited
  change s.ledger.count other = _; simp

variable {submission : Submission}

theorem expected_error (hqueued : submission.inline = false) (status : Status) :
    (Point.done submission (.error status)).expected = 0 := by
  simp [Point.expected, hqueued]

theorem Tracked.begin (h : Tracked s) (hstep : s.begin call submission = some s') : Tracked s' := by
  unfold State.begin at hstep
  cases hpoint : s.point call with
  | idle =>
    have hexpected : (s.point call).expected = 0 := by rw [hpoint]; rfl
    simp only [hpoint] at hstep
    split_ifs at hstep with hworker hempty hinline
    · cases hstep
      refine h.setPoint trivial ?_
      rw [hexpected]; exact expected_error (by simp [Submission.inline, hempty]) _
    · cases hstep
      have hentered : s.ledger.Entered call
          { s.ledger with started := s.ledger.started ++ [call] } := Ledger.entered_start
      refine h.of_update 1 rfl hinline ?_ hentered h.exited
      rw [hexpected]; rfl
    · cases hstep
      refine h.setPoint (Bool.eq_false_iff.mpr hinline) ?_
      rw [hexpected]; rfl
  | _ => simp only [hpoint] at hstep; cases hstep

theorem Tracked.submit (h : Tracked s) (hpoint : s.point call = .submitting submission) :
    Tracked (s.submit maxPendingSubmit call submission) := by
  have hqueued : submission.inline = false := by
    have hfits := h.fits call; rwa [hpoint] at hfits
  unfold State.submit
  split_ifs with hstopped hfull
  · exact h.setPoint hqueued (by rw [hpoint]; rfl)
  · exact h.setPoint hqueued (by rw [hpoint]; rfl)
  · have hentered : s.ledger.Entered call { s.ledger with queued := s.ledger.queued ++ [call] } :=
      Ledger.entered_queue (perm_append_singleton ..)
    refine h.of_update 1 rfl trivial ?_ hentered fun hexited => ?_
    · rw [hpoint]; simp [Point.expected, hqueued]
    · -- the pool runs, so no worker has exited
      rw [(h.exited hexited).1] at hstopped; exact absurd rfl hstopped

theorem Tracked.goOn (h : Tracked s) (hstep : s.goOn maxPendingSubmit call = some s') :
    Tracked s' := by
  have hfits := h.fits call
  unfold State.goOn at hstep
  cases hpoint : s.point call with
    simp only [hpoint] at hstep hfits
  | checking =>
    split_ifs at hstep
    · cases hstep
      exact h.setPoint trivial (by rw [hpoint]; exact expected_error hfits _)
    · cases hstep; exact h.setPoint hfits (by rw [hpoint]; rfl)
  | asking =>
    split_ifs at hstep
    · cases hstep
      exact h.setPoint trivial (by rw [hpoint]; exact expected_error hfits _)
    · split at hstep
      · split_ifs at hstep
        · cases hstep
          exact h.setPoint trivial (by rw [hpoint]; exact expected_error hfits _)
        · cases hstep; exact h.setPoint rfl (by rw [hpoint]; rfl)
      · cases hstep; exact h.setPoint hfits (by rw [hpoint]; rfl)
  | submitting =>
    cases hstep; exact h.submit hpoint
  | refused submission =>
    split_ifs at hstep
    · cases hstep
      have hdone : Tracked (s.setPoint call (.done submission closedStatus)) :=
        h.setPoint trivial (by rw [hpoint]; exact expected_error hfits _)
      exact { hdone with }
    · cases hstep
      exact h.setPoint trivial (by rw [hpoint]; exact expected_error hfits _)
  | running submission =>
    have hinline : submission.inline = true := hfits
    cases hstep
    exact h.setPoint trivial (by rw [hpoint]; simp [Point.expected, hinline])
  | idle | done => cases hstep

theorem Tracked.step {move : Move} (h : Tracked s)
    (hstep : s.step threadCount maxPendingSubmit move = some s') : Tracked s' := by
  cases move with
  | begin => exact h.begin hstep
  | goOn => exact h.goOn hstep
  | take =>
    simp only [State.step, State.take] at hstep
    split at hstep
    · rename_i call rest hqueue
      split_ifs at hstep
      cases hstep
      refine h.of_carried rfl (Ledger.carried_take hqueue) fun hexited => ?_
      -- workers leave only an empty queue behind
      rw [(h.exited hexited).2] at hqueue; cases hqueue
    · cases hstep
  | start =>
    simp only [State.step, State.start] at hstep
    split_ifs at hstep with htaken
    cases hstep
    exact h.of_carried rfl (Ledger.carried_start (perm_cons_erase htaken)) h.exited
  | finish =>
    simp only [State.step, State.finish] at hstep
    split_ifs at hstep
    cases hstep; exact h.of_carried rfl (fun _ => rfl) h.exited
  | exit =>
    simp only [State.step, State.exit] at hstep
    split_ifs at hstep with hidle
    cases hstep; exact h.of_carried rfl (fun _ => rfl) fun _ => ⟨hidle.1, hidle.2.1⟩
  | close =>
    simp only [State.step, State.close] at hstep
    split at hstep
    · split_ifs at hstep
      · cases hstep; exact h.of_carried rfl (fun _ => rfl) h.exited
      · cases hstep; exact h.of_carried rfl (fun _ => rfl) h.exited
    · cases hstep
  | shutdown =>
    simp only [State.step] at hstep
    split_ifs at hstep
    cases hstep; exact h.of_carried rfl (fun _ => rfl) h.exited
  | closeOn =>
    simp only [State.step, State.closeOn] at hstep
    split at hstep
    · cases hstep
      exact h.of_carried rfl (fun _ => rfl) fun hexited => ⟨rfl, (h.exited hexited).2⟩
    · split_ifs at hstep
      cases hstep; exact h.of_carried rfl (fun _ => rfl) h.exited
    · split_ifs at hstep
      cases hstep; exact h.of_carried rfl (fun _ => rfl) h.exited
    · cases hstep

end Steps

/-! ## 3. The workers go on -/

section Draining

variable {threadCount maxPendingSubmit : Nat} {s s' : State}

def Move.isWorker : Move → Bool
  | .take | .start _ | .finish _ => true
  | _ => false

def State.work (s : State) : Nat :=
  3 * s.queue.length + 2 * s.taken.length + s.busy.length

theorem exists_round (maxPendingSubmit : Nat) (h : Tracked s) (hcount : 0 < threadCount)
    (hwork : s.work ≠ 0) :
    ∃ moves s', (∀ move ∈ moves, Move.isWorker move = true) ∧
      Interleaving.run (State.step threadCount maxPendingSubmit) moves s = some s' ∧
      s'.work < s.work ∧ s'.point = s.point ∧ Tracked s' := by
  have hone : ∀ move s', Move.isWorker move = true →
      s.step threadCount maxPendingSubmit move = some s' → s'.work < s.work →
      s'.point = s.point → ∃ moves s', (∀ move ∈ moves, Move.isWorker move = true) ∧
        Interleaving.run (State.step threadCount maxPendingSubmit) moves s = some s' ∧
        s'.work < s.work ∧ s'.point = s.point ∧ Tracked s' := by
    intro move s' hworker hstep hless hpoint
    refine ⟨[move], s', ?_, ?_, hless, hpoint, h.step hstep⟩
    · intro move' hmove'
      rw [mem_singleton.mp hmove']; exact hworker
    · simp [Interleaving.run, hstep]
  cases htaken : s.taken with
  | cons call =>
    have hmem : call ∈ s.taken := by rw [htaken]; exact mem_cons_self ..
    refine hone (.start call) _ rfl (if_pos hmem) ?_ rfl
    simp only [State.work, htaken, length_cons, erase_cons_head]; omega
  | nil =>
    cases hbusy : s.busy with
    | cons call =>
      have hmem : call ∈ s.busy := by rw [hbusy]; exact mem_cons_self ..
      refine hone (.finish call) _ rfl (if_pos hmem) ?_ rfl
      simp only [State.work, hbusy, length_cons, erase_cons_head]; omega
    | nil =>
      cases hqueue : s.queue with
      | cons call rest =>
        have hexited : s.exited = 0 := by
          by_contra hexited
          rw [(h.exited hexited).2] at hqueue; cases hqueue
        refine hone .take { s with taken := call :: s.taken, queue := rest } rfl ?_ ?_ rfl
        · simp [State.step, State.take, hqueue, htaken, hbusy, hexited, hcount]
        · simp only [State.work, hqueue, htaken, length_cons]
          omega
      | nil => simp [State.work, htaken, hbusy, hqueue] at hwork

theorem exists_drain (maxPendingSubmit : Nat) (h : Tracked s) (hcount : 0 < threadCount) :
    ∃ moves s', (∀ move ∈ moves, Move.isWorker move = true) ∧
      Interleaving.run (State.step threadCount maxPendingSubmit) moves s = some s' ∧
      s'.ledger.queued = [] ∧ s'.ledger.held = [] ∧ s'.point = s.point := by
  have htrans : ∀ {s t u : State}, t.point = s.point → u.point = t.point → u.point = s.point :=
    fun h h' => h'.trans h
  obtain ⟨moves, s', hworker, hrun, hzero, hpoint⟩ :=
    Interleaving.exists_run_of_measure (R := fun s s' => s'.point = s.point) State.work
      (fun _ => rfl) htrans (fun s hs hwork => exists_round maxPendingSubmit hs hcount hwork) h
  simp only [State.work] at hzero
  refine ⟨moves, s', hworker, hrun, length_eq_zero_iff.mp ?_, length_eq_zero_iff.mp ?_,
    hpoint⟩
  · change s'.queue.length = 0; omega
  · change s'.taken.length = 0; omega

end Draining

/-! ## 4. What the callers get -/

theorem resolveThreadCount_pos (requested hardwareConcurrency : Nat) :
    0 < resolveThreadCount requested hardwareConcurrency := by
  unfold resolveThreadCount
  split_ifs with hrequested
  · exact Nat.pos_of_ne_zero hrequested
  · exact Nat.lt_of_lt_of_le Nat.one_pos (Nat.le_max_left ..)
  · exact Nat.lt_of_lt_of_le Nat.one_pos (Nat.le_max_left ..)

/-- The callers get what they rely on, and the workers alone bring every task whose call returned OK
    to its start. -/
structure Honours (threadCount maxPendingSubmit : Nat) (s : State) : Prop where
  accounts : Accounts s.ledger s.answer
  starts : ∃ moves s', (∀ move ∈ moves, Move.isWorker move = true) ∧
    Interleaving.run (State.step threadCount maxPendingSubmit) moves s = some s' ∧
    ∀ call submission, s.answer call = some (submission, .ok ()) → s'.started.count call = 1

theorem Tracked.accounts {s : State} (h : Tracked s) : Accounts s.ledger s.answer := by
  have hpoint : ∀ {call submission result}, s.answer call = some (submission, result) →
      s.point call = .done submission result := by
    intro call submission result hanswer
    unfold State.answer at hanswer
    split at hanswer
    · rename_i submission' result' hdone
      cases hanswer; exact hdone
    · cases hanswer
  constructor
  · intro call submission hanswer
    rw [h.count, hpoint hanswer]; simp [Point.expected]
  · intro call submission status hanswer hqueued
    rw [h.count, hpoint hanswer]; exact expected_error hqueued status

theorem honours_of_run {threadCount maxPendingSubmit : Nat} (hcount : 0 < threadCount)
    {moves : List Move} {s : State} (hrun : run threadCount maxPendingSubmit moves = some s) :
    Honours threadCount maxPendingSubmit s := by
  have htracked : Tracked s :=
    Interleaving.invariant (P := Tracked) (fun hs hstep => hs.step hstep) tracked_start hrun
  refine ⟨htracked.accounts, ?_⟩
  obtain ⟨moves', s', hworker, hrun', hqueued, hheld, hpoint⟩ :=
    exists_drain maxPendingSubmit htracked hcount
  refine ⟨moves', s', hworker, hrun', fun call submission hanswer => ?_⟩
  have htracked' : Tracked s' :=
    Interleaving.invariant (P := Tracked) (fun hs hstep => hs.step hstep) htracked hrun'
  have hanswer' : s'.answer call = some (submission, .ok ()) := by
    rw [State.answer, hpoint]; exact hanswer
  have hstarted := htracked'.accounts.started hqueued hheld hanswer'
  simpa [State.ledger] using hstarted

end ConcurrentExecutor

end LangGraph
