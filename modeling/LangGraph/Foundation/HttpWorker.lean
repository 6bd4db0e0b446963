import Mathlib

/-!
# The worker of the HTTP client

`sendAsync` puts a job into a queue under a mutex, one worker thread takes the jobs out of it, and
`close` sets a flag without the mutex.  A `Client` is what the threads share together with where
each of them is; a `Move` is the next thing one of them does.  The threads read the flag one load
at a time, so there is one load of it in a move.  What the authorization provider answers and when
a timed wait expires is not under the control of the client, so the worker's moves carry it.
-/

namespace LangGraph

open Function Option

namespace HttpClient

/-! ## 1. The threads -/

abbrev Job := Nat

inductive SenderPoint where
  | idle
  | locked
  | admitted
  | queued
  | refused
deriving DecidableEq

inductive WorkerPoint where
  | start
  /-- At `while (!stop_.load())`. -/
  | head
  /-- At the predicate of the first wait; `timed` if the wait has a deadline. -/
  | waiting (timed : Bool)
  | asleep (timed : Bool)
  /-- Behind the first wait. -/
  | woken
  | gate
  | refreshing
  | refreshed
  /-- In `awaitAuthorization`. -/
  | awaiting
  | awaitingAsleep
  | ready
  /-- At the condition of the inner loop. -/
  | dispatch
  | running (job : Job)
  | ran
  /-- At the condition of the loop in `drainStopped`. -/
  | draining
  | answering (job : Job)
  | drained
  /-- Out of the loop, with `workerDone_` not set yet. -/
  | left
  | done
deriving DecidableEq

inductive Thread where
  | worker
  | sender (job : Job)
deriving DecidableEq

/-- The threads and what they share; `answered` counts how often a callback was invoked. -/
structure Client where
  stop : Bool := false
  queue : List Job := []
  owner : Option Thread := none
  worker : WorkerPoint := .start
  senders : Job → SenderPoint := fun _ => .idle
  answered : Job → Nat := fun _ => 0

def started : Client := {}

inductive Move where
  /-- The worker goes on; `paused` is what the gate answers, `timer` whether there is a deadline
      or, in a timed wait, whether it has passed. -/
  | worker (paused timer : Bool)
  | lock (job : Job)
  | check (job : Job)
  | push (job : Job)
  | close
deriving DecidableEq

namespace Client

/-- The worker takes the mutex and goes on at `next`, if the mutex is free. -/
def relock (next : WorkerPoint) (c : Client) : Option Client :=
  if c.owner = none then some { c with owner := some .worker, worker := next } else none

def unlock (next : WorkerPoint) (c : Client) : Client := { c with owner := none, worker := next }

/-- The worker invokes the callback of a job and goes on at `next`. -/
def answer (job : Job) (next : WorkerPoint) (c : Client) : Client :=
  { c with answered := Function.update c.answered job (c.answered job + 1), worker := next }

def workerStep (paused timer : Bool) (c : Client) : Option Client :=
  match c.worker with
  | .start => c.relock .head
  | .head => some (if c.stop then c.unlock .left else { c with worker := .waiting timer })
  | .waiting timed =>
    some (if c.stop || !c.queue.isEmpty then { c with worker := .woken }
      else c.unlock (.asleep timed))
  -- a wait that is not over looks at its predicate again
  | .asleep timed => c.relock (if timed && timer then .woken else .waiting timed)
  | .woken => some { c with worker := if c.stop then .draining else .gate }
  | .gate => some (if paused then c.unlock .refreshing else { c with worker := .ready })
  | .refreshing => c.relock .refreshed
  | .refreshed => some { c with worker := if c.stop then .draining else .awaiting }
  | .awaiting =>
    some (if c.stop || !paused then { c with worker := .ready } else c.unlock .awaitingAsleep)
  | .awaitingAsleep => c.relock .awaiting
  | .ready => some { c with worker := if c.stop then .draining else .dispatch }
  | .dispatch =>
    -- before each job the flags are read again; a pause leaves the rest in the queue
    match c.queue with
    | [] => some { c with worker := .head }
    | job :: rest =>
      some (if c.stop || paused then { c with worker := .head }
        else { c.unlock (.running job) with queue := rest })
  | .running job => some (c.answer job .ran)
  | .ran => c.relock .dispatch
  | .draining =>
    match c.queue with
    | [] => some (c.unlock .left)
    | job :: rest => some { c.unlock (.answering job) with queue := rest }
  | .answering job => some (c.answer job .drained)
  | .drained => c.relock .draining
  -- `workerDone_` is set under the mutex
  | .left => if c.owner = none then some { c with worker := .done } else none
  | .done => none

def moveSender (job : Job) (next : SenderPoint) (c : Client) : Client :=
  { c with senders := Function.update c.senders job next }

def lockStep (job : Job) (c : Client) : Option Client :=
  if c.senders job = .idle ∧ c.owner = none then
    some { c.moveSender job .locked with owner := some (.sender job) }
  else none

def checkStep (job : Job) (c : Client) : Option Client :=
  if c.senders job = .locked then
    some (if c.stop then { c.moveSender job .refused with owner := none }
      else c.moveSender job .admitted)
  else none

/-- `maxPending` is `maxPendingRequests_`; zero means no limit. -/
def pushStep (maxPending : Nat) (job : Job) (c : Client) : Option Client :=
  if c.senders job = .admitted then
    some (if 0 < maxPending ∧ maxPending ≤ c.queue.length then
        { c.moveSender job .refused with owner := none }
      else { c.moveSender job .queued with owner := none, queue := c.queue ++ [job] })
  else none

def step (maxPending : Nat) (move : Move) (c : Client) : Option Client :=
  match move with
  | .worker paused timer => c.workerStep paused timer
  | .lock job => c.lockStep job
  | .check job => c.checkStep job
  | .push job => c.pushStep maxPending job
  | .close => some { c with stop := true }

def run (maxPending : Nat) : List Move → Client → Option Client
  | [], c => some c
  | move :: moves, c => (c.step maxPending move).bind (run maxPending moves)

end Client

/-! ## 2. No job is lost or doubled between the threads -/

def WorkerPoint.holdsMutex : WorkerPoint → Bool
  | .head | .waiting _ | .woken | .gate | .refreshed | .awaiting | .ready | .dispatch
  | .draining => true
  | _ => false

/-- The points at which a call of `sendAsync` has the mutex. -/
def SenderPoint.holdsMutex : SenderPoint → Bool
  | .locked | .admitted => true
  | _ => false

/-- How often the worker holds a job whose callback it has not invoked. -/
def WorkerPoint.inHand (point : WorkerPoint) (job : Job) : Nat :=
  match point with
  | .running other | .answering other => if other = job then 1 else 0
  | _ => 0

def WorkerPoint.isOut : WorkerPoint → Bool
  | .left | .done => true
  | _ => false

/-- The points the worker reaches only after it has seen the flag. -/
def WorkerPoint.sawStop : WorkerPoint → Bool
  | .draining | .answering _ | .drained | .left | .done => true
  | _ => false

/-- The points from which the worker does not come to `drainStopped` once the flag is set: it leaves
    at the test at the head of the loop, or has left. -/
def WorkerPoint.leavesAtHead : WorkerPoint → Bool
  | .start | .head | .dispatch | .running _ | .ran | .left | .done => true
  | _ => false

theorem WorkerPoint.inHand_of_holdsMutex {point : WorkerPoint} (h : point.holdsMutex = true)
    (job : Job) : point.inHand job = 0 := by
  cases point <;> first | rfl | cases h

theorem WorkerPoint.not_isOut_of_holdsMutex {point : WorkerPoint} (h : point.holdsMutex = true) :
    point.isOut = false := by
  cases point <;> first | rfl | cases h

namespace Client

/-- A job is in the queue, in the worker's hand or answered. -/
def tally (c : Client) (job : Job) : Nat :=
  c.answered job + c.queue.count job + c.worker.inHand job

structure Inv (c : Client) : Prop where
  worker : c.worker.holdsMutex = true ↔ c.owner = some .worker
  sender : ∀ job, (c.senders job).holdsMutex = true ↔ c.owner = some (.sender job)
  tally : ∀ job, c.tally job = if c.senders job = .queued then 1 else 0
  sawStop : c.worker.sawStop = true → c.stop = true
  /-- Out of the loop nobody is about to queue a job. -/
  out : c.worker.isOut = true → ∀ job, c.senders job ≠ .admitted

theorem inv_started : Inv started where
  worker := by decide
  sender job := by
    constructor
    · intro h; cases h
    · intro h; cases h
  tally job := rfl
  sawStop h := by cases h
  out h := by cases h

/-- What a move of the worker can do: take the mutex, go on with it, release it, take a job out of
    the queue, answer the job in its hand, or finish. -/
inductive WorkerEffect (c : Client) : Client → Prop where
  | relock {next : WorkerPoint} (free : c.owner = none) (empty : ∀ job, c.worker.inHand job = 0)
      (holds : next.holdsMutex = true) (saw : next.sawStop = true → c.worker.sawStop = true) :
      WorkerEffect c { c with owner := some .worker, worker := next }
  | stay {next : WorkerPoint} (held : c.worker.holdsMutex = true) (holds : next.holdsMutex = true)
      (saw : next.sawStop = true → c.stop = true) : WorkerEffect c { c with worker := next }
  | unlock {next : WorkerPoint} (held : c.worker.holdsMutex = true)
      (free : next.holdsMutex = false) (empty : ∀ job, next.inHand job = 0)
      (saw : next.sawStop = true → c.stop = true ∨ c.worker = .draining ∧ c.queue = []) :
      WorkerEffect c (c.unlock next)
  | take {next : WorkerPoint} {job : Job} {rest : List Job} (held : c.worker.holdsMutex = true)
      (first : c.queue = job :: rest)
      (hand : next = .running job ∨ next = .answering job ∧ c.worker = .draining) :
      WorkerEffect c { c.unlock next with queue := rest }
  | answer {next : WorkerPoint} {job : Job}
      (hand : c.worker = .running job ∧ next = .ran ∨
        c.worker = .answering job ∧ next = .drained) : WorkerEffect c (c.answer job next)
  | finish (left : c.worker = .left) (free : c.owner = none) :
      WorkerEffect c { c with worker := .done }

variable {c c' : Client} {job : Job} {maxPending : Nat} {move : Move}

theorem relock_eq_some {next : WorkerPoint} (h : c.relock next = some c') :
    c.owner = none ∧ c' = { c with owner := some .worker, worker := next } := by
  unfold relock at h
  split_ifs at h with hfree
  exact ⟨hfree, (some.inj h).symm⟩

theorem workerEffect {paused timer : Bool} (h : c.workerStep paused timer = some c') :
    WorkerEffect c c' := by
  unfold workerStep at h
  cases hpoint : c.worker <;> simp only [hpoint] at h
  case start | asleep | refreshing | awaitingAsleep | ran | drained =>
    obtain ⟨hfree, rfl⟩ := relock_eq_some h
    refine .relock hfree (by simp [hpoint, WorkerPoint.inHand]) ?_ ?_
    all_goals try split_ifs
    all_goals simp [hpoint, WorkerPoint.holdsMutex, WorkerPoint.sawStop]
  case head | waiting | woken | gate | refreshed | awaiting | ready =>
    have held : c.worker.holdsMutex = true := by rw [hpoint]; rfl
    cases h
    split_ifs with hif
    all_goals first
      | exact .stay held rfl fun hsaw => by first | exact hif | cases hsaw
      | exact .unlock held rfl (fun _ => rfl) fun hsaw => by first | exact .inl hif | cases hsaw
  case dispatch =>
    have held : c.worker.holdsMutex = true := by rw [hpoint]; rfl
    split at h <;> cases h
    · exact .stay held rfl nofun
    · split_ifs
      · exact .stay held rfl nofun
      · exact .take held ‹_› (.inl rfl)
  case draining =>
    have held : c.worker.holdsMutex = true := by rw [hpoint]; rfl
    split at h <;> cases h
    · exact .unlock held rfl (fun _ => rfl) fun _ => .inr ⟨hpoint, ‹_›⟩
    · exact .take held ‹_› (.inr ⟨rfl, hpoint⟩)
  case running =>
    cases h; exact .answer (.inl ⟨hpoint, rfl⟩)
  case answering =>
    cases h; exact .answer (.inr ⟨hpoint, rfl⟩)
  case left =>
    split_ifs at h with hfree
    cases h; exact .finish hpoint hfree
  case done => cases h

theorem Inv.not_admitted (h : Inv c) (hheld : c.worker.holdsMutex = true) (job : Job) :
    c.senders job ≠ .admitted := by
  intro hadmitted
  have howner := (h.sender job).mp (by rw [hadmitted]; rfl)
  rw [h.worker.mp hheld] at howner; cases howner

theorem Inv.moveWorker (h : Inv c) {owner : Option Thread} {worker : WorkerPoint}
    {queue : List Job} {answered : Job → Nat}
    (hworker : worker.holdsMutex = true ↔ owner = some .worker)
    (hsender : ∀ job, owner = some (.sender job) ↔ c.owner = some (.sender job))
    (htally : ∀ job, answered job + queue.count job + worker.inHand job = c.tally job)
    (hsaw : worker.sawStop = true → c.stop = true)
    (hout : worker.isOut = true → ∀ job, c.senders job ≠ .admitted) :
    Inv { c with owner, worker, queue, answered } where
  worker := hworker
  sender job := (h.sender job).trans (hsender job).symm
  tally job := (htally job).trans (h.tally job)
  sawStop := hsaw
  out := hout

theorem Inv.workerEffect (h : Inv c) (heffect : WorkerEffect c c') : Inv c' := by
  cases heffect with
  | @relock next free empty holds saw =>
    refine h.moveWorker (by simp [holds]) (by simp [free]) (fun job => ?_)
      (fun hsaw => h.sawStop (saw hsaw)) fun hout => ?_
    · rw [Client.tally, empty, WorkerPoint.inHand_of_holdsMutex holds]
    · rw [WorkerPoint.not_isOut_of_holdsMutex holds] at hout; cases hout
  | @stay next held holds saw =>
    refine h.moveWorker (by simp [holds, h.worker.mp held]) (fun _ => Iff.rfl) (fun job => ?_) saw
      fun hout => ?_
    · rw [Client.tally, WorkerPoint.inHand_of_holdsMutex held,
        WorkerPoint.inHand_of_holdsMutex holds]
    · rw [WorkerPoint.not_isOut_of_holdsMutex holds] at hout; cases hout
  | @unlock next held free empty saw =>
    refine h.moveWorker (by simp [free]) (by simp [h.worker.mp held]) (fun job => ?_)
      (fun hsaw => ?_) fun _ => h.not_admitted held
    · rw [Client.tally, WorkerPoint.inHand_of_holdsMutex held, empty]
    · rcases saw hsaw with hstop | ⟨hdraining, -⟩
      · exact hstop
      · exact h.sawStop (by rw [hdraining]; rfl)
  | @take next job rest held first hand =>
    have hnext : next.holdsMutex = false ∧ next.isOut = false ∧
        ∀ other, next.inHand other = if job = other then 1 else 0 := by
      rcases hand with rfl | ⟨rfl, -⟩ <;> exact ⟨rfl, rfl, fun _ => rfl⟩
    unfold Client.unlock
    refine h.moveWorker (by simp [hnext.1]) (by simp [h.worker.mp held]) (fun other => ?_)
      (fun hsaw => ?_) fun hout => ?_
    · -- the job moves from the queue into the worker's hand
      rw [Client.tally, WorkerPoint.inHand_of_holdsMutex held, first, List.count_cons,
        hnext.2.2 other]
      simp only [beq_iff_eq]; omega
    · rcases hand with rfl | ⟨rfl, hdraining⟩
      · cases hsaw
      · exact h.sawStop (by rw [hdraining]; rfl)
    · rw [hnext.2.1] at hout; cases hout
  | @answer next job hand =>
    have hnow : c.worker.holdsMutex = false ∧
        ∀ other, c.worker.inHand other = if job = other then 1 else 0 := by
      rcases hand with ⟨hpoint, -⟩ | ⟨hpoint, -⟩ <;> rw [hpoint] <;> exact ⟨rfl, fun _ => rfl⟩
    have hnext : next.holdsMutex = false ∧ next.isOut = false ∧ ∀ other, next.inHand other = 0 := by
      rcases hand with ⟨-, rfl⟩ | ⟨-, rfl⟩ <;> exact ⟨rfl, rfl, fun _ => rfl⟩
    refine h.moveWorker (by rw [hnext.1, ← h.worker, hnow.1]) (fun _ => Iff.rfl) (fun other => ?_)
      (fun hsaw => ?_) fun hout => ?_
    · -- the answer takes the job out of the hand
      rw [Client.tally, hnow.2, hnext.2.2]
      by_cases hother : job = other
      · subst hother
        rw [update_self, if_pos rfl]; omega
      · rw [update_of_ne (Ne.symm hother), if_neg hother]
    · rcases hand with ⟨-, rfl⟩ | ⟨hpoint, rfl⟩
      · cases hsaw
      · exact h.sawStop (by rw [hpoint]; rfl)
    · rw [hnext.2.1] at hout; cases hout
  | finish left free =>
    exact h.moveWorker (by simp [WorkerPoint.holdsMutex, free]) (fun _ => Iff.rfl)
      (fun job => by rw [Client.tally, left]; rfl) (fun _ => h.sawStop (by rw [left]; rfl))
      fun _ => h.out (by rw [left]; rfl)

section Senders

variable {c : Client} {job : Job}

theorem Inv.mutex (h : Inv c) (hjob : (c.senders job).holdsMutex = true) :
    c.worker.holdsMutex = false ∧ ∀ other ≠ job, (c.senders other).holdsMutex = false := by
  have howner := (h.sender job).mp hjob
  refine ⟨Bool.eq_false_iff.mpr fun hholds => ?_,
    fun other hother => Bool.eq_false_iff.mpr fun hholds => ?_⟩
  · cases howner.symm.trans (h.worker.mp hholds)
  · cases howner.symm.trans ((h.sender other).mp hholds); exact hother rfl

theorem Inv.moveSender (h : Inv c) (hjob : c.senders job ≠ .queued) {next : SenderPoint}
    {owner : Option Thread} {queue : List Job}
    (hworker : c.worker.holdsMutex = true ↔ owner = some .worker)
    (hnext : next.holdsMutex = true ↔ owner = some (.sender job))
    (hsender : ∀ other ≠ job, ((c.senders other).holdsMutex = true ↔ owner = some (.sender other)))
    (hqueue : ∀ other, queue.count other =
      c.queue.count other + if other = job ∧ next = .queued then 1 else 0)
    (hadmitted : next = .admitted → c.stop = false) :
    Inv { c.moveSender job next with owner, queue } := by
  -- the worker cannot be out of the loop if the flag was not set
  have hadmission : c.worker.isOut = true → next ≠ .admitted := fun hout hnext => by
    have hsaw : c.worker.sawStop = true := by
      cases hpoint : c.worker <;> rw [hpoint] at hout <;> first | rfl | cases hout
    rw [h.sawStop hsaw] at hadmitted
    cases hadmitted hnext
  have htallies : ∀ other, c.answered other + queue.count other + c.worker.inHand other =
      if update c.senders job next other = .queued then 1 else 0 :=
    (forall_update_iff c.senders fun other point => c.answered other + queue.count other +
      c.worker.inHand other = if point = .queued then 1 else 0).mpr ⟨?_, fun other hother => ?_⟩
  · exact ⟨hworker, (forall_update_iff c.senders fun other point =>
      point.holdsMutex = true ↔ owner = some (.sender other)).mpr ⟨hnext, hsender⟩, htallies,
      h.sawStop, fun hout => (forall_update_iff c.senders fun _ point =>
        point ≠ .admitted).mpr ⟨hadmission hout, fun other _ => h.out hout other⟩⟩
  · have htally := h.tally job
    rw [Client.tally, if_neg hjob] at htally
    rw [hqueue]
    simp only [true_and]; omega
  · have htally := h.tally other
    rw [hqueue, if_neg fun hboth => hother hboth.1]; exact htally

theorem Inv.release (h : Inv c) (hjob : (c.senders job).holdsMutex = true) {next : SenderPoint}
    (hnext : next.holdsMutex = false) {queue : List Job}
    (hqueue : ∀ other, queue.count other =
      c.queue.count other + if other = job ∧ next = .queued then 1 else 0) :
    Inv { c.moveSender job next with owner := none, queue := queue } := by
  obtain ⟨hworker, hsender⟩ := h.mutex hjob
  refine h.moveSender (fun hqueued => ?_) (by simp [hworker]) (by simp [hnext])
    (fun other hother => by simp [hsender other hother]) hqueue fun hadmitted => ?_
  · rw [hqueued] at hjob; cases hjob
  · rw [hadmitted] at hnext; cases hnext

theorem Inv.refuse (h : Inv c) (hjob : (c.senders job).holdsMutex = true) :
    Inv { c.moveSender job .refused with owner := none } :=
  h.release hjob rfl fun _ => by simp [Client.moveSender]

theorem Inv.enqueue (h : Inv c) (hjob : c.senders job = .admitted) :
    Inv { c.moveSender job .queued with owner := none, queue := c.queue ++ [job] } := by
  refine h.release (by rw [hjob]; rfl) rfl fun other => ?_
  rw [List.count_append, List.count_singleton]
  simp only [beq_iff_eq, and_true, @eq_comm _ other]

theorem Inv.lock (h : Inv c) (hidle : c.senders job = .idle) (hfree : c.owner = none) :
    Inv { c.moveSender job .locked with owner := some (.sender job) } := by
  refine h.moveSender (by simp [hidle]) ?_ (by simp [SenderPoint.holdsMutex]) (fun other hother => ?_)
    (by simp [Client.moveSender]) nofun
  · rw [h.worker, hfree]; simp
  · rw [h.sender, hfree]; simp [Ne.symm hother]

theorem Inv.admit (h : Inv c) (hlocked : c.senders job = .locked) (hstop : c.stop = false) :
    Inv (c.moveSender job .admitted) :=
  have hjob := (h.sender job).mp (by rw [hlocked]; rfl)
  h.moveSender (by simp [hlocked]) h.worker ⟨fun _ => hjob, fun _ => rfl⟩
    (fun other _ => h.sender other) (by simp) fun _ => hstop

end Senders

theorem lockStep_eq_some (h : c.lockStep job = some c') :
    c.senders job = .idle ∧ c.owner = none ∧
      c' = { c.moveSender job .locked with owner := some (.sender job) } := by
  unfold lockStep at h
  split_ifs at h with hlock
  exact ⟨hlock.1, hlock.2, (some.inj h).symm⟩

theorem checkStep_eq_some (h : c.checkStep job = some c') :
    c.senders job = .locked ∧ (c' = { c.moveSender job .refused with owner := none } ∨
        c.stop = false ∧ c' = c.moveSender job .admitted) := by
  unfold checkStep at h
  split_ifs at h with hlocked hstop
  · exact ⟨hlocked, .inl (some.inj h).symm⟩
  · exact ⟨hlocked, .inr ⟨Bool.eq_false_iff.mpr hstop, (some.inj h).symm⟩⟩

theorem pushStep_eq_some (h : c.pushStep maxPending job = some c') :
    c.senders job = .admitted ∧
      (c.queue ≠ [] ∧ c' = { c.moveSender job .refused with owner := none } ∨
        c' = { c.moveSender job .queued with owner := none, queue := c.queue ++ [job] }) := by
  unfold pushStep at h
  split_ifs at h with hadmitted hfull
  · exact ⟨hadmitted, .inl ⟨List.ne_nil_of_length_pos (by omega), (some.inj h).symm⟩⟩
  · exact ⟨hadmitted, .inr (some.inj h).symm⟩

theorem Inv.step (h : Inv c) (hstep : c.step maxPending move = some c') : Inv c' := by
  cases move with
  | worker => exact h.workerEffect (Client.workerEffect hstep)
  | lock =>
    obtain ⟨hidle, hfree, rfl⟩ := lockStep_eq_some hstep
    exact h.lock hidle hfree
  | check =>
    obtain ⟨hlocked, rfl | ⟨hstop, rfl⟩⟩ := checkStep_eq_some hstep
    · exact h.refuse (by rw [hlocked]; rfl)
    · exact h.admit hlocked hstop
  | push =>
    obtain ⟨hadmitted, ⟨-, rfl⟩ | rfl⟩ := pushStep_eq_some hstep
    · exact h.refuse (by rw [hadmitted]; rfl)
    · exact h.enqueue hadmitted
  | close =>
    cases hstep; exact { h with sawStop := fun _ => rfl }

theorem Inv.run {moves : List Move} (h : Inv c) (hrun : c.run maxPending moves = some c') :
    Inv c' := by
  induction moves generalizing c with
  | nil =>
    cases hrun; exact h
  | cons move moves ih =>
    obtain ⟨next, hnext, hrest⟩ := bind_eq_some_iff.mp hrun
    exact ih (h.step hnext) hrest

/-! ## 3. What is left behind -/

/-- At a point from which the worker does not come to `drainStopped` nothing is queued, and no
    sender is between its look at the flag and its push. -/
def Covered (c : Client) : Prop :=
  c.worker.leavesAtHead = true → c.queue = [] ∧ ∀ job, c.senders job ≠ .admitted

theorem stop_step (hstep : c.step maxPending move = some c') :
    c'.stop = (c.stop || decide (move = .close)) := by
  cases move with
  | worker =>
    cases Client.workerEffect hstep <;> exact (Bool.or_false _).symm
  | lock =>
    obtain ⟨-, -, rfl⟩ := lockStep_eq_some hstep
    exact (Bool.or_false _).symm
  | check =>
    obtain ⟨-, rfl | ⟨-, rfl⟩⟩ := checkStep_eq_some hstep <;> exact (Bool.or_false _).symm
  | push =>
    obtain ⟨-, ⟨-, rfl⟩ | rfl⟩ := pushStep_eq_some hstep <;> exact (Bool.or_false _).symm
  | close =>
    cases hstep; exact (Bool.or_true _).symm

theorem covered_congr (hqueue : c'.queue = c.queue) (hsenders : c'.senders = c.senders)
    (hworker : c'.worker.leavesAtHead = c.worker.leavesAtHead) : c'.Covered ↔ c.Covered := by
  rw [Covered, Covered, hqueue, hsenders, hworker]

theorem covered_iff_of_awaited (h : c.queue ≠ [] ∨ ∃ job, c.senders job = .admitted) :
    c.Covered ↔ c.worker.leavesAtHead = false := by
  constructor
  · intro hcovered
    rw [← Bool.not_eq_true]
    intro hleaves
    obtain ⟨hqueue, hsenders⟩ := hcovered hleaves
    rcases h with hnonempty | ⟨job, hadmitted⟩
    · exact hnonempty hqueue
    · exact hsenders job hadmitted
  · intro hdrains hleaves
    rw [hdrains] at hleaves; cases hleaves

theorem Covered.workerStep_iff (h : Inv c) (hstop : c.stop = true) {paused timer : Bool}
    (hstep : c.workerStep paused timer = some c') : c'.Covered ↔ c.Covered := by
  unfold workerStep at hstep
  cases hpoint : c.worker <;>
    simp only [hpoint, hstop, Bool.true_or, if_true] at hstep
  case start | refreshing | awaitingAsleep | ran | drained =>
    obtain ⟨-, rfl⟩ := relock_eq_some hstep
    exact covered_congr rfl rfl (by rw [hpoint]; rfl)
  case asleep =>
    obtain ⟨-, rfl⟩ := relock_eq_some hstep
    exact covered_congr rfl rfl (by rw [hpoint]; dsimp only; split_ifs <;> rfl)
  case head | waiting | woken | refreshed | awaiting | ready | running | answering =>
    cases hstep
    exact covered_congr rfl rfl (by rw [hpoint]; rfl)
  case gate =>
    cases hstep
    split_ifs <;> exact covered_congr rfl rfl (by rw [hpoint]; rfl)
  case dispatch =>
    -- with the flag set the inner loop takes no job
    split at hstep <;> cases hstep <;> exact covered_congr rfl rfl (by rw [hpoint]; rfl)
  case draining =>
    have hnow : c.Covered := fun hleaves => by rw [hpoint] at hleaves; cases hleaves
    split at hstep <;> cases hstep
    · -- the worker has the mutex when it finds the queue empty
      exact iff_of_true (fun _ => ⟨‹_›, h.not_admitted (by rw [hpoint]; rfl)⟩) hnow
    · exact iff_of_true (fun hleaves => by cases hleaves) hnow
  case left =>
    split_ifs at hstep
    cases hstep
    exact covered_congr rfl rfl (by rw [hpoint]; rfl)
  case done => cases hstep

theorem Covered.moveSender_iff {next : SenderPoint} (hnow : c.senders job ≠ .admitted)
    (hnext : next ≠ .admitted) (owner : Option Thread) :
    Covered { c.moveSender job next with owner } ↔ c.Covered := by
  have hsenders : (∀ other, update c.senders job next other ≠ .admitted) ↔
      ∀ other, c.senders other ≠ .admitted := by
    rw [forall_update_iff c.senders fun _ point => point ≠ .admitted]
    refine ⟨fun h other => ?_, fun h => ⟨hnext, fun other _ => h other⟩⟩
    by_cases hother : other = job
    · exact hother ▸ hnow
    · exact h.2 other hother
  exact imp_congr_right fun _ => and_congr_right fun _ => hsenders

theorem Covered.step_iff (h : Inv c) (hstop : c.stop = true)
    (hstep : c.step maxPending move = some c') : c'.Covered ↔ c.Covered := by
  cases move with
  | worker => exact Covered.workerStep_iff h hstop hstep
  | lock job =>
    obtain ⟨hidle, -, rfl⟩ := lockStep_eq_some hstep
    exact Covered.moveSender_iff (by simp [hidle]) (by decide) _
  | check =>
    obtain ⟨hlocked, rfl | ⟨hopen, -⟩⟩ := checkStep_eq_some hstep
    · exact Covered.moveSender_iff (by simp [hlocked]) (by decide) _
    · rw [hstop] at hopen; cases hopen
  | push job =>
    obtain ⟨hadmitted, hqueue⟩ := pushStep_eq_some hstep
    rw [covered_iff_of_awaited (.inr ⟨job, hadmitted⟩)]
    -- a push that is refused finds other jobs in the queue
    rcases hqueue with ⟨hfull, rfl⟩ | rfl
    · exact covered_iff_of_awaited (.inl hfull)
    · exact covered_iff_of_awaited (.inl (List.append_ne_nil_of_right_ne_nil _ (by simp)))
  | close =>
    cases hstep; exact Iff.rfl

theorem Covered.run_iff {moves : List Move} (h : Inv c) (hstop : c.stop = true)
    (hrun : c.run maxPending moves = some c') : c'.Covered ↔ c.Covered := by
  induction moves generalizing c with
  | nil => rw [← some.inj hrun]
  | cons move moves ih =>
    obtain ⟨next, hnext, hrest⟩ := bind_eq_some_iff.mp hrun
    have hstill : next.stop = true := by rw [stop_step hnext, hstop]; rfl
    rw [ih (h.step hnext) hstill hrest, Covered.step_iff h hstop hnext]

/-- Every request for which `sendAsync` queued a job has had its callback invoked exactly once. -/
def AllAnswered (c : Client) : Prop := ∀ job, c.senders job = .queued → c.answered job = 1

theorem Inv.allAnswered_iff (h : Inv c) (hempty : ∀ job, c.worker.inHand job = 0) :
    c.AllAnswered ↔ c.queue = [] := by
  constructor
  · intro hall
    rw [List.eq_nil_iff_forall_not_mem]
    intro job hmem
    have hpos := List.count_pos_iff.mpr hmem
    have htally := h.tally job
    unfold Client.tally at htally
    by_cases hqueued : c.senders job = .queued
    · rw [if_pos hqueued, hall job hqueued] at htally; omega
    · rw [if_neg hqueued] at htally; omega
  · intro hqueue job hqueued
    have htally := h.tally job
    unfold Client.tally at htally
    rw [if_pos hqueued, hempty job, hqueue, List.count_nil] at htally; omega

theorem close_mem_of_stop {moves : List Move} (hstop : c.stop = false)
    (hrun : c.run maxPending moves = some c') (hstop' : c'.stop = true) : .close ∈ moves := by
  induction moves generalizing c with
  | nil =>
    cases hrun
    rw [hstop] at hstop'; cases hstop'
  | cons move moves ih =>
    obtain ⟨next, hnext, hrest⟩ := bind_eq_some_iff.mp hrun
    by_cases hmove : move = .close
    · exact hmove ▸ List.mem_cons_self
    · have hstill : next.stop = false := by rw [stop_step hnext, hstop, decide_eq_false hmove]; rfl
      exact List.mem_cons_of_mem _ (ih hstill hrest)

theorem run_append (before after : List Move) (c : Client) :
    c.run maxPending (before ++ after) =
      (c.run maxPending before).bind (Client.run maxPending after) := by
  induction before generalizing c with
  | nil => rfl
  | cons move before ih =>
    change (c.step maxPending move).bind _ = ((c.step maxPending move).bind _).bind _
    rw [bind_assoc]
    exact bind_congr fun next _ => ih next

/-- In any run of the threads at whose end the worker has finished there is a `close`, and the state
    before the first one, or any other, decides whether every request that was queued has been
    answered exactly once.  They are unless the worker has not come to its first wait yet or is in
    the inner loop, and a job is queued at that moment or a sender is about to push one. -/
theorem workerLoop_answers_iff (maxPending : Nat) {moves : List Move} {final : Client}
    (hrun : started.run maxPending moves = some final) (hdone : final.worker = .done) :
    .close ∈ moves ∧ ∀ before after c, moves = before ++ .close :: after →
      started.run maxPending before = some c → (final.AllAnswered ↔ c.Covered) := by
  have hfinal : Inv final := inv_started.run hrun
  have hstop : final.stop = true := hfinal.sawStop (by rw [hdone]; rfl)
  refine ⟨close_mem_of_stop rfl hrun hstop, ?_⟩
  rintro before after c rfl hbefore
  rw [run_append, hbefore] at hrun
  have hclosed : Inv { c with stop := true } :=
    (inv_started.run hbefore).step (show c.step maxPending .close = _ from rfl)
  have hcovered := Covered.run_iff hclosed rfl hrun
  change final.Covered ↔ c.Covered at hcovered
  rw [← hcovered, hfinal.allAnswered_iff (by rw [hdone]; exact fun _ => rfl)]
  constructor
  · exact fun hqueue _ => ⟨hqueue, hfinal.out (by rw [hdone]; rfl)⟩
  · exact fun h => (h (by rw [hdone]; rfl)).1

/-- A request that `sendAsync` has queued is in the queue, with the worker or answered, and once; no
    other request ever is. -/
theorem request_at_one_place {moves : List Move} (hrun : started.run maxPending moves = some c)
    (job : Job) : c.answered job + c.queue.count job + c.worker.inHand job
      = if c.senders job = .queued then 1 else 0 :=
  (inv_started.run hrun).tally job

end Client

/-! ## 4. Two runs -/

def send (job : Job) : List Move := [.lock job, .check job, .push job]

def work (n : Nat) : List Move := List.replicate n (.worker false false)

/-- A request is queued while the worker sleeps, and the client is closed before the worker wakes
    up: it drains the queue and leaves. -/
theorem workerLoop_answers_sleeping :
    ∃ final, started.run 0 (work 3 ++ send 7 ++ .close :: work 8) = some final ∧
      final.worker = .done ∧ final.AllAnswered := by
  obtain ⟨final, hrun, hdone⟩ : ∃ final,
      started.run 0 (work 3 ++ send 7 ++ .close :: work 8) = some final ∧ final.worker = .done :=
    ⟨_, rfl, rfl⟩
  obtain ⟨c, hc, hworker⟩ : ∃ c, started.run 0 (work 3 ++ send 7) = some c ∧
      c.worker = .asleep false := ⟨_, rfl, rfl⟩
  have hcovered : c.Covered := fun hleaves => by rw [hworker] at hleaves; cases hleaves
  have hiff := (Client.workerLoop_answers_iff 0 hrun hdone).2 _ _ c rfl hc
  exact ⟨final, hrun, hdone, hiff.mpr hcovered⟩

theorem request_at_one_place_sleeping :
    ∃ c, started.run 0 (work 3 ++ send 7) = some c ∧
      c.answered 7 + c.queue.count 7 + c.worker.inHand 7 = 1 :=
  ⟨_, rfl, @Client.request_at_one_place _ 0 (work 3 ++ send 7) rfl 7⟩

/-- Two requests are queued, and the client is closed while the worker runs the first one: the
    second one is never answered. -/
theorem workerLoop_loses_request :
    ∃ final : Client,
      started.run 0 (send 1 ++ send 2 ++ work 7 ++ [.close] ++ work 5) = some final ∧
      final.worker = .done ∧ final.senders 2 = .queued ∧ final.answered 2 = 0 :=
  ⟨_, rfl, rfl, rfl, rfl⟩

end HttpClient

end LangGraph
