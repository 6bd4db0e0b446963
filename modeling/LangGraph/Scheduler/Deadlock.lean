import LangGraph.Lib.Interleaving
import LangGraph.Scheduler.TaskRecord

/-!
# The scheduler's mutexes and cancellation callbacks

`finishTask`, `requestCancel` and `reschedule` take the mutex of the scheduler together with that of
the task, and where they end the task they destroy the registration of its cancellation callback
with both mutexes held.  The destructor of a `std::stop_callback` waits for its callback if another
thread is running it, and the callback of a task is `requestCancel`, which waits for the mutexes.

All critical sections with two mutexes have the one of the scheduler, so one owner stands for both.
`lock` and `commit` are two moves: in between a thread is in its critical section.
-/

namespace LangGraph

open Function Option

namespace Scheduler

namespace Deadlock

abbrev Thread := Nat

abbrev Task := Nat

/-! ## 1. Threads, registrations and callbacks -/

inductive Operation where
  | finish (finalState : ScheduledTaskState) (status : Outcome)
  | cancel (status : Outcome)
  | reschedule
deriving DecidableEq

/-- The record after the operation, and whether the operation has ended the task. -/
def Operation.apply (closed : Bool) (r : TaskRecord) : Operation → TaskRecord × Bool
  | .finish finalState status => r.finish finalState status
  | .cancel status => (r.requestCancel status).getD (r, false)
  | .reschedule => r.reschedule closed

def callbackOperation (reason : Bytes) : Operation := .cancel (.error (.cancelled reason))

/-- Where a callback is: at the mutexes, with them, at the mutexes once more to publish the
    cancellation, or on the way back. -/
inductive Phase where
  | wanting
  | holding
  | publishing
  | returning
deriving DecidableEq

inductive Point where
  | free
  | wanting (operation : Operation) (task : Task)
  | holding (operation : Operation) (task : Task)
  /-- In `cancel` of a source, which runs the callbacks of its token one after the other. -/
  | cancelling (token : Token) (reason : Bytes)
  | callback (token : Token) (reason : Bytes) (task : Task) (phase : Phase)
deriving DecidableEq

inductive Callback where
  | absent
  | registered (token : Token)
  | running (thread : Thread)
  | ran
  | destroyed
deriving DecidableEq

inductive Attachment where
  | none
  | made (token : Token)
  | checked
  | done
deriving DecidableEq

structure State where
  closed : Bool := false
  record : Task → TaskRecord := fun _ => {}
  callback : Task → Callback := fun _ => .absent
  attachment : Task → Attachment := fun _ => .none
  stopped : Token → Bool := fun _ => false
  owner : Option Thread := none
  point : Thread → Point := fun _ => .free

inductive Move where
  /-- `onCancel` in `attachCancellation`. -/
  | register (task : Task) (token : Token)
  /-- `registered` of the new registration. -/
  | check (task : Task)
  /-- The record gets the registration. -/
  | attach (task : Task)
  | start (task : Task)
  | close
  | call (thread : Thread) (operation : Operation) (task : Task)
  | lock (thread : Thread)
  | commit (thread : Thread)
  | stop (thread : Thread) (token : Token) (reason : Bytes)
  | fire (thread : Thread) (task : Task)
  | publish (thread : Thread)
  | endCallback (thread : Thread)
  | endStop (thread : Thread)
deriving DecidableEq

namespace State

def moveTo (thread : Thread) (point : Point) (s : State) : State :=
  { s with point := Function.update s.point thread point }

def setRecord (task : Task) (r : TaskRecord) (s : State) : State :=
  { s with record := Function.update s.record task r }

def setCallback (task : Task) (callback : Callback) (s : State) : State :=
  { s with callback := Function.update s.callback task callback }

def setAttachment (task : Task) (attachment : Attachment) (s : State) : State :=
  { s with attachment := Function.update s.attachment task attachment }

def wanted (thread : Thread) (s : State) : Option (Operation × Task) :=
  match s.point thread with
  | .wanting operation task => some (operation, task)
  | .callback _ reason task .wanting => some (callbackOperation reason, task)
  | _ => none

def critical (thread : Thread) (s : State) : Option (Operation × Task) :=
  match s.point thread with
  | .holding operation task => some (operation, task)
  | .callback _ reason task .holding => some (callbackOperation reason, task)
  | _ => none

/-- `attachCancellation` takes only the mutex of the task. -/
def taskMutexFree (task : Task) (s : State) : Bool :=
  match s.owner with
  | none => true
  | some thread => (s.critical thread).all fun work => work.2 != task

/-- The destructor of a registration that the record does not have waits without a mutex, so here
    it only keeps a callback from running that has not begun. -/
def discard (task : Task) (s : State) : State :=
  match s.callback task with
  | .registered _ => s.setCallback task .destroyed
  | _ => s

/-- The destructor of the registration in the record waits: another thread runs the callback. -/
def destructorWaits (thread : Thread) (task : Task) (s : State) : Bool :=
  match s.callback task with
  | .running other => (s.record task).registered && other != thread
  | _ => false

/-- The operation writes the record; where it ends the task it destroys the registration. -/
def write (thread : Thread) (operation : Operation) (task : Task) (s : State) : Option State :=
  match operation.apply s.closed (s.record task) with
  | (r, true) =>
    if s.destructorWaits thread task then none
    else if (s.record task).registered then
      some ((s.setRecord task r).setCallback task .destroyed)
    else some (s.setRecord task r)
  | (r, false) => some (s.setRecord task r)

/-- Where a thread is after its critical section; only a cancellation that has ended the task is
    published. -/
def pointAfter (thread : Thread) (s : State) : Point :=
  match s.point thread with
  | .callback token reason task _ =>
    if ((callbackOperation reason).apply s.closed (s.record task)).2 then
      .callback token reason task .publishing
    else .callback token reason task .returning
  | _ => .free

def commit (thread : Thread) (s : State) : Option State :=
  match s.critical thread with
  | some (operation, task) =>
    (s.write thread operation task).map fun written =>
      { written.moveTo thread (s.pointAfter thread) with owner := none }
  | none => none

def lock (thread : Thread) (s : State) : Option State :=
  match s.owner, s.point thread with
  | none, .wanting operation task =>
    some { s.moveTo thread (.holding operation task) with owner := some thread }
  | none, .callback token reason task .wanting =>
    some { s.moveTo thread (.callback token reason task .holding) with owner := some thread }
  | _, _ => none

def fire (thread : Thread) (task : Task) (s : State) : Option State :=
  match s.point thread, s.callback task with
  | .cancelling token reason, .registered other =>
    if other = token then
      some ((s.setCallback task (.running thread)).moveTo thread
        (.callback token reason task .wanting))
    else none
  | _, _ => none

def endCallback (thread : Thread) (s : State) : Option State :=
  match s.point thread with
  | .callback token reason task .returning =>
    -- the callback may have destroyed its own registration
    if s.callback task = .running thread then
      some ((s.setCallback task .ran).moveTo thread (.cancelling token reason))
    else some (s.moveTo thread (.cancelling token reason))
  | _ => none

def check (task : Task) (s : State) : Option State :=
  match s.attachment task with
  | .made token =>
    if s.stopped token = false then some (s.setAttachment task .checked)
    else some ((s.discard task).setAttachment task .done)
  | _ => none

def attach (task : Task) (s : State) : Option State :=
  if s.attachment task = .checked ∧ s.taskMutexFree task = true then
    if (s.record task).active && !(s.record task).cancelRequested then
      some ((s.setRecord task { s.record task with registered := true }).setAttachment task .done)
    else some ((s.discard task).setAttachment task .done)
  else none

def step (move : Move) (s : State) : Option State :=
  match move with
  | .register task token =>
    if s.attachment task = .none ∧ s.stopped token = false then
      some ((s.setCallback task (.registered token)).setAttachment task (.made token))
    else none
  | .check task => s.check task
  | .attach task => s.attach task
  | .start task =>
    if s.owner = none then (s.record task).start.map fun r => s.setRecord task r else none
  | .close => if s.owner = none then some { s with closed := true } else none
  | .call thread operation task =>
    if s.point thread = .free then some (s.moveTo thread (.wanting operation task)) else none
  | .lock thread => s.lock thread
  | .commit thread => s.commit thread
  | .stop thread token reason =>
    if s.point thread = .free ∧ s.stopped token = false then
      some { s.moveTo thread (.cancelling token reason) with
        stopped := Function.update s.stopped token true }
    else none
  | .fire thread task => s.fire thread task
  | .publish thread =>
    match s.point thread with
    | .callback token reason task .publishing =>
      if s.owner = none then
        some (s.moveTo thread (.callback token reason task .returning))
      else none
    | _ => none
  | .endCallback thread => s.endCallback thread
  | .endStop thread =>
    match s.point thread with
    | .cancelling _ _ => some (s.moveTo thread .free)
    | _ => none

end State

def run (moves : List Move) : Option State := Interleaving.run State.step moves {}

/-! ## 2. Deadlock -/

def ends (s : State) (task : Task) : Option (Operation × Task) → Bool
  | some (operation, other) =>
    other == task && (operation.apply s.closed (s.record task)).2
  | none => false

/-- The thread is in the callback of the task and waits for the mutexes. -/
def callbackWaits (s : State) (thread : Thread) (task : Task) : Bool :=
  match s.point thread with
  | .callback _ _ other .wanting | .callback _ _ other .publishing => other == task
  | _ => false

/-- The record has the registration of a callback that waits for the mutexes on another thread. -/
def callbackInTheWay (s : State) (thread : Thread) (task : Task) : Bool :=
  s.destructorWaits thread task && match s.callback task with
    | .running other => callbackWaits s other task
    | _ => false

/-- A thread with the mutexes waits for a callback that waits for the mutexes. -/
def Deadlocked (s : State) : Prop :=
  ∃ thread task, s.owner = some thread ∧ ends s task (s.critical thread) = true ∧
    callbackInTheWay s thread task = true

/-- What keeps the scheduler from the deadlock: no thread takes the mutexes to end a task whose
    callback waits for them, and no callback of a task begins while a thread has the mutexes to end
    that task. -/
def Untangled (move : Move) (s : State) : Prop :=
  match move with
  | .lock thread =>
    match s.wanted thread with
    | some (operation, task) =>
      ¬(ends s task (some (operation, task)) = true ∧ callbackInTheWay s thread task = true)
    | none => True
  | .fire _ task =>
    match s.owner with
    | some thread =>
      ¬(ends s task (s.critical thread) = true ∧ (s.record task).registered = true)
    | none => True
  | _ => True

instance (move : Move) (s : State) : Decidable (Untangled move s) := by
  unfold Untangled
  split
  · split <;> infer_instance
  · split <;> infer_instance
  · infer_instance

/-! ## 3. Steps into a deadlock -/

variable {s s' : State} {task : Task} {thread : Thread}

theorem ends_eq_true {work : Option (Operation × Task)} :
    ends s task work = true ↔ ∃ operation, work = some (operation, task) ∧
        (operation.apply s.closed (s.record task)).2 = true := by
  cases work with
  | none => simp [ends]
  | some work =>
    obtain ⟨operation, other⟩ := work
    simp only [ends, Bool.and_eq_true, beq_iff_eq, some.injEq, Prod.mk.injEq]
    constructor
    · intro h; exact ⟨operation, ⟨rfl, h.1⟩, h.2⟩
    · intro ⟨_, ⟨hoperation, hother⟩, happly⟩; exact ⟨hother, hoperation ▸ happly⟩

theorem callbackInTheWay_eq_true :
    callbackInTheWay s thread task = true ↔
      ∃ other, s.callback task = .running other ∧ (s.record task).registered = true ∧
        other ≠ thread ∧ callbackWaits s other task = true := by
  unfold callbackInTheWay State.destructorWaits
  cases s.callback task with
  | running => simp [and_assoc]
  | _ => simp

theorem Deadlocked.before {s s' : State} (h : Deadlocked s') (howner : s'.owner = s.owner)
    (hclosed : s'.closed = s.closed)
    (hcritical : ∀ thread work, s'.critical thread = some work → s.critical thread = some work)
    (hrecord : ∀ thread work, s'.owner = some thread → s'.critical thread = some work →
      s'.record work.2 = s.record work.2)
    (hcallback : ∀ task other, s'.callback task = .running other → s.callback task = .running other)
    (hwaits : ∀ thread task, callbackWaits s' thread task = true →
      callbackWaits s thread task = true) : Deadlocked s := by
  obtain ⟨thread, task, howned, hends, hway⟩ := h
  obtain ⟨operation, hwork, happly⟩ := ends_eq_true.mp hends
  obtain ⟨other, hrunning, hregistered, hother, hwaiting⟩ := callbackInTheWay_eq_true.mp hway
  have hsame : s'.record task = s.record task := hrecord thread _ howned hwork
  refine ⟨thread, task, howner ▸ howned, ?_, ?_⟩
  · refine ends_eq_true.mpr ⟨operation, hcritical _ _ hwork, ?_⟩
    rw [← hclosed, ← hsame]; exact happly
  · exact callbackInTheWay_eq_true.mpr
      ⟨other, hcallback _ _ hrunning, hsame ▸ hregistered, hother, hwaits _ _ hwaiting⟩

/-- A point at which a thread neither is in a critical section nor waits in a callback. -/
def Point.idle : Point → Bool
  | .free | .wanting _ _ | .cancelling _ _ => true
  | _ => false

section MoveTo

variable {s : State} {thread other : Thread} {point : Point}

theorem critical_of_moveTo_idle (hidle : point.idle = true) {work : Operation × Task}
    (h : (s.moveTo thread point).critical other = some work) : s.critical other = some work := by
  by_cases heq : other = thread
  · cases point <;> simp_all [State.critical, State.moveTo, Point.idle]
  · simpa [State.critical, State.moveTo, update_of_ne heq] using h

theorem callbackWaits_of_moveTo_idle (hidle : point.idle = true) {task : Task}
    (h : callbackWaits (s.moveTo thread point) other task = true) :
    callbackWaits s other task = true := by
  by_cases heq : other = thread
  · cases point <;> simp_all [callbackWaits, State.moveTo, Point.idle]
  · simpa [callbackWaits, State.moveTo, update_of_ne heq] using h

theorem Deadlocked.of_moveTo_idle (hidle : point.idle = true)
    (h : Deadlocked (s.moveTo thread point)) : Deadlocked s :=
  h.before rfl rfl (fun _ _ => critical_of_moveTo_idle hidle) (fun _ _ _ _ => rfl)
    (fun _ _ h => h) fun _ _ => callbackWaits_of_moveTo_idle hidle

end MoveTo

theorem Deadlocked.of_setCallback {callback : Callback}
    (hcallback : ∀ thread, callback ≠ .running thread)
    (h : Deadlocked (s.setCallback task callback)) : Deadlocked s := by
  refine h.before rfl rfl (fun _ _ h => h) (fun _ _ _ _ => rfl) ?_ fun _ _ h => h
  intro other thread hrunning
  by_cases heq : other = task
  · subst heq
    exact (hcallback thread (by simpa [State.setCallback] using hrunning)).elim
  · simpa [State.setCallback, update_of_ne heq] using hrunning

theorem Deadlocked.of_setAttachment {attachment : Attachment}
    (h : Deadlocked (s.setAttachment task attachment)) : Deadlocked s :=
  h.before rfl rfl (fun _ _ h => h) (fun _ _ _ _ => rfl) (fun _ _ h => h) fun _ _ h => h

theorem Deadlocked.of_discard (h : Deadlocked (s.discard task)) : Deadlocked s := by
  unfold State.discard at h
  split at h
  · exact h.of_setCallback fun _ => Callback.noConfusion
  · exact h

theorem Deadlocked.of_owner_none (howner : s.owner = none) : ¬Deadlocked s := by
  intro ⟨thread, _, howned, _⟩
  rw [howner] at howned; cases howned

theorem Deadlocked.of_setRecord {r : TaskRecord} (hfree : s.taskMutexFree task = true)
    (h : Deadlocked (s.setRecord task r)) : Deadlocked s := by
  refine h.before rfl rfl (fun _ _ h => h) ?_ (fun _ _ h => h) fun _ _ h => h
  intro thread work howner hcritical
  have howner : s.owner = some thread := howner
  have hcritical : s.critical thread = some work := hcritical
  simp only [State.taskMutexFree, howner, hcritical, all_some, bne_iff_ne] at hfree
  exact update_of_ne hfree r s.record

theorem deadlocked_of_attach (hstep : s.attach task = some s') (h : Deadlocked s') :
    Deadlocked s := by
  simp only [State.attach, ite_none_right_eq_some] at hstep
  obtain ⟨⟨_, hfree⟩, hstep⟩ := hstep
  split at hstep
  all_goals
    rw [← some.inj hstep] at h
  · exact h.of_setAttachment.of_setRecord hfree
  · exact h.of_setAttachment.of_discard

theorem deadlocked_of_check (hstep : s.check task = some s') (h : Deadlocked s') :
    Deadlocked s := by
  unfold State.check at hstep
  split at hstep
  · split at hstep
    all_goals
      rw [← some.inj hstep] at h
    · exact h.of_setAttachment
    · exact h.of_setAttachment.of_discard
  · cases hstep

theorem deadlocked_of_endCallback (hstep : s.endCallback thread = some s') (h : Deadlocked s') :
    Deadlocked s := by
  unfold State.endCallback at hstep
  split at hstep
  · split at hstep
    all_goals
      rw [← some.inj hstep] at h
    · exact (h.of_moveTo_idle rfl).of_setCallback fun _ => Callback.noConfusion
    · exact h.of_moveTo_idle rfl
  · cases hstep

theorem owner_of_commit (hstep : s.commit thread = some s') : s'.owner = none := by
  unfold State.commit at hstep
  split at hstep
  · obtain ⟨written, _, rfl⟩ := map_eq_some_iff.mp hstep
    rfl
  · cases hstep

/-- `lock` turns the work a thread wants into the work it does, and changes nothing else that a
    deadlock depends on. -/
theorem lock_spec (hstep : s.lock thread = some s') :
    s.owner = none ∧ s'.owner = some thread ∧ (∃ work, s.wanted thread = some work) ∧
      s'.critical thread = s.wanted thread ∧ s'.closed = s.closed ∧ s'.record = s.record ∧
      s'.callback = s.callback ∧ ∀ other, other ≠ thread → s'.point other = s.point other := by
  unfold State.lock at hstep
  split at hstep
  case h_1 operation task howner hpoint | h_2 token reason task howner hpoint =>
    cases hstep
    refine ⟨howner, rfl, ⟨_, by rw [State.wanted, hpoint]⟩, ?_, rfl, rfl, rfl, ?_⟩
    · simp [State.critical, State.wanted, State.moveTo, hpoint]
    · intro other hother; exact update_of_ne hother _ _
  case h_3 => cases hstep

theorem deadlocked_lock_iff (hstep : s.lock thread = some s') :
    Deadlocked s' ↔ ¬Untangled (.lock thread) s := by
  obtain ⟨_, howner, ⟨⟨operation, task⟩, hwanted⟩, hcritical, hclosed, hrecord, hcallback, hpoint⟩ :=
    lock_spec hstep
  have hends : ∀ work, ends s' task work = ends s task work := by
    intro work
    cases work <;> simp [ends, hclosed, hrecord]
  -- the thread of the callback is another one, so it is where it was
  have hway : callbackInTheWay s' thread task = callbackInTheWay s thread task := by
    rw [Bool.eq_iff_iff, callbackInTheWay_eq_true, callbackInTheWay_eq_true]
    refine exists_congr fun other => ?_
    rw [hcallback, hrecord]
    refine and_congr_right fun _ => and_congr_right fun _ => and_congr_right fun hother => ?_
    rw [callbackWaits, callbackWaits, hpoint other hother]
  simp only [Untangled, hwanted, not_not]
  rw [← hends, ← hway, ← hwanted, ← hcritical]
  constructor
  · intro ⟨owner, other, howned, hdue, hstuck⟩
    obtain rfl : thread = owner := some.inj (howner.symm.trans howned)
    obtain ⟨_, hwork, _⟩ := ends_eq_true.mp hdue
    obtain rfl : task = other := by
      rw [hcritical, hwanted] at hwork
      exact congrArg Prod.snd (some.inj hwork)
    exact ⟨hdue, hstuck⟩
  · intro ⟨hdue, hstuck⟩; exact ⟨thread, task, howner, hdue, hstuck⟩

theorem fire_spec (hstep : s.fire thread task = some s') :
    ∃ token reason, s.point thread = .cancelling token reason ∧
      s' = (s.setCallback task (.running thread)).moveTo thread
        (.callback token reason task .wanting) := by
  unfold State.fire at hstep
  split at hstep
  case h_1 token reason other hpoint _ =>
    split at hstep
    · exact ⟨token, reason, hpoint, (some.inj hstep).symm⟩
    · cases hstep
  case h_2 => cases hstep

theorem critical_of_point {token : Token} {reason : Bytes}
    (h : s.point thread = .cancelling token reason) : s.critical thread = none := by
  rw [State.critical, h]

theorem deadlocked_fire_iff (hs : ¬Deadlocked s) (hstep : s.fire thread task = some s') :
    Deadlocked s' ↔ ¬Untangled (.fire thread task) s := by
  obtain ⟨token, reason, hpoint, rfl⟩ := fire_spec hstep
  have hidle : s.critical thread = none := critical_of_point hpoint
  have hcritical : ∀ owner, ((s.setCallback task (.running thread)).moveTo thread
      (.callback token reason task .wanting)).critical owner = s.critical owner := by
    intro owner
    by_cases heq : owner = thread
    · subst heq
      rw [hidle]; simp [State.critical, State.moveTo]
    · simp [State.critical, State.moveTo, State.setCallback, update_of_ne heq]
  -- the callback that begins to run can only be in the way of its own task
  constructor
  · intro ⟨owner, other, howner', hends', hway⟩ huntangled
    rw [hcritical] at hends'
    have howner : s.owner = some owner := howner'
    have hends : ends s other (s.critical owner) = true := hends'
    obtain ⟨runner, hrunning, hregistered', hrunner, hwaits⟩ := callbackInTheWay_eq_true.mp hway
    have hregistered : (s.record other).registered = true := hregistered'
    by_cases hother : other = task
    · subst hother
      simp only [Untangled, howner] at huntangled
      exact huntangled ⟨hends, hregistered⟩
    · -- the callback of another task was in the way before
      refine hs ⟨owner, other, howner, hends, callbackInTheWay_eq_true.mpr
        ⟨runner, ?_, hregistered, hrunner, ?_⟩⟩
      · simpa [State.moveTo, State.setCallback, update_of_ne hother] using hrunning
      · by_cases heq : runner = thread
        · subst heq
          simp [callbackWaits, State.moveTo] at hwaits
          exact (hother hwaits.symm).elim
        · simpa [callbackWaits, State.moveTo, State.setCallback, update_of_ne heq]
            using hwaits
  · intro htangled
    cases howner : s.owner with
    | none => simp [Untangled, howner] at htangled
    | some owner =>
      simp only [Untangled, howner, not_not] at htangled
      obtain ⟨hends, hregistered⟩ := htangled
      have howner_ne : thread ≠ owner := by
        intro heq
        subst heq
        rw [hidle] at hends; cases hends
      refine ⟨owner, task, howner, ?_, callbackInTheWay_eq_true.mpr
        ⟨thread, ?_, hregistered, howner_ne, ?_⟩⟩
      · rw [hcritical]; exact hends
      · simp [State.moveTo, State.setCallback]
      · simp [callbackWaits, State.moveTo]

theorem deadlocked_step_iff {move : Move} (hs : ¬Deadlocked s) (hstep : s.step move = some s') :
    ¬Deadlocked s' ↔ Untangled move s := by
  cases move with
  | lock => rw [deadlocked_lock_iff hstep, not_not]
  | fire => rw [deadlocked_fire_iff hs hstep, not_not]
  | register =>
    refine iff_of_true (fun h => hs ?_) trivial
    simp only [State.step, ite_none_right_eq_some, some.injEq] at hstep
    rw [← hstep.2] at h
    exact h.of_setAttachment.of_setCallback fun _ => Callback.noConfusion
  | check => exact iff_of_true (fun h => hs (deadlocked_of_check hstep h)) trivial
  | attach => exact iff_of_true (fun h => hs (deadlocked_of_attach hstep h)) trivial
  | start =>
    refine iff_of_true (Deadlocked.of_owner_none ?_) trivial
    simp only [State.step, ite_none_right_eq_some, map_eq_some_iff] at hstep
    obtain ⟨howner, r, _, rfl⟩ := hstep
    exact howner
  | close =>
    refine iff_of_true (Deadlocked.of_owner_none ?_) trivial
    simp only [State.step, ite_none_right_eq_some, some.injEq] at hstep
    rw [← hstep.2]; exact hstep.1
  | call =>
    refine iff_of_true (fun h => hs ?_) trivial
    simp only [State.step, ite_none_right_eq_some, some.injEq] at hstep
    rw [← hstep.2] at h; exact h.of_moveTo_idle rfl
  | commit => exact iff_of_true (Deadlocked.of_owner_none (owner_of_commit hstep)) trivial
  | stop thread token reason =>
    refine iff_of_true (fun h => hs ?_) trivial
    simp only [State.step, ite_none_right_eq_some, some.injEq] at hstep
    rw [← hstep.2] at h
    have hmoved : Deadlocked (s.moveTo thread (.cancelling token reason)) := h
    exact hmoved.of_moveTo_idle rfl
  | publish =>
    refine iff_of_true (Deadlocked.of_owner_none ?_) trivial
    simp only [State.step] at hstep
    split at hstep
    · simp only [ite_none_right_eq_some, some.injEq] at hstep
      rw [← hstep.2]; exact hstep.1
    · cases hstep
  | endCallback =>
    exact iff_of_true (fun h => hs (deadlocked_of_endCallback hstep h)) trivial
  | endStop =>
    refine iff_of_true (fun h => hs ?_) trivial
    simp only [State.step] at hstep
    split at hstep
    · rw [← some.inj hstep] at h; exact h.of_moveTo_idle rfl
    · cases hstep

/-! ## 4. Runs -/

/-- A run is free of the deadlock all along just if each of its moves is untangled. -/
theorem deadlock_free_iff_untangled {moves : List Move} {s : State} (hrun : run moves = some s) :
    (∀ taken rest middle, moves = taken ++ rest → run taken = some middle → ¬Deadlocked middle) ↔
      Interleaving.Obeys State.step Untangled moves {} :=
  (Interleaving.obeys_iff_forall deadlocked_step_iff (Deadlocked.of_owner_none rfl) hrun).symm

/-- A task whose token is cancelled while it runs: the callback has its turn before the task ends. -/
def callbackFirst : List Move :=
  [.register 0 5, .check 0, .attach 0, .start 0, .call 1 (.finish .completed (.ok ())) 0,
    .stop 2 5 (lit "stop"), .fire 2 0, .lock 2, .commit 2, .endCallback 2, .endStop 2, .lock 1,
    .commit 1]

theorem callbackFirst_deadlock_free :
    ∃ s, run callbackFirst = some s ∧ (s.record 0).state = .completed ∧
      ∀ taken rest middle, callbackFirst = taken ++ rest → run taken = some middle →
        ¬Deadlocked middle := by
  have hrun : ∃ s, run callbackFirst = some s ∧ (s.record 0).state = .completed := ⟨_, rfl, rfl⟩
  obtain ⟨s, hrun, hstate⟩ := hrun
  exact ⟨s, hrun, hstate, (deadlock_free_iff_untangled hrun).mpr (by decide +kernel)⟩

/-- The callback begins while `finishTask` is in its critical section. -/
def callbackDuringFinish : List Move :=
  [.register 0 5, .check 0, .attach 0, .start 0, .call 1 (.finish .completed (.ok ())) 0, .lock 1,
    .stop 2 5 (lit "stop"), .fire 2 0]

/-- Thread 1 has the mutexes and waits for the callback on thread 2, which waits for the mutexes:
    neither can go on. -/
theorem deadlocked_callbackDuringFinish :
    ∃ s, run callbackDuringFinish = some s ∧ Deadlocked s ∧ s.commit 1 = none ∧ s.lock 2 = none := by
  have hrun : ∃ s, run callbackDuringFinish = some s ∧ s.owner = some 1 ∧
      ends s 0 (s.critical 1) = true ∧ callbackInTheWay s 1 0 = true ∧ s.commit 1 = none ∧
      s.lock 2 = none := ⟨_, rfl, rfl, rfl, rfl, rfl, rfl⟩
  obtain ⟨s, hrun, howner, hends, hway, hcommit, hlock⟩ := hrun
  exact ⟨s, hrun, ⟨1, 0, howner, hends, hway⟩, hcommit, hlock⟩

end Deadlock

end Scheduler

end LangGraph
