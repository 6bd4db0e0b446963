import LangGraph.Lib.Interleaving

/-!
# Operations that wait under a mutex

A monitor is data behind one mutex, with condition variables.  An operation takes the mutex, waits
on a condition variable until its predicate holds, a deadline passes or its stop token is stopped,
and then acts on the data.  It registers a callback at the token before it takes the mutex and
gives it up after it has released the mutex.

The model follows the standard semantics.  A wait looks at its predicate with the mutex held and
gives the mutex up when it falls asleep.  A thread may wake up without a notification.
`notify_one` wakes any one of the sleepers, so the move that makes it names the thread.  Stopping a
token sets its flag first and then runs the callbacks, none of it under the mutex; the destructor of
a registration waits for its callback if another thread is running it.
-/

namespace Monitor

/-! ## 1. Operations -/

/-- How long an operation waits: for ever, until a deadline, or not at all. -/
inductive Patience where
  | untimed
  | timed
  | instant
deriving DecidableEq

inductive Wake (κ : Type) where
  | one (cv : κ)
  | all (cv : κ)
deriving DecidableEq

/-- What an operation leaves behind when it releases the mutex: the data, the notifications made
    with the mutex held, those that follow without it, and its result. -/
structure Exit (δ κ ρ : Type) where
  data : δ
  wakes : List (Wake κ) := []
  late : List κ := []
  result : ρ

/-- An operation comes to its end or waits once more, with the mutex still held. -/
inductive Outcome (δ κ γ ρ : Type) where
  | finish (exit : Exit δ κ ρ)
  | next (data : δ) (wakes : List (Wake κ)) (stage : γ)

/-- The operations of a monitor.  Threads are named by `τ`, condition variables by `κ`, stop tokens
    by `ι`, the reasons for stopping by `χ`; a stage of type `γ` is an operation up to a wait. -/
structure Spec (τ κ δ γ ρ ι χ : Type) where
  /-- The stages at which a call can begin. -/
  initial : γ → Bool
  token : γ → Option ι
  patience : γ → Patience
  cv : γ → κ
  /-- The predicate of the wait, apart from the stop token. -/
  ready : γ → δ → Bool
  /-- Behind the wait. -/
  act : γ → τ → δ → Outcome δ κ γ ρ
  /-- Behind the wait, with the token stopped. -/
  abandon : γ → χ → τ → δ → Exit δ κ ρ
  /-- The deadline passed. -/
  expire : γ → τ → δ → Exit δ κ ρ
  /-- The token is stopped before anything else. -/
  refuse : γ → χ → ρ
  /-- What the callback notifies, in this order. -/
  alarm : List κ

/-! ## 2. Threads -/

inductive Point (κ γ ρ : Type) where
  | idle
  /-- At the first look at the token. -/
  | checking (stage : γ)
  | registering (stage : γ)
  /-- The callback is registered; the token is looked at once more. -/
  | confirming (stage : γ)
  | registered (stage : γ)
  /-- With the mutex, at the predicate. -/
  | testing (stage : γ)
  /-- With the mutex, on the way to sleep: the predicate was false. -/
  | falling (stage : γ)
  /-- In the wait, without the mutex; asleep as long as the condition variable has the thread. -/
  | waiting (stage : γ)
  /-- The deadline passed in the wait. -/
  | overdue (stage : γ)
  | lastLook (stage : γ)
  /-- With the mutex, behind the wait. -/
  | deciding (stage : γ)
  /-- The mutex is released. -/
  | leaving (stage : γ) (late : List κ) (result : ρ)
  | done (stage : γ) (result : ρ)

inductive Callback (κ ι : Type) where
  | absent
  | registered (token : ι)
  /-- `inline` if the thread of the call runs it itself. -/
  | running (inline : Bool) (rest : List κ)
  | ran

def Callback.isRunning {κ ι : Type} : Callback κ ι → Bool
  | .running _ _ => true
  | _ => false

structure State (τ κ δ γ ρ ι χ : Type) where
  data : δ
  owner : Option τ := none
  sleepers : κ → List τ := fun _ => []
  point : τ → Point κ γ ρ := fun _ => .idle
  /-- The reason a token was stopped with. -/
  stopped : ι → Option χ := fun _ => none
  callback : τ → Callback κ ι := fun _ => .absent

inductive Move (τ γ ι χ : Type) where
  | call (thread : τ) (stage : γ)
  /-- The thread goes on; its `notify_one`s wake `chosen`, one after the other. -/
  | step (thread : τ) (chosen : List τ)
  /-- The thread wakes up without a notification. -/
  | rouse (thread : τ)
  /-- The deadline of its wait passes. -/
  | lapse (thread : τ)
  | stop (token : ι) (reason : χ)
  /-- The stopping thread begins with the callback of this call. -/
  | fire (thread : τ)
  /-- The callback of this call goes on. -/
  | alarm (thread : τ)

/-! ## 3. Moves -/

section Moves

variable {τ κ δ γ ρ ι χ : Type} [DecidableEq τ] [DecidableEq κ] [DecidableEq ι]

/-- The sleepers after some notifications.  A `notify_one` on a condition variable without sleepers
    does nothing; otherwise it wakes the next chosen thread. -/
def wakeUp : List (Wake κ) → List τ → (κ → List τ) → Option (κ → List τ)
  | [], _, sleepers => some sleepers
  | .all cv :: wakes, chosen, sleepers =>
    wakeUp wakes chosen (Function.update sleepers cv [])
  | .one cv :: wakes, chosen, sleepers =>
    if sleepers cv = [] then wakeUp wakes chosen sleepers
    else match chosen with
      | [] => none
      | thread :: chosen =>
        if thread ∈ sleepers cv then
          wakeUp wakes chosen (Function.update sleepers cv ((sleepers cv).erase thread))
        else none

namespace State

/-- The reason for which the token of a stage is stopped. -/
def stopReason (spec : Spec τ κ δ γ ρ ι χ) (s : State τ κ δ γ ρ ι χ) (stage : γ) : Option χ :=
  (spec.token stage).bind s.stopped

def moveTo (thread : τ) (point : Point κ γ ρ) (s : State τ κ δ γ ρ ι χ) :
    State τ κ δ γ ρ ι χ :=
  { s with point := Function.update s.point thread point }

def lock (thread : τ) (point : Point κ γ ρ) (s : State τ κ δ γ ρ ι χ) :
    Option (State τ κ δ γ ρ ι χ) :=
  match s.owner with
  | none => some { s.moveTo thread point with owner := some thread }
  | some _ => none

def setCallback (thread : τ) (callback : Callback κ ι) (s : State τ κ δ γ ρ ι χ) :
    State τ κ δ γ ρ ι χ :=
  { s with callback := Function.update s.callback thread callback }

def notifyAll (cv : κ) (s : State τ κ δ γ ρ ι χ) : State τ κ δ γ ρ ι χ :=
  { s with sleepers := Function.update s.sleepers cv [] }

def leave (thread : τ) (chosen : List τ) (stage : γ) (exit : Exit δ κ ρ)
    (s : State τ κ δ γ ρ ι χ) : Option (State τ κ δ γ ρ ι χ) :=
  (wakeUp exit.wakes chosen s.sleepers).map fun sleepers =>
    { s.moveTo thread (.leaving stage exit.late exit.result) with
      data := exit.data, sleepers := sleepers, owner := none }

def goOn (thread : τ) (chosen : List τ) (data : δ) (wakes : List (Wake κ)) (stage : γ)
    (s : State τ κ δ γ ρ ι χ) : Option (State τ κ δ γ ρ ι χ) :=
  (wakeUp wakes chosen s.sleepers).map fun sleepers =>
    { s.moveTo thread (.testing stage) with data := data, sleepers := sleepers }

def decide (spec : Spec τ κ δ γ ρ ι χ) (thread : τ) (chosen : List τ) (stage : γ)
    (s : State τ κ δ γ ρ ι χ) : Option (State τ κ δ γ ρ ι χ) :=
  match s.stopReason spec stage with
  | some reason => s.leave thread chosen stage (spec.abandon stage reason thread s.data)
  | none =>
    match spec.act stage thread s.data with
    | .finish exit => s.leave thread chosen stage exit
    | .next data wakes next => s.goOn thread chosen data wakes next

def threadStep (spec : Spec τ κ δ γ ρ ι χ) (thread : τ) (chosen : List τ)
    (s : State τ κ δ γ ρ ι χ) : Option (State τ κ δ γ ρ ι χ) :=
  match s.point thread with
  | .idle => none
  | .checking stage =>
    match s.stopReason spec stage with
    | some reason => some (s.moveTo thread (.done stage (spec.refuse stage reason)))
    | none => some (s.moveTo thread (.registering stage))
  | .registering stage =>
    match spec.token stage with
    | none => some (s.moveTo thread (.registered stage))
    | some token =>
      -- a callback for a token that is stopped already runs at once
      if (s.stopped token).isSome then
        some ((s.setCallback thread (.running true spec.alarm)).moveTo thread (.registered stage))
      else some ((s.setCallback thread (.registered token)).moveTo thread (.confirming stage))
  | .confirming stage =>
    -- a token stopped in between: the registration is withdrawn, after its callback if it runs
    if (s.stopReason spec stage).isNone then some (s.moveTo thread (.registered stage))
    else if (s.callback thread).isRunning then none
    else some ((s.setCallback thread .absent).moveTo thread (.registered stage))
  | .registered stage =>
    match s.callback thread with
    | .running true _ => none
    | _ => s.lock thread (.testing stage)
  | .testing stage =>
    match spec.patience stage with
    | .instant =>
      if spec.ready stage s.data then some (s.moveTo thread (.deciding stage))
      else s.leave thread chosen stage (spec.expire stage thread s.data)
    | _ =>
      if spec.ready stage s.data || (s.stopReason spec stage).isSome then
        some (s.moveTo thread (.deciding stage))
      else some (s.moveTo thread (.falling stage))
  | .falling stage =>
    some { s.moveTo thread (.waiting stage) with
      owner := none
      sleepers := Function.update s.sleepers (spec.cv stage)
        (thread :: s.sleepers (spec.cv stage)) }
  | .waiting stage =>
    if thread ∈ s.sleepers (spec.cv stage) then none else s.lock thread (.testing stage)
  | .overdue stage => s.lock thread (.lastLook stage)
  | .lastLook stage =>
    if spec.ready stage s.data || (s.stopReason spec stage).isSome then
      some (s.moveTo thread (.deciding stage))
    else s.leave thread chosen stage (spec.expire stage thread s.data)
  | .deciding stage => s.decide spec thread chosen stage
  | .leaving stage (cv :: late) result =>
    some ((s.notifyAll cv).moveTo thread (.leaving stage late result))
  | .leaving stage [] result =>
    if (s.callback thread).isRunning then none
    else some ((s.setCallback thread .absent).moveTo thread (.done stage result))
  | .done _ _ => none

def step (spec : Spec τ κ δ γ ρ ι χ) (move : Move τ γ ι χ) (s : State τ κ δ γ ρ ι χ) :
    Option (State τ κ δ γ ρ ι χ) :=
  match move with
  | .call thread stage =>
    match s.point thread with
    | .idle => if spec.initial stage then some (s.moveTo thread (.checking stage)) else none
    | _ => none
  | .step thread chosen => s.threadStep spec thread chosen
  | .rouse thread =>
    match s.point thread with
    | .waiting stage =>
      some { s with
        sleepers := Function.update s.sleepers (spec.cv stage)
          ((s.sleepers (spec.cv stage)).erase thread) }
    | _ => none
  | .lapse thread =>
    match s.point thread with
    | .waiting stage =>
      if spec.patience stage = .timed then
        some { s.moveTo thread (.overdue stage) with
          sleepers := Function.update s.sleepers (spec.cv stage)
            ((s.sleepers (spec.cv stage)).erase thread) }
      else none
    | _ => none
  | .stop token reason =>
    if (s.stopped token).isNone then
      some { s with stopped := Function.update s.stopped token (some reason) }
    else none
  | .fire thread =>
    match s.callback thread with
    | .registered token =>
      if (s.stopped token).isSome then some (s.setCallback thread (.running false spec.alarm))
      else none
    | _ => none
  | .alarm thread =>
    match s.callback thread with
    | .running inline (cv :: rest) =>
      some ((s.notifyAll cv).setCallback thread (.running inline rest))
    -- the end of the callback takes the mutex for a moment
    | .running _ [] => if s.owner.isNone then some (s.setCallback thread .ran) else none
    | _ => none

end State

end Moves

end Monitor
