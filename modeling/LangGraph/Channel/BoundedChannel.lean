import LangGraph.Channel.Types

/-!
# The bounded channel

A FIFO queue behind a mutex.  `send` waits while the queue is full, `receive` while it is empty, and
`close` lets both go on.  The data carry two histories that the code does not have: which calls
pushed which values, and which calls took which values, in the order in which they did.
-/

namespace LangGraph

namespace BoundedChannel

open Channel Monitor List Function Interleaving

variable {α : Type}

/-! ## 1. The channel -/

inductive Stage (α : Type) where
  /-- `send` and `sendFor`. -/
  | send (value : α) (patience : Patience) (token : Option Token)
  | trySend (value : α)
  /-- `receive` and `receiveFor`. -/
  | receive (patience : Patience) (token : Option Token)
  | tryReceive
  | close
deriving DecidableEq

/-- A timed operation does not wait if its timeout is not positive. -/
def patienceFor (timeout : Int) : Patience :=
  if timeout ≤ 0 then .instant else .timed

def send (value : α) (token : Option Token) : Stage α := .send value .untimed token

def sendFor (value : α) (timeout : Int) (token : Option Token) : Stage α :=
  .send value (patienceFor timeout) token

def receive (token : Option Token) : Stage α := .receive .untimed token

def receiveFor (timeout : Int) (token : Option Token) : Stage α :=
  .receive (patienceFor timeout) token

structure Data (α : Type) where
  queue : List α := []
  closed : Bool := false
  pushed : List (Call × α) := []
  popped : List (Call × α) := []

def pushUnlocked (capacity : Nat) (call : Call) (value : α) (d : Data α) :
    Exit (Data α) Condition (Answer α) :=
  if d.closed then { data := d, result := sendRejected }
  else if capacity ≤ d.queue.length then
    { data := d, result := .sent (.error (.resourceExhausted (lit "channel is full"))) }
  else
    { data := { d with queue := d.queue ++ [value], pushed := d.pushed ++ [(call, value)] }
      wakes := [.one .notEmpty]
      result := .sent (.ok ()) }

def popUnlocked (call : Call) (d : Data α) : Exit (Data α) Condition (Answer α) :=
  match d.queue with
  | [] =>
    { data := d
      result := .received
        (if d.closed then .ok none else .error (.unavailable (lit "channel is empty"))) }
  | value :: rest =>
    { data := { d with queue := rest, popped := d.popped ++ [(call, value)] }
      wakes := [.one .notFull]
      result := .received (.ok (some value)) }

def closeUnlocked (d : Data α) : Exit (Data α) Condition (Answer α) :=
  { data := { d with closed := true }, late := [.notEmpty, .notFull], result := .closed }

namespace Stage

def token : Stage α → Option Token
  | .send _ _ token | .receive _ token => token
  | _ => none

def patience : Stage α → Patience
  | .send _ patience _ | .receive patience _ => patience
  | _ => .instant

def condition : Stage α → Condition
  | .send _ _ _ | .trySend _ => .notFull
  | _ => .notEmpty

def ready (capacity : Nat) : Stage α → Data α → Bool
  | .send _ _ _, d => d.closed || decide (d.queue.length < capacity)
  | .receive _ _, d => d.closed || !d.queue.isEmpty
  | _, _ => true

def act (capacity : Nat) (stage : Stage α) (call : Call) (d : Data α) :
    Exit (Data α) Condition (Answer α) :=
  match stage with
  | .send value _ _ | .trySend value => pushUnlocked capacity call value d
  | .receive _ _ | .tryReceive => popUnlocked call d
  | .close => closeUnlocked d

def cancelled : Stage α → Bytes → Answer α
  | .send _ _ _, reason | .trySend _, reason => sendCancelled reason
  | _, reason => receiveCancelled reason

def timedOut : Stage α → Answer α
  | .send _ _ _ | .trySend _ => sendTimedOut
  | _ => receiveTimedOut

def value : Stage α → Option α
  | .send value _ _ | .trySend value => some value
  | _ => none

end Stage

def spec (α : Type) (capacity : Nat) :
    Spec Call Condition (Data α) (Stage α) (Answer α) Token Bytes where
  initial _ := true
  token := Stage.token
  patience := Stage.patience
  cv := Stage.condition
  ready := Stage.ready capacity
  act stage call d := .finish (stage.act capacity call d)
  abandon stage reason _ d := { data := d, result := stage.cancelled reason }
  expire stage _ d := { data := d, result := stage.timedOut }
  refuse := Stage.cancelled
  alarm := notifyBlockedOperations

abbrev State (α : Type) := Monitor.State Call Condition (Data α) (Stage α) (Answer α) Token Bytes

abbrev Move (α : Type) := Monitor.Move Call (Stage α) Token Bytes

def start : State α := { data := {} }

def run (capacity : Nat) (moves : List (Move α)) : Option (State α) :=
  Interleaving.run (Monitor.State.step (spec α capacity)) moves start

/-! ## 2. What one operation does -/

/-- What an operation that takes its turn does to the queue and the histories, and what it
    answers. -/
inductive Act (capacity : Nat) (call : Call) (stage : Stage α) (d : Data α) :
    Data α → Answer α → Prop where
  | push {value : α} (value_eq : stage.value = some value) (running : d.closed = false)
      (room : d.queue.length < capacity) :
      Act capacity call stage d
        { d with queue := d.queue ++ [value], pushed := d.pushed ++ [(call, value)] }
        (.sent (.ok ()))
  | pop {value : α} {rest : List α} (queue_eq : d.queue = value :: rest) :
      Act capacity call stage d
        { d with queue := rest, popped := d.popped ++ [(call, value)] }
        (.received (.ok (some value)))
  | drained (closed : d.closed = true) (empty : d.queue = []) :
      Act capacity call stage d d (.received (.ok none))
  | close : Act capacity call stage d { d with closed := true } .closed
  | sendError {status : Status} : Act capacity call stage d d (.sent (.error status))
  | receiveError {status : Status} : Act capacity call stage d d (.received (.error status))

section

variable (capacity : Nat) (call : Call) (stage : Stage α) (d : Data α)

include capacity call stage d

theorem act_of_act :
    Act capacity call stage d (stage.act capacity call d).data
      (stage.act capacity call d).result := by
  have hpush : ∀ value, stage.value = some value →
      Act capacity call stage d (pushUnlocked capacity call value d).data
        (pushUnlocked capacity call value d).result := by
    intro value hvalue
    unfold pushUnlocked
    split_ifs with hclosed hfull
    · exact .sendError
    · exact .sendError
    · exact .push hvalue (by simpa using hclosed) (Nat.lt_of_not_le hfull)
  have hpop : Act capacity call stage d (popUnlocked call d).data
      (popUnlocked call d).result := by
    unfold popUnlocked
    split
    · rename_i hqueue
      cases hclosed : d.closed with
      | true => exact .drained hclosed hqueue
      | false => exact .receiveError
    · rename_i value rest hqueue
      exact .pop hqueue
  cases stage with
  | send value | trySend value => exact hpush value rfl
  | receive | tryReceive => exact hpop
  | close => exact .close

theorem act_of_cancelled (reason : Bytes) :
    Act capacity call stage d d (stage.cancelled reason) := by
  cases stage with
  | send | trySend => exact .sendError
  | receive | tryReceive | close => exact .receiveError

theorem act_of_timedOut : Act capacity call stage d d stage.timedOut := by
  cases stage with
  | send | trySend => exact .sendError
  | receive | tryReceive | close => exact .receiveError

end

variable {capacity : Nat} {moves : List (Move α)} {s : State α}

theorem act_of_deed {call : Call} {stage : Stage α} {d d' : Data α} {turn : Turn Bytes}
    {next : Progress (Stage α) (Answer α)} (h : Deed (spec α capacity) call stage d turn d' next) :
    ∃ answer, next = .over stage answer ∧ Act capacity call stage d d' answer := by
  cases h with
  | refuse reason | abandon reason => exact ⟨_, rfl, act_of_cancelled capacity call stage d reason⟩
  | finish ready act_eq =>
    rw [← Outcome.finish.inj act_eq]
    exact ⟨_, rfl, act_of_act capacity call stage d⟩
  | next ready act_eq => cases act_eq
  | expire => exact ⟨_, rfl, act_of_timedOut capacity call stage d⟩

/-! ## 3. Nothing is lost, doubled or reordered -/

/-- The histories and the queue of a channel agree with what the calls were told. -/
structure Faithful (capacity : Nat) (d : Data α)
    (progress : Call → Progress (Stage α) (Answer α)) : Prop where
  order : d.pushed.map Prod.snd = d.popped.map Prod.snd ++ d.queue
  bound : d.queue.length ≤ capacity
  once : (d.pushed.map Prod.fst).Nodup
  sent : ∀ call value, (call, value) ∈ d.pushed ↔
    ∃ stage, progress call = .over stage (.sent (.ok ())) ∧ stage.value = some value
  received : ∀ call value, (call, value) ∈ d.popped ↔
    ∃ stage, progress call = .over stage (.received (.ok (some value)))
  drained : ∀ call stage, progress call = .over stage (.received (.ok none)) →
    d.closed = true ∧ d.queue = []

theorem faithful_start (capacity : Nat) :
    Faithful capacity ({} : Data α) fun _ => .idle where
  order := rfl
  bound := Nat.zero_le _
  once := nodup_nil
  sent call value := by simp
  received call value := by simp
  drained call stage h := by cases h

def WasSent (progress : Progress (Stage α) (Answer α)) (value : α) : Prop :=
  ∃ stage, progress = .over stage (.sent (.ok ())) ∧ stage.value = some value

def WasReceived (progress : Progress (Stage α) (Answer α)) (value : α) : Prop :=
  ∃ stage, progress = .over stage (.received (.ok (some value)))

section History

variable {β : Type} (told : β → α → Prop) {history : List (Call × α)} {progress : Call → β}
  {call : Call} {next : β} (h : ∀ call value, (call, value) ∈ history ↔ told (progress call) value)
  (hcall : ∀ value, ¬ told (progress call) value)

include h hcall

theorem history_same (hnext : ∀ value, ¬ told next value) (other : Call) (value : α) :
    (other, value) ∈ history ↔ told (Function.update progress call next other) value := by
  rw [h other value]
  by_cases hother : other = call
  · subst hother
    rw [update_self]; exact iff_of_false (hcall value) (hnext value)
  · rw [update_of_ne hother]

theorem history_longer {added : α} (hnext : ∀ value, told next value ↔ value = added)
    (other : Call) (value : α) :
    (other, value) ∈ history ++ [(call, added)] ↔
      told (Function.update progress call next other) value := by
  rw [mem_append, h other value, mem_singleton, Prod.mk.injEq]
  by_cases hother : other = call
  · subst hother
    rw [update_self, hnext]; simp [hcall value]
  · rw [update_of_ne hother]; simp [hother]

end History

section Step

variable {capacity : Nat} {d : Data α} {progress : Call → Progress (Stage α) (Answer α)}
  {call : Call} {stage : Stage α} (h : Faithful capacity d progress)
  (hcall : ∀ stage answer, progress call ≠ .over stage answer)

include hcall in
theorem not_wasSent (value : α) : ¬ WasSent (progress call) value :=
  fun ⟨_, hover, _⟩ => hcall _ _ hover

include hcall in
theorem not_wasReceived (value : α) : ¬ WasReceived (progress call) value :=
  fun ⟨_, hover⟩ => hcall _ _ hover

include h hcall

theorem Faithful.update {next : Progress (Stage α) (Answer α)} {closed : Bool}
    (hclosed : d.closed = true → closed = true)
    (hsent : ∀ stage, next ≠ .over stage (.sent (.ok ())))
    (hreceived : ∀ stage value, next ≠ .over stage (.received (.ok (some value))))
    (hdrained : ∀ stage, next = .over stage (.received (.ok none)) → closed = true ∧ d.queue = []) :
    Faithful capacity { d with closed := closed } (Function.update progress call next) where
  __ := h
  sent := history_same WasSent h.sent (not_wasSent hcall) fun _ ⟨stage, hnext, _⟩ =>
    hsent stage hnext
  received := history_same WasReceived h.received (not_wasReceived hcall) fun value ⟨stage, hnext⟩ =>
    hreceived stage value hnext
  drained other stage hother := by
    by_cases hsame : other = call
    · subst hsame
      rw [update_self] at hother; exact hdrained stage hother
    · rw [update_of_ne hsame] at hother
      obtain ⟨hclosed', hempty⟩ := h.drained other stage hother
      exact ⟨hclosed hclosed', hempty⟩

theorem Faithful.push {value : α} (hvalue : stage.value = some value)
    (hrunning : d.closed = false) (hroom : d.queue.length < capacity) :
    Faithful capacity
      { d with queue := d.queue ++ [value], pushed := d.pushed ++ [(call, value)] }
      (Function.update progress call (.over stage (.sent (.ok ())))) where
  order := by
    simp only [map_append, map_cons, map_nil, h.order, append_assoc]
  bound := by
    rw [length_append]; exact hroom
  once := by
    rw [map_append, nodup_append]
    refine ⟨h.once, by simp, ?_⟩
    intro other hother called hcalled hsame
    obtain ⟨⟨_, sent⟩, hmem, rfl⟩ := mem_map.mp hother
    have hcall' : called = call := by simpa using hcalled
    subst hcall' hsame; exact not_wasSent hcall sent ((h.sent _ _).mp hmem)
  sent := by
    refine history_longer WasSent h.sent (not_wasSent hcall) fun sent => ⟨?_, ?_⟩
    · rintro ⟨_, hover, hsent⟩
      cases hover
      rw [hvalue] at hsent; exact (Option.some.inj hsent).symm
    · rintro rfl; exact ⟨stage, rfl, hvalue⟩
  received := history_same WasReceived h.received (not_wasReceived hcall) nofun
  drained other stage' hother := by
    by_cases hsame : other = call
    · subst hsame
      rw [update_self] at hother; cases hother
    · -- nobody has been told that a channel that takes values is drained
      rw [update_of_ne hsame] at hother
      rw [(h.drained other stage' hother).1] at hrunning; cases hrunning

theorem Faithful.pop {value : α} {rest : List α} (hqueue : d.queue = value :: rest) :
    Faithful capacity { d with queue := rest, popped := d.popped ++ [(call, value)] }
      (Function.update progress call (.over stage (.received (.ok (some value))))) where
  order := by
    have horder := h.order
    rw [hqueue] at horder
    simp only [map_append, map_cons, map_nil, horder, append_assoc, cons_append, nil_append]
  bound := by
    have hbound := h.bound
    rw [hqueue, length_cons] at hbound; exact Nat.le_of_succ_le hbound
  once := h.once
  sent := history_same WasSent h.sent (not_wasSent hcall) nofun
  received := by
    refine history_longer WasReceived h.received (not_wasReceived hcall) fun value' => ⟨?_, ?_⟩
    · rintro ⟨_, hover⟩; cases hover; rfl
    · rintro rfl; exact ⟨stage, rfl⟩
  drained other stage' hother := by
    by_cases hsame : other = call
    · subst hsame
      rw [update_self] at hother; cases hother
    · rw [update_of_ne hsame] at hother
      rw [(h.drained other stage' hother).2] at hqueue; cases hqueue

omit hcall in
theorem Faithful.act (hstage : progress call = .at stage)
    {d' : Data α} {answer : Answer α} (hact : Act capacity call stage d d' answer) :
    Faithful capacity d' (Function.update progress call (.over stage answer)) := by
  have hcall : ∀ stage answer, progress call ≠ .over stage answer := by
    intro _ _ hover
    rw [hstage] at hover; cases hover
  cases hact with
  | push value_eq running room => exact h.push hcall value_eq running room
  | pop queue_eq => exact h.pop hcall queue_eq
  | drained closed empty =>
    exact h.update hcall id nofun nofun fun _ _ => ⟨closed, empty⟩
  | close => exact h.update hcall (fun _ => rfl) nofun nofun nofun
  | sendError | receiveError => exact h.update hcall id nofun nofun nofun

end Step

theorem run_invariant {capacity : Nat} {I : Data α → (Call → Progress (Stage α) (Answer α)) → Prop}
    (hbegin : ∀ {d progress call stage}, I d progress → progress call = .idle →
      I d (Function.update progress call (.at stage)))
    (hact : ∀ {d progress call stage d' answer}, I d progress → progress call = .at stage →
      Act capacity call stage d d' answer → I d' (Function.update progress call (.over stage answer)))
    {moves : List (Move α)} {s s' : State α} (hexclusive : Exclusive (spec α capacity) s)
    (hs : I s.data s.progress)
    (hrun : Interleaving.run (Monitor.State.step (spec α capacity)) moves s = some s') :
    I s'.data s'.progress := by
  have hobeys : Obeys (Monitor.State.step (spec α capacity))
      (Permitted (spec α capacity) fun _ _ _ _ => True) moves s :=
    obeys_of_forall
      (fun move _ => permitted_of_forall (fun _ _ _ _ => trivial) move) moves s
  refine serial_invariant (fun h hidle _ => hbegin h hidle) ?_ hobeys hexclusive hs hrun
  intro d progress call stage turn d' next h hstage _ hdeed
  obtain ⟨answer, rfl, hacted⟩ := act_of_deed hdeed
  exact hact h hstage hacted

theorem Faithful.run (hrun : run capacity moves = some s) :
    Faithful capacity s.data s.progress := by
  refine run_invariant (fun h hidle => ?_)
    (fun h hstage hact => h.act hstage hact) (exclusive_start _) (faithful_start capacity) hrun
  refine h.update (fun _ _ hover => ?_) id nofun nofun nofun
  rw [hidle] at hover; cases hover

/-! ## 4. Delivery -/

theorem pushed_of_closed {s' : State α} (hexclusive : Exclusive (spec α capacity) s)
    (hclosed : s.data.closed = true)
    (hrun : Interleaving.run (Monitor.State.step (spec α capacity)) moves s = some s') :
    s'.data.pushed = s.data.pushed := by
  have hboth : s'.data.closed = true ∧ s'.data.pushed = s.data.pushed := by
    refine run_invariant
      (I := fun d (_ : Call → Progress (Stage α) (Answer α)) =>
        d.closed = true ∧ d.pushed = s.data.pushed)
      (fun h _ => h) ?_ hexclusive ⟨hclosed, rfl⟩ hrun
    intro d progress call stage d' answer h _ hact
    cases hact with
    | push value_eq running =>
      rw [h.1] at running; cases running
    | pop | drained | sendError | receiveError => exact h
    | close => exact ⟨rfl, h.2⟩
  exact hboth.2

theorem exists_drain (hbooked : Unbooked s) (hfree : s.owner = none)
    (hclosed : s.data.closed = true) {readers : List Call} (hnodup : readers.Nodup)
    (hidle : ∀ call ∈ readers, s.point call = .idle)
    (hlength : readers.length = s.data.queue.length) :
    ∃ moves s', Interleaving.run (Monitor.State.step (spec α capacity)) moves s = some s' ∧
      s'.data.queue = [] ∧ s'.data.popped = s.data.popped ++ readers.zip s.data.queue := by
  induction readers generalizing s with
  | nil =>
    have hempty : s.data.queue = [] := eq_nil_of_length_eq_zero hlength.symm
    exact ⟨[], s, rfl, hempty, by simp⟩
  | cons reader readers ih =>
    cases hqueue : s.data.queue with
    | nil =>
      rw [hqueue] at hlength; cases hlength
    | cons value rest =>
      -- the first reader takes the first value on its own
      have hact : (spec α capacity).act (receive none) reader s.data = .finish
          { data := { s.data with queue := rest, popped := s.data.popped ++ [(reader, value)] }
            wakes := [.one .notFull]
            result := .received (.ok (some value)) } := by
        change Outcome.finish (popUnlocked reader s.data) = _
        rw [popUnlocked, hqueue]
      have hready : (spec α capacity).ready (receive none) s.data = true := by
        change (s.data.closed || _) = true
        rw [hclosed]; rfl
      obtain ⟨first, middle, hfirst, hdata, howner, hpoint⟩ := exists_solo_run hbooked
        (hidle reader mem_cons_self) hfree rfl rfl hready hact rfl
      obtain ⟨hreader, hnodup⟩ := nodup_cons.mp hnodup
      have hbooked' : Unbooked middle :=
        invariant (P := Unbooked) (fun h hstep => h.step hstep) hbooked hfirst
      obtain ⟨moves, s', hrest, hdrained, hpopped⟩ := ih hbooked' howner
        (by rw [hdata]; exact hclosed) hnodup
        (fun call hcall => by
          have hne : call ≠ reader := by rintro rfl; exact hreader hcall
          rw [hpoint, update_of_ne hne]
          exact hidle call (mem_cons_of_mem _ hcall))
        (by
          rw [hdata]
          rw [hqueue] at hlength
          exact Nat.succ.inj hlength)
      refine ⟨first ++ moves, s', (run_append hfirst).trans hrest, hdrained, ?_⟩
      rw [hpopped, hdata, zip_cons_cons, append_assoc]; rfl

/-- What a channel of this capacity owes its users in a state. -/
structure Delivers (capacity : Nat) (s : State α) : Prop where
  /-- The values received are the first of the values accepted, the queue holds the others. -/
  order : s.data.pushed.map Prod.snd = s.data.popped.map Prod.snd ++ s.data.queue
  received_prefix_sent : s.data.popped.map Prod.snd <+: s.data.pushed.map Prod.snd
  /-- The values accepted are those of the sends that return OK, each of them once. -/
  sent : ∀ call value, (call, value) ∈ s.data.pushed ↔
    ∃ stage, s.progress call = .over stage (.sent (.ok ())) ∧ stage.value = some value
  sent_once : (s.data.pushed.map Prod.fst).Nodup
  /-- The values received are those the receives return. -/
  received : ∀ call value, (call, value) ∈ s.data.popped ↔
    ∃ stage, s.progress call = .over stage (.received (.ok (some value)))
  bound : s.data.queue.length ≤ capacity
  rejected : ∀ call stage status, s.progress call = .over stage (.sent (.error status)) →
    ∀ value, (call, value) ∉ s.data.pushed
  /-- Nobody is told that the channel is drained while a value is undelivered. -/
  drained : ∀ call stage, s.progress call = .over stage (.received (.ok none)) →
    s.data.popped.map Prod.snd = s.data.pushed.map Prod.snd
  /-- After `close` nothing is accepted and nothing that was accepted is given up. -/
  closed_keeps : s.data.closed = true → ∀ moves s',
    Interleaving.run (Monitor.State.step (spec α capacity)) moves s = some s' →
    s'.data.popped.map Prod.snd ++ s'.data.queue = s.data.pushed.map Prod.snd
  closed_drains : s.data.closed = true → s.owner = none → ∀ readers : List Call,
    readers.Nodup → (∀ call ∈ readers, s.point call = .idle) →
    readers.length = s.data.queue.length →
    ∃ moves s', Interleaving.run (Monitor.State.step (spec α capacity)) moves s = some s' ∧
      s'.data.queue = [] ∧ s'.data.popped = s.data.popped ++ readers.zip s.data.queue

/-- In every interleaving of its operations a bounded channel delivers what it accepts. -/
theorem delivers (capacity : Nat) (moves : List (Move α)) (s : State α)
    (hrun : run capacity moves = some s) : Delivers capacity s := by
  have hfaithful := Faithful.run hrun
  have hexclusive : Exclusive (spec α capacity) s :=
    invariant (P := Exclusive (spec α capacity)) (fun h hstep => h.step hstep)
      (exclusive_start _) hrun
  have hbooked : Unbooked s :=
    invariant (P := Unbooked) (fun h hstep => h.step hstep) (unbooked_start _) hrun
  refine ⟨hfaithful.order, ⟨s.data.queue, hfaithful.order.symm⟩, hfaithful.sent, hfaithful.once,
    hfaithful.received, hfaithful.bound, ?_, ?_, ?_, ?_⟩
  · intro call stage status hover value hmem
    obtain ⟨stage', hover', -⟩ := (hfaithful.sent call value).mp hmem
    rw [hover] at hover'; cases hover'
  · intro call stage hover
    rw [hfaithful.order, (hfaithful.drained call stage hover).2, append_nil]
  · intro hclosed more s' hmore
    have hfaithful' : Faithful capacity s'.data s'.progress :=
      Faithful.run ((run_append hrun).trans hmore)
    rw [← hfaithful'.order, pushed_of_closed hexclusive hclosed hmore]
  · intro hclosed hfree readers hnodup hidle hlength
    exact exists_drain hbooked hfree hclosed hnodup hidle hlength

/-- Two sends and a receive, with the channel closed in between. -/
def closedWithOneValue : List (Move Nat) :=
  [.call 0 (send 7 none), .step 0 [], .step 0 [], .step 0 [], .step 0 [], .step 0 [],
    .call 1 .close, .step 1 [], .step 1 [], .step 1 [], .step 1 [], .step 1 [],
    .call 2 (sendFor 8 0 none), .step 2 [], .step 2 [], .step 2 [], .step 2 [], .step 2 []]

theorem delivers_closedWithOneValue :
    ∃ s, run 1 closedWithOneValue = some s ∧ s.data.closed = true ∧ s.data.queue = [7] ∧
      Delivers 1 s := by
  have hrun : ∃ s, run 1 closedWithOneValue = some s ∧ s.data.closed = true ∧
      s.data.queue = [7] := ⟨_, rfl, rfl, rfl⟩
  obtain ⟨s, hs, hclosed, hqueue⟩ := hrun
  exact ⟨s, hs, hclosed, hqueue, delivers 1 closedWithOneValue s hs⟩

end BoundedChannel

end LangGraph
