import LangGraph.Channel.BoundedChannel
import LangGraph.Channel.UnbufferedChannel
import LangGraph.Lib.MonitorFeeding

/-!
# Waiters of the channels

The supply of a bounded channel is what lies in its queue, for the receivers, and the room there,
for the senders; every operation that adds to one of them wakes one thread.  A cancelled operation
may still take a notification with it, and its callback may notify before the operation sleeps.

In an unbuffered channel the same `notify_one` is for the sender whose value was taken and for the
senders that wait for the slot.
-/

namespace LangGraph

open Channel Monitor List

variable {α : Type}

/-! ## 1. The bounded channel -/

namespace BoundedChannel

/-- An operation that is cancelled although it could go on, and whose callback has not notified yet,
    leaves nobody asleep at its condition variable. -/
def Yielding (capacity : Nat) (stage : Stage α) (turn : Turn Bytes) (owes : Bool) (d : Data α)
    (sleepers : Condition → List Call) : Prop :=
  match stage, turn with
  | .send _ _ _, .abandon _ =>
    owes = true → d.queue.length < capacity → sleepers .notFull = []
  | .receive _ _, .abandon _ => owes = true → 0 < d.queue.length → sleepers .notEmpty = []
  | _, _ => True

instance (capacity : Nat) (stage : Stage α) (turn : Turn Bytes) (owes : Bool) (d : Data α)
    (sleepers : Condition → List Call) : Decidable (Yielding capacity stage turn owes d sleepers) :=
  match stage with
  | .send .. | .trySend _ | .receive .. | .tryReceive | .close =>
    match turn with
    | .act | .abandon _ | .expire | .refuse _ => by
      first | exact isTrue trivial | exact instDecidableForall

/-- The moves of a run in which no callback notifies between the test and the sleep of its operation
    and every turn meets `Yielding`. -/
def CarefulRun (capacity : Nat) (moves : List (Move α)) : Prop :=
  Interleaving.Obeys (Monitor.State.step (spec α capacity))
    (Careful (spec α capacity) (Yielding capacity)) moves start

instance (capacity : Nat) (moves : List (Move α)) : Decidable (CarefulRun capacity moves) :=
  inferInstanceAs (Decidable (Interleaving.Obeys _ _ _ _))

def supply (capacity : Nat) : Condition → Data α → Nat
  | .notEmpty, d => d.queue.length
  | .notFull, d => capacity - d.queue.length

variable {stage : Stage α} {d : Data α} {capacity consumed : Nat} {call : Call}

theorem ready_iff_supply (capacity : Nat) (hwaits : stage.patience ≠ .instant) :
    stage.ready capacity d = true ↔ d.closed = true ∨ 0 < supply capacity stage.condition d := by
  cases stage with
  | send =>
    simp only [Stage.ready, Stage.condition, supply, Bool.or_eq_true, decide_eq_true_eq,
      Nat.sub_pos_iff_lt]
  | receive =>
    simp only [Stage.ready, Stage.condition, supply, Bool.or_eq_true, Bool.not_eq_true',
      isEmpty_eq_false_iff, length_pos_iff]
  | trySend | tryReceive | close => exact absurd rfl hwaits

theorem supply_push {value : α} (cv : Condition) (hopen : d.closed = false)
    (hconsumed : consumed = 0 ∨ consumed = 1 ∧ cv = .notFull ∧ d.queue.length < capacity) :
    supply capacity cv (pushUnlocked capacity call value d).data + consumed ≤
      supply capacity cv d + (pushUnlocked capacity call value d).wakes.count (.one cv) := by
  unfold pushUnlocked
  rw [hopen]
  rcases Nat.lt_or_ge d.queue.length capacity with hroom | hfull
  · rw [if_neg Bool.false_ne_true, if_neg (Nat.not_le.mpr hroom)]
    cases cv with
    | notEmpty =>
      have hzero : consumed = 0 := by simpa using hconsumed
      simp [supply, hzero]
    | notFull =>
      simp only [supply, length_append, length_cons]
      omega
  · rw [if_neg Bool.false_ne_true, if_pos hfull]
    simp only [count_nil]; omega

theorem supply_pop (cv : Condition)
    (hconsumed : consumed = 0 ∨ consumed = 1 ∧ cv = .notEmpty ∧ 0 < d.queue.length) :
    supply capacity cv (popUnlocked call d).data + consumed ≤
      supply capacity cv d + (popUnlocked call d).wakes.count (.one cv) := by
  unfold popUnlocked
  split
  · rename_i hempty
    have hzero : consumed = 0 := by simpa [hempty] using hconsumed
    simp [hzero]
  · rename_i value rest hqueue
    cases cv with
    | notEmpty =>
      simp only [supply, hqueue, length_cons]; omega
    | notFull =>
      have hzero : consumed = 0 := by simpa using hconsumed
      simp only [supply, hqueue, length_cons, count_singleton_self]
      omega

theorem writes_cases {d' : Data α} {turn : Turn Bytes} {wakes : List (Wake Condition)}
    {late : List Condition} (h : Writes (spec α capacity) call stage d turn d' wakes late) :
    (turn = .act ∧ d' = (stage.act capacity call d).data ∧
        wakes = (stage.act capacity call d).wakes ∧ late = (stage.act capacity call d).late) ∨
      (turn.isAct = false ∧ d' = d ∧ wakes = []) := by
  cases h with
  | exit exit_eq =>
    cases turn with
    | refuse => cases exit_eq
    | act =>
      cases exit_eq; exact .inl ⟨rfl, rfl, rfl, rfl⟩
    | abandon | expire =>
      cases exit_eq; exact .inr ⟨rfl, rfl, rfl⟩
  | next act_eq => cases act_eq

theorem supply_act (cv : Condition) (hopen : d.closed = false)
    (hready : stage.ready capacity d = true)
    (hstill : (stage.act capacity call d).data.closed = false)
    (hconsumed : consumed = 0 ∨ consumed = 1 ∧ cv = stage.condition ∧ stage.patience ≠ .instant) :
    supply capacity cv (stage.act capacity call d).data + consumed ≤
      supply capacity cv d + (stage.act capacity call d).wakes.count (.one cv) := by
  cases stage with
  | send =>
    refine supply_push cv hopen (hconsumed.imp id fun h => ⟨h.1, h.2.1, ?_⟩)
    simpa [Stage.ready, hopen] using hready
  | trySend => exact supply_push cv hopen (.inl (hconsumed.resolve_right fun h => h.2.2 rfl))
  | receive =>
    refine supply_pop cv (hconsumed.imp id fun h => ⟨h.1, h.2.1, ?_⟩)
    simpa [Stage.ready, hopen, length_pos_iff] using hready
  | tryReceive => exact supply_pop cv (.inl (hconsumed.resolve_right fun h => h.2.2 rfl))
  | close => cases hstill

theorem wakes_act (hwaits : stage.patience ≠ .instant) (hopen : d.closed = false)
    (hready : stage.ready capacity d = true) : (stage.act capacity call d).wakes ≠ [] := by
  cases stage with
  | send =>
    have hroom : d.queue.length < capacity := by simpa [Stage.ready, hopen] using hready
    simp [Stage.act, pushUnlocked, hopen, Nat.not_le.mpr hroom]
  | receive =>
    have hsome : d.queue ≠ [] := by simpa [Stage.ready, hopen] using hready
    obtain ⟨value, rest, hqueue⟩ := exists_cons_of_ne_nil hsome
    simp [Stage.act, popUnlocked, hqueue]
  | trySend | tryReceive | close => exact absurd rfl hwaits

theorem late_of_closed (hopen : d.closed = false)
    (hclosed : (stage.act capacity call d).data.closed = true) (cv : Condition) :
    cv ∈ (stage.act capacity call d).late := by
  have hpush : ∀ value, (pushUnlocked capacity call value d).data.closed = d.closed := by
    intro value
    unfold pushUnlocked
    split_ifs <;> rfl
  have hpop : (popUnlocked call d).data.closed = d.closed := by
    unfold popUnlocked
    split <;> rfl
  cases stage with
  | send | trySend => rw [Stage.act, hpush, hopen] at hclosed; cases hclosed
  | receive | tryReceive => rw [Stage.act, hpop, hopen] at hclosed; cases hclosed
  | close => cases cv <;> simp [Stage.act, closeUnlocked]

def rationing (α : Type) (capacity : Nat) :
    Rationing (spec α capacity) (Yielding capacity) where
  supply := supply capacity
  shut d := d.closed
  counts _ := true
  ready_iff _ _ := ready_iff_supply capacity
  alarm cv := by cases cv <;> simp [spec, notifyBlockedOperations]
  productive _ _ _ _ hwaits hready hopen := wakes_act hwaits hopen hready
  keeps_token h := by cases h
  announces hwrites _ hopen hclosed := by
    rcases writes_cases hwrites with ⟨-, rfl, -, rfl⟩ | ⟨-, rfl, -⟩
    · exact late_of_closed hopen hclosed
    · rw [hopen] at hclosed; cases hclosed
  yields {stage reason d sleepers} hheed _ hwaits hopen hready := by
    cases stage with
    | send => exact hheed rfl (by simpa [spec, Stage.ready, hopen] using hready)
    | receive =>
      exact hheed rfl (by simpa [spec, Stage.ready, hopen, List.length_pos_iff] using hready)
    | trySend | tryReceive | close => exact absurd rfl hwaits
  feeds {call stage d turn owes d' wakes late chosen sleepers sleepers'} _ hwrites hready _ hopen
      hopen' cv _ := by
    refine .inr (.inr ⟨rfl, ?_⟩)
    rcases writes_cases hwrites with ⟨rfl, rfl, rfl, -⟩ | ⟨hturn, rfl, rfl⟩
    · exact supply_act cv hopen (hready rfl) hopen' ((spec α capacity).consumes_cases stage .act cv)
    · simp [Spec.consumes, hturn]

end BoundedChannel

/-! ## 2. The unbuffered channel -/

namespace UnbufferedChannel

/-- A receiver takes a value with at most one sender asleep, a sender whose deadline passes in the
    second wait leaves no sender asleep, and a receiver that is cancelled although there is a value,
    and whose callback has not notified yet, leaves no receiver asleep. -/
def Yielding (stage : Stage α) (turn : Turn Bytes) (owes : Bool) (d : Data α)
    (sleepers : Condition → List Call) : Prop :=
  match stage, turn with
  | .receive _ _, .act | .tryReceive, .act =>
    d.slot.isSome = true → (sleepers .notFull).length ≤ 1
  | .handoff _ _ _, .expire => sleepers .notFull = []
  | .receive _ _, .abandon _ => owes = true → d.slot.isSome = true → sleepers .notEmpty = []
  | _, _ => True

instance (stage : Stage α) (turn : Turn Bytes) (owes : Bool) (d : Data α)
    (sleepers : Condition → List Call) : Decidable (Yielding stage turn owes d sleepers) :=
  match stage with
  | .send .. | .handoff .. | .trySend _ | .receive .. | .tryReceive | .close =>
    match turn with
    | .act | .abandon _ | .expire | .refuse _ => by
      first | exact isTrue trivial | exact decEq _ _ | exact instDecidableForall

def CarefulRun (moves : List (Move α)) : Prop :=
  Interleaving.Obeys (Monitor.State.step (spec α)) (Careful (spec α) Yielding) moves start

instance (moves : List (Move α)) : Decidable (CarefulRun moves) :=
  inferInstanceAs (Decidable (Interleaving.Obeys _ _ _ _))

def supply : Condition → Data α → Nat
  | .notEmpty, d => if d.slot.isSome then 1 else 0
  | .notFull, d => if d.slot.isSome then 0 else 1

theorem ready_iff_supply {stage : Stage α} {d : Data α} (hwaits : stage.patience ≠ .instant) :
    stage.ready d = true ↔ d.closed = true ∨ 0 < supply stage.condition d := by
  cases stage with
  | trySend | tryReceive | close => exact absurd rfl hwaits
  | _ =>
    cases hslot : d.slot with
    | none | some => simp [Stage.ready, Stage.condition, supply, hslot]

/-- What an operation does to an open channel at its turn. -/
inductive Written (stage : Stage α) (turn : Turn Bytes) (d : Data α) :
    Data α → List (Wake Condition) → List Condition → Prop where
  | kept (idle : (spec α).consumes stage turn .notEmpty = 0) : Written stage turn d d [] []
  | filled {call : Call} {value : α} (free : d.slot = none)
      (idle : (spec α).consumes stage turn .notEmpty = 0) :
      Written stage turn d { d with slot := some (call, value) } [.one .notEmpty] []
  | taken {d' : Data α} (full : d.slot.isSome = true) (slot : d'.slot = none)
      (closed : d'.closed = d.closed) (act : turn = .act)
      (receives : stage = .tryReceive ∨ ∃ patience token, stage = .receive patience token) :
      Written stage turn d d' [.one .notFull] []
  | withdrawn : Written stage turn d { d with slot := none } [.all .notEmpty, .all .notFull] []
  | expired {wakes : List (Wake Condition)} (expire : turn = .expire)
      (sends : ∃ value patience token, stage = .handoff value patience token)
      (wakes_eq : wakes = if d.slot.isSome then [.all .notEmpty] else []) :
      Written stage turn d { d with slot := none } wakes []
  | closed (d' : Data α) (closed : d'.closed = true) :
      Written stage turn d d' [] [.notEmpty, .notFull]

section Written

variable {call : Call} {stage : Stage α} {turn : Turn Bytes} {d d' : Data α}
  {wakes : List (Wake Condition)} {late : List Condition}

theorem consumes_of_condition (h : stage.condition = .notFull ∨ stage.patience = .instant) :
    (spec α).consumes stage turn .notEmpty = 0 := by
  refine if_neg fun hconsumes => ?_
  rcases h with hcondition | hinstant
  · have hcv : stage.condition = .notEmpty := hconsumes.2.1
    rw [hcondition] at hcv; cases hcv
  · exact hconsumes.2.2 hinstant

theorem written_of_pop
    (hreceives : stage = .tryReceive ∨ ∃ patience token, stage = .receive patience token)
    (hopen : d.closed = false) (hready : stage.ready d = true) :
    Written stage .act d (popUnlocked call d).data (popUnlocked call d).wakes
      (popUnlocked call d).late := by
  unfold popUnlocked
  cases hslot : d.slot with
  | none =>
    refine .kept (consumes_of_condition (.inr ?_))
    rcases hreceives with rfl | ⟨patience, token, rfl⟩
    · rfl
    · -- a receiver that waited has found a value
      simp [Stage.ready, hopen, hslot] at hready
  | some => exact .taken (by rw [hslot]; rfl) rfl rfl rfl hreceives

theorem written_of_act (call : Call) (hopen : d.closed = false) (hready : stage.ready d = true) :
    match stage.act call d with
    | .finish exit => Written stage .act d exit.data exit.wakes exit.late
    | .next d' wakes _ => Written stage .act d d' wakes [] := by
  cases stage with
  | send value patience token =>
    have hfree : d.slot = none := by simpa [Stage.ready, hopen] using hready
    have hidle : (spec α).consumes (.send value patience token) .act .notEmpty = 0 :=
      consumes_of_condition (.inl rfl)
    have hact : (Stage.send value patience token).act call d =
        .next { d with slot := some (call, value) } [.one .notEmpty]
          (.handoff value patience token) :=
      if_neg (by rw [hopen]; exact Bool.false_ne_true)
    rw [hact]; exact .filled hfree hidle
  | handoff | trySend => exact .kept (consumes_of_condition (.inl rfl))
  | receive patience token => exact written_of_pop (.inr ⟨patience, token, rfl⟩) hopen hready
  | tryReceive => exact written_of_pop (.inl rfl) hopen hready
  | close => exact .closed _ rfl

theorem consumes_of_not_act (h : turn.isAct = false) :
    (spec α).consumes stage turn .notEmpty = 0 :=
  if_neg fun hconsumes => by rw [h] at hconsumes; cases hconsumes.1

theorem written_of_writes (hwrites : Writes (spec α) call stage d turn d' wakes late)
    (hopen : d.closed = false) (hready : turn = .act → stage.ready d = true) :
    Written stage turn d d' wakes late := by
  cases hwrites with
  | @exit turn exit exit_eq =>
    cases turn with
    | refuse => cases exit_eq
    | act =>
      have hact := written_of_act call hopen (hready rfl)
      cases houtcome : stage.act call d with
      | finish =>
        simp only [Spec.exit, spec, houtcome] at exit_eq
        rw [houtcome] at hact
        cases exit_eq; exact hact
      | next =>
        simp only [Spec.exit, spec, houtcome] at exit_eq; cases exit_eq
    | abandon =>
      cases exit_eq
      cases stage with
      | handoff => exact .withdrawn
      | _ => exact .kept (consumes_of_not_act rfl)
    | expire =>
      cases exit_eq
      cases stage with
      | handoff value patience token => exact .expired rfl ⟨value, patience, token, rfl⟩ rfl
      | _ => exact .kept (consumes_of_not_act rfl)
  | next act_eq =>
    have hact := written_of_act call hopen (hready rfl)
    rw [show stage.act call d = _ from act_eq] at hact; exact hact

end Written

theorem sleepers_eq_nil_of_one {chosen : List Call} {cv : Condition}
    {sleepers sleepers' : Condition → List Call}
    (hwoken : wakeUp [.one cv] chosen sleepers = some sleepers')
    (hfew : (sleepers cv).length ≤ 1) : sleepers' cv = [] := by
  unfold wakeUp at hwoken
  split_ifs at hwoken with hnone
  · cases hwoken; exact hnone
  · split at hwoken
    · cases hwoken
    · split_ifs at hwoken with hmem
      rw [← Option.some.inj hwoken, Function.update_self, eq_nil_iff_length_eq_zero,
        length_erase_of_mem hmem]
      omega

theorem receive_of_waits {stage : Stage α} (hcv : stage.condition = .notEmpty)
    (hwaits : stage.patience ≠ .instant) : ∃ patience token, stage = .receive patience token := by
  cases stage with
  | receive patience token => exact ⟨patience, token, rfl⟩
  | send | handoff | trySend => cases hcv
  | tryReceive | close => exact absurd rfl hwaits

def rationing (α : Type) : Rationing (spec α) Yielding where
  supply := supply
  shut d := d.closed
  counts cv := decide (cv = .notEmpty)
  ready_iff _ _ := ready_iff_supply
  alarm cv := by cases cv <;> simp [spec, notifyBlockedOperations]
  productive stage call d hcounts hwaits hready hopen := by
    obtain ⟨patience, token, rfl⟩ := receive_of_waits (of_decide_eq_true hcounts) hwaits
    have hfull : d.slot.isSome = true := by simpa [spec, Stage.ready, hopen] using hready
    obtain ⟨held, hslot⟩ := Option.isSome_iff_exists.mp hfull
    simp [spec, Stage.act, Outcome.wakes, popUnlocked, hslot]
  keeps_token {stage call d d' wakes stage'} hact := by
    cases stage with
    | send =>
      simp only [spec, Stage.act] at hact
      split_ifs at hact
      cases hact; rfl
    | _ => cases hact
  announces {call stage d turn d' wakes late} hwrites hready hopen hclosed := by
    cases written_of_writes hwrites hopen hready with
    | closed =>
      intro cv
      cases cv <;> decide
    | taken full slot closed =>
      rw [closed, hopen] at hclosed; cases hclosed
    | _ =>
      rw [show d.closed = true from hclosed] at hopen; cases hopen
  yields {stage reason d sleepers} hheed hcounts hwaits hopen hready := by
    have hcv := of_decide_eq_true hcounts
    obtain ⟨patience, token, rfl⟩ := receive_of_waits hcv hwaits
    exact hheed rfl (by simpa [spec, Stage.ready, hopen] using hready)
  feeds {call stage d turn owes d' wakes late chosen sleepers sleepers'} hheed hwrites hready hwoken
      hopen hopen' cv hbefore := by
    cases cv with
    | notEmpty =>
      cases written_of_writes hwrites hopen hready with
      | kept idle => exact .inr (.inr ⟨rfl, by rw [idle]; rfl⟩)
      | filled free idle => exact .inr (.inr ⟨rfl, by rw [idle]; simp [supply, free]⟩)
      | taken full slot => exact .inr (.inl (by simp [supply, slot]))
      | withdrawn | expired => exact .inr (.inl rfl)
      | closed d' closed => rw [closed] at hopen'; cases hopen'
    | notFull =>
      have hfull : d.slot.isSome = true := by
        cases hslot : d.slot with
        | none => simp [supply, hslot] at hbefore
        | some => rfl
      cases written_of_writes hwrites hopen hready with
      | kept => exact .inr (.inl (by simp [supply, hfull]))
      | filled free => rw [free] at hfull; cases hfull
      | taken full slot closed act receives =>
        refine .inl (sleepers_eq_nil_of_one hwoken ?_)
        subst act
        rcases receives with rfl | ⟨patience, token, rfl⟩
        · exact hheed hfull
        · exact hheed hfull
      | withdrawn =>
        cases hwoken; exact .inl (Function.update_self ..)
      | expired expire sends wakes_eq =>
        obtain ⟨value, patience, token, rfl⟩ := sends
        subst expire
        rw [hfull, if_pos rfl] at wakes_eq
        subst wakes_eq
        cases hwoken
        exact .inl ((Function.update_of_ne (by decide) ..).trans hheed)
      | closed d' closed => rw [closed] at hopen'; cases hopen'

end UnbufferedChannel

/-! ## 3. Nobody is stuck -/

namespace Channel

/-- In a careful run of a channel no thread sleeps in an untimed wait whose predicate is true, unless
    somebody is about to notify. -/
theorem no_stuck_waiter (α : Type) (capacity : Nat) :
    (∀ (moves : List (BoundedChannel.Move α)) (s : BoundedChannel.State α),
      BoundedChannel.CarefulRun capacity moves → BoundedChannel.run capacity moves = some s →
      ∀ call stage, ¬ Stuck (BoundedChannel.spec α capacity) s call stage) ∧
    ∀ (moves : List (UnbufferedChannel.Move α)) (s : UnbufferedChannel.State α),
      UnbufferedChannel.CarefulRun moves → UnbufferedChannel.run moves = some s →
      ∀ call stage, ¬ Stuck (UnbufferedChannel.spec α) s call stage := by
  constructor
  · intro moves s hcareful hrun
    exact not_stuck_of_obeys (BoundedChannel.rationing α capacity) hcareful hrun
  · intro moves s hcareful hrun
    exact not_stuck_of_obeys (UnbufferedChannel.rationing α) hcareful hrun

/-- A receiver sleeps until a sender wakes it; its token is cancelled afterwards. -/
def receiverWoken : List (BoundedChannel.Move Nat) :=
  [.call 0 (BoundedChannel.receive (some 5)), .step 0 [], .step 0 [], .step 0 [], .step 0 [],
    .step 0 [], .step 0 [],
    .call 1 (.trySend 7), .step 1 [], .step 1 [], .step 1 [], .step 1 [], .step 1 [0],
    .stop 5 [], .fire 0]

theorem no_stuck_waiter_receiverWoken :
    (∃ s, BoundedChannel.CarefulRun 1 receiverWoken ∧
      BoundedChannel.run 1 receiverWoken = some s ∧ s.data.queue = [7] ∧
      ∀ call stage, ¬ Stuck (BoundedChannel.spec Nat 1) s call stage) ∧
    ∃ s, UnbufferedChannel.CarefulRun UnbufferedChannel.crowded ∧
      UnbufferedChannel.run UnbufferedChannel.crowded = some s ∧ s.data.slot = none ∧
      ∀ call stage, ¬ Stuck (UnbufferedChannel.spec Nat) s call stage := by
  have hbounded : ∃ s, BoundedChannel.run 1 receiverWoken = some s ∧ s.data.queue = [7] :=
    ⟨_, rfl, rfl⟩
  have hunbuffered : ∃ s, UnbufferedChannel.run UnbufferedChannel.crowded = some s ∧
      s.data.slot = none := ⟨_, rfl, rfl⟩
  obtain ⟨s, hs, hqueue⟩ := hbounded
  obtain ⟨s', hs', hslot⟩ := hunbuffered
  have hcareful : BoundedChannel.CarefulRun 1 receiverWoken := by decide +kernel
  have hcareful' : UnbufferedChannel.CarefulRun UnbufferedChannel.crowded := by decide +kernel
  obtain ⟨hnot, hnot'⟩ := no_stuck_waiter Nat 1
  exact ⟨⟨s, hcareful, hs, hqueue, hnot _ s hcareful hs⟩, s', hcareful', hs', hslot,
    hnot' _ s' hcareful' hs'⟩

/-- The callback of a receiver notifies between the test and the sleep of the receiver. -/
def cancelledBeforeSleep : List (BoundedChannel.Move Nat) :=
  [.call 0 (BoundedChannel.receive (some 5)), .step 0 [], .step 0 [], .step 0 [], .step 0 [],
    .step 0 [], .stop 5 [], .fire 0, .alarm 0, .alarm 0, .step 0 [], .alarm 0]

/-- Two receivers sleep; the one that a sender wakes is cancelled and leaves before its callback
    runs. -/
def notificationTaken : List (BoundedChannel.Move Nat) :=
  [.call 0 (BoundedChannel.receive (some 5)), .step 0 [], .step 0 [], .step 0 [], .step 0 [],
    .step 0 [], .step 0 [],
    .call 1 (BoundedChannel.receive none), .step 1 [], .step 1 [], .step 1 [], .step 1 [],
    .step 1 [],
    .call 2 (.trySend 7), .step 2 [], .step 2 [], .step 2 [], .step 2 [], .step 2 [0], .step 2 [],
    .stop 5 [], .step 0 [], .step 0 [], .step 0 [], .step 0 []]

/-- A receiver takes the value of a sender and wakes this sender, not the one that waits for the
    slot. -/
def wrongSenderWoken : List (UnbufferedChannel.Move Nat) :=
  [.call 0 (UnbufferedChannel.send 7 none), .step 0 [], .step 0 [], .step 0 [], .step 0 [],
    .step 0 [], .step 0 [], .step 0 [],
    .call 1 (UnbufferedChannel.send 8 none), .step 1 [], .step 1 [], .step 1 [], .step 1 [],
    .step 1 [],
    .call 2 (UnbufferedChannel.receive none), .step 2 [], .step 2 [], .step 2 [], .step 2 [],
    .step 2 [0], .step 2 [],
    .step 0 [], .step 0 [], .step 0 [], .step 0 []]

/-- The deadline of a sender passes in its second wait while another one waits for the slot. -/
def senderExpired : List (UnbufferedChannel.Move Nat) :=
  [.call 0 (UnbufferedChannel.sendFor 7 none), .step 0 [], .step 0 [], .step 0 [], .step 0 [],
    .step 0 [], .step 0 [], .step 0 [],
    .call 1 (UnbufferedChannel.send 8 none), .step 1 [], .step 1 [], .step 1 [], .step 1 [],
    .step 1 [],
    .lapse 0, .step 0 [], .step 0 [], .step 0 []]

/-- Four threads that sleep for ever: a cancelled receiver, a receiver with a value in the queue, and
    two senders with the slot free. -/
theorem stuck_waiters :
    (∃ s, BoundedChannel.run 1 cancelledBeforeSleep = some s ∧
      Stuck (BoundedChannel.spec Nat 1) s 0 (BoundedChannel.receive (some 5))) ∧
    (∃ s, BoundedChannel.run 1 notificationTaken = some s ∧
      Stuck (BoundedChannel.spec Nat 1) s 1 (BoundedChannel.receive none)) ∧
    (∃ s, UnbufferedChannel.run wrongSenderWoken = some s ∧
      Stuck (UnbufferedChannel.spec Nat) s 1 (UnbufferedChannel.send 8 none)) ∧
    ∃ s, UnbufferedChannel.run senderExpired = some s ∧
      Stuck (UnbufferedChannel.spec Nat) s 1 (UnbufferedChannel.send 8 none) := by
  refine ⟨⟨_, rfl, ?_⟩, ⟨_, rfl, ?_⟩, ⟨_, rfl, ?_⟩, ⟨_, rfl, ?_⟩⟩
  · exact stuck_of_run (show BoundedChannel.run 1 cancelledBeforeSleep = _ from rfl) rfl rfl
  · exact stuck_of_run (show BoundedChannel.run 1 notificationTaken = _ from rfl) rfl rfl
  · exact stuck_of_run (show UnbufferedChannel.run wrongSenderWoken = _ from rfl) rfl rfl
  · exact stuck_of_run (show UnbufferedChannel.run senderExpired = _ from rfl) rfl rfl

end Channel

end LangGraph
