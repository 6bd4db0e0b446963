import LangGraph.Channel.Types

/-!
# The unbuffered channel

A sender puts its value into the one slot of the channel and waits until the slot is empty again.
It takes an empty slot as the sign that a receiver has its value, but the slot is emptied by `close`,
by a sender whose deadline passes and by a cancelled sender too, and a second sender may have filled
it in between.

The slot carries the call that filled it and the data carry a history of the hand-offs, which the
code does not have.
-/

namespace LangGraph

namespace UnbufferedChannel

open Channel Monitor Function Outcome List

variable {α : Type}

/-! ## 1. The channel -/

inductive Stage (α : Type) where
  /-- `send` and `sendFor` at the first wait, for the slot. -/
  | send (value : α) (patience : Patience) (token : Option Token)
  /-- `send` and `sendFor` at the second wait, for the receiver. -/
  | handoff (value : α) (patience : Patience) (token : Option Token)
  | trySend (value : α)
  /-- `receive` and `receiveFor`, which is `instant` for a timeout that is not positive. -/
  | receive (patience : Patience) (token : Option Token)
  | tryReceive
  | close
deriving DecidableEq

def send (value : α) (token : Option Token) : Stage α := .send value .untimed token

/-- A timeout that is not positive is a deadline that has passed already. -/
def sendFor (value : α) (token : Option Token) : Stage α := .send value .timed token

def receive (token : Option Token) : Stage α := .receive .untimed token

/-- Unlike `sendFor`, it returns at once if its timeout is not positive. -/
def receiveFor (timeout : Int) (token : Option Token) : Stage α :=
  .receive (if timeout ≤ 0 then .instant else .timed) token

structure Handoff (α : Type) where
  sender : Call
  receiver : Call
  value : α
deriving DecidableEq

structure Data (α : Type) where
  slot : Option (Call × α) := none
  closed : Bool := false
  taken : List (Handoff α) := []

def popUnlocked (call : Call) (d : Data α) : Exit (Data α) Condition (Answer α) :=
  match d.slot with
  | none =>
    { data := d
      result := .received
        (if d.closed then .ok none else .error (.unavailable (lit "channel is empty"))) }
  | some (sender, value) =>
    { data := { d with slot := none, taken := d.taken ++ [⟨sender, call, value⟩] }
      wakes := [.one .notFull]
      result := .received (.ok (some value)) }

def closeUnlocked (d : Data α) : Exit (Data α) Condition (Answer α) :=
  { data := { d with closed := true, slot := none }
    late := [.notEmpty, .notFull]
    result := .closed }

namespace Stage

def token : Stage α → Option Token
  | .send _ _ token | .handoff _ _ token | .receive _ token => token
  | _ => none

def patience : Stage α → Patience
  | .send _ patience _ | .handoff _ patience _ | .receive patience _ => patience
  | _ => .instant

def condition : Stage α → Condition
  | .send _ _ _ | .handoff _ _ _ | .trySend _ => .notFull
  | _ => .notEmpty

def ready : Stage α → Data α → Bool
  | .send _ _ _, d | .handoff _ _ _, d => d.closed || d.slot.isNone
  | .receive _ _, d => d.closed || d.slot.isSome
  | _, _ => true

def act (stage : Stage α) (call : Call) (d : Data α) :
    Outcome (Data α) Condition (Stage α) (Answer α) :=
  match stage with
  | .send value patience token =>
    if d.closed then .finish { data := d, result := sendRejected }
    else .next { d with slot := some (call, value) } [.one .notEmpty]
      (.handoff value patience token)
  | .handoff _ _ _ =>
    -- a value still in the slot of a closed channel was not received
    .finish
      { data := d
        result := if d.closed && d.slot.isSome then sendRejected else .sent (.ok ()) }
  | .trySend _ =>
    .finish
      { data := d
        result :=
          if d.closed then sendRejected
          else .sent (.error (.resourceExhausted (lit "unbuffered channel send would block"))) }
  | .receive _ _ | .tryReceive => .finish (popUnlocked call d)
  | .close => .finish (closeUnlocked d)

/-- A sender that is cancelled in the second wait empties the slot. -/
def abandon (stage : Stage α) (reason : Bytes) (d : Data α) :
    Exit (Data α) Condition (Answer α) :=
  match stage with
  | .handoff _ _ _ =>
    { data := { d with slot := none }
      wakes := [.all .notEmpty, .all .notFull]
      result := sendCancelled reason }
  | .send _ _ _ | .trySend _ => { data := d, result := sendCancelled reason }
  | _ => { data := d, result := receiveCancelled reason }

/-- So does one whose deadline passes there; it tells the receivers only. -/
def expire (stage : Stage α) (d : Data α) : Exit (Data α) Condition (Answer α) :=
  match stage with
  | .handoff _ _ _ =>
    { data := { d with slot := none }
      wakes := if d.slot.isSome then [.all .notEmpty] else []
      result := sendTimedOut }
  | .send _ _ _ | .trySend _ => { data := d, result := sendTimedOut }
  | _ => { data := d, result := receiveTimedOut }

def cancelled : Stage α → Bytes → Answer α
  | .send _ _ _, reason | .handoff _ _ _, reason | .trySend _, reason => sendCancelled reason
  | _, reason => receiveCancelled reason

/-- The value a call of `send` or `sendFor` is to hand over. -/
def value : Stage α → Option α
  | .send value _ _ | .handoff value _ _ => some value
  | _ => none

def isCall : Stage α → Bool
  | .handoff _ _ _ => false
  | _ => true

end Stage

def spec (α : Type) : Spec Call Condition (Data α) (Stage α) (Answer α) Token Bytes where
  initial := Stage.isCall
  token := Stage.token
  patience := Stage.patience
  cv := Stage.condition
  ready := Stage.ready
  act := Stage.act
  abandon stage reason _ d := stage.abandon reason d
  expire stage _ d := stage.expire d
  refuse := Stage.cancelled
  alarm := notifyBlockedOperations

abbrev State (α : Type) := Monitor.State Call Condition (Data α) (Stage α) (Answer α) Token Bytes

abbrev Move (α : Type) := Monitor.Move Call (Stage α) Token Bytes

def start : State α := { data := {} }

def run (moves : List (Move α)) : Option (State α) :=
  Interleaving.run (Monitor.State.step (spec α)) moves start

/-! ## 2. Turns in which the slot says what a sender reads from it -/

/-- `close` finds the slot empty, and a sender that gives up in its second wait, because of a
    cancellation or its deadline, finds its own value in the slot. -/
def OwnSlot (stage : Stage α) (turn : Turn Bytes) (call : Call) (d : Data α) : Prop :=
  match stage, turn with
  | .close, .act => d.slot = none
  | .handoff _ _ _, .abandon _ => d.slot.map Prod.fst = some call
  | .handoff _ _ _, .expire => d.slot.map Prod.fst = some call
  | _, _ => True

instance (stage : Stage α) (turn : Turn Bytes) (call : Call) (d : Data α) :
    Decidable (OwnSlot stage turn call d) := by
  unfold OwnSlot
  split
  · exact match d.slot with
      | none => isTrue rfl
      | some _ => isFalse nofun
  · infer_instance
  · infer_instance
  · exact isTrue trivial

/-- The moves of a run in which every turn of an operation meets `OwnSlot`. -/
def Rendezvous (moves : List (Move α)) : Prop :=
  Interleaving.Obeys (Monitor.State.step (spec α)) (Permitted (spec α) OwnSlot) moves start

instance (moves : List (Move α)) : Decidable (Rendezvous moves) :=
  inferInstanceAs (Decidable (Interleaving.Obeys _ _ _ _))

inductive Act (call : Call) (stage : Stage α) (d : Data α) :
    Data α → Progress (Stage α) (Answer α) → Prop where
  /-- A sender fills the slot. -/
  | fill {value : α} {stage' : Stage α} (value_eq : stage.value = some value)
      (value_eq' : stage'.value = some value) (call_eq : stage.isCall = true)
      (handoff_eq : stage'.isCall = false) (empty : d.slot = none) (running : d.closed = false) :
      Act call stage d { d with slot := some (call, value) } (.at stage')
  /-- A sender finds the slot empty again. -/
  | confirm (handoff_eq : stage.isCall = false) (empty : d.slot = none) :
      Act call stage d d (.over stage (.sent (.ok ())))
  /-- A sender takes its value back. -/
  | withdraw {value : α} {status : Status} (handoff_eq : stage.isCall = false)
      (own : d.slot = some (call, value)) :
      Act call stage d { d with slot := none } (.over stage (.sent (.error status)))
  | take {sender : Call} {value : α} (call_eq : stage.isCall = true)
      (full : d.slot = some (sender, value)) :
      Act call stage d { d with slot := none, taken := d.taken ++ [⟨sender, call, value⟩] }
        (.over stage (.received (.ok (some value))))
  | close (call_eq : stage.isCall = true) (empty : d.slot = none) :
      Act call stage d { d with closed := true, slot := none } (.over stage .closed)
  /-- A sender is turned away before it has filled the slot. -/
  | reject {status : Status} (call_eq : stage.isCall = true) :
      Act call stage d d (.over stage (.sent (.error status)))
  | fail {answer : Result (Option α)} (call_eq : stage.isCall = true)
      (nothing : ∀ value, answer ≠ .ok (some value)) :
      Act call stage d d (.over stage (.received answer))

section Deeds

variable {call : Call} {d : Data α}

variable {stage : Stage α}

theorem act_of_pop (hstage : stage.isCall = true) :
    Act call stage d (popUnlocked call d).data (.over stage (popUnlocked call d).result) := by
  unfold popUnlocked
  split
  · refine .fail hstage fun value => ?_
    split_ifs <;> exact nofun
  · rename_i sender value hslot
    exact .take hstage hslot

def Shut (d : Data α) : Prop := d.closed = true → d.slot = none

theorem act_of_act {d' : Data α} {next : Progress (Stage α) (Answer α)} (hshut : Shut d)
    (hown : OwnSlot stage .act call d) (h : Deed (spec α) call stage d .act d' next) :
    Act call stage d d' next := by
  cases h with
  | @finish exit ready act_eq =>
    change stage.act call d = .finish exit at act_eq
    cases stage with
    | send =>
      simp only [Stage.act] at act_eq
      split_ifs at act_eq
      rw [← finish.inj act_eq]; exact .reject rfl
    | handoff =>
      rw [← finish.inj act_eq]
      change (d.closed || d.slot.isNone) = true at ready
      -- closed or not, the slot is empty
      have hslot : d.slot = none := by
        rcases Bool.or_eq_true_iff.mp ready with hclosed | hempty
        · exact hshut hclosed
        · exact Option.isNone_iff_eq_none.mp hempty
      rw [hslot, Option.isSome_none, Bool.and_false]; exact .confirm rfl hslot
    | trySend =>
      rw [← finish.inj act_eq]
      change Act call _ d d (.over _ (if d.closed then sendRejected else _))
      split_ifs
      · exact .reject rfl
      · exact .reject rfl
    | receive | tryReceive =>
      rw [← finish.inj act_eq]; exact act_of_pop rfl
    | close =>
      rw [← finish.inj act_eq]; exact .close rfl hown
  | @next data' wakes stage' ready act_eq =>
    change stage.act call d = .next d' wakes stage' at act_eq
    cases stage with
    | send =>
      simp only [Stage.act] at act_eq
      split_ifs at act_eq with hclosed
      obtain ⟨rfl, -, rfl⟩ := next.inj act_eq
      change (d.closed || d.slot.isNone) = true at ready
      have hempty : d.slot = none := by
        rcases Bool.or_eq_true_iff.mp ready with h | h
        · exact absurd h hclosed
        · exact Option.isNone_iff_eq_none.mp h
      exact .fill rfl rfl rfl rfl hempty (by simpa using hclosed)
    | _ => cases act_eq

theorem act_of_refuse (hstage : stage.isCall = true) (reason : Bytes) :
    Act call stage d d (.over stage (stage.cancelled reason)) := by
  cases stage with
  | handoff => cases hstage
  | send | trySend => exact .reject rfl
  | receive | tryReceive | close => exact .fail rfl nofun

theorem act_of_deed {turn : Turn Bytes} {d' : Data α} {next : Progress (Stage α) (Answer α)}
    (hshut : Shut d) (hown : OwnSlot stage turn call d)
    (h : Deed (spec α) call stage d turn d' next) : Act call stage d d' next := by
  cases turn with
  | refuse reason =>
    cases h with
    | refuse _ initial => exact act_of_refuse initial reason
  | act => exact act_of_act hshut hown h
  | abandon | expire =>
    -- only the sender in the hand-off has a value to take back
    cases h
    cases stage with
    | handoff =>
      obtain ⟨⟨_, mine⟩, hslot, rfl⟩ := Option.map_eq_some_iff.mp hown
      exact .withdraw rfl hslot
    | send | trySend => exact .reject rfl
    | receive | tryReceive | close => exact .fail rfl nofun

end Deeds

/-! ## 3. The part every call has in the hand-offs -/

/-- What the data say about a call: it has nothing in the channel, its value is in the slot, its
    value was taken, or it took a value. -/
inductive Role (d : Data α) (call : Call) : Progress (Stage α) (Answer α) → Prop where
  | bystander {progress : Progress (Stage α) (Answer α)}
      (slot : ∀ value, d.slot ≠ some (call, value))
      (sender : (d.taken.map Handoff.sender).count call = 0)
      (receiver : (d.taken.map Handoff.receiver).count call = 0)
      (handoff : ∀ stage, progress = .at stage → stage.isCall = true)
      (unsent : ∀ stage, progress ≠ .over stage (.sent (.ok ())))
      (unreceived : ∀ stage value, progress ≠ .over stage (.received (.ok (some value)))) :
      Role d call progress
  | holder {stage : Stage α} {value : α} (slot : d.slot = some (call, value))
      (sender : (d.taken.map Handoff.sender).count call = 0)
      (receiver : (d.taken.map Handoff.receiver).count call = 0)
      (handoff_eq : stage.isCall = false) (value_eq : stage.value = some value) :
      Role d call (.at stage)
  | giver {stage : Stage α} {value : α} {progress : Progress (Stage α) (Answer α)}
      (slot : ∀ value, d.slot ≠ some (call, value))
      (sender : (d.taken.map Handoff.sender).count call = 1)
      (receiver : (d.taken.map Handoff.receiver).count call = 0)
      (taken : ∀ handoff ∈ d.taken, handoff.sender = call → handoff.value = value)
      (handoff_eq : stage.isCall = false) (value_eq : stage.value = some value)
      (progress_eq : progress = .at stage ∨ progress = .over stage (.sent (.ok ()))) :
      Role d call progress
  | taker {stage : Stage α} {value : α} (slot : ∀ value, d.slot ≠ some (call, value))
      (sender : (d.taken.map Handoff.sender).count call = 0)
      (receiver : (d.taken.map Handoff.receiver).count call = 1)
      (taken : ∀ handoff ∈ d.taken, handoff.receiver = call → handoff.value = value) :
      Role d call (.over stage (.received (.ok (some value))))

section Roles

variable {d d' : Data α} {call : Call} {progress : Progress (Stage α) (Answer α)}

section

variable (h : Role d call progress)

include h

theorem Role.frame {more : List (Handoff α)}
    (hslot : ∀ value, d'.slot = some (call, value) ↔ d.slot = some (call, value))
    (htaken : d'.taken = d.taken ++ more)
    (hmore : ∀ handoff ∈ more, handoff.sender ≠ call ∧ handoff.receiver ≠ call) :
    Role d' call progress := by
  have hcount : ∀ part : Handoff α → Call, (∀ handoff ∈ more, part handoff ≠ call) →
      (d'.taken.map part).count call = (d.taken.map part).count call := by
    intro part hpart
    rw [htaken, map_append, count_append, Nat.add_eq_left, count_eq_zero]
    intro hmem
    obtain ⟨handoff, hhandoff, hsame⟩ := mem_map.mp hmem
    exact hpart handoff hhandoff hsame
  have hsender := hcount Handoff.sender fun handoff hhandoff => (hmore handoff hhandoff).1
  have hreceiver := hcount Handoff.receiver fun handoff hhandoff => (hmore handoff hhandoff).2
  have hold : ∀ handoff ∈ d'.taken, handoff.sender = call ∨ handoff.receiver = call →
      handoff ∈ d.taken := by
    intro handoff hmem hcall
    rw [htaken, mem_append] at hmem
    rcases hmem with hmem | hmem
    · exact hmem
    · rcases hcall with hcall | hcall
      · exact absurd hcall (hmore handoff hmem).1
      · exact absurd hcall (hmore handoff hmem).2
  cases h with
  | bystander slot sender receiver handoff unsent unreceived =>
    exact .bystander (fun value => (hslot value).not.mpr (slot value)) (hsender.trans sender)
      (hreceiver.trans receiver) handoff unsent unreceived
  | holder slot sender receiver handoff_eq value_eq =>
    exact .holder ((hslot _).mpr slot) (hsender.trans sender) (hreceiver.trans receiver) handoff_eq
      value_eq
  | giver slot sender receiver taken handoff_eq value_eq progress_eq =>
    exact .giver (fun value => (hslot value).not.mpr (slot value)) (hsender.trans sender)
      (hreceiver.trans receiver) (fun handoff hmem hcall =>
        taken handoff (hold handoff hmem (.inl hcall)) hcall) handoff_eq value_eq progress_eq
  | taker slot sender receiver taken =>
    exact .taker (fun value => (hslot value).not.mpr (slot value)) (hsender.trans sender)
      (hreceiver.trans receiver) fun handoff hmem hcall =>
        taken handoff (hold handoff hmem (.inr hcall)) hcall

theorem Role.frame_slot
    (hslot : ∀ value, d'.slot = some (call, value) ↔ d.slot = some (call, value))
    (htaken : d'.taken = d.taken) : Role d' call progress := by
  have hnone : d'.taken = d.taken ++ [] := by rw [htaken, append_nil]
  exact h.frame hslot hnone nofun

/-- A call that has not begun, or has not come to its second wait, has nothing in the channel. -/
theorem Role.nothing
    (hprogress : progress = .idle ∨ ∃ stage, progress = .at stage ∧ stage.isCall = true) :
    (∀ value, d.slot ≠ some (call, value)) ∧ (d.taken.map Handoff.sender).count call = 0 ∧
      (d.taken.map Handoff.receiver).count call = 0 := by
  cases h with
  | bystander slot sender receiver => exact ⟨slot, sender, receiver⟩
  | holder slot sender receiver handoff_eq =>
    rcases hprogress with hidle | ⟨stage, hat, hstage⟩
    · cases hidle
    · cases hat
      rw [hstage] at handoff_eq; cases handoff_eq
  | giver slot sender receiver taken handoff_eq value_eq progress_eq =>
    rcases progress_eq with rfl | rfl
    · rcases hprogress with hidle | ⟨stage, hat, hstage⟩
      · cases hidle
      · cases hat
        rw [hstage] at handoff_eq; cases handoff_eq
    · rcases hprogress with hidle | ⟨stage, hat, -⟩
      · cases hidle
      · cases hat
  | taker =>
    rcases hprogress with hidle | ⟨stage, hat, -⟩
    · cases hidle
    · cases hat

theorem Role.of_slot {value : α} (hslot : d.slot = some (call, value)) :
    ∃ stage, progress = .at stage ∧ stage.isCall = false ∧ stage.value = some value ∧
      (d.taken.map Handoff.sender).count call = 0 ∧
      (d.taken.map Handoff.receiver).count call = 0 := by
  cases h with
  | bystander slot | giver slot | taker slot => exact absurd hslot (slot value)
  | @holder stage mine slot sender receiver handoff_eq value_eq =>
    rw [hslot] at slot
    cases slot; exact ⟨stage, rfl, handoff_eq, value_eq, sender, receiver⟩

theorem Role.of_sender {handoff : Handoff α} (hmem : handoff ∈ d.taken)
    (hcall : handoff.sender = call) :
    ∃ stage, stage.value = some handoff.value ∧
      (progress = .at stage ∨ progress = .over stage (.sent (.ok ()))) := by
  have hcount : 0 < (d.taken.map Handoff.sender).count call :=
    count_pos_iff.mpr (mem_map.mpr ⟨handoff, hmem, hcall⟩)
  cases h with
  | bystander slot sender | holder slot sender | taker slot sender =>
    rw [sender] at hcount; cases hcount
  | @giver stage value _ slot sender receiver taken handoff_eq value_eq progress_eq =>
    exact ⟨stage, taken handoff hmem hcall ▸ value_eq, progress_eq⟩

theorem Role.of_receiver {handoff : Handoff α} (hmem : handoff ∈ d.taken)
    (hcall : handoff.receiver = call) :
    ∃ stage, progress = .over stage (.received (.ok (some handoff.value))) := by
  have hcount : 0 < (d.taken.map Handoff.receiver).count call :=
    count_pos_iff.mpr (mem_map.mpr ⟨handoff, hmem, hcall⟩)
  cases h with
  | bystander slot sender receiver | holder slot sender receiver | giver slot sender receiver =>
    rw [receiver] at hcount; cases hcount
  | @taker stage value slot sender receiver taken =>
    exact ⟨stage, by rw [taken handoff hmem hcall]⟩

end

end Roles

/-- Every call has the part in the hand-offs that it was told, or will be. -/
structure Met (d : Data α) (progress : Call → Progress (Stage α) (Answer α)) : Prop where
  shut : Shut d
  role : ∀ call, Role d call (progress call)

theorem met_start : Met ({} : Data α) fun _ => .idle where
  shut h := by cases h
  role call := .bystander nofun rfl rfl nofun nofun nofun

section Step

variable {d d' : Data α} {progress : Call → Progress (Stage α) (Answer α)} {call : Call}
  {next : Progress (Stage α) (Answer α)} {stage : Stage α}

theorem Met.of_update (hshut : Shut d') (hcall : Role d' call next)
    (hothers : ∀ other, other ≠ call → Role d' other (progress other)) :
    Met d' (update progress call next) where
  shut := hshut
  role other := by
    by_cases hother : other = call
    · subst hother
      rw [update_self]; exact hcall
    · rw [update_of_ne hother]; exact hothers other hother

theorem Met.get_on (h : Met d progress)
    (hprogress : progress call = .idle ∨ ∃ stage, progress call = .at stage ∧ stage.isCall = true)
    (hhandoff : ∀ stage, next = .at stage → stage.isCall = true)
    (hunsent : ∀ stage, next ≠ .over stage (.sent (.ok ())))
    (hunreceived : ∀ stage value, next ≠ .over stage (.received (.ok (some value)))) :
    Met d (update progress call next) := by
  obtain ⟨slot, sender, receiver⟩ := (h.role call).nothing hprogress
  exact .of_update h.shut (.bystander slot sender receiver hhandoff hunsent hunreceived)
    fun other _ => h.role other

variable {value : α}

section

variable (h : Met d progress)

include h

theorem Met.fill {stage' : Stage α} (hstage : progress call = .at stage)
    (hcall : stage.isCall = true) (hhandoff : stage'.isCall = false)
    (hvalue : stage'.value = some value) (hempty : d.slot = none) (hrunning : d.closed = false) :
    Met { d with slot := some (call, value) } (update progress call (.at stage')) := by
  refine .of_update ?_ ?_ fun other hother => ?_
  · intro hclosed
    change d.closed = true at hclosed
    rw [hrunning] at hclosed; cases hclosed
  · obtain ⟨-, hsender, hreceiver⟩ := (h.role call).nothing (.inr ⟨stage, hstage, hcall⟩)
    exact .holder rfl hsender hreceiver hhandoff hvalue
  · refine (h.role other).frame_slot (fun value' => ?_) rfl
    simp [hempty, Ne.symm hother]

theorem Met.confirm (hstage : progress call = .at stage) (hhandoff : stage.isCall = false)
    (hempty : d.slot = none) :
    Met d (update progress call (.over stage (.sent (.ok ())))) := by
  refine .of_update h.shut ?_ fun other _ => h.role other
  have hrole := h.role call
  rw [hstage] at hrole
  cases hrole with
  | bystander slot sender receiver handoff =>
    rw [handoff stage rfl] at hhandoff; cases hhandoff
  | holder slot =>
    rw [hempty] at slot; cases slot
  | giver slot sender receiver taken handoff_eq value_eq progress_eq =>
    rcases progress_eq with hat | hover
    · cases hat
      exact .giver slot sender receiver taken handoff_eq value_eq (.inr rfl)
    · cases hover

theorem Met.withdraw {status : Status} (hown : d.slot = some (call, value)) :
    Met { d with slot := none }
      (update progress call (.over stage (.sent (.error status)))) := by
  obtain ⟨-, -, -, -, hsender, hreceiver⟩ := (h.role call).of_slot hown
  refine .of_update (fun _ => rfl) ?_ fun other hother => ?_
  · exact .bystander nofun hsender hreceiver nofun nofun nofun
  · refine (h.role other).frame_slot (fun value' => ?_) rfl
    simp [hown, Ne.symm hother]

theorem Met.take {sender : Call} (hstage : progress call = .at stage) (hcall : stage.isCall = true)
    (hfull : d.slot = some (sender, value)) :
    Met { d with slot := none, taken := d.taken ++ [⟨sender, call, value⟩] }
      (update progress call (.over stage (.received (.ok (some value))))) := by
  obtain ⟨hslot, hsent, hreceived⟩ := (h.role call).nothing (.inr ⟨stage, hstage, hcall⟩)
  obtain ⟨handoff, hat, hhandoff, hvalue, hsender, hreceiver⟩ := (h.role sender).of_slot hfull
  have hne : sender ≠ call := by rintro rfl; exact hslot value hfull
  have hnew : ∀ (part : Handoff α → Call) (who : Call), (d.taken.map part).count who = 0 →
      ∀ entry ∈ d.taken ++ [⟨sender, call, value⟩], part entry = who → entry.value = value := by
    intro part who hnone entry hentry hsame
    rcases mem_append.mp hentry with hold | hentry
    · exact absurd (mem_map.mpr ⟨entry, hold, hsame⟩) (count_eq_zero.mp hnone)
    · rw [mem_singleton.mp hentry]
  refine .of_update (fun _ => rfl) ?_ fun other hother => ?_
  · refine .taker nofun ?_ ?_ (hnew Handoff.receiver call hreceived)
    · simp [hsent, hne]
    · simp [hreceived]
  · by_cases hgiver : other = sender
    · -- the value of the sender is out of the slot and into the history
      subst hgiver
      rw [hat]
      refine .giver nofun ?_ ?_ (hnew Handoff.sender other hsender) hhandoff hvalue (.inl rfl)
      · simp [hsender]
      · simp [hreceiver, Ne.symm hne]
    · refine (h.role other).frame (fun value' => ?_) rfl ?_
      · simp [hfull, Ne.symm hgiver]
      · intro entry hentry
        rw [mem_singleton.mp hentry]; exact ⟨Ne.symm hgiver, Ne.symm hother⟩

theorem Met.act (hstage : progress call = .at stage) (hact : Act call stage d d' next) :
    Met d' (update progress call next) := by
  cases hact with
  | fill value_eq value_eq' call_eq handoff_eq empty running =>
    exact h.fill hstage call_eq handoff_eq value_eq' empty running
  | confirm handoff_eq empty => exact h.confirm hstage handoff_eq empty
  | withdraw handoff_eq own => exact h.withdraw own
  | take call_eq full => exact h.take hstage call_eq full
  | close call_eq empty =>
    have hmet : Met d (update progress call (.over stage .closed)) :=
      h.get_on (.inr ⟨stage, hstage, call_eq⟩) nofun nofun nofun
    exact ⟨fun _ => rfl, fun other => (hmet.role other).frame_slot (by simp [empty]) rfl⟩
  | reject call_eq => exact h.get_on (.inr ⟨stage, hstage, call_eq⟩) nofun nofun nofun
  | fail call_eq nothing =>
    refine h.get_on (.inr ⟨stage, hstage, call_eq⟩) nofun nofun ?_
    rintro _ value hover
    cases hover; exact nothing value rfl

end

end Step

theorem Met.run {moves : List (Move α)} {s : State α} (hmeets : Rendezvous moves)
    (hrun : run moves = some s) : Met s.data s.progress := by
  refine serial_invariant (fun h hidle hinitial => ?_) (fun h hstage hown hdeed => ?_) hmeets
    (exclusive_start _) met_start hrun
  · refine h.get_on (.inl hidle) (fun stage hat => ?_) nofun nofun
    cases hat; exact hinitial
  · exact h.act hstage (act_of_deed h.shut hown hdeed)

/-! ## 4. The rendezvous -/

structure HandsOver (s : State α) : Prop where
  /-- A send returns OK exactly when one receiver, and no other, took its value. -/
  sent : ∀ call stage status, s.progress call = .over stage (.sent status) →
    (status = .ok () ↔ (s.data.taken.filter (·.sender = call)).length = 1)
  rejected : ∀ call stage status, s.progress call = .over stage (.sent (.error status)) →
    ∀ handoff ∈ s.data.taken, handoff.sender ≠ call
  /-- What is taken is what the sender sent and what the receiver returns. -/
  taken : ∀ handoff ∈ s.data.taken,
    (∃ stage, stage.value = some handoff.value ∧ (s.progress handoff.sender = .at stage ∨
      s.progress handoff.sender = .over stage (.sent (.ok ())))) ∧
    ∃ stage, s.progress handoff.receiver = .over stage (.received (.ok (some handoff.value)))
  received : ∀ call stage value, s.progress call = .over stage (.received (.ok (some value))) →
    ∃ handoff ∈ s.data.taken, handoff.receiver = call ∧ handoff.value = value

theorem length_filter_sender (taken : List (Handoff α)) (call : Call) :
    (taken.filter (·.sender = call)).length = (taken.map Handoff.sender).count call := by
  rw [count, countP_map, countP_eq_length_filter]; rfl

theorem Met.toHandsOver {s : State α} (h : Met s.data s.progress) : HandsOver s where
  sent call stage status hover := by
    rw [length_filter_sender]
    have hrole := h.role call
    rw [hover] at hrole
    cases hrole with
    | bystander slot sender receiver handoff unsent =>
      rw [sender]
      constructor
      · rintro rfl; exact absurd rfl (unsent stage)
      · intro hzero; cases hzero
    | giver slot sender receiver taken handoff_eq value_eq progress_eq =>
      rcases progress_eq with hat | hsame
      · cases hat
      · cases hsame; exact ⟨fun _ => sender, fun _ => rfl⟩
  rejected call stage status hover handoff hmem hsame := by
    obtain ⟨stage', -, hat | hsent⟩ := (h.role call).of_sender hmem hsame
    · rw [hover] at hat; cases hat
    · rw [hover] at hsent; cases hsent
  taken handoff hmem :=
    ⟨(h.role handoff.sender).of_sender hmem rfl, (h.role handoff.receiver).of_receiver hmem rfl⟩
  received call stage value hover := by
    have hrole := h.role call
    rw [hover] at hrole
    cases hrole with
    | bystander slot sender receiver handoff unsent unreceived =>
      exact absurd rfl (unreceived stage value)
    | giver slot sender receiver taken handoff_eq value_eq progress_eq =>
      rcases progress_eq with hat | hsame
      · cases hat
      · cases hsame
    | taker slot sender receiver taken =>
      have hpos : 0 < (s.data.taken.map Handoff.receiver).count call := by rw [receiver]; decide
      obtain ⟨handoff, hmem, hsame⟩ := mem_map.mp (count_pos_iff.mp hpos)
      exact ⟨handoff, hmem, hsame, taken handoff hmem hsame⟩

/-- In every interleaving in which `close` finds the slot empty and a sender that gives up finds its
    own value there, the channel is a rendezvous. -/
theorem handsOver (moves : List (Move α)) (s : State α) (hmeets : Rendezvous moves)
    (hrun : run moves = some s) : HandsOver s :=
  (Met.run hmeets hrun).toHandsOver

/-- A sender waits for a slot that another sender holds, and gives up; the first value is taken. -/
def crowded : List (Move Nat) :=
  [.call 0 (send 7 none), .step 0 [], .step 0 [], .step 0 [], .step 0 [], .step 0 [], .step 0 [],
    .step 0 [],
    .call 1 (sendFor 8 none), .step 1 [], .step 1 [], .step 1 [], .step 1 [], .step 1 [],
    .lapse 1, .step 1 [], .step 1 [], .step 1 [],
    .call 2 (receive none), .step 2 [], .step 2 [], .step 2 [], .step 2 [], .step 2 [0],
    .step 2 [],
    .step 0 [], .step 0 [], .step 0 [], .step 0 []]

theorem handsOver_crowded :
    ∃ s, Rendezvous crowded ∧ run crowded = some s ∧ s.data.taken = [⟨0, 2, 7⟩] ∧ HandsOver s := by
  have hrun : ∃ s, run crowded = some s ∧ s.data.taken = [⟨0, 2, 7⟩] := ⟨_, rfl, rfl⟩
  obtain ⟨s, hs, htaken⟩ := hrun
  have hmeets : Rendezvous crowded := by decide +kernel
  exact ⟨s, hmeets, hs, htaken, handsOver crowded s hmeets hs⟩

/-- A sender waits for its receiver when the channel is closed. -/
def closedUnderSender : List (Move Nat) :=
  [.call 0 (send 7 none), .step 0 [], .step 0 [], .step 0 [], .step 0 [], .step 0 [], .step 0 [],
    .step 0 [],
    .call 1 .close, .step 1 [], .step 1 [], .step 1 [], .step 1 [], .step 1 [], .step 1 [],
    .step 1 [],
    .step 0 [], .step 0 [], .step 0 [], .step 0 []]

/-- A second sender fills the slot before the first one, whose value was taken, looks at it; the
    deadline of the first one passes. -/
def overtaken : List (Move Nat) :=
  [.call 0 (sendFor 7 none), .step 0 [], .step 0 [], .step 0 [], .step 0 [], .step 0 [],
    .step 0 [], .step 0 [],
    .call 2 (receive none), .step 2 [], .step 2 [], .step 2 [], .step 2 [], .step 2 [0],
    .call 1 (send 8 none), .step 1 [], .step 1 [], .step 1 [], .step 1 [], .step 1 [], .step 1 [],
    .step 1 [],
    .lapse 0, .step 0 [], .step 0 [], .step 0 [], .rouse 1, .step 1 [], .step 1 [], .step 1 [],
    .step 1 []]

/-- The value that `close` throws away is reported as received.  A value that was received is
    reported as not received, and the value of the second sender, which its first sender threw away,
    as received. -/
theorem lost_value_reported_sent :
    (∃ s, run closedUnderSender = some s ∧ s.data.taken = [] ∧
      s.point 0 = .done (.handoff 7 .untimed none) (.sent (.ok ()))) ∧
    ∃ s, run overtaken = some s ∧ s.data.taken = [⟨0, 2, 7⟩] ∧
      s.progress 0 = .over (.handoff 7 .timed none) sendTimedOut ∧
      s.point 1 = .done (.handoff 8 .untimed none) (.sent (.ok ())) :=
  ⟨⟨_, rfl, rfl, rfl⟩, _, rfl, rfl, rfl, rfl⟩

end UnbufferedChannel

end LangGraph
