import LangGraph.Lib.Monitor

/-!
# What a move of a monitor can do

`Change` lists once what a move can do, with the guard under which it does it, and `step_change`
says that there is nothing else.  What is proved about all runs of a monitor is proved from it.
-/

namespace Monitor

open Option

variable {τ κ δ γ ρ ι χ : Type}

/-! ## 1. Where a thread is -/

def Point.holdsMutex : Point κ γ ρ → Bool
  | .testing _ | .falling _ | .lastLook _ | .deciding _ => true
  | _ => false

/-- How far a call has come: what matters of its point from outside. -/
inductive Progress (γ ρ : Type) where
  | idle
  | at (stage : γ)
  | over (stage : γ) (result : ρ)
deriving DecidableEq

def Point.progress : Point κ γ ρ → Progress γ ρ
  | .idle => .idle
  | .checking stage | .registering stage | .confirming stage | .registered stage | .testing stage
  | .falling stage | .waiting stage | .overdue stage | .lastLook stage | .deciding stage =>
    .at stage
  | .leaving stage _ result | .done stage result => .over stage result

/-- What ends a stage: the token is stopped before the call began in earnest, the wait is over, it
    is over with the token stopped, or the deadline has passed. -/
inductive Turn (χ : Type) where
  | refuse (reason : χ)
  | act
  | abandon (reason : χ)
  | expire
deriving DecidableEq

/-- The stage that the next step of the thread ends, and how. -/
def State.turn (spec : Spec τ κ δ γ ρ ι χ) (s : State τ κ δ γ ρ ι χ) (thread : τ) :
    Option (γ × Turn χ) :=
  match s.point thread with
  | .checking stage => (s.stopReason spec stage).map fun reason => (stage, .refuse reason)
  | .testing stage =>
    if spec.patience stage = .instant ∧ spec.ready stage s.data = false then
      some (stage, .expire)
    else none
  | .lastLook stage =>
    if spec.ready stage s.data = false ∧ (s.stopReason spec stage).isNone then
      some (stage, .expire)
    else none
  | .deciding stage =>
    match s.stopReason spec stage with
    | some reason => some (stage, .abandon reason)
    | none => some (stage, .act)
  | _ => none

/-- A turn, with the point at which it is taken and what holds there. -/
inductive Due (spec : Spec τ κ δ γ ρ ι χ) (s : State τ κ δ γ ρ ι χ) :
    Point κ γ ρ → γ → Turn χ → Prop where
  | refuse {stage : γ} {reason : χ} (stopped : s.stopReason spec stage = some reason) :
      Due spec s (.checking stage) stage (.refuse reason)
  | instant {stage : γ} (instant : spec.patience stage = .instant)
      (unready : spec.ready stage s.data = false) : Due spec s (.testing stage) stage .expire
  | overdue {stage : γ} (unready : spec.ready stage s.data = false) :
      Due spec s (.lastLook stage) stage .expire
  | abandon {stage : γ} {reason : χ} (stopped : s.stopReason spec stage = some reason) :
      Due spec s (.deciding stage) stage (.abandon reason)
  | act {stage : γ} (running : s.stopReason spec stage = none) :
      Due spec s (.deciding stage) stage .act

theorem due_of_turn {spec : Spec τ κ δ γ ρ ι χ} {s : State τ κ δ γ ρ ι χ} {thread : τ} {stage : γ}
    {turn : Turn χ} (h : s.turn spec thread = some (stage, turn)) :
    Due spec s (s.point thread) stage turn := by
  unfold State.turn at h
  cases hpoint : s.point thread with
      simp only [hpoint] at h
  | checking =>
    obtain ⟨reason, hreason, heq⟩ := map_eq_some_iff.mp h
    cases heq; exact .refuse hreason
  | testing =>
    split_ifs at h with hguard
    cases h; exact .instant hguard.1 hguard.2
  | lastLook =>
    split_ifs at h with hguard
    cases h; exact .overdue hguard.1
  | deciding =>
    split at h
    · rename_i reason hreason
      cases h; exact .abandon hreason
    · rename_i hreason
      cases h; exact .act hreason
  | _ =>
    cases h

section Turns

variable {spec : Spec τ κ δ γ ρ ι χ} {s : State τ κ δ γ ρ ι χ} {point : Point κ γ ρ} {stage : γ}
  {turn : Turn χ} {reason : χ}

theorem Due.point_eq_of_act (h : Due spec s point stage .act) :
    point = .deciding stage ∧ s.stopReason spec stage = none := by
  cases h with
  | act running => exact ⟨rfl, running⟩

theorem Due.stopReason_of_abandon (h : Due spec s point stage (.abandon reason)) :
    s.stopReason spec stage = some reason := by
  cases h with
  | abandon stopped => exact stopped

theorem Due.unready_of_expire (h : Due spec s point stage .expire) :
    spec.ready stage s.data = false := by
  cases h with
  | instant instant unready | overdue unready => exact unready

theorem Due.holdsMutex_of_refuse (h : Due spec s point stage (.refuse reason)) :
    point.holdsMutex = false := by
  cases h; rfl

end Turns

def Spec.exit (spec : Spec τ κ δ γ ρ ι χ) (stage : γ) (thread : τ) (data : δ) :
    Turn χ → Option (Exit δ κ ρ)
  | .refuse _ => none
  | .act =>
    match spec.act stage thread data with
    | .finish exit => some exit
    | .next _ _ _ => none
  | .abandon reason => some (spec.abandon stage reason thread data)
  | .expire => some (spec.expire stage thread data)

/-! ## 2. The changes -/

/-- A step of a thread that only moves it on, with the mutex or without it. -/
inductive Walk (spec : Spec τ κ δ γ ρ ι χ) (s : State τ κ δ γ ρ ι χ) :
    Point κ γ ρ → Point κ γ ρ → Prop where
  | check {stage : γ} (running : s.stopReason spec stage = none) :
      Walk spec s (.checking stage) (.registering stage)
  | tokenless {stage : γ} (none : spec.token stage = none) :
      Walk spec s (.registering stage) (.registered stage)
  | confirm {stage : γ} (running : s.stopReason spec stage = none) :
      Walk spec s (.confirming stage) (.registered stage)
  | pass {stage : γ} (ready : spec.ready stage s.data = true ∨
        (s.stopReason spec stage).isSome = true) :
      Walk spec s (.testing stage) (.deciding stage)
  | fall {stage : γ} (unready : spec.ready stage s.data = false)
      (running : s.stopReason spec stage = none) (waits : spec.patience stage ≠ .instant) :
      Walk spec s (.testing stage) (.falling stage)
  | grab {stage : γ} (ready : spec.ready stage s.data = true ∨
        (s.stopReason spec stage).isSome = true) :
      Walk spec s (.lastLook stage) (.deciding stage)

inductive Entry (spec : Spec τ κ δ γ ρ ι χ) (s : State τ κ δ γ ρ ι χ) (thread : τ) :
    Point κ γ ρ → Point κ γ ρ → Prop where
  | arrive {stage : γ} : Entry spec s thread (.registered stage) (.testing stage)
  | wake {stage : γ} (awake : thread ∉ s.sleepers (spec.cv stage)) :
      Entry spec s thread (.waiting stage) (.testing stage)
  | hurry {stage : γ} : Entry spec s thread (.overdue stage) (.lastLook stage)

inductive Booking (spec : Spec τ κ δ γ ρ ι χ) (s : State τ κ δ γ ρ ι χ) (thread : τ) :
    Point κ γ ρ → Callback κ ι → Point κ γ ρ → Prop where
  | inline {stage : γ} (stopped : (s.stopReason spec stage).isSome = true) :
      Booking spec s thread (.registering stage) (.running true spec.alarm) (.registered stage)
  | register {stage : γ} {token : ι} (token_eq : spec.token stage = some token)
      (running : s.stopped token = none) :
      Booking spec s thread (.registering stage) (.registered token) (.confirming stage)
  | withdraw {stage : γ} (stopped : (s.stopReason spec stage).isSome = true) :
      Booking spec s thread (.confirming stage) .absent (.registered stage)
  | close {stage : γ} {result : ρ} :
      Booking spec s thread (.leaving stage [] result) .absent (.done stage result)

section Steps

variable {spec : Spec τ κ δ γ ρ ι χ} {s : State τ κ δ γ ρ ι χ} {thread : τ}
  {point next : Point κ γ ρ} {callback : Callback κ ι} {stage : γ}

theorem Walk.holdsMutex_eq (h : Walk spec s point next) :
    next.holdsMutex = point.holdsMutex := by
  cases h <;> rfl

theorem Walk.progress_eq (h : Walk spec s point next) : next.progress = point.progress := by
  cases h <;> rfl

theorem Walk.of_falling (h : Walk spec s point (.falling stage)) :
    spec.ready stage s.data = false ∧ s.stopReason spec stage = none ∧
      spec.patience stage ≠ .instant := by
  cases h with
  | fall unready running waits => exact ⟨unready, running, waits⟩

theorem Walk.of_deciding (h : Walk spec s point (.deciding stage)) :
    spec.ready stage s.data = true ∨ (s.stopReason spec stage).isSome = true := by
  cases h with
  | pass ready | grab ready => exact ready

theorem Walk.ne_checking (h : Walk spec s point next) : next ≠ .checking stage := by
  cases h <;> exact nofun

section

variable (h : Entry spec s thread point next)

include h

theorem Entry.holdsMutex_eq : next.holdsMutex = true ∧ point.holdsMutex = false := by
  cases h <;> exact ⟨rfl, rfl⟩

theorem Entry.progress_eq : next.progress = point.progress := by
  cases h <;> rfl

theorem Entry.ne_falling : next ≠ .falling stage := by
  cases h <;> exact nofun

theorem Entry.ne_deciding : next ≠ .deciding stage := by
  cases h <;> exact nofun

end

section

variable (h : Booking spec s thread point callback next)

include h

theorem Booking.holdsMutex_eq : next.holdsMutex = false ∧ point.holdsMutex = false := by
  cases h <;> exact ⟨rfl, rfl⟩

theorem Booking.ne_checking : next ≠ .checking stage := by
  cases h <;> exact nofun

theorem Booking.progress_eq : next.progress = point.progress := by
  cases h <;> rfl

end

end Steps

variable [DecidableEq τ] [DecidableEq κ] [DecidableEq ι]

inductive Change (spec : Spec τ κ δ γ ρ ι χ) (s : State τ κ δ γ ρ ι χ) :
    Move τ γ ι χ → State τ κ δ γ ρ ι χ → Prop where
  | call {thread : τ} {stage : γ} (idle : s.point thread = .idle)
      (initial : spec.initial stage = true) :
      Change spec s (.call thread stage) (s.moveTo thread (.checking stage))
  | refuse {thread : τ} {chosen : List τ} {stage : γ} {reason : χ}
      (point : s.point thread = .checking stage)
      (turn : s.turn spec thread = some (stage, .refuse reason)) :
      Change spec s (.step thread chosen)
        (s.moveTo thread (.done stage (spec.refuse stage reason)))
  | walk {thread : τ} {chosen : List τ} {next : Point κ γ ρ}
      (walk : Walk spec s (s.point thread) next) :
      Change spec s (.step thread chosen) (s.moveTo thread next)
  | book {thread : τ} {chosen : List τ} {callback : Callback κ ι} {next : Point κ γ ρ}
      (booking : Booking spec s thread (s.point thread) callback next) :
      Change spec s (.step thread chosen) ((s.setCallback thread callback).moveTo thread next)
  | lock {thread : τ} {chosen : List τ} {next : Point κ γ ρ} (free : s.owner = none)
      (entry : Entry spec s thread (s.point thread) next) :
      Change spec s (.step thread chosen)
        { s.moveTo thread next with owner := some thread }
  | sleep {thread : τ} {chosen : List τ} {stage : γ} (point : s.point thread = .falling stage) :
      Change spec s (.step thread chosen)
        { s.moveTo thread (.waiting stage) with
          owner := none
          sleepers := Function.update s.sleepers (spec.cv stage)
            (thread :: s.sleepers (spec.cv stage)) }
  | leave {thread : τ} {chosen : List τ} {stage : γ} {turn : Turn χ} {exit : Exit δ κ ρ}
      {sleepers : κ → List τ} (held : (s.point thread).holdsMutex = true)
      (stage_eq : (s.point thread).progress = .at stage)
      (turn_eq : s.turn spec thread = some (stage, turn))
      (exit_eq : spec.exit stage thread s.data turn = some exit)
      (woken : wakeUp exit.wakes chosen s.sleepers = some sleepers) :
      Change spec s (.step thread chosen)
        { s.moveTo thread (.leaving stage exit.late exit.result) with
          data := exit.data, sleepers := sleepers, owner := none }
  | goOn {thread : τ} {chosen : List τ} {stage next : γ} {data : δ} {wakes : List (Wake κ)}
      {sleepers : κ → List τ} (point : s.point thread = .deciding stage)
      (turn_eq : s.turn spec thread = some (stage, .act))
      (act_eq : spec.act stage thread s.data = .next data wakes next)
      (woken : wakeUp wakes chosen s.sleepers = some sleepers) :
      Change spec s (.step thread chosen)
        { s.moveTo thread (.testing next) with data := data, sleepers := sleepers }
  | notify {thread : τ} {chosen : List τ} {stage : γ} {cv : κ} {late : List κ}
      {result : ρ} (point : s.point thread = .leaving stage (cv :: late) result) :
      Change spec s (.step thread chosen)
        ((s.notifyAll cv).moveTo thread (.leaving stage late result))
  | rouse {thread : τ} {stage : γ} (point : s.point thread = .waiting stage) :
      Change spec s (.rouse thread)
        { s with
          sleepers := Function.update s.sleepers (spec.cv stage)
            ((s.sleepers (spec.cv stage)).erase thread) }
  | lapse {thread : τ} {stage : γ} (point : s.point thread = .waiting stage)
      (timed : spec.patience stage = .timed) :
      Change spec s (.lapse thread)
        { s.moveTo thread (.overdue stage) with
          sleepers := Function.update s.sleepers (spec.cv stage)
            ((s.sleepers (spec.cv stage)).erase thread) }
  | stop {token : ι} {reason : χ} (running : s.stopped token = none) :
      Change spec s (.stop token reason)
        { s with stopped := Function.update s.stopped token (some reason) }
  | fire {thread : τ} {token : ι} (callback : s.callback thread = .registered token)
      (stopped : (s.stopped token).isSome = true) :
      Change spec s (.fire thread) (s.setCallback thread (.running false spec.alarm))
  | alarm {thread : τ} {inline : Bool} {cv : κ} {rest : List κ}
      (callback : s.callback thread = .running inline (cv :: rest)) :
      Change spec s (.alarm thread)
        ((s.notifyAll cv).setCallback thread (.running inline rest))
  | ring {thread : τ} {inline : Bool} (callback : s.callback thread = .running inline [])
      (free : s.owner = none) :
      Change spec s (.alarm thread) (s.setCallback thread .ran)

section Inversion

variable {spec : Spec τ κ δ γ ρ ι χ} {s s' : State τ κ δ γ ρ ι χ} {thread : τ}
  {chosen : List τ}

omit [DecidableEq κ] [DecidableEq ι] in
theorem lock_eq_some {next : Point κ γ ρ} (h : s.lock thread next = some s') :
    s.owner = none ∧ s' = { s.moveTo thread next with owner := some thread } := by
  unfold State.lock at h
  split at h
  · rename_i hfree
    exact ⟨hfree, (some.inj h).symm⟩
  · cases h

theorem change_of_lock {next : Point κ γ ρ} (hentry : Entry spec s thread (s.point thread) next)
    (h : s.lock thread next = some s') : Change spec s (.step thread chosen) s' := by
  obtain ⟨hfree, rfl⟩ := lock_eq_some h
  exact .lock hfree hentry

theorem change_of_leave {stage : γ} {turn : Turn χ} {exit : Exit δ κ ρ}
    (hheld : (s.point thread).holdsMutex = true)
    (hstage : (s.point thread).progress = .at stage)
    (hturn : s.turn spec thread = some (stage, turn))
    (hexit : spec.exit stage thread s.data turn = some exit)
    (h : s.leave thread chosen stage exit = some s') : Change spec s (.step thread chosen) s' := by
  obtain ⟨sleepers, hwoken, rfl⟩ := map_eq_some_iff.mp h
  exact .leave hheld hstage hturn hexit hwoken

theorem change_of_decide {stage : γ} (hpoint : s.point thread = .deciding stage)
    (h : s.decide spec thread chosen stage = some s') :
    Change spec s (.step thread chosen) s' := by
  unfold State.decide at h
  have hheld : (s.point thread).holdsMutex = true := by rw [hpoint]; rfl
  have hstage : (s.point thread).progress = .at stage := by rw [hpoint]; rfl
  split at h
  · rename_i reason hreason
    have hturn : s.turn spec thread = some (stage, .abandon reason) := by
      simp only [State.turn, hpoint, hreason]
    exact change_of_leave hheld hstage hturn rfl h
  · rename_i hreason
    have hturn : s.turn spec thread = some (stage, .act) := by
      simp only [State.turn, hpoint, hreason]
    split at h
    · rename_i exit hact
      exact change_of_leave hheld hstage hturn (by simp only [Spec.exit, hact]) h
    · rename_i data wakes next hact
      obtain ⟨sleepers, hwoken, rfl⟩ := map_eq_some_iff.mp h
      exact .goOn hpoint hturn hact hwoken

theorem threadStep_change (h : s.threadStep spec thread chosen = some s') :
    Change spec s (.step thread chosen) s' := by
  unfold State.threadStep at h
  cases hpoint : s.point thread with
      simp only [hpoint] at h
  | idle | done => cases h
  | checking =>
    split at h
    · rename_i reason hreason
      cases h
      exact .refuse hpoint (by simp only [State.turn, hpoint, hreason, map_some])
    · rename_i hreason
      cases h; exact .walk (hpoint ▸ .check hreason)
  | registering =>
    -- a token that has already stopped runs the callback inside the registration
    split at h
    · rename_i htoken
      cases h; exact .walk (hpoint ▸ .tokenless htoken)
    · rename_i token htoken
      split_ifs at h with hstopped
      · cases h
        refine .book (hpoint ▸ .inline ?_)
        rw [State.stopReason, htoken]; exact hstopped
      · cases h; exact .book (hpoint ▸ .register htoken (by simpa using hstopped))
  | confirming =>
    split_ifs at h with hrunning
    · cases h
      exact .walk (hpoint ▸ .confirm (isNone_iff_eq_none.mp hrunning))
    · cases h
      refine .book (hpoint ▸ .withdraw ?_)
      exact isSome_iff_ne_none.mpr (by simpa using hrunning)
  | registered =>
    split at h
    · cases h
    · exact change_of_lock (hpoint ▸ .arrive) h
  | testing stage =>
    split at h
    · rename_i hinstant
      split_ifs at h with hready
      · cases h; exact .walk (hpoint ▸ .pass (.inl hready))
      · have hturn : s.turn spec thread = some (stage, .expire) := by
          simp only [State.turn, hpoint, hinstant, hready]; rfl
        exact change_of_leave (by rw [hpoint]; rfl) (by rw [hpoint]; rfl) hturn rfl h
    · rename_i hwaits
      split_ifs at h with hready
      · cases h; exact .walk (hpoint ▸ .pass (by simpa using hready))
      · cases h
        simp only [Bool.or_eq_true, not_or, Bool.not_eq_true, isSome_eq_false_iff,
          isNone_iff_eq_none] at hready
        exact .walk (hpoint ▸ .fall hready.1 hready.2 hwaits)
  | falling =>
    cases h; exact .sleep hpoint
  | waiting =>
    split_ifs at h with hasleep
    exact change_of_lock (hpoint ▸ .wake hasleep) h
  | overdue =>
    exact change_of_lock (hpoint ▸ .hurry) h
  | lastLook stage =>
    -- after a timeout the predicate is read once more before the call gives up
    split_ifs at h with hready
    · cases h; exact .walk (hpoint ▸ .grab (by simpa using hready))
    · simp only [Bool.or_eq_true, not_or, Bool.not_eq_true, isSome_eq_false_iff] at hready
      have hturn : s.turn spec thread = some (stage, .expire) := by
        simp only [State.turn, hpoint, hready, and_self, if_true]
      exact change_of_leave (by rw [hpoint]; rfl) (by rw [hpoint]; rfl) hturn rfl h
  | deciding =>
    exact change_of_decide hpoint h
  | leaving stage late =>
    cases late with
    | nil =>
      dsimp only at h
      split_ifs at h
      cases h; exact .book (hpoint ▸ .close)
    | cons => cases h; exact .notify hpoint

theorem step_change {move : Move τ γ ι χ} (h : s.step spec move = some s') :
    Change spec s move s' := by
  cases move with
      simp only [State.step] at h
  | call =>
    split at h
    · rename_i hidle
      split_ifs at h with hinitial
      cases h; exact .call hidle hinitial
    · cases h
  | step => exact threadStep_change h
  | rouse =>
    split at h
    · rename_i stage hpoint
      cases h; exact .rouse hpoint
    · cases h
  | lapse =>
    split at h
    · rename_i stage hpoint
      split_ifs at h with htimed
      cases h; exact .lapse hpoint htimed
    · cases h
  | stop =>
    split_ifs at h with hrunning
    cases h; exact .stop (isNone_iff_eq_none.mp hrunning)
  | fire =>
    split at h
    · rename_i token hcallback
      split_ifs at h with hstopped
      cases h; exact .fire hcallback hstopped
    · cases h
  | alarm =>
    split at h
    · rename_i inline cv rest hcallback
      cases h; exact .alarm hcallback
    · rename_i inline hcallback
      split_ifs at h with hfree
      cases h; exact .ring hcallback (isNone_iff_eq_none.mp hfree)
    · cases h

end Inversion

end Monitor
