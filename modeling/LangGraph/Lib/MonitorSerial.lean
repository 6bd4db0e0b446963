import LangGraph.Lib.MonitorChange

/-!
# Operations of a monitor happen one at a time

Only the thread that has the mutex changes the data, and behind its wait it still finds what it
waited for.  So the data and the progress of the calls change as if each operation acted at once:
`Deed` is what one operation does then, `Effect` what a move amounts to, and `Serial.invariant`
carries an invariant of the data and the calls through every run.
-/

namespace Monitor

open Function Interleaving State

variable {τ κ δ γ ρ ι χ : Type}
  {spec : Spec τ κ δ γ ρ ι χ} {s s' : State τ κ δ γ ρ ι χ}

/-! ## 1. The mutex -/

/-- What a thread at a point relies on: the call was possible, the predicate of the wait was false,
    or the wait is over. -/
def Fits (spec : Spec τ κ δ γ ρ ι χ) (s : State τ κ δ γ ρ ι χ) : Point κ γ ρ → Prop
  | .checking stage => spec.initial stage = true
  | .falling stage => spec.ready stage s.data = false
  | .deciding stage => spec.ready stage s.data = true ∨ (s.stopReason spec stage).isSome = true
  | _ => True

structure Exclusive (spec : Spec τ κ δ γ ρ ι χ) (s : State τ κ δ γ ρ ι χ) : Prop where
  mutex : ∀ thread, (s.point thread).holdsMutex = true ↔ s.owner = some thread
  fits : ∀ thread, Fits spec s (s.point thread)

theorem exclusive_start (data : δ) : Exclusive spec { data := data } where
  mutex thread := by
    constructor
    · intro h; cases h
    · intro h; cases h
  fits thread := trivial

variable {thread : τ} {stage : γ} {next : Point κ γ ρ} {owner : Option τ} {sleepers : κ → List τ}
  {move : Move τ γ ι χ}

theorem Exclusive.fits_of (h : Exclusive spec s) {point : Point κ γ ρ}
    (hpoint : s.point thread = point) : Fits spec s point := hpoint ▸ h.fits thread

theorem Fits.of_not_holdsMutex {point : Point κ γ ρ} (h : Fits spec s point)
    (hpoint : point.holdsMutex = false) : Fits spec s' point := by
  cases point with
  | falling | deciding => cases hpoint
  | checking => exact h
  | _ => trivial

variable [DecidableEq τ]

@[simp] theorem State.moveTo_point_self (thread : τ) (point : Point κ γ ρ) :
    (s.moveTo thread point).point thread = point :=
  update_self ..

theorem State.moveTo_point_of_ne {other : τ} (h : other ≠ thread) (point : Point κ γ ρ) :
    (s.moveTo thread point).point other = s.point other :=
  update_of_ne h ..

omit [DecidableEq τ] in
theorem Exclusive.unique (h : Exclusive spec s) {other : τ}
    (hthread : (s.point thread).holdsMutex = true) (hother : (s.point other).holdsMutex = true) :
    other = thread := by
  have howner := (h.mutex thread).mp hthread
  rw [(h.mutex other).mp hother] at howner; exact Option.some.inj howner

theorem Exclusive.mutex_moveTo (h : Exclusive spec s)
    (hnext : next.holdsMutex = (s.point thread).holdsMutex) (other : τ) :
    ((s.moveTo thread next).point other).holdsMutex = true ↔ s.owner = some other := by
  by_cases hother : other = thread
  · subst hother
    rw [moveTo_point_self, hnext]; exact h.mutex other
  · rw [moveTo_point_of_ne hother]; exact h.mutex other

theorem Exclusive.mutex_take (h : Exclusive spec s) (hfree : s.owner = none)
    (hnext : next.holdsMutex = true) (other : τ) :
    ((s.moveTo thread next).point other).holdsMutex = true ↔ some thread = some other := by
  by_cases hother : other = thread
  · subst hother; simp [hnext]
  · have hnot := h.mutex other
    rw [hfree] at hnot
    rw [moveTo_point_of_ne hother]
    constructor
    · intro hholds
      cases hnot.mp hholds
    · intro hsame; exact absurd (Option.some.inj hsame).symm hother

theorem Exclusive.mutex_release (h : Exclusive spec s) (hheld : (s.point thread).holdsMutex = true)
    (hnext : next.holdsMutex = false) (other : τ) :
    ((s.moveTo thread next).point other).holdsMutex = true ↔ none = some other := by
  by_cases hother : other = thread
  · subst hother; simp [hnext]
  · rw [moveTo_point_of_ne hother]
    constructor
    · intro hholds; exact absurd (h.unique hheld hholds) hother
    · intro hnone; cases hnone

theorem Exclusive.of_moveTo (h : Exclusive spec s) {thread : τ} {next : Point κ γ ρ}
    {owner : Option τ} {sleepers : κ → List τ} {callback : τ → Callback κ ι}
    (hmutex : ∀ other, ((s.moveTo thread next).point other).holdsMutex = true ↔ owner = some other)
    (hnext : Fits spec s next) :
    Exclusive spec
      { s.moveTo thread next with owner := owner, sleepers := sleepers, callback := callback } where
  mutex := hmutex
  fits other := by
    change Fits spec s ((s.moveTo thread next).point other)
    by_cases hsame : other = thread
    · subst hsame
      rw [moveTo_point_self]; exact hnext
    · rw [moveTo_point_of_ne hsame]; exact h.fits other

theorem Exclusive.of_write (h : Exclusive spec s) {thread : τ} {next : Point κ γ ρ} {data : δ}
    {owner : Option τ} {sleepers : κ → List τ} (hheld : (s.point thread).holdsMutex = true)
    (hmutex : ∀ other, ((s.moveTo thread next).point other).holdsMutex = true ↔ owner = some other)
    (hnext : ∀ s : State τ κ δ γ ρ ι χ, Fits spec s next) :
    Exclusive spec
      { s.moveTo thread next with data := data, owner := owner, sleepers := sleepers } where
  mutex := hmutex
  fits other := by
    change Fits spec _ ((s.moveTo thread next).point other)
    by_cases hsame : other = thread
    · subst hsame
      rw [moveTo_point_self]; exact hnext _
    · rw [moveTo_point_of_ne hsame]
      refine (h.fits other).of_not_holdsMutex ?_
      by_contra hholds
      exact hsame (h.unique hheld (by simpa using hholds))

omit [DecidableEq τ] in
theorem stopReason_isSome_of_stop [DecidableEq ι] {token : ι} {reason : χ}
    (h : (s.stopReason spec stage).isSome = true) :
    (stopReason spec
      { s with stopped := update s.stopped token (some reason) } stage).isSome = true := by
  unfold stopReason at h ⊢
  cases htoken : spec.token stage with
  | none =>
    rw [htoken] at h; cases h
  | some other =>
    rw [htoken] at h
    change (update s.stopped token (some reason) other).isSome = true
    by_cases hsame : other = token
    · subst hsame
      rw [update_self]; rfl
    · rw [update_of_ne hsame]; exact h

variable [DecidableEq κ] [DecidableEq ι]

theorem Exclusive.step (h : Exclusive spec s) (hstep : s.step spec move = some s') :
    Exclusive spec s' := by
  cases step_change hstep with
  | call idle initial => exact h.of_moveTo (h.mutex_moveTo (by rw [idle]; rfl)) initial
  | refuse point | notify point | lapse point =>
    exact h.of_moveTo (h.mutex_moveTo (by rw [point]; rfl)) trivial
  | @walk thread chosen next walk =>
    refine h.of_moveTo (h.mutex_moveTo walk.holdsMutex_eq) ?_
    cases next with
    | checking => exact absurd rfl walk.ne_checking
    | falling => exact walk.of_falling.1
    | deciding => exact walk.of_deciding
    | _ => trivial
  | @book thread chosen callback next booking =>
    obtain ⟨hnext, hpoint⟩ := booking.holdsMutex_eq
    refine h.of_moveTo (h.mutex_moveTo (hnext.trans hpoint.symm)) ?_
    cases next with
    | checking => exact absurd rfl booking.ne_checking
    | falling | deciding => cases hnext
    | _ => trivial
  | @lock thread chosen next free entry =>
    refine h.of_moveTo (h.mutex_take free entry.holdsMutex_eq.1) ?_
    cases next with
    | checking => cases entry.holdsMutex_eq.1
    | falling => exact absurd rfl entry.ne_falling
    | deciding => exact absurd rfl entry.ne_deciding
    | _ => trivial
  | sleep point => exact h.of_moveTo (h.mutex_release (by rw [point]; rfl) rfl) trivial
  | leave held =>
    exact h.of_write held (h.mutex_release held rfl) fun _ => trivial
  | goOn point =>
    exact h.of_write (by rw [point]; rfl) (h.mutex_moveTo (by rw [point]; rfl)) fun _ => trivial
  | rouse | fire | alarm | ring => exact ⟨h.mutex, h.fits⟩
  | stop =>
    refine ⟨h.mutex, fun thread => ?_⟩
    change Fits spec _ (s.point thread)
    cases hpoint : s.point thread with
    | checking | falling => exact h.fits_of hpoint
    | deciding =>
      rcases h.fits_of hpoint with hready | hstopped
      · exact .inl hready
      · exact .inr (stopReason_isSome_of_stop hstopped)
    | _ => trivial

/-! ## 2. Deeds -/

/-- What an operation at a stage does at once when it takes its turn: the data and the progress of
    its call afterwards. -/
inductive Deed (spec : Spec τ κ δ γ ρ ι χ) (thread : τ) (stage : γ) (data : δ) :
    Turn χ → δ → Progress γ ρ → Prop where
  | refuse (reason : χ) (initial : spec.initial stage = true) :
      Deed spec thread stage data (.refuse reason) data (.over stage (spec.refuse stage reason))
  | finish {exit : Exit δ κ ρ} (ready : spec.ready stage data = true)
      (act_eq : spec.act stage thread data = .finish exit) :
      Deed spec thread stage data .act exit.data (.over stage exit.result)
  | next {data' : δ} {wakes : List (Wake κ)} {stage' : γ} (ready : spec.ready stage data = true)
      (act_eq : spec.act stage thread data = .next data' wakes stage') :
      Deed spec thread stage data .act data' (.at stage')
  | abandon (reason : χ) :
      Deed spec thread stage data (.abandon reason)
        (spec.abandon stage reason thread data).data
        (.over stage (spec.abandon stage reason thread data).result)
  | expire (unready : spec.ready stage data = false) :
      Deed spec thread stage data .expire (spec.expire stage thread data).data
        (.over stage (spec.expire stage thread data).result)

def State.progress (s : State τ κ δ γ ρ ι χ) (thread : τ) : Progress γ ρ :=
  (s.point thread).progress

inductive Effect (spec : Spec τ κ δ γ ρ ι χ) (s : State τ κ δ γ ρ ι χ) (move : Move τ γ ι χ)
    (s' : State τ κ δ γ ρ ι χ) : Prop where
  | quiet (data : s'.data = s.data) (progress : s'.progress = s.progress)
  | begin {thread : τ} {stage : γ} (idle : s.progress thread = .idle)
      (initial : spec.initial stage = true) (data : s'.data = s.data)
      (progress : s'.progress = Function.update s.progress thread (.at stage))
  | deed {thread : τ} {chosen : List τ} {stage : γ} {turn : Turn χ} {next : Progress γ ρ}
      (move_eq : move = .step thread chosen) (stage_eq : s.progress thread = .at stage)
      (turn_eq : s.turn spec thread = some (stage, turn))
      (deed : Deed spec thread stage s.data turn s'.data next)
      (progress : s'.progress = Function.update s.progress thread next)

omit [DecidableEq κ] [DecidableEq ι] in
theorem State.moveTo_progress (thread : τ) (point : Point κ γ ρ) :
    (s.moveTo thread point).progress = update s.progress thread point.progress := by
  funext other
  unfold progress
  by_cases hother : other = thread
  · subst hother
    rw [moveTo_point_self, update_self]
  · rw [moveTo_point_of_ne hother, update_of_ne hother]

omit [DecidableEq κ] [DecidableEq ι] in
theorem State.moveTo_progress_eq {point : Point κ γ ρ}
    (h : point.progress = (s.point thread).progress) :
    (s.moveTo thread point).progress = s.progress := by
  rw [moveTo_progress, h]; exact update_eq_self ..

omit [DecidableEq τ] [DecidableEq κ] [DecidableEq ι] in
theorem Exclusive.ready_of_act (h : Exclusive spec s)
    (hturn : s.turn spec thread = some (stage, .act)) : spec.ready stage s.data = true := by
  obtain ⟨hpoint, hrunning⟩ := (due_of_turn hturn).point_eq_of_act
  rcases h.fits_of hpoint with hready | hstopped
  · exact hready
  · rw [hrunning] at hstopped; cases hstopped

omit [DecidableEq τ] [DecidableEq κ] [DecidableEq ι] in
theorem Exclusive.deed_of_exit (h : Exclusive spec s) {turn : Turn χ} {exit : Exit δ κ ρ}
    (hturn : s.turn spec thread = some (stage, turn))
    (hexit : spec.exit stage thread s.data turn = some exit) :
    Deed spec thread stage s.data turn exit.data (.over stage exit.result) := by
  cases turn with
  | refuse => cases hexit
  | act =>
    simp only [Spec.exit] at hexit
    split at hexit
    · rename_i exit' hact
      cases hexit; exact .finish (h.ready_of_act hturn) hact
    · cases hexit
  | abandon reason =>
    cases hexit; exact .abandon reason
  | expire =>
    cases hexit; exact .expire (due_of_turn hturn).unready_of_expire

theorem step_effect (h : Exclusive spec s) (hstep : s.step spec move = some s') :
    Effect spec s move s' := by
  cases step_change hstep with
  | @call thread stage idle initial =>
    exact .begin (by rw [progress, idle]; rfl) initial rfl (moveTo_progress ..)
  | @refuse thread chosen stage reason point turn =>
    exact .deed rfl (by rw [progress, point]; rfl) turn
      (.refuse reason (h.fits_of point)) (moveTo_progress ..)
  | walk walk => exact .quiet rfl (moveTo_progress_eq walk.progress_eq)
  | @book thread chosen callback next booking =>
    have hsame : next.progress = ((s.setCallback thread callback).point thread).progress :=
      booking.progress_eq
    exact .quiet rfl (moveTo_progress_eq hsame)
  | lock free entry => exact .quiet rfl (moveTo_progress_eq entry.progress_eq)
  | sleep point | lapse point => exact .quiet rfl (moveTo_progress_eq (by rw [point]; rfl))
  | leave held stage_eq turn_eq exit_eq =>
    exact .deed rfl stage_eq turn_eq (h.deed_of_exit turn_eq exit_eq) (moveTo_progress ..)
  | @goOn thread chosen stage next data wakes sleepers point turn_eq act_eq =>
    exact .deed rfl (by rw [progress, point]; rfl) turn_eq
      (.next (h.ready_of_act turn_eq) act_eq) (moveTo_progress ..)
  | notify point =>
    exact .quiet rfl (moveTo_progress_eq (by
      change _ = (s.point _).progress
      rw [point]
      rfl))
  | rouse | stop | fire | alarm | ring => exact .quiet rfl rfl

/-! ## 3. Invariants of the data and the calls -/

/-- The turns a condition speaks about: every turn of the run is taken with data that permit it. -/
def Permitted (spec : Spec τ κ δ γ ρ ι χ) (permits : γ → Turn χ → τ → δ → Prop)
    (move : Move τ γ ι χ) (s : State τ κ δ γ ρ ι χ) : Prop :=
  match move with
  | .step thread _ =>
    match s.turn spec thread with
    | some (stage, turn) => permits stage turn thread s.data
    | none => True
  | _ => True

instance (permits : γ → Turn χ → τ → δ → Prop)
    [∀ stage turn thread data, Decidable (permits stage turn thread data)]
    (move : Move τ γ ι χ) (s : State τ κ δ γ ρ ι χ) :
    Decidable (Permitted spec permits move s) := by
  cases move <;> simp only [Permitted]
  case step thread chosen =>
    exact match s.turn spec thread with
      | some (stage, turn) => inferInstanceAs (Decidable (permits stage turn thread s.data))
      | none => isTrue trivial
  all_goals exact isTrue trivial

omit [DecidableEq τ] [DecidableEq κ] [DecidableEq ι] in
theorem permitted_of_forall {permits : γ → Turn χ → τ → δ → Prop}
    (h : ∀ stage turn thread data, permits stage turn thread data) (move : Move τ γ ι χ) :
    Permitted spec permits move s := by
  cases move with
  | step =>
    simp only [Permitted]
    split
    · exact h ..
    · trivial
  | _ => trivial

/-- An invariant of the data and of the progress of the calls holds along every run in which each
    turn is permitted, if a call that begins and a permitted deed keep it. -/
theorem serial_invariant {permits : γ → Turn χ → τ → δ → Prop}
    {I : δ → (τ → Progress γ ρ) → Prop}
    (hbegin : ∀ {data progress thread stage}, I data progress → progress thread = .idle →
      spec.initial stage = true → I data (update progress thread (.at stage)))
    (hdeed : ∀ {data progress thread stage turn data' next}, I data progress →
      progress thread = .at stage → permits stage turn thread data →
      Deed spec thread stage data turn data' next →
      I data' (update progress thread next))
    {moves : List (Move τ γ ι χ)}
    (hobeys : Obeys (step spec) (Permitted spec permits) moves s)
    (hexclusive : Exclusive spec s) (hs : I s.data s.progress)
    (hrun : run (step spec) moves s = some s') : I s'.data s'.progress := by
  have hboth : Exclusive spec s' ∧ I s'.data s'.progress := by
    refine hobeys.invariant (P := fun s => Exclusive spec s ∧ I s.data s.progress) ?_
      ⟨hexclusive, hs⟩ hrun
    intro move s s' hs hpermitted hstep
    refine ⟨hs.1.step hstep, ?_⟩
    cases step_effect hs.1 hstep with
    | quiet data progress =>
      rw [data, progress]; exact hs.2
    | begin idle initial data progress =>
      rw [data, progress]; exact hbegin hs.2 idle initial
    | deed move_eq stage_eq turn_eq deed progress =>
      subst move_eq
      rw [Permitted, turn_eq] at hpermitted
      rw [progress]; exact hdeed hs.2 stage_eq hpermitted deed
  exact hboth.2

/-! ## 4. An operation that finds the monitor free -/

def Unbooked (s : State τ κ δ γ ρ ι χ) : Prop :=
  ∀ thread, s.point thread = .idle → s.callback thread = .absent

omit [DecidableEq τ] [DecidableEq κ] [DecidableEq ι] in
theorem unbooked_start (data : δ) : Unbooked ({ data := data } : State τ κ δ γ ρ ι χ) :=
  fun _ _ => rfl

omit [DecidableEq κ] [DecidableEq ι] in
theorem Unbooked.of_moveTo (h : Unbooked s) {data : δ} (hnext : next ≠ .idle) :
    Unbooked
      { s.moveTo thread next with data := data, owner := owner, sleepers := sleepers } := by
  intro other hother
  change (s.moveTo thread next).point other = _ at hother
  by_cases hsame : other = thread
  · subst hsame
    rw [moveTo_point_self] at hother; exact absurd hother hnext
  · rw [moveTo_point_of_ne hsame] at hother; exact h other hother

omit [DecidableEq κ] [DecidableEq ι] in
theorem Unbooked.of_setCallback (h : Unbooked s) {callback : Callback κ ι}
    (hthread : s.point thread ≠ .idle) :
    Unbooked { s.setCallback thread callback with sleepers := sleepers } := by
  intro other hother
  by_cases hsame : other = thread
  · subst hsame; exact absurd hother hthread
  · change update s.callback thread callback other = .absent
    rw [update_of_ne hsame]; exact h other hother

omit [DecidableEq κ] [DecidableEq ι] in
theorem Unbooked.of_callback (h : Unbooked s) {callback : Callback κ ι}
    (hthread : s.callback thread ≠ .absent) :
    Unbooked { s.setCallback thread callback with sleepers := sleepers } :=
  h.of_setCallback fun hidle => hthread (h thread hidle)

theorem Unbooked.step (h : Unbooked s) (hstep : s.step spec move = some s') : Unbooked s' := by
  cases step_change hstep with
  | call | refuse | sleep | leave | goOn | notify | lapse => exact h.of_moveTo nofun
  | @walk thread chosen next walk =>
    refine h.of_moveTo ?_
    rintro rfl
    cases hpoint : s.point thread <;> rw [hpoint] at walk <;> cases walk
  | @book thread chosen callback next booking =>
    have hthread : s.point thread ≠ .idle := by
      intro hidle
      rw [hidle] at booking; cases booking
    have hbooked : Unbooked (s.setCallback thread callback) := h.of_setCallback hthread
    refine hbooked.of_moveTo ?_
    rintro rfl
    cases hpoint : s.point thread <;> rw [hpoint] at booking <;> cases booking
  | @lock thread chosen next free entry =>
    refine h.of_moveTo ?_
    rintro rfl
    cases hpoint : s.point thread <;> rw [hpoint] at entry <;> cases entry
  | rouse | stop => exact h
  | fire callback | alarm callback | ring callback =>
    exact h.of_callback (by rw [callback]; exact nofun)

theorem exists_wakeUp (wakes : List (Wake κ)) (sleepers : κ → List τ) :
    ∃ chosen sleepers', wakeUp wakes chosen sleepers = some sleepers' := by
  induction wakes generalizing sleepers with
  | nil => exact ⟨[], sleepers, rfl⟩
  | cons wake wakes ih =>
    cases wake with
    | all cv => exact ih (update sleepers cv [])
    | one cv =>
      cases hcv : sleepers cv with
      | nil =>
        obtain ⟨chosen, sleepers', h⟩ := ih sleepers
        exact ⟨chosen, sleepers', by simp only [wakeUp, hcv, if_true, h]⟩
      | cons first rest =>
        obtain ⟨chosen, sleepers', h⟩ := ih (update sleepers cv rest)
        exact ⟨first :: chosen, sleepers', by simpa [wakeUp, hcv] using h⟩

theorem exists_solo_run {exit : Exit δ κ ρ} (hbooked : Unbooked s) (hidle : s.point thread = .idle)
    (hfree : s.owner = none) (hinitial : spec.initial stage = true)
    (htoken : spec.token stage = none) (hready : spec.ready stage s.data = true)
    (hact : spec.act stage thread s.data = .finish exit) (hlate : exit.late = []) :
    ∃ moves s', run (step spec) moves s = some s' ∧ s'.data = exit.data ∧
      s'.owner = none ∧ s'.point = update s.point thread (.done stage exit.result) := by
  obtain ⟨chosen, sleepers, hwoken⟩ := exists_wakeUp exit.wakes s.sleepers
  have hcallback : s.callback thread = .absent := hbooked thread hidle
  have hreason : ∀ s : State τ κ δ γ ρ ι χ, s.stopReason spec stage = none := by
    intro s
    rw [stopReason, htoken]; rfl
  have hmoves : ∀ p q, (s.moveTo thread p).moveTo thread q = s.moveTo thread q := by
    intro p q
    simp only [moveTo, update_idem]
  -- the two kinds of states on the way: with the mutex, and after the call has written its data
  let locked (p : Point κ γ ρ) := { s.moveTo thread p with owner := some thread }
  let left (p : Point κ γ ρ) (callback : τ → Callback κ ι) : State τ κ δ γ ρ ι χ :=
    { s.moveTo thread p with
      data := exit.data, sleepers := sleepers, owner := none, callback := callback }
  -- one equation for each step of the call
  have hcall : s.step spec (.call thread stage) = some (s.moveTo thread (.checking stage)) := by
    simp only [step, hidle, hinitial, if_true]
  have hcheck : (s.moveTo thread (.checking stage)).threadStep spec thread [] =
      some (s.moveTo thread (.registering stage)) := by
    simp only [State.threadStep, moveTo_point_self, hreason, hmoves]
  have hregister : (s.moveTo thread (.registering stage)).threadStep spec thread [] =
      some (s.moveTo thread (.registered stage)) := by
    simp only [State.threadStep, moveTo_point_self, htoken, hmoves]
  have hlock : (s.moveTo thread (.registered stage)).threadStep spec thread [] =
      some (locked (.testing stage)) := by
    simp only [State.threadStep, moveTo_point_self, lock]
    simp only [moveTo, hcallback, hfree, update_idem, locked]
  have htest : (locked (.testing stage)).threadStep spec thread [] =
      some (locked (.deciding stage)) := by
    have hpoint : (locked (.testing stage)).point thread = .testing stage :=
      moveTo_point_self ..
    have hdata : spec.ready stage (locked (.testing stage)).data = true := hready
    simp only [State.threadStep, hpoint, hdata]
    cases spec.patience stage <;>
      simp only [if_true, Bool.true_or, moveTo, update_idem, locked]
  have hdecide : (locked (.deciding stage)).threadStep spec thread chosen =
      some (left (.leaving stage exit.late exit.result) s.callback) := by
    have hpoint : (locked (.deciding stage)).point thread = .deciding stage :=
      moveTo_point_self ..
    have hexit : spec.act stage thread (locked (.deciding stage)).data = .finish exit := hact
    have hwake : wakeUp exit.wakes chosen (locked (.deciding stage)).sleepers = some sleepers :=
      hwoken
    simp only [State.threadStep, hpoint, State.decide, hreason, hexit, State.leave, hwake,
      Option.map_some]
    simp only [moveTo, update_idem, locked, left]
  have hclose : (left (.leaving stage exit.late exit.result) s.callback).threadStep spec thread
      [] = some (left (.done stage exit.result) (update s.callback thread .absent)) := by
    have hpoint : (left (.leaving stage exit.late exit.result) s.callback).point thread =
        .leaving stage [] exit.result := by
      rw [hlate]; exact moveTo_point_self ..
    have habsent : (left (.leaving stage exit.late exit.result) s.callback).callback thread =
        .absent := hcallback
    simp only [State.threadStep, hpoint, habsent]
    simp only [moveTo, setCallback, update_idem, left]; rfl
  refine ⟨[.call thread stage, .step thread [], .step thread [], .step thread [],
    .step thread [], .step thread chosen, .step thread []],
    left (.done stage exit.result) (update s.callback thread .absent), ?_, rfl, rfl, rfl⟩
  simp only [run, hcall]
  simp only [step, hcheck, hregister, hlock, htest, hdecide, hclose, Option.bind_some]

end Monitor
