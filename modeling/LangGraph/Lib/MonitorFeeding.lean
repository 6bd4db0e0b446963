import LangGraph.Lib.MonitorWakeups

/-!
# No lost wake-up

Where threads sleep at a condition variable, its supply is spoken for: as many threads are awake and
will take their share, or somebody is about to notify for good.  A thread that sleeps although there
is some of the supply is therefore not stuck.  A cancelled operation that takes a notification with
it is what has to be excluded.
-/

namespace Monitor

open Function Interleaving List State

variable {τ κ δ γ ρ ι χ : Type} [DecidableEq τ] [DecidableEq κ]

/-! ## 1. The supply is spoken for -/

section Feeding

variable {spec : Spec τ κ δ γ ρ ι χ} {heed : γ → Turn χ → Bool → δ → (κ → List τ) → Prop}
  (r : Rationing spec heed) {s s' : State τ κ δ γ ρ ι χ}

/-- A thread that will take its share of the supply, or whose callback will notify everybody. -/
structure Counted (s : State τ κ δ γ ρ ι χ) (cv : κ) (thread : τ) (stage : γ) : Prop where
  counts : r.counts cv = true
  cv_eq : spec.cv stage = cv
  waits : spec.patience stage ≠ .instant
  awake : Awake spec s thread stage
  trusty : s.stopReason spec stage = none ∨ (s.callback thread).owes cv = true

/-- Nobody sleeps at the condition variable, it is about to be notified for good, or its supply is
    spoken for by threads that are awake. -/
inductive Fed (s : State τ κ δ γ ρ ι χ) (cv : κ) : Prop where
  | nobody (empty : s.sleepers cv = [])
  | late {thread : τ} {stage : γ} {late : List κ} {result : ρ}
      (point : s.point thread = .leaving stage late result) (mem : cv ∈ late)
  | claimed (awake : Finset τ) (running : r.shut s.data = false)
      (counted : ∀ thread ∈ awake, ∃ stage, Counted r s cv thread stage)
      (enough : r.supply cv s.data ≤ awake.card)

variable {r}

theorem fed_start (data : δ) (cv : κ) : Fed r { data := data } cv := .nobody rfl

variable {thread : τ} {stage : γ} {cv : κ} {next : Point κ γ ρ} {sleepers : κ → List τ}
  {turn : Turn χ} {chosen : List τ}

omit [DecidableEq τ] [DecidableEq κ] in
theorem Awake.bookedStage (h : Awake spec s thread stage) :
    (s.point thread).bookedStage = some stage := by
  cases h with
  | woken point | testing point | overdue point | lastLook point | deciding point => rw [point]; rfl

omit [DecidableEq κ] in
theorem Point.progress_of_bookedStage {point : Point κ γ ρ} (h : point.bookedStage = some stage) :
    point.progress = .at stage := by
  cases point <;> cases h <;> rfl

omit [DecidableEq τ] [DecidableEq κ] in
theorem Awake.not_asleep {stage' : γ} (h : Awake spec s thread stage)
    (hpoint : s.point thread = .waiting stage') : thread ∉ s.sleepers (spec.cv stage') := by
  cases h with
  | woken point awake =>
    cases hpoint.symm.trans point; exact awake
  | _ => simp_all

omit [DecidableEq τ] [DecidableEq κ] in
theorem Awake.of_point_eq (h : Awake spec s thread stage)
    (hpoint : s'.point thread = s.point thread)
    (hsub : ∀ cv, thread ∉ s.sleepers cv → thread ∉ s'.sleepers cv) :
    Awake spec s' thread stage := by
  cases h with
  | woken point awake => exact .woken (hpoint.trans point) (hsub _ awake)
  | testing point => exact .testing (hpoint.trans point)
  | overdue point => exact .overdue (hpoint.trans point)
  | lastLook point => exact .lastLook (hpoint.trans point)
  | deciding point => exact .deciding (hpoint.trans point)

theorem Fed.mono {cv : κ} (h : Fed r s cv) (hdata : s'.data = s.data)
    (hempty : s.sleepers cv = [] → s'.sleepers cv = [])
    (hlate : ∀ {thread stage late result}, s.point thread = .leaving stage late result → cv ∈ late →
      s'.sleepers cv = [] ∨ ∃ thread stage late result,
        s'.point thread = .leaving stage late result ∧ cv ∈ late)
    (hcounted : ∀ {thread stage}, Counted r s cv thread stage →
      s'.sleepers cv = [] ∨ ∃ stage', Counted r s' cv thread stage') : Fed r s' cv := by
  by_cases hnobody : s'.sleepers cv = []
  · exact .nobody hnobody
  · cases h with
    | nobody empty => exact .nobody (hempty empty)
    | late point mem =>
      rcases hlate point mem with hnobody' | ⟨_, _, _, _, point', mem'⟩
      · exact .nobody hnobody'
      · exact .late point' mem'
    | claimed awake running counted enough =>
      refine .claimed _ (hdata ▸ running) (fun thread hthread => ?_) (hdata ▸ enough)
      obtain ⟨stage, hstage⟩ := counted thread hthread
      exact (hcounted hstage).resolve_left hnobody

theorem Fed.of_moveTo {cv : κ} (h : Fed r s cv) {thread : τ} {next : Point κ γ ρ}
    {owner : Option τ} {sleepers : κ → List τ}
    (hempty : s.sleepers cv = [] → sleepers cv = [])
    (hsub : ∀ cv other, other ≠ thread → other ∉ s.sleepers cv → other ∉ sleepers cv)
    (hleaving : ∀ stage late result, s.point thread = .leaving stage late result → cv ∉ late)
    (hself : ∀ stage, Counted r s cv thread stage →
      Awake spec { s.moveTo thread next with owner := owner, sleepers := sleepers } thread stage) :
    Fed r { s.moveTo thread next with owner := owner, sleepers := sleepers } cv := by
  refine h.mono rfl hempty (fun {other} _ _ _ point mem => .inr ?_) fun {other stage} hcounted => ?_
  · have hother : other ≠ thread := by rintro rfl; exact hleaving _ _ _ point mem
    exact ⟨other, _, _, _, (moveTo_point_of_ne hother next).trans point, mem⟩
  · refine .inr ⟨stage, { hcounted with awake := ?_ }⟩
    by_cases hother : other = thread
    · subst hother; exact hself stage hcounted
    · exact hcounted.awake.of_point_eq (moveTo_point_of_ne hother next)
        fun cv => hsub cv other hother

theorem Counted.ne_of_bookedStage (h : Counted r s cv thread stage) :
    (s.point thread).bookedStage ≠ none := by
  rw [h.awake.bookedStage]; exact nofun

theorem Counted.stage_eq {stage' : γ} (h : Counted r s cv thread stage')
    (hstage : (s.point thread).progress = .at stage) : stage' = stage := by
  cases (Point.progress_of_bookedStage h.awake.bookedStage).symm.trans hstage; rfl

theorem Fed.of_unbooked (h : Fed r s cv) (hnone : (s.point thread).bookedStage = none)
    (hleaving : ∀ stage late result, s.point thread ≠ .leaving stage late result) :
    Fed r (s.moveTo thread next) cv :=
  h.of_moveTo id (fun _ _ _ => id) (fun _ _ _ hpoint => absurd hpoint (hleaving _ _ _))
    fun _ hcounted => absurd hnone hcounted.ne_of_bookedStage

/-- Who is woken by the thread with the mutex counts from then on. -/
theorem Bedded.counted_of_woken (h : Bedded spec s) (hcounts : r.counts cv = true)
    (hheld : (s.point thread).holdsMutex = true) {other : τ} (hasleep : other ∈ s.sleepers cv)
    (hwoken : other ∉ sleepers cv) {data : δ} {owner : Option τ} :
    ∃ stage, Counted r
      { s.moveTo thread next with data := data, sleepers := sleepers, owner := owner }
      cv other stage := by
  obtain ⟨stage, hpoint, hcv⟩ := h.asleep cv other hasleep
  have hne : other ≠ thread := by
    rintro rfl
    rw [hpoint] at hheld; cases hheld
  refine ⟨stage, hcounts, hcv, h.waits other stage (by rw [hpoint]; rfl),
    .woken ((moveTo_point_of_ne hne next).trans hpoint) (hcv ▸ hwoken), ?_⟩
  cases hreason : s.stopReason spec stage with
  | none => exact .inl hreason
  | some =>
    have howed := h.owed other stage hpoint (hcv ▸ hasleep) (by rw [hreason]; rfl)
    exact .inr (hcv ▸ howed)

theorem Fed.of_write {cv : κ} (h : Fed r s cv) (hbedded : Bedded spec s) {thread : τ} {stage : γ}
    {turn : Turn χ} {data : δ} {wakes : List (Wake κ)} {late : List κ} {chosen : List τ}
    {sleepers : κ → List τ} {next : Point κ γ ρ} {owner : Option τ}
    (hheld : (s.point thread).holdsMutex = true)
    (hstage : (s.point thread).progress = .at stage)
    {owes : Bool} (hheed : heed stage turn owes s.data s.sleepers)
    (hwrites : Writes spec thread stage s.data turn data wakes late)
    (hready : turn = .act → spec.ready stage s.data = true)
    (hwoken : wakeUp wakes chosen s.sleepers = some sleepers)
    (habandon : turn.isAct = false → r.shut s.data = false → s.sleepers cv = [] ∨
      r.supply cv s.data = 0 ∨ ∀ stage, ¬ Counted r s cv thread stage)
    (hnext : late ≠ [] → ∃ stage' result, next = .leaving stage' late result) :
    Fed r { s.moveTo thread next with data := data, sleepers := sleepers, owner := owner } cv := by
  obtain ⟨-, hsub, hcard⟩ := wakeUp_spec hwoken hbedded.nodup cv
  let after : State τ κ δ γ ρ ι χ :=
    { s.moveTo thread next with data := data, sleepers := sleepers, owner := owner }
  have hothers : ∀ {other}, other ≠ thread → after.point other = s.point other :=
    fun hother => moveTo_point_of_ne hother next
  have hnobody : s.sleepers cv = [] → sleepers cv = [] := fun hempty =>
    eq_nil_of_subset_nil fun other hother => hempty ▸ hsub other hother
  cases h with
  | nobody empty => exact .nobody (hnobody empty)
  | @late other _ _ _ point mem =>
    have hother : other ≠ thread := by
      rintro rfl
      rw [point] at hheld; cases hheld
    exact .late ((hothers hother).trans point) mem
  | claimed awake running counted enough =>
    cases hshut : r.shut data with
    | true =>
      -- what shuts the monitor is about to notify everybody
      have hlate := r.announces hwrites hready running hshut
      obtain ⟨stage', result, rfl⟩ := hnext (ne_nil_of_mem (hlate cv))
      exact .late (moveTo_point_self ..) (hlate cv)
    | false =>
      have hbefore : r.counts cv = true ∨ r.supply cv s.data = 0 := by
        rcases awake.eq_empty_or_nonempty with rfl | ⟨other, hother⟩
        · exact .inr (Nat.le_zero.mp enough)
        · obtain ⟨_, hcounted⟩ := counted other hother
          exact .inl hcounted.counts
      rcases r.feeds hheed hwrites hready hwoken running hshut cv hbefore with
        hempty | hzero | ⟨hcounts, hfeeds⟩
      · exact .nobody hempty
      · exact .claimed ∅ hshut (by simp) (Nat.le_of_eq hzero)
      rcases hcard with hempty | ⟨woken, hwokencard, hwokenmem⟩
      · exact .nobody hempty
      -- who was woken claims what was added
      have hwokencounted : ∀ other ∈ woken, ∃ stage', Counted r after cv other stage' := by
        intro other hother
        obtain ⟨hasleep, hawoken⟩ := hwokenmem other hother
        exact hbedded.counted_of_woken hcounts hheld hasleep hawoken
      have hstill : ∀ other ∈ awake, other ≠ thread → ∃ stage', Counted r after cv other stage' := by
        intro other hother hne
        obtain ⟨stage', hcounted⟩ := counted other hother
        refine ⟨stage', { hcounted with awake := ?_ }⟩
        exact hcounted.awake.of_point_eq (hothers hne) fun cv' hcv' hmem =>
          hcv' ((wakeUp_spec hwoken hbedded.nodup cv').2.1 other hmem)
      have hdisjoint : Disjoint (awake.erase thread) woken := by
        refine Finset.disjoint_left.mpr fun other hother hmem => ?_
        obtain ⟨stage', hpoint, hcv⟩ := hbedded.asleep cv other (hwokenmem other hmem).1
        obtain ⟨_, hcounted⟩ := counted other (Finset.mem_of_mem_erase hother)
        exact hcounted.awake.not_asleep hpoint (hcv ▸ (hwokenmem other hmem).1)
      have hunion : ∀ other ∈ awake.erase thread ∪ woken, ∃ stage', Counted r after cv other stage' := by
        intro other hother
        rcases Finset.mem_union.mp hother with hmem | hmem
        · exact hstill other (Finset.mem_of_mem_erase hmem) (Finset.ne_of_mem_erase hmem)
        · exact hwokencounted other hmem
      have hunioncard : (awake.erase thread ∪ woken).card =
          (awake.erase thread).card + wakes.count (.one cv) := by
        rw [Finset.card_union_of_disjoint hdisjoint, hwokencard]
      by_cases hmem : thread ∈ awake
      · obtain ⟨stage', hcounted⟩ := counted thread hmem
        obtain rfl := hcounted.stage_eq hstage
        have herase := Finset.card_erase_of_mem hmem
        cases hact : turn.isAct with
        | true =>
          -- the thread takes the share it claimed
          have hone : spec.consumes stage' turn cv = 1 := by
            rw [Spec.consumes, if_pos ⟨hact, hcounted.cv_eq, hcounted.waits⟩]
          refine .claimed _ hshut hunion ?_
          change r.supply cv data ≤ _; omega
        | false =>
          rcases habandon hact running with hempty | hzero | hnot
          · exact .nobody (hnobody hempty)
          · refine .claimed woken hshut hwokencounted ?_
            change r.supply cv data ≤ _; omega
          · exact absurd hcounted (hnot stage')
      · rw [Finset.erase_eq_of_notMem hmem] at hunion hunioncard
        refine .claimed _ hshut hunion ?_
        change r.supply cv data ≤ _; omega

theorem Rationing.supply_eq_zero {data : δ} (hwaits : spec.patience stage ≠ .instant)
    (hunready : spec.ready stage data = false) :
    r.shut data = false ∧ r.supply (spec.cv stage) data = 0 := by
  have hnot : ¬ (r.shut data = true ∨ 0 < r.supply (spec.cv stage) data) := by
    rw [← r.ready_iff stage data hwaits, hunready]; exact Bool.false_ne_true
  constructor
  · exact Bool.eq_false_iff.mpr fun hshut => hnot (.inl hshut)
  · exact Nat.eq_zero_of_not_pos fun hpos => hnot (.inr hpos)

theorem Fed.of_supply_eq_zero (hshut : r.shut s.data = false) (hzero : r.supply cv s.data = 0) :
    Fed r s cv :=
  .claimed ∅ hshut (by simp) (Nat.le_of_eq hzero)

theorem Fed.walk (h : Fed r s cv) (hwalk : Walk spec s (s.point thread) next) :
    Fed r (s.moveTo thread next) cv := by
  have hleaving : ∀ stage late result, s.point thread = .leaving stage late result → cv ∉ late := by
    intro stage late result hpoint
    rw [hpoint] at hwalk; cases hwalk
  have hdecides : ∀ {stage}, (s.point thread).bookedStage = some stage →
      Fed r (s.moveTo thread (.deciding stage)) cv := by
    intro stage hbooked
    refine h.of_moveTo id (fun _ _ _ => id) hleaving fun stage' hcounted => ?_
    cases hbooked.symm.trans hcounted.awake.bookedStage
    exact .deciding (moveTo_point_self ..)
  generalize hpoint : s.point thread = point at hwalk
  cases hwalk with
  | @fall stage unready running waits =>
    obtain ⟨hshut, hzero⟩ := r.supply_eq_zero waits unready
    by_cases hcv : spec.cv stage = cv
    · exact .of_supply_eq_zero hshut (hcv ▸ hzero)
    · refine h.of_moveTo id (fun _ _ _ => id) hleaving fun stage' hcounted => ?_
      -- the thread waits at another condition variable
      have hbooked := hcounted.awake.bookedStage
      rw [hpoint] at hbooked
      cases hbooked; exact absurd hcounted.cv_eq hcv
  | check | tokenless => exact h.of_unbooked (by rw [hpoint]; rfl) (by rw [hpoint]; nofun)
  | confirm =>
    refine h.of_moveTo id (fun _ _ _ => id) hleaving fun _ hcounted => ?_
    cases hcounted.awake <;> simp_all
  | pass | grab => exact hdecides (by rw [hpoint]; rfl)

theorem Fed.book (h : Fed r s cv) {callback : Callback κ ι}
    (hbooking : Booking spec s thread (s.point thread) callback next) :
    Fed r ((s.setCallback thread callback).moveTo thread next) cv := by
  have hasleep : ∀ stage, ¬ Awake spec s thread stage := by
    intro stage hawake
    generalize hpoint : s.point thread = point at hbooking
    cases hbooking <;> cases hawake <;> simp_all
  have hleaving : ∀ stage late result, s.point thread = .leaving stage late result → late = [] := by
    intro stage late result hpoint
    rw [hpoint] at hbooking
    cases hbooking; rfl
  refine h.mono rfl id (fun {other _ _ _} point mem => .inr ?_) fun {other stage} hcounted => ?_
  · have hother : other ≠ thread := by
      rintro rfl
      rw [hleaving _ _ _ point] at mem; cases mem
    exact ⟨other, _, _, _, (moveTo_point_of_ne hother next).trans point, mem⟩
  · have hother : other ≠ thread := by rintro rfl; exact hasleep stage hcounted.awake
    refine .inr ⟨stage, hcounted.counts, hcounted.cv_eq, hcounted.waits, ?_, ?_⟩
    · exact hcounted.awake.of_point_eq (moveTo_point_of_ne hother next) fun _ => id
    · change _ ∨ (update s.callback thread callback other).owes cv = true
      rw [update_of_ne hother]; exact hcounted.trusty

theorem Fed.lock (h : Fed r s cv) (hentry : Entry spec s thread (s.point thread) next) :
    Fed r { s.moveTo thread next with owner := some thread } cv := by
  have hleaving : ∀ stage late result, s.point thread = .leaving stage late result → cv ∉ late := by
    intro stage late result hpoint
    rw [hpoint] at hentry; cases hentry
  refine h.of_moveTo id (fun _ _ _ => id) hleaving fun stage hcounted => ?_
  have hbooked := hcounted.awake.bookedStage
  generalize s.point thread = point at hentry hbooked
  cases hentry with
  | arrive | wake =>
    cases hbooked; exact .testing (moveTo_point_self ..)
  | hurry =>
    cases hbooked; exact .lastLook (moveTo_point_self ..)

theorem Fed.sleep (h : Fed r s cv) (hexclusive : Exclusive spec s) (hbedded : Bedded spec s)
    (hpoint : s.point thread = .falling stage) :
    Fed r { s.moveTo thread (.waiting stage) with
      owner := none
      sleepers := update s.sleepers (spec.cv stage)
        (thread :: s.sleepers (spec.cv stage)) } cv := by
  obtain ⟨hshut, hzero⟩ := r.supply_eq_zero
    (hbedded.waits thread stage (by rw [hpoint]; rfl)) (hexclusive.fits_of hpoint)
  by_cases hcv : cv = spec.cv stage
  · exact .of_supply_eq_zero hshut (hcv ▸ hzero)
  · refine h.of_moveTo (fun hempty => ?_) (fun cv' other hother hnot => ?_)
      (fun stage' late result hpoint' => ?_) fun stage' hcounted => ?_
    · rw [update_of_ne hcv]; exact hempty
    · by_cases hcv' : cv' = spec.cv stage
      · subst hcv'
        rw [update_self]
        exact not_mem_cons_of_ne_of_not_mem hother hnot
      · rwa [update_of_ne hcv']
    · rw [hpoint] at hpoint'; cases hpoint'
    · have hbooked := hcounted.awake.bookedStage
      rw [hpoint] at hbooked
      cases hbooked; exact absurd hcounted.cv_eq.symm hcv

omit [DecidableEq τ] in
theorem heed_of_careful (h : Careful spec heed (.step thread chosen) s)
    (hturn : s.turn spec thread = some (stage, turn)) :
    heed stage turn ((s.callback thread).owes (spec.cv stage)) s.data s.sleepers := by
  simp only [Careful, hturn] at h; exact h

theorem not_counted_of_turn (hcareful : Careful spec heed (.step thread chosen) s)
    (hstage : (s.point thread).progress = .at stage)
    (hturn : s.turn spec thread = some (stage, turn)) (hheld : (s.point thread).holdsMutex = true)
    (hact : turn.isAct = false) (hshut : r.shut s.data = false) :
    s.sleepers cv = [] ∨ r.supply cv s.data = 0 ∨ ∀ stage, ¬ Counted r s cv thread stage := by
  by_cases hcounted : ∃ stage, Counted r s cv thread stage
  · obtain ⟨stage', hcounted⟩ := hcounted
    obtain rfl := hcounted.stage_eq hstage
    obtain rfl := hcounted.cv_eq
    cases hready : spec.ready stage' s.data with
    | false => exact .inr (.inl (r.supply_eq_zero hcounted.waits hready).2)
    | true =>
      cases turn with
      | act => cases hact
      | refuse =>
        rw [(due_of_turn hturn).holdsMutex_of_refuse] at hheld; cases hheld
      | abandon =>
        have hheed := heed_of_careful hcareful hturn
        rcases hcounted.trusty with hrunning | howed
        · rw [(due_of_turn hturn).stopReason_of_abandon] at hrunning; cases hrunning
        · rw [howed] at hheed
          exact .inl (r.yields hheed hcounted.counts hcounted.waits hshut hready)
      | expire =>
        rw [(due_of_turn hturn).unready_of_expire] at hready; cases hready
  · exact .inr (.inr fun stage' hstage' => hcounted ⟨stage', hstage'⟩)

theorem Fed.notify {other : κ} (h : Fed r s cv) {late : List κ} {result : ρ}
    (hpoint : s.point thread = .leaving stage (other :: late) result) :
    Fed r ((s.notifyAll other).moveTo thread (.leaving stage late result)) cv := by
  by_cases hcv : cv = other
  · subst hcv; exact .nobody (update_self ..)
  · have hsleepers : ∀ {cv'}, cv' ≠ other → (s.notifyAll other).sleepers cv' = s.sleepers cv' :=
      fun hne => update_of_ne hne ..
    refine h.mono rfl (fun hempty => (hsleepers hcv).trans hempty)
      (fun {sender stage' late' result'} point mem => .inr ?_) fun {sender stage'} hcounted => ?_
    · by_cases hsender : sender = thread
      · subst hsender
        rw [hpoint] at point
        cases point
        exact ⟨sender, _, _, _, moveTo_point_self .., (mem_cons.mp mem).resolve_left hcv⟩
      · exact ⟨sender, _, _, _, (moveTo_point_of_ne hsender _).trans point, mem⟩
    · have hsender : sender ≠ thread := by
        rintro rfl; exact hcounted.ne_of_bookedStage (by rw [hpoint]; rfl)
      refine .inr ⟨stage', { hcounted with awake := ?_ }⟩
      refine hcounted.awake.of_point_eq (moveTo_point_of_ne hsender _) fun cv' hnot => ?_
      by_cases hcv' : cv' = other
      · subst hcv'
        change sender ∉ update s.sleepers cv' [] cv'
        rw [update_self]; exact not_mem_nil
      · change sender ∉ update s.sleepers other [] cv'
        rwa [update_of_ne hcv']

theorem Fed.of_callback {cv : κ} (h : Fed r s cv) {sleepers : κ → List τ}
    {stopped : ι → Option χ} {callback : τ → Callback κ ι}
    (hsub : ∀ cv, ∀ thread ∈ sleepers cv, thread ∈ s.sleepers cv)
    (htrusty : ∀ {thread stage}, Counted r s cv thread stage → sleepers cv = [] ∨
      stopReason spec { s with stopped := stopped } stage = none ∨
        (callback thread).owes cv = true) :
    Fed r { s with sleepers := sleepers, stopped := stopped, callback := callback } cv := by
  refine h.mono rfl (fun hempty => ?_) (fun point mem => .inr ⟨_, _, _, _, point, mem⟩)
    fun {thread stage} hcounted => ?_
  · exact eq_nil_of_subset_nil fun thread hthread => hempty ▸ hsub cv thread hthread
  · rcases htrusty hcounted with hempty | htrusty
    · exact .inl hempty
    · refine .inr ⟨stage, { hcounted with awake := ?_, trusty := htrusty }⟩
      exact hcounted.awake.of_point_eq rfl fun cv' hnot hmem => hnot (hsub cv' thread hmem)

variable [DecidableEq ι]

theorem Fed.stop (h : Fed r s cv) (hbedded : Bedded spec s) (token : ι) (reason : χ) :
    Fed r { s with stopped := update s.stopped token (some reason) } cv := by
  refine h.of_callback (fun _ _ => id) fun {thread stage} hcounted => .inr ?_
  obtain rfl := hcounted.cv_eq
  exact hbedded.owes_of_stop token reason hcounted.awake.bookedStage hcounted.trusty

omit [DecidableEq ι] in
theorem Fed.of_setCallback (h : Fed r s cv) {callback : Callback κ ι}
    (howes : (s.callback thread).owes cv = true → callback.owes cv = true) :
    Fed r (s.setCallback thread callback) cv := by
  refine h.of_callback (fun _ _ => id) fun {other stage} hcounted => .inr ?_
  rcases hcounted.trusty with hrunning | howed
  · exact .inl hrunning
  · refine .inr ?_
    by_cases hother : other = thread
    · subst hother
      rw [update_self]; exact howes howed
    · rw [update_of_ne hother]; exact howed

omit [DecidableEq ι] in
theorem Fed.alarm {other : κ} (h : Fed r s cv) {inline : Bool} {rest : List κ}
    (hcallback : s.callback thread = .running inline (other :: rest)) :
    Fed r ((s.notifyAll other).setCallback thread (.running inline rest)) cv := by
  by_cases hcv : cv = other
  · subst hcv; exact .nobody (update_self ..)
  · have hnotified : Fed r (s.notifyAll other) cv := by
      refine h.of_callback (fun cv' sender hsender => ?_) fun hcounted => .inr hcounted.trusty
      by_cases hcv' : cv' = other
      · subst hcv'
        rw [update_self] at hsender; cases hsender
      · rwa [update_of_ne hcv'] at hsender
    refine hnotified.of_setCallback fun howes => ?_
    have hbefore : (s.callback thread).owes cv = true := howes
    rw [hcallback] at hbefore
    exact decide_eq_true ((mem_cons.mp (of_decide_eq_true hbefore)).resolve_left hcv)

theorem Fed.step {move : Move τ γ ι χ} (h : Fed r s cv) (hexclusive : Exclusive spec s)
    (hbedded : Bedded spec s) (hcareful : Careful spec heed move s)
    (hstep : s.step spec move = some s') : Fed r s' cv := by
  cases step_change hstep with
  | @call thread stage idle =>
    exact h.of_unbooked (by rw [idle]; rfl) (by rw [idle]; nofun)
  | @refuse thread chosen stage reason point =>
    exact h.of_unbooked (by rw [point]; rfl) (by rw [point]; nofun)
  | walk walk => exact h.walk walk
  | book booking => exact h.book booking
  | lock free entry => exact h.lock entry
  | sleep point => exact h.sleep hexclusive hbedded point
  | @leave thread chosen stage turn exit sleepers held stage_eq turn_eq exit_eq woken =>
    refine h.of_write hbedded held stage_eq (heed_of_careful hcareful turn_eq) (.exit exit_eq)
      (fun hact => hexclusive.ready_of_act (hact ▸ turn_eq)) woken
      (not_counted_of_turn hcareful stage_eq turn_eq held) fun _ => ⟨stage, exit.result, rfl⟩
  | @goOn thread chosen stage next data wakes sleepers point turn_eq act_eq woken =>
    exact h.of_write hbedded (by rw [point]; rfl) (by rw [point]; rfl)
      (heed_of_careful hcareful turn_eq) (.next act_eq)
      (fun _ => hexclusive.ready_of_act turn_eq) woken (fun hact => nomatch hact)
      fun hlate => absurd rfl hlate
  | notify point => exact h.notify point
  | @rouse thread stage =>
    exact h.of_callback (hbedded.rouse (spec.cv stage) thread).2 fun hcounted =>
      .inr hcounted.trusty
  | @lapse thread stage point =>
    have hsub := (hbedded.rouse (spec.cv stage) thread).2
    refine h.of_moveTo (fun hempty => ?_) (fun cv' other _ hnot hmem => hnot (hsub cv' other hmem))
      (fun _ _ _ hpoint => ?_) fun stage' hcounted => ?_
    · exact eq_nil_of_subset_nil fun other hother => hempty ▸ hsub cv other hother
    · rw [point] at hpoint; cases hpoint
    · have hbooked := hcounted.awake.bookedStage
      rw [point] at hbooked
      cases hbooked; exact .overdue (moveTo_point_self ..)
  | stop => exact h.stop hbedded _ _
  | fire => exact h.of_setCallback fun _ => decide_eq_true (r.alarm cv)
  | alarm callback => exact h.alarm callback
  | ring callback =>
    refine h.of_setCallback fun howes => ?_
    rw [callback] at howes; cases howes

end Feeding

/-! ## 2. Whole runs -/

section Runs

variable [DecidableEq ι]

variable {spec : Spec τ κ δ γ ρ ι χ} {heed : γ → Turn χ → Bool → δ → (κ → List τ) → Prop}
  {s s' : State τ κ δ γ ρ ι χ}

/-- What keeps the sleepers of a monitor from being forgotten. -/
structure Wakeful (r : Rationing spec heed) (s : State τ κ δ γ ρ ι χ) : Prop where
  exclusive : Exclusive spec s
  bedded : Bedded spec s
  fed : ∀ cv, Fed r s cv

omit [DecidableEq ι] in
theorem wakeful_start (r : Rationing spec heed) (data : δ) :
    Wakeful r ({ data := data } : State τ κ δ γ ρ ι χ) where
  exclusive := exclusive_start data
  bedded := bedded_start data
  fed := fed_start data

theorem Wakeful.step {r : Rationing spec heed} {move : Move τ γ ι χ} (h : Wakeful r s)
    (hcareful : Careful spec heed move s) (hstep : s.step spec move = some s') :
    Wakeful r s' where
  exclusive := h.exclusive.step hstep
  bedded := h.bedded.step r hcareful hstep
  fed cv := (h.fed cv).step h.exclusive h.bedded hcareful hstep

omit [DecidableEq ι] in
theorem Wakeful.not_stuck {r : Rationing spec heed} (h : Wakeful r s) (thread : τ) (stage : γ) :
    ¬ Stuck spec s thread stage := by
  intro hstuck
  have hpoint := hstuck.point
  have hwaits : spec.patience stage ≠ .instant :=
    h.bedded.waits thread stage (by rw [hpoint]; rfl)
  cases hreason : s.stopReason spec stage with
  | some =>
    -- a sleeper whose token is stopped is woken by its own callback
    have hstopped : (s.stopReason spec stage).isSome = true := by rw [hreason]; rfl
    refine hstuck.silent (.callback ?_ hstopped
      (h.bedded.owed thread stage hpoint hstuck.asleep hstopped))
    rw [State.progress, hpoint]; rfl
  | none =>
    have hready : spec.ready stage s.data = true := by
      rcases hstuck.predicate with hready | hstopped
      · exact hready
      · rw [hreason] at hstopped; cases hstopped
    cases h.fed (spec.cv stage) with
    | nobody empty =>
      have hasleep := hstuck.asleep
      rw [empty] at hasleep; cases hasleep
    | late point mem => exact hstuck.silent (.late point mem)
    | claimed awake running counted enough =>
      have hpos : 0 < r.supply (spec.cv stage) s.data := by
        rcases (r.ready_iff stage s.data hwaits).mp hready with hshut | hpos
        · rw [running] at hshut; cases hshut
        · exact hpos
      obtain ⟨other, hother⟩ := Finset.card_pos.mp (Nat.lt_of_lt_of_le hpos enough)
      obtain ⟨stage', hcounted⟩ := counted other hother
      refine hstuck.silent ?_
      cases hreason' : s.stopReason spec stage' with
      | none =>
        have hready' : spec.ready stage' s.data = true :=
          (r.ready_iff stage' s.data hcounted.waits).mpr (.inr (hcounted.cv_eq ▸ hpos))
        exact .operation hcounted.cv_eq hcounted.awake hreason' hready'
          (r.productive stage' other s.data (hcounted.cv_eq ▸ hcounted.counts) hcounted.waits
            hready' running)
      | some =>
        refine .callback (Point.progress_of_bookedStage hcounted.awake.bookedStage)
          (by rw [hreason']; rfl) ?_
        rcases hcounted.trusty with hrunning | howes
        · rw [hreason'] at hrunning; cases hrunning
        · exact howes

variable {data : δ} {moves : List (Move τ γ ι χ)} {cv : κ} {thread : τ}

theorem not_stuck_of_obeys (r : Rationing spec heed)
    (hcareful : Obeys (step spec) (Careful spec heed) moves { data := data })
    (hrun : run (step spec) moves { data := data } = some s) (thread : τ)
    (stage : γ) : ¬ Stuck spec s thread stage :=
  (hcareful.invariant (P := Wakeful r) (fun h hallowed hstep => h.step hallowed hstep)
    (wakeful_start r data) hrun).not_stuck thread stage

/-- A thread that notifies nobody: its call has not begun or is over, or it sleeps and its callback
    does not notify the condition variable. -/
def Resting (spec : Spec τ κ δ γ ρ ι χ) (s : State τ κ δ γ ρ ι χ) (cv : κ) (thread : τ) : Bool :=
  match s.point thread with
  | .idle | .done _ _ => true
  | .waiting stage =>
    decide (thread ∈ s.sleepers (spec.cv stage)) &&
      ((s.stopReason spec stage).isNone || !(s.callback thread).owes cv)
  | _ => false

omit [DecidableEq ι] in
theorem not_awake_of_resting {stage : γ} (h : Resting spec s cv thread = true) :
    ¬ Awake spec s thread stage := by
  intro hawake
  unfold Resting at h
  cases hawake with
  | woken point awake =>
    rw [point] at h; exact awake (of_decide_eq_true (Bool.and_eq_true_iff.mp h).1)
  | _ => simp_all

omit [DecidableEq ι] in
theorem not_aboutToNotify (h : ∀ thread, Resting spec s cv thread = true) :
    ¬ AboutToNotify spec s cv := by
  intro hnotify
  cases hnotify with
  | @late thread stage late result point =>
    have hrest := h thread
    rw [Resting, point] at hrest; cases hrest
  | @callback thread stage progress stopped owes =>
    have hrest := h thread
    unfold State.progress at progress
    unfold Resting at hrest
    cases hpoint : s.point thread with
    | waiting =>
      rw [hpoint] at hrest progress
      cases progress
      have hsilent := (Bool.and_eq_true_iff.mp hrest).2
      rw [owes, Option.isNone_eq_false_iff.mpr stopped] at hsilent; cases hsilent
    | idle | done => rw [hpoint] at progress; cases progress
    | _ => rw [hpoint] at hrest; cases hrest
  | operation cv_eq awake => exact not_awake_of_resting (h _) awake

theorem idle_of_step {move : Move τ γ ι χ} (hidle : s.point thread = .idle)
    (hcall : ∀ stage, move ≠ .call thread stage) (hstep : s.step spec move = some s') :
    s'.point thread = .idle := by
  have hmoved : ∀ {other : τ} {next : Point κ γ ρ}, other ≠ thread →
      (s.moveTo other next).point thread = .idle :=
    fun hne => (moveTo_point_of_ne hne.symm _).trans hidle
  have hother : ∀ {other : τ} {point : Point κ γ ρ}, s.point other = point → point ≠ .idle →
      other ≠ thread := by
    rintro other point hpoint hne rfl; exact hne (hpoint.symm.trans hidle)
  cases step_change hstep with
  | @call other stage =>
    refine hmoved ?_
    rintro rfl; exact hcall stage rfl
  | refuse point | sleep point | goOn point | notify point | lapse point =>
    exact hmoved (hother point nofun)
  | walk walk =>
    refine hmoved ?_
    rintro rfl
    rw [hidle] at walk; cases walk
  | @book other chosen callback next booking =>
    have hne : other ≠ thread := by
      rintro rfl
      rw [hidle] at booking; cases booking
    exact hmoved hne
  | lock free entry =>
    refine hmoved ?_
    rintro rfl
    rw [hidle] at entry; cases entry
  | leave held =>
    refine hmoved ?_
    rintro rfl
    rw [hidle] at held; cases held
  | rouse | stop | fire | alarm | ring => exact hidle

def Move.caller : Move τ γ ι χ → Option τ
  | .call thread _ => some thread
  | _ => none

theorem idle_of_run (hidle : s.point thread = .idle) (hcall : thread ∉ moves.filterMap Move.caller)
    (hrun : run (step spec) moves s = some s') : s'.point thread = .idle := by
  induction moves generalizing s with
  | nil => exact Option.some.inj hrun ▸ hidle
  | cons move moves ih =>
    obtain ⟨middle, hmove, hrest⟩ := run_cons_eq_some.mp hrun
    have hfirst : ∀ stage, move ≠ .call thread stage := by
      rintro stage rfl; exact hcall (by simp [Move.caller])
    refine ih (idle_of_step hidle hfirst hmove) (fun hmem => hcall ?_) hrest
    obtain ⟨other, hother, hcaller⟩ := mem_filterMap.mp hmem
    exact mem_filterMap.mpr ⟨other, mem_cons_of_mem move hother, hcaller⟩

theorem not_aboutToNotify_of_run
    (hrun : run (step spec) moves { data := data } = some s)
    (hcallers : ∀ thread ∈ moves.filterMap Move.caller, Resting spec s cv thread = true) :
    ¬ AboutToNotify spec s cv := by
  refine not_aboutToNotify fun thread => ?_
  by_cases hcaller : thread ∈ moves.filterMap Move.caller
  · exact hcallers thread hcaller
  · rw [Resting, idle_of_run rfl hcaller hrun]

/-- The thread sleeps in an untimed wait whose predicate is true, and all threads that were called
    rest. -/
def asleepForGood (spec : Spec τ κ δ γ ρ ι χ) (moves : List (Move τ γ ι χ))
    (s : State τ κ δ γ ρ ι χ) (thread : τ) : Bool :=
  match s.point thread with
  | .waiting stage =>
    decide (spec.patience stage = .untimed) && decide (thread ∈ s.sleepers (spec.cv stage)) &&
      (spec.ready stage s.data || (s.stopReason spec stage).isSome) &&
      (moves.filterMap Move.caller).all (Resting spec s (spec.cv stage))
  | _ => false

theorem stuck_of_run {moves : List (Move τ γ ι χ)} {data : δ} {thread : τ} {stage : γ}
    (hrun : run (step spec) moves { data := data } = some s)
    (hpoint : s.point thread = .waiting stage)
    (hasleep : asleepForGood spec moves s thread = true) : Stuck spec s thread stage := by
  simp only [asleepForGood, hpoint, Bool.and_eq_true, decide_eq_true_eq, Bool.or_eq_true,
    all_eq_true] at hasleep
  obtain ⟨⟨⟨huntimed, hmem⟩, hpredicate⟩, hresting⟩ := hasleep
  exact ⟨hpoint, huntimed, hmem, hpredicate, not_aboutToNotify_of_run hrun hresting⟩

end Runs

end Monitor
