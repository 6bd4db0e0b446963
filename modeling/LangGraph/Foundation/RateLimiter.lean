import LangGraph.Foundation.Status

/-!
# The token bucket

A bucket holds at most `capacity` tokens and gets `refill` of them for each whole interval that has
passed.  The instant up to which it was refilled moves on by whole intervals only.  Instants and
durations are 64-bit numbers of ticks, signed except where `retryAfter` multiplies by an unsigned
count.
-/

namespace LangGraph

/-! ## 1. The limiter -/

structure RateLimitPolicy where
  capacity : Nat := 1
  refill : Nat := 1
  interval : Int := 1000000000
  capacity_lt : capacity < 2 ^ 64 := by decide
  refill_lt : refill < 2 ^ 64 := by decide

def RateLimitPolicy.validate (policy : RateLimitPolicy) : Result Unit :=
  if policy.capacity = 0 then
    .error (.invalidArgument (lit "rate limit capacity must be greater than 0"))
  else if policy.refill = 0 then
    .error (.invalidArgument (lit "rate limit refill must be greater than 0"))
  else if policy.interval ≤ 0 then
    .error (.invalidArgument (lit "rate limit interval must be positive"))
  else .ok ()

/-- A reading of the clock. -/
abbrev TimePoint := { ticks : Int // -2 ^ 63 ≤ ticks ∧ ticks < 2 ^ 63 }

def maxDuration : Int := 2 ^ 63 - 1

def intervalsForTokens (tokens refill : Nat) : Nat :=
  if tokens = 0 ∨ refill = 0 then 0 else (tokens + refill - 1) % 2 ^ 64 / refill

structure RateLimitResult where
  allowed : Bool
  retryAfter : Int := 0
  remaining : Nat
  status : Result Unit

structure TokenBucketRateLimiter where
  policy : RateLimitPolicy
  tokens : Nat
  updatedAt : Int

namespace TokenBucketRateLimiter

def create (policy : RateLimitPolicy) (now : TimePoint) : TokenBucketRateLimiter :=
  ⟨policy, policy.capacity, now⟩

variable (limiter : TokenBucketRateLimiter)

/-- The whole intervals since the last refill; the difference of two instants may wrap. -/
def elapsedIntervals (now : Int) : Int :=
  ((now - limiter.updatedAt).bmod (2 ^ 64)).tdiv limiter.policy.interval

def refill (now : Int) : TokenBucketRateLimiter :=
  if now ≤ limiter.updatedAt ∨ limiter.elapsedIntervals now ≤ 0 then limiter
  else
    let intervals := (limiter.elapsedIntervals now).toNat
    let add := if (2 ^ 64 - 1) / limiter.policy.refill < intervals then 2 ^ 64 - 1
      else intervals * limiter.policy.refill
    { limiter with
      tokens :=
        if limiter.policy.capacity ≤ add ∨ limiter.policy.capacity - add < limiter.tokens
        then limiter.policy.capacity else limiter.tokens + add
      updatedAt := limiter.updatedAt + limiter.policy.interval * intervals }

def retryAfter (permits : Nat) (now : Int) : Int :=
  let intervals := intervalsForTokens (permits - limiter.tokens) limiter.policy.refill
  if permits ≤ limiter.tokens then 0
  else if 0 < limiter.policy.interval ∧ maxDuration / limiter.policy.interval < intervals then
    maxDuration
  else
    -- The count is unsigned, and so are the instants from here on.
    let readyAt := (limiter.updatedAt + limiter.policy.interval * intervals) % 2 ^ 64
    if readyAt ≤ now % 2 ^ 64 then 0 else (readyAt - now % 2 ^ 64).bmod (2 ^ 64)

/-- The end of `acquire`, behind the refill. -/
def takeTokens (permits : Nat) (now : Int) : RateLimitResult × TokenBucketRateLimiter :=
  if permits ≤ limiter.tokens then
    ({ allowed := true, remaining := limiter.tokens - permits, status := .ok () },
      { limiter with tokens := limiter.tokens - permits })
  else
    ({ allowed := false, retryAfter := limiter.retryAfter permits now, remaining := limiter.tokens
       status := .error (.resourceExhausted (lit "rate limit exceeded")) }, limiter)

def acquire (permits : Nat) (now : TimePoint) : RateLimitResult × TokenBucketRateLimiter :=
  match limiter.policy.validate with
  | .error status =>
    ({ allowed := false, remaining := limiter.tokens, status := .error status }, limiter)
  | .ok _ =>
    if permits = 0 then
      ({ allowed := true, remaining := limiter.tokens, status := .ok () }, limiter)
    else if limiter.policy.capacity < permits then
      ({ allowed := false, retryAfter := maxDuration, remaining := limiter.tokens
         status := .error (.resourceExhausted
           (lit "requested permits exceed rate limit capacity")) }, limiter)
    else (limiter.refill now).takeTokens permits now

/-- The limiter after some calls, each with its permits and the reading of the clock. -/
def after (calls : List (Nat × TimePoint)) : TokenBucketRateLimiter :=
  calls.foldl (fun limiter call => (limiter.acquire call.1 call.2).2) limiter

def grantedBy (answer : RateLimitResult) (permits : Nat) : Nat :=
  if answer.allowed then permits else 0

/-- The permits that the calls are granted together. -/
def granted : TokenBucketRateLimiter → List (Nat × TimePoint) → Nat
  | _, [] => 0
  | limiter, call :: calls =>
    let answer := limiter.acquire call.1 call.2
    grantedBy answer.1 call.1 + granted answer.2 calls

end TokenBucketRateLimiter

/-! ## 2. A refill -/

namespace TokenBucketRateLimiter

open List Nat

variable {limiter : TokenBucketRateLimiter} {permits : Nat}

/-- What holds of a limiter as long as the clock reads from `low` to `high`. -/
structure Sound (policy : RateLimitPolicy) (low high : Int) (limiter : TokenBucketRateLimiter) :
    Prop where
  policy_eq : limiter.policy = policy
  valid : 0 < policy.capacity ∧ 0 < policy.refill ∧ 0 < policy.interval
  tokens : limiter.tokens ≤ policy.capacity
  low_le : low ≤ limiter.updatedAt
  le_high : limiter.updatedAt ≤ high

variable {policy : RateLimitPolicy} {low high : Int}

theorem le_of_interval_mul_lt {interval : Int} {a b : Nat} (hpos : 0 < interval)
    (h : interval * a < interval * b + interval) : a ≤ b := by
  have hlt : interval * (a : Int) < interval * (b + 1 : Nat) := by
    rw [Int.natCast_succ, mul_add, mul_one]
    exact h
  have := lt_of_mul_lt_mul_left hlt hpos.le
  omega

theorem validate_iff : policy.validate = .ok () ↔
    0 < policy.capacity ∧ 0 < policy.refill ∧ 0 < policy.interval := by
  unfold RateLimitPolicy.validate
  split_ifs with hcapacity hrefill hinterval
  · simp [hcapacity]
  · simp [hrefill]
  · simp [hinterval]
  · simp only [true_iff]
    omega

/-- A refill does nothing where the clock is behind or its difference wraps; otherwise the instant
    moves on by the whole intervals that have passed. -/
theorem refill_cases (h : limiter.Sound policy low high) (hlow : -2 ^ 63 ≤ low) (now : TimePoint) :
    ((now < limiter.updatedAt ∨ 2 ^ 63 ≤ now - limiter.updatedAt) ∧ limiter.refill now = limiter) ∨
    (limiter.updatedAt ≤ now ∧ now - limiter.updatedAt < 2 ^ 63 ∧ ∃ intervals : Nat,
      policy.interval * intervals ≤ now - limiter.updatedAt ∧
      now - limiter.updatedAt < policy.interval * intervals + policy.interval ∧
      (limiter.refill now).policy = policy ∧
      (limiter.refill now).tokens
        = min policy.capacity (limiter.tokens + intervals * policy.refill) ∧
      (limiter.refill now).updatedAt = limiter.updatedAt + policy.interval * intervals) := by
  obtain ⟨rfl, ⟨-, hrefill, hinterval⟩, htokens, hfirst, -⟩ := h
  have hnow := now.2.2
  have hcapacity := limiter.policy.capacity_lt
  by_cases hbehind : now < limiter.updatedAt
  · exact .inl ⟨.inl hbehind, if_pos (.inl hbehind.le)⟩
  by_cases hfar : 2 ^ 63 ≤ now - limiter.updatedAt
  · -- the difference overflows its 64 bits and reads as negative
    have hwrap : (now - limiter.updatedAt).bmod (2 ^ 64)
        = -(2 ^ 64 - (now - limiter.updatedAt)) := by
      rw [← Int.sub_bmod_right, Int.bmod_eq_of_le] <;> omega
    refine .inl ⟨.inr hfar, if_pos (.inr ?_)⟩
    rw [elapsedIntervals, hwrap, Int.neg_tdiv]
    exact Int.neg_nonpos_of_nonneg (Int.tdiv_nonneg (by omega) hinterval.le)
  · have hdiv := Int.mul_ediv_add_emod (now - limiter.updatedAt) limiter.policy.interval
    have hmod := Int.emod_nonneg (now - limiter.updatedAt) hinterval.ne'
    have hlt := Int.emod_lt_of_pos (now - limiter.updatedAt) hinterval
    obtain ⟨intervals, hintervals⟩ := Int.eq_ofNat_of_zero_le (Int.ediv_nonneg
      (show 0 ≤ now - limiter.updatedAt by omega) hinterval.le)
    have helapsed : limiter.elapsedIntervals now = intervals := by
      rw [elapsedIntervals, Int.bmod_eq_of_le (by omega) (by omega), ← hintervals]
      exact Int.tdiv_eq_ediv_of_nonneg (by omega)
    rw [hintervals] at hdiv
    refine .inr ⟨by omega, by omega, intervals, by omega, by omega, ?_⟩
    unfold refill
    rw [helapsed]
    split_ifs with hnone
    · have hzero : intervals = 0 := by
        rcases hnone with hnone | hnone
        · rw [show now.1 - limiter.updatedAt = 0 by omega, Int.zero_ediv] at hintervals
          omega
        · omega
      refine ⟨rfl, ?_, ?_⟩ <;> simp [hzero, htokens]
    · -- A product that does not fit is more than the bucket can hold.
      have hfits : (2 ^ 64 - 1) / limiter.policy.refill < intervals ↔
          2 ^ 64 - 1 < intervals * limiter.policy.refill := div_lt_iff_lt_mul hrefill
      simp only [Int.toNat_natCast, hfits, true_and, and_true]
      generalize intervals * limiter.policy.refill = product
      split_ifs <;> omega

theorem Sound.refill (h : limiter.Sound policy low high) (hlow : -2 ^ 63 ≤ low) {now : TimePoint}
    (hnow : now ≤ high) : (limiter.refill now).Sound policy low high := by
  rcases refill_cases h hlow now with
    ⟨-, hsame⟩ | ⟨-, -, intervals, hpassed, -, hpolicy, htokens, hupdated⟩
  · rw [hsame]; exact h
  · have hmore := mul_nonneg h.valid.2.2.le (Int.natCast_nonneg intervals)
    have hstart := h.low_le
    exact ⟨hpolicy, h.valid, htokens ▸ min_le_left _ _, by omega, by omega⟩

theorem refill_phase (h : limiter.Sound policy low high) (hlow : -2 ^ 63 ≤ low) (now : TimePoint) :
    2 ^ 63 ≤ now - (limiter.refill now).updatedAt ∨
      now < (limiter.refill now).updatedAt + policy.interval := by
  have hpos := h.valid.2.2
  rcases refill_cases h hlow now with ⟨hfar, hsame⟩ | ⟨-, -, _, _, _, -, -, hmoved⟩
  · rw [hsame]; omega
  · omega

theorem acquire_eq (h : limiter.Sound policy low high) (hpos : 0 < permits)
    (hfits : permits ≤ policy.capacity) (now : TimePoint) :
    limiter.acquire permits now = (limiter.refill now).takeTokens permits now := by
  rw [acquire, h.policy_eq, validate_iff.mpr h.valid]
  dsimp only
  rw [if_neg hpos.ne', if_neg hfits.not_gt]

/-- A call leaves the limiter alone, or it refills it and takes what it grants. -/
theorem acquire_spec (h : limiter.Sound policy low high) (hlow : -2 ^ 63 ≤ low) (permits : Nat)
    {now : TimePoint} (hnow : now ≤ high) :
    (grantedBy (limiter.acquire permits now).1 permits = 0 ∧
      (limiter.acquire permits now).2 = limiter) ∨
    ((limiter.acquire permits now).2.Sound policy low high ∧
      grantedBy (limiter.acquire permits now).1 permits + (limiter.acquire permits now).2.tokens
        = (limiter.refill now).tokens ∧
      (limiter.acquire permits now).2.updatedAt = (limiter.refill now).updatedAt) := by
  rcases Nat.eq_zero_or_pos permits with rfl | hpos
  · rw [acquire, h.policy_eq, validate_iff.mpr h.valid]; exact .inl ⟨rfl, rfl⟩
  rcases lt_or_ge policy.capacity permits with hmore | hfits
  · rw [acquire, h.policy_eq, validate_iff.mpr h.valid]
    dsimp only
    rw [if_neg hpos.ne', if_pos hmore]
    exact .inl ⟨rfl, rfl⟩
  · have hrefilled := h.refill hlow hnow
    rw [acquire_eq h hpos hfits, takeTokens]
    split_ifs with hfew
    · exact .inr ⟨{ hrefilled with tokens := (sub_le ..).trans hrefilled.tokens },
        add_sub_of_le hfew, rfl⟩
    · exact .inr ⟨hrefilled, zero_add _, rfl⟩

theorem Sound.after (h : limiter.Sound policy low high) (hlow : -2 ^ 63 ≤ low)
    {calls : List (Nat × TimePoint)} (hcalls : ∀ call ∈ calls, call.2 ≤ high) :
    (limiter.after calls).Sound policy low high := by
  induction calls generalizing limiter with
  | nil => exact h
  | cons call calls ih =>
    refine ih ?_ fun other hother => hcalls other (mem_cons_of_mem _ hother)
    rcases acquire_spec h hlow call.1 (hcalls call mem_cons_self) with ⟨-, hsame⟩ | ⟨hnext, -⟩
    · dsimp only
      rw [hsame]
      exact h
    · exact hnext

/-! ## 3. The bound -/

/-- The calls of a time in which at most `intervals` can still be added. -/
theorem granted_le {intervals : Nat} {first last : Int} (calls : List (Nat × TimePoint))
    (h : limiter.Sound policy (-2 ^ 63) (2 ^ 63))
    (hcalls : ∀ call ∈ calls, first ≤ call.2 ∧ call.2 ≤ last)
    (hroom : 2 ^ 63 ≤ first - limiter.updatedAt ∨
      last < limiter.updatedAt + policy.interval * intervals + policy.interval) :
    granted limiter calls ≤ limiter.tokens + intervals * policy.refill := by
  induction calls generalizing limiter intervals with
  | nil => exact zero_le _
  | cons call calls ih =>
    obtain ⟨hcall, hrest⟩ := forall_mem_cons.mp hcalls
    rw [granted]
    rcases acquire_spec h le_rfl call.1 call.2.2.2.le with
      ⟨hnone, hsame⟩ | ⟨hnext, htaken, hupdated⟩
    · rw [hnone, hsame, zero_add]
      exact ih h hrest hroom
    · rcases refill_cases h le_rfl call.2 with
        ⟨-, hsame⟩ | ⟨hafter, hnear, passed, hpassed, -, -, htokens, hmoved⟩
      · rw [hsame] at htaken hupdated
        have hlater := ih hnext hrest (hupdated.symm ▸ hroom)
        omega
      · -- The intervals that this call adds are gone for the later ones.
        have hle : passed ≤ intervals := le_of_interval_mul_lt h.valid.2.2 (by omega)
        obtain ⟨left, rfl⟩ := Nat.exists_eq_add_of_le hle
        rw [Int.natCast_add, mul_add] at hroom
        have hlater := ih hnext hrest
          (.inr (show last < _ + policy.interval * (left : Int) + _ by omega))
        rw [add_mul]
        omega

theorem granted_window_le {first last : Int} (calls : List (Nat × TimePoint))
    (h : limiter.Sound policy (-2 ^ 63) (2 ^ 63))
    (hcalls : ∀ call ∈ calls, first ≤ call.2 ∧ call.2 ≤ last)
    (hclock : calls.Pairwise fun call next => call.2.1 ≤ next.2) (hle : first ≤ last) :
    (granted limiter calls : Int) ≤
      policy.capacity + policy.refill * ((last - first) / policy.interval + 1) := by
  obtain ⟨whole, hwhole⟩ := Int.eq_ofNat_of_zero_le (Int.ediv_nonneg
    (show 0 ≤ last - first by omega) h.valid.2.2.le)
  have hlast := Int.lt_mul_ediv_self_add (x := last - first) h.valid.2.2
  rw [hwhole] at hlast ⊢
  induction calls generalizing limiter with
  | nil => exact_mod_cast zero_le _
  | cons call calls ih =>
    obtain ⟨hcall, hrest⟩ := forall_mem_cons.mp hcalls
    obtain ⟨hfirst, hclock⟩ := pairwise_cons.mp hclock
    rw [granted]
    rcases acquire_spec h le_rfl call.1 call.2.2.2.le with
      ⟨hnone, hsame⟩ | ⟨hnext, htaken, hupdated⟩
    · rw [hnone, hsame, zero_add]
      exact ih h hrest hclock
    · -- From this refill on, the phase of the bucket is known.
      have hphase := refill_phase h le_rfl call.2
      have hfull := (h.refill le_rfl call.2.2.2.le).tokens
      rw [← hupdated] at hphase
      have hlater := granted_le calls hnext
        (fun other hother => ⟨hfirst other hother, (hrest other hother).2⟩)
        (show _ ∨ last < _ + policy.interval * (whole + 1 : Nat) + _ by
          rw [Int.natCast_succ, mul_add, mul_one]
          omega)
      have hall : grantedBy (limiter.acquire call.1 call.2).1 call.1
          + granted (limiter.acquire call.1 call.2).2 calls
          ≤ policy.capacity + policy.refill * (whole + 1) := by
        rw [mul_comm policy.refill]
        omega
      exact_mod_cast hall

/-- The tokens never exceed the capacity, and over any window of calls the limiter grants at most
    the capacity and a refill for each interval that has begun. -/
theorem token_bucket_bound (policy : RateLimitPolicy) (made : TimePoint)
    (before window : List (Nat × TimePoint)) (first last : Nat × TimePoint)
    (hvalid : policy.validate = .ok ())
    (hclock : (before ++ window).Pairwise fun call next => call.2.1 ≤ next.2)
    (hfirst : window.head? = some first) (hlast : window.getLast? = some last) :
    (granted ((create policy made).after before) window : Int) ≤
        policy.capacity + policy.refill * ((last.2 - first.2) / policy.interval + 1) ∧
      ((create policy made).after (before ++ window)).tokens ≤ policy.capacity := by
  have hmade : (create policy made).Sound policy (-2 ^ 63) (2 ^ 63) :=
    ⟨rfl, validate_iff.mp hvalid, le_refl _, made.2.1, made.2.2.le⟩
  have hsound : ∀ calls, ((create policy made).after calls).Sound policy (-2 ^ 63) (2 ^ 63) :=
    fun _ => hmade.after (le_refl _) fun call _ => call.2.2.2.le
  have hwindow := (pairwise_append.mp hclock).2.1
  obtain ⟨rest, hrest⟩ := head?_eq_some_iff.mp hfirst
  obtain ⟨most, hmost⟩ := getLast?_eq_some_iff.mp hlast
  have hbounds : ∀ call ∈ window, first.2.1 ≤ call.2 ∧ call.2 ≤ last.2.1 := by
    intro call hcall
    constructor
    · rw [hrest] at hwindow hcall
      rcases mem_cons.mp hcall with rfl | hcall
      · exact le_refl _
      · exact (pairwise_cons.mp hwindow).1 call hcall
    · rw [hmost] at hwindow hcall
      rcases mem_append.mp hcall with hcall | hcall
      · exact (pairwise_append.mp hwindow).2.2 call hcall last mem_cons_self
      · rw [mem_singleton.mp hcall]
  have hle := (hbounds last (hmost ▸ by simp)).1
  exact ⟨granted_window_le window (hsound before) hbounds hwindow hle,
    (hsound (before ++ window)).tokens⟩

/-- Two calls at one instant share the tokens of the bucket. -/
theorem two_calls_share_capacity :
    (granted ((create { capacity := 2 } ⟨0, by decide⟩).after [])
      [(2, ⟨0, by decide⟩), (1, ⟨0, by decide⟩)] : Int) ≤ 3 :=
  (token_bucket_bound { capacity := 2 } ⟨0, by decide⟩ []
    [(2, ⟨0, by decide⟩), (1, ⟨0, by decide⟩)] _ _ rfl (by simp) rfl rfl).1

/-! ## 4. When to try again -/

/-- A denied call that names a finite time to wait is granted from that time on and not before. -/
def ExactAt (limiter : TokenBucketRateLimiter) (permits : Nat) (now : TimePoint) : Prop :=
  let denied := limiter.acquire permits now
  denied.1.allowed = false → denied.1.retryAfter ≠ maxDuration → 0 < denied.1.retryAfter ∧
    ∀ later : TimePoint, (denied.2.acquire permits later).1.allowed = true ↔
      now + denied.1.retryAfter ≤ later

/-- The wait in a limiter that has just been refilled. -/
theorem retryAfter_eq {now : Int} (h : limiter.Sound policy 0 now)
    (hsum : policy.capacity + policy.refill ≤ 2 ^ 64) (hfits : permits ≤ policy.capacity)
    (hdenied : limiter.tokens < permits) (hnow : now < 2 ^ 63)
    (hphase : now < limiter.updatedAt + policy.interval)
    (hfinite : limiter.retryAfter permits now ≠ maxDuration) :
    0 < limiter.retryAfter permits now ∧ ∃ intervals : Nat,
      now + limiter.retryAfter permits now = limiter.updatedAt + policy.interval * intervals ∧
      ∀ passed : Nat, intervals ≤ passed ↔ permits ≤ limiter.tokens + passed * policy.refill := by
  obtain ⟨rfl, ⟨-, hrefill, hinterval⟩, -, hnonneg, hpast⟩ := h
  have hiff : ∀ passed,
      intervalsForTokens (permits - limiter.tokens) limiter.policy.refill ≤ passed ↔
        permits ≤ limiter.tokens + passed * limiter.policy.refill := by
    intro passed
    rw [intervalsForTokens, if_neg (by omega), mod_eq_of_lt (by omega),
      div_le_iff_le_mul_add_pred hrefill, mul_comm]
    omega
  have hzero := hiff 0
  unfold retryAfter at hfinite ⊢
  rw [if_neg hdenied.not_ge] at hfinite ⊢
  generalize intervalsForTokens (permits - limiter.tokens) limiter.policy.refill = intervals
    at hiff hzero hfinite ⊢
  -- the wait is no saturated one, so no product on the way overflows
  have hlong : ¬ (0 < limiter.policy.interval ∧
      maxDuration / limiter.policy.interval < intervals) := fun hlong => hfinite (if_pos hlong)
  have hmost : limiter.policy.interval * (intervals : Int) ≤ maxDuration := by
    rw [mul_comm]
    apply (Int.le_ediv_iff_mul_le hinterval).mp
    omega
  have hsome : limiter.policy.interval ≤ limiter.policy.interval * (intervals : Int) :=
    le_mul_of_one_le_right hinterval.le (by omega)
  have hmax : maxDuration = 2 ^ 63 - 1 := rfl
  rw [if_neg hlong, Int.emod_eq_of_lt (by omega) (by omega),
    Int.emod_eq_of_lt (by omega) (by omega), if_neg (by omega),
    Int.bmod_eq_of_le (by omega) (by omega)]
  exact ⟨by omega, intervals, by omega, hiff⟩

theorem allowed_takeTokens (permits : Nat) (now : Int) :
    (limiter.takeTokens permits now).1.allowed = true ↔ permits ≤ limiter.tokens := by
  unfold takeTokens
  split_ifs with hfits <;> simp [hfits]

theorem exactAt {now : TimePoint} (h : limiter.Sound policy 0 now)
    (hsum : policy.capacity + policy.refill ≤ 2 ^ 64) (hfits : permits ≤ policy.capacity) :
    limiter.ExactAt permits now := by
  intro hdenied hfinite
  have hpos : 0 < permits := by
    rw [pos_iff_ne_zero]
    rintro rfl
    rw [acquire, h.policy_eq, validate_iff.mpr h.valid] at hdenied
    cases hdenied
  have hinterval := h.valid.2.2
  have hstart := h.low_le
  have hpast := h.le_high
  have hnow := now.2.2
  have hrefilled := h.refill (by omega) (le_refl _)
  have hrestart := hrefilled.low_le
  have hphase := refill_phase h (by omega) now
  rw [acquire_eq h hpos hfits] at hdenied hfinite ⊢
  have hfew : ¬ permits ≤ (limiter.refill now).tokens := fun hle => by
    rw [(allowed_takeTokens permits now).mpr hle] at hdenied
    cases hdenied
  rw [takeTokens, if_neg hfew] at hfinite ⊢
  obtain ⟨hwait, intervals, hready, hiff⟩ := retryAfter_eq hrefilled hsum hfits (not_le.mp hfew)
    hnow (by omega) hfinite
  refine ⟨hwait, fun later => ?_⟩
  have hlater := later.2.2
  rw [acquire_eq hrefilled hpos hfits, allowed_takeTokens]
  dsimp only
  rw [hready]
  have hmore := mul_nonneg hinterval.le (Int.natCast_nonneg intervals)
  rcases refill_cases hrefilled (by omega) later with
    ⟨hfar, hsame⟩ | ⟨hafter, -, passed, hpassed, hnext, -, htokens, -⟩
  · rw [hsame]; omega
  · rw [htokens, le_min_iff, ← hiff]
    constructor
    · intro hle
      have hmul := mul_le_mul_of_nonneg_left (Int.ofNat_le.mpr hle.2) hinterval.le
      omega
    · intro hle
      exact ⟨hfits, le_of_interval_mul_lt hinterval (by omega)⟩

/-- The waits are exact, in every run in which the clock starts at zero or later and does not go
    back, exactly if the rounding up of a count of tokens cannot overflow. -/
theorem retry_after_exact_iff (policy : RateLimitPolicy) (hvalid : policy.validate = .ok ()) :
    (∀ (made : TimePoint) (calls : List (Nat × TimePoint)) (permits : Nat) (now : TimePoint),
      0 ≤ made.1 → made ≤ now → (∀ call ∈ calls, call.2 ≤ now) → permits ≤ policy.capacity →
        ((create policy made).after calls).ExactAt permits now) ↔
      policy.capacity + policy.refill ≤ 2 ^ 64 := by
  have hpositive := validate_iff.mp hvalid
  constructor
  · intro h
    by_contra hsum
    have hfits := policy.refill_lt
    -- The bucket is emptied, and all of it is asked for again.
    let zero : TimePoint := ⟨0, by decide⟩
    have hexact := h zero [(policy.capacity, zero)] policy.capacity zero le_rfl le_rfl
      (by simp) le_rfl
    have hsound : ∀ tokens ≤ policy.capacity, Sound policy 0 0 ⟨policy, tokens, 0⟩ :=
      fun _ hle => ⟨rfl, hpositive, hle, le_refl _, le_refl _⟩
    have hacquire : ∀ tokens ≤ policy.capacity, acquire ⟨policy, tokens, 0⟩ policy.capacity zero
        = takeTokens ⟨policy, tokens, 0⟩ policy.capacity 0 := fun tokens hle => by
      rw [acquire_eq (hsound tokens hle) hpositive.1 le_rfl, refill, if_pos (.inl le_rfl)]
    have hempty : (create policy zero).after [(policy.capacity, zero)] = ⟨policy, 0, 0⟩ := by
      change (acquire ⟨policy, policy.capacity, 0⟩ policy.capacity zero).2 = _
      rw [hacquire _ le_rfl, takeTokens, if_pos le_rfl, Nat.sub_self]
    have hwait : retryAfter ⟨policy, 0, 0⟩ policy.capacity 0 = 0 := by
      have hnone : intervalsForTokens (policy.capacity - 0) policy.refill = 0 := by
        have := policy.capacity_lt
        rw [intervalsForTokens, if_neg (by omega), mod_eq_sub_mod (by omega),
          mod_eq_of_lt (by omega)]
        exact div_eq_of_lt (by omega)
      have hmax := Int.ediv_nonneg (show 0 ≤ maxDuration by decide) hpositive.2.2.le
      simp only [retryAfter, hnone]
      rw [if_neg (by omega), if_neg (by omega)]
      simp
    rw [hempty, ExactAt, hacquire 0 (zero_le _), takeTokens, if_neg hpositive.1.not_ge,
      hwait] at hexact
    exact lt_irrefl _ (hexact rfl (show (0 : Int) ≠ maxDuration by decide)).1
  · intro hsum made calls permits now hnonneg hmade hcalls hfits
    have hcreate : (create policy made).Sound policy 0 now :=
      ⟨rfl, hpositive, le_refl _, hnonneg, hmade⟩
    exact exactAt (hcreate.after (by decide) hcalls) hsum hfits

theorem retry_after_exact_of_small :
    ((create { capacity := 2 } ⟨0, by decide⟩).after [(2, ⟨0, by decide⟩)]).ExactAt 1
      ⟨0, by decide⟩ :=
  (retry_after_exact_iff { capacity := 2 } rfl).mpr (by decide) _ _ _ _ (by decide) (by decide)
    (by decide) (by decide)

/-- With a refill of almost 2⁶⁴ tokens the count of intervals wraps to zero, and where the clock
    reads less than zero the comparison is one of unsigned numbers: the wait is zero, and the call
    is denied all the same. -/
theorem retry_after_inexact :
    ¬ ((create { capacity := 2, refill := 2 ^ 64 - 1 } ⟨0, by decide⟩).after
      [(2, ⟨0, by decide⟩)]).ExactAt 2 ⟨0, by decide⟩ ∧
    ¬ ((create {} ⟨-5, by decide⟩).after [(1, ⟨-5, by decide⟩)]).ExactAt 1 ⟨-5, by decide⟩ := by
  constructor
  · intro h
    exact absurd (h (by decide) (by decide)).1 (by decide)
  · intro h
    exact absurd (h (by decide) (by decide)).1 (by decide)

end TokenBucketRateLimiter

end LangGraph
