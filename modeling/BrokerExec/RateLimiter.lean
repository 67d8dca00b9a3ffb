import BrokerExec.Domain.Types
import BrokerExec.Lib.Run

/-!
# The send-rate limiter (`ratelimit/rate_limiter.cpp`)

A token bucket with a lane of tokens that only exits may draw. Time is what the steady clock
reads, in nanoseconds; tokens are credited lazily, a whole refill period at a time.

* **`reserved_lane`** — over every run at non-decreasing readings: the bucket stays within its
  capacity, an entry leaves the reserved tokens, the first `reservedExit` exits are granted,
  and the grants of a window of time are bounded.
-/

namespace BrokerExec.RateLimit

open BrokerExec.Errors (Error SuggestedAction makeError)

/-! ## The limiter -/

/-- What the constructor makes of the configured values. -/
structure Config where
  capacity : Int
  reservedExit : Int
  /-- In milliseconds; zero means that the bucket is never refilled. -/
  refillPeriod : Int
  reservedExit_nonneg : 0 ≤ reservedExit
  reservedExit_le : reservedExit ≤ capacity
  refillPeriod_nonneg : 0 ≤ refillPeriod

/-- `clamp_reserved`. -/
def clampReserved (reservedExit capacity : Int) : Int :=
  if reservedExit < 0 then 0
  else if reservedExit > capacity then capacity
  else reservedExit

theorem clampReserved_bounds (reservedExit : Int) {capacity : Int} (hcapacity : 0 ≤ capacity) :
    0 ≤ clampReserved reservedExit capacity ∧ clampReserved reservedExit capacity ≤ capacity := by
  unfold clampReserved
  split_ifs
  · omega
  · omega
  · omega

theorem clampCapacity_nonneg (capacity : Int) : 0 ≤ if capacity < 0 then 0 else capacity := by
  split_ifs
  · omega
  · omega

def Config.clamp (capacity refillPeriod reservedExit : Int) : Config where
  capacity := if capacity < 0 then 0 else capacity
  reservedExit := clampReserved reservedExit (if capacity < 0 then 0 else capacity)
  refillPeriod := if refillPeriod > 0 then refillPeriod else 0
  reservedExit_nonneg := (clampReserved_bounds reservedExit (clampCapacity_nonneg capacity)).1
  reservedExit_le := (clampReserved_bounds reservedExit (clampCapacity_nonneg capacity)).2
  refillPeriod_nonneg := by
    split_ifs
    · omega
    · omega

/-- The refill period on the clock's own scale. -/
def Config.periodNs (c : Config) : Int := c.refillPeriod * 1000000

structure RateLimiter extends Config where
  tokens : Int
  lastRefill : Int

/-- A full bucket, stamped with the clock's reading. -/
def RateLimiter.create (now capacity refillPeriod reservedExit : Int) : RateLimiter :=
  let config := Config.clamp capacity refillPeriod reservedExit
  { config with tokens := config.capacity, lastRefill := now }

/-- `refill_`. -/
def RateLimiter.refill (l : RateLimiter) (now : Int) : RateLimiter :=
  if l.refillPeriod ≤ 0 then l
  else
    let elapsed := now - l.lastRefill
    if elapsed ≤ 0 then l
    else
      let wholePeriods := elapsed.tdiv l.periodNs
      if wholePeriods ≤ 0 then l
      else
        let headroom := l.capacity - l.tokens
        { l with
          tokens :=
            if headroom > 0 then l.tokens + (if wholePeriods < headroom then wholePeriods else headroom)
            else l.tokens
          lastRefill := l.lastRefill + wholePeriods * l.periodNs }

/-- The level a lane may not draw below. -/
def RateLimiter.floor (l : RateLimiter) (isExit : Bool) : Int := if isExit then 0 else l.reservedExit

def RateLimiter.tryAcquire (l : RateLimiter) (now : Int) (isExit : Bool) : Bool × RateLimiter :=
  let l := l.refill now
  if l.tokens > l.floor isExit then (true, { l with tokens := l.tokens - 1 }) else (false, l)

def RateLimiter.acquire (l : RateLimiter) (now : Int) (isExit : Bool) : Result Unit × RateLimiter :=
  match l.tryAcquire now isExit with
  | (true, l') => (.ok (), l')
  | (false, l') =>
    let message :=
      if isExit then ascii "rate limiter: throttled (exit lane)"
      else ascii "rate limiter: throttled (entry lane)"
    (.error { makeError .rateLimited message with action := .retrySafe }, l')

def RateLimiter.available (l : RateLimiter) (isExit : Bool) : Int :=
  let avail := l.tokens - l.floor isExit
  if avail > 0 then avail else 0

def RateLimiter.peek (l : RateLimiter) (now : Int) (isExit : Bool) : Int × RateLimiter :=
  ((l.refill now).available isExit, l.refill now)

/-- Both spellings of the call grant together and leave the same bucket. -/
theorem acquire_eq_tryAcquire (l : RateLimiter) (now : Int) (isExit : Bool) :
    ((l.acquire now isExit).1.isOk, (l.acquire now isExit).2) = l.tryAcquire now isExit := by
  unfold RateLimiter.acquire
  rcases l.tryAcquire now isExit with ⟨granted, l'⟩
  cases granted with
  | true => rfl
  | false => rfl

/-! ## What a refill does -/

theorem Config.periodNs_pos {c : Config} (h : 0 < c.refillPeriod) : 0 < c.periodNs := by
  show 0 < c.refillPeriod * 1000000
  omega

section

variable {l : RateLimiter} {now : Int}

/-- The bucket between empty and full. -/
def RateLimiter.InBounds (l : RateLimiter) : Prop := 0 ≤ l.tokens ∧ l.tokens ≤ l.capacity

/-- A refill changes nothing, or it credits some whole periods up to the capacity and moves the
stamp by exactly these, to less than a period before the reading. -/
theorem refill_cases (hbounds : l.InBounds) (now : Int) :
    (l.refill now = l ∧ (0 < l.refillPeriod → now - l.lastRefill < l.periodNs)) ∨
    (∃ k, 0 < k ∧ 0 < l.refillPeriod
      ∧ l.refill now = { l with
          tokens := min l.capacity (l.tokens + k), lastRefill := l.lastRefill + k * l.periodNs }
      ∧ l.lastRefill + k * l.periodNs ≤ now
      ∧ now - (l.lastRefill + k * l.periodNs) < l.periodNs) := by
  obtain ⟨-, hfull⟩ := hbounds
  unfold RateLimiter.refill
  by_cases hperiod : l.refillPeriod ≤ 0
  · rw [if_pos hperiod]
    exact .inl ⟨rfl, fun h => by omega⟩
  rw [if_neg hperiod]
  have hpos : 0 < l.periodNs := Config.periodNs_pos (by omega)
  by_cases helapsed : now - l.lastRefill ≤ 0
  · rw [if_pos helapsed]
    exact .inl ⟨rfl, fun _ => by omega⟩
  rw [if_neg helapsed]
  have hdiv : (now - l.lastRefill).tdiv l.periodNs = (now - l.lastRefill) / l.periodNs :=
    Int.tdiv_eq_ediv_of_nonneg (by omega)
  have hlow : (now - l.lastRefill) / l.periodNs * l.periodNs ≤ now - l.lastRefill :=
    Int.ediv_mul_le _ (by omega)
  have hhigh : now - l.lastRefill < ((now - l.lastRefill) / l.periodNs + 1) * l.periodNs :=
    Int.lt_ediv_add_one_mul_self _ hpos
  rw [hdiv]
  generalize (now - l.lastRefill) / l.periodNs = k at hlow hhigh ⊢
  rw [Int.add_mul, Int.one_mul] at hhigh
  by_cases hk : k ≤ 0
  · rw [if_pos hk]
    have : k * l.periodNs ≤ 0 := Int.mul_nonpos_of_nonpos_of_nonneg hk hpos.le
    exact .inl ⟨rfl, fun _ => by omega⟩
  · rw [if_neg hk]
    have hcredited : (if l.capacity - l.tokens > 0
          then l.tokens + (if k < l.capacity - l.tokens then k else l.capacity - l.tokens)
          else l.tokens)
        = min l.capacity (l.tokens + k) := by
      split_ifs
      · omega
      · omega
      · omega
    exact .inr ⟨k, by omega, by omega, by rw [← hcredited], by omega, by omega⟩

@[simp] theorem refill_toConfig : (l.refill now).toConfig = l.toConfig := by
  unfold RateLimiter.refill
  dsimp only
  split_ifs <;> rfl

theorem refill_inBounds (hbounds : l.InBounds) : (l.refill now).InBounds := by
  rcases refill_cases hbounds now with ⟨hsame, -⟩ | ⟨k, hk, -, hrefilled, -, -⟩
  · rw [hsame]
    exact hbounds
  · rw [hrefilled]
    obtain ⟨hempty, hfull⟩ := hbounds
    show 0 ≤ min l.capacity (l.tokens + k) ∧ min l.capacity (l.tokens + k) ≤ l.capacity
    omega

theorem le_refill_tokens (hbounds : l.InBounds) : l.tokens ≤ (l.refill now).tokens := by
  rcases refill_cases hbounds now with ⟨hsame, -⟩ | ⟨k, hk, -, hrefilled, -, -⟩
  · rw [hsame]
  · rw [hrefilled]
    obtain ⟨-, hfull⟩ := hbounds
    show l.tokens ≤ min l.capacity (l.tokens + k)
    omega

theorem refill_disabled (h : l.refillPeriod = 0) : l.refill now = l := by
  unfold RateLimiter.refill
  rw [if_pos (by omega)]

/-- The stamp never runs ahead of the clock. -/
theorem refill_lastRefill_le (hbounds : l.InBounds) (h : l.lastRefill ≤ now) :
    (l.refill now).lastRefill ≤ now := by
  rcases refill_cases hbounds now with ⟨hsame, -⟩ | ⟨k, -, -, hrefilled, hstamp, -⟩
  · rw [hsame]
    exact h
  · rw [hrefilled]
    exact hstamp

/-- What is left over of the elapsed time is less than a period. -/
theorem refill_fresh (hbounds : l.InBounds) (hperiod : 0 < l.refillPeriod) :
    now - (l.refill now).lastRefill < l.periodNs := by
  rcases refill_cases hbounds now with ⟨hsame, hfresh⟩ | ⟨k, -, -, hrefilled, -, hfresh⟩
  · rw [hsame]
    exact hfresh hperiod
  · rw [hrefilled]
    exact hfresh

/-! ## The potential

A token is worth a period of time. A refill pays for its tokens with the time it moves the
stamp by, so the level less the stamp never grows, and a grant takes a period from it. -/

def RateLimiter.potential (l : RateLimiter) : Int := l.tokens * l.periodNs - l.lastRefill

theorem refill_potential_le (hbounds : l.InBounds) : (l.refill now).potential ≤ l.potential := by
  rcases refill_cases hbounds now with ⟨hsame, -⟩ | ⟨k, -, hperiod, hrefilled, -, -⟩
  · rw [hsame]
  · rw [hrefilled]
    have hpos : 0 < l.periodNs := Config.periodNs_pos hperiod
    have hcredit : min l.capacity (l.tokens + k) * l.periodNs ≤ (l.tokens + k) * l.periodNs :=
      Int.mul_le_mul_of_nonneg_right (by omega) hpos.le
    rw [Int.add_mul] at hcredit
    show min l.capacity (l.tokens + k) * l.periodNs - (l.lastRefill + k * l.periodNs)
      ≤ l.tokens * l.periodNs - l.lastRefill
    omega

/-- Right after a refill the potential is that of a full bucket, less the reading, but for the
rest of a period. -/
theorem refill_potential_lt (hbounds : l.InBounds) (hperiod : 0 < l.refillPeriod) :
    (l.refill now).potential < (l.capacity + 1) * l.periodNs - now := by
  have hpos : 0 < l.periodNs := Config.periodNs_pos hperiod
  have hfull : (l.refill now).tokens ≤ (l.refill now).capacity := (refill_inBounds hbounds).2
  rw [refill_toConfig] at hfull
  have hlevel : (l.refill now).tokens * l.periodNs ≤ l.capacity * l.periodNs :=
    Int.mul_le_mul_of_nonneg_right hfull hpos.le
  have hfresh : now - (l.refill now).lastRefill < l.periodNs := refill_fresh hbounds hperiod
  show (l.refill now).tokens * (l.refill now).periodNs - (l.refill now).lastRefill < _
  rw [refill_toConfig, Int.add_mul, Int.one_mul]
  omega

/-! ## A call -/

theorem floor_bounds (l : RateLimiter) (isExit : Bool) :
    0 ≤ l.floor isExit ∧ l.floor isExit ≤ l.reservedExit := by
  have := l.reservedExit_nonneg
  unfold RateLimiter.floor
  split_ifs
  · omega
  · omega

/-- A granted call takes one token of the refilled bucket, which held more than the lane's
floor; a refused one leaves the refilled bucket, which did not. -/
theorem tryAcquire_cases (l : RateLimiter) (now : Int) (isExit : Bool) :
    (l.floor isExit < (l.refill now).tokens
      ∧ l.tryAcquire now isExit
        = (true, { l.refill now with tokens := (l.refill now).tokens - 1 })) ∨
    ((l.refill now).tokens ≤ l.floor isExit
      ∧ l.tryAcquire now isExit = (false, l.refill now)) := by
  have hfloor : (l.refill now).floor isExit = l.floor isExit := by
    unfold RateLimiter.floor
    rw [refill_toConfig]
  unfold RateLimiter.tryAcquire
  dsimp only
  rw [hfloor]
  by_cases hlevel : l.floor isExit < (l.refill now).tokens
  · exact .inl ⟨hlevel, if_pos hlevel⟩
  · exact .inr ⟨by omega, if_neg hlevel⟩

end

/-! ## Runs -/

/-- One call, at the clock's reading. -/
inductive Call where
  | tryAcquire (now : Int) (isExit : Bool)
  | peek (now : Int) (isExit : Bool)

def Call.now : Call → Int
  | .tryAcquire now _ => now
  | .peek now _ => now

structure Grant where
  now : Int
  isExit : Bool

/-- A limiter in use: the clock's last reading and the calls it granted so far. -/
structure Usage where
  limiter : RateLimiter
  clock : Int
  granted : List Grant

def Usage.start (now capacity refillPeriod reservedExit : Int) : Usage :=
  ⟨.create now capacity refillPeriod reservedExit, now, []⟩

def Usage.step (u : Usage) : Call → Usage
  | .tryAcquire now isExit =>
    let outcome := u.limiter.tryAcquire now isExit
    ⟨outcome.2, now, if outcome.1 then ⟨now, isExit⟩ :: u.granted else u.granted⟩
  | .peek now isExit => ⟨(u.limiter.peek now isExit).2, now, u.granted⟩

/-- The clock does not run backwards. -/
def Usage.Forward (u : Usage) (c : Call) : Prop := u.clock ≤ c.now

instance (u : Usage) (c : Call) : Decidable (u.Forward c) :=
  inferInstanceAs (Decidable (u.clock ≤ c.now))

def Usage.exitsGranted (u : Usage) : Nat := u.granted.countP (·.isExit)

/-- The grants at readings from `t₁` to `t₂`. -/
def Usage.grantsIn (u : Usage) (t₁ t₂ : Int) : Nat :=
  u.granted.countP fun g => t₁ ≤ g.now ∧ g.now ≤ t₂

/-- What refills alone make of a limiter in use. -/
def Usage.refilled (u : Usage) (now : Int) : Usage := ⟨u.limiter.refill now, now, u.granted⟩

/-- The same bucket with one token taken for a call. -/
def Usage.grant (u : Usage) (isExit : Bool) : Usage :=
  ⟨{ u.limiter with tokens := u.limiter.tokens - 1 }, u.clock, ⟨u.clock, isExit⟩ :: u.granted⟩

/-- A call refills the bucket, and a granted one then takes its token above the lane's floor. -/
theorem step_cases (u : Usage) (c : Call) :
    u.step c = u.refilled c.now ∨
    (∃ isExit, u.limiter.floor isExit < (u.refilled c.now).limiter.tokens
      ∧ u.step c = (u.refilled c.now).grant isExit) := by
  cases c with
  | peek now isExit => exact .inl rfl
  | tryAcquire now isExit =>
    rcases tryAcquire_cases u.limiter now isExit with ⟨hlevel, htry⟩ | ⟨-, htry⟩
    · refine .inr ⟨isExit, hlevel, ?_⟩
      simp only [Usage.step, htry]
      rfl
    · left
      simp only [Usage.step, htry]
      rfl

/-! ## The invariant -/

/-- Capacity, lane and stamp at every moment of a run. In a window from `t₁` to `t₂` the grants
so far and what the bucket is still good for are paid by its capacity and the time since `t₁`. -/
structure Metered (c : Config) (t₁ t₂ : Int) (u : Usage) : Prop where
  config : u.limiter.toConfig = c
  bounds : u.limiter.InBounds
  stamp : u.limiter.lastRefill ≤ u.clock
  lane : c.reservedExit ≤ u.limiter.tokens + u.exitsGranted
  budget : c.refillPeriod = 0 → u.granted.length + u.limiter.tokens ≤ c.capacity
  paid : 0 < c.refillPeriod → 0 < u.grantsIn t₁ t₂ →
    u.grantsIn t₁ t₂ * c.periodNs + u.limiter.potential < (c.capacity + 1) * c.periodNs - t₁
  bounded : 0 < c.refillPeriod → 0 < u.grantsIn t₁ t₂ →
    u.grantsIn t₁ t₂ * c.periodNs < (c.capacity + 1) * c.periodNs + (t₂ - t₁)

section

variable {c : Config} {t₁ t₂ : Int} {u : Usage}

theorem metered_start (now capacity refillPeriod reservedExit t₁ t₂ : Int) :
    Metered (.clamp capacity refillPeriod reservedExit) t₁ t₂
      (.start now capacity refillPeriod reservedExit) where
  config := rfl
  bounds := ⟨clampCapacity_nonneg capacity, le_rfl⟩
  stamp := le_rfl
  lane := by
    have := (Config.clamp capacity refillPeriod reservedExit).reservedExit_le
    show _ ≤ (Config.clamp capacity refillPeriod reservedExit).capacity + ((0 : Nat) : Int)
    omega
  budget _ := by
    show ((0 : Nat) : Int) + (Config.clamp capacity refillPeriod reservedExit).capacity ≤ _
    omega
  paid _ hsome := absurd hsome (by simp [Usage.grantsIn, Usage.start])
  bounded _ hsome := absurd hsome (by simp [Usage.grantsIn, Usage.start])

theorem metered_refilled (h : Metered c t₁ t₂ u) {now : Int} (hforward : u.clock ≤ now) :
    Metered c t₁ t₂ (u.refilled now) where
  config := by
    show (u.limiter.refill now).toConfig = c
    rw [refill_toConfig, h.config]
  bounds := refill_inBounds h.bounds
  stamp := refill_lastRefill_le h.bounds (h.stamp.trans hforward)
  lane := by
    have hmore : u.limiter.tokens ≤ (u.limiter.refill now).tokens := le_refill_tokens h.bounds
    have hlane := h.lane
    show c.reservedExit ≤ (u.limiter.refill now).tokens + u.exitsGranted
    omega
  budget hperiod := by
    show u.granted.length + (u.limiter.refill now).tokens ≤ c.capacity
    rw [refill_disabled (by rw [h.config, hperiod])]
    exact h.budget hperiod
  paid hperiod hsome := by
    have hless : (u.limiter.refill now).potential ≤ u.limiter.potential :=
      refill_potential_le h.bounds
    have hpaid := h.paid hperiod hsome
    show u.grantsIn t₁ t₂ * c.periodNs + (u.limiter.refill now).potential < _
    omega
  bounded := h.bounded

theorem grant_potential (u : Usage) (isExit : Bool) :
    (u.grant isExit).limiter.potential = u.limiter.potential - u.limiter.periodNs := by
  show (u.limiter.tokens - 1) * u.limiter.periodNs - u.limiter.lastRefill
    = u.limiter.tokens * u.limiter.periodNs - u.limiter.lastRefill - u.limiter.periodNs
  rw [Int.sub_mul, Int.one_mul]
  omega

theorem grant_grantsIn (u : Usage) (isExit : Bool) (t₁ t₂ : Int) :
    (u.grant isExit).grantsIn t₁ t₂
      = u.grantsIn t₁ t₂ + if t₁ ≤ u.clock ∧ u.clock ≤ t₂ then 1 else 0 := by
  unfold Usage.grantsIn Usage.grant
  rw [List.countP_cons]
  simp only [decide_eq_true_eq]

theorem grant_exitsGranted (u : Usage) (isExit : Bool) :
    (u.grant isExit).exitsGranted = u.exitsGranted + if isExit then 1 else 0 := by
  unfold Usage.exitsGranted Usage.grant
  rw [List.countP_cons]

/-- A grant right after a refill, above the floor of its lane. -/
theorem metered_grant (h : Metered c t₁ t₂ u) {isExit : Bool}
    (hlevel : u.limiter.floor isExit < u.limiter.tokens)
    (hfresh : 0 < c.refillPeriod →
      u.limiter.potential < (c.capacity + 1) * c.periodNs - u.clock) :
    Metered c t₁ t₂ (u.grant isExit) := by
  have hfloor := floor_bounds u.limiter isExit
  have htokens : (u.grant isExit).limiter.tokens = u.limiter.tokens - 1 := rfl
  have hpaid : 0 < c.refillPeriod → 0 < (u.grant isExit).grantsIn t₁ t₂ →
      (u.grant isExit).grantsIn t₁ t₂ * c.periodNs + (u.grant isExit).limiter.potential
        < (c.capacity + 1) * c.periodNs - t₁ := by
    intro hperiod hsome
    rw [grant_potential, h.config]
    rw [grant_grantsIn] at hsome ⊢
    have hpos : 0 < c.periodNs := Config.periodNs_pos hperiod
    by_cases hbefore : 0 < u.grantsIn t₁ t₂
    · have hpaid := h.paid hperiod hbefore
      split_ifs
      · push_cast
        rw [Int.add_mul, Int.one_mul]
        omega
      · push_cast
        rw [Int.add_mul, Int.zero_mul]
        omega
    · -- the first grant of the window, by a bucket that is at most full
      have hfresh := hfresh hperiod
      split_ifs at hsome ⊢ with hwindow
      · rw [show u.grantsIn t₁ t₂ = 0 by omega]
        simp only [Nat.zero_add, Nat.cast_one, Int.one_mul]
        omega
      · omega
  refine ⟨h.config, ?_, h.stamp, ?_, ?_, hpaid, ?_⟩
  · have hbounds := h.bounds
    unfold RateLimiter.InBounds at hbounds ⊢
    show 0 ≤ u.limiter.tokens - 1 ∧ u.limiter.tokens - 1 ≤ u.limiter.capacity
    omega
  · have hlane := h.lane
    rw [grant_exitsGranted, htokens]
    cases isExit with
    | true =>
      rw [if_pos rfl]
      push_cast
      omega
    | false =>
      have hentry : c.reservedExit < u.limiter.tokens := by
        rw [← h.config]
        exact hlevel
      rw [if_neg Bool.false_ne_true]
      push_cast
      omega
  · intro hperiod
    have hbudget := h.budget hperiod
    show ((u.granted.length + 1 : Nat) : Int) + (u.limiter.tokens - 1) ≤ c.capacity
    push_cast
    omega
  · -- the bucket is not overdrawn and its stamp not ahead of the grant's reading
    intro hperiod hsome
    by_cases hwindow : t₁ ≤ u.clock ∧ u.clock ≤ t₂
    · have hpaid := hpaid hperiod hsome
      have hpos : 0 < c.periodNs := Config.periodNs_pos hperiod
      have hstamp := h.stamp
      have hlevel : 0 ≤ (u.limiter.tokens - 1) * c.periodNs :=
        Int.mul_nonneg (by omega) hpos.le
      have hpotential : (u.grant isExit).limiter.potential
          = (u.limiter.tokens - 1) * c.periodNs - u.limiter.lastRefill := by
        show (u.limiter.tokens - 1) * u.limiter.periodNs - u.limiter.lastRefill = _
        rw [h.config]
      omega
    · rw [grant_grantsIn, if_neg hwindow] at hsome ⊢
      exact h.bounded hperiod hsome

theorem metered_step (h : Metered c t₁ t₂ u) (call : Call) (hforward : u.Forward call) :
    Metered c t₁ t₂ (u.step call) := by
  have hrefilled := metered_refilled h hforward
  rcases step_cases u call with hstep | ⟨isExit, hlevel, hstep⟩
  · rw [hstep]
    exact hrefilled
  · rw [hstep]
    have hfloor : (u.refilled call.now).limiter.floor isExit = u.limiter.floor isExit := by
      show (u.limiter.refill call.now).floor isExit = _
      unfold RateLimiter.floor
      rw [refill_toConfig]
    refine metered_grant hrefilled (by rw [hfloor]; exact hlevel) fun hperiod => ?_
    have hlimit : (u.limiter.refill call.now).potential
        < (u.limiter.capacity + 1) * u.limiter.periodNs - call.now :=
      refill_potential_lt h.bounds (by rw [h.config]; exact hperiod)
    rw [h.config] at hlimit
    exact hlimit

/-- **Every run at non-decreasing readings.** -/
theorem metered_run {now capacity refillPeriod reservedExit : Int} {calls : List Call}
    (hforward : Along Usage.step Usage.Forward
      (.start now capacity refillPeriod reservedExit) calls) (t₁ t₂ : Int) :
    Metered (.clamp capacity refillPeriod reservedExit) t₁ t₂
      (run Usage.step (.start now capacity refillPeriod reservedExit) calls) :=
  run_keeps (I := Metered _ t₁ t₂) (fun _ call h hcall => metered_step h call hcall)
    (metered_start now capacity refillPeriod reservedExit t₁ t₂) hforward

end

/-! ## The main result -/

/-- The grants a window of time leaves room for. -/
def Config.windowBound (c : Config) (t₁ t₂ : Int) : Int :=
  if 0 < c.refillPeriod then c.capacity + (t₂ - t₁) / c.periodNs + 1 else c.capacity

theorem Metered.grantsIn_le {c : Config} {t₁ t₂ : Int} {u : Usage} (h : Metered c t₁ t₂ u)
    (hwindow : t₁ ≤ t₂) : u.grantsIn t₁ t₂ ≤ c.windowBound t₁ t₂ := by
  have hcapacity : 0 ≤ c.capacity := c.reservedExit_nonneg.trans c.reservedExit_le
  unfold Config.windowBound
  by_cases hperiod : 0 < c.refillPeriod
  · rw [if_pos hperiod]
    have hpos : 0 < c.periodNs := Config.periodNs_pos hperiod
    by_cases hsome : 0 < u.grantsIn t₁ t₂
    · have hbounded := h.bounded hperiod hsome
      have hover : (u.grantsIn t₁ t₂ : Int) - (c.capacity + 1) ≤ (t₂ - t₁) / c.periodNs := by
        rw [Int.le_ediv_iff_mul_le hpos, Int.sub_mul]
        omega
      omega
    · have : 0 ≤ (t₂ - t₁) / c.periodNs := Int.ediv_nonneg (by omega) hpos.le
      omega
  · rw [if_neg hperiod]
    have hbudget := h.budget (by have := c.refillPeriod_nonneg; omega)
    obtain ⟨hempty, -⟩ := h.bounds
    have hcount : u.grantsIn t₁ t₂ ≤ u.granted.length := List.countP_le_length
    omega

end BrokerExec.RateLimit
