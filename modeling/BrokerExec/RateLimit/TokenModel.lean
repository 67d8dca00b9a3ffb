import BrokerExec.RateLimit.EndpointRuns
import Mathlib.Tactic.Ring

/-!
# The token model per second (`ratelimit/endpoint_limiter.cpp`)

A class rated `N` per second gets a bucket of `N` tokens and one more every `1000 / N` ms. Where
`N` does not divide 1000 the period is too short by what the division drops, and over a long
window more than `N` a second get through; where `N` exceeds 1000 it is zero, and nothing is ever
refilled.

* **`token_model_iff`** — the rates under which the bucket is never permissive and the order class
  refills.
-/

namespace BrokerExec.RateLimit

/-! ## The claims of the model -/

/-- The configured rate. -/
def EndpointLimits.perSec (limits : EndpointLimits) : EndpointClass → Int
  | .order => limits.orderPerSec.toInt
  | .quote => limits.quotePerSec.toInt
  | .historical => limits.historicalPerSec.toInt
  | .other => limits.otherPerSec.toInt

/-- A second of the steady clock. -/
def second : Int := 1000000000

/-- No window of whole seconds holds more grants than its rate and a full bucket allow. -/
def NeverPermissive (limits : EndpointLimits) (breaker : BreakerConfig) : Prop :=
  ∀ ep, 1 ≤ limits.perSec ep → ∀ (start : Int) (calls : List EndpointCall),
    Along EndpointUse.step EndpointUse.Forward (.create start limits breaker) calls →
    ∀ (t : Int) (k : Nat),
      ((run EndpointUse.step (.create start limits breaker) calls).grantsIn ep t (t + k * second)
          : Int)
        ≤ limits.perSec ep + k * limits.perSec ep + 1

/-- An exit that finds the order bucket empty is granted a second later. -/
def OrderRefills (limits : EndpointLimits) (breaker : BreakerConfig) : Prop :=
  ∀ (start : Int) (calls : List EndpointCall),
    Along EndpointUse.step EndpointUse.Forward (.create start limits breaker) calls →
    (run EndpointUse.step (.create start limits breaker) calls).limiter.orderBucket.tokens = 0 →
    ∀ asked now : Int,
      (run EndpointUse.step (.create start limits breaker) calls).clock + second ≤ now →
      ((run EndpointUse.step (.create start limits breaker) calls).limiter.acquire asked now
        .order true).1 = .ok ()

/-- Every rate divides 1000, or is too large for a period at all; the order class needs one, and
no more reserved exits than its rate. -/
def TokensFit (limits : EndpointLimits) : Prop :=
  limits.orderPerSec.toInt ≤ 1000 ∧ limits.reservedExitOrder.toInt ≤ 1000
    ∧ (1 ≤ limits.orderPerSec.toInt →
      limits.reservedExitOrder ≤ limits.orderPerSec ∧ limits.orderPerSec.toInt ∣ 1000)
    ∧ ∀ ep, ep ≠ .order → 1 ≤ limits.perSec ep →
      limits.perSec ep ∣ 1000 ∨ 1000 < limits.perSec ep

/-! ## Rates and periods -/

section

variable {limits : EndpointLimits} {ep : EndpointClass} {perSec : Int32}

theorem refillPeriodFor_eq (h : 0 < perSec.toInt) :
    refillPeriodFor perSec = 1000 / perSec.toInt := by
  have hnot : ¬ perSec ≤ 0 := by
    rw [Int32.le_iff_toInt_le, Int32.toInt_zero]
    omega
  unfold refillPeriodFor
  rw [if_neg hnot, toInt32_div_of_pos (by decide) h]
  rfl

theorem toInt_orderCapacity : (orderCapacity limits).toInt
    = max (max limits.orderPerSec.toInt limits.reservedExitOrder.toInt) 1 := by
  unfold orderCapacity
  simp only [gt_iff_lt, Int32.lt_iff_toInt_lt, apply_ite Int32.toInt, Int32.toInt_zero,
    Int32.toInt_one]
  split_ifs <;> omega

theorem capacityFor_pos_order : 0 < (capacityFor limits .order).toInt := by
  show 0 < (orderCapacity limits).toInt
  rw [toInt_orderCapacity]
  omega

/-- Off the order class, the capacity is the rate. -/
theorem toInt_capacityFor (hep : ep ≠ .order) :
    (capacityFor limits ep).toInt = limits.perSec ep := by
  cases ep with
  | order => exact absurd rfl hep
  | quote => rfl
  | historical => rfl
  | other => rfl

theorem configFor_capacity (h : 0 < (capacityFor limits ep).toInt) :
    (configFor limits ep).capacity = (capacityFor limits ep).toInt := if_neg (by omega)

theorem configFor_refillPeriod (h : 0 < (capacityFor limits ep).toInt) :
    (configFor limits ep).refillPeriod = 1000 / (capacityFor limits ep).toInt := by
  have hnonneg : 0 ≤ 1000 / (capacityFor limits ep).toInt := Int.ediv_nonneg (by decide) h.le
  show (if refillPeriodFor (capacityFor limits ep) > 0 then
    refillPeriodFor (capacityFor limits ep) else 0) = _
  rw [refillPeriodFor_eq h]
  split_ifs <;> omega

/-- **A window of whole seconds**, where the period is exact or there is none. -/
theorem windowBound_le (h : 0 < (capacityFor limits ep).toInt)
    (hrate : (capacityFor limits ep).toInt ∣ 1000 ∨ 1000 < (capacityFor limits ep).toInt)
    (t : Int) (k : Nat) : (configFor limits ep).windowBound t (t + k * second)
      ≤ (capacityFor limits ep).toInt + k * (capacityFor limits ep).toInt + 1 := by
  have hcapacity := configFor_capacity h
  have hperiod := configFor_refillPeriod h
  have hgrown : 0 ≤ k * (capacityFor limits ep).toInt := Int.mul_nonneg (by omega) h.le
  unfold Config.windowBound
  rw [hcapacity]
  rcases hrate with hdivides | hlarge
  · -- the period is exact, and `k` seconds are `k * N` of them
    obtain ⟨p, hp⟩ := hdivides
    have hquotient : 1000 / (capacityFor limits ep).toInt = p := by
      rw [hp, Int.mul_ediv_cancel_left _ h.ne']
    have hpos : 0 < p := by
      by_contra hnot
      have := Int.mul_nonpos_of_nonneg_of_nonpos h.le (not_lt.mp hnot)
      omega
    have hns : (configFor limits ep).periodNs = p * 1000000 := by
      unfold Config.periodNs
      rw [hperiod, hquotient]
    have hseconds : t + k * second - t = k * (capacityFor limits ep).toInt * (p * 1000000) := by
      have hone : second = (capacityFor limits ep).toInt * p * 1000000 := by
        rw [← hp]
        rfl
      rw [add_sub_cancel_left, hone]
      ring
    rw [hperiod, hquotient, if_pos hpos, hns, hseconds, Int.mul_ediv_cancel _ (by omega)]
  · -- no period: the bucket is never refilled
    rw [hperiod, Int.ediv_eq_zero_of_lt (by decide) hlarge, if_neg (lt_irrefl 0)]
    omega

end

/-! ## Exits from an empty bucket -/

section

variable {l : RateLimiter} {now : Int}

/-- A period after the stamp a bucket that is refilled at all has a token for an exit. -/
theorem exit_granted (hbounds : l.InBounds) (hcapacity : 0 < l.capacity)
    (hperiod : 0 < l.refillPeriod) (hlate : l.lastRefill + l.periodNs ≤ now) :
    (l.tryAcquire now true).1 = true := by
  rcases tryAcquire_cases l now true with ⟨-, htry⟩ | ⟨hlevel, -⟩
  · rw [htry]
  · rcases refill_cases hbounds now with ⟨-, hfresh⟩ | ⟨k, hk, -, hrefilled, -, -⟩
    · have := hfresh hperiod
      omega
    · rw [hrefilled] at hlevel
      have hempty : min l.capacity (l.tokens + k) ≤ 0 := hlevel
      have hnonneg := hbounds.1
      omega

/-- Without a period an empty bucket stays empty. -/
theorem exit_refused (hempty : l.tokens = 0) (hperiod : l.refillPeriod = 0) :
    (l.tryAcquire now true).1 = false := by
  rcases tryAcquire_cases l now true with ⟨hlevel, -⟩ | ⟨-, htry⟩
  · rw [refill_disabled hperiod, hempty] at hlevel
    exact absurd hlevel (lt_irrefl 0)
  · rw [htry]

/-- An exit is granted by its bucket. -/
theorem acquire_exit_ok_iff {l : EndpointRateLimiter} {asked now : Int} {ep : EndpointClass} :
    (l.acquire asked now ep true).1 = .ok ()
      ↔ ((l.bucketFor ep).tryAcquire now true).1 = true := by
  rw [acquire_exit, ← acquire_eq_tryAcquire]
  dsimp only
  cases ((l.bucketFor ep).acquire now true).1 with
  | ok passed => exact iff_of_true rfl rfl
  | error e => exact iff_of_false (by intro h; cases h) (by intro h; cases h)

end

/-! ## A run that draws every token -/

/-- What a run has drawn from a bucket of this configuration: the tokens left at the reading `now`,
with the stamp there, and `grants` grants since 0. -/
structure Drawn (c : Config) (u : Usage) (left now : Int) (grants : Nat) : Prop where
  config : u.limiter.toConfig = c
  tokens : u.limiter.tokens = left
  stamp : u.limiter.lastRefill = now
  clock : u.clock = now
  counted : ∀ t, now ≤ t → u.grantsIn 0 t = grants

section

variable {c : Config} {u : Usage} {left now : Int} {grants : Nat}

/-- One exit more, from a bucket whose refill leaves a token. -/
theorem drawn_exit {now' left' : Int} (h : Drawn c u left now grants) (hnow : 0 ≤ now)
    (hforward : now ≤ now')
    (hrefill : u.limiter.refill now'
      = { u.limiter with tokens := left' + 1, lastRefill := now' }) (hleft : 0 ≤ left') :
    Drawn c (u.step (.tryAcquire now' true)) left' now' (grants + 1) := by
  have hlevel : u.limiter.floor true < (u.limiter.refill now').tokens := by
    rw [hrefill]
    show 0 < left' + 1
    omega
  have hstep : u.step (.tryAcquire now' true)
      = ⟨{ u.limiter with tokens := left', lastRefill := now' }, now',
          ⟨now', true⟩ :: u.granted⟩ := by
    rcases tryAcquire_cases u.limiter now' true with ⟨-, htry⟩ | ⟨hempty, -⟩
    · unfold Usage.step
      dsimp only
      rw [htry, hrefill]
      dsimp only
      rw [add_sub_cancel_right, if_pos rfl]
    · exact absurd hlevel (not_lt.mpr hempty)
  rw [hstep]
  refine ⟨h.config, rfl, rfl, rfl, fun t ht => ?_⟩
  have hbefore : u.grantsIn 0 t = grants := h.counted t (hforward.trans ht)
  unfold Usage.grantsIn at hbefore ⊢
  rw [List.countP_cons_of_pos (by simpa using ⟨hnow.trans hforward, ht⟩), hbefore]

/-- At the reading of the stamp nothing is refilled. -/
theorem refill_at_stamp (h : Drawn c u left now grants) :
    u.limiter.refill now = { u.limiter with tokens := left, lastRefill := now } := by
  have hsame : u.limiter.refill now = u.limiter := by
    unfold RateLimiter.refill
    dsimp only
    rw [if_pos (show now - u.limiter.lastRefill ≤ 0 by rw [h.stamp, sub_self]), ite_self]
  rw [hsame, ← h.tokens, ← h.stamp]

/-- A period later an empty bucket has one token. -/
theorem refill_after_period (h : Drawn c u 0 now grants) (hcapacity : 0 < c.capacity)
    (hperiod : 0 < c.refillPeriod) : u.limiter.refill (now + c.periodNs)
      = { u.limiter with tokens := 1, lastRefill := now + c.periodNs } := by
  have hpos : 0 < c.periodNs := Config.periodNs_pos hperiod
  have hbounds : u.limiter.InBounds := by
    unfold RateLimiter.InBounds
    rw [h.tokens, h.config]
    exact ⟨le_rfl, hcapacity.le⟩
  rcases refill_cases hbounds (now + c.periodNs) with ⟨-, hfresh⟩ | ⟨k, hk, -, hrefilled, hstamp, -⟩
  · have hlate := hfresh (by rw [h.config]; exact hperiod)
    rw [h.stamp, h.config] at hlate
    omega
  · rw [h.stamp, h.config] at hstamp
    -- two periods have not passed
    have hone : k = 1 := by
      by_contra hmore
      have htwo : 2 * c.periodNs ≤ k * c.periodNs :=
        Int.mul_le_mul_of_nonneg_right (by omega) hpos.le
      omega
    have htokens : min u.limiter.capacity (u.limiter.tokens + k) = 1 := by
      rw [h.tokens, h.config, hone]
      omega
    have hmoved : u.limiter.lastRefill + k * u.limiter.periodNs = now + c.periodNs := by
      rw [h.stamp, h.config, hone, one_mul]
    rw [hrefilled, htokens, hmoved]

end

section

variable {limits : EndpointLimits} {ep : EndpointClass}

/-- An exit at a reading, which meets no breaker. -/
def exitAt (ep : EndpointClass) (now : Int) : EndpointCall := .acquire now now ep true

/-- Exits for every token of a full bucket, at once. -/
def burst (ep : EndpointClass) (n : Nat) : List EndpointCall := List.replicate n (exitAt ep 0)

/-- And one with every period. -/
def drip (ep : EndpointClass) (periodNs : Int) (m : Nat) : List EndpointCall :=
  (List.range m).map fun j => exitAt ep ((j + 1 : Nat) * periodNs)

theorem ofClass_exitAt (u : EndpointUse) (ep : EndpointClass) (now : Int) :
    (u.step (exitAt ep now)).ofClass ep = (u.ofClass ep).step (.tryAcquire now true) :=
  ofClass_acquire rfl

theorem drawn_burst (limits : EndpointLimits) (breaker : BreakerConfig)
    (h : 0 < (capacityFor limits ep).toInt) {n : Nat} (hn : n ≤ (capacityFor limits ep).toInt) :
    Along EndpointUse.step EndpointUse.Forward (.create 0 limits breaker) (burst ep n)
      ∧ Drawn (configFor limits ep)
        ((run EndpointUse.step (.create 0 limits breaker) (burst ep n)).ofClass ep)
        ((capacityFor limits ep).toInt - n) 0 n := by
  induction n with
  | zero =>
    refine ⟨along_nil _, ?_⟩
    rw [show burst ep 0 = [] from rfl, run_nil, ofClass_create]
    refine ⟨rfl, ?_, rfl, rfl, fun t ht => rfl⟩
    show (configFor limits ep).capacity = _
    rw [configFor_capacity h]
    omega
  | succ n ih =>
    obtain ⟨halong, hdrawn⟩ := ih (by push_cast at hn; omega)
    have hsnoc : burst ep (n + 1) = burst ep n ++ [exitAt ep 0] := List.replicate_succ'
    have hclock := hdrawn.clock
    rw [hsnoc, along_append, run_concat, ofClass_exitAt]
    refine ⟨⟨halong, along_cons.mpr ⟨⟨hclock.le, le_rfl⟩, along_nil _⟩⟩, ?_⟩
    have hleft : (capacityFor limits ep).toInt - ((n + 1 : Nat) : Int) + 1
        = (capacityFor limits ep).toInt - n := by
      push_cast
      omega
    refine drawn_exit hdrawn le_rfl le_rfl ?_ (by omega)
    rw [hleft]
    exact refill_at_stamp hdrawn

/-- **A full bucket at once and a token with every period**, all granted. -/
theorem drawn_drip (limits : EndpointLimits) (breaker : BreakerConfig)
    (h : 0 < (capacityFor limits ep).toInt) (hperiod : 0 < (configFor limits ep).refillPeriod)
    (m : Nat) :
    Along EndpointUse.step EndpointUse.Forward (.create 0 limits breaker)
        (burst ep (capacityFor limits ep).toInt.toNat
          ++ drip ep (configFor limits ep).periodNs m)
      ∧ Drawn (configFor limits ep)
        ((run EndpointUse.step (.create 0 limits breaker)
          (burst ep (capacityFor limits ep).toInt.toNat
            ++ drip ep (configFor limits ep).periodNs m)).ofClass ep)
        0 (m * (configFor limits ep).periodNs) ((capacityFor limits ep).toInt.toNat + m) := by
  have hpos : 0 < (configFor limits ep).periodNs := Config.periodNs_pos hperiod
  -- every token of the burst is drawn, and each period then pays for its own exit
  induction m with
  | zero =>
    have hburst := drawn_burst limits breaker h (Int.toNat_of_nonneg h.le).le
    rw [Int.toNat_of_nonneg h.le, sub_self] at hburst
    rw [show drip ep (configFor limits ep).periodNs 0 = [] from rfl, List.append_nil]
    simpa using hburst
  | succ m ih =>
    obtain ⟨halong, hdrawn⟩ := ih
    have hsnoc : drip ep (configFor limits ep).periodNs (m + 1)
        = drip ep (configFor limits ep).periodNs m
          ++ [exitAt ep ((m + 1 : Nat) * (configFor limits ep).periodNs)] := by
      unfold drip
      rw [List.range_succ, List.map_append]
      rfl
    have hnext : ((m + 1 : Nat) : Int) * (configFor limits ep).periodNs
        = m * (configFor limits ep).periodNs + (configFor limits ep).periodNs := by
      push_cast
      rw [Int.add_mul, Int.one_mul]
    have hnow : 0 ≤ m * (configFor limits ep).periodNs := Int.mul_nonneg (by omega) hpos.le
    have hclock := hdrawn.clock
    rw [hsnoc, ← List.append_assoc, along_append, run_concat, ofClass_exitAt]
    refine ⟨⟨halong, along_cons.mpr ⟨⟨?_, le_rfl⟩, along_nil _⟩⟩, ?_⟩
    · refine hclock.le.trans ?_
      rw [hnext]
      omega
    · rw [hnext, ← Nat.add_assoc]
      refine drawn_exit hdrawn hnow (by omega) ?_ le_rfl
      rw [zero_add]
      refine refill_after_period hdrawn ?_ hperiod
      rw [configFor_capacity h]
      exact h

end

/-! ## Where the model holds -/

section

variable {limits : EndpointLimits} {breaker : BreakerConfig} {ep : EndpointClass}

theorem refillPeriod_pos (h : 0 < (capacityFor limits ep).toInt)
    (hslow : (capacityFor limits ep).toInt ≤ 1000) : 0 < (configFor limits ep).refillPeriod := by
  rw [configFor_refillPeriod h]
  exact (Int.le_ediv_iff_mul_le h).mpr (by omega)

/-- As many periods as the capacity fit in a second. -/
theorem capacity_periods_le (h : 0 < (capacityFor limits ep).toInt) :
    (capacityFor limits ep).toInt * (configFor limits ep).periodNs ≤ second := by
  have hfloor := Int.ediv_mul_le 1000 h.ne'
  unfold Config.periodNs second
  rw [configFor_refillPeriod h, ← mul_assoc, mul_comm (capacityFor limits ep).toInt]
  omega

/-- A run that fills every window up. -/
theorem grants_le_of_neverPermissive (hnever : NeverPermissive limits breaker)
    (hrated : 1 ≤ limits.perSec ep) (h : 0 < (capacityFor limits ep).toInt)
    (hslow : (capacityFor limits ep).toInt ≤ 1000) {m k : Nat}
    (hfits : m * (configFor limits ep).periodNs ≤ k * second) :
    (capacityFor limits ep).toInt + m ≤ limits.perSec ep + k * limits.perSec ep + 1 := by
  obtain ⟨halong, hdrawn⟩ := drawn_drip limits breaker h (refillPeriod_pos h hslow) m
  have hwindow := hnever ep hrated 0 _ halong 0 k
  rw [EndpointUse.grantsIn, zero_add, hdrawn.counted _ hfits] at hwindow
  push_cast at hwindow
  omega

/-- A rate whose period is not exact is permissive in the long run. -/
theorem dvd_of_neverPermissive (hnever : NeverPermissive limits breaker)
    (hrated : 1 ≤ limits.perSec ep) (hrate : (capacityFor limits ep).toInt = limits.perSec ep)
    (hslow : limits.perSec ep ≤ 1000) : limits.perSec ep ∣ 1000 := by
  have hperiodNs : (configFor limits ep).periodNs = 1000 / limits.perSec ep * 1000000 := by
    unfold Config.periodNs
    rw [configFor_refillPeriod (by omega), hrate]
  have hnonneg : 0 ≤ 1000 / limits.perSec ep := Int.ediv_nonneg (by decide) (by omega)
  obtain ⟨p, hp⟩ := Int.eq_ofNat_of_zero_le hnonneg
  rw [hp] at hperiodNs
  -- 2000 periods are `2 * p` seconds, in which `2 * p * N` were to be granted
  have hgrants := grants_le_of_neverPermissive hnever hrated (by omega) (by omega)
    (show ((2000 : Nat) : Int) * (configFor limits ep).periodNs ≤ ((2 * p : Nat) : Int) * second by
      rw [hperiodNs]
      unfold second
      push_cast
      omega)
  have hfloor : (p : Int) * limits.perSec ep ≤ 1000 := by
    rw [← hp]
    exact Int.ediv_mul_le 1000 (by omega)
  have hexact : (p : Int) * limits.perSec ep = 1000 := by
    push_cast at hgrants
    rw [hrate, mul_assoc] at hgrants
    omega
  exact ⟨p, by rw [mul_comm, hexact]⟩

/-- With more reserved exits than its rate the order class is built for a larger one. -/
theorem reserved_le_of_neverPermissive (hnever : NeverPermissive limits breaker)
    (hrated : 1 ≤ limits.perSec .order) (hslow : (capacityFor limits .order).toInt ≤ 1000) :
    limits.reservedExitOrder.toInt ≤ limits.perSec .order := by
  have hcapacity : (capacityFor limits .order).toInt
      = max (max (limits.perSec .order) limits.reservedExitOrder.toInt) 1 := toInt_orderCapacity
  have hpos : 0 < (capacityFor limits .order).toInt := capacityFor_pos_order
  obtain ⟨capacity, hnat⟩ := Int.eq_ofNat_of_zero_le hpos.le
  -- a full bucket twice in the first second
  have hsecond : capacity * (configFor limits .order).periodNs ≤ (1 : Nat) * second := by
    rw [← hnat, Nat.cast_one, one_mul]
    exact capacity_periods_le hpos
  have hgrants := grants_le_of_neverPermissive hnever hrated hpos hslow hsecond
  rw [Nat.cast_one, one_mul] at hgrants
  omega

/-- The order class has a period: without one its tokens are drawn once and for all. -/
theorem slow_of_orderRefills (h : OrderRefills limits breaker) :
    (orderCapacity limits).toInt ≤ 1000 := by
  by_contra hfast
  have hpos : 0 < (capacityFor limits .order).toInt := capacityFor_pos_order
  obtain ⟨halong, hdrawn⟩ := drawn_burst limits breaker hpos (Int.toNat_of_nonneg hpos.le).le
  rw [Int.toNat_of_nonneg hpos.le, sub_self] at hdrawn
  have hrefills := h 0 _ halong
  generalize run EndpointUse.step (.create 0 limits breaker)
    (burst .order (capacityFor limits .order).toInt.toNat) = u at hdrawn hrefills
  have hempty : u.limiter.orderBucket.tokens = 0 := hdrawn.tokens
  have hperiod : u.limiter.orderBucket.refillPeriod = 0 := by
    show (u.ofClass .order).limiter.refillPeriod = 0
    rw [hdrawn.config, configFor_refillPeriod hpos]
    exact Int.ediv_eq_zero_of_lt (by decide) (not_le.mp hfast)
  have hgranted := acquire_exit_ok_iff.mp (hrefills hempty 0 _ le_rfl)
  exact Bool.false_ne_true ((exit_refused hempty hperiod).symm.trans hgranted)

theorem perSec_eq_capacityFor (h : TokensFit limits) (hrated : 1 ≤ limits.perSec ep) :
    (capacityFor limits ep).toInt = limits.perSec ep := by
  by_cases hep : ep = .order
  · subst hep
    have hreserved := (h.2.2.1 hrated).1
    rw [Int32.le_iff_toInt_le] at hreserved
    show (orderCapacity limits).toInt = limits.orderPerSec.toInt
    have hrated' : 1 ≤ limits.orderPerSec.toInt := hrated
    rw [toInt_orderCapacity]
    omega
  · exact toInt_capacityFor hep

theorem neverPermissive_of_tokensFit (h : TokensFit limits) : NeverPermissive limits breaker := by
  intro ep hrated start calls hforward t k
  have hrate := perSec_eq_capacityFor h hrated
  have hexact : (capacityFor limits ep).toInt ∣ 1000 ∨ 1000 < (capacityFor limits ep).toInt := by
    rw [hrate]
    by_cases hep : ep = .order
    · subst hep
      exact .inl (h.2.2.1 hrated).2
    · exact h.2.2.2 ep hep hrated
  have hwindow : t ≤ t + k * second := by
    have : 0 ≤ (k : Int) * second := Int.mul_nonneg (by omega) (by decide)
    omega
  rw [← hrate] at hrated ⊢
  exact ((metered_ofClass hforward ep t (t + k * second)).grantsIn_le hwindow).trans
    (windowBound_le (by omega) hexact t k)

theorem orderRefills_of_tokensFit (h : TokensFit limits) : OrderRefills limits breaker := by
  intro start calls hforward _ asked now hlate
  have hpos : 0 < (capacityFor limits .order).toInt := capacityFor_pos_order
  have hslow : (capacityFor limits .order).toInt ≤ 1000 := by
    show (orderCapacity limits).toInt ≤ 1000
    rw [toInt_orderCapacity]
    have horder := h.1
    have hreserved := h.2.1
    omega
  have hmetered := metered_ofClass hforward .order 0 0
  have hstamp := hmetered.stamp
  have hperiod := refillPeriod_pos hpos hslow
  have hcapacity : 0 < (configFor limits .order).capacity := by
    rw [configFor_capacity hpos]
    exact hpos
  have hone : (configFor limits .order).periodNs ≤ second :=
    (le_mul_of_one_le_left (Config.periodNs_pos hperiod).le hpos).trans (capacity_periods_le hpos)
  -- the period is a second at most, and the stamp is not ahead of the clock
  rw [← hmetered.config] at hperiod hcapacity hone
  rw [acquire_exit_ok_iff]
  exact exit_granted hmetered.bounds hcapacity hperiod ((add_le_add hstamp hone).trans hlate)

end

/-- **The token model holds** exactly for the rates it can express. -/
theorem token_model_iff (limits : EndpointLimits) (breaker : BreakerConfig) :
    NeverPermissive limits breaker ∧ OrderRefills limits breaker ↔ TokensFit limits := by
  constructor
  · rintro ⟨hnever, hrefills⟩
    have hslow := slow_of_orderRefills hrefills
    have hcapacity : (capacityFor limits .order).toInt
        = max (max limits.orderPerSec.toInt limits.reservedExitOrder.toInt) 1 := toInt_orderCapacity
    have hslow' := hslow
    rw [toInt_orderCapacity] at hslow'
    refine ⟨by omega, by omega, fun hrated => ?_, fun ep hep hrated => ?_⟩
    · have hrated' : 1 ≤ limits.perSec .order := hrated
      have hreserved : limits.reservedExitOrder.toInt ≤ limits.perSec .order :=
        reserved_le_of_neverPermissive hnever hrated' hslow
      have hrate : limits.perSec .order = limits.orderPerSec.toInt := rfl
      exact ⟨Int32.le_iff_toInt_le.mpr hreserved,
        dvd_of_neverPermissive hnever hrated' (by omega) (by omega)⟩
    · by_cases hfast : limits.perSec ep ≤ 1000
      · exact .inl (dvd_of_neverPermissive hnever hrated (toInt_capacityFor hep) hfast)
      · exact .inr (not_le.mp hfast)
  · exact fun h => ⟨neverPermissive_of_tokensFit h, orderRefills_of_tokensFit h⟩

/-- The default limits rate the historical class at 3, with a token every 333 ms: 2003 grants in 666
seconds, where 2002 were to be the most. And a thousand and one orders a second are never
refilled. -/
theorem default_limits_permissive :
    ¬ NeverPermissive .initial .initial
      ∧ ¬ OrderRefills { EndpointLimits.initial with orderPerSec := 1001 } .initial := by
  constructor
  · intro hnever
    have hrate : (capacityFor .initial .historical).toInt = 3 := by decide
    have hperiodNs : (configFor .initial .historical).periodNs = 333000000 := by decide
    have hfits : ((2000 : Nat) : Int) * (configFor .initial .historical).periodNs
        ≤ ((666 : Nat) : Int) * second := by
      rw [hperiodNs]
      decide
    have hgrants := grants_le_of_neverPermissive hnever (by decide) (by decide) (by decide) hfits
    rw [hrate, show EndpointLimits.initial.perSec .historical = 3 by decide] at hgrants
    omega
  · exact fun hrefills => absurd (slow_of_orderRefills hrefills) (by decide)

end BrokerExec.RateLimit
