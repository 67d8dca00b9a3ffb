import BrokerExec.Domain.Types
import BrokerExec.Lib.CappedDoubling
import BrokerExec.Lib.Run

/-!
# The circuit breaker (`ratelimit/endpoint_limiter.cpp`)

A run of consecutive 429s opens the breaker for a cooldown that doubles with every further 429 of
the run, up to a cap; a success closes it. The counters saturate at the largest `int`.

`History` remembers what the counters count: when the 429s since the last success came.

* **`follows_run`** — over every run the breaker is what its history says.
-/

namespace BrokerExec.RateLimit

/-! ## The breaker -/

/-- In whole seconds. -/
structure BreakerConfig where
  tripAfterConsecutive429 : Int32
  baseCooldownSeconds : Int32
  maxCooldownSeconds : Int32
  deriving DecidableEq

/-- The source's defaults. -/
def BreakerConfig.initial : BreakerConfig := ⟨5, 1, 300⟩

/-- `open_until` is a reading of the steady clock, in nanoseconds. -/
structure CircuitBreaker where
  cfg : BreakerConfig
  consecutive429 : Int32
  trips : Int32
  openUntil : Int
  deriving DecidableEq

def CircuitBreaker.create (now : Int) (cfg : BreakerConfig) : CircuitBreaker := ⟨cfg, 0, 0, now⟩

/-- The three settings, floored. -/
def BreakerConfig.base (cfg : BreakerConfig) : Int32 :=
  if cfg.baseCooldownSeconds > 0 then cfg.baseCooldownSeconds else 1

def BreakerConfig.cap (cfg : BreakerConfig) : Int32 :=
  if cfg.maxCooldownSeconds ≥ cfg.base then cfg.maxCooldownSeconds else cfg.base

def BreakerConfig.threshold (cfg : BreakerConfig) : Int32 :=
  if cfg.tripAfterConsecutive429 > 0 then cfg.tripAfterConsecutive429 else 1

namespace CircuitBreaker

variable (b : CircuitBreaker)

def cooldownSecondsFor (trips : Int32) : Int32 :=
  if trips ≤ 1 then b.cfg.base else doubleCapped b.cfg.cap (trips.toInt - 1).toNat b.cfg.base

/-- A counter, held at the largest `int`. -/
def saturated (counter : Int32) : Int32 :=
  if counter < Int32.maxValue then counter + 1 else counter

def record429 (now : Int) : CircuitBreaker :=
  let consecutive := saturated b.consecutive429
  if consecutive ≥ b.cfg.threshold then
    let trips := saturated b.trips
    { b with
      consecutive429 := consecutive
      trips := trips
      openUntil := now + (b.cooldownSecondsFor trips).toInt * 1000000000 }
  else { b with consecutive429 := consecutive }

def recordSuccess (now : Int) : CircuitBreaker :=
  { b with consecutive429 := 0, trips := 0, openUntil := now }

def isOpen (now : Int) : Bool := now < b.openUntil

end CircuitBreaker

/-! ## Runs -/

inductive BreakerEvent where
  | record429
  | recordSuccess
  | advance (elapsed : Nat)

/-- A breaker and its clock. -/
structure BreakerUse where
  breaker : CircuitBreaker
  clock : Int

def BreakerUse.create (start : Int) (cfg : BreakerConfig) : BreakerUse :=
  ⟨.create start cfg, start⟩

def BreakerUse.step (u : BreakerUse) : BreakerEvent → BreakerUse
  | .record429 => { u with breaker := u.breaker.record429 u.clock }
  | .recordSuccess => { u with breaker := u.breaker.recordSuccess u.clock }
  | .advance elapsed => { u with clock := u.clock + elapsed }

/-- The readings at which the 429s since the last success came, the latest first. -/
structure History where
  clock : Int
  storm : List Int

def History.step (h : History) : BreakerEvent → History
  | .record429 => { h with storm := h.clock :: h.storm }
  | .recordSuccess => { h with storm := [] }
  | .advance elapsed => { h with clock := h.clock + elapsed }

/-! ## What the history says -/

/-- The settings over the integers. -/
def BreakerConfig.baseSeconds (cfg : BreakerConfig) : Int := max cfg.baseCooldownSeconds.toInt 1

def BreakerConfig.capSeconds (cfg : BreakerConfig) : Int :=
  max cfg.baseSeconds cfg.maxCooldownSeconds.toInt

def BreakerConfig.runLength (cfg : BreakerConfig) : Nat :=
  (max cfg.tripAfterConsecutive429.toInt 1).toNat

/-- The cooldown of the n-th trip. -/
def BreakerConfig.cooldown (cfg : BreakerConfig) (trips : Nat) : Int :=
  min (cfg.baseSeconds * 2 ^ (trips - 1)) cfg.capSeconds

/-- The 429s that brought the run to its threshold or found it there: all but the oldest. -/
def History.tripping (h : History) (cfg : BreakerConfig) : List Int :=
  h.storm.take (h.storm.length + 1 - cfg.runLength)

/-- Open, until the cooldown since the last of them is over. -/
def History.IsOpen (h : History) (cfg : BreakerConfig) : Prop :=
  ∃ last ∈ (h.tripping cfg).head?,
    h.clock < last + cfg.cooldown (h.tripping cfg).length * 1000000000

/-! ## Settings and cooldowns -/

section

variable {cfg : BreakerConfig}

theorem toInt_base : cfg.base.toInt = cfg.baseSeconds := by
  unfold BreakerConfig.base BreakerConfig.baseSeconds
  split_ifs with h <;> rw [gt_iff_lt, Int32.lt_iff_toInt_lt, Int32.toInt_zero] at h
  · omega
  · rw [Int32.toInt_one]
    omega

theorem toInt_cap : cfg.cap.toInt = cfg.capSeconds := by
  unfold BreakerConfig.cap BreakerConfig.capSeconds
  rw [← toInt_base]
  split_ifs with h <;> rw [ge_iff_le, Int32.le_iff_toInt_le] at h <;> omega

theorem toInt_threshold : cfg.threshold.toInt = cfg.runLength := by
  unfold BreakerConfig.threshold BreakerConfig.runLength
  split_ifs with h <;> rw [gt_iff_lt, Int32.lt_iff_toInt_lt, Int32.toInt_zero] at h
  · omega
  · rw [Int32.toInt_one]
    omega

theorem baseSeconds_pos (cfg : BreakerConfig) : 0 < cfg.baseSeconds := by
  unfold BreakerConfig.baseSeconds
  omega

theorem baseSeconds_le_cap (cfg : BreakerConfig) : cfg.baseSeconds ≤ cfg.capSeconds :=
  le_max_left _ _

/-- The largest `int`. -/
def intMax : Nat := 2 ^ 31 - 1

theorem toInt_maxValue : Int32.maxValue.toInt = intMax := rfl

theorem capSeconds_le (cfg : BreakerConfig) : cfg.capSeconds ≤ intMax := by
  rw [← toInt_cap]
  have hmax := cfg.cap.toInt_lt
  unfold intMax
  omega

theorem runLength_le (cfg : BreakerConfig) : 0 < cfg.runLength ∧ cfg.runLength ≤ intMax := by
  have hmax := cfg.threshold.toInt_lt
  rw [toInt_threshold] at hmax
  unfold BreakerConfig.runLength intMax at *
  omega

/-- **The doubling loop gives the exact power**, as far as the cap. -/
theorem cooldownSecondsFor_eq {b : CircuitBreaker} {trips : Int32} (h : 0 < trips.toInt) :
    (b.cooldownSecondsFor trips).toInt = b.cfg.cooldown trips.toInt.toNat := by
  have hbase := baseSeconds_pos b.cfg
  have hcap := baseSeconds_le_cap b.cfg
  unfold CircuitBreaker.cooldownSecondsFor BreakerConfig.cooldown
  split_ifs with hfirst <;> rw [Int32.le_iff_toInt_le, Int32.toInt_one] at hfirst
  · rw [show trips.toInt.toNat - 1 = 0 by omega, pow_zero, mul_one, toInt_base]
    omega
  · rw [← toInt_base, ← toInt_cap] at *
    rw [toInt_doubleCapped _ hbase hcap,
      show (trips.toInt - 1).toNat = trips.toInt.toNat - 1 by omega]

/-- From the 32nd trip on the cooldown is the cap: no `int` is left to double. -/
theorem cooldown_of_large {trips : Nat} (h : 32 ≤ trips) : cfg.cooldown trips = cfg.capSeconds := by
  have hbase := baseSeconds_pos cfg
  have hcap := capSeconds_le cfg
  have hpower : (2 : Int) ^ 31 ≤ 2 ^ (trips - 1) := pow_le_pow_right₀ (by decide) (by omega)
  have hlarge : (2 : Int) ^ (trips - 1) ≤ cfg.baseSeconds * 2 ^ (trips - 1) :=
    le_mul_of_one_le_left (by omega) (by omega)
  unfold BreakerConfig.cooldown
  unfold intMax at hcap
  omega

/-- A counter that has stopped at the largest `int` gives the same cooldown. -/
theorem cooldown_saturated (trips : Nat) :
    cfg.cooldown (min intMax trips) = cfg.cooldown trips := by
  by_cases hlarge : intMax ≤ trips
  · -- both are past the last doubling
    have h32 : 32 ≤ intMax := by decide
    rw [min_eq_left hlarge, cooldown_of_large h32, cooldown_of_large (h32.trans hlarge)]
  · rw [min_eq_right (by omega)]

theorem toInt_saturated {counter : Int32} {count : Nat}
    (h : counter.toInt = (min intMax count : Nat)) :
    (CircuitBreaker.saturated counter).toInt = (min intMax (count + 1) : Nat) := by
  unfold CircuitBreaker.saturated
  split_ifs with hroom <;> rw [Int32.lt_iff_toInt_lt, toInt_maxValue] at hroom
  · -- below the largest `int` the counter is still the count
    rw [toInt32_add_of_fits, Int32.toInt_one]
    · omega
    · rw [Int32.toInt_one]
      unfold FitsInt32
      unfold intMax at *
      omega
  · omega

end

/-! ## The breaker follows its history -/

/-- The counters count the history, and the breaker is open until what the last trip says. -/
structure Follows (cfg : BreakerConfig) (u : BreakerUse) (h : History) : Prop where
  settings : u.breaker.cfg = cfg
  clock : u.clock = h.clock
  consecutive : u.breaker.consecutive429.toInt = (min intMax h.storm.length : Nat)
  trips : u.breaker.trips.toInt = (min intMax (h.tripping cfg).length : Nat)
  closed : h.tripping cfg = [] → u.breaker.openUntil ≤ h.clock
  opened : ∀ last ∈ (h.tripping cfg).head?,
    u.breaker.openUntil = last + cfg.cooldown (h.tripping cfg).length * 1000000000

section

variable {cfg : BreakerConfig} {u : BreakerUse} {h : History}

theorem tripping_calm (cfg : BreakerConfig) (clock : Int) :
    (History.mk clock []).tripping cfg = [] := List.take_nil

theorem follows_create (start : Int) (cfg : BreakerConfig) :
    Follows cfg (.create start cfg) ⟨start, []⟩ where
  settings := rfl
  clock := rfl
  consecutive := rfl
  trips := by
    rw [tripping_calm]
    rfl
  closed _ := le_rfl
  opened _ hlast := by
    rw [tripping_calm] at hlast
    cases hlast

/-- One more 429: it joins the tripping ones where the run has its length. -/
theorem tripping_record429 : (h.step .record429).tripping cfg
    = if cfg.runLength ≤ h.storm.length + 1 then h.clock :: h.tripping cfg else [] := by
  show (h.clock :: h.storm).take ((h.clock :: h.storm).length + 1 - cfg.runLength) = _
  rw [List.length_cons]
  split_ifs with hreached
  · rw [show h.storm.length + 1 + 1 - cfg.runLength
        = h.storm.length + 1 - cfg.runLength + 1 by omega,
      List.take_succ_cons]
    rfl
  · rw [show h.storm.length + 1 + 1 - cfg.runLength = 0 by omega, List.take_zero]

theorem follows_record429 (hfollows : Follows cfg u h) :
    Follows cfg (u.step .record429) (h.step .record429) := by
  have hconsecutive := toInt_saturated hfollows.consecutive
  have hthreshold : CircuitBreaker.saturated u.breaker.consecutive429 ≥ u.breaker.cfg.threshold
      ↔ cfg.runLength ≤ h.storm.length + 1 := by
    have hrun := runLength_le cfg
    rw [ge_iff_le, Int32.le_iff_toInt_le, hconsecutive, hfollows.settings, toInt_threshold]
    omega
  by_cases hreached : cfg.runLength ≤ h.storm.length + 1
  · -- a trip
    have htripping : (h.step .record429).tripping cfg = h.clock :: h.tripping cfg := by
      rw [tripping_record429, if_pos hreached]
    have htrips := toInt_saturated hfollows.trips
    have hcooldown : (u.breaker.cooldownSecondsFor (CircuitBreaker.saturated u.breaker.trips)).toInt
        = cfg.cooldown ((h.tripping cfg).length + 1) := by
      have hpos : 0 < (CircuitBreaker.saturated u.breaker.trips).toInt := by
        unfold intMax at htrips
        omega
      rw [cooldownSecondsFor_eq hpos, htrips, Int.toNat_natCast, cooldown_saturated,
        hfollows.settings]
    have hstep : (u.step .record429).breaker
        = { u.breaker with
            consecutive429 := CircuitBreaker.saturated u.breaker.consecutive429
            trips := CircuitBreaker.saturated u.breaker.trips
            openUntil := u.clock + cfg.cooldown ((h.tripping cfg).length + 1) * 1000000000 } := by
      rw [← hcooldown]
      exact if_pos (hthreshold.mpr hreached)
    refine ⟨?_, hfollows.clock, ?_, ?_, ?_, ?_⟩
    · rw [hstep]
      exact hfollows.settings
    · rw [hstep]
      exact hconsecutive
    · rw [hstep, htripping]
      exact htrips
    · intro hnone
      rw [htripping] at hnone
      cases hnone
    · intro last hlast
      rw [htripping] at hlast ⊢
      cases hlast
      rw [hstep, ← hfollows.clock]
      rfl
  · -- the run is still too short
    have htripping : (h.step .record429).tripping cfg = [] := by
      rw [tripping_record429, if_neg hreached]
    have hbefore : h.tripping cfg = [] := by
      unfold History.tripping
      rw [show h.storm.length + 1 - cfg.runLength = 0 by omega, List.take_zero]
    have hstep : (u.step .record429).breaker
        = { u.breaker with
            consecutive429 := CircuitBreaker.saturated u.breaker.consecutive429 } :=
      if_neg (mt hthreshold.mp hreached)
    have htrips := hfollows.trips
    have hclosed := hfollows.closed hbefore
    rw [hbefore] at htrips
    refine ⟨?_, hfollows.clock, ?_, ?_, ?_, ?_⟩
    · rw [hstep]
      exact hfollows.settings
    · rw [hstep]
      exact hconsecutive
    · rw [hstep, htripping]
      exact htrips
    · rw [hstep]
      exact fun _ => hclosed
    · intro last hlast
      rw [htripping] at hlast
      cases hlast

theorem follows_recordSuccess (hfollows : Follows cfg u h) :
    Follows cfg (u.step .recordSuccess) (h.step .recordSuccess) where
  settings := hfollows.settings
  clock := hfollows.clock
  consecutive := rfl
  trips := by
    show (0 : Int32).toInt = (min intMax ((History.mk h.clock []).tripping cfg).length : Nat)
    rw [tripping_calm]
    rfl
  closed _ := hfollows.clock.le
  opened last hlast := by
    have hnone : last ∈ ((History.mk h.clock []).tripping cfg).head? := hlast
    rw [tripping_calm] at hnone
    cases hnone

theorem follows_advance (hfollows : Follows cfg u h) (elapsed : Nat) :
    Follows cfg (u.step (.advance elapsed)) (h.step (.advance elapsed)) where
  settings := hfollows.settings
  clock := by
    show u.clock + elapsed = h.clock + elapsed
    rw [hfollows.clock]
  consecutive := hfollows.consecutive
  trips := hfollows.trips
  closed hnone := by
    have hclosed := hfollows.closed hnone
    show u.breaker.openUntil ≤ h.clock + elapsed
    omega
  opened := hfollows.opened

theorem follows_step (hfollows : Follows cfg u h) (event : BreakerEvent) :
    Follows cfg (u.step event) (h.step event) := by
  cases event with
  | record429 => exact follows_record429 hfollows
  | recordSuccess => exact follows_recordSuccess hfollows
  | advance elapsed => exact follows_advance hfollows elapsed

/-- **Every run.** -/
theorem follows_run (cfg : BreakerConfig) (start : Int) (events : List BreakerEvent) :
    Follows cfg (run BreakerUse.step (.create start cfg) events)
      (run History.step ⟨start, []⟩ events) := by
  induction events using List.reverseRecOn with
  | nil => exact follows_create start cfg
  | append_singleton events event ih =>
    rw [run_concat, run_concat]
    exact follows_step ih event

/-- **Open exactly while the cooldown of the last trip lasts.** -/
theorem isOpen_iff (hfollows : Follows cfg u h) :
    u.breaker.isOpen u.clock = true ↔ h.IsOpen cfg := by
  unfold CircuitBreaker.isOpen History.IsOpen
  rw [decide_eq_true_eq, hfollows.clock]
  -- without a tripping 429 the breaker was closed at a reading that has passed
  cases htripping : h.tripping cfg with
  | nil =>
    have hclosed := hfollows.closed htripping
    refine iff_of_false (by omega) ?_
    rintro ⟨last, hlast, -⟩
    cases hlast
  | cons last earlier =>
    have hopened := hfollows.opened last (by rw [htripping]; rfl)
    rw [hopened, htripping]
    constructor
    · exact fun h => ⟨last, rfl, h⟩
    · rintro ⟨last', hlast, h⟩
      cases hlast
      exact h

end

/-! ## Nothing overflows -/

/-- The increments behind their guards, and the doublings of any cooldown, are exact. -/
structure NothingOverflows (b : CircuitBreaker) : Prop where
  consecutive : b.consecutive429 < Int32.maxValue → FitsInt32 (b.consecutive429.toInt + 1)
  trips : b.trips < Int32.maxValue → FitsInt32 (b.trips.toInt + 1)
  doublings : ∀ trips : Int32, DoublingsFit b.cfg.cap (trips.toInt - 1).toNat b.cfg.base

theorem fits_increment {counter : Int32} (h : counter < Int32.maxValue) :
    FitsInt32 (counter.toInt + 1) := by
  rw [Int32.lt_iff_toInt_lt, toInt_maxValue] at h
  have hmin := counter.le_toInt
  unfold FitsInt32
  unfold intMax at h
  omega

theorem nothingOverflows (b : CircuitBreaker) : NothingOverflows b where
  consecutive := fits_increment
  trips := fits_increment
  doublings trips := by
    apply doublingsFit
    · rw [toInt_base]
      exact baseSeconds_pos b.cfg
    · rw [toInt_base, toInt_cap]
      exact baseSeconds_le_cap b.cfg

end BrokerExec.RateLimit
