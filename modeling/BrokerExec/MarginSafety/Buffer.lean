import BrokerExec.Lib.FixedWidth
import BrokerExec.MarginSafety
import Mathlib.Data.Rat.Floor

/-!
# The buffered requirement over the integers (`marginsafety/margin_buffer.cpp`)

A ceiling division behind a guard on its product, and two saturating additions. What they give is
the exact requirement where it fits, and never less than what fits of it.

* **`evaluateMargin_exact`** — the requirement against the exact one, its monotonicity, and the
  verdict.
-/

namespace BrokerExec.MarginSafety

open BrokerExec.Domain (Money)

/-- The value of `INT64_MAX`. -/
def ceiling : Int := 2 ^ 63 - 1

theorem toInt_int64Max : int64Max.toInt = ceiling := rfl

/-! ## Saturating arithmetic -/

section

variable {a b : Int64}

theorem toInt_le_ceiling (a : Int64) : a.toInt ≤ ceiling := by
  have hmax := a.toInt_lt
  unfold ceiling
  omega

/-- The sum, as far as it fits. -/
theorem toInt_satAdd (ha : 0 ≤ a.toInt) (hb : 0 ≤ b.toInt) :
    (satAdd a b).toInt = min ceiling (a.toInt + b.toInt) := by
  have hroom : (int64Max - b).toInt = ceiling - b.toInt := by
    apply toInt_sub_of_fits
    have hbmax := b.toInt_lt
    rw [toInt_int64Max]
    unfold FitsInt64 ceiling
    omega
  unfold satAdd
  split_ifs with hover <;>
    rw [gt_iff_lt, gt_iff_lt, Int64.lt_iff_toInt_lt, Int64.lt_iff_toInt_lt, hroom,
      Int64.toInt_zero] at hover
  · -- saturated
    rw [toInt_int64Max]
    omega
  · -- what is left below the ceiling is at least `b`
    have hfits : a.toInt + b.toInt ≤ ceiling := by
      have hamax := toInt_le_ceiling a
      by_contra hnot
      exact hover ⟨by omega, by omega⟩
    rw [toInt_add_of_fits]
    · omega
    · unfold ceiling at hfits
      unfold FitsInt64
      omega

/-- The proportional cushion, saturated where its product is. -/
def satCushion (base bps : Int) : Int :=
  if base * bps + 9999 ≤ ceiling then (base * bps + 9999) / 10000 else ceiling

/-- The guard asks exactly whether the product fits. -/
theorem bps_guard_iff (hb : 0 < b.toInt) :
    a > (int64Max - 9999) / b ↔ ceiling < a.toInt * b.toInt + 9999 := by
  have hroom : (int64Max - 9999).toInt = ceiling - 9999 := by decide
  have hquotient : ((int64Max - 9999) / b).toInt = (ceiling - 9999) / b.toInt := by
    rw [toInt_div_of_pos (by rw [hroom]; decide) hb, hroom]
  rw [gt_iff_lt, Int64.lt_iff_toInt_lt, hquotient, Int.ediv_lt_iff_lt_mul hb]
  omega

theorem toInt_bpsCushion (ha : 0 ≤ a.toInt) (hb : 0 ≤ b.toInt) :
    (bpsCushion a b).toInt = satCushion a.toInt b.toInt := by
  have hproduct : 0 ≤ a.toInt * b.toInt := Int.mul_nonneg ha hb
  unfold bpsCushion satCushion
  by_cases hnone : a ≤ 0 ∨ b ≤ 0
  · -- a product of zero
    have hzero : a.toInt * b.toInt = 0 := by
      rw [Int64.le_iff_toInt_le, Int64.le_iff_toInt_le, Int64.toInt_zero] at hnone
      rcases hnone with h | h
      · rw [le_antisymm h ha, zero_mul]
      · rw [le_antisymm h hb, mul_zero]
    rw [if_pos hnone, hzero]
    rfl
  · have hpositive : 0 < b.toInt := by
      rw [Int64.le_iff_toInt_le, Int64.le_iff_toInt_le, Int64.toInt_zero] at hnone
      omega
    rw [if_neg hnone]
    by_cases hover : a > (int64Max - 9999) / b
    · -- the product would not fit
      have hlarge := (bps_guard_iff hpositive).mp hover
      rw [if_pos hover, if_neg (by omega), toInt_int64Max]
    · have hfits := mt (bps_guard_iff hpositive).mpr hover
      have hmul : (a * b).toInt = a.toInt * b.toInt := by
        apply toInt_mul_of_fits
        unfold ceiling at hfits
        unfold FitsInt64
        omega
      have hrounded : (a * b + 9999).toInt = a.toInt * b.toInt + 9999 := by
        rw [← hmul] at hfits hproduct ⊢
        apply toInt_add_of_fits
        rw [show (9999 : Int64).toInt = 9999 from rfl]
        unfold ceiling at hfits
        unfold FitsInt64
        omega
      rw [if_neg hover, if_pos (by omega), toInt_div_of_pos (by omega) (by decide), hrounded]
      rfl

theorem satCushion_nonneg {base bps : Int} (hbase : 0 ≤ base) (hbps : 0 ≤ bps) :
    0 ≤ satCushion base bps := by
  have hproduct := Int.mul_nonneg hbase hbps
  unfold satCushion ceiling
  split_ifs <;> omega

/-- **More to cover, or a higher rate, is never a smaller cushion.** -/
theorem satCushion_mono {base base' bps bps' : Int} (hbase : 0 ≤ base) (hbps : 0 ≤ bps)
    (hbase' : base ≤ base') (hbps' : bps ≤ bps') : satCushion base bps ≤ satCushion base' bps' := by
  have hproduct : base * bps ≤ base' * bps' :=
    Int.mul_le_mul hbase' hbps' hbps (hbase.trans hbase')
  unfold satCushion ceiling
  split_ifs <;> omega

end

/-! ## The exact requirement -/

/-- What is buffered: for a basket of which the benefit is not trusted, the worst case. -/
def exactBase (input : MarginInputs) : Int :=
  if input.isMultiLeg = true ∧ input.benefitTrusted = false then
    max input.summedLegMargin.toInt input.apiRequired.toInt
  else input.apiRequired.toInt

/-- The rate and the flat cushion, floored at zero. -/
def rate (cfg : MarginSafetyConfig) : Int := max cfg.bufferBps.toInt 0

def flat (cfg : MarginSafetyConfig) : Int := max cfg.flatBuffer.toInt 0

def exactRequired (input : MarginInputs) (cfg : MarginSafetyConfig) : Int :=
  exactBase input + flat cfg + ⌈(exactBase input * rate cfg : ℚ) / 10000⌉

section

variable {input input' : MarginInputs} {cfg cfg' : MarginSafetyConfig}

theorem toInt_maxMoney {a b : Money} : (maxMoney a b).toInt = max a.toInt b.toInt := by
  unfold maxMoney
  split_ifs with h <;> rw [ge_iff_le, Int64.le_iff_toInt_le] at h <;> omega

theorem toInt_baseRequired : (baseRequired input).toInt = exactBase input := by
  unfold baseRequired exactBase usesWorstCase
  dsimp only
  rw [toInt_maxMoney]
  cases input.isMultiLeg <;> cases input.benefitTrusted <;> simp [toInt_maxMoney]

theorem exactBase_nonneg (hquote : 0 ≤ input.apiRequired.toInt) : 0 ≤ exactBase input := by
  unfold exactBase
  split_ifs <;> omega

theorem rate_nonneg : 0 ≤ rate cfg := le_max_right _ _

theorem flat_nonneg : 0 ≤ flat cfg := le_max_right _ _

/-- The ceiling as the source computes it. -/
theorem ceil_eq (base bps : Int) : ⌈(base * bps : ℚ) / 10000⌉ = (base * bps + 9999) / 10000 := by
  have hceil := Rat.ceil_intCast_div_natCast (base * bps) 10000
  rw [Int.cast_mul] at hceil
  exact hceil.trans (by omega)

/-- **What is required**, over the integers. -/
theorem toInt_effectiveRequired (hquote : 0 ≤ input.apiRequired.toInt) :
    (effectiveRequired input cfg).toInt
      = min ceiling (exactBase input + flat cfg + satCushion (exactBase input) (rate cfg)) := by
  have hrate : (if cfg.bufferBps > 0 then cfg.bufferBps.toInt64 else 0 : Int64).toInt
      = rate cfg := by
    unfold rate
    split_ifs with h <;> rw [gt_iff_lt, Int32.lt_iff_toInt_lt, Int32.toInt_zero] at h
    · rw [Int32.toInt_toInt64]
      omega
    · rw [Int64.toInt_zero]
      omega
  have hflat : (if cfg.flatBuffer > 0 then cfg.flatBuffer else 0 : Money).toInt = flat cfg := by
    unfold flat
    split_ifs with h <;> rw [gt_iff_lt, Int64.lt_iff_toInt_lt, Int64.toInt_zero] at h
    · omega
    · rw [Int64.toInt_zero]
      omega
  have hbase := exactBase_nonneg hquote
  have hfloor : 0 ≤ flat cfg := flat_nonneg
  have hrate0 : 0 ≤ rate cfg := rate_nonneg
  have hcushion := satCushion_nonneg hbase hrate0
  have hfull : 0 ≤ ceiling := by decide
  -- back to the machine's own values, to which the two additions apply
  rw [← toInt_baseRequired] at hbase hcushion ⊢
  unfold effectiveRequired
  dsimp only
  rw [← hflat] at hfloor ⊢
  rw [← hrate] at hrate0 hcushion ⊢
  rw [← toInt_bpsCushion hbase hrate0] at hcushion ⊢
  have hinner := toInt_satAdd hbase hfloor
  rw [toInt_satAdd (by rw [hinner]; omega) hcushion, hinner]
  omega

/-- What fits of the exact requirement is required. -/
theorem exact_le_effective (hquote : 0 ≤ input.apiRequired.toInt) :
    min ceiling (exactRequired input cfg) ≤ (effectiveRequired input cfg).toInt := by
  have hbase := exactBase_nonneg hquote
  have hfloor : 0 ≤ flat cfg := flat_nonneg
  rw [toInt_effectiveRequired hquote]
  unfold exactRequired satCushion
  rw [ceil_eq]
  split_ifs <;> omega

/-- All of it, where nothing saturates. -/
theorem effective_eq_exact (hquote : 0 ≤ input.apiRequired.toInt)
    (hproduct : exactBase input * rate cfg + 9999 ≤ ceiling)
    (hsum : exactRequired input cfg ≤ ceiling) :
    (effectiveRequired input cfg).toInt = exactRequired input cfg := by
  rw [toInt_effectiveRequired hquote]
  unfold exactRequired satCushion at *
  rw [ceil_eq] at *
  rw [if_pos hproduct]
  omega

/-- The same basket with no figure and no setting smaller. -/
structure NoSmaller (input input' : MarginInputs) (cfg cfg' : MarginSafetyConfig) : Prop where
  apiRequired : input.apiRequired ≤ input'.apiRequired
  summedLegMargin : input.summedLegMargin ≤ input'.summedLegMargin
  isMultiLeg : input'.isMultiLeg = input.isMultiLeg
  benefitTrusted : input'.benefitTrusted = input.benefitTrusted
  bufferBps : cfg.bufferBps ≤ cfg'.bufferBps
  flatBuffer : cfg.flatBuffer ≤ cfg'.flatBuffer

theorem exactBase_mono (h : NoSmaller input input' cfg cfg') :
    exactBase input ≤ exactBase input' := by
  have hapi := Int64.le_iff_toInt_le.mp h.apiRequired
  have hsummed := Int64.le_iff_toInt_le.mp h.summedLegMargin
  unfold exactBase
  rw [h.isMultiLeg, h.benefitTrusted]
  split_ifs <;> omega

/-- **A larger figure never lowers the requirement**, across the saturation too. -/
theorem effectiveRequired_mono (hquote : 0 ≤ input.apiRequired.toInt)
    (h : NoSmaller input input' cfg cfg') :
    effectiveRequired input cfg ≤ effectiveRequired input' cfg' := by
  have hapi := Int64.le_iff_toInt_le.mp h.apiRequired
  have hrate : rate cfg ≤ rate cfg' := by
    have hbps := Int32.le_iff_toInt_le.mp h.bufferBps
    unfold rate
    omega
  have hflat : flat cfg ≤ flat cfg' := by
    have hbuffer := Int64.le_iff_toInt_le.mp h.flatBuffer
    unfold flat
    omega
  have hbase := exactBase_mono h
  have hcushion := satCushion_mono (exactBase_nonneg hquote) rate_nonneg hbase hrate
  rw [Int64.le_iff_toInt_le, toInt_effectiveRequired hquote,
    toInt_effectiveRequired (hquote.trans hapi)]
  omega

theorem evaluateMargin_effective :
    (evaluateMargin input cfg).effectiveRequired = effectiveRequired input cfg := by
  unfold evaluateMargin
  dsimp only

theorem evaluateMargin_sufficient_iff : (evaluateMargin input cfg).verdict = .sufficient
    ↔ effectiveRequired input cfg ≤ input.available := by
  unfold evaluateMargin
  dsimp only
  split_ifs with hcovered
  · exact iff_of_true rfl hcovered
  · exact iff_of_false (by decide) hcovered

end

/-- **The buffer never understates.** -/
theorem evaluateMargin_exact (input : MarginInputs) (cfg : MarginSafetyConfig)
    (hquote : 0 ≤ input.apiRequired) :
    min ceiling (exactRequired input cfg) ≤ (evaluateMargin input cfg).effectiveRequired.toInt
      ∧ (exactBase input * rate cfg + 9999 ≤ ceiling → exactRequired input cfg ≤ ceiling →
        (evaluateMargin input cfg).effectiveRequired.toInt = exactRequired input cfg)
      ∧ (∀ input' cfg', NoSmaller input input' cfg cfg' →
        (evaluateMargin input cfg).effectiveRequired
          ≤ (evaluateMargin input' cfg').effectiveRequired)
      ∧ ((evaluateMargin input cfg).verdict = .sufficient
        ↔ (evaluateMargin input cfg).effectiveRequired ≤ input.available) := by
  have hquote' : 0 ≤ input.apiRequired.toInt := Int64.le_iff_toInt_le.mp hquote
  simp only [evaluateMargin_effective]
  exact ⟨exact_le_effective hquote', effective_eq_exact hquote',
    fun _ _ h => effectiveRequired_mono hquote' h, evaluateMargin_sufficient_iff⟩

/-- An untrusted basket of 100 rupees a leg-sum, at five percent and a rupee. -/
def sampleBasket : MarginInputs := ⟨7000, 10000, 10600, true, false⟩

def sampleBuffer : MarginSafetyConfig := ⟨500, 100⟩

theorem evaluateMargin_exact_basket :
    (evaluateMargin sampleBasket sampleBuffer).effectiveRequired.toInt = 10600
      ∧ (evaluateMargin sampleBasket sampleBuffer).verdict = .sufficient := by
  have hexact := evaluateMargin_exact sampleBasket sampleBuffer (by decide)
  exact ⟨by decide, hexact.2.2.2.mpr (by decide)⟩

end BrokerExec.MarginSafety
