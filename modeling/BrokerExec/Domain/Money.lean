import BrokerExec.Domain.Types
import BrokerExec.Lib.Checked
import BrokerExec.Lib.Nearest

/-!
# Rounding a price to its tick (`domain/money.cpp`)

The division is made on the unsigned magnitude, where nothing overflows at either end of the 64
bits, and the range is checked on the rounded magnitude.

* **`roundToTick_nearest`** — the result is the nearest multiple of the tick where that fits, and
  the price unchanged where it does not.
-/

namespace BrokerExec.Domain

/-- The magnitude of a signed value, in unsigned space. -/
def magnitude (value : Int64) : UInt64 :=
  if value < 0 then ~~~value.toUInt64 + 1 else value.toUInt64

def kMaxMagnitude : UInt64 := Int64.maxValue.toUInt64

/-- The bias of the division: a half goes up, away from zero on the positive side, towards it on
the negative. -/
def halfTick (value tick : Int64) : UInt64 :=
  if value < 0 then (tick.toUInt64 - 1) / 2 else tick.toUInt64 / 2

/-- `Price::round_to_tick`; a tick that is not positive is no tick. -/
def roundToTick (value tick : Price) : Price :=
  if tick ≤ 0 then value
  else
    let ut := tick.toUInt64
    let rounded := (magnitude value + halfTick value tick) / ut * ut
    let limit := if value < 0 then kMaxMagnitude + 1 else kMaxMagnitude
    if limit < rounded then value
    else if value < 0 then (~~~rounded + 1).toInt64 else rounded.toInt64

example : roundToTick (-25) 10 = -20 := by decide

/-! ## Signed and unsigned words -/

theorem toInt_eq_toUInt64 (value : Int64) :
    value.toInt = if value.toUInt64.toNat < 2 ^ 63 then (value.toUInt64.toNat : Int)
      else value.toUInt64.toNat - 2 ^ 64 := by
  have hcond := BitVec.toInt_eq_toNat_cond value.toBitVec
  have hvalue : value.toInt = value.toBitVec.toInt := rfl
  have hword : value.toUInt64.toNat = value.toBitVec.toNat := rfl
  rw [hvalue, hword, hcond]
  split_ifs <;> omega

theorem toInt_toInt64 (word : UInt64) :
    word.toInt64.toInt = if word.toNat < 2 ^ 63 then (word.toNat : Int)
      else word.toNat - 2 ^ 64 :=
  toInt_eq_toUInt64 word.toInt64

theorem toNat_neg_word {word : UInt64} (h : word.toNat ≠ 0) :
    (~~~word + 1).toNat = 2 ^ 64 - word.toNat := by
  have hlt := word.toNat_lt
  rw [UInt64.toNat_add, UInt64.toNat_not, UInt64.toNat_one]
  have hsize : UInt64.size = 2 ^ 64 := rfl
  omega

/-- The magnitude of the least value fits too. -/
theorem toNat_magnitude (value : Int64) : (magnitude value).toNat = value.toInt.natAbs := by
  have hword := toInt_eq_toUInt64 value
  have hlt := value.toUInt64.toNat_lt
  have hsign : value < 0 ↔ value.toInt < 0 := Int64.lt_iff_toInt_lt
  unfold magnitude
  split_ifs at hword ⊢ with hneg hsmall hsmall
  · have := hsign.mp hneg
    omega
  · rw [toNat_neg_word (by omega)]
    omega
  · omega
  · have := mt hsign.mpr hneg
    omega

/-! ## The rounded magnitude -/

variable {value tick : Int64}

theorem toNat_tick (htick : 0 < tick) :
    (tick.toUInt64.toNat : Int) = tick.toInt ∧ 0 < tick.toUInt64.toNat
      ∧ tick.toUInt64.toNat < 2 ^ 63 := by
  have hpos : 0 < tick.toInt := Int64.lt_iff_toInt_lt.mp htick
  have hword := toInt_eq_toUInt64 tick
  have hlt := tick.toUInt64.toNat_lt
  split_ifs at hword with hsmall
  · exact ⟨hword.symm, by omega, hsmall⟩
  · omega

theorem toNat_halfTick (value : Int64) (htick : 0 < tick) :
    (halfTick value tick).toNat
      = (if value < 0 then tick.toUInt64.toNat - 1 else tick.toUInt64.toNat) / 2 := by
  obtain ⟨-, hpos, -⟩ := toNat_tick htick
  unfold halfTick
  split_ifs
  · have hone : (1 : UInt64) ≤ tick.toUInt64 := UInt64.le_iff_toNat_le.mpr hpos
    rw [UInt64.toNat_div, UInt64.toNat_sub_of_le _ _ hone]
    rfl
  · rw [UInt64.toNat_div]
    rfl

/-- **No step of the division wraps.** -/
theorem toNat_rounded (value : Int64) (htick : 0 < tick) :
    ((magnitude value + halfTick value tick) / tick.toUInt64 * tick.toUInt64).toNat
      = (value.toInt.natAbs + (halfTick value tick).toNat) / tick.toUInt64.toNat
        * tick.toUInt64.toNat := by
  obtain ⟨-, -, hsmall⟩ := toNat_tick htick
  have hhalf := toNat_halfTick value htick
  have hlow := value.le_toInt
  have hhigh := value.toInt_lt
  have hbound : value.toInt.natAbs + (halfTick value tick).toNat < 2 ^ 64 := by
    split_ifs at hhalf <;> omega
  have hmul := Nat.div_mul_le_self (value.toInt.natAbs + (halfTick value tick).toNat)
    tick.toUInt64.toNat
  have hsum : (magnitude value + halfTick value tick).toNat
      = value.toInt.natAbs + (halfTick value tick).toNat := by
    rw [UInt64.toNat_add, toNat_magnitude, Nat.mod_eq_of_lt hbound]
  rw [UInt64.toNat_mul, UInt64.toNat_div, hsum, Nat.mod_eq_of_lt (by omega)]

/-! ## Rounding -/

/-- The rounded magnitude, with its sign. -/
def roundedInt (value tick : Int64) : Int :=
  let rounded : Int := ((value.toInt.natAbs + (halfTick value tick).toNat) / tick.toUInt64.toNat
    * tick.toUInt64.toNat : Nat)
  if value < 0 then -rounded else rounded

theorem nearestMultiple_roundedInt (value : Int64) (htick : 0 < tick) :
    NearestMultiple tick.toInt value.toInt (roundedInt value tick) := by
  obtain ⟨hsame, hpos, -⟩ := toNat_tick htick
  have htickInt : 0 < tick.toInt := by omega
  have hhalf := toNat_halfTick value htick
  have hsign : value < 0 ↔ value.toInt < 0 := Int64.lt_iff_toInt_lt
  unfold roundedInt
  dsimp only
  split_ifs at hhalf ⊢ with hneg
  · have hvalue : value.toInt = -(value.toInt.natAbs : Int) := by
      have := hsign.mp hneg
      omega
    have hbias : ((halfTick value tick).toNat : Int) = (tick.toInt - 1) / 2 := by omega
    rw [hvalue, Int.natAbs_neg, Int.natAbs_natCast, Nat.cast_mul, Int.natCast_ediv,
      Nat.cast_add, hbias, hsame]
    exact nearestMultiple_neg htickInt _
  · have hvalue : value.toInt = (value.toInt.natAbs : Int) := by
      have := mt hsign.mpr hneg
      omega
    have hbias : ((halfTick value tick).toNat : Int) = tick.toInt / 2 := by omega
    rw [hvalue, Int.natAbs_natCast, Nat.cast_mul, Int.natCast_ediv, Nat.cast_add, hbias, hsame]
    exact nearestMultiple_pos htickInt _

/-- What is returned for a positive tick. -/
theorem roundToTick_of_pos (value : Int64) (htick : 0 < tick) :
    (FitsInt64 (roundedInt value tick) → (roundToTick value tick).toInt = roundedInt value tick)
      ∧ (¬ FitsInt64 (roundedInt value tick) → roundToTick value tick = value) := by
  have hrounded := toNat_rounded value htick
  have hnot : ¬ tick ≤ 0 := fun h => absurd htick (Int64.not_lt.mpr h)
  unfold roundToTick roundedInt FitsInt64
  rw [if_neg hnot]
  dsimp only
  rw [← hrounded]
  generalize (magnitude value + halfTick value tick) / tick.toUInt64 * tick.toUInt64 = rounded
  have hmax : kMaxMagnitude.toNat = 2 ^ 63 - 1 ∧ (kMaxMagnitude + 1).toNat = 2 ^ 63 := by decide
  have hcast := toInt_toInt64 rounded
  have hnegated := toInt_toInt64 (~~~rounded + 1)
  split_ifs with hneg hlimit hlimit
  all_goals
    rw [UInt64.lt_iff_toNat_lt] at hlimit
  · exact ⟨fun hfits => by omega, fun _ => rfl⟩
  · rcases Nat.eq_zero_or_pos rounded.toNat with hzero | hpos
    · have : rounded = 0 := UInt64.toNat_inj.mp hzero
      subst this
      exact ⟨fun _ => rfl, fun hfits => absurd (by decide) hfits⟩
    · rw [toNat_neg_word (by omega)] at hnegated
      rw [hnegated]
      split_ifs <;> omega
  · exact ⟨fun hfits => by omega, fun _ => rfl⟩
  · rw [hcast, if_pos (by omega)]
    omega

/-- **Rounding is right over all of the 64 bits.** -/
theorem roundToTick_nearest (value tick : Price) :
    (tick ≤ 0 → roundToTick value tick = value)
      ∧ (0 < tick → (∃ m, NearestMultiple tick.toInt value.toInt m)
        ∧ ∀ m, NearestMultiple tick.toInt value.toInt m →
          (FitsInt64 m → (roundToTick value tick).toInt = m)
            ∧ (¬ FitsInt64 m → roundToTick value tick = value)) := by
  refine ⟨fun htick => if_pos htick, fun htick => ?_⟩
  have hnearest := nearestMultiple_roundedInt value htick
  refine ⟨⟨_, hnearest⟩, fun m hm => ?_⟩
  rw [hm.unique hnearest]
  exact roundToTick_of_pos value htick

end BrokerExec.Domain
