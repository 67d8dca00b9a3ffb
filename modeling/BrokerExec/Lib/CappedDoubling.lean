import BrokerExec.Lib.FixedWidth
import Mathlib.Algebra.Order.Ring.Int

/-!
# Doubling up to a cap

`n` doublings of a 32-bit value, given up for the cap as soon as the next one would pass it. The
result is that of the exact power, and no doubling on the way leaves the 32 bits.
-/

namespace BrokerExec

def doubleCapped (cap : Int32) : Nat → Int32 → Int32
  | 0, value => value
  | n + 1, value =>
    if value > cap / 2 then cap
    else if value * 2 ≥ cap then cap
    else doubleCapped cap n (value * 2)

/-- Every doubling that is made is exact. -/
def DoublingsFit (cap : Int32) : Nat → Int32 → Prop
  | 0, _ => True
  | n + 1, value =>
    ¬ value > cap / 2 →
      FitsInt32 (value.toInt * 2) ∧ (¬ value * 2 ≥ cap → DoublingsFit cap n (value * 2))

section

variable {cap value : Int32}

/-- Behind the guard the doubled value fits, and the cap is not passed. -/
theorem toInt_double (hpos : 0 < value.toInt) (hcap : 0 < cap.toInt) (h : ¬ value > cap / 2) :
    (value * 2).toInt = value.toInt * 2 ∧ value.toInt * 2 ≤ cap.toInt := by
  rw [gt_iff_lt, Int32.lt_iff_toInt_lt, toInt32_div_of_pos (by omega) (by decide),
    show (2 : Int32).toInt = 2 from rfl] at h
  have hhalf : value.toInt * 2 ≤ cap.toInt := by omega
  refine ⟨?_, hhalf⟩
  have hmax := cap.toInt_lt
  rw [toInt32_mul_of_fits, show (2 : Int32).toInt = 2 from rfl]
  rw [show (2 : Int32).toInt = 2 from rfl]
  unfold FitsInt32
  omega

theorem toInt_doubleCapped (n : Nat) (hpos : 0 < value.toInt) (hle : value.toInt ≤ cap.toInt) :
    (doubleCapped cap n value).toInt = min (value.toInt * 2 ^ n) cap.toInt := by
  induction n generalizing value with
  | zero =>
    rw [pow_zero, Int.mul_one]
    show value.toInt = _
    omega
  | succ n ih =>
    have hpower : value.toInt * 2 ^ (n + 1) = value.toInt * 2 * 2 ^ n := by
      rw [pow_succ', mul_assoc]
    have hgrows : value.toInt * 2 ≤ value.toInt * 2 * 2 ^ n :=
      le_mul_of_one_le_right (by omega) (one_le_pow₀ (by decide))
    unfold doubleCapped
    rw [hpower]
    by_cases hguard : value > cap / 2
    · -- one more doubling passes the cap, and so does the power
      rw [if_pos hguard]
      rw [gt_iff_lt, Int32.lt_iff_toInt_lt, toInt32_div_of_pos (by omega) (by decide),
        show (2 : Int32).toInt = 2 from rfl] at hguard
      omega
    obtain ⟨hdouble, hhalf⟩ := toInt_double hpos (by omega) hguard
    rw [if_neg hguard]
    by_cases hreached : value * 2 ≥ cap
    · rw [if_pos hreached]
      rw [ge_iff_le, Int32.le_iff_toInt_le, hdouble] at hreached
      omega
    · rw [if_neg hreached, ih (by omega) (by omega), hdouble]

theorem doublingsFit (n : Nat) (hpos : 0 < value.toInt) (hle : value.toInt ≤ cap.toInt) :
    DoublingsFit cap n value := by
  induction n generalizing value with
  | zero => exact trivial
  | succ n ih =>
    intro hguard
    obtain ⟨hdouble, hhalf⟩ := toInt_double hpos (by omega) hguard
    rw [← hdouble] at hhalf ⊢
    exact ⟨fitsInt32_toInt _, fun _ => ih (by omega) hhalf⟩

end

end BrokerExec
