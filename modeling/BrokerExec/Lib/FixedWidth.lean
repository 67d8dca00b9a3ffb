import BrokerExec.Lib.Checked
import Mathlib.Algebra.Ring.Nat

/-!
# Machine integers where the exact result fits

What an operation on 64-bit or 32-bit signed integers gives when nothing wraps: the result of
the operation on integers.
-/

namespace BrokerExec

/-- What fits in 32 bits. -/
def FitsInt32 (m : Int) : Prop := -2 ^ 31 ≤ m ∧ m < 2 ^ 31

instance (m : Int) : Decidable (FitsInt32 m) := inferInstanceAs (Decidable (_ ∧ _))

/-! ## 64 bits -/

section

variable {a b : Int64}

theorem bmod_of_fitsInt64 {m : Int} (h : FitsInt64 m) : m.bmod (2 ^ 64) = m := by
  unfold FitsInt64 at h
  exact Int.bmod_eq_of_le_mul_two (by omega) (by omega)

theorem toInt_ofInt_of_fits {m : Int} (h : FitsInt64 m) : (Int64.ofInt m).toInt = m := by
  rw [Int64.toInt_ofInt]
  exact bmod_of_fitsInt64 h

theorem toInt_add_of_fits (h : FitsInt64 (a.toInt + b.toInt)) :
    (a + b).toInt = a.toInt + b.toInt := by
  rw [Int64.toInt_add, bmod_of_fitsInt64 h]

theorem toInt_sub_of_fits (h : FitsInt64 (a.toInt - b.toInt)) :
    (a - b).toInt = a.toInt - b.toInt := by
  rw [Int64.toInt_sub, bmod_of_fitsInt64 h]

theorem toInt_mul_of_fits (h : FitsInt64 (a.toInt * b.toInt)) :
    (a * b).toInt = a.toInt * b.toInt := by
  rw [Int64.toInt_mul, bmod_of_fitsInt64 h]

theorem toInt_neg_of_fits (h : FitsInt64 (-a.toInt)) : (-a).toInt = -a.toInt := by
  rw [Int64.toInt_neg, bmod_of_fitsInt64 h]

/-- A division of what is not negative by what is positive. -/
theorem toInt_div_of_pos (ha : 0 ≤ a.toInt) (hb : 0 < b.toInt) :
    (a / b).toInt = a.toInt / b.toInt := by
  have hne : b ≠ -1 := by
    rintro rfl
    exact absurd hb (by decide)
  rw [Int64.toInt_div_of_ne_right a b hne, Int.tdiv_eq_ediv_of_nonneg ha]

theorem toInt_mod_of_nonneg (ha : 0 ≤ a.toInt) : (a % b).toInt = a.toInt % b.toInt := by
  rw [Int64.toInt_mod, Int.tmod_eq_emod_of_nonneg ha]

end

/-! ## 32 bits -/

section

variable {a b : Int32}

theorem fitsInt32_toInt (a : Int32) : FitsInt32 a.toInt := ⟨a.le_toInt, a.toInt_lt⟩

theorem bmod_of_fitsInt32 {m : Int} (h : FitsInt32 m) : m.bmod (2 ^ 32) = m := by
  unfold FitsInt32 at h
  exact Int.bmod_eq_of_le_mul_two (by omega) (by omega)

theorem toInt32_add_of_fits (h : FitsInt32 (a.toInt + b.toInt)) :
    (a + b).toInt = a.toInt + b.toInt := by
  rw [Int32.toInt_add, bmod_of_fitsInt32 h]

theorem toInt32_sub_of_fits (h : FitsInt32 (a.toInt - b.toInt)) :
    (a - b).toInt = a.toInt - b.toInt := by
  rw [Int32.toInt_sub, bmod_of_fitsInt32 h]

theorem toInt32_mul_of_fits (h : FitsInt32 (a.toInt * b.toInt)) :
    (a * b).toInt = a.toInt * b.toInt := by
  rw [Int32.toInt_mul, bmod_of_fitsInt32 h]

theorem toInt32_div_of_pos (ha : 0 ≤ a.toInt) (hb : 0 < b.toInt) :
    (a / b).toInt = a.toInt / b.toInt := by
  have hne : b ≠ -1 := by
    rintro rfl
    exact absurd hb (by decide)
  rw [Int32.toInt_div_of_ne_right a b hne, Int.tdiv_eq_ediv_of_nonneg ha]

end

end BrokerExec
