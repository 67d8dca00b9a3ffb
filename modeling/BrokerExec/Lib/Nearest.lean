import Mathlib.Algebra.Order.Ring.Int
import Mathlib.Tactic.Linarith

/-!
# The nearest multiple of an integer

`NearestMultiple tick value m` says that `m` is the multiple of `tick` nearest to `value`, and of
two at one distance the upper one.

* **`nearestMultiple_iff`** — the multiple in the half-open window of one tick around the value;
* **`nearestMultiple_pos`**, **`nearestMultiple_neg`** — it is found by a biased division of the
  magnitude, with less bias for a negative value.
-/

namespace BrokerExec

def NearestMultiple (tick value m : Int) : Prop :=
  tick ∣ m ∧ ∀ n, tick ∣ n → (value - m).natAbs < (value - n).natAbs
    ∨ (value - m).natAbs = (value - n).natAbs ∧ n ≤ m

variable {tick value m : Int}

theorem nearestMultiple_iff (htick : 0 < tick) :
    NearestMultiple tick value m ↔ tick ∣ m ∧ -tick < 2 * (m - value) ∧ 2 * (m - value) ≤ tick := by
  constructor
  · rintro ⟨hm, hnearest⟩
    -- the two neighbours are no nearer
    have hbelow := hnearest (m - tick) (Int.dvd_sub hm dvd_rfl)
    have habove := hnearest (m + tick) (Int.dvd_add hm dvd_rfl)
    exact ⟨hm, by omega, by omega⟩
  · rintro ⟨hm, hlow, hhigh⟩
    refine ⟨hm, fun n hn => ?_⟩
    obtain ⟨k, hk⟩ := Int.dvd_sub hn hm
    rcases lt_trichotomy k 0 with hneg | rfl | hpos
    · have hfar : n - m ≤ -tick := by nlinarith
      omega
    · omega
    · have hfar : tick ≤ n - m := by nlinarith
      omega

theorem NearestMultiple.unique {m' : Int} (h : NearestMultiple tick value m)
    (h' : NearestMultiple tick value m') : m = m' := by
  have hnear := h.2 m' h'.1
  have hnear' := h'.2 m h.1
  omega

/-- A multiple that is a magnitude, as a biased division gives it. -/
theorem nearestMultiple_pos (htick : 0 < tick) (value : Int) :
    NearestMultiple tick value ((value + tick / 2) / tick * tick) := by
  rw [nearestMultiple_iff htick]
  have hdivmod := Int.mul_ediv_add_emod (value + tick / 2) tick
  have hpos := Int.emod_nonneg (value + tick / 2) (ne_of_gt htick)
  have hlt := Int.emod_lt_of_pos (value + tick / 2) htick
  rw [mul_comm] at hdivmod
  exact ⟨dvd_mul_left _ _, by omega, by omega⟩

theorem nearestMultiple_neg (htick : 0 < tick) (magnitude : Int) :
    NearestMultiple tick (-magnitude) (-((magnitude + (tick - 1) / 2) / tick * tick)) := by
  rw [nearestMultiple_iff htick]
  have hdivmod := Int.mul_ediv_add_emod (magnitude + (tick - 1) / 2) tick
  have hpos := Int.emod_nonneg (magnitude + (tick - 1) / 2) (ne_of_gt htick)
  have hlt := Int.emod_lt_of_pos (magnitude + (tick - 1) / 2) htick
  rw [mul_comm] at hdivmod
  exact ⟨Int.dvd_neg.mpr (dvd_mul_left _ _), by omega, by omega⟩

end BrokerExec
