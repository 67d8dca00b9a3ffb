import Mathlib.Algebra.Order.Ring.Int

/-!
# Calendar dates and day numbers

The proleptic Gregorian calendar as `std::chrono` has it: a **`CivilDate`** is a year, a month and
a day, a day number counts days from 1970-01-01. A year is counted from March on the way, so that
the leap day is its last.

* **`toDays_ofDays`** — the date of a day names that day;
* **`ok_ofDays`** — it is a date that exists.
-/

namespace BrokerExec

/-- `std::chrono::year_month_day`. -/
structure CivilDate where
  year : Int
  month : Int
  day : Int
  deriving DecidableEq

namespace CivilDate

def IsLeap (year : Int) : Prop := year % 4 = 0 ∧ (year % 100 ≠ 0 ∨ year % 400 = 0)

instance (year : Int) : Decidable (IsLeap year) := inferInstanceAs (Decidable (_ ∧ _))

def lastDay (year month : Int) : Int :=
  if month = 2 then if IsLeap year then 29 else 28
  else if month = 4 ∨ month = 6 ∨ month = 9 ∨ month = 11 then 30
  else 31

/-- `year_month_day::ok`. -/
def Ok (date : CivilDate) : Prop :=
  (1 ≤ date.month ∧ date.month ≤ 12) ∧ 1 ≤ date.day ∧ date.day ≤ lastDay date.year date.month

instance (date : CivilDate) : Decidable date.Ok := inferInstanceAs (Decidable (_ ∧ _))

/-- The days of a year before the month that is `mp` months after March. -/
def monthStart (mp : Int) : Int := (153 * mp + 2) / 5

/-- The days before the first of March of a year, from that of the year zero. -/
def yearStart (year : Int) : Int := 365 * year + year / 4 - year / 100 + year / 400

/-- `sys_days{date}`; 719468 days lie between 0000-03-01 and 1970-01-01. -/
def toDays (date : CivilDate) : Int :=
  if date.month ≤ 2 then
    yearStart (date.year - 1) + monthStart (date.month + 9) + (date.day - 1) - 719468
  else yearStart date.year + monthStart (date.month - 3) + (date.day - 1) - 719468

/-- The year, from March to February, that a day lies in: 400-year eras, the centuries of an era,
its 4-year cycles and their years, the last of each a day longer than the others. -/
def yearOf (z : Int) : Int :=
  let doe := z % 146097
  let century := min (doe / 36524) 3
  let doc := doe - century * 36524
  let cycle := doc / 1461
  400 * (z / 146097) + 100 * century + 4 * cycle + min ((doc - cycle * 1461) / 365) 3

def monthOf (doy : Int) : Int := (5 * doy + 2) / 153

/-- `year_month_day{sys_days{days}}`. -/
def ofDays (days : Int) : CivilDate :=
  let z := days + 719468
  let doy := z - yearStart (yearOf z)
  let mp := monthOf doy
  if mp < 10 then ⟨yearOf z, mp + 3, doy - monthStart mp + 1⟩
  else ⟨yearOf z + 1, mp - 9, doy - monthStart mp + 1⟩

/-- `weekday{sys_days{days}}`, Sunday being zero: the day zero was a Thursday. -/
def weekday (days : Int) : Int := (days + 4) % 7

/-! ## The date of a day -/

/-- A day lies in its year, and only a leap year has a day 365. -/
theorem yearOf_spec (z : Int) :
    0 ≤ z - yearStart (yearOf z) ∧ z - yearStart (yearOf z) ≤ 365
      ∧ (z - yearStart (yearOf z) = 365 → IsLeap (yearOf z + 1)) := by
  have hera := Int.emod_add_mul_ediv z 146097
  have hdoe := Int.emod_nonneg z (b := 146097) (by omega)
  have hdoe' := Int.emod_lt_of_pos z (b := 146097) (by omega)
  unfold yearStart yearOf IsLeap
  dsimp only
  generalize z % 146097 = doe at *
  generalize z / 146097 = era at *
  generalize hc : min (doe / 36524) 3 = century
  generalize hr : doe - century * 36524 = doc
  have hcentury : 0 ≤ century ∧ century ≤ 3 ∧ 0 ≤ doc ∧ doc ≤ 36524
      ∧ (doc = 36524 → century = 3) := by omega
  generalize hq : doc / 1461 = cycle
  generalize hs : doc - cycle * 1461 = rest
  have hcycle : 0 ≤ cycle ∧ cycle ≤ 24 ∧ 0 ≤ rest ∧ rest ≤ 1460 := by omega
  generalize hy : min (rest / 365) 3 = y
  have hyear : 0 ≤ y ∧ y ≤ 3 ∧ 0 ≤ rest - 365 * y ∧ rest - 365 * y ≤ 365
      ∧ (rest - 365 * y = 365 → y = 3) := by omega
  have hfour : (400 * era + 100 * century + 4 * cycle + y) / 4
      = 100 * era + 25 * century + cycle := by omega
  have hhundred : (400 * era + 100 * century + 4 * cycle + y) / 100 = 4 * era + century := by omega
  have hfourHundred : (400 * era + 100 * century + 4 * cycle + y) / 400 = era := by omega
  rw [hfour, hhundred, hfourHundred]
  refine ⟨by omega, by omega, fun hlast => ?_⟩
  obtain rfl : y = 3 := hyear.2.2.2.2 (by omega)
  refine ⟨by omega, ?_⟩
  -- the last cycle of a century ends in its hundredth year, a leap year in the last century only
  by_cases hlastCycle : cycle = 24
  · have : century = 3 := by omega
    exact Or.inr (by omega)
  · exact Or.inl (by omega)

theorem monthOf_spec {doy : Int} (h : 0 ≤ doy) (h' : doy ≤ 365) :
    (0 ≤ monthOf doy ∧ monthOf doy ≤ 11)
      ∧ monthStart (monthOf doy) ≤ doy ∧ doy < monthStart (monthOf doy + 1) := by
  unfold monthStart monthOf
  omega

theorem toDays_ofDays (days : Int) : (ofDays days).toDays = days := by
  obtain ⟨hdoy, hdoy', -⟩ := yearOf_spec (days + 719468)
  obtain ⟨hmonth, -, -⟩ := monthOf_spec hdoy hdoy'
  unfold ofDays
  dsimp only
  split_ifs with hmp
  · rw [toDays, if_neg (by dsimp only; omega)]
    dsimp only
    rw [Int.add_sub_cancel]
    omega
  · rw [toDays, if_pos (by dsimp only; omega)]
    dsimp only
    rw [Int.add_sub_cancel, Int.sub_add_cancel]
    omega

theorem ok_ofDays (days : Int) : (ofDays days).Ok := by
  obtain ⟨hdoy, hdoy', hleap⟩ := yearOf_spec (days + 719468)
  obtain ⟨hmonth, hstart, hend⟩ := monthOf_spec hdoy hdoy'
  unfold ofDays
  dsimp only
  generalize days + 719468 - yearStart (yearOf (days + 719468)) = doy at *
  generalize yearOf (days + 719468) = year at *
  generalize monthOf doy = mp at *
  unfold monthStart at *
  split_ifs with hmp
  · refine ⟨⟨by show 1 ≤ mp + 3; omega, by show mp + 3 ≤ 12; omega⟩, by dsimp only; omega, ?_⟩
    dsimp only [lastDay]
    split_ifs <;> omega
  · refine ⟨⟨by show 1 ≤ mp - 9; omega, by show mp - 9 ≤ 12; omega⟩, by dsimp only; omega, ?_⟩
    dsimp only [lastDay]
    split_ifs with hfebruary hfebruaryLeap
    · omega
    · -- February of a common year: its 29th would be the day 365
      have hmarch : mp = 11 := by omega
      subst hmarch
      have hcommon : doy ≠ 365 := fun h => hfebruaryLeap (hleap h)
      omega
    · omega
    · omega

example : ofDays 20633 = ⟨2026, 6, 29⟩ ∧ weekday 20633 = 1 := by decide

end CivilDate

end BrokerExec
