import Mathlib.Algebra.BigOperators.Group.List.Basic
import Mathlib.Algebra.Order.Group.Int
import Mathlib.Algebra.Order.Ring.Int
import Mathlib.Logic.Function.Basic

/-!
# The first of each key

What is left of a list when everything is dropped whose key came up before.

* **`sum_firstOf_eq_iff`** — of positive weights nothing is lost exactly when no key comes twice.
-/

namespace BrokerExec

variable {α κ : Type} [DecidableEq κ] {key : α → κ}

/-- The elements with a new key, in their order. -/
def firstOf (key : α → κ) (seen : κ → Bool) : List α → List α
  | [] => []
  | a :: l =>
    if seen (key a) then firstOf key seen l
    else a :: firstOf key (Function.update seen (key a) true) l

variable {weight : α → Int} {seen : κ → Bool} {l : List α}

theorem firstOf_seen {a : α} (h : seen (key a) = true) :
    firstOf key seen (a :: l) = firstOf key seen l := if_pos h

theorem firstOf_new {a : α} (h : seen (key a) = false) :
    firstOf key seen (a :: l) = a :: firstOf key (Function.update seen (key a) true) l :=
  if_neg (by simp [h])

theorem sum_firstOf_le (key : α → κ) (seen : κ → Bool) (hweight : ∀ a ∈ l, 0 < weight a) :
    ((firstOf key seen l).map weight).sum ≤ (l.map weight).sum := by
  induction l generalizing seen with
  | nil => exact Int.le_refl 0
  | cons a l ih =>
    have ha := hweight a List.mem_cons_self
    have hl : ∀ b ∈ l, 0 < weight b := fun b hb => hweight b (List.mem_cons_of_mem a hb)
    rw [List.map_cons, List.sum_cons]
    cases hseen : seen (key a) with
    | true =>
      have := ih seen hl
      rw [firstOf_seen hseen]
      omega
    | false =>
      have := ih (Function.update seen (key a) true) hl
      rw [firstOf_new hseen, List.map_cons, List.sum_cons]
      omega

/-- **Nothing is lost exactly when every key is new.** -/
theorem sum_firstOf_eq_iff (hweight : ∀ a ∈ l, 0 < weight a) :
    ((firstOf key seen l).map weight).sum = (l.map weight).sum
      ↔ (l.map key).Nodup ∧ ∀ a ∈ l, seen (key a) = false := by
  induction l generalizing seen with
  | nil => simp [firstOf]
  | cons a l ih =>
    have ha := hweight a List.mem_cons_self
    have hl : ∀ b ∈ l, 0 < weight b := fun b hb => hweight b (List.mem_cons_of_mem a hb)
    rw [List.map_cons, List.sum_cons, List.map_cons, List.nodup_cons]
    cases hseen : seen (key a) with
    | true =>
      have hless := sum_firstOf_le key seen hl
      rw [firstOf_seen hseen]
      refine iff_of_false (by omega) fun h => ?_
      rw [h.2 a List.mem_cons_self] at hseen
      cases hseen
    | false =>
      rw [firstOf_new hseen, List.map_cons, List.sum_cons, add_right_inj, ih hl]
      constructor
      · rintro ⟨hnodup, hnew⟩
        have hother : ∀ b ∈ l, key b ≠ key a ∧ seen (key b) = false := by
          intro b hb
          have hb := hnew b hb
          by_cases hkey : key b = key a
          · rw [hkey, Function.update_self] at hb
            cases hb
          · rw [Function.update_of_ne hkey] at hb
            exact ⟨hkey, hb⟩
        refine ⟨⟨?_, hnodup⟩, ?_⟩
        · intro hmem
          obtain ⟨b, hb, hkey⟩ := List.mem_map.mp hmem
          exact (hother b hb).1 hkey
        · intro b hb
          rcases List.mem_cons.mp hb with rfl | hb
          · exact hseen
          · exact (hother b hb).2
      · rintro ⟨⟨hmem, hnodup⟩, hnew⟩
        refine ⟨hnodup, fun b hb => ?_⟩
        rw [Function.update_of_ne]
        · exact hnew b (List.mem_cons_of_mem a hb)
        · intro hkey
          exact hmem (hkey ▸ List.mem_map_of_mem hb)

end BrokerExec
