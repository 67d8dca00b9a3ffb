import Mathlib.Data.List.Infix

/-!
# Maximal munch

What a hand-written scanner takes at the front of a text: the longest run of elements with a
property.

* **`takeWhile_cut`** — what `takeWhile` takes, and where it stops.
* **`takeWhile_append_stop`** — it takes a run that is followed by something else.
* **`append_cases`** — where one text is cut twice, the second cut lies behind the first or properly
  in front of it.
-/

namespace BrokerExec

variable {α : Type*} {p : α → Bool} {run rest : List α}

/-- The maximal run at the front of a text, and what follows it. -/
theorem takeWhile_cut (p : α → Bool) (text : List α) :
    text = text.takeWhile p ++ text.drop (text.takeWhile p).length
      ∧ (∀ c ∈ text.takeWhile p, p c = true)
      ∧ ∀ c ∈ (text.drop (text.takeWhile p).length).head?, p c = false := by
  induction text with
  | nil => simp
  | cons c cs ih =>
    cases hc : p c with
    | false => simp [hc]
    | true =>
      obtain ⟨hcut, hall, hhead⟩ := ih
      rw [List.takeWhile_cons_of_pos hc, List.length_cons, List.drop_succ_cons]
      refine ⟨congrArg (c :: ·) hcut, ?_, hhead⟩
      intro d hd
      rcases List.mem_cons.mp hd with rfl | hd
      · exact hc
      · exact hall d hd

theorem exists_run (p : α → Bool) (text : List α) :
    ∃ run rest, text = run ++ rest ∧ (∀ c ∈ run, p c = true) ∧ ∀ c ∈ rest.head?, p c = false :=
  ⟨_, _, takeWhile_cut p text⟩

theorem takeWhile_append_stop (hrun : ∀ c ∈ run, p c = true)
    (hrest : ∀ c ∈ rest.head?, p c = false) : (run ++ rest).takeWhile p = run := by
  have hstop : rest.takeWhile p = [] := by
    cases rest with
    | nil => rfl
    | cons c cs => exact List.takeWhile_cons_of_neg (by simp [hrest c rfl])
  rw [List.takeWhile_append_of_pos hrun, hstop, List.append_nil]

theorem append_cases {a b c d : List α} (h : a ++ b = c ++ d) :
    (∃ tail, c = a ++ tail ∧ b = tail ++ d)
      ∨ ∃ shared, shared ≠ [] ∧ a = c ++ shared ∧ d = shared ++ b := by
  rcases List.append_eq_append_iff.mp h with htail | ⟨shared, rfl, rfl⟩
  · exact .inl htail
  · cases shared with
    | nil => exact .inl ⟨[], by simp, rfl⟩
    | cons c cs => exact .inr ⟨c :: cs, List.cons_ne_nil c cs, rfl, rfl⟩

end BrokerExec
