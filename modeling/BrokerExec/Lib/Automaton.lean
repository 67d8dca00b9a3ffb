import BrokerExec.Lib.Edits

/-!
# Partial automata over an edited text

An automaton takes the elements of a text one by one and may refuse one. What comes out of a
scrubber is read like the text it was made from, as long as the automaton would be where it was
before behind every stretch that is hidden.

* **`run_keeps_invariant`** — what every step over a text keeps.
* **`run_shown`** — the marker in place of stretches on which the automaton comes back.
-/

namespace BrokerExec.Automaton

variable {σ α : Type*}

/-- The steps over a text. -/
def run (step : σ → α → Option σ) (s : σ) (text : List α) : Option σ := text.foldlM step s

variable {step : σ → α → Option σ} {s t u : σ} {text : List α}

@[simp] theorem run_nil (s : σ) : run step s [] = some s := rfl

theorem run_cons (s : σ) (c : α) (text : List α) :
    run step s (c :: text) = (step s c).bind fun t => run step t text := rfl

theorem run_append (s : σ) (front back : List α) :
    run step s (front ++ back) = (run step s front).bind fun t => run step t back :=
  List.foldlM_append

theorem run_cons_of (h : step s c = some t) (text : List α) :
    run step s (c :: text) = run step t text := by
  rw [run_cons, h, Option.bind_some]

theorem run_append_of {front : List α} (h : run step s front = some t) (back : List α) :
    run step s (front ++ back) = run step t back := by
  rw [run_append, h, Option.bind_some]

theorem run_append_eq_some {front back : List α} :
    run step s (front ++ back) = some u
      ↔ ∃ t, run step s front = some t ∧ run step t back = some u := by
  rw [run_append, Option.bind_eq_some_iff]

theorem run_cons_eq_some {c : α} :
    run step s (c :: text) = some u ↔ ∃ t, step s c = some t ∧ run step t text = some u := by
  rw [run_cons, Option.bind_eq_some_iff]

/-- **What every step over a text keeps, the run keeps.** -/
theorem run_keeps_invariant {I : σ → Prop}
    (hstep : ∀ c ∈ text, ∀ s t, I s → step s c = some t → I t) (hs : I s)
    (h : run step s text = some t) : I t := by
  induction text generalizing s with
  | nil => exact Option.some.inj h ▸ hs
  | cons c text ih =>
    obtain ⟨s', hfirst, hrest⟩ := run_cons_eq_some.mp h
    exact ih (fun c hc => hstep c (List.mem_cons_of_mem _ hc))
      (hstep c List.mem_cons_self s s' hs hfirst) hrest

theorem run_eq_self (h : ∀ c ∈ text, step s c = some s) : run step s text = some s := by
  induction text with
  | nil => rfl
  | cons c text ih =>
    rw [run_cons_of (h c List.mem_cons_self)]
    exact ih fun c hc => h c (List.mem_cons_of_mem _ hc)

/-! ## Hidden stretches -/

variable [DecidableEq σ]

/-- Every stretch that a script hides starts at a state that is `inside`, and leads back to it. -/
def hidesInside (step : σ → α → Option σ) (inside : σ → Bool) : σ → List (Edit α) → Bool
  | _, [] => true
  | s, .keep chars :: es => (run step s chars).any fun t => hidesInside step inside t es
  | s, .hide chars :: es =>
    (chars.isEmpty || (inside s && decide (run step s chars = some s)))
      && hidesInside step inside s es

variable {inside : σ → Bool}

theorem hidesInside_append {es fs : List (Edit α)}
    (h : hidesInside step inside s (es ++ fs) = true) :
    ∃ t, run step s (Edit.source es) = some t ∧ hidesInside step inside t fs = true := by
  induction es generalizing s with
  | nil => exact ⟨s, rfl, h⟩
  | cons e es ih =>
    rw [Edit.source_cons]
    cases e with
    | keep chars =>
      obtain ⟨t, ht, hes⟩ := (Option.any_eq_true _ _).mp h
      rw [show (Edit.keep chars).chars = chars from rfl, run_append_of ht]
      exact ih hes
    | hide chars =>
      rw [List.cons_append, hidesInside, Bool.and_eq_true, Bool.or_eq_true, List.isEmpty_iff,
        Bool.and_eq_true, decide_eq_true_eq] at h
      obtain ⟨hchars, hes⟩ := h
      have hback : run step s chars = some s := by
        rcases hchars with rfl | ⟨-, hback⟩
        · rfl
        · exact hback
      rw [show (Edit.hide chars).chars = chars from rfl, run_append_of hback]
      exact ih hes

/-- **A marker on which the automaton stays takes the place of what it comes back from.** -/
theorem run_shown {marker : List α} (hmarker : ∀ s, inside s = true → run step s marker = some s)
    {es : List (Edit α)} (h : hidesInside step inside s es = true) :
    run step s (Edit.shown marker es) = run step s (Edit.source es) := by
  induction es generalizing s with
  | nil => rfl
  | cons e es ih =>
    rw [Edit.shown_cons, Edit.source_cons, run_append, run_append]
    cases e with
    | keep chars =>
      obtain ⟨t, ht, hes⟩ := (Option.any_eq_true _ _).mp h
      exact Option.bind_congr fun u hu => by
        obtain rfl := Option.some.inj (hu.symm.trans ht)
        exact ih hes
    | hide chars =>
      rw [hidesInside, Bool.and_eq_true] at h
      obtain ⟨hchars, hes⟩ := h
      have hback : run step s chars = some s
          ∧ run step s ((Edit.hide chars).apply marker chars) = some s := by
        by_cases hempty : chars = []
        · subst hempty
          exact ⟨rfl, rfl⟩
        · rw [Bool.or_eq_true, List.isEmpty_iff, or_iff_right hempty, Bool.and_eq_true,
            decide_eq_true_eq] at hchars
          rw [Edit.apply, if_neg hempty]
          exact ⟨hchars.2, hmarker s hchars.1⟩
      rw [show (Edit.hide chars).chars = chars from rfl, hback.1, hback.2]
      exact ih hes

end BrokerExec.Automaton
