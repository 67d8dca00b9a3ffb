import Mathlib.Data.List.Basic

/-!
# Runs of a step function

`run step s events` takes one step for each event. What one step keeps, a run keeps:

* **`run_keeps`** — an invariant, under a condition that every step of the run meets;
* **`run_trans`** — a reflexive and transitive relation to the state before.
* **`view_run`** — a view of the state that only some events touch is the run of those events.

`Along step P s events` says that `P` holds of every step of the run, at the state it starts
from.
-/

namespace BrokerExec

variable {σ ε : Type}

/-- One step for each event. -/
def run (step : σ → ε → σ) (s : σ) (events : List ε) : σ := events.foldl step s

variable {step : σ → ε → σ}

@[simp] theorem run_nil (s : σ) : run step s [] = s := rfl

@[simp] theorem run_cons (s : σ) (e : ε) (events : List ε) :
    run step s (e :: events) = run step (step s e) events := rfl

theorem run_append (s : σ) (front back : List ε) :
    run step s (front ++ back) = run step (run step s front) back :=
  List.foldl_append

theorem run_concat (s : σ) (front : List ε) (e : ε) :
    run step s (front ++ [e]) = step (run step s front) e := by
  rw [run_append]
  rfl

/-- Every step of the run has `P`, at the state it starts from. -/
def Along (step : σ → ε → σ) (P : σ → ε → Prop) (s : σ) (events : List ε) : Prop :=
  ∀ front e back, events = front ++ e :: back → P (run step s front) e

variable {P : σ → ε → Prop}

theorem along_nil (s : σ) : Along step P s [] := by
  intro front e back h
  simp at h

theorem along_cons {s : σ} {e : ε} {events : List ε} :
    Along step P s (e :: events) ↔ P s e ∧ Along step P (step s e) events := by
  constructor
  · intro h
    refine ⟨h [] e events rfl, fun front e' back hsplit => ?_⟩
    exact h (e :: front) e' back (by rw [hsplit]; rfl)
  · rintro ⟨hfirst, hrest⟩ front e' back hsplit
    cases front with
    | nil =>
      obtain ⟨rfl, -⟩ := List.cons.inj hsplit
      exact hfirst
    | cons e'' front =>
      obtain ⟨rfl, hrestSplit⟩ := List.cons.inj hsplit
      exact hrest front e' back hrestSplit

instance decidableAlong [∀ s e, Decidable (P s e)] :
    (s : σ) → (events : List ε) → Decidable (Along step P s events)
  | s, [] => .isTrue (along_nil s)
  | s, e :: events =>
    have : Decidable (Along step P (step s e) events) := decidableAlong (step s e) events
    decidable_of_iff (P s e ∧ Along step P (step s e) events) along_cons.symm

/-- The steps of both parts of the run. -/
theorem along_append {s : σ} {front back : List ε} :
    Along step P s (front ++ back)
      ↔ Along step P s front ∧ Along step P (run step s front) back := by
  induction front generalizing s with
  | nil => simp [along_nil]
  | cons e front ih => rw [List.cons_append, along_cons, along_cons, ih, run_cons, and_assoc]

/-- **What one step keeps, a run keeps.** -/
theorem run_keeps {I : σ → Prop} (hstep : ∀ s e, I s → P s e → I (step s e)) {s : σ}
    (hs : I s) {events : List ε} (h : Along step P s events) : I (run step s events) := by
  induction events generalizing s with
  | nil => exact hs
  | cons e events ih =>
    obtain ⟨hfirst, hrest⟩ := along_cons.mp h
    exact ih (hstep s e hs hfirst) hrest

/-- **A relation that composes and relates every step relates every run.** -/
theorem run_trans {R : σ → σ → Prop} (hrefl : ∀ s, R s s)
    (htrans : ∀ a b c, R a b → R b c → R a c) (hstep : ∀ s e, R s (step s e)) (s : σ)
    (events : List ε) : R s (run step s events) := by
  induction events generalizing s with
  | nil => exact hrefl s
  | cons e events ih => exact htrans _ _ _ (hstep s e) (ih (step s e))

/-! ## Views -/

variable {ν : Type} (view : σ → ν) (stepView : ν → ε → ν) {own : ε → Bool}

/-- **A view that an event of its own steps and any other leaves.** -/
theorem view_run (hown : ∀ s e, own e = true → view (step s e) = stepView (view s) e)
    (hother : ∀ s e, own e = false → view (step s e) = view s) (s : σ) (events : List ε) :
    view (run step s events) = run stepView (view s) (events.filter own) := by
  induction events generalizing s with
  | nil => rfl
  | cons e events ih =>
    cases he : own e with
    | true => rw [run_cons, ih, hown s e he, List.filter_cons_of_pos he, run_cons]
    | false => rw [run_cons, ih, hother s e he, List.filter_cons_of_neg (by simp [he])]

/-- Removing what does not touch the view does not change it. -/
theorem view_run_filter (hown : ∀ s e, own e = true → view (step s e) = stepView (view s) e)
    (hother : ∀ s e, own e = false → view (step s e) = view s) (s : σ) (events : List ε) :
    view (run step s events) = view (run step s (events.filter own)) := by
  rw [view_run view stepView hown hother, view_run view stepView hown hother, List.filter_filter]
  simp only [Bool.and_self]

end BrokerExec
