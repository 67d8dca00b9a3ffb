import BrokerExec.Lib.Attempt
import Mathlib.Data.List.Forall2

/-!
# Two runs side by side

`Both T R m m' A` runs two processes from states that `R` relates, on answers that `T` relates one by
one. They stop at the same effect, in related states, or they both end, with values that `A` relates.

* **`Both.bind`** — related values lead to related rests.
* **`BothTry.bind`** — the same for attempts, which also fail alike.
-/

namespace BrokerExec.Process

variable {τ σ α β ε : Type} {T : τ → τ → Prop} {R : σ → σ → Prop}

/-- Two outcomes that nobody tells apart further than `A` and `R` do. -/
def Alike (T : τ → τ → Prop) (R : σ → σ → Prop) (A : α → α → Prop) :
    Outcome τ σ α → Outcome τ σ α → Prop
  | .done a unused s, .done a' unused' s' => A a a' ∧ List.Forall₂ T unused unused' ∧ R s s'
  | .stopped s, .stopped s' => R s s'
  | _, _ => False

def Both (T : τ → τ → Prop) (R : σ → σ → Prop) (m m' : Process τ σ α) (A : α → α → Prop) : Prop :=
  ∀ ticks ticks' s s', List.Forall₂ T ticks ticks' → R s s' →
    Alike T R A (m ticks s) (m' ticks' s')

variable {A : α → α → Prop} {B : β → β → Prop} {m m' : Process τ σ α} {f f' : α → Process τ σ β}

/-- Two outcomes that are alike have both stopped, or they have both ended. -/
theorem Alike.inv {x x' : Outcome τ σ α} (h : Alike T R A x x') :
    (∃ t t', x = .stopped t ∧ x' = .stopped t' ∧ R t t')
      ∨ ∃ a a' unused unused' t t', x = .done a unused t ∧ x' = .done a' unused' t' ∧ A a a'
        ∧ List.Forall₂ T unused unused' ∧ R t t' := by
  cases x with
  | stopped t =>
    cases x' with
    | stopped t' => exact .inl ⟨t, t', rfl, rfl, h⟩
    | done a' unused' t' => exact h.elim
  | done a unused t =>
    cases x' with
    | stopped t' => exact h.elim
    | done a' unused' t' => exact .inr ⟨a, a', unused, unused', t, t', rfl, rfl, h⟩

theorem Both.pure {a a' : α} (h : A a a') : Both T R (Pure.pure a) (Pure.pure a') A :=
  fun _ _ _ _ hticks hs => ⟨h, hticks, hs⟩

/-- **Related values lead to related rests.** -/
theorem Both.bind (hm : Both T R m m' A) (hf : ∀ a a', A a a' → Both T R (f a) (f' a') B) :
    Both T R (m >>= f) (m' >>= f') B := by
  intro ticks ticks' s s' hticks hs
  rw [bind_apply, bind_apply]
  rcases (hm ticks ticks' s s' hticks hs).inv with
    ⟨t, t', hleft, hright, ht⟩ | ⟨a, a', unused, unused', t, t', hleft, hright, ha, hunused, ht⟩
  · rw [hleft, hright]
    exact ht
  · rw [hleft, hright]
    exact hf a a' ha unused unused' t t' hunused ht

theorem Both.ask {effect effect' : τ → σ → α × σ}
    (h : ∀ t t' s s', T t t' → R s s' →
      A (effect t s).1 (effect' t' s').1 ∧ R (effect t s).2 (effect' t' s').2) :
    Both T R (.ask effect) (.ask effect') A := by
  intro ticks ticks' s s' hticks hs
  cases hticks with
  | nil => exact hs
  | cons ht hrest =>
    obtain ⟨ha, hs'⟩ := h _ _ s s' ht hs
    exact ⟨ha, hrest, hs'⟩

theorem Both.step {g g' : σ → α × σ}
    (h : ∀ s s', R s s' → A (g s).1 (g' s').1 ∧ R (g s).2 (g' s').2) :
    Both T R (.step g) (.step g') A := by
  intro ticks ticks' s s' hticks hs
  obtain ⟨ha, hs'⟩ := h s s' hs
  exact ⟨ha, hticks, hs'⟩

theorem Both.weaken {A' : α → α → Prop} (h : Both T R m m' A) (ha : ∀ a a', A a a' → A' a a') :
    Both T R m m' A' := by
  intro ticks ticks' s s' hticks hs
  rcases (h ticks ticks' s s' hticks hs).inv with
    ⟨t, t', hleft, hright, ht⟩ | ⟨a, a', unused, unused', t, t', hleft, hright, hvalue, hrest⟩
  · rw [hleft, hright]
    exact ht
  · rw [hleft, hright]
    exact ⟨ha a a' hvalue, hrest⟩

/-- Whichever end the two have, their states are related. -/
theorem Both.state (h : Both T R m m' A) {ticks ticks' : List τ} {s s' : σ}
    (hticks : List.Forall₂ T ticks ticks') (hs : R s s') :
    R (m ticks s).state (m' ticks' s').state := by
  rcases (h ticks ticks' s s' hticks hs).inv with
    ⟨t, t', hleft, hright, ht⟩ | ⟨a, a', unused, unused', t, t', hleft, hright, -, -, ht⟩
  · rw [hleft, hright]
    exact ht
  · rw [hleft, hright]
    exact ht

/-! ## Attempts -/

/-- Two values that `A` relates, or one error. -/
def SameError (A : α → α → Prop) : Except ε α → Except ε α → Prop
  | .ok a, .ok a' => A a a'
  | .error e, .error e' => e = e'
  | _, _ => False

/-- `Both`, for attempts: they fail with one error, or not at all. -/
def BothTry (T : τ → τ → Prop) (R : σ → σ → Prop) (m m' : Attempt τ σ ε α) (A : α → α → Prop) :
    Prop :=
  Both T R m.run m'.run (SameError A)

theorem BothTry.pure {a a' : α} (h : A a a') :
    BothTry T R (Pure.pure a : Attempt τ σ ε α) (Pure.pure a') A :=
  Both.pure h

theorem BothTry.throw {e : ε} :
    BothTry T R (MonadExcept.throw e : Attempt τ σ ε α) (MonadExcept.throw e) A :=
  Both.pure (A := SameError A) rfl

theorem BothTry.bind {m m' : Attempt τ σ ε α} {f f' : α → Attempt τ σ ε β}
    (hm : BothTry T R m m' A) (hf : ∀ a a', A a a' → BothTry T R (f a) (f' a') B) :
    BothTry T R (m >>= f) (m' >>= f') B := by
  refine Both.bind hm fun r r' hr => ?_
  cases r with
  | error e =>
    cases r' with
    | error e' =>
      cases hr
      exact Both.pure (A := SameError B) rfl
    | ok a' => exact hr.elim
  | ok a =>
    cases r' with
    | error e' => exact hr.elim
    | ok a' => exact hf a a' hr

theorem BothTry.mapError {ε' : Type} {g : ε → ε'} {m m' : Process τ σ (Except ε α)}
    (h : Both T R m m' (SameError A)) : BothTry T R (m.mapError g) (m'.mapError g) A := by
  refine Both.bind h fun r r' hr => Both.pure ?_
  cases r with
  | error e =>
    cases r' with
    | error e' => exact congrArg g hr
    | ok a' => exact hr.elim
  | ok a =>
    cases r' with
    | error e' => exact hr.elim
    | ok a' => exact hr

end BrokerExec.Process
