import BrokerExec.Lib.Process

/-!
# Processes that can fail

An `Attempt τ σ ε α` is a process that ends with an `α` or with an error, and a sequence of attempts
goes on only from a value.

* **`Tries.bind`** — a failure of the first part is one of the whole.
* **`Stable.and`** — a condition that the moves of a process keep may be joined to another.
-/

namespace BrokerExec.Process

variable {τ σ ε ε' α β : Type}

abbrev Attempt (τ σ ε α : Type) : Type := ExceptT ε (Process τ σ) α

/-- `Spec`, with a postcondition for the values and one for the errors. -/
def Tries (pre : σ → Prop) (m : Process τ σ (Except ε α)) (post : α → σ → Prop)
    (fail : ε → σ → Prop) (stop : σ → Prop) : Prop :=
  Spec pre m (fun r s =>
    match r with
    | .ok a => post a s
    | .error e => fail e s) stop

variable {pre pre' : σ → Prop} {post post' : α → σ → Prop} {fail fail' : ε → σ → Prop}
  {stop stop' : σ → Prop}

theorem Tries.pure {a : α} (h : ∀ s, pre s → post a s) :
    Tries pre (Pure.pure a : Attempt τ σ ε α) post fail stop :=
  fun _ s hs => h s hs

theorem Tries.throw {e : ε} (h : ∀ s, pre s → fail e s) :
    Tries pre (MonadExcept.throw e : Attempt τ σ ε α) post fail stop :=
  fun _ s hs => h s hs

/-- **A failure of the first part is one of the whole.** -/
theorem Tries.bind {m : Attempt τ σ ε α} {f : α → Attempt τ σ ε β} {mid : α → σ → Prop}
    {post : β → σ → Prop} (hm : Tries pre m mid fail stop)
    (hf : ∀ a, Tries (mid a) (f a) post fail stop) :
    Tries pre (m >>= f : Attempt τ σ ε β) post fail stop := by
  refine Spec.bind hm ?_
  rintro (e | a)
  · exact fun _ s hs => hs
  · exact hf a

/-- A fact that is not about the state. -/
theorem Spec.given {p : Prop} {m : Process τ σ α} (h : p → Spec pre m post stop) :
    Spec (fun s => pre s ∧ p) m post stop :=
  fun ticks s hs => h hs.2 ticks s hs.1

theorem Spec.weakenStop {m : Process τ σ α} (h : Spec pre m post stop')
    (hstop : ∀ s, stop' s → stop s) : Spec pre m post stop := by
  intro ticks s hs
  have := h ticks s hs
  cases hms : m ticks s with
  | done a ticks' s' =>
    rw [hms] at this
    exact this
  | stopped s' =>
    rw [hms] at this
    exact hstop s' this

theorem Tries.weaken {m : Process τ σ (Except ε α)} (h : Tries pre' m post' fail' stop')
    (hpre : ∀ s, pre s → pre' s) (hpost : ∀ a s, post' a s → post a s)
    (hfail : ∀ e s, fail' e s → fail e s) (hstop : ∀ s, stop' s → stop s) :
    Tries pre m post fail stop := by
  refine Spec.weakenStop (Spec.weaken h hpre ?_) hstop
  rintro (e | a) s hs
  · exact hfail e s hs
  · exact hpost a s hs

/-- A process that cannot fail, among attempts. -/
theorem Tries.lift {m : Process τ σ α} (h : Spec pre m post stop) :
    Tries pre (liftM m : Attempt τ σ ε α) post fail stop :=
  Spec.bind h fun _ _ _ hs => hs

/-- An attempt that gives its errors another form. -/
def mapError (g : ε → ε') (m : Process τ σ (Except ε α)) : Attempt τ σ ε' α :=
  ExceptT.mk (m >>= fun r => Pure.pure (r.mapError g))

theorem Tries.mapError {g : ε → ε'} {m : Process τ σ (Except ε α)} {fail : ε' → σ → Prop}
    (h : Tries pre m post (fun e => fail (g e)) stop) :
    Tries pre (m.mapError g) post fail stop := by
  refine Spec.bind h ?_
  rintro (e | a) <;> exact fun _ s hs => hs

/-- An answer that is there already. -/
theorem Tries.ofExcept {r : Except ε α} (hok : ∀ a s, pre s → r = .ok a → post a s)
    (hfail : ∀ e s, pre s → r = .error e → fail e s) :
    Tries pre (Pure.pure r : Process τ σ (Except ε α)) post fail stop := by
  intro ticks s hs
  cases r with
  | ok a => exact hok a s hs rfl
  | error e => exact hfail e s hs rfl

theorem Spec.exists {ι : Type} {P : ι → σ → Prop} {m : Process τ σ α}
    (h : ∀ i, Spec (P i) m post stop) : Spec (fun s => ∃ i, P i s) m post stop :=
  fun ticks s hs => h hs.choose ticks s hs.choose_spec

/-! ## Conditions that last -/

/-- A condition that a relation between states keeps. -/
def Stable (R : σ → σ → Prop) (K : σ → Prop) : Prop := ∀ s s', R s s' → K s → K s'

section Stable

variable {R : σ → σ → Prop} {K L : σ → Prop}

theorem Stable.and (hK : Stable R K) (hL : Stable R L) : Stable R fun s => K s ∧ L s :=
  fun s s' hR h => ⟨hK s s' hR h.1, hL s s' hR h.2⟩

theorem stable_const (p : Prop) : Stable R fun _ => p := fun _ _ _ h => h

end Stable

end BrokerExec.Process
