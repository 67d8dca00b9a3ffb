import BrokerExec.Lib.Process

/-!
# The moments of a process

After some answers a process waits for the next one. `Acts obs pre m R` says `R` of every such
moment at which the next answer changes what `obs` sees of the state: of the state in which the
process waits, of that answer, and of the state at the end as a function of the answers behind
it.

* **`Acts.bind`**, **`Acts.ask_bind`** — the rules that lead to the effect that changes it;
* **`Spec.of_silent`** — what depends on `obs` only, a process that leaves it alone keeps.
-/

namespace BrokerExec.Process

variable {τ σ α β ω ω' : Type}

/-- The answers that `m` leaves unused it never looked at. -/
def Regular (m : Process τ σ α) : Prop :=
  ∀ ticks s a rest s', m ticks s = .done a rest s' →
    ∃ used, ticks = used ++ rest ∧ ∀ more, m (used ++ more) s = .done a more s'

/-- `m` leaves what `obs` sees alone, wherever it stops. -/
def Silent (obs : σ → ω) (m : Process τ σ α) : Prop :=
  ∀ ticks s, obs (m ticks s).state = obs s

/-! ## Regular processes -/

theorem Regular.pure (a : α) : Regular (Pure.pure a : Process τ σ α) := by
  intro ticks s a' rest s' h
  rw [pure_apply] at h
  cases h
  exact ⟨[], rfl, fun _ => rfl⟩

theorem Regular.step (f : σ → α × σ) : Regular (step f : Process τ σ α) := by
  intro ticks s a rest s' h
  cases h
  exact ⟨[], rfl, fun _ => rfl⟩

theorem Regular.ask (effect : τ → σ → α × σ) : Regular (ask effect) := by
  intro ticks s a rest s' h
  cases ticks with
  | nil => cases h
  | cons t ticks =>
    rw [ask_cons] at h
    cases h
    exact ⟨[t], rfl, fun _ => rfl⟩

theorem Regular.bind {m : Process τ σ α} {f : α → Process τ σ β} (hm : Regular m)
    (hf : ∀ a, Regular (f a)) : Regular (m >>= f) := by
  intro ticks s b rest s' h
  rw [bind_apply] at h
  cases hms : m ticks s with
  | stopped s₁ =>
    rw [hms] at h
    cases h
  | done a mid s₁ =>
    rw [hms] at h
    obtain ⟨front, rfl, hfront⟩ := hm ticks s a mid s₁ hms
    obtain ⟨back, rfl, hback⟩ := hf a mid s₁ b rest s' h
    refine ⟨front ++ back, (List.append_assoc front back rest).symm, fun more => ?_⟩
    rw [bind_apply, List.append_assoc, hfront]
    exact hback more

/-- A process that waits after `ticks` has used up all answers if the next one ends it. -/
theorem Regular.unused_eq_nil {m : Process τ σ α} (hm : Regular m) {ticks rest : List τ} {t : τ}
    {s s₁ s₂ : σ} {a : α} (hwaits : m ticks s = .stopped s₁)
    (hends : m (ticks ++ [t]) s = .done a rest s₂) : rest = [] := by
  obtain ⟨used, hsplit, hused⟩ := hm _ s a rest s₂ hends
  rcases List.eq_nil_or_concat rest with hnil | ⟨init, last, rfl⟩
  · exact hnil
  · -- otherwise it would have ended before
    rw [List.concat_eq_append, ← List.append_assoc] at hsplit
    obtain ⟨rfl, -⟩ := List.append_inj' hsplit rfl
    rw [hused init] at hwaits
    cases hwaits

/-! ## Silent processes -/

section

variable {obs : σ → ω}

theorem Silent.pure (a : α) : Silent obs (Pure.pure a : Process τ σ α) := fun _ _ => rfl

theorem Silent.step {f : σ → α × σ} (h : ∀ s, obs (f s).2 = obs s) :
    Silent obs (Process.step f : Process τ σ α) := fun _ s => h s

theorem Silent.ask {effect : τ → σ → α × σ} (h : ∀ t s, obs (effect t s).2 = obs s) :
    Silent obs (Process.ask effect) := by
  intro ticks s
  cases ticks with
  | nil => rfl
  | cons t rest => exact h t s

theorem Silent.bind {m : Process τ σ α} {f : α → Process τ σ β} (hm : Silent obs m)
    (hf : ∀ a, Silent obs (f a)) : Silent obs (m >>= f) := by
  intro ticks s
  have h := hm ticks s
  rw [bind_apply]
  cases hms : m ticks s with
  | stopped s₁ =>
    rw [hms] at h
    exact h
  | done a rest s₁ =>
    rw [hms] at h
    exact (hf a rest s₁).trans h

theorem Silent.comp {m : Process τ σ α} (hm : Silent obs m) (g : ω → ω') :
    Silent (fun s => g (obs s)) m := fun ticks s => congrArg g (hm ticks s)

/-- **What depends on `obs` only is kept.** -/
theorem Spec.of_silent {m : Process τ σ α} (hm : Silent obs m) {pre : σ → Prop}
    (hpre : ∀ s s', obs s' = obs s → pre s → pre s') : Spec pre m (fun _ => pre) pre := by
  intro ticks s hs
  have h := hm ticks s
  cases hms : m ticks s with
  | done a rest s' =>
    rw [hms] at h
    exact hpre s s' h hs
  | stopped s' =>
    rw [hms] at h
    exact hpre s s' h hs

theorem Spec.weaken_stop {m : Process τ σ α} {pre : σ → Prop} {post : α → σ → Prop}
    {stop stop' : σ → Prop} (h : Spec pre m post stop) (hstop : ∀ s, stop s → stop' s) :
    Spec pre m post stop' := by
  intro ticks s hs
  have := h ticks s hs
  cases hms : m ticks s with
  | done a rest s' =>
    rw [hms] at this
    exact this
  | stopped s' =>
    rw [hms] at this
    exact hstop s' this

end

/-! ## Moments -/

/-- `R` of every moment at which the next answer changes what `obs` sees. -/
structure Acts (obs : σ → ω) (pre : σ → Prop) (m : Process τ σ α)
    (R : σ → τ → (List τ → σ) → Prop) : Prop where
  still : ∀ s, obs (m [] s).state = obs s
  moment : ∀ s, pre s → ∀ ticks t w, m ticks s = .stopped w →
    obs (m (ticks ++ [t]) s).state ≠ obs w → R w t fun back => (m (ticks ++ t :: back) s).state

section

variable {obs : σ → ω} {pre : σ → Prop} {R : σ → τ → (List τ → σ) → Prop}

theorem Acts.of_silent {m : Process τ σ α} (hm : Silent obs m) : Acts obs pre m R where
  still := hm []
  moment s _ ticks t w hwaits hchange := by
    have hw := hm ticks s
    rw [hwaits] at hw
    exact absurd ((hm (ticks ++ [t]) s).trans hw.symm) hchange

/-- A silent process in front moves the moments behind its own answers. -/
theorem Acts.bind {m : Process τ σ α} {f : α → Process τ σ β} {mid : α → σ → Prop}
    (hregular : Regular m) (hsilent : Silent obs m) (hspec : Spec pre m mid fun _ => True)
    (hf : ∀ a, Acts obs (mid a) (f a) R) : Acts obs pre (m >>= f) R where
  still s := by
    have h := hsilent [] s
    rw [bind_apply]
    cases hms : m [] s with
    | stopped s₁ =>
      rw [hms] at h
      exact h
    | done a rest s₁ =>
      rw [hms] at h
      obtain ⟨used, hused, -⟩ := hregular [] s a rest s₁ hms
      rw [(List.append_eq_nil_iff.mp hused.symm).2]
      exact ((hf a).still s₁).trans h
  moment s hs ticks t w hwaits hchange := by
    rw [bind_apply] at hwaits hchange
    have hbefore := hsilent ticks s
    have hafter := hsilent (ticks ++ [t]) s
    cases hms : m ticks s with
    | stopped s₁ =>
      -- `m` itself still waits, and neither its end nor what follows at once is seen
      rw [hms] at hwaits hbefore
      cases hwaits
      refine absurd ?_ hchange
      cases hend : m (ticks ++ [t]) s with
      | stopped s₂ =>
        rw [hend] at hafter
        exact hafter.trans hbefore.symm
      | done a rest s₂ =>
        rw [hend] at hafter
        rw [hregular.unused_eq_nil hms hend]
        exact ((hf a).still s₂).trans (hafter.trans hbefore.symm)
    | done a rest s₁ =>
      rw [hms] at hwaits
      obtain ⟨used, rfl, hused⟩ := hregular ticks s a rest s₁ hms
      have hmid : mid a s₁ := by
        have := hspec (used ++ rest) s hs
        rw [hms] at this
        exact this
      have hmore : ∀ back, (m >>= f) ((used ++ rest) ++ back) s = f a (rest ++ back) s₁ := by
        intro back
        rw [bind_apply, List.append_assoc, hused]
      have hrest := (hf a).moment s₁ hmid rest t w hwaits (by
        rw [List.append_assoc, hused] at hchange
        exact hchange)
      have hfuture : (fun back => ((m >>= f) ((used ++ rest) ++ t :: back) s).state)
          = fun back => (f a (rest ++ t :: back) s₁).state := by
        funext back
        rw [hmore]
      rw [hfuture]
      exact hrest

/-- The moment of the effect itself, with nothing seen behind it. -/
theorem Acts.ask_bind {effect : τ → σ → α × σ} {f : α → Process τ σ β}
    (hf : ∀ a, Silent obs (f a))
    (h : ∀ s t, pre s →
      R s t fun back => (f (effect t s).1 back (effect t s).2).state) :
    Acts obs pre (Process.ask effect >>= f) R where
  still _ := rfl
  moment s hs ticks t w hwaits hchange := by
    cases ticks with
    | nil =>
      cases hwaits
      exact h s t hs
    | cons first ticks =>
      have hrest : f (effect first s).1 ticks (effect first s).2 = .stopped w := hwaits
      refine absurd ?_ hchange
      have hbefore := hf (effect first s).1 ticks (effect first s).2
      rw [hrest] at hbefore
      exact (hf _ (ticks ++ [t]) _).trans hbefore.symm

theorem Acts.weaken {m : Process τ σ α} {pre' : σ → Prop} {R' : σ → τ → (List τ → σ) → Prop}
    (h : Acts obs pre' m R') (hpre : ∀ s, pre s → pre' s)
    (hR : ∀ s t future, R' s t future → R s t future) : Acts obs pre m R where
  still := h.still
  moment s hs ticks t w hwaits hchange :=
    hR w t _ (h.moment s (hpre s hs) ticks t w hwaits hchange)

/-- Throwing the value away leaves the moments alone. -/
theorem Acts.bind_pure {m : Process τ σ α} (h : Acts obs pre m R) (b : β) :
    Acts obs pre (m >>= fun _ => Pure.pure b) R where
  still s := by
    rw [state_bind_pure]
    exact h.still s
  moment s hs ticks t w hwaits hchange := by
    have hm : m ticks s = .stopped w := by
      rw [bind_apply] at hwaits
      cases hms : m ticks s with
      | stopped s₁ =>
        rw [hms] at hwaits
        cases hwaits
        rfl
      | done a rest s₁ =>
        rw [hms] at hwaits
        cases hwaits
    rw [state_bind_pure] at hchange
    simp only [state_bind_pure]
    exact h.moment s hs ticks t w hm hchange

end

end BrokerExec.Process
