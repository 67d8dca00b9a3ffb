/-!
# Processes that can stop at any effect

A `Process τ σ α` computes an `α` over a state `σ`, asking the environment for one answer of
type `τ` at each effect. The answers come from a list; when it is used up the process has
stopped, at that effect, in the state it had reached. Every way a process can be killed is
thus a list that is too short.

`Spec pre m post stop` is a Hoare triple with a second postcondition for the stopped states.

* **`Spec.bind`**, **`Spec.ask`** — the rules that carry an invariant through a process.
* **`SpecOn.bind`**, **`SpecOn.ask`** — the same for a triple that holds where every answer has a
  property.
* **`SpecOn.beside`** — a process leaves what stands beside its state.
-/

namespace BrokerExec

/-- How a process ends: with a value and the unused answers, or stopped. -/
inductive Outcome (τ σ α : Type) where
  | done (value : α) (unused : List τ) (state : σ)
  | stopped (state : σ)

/-- The state at the end, whichever end it is. -/
def Outcome.state {τ σ α : Type} : Outcome τ σ α → σ
  | .done _ _ s => s
  | .stopped s => s

def Process (τ σ α : Type) : Type := List τ → σ → Outcome τ σ α

namespace Process

variable {τ σ α β : Type}

protected def pure (a : α) : Process τ σ α := fun ticks s => .done a ticks s

protected def bind (m : Process τ σ α) (f : α → Process τ σ β) : Process τ σ β := fun ticks s =>
  match m ticks s with
  | .done a ticks' s' => f a ticks' s'
  | .stopped s' => .stopped s'

instance : Monad (Process τ σ) where
  pure := Process.pure
  bind := Process.bind

/-- One effect: it takes the next answer and moves the state. -/
def ask (effect : τ → σ → α × σ) : Process τ σ α := fun ticks s =>
  match ticks with
  | [] => .stopped s
  | t :: rest => .done (effect t s).1 rest (effect t s).2

/-- A step of the program itself, which needs no answer. -/
def step (f : σ → α × σ) : Process τ σ α := fun ticks s => .done (f s).1 ticks (f s).2

@[simp] theorem bind_apply (m : Process τ σ α) (f : α → Process τ σ β) (ticks : List τ) (s : σ) :
    (m >>= f) ticks s =
      match m ticks s with
      | .done a ticks' s' => f a ticks' s'
      | .stopped s' => .stopped s' := rfl

@[simp] theorem pure_apply (a : α) (ticks : List τ) (s : σ) :
    (Pure.pure a : Process τ σ α) ticks s = .done a ticks s := rfl

@[simp] theorem ask_nil (effect : τ → σ → α × σ) (s : σ) : ask effect [] s = .stopped s := rfl

@[simp] theorem ask_cons (effect : τ → σ → α × σ) (t : τ) (rest : List τ) (s : σ) :
    ask effect (t :: rest) s = .done (effect t s).1 rest (effect t s).2 := rfl

/-- A sequence that ends with a value went through one of its first part. -/
theorem bind_eq_done {m : Process τ σ α} {f : α → Process τ σ β} {ticks unused : List τ} {s s' : σ}
    {b : β} (h : (m >>= f) ticks s = .done b unused s') :
    ∃ a mid s'', m ticks s = .done a mid s'' ∧ f a mid s'' = .done b unused s' := by
  rw [bind_apply] at h
  cases hm : m ticks s with
  | stopped s'' =>
    rw [hm] at h
    cases h
  | done a mid s'' =>
    rw [hm] at h
    exact ⟨a, mid, s'', rfl, h⟩

/-- An effect that ends with a value took an answer. -/
theorem ask_eq_done {effect : τ → σ → α × σ} {ticks unused : List τ} {s s' : σ} {a : α}
    (h : ask effect ticks s = .done a unused s') :
    ∃ t, ticks = t :: unused ∧ effect t s = (a, s') := by
  cases ticks with
  | nil => cases h
  | cons t rest =>
    cases h
    exact ⟨t, rfl, rfl⟩

/-- Throwing a value away does not move the state. -/
theorem state_bind_pure (m : Process τ σ α) (b : β) (ticks : List τ) (s : σ) :
    ((m >>= fun _ => Pure.pure b) ticks s).state = (m ticks s).state := by
  rw [bind_apply]
  cases m ticks s <;> rfl

/-- From every state with `pre`: a value comes with `post`, a stopped state has `stop`. -/
def Spec (pre : σ → Prop) (m : Process τ σ α) (post : α → σ → Prop) (stop : σ → Prop) : Prop :=
  ∀ ticks s, pre s →
    match m ticks s with
    | .done a _ s' => post a s'
    | .stopped s' => stop s'

variable {pre pre' : σ → Prop} {post post' : α → σ → Prop} {stop : σ → Prop}

theorem Spec.pure {a : α} (h : ∀ s, pre s → post a s) :
    Spec pre (Pure.pure a : Process τ σ α) post stop :=
  fun _ s hs => h s hs

theorem Spec.bind {m : Process τ σ α} {f : α → Process τ σ β} {mid : α → σ → Prop}
    {post : β → σ → Prop} (hm : Spec pre m mid stop) (hf : ∀ a, Spec (mid a) (f a) post stop) :
    Spec pre (m >>= f) post stop := by
  intro ticks s hs
  have h := hm ticks s hs
  show match Process.bind m f ticks s with
    | .done b _ s' => post b s'
    | .stopped s' => stop s'
  unfold Process.bind
  cases hms : m ticks s with
  | done a ticks' s' =>
    rw [hms] at h
    exact hf a ticks' s' h
  | stopped s' =>
    rw [hms] at h
    exact h

theorem Spec.ask {effect : τ → σ → α × σ} (hstop : ∀ s, pre s → stop s)
    (h : ∀ t s, pre s → post (effect t s).1 (effect t s).2) :
    Spec pre (ask effect) post stop := by
  intro ticks s hs
  cases ticks with
  | nil => exact hstop s hs
  | cons t rest => exact h t s hs

theorem Spec.step {f : σ → α × σ} (h : ∀ s, pre s → post (f s).1 (f s).2) :
    Spec pre (step f : Process τ σ α) post stop :=
  fun _ s hs => h s hs

theorem Spec.weaken {m : Process τ σ α} (h : Spec pre' m post' stop)
    (hpre : ∀ s, pre s → pre' s) (hpost : ∀ a s, post' a s → post a s) :
    Spec pre m post stop := by
  intro ticks s hs
  have := h ticks s (hpre s hs)
  cases hms : m ticks s with
  | done a ticks' s' =>
    rw [hms] at this
    exact hpost a s' this
  | stopped s' =>
    rw [hms] at this
    exact this

/-- What holds of every value and every stopped state holds of the state at the end. -/
theorem Spec.state {m : Process τ σ α} (h : Spec pre m (fun _ => stop) stop) (ticks : List τ)
    {s : σ} (hs : pre s) : stop (m ticks s).state := by
  have := h ticks s hs
  cases hms : m ticks s with
  | done a ticks' s' =>
    rw [hms] at this
    exact this
  | stopped s' =>
    rw [hms] at this
    exact this

/-! ## Answers with a property -/

/-- `Spec` where every answer is `allowed`; the unused ones are handed on so. -/
def SpecOn (allowed : τ → Prop) (pre : σ → Prop) (m : Process τ σ α) (post : α → σ → Prop)
    (stop : σ → Prop) : Prop :=
  ∀ ticks s, (∀ t ∈ ticks, allowed t) → pre s →
    match m ticks s with
    | .done a unused s' => post a s' ∧ ∀ t ∈ unused, allowed t
    | .stopped s' => stop s'

variable {allowed : τ → Prop}

theorem SpecOn.pure {a : α} (h : ∀ s, pre s → post a s) :
    SpecOn allowed pre (Pure.pure a : Process τ σ α) post stop :=
  fun _ s hticks hs => ⟨h s hs, hticks⟩

theorem SpecOn.bind {m : Process τ σ α} {f : α → Process τ σ β} {mid : α → σ → Prop}
    {post : β → σ → Prop} (hm : SpecOn allowed pre m mid stop)
    (hf : ∀ a, SpecOn allowed (mid a) (f a) post stop) : SpecOn allowed pre (m >>= f) post stop := by
  intro ticks s hticks hs
  have h := hm ticks s hticks hs
  rw [bind_apply]
  cases hms : m ticks s with
  | done a ticks' s' =>
    rw [hms] at h
    exact hf a ticks' s' h.2 h.1
  | stopped s' =>
    rw [hms] at h
    exact h

theorem SpecOn.ask {effect : τ → σ → α × σ} (hstop : ∀ s, pre s → stop s)
    (h : ∀ t s, allowed t → pre s → post (effect t s).1 (effect t s).2) :
    SpecOn allowed pre (ask effect) post stop := by
  intro ticks s hticks hs
  cases ticks with
  | nil => exact hstop s hs
  | cons t rest =>
    exact ⟨h t s (hticks t (by simp)) hs, fun t' ht' => hticks t' (List.mem_cons_of_mem t ht')⟩

theorem SpecOn.weaken {m : Process τ σ α} {stop' : σ → Prop}
    (h : SpecOn allowed pre' m post' stop') (hpre : ∀ s, pre s → pre' s)
    (hpost : ∀ a s, post' a s → post a s) (hstop : ∀ s, stop' s → stop s) :
    SpecOn allowed pre m post stop := by
  intro ticks s hticks hs
  have := h ticks s hticks (hpre s hs)
  cases hms : m ticks s with
  | done a unused s' =>
    rw [hms] at this
    exact ⟨hpost a s' this.1, this.2⟩
  | stopped s' =>
    rw [hms] at this
    exact hstop s' this

theorem SpecOn.exists {ι : Type} {P : ι → σ → Prop} {m : Process τ σ α}
    (h : ∀ i, SpecOn allowed (P i) m post stop) :
    SpecOn allowed (fun s => ∃ i, P i s) m post stop :=
  fun ticks s hticks hs => h hs.choose ticks s hticks hs.choose_spec

/-- A fact that is not about the state. -/
theorem SpecOn.given {p : Prop} {m : Process τ σ α} (h : p → SpecOn allowed pre m post stop) :
    SpecOn allowed (fun s => p ∧ pre s) m post stop :=
  fun ticks s hticks hs => h hs.1 ticks s hticks hs.2

theorem SpecOn.step {f : σ → α × σ} (h : ∀ s, pre s → post (f s).1 (f s).2) :
    SpecOn allowed pre (Process.step f) post stop :=
  fun _ s hticks hs => ⟨h s hs, hticks⟩

/-- The triple at the end of a run, whichever end it is. -/
theorem SpecOn.state {m : Process τ σ α} (h : SpecOn allowed pre m (fun _ => stop) stop)
    {ticks : List τ} (hticks : ∀ t ∈ ticks, allowed t) {s : σ} (hs : pre s) :
    stop (m ticks s).state := by
  have := h ticks s hticks hs
  cases hms : m ticks s with
  | done a unused s' =>
    rw [hms] at this
    exact this.1
  | stopped s' =>
    rw [hms] at this
    exact this

/-! ## Beside a state -/

variable {ρ : Type}

/-- A process on one part of a state. -/
def beside (m : Process τ σ α) : Process τ (σ × ρ) α := fun ticks s =>
  match m ticks s.1 with
  | .done a unused s' => .done a unused (s', s.2)
  | .stopped s' => .stopped (s', s.2)

theorem SpecOn.beside {m : Process τ σ α} (h : SpecOn allowed pre m post stop) (R : ρ → Prop) :
    SpecOn allowed (fun s : σ × ρ => pre s.1 ∧ R s.2) m.beside (fun a s => post a s.1 ∧ R s.2)
      fun s => stop s.1 ∧ R s.2 := by
  intro ticks s hticks hs
  have := h ticks s.1 hticks hs.1
  unfold Process.beside
  cases hms : m ticks s.1 with
  | done a unused s' =>
    rw [hms] at this
    exact ⟨⟨this.1, hs.2⟩, this.2⟩
  | stopped s' =>
    rw [hms] at this
    exact ⟨this, hs.2⟩

end Process

end BrokerExec
