import Mathlib.Data.List.Forall2

/-!
# Chains of fallible steps

The inversion rules of `>>=` on `Except`, for steps that answer a value or stop with an error, and
what a list read item by item says of each item.
-/

namespace BrokerExec.Steps

variable {ε α β : Type} {x : Except ε α} {f : α → Except ε β}

/-- A chain passes when its first step does and the rest passes on what it answers. -/
theorem bind_eq_ok {b : β} : x >>= f = .ok b ↔ ∃ a, x = .ok a ∧ f a = .ok b := by
  cases x with
  | error e =>
    refine iff_of_false (by intro h; cases h) ?_
    rintro ⟨a, ha, -⟩
    cases ha
  | ok a =>
    refine ⟨fun h => ⟨a, rfl, h⟩, ?_⟩
    rintro ⟨a', ha, h⟩
    cases ha
    exact h

/-- A chain stops in its first step or behind it. -/
theorem bind_eq_error {e : ε} :
    x >>= f = .error e ↔ x = .error e ∨ ∃ a, x = .ok a ∧ f a = .error e := by
  cases x with
  | error e' =>
    refine ⟨fun h => .inl ?_, ?_⟩
    · cases h
      rfl
    rintro (h | ⟨a, ha, -⟩)
    · cases h
      rfl
    · cases ha
  | ok a =>
    refine ⟨fun h => .inr ⟨a, rfl, h⟩, ?_⟩
    rintro (h | ⟨a', ha, h⟩)
    · cases h
    · cases ha
      exact h

/-! ## What a chain can stop with -/

/-- Every error of the step has the property. -/
def Fails (P : ε → Prop) (x : Except ε α) : Prop := ∀ e, x = .error e → P e

variable {P : ε → Prop}

theorem Fails.ok (a : α) : Fails P (.ok a : Except ε α) := nofun

theorem Fails.error {e : ε} (h : P e) : Fails P (.error e : Except ε α) := by
  rintro e' ⟨rfl⟩
  exact h

theorem Fails.bind (hx : Fails P x) (hf : ∀ a, Fails P (f a)) : Fails P (x >>= f) := by
  intro e he
  rcases bind_eq_error.mp he with he | ⟨a, -, he⟩
  · exact hx e he
  · exact hf a e he

theorem Fails.mapM {items : List α} (hf : ∀ a, Fails P (f a)) : Fails P (items.mapM f) := by
  induction items with
  | nil => exact .ok []
  | cons a items ih =>
    rw [List.mapM_cons]
    exact (hf a).bind fun b => ih.bind fun bs => .ok (b :: bs)

/-- What was read item by item has an item for each. -/
theorem exists_of_forall₂ {R : α → β → Prop} {items : List α} {read : List β}
    (h : List.Forall₂ R items read) : ∀ a ∈ items, ∃ b ∈ read, R a b := by
  induction h with
  | nil => simp
  | @cons a b items read hab _ ih =>
    refine List.forall_mem_cons.mpr ⟨⟨b, by simp, hab⟩, fun a' ha' => ?_⟩
    obtain ⟨b', hb', hab'⟩ := ih a' ha'
    exact ⟨b', by simp [hb'], hab'⟩

end BrokerExec.Steps
