import Mathlib.Data.List.Nodup
import Mathlib.Logic.Function.Basic

/-!
# Tables that bind a key to a name

`bindAll` writes pairs into a table, one after the other. When the pairs are `Fresh`, of distinct
keys that are free and of distinct names that the table does not have:

* **`Fresh.grows`** — every binding of the table stays;
* **`SingleKeyed.bindAll`** — a table in which no name has two keys remains one.
-/

namespace BrokerExec

variable {κ ν : Type} [DecidableEq κ]

/-- The table with the pairs written one after the other. -/
def bindAll (table : κ → Option ν) (pairs : List (κ × ν)) : κ → Option ν :=
  pairs.foldl (fun table pair => Function.update table pair.1 (some pair.2)) table

/-- No name has two keys. -/
def SingleKeyed (table : κ → Option ν) : Prop :=
  ∀ k k' name, table k = some name → table k' = some name → k = k'

structure Fresh (table : κ → Option ν) (pairs : List (κ × ν)) : Prop where
  free : ∀ pair ∈ pairs, table pair.1 = none
  unnamed : ∀ pair ∈ pairs, ∀ k, table k ≠ some pair.2
  keys : (pairs.map Prod.fst).Nodup
  names : (pairs.map Prod.snd).Nodup

variable {table : κ → Option ν} {pairs : List (κ × ν)} {k : κ} {name : ν}

@[simp] theorem bindAll_nil : bindAll table [] = table := rfl

@[simp] theorem bindAll_cons (pair : κ × ν) :
    bindAll table (pair :: pairs) = bindAll (Function.update table pair.1 (some pair.2)) pairs :=
  rfl

/-- A key that is not written keeps what it has. -/
theorem bindAll_of_notMem (h : k ∉ pairs.map Prod.fst) : bindAll table pairs k = table k := by
  induction pairs generalizing table with
  | nil => rfl
  | cons pair pairs ih =>
    obtain ⟨hne, hrest⟩ : k ≠ pair.1 ∧ k ∉ pairs.map Prod.fst := by simpa using h
    rw [bindAll_cons, ih hrest, Function.update_of_ne hne]

/-- A key that is written once has its name. -/
theorem bindAll_of_mem (hkeys : (pairs.map Prod.fst).Nodup) (h : (k, name) ∈ pairs) :
    bindAll table pairs k = some name := by
  induction pairs generalizing table with
  | nil => cases h
  | cons pair pairs ih =>
    obtain ⟨hnotMem, hrest⟩ := List.nodup_cons.mp hkeys
    rw [bindAll_cons]
    rcases List.mem_cons.mp h with rfl | h
    · rw [bindAll_of_notMem hnotMem, Function.update_self]
    · exact ih hrest h

/-- A binding was there or is one of the pairs. -/
theorem bindAll_cases (h : bindAll table pairs k = some name) :
    table k = some name ∨ (k, name) ∈ pairs := by
  induction pairs generalizing table with
  | nil => exact .inl h
  | cons pair pairs ih =>
    rw [bindAll_cons] at h
    rcases ih h with hupdated | hmem
    · by_cases hk : k = pair.1
      · subst hk
        rw [Function.update_self] at hupdated
        rw [← Option.some.inj hupdated]
        exact .inr List.mem_cons_self
      · rw [Function.update_of_ne hk] at hupdated
        exact .inl hupdated
    · exact .inr (List.mem_cons_of_mem _ hmem)

/-- **Fresh pairs leave every binding as it is.** -/
theorem Fresh.grows (h : Fresh table pairs) (hbound : table k = some name) :
    bindAll table pairs k = some name := by
  rw [bindAll_of_notMem, hbound]
  intro hmem
  obtain ⟨pair, hpair, rfl⟩ := List.mem_map.mp hmem
  rw [h.free pair hpair] at hbound
  cases hbound

/-- **Fresh pairs give no name a second key.** -/
theorem SingleKeyed.bindAll (hexclusive : SingleKeyed table) (h : Fresh table pairs) :
    SingleKeyed (bindAll table pairs) := by
  intro k k' name hk hk'
  rcases bindAll_cases hk with hold | hnew
  · rcases bindAll_cases hk' with hold' | hnew'
    · exact hexclusive k k' name hold hold'
    · exact absurd hold (h.unnamed _ hnew' k)
  · rcases bindAll_cases hk' with hold' | hnew'
    · exact absurd hold' (h.unnamed _ hnew k')
    · exact congrArg Prod.fst (List.inj_on_of_nodup_map h.names hnew hnew' rfl)

end BrokerExec
