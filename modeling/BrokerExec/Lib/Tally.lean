import BrokerExec.Lib.Table
import Mathlib.Algebra.BigOperators.Group.List.Basic
import Mathlib.Algebra.Ring.Int.Defs

/-!
# Tallies

A tally keeps a sum for every key that was counted.

* **`get_addAll`** — the sum of a key is the sum of what was counted under it.
* **`get_regroup`** — a tally that is counted again under other keys has counted the same.
-/

namespace BrokerExec

abbrev Tally (κ : Type) [LinearOrder κ] := Table κ (κ × Int) Prod.fst

namespace Tally

variable {κ : Type} [LinearOrder κ]

/-- The sum of a key; an uncounted one has none yet. -/
def get (tally : Tally κ) (k : κ) : Int := (tally.find k).elim 0 Prod.snd

/-- `tally[k] += count`. -/
def add (tally : Tally κ) (entry : κ × Int) : Tally κ :=
  tally.upsert (entry.1, tally.get entry.1 + entry.2)

def addAll (tally : Tally κ) (entries : List (κ × Int)) : Tally κ := entries.foldl add tally

theorem find_add (tally : Tally κ) (entry : κ × Int) (k : κ) :
    (tally.add entry).find k
      = if k = entry.1 then some (entry.1, tally.get entry.1 + entry.2) else tally.find k :=
  Table.find_upsert tally _ k

theorem get_add (tally : Tally κ) (entry : κ × Int) (k : κ) :
    (tally.add entry).get k = tally.get k + if entry.1 = k then entry.2 else 0 := by
  unfold get
  rw [find_add]
  by_cases hk : k = entry.1
  · subst hk
    rw [if_pos rfl, if_pos rfl]
    rfl
  · rw [if_neg hk, if_neg (Ne.symm hk), Int.add_zero]

theorem get_addAll (tally : Tally κ) (entries : List (κ × Int)) (k : κ) :
    (tally.addAll entries).get k
      = tally.get k + ((entries.filter (·.1 = k)).map Prod.snd).sum := by
  unfold addAll
  induction entries generalizing tally with
  | nil => simp
  | cons entry entries ih =>
    rw [List.foldl_cons, ih, get_add, List.filter_cons]
    by_cases hk : entry.1 = k
    · simp [hk, Int.add_assoc]
    · simp [hk]

/-- The rows of a table, counted under their keys. -/
theorem sum_entries {α : Type} {key : α → κ} (table : Table κ α key) (count : α → Int) (k : κ) :
    (((table.rows.map fun r => (key r, count r)).filter (·.1 = k)).map Prod.snd).sum
      = (table.find k).elim 0 count := by
  have hentries : (table.rows.map fun r => (key r, count r)).filter (·.1 = k)
      = (table.rows.filter fun r => key r = k).map fun r => (key r, count r) := by
    rw [List.filter_map]
    rfl
  rw [hentries, table.filter_key, List.map_map]
  cases table.find k with
  | none => rfl
  | some row => simp

/-- The keys that were counted. -/
theorem isSome_find_addAll {tally : Tally κ} {entries : List (κ × Int)} {k : κ}
    (h : (tally.find k).isSome = true ∨ k ∈ entries.map Prod.fst) :
    ((tally.addAll entries).find k).isSome = true := by
  unfold addAll
  induction entries generalizing tally with
  | nil => simpa using h
  | cons entry entries ih =>
    rw [List.foldl_cons]
    refine ih ?_
    rw [find_add]
    split_ifs with hk
    · exact .inl rfl
    · rcases h with hfound | hkey
      · exact .inl hfound
      · exact .inr ((List.mem_cons.mp hkey).resolve_left hk)

theorem find_eq_some {tally : Tally κ} {k : κ} {sum : Int} (h : (k, sum) ∈ tally.rows) :
    tally.get k = sum := by
  unfold get
  rw [Table.find_eq_some_iff.mpr ⟨h, rfl⟩]
  rfl

/-- A sum other than zero was counted. -/
theorem mem_rows_of_get_ne {tally : Tally κ} {k : κ} (h : tally.get k ≠ 0) :
    (k, tally.get k) ∈ tally.rows := by
  unfold get at h ⊢
  cases hfind : tally.find k with
  | none =>
    rw [hfind] at h
    exact absurd rfl h
  | some row =>
    obtain ⟨hrow, rfl⟩ := Table.mem_of_find hfind
    exact hrow

/-! ## Counting again -/

/-- A list in three parts: the keys below, the key itself and the keys above. -/
theorem sum_trichotomy {α : Type} (key : α → κ) (count : α → Int) (k : κ) (rows : List α) :
    (rows.map count).sum
      = ((rows.filter fun r => key r < k).map count).sum
        + (((rows.filter fun r => key r = k).map count).sum
          + ((rows.filter fun r => k < key r).map count).sum) := by
  induction rows with
  | nil => rfl
  | cons r rows ih =>
    rcases lt_trichotomy (key r) k with hlt | heq | hgt
    · have hne : key r ≠ k := hlt.ne
      have hnot : ¬ k < key r := hlt.not_gt
      simp only [List.map_cons, List.sum_cons, List.filter_cons, hlt, hne, hnot, decide_true,
        decide_false, if_true, Bool.false_eq_true, if_false, ih]
      omega
    · have hnot : ¬ key r < k := by simp [heq]
      have hnot' : ¬ k < key r := by simp [heq]
      simp only [List.map_cons, List.sum_cons, List.filter_cons, heq, lt_irrefl, decide_true,
        decide_false, if_true, Bool.false_eq_true, if_false, ih]
      omega
    · have hne : key r ≠ k := hgt.ne'
      have hnot : ¬ key r < k := hgt.not_gt
      simp only [List.map_cons, List.sum_cons, List.filter_cons, hgt, hne, hnot, decide_true,
        decide_false, if_true, Bool.false_eq_true, if_false, ih]
      omega

/-- The sum of the keys with a property. -/
def total (tally : Tally κ) (p : κ → Bool) : Int :=
  (tally.rows.map fun row => if p row.1 then row.2 else 0).sum

theorem total_add (tally : Tally κ) (entry : κ × Int) (p : κ → Bool) :
    (tally.add entry).total p = tally.total p + if p entry.1 then entry.2 else 0 := by
  have hmiddle : ((tally.rows.filter fun row => row.1 = entry.1).map
        fun row => if p row.1 then row.2 else 0).sum
      = if p entry.1 then tally.get entry.1 else 0 := by
    rw [tally.filter_key]
    unfold get
    cases hfind : tally.find entry.1 with
    | none => simp
    | some row =>
      obtain ⟨-, hkey⟩ := Table.mem_of_find hfind
      simp [hkey]
  unfold total
  rw [sum_trichotomy Prod.fst _ entry.1 tally.rows, hmiddle]
  show ((Table.upsertRows _ _ _).map _).sum = _
  simp only [Table.upsertRows, List.map_append, List.map_cons, List.sum_append, List.sum_cons]
  split_ifs <;> omega

theorem total_addAll (tally : Tally κ) (entries : List (κ × Int)) (p : κ → Bool) :
    (tally.addAll entries).total p
      = tally.total p + ((entries.filter fun entry => p entry.1).map Prod.snd).sum := by
  unfold addAll
  induction entries generalizing tally with
  | nil => simp
  | cons entry entries ih =>
    rw [List.foldl_cons, ih, total_add, List.filter_cons]
    cases hp : p entry.1 <;> simp [Int.add_assoc]

/-- **A tally that is counted again under other keys has counted the same.** -/
theorem get_regroup {ι : Type} [LinearOrder ι] (f : κ → ι) (entries : List (κ × Int)) (k : ι) :
    Tally.get (Tally.addAll .empty
        ((Tally.addAll .empty entries).rows.map fun row => (f row.1, row.2))) k
      = ((entries.filter fun entry => f entry.1 = k).map Prod.snd).sum := by
  have hempty : Tally.get (Table.empty : Tally ι) k = 0 := rfl
  have hsum : ∀ rows : List (κ × Int),
      (((rows.map fun row => (f row.1, row.2)).filter (·.1 = k)).map Prod.snd).sum
        = (rows.map fun row => if decide (f row.1 = k) then row.2 else 0).sum := by
    intro rows
    induction rows with
    | nil => rfl
    | cons row rows ih =>
      by_cases hk : f row.1 = k <;> simp [hk, ih]
  rw [get_addAll, hempty, Int.zero_add, hsum]
  have htotal := total_addAll Table.empty entries fun key => f key = k
  have hnone : Tally.total (Table.empty : Tally κ) (fun key => f key = k) = 0 := rfl
  rw [hnone, Int.zero_add] at htotal
  exact htotal

end Tally

end BrokerExec
