import Mathlib.Order.Lattice
import Mathlib.Data.List.Nodup
import Mathlib.Data.List.Sort

/-!
# Tables with a unique key

A table of rows `α`, ordered by a key without repetitions, as `ORDER BY` reads a relation
with a `UNIQUE` column. `find` looks a key up, `upsert` replaces or adds a row.

* **`find_upsert`** — after an upsert the row's own key finds the row, every other key finds
  what it found before;
* **`find_mapRows`** — rows replaced under their keys are found as what replaced them;
* **`find_remove`** — a removed key finds nothing, every other key what it found before;
* **`image_upsert`**, **`find_image`** — reading every row another way goes with both.
-/

namespace BrokerExec

/-- Rows in strictly increasing order of their key. -/
structure Table (κ α : Type) [LinearOrder κ] (key : α → κ) where
  rows : List α
  sorted : (rows.map key).Pairwise (· < ·)

namespace Table

variable {κ α : Type} [LinearOrder κ] {key : α → κ}

def empty : Table κ α key := ⟨[], .nil⟩

/-- The row with this key. -/
def find (table : Table κ α key) (k : κ) : Option α := table.rows.find? fun r => key r = k

/-- The rows before, the row itself, the rows behind. -/
def upsertRows (rows : List α) (key : α → κ) (row : α) : List α :=
  rows.filter (fun r => key r < key row) ++ row :: rows.filter (fun r => key row < key r)

theorem sorted_upsertRows {rows : List α} (h : (rows.map key).Pairwise (· < ·)) (row : α) :
    ((upsertRows rows key row).map key).Pairwise (· < ·) := by
  have hrows : rows.Pairwise fun a b => key a < key b := List.pairwise_map.mp h
  rw [List.pairwise_map, upsertRows, List.pairwise_append, List.pairwise_cons]
  refine ⟨hrows.filter _, ⟨?_, hrows.filter _⟩, ?_⟩
  · intro r hr
    simpa using (List.mem_filter.mp hr).2
  · intro a ha b hb
    have ha' : key a < key row := by simpa using (List.mem_filter.mp ha).2
    rcases List.mem_cons.mp hb with rfl | hb
    · exact ha'
    · have hb' : key row < key b := by simpa using (List.mem_filter.mp hb).2
      exact ha'.trans hb'

def upsert (table : Table κ α key) (row : α) : Table κ α key :=
  ⟨upsertRows table.rows key row, sorted_upsertRows table.sorted row⟩

theorem mem_of_find {table : Table κ α key} {k : κ} {row : α} (h : table.find k = some row) :
    row ∈ table.rows ∧ key row = k :=
  ⟨List.mem_of_find?_eq_some h, by simpa using List.find?_some h⟩

theorem nodup_keys (table : Table κ α key) : (table.rows.map key).Nodup :=
  table.sorted.imp fun h => h.ne

/-- A key finds a row exactly when the row is in the table under that key. -/
theorem find_eq_some_iff {table : Table κ α key} {k : κ} {row : α} :
    table.find k = some row ↔ row ∈ table.rows ∧ key row = k := by
  constructor
  · exact mem_of_find
  · rintro ⟨hrow, rfl⟩
    cases hfind : table.find (key row) with
    | none =>
      have := List.find?_eq_none.mp hfind row hrow
      simp at this
    | some found =>
      obtain ⟨hfound, hkey⟩ := mem_of_find hfind
      rw [List.inj_on_of_nodup_map table.nodup_keys hfound hrow hkey]

theorem mem_upsert {table : Table κ α key} {row r : α} :
    r ∈ (table.upsert row).rows ↔ r = row ∨ (r ∈ table.rows ∧ key r ≠ key row) := by
  show r ∈ upsertRows table.rows key row ↔ _
  simp only [upsertRows, List.mem_append, List.mem_cons, List.mem_filter, decide_eq_true_eq]
  constructor
  · rintro (⟨hr, hlt⟩ | rfl | ⟨hr, hlt⟩)
    · exact .inr ⟨hr, hlt.ne⟩
    · exact .inl rfl
    · exact .inr ⟨hr, hlt.ne'⟩
  · rintro (rfl | ⟨hr, hne⟩)
    · exact .inr (.inl rfl)
    · rcases lt_or_gt_of_ne hne with h | h
      · exact .inl ⟨hr, h⟩
      · exact .inr (.inr ⟨hr, h⟩)

/-- **The row's own key finds it, every other key finds what it found before.** -/
theorem find_upsert (table : Table κ α key) (row : α) (k : κ) :
    (table.upsert row).find k = if k = key row then some row else table.find k := by
  split_ifs with hk
  · exact find_eq_some_iff.mpr ⟨mem_upsert.mpr (.inl rfl), hk.symm⟩
  · apply Option.ext
    intro r
    rw [find_eq_some_iff, find_eq_some_iff, mem_upsert]
    constructor
    · rintro ⟨rfl | ⟨hr, -⟩, hkey⟩
      · exact absurd hkey.symm hk
      · exact ⟨hr, hkey⟩
    · rintro ⟨hr, rfl⟩
      exact ⟨.inr ⟨hr, hk⟩, rfl⟩

/-- A table is what its keys find. -/
theorem ext_find {table table' : Table κ α key} (h : ∀ k, table.find k = table'.find k) :
    table = table' := by
  have hiff : ∀ (table : Table κ α key) (row : α),
      row ∈ table.rows ↔ table.find (key row) = some row := by
    intro table row
    simp [find_eq_some_iff]
  have hmem : ∀ row, row ∈ table.rows ↔ row ∈ table'.rows := by
    intro row
    rw [hiff, hiff, h]
  have hrows : table.rows = table'.rows :=
    List.Pairwise.eq_of_mem_iff (r := fun a b => key a < key b) (List.pairwise_map.mp table.sorted)
      (List.pairwise_map.mp table'.sorted) hmem
  cases table
  cases table'
  cases hrows
  rfl

/-- The rows under one key. -/
theorem filter_key (table : Table κ α key) (k : κ) :
    table.rows.filter (fun r => key r = k) = (table.find k).toList := by
  have hnodup := table.nodup_keys
  show _ = (table.rows.find? _).toList
  generalize table.rows = rows at hnodup ⊢
  induction rows with
  | nil => rfl
  | cons row rows ih =>
    obtain ⟨hnot, hrest⟩ := List.nodup_cons.mp hnodup
    by_cases hk : key row = k
    · have hnone : rows.filter (fun r => key r = k) = [] := by
        rw [List.filter_eq_nil_iff]
        intro r hr hkey
        have hsame : key r = key row := (by simpa using hkey : key r = k).trans hk.symm
        exact hnot (hsame ▸ List.mem_map_of_mem hr)
      simp [hk, hnone]
    · simp only [List.filter_cons, List.find?_cons, hk, decide_false, Bool.false_eq_true, if_false]
      exact ih hrest

/-- Every row replaced by one under the same key. -/
def mapRows (table : Table κ α key) (f : α → α) (hf : ∀ r, key (f r) = key r) :
    Table κ α key :=
  ⟨table.rows.map f, by
    have hkeys : (table.rows.map f).map key = table.rows.map key := by
      rw [List.map_map]
      exact List.map_congr_left fun r _ => hf r
    rw [hkeys]
    exact table.sorted⟩

theorem find_mapRows (table : Table κ α key) {f : α → α} (hf : ∀ r, key (f r) = key r) (k : κ) :
    (table.mapRows f hf).find k = (table.find k).map f := by
  show (table.rows.map f).find? _ = (table.rows.find? _).map f
  rw [List.find?_map]
  congr 2
  funext r
  simp [hf]

/-- The table without a key. -/
def remove (table : Table κ α key) (k : κ) : Table κ α key :=
  ⟨table.rows.filter fun r => key r ≠ k,
    List.pairwise_map.mpr ((List.pairwise_map.mp table.sorted).filter _)⟩

theorem find_remove (table : Table κ α key) (removed k : κ) :
    (table.remove removed).find k = if k = removed then none else table.find k := by
  show (table.rows.filter fun r => key r ≠ removed).find? (fun r => key r = k) = _
  rw [List.find?_filter]
  split_ifs with hk
  · rw [List.find?_eq_none]
    intro r _
    simpa using fun hne hkey => hne (hkey.trans hk)
  · congr 1
    funext r
    by_cases hkey : key r = k
    · simp [hkey, hk]
    · simp [hkey]

/-- A row behind every other is added at the end. -/
theorem rows_upsert_last {table : Table κ α key} {row : α}
    (h : ∀ r ∈ table.rows, key r < key row) : (table.upsert row).rows = table.rows ++ [row] := by
  show upsertRows table.rows key row = _
  have hfront : table.rows.filter (fun r => key r < key row) = table.rows :=
    List.filter_eq_self.mpr fun r hr => decide_eq_true (h r hr)
  have hback : table.rows.filter (fun r => key row < key r) = [] :=
    List.filter_eq_nil_iff.mpr fun r hr => by simpa using (h r hr).le
  rw [upsertRows, hfront, hback]

/-! ## Rows read another way -/

section Image

variable {β : Type} {key' : β → κ} (f : α → β) (hf : ∀ r, key' (f r) = key r)

/-- Every row read as one of another type, under the same key. -/
def image (table : Table κ α key) : Table κ β key' :=
  ⟨table.rows.map f, by
    have hkeys : (table.rows.map f).map key' = table.rows.map key := by
      rw [List.map_map]
      exact List.map_congr_left fun r _ => hf r
    rw [hkeys]
    exact table.sorted⟩

@[simp] theorem rows_image (table : Table κ α key) :
    (table.image f hf).rows = table.rows.map f := rfl

theorem find_image (table : Table κ α key) (k : κ) :
    (table.image f hf).find k = (table.find k).map f := by
  show (table.rows.map f).find? _ = (table.rows.find? _).map f
  rw [List.find?_map]
  congr 2
  funext r
  simp [hf]

theorem image_upsert (table : Table κ α key) (row : α) :
    (table.upsert row).image f hf = (table.image f hf).upsert (f row) := by
  have hrows : (upsertRows table.rows key row).map f = upsertRows (table.rows.map f) key' (f row) := by
    simp [upsertRows, List.filter_map, Function.comp_def, hf]
  unfold image upsert
  congr 1

end Image

end Table

end BrokerExec
