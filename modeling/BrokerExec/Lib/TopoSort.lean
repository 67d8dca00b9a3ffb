import Mathlib.Data.Fintype.Card
import Mathlib.Data.Fintype.EquivFin
import Mathlib.Data.Fintype.Sets
import Mathlib.Data.List.Nodup
import Mathlib.Data.List.Perm.Subperm
import Mathlib.Logic.Function.Basic
import Mathlib.Logic.Relation

/-!
# Kahn's topological sort

The queue algorithm: every node counts the prerequisites it still waits for, nodes that wait
for nothing are queued, and a visited node releases the ones that wait for it. A node may name
a prerequisite several times; it then waits, and is released, as many times.

* **`sort_respects`** — in the order, prerequisites come before what needs them.
* **`sort_complete`** — an order of full length holds every node.
* **`run_queue`** — visiting as often as there are nodes empties the queue.
* **`sort_length_iff`** — the order is of full length exactly when no node waits for itself.
-/

namespace BrokerExec.TopoSort

variable {α : Type}

/-- Every visited node comes behind its prerequisites. -/
def Respects (deps : α → List α) (order : List α) : Prop :=
  ∀ front v back, order = front ++ v :: back → ∀ d ∈ deps v, d ∈ front

theorem Respects.snoc {deps : α → List α} {order : List α} {u : α} (h : Respects deps order)
    (hu : ∀ d ∈ deps u, d ∈ order) : Respects deps (order ++ [u]) := by
  intro front v back hsplit d hd
  rcases List.eq_nil_or_concat back with rfl | ⟨back, last, rfl⟩
  · obtain ⟨rfl, hv⟩ := List.append_inj' hsplit rfl
    obtain rfl : u = v := by simpa using hv
    exact hu d hd
  · have hsplit' : order ++ [u] = (front ++ v :: back) ++ [last] := by simpa using hsplit
    exact h front v back (List.append_inj' hsplit' rfl).1 d hd

variable [DecidableEq α]

/-! ## The algorithm -/

structure Kahn (α : Type) where
  order : List α
  queue : List α
  waiting : α → Nat

/-- The nodes that wait for `u`, once for every time they name it. -/
def dependents (nodes : List α) (deps : α → List α) (u : α) : List α :=
  nodes.flatMap fun v => ((deps v).filter (· = u)).map fun _ => v

/-- One prerequisite less; the last one queues the node. -/
def release (st : Kahn α) (v : α) : Kahn α :=
  { st with
    waiting := Function.update st.waiting v (st.waiting v - 1)
    queue := if st.waiting v = 1 then st.queue ++ [v] else st.queue }

def visit (nodes : List α) (deps : α → List α) (st : Kahn α) : Kahn α :=
  match st.queue with
  | [] => st
  | u :: queue =>
    (dependents nodes deps u).foldl release { st with order := st.order ++ [u], queue := queue }

def start (nodes : List α) (deps : α → List α) : Kahn α :=
  ⟨[], nodes.filter fun v => (deps v).length = 0, fun v => (deps v).length⟩

def run (nodes : List α) (deps : α → List α) : Nat → Kahn α
  | 0 => start nodes deps
  | k + 1 => visit nodes deps (run nodes deps k)

/-- The nodes in the order they are visited; on a cycle some are missing. -/
def sort (nodes : List α) (deps : α → List α) : List α :=
  (run nodes deps nodes.length).order

/-! ## Counting -/

theorem count_dependents {nodes : List α} (hnodes : nodes.Nodup) (deps : α → List α) (u v : α) :
    (dependents nodes deps u).count v = if v ∈ nodes then (deps v).count u else 0 := by
  induction nodes with
  | nil => rfl
  | cons w nodes ih =>
    obtain ⟨hw, hnodes⟩ := List.nodup_cons.mp hnodes
    have hhead : (((deps w).filter (· = u)).map fun _ => w).count v
        = if w = v then (deps w).count u else 0 := by
      rw [List.map_const', List.count_replicate, ← List.countP_eq_length_filter]
      simp only [beq_iff_eq]
      rfl
    have hsplit : dependents (w :: nodes) deps u
        = (((deps w).filter (· = u)).map fun _ => w) ++ dependents nodes deps u := rfl
    rw [hsplit, List.count_append, hhead, ih hnodes]
    by_cases hwv : w = v
    · subst hwv
      simp [hw]
    · simp [hwv, Ne.symm hwv]

/-- Visiting `u` takes its own mentions out of what is left to wait for. -/
theorem countP_visited {order : List α} {u : α} (hu : u ∉ order) (l : List α) :
    l.countP (fun d => d ∉ order) = l.countP (fun d => d ∉ order ++ [u]) + l.count u := by
  induction l with
  | nil => rfl
  | cons d l ih =>
    rw [List.countP_cons, List.countP_cons, List.count_cons, ih]
    by_cases hd : d = u
    · subst hd
      simp [hu]
      omega
    · simp [hd]
      omega

/-! ## The invariant -/

/-- Visited and queued nodes are exactly the ones that wait for nothing, each once. -/
structure Released (nodes : List α) (st : Kahn α) : Prop where
  mem_iff : ∀ v, v ∈ st.order ++ st.queue ↔ v ∈ nodes ∧ st.waiting v = 0
  nodup : (st.order ++ st.queue).Nodup

structure Inv (nodes : List α) (deps : α → List α) (st : Kahn α) : Prop
    extends Released nodes st where
  waiting : ∀ v ∈ nodes, st.waiting v = (deps v).countP fun d => d ∉ st.order
  respects : Respects deps st.order

theorem release_released {nodes : List α} {st : Kahn α} {v : α} (h : Released nodes st)
    (hv : v ∈ nodes) (hwaits : 0 < st.waiting v) : Released nodes (release st v) := by
  have hnew : v ∉ st.order ++ st.queue := fun hmem => by
    have := ((h.mem_iff v).mp hmem).2
    omega
  by_cases hlast : st.waiting v = 1
  · have hqueue : st.order ++ (release st v).queue = (st.order ++ st.queue) ++ [v] := by
      simp [release, hlast]
    refine ⟨fun w => ?_, ?_⟩
    · show w ∈ st.order ++ (release st v).queue ↔ _
      rw [hqueue, List.mem_append, h.mem_iff w]
      by_cases hw : w = v
      · subst hw
        simp [release, hlast, hv]
      · simp [release, hw]
    · show (st.order ++ (release st v).queue).Nodup
      rw [hqueue, List.nodup_append]
      refine ⟨h.nodup, List.nodup_singleton v, fun a ha b hb => ?_⟩
      rw [List.mem_singleton.mp hb]
      rintro rfl
      exact hnew ha
  · have hqueue : (release st v).queue = st.queue := by simp [release, hlast]
    refine ⟨fun w => ?_, ?_⟩
    · show w ∈ st.order ++ (release st v).queue ↔ _
      rw [hqueue, h.mem_iff w]
      by_cases hw : w = v
      · subst hw
        simp [release]
        omega
      · simp [release, hw]
    · show (st.order ++ (release st v).queue).Nodup
      rw [hqueue]
      exact h.nodup

theorem foldl_release_order (l : List α) (st : Kahn α) :
    (l.foldl release st).order = st.order := by
  induction l generalizing st with
  | nil => rfl
  | cons u l ih => exact ih (release st u)

/-- Releasing a list of nodes, none of them more often than it waits. -/
theorem foldl_release {nodes : List α} {l : List α} {st : Kahn α} (h : Released nodes st)
    (hl : ∀ v ∈ l, v ∈ nodes) (hcount : ∀ v, l.count v ≤ st.waiting v) :
    Released nodes (l.foldl release st)
      ∧ ∀ v, (l.foldl release st).waiting v = st.waiting v - l.count v := by
  induction l generalizing st with
  | nil => exact ⟨h, fun v => rfl⟩
  | cons u l ih =>
    have hu := hcount u
    rw [List.count_cons_self] at hu
    have hstep := release_released h (hl u (by simp)) (by omega)
    have hrest : ∀ v, l.count v ≤ (release st u).waiting v := by
      intro v
      have hv := hcount v
      by_cases huv : v = u
      · subst huv
        simp only [release, Function.update_self]
        omega
      · rw [List.count_cons_of_ne (Ne.symm huv)] at hv
        simp only [release, Function.update_of_ne huv]
        exact hv
    obtain ⟨hreleased, hwaiting⟩ := ih hstep (fun v hv => hl v (by simp [hv])) hrest
    refine ⟨hreleased, fun v => ?_⟩
    rw [List.foldl_cons, hwaiting v]
    by_cases huv : v = u
    · subst huv
      simp only [release, Function.update_self, List.count_cons_self]
      omega
    · simp only [release, Function.update_of_ne huv, List.count_cons_of_ne (Ne.symm huv)]

/-! ## The run -/

section

variable {nodes : List α} {deps : α → List α}

theorem inv_start (hnodes : nodes.Nodup) : Inv nodes deps (start nodes deps) where
  mem_iff := by
    intro v
    simp [start]
  nodup := by
    show ([] ++ nodes.filter _).Nodup
    exact hnodes.filter _
  waiting := by
    intro v _
    simp [start]
  respects := by
    intro front v back hsplit
    simp [start] at hsplit

theorem visit_inv (hnodes : nodes.Nodup) {st : Kahn α} (h : Inv nodes deps st) :
    Inv nodes deps (visit nodes deps st) := by
  cases hqueue : st.queue with
  | nil =>
    rw [visit, hqueue]
    exact h
  | cons u queue =>
    rw [visit, hqueue]
    have hsame : (st.order ++ [u]) ++ queue = st.order ++ st.queue := by simp [hqueue]
    have hreleased : Released nodes { st with order := st.order ++ [u], queue := queue } :=
      ⟨fun v => by rw [hsame]; exact h.mem_iff v, by rw [hsame]; exact h.nodup⟩
    have huNode : u ∈ nodes ∧ st.waiting u = 0 := (h.mem_iff u).mp (by simp [hqueue])
    have huNew : u ∉ st.order := by
      have hnodup := h.nodup
      rw [hqueue, List.nodup_append] at hnodup
      exact fun hu => hnodup.2.2 u hu u (by simp) rfl
    -- what `u` releases is what the nodes still wait for
    have hcount : ∀ v, (dependents nodes deps u).count v ≤ st.waiting v := by
      intro v
      rw [count_dependents hnodes]
      split_ifs with hv
      · rw [h.waiting v hv, countP_visited huNew]
        omega
      · omega
    have hmem : ∀ v ∈ dependents nodes deps u, v ∈ nodes := by
      intro v hv
      by_contra hnot
      have hzero := count_dependents hnodes deps u v
      rw [if_neg hnot] at hzero
      exact List.count_eq_zero.mp hzero hv
    obtain ⟨hreleased', hwaiting⟩ := foldl_release hreleased hmem hcount
    have horder := foldl_release_order (dependents nodes deps u)
      { st with order := st.order ++ [u], queue := queue }
    dsimp only at horder hwaiting
    refine ⟨hreleased', fun v hv => ?_, ?_⟩
    · rw [hwaiting v, horder, count_dependents hnodes, if_pos hv, h.waiting v hv,
        countP_visited huNew]
      omega
    · rw [horder]
      refine h.respects.snoc fun d hd => ?_
      have hnone := h.waiting u huNode.1
      rw [huNode.2] at hnone
      simpa using List.countP_eq_zero.mp hnone.symm d hd

theorem run_inv (hnodes : nodes.Nodup) (deps : α → List α) (k : Nat) :
    Inv nodes deps (run nodes deps k) := by
  induction k with
  | zero => exact inv_start hnodes
  | succ k ih => exact visit_inv hnodes ih

theorem sort_nodup (hnodes : nodes.Nodup) : (sort nodes deps).Nodup :=
  (List.nodup_append.mp (run_inv hnodes deps nodes.length).nodup).1

theorem mem_of_mem_sort (hnodes : nodes.Nodup) {v : α} (h : v ∈ sort nodes deps) : v ∈ nodes :=
  (((run_inv hnodes deps nodes.length).mem_iff v).mp (List.mem_append_left _ h)).1

/-- **Prerequisites come first.** -/
theorem sort_respects (hnodes : nodes.Nodup) : Respects deps (sort nodes deps) :=
  (run_inv hnodes deps nodes.length).respects

/-- **An order of full length holds every node.** -/
theorem sort_complete (hnodes : nodes.Nodup) (h : (sort nodes deps).length = nodes.length)
    {v : α} (hv : v ∈ nodes) : v ∈ sort nodes deps := by
  have hperm : (sort nodes deps).Perm nodes :=
    ((sort_nodup hnodes).subperm fun _ => mem_of_mem_sort hnodes).perm_of_length_le (by omega)
  exact hperm.mem_iff.mpr hv

/-- As long as the queue is not empty every visit adds a node. -/
theorem run_order_length (nodes : List α) (deps : α → List α) (k : Nat) :
    (run nodes deps k).queue = [] ∨ (run nodes deps k).order.length = k := by
  induction k with
  | zero => exact .inr rfl
  | succ k ih =>
    rw [run]
    cases hqueue : (run nodes deps k).queue with
    | nil =>
      left
      rw [visit, hqueue]
      exact hqueue
    | cons u queue =>
      right
      rcases ih with ih | ih
      · rw [hqueue] at ih
        cases ih
      · rw [visit, hqueue]
        dsimp only
        rw [foldl_release_order, List.length_append, ih, List.length_singleton]

/-- **The queue runs empty** within as many visits as there are nodes. -/
theorem run_queue (hnodes : nodes.Nodup) : (run nodes deps nodes.length).queue = [] := by
  rcases run_order_length nodes deps nodes.length with h | h
  · exact h
  · have hinv := run_inv hnodes deps nodes.length
    have hlength := (hinv.nodup.subperm fun v hv => ((hinv.mem_iff v).mp hv).1).length_le
    rw [List.length_append, h] at hlength
    exact List.eq_nil_of_length_eq_zero (by omega)

/-! ## Cycles -/

/-- An edge from a node to what it waits for. -/
def Needs (deps : α → List α) (v d : α) : Prop := d ∈ deps v

omit [DecidableEq α] in
/-- In an order that respects them, prerequisites stand strictly in front, direct or not. -/
theorem Respects.mem_of_needs {order : List α} (h : Respects deps order) {v w : α}
    (hvw : Relation.TransGen (Needs deps) v w) :
    ∀ front back, order = front ++ v :: back → w ∈ front := by
  induction hvw using Relation.TransGen.head_induction_on with
  | single hvw => exact fun front back hsplit => h front _ back hsplit _ hvw
  | @head u d hud _ ih =>
    intro front back hsplit
    obtain ⟨front', back', hfront⟩ := List.append_of_mem (h front u back hsplit d hud)
    have hin := ih front' (back' ++ u :: back) (by rw [hsplit, hfront]; simp)
    rw [hfront]
    exact List.mem_append_left _ hin

/-- A node that is not visited waits for another such. -/
theorem exists_unvisited (hnodes : nodes.Nodup) (hclosed : ∀ v ∈ nodes, ∀ d ∈ deps v, d ∈ nodes)
    {v : α} (hv : v ∈ nodes) (hnot : v ∉ sort nodes deps) :
    ∃ d ∈ nodes, Needs deps v d ∧ d ∉ sort nodes deps := by
  have hinv := run_inv hnodes deps nodes.length
  have hqueue : (run nodes deps nodes.length).queue = [] := run_queue hnodes
  have hwaits : (run nodes deps nodes.length).waiting v ≠ 0 := by
    intro hzero
    have hmem := (hinv.mem_iff v).mpr ⟨hv, hzero⟩
    rw [hqueue, List.append_nil] at hmem
    exact hnot hmem
  rw [hinv.waiting v hv, Ne, List.countP_eq_zero] at hwaits
  push Not at hwaits
  obtain ⟨d, hd, hunvisited⟩ := hwaits
  exact ⟨d, hclosed v hv d hd, hd, by simpa [sort] using hunvisited⟩

/-- **The order is of full length exactly when no node waits for itself.** -/
theorem sort_length_iff (hnodes : nodes.Nodup)
    (hclosed : ∀ v ∈ nodes, ∀ d ∈ deps v, d ∈ nodes) :
    (sort nodes deps).length = nodes.length
      ↔ ∀ v ∈ nodes, ¬ Relation.TransGen (Needs deps) v v := by
  constructor
  · intro hlength v hv hcycle
    obtain ⟨front, back, hsplit⟩ := List.append_of_mem (sort_complete hnodes hlength hv)
    have hin := (sort_respects hnodes).mem_of_needs hcycle front back hsplit
    have hnodup : (sort nodes deps).Nodup := sort_nodup hnodes
    rw [hsplit, List.nodup_append] at hnodup
    exact hnodup.2.2 v hin v (by simp) rfl
  · intro hacyclic
    -- finitely many nodes without a cycle: among the unvisited there would be a least one
    have hfinite : Finite {v // v ∈ nodes} := inferInstance
    let below : {v // v ∈ nodes} → {v // v ∈ nodes} → Prop :=
      fun d v => Relation.TransGen (Needs deps) v.1 d.1
    have htrans : IsTrans _ below := ⟨fun _ _ _ hab hbc => hbc.trans hab⟩
    have hirrefl : Std.Irrefl below := ⟨fun v => hacyclic v.1 v.2⟩
    have hwf : WellFounded below := Finite.wellFounded_of_trans_of_irrefl below
    have hall : ∀ v : {v // v ∈ nodes}, v.1 ∈ sort nodes deps := by
      intro v
      induction v using hwf.induction with
      | _ v ih =>
        by_contra hnot
        obtain ⟨d, hd, hneeds, hunvisited⟩ := exists_unvisited hnodes hclosed v.2 hnot
        exact hunvisited (ih ⟨d, hd⟩ (.single hneeds))
    have hle := (hnodes.subperm fun v hv => hall ⟨v, hv⟩).length_le
    have hsub : sort nodes deps ⊆ nodes := fun v hv => mem_of_mem_sort hnodes hv
    have hge := ((sort_nodup hnodes).subperm hsub).length_le
    omega

end

end BrokerExec.TopoSort
