import BrokerExec.Adapters.FillReport
import BrokerExec.Lib.Run
import BrokerExec.Lifecycle.History
import BrokerExec.Reconcile.Agreement
import BrokerExec.Runtime.UnknownResolver

/-!
# Unreadable rows and known fills

A fill that could not be read is published as 0 under `Unknown`, and neither the engine nor the
resolver asks whether it was read: a view that is let in overwrites the fill. A `Desk` holds the
local orders, the engine and the store; its events are payloads, read by an adapter and applied by
`ReconcileApplier::apply` or by `UnknownResolver::resolve`.

* **`fills_never_decrease`** — over any run in which readable rows report cumulative fills and no
  unreadable row that is taken on brings a lower fill than the order's, or a higher one than is
  known.
-/

namespace BrokerExec.Runtime

open BrokerExec.Adapters (Adapter ReadRow)
open BrokerExec.Domain (Order Quantity)
open BrokerExec.Errors (Error)
open BrokerExec.Lifecycle (BrokerView LifecycleEngine Refused apply_filledQty apply_intent)
open BrokerExec.Reconcile (ReconcileApplier ReconcileResult Reconciling checkVanished_counts
  matchOf matchOf_eq_some stepRow stepRow_orders)
open BrokerExec.Runtime.UnknownResolver (Resolving adopted adopted_intent classify resolve)

/-! ## The desk -/

/-- The local orders, one for each client ref, what applies snapshots to them, and the store. -/
structure Desk where
  orders : Store
  applier : ReconcileApplier
  store : Store

/-- The local orders as they are loaded from the store. -/
def Desk.load (store : Store) (applier : ReconcileApplier) : Desk := ⟨store, applier, store⟩

inductive Path where
  | apply (orderingKey : Int64)
  | resolve (clientRef : Bytes) (upsertFailure : Option Error)

/-- A payload, the adapter that reads it and what its rows are handed to. -/
structure Event where
  adapter : Adapter
  payload : Result Json.Value
  path : Path

/-- An entry that is replaced by one with the same image leaves the images alone. -/
theorem map_set_of_eq {α β : Type} {f : α → β} {l : List α} {i : Nat} {old new : α}
    (hget : l[i]? = some old) (h : f new = f old) : (l.set i new).map f = l.map f := by
  obtain ⟨hi, rfl⟩ := List.getElem?_eq_some_iff.mp hget
  have hlength : i < (l.map f).length := by rw [List.length_map]; exact hi
  have hmap : (l.map f)[i] = f new := by rw [List.getElem_map, h]
  rw [List.map_set, ← hmap, List.set_getElem_self]

theorem foldl_stepRow_refs (stale : Bool) (orderingKey : Int64) (rows : List Order)
    (st : Reconciling) :
    (rows.foldl (stepRow stale orderingKey) st).orders.map (·.intent.clientRef)
      = st.orders.map (·.intent.clientRef) := by
  induction rows generalizing st with
  | nil => rfl
  | cons row rows ih =>
    rw [List.foldl_cons, ih, stepRow_orders]
    cases hmatch : matchOf st.orders row with
    | none => rfl
    | some found =>
      exact map_set_of_eq (matchOf_eq_some hmatch).1 (by rw [apply_intent])

/-- `apply` keeps every local order in its place: what it leaves is the fold over the rows. -/
theorem apply_orders (applier : ReconcileApplier) (result : ReconcileResult)
    (orders : List Order) :
    (applier.apply result orders).1.orders = (applier.feedRows result orders).orders := by
  unfold ReconcileApplier.apply
  dsimp only
  split_ifs
  · rfl
  · exact (checkVanished_counts _ _).1

theorem apply_refs (applier : ReconcileApplier) (result : ReconcileResult) (orders : List Order) :
    (applier.apply result orders).1.orders.map (·.intent.clientRef)
      = orders.map (·.intent.clientRef) := by
  rw [apply_orders]
  exact foldl_stepRow_refs _ _ _ _

/-- A snapshot is applied to the local orders. -/
def Desk.applySnapshot (desk : Desk) (result : ReconcileResult) : Desk :=
  let applied := desk.applier.apply result desk.orders.rows
  { desk with
    orders := ⟨applied.1.orders, by rw [apply_refs]; exact desk.orders.sorted⟩
    applier := applied.2 }

/-- The local order with this ref is resolved: the answer takes its place, the resolver writes the
store itself. -/
def Desk.resolveOrder (desk : Desk) (answer : UnknownResolver.Answer) (clientRef : Bytes) : Desk :=
  match desk.orders.find clientRef with
  | none => desk
  | some order =>
    let (result, st) := resolve answer ⟨desk.store, desk.applier.engine, []⟩ order
    { orders :=
        match result with
        | .ok ⟨_, some resolved, _, _⟩ => desk.orders.upsert resolved
        | _ => desk.orders
      applier := { desk.applier with engine := st.engine }
      store := st.store }

/-- A failed fetch leaves everything as it is. -/
def Desk.step (desk : Desk) (e : Event) : Desk :=
  match e.adapter.fetchOrders e.payload, e.path with
  | .error _, _ => desk
  | .ok rows, .apply orderingKey => desk.applySnapshot ⟨rows, orderingKey⟩
  | .ok rows, .resolve clientRef upsertFailure =>
    desk.resolveOrder ⟨.ok rows, upsertFailure⟩ clientRef

/-! ## The rows that are applied -/

/-- A row as it is applied to a local order. `taken`: the row ends up on the order. -/
structure Applied where
  order : Order
  row : ReadRow
  taken : Bool

/-- A row as the engine sees it: one that is not refused is taken. -/
def seenBy (engine : LifecycleEngine) (order : Order) (row : ReadRow) (view : BrokerView) :
    Applied :=
  ⟨order, row, !decide (Refused engine order view)⟩

/-- A failed upsert leaves the order alone. -/
def Applied.upserted (a : Applied) (upsertFailure : Option Error) : Applied :=
  match upsertFailure with
  | none => a
  | some _ => { a with taken := false }

def appliedTo (stale : Bool) (orderingKey : Int64) : Reconciling → List ReadRow → List Applied
  | _, [] => []
  | st, row :: rows =>
    let rest := appliedTo stale orderingKey (stepRow stale orderingKey st row.order) rows
    match matchOf st.orders row.order with
    | none => rest
    | some (_, order) =>
      seenBy st.engine order row (Reconcile.viewOf orderingKey order row.order) :: rest

/-- The row that the resolver matches, if it finds one. -/
def Desk.resolvedBy (desk : Desk) (rows : List ReadRow) (clientRef : Bytes)
    (upsertFailure : Option Error) : Option Applied :=
  match desk.orders.find clientRef with
  | none => none
  | some order =>
    match (classify order (rows.map (·.order))).matched with
    | none => none
    | some matched =>
      (rows.find? (·.order = matched)).map fun row =>
        (seenBy desk.applier.engine order row
          (UnknownResolver.viewOf desk.applier.engine order row.order)).upserted upsertFailure

/-- The rows that an event applies, in their order. -/
def Desk.applied (desk : Desk) (e : Event) : List Applied :=
  let rows := e.adapter.read e.payload
  match e.path with
  | .apply orderingKey =>
    appliedTo (desk.applier.isStale ⟨rows.map (·.order), orderingKey⟩) orderingKey
      ⟨desk.orders.rows, desk.applier.engine, .init, []⟩ rows
  | .resolve clientRef upsertFailure =>
    (desk.resolvedBy rows clientRef upsertFailure).toList

def Desk.trace (desk : Desk) : List Event → List Applied
  | [] => []
  | e :: events => desk.applied e ++ (desk.step e).trace events

/-! ## What is known -/

/-- The fill of the last readable row, for each client ref. -/
abbrev Known := Bytes → Quantity

def learn (known : Known) (a : Applied) : Known :=
  if a.row.readable then Function.update known a.order.intent.clientRef a.row.fill else known

/-- Before any row the local orders are what is known. -/
def Desk.known (desk : Desk) : Known := fun ref =>
  ((desk.orders.find ref).map (·.filledQty)).getD 0

/-- A readable row reports no lower fill than the one before. -/
def Cumulative (known : Known) (a : Applied) : Prop :=
  a.row.readable = true → known a.order.intent.clientRef ≤ a.row.fill

instance (known : Known) (a : Applied) : Decidable (Cumulative known a) := by
  unfold Cumulative
  infer_instance

/-- An unreadable row that is taken brings no lower fill than the order's, and no higher one than
the last readable row's. -/
def Harmless (known : Known) (a : Applied) : Prop :=
  a.row.readable = false → a.taken = true →
    a.order.filledQty ≤ a.row.fill ∧ a.row.fill ≤ known a.order.intent.clientRef

instance (known : Known) (a : Applied) : Decidable (Harmless known a) := by
  unfold Harmless
  infer_instance

/-- No order has a higher fill than is known. -/
def Below (known : Known) (orders : List Order) : Prop :=
  ∀ order ∈ orders, order.filledQty ≤ known order.intent.clientRef

/-- Every order is still there, with a fill that is no lower. -/
def FillsKept (before after : List Order) : Prop :=
  ∀ order ∈ before, ∃ order' ∈ after,
    order'.intent.clientRef = order.intent.clientRef ∧ order.filledQty ≤ order'.filledQty

theorem FillsKept.refl (orders : List Order) : FillsKept orders orders :=
  fun order horder => ⟨order, horder, rfl, Int64.le_refl _⟩

theorem FillsKept.trans {a b c : List Order} (hab : FillsKept a b) (hbc : FillsKept b c) :
    FillsKept a c := by
  intro order horder
  obtain ⟨order', horder', href, hle⟩ := hab order horder
  obtain ⟨order'', horder'', href', hle'⟩ := hbc order' horder'
  exact ⟨order'', horder'', href'.trans href, Int64.le_trans hle hle'⟩

/-- The order at a place gets a fill that is no lower. -/
theorem fillsKept_set {orders : List Order} {i : Nat} {old new : Order}
    (hget : orders[i]? = some old) (href : new.intent.clientRef = old.intent.clientRef)
    (hle : old.filledQty ≤ new.filledQty) : FillsKept orders (orders.set i new) := by
  obtain ⟨hi, hold⟩ := List.getElem?_eq_some_iff.mp hget
  intro order horder
  obtain ⟨j, hj, rfl⟩ := List.mem_iff_getElem.mp horder
  by_cases hij : i = j
  · subst hij
    exact ⟨new, List.mem_set hi new, by rw [href, hold], by rw [hold]; exact hle⟩
  · refine ⟨orders[j], ?_, rfl, Int64.le_refl _⟩
    exact List.mem_iff_getElem.mpr ⟨j, by simpa using hj, List.getElem_set_ne hij _⟩

theorem below_set {known : Known} {orders : List Order} (h : Below known orders) (i : Nat)
    {new : Order} (hnew : new.filledQty ≤ known new.intent.clientRef) :
    Below known (orders.set i new) := by
  intro order horder
  rcases List.mem_or_eq_of_mem_set horder with horder | rfl
  · exact h order horder
  · exact hnew

/-! ## One row -/

variable {known : Known} {a : Applied}

theorem learn_grows (h : Cumulative known a) (ref : Bytes) : known ref ≤ learn known a ref := by
  unfold learn
  split_ifs with hreadable
  · by_cases href : ref = a.order.intent.clientRef
    · rw [href, Function.update_self]
      exact h hreadable
    · rw [Function.update_of_ne href]
      exact Int64.le_refl _
  · exact Int64.le_refl _

theorem Below.learn {orders : List Order} (h : Below known orders) (hc : Cumulative known a) :
    Below (learn known a) orders :=
  fun order horder => Int64.le_trans (h order horder) (learn_grows hc _)

/-- **A row that is taken raises the fill**, and not above what is known then. -/
theorem taken_raises (hbelow : a.order.filledQty ≤ known a.order.intent.clientRef)
    (hc : Cumulative known a) (hh : Harmless known a) (htaken : a.taken = true) :
    a.order.filledQty ≤ a.row.fill ∧ a.row.fill ≤ learn known a a.order.intent.clientRef := by
  unfold learn
  cases hreadable : a.row.readable with
  | true =>
    rw [if_pos rfl, Function.update_self]
    exact ⟨Int64.le_trans hbelow (hc hreadable), Int64.le_refl _⟩
  | false =>
    rw [if_neg Bool.false_ne_true]
    exact hh hreadable htaken

/-- The fill behind the engine's `apply` is no lower, and no higher than what is known then. -/
theorem apply_raises {engine : LifecycleEngine} {order : Order} {row : ReadRow} (view : BrokerView)
    (hview : view.filledQty = row.order.filledQty)
    (hbelow : order.filledQty ≤ known order.intent.clientRef)
    (hc : Cumulative known (seenBy engine order row view))
    (hh : Harmless known (seenBy engine order row view)) :
    order.filledQty ≤ (engine.apply order view).2.1.filledQty
      ∧ (engine.apply order view).2.1.filledQty
        ≤ learn known (seenBy engine order row view) order.intent.clientRef := by
  rw [apply_filledQty, hview, row.published]
  split_ifs with hrefused
  · -- the order stays, and what is known only grows
    exact ⟨Int64.le_refl _, Int64.le_trans hbelow (learn_grows hc _)⟩
  · exact taken_raises (a := seenBy engine order row view) hbelow hc hh (by simp [seenBy, hrefused])

/-! ## A snapshot -/

/-- What the steps of a run have to meet. -/
def Meets (known : Known) (a : Applied) : Prop := Cumulative known a ∧ Harmless known a

theorem snapshot_kept {stale : Bool} {orderingKey : Int64} (rows : List ReadRow)
    {st : Reconciling} (hbelow : Below known st.orders)
    (h : Along learn Meets known (appliedTo stale orderingKey st rows)) :
    Below (run learn known (appliedTo stale orderingKey st rows))
        ((rows.map (·.order)).foldl (stepRow stale orderingKey) st).orders
      ∧ FillsKept st.orders
        ((rows.map (·.order)).foldl (stepRow stale orderingKey) st).orders
      ∧ ∀ a ∈ appliedTo stale orderingKey st rows, a.taken = true →
        a.order.filledQty ≤ a.row.fill := by
  induction rows generalizing st known with
  | nil => exact ⟨hbelow, .refl _, by simp [appliedTo]⟩
  | cons row rows ih =>
    have horders := stepRow_orders stale orderingKey st row.order
    rw [List.map_cons, List.foldl_cons]
    -- a row of no local order is passed over
    cases hmatch : matchOf st.orders row.order with
    | none =>
      simp only [hmatch] at horders
      simp only [appliedTo, hmatch] at h ⊢
      rw [← horders] at hbelow
      obtain ⟨hbelow', hkept, hraises⟩ := ih hbelow h
      exact ⟨hbelow', horders ▸ hkept, hraises⟩
    | some found =>
      obtain ⟨i, order⟩ := found
      simp only [hmatch] at horders
      simp only [appliedTo, hmatch] at h ⊢
      obtain ⟨⟨hc, hh⟩, hrest⟩ := along_cons.mp h
      have hget := (matchOf_eq_some hmatch).1
      have horder := hbelow order (List.mem_of_getElem? hget)
      obtain ⟨hraised, hknown⟩ := apply_raises (Reconcile.viewOf orderingKey order row.order) rfl
        horder hc hh
      have hbelow' : Below
          (learn known (seenBy st.engine order row (Reconcile.viewOf orderingKey order row.order)))
          (stepRow stale orderingKey st row.order).orders := by
        rw [horders]
        refine below_set (hbelow.learn hc) i ?_
        rw [apply_intent]
        exact hknown
      obtain ⟨hlast, hkept, hraises⟩ := ih hbelow' hrest
      rw [run_cons]
      -- this row, then the rows behind it
      refine ⟨hlast, FillsKept.trans ?_ hkept, List.forall_mem_cons.mpr ⟨?_, hraises⟩⟩
      · rw [horders]
        exact fillsKept_set hget (by rw [apply_intent]) hraised
      · exact fun htaken => (taken_raises (a := seenBy st.engine order row
          (Reconcile.viewOf orderingKey order row.order)) horder hc hh htaken).1

/-! ## A resolution -/

theorem below_upsert {table : Store} (h : Below known table.rows) {new : Order}
    (hnew : new.filledQty ≤ known new.intent.clientRef) : Below known (table.upsert new).rows := by
  intro order horder
  rcases Table.mem_upsert.mp horder with rfl | ⟨horder, -⟩
  · exact hnew
  · exact h order horder

theorem fillsKept_upsert {table : Store} {new : Order}
    (h : ∀ old ∈ table.rows, old.intent.clientRef = new.intent.clientRef →
      old.filledQty ≤ new.filledQty) : FillsKept table.rows (table.upsert new).rows := by
  intro old hold
  by_cases href : old.intent.clientRef = new.intent.clientRef
  · exact ⟨new, Table.mem_upsert.mpr (.inl rfl), href.symm, h old hold href⟩
  · exact ⟨old, Table.mem_upsert.mpr (.inr ⟨hold, href⟩), rfl, Int64.le_refl _⟩

/-- What is written to both tables keeps one behind the other. -/
theorem FillsKept.upsert {store orders : Store} (h : FillsKept store.rows orders.rows)
    (new : Order) : FillsKept (store.upsert new).rows (orders.upsert new).rows := by
  intro old hold
  rcases Table.mem_upsert.mp hold with rfl | ⟨hold, hne⟩
  · exact ⟨old, Table.mem_upsert.mpr (.inl rfl), rfl, Int64.le_refl _⟩
  · obtain ⟨order, horder, href, hle⟩ := h old hold
    exact ⟨order, Table.mem_upsert.mpr (.inr ⟨horder, by rw [href]; exact hne⟩), href, hle⟩

/-- The resolver copies the engine's fill. -/
theorem adopted_filledQty (engine : LifecycleEngine) (order row : Order) :
    (adopted engine order row).filledQty
      = (engine.apply order (UnknownResolver.viewOf engine order row)).2.1.filledQty := by
  unfold adopted
  dsimp only
  split_ifs <;> rfl

/-- The local orders are within what is known, and the store is not ahead of them. -/
structure Holds (known : Known) (desk : Desk) : Prop where
  below : Below known desk.orders.rows
  behind : FillsKept desk.store.rows desk.orders.rows

/-- What a step keeps: the invariant and every fill, row by row, in memory and in the store. -/
structure StepKept (known : Known) (desk desk' : Desk) (applied : List Applied) : Prop where
  holds : Holds (run learn known applied) desk'
  rowwise : ∀ a ∈ applied, a.taken = true → a.order.filledQty ≤ a.row.fill
  held : FillsKept desk.orders.rows desk'.orders.rows
  written : FillsKept desk.store.rows desk'.store.rows

variable {desk : Desk}

theorem StepKept.idle (h : Holds known desk) : StepKept known desk desk [] :=
  ⟨h, by simp, .refl _, .refl _⟩

/-- The row that the resolver matches is one of the rows that were read. -/
theorem exists_matchedRow {order matched : Order} {rows : List ReadRow}
    (h : (classify order (rows.map (·.order))).matched = some matched) :
    ∃ row, rows.find? (·.order = matched) = some row ∧ row.order = matched := by
  have hmem : matched ∈ rows.map (·.order) := by
    cases hclass : classify order (rows.map (·.order)) with
    | mk kind found =>
      rw [hclass] at h
      dsimp only at h
      subst h
      exact (UnknownResolver.classify_cases hclass).1
  obtain ⟨row, hrow, rfl⟩ := List.mem_map.mp hmem
  cases hfind : rows.find? (·.order = row.order) with
  | none => simpa using List.find?_eq_none.mp hfind row hrow
  | some first => exact ⟨first, rfl, by simpa using List.find?_some hfind⟩

/-- A local order is replaced by one with a higher fill, here and in the store. -/
theorem upsert_kept {known' : Known} (hholds : Holds known desk)
    (hgrows : ∀ ref, known ref ≤ known' ref) {clientRef : Bytes} {order new : Order}
    (hfind : desk.orders.find clientRef = some order)
    (href : new.intent.clientRef = order.intent.clientRef)
    (hraised : order.filledQty ≤ new.filledQty)
    (hknown : new.filledQty ≤ known' new.intent.clientRef) (applier : ReconcileApplier) :
    Holds known' ⟨desk.orders.upsert new, applier, desk.store.upsert new⟩
      ∧ FillsKept desk.orders.rows (desk.orders.upsert new).rows
      ∧ FillsKept desk.store.rows (desk.store.upsert new).rows := by
  have hbelow : Below known' desk.orders.rows :=
    fun old hold => Int64.le_trans (hholds.below old hold) (hgrows _)
  -- the one local order with this ref is the one that is replaced
  have hheld : ∀ old ∈ desk.orders.rows, old.intent.clientRef = new.intent.clientRef →
      old.filledQty ≤ new.filledQty := by
    intro old hold hsame
    have hone : desk.orders.find clientRef = some old :=
      Table.find_eq_some_iff.mpr ⟨hold, by rw [hsame, href, (Table.mem_of_find hfind).2]⟩
    obtain rfl := Option.some.inj (hone.symm.trans hfind)
    exact hraised
  have hwritten : ∀ old ∈ desk.store.rows, old.intent.clientRef = new.intent.clientRef →
      old.filledQty ≤ new.filledQty := by
    intro old hold hsame
    obtain ⟨ours, hours, hoursRef, hle⟩ := hholds.behind old hold
    exact Int64.le_trans hle (hheld ours hours (hoursRef.trans hsame))
  exact ⟨⟨below_upsert hbelow hknown, hholds.behind.upsert new⟩, fillsKept_upsert hheld,
    fillsKept_upsert hwritten⟩

theorem resolve_kept {rows : List ReadRow} {clientRef : Bytes} {upsertFailure : Option Error}
    (hholds : Holds known desk)
    (h : Along learn Meets known (desk.resolvedBy rows clientRef upsertFailure).toList) :
    StepKept known desk (desk.resolveOrder ⟨.ok (rows.map (·.order)), upsertFailure⟩ clientRef)
      (desk.resolvedBy rows clientRef upsertFailure).toList := by
  unfold Desk.resolvedBy Desk.resolveOrder at *
  cases hfind : desk.orders.find clientRef with
  | none => exact .idle hholds
  | some order =>
  have hbelow := hholds.below order (Table.mem_of_find hfind).1
  simp only [hfind] at h ⊢
  -- without a match nothing is written
  cases hmatched : (classify order (rows.map (·.order))).matched with
  | none =>
    simp only [resolve, hmatched]
    exact ⟨⟨hholds.below, hholds.behind⟩, by simp, .refl _, .refl _⟩
  | some matched =>
    obtain ⟨row, hrow, rfl⟩ := exists_matchedRow hmatched
    simp only [hmatched, hrow, Option.map_some, Option.toList_some] at h ⊢
    obtain ⟨⟨hc, hh⟩, -⟩ := along_cons.mp h
    cases upsertFailure with
    | some error =>
      -- nothing is written, only the engine has moved
      simp only [resolve, hmatched, UnknownResolver.adopt, Store.upsertOrder]
      exact ⟨⟨hholds.below.learn hc, hholds.behind⟩,
        List.forall_mem_singleton.mpr fun htaken => absurd htaken Bool.false_ne_true,
        .refl _, .refl _⟩
    | none =>
      simp only [resolve, hmatched, UnknownResolver.adopt, Store.upsertOrder, Applied.upserted]
        at hc hh ⊢
      obtain ⟨hraised, hknown⟩ := apply_raises
        (UnknownResolver.viewOf desk.applier.engine order row.order) rfl hbelow hc hh
      rw [← adopted_filledQty] at hraised hknown
      have href : (adopted desk.applier.engine order row.order).intent.clientRef
          = order.intent.clientRef := by rw [adopted_intent]
      rw [← href] at hknown
      obtain ⟨hholds', hheld, hwritten⟩ := upsert_kept hholds (learn_grows hc) hfind href hraised
        hknown { desk.applier with
          engine := (desk.applier.engine.apply order
            (UnknownResolver.viewOf desk.applier.engine order row.order)).2.2 }
      have hrowwise := fun htaken => (taken_raises (a := seenBy desk.applier.engine order row
        (UnknownResolver.viewOf desk.applier.engine order row.order)) hbelow hc hh htaken).1
      exact ⟨hholds', List.forall_mem_singleton.mpr hrowwise, hheld, hwritten⟩

/-! ## Runs -/

theorem applied_nil {e : Event} (h : e.adapter.read e.payload = []) : desk.applied e = [] := by
  obtain ⟨adapter, payload, path⟩ := e
  have hrows : adapter.read payload = [] := h
  cases path with
  | apply orderingKey => simp only [Desk.applied, hrows, appliedTo]
  | resolve clientRef upsertFailure =>
    simp only [Desk.applied, hrows, Desk.resolvedBy]
    split
    · rfl
    · split <;> rfl

/-- **What one event keeps.** -/
theorem step_kept (hholds : Holds known desk) (e : Event)
    (h : Along learn Meets known (desk.applied e)) :
    StepKept known desk (desk.step e) (desk.applied e) := by
  obtain ⟨adapter, payload, path⟩ := e
  cases hfetch : adapter.fetchOrders payload with
  | error error =>
    -- what was not fetched has no rows
    rw [applied_nil (Adapter.read_error hfetch), Desk.step, hfetch]
    exact .idle hholds
  | ok orders =>
    obtain rfl := Adapter.orders_read hfetch
    unfold Desk.applied Desk.step at *
    rw [hfetch]
    cases path with
    | apply orderingKey =>
      obtain ⟨hbelow, hheld, hrowwise⟩ := snapshot_kept (adapter.read payload) hholds.below h
      -- `apply` fetches nothing itself: its orders are the fold over the rows
      have horders := apply_orders desk.applier
        ⟨(adapter.read payload).map (·.order), orderingKey⟩ desk.orders.rows
      rw [ReconcileApplier.feedRows] at horders
      rw [← horders] at hbelow hheld
      exact ⟨⟨hbelow, hholds.behind.trans hheld⟩, hrowwise, hheld, .refl _⟩
    | resolve clientRef upsertFailure => exact resolve_kept hholds h

theorem trace_append (front back : List Event) :
    desk.trace (front ++ back) = desk.trace front ++ (run Desk.step desk front).trace back := by
  induction front generalizing desk with
  | nil => rfl
  | cons e front ih =>
    rw [List.cons_append, Desk.trace, Desk.trace, ih, List.append_assoc, run_cons]

theorem run_holds (hholds : Holds known desk) {events : List Event}
    (h : Along learn Meets known (desk.trace events)) :
    Holds (run learn known (desk.trace events)) (run Desk.step desk events) := by
  induction events generalizing desk known with
  | nil => exact hholds
  | cons e events ih =>
    obtain ⟨hfirst, hrest⟩ := along_append.mp h
    rw [Desk.trace, run_append, run_cons]
    exact ih (step_kept hholds e hfirst).holds hrest

theorem holds_load (store : Store) (applier : ReconcileApplier) :
    Holds (Desk.load store applier).known (Desk.load store applier) where
  below := by
    intro order horder
    have hfind : store.find order.intent.clientRef = some order :=
      Table.find_eq_some_iff.mpr ⟨horder, rfl⟩
    simp only [Desk.known, Desk.load, hfind, Option.map_some, Option.getD_some]
    exact Int64.le_refl _
  behind := .refl _

/-- **No fill is lost.** The local orders are loaded from the store, and payloads are read by either
adapter and applied to them on either path. When every readable row reports a cumulative fill, and
every unreadable row that is taken is harmless, no event lowers the fill of an order, in memory or
in the store. -/
theorem fills_never_decrease (store : Store) (applier : ReconcileApplier) (events : List Event)
    (hcumulative : Along learn Cumulative (Desk.load store applier).known
      ((Desk.load store applier).trace events))
    (hharmless : Along learn Harmless (Desk.load store applier).known
      ((Desk.load store applier).trace events)) :
    ∀ front e back, events = front ++ e :: back →
      (∀ a ∈ (run Desk.step (Desk.load store applier) front).applied e, a.taken = true →
          a.order.filledQty ≤ a.row.fill)
        ∧ FillsKept (run Desk.step (Desk.load store applier) front).orders.rows
          (run Desk.step (Desk.load store applier) (front ++ [e])).orders.rows
        ∧ FillsKept (run Desk.step (Desk.load store applier) front).store.rows
          (run Desk.step (Desk.load store applier) (front ++ [e])).store.rows := by
  intro front e back hsplit
  have hmeets : Along learn Meets (Desk.load store applier).known
      ((Desk.load store applier).trace events) :=
    fun before a after h => ⟨hcumulative before a after h, hharmless before a after h⟩
  rw [hsplit, trace_append, along_append] at hmeets
  obtain ⟨hfront, hback⟩ := hmeets
  have hkept := step_kept (run_holds (holds_load store applier) hfront) e
    (along_append.mp hback).1
  rw [run_concat]
  exact ⟨hkept.rowwise, hkept.held, hkept.written⟩

/-! An order of 50 on Kotak, 30 of them filled; rows with the fill and its price, without the price
and without either, and the whole fill. -/

namespace KnownFill

def openOrder : Order :=
  ⟨⟨ascii "s-1", ascii "INFY", .buy, 50, 0, none, .market, .intraday, ascii "s"⟩, .unknown,
    ascii "B1", 0, 0⟩

def loaded : Desk := .load (Table.empty.upsert openOrder) (.create .init)

/-- A payload with the one row of the order. -/
def payload (status : String) (fields : List (String × String)) : Result Json.Value :=
  .ok (.array [.object ((("nOrdNo", "B1") :: ("qty", "50") :: ("ordSt", status) :: fields).map
    fun field => (ascii field.1, .string (ascii field.2)))])

def reading (payload : Result Json.Value) (path : Path) : Event :=
  ⟨.kotak ⟨fun _ => none, [], []⟩, payload, path⟩

def partlyFilled : Result Json.Value := payload "open" [("fldQty", "30"), ("avgPrc", "100")]

def unpriced : Result Json.Value := payload "open" [("fldQty", "30")]

def unread : Result Json.Value := payload "open" []

def whole : Result Json.Value := payload "complete" [("fldQty", "50"), ("avgPrc", "101")]

def resolving (payload : Result Json.Value) : Event :=
  reading payload (.resolve (ascii "s-1") none)

def harmlessRun : List Event :=
  [resolving partlyFilled, reading unpriced (.apply 5), resolving whole]

theorem fills_never_decrease_harmless :
    FillsKept (run Desk.step loaded (harmlessRun.take 2)).orders.rows
        (run Desk.step loaded harmlessRun).orders.rows
      ∧ FillsKept (run Desk.step loaded (harmlessRun.take 2)).store.rows
        (run Desk.step loaded harmlessRun).store.rows :=
  (fills_never_decrease (Table.empty.upsert openOrder) (.create .init) harmlessRun
    (by decide +kernel) (by decide +kernel) (harmlessRun.take 2) (resolving whole) [] rfl).2

def erasingRun : List Event :=
  [resolving partlyFilled, reading unread (.apply 5), resolving unread]

/-- The fills that are held and those that are written. -/
def fills (desk : Desk) : List Quantity × List Quantity :=
  (desk.orders.rows.map (·.filledQty), desk.store.rows.map (·.filledQty))

theorem unread_fill_erases :
    Along learn Cumulative loaded.known (loaded.trace erasingRun)
      ∧ fills (run Desk.step loaded (erasingRun.take 1)) = ([30], [30])
      ∧ fills (run Desk.step loaded (erasingRun.take 2)) = ([0], [30])
      ∧ fills (run Desk.step loaded erasingRun) = ([0], [0]) := by
  decide +kernel

end KnownFill

end BrokerExec.Runtime
