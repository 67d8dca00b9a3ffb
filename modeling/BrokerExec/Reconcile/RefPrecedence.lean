import BrokerExec.Lib.Run
import BrokerExec.Reconcile.Agreement
import Mathlib.Data.List.Nodup

/-!
# Which order a row is fed to (`reconcile/reconciler.cpp`)

`same_order` calls the client ref the primary key and the broker id the fallback, but the scan
takes the first local order that matches either way: an order listed earlier that carries the
row's broker id takes the view from the order whose client ref the row echoes.

* **`matchOf_eq_some_iff`** — the order a row is matched to;
* **`refFirst_iff`** — one row goes by its client ref exactly when no order in front of the one
  with that ref has the row's broker id;
* **`reconcilesByRef_iff`** — a snapshot does exactly when each of its rows does.
-/

namespace BrokerExec.Reconcile

open BrokerExec.Domain (Order)
open BrokerExec.Lifecycle
open BrokerExec.Ports (Alert)

/-! ## The property and the condition -/

/-- The client refs identify the local orders. -/
structure DistinctRefs (orders : List Order) : Prop where
  nodup : (orders.map (·.intent.clientRef)).Nodup
  nonempty : ∀ order ∈ orders, order.intent.clientRef ≠ []

/-- The row's view is fed to the order at this position and to nothing else: the other orders
stay, and the engine moves as far as that order's view takes it. -/
structure FeedsOnly (stale : Bool) (orderingKey : Int64) (st : Reconciling) (row : Order) (i : Nat)
    (order : Order) : Prop where
  matched : matchOf st.orders row = some (i, order)
  orders : (stepRow stale orderingKey st row).orders
    = st.orders.set i (st.engine.apply order (viewOf orderingKey order row)).2.1
  engine : (stepRow stale orderingKey st row).engine
    = (st.engine.apply order (viewOf orderingKey order row)).2.2

/-- Both have the row's broker id, and there is one. -/
def HasId (order row : Order) : Prop :=
  order.brokerOrderId ≠ [] ∧ order.brokerOrderId = row.brokerOrderId

instance (order row : Order) : Decidable (HasId order row) :=
  inferInstanceAs (Decidable (_ ∧ _))

/-- **The client ref is the primary key** for this row: the order with its client ref is fed
and no other; only where there is none, one with its broker id. -/
structure RefFirst (stale : Bool) (orderingKey : Int64) (st : Reconciling) (row : Order) :
    Prop where
  byRef : ∀ i order, st.orders[i]? = some order →
    order.intent.clientRef = row.intent.clientRef → FeedsOnly stale orderingKey st row i order
  byId : (∀ order ∈ st.orders, order.intent.clientRef ≠ row.intent.clientRef) →
    ∀ i order, matchOf st.orders row = some (i, order) → HasId order row
  fallback : (∀ order ∈ st.orders, order.intent.clientRef ≠ row.intent.clientRef) →
    (∃ order ∈ st.orders, HasId order row) →
    ∃ i order, FeedsOnly stale orderingKey st row i order

/-- The local orders `apply` reports as vanished. -/
def ReconcileApplier.vanished (applier : ReconcileApplier) (result : ReconcileResult)
    (orders : List Order) : List Order :=
  if applier.isStale result then []
  else (applier.feedRows result orders).orders.filter (hasVanished result.orders)

/-- **The client ref is the primary key** over a whole `apply`: of every row, at the state it
finds, and of the orders reported as vanished. -/
structure ReconcilesByRef (applier : ReconcileApplier) (result : ReconcileResult)
    (orders : List Order) : Prop where
  feeds : Along (stepRow (applier.isStale result) result.orderingKey)
    (RefFirst (applier.isStale result) result.orderingKey)
    ⟨orders, applier.engine, .init, []⟩ result.orders
  vanished : ∀ order ∈ applier.vanished result orders,
    (∀ row ∈ result.orders, row.intent.clientRef ≠ order.intent.clientRef)
      ∧ ∀ row ∈ result.orders,
        (∀ other ∈ orders, other.intent.clientRef ≠ row.intent.clientRef) →
        row.brokerOrderId ≠ order.brokerOrderId

/-- **The condition** on one row and the orders it finds: none in front of the order with its
client ref has its broker id. -/
def RefBeforeId (st : Reconciling) (row : Order) : Prop :=
  ∀ i order, st.orders[i]? = some order → order.intent.clientRef = row.intent.clientRef →
    ∀ other ∈ st.orders.take i, ¬ HasId other row

/-! ## The match -/

/-- **The first order that matches either way.** -/
theorem matchOf_eq_some_iff {orders : List Order} {row order : Order} {i : Nat} :
    matchOf orders row = some (i, order)
      ↔ orders[i]? = some order ∧ sameOrder order row = true
        ∧ ∀ other ∈ orders.take i, sameOrder other row = false := by
  induction orders generalizing i with
  | nil => simp [matchOf]
  | cons head orders ih =>
    rw [matchOf]
    cases hsame : sameOrder head row with
    | true =>
      cases i with
      | zero =>
        rw [if_pos rfl]
        constructor
        · intro h
          obtain ⟨-, rfl⟩ := Prod.mk.inj (Option.some.inj h)
          exact ⟨rfl, hsame, by simp⟩
        · rintro ⟨hget, -, -⟩
          rw [Option.some.inj hget]
      | succ i =>
        rw [if_pos rfl]
        constructor
        · intro h
          cases (Prod.mk.inj (Option.some.inj h)).1
        · rintro ⟨-, -, hnone⟩
          have hhead := hnone head (by simp)
          rw [hsame] at hhead
          cases hhead
    | false =>
      rw [if_neg (by simp)]
      cases i with
      | zero =>
        constructor
        · intro h
          obtain ⟨found, -, heq⟩ := Option.map_eq_some_iff.mp h
          cases (Prod.mk.inj heq).1
        · rintro ⟨hget, hmatch, -⟩
          rw [← Option.some.inj hget, hsame] at hmatch
          cases hmatch
      | succ i =>
        have hnext : (matchOf orders row).map (fun found => (found.1 + 1, found.2))
            = some (i + 1, order) ↔ matchOf orders row = some (i, order) := by
          rw [Option.map_eq_some_iff]
          constructor
          · rintro ⟨⟨j, found⟩, hfound, heq⟩
            obtain ⟨hj, rfl⟩ := Prod.mk.inj heq
            obtain rfl := Nat.succ.inj hj
            exact hfound
          · intro h
            exact ⟨_, h, rfl⟩
        rw [hnext, ih]
        simp [hsame]

theorem matchOf_isSome {orders : List Order} {row order : Order} (hmem : order ∈ orders)
    (hsame : sameOrder order row = true) : ∃ i found, matchOf orders row = some (i, found) := by
  induction orders with
  | nil => simp at hmem
  | cons head orders ih =>
    rw [matchOf]
    split_ifs with hhead
    · exact ⟨0, head, rfl⟩
    · rcases List.mem_cons.mp hmem with rfl | hmem
      · exact absurd hsame hhead
      · obtain ⟨i, found, hfound⟩ := ih hmem
        exact ⟨i + 1, found, by rw [hfound]; rfl⟩

theorem feedsOnly_iff {stale : Bool} {orderingKey : Int64} {st : Reconciling} {row order : Order}
    {i : Nat} :
    FeedsOnly stale orderingKey st row i order ↔ matchOf st.orders row = some (i, order) := by
  refine ⟨fun h => h.matched, fun hmatch => ⟨hmatch, ?_, ?_⟩⟩
  · rw [stepRow_orders, hmatch]
  · unfold stepRow
    rw [hmatch]
    dsimp only
    split_ifs
    · rfl
    · rfl

theorem sameOrder_iff {ours broker : Order} (href : ours.intent.clientRef ≠ []) :
    sameOrder ours broker = true
      ↔ ours.intent.clientRef = broker.intent.clientRef ∨ HasId ours broker := by
  simp [sameOrder, HasId, href]

/-! ## One row -/

/-- No order in front of another has its ref. -/
theorem DistinctRefs.front_ne {orders : List Order} (h : DistinctRefs orders) {i : Nat}
    {order : Order} (hget : orders[i]? = some order) :
    ∀ other ∈ orders.take i, other.intent.clientRef ≠ order.intent.clientRef := by
  intro other hother hsame
  have hbehind : order ∈ orders.drop i := by
    rw [List.mem_iff_getElem?]
    exact ⟨0, by rw [List.getElem?_drop]; exact hget⟩
  have hnodup := h.nodup
  rw [← List.take_append_drop i orders, List.map_append] at hnodup
  exact List.disjoint_of_nodup_append hnodup (List.mem_map_of_mem hother)
    (List.mem_map.mpr ⟨order, hbehind, hsame.symm⟩)

/-- **One row goes by its client ref** exactly under the condition. -/
theorem refFirst_iff {st : Reconciling} (h : DistinctRefs st.orders) (stale : Bool)
    (orderingKey : Int64) (row : Order) :
    RefFirst stale orderingKey st row ↔ RefBeforeId st row := by
  constructor
  · rintro ⟨hbyRef, -, -⟩ i order hget href other hother hid
    have hmatch := (hbyRef i order hget href).matched
    obtain ⟨-, -, hnone⟩ := matchOf_eq_some_iff.mp hmatch
    have hmiss := hnone other hother
    rw [(sameOrder_iff (h.nonempty other (List.mem_of_mem_take hother))).mpr (.inr hid)] at hmiss
    cases hmiss
  · intro hfront
    refine ⟨fun i order hget href => ?_, fun hnone i order hmatch => ?_, fun hnone => ?_⟩
    · have hmem := List.mem_of_getElem? hget
      rw [feedsOnly_iff, matchOf_eq_some_iff]
      refine ⟨hget, (sameOrder_iff (h.nonempty order hmem)).mpr (.inl href), fun other hother => ?_⟩
      -- neither its ref nor its id is the row's
      rw [← Bool.not_eq_true, sameOrder_iff (h.nonempty other (List.mem_of_mem_take hother))]
      rintro (hsame | hid)
      · exact h.front_ne hget other hother (hsame.trans href.symm)
      · exact hfront i order hget href other hother hid
    · obtain ⟨hget, hsame, -⟩ := matchOf_eq_some_iff.mp hmatch
      have hmem := List.mem_of_getElem? hget
      rcases (sameOrder_iff (h.nonempty order hmem)).mp hsame with href | hid
      · exact absurd href (hnone order hmem)
      · exact hid
    · rintro ⟨order, hmem, hid⟩
      have hsame := (sameOrder_iff (h.nonempty order hmem)).mpr (.inr hid)
      obtain ⟨i, found, hmatch⟩ := matchOf_isSome hmem hsame
      exact ⟨i, found, feedsOnly_iff.mpr hmatch⟩

/-! ## A snapshot -/

theorem stepRow_refs (stale : Bool) (orderingKey : Int64) (st : Reconciling) (row : Order) :
    (stepRow stale orderingKey st row).orders.map (·.intent.clientRef)
      = st.orders.map (·.intent.clientRef) := by
  rw [stepRow_orders]
  cases hmatch : matchOf st.orders row with
  | none => rfl
  | some found =>
    obtain ⟨i, order⟩ := found
    obtain ⟨hget, -⟩ := matchOf_eq_some hmatch
    show (st.orders.set i (st.engine.apply order (viewOf orderingKey order row)).2.1).map _ = _
    rw [List.map_set, apply_intent]
    apply List.ext_getElem?
    intro j
    rw [List.getElem?_set]
    split_ifs with hj hlt
    · rw [← hj, List.getElem?_map, hget]
      rfl
    · rw [← hj, List.getElem?_eq_none (Nat.le_of_not_lt hlt)]
    · rfl

/-- **The refs over a run.** -/
theorem run_refs (stale : Bool) (orderingKey : Int64) (st : Reconciling) (rows : List Order) :
    (run (stepRow stale orderingKey) st rows).orders.map (·.intent.clientRef)
      = st.orders.map (·.intent.clientRef) := by
  induction rows generalizing st with
  | nil => rfl
  | cons row rows ih => rw [run_cons, ih, stepRow_refs]

theorem DistinctRefs.congr {orders orders' : List Order} (h : DistinctRefs orders)
    (hrefs : orders'.map (·.intent.clientRef) = orders.map (·.intent.clientRef)) :
    DistinctRefs orders' := by
  refine ⟨hrefs ▸ h.nodup, fun order hmem => ?_⟩
  have hkey : order.intent.clientRef ∈ orders.map (·.intent.clientRef) := by
    rw [← hrefs]
    exact List.mem_map_of_mem hmem
  obtain ⟨before, hbefore, hsame⟩ := List.mem_map.mp hkey
  rw [← hsame]
  exact h.nonempty before hbefore

/-- The alerts of `apply` are those of its rows and one for each order reported as vanished. -/
theorem apply_alerts (applier : ReconcileApplier) (result : ReconcileResult)
    (orders : List Order) :
    (applier.apply result orders).1.alerts
      = (applier.feedRows result orders).alerts
        ++ (applier.vanished result orders).map fun order =>
          ⟨.warning, ascii "reconcile: local order missing from broker snapshot",
            provenanceOf order⟩ := by
  have hfold : ∀ (locals : List Order) (st : Reconciling),
      (locals.foldl (fun st order =>
        if hasVanished result.orders order then
          st.mismatch (ascii "reconcile: local order missing from broker snapshot") order
        else st) st).alerts
        = st.alerts ++ (locals.filter (hasVanished result.orders)).map fun order =>
          ⟨.warning, ascii "reconcile: local order missing from broker snapshot",
            provenanceOf order⟩ := by
    intro locals
    induction locals with
    | nil => simp
    | cons order locals ih =>
      intro st
      rw [List.foldl_cons, ih]
      cases hvanished : hasVanished result.orders order with
      | true => simp [hvanished, Reconciling.mismatch]
      | false => simp [hvanished]
  rw [ReconcileApplier.apply, ReconcileApplier.vanished]
  dsimp only
  split_ifs
  · simp
  · exact hfold _ _

/-- A vanished order has neither its ref nor its id on any row. -/
theorem vanished_absent {applier : ReconcileApplier} {result : ReconcileResult}
    {orders : List Order} (h : DistinctRefs orders) {order : Order}
    (hmem : order ∈ applier.vanished result orders) :
    ∀ row ∈ result.orders, row.intent.clientRef ≠ order.intent.clientRef
      ∧ row.brokerOrderId ≠ order.brokerOrderId := by
  rw [ReconcileApplier.vanished] at hmem
  split_ifs at hmem
  · simp at hmem
  obtain ⟨hfed, hvanished⟩ := List.mem_filter.mp hmem
  have href := (h.congr (run_refs _ _ _ _)).nonempty order hfed
  simp only [hasVanished, Bool.and_eq_true, decide_eq_true_eq, Bool.not_eq_true',
    List.any_eq_false] at hvanished
  obtain ⟨⟨-, hid⟩, habsent⟩ := hvanished
  intro row hrow
  have hmiss := habsent row hrow
  rw [sameOrder_iff href, not_or] at hmiss
  exact ⟨fun hsame => hmiss.1 hsame.symm, fun hsame => hmiss.2 ⟨hid, hsame.symm⟩⟩

/-- **When reconciliation goes by client ref**, for all local orders with distinct client refs:
exactly when no row finds an order with its broker id in front of the one with its ref. -/
theorem reconcilesByRef_iff (applier : ReconcileApplier) (result : ReconcileResult)
    (orders : List Order) (h : DistinctRefs orders) :
    ReconcilesByRef applier result orders
      ↔ Along (stepRow (applier.isStale result) result.orderingKey) RefBeforeId
          ⟨orders, applier.engine, .init, []⟩ result.orders := by
  have hstep : ∀ front row, RefFirst (applier.isStale result) result.orderingKey
        (run (stepRow (applier.isStale result) result.orderingKey)
          ⟨orders, applier.engine, .init, []⟩ front) row
      ↔ RefBeforeId (run (stepRow (applier.isStale result) result.orderingKey)
          ⟨orders, applier.engine, .init, []⟩ front) row := fun front row =>
    refFirst_iff (h.congr (run_refs _ _ _ _)) _ _ row
  constructor
  · rintro ⟨hfeeds, -⟩ front row back hsplit
    exact (hstep front row).mp (hfeeds front row back hsplit)
  · intro hcondition
    refine ⟨fun front row back hsplit => (hstep front row).mpr (hcondition front row back hsplit),
      fun order hmem => ?_⟩
    have habsent := vanished_absent h hmem
    exact ⟨fun row hrow => (habsent row hrow).1, fun row hrow _ => (habsent row hrow).2⟩

/-! Two orders `s-1` and `s-2` of 10, of which `s-1` has taken the broker id of `s-2`. -/

def heldOrder (clientRef brokerOrderId : Bytes) (state : Domain.OrderState) (filledQty : Int64) :
    Order :=
  ⟨⟨clientRef, ascii "NIFTY", .buy, 10, 100, none, .limit, .intraday, ascii "s"⟩, state,
    brokerOrderId, filledQty, 100⟩

def twoOrders : List Order :=
  [heldOrder (ascii "s-1") (ascii "B2") .acknowledged 0, heldOrder (ascii "s-2") [] .sent 0]

/-- The row of `s-2`, filled. -/
def filledRow : Order := heldOrder (ascii "s-2") (ascii "B2") .filled 10

def newApplier : ReconcileApplier := .create .init

theorem distinctRefs_twoOrders : DistinctRefs twoOrders := ⟨by decide, by decide⟩

theorem reconcilesByRef_iff_two_orders :
    DistinctRefs twoOrders
      ∧ (ReconcilesByRef newApplier ⟨[filledRow], 1⟩ twoOrders
        ↔ Along (stepRow (newApplier.isStale ⟨[filledRow], 1⟩) 1) RefBeforeId
          ⟨twoOrders, newApplier.engine, .init, []⟩ [filledRow]) :=
  ⟨distinctRefs_twoOrders, reconcilesByRef_iff newApplier ⟨[filledRow], 1⟩ twoOrders
    distinctRefs_twoOrders⟩

/-- **The fill of `s-2` is booked on `s-1`**, which carries its broker id and is listed first. -/
theorem fill_booked_by_id :
    DistinctRefs twoOrders
      ∧ (newApplier.apply ⟨[filledRow], 1⟩ twoOrders).1.orders
        = [heldOrder (ascii "s-1") (ascii "B2") .filled 10, heldOrder (ascii "s-2") [] .sent 0]
      ∧ ¬ ReconcilesByRef newApplier ⟨[filledRow], 1⟩ twoOrders := by
  refine ⟨distinctRefs_twoOrders, by decide, fun h => ?_⟩
  have hrow := (h.feeds [] filledRow [] rfl).byRef 1 (heldOrder (ascii "s-2") [] .sent 0) rfl rfl
  have hfirst : matchOf twoOrders filledRow
      = some (0, heldOrder (ascii "s-1") (ascii "B2") .acknowledged 0) := by decide
  have hmatch : matchOf twoOrders filledRow = some (1, heldOrder (ascii "s-2") [] .sent 0) :=
    hrow.matched
  rw [hfirst] at hmatch
  cases hmatch

end BrokerExec.Reconcile
