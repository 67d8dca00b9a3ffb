import BrokerExec.Lifecycle
import BrokerExec.Ports

/-!
# Reconciliation (`reconcile/reconciler.cpp`)

`ReconcileApplier::apply` folds one broker snapshot into the local orders: every row is
matched to a local order and fed to the lifecycle engine, and what cannot be matched, was
refused or has vanished is counted as a mismatch with an alert.

The fold is explicit: `Reconciling` is its state, `stepRow` one row.
-/

namespace BrokerExec.Reconcile

open BrokerExec.Domain (Order OrderState)
open BrokerExec.Lifecycle (ApplyOutcome BrokerView LifecycleEngine isTerminal)
open BrokerExec.Ports (Alert AlertContext)

/-- The snapshot `apply` reads; trades, positions and funds are not read by it. -/
structure ReconcileResult where
  orders : List Order
  orderingKey : Int64

structure ReconcileOutcome where
  applied : Nat
  advanced : Nat
  droppedStale : Nat
  mismatches : Nat
  blockNewOrders : Bool
  deriving DecidableEq

def ReconcileOutcome.init : ReconcileOutcome := ⟨0, 0, 0, 0, false⟩

/-- `same_order`: the client refs match or, failing that, the broker ids; empty never matches. -/
def sameOrder (ours broker : Order) : Bool :=
  (ours.intent.clientRef ≠ [] && ours.intent.clientRef = broker.intent.clientRef)
    || (ours.brokerOrderId ≠ [] && ours.brokerOrderId = broker.brokerOrderId)

def provenanceOf (order : Order) : AlertContext :=
  ⟨order.intent.clientRef, order.brokerOrderId, order.intent.strategy, order.intent.symbol⟩

def contradictionBody (believed observed : OrderState) : Bytes :=
  ascii "reconcile: broker contradicts local order state (local=" ++ believed.toString
    ++ ascii " broker=" ++ observed.toString ++ ascii ")"

/-- The first local order that is the same as the row, with its position. -/
def matchOf : List Order → Order → Option (Nat × Order)
  | [], _ => none
  | order :: orders, row =>
    if sameOrder order row then some (0, order)
    else (matchOf orders row).map fun found => (found.1 + 1, found.2)

/-- The key of an order in the engine: its client ref, else its broker id. -/
def engineKey (order : Order) : Bytes :=
  if order.intent.clientRef ≠ [] then order.intent.clientRef else order.brokerOrderId

def viewOf (orderingKey : Int64) (matched row : Order) : BrokerView :=
  { clientRef := engineKey matched
    brokerOrderId := row.brokerOrderId
    observedState := row.state
    filledQty := row.filledQty
    avgPrice := row.avgPrice
    orderingKey := orderingKey }

/-- The engine refused broker truth that differs: a terminal order with other values, or a view
whose key did not land. -/
def contradicts (orderingKey : Int64) (believed row : Order) (outcome : ApplyOutcome)
    (keyAfter : Option Int64) : Bool :=
  match outcome with
  | .applied => false
  | .droppedStale => false
  | .droppedTerminal =>
    row.state ≠ believed.state || row.filledQty ≠ believed.filledQty
      || row.avgPrice ≠ believed.avgPrice
  | .noChange => keyAfter ≠ some orderingKey

def ReconcileOutcome.count (outcome : ReconcileOutcome) (applied : ApplyOutcome) :
    ReconcileOutcome :=
  { outcome with
    applied := outcome.applied + 1
    advanced := if applied = .applied then outcome.advanced + 1 else outcome.advanced
    droppedStale :=
      if applied = .droppedStale then outcome.droppedStale + 1 else outcome.droppedStale }

/-! ## The fold over the rows -/

structure Reconciling where
  orders : List Order
  engine : LifecycleEngine
  outcome : ReconcileOutcome
  alerts : List Alert

/-- Count a mismatch, block new orders and alert. -/
def Reconciling.mismatch (st : Reconciling) (message : Bytes) (order : Order) : Reconciling :=
  { st with
    outcome := { st.outcome with
      mismatches := st.outcome.mismatches + 1, blockNewOrders := true }
    alerts := st.alerts ++ [⟨.warning, message, provenanceOf order⟩] }

/-- The alert body of a contradiction. -/
def refusalBody (believed row : Order) : Bytes :=
  if row.state ≠ believed.state then contradictionBody believed.state row.state
  else ascii "reconcile: broker fill correction refused by a terminal local order"

/-- One row of the snapshot. -/
def stepRow (stale : Bool) (orderingKey : Int64) (st : Reconciling) (row : Order) : Reconciling :=
  match matchOf st.orders row with
  | none =>
    if stale then st else st.mismatch (ascii "reconcile: unmatched broker order") row
  | some (i, believed) =>
    let view := viewOf orderingKey believed row
    let (applied, order, engine) := st.engine.apply believed view
    let fed : Reconciling :=
      { st with
        orders := st.orders.set i order
        engine := engine
        outcome := st.outcome.count applied }
    if contradicts orderingKey believed row applied (engine.lastKey view.clientRef)
        && !stale && !st.engine.isStale view then
      fed.mismatch (refusalBody believed row) row
    else fed

/-- A row changes the order it is matched to, in its place, and no other. -/
theorem stepRow_orders (stale : Bool) (orderingKey : Int64) (st : Reconciling) (row : Order) :
    (stepRow stale orderingKey st row).orders =
      match matchOf st.orders row with
      | none => st.orders
      | some (i, believed) =>
        st.orders.set i (st.engine.apply believed (viewOf orderingKey believed row)).2.1 := by
  unfold stepRow
  cases matchOf st.orders row with
  | none =>
    dsimp only
    split_ifs <;> rfl
  | some found =>
    dsimp only
    split_ifs <;> rfl

/-- A live, acknowledged local order that no row of the snapshot is. -/
def hasVanished (rows : List Order) (order : Order) : Bool :=
  !isTerminal order.state && order.brokerOrderId ≠ [] && !rows.any (sameOrder order)

def checkVanished (rows : List Order) (st : Reconciling) : Reconciling :=
  st.orders.foldl
    (fun st order =>
      if hasVanished rows order then
        st.mismatch (ascii "reconcile: local order missing from broker snapshot") order
      else st) st

structure ReconcileApplier where
  engine : LifecycleEngine
  lastSnapshotKey : Int64

/-- A new applier on this engine. -/
def ReconcileApplier.create (engine : LifecycleEngine) : ReconcileApplier := ⟨engine, -1⟩

/-- The snapshot is not newer than one already applied. -/
def ReconcileApplier.isStale (applier : ReconcileApplier) (result : ReconcileResult) : Bool :=
  result.orderingKey ≤ applier.lastSnapshotKey

/-- The fold of one `apply`, before the check for vanished orders. -/
def ReconcileApplier.feedRows (applier : ReconcileApplier) (result : ReconcileResult)
    (orders : List Order) : Reconciling :=
  result.orders.foldl (stepRow (applier.isStale result) result.orderingKey)
    ⟨orders, applier.engine, .init, []⟩

/-- `ReconcileApplier::apply`: the state at its end and the applier behind it. -/
def ReconcileApplier.apply (applier : ReconcileApplier) (result : ReconcileResult)
    (orders : List Order) : Reconciling × ReconcileApplier :=
  let fed := applier.feedRows result orders
  let done := if applier.isStale result then fed else checkVanished result.orders fed
  (done,
    { engine := done.engine
      lastSnapshotKey :=
        if applier.isStale result then applier.lastSnapshotKey else result.orderingKey })

end BrokerExec.Reconcile
