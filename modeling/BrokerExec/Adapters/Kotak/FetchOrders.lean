import BrokerExec.Adapters.Kotak.SquareOff
import BrokerExec.Adapters.OrderView

/-!
# Kotak's order view (`adapters/kotak/kotak_broker_adapter.cpp`)

`fetchOrders` correlates the rows in two rungs, by id and by attributes, and publishes every row
with the state of its status, its fill and its total: `mapOrderState`, which the flatten uses too.

* **`readersAgree`** — the two agree on every row.
-/

namespace BrokerExec.Adapters.Kotak

open BrokerExec.Domain (Order OrderIntent OrderState Price)
open BrokerExec.Lifecycle (isTerminal)

/-! ## Correlating the rows -/

def RawOrder.attrKey (raw : RawOrder) : Bytes := attributeKey raw.symbol raw.side raw.quantity

/-- `unmatched_rows_per_key`: the rows with this key that the id does not correlate. -/
def KotakBrokerAdapter.unmatchedRows (st : KotakBrokerAdapter) (rows : List RawOrder)
    (key : Bytes) : Nat :=
  rows.countP fun raw => st.refForId raw.orderId = [] && raw.attrKey = key

/-- The pending intent with this key, when there is exactly one. -/
def KotakBrokerAdapter.soleRefForKey (st : KotakBrokerAdapter) (key : Bytes) : Option Bytes :=
  match st.pending.filter fun p => p.attrKey ≠ [] && p.attrKey = key with
  | [p] => some p.clientRef
  | _ => none

/-- Rung 2: a well-formed row and a pending intent that are alone with their key. -/
def KotakBrokerAdapter.corroborated (st : KotakBrokerAdapter) (rows : List RawOrder)
    (raw : RawOrder) : Option Bytes :=
  if st.refForId raw.orderId ≠ [] || raw.malformed || st.unmatchedRows rows raw.attrKey ≠ 1 then
    none
  else st.soleRefForKey raw.attrKey

def KotakBrokerAdapter.rowRef (st : KotakBrokerAdapter) (rows : List RawOrder) (raw : RawOrder) :
    Bytes :=
  if st.refForId raw.orderId ≠ [] then st.refForId raw.orderId
  else (st.corroborated rows raw).getD []

/-- The weak rung is consulted once: what it finds is anchored. -/
def KotakBrokerAdapter.anchorRows (st : KotakBrokerAdapter) (rows : List RawOrder) :
    KotakBrokerAdapter :=
  rows.foldl
    (fun anchored raw =>
      match st.corroborated rows raw with
      | some ref => anchored.anchor raw.orderId ref
      | none => anchored) st

/-! ## Publishing a row -/

/-- The fill was not read, or there is a fill without its price. -/
def RawOrder.fillUnreadable (raw : RawOrder) : Bool :=
  raw.filled.isNone || raw.filled.any (0 < ·) && raw.avgPaise.isNone

/-- The correlation tuple goes out with a ref only. -/
def publishedIntent (ref : Bytes) (raw : RawOrder) : OrderIntent :=
  let named := { blankIntent with clientRef := ref, symbol := raw.symbol }
  if ref = [] then named
  else
    { named with
      side := if raw.side = ascii "S" then .sell else .buy
      quantity := Int64.ofInt (raw.quantity.getD 0)
      price := Int64.ofInt (raw.pricePaise.getD 0)
      orderType := raw.orderType
      triggerPrice := if isStop raw.orderType then raw.triggerPaise.map Int64.ofInt else none }

def publishRow (ref : Bytes) (raw : RawOrder) : Order where
  intent := publishedIntent ref raw
  state :=
    if raw.malformed || raw.fillUnreadable then .unknown
    else mapOrderState raw.status (raw.filled.getD 0) raw.quantity
  brokerOrderId := raw.orderId
  filledQty := Int64.ofInt (raw.filled.getD 0)
  avgPrice := Int64.ofInt (raw.avgPaise.getD 0)

/-- `fetch_orders`: an answer that is no array is an empty book. -/
def KotakBrokerAdapter.fetchOrders (st : KotakBrokerAdapter) (payload : Result Json.Value) :
    Result (List Order) × KotakBrokerAdapter :=
  match payload with
  | .error error => (.error error, st)
  | .ok (.array elements) =>
    let rows := (objectRows elements).map readOrderRow
    (.ok (rows.map fun raw => publishRow (st.rowRef rows raw) raw), st.anchorRows rows)
  | .ok _ => (.ok [], st)

/-- The order of a row in a book that was fetched. -/
theorem order_of_fetchOrders {st : KotakBrokerAdapter} {elements : List Json.Value}
    {orders : List Order} (hfetch : (st.fetchOrders (.ok (.array elements))).1 = .ok orders)
    {row : List (Bytes × Json.Value)} {order : Order}
    (hrow : (row, order) ∈ (objectRows elements).zip orders) :
    ∃ ref, order = publishRow ref (readOrderRow row) := by
  obtain rfl := Except.ok.inj hfetch
  rw [List.map_map, ← List.map_prod_left_eq_zip, List.mem_map] at hrow
  obtain ⟨row', -, hpair⟩ := hrow
  obtain ⟨rfl, rfl⟩ := Prod.mk.inj hpair
  exact ⟨_, rfl⟩

/-! ## The two readings of a row -/

/-- What a row states. -/
def statedBy (row : List (Bytes × Json.Value)) : Stated := stated (fillOf row) (quantityOf row)

/-- The flatten accepts the row as its parent. -/
def KotakBrokerAdapter.Accepts (st : KotakBrokerAdapter) (brokerOrderId : Bytes)
    (elements : List Json.Value) (row : List (Bytes × Json.Value)) : Prop :=
  ∃ seen, st.assess brokerOrderId (.array elements) = .ok seen ∧ seen.parent = readOrderRow row

variable {st : KotakBrokerAdapter} {brokerOrderId : Bytes} {lower upper : Option Price}
  {answers : Answers} {seen : Assessment} {elements : List Json.Value}
  {row : List (Bytes × Json.Value)}

/-- With a known total, a known state is terminal exactly when nothing is left to cancel. -/
theorem isTerminal_mapOrderState {status : Bytes} {filled total : Int} (hfilled : 0 ≤ filled)
    (hknown : mapOrderState status filled (some total) ≠ .unknown) :
    isTerminal (mapOrderState status filled (some total)) = true ↔ Gone status filled total := by
  rw [mapOrderState_total status hfilled] at hknown ⊢
  unfold Gone
  cases hclass : classifyKotakStatus status with
  | unrecognized => simp [hclass] at hknown
  | rejected => simp [isTerminal]
  | cancelled => simp [isTerminal]
  | complete | working =>
    simp only [hclass, reduceCtorEq, false_or] at hknown ⊢
    split_ifs at hknown ⊢ <;> simp [isTerminal] <;> omega

/-- Settling cancels nothing. -/
theorem settle_cancelless (calls : KotakCalls) (placed : Result Json.Value) :
    ∃ more, (st.settle brokerOrderId lower upper seen calls placed).calls = calls ++ more
      ∧ Cancelless more := by
  have hsettled : Settlement st brokerOrderId lower upper seen calls placed
      (st.settle brokerOrderId lower upper seen calls placed) := settlement calls placed
  generalize st.settle brokerOrderId lower upper seen calls placed = flattened at hsettled ⊢
  cases hsettled with
  | flat | refused | covered => exact ⟨[], (List.append_nil calls).symm, by simp [Cancelless]⟩
  | sent side exchange => exact ⟨_, placeExit_calls _ _ _ _, by simp [Cancelless]⟩

/-- What the flatten makes of a parent: it cancels nothing exactly when the order is gone. -/
theorem cancelless_iff_gone (hread : answers.orders = .ok (.array elements))
    (h : st.Accepts brokerOrderId elements row) :
    ∃ filled total, (readOrderRow row).filled = some filled ∧ 0 ≤ filled
      ∧ (readOrderRow row).quantity = some total
      ∧ (Cancelless (st.squareOffBanded brokerOrderId lower upper answers).calls
        ↔ Gone (readOrderRow row).status filled total) := by
  obtain ⟨seen, hassess, hparent⟩ := h
  obtain ⟨elements', total, helements, hassessed⟩ := assess_ok_iff.mp hassess
  obtain rfl := Json.Value.array.inj helements
  have hnamed : brokerOrderId ≠ [] := by
    have hisParent := List.find?_some hassessed.found
    simp only [RawOrder.isParent, Bool.and_eq_true, decide_eq_true_eq] at hisParent
    exact hisParent.2 ▸ hisParent.1
  have hfilled := hassessed.filled
  have hquantity := hassessed.quantity
  have hterminal := hassessed.terminal
  rw [hparent] at hfilled hquantity hterminal
  refine ⟨seen.exitQty, total, hfilled, hassessed.exitQty_bound.1, hquantity, ?_⟩
  rw [KotakBrokerAdapter.squareOffBanded,
    flatten_cancelless_iff hnamed hread hassess fun calls => settle_cancelless calls _,
    hterminal, decide_eq_true_iff]

/-- A row is published as filled on a complete fill. -/
theorem complete_of_filled {ref : Bytes}
    (h : (publishRow ref (readOrderRow row)).state = .filled) : (statedBy row).Complete := by
  have hstate : (if (readOrderRow row).malformed || (readOrderRow row).fillUnreadable then .unknown
      else mapOrderState (readOrderRow row).status ((readOrderRow row).filled.getD 0)
        (readOrderRow row).quantity) = OrderState.filled := h
  split_ifs at hstate
  cases hvalue : (fillOf row).value? with
  | none =>
    have hfilled : (readOrderRow row).filled = none := by simp [readOrderRow, hvalue]
    rw [hfilled] at hstate
    exact absurd (filled_mapOrderState le_rfl hstate).1 (lt_irrefl 0)
  | some value =>
    have hfilled : (readOrderRow row).filled
        = some (clampFill (readTotal (quantityOf row)) value) := by simp [readOrderRow, hvalue]
    rw [hfilled] at hstate
    obtain ⟨hpositive, hcovers⟩ := filled_mapOrderState (clampFill_nonneg _ value) hstate
    obtain ⟨hvaluePositive, hle⟩ := clampFill_le_of_pos hpositive
    refine ⟨value, hvalue, hvaluePositive, fun total htotal => ?_⟩
    by_cases hnonneg : 0 ≤ total
    · have hread : readTotal (quantityOf row) = some total :=
        Option.filter_eq_some_iff.mpr ⟨htotal, by simpa using hnonneg⟩
      exact (hcovers total hread).trans hle
    · omega

/-- **The two readings agree** on every row, whatever its numbers look like. -/
theorem readersAgree {orders : List Order} {order : Order} {st' : KotakBrokerAdapter}
    (hfetch : (st'.fetchOrders (.ok (.array elements))).1 = .ok orders)
    (hrow : (row, order) ∈ (objectRows elements).zip orders)
    (hread : answers.orders = .ok (.array elements)) :
    ReadersAgree (statedBy row) order.state (st.Accepts brokerOrderId elements row)
      (st.squareOffBanded brokerOrderId lower upper answers).calls := by
  obtain ⟨ref, rfl⟩ := order_of_fetchOrders hfetch hrow
  refine ⟨complete_of_filled, fun haccepts hknown => ?_⟩
  obtain ⟨filled, total, hfilled, hnonneg, hquantity, hcalls⟩ := cancelless_iff_gone hread haccepts
  rw [hcalls]
  have hstate : (publishRow ref (readOrderRow row)).state = .unknown
      ∨ (publishRow ref (readOrderRow row)).state
        = mapOrderState (readOrderRow row).status filled (some total) := by
    simp only [publishRow, hfilled, hquantity, Option.getD_some]
    split_ifs
    · exact .inl rfl
    · exact .inr rfl
  rcases hstate with hunknown | hstate
  · exact absurd hunknown hknown
  · rw [hstate] at hknown ⊢
    exact isTerminal_mapOrderState hnonneg hknown

end BrokerExec.Adapters.Kotak
