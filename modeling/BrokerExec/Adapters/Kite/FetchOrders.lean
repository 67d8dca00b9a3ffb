import BrokerExec.Adapters.Kite.SquareOff
import BrokerExec.Adapters.OrderView

/-!
# Kite's order view (`adapters/kite/kite_broker_adapter.cpp`)

`fetchOrders` publishes a row with the state of its status alone; the flatten puts the same row's
status together with its fill and its total.

* **`readersAgree_iff`** — the two agree on a row exactly when its status says what its fill says.
-/

namespace BrokerExec.Adapters.Kite

open BrokerExec.Domain (Order OrderState OrderType Price)
open BrokerExec.Lifecycle (isTerminal)

/-! ## Publishing a row -/

/-- `json_trigger_paise`: a trigger that is not positive is none. -/
def jsonTriggerPaise (members : List (Bytes × Json.Value)) (key : Bytes) : Reading :=
  match jsonPaise members key with
  | .parsed paise => if 0 < paise then .parsed paise else .absent
  | reading => reading

def fillOf (row : List (Bytes × Json.Value)) : Reading := jsonInt row (ascii "filled_quantity")

def averageOf (row : List (Bytes × Json.Value)) : Reading := jsonPaise row (ascii "average_price")

def orderTypeOf (row : List (Bytes × Json.Value)) : Domain.OrderType :=
  parseOrderType (jsonStr row (ascii "order_type"))

/-- The trigger is read on a stop only. -/
def triggerOf (row : List (Bytes × Json.Value)) : Reading :=
  if isStop (orderTypeOf row) then jsonTriggerPaise row (ascii "trigger_price") else .absent

/-- One of the numbers that are published is garbage; the total is not among them. -/
def malformedRow (row : List (Bytes × Json.Value)) : Bool :=
  (fillOf row).malformed || (averageOf row).malformed || (triggerOf row).malformed

/-- A fill that is absent or garbage is published as 0. -/
def publishedFill (row : List (Bytes × Json.Value)) : Int :=
  let filled := (fillOf row).value?.getD 0
  if 0 < filled then filled else 0

def KiteBrokerAdapter.publishRow (st : KiteBrokerAdapter) (row : List (Bytes × Json.Value)) :
    Order :=
  let brokerOrderId := jsonStr row (ascii "order_id")
  { intent := { blankIntent with
      clientRef := st.recoverClientRef brokerOrderId (jsonStr row (ascii "tag"))
      symbol := jsonStr row (ascii "tradingsymbol")
      orderType := orderTypeOf row
      triggerPrice := (triggerOf row).value?.map Int64.ofInt }
    -- the status decides alone: neither the fill nor the total is asked
    state := if malformedRow row then .unknown else mapStatus (jsonStr row (ascii "status"))
    brokerOrderId := brokerOrderId
    filledQty := Int64.ofInt (publishedFill row)
    avgPrice := Int64.ofInt ((averageOf row).value?.getD 0) }

/-- `fetch_orders`: an answer that is no array is not an empty book. -/
def KiteBrokerAdapter.fetchOrders (st : KiteBrokerAdapter) (payload : Result Json.Value) :
    Result (List Order) :=
  match payload with
  | .error error => .error error
  | .ok (.array elements) => .ok ((objectRows elements).map st.publishRow)
  | .ok _ =>
    .error (unreadablePayloadError (ascii "kite: the orderbook payload was not an array")
      (ascii "KITE-ORDERS-SHAPE"))

/-- The order of a row in a book that was fetched. -/
theorem order_of_fetchOrders {st : KiteBrokerAdapter} {elements : List Json.Value}
    {orders : List Order} (hfetch : st.fetchOrders (.ok (.array elements)) = .ok orders)
    {row : List (Bytes × Json.Value)} {order : Order}
    (hrow : (row, order) ∈ (objectRows elements).zip orders) : order = st.publishRow row := by
  obtain rfl := Except.ok.inj hfetch
  rw [← List.map_prod_left_eq_zip, List.mem_map] at hrow
  obtain ⟨row', -, hpair⟩ := hrow
  obtain ⟨rfl, rfl⟩ := Prod.mk.inj hpair
  rfl

/-! ## The two readings of a row -/

/-- What a row states. -/
def statedBy (row : List (Bytes × Json.Value)) : Stated :=
  stated (fillOf row) (jsonInt row (ascii "quantity"))

/-- The flatten accepts the row as its parent. -/
def KiteBrokerAdapter.Accepts (st : KiteBrokerAdapter) (brokerOrderId : Bytes)
    (elements : List Json.Value) (row : List (Bytes × Json.Value)) : Prop :=
  ∃ seen, st.assess brokerOrderId (.array elements) = .ok seen ∧ seen.parent = readBrokerRow row

/-- The status says what the fill says: a complete row states a complete fill, and one that still
works, and that the flatten accepts, does not. -/
structure StatusTold (st : KiteBrokerAdapter) (brokerOrderId : Bytes) (elements : List Json.Value)
    (row : List (Bytes × Json.Value)) : Prop where
  complete : mapStatus (jsonStr row (ascii "status")) = .filled → (statedBy row).Complete
  working : mapStatus (jsonStr row (ascii "status")) = .sent →
    st.Accepts brokerOrderId elements row → ¬ (statedBy row).Complete

variable {st : KiteBrokerAdapter} {brokerOrderId : Bytes} {lower upper : Option Price}
  {answers : Answers} {seen : Assessment} {elements : List Json.Value}
  {row : List (Bytes × Json.Value)}

/-- Settling cancels nothing. -/
theorem settle_cancelless (calls : KiteCalls) (placed : Result Json.Value) :
    ∃ more, (st.settle brokerOrderId lower upper seen calls placed).calls = calls ++ more
      ∧ Cancelless more := by
  have hsettled : Settlement st brokerOrderId lower upper seen calls placed
      (st.settle brokerOrderId lower upper seen calls placed) := settlement calls placed
  generalize st.settle brokerOrderId lower upper seen calls placed = flattened at hsettled ⊢
  cases hsettled with
  | flat | judged => exact ⟨[], (List.append_nil calls).symm, by simp [Cancelless]⟩
  | sent side exchange => exact ⟨_, placeExit_calls _ _ _ _, by simp [Cancelless]⟩

/-- What the flatten makes of a parent: it cancels nothing exactly when the order is gone. -/
theorem cancelless_iff_gone (hread : answers.orders = .ok (.array elements))
    (h : st.Accepts brokerOrderId elements row) :
    ∃ total, readTotal (jsonInt row (ascii "quantity")) = some total
      ∧ (Cancelless (st.squareOffBanded brokerOrderId lower upper answers).calls
        ↔ Gone (readBrokerRow row) total) := by
  obtain ⟨seen, hassess, hparent⟩ := h
  obtain ⟨elements', total, helements, hassessed⟩ := assess_ok_iff.mp hassess
  obtain rfl := Json.Value.array.inj helements
  have hnamed : brokerOrderId ≠ [] := by
    have hisParent := hassessed.rows.1.2
    simp only [BrokerRow.isParent, Bool.and_eq_true, decide_eq_true_eq] at hisParent
    exact hisParent.2 ▸ hisParent.1
  have hquantity := hassessed.quantity
  rw [hparent] at hquantity
  refine ⟨total, hquantity, ?_⟩
  rw [KiteBrokerAdapter.squareOffBanded,
    flatten_cancelless_iff hnamed hread hassess fun calls => settle_cancelless calls _,
    hassessed.measures.2.1, decide_eq_true_iff, hparent]

/-- A parent with a status of its own is gone by that status or by its fill. -/
theorem gone_iff {total : Int} (h : readTotal (jsonInt row (ascii "quantity")) = some total) :
    Gone (readBrokerRow row) total ↔
      mapStatus (jsonStr row (ascii "status")) = .cancelled
        ∨ mapStatus (jsonStr row (ascii "status")) = .rejected ∨ (statedBy row).Complete := by
  have hfilled : (readBrokerRow row).filled
      = clampFill (some total) ((fillOf row).value?.getD 0) := by
    rw [← h]
    rfl
  rw [statedBy, complete_stated_iff h, ← hfilled]
  rfl

/-- **When the two readings agree.** A row whose published numbers are readable is read alike by
`fetch_orders` and by the flatten exactly when its status says what its fill says. -/
theorem readersAgree_iff {orders : List Order} {order : Order} {st' : KiteBrokerAdapter}
    (hfetch : st'.fetchOrders (.ok (.array elements)) = .ok orders)
    (hrow : (row, order) ∈ (objectRows elements).zip orders) (hreadable : malformedRow row = false)
    (hread : answers.orders = .ok (.array elements)) :
    ReadersAgree (statedBy row) order.state (st.Accepts brokerOrderId elements row)
        (st.squareOffBanded brokerOrderId lower upper answers).calls
      ↔ StatusTold st brokerOrderId elements row := by
  have hstate : order.state = mapStatus (jsonStr row (ascii "status")) := by
    rw [order_of_fetchOrders hfetch hrow]
    exact if_neg (by rw [hreadable]; exact Bool.false_ne_true)
  rw [hstate]
  constructor
  · intro h
    -- a working row with a complete fill is gone for the flatten and working for the view
    refine ⟨h.evidence, fun hworking haccepts hcomplete => ?_⟩
    obtain ⟨total, htotal, hcalls⟩ := cancelless_iff_gone hread haccepts
    have hterminal := (h.terminal haccepts (by simp [hworking])).mpr
      (hcalls.mpr ((gone_iff htotal).mpr (.inr (.inr hcomplete))))
    rw [hworking] at hterminal
    cases hterminal
  · intro h
    refine ⟨h.complete, fun haccepts hknown => ?_⟩
    obtain ⟨total, htotal, hcalls⟩ := cancelless_iff_gone hread haccepts
    rw [hcalls, gone_iff htotal]
    -- one case for each state that a status maps to
    rcases mapStatus_cases (jsonStr row (ascii "status")) with
      hfilled | hworking | hrejected | hcancelled | hunknown
    · simp [hfilled, isTerminal, h.complete hfilled]
    · simp [hworking, isTerminal, h.working hworking haccepts]
    · simp [hrejected, isTerminal]
    · simp [hcancelled, isTerminal]
    · exact absurd hunknown hknown

end BrokerExec.Adapters.Kite
