import BrokerExec.Adapters.BookReads
import BrokerExec.Adapters.Kotak.FetchOrders
import BrokerExec.Lib.FixedWidth
import BrokerExec.Risk.FundsView

/-!
# Kotak's trades, positions and funds (`adapters/kotak/kotak_broker_adapter.cpp`)

A payload without its container is read as an empty book, and funds that are no object as no
money at all; the net of a position is a sum of machine integers.

* **`ordersRead_iff`**, **`tradesRead_iff`**, **`positionsRead_iff`**, **`fundsRead_iff`** — when
  each read is faithful.
-/

namespace BrokerExec.Adapters.Kotak

open BrokerExec.Domain (Order Position Trade kInt64Max parseInt64_bound)
open BrokerExec.Risk (FundsSnapshot)

/-! ## Trades -/

/-- A trade with a number that cannot be read is reported, without its client ref. -/
def KotakBrokerAdapter.publishTrade (st : KotakBrokerAdapter) (row : List (Bytes × Json.Value)) :
    Trade :=
  let brokerOrderId := firstStr row ["nOrdNo", "nstOrdNo", "ordNo", "orderId"]
  let quantity := firstNumber row ["fldQty", "flQty", "qty", "trdQty"]
  let price := firstPaise row ["avgPrc", "flPrc", "prc", "trdPrc"]
  let qty := quantity.value?.getD 0
  { tradeId := firstStr row ["trdNo", "tradeId", "flId", "exTrdNo", "nOrdNo"]
    clientRef := if quantity.malformed || price.malformed then [] else st.refForId brokerOrderId
    brokerOrderId := brokerOrderId
    quantity := Int64.ofInt (if 0 < qty then qty else 0)
    price := Int64.ofInt (price.value?.getD 0) }

/-- `fetch_trades`: an answer that is no array is an empty book. -/
def KotakBrokerAdapter.fetchTrades (st : KotakBrokerAdapter) (payload : Result Json.Value) :
    Result (List Trade) :=
  match payload with
  | .error error => .error error
  | .ok (.array elements) => .ok ((objectRows elements).map st.publishTrade)
  | .ok _ => .ok []

/-! ## Positions -/

/-- The four buckets of a position: bought and sold, on the day and carried forward. -/
structure Buckets where
  dayBuy : Reading
  carriedBuy : Reading
  daySell : Reading
  carriedSell : Reading

def bucketsOf (row : List (Bytes × Json.Value)) : Buckets where
  dayBuy := firstNumber row ["flBuyQty", "buyQty"]
  carriedBuy := firstNumber row ["cfBuyQty"]
  daySell := firstNumber row ["flSellQty", "sellQty"]
  carriedSell := firstNumber row ["cfSellQty"]

def netPriceOf (row : List (Bytes × Json.Value)) : Reading := firstPaise row ["avgPrc", "avgPrice"]

def malformedPosition (row : List (Bytes × Json.Value)) : Bool :=
  let buckets := bucketsOf row
  buckets.dayBuy.malformed || buckets.carriedBuy.malformed || buckets.daySell.malformed
    || buckets.carriedSell.malformed || (netPriceOf row).malformed

/-- A bucket that is absent is empty. -/
def bucketQty (reading : Reading) : Int := reading.value?.getD 0

def publishPosition (row : List (Bytes × Json.Value)) : Position :=
  let buckets := bucketsOf row
  let buys := Int64.ofInt (bucketQty buckets.dayBuy) + Int64.ofInt (bucketQty buckets.carriedBuy)
  let sells :=
    Int64.ofInt (bucketQty buckets.daySell) + Int64.ofInt (bucketQty buckets.carriedSell)
  { symbol := firstStr row ["trdSym", "tsym", "sym"]
    netQty := buys - sells
    avgPrice := Int64.ofInt ((netPriceOf row).value?.getD 0) }

/-- `fetch_positions`: an answer that is no array is an empty book. -/
def fetchPositions (payload : Result Json.Value) : Result (List Position) :=
  match payload with
  | .error error => .error error
  | .ok (.array elements) =>
    if (objectRows elements).any malformedPosition then
      .error (unreadablePayloadError
        (ascii "kotak: positions payload carried an unparseable quantity or amount")
        (ascii "KOTAK-POSITIONS-MALFORMED"))
    else .ok ((objectRows elements).map publishPosition)
  | .ok _ => .ok []

/-! ## Funds -/

def availableOf (members : List (Bytes × Json.Value)) : Reading :=
  firstPaise members ["Net", "net", "availableMargin", "AvailableMargin"]

def usedOf (members : List (Bytes × Json.Value)) : Reading :=
  firstPaise members ["MarginUsed", "marginUsed", "UtilizedMargin", "utilizedMargin"]

/-- `fetch_funds`: an answer that is no object is an empty account. -/
def fetchFunds (payload : Result Json.Value) : Result FundsSnapshot :=
  match payload with
  | .error error => .error error
  | .ok (.object members) =>
    if (availableOf members).malformed || (usedOf members).malformed then
      .error (unreadablePayloadError (ascii "kotak: funds payload carried an unparseable amount")
        (ascii "KOTAK-FUNDS-MALFORMED"))
    else
      .ok ⟨Int64.ofInt ((availableOf members).value?.getD 0),
        Int64.ofInt ((usedOf members).value?.getD 0)⟩
  | .ok _ => .ok ⟨0, 0⟩

/-! ## The property and the conditions -/

/-- All that was bought and all that was sold, as the row states it. -/
def buysOf (row : List (Bytes × Json.Value)) : Int :=
  bucketQty (bucketsOf row).dayBuy + bucketQty (bucketsOf row).carriedBuy

def sellsOf (row : List (Bytes × Json.Value)) : Int :=
  bucketQty (bucketsOf row).daySell + bucketQty (bucketsOf row).carriedSell

/-- No sum on the way to the net leaves 64 bits, where a signed sum has no meaning. -/
def SumsFit (row : List (Bytes × Json.Value)) : Prop :=
  FitsInt64 (buysOf row) ∧ FitsInt64 (sellsOf row) ∧ FitsInt64 (buysOf row - sellsOf row)

/-- **The positions are a fact**: one for each row, with its buys minus its sells, computed
without an overflow. -/
structure PositionsRead (payload : Json.Value) : Prop where
  book : ReadsBook arrayOf payload (fetchPositions (.ok payload))
  exact : ∀ elements out, payload = .array elements → fetchPositions (.ok payload) = .ok out →
    ∀ row position, (row, position) ∈ (objectRows elements).zip out →
      SumsFit row ∧ position.netQty.toInt = buysOf row - sellsOf row

/-! ## The reads -/

/-- A read that takes every other payload for an empty book. -/
theorem emptied_iff {α : Type} {payload : Json.Value} (hcontainer : arrayOf payload = none) :
    ReadsBook arrayOf payload (.ok [] : Result (List α))
      ↔ ∃ elements, payload = .array elements ∧ AllObjects elements := by
  refine ⟨fun h => absurd h (not_readsBook_empty hcontainer), ?_⟩
  rintro ⟨elements, rfl, -⟩
  cases hcontainer

theorem array_iff {elements : List Json.Value} :
    AllObjects elements
      ↔ ∃ elements', Json.Value.array elements = .array elements' ∧ AllObjects elements' := by
  constructor
  · exact fun h => ⟨elements, rfl, h⟩
  · rintro ⟨elements', h, hall⟩
    obtain rfl := Json.Value.array.inj h
    exact hall

theorem ordersRead_iff (st : KotakBrokerAdapter) (payload : Json.Value) :
    ReadsBook arrayOf payload (st.fetchOrders (.ok payload)).1
      ↔ ∃ elements, payload = .array elements ∧ AllObjects elements := by
  cases payload with
  | array elements =>
    have hfetch : (st.fetchOrders (.ok (.array elements))).1
        = .ok ((objectRows elements).map fun row =>
            publishRow (st.rowRef ((objectRows elements).map readOrderRow) (readOrderRow row))
              (readOrderRow row)) := by
      show Except.ok _ = _
      rw [List.map_map]
      rfl
    rw [hfetch, readsBook_iff (rfl : arrayOf (.array elements) = some elements)]
    exact array_iff
  | _ => exact emptied_iff rfl

theorem tradesRead_iff (st : KotakBrokerAdapter) (payload : Json.Value) :
    ReadsBook arrayOf payload (st.fetchTrades (.ok payload))
      ↔ ∃ elements, payload = .array elements ∧ AllObjects elements := by
  cases payload with
  | array elements =>
    exact (readsBook_iff (rfl : arrayOf (.array elements) = some elements) st.publishTrade).trans
      array_iff
  | _ => exact emptied_iff rfl

theorem firstNumber_fits {row : List (Bytes × Json.Value)} {keys : List String} :
    FitsInt64 (bucketQty (firstNumber row keys)) := by
  rw [firstNumber, firstParsed]
  cases hparsed : (spellings row keys).findSome? Domain.parseInt64 with
  | some value =>
    obtain ⟨text, -, htext⟩ := List.exists_of_findSome?_eq_some hparsed
    have hbound := parseInt64_bound htext
    show FitsInt64 value
    unfold kInt64Max at hbound
    unfold FitsInt64
    omega
  | none =>
    dsimp only
    split_ifs
    · exact (by decide : FitsInt64 0)
    · exact (by decide : FitsInt64 0)

/-- What is published, where no sum overflows. -/
theorem netQty_of_sumsFit {row : List (Bytes × Json.Value)} (h : SumsFit row) :
    (publishPosition row).netQty.toInt = buysOf row - sellsOf row := by
  obtain ⟨hbuys, hsells, hnet⟩ := h
  have hsum : ∀ a b : Int, FitsInt64 a → FitsInt64 b → FitsInt64 (a + b) →
      (Int64.ofInt a + Int64.ofInt b).toInt = a + b := by
    intro a b ha hb hab
    rw [toInt_add_of_fits, toInt_ofInt_of_fits ha, toInt_ofInt_of_fits hb]
    rwa [toInt_ofInt_of_fits ha, toInt_ofInt_of_fits hb]
  have hbought : (Int64.ofInt (bucketQty (bucketsOf row).dayBuy)
      + Int64.ofInt (bucketQty (bucketsOf row).carriedBuy)).toInt = buysOf row :=
    hsum _ _ firstNumber_fits firstNumber_fits hbuys
  have hsold : (Int64.ofInt (bucketQty (bucketsOf row).daySell)
      + Int64.ofInt (bucketQty (bucketsOf row).carriedSell)).toInt = sellsOf row :=
    hsum _ _ firstNumber_fits firstNumber_fits hsells
  show (Int64.sub _ _).toInt = _
  rw [← hbought, ← hsold] at hnet ⊢
  exact toInt_sub_of_fits hnet

/-- **When the positions are a fact.** -/
theorem positionsRead_iff (payload : Json.Value) :
    PositionsRead payload
      ↔ ∃ elements, payload = .array elements
          ∧ ((objectRows elements).any malformedPosition = false →
            AllObjects elements ∧ ∀ row ∈ objectRows elements, SumsFit row) := by
  constructor
  · rintro ⟨hbook, hexact⟩
    cases payload with
    | array elements =>
      refine ⟨elements, rfl, fun hread => ?_⟩
      have hfetch : fetchPositions (.ok (.array elements))
          = .ok ((objectRows elements).map publishPosition) := by
        simp only [fetchPositions, hread, Bool.false_eq_true, if_false]
      rw [hfetch, readsBook_iff (rfl : arrayOf (.array elements) = some elements)] at hbook
      refine ⟨hbook, fun row hrow => ?_⟩
      exact (hexact elements _ rfl hfetch row _ (mem_zip_map.mpr ⟨hrow, rfl⟩)).1
    | _ => exact absurd hbook (not_readsBook_empty rfl)
  · rintro ⟨elements, rfl, h⟩
    cases hread : (objectRows elements).any malformedPosition with
    | true =>
      -- a number that cannot be read fails the whole book
      have hfetch : ∃ error, fetchPositions (.ok (.array elements)) = .error error := by
        simp only [fetchPositions, hread, if_true]
        exact ⟨_, rfl⟩
      obtain ⟨error, hfetch⟩ := hfetch
      refine ⟨by rw [hfetch]; exact readsBook_error _ _ _, fun elements' out _ hout => ?_⟩
      rw [hfetch] at hout
      cases hout
    | false =>
      obtain ⟨hall, hfit⟩ := h hread
      have hfetch : fetchPositions (.ok (.array elements))
          = .ok ((objectRows elements).map publishPosition) := by
        simp only [fetchPositions, hread, Bool.false_eq_true, if_false]
      refine ⟨?_, fun elements' out helements hout row position hmem => ?_⟩
      · rw [hfetch, readsBook_iff (rfl : arrayOf (.array elements) = some elements)]
        exact hall
      · obtain rfl := Json.Value.array.inj helements
        obtain rfl := Except.ok.inj (hfetch.symm.trans hout)
        obtain ⟨hrow, rfl⟩ := mem_zip_map.mp hmem
        exact ⟨hfit row hrow, netQty_of_sumsFit (hfit row hrow)⟩

/-- **Funds are read off anything**: the property holds of objects alone. -/
theorem fundsRead_iff (payload : Json.Value) :
    (∀ funds, fetchFunds (.ok payload) = .ok funds → ∃ members, payload = .object members)
      ↔ ∃ members, payload = .object members := by
  refine ⟨fun h => ?_, fun h _ _ => h⟩
  cases payload with
  | object members => exact ⟨members, rfl⟩
  | _ => exact h _ rfl

end BrokerExec.Adapters.Kotak
