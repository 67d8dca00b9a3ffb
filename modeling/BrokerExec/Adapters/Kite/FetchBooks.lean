import BrokerExec.Adapters.BookReads
import BrokerExec.Adapters.Kite.Counts
import BrokerExec.Adapters.Kite.FetchOrders
import BrokerExec.Lib.FixedWidth
import BrokerExec.Risk.FundsView

/-!
# Kite's trades, positions and funds (`adapters/kite/kite_broker_adapter.cpp`)

Every read refuses a payload without its container. What is left open are the rows: one that is
no object is passed over, and the quantity of a position is read as a count, whose fraction may
hide.

* **`ordersRead_iff`**, **`tradesRead_iff`**, **`positionsRead_iff`**, **`fundsRead`** — when
  each read is faithful.
-/

namespace BrokerExec.Adapters.Kite

open BrokerExec.Domain (Order Position Trade)
open BrokerExec.Risk (FundsSnapshot)

/-! ## Trades -/

/-- A trade with a number that cannot be read is reported, without its client ref. -/
def KiteBrokerAdapter.publishTrade (st : KiteBrokerAdapter) (row : List (Bytes × Json.Value)) :
    Trade :=
  let brokerOrderId := jsonStr row (ascii "order_id")
  let quantity := jsonInt row (ascii "quantity")
  let price := jsonPaise row (ascii "average_price")
  let qty := quantity.value?.getD 0
  { tradeId := jsonStr row (ascii "trade_id")
    clientRef :=
      if quantity.malformed || price.malformed then []
      else st.recoverClientRef brokerOrderId (jsonStr row (ascii "tag"))
    brokerOrderId := brokerOrderId
    quantity := Int64.ofInt (if 0 < qty then qty else 0)
    price := Int64.ofInt (price.value?.getD 0) }

def KiteBrokerAdapter.fetchTrades (st : KiteBrokerAdapter) (payload : Result Json.Value) :
    Result (List Trade) :=
  match payload with
  | .error error => .error error
  | .ok (.array elements) => .ok ((objectRows elements).map st.publishTrade)
  | .ok _ =>
    .error (unreadablePayloadError (ascii "kite: the tradebook payload was not an array")
      (ascii "KITE-TRADES-SHAPE"))

/-! ## Positions -/

def netQuantityOf (row : List (Bytes × Json.Value)) : Reading := jsonInt row (ascii "quantity")

def netPriceOf (row : List (Bytes × Json.Value)) : Reading := jsonPaise row (ascii "average_price")

def malformedPosition (row : List (Bytes × Json.Value)) : Bool :=
  (netQuantityOf row).malformed || (netPriceOf row).malformed

def publishPosition (row : List (Bytes × Json.Value)) : Position where
  symbol := jsonStr row (ascii "tradingsymbol")
  netQty := Int64.ofInt ((netQuantityOf row).value?.getD 0)
  avgPrice := Int64.ofInt ((netPriceOf row).value?.getD 0)

/-- The net book of `{ "net": [...], "day": [...] }`. -/
def netBook : Json.Value → Option (List Json.Value)
  | .object members =>
    match members.lookup (ascii "net") with
    | some (.array elements) => some elements
    | _ => none
  | _ => none

/-- One number that cannot be read fails the whole book. -/
def fetchPositions (payload : Result Json.Value) : Result (List Position) :=
  match payload with
  | .error error => .error error
  | .ok data =>
    match netBook data with
    | none =>
      .error (unreadablePayloadError
        (ascii "kite: the positions payload was not the expected \x7bnet:[...]\x7d shape")
        (ascii "KITE-POSITIONS-SHAPE"))
    | some elements =>
      if (objectRows elements).any malformedPosition then
        .error (unreadablePayloadError
          (ascii "kite: positions payload carried an unparseable quantity or amount")
          (ascii "KITE-POSITIONS-MALFORMED"))
      else .ok ((objectRows elements).map publishPosition)

/-! ## Funds -/

def liveBalanceOf (members : List (Bytes × Json.Value)) : Reading :=
  match members.lookup (ascii "available") with
  | some (.object available) => jsonPaise available (ascii "live_balance")
  | _ => .absent

/-- The available margin: `net` stands in for a balance that is absent, unreadable or zero, and
garbage counts only where neither can be read. -/
def availableOf (members : List (Bytes × Json.Value)) : Reading :=
  let first := liveBalanceOf members
  let net := jsonPaise members (ascii "net")
  match first with
  | .parsed paise => if paise ≠ 0 then first else .parsed (net.value?.getD 0)
  | .absent => net
  | .garbage =>
    match net with
    | .parsed paise => .parsed paise
    | _ => .garbage

def usedOf (members : List (Bytes × Json.Value)) : Reading :=
  match members.lookup (ascii "utilised") with
  | some (.object utilised) => jsonPaise utilised (ascii "debits")
  | _ => .absent

def fetchFunds (payload : Result Json.Value) : Result FundsSnapshot :=
  match payload with
  | .error error => .error error
  | .ok (.object members) =>
    if (availableOf members).malformed || (usedOf members).malformed then
      .error (unreadablePayloadError
        (ascii "kite: funds payload carried an unparseable amount")
        (ascii "KITE-FUNDS-MALFORMED"))
    else
      .ok ⟨Int64.ofInt ((availableOf members).value?.getD 0),
        Int64.ofInt ((usedOf members).value?.getD 0)⟩
  | .ok _ =>
    .error (unreadablePayloadError (ascii "kite: the margins payload was not an object")
      (ascii "KITE-FUNDS-SHAPE"))

/-! ## The property and the conditions -/

/-- The row states this quantity: the whole number in its field, or nothing where the field is
absent. -/
def StatesQuantity (row : List (Bytes × Json.Value)) (quantity : Int) : Prop :=
  (netQuantityOf row = .absent ∧ quantity = 0)
    ∨ ∃ field text, row.lookup (ascii "quantity") = some field ∧ numericText field = some text
      ∧ WholeNumber text quantity

/-- **The positions are a fact**: one for each row of the net book, with the quantity the row
states. -/
structure PositionsRead (payload : Json.Value) : Prop where
  book : ReadsBook netBook payload (fetchPositions (.ok payload))
  exact : ∀ elements out, netBook payload = some elements →
    fetchPositions (.ok payload) = .ok out →
    ∀ row position, (row, position) ∈ (objectRows elements).zip out →
      StatesQuantity row position.netQty.toInt

/-- The text of the row's quantity, if it has one, does not hide a fraction. -/
def PlainQuantity (row : List (Bytes × Json.Value)) : Prop :=
  ∀ field text, row.lookup (ascii "quantity") = some field → numericText field = some text →
    ¬ HidesFraction text

/-! ## The reads -/

theorem ordersRead_iff (st : KiteBrokerAdapter) (payload : Json.Value) :
    ReadsBook arrayOf payload (st.fetchOrders (.ok payload))
      ↔ ∀ elements, payload = .array elements → AllObjects elements := by
  cases payload with
  | array elements => exact readsArray_iff elements st.publishRow
  | _ => exact ⟨fun _ _ h => (by cases h), fun _ => readsBook_error _ _ _⟩

theorem tradesRead_iff (st : KiteBrokerAdapter) (payload : Json.Value) :
    ReadsBook arrayOf payload (st.fetchTrades (.ok payload))
      ↔ ∀ elements, payload = .array elements → AllObjects elements := by
  cases payload with
  | array elements => exact readsArray_iff elements st.publishTrade
  | _ => exact ⟨fun _ _ h => (by cases h), fun _ => readsBook_error _ _ _⟩

/-- What a row that can be read states, where it hides nothing. -/
theorem statesQuantity_iff {row : List (Bytes × Json.Value)}
    (hread : malformedPosition row = false) :
    StatesQuantity row (publishPosition row).netQty.toInt ↔ PlainQuantity row := by
  have hgarbage : (netQuantityOf row).malformed = false := by
    rw [malformedPosition, Bool.or_eq_false_iff] at hread
    exact hread.1
  obtain ⟨htextual, -, hparsed⟩ := jsonInt_cases row (ascii "quantity")
  cases hquantity : netQuantityOf row with
  | garbage => rw [hquantity] at hgarbage; cases hgarbage
  | absent =>
    -- a field without a text hides nothing
    have hvalue : (publishPosition row).netQty.toInt = 0 := by
      simp [publishPosition, hquantity, Reading.value?]
    refine ⟨fun _ field text hfield htext => ?_, fun _ => .inl ⟨hquantity, hvalue⟩⟩
    have hcount := htextual field text hfield htext
    exact absurd (hcount.symm.trans hquantity) (countOfText_ne_absent text)
  | parsed value =>
    obtain ⟨field, text, hfield, htext⟩ := hparsed value hquantity
    have hcount : countOfText text = .parsed value :=
      (htextual field text hfield htext).symm.trans hquantity
    have hvalue : (publishPosition row).netQty.toInt = value := by
      simp only [publishPosition, hquantity, Reading.value?, Option.getD_some]
      exact toInt_ofInt_of_fits (fitsInt64_countOfText hcount)
    have honly : ∀ other, countOfText text = .parsed other → other = value := fun other hother =>
      Reading.parsed.inj (hother.symm.trans hcount)
    rw [hvalue]
    constructor
    · rintro (⟨habsent, -⟩ | ⟨field', text', hfield', htext', hwhole⟩)
      · rw [hquantity] at habsent
        cases habsent
      · obtain rfl := Option.some.inj (hfield.symm.trans hfield')
        obtain rfl := Option.some.inj (htext.symm.trans htext')
        intro field₂ text₂ hfield₂ htext₂
        obtain rfl := Option.some.inj (hfield.symm.trans hfield₂)
        obtain rfl := Option.some.inj (htext.symm.trans htext₂)
        rw [← wholeNumber_iff]
        intro other hother
        rw [honly other hother]
        exact hwhole
    · intro hplain
      exact .inr ⟨field, text, hfield, htext,
        (wholeNumber_iff text).mpr (hplain field text hfield htext) value hcount⟩

/-- **When the positions are a fact.** -/
theorem positionsRead_iff (payload : Json.Value) :
    PositionsRead payload
      ↔ ∀ elements, netBook payload = some elements →
          (objectRows elements).any malformedPosition = false →
          AllObjects elements ∧ ∀ row ∈ objectRows elements, PlainQuantity row := by
  cases hbook : netBook payload with
  | none =>
    have hfetch : ∃ error, fetchPositions (.ok payload) = .error error := by
      simp only [fetchPositions, hbook]
      exact ⟨_, rfl⟩
    obtain ⟨error, hfetch⟩ := hfetch
    refine ⟨fun _ elements h => (by cases h), fun _ => ⟨?_, fun elements out h => ?_⟩⟩
    · rw [hfetch]
      exact readsBook_error _ _ _
    · rw [hbook] at h
      cases h
  | some elements =>
  cases hmalformed : (objectRows elements).any malformedPosition with
  | true =>
    have hfetch : ∃ error, fetchPositions (.ok payload) = .error error := by
      simp only [fetchPositions, hbook, hmalformed, if_true]
      exact ⟨_, rfl⟩
    obtain ⟨error, hfetch⟩ := hfetch
    refine ⟨fun _ elements' h hread => ?_, fun _ => ⟨?_, fun elements' out _ h => ?_⟩⟩
    · obtain rfl := Option.some.inj h
      rw [hmalformed] at hread
      cases hread
    · rw [hfetch]
      exact readsBook_error _ _ _
    · rw [hfetch] at h
      cases h
  | false =>
    have hfetch : fetchPositions (.ok payload) = .ok ((objectRows elements).map publishPosition) := by
      simp only [fetchPositions, hbook, hmalformed, Bool.false_eq_true, if_false]
    have hread : ∀ row ∈ objectRows elements, malformedPosition row = false := by
      simpa using hmalformed
    constructor
    · rintro ⟨hall, hexact⟩ elements' h -
      obtain rfl := Option.some.inj h
      rw [hfetch, readsBook_iff hbook] at hall
      refine ⟨hall, fun row hrow => ?_⟩
      exact (statesQuantity_iff (hread row hrow)).mp
        (hexact elements _ hbook hfetch row _ (mem_zip_map.mpr ⟨hrow, rfl⟩))
    · intro h
      obtain ⟨hall, hplain⟩ := h elements rfl hmalformed
      refine ⟨by rw [hfetch, readsBook_iff hbook]; exact hall, ?_⟩
      intro elements' out helements hout row position hmem
      obtain rfl := Option.some.inj (hbook.symm.trans helements)
      obtain rfl := Except.ok.inj (hfetch.symm.trans hout)
      obtain ⟨hrow, rfl⟩ := mem_zip_map.mp hmem
      exact (statesQuantity_iff (hread row hrow)).mpr (hplain row hrow)

/-- **Funds are read off an object only.** -/
theorem fundsRead {payload : Json.Value} {funds : FundsSnapshot}
    (h : fetchFunds (.ok payload) = .ok funds) : ∃ members, payload = .object members := by
  cases payload with
  | object members => exact ⟨members, rfl⟩
  | _ => cases h

end BrokerExec.Adapters.Kite
