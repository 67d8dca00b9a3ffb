import BrokerExec.Adapters.Kite.FetchOrders
import BrokerExec.Adapters.Kotak.FetchOrders

/-!
# What a published row says of the fill

A fill that an adapter cannot read goes out as 0, since `domain::Order` has no other way to say so.
`ReadRow` keeps the published order together with what was lost: whether the row was readable.

* **`Kite.readable_states`**, **`Kotak.readable_states`** — a readable row goes out with the fill
  that it states.
-/

namespace BrokerExec.Adapters

open BrokerExec.Domain (Order Quantity kInt64Max)

/-- A row with the order it is published as. Readable rows state their fill and, beside a positive
one, its average price. -/
structure ReadRow where
  order : Order
  fill : Quantity
  readable : Bool
  published : order.filledQty = fill

/-! ## Kite -/

namespace Kite

variable {row : List (Bytes × Json.Value)}

/-- Nothing is garbage, the fill is stated and goes out as it is stated, and a positive fill has
its price. -/
def readable (row : List (Bytes × Json.Value)) : Bool :=
  !malformedRow row && (fillOf row).value? = some (publishedFill row)
    && (publishedFill row = 0 || (averageOf row).value?.isSome)

def KiteBrokerAdapter.readRow (st : KiteBrokerAdapter) (row : List (Bytes × Json.Value)) :
    ReadRow :=
  ⟨st.publishRow row, Int64.ofInt (publishedFill row), readable row, rfl⟩

theorem publishedFill_bound (row : List (Bytes × Json.Value)) :
    0 ≤ publishedFill row ∧ publishedFill row ≤ kInt64Max := by
  have hmax : (0 : Int) ≤ kInt64Max := by decide
  unfold publishedFill
  cases hvalue : (fillOf row).value? with
  | none => exact ⟨le_rfl, hmax⟩
  | some value =>
    have hle : value ≤ kInt64Max := jsonInt_le hvalue
    dsimp only [Option.getD_some]
    split_ifs <;> omega

/-- **A readable row goes out with the fill it states.** -/
theorem readable_states (st : KiteBrokerAdapter) (h : readable row = true) :
    (fillOf row).value? = some (st.readRow row).fill.toInt := by
  simp only [readable, Bool.and_eq_true, decide_eq_true_eq] at h
  obtain ⟨hnonneg, hbound⟩ := publishedFill_bound row
  rw [h.1.2]
  exact congrArg some (toInt_ofInt_fill hnonneg hbound).symm

end Kite

/-! ## Kotak -/

namespace Kotak

variable {row : List (Bytes × Json.Value)}

/-- As for Kite; a fill above its total does not go out as it is stated. -/
def readable (row : List (Bytes × Json.Value)) : Bool :=
  !(readOrderRow row).malformed && !(readOrderRow row).fillUnreadable
    && (fillOf row).value? = (readOrderRow row).filled

def KotakBrokerAdapter.readRow (st : KotakBrokerAdapter) (rows : List RawOrder)
    (row : List (Bytes × Json.Value)) : ReadRow :=
  ⟨publishRow (st.rowRef rows (readOrderRow row)) (readOrderRow row),
    Int64.ofInt ((readOrderRow row).filled.getD 0), readable row, rfl⟩

/-- **A readable row goes out with the fill it states.** -/
theorem readable_states (st : KotakBrokerAdapter) (rows : List RawOrder)
    (h : readable row = true) :
    (fillOf row).value? = some (st.readRow rows row).fill.toInt := by
  simp only [readable, RawOrder.fillUnreadable, Bool.and_eq_true, Bool.not_eq_true',
    Bool.or_eq_false_iff, decide_eq_true_eq] at h
  obtain ⟨⟨-, hstated, -⟩, hsame⟩ := h
  rw [hsame]
  -- a readable row states its fill
  cases hfilled : (readOrderRow row).filled with
  | none => simp [hfilled] at hstated
  | some filled =>
    obtain ⟨hnonneg, hbound⟩ := readOrderRow_filled_bound hfilled
    simp only [KotakBrokerAdapter.readRow, hfilled, Option.getD_some,
      toInt_ofInt_fill hnonneg hbound]

end Kotak

/-! ## Either adapter -/

inductive Adapter where
  | kite (st : Kite.KiteBrokerAdapter)
  | kotak (st : Kotak.KotakBrokerAdapter)

def Adapter.fetchOrders : Adapter → Result Json.Value → Result (List Order)
  | .kite st, payload => st.fetchOrders payload
  | .kotak st, payload => (st.fetchOrders payload).1

/-- The rows of a book; an answer that is no book has none. -/
def Adapter.read : Adapter → Result Json.Value → List ReadRow
  | .kite st, .ok (.array elements) => (objectRows elements).map st.readRow
  | .kotak st, .ok (.array elements) =>
    (objectRows elements).map (st.readRow ((objectRows elements).map Kotak.readOrderRow))
  | _, _ => []

/-- What cannot be fetched has no rows. -/
theorem Adapter.read_error {adapter : Adapter} {payload : Result Json.Value} {error : Errors.Error}
    (h : adapter.fetchOrders payload = .error error) : adapter.read payload = [] := by
  cases adapter with
  | kite st =>
    cases payload with
    | error error => rfl
    | ok book =>
      cases book with
      | array elements => cases h
      | _ => rfl
  | kotak st =>
    cases payload with
    | error error => rfl
    | ok book =>
      cases book with
      | array elements => cases h
      | _ => cases h

/-- **What is fetched is what is read.** -/
theorem Adapter.orders_read {adapter : Adapter} {payload : Result Json.Value} {orders : List Order}
    (h : adapter.fetchOrders payload = .ok orders) :
    orders = (adapter.read payload).map (·.order) := by
  cases adapter with
  | kite st =>
    cases payload with
    | error error => cases h
    | ok book =>
      cases book with
      | array elements =>
        obtain rfl := Except.ok.inj h
        simp only [Adapter.read, List.map_map]
        rfl
      | _ => cases h
  | kotak st =>
    cases payload with
    | error error => cases h
    | ok book =>
      cases book with
      | array elements =>
        obtain rfl := Except.ok.inj h
        simp only [Adapter.read, List.map_map]
        rfl
      | _ =>
        obtain rfl := Except.ok.inj h
        rfl

end BrokerExec.Adapters
