import BrokerExec.Adapters.Kite.FetchBooks
import BrokerExec.Adapters.Kotak.FetchBooks

/-!
# When a broker's payload becomes a fact (`adapters/*/…_broker_adapter.cpp`)

The eight reads side by side. Kite refuses a payload without its container, Kotak takes it for an
empty book; both pass over rows that are no objects.

* **`payload_read_iff`** — for each read, the payloads it reads faithfully.
-/

namespace BrokerExec.Adapters

open BrokerExec.Adapters.Kite (KiteBrokerAdapter netBook PlainQuantity)
open BrokerExec.Adapters.Kotak (KotakBrokerAdapter SumsFit)
open BrokerExec.Risk (FundsSnapshot)

/-- **No payload becomes a fact it does not state**: a read of funds that answers has read an
object. -/
def ReadsFunds (payload : Json.Value) (answered : Result FundsSnapshot) : Prop :=
  ∀ funds, answered = .ok funds → ∃ members, payload = .object members

/-- **When a payload is read faithfully**, read by read and for every payload. Kite: the elements
of the container are objects, and no quantity hides a fraction. Kotak: the payload has the
container, its elements are objects, and no sum overflows. -/
theorem payload_read_iff (kite : KiteBrokerAdapter) (kotak : KotakBrokerAdapter)
    (payload : Json.Value) :
    (ReadsBook arrayOf payload (kite.fetchOrders (.ok payload))
        ↔ ∀ elements, payload = .array elements → AllObjects elements)
      ∧ (ReadsBook arrayOf payload (kite.fetchTrades (.ok payload))
        ↔ ∀ elements, payload = .array elements → AllObjects elements)
      ∧ (Kite.PositionsRead payload
        ↔ ∀ elements, netBook payload = some elements →
            (objectRows elements).any Kite.malformedPosition = false →
            AllObjects elements ∧ ∀ row ∈ objectRows elements, PlainQuantity row)
      ∧ ReadsFunds payload (Kite.fetchFunds (.ok payload))
      ∧ (ReadsBook arrayOf payload (kotak.fetchOrders (.ok payload)).1
        ↔ ∃ elements, payload = .array elements ∧ AllObjects elements)
      ∧ (ReadsBook arrayOf payload (kotak.fetchTrades (.ok payload))
        ↔ ∃ elements, payload = .array elements ∧ AllObjects elements)
      ∧ (Kotak.PositionsRead payload
        ↔ ∃ elements, payload = .array elements
            ∧ ((objectRows elements).any Kotak.malformedPosition = false →
              AllObjects elements ∧ ∀ row ∈ objectRows elements, SumsFit row))
      ∧ (ReadsFunds payload (Kotak.fetchFunds (.ok payload))
        ↔ ∃ members, payload = .object members) :=
  ⟨Kite.ordersRead_iff kite payload, Kite.tradesRead_iff kite payload,
    Kite.positionsRead_iff payload, fun _ => Kite.fundsRead, Kotak.ordersRead_iff kotak payload,
    Kotak.tradesRead_iff kotak payload, Kotak.positionsRead_iff payload,
    Kotak.fundsRead_iff payload⟩

/-- **A positions payload that is no array is a flat book on Kotak**, and funds that are no
object an account without margin in use. -/
theorem unreadable_payload_is_flat :
    Kotak.fetchPositions (.ok (.object [])) = .ok []
      ∧ ¬ Kotak.PositionsRead (.object [])
      ∧ Kotak.fetchFunds (.ok .null) = .ok ⟨0, 0⟩
      ∧ ¬ ReadsFunds .null (Kotak.fetchFunds (.ok .null)) := by
  refine ⟨rfl, fun h => ?_, rfl, fun h => ?_⟩
  · obtain ⟨elements, helements, -⟩ := h.book [] rfl
    cases helements
  · obtain ⟨members, hmembers⟩ := h _ rfl
    cases hmembers

end BrokerExec.Adapters
