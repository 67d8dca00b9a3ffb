import BrokerExec.Adapters.Kite.RestClient
import BrokerExec.Adapters.Kotak.RestClient
import BrokerExec.Json.Reader

/-!
# Ambiguous answers to a mutation

`place`, `modify` and `cancel` of both clients end in the same step, from a response to the data
or to an error. The error of an ambiguous answer should leave the order open.

* **`ambiguous_reconciled_iff`** — for each client, it does so exactly when the answer is not
  one of its `Settled` ones;
* **`throttled_place_rejected`** — and such answers exist.
-/

namespace BrokerExec.Adapters

open BrokerExec.Errors (Error)

/-- The error leaves the order open, in itself and in what `place` stores. -/
def LeavesOpen (error : Error) : Prop := Reconciled error ∧ RecordedUnknown error

theorem leavesOpen_iff {error : Error} : LeavesOpen error ↔ Reconciled error :=
  ⟨And.left, fun h => ⟨h, h.recordedUnknown⟩⟩

/-- **When ambiguous answers stay open**: on Kite, when the answer is no throttle, a failing
server named none of the five verdict exceptions, and an unreadable body came with neither 401
nor 403; on Kotak, when a throttle has no session phrasing and a body without an error came with
none of 400, 401, 403 and 422. -/
theorem ambiguous_reconciled_iff (parse : ParseJson) (r : HttpResponse) :
    ((∀ error, Kite.responseData parse r = .error error → Kite.Ambiguous parse r →
        LeavesOpen error) ↔ ¬ Kite.Settled parse r)
      ∧ ((∀ error, Kotak.responseData parse true r = .error error → Kotak.Ambiguous parse r →
        LeavesOpen error) ↔ ¬ Kotak.Settled parse r) := by
  simp only [leavesOpen_iff]
  exact ⟨Kite.responseData_reconciled_iff parse r, Kotak.responseData_reconciled_iff parse r⟩

/-! A throttled `place` on Kite, and an empty 400 on Kotak. -/

def throttled : HttpResponse := ⟨429, [], []⟩

def emptyRefusal : HttpResponse := ⟨400, [], []⟩

theorem throttled_place_rejected :
    (∃ error, Kite.responseData Json.reader.parse throttled = .error error
        ∧ Kite.Ambiguous Json.reader.parse throttled ∧ error.action = .retrySafe
        ∧ Runtime.stateOfError error = .rejected)
      ∧ ∃ error, Kotak.responseData Json.reader.parse true emptyRefusal = .error error
        ∧ Kotak.Ambiguous Json.reader.parse emptyRefusal ∧ error.action = .doNotRetry
        ∧ Runtime.stateOfError error = .rejected := by
  refine ⟨⟨_, rfl, .inr (.inr (.inl rfl)), rfl, rfl⟩, ⟨_, rfl, .inr (.inr (.inr rfl)), rfl, rfl⟩⟩

end BrokerExec.Adapters
