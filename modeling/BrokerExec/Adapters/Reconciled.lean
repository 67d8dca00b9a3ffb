import BrokerExec.Adapters.Http
import BrokerExec.Runtime.Visibility

/-!
# Errors that leave an order open

`place` stores the order of an error to reconcile as Unknown, and of any other as Rejected.

* **`place_stores`** — the row a `place` stores after an error of the broker.
-/

namespace BrokerExec.Adapters

open BrokerExec.Domain (Order OrderIntent)
open BrokerExec.Errors (Error ErrorCategory SuggestedAction)
open BrokerExec.Idempotency (UuidGenerator)
open BrokerExec.Runtime

/-- An error that leaves the order open: `place` stores it as Unknown, and nothing suggests to
send it again. -/
def Reconciled (error : Error) : Prop :=
  isReconcileFirst error = true ∧ error.action ≠ .retrySafe

instance (error : Error) : Decidable (Reconciled error) :=
  inferInstanceAs (Decidable (_ ∧ _))

/-- The text of an error says nothing about it. -/
theorem reconciled_mk (category : ErrorCategory) (action : SuggestedAction)
    (message brokerCode : Bytes) :
    Reconciled ⟨category, action, message, brokerCode⟩ ↔ Reconciled ⟨category, action, [], []⟩ :=
  Iff.rfl

/-- **The row a `place` stores after an error of the broker** is in the state of that error. -/
theorem place_stores {uuids : UuidGenerator} {w : World} {strategy : Bytes} {intent : OrderIntent}
    {ticks : List Tick} {ref : Bytes} (hsends : Sends uuids w strategy intent ticks ref) {t : Tick}
    (ht : ticks[3]? = some t) {error : Error} (herror : t.broker = .error error) {row : Order}
    (hrow : (place uuids strategy intent ticks w).state.store.find ref = some row) :
    row.state = stateOfError error := by
  rcases place_moves uuids strategy intent ticks w with ⟨ref', hsends', hmoved⟩ | ⟨hnot, -⟩
  swap
  · exact absurd ⟨ref, hsends⟩ hnot
  by_cases hstores : StoresRow ticks
  · obtain ⟨order, hintent, hstate, hstore⟩ := hmoved.stored hstores
    have href : ref = order.intent.clientRef := by
      rw [hintent]
      exact Option.some.inj (hsends.1.symm.trans hsends'.1)
    rw [hstore, Table.find_upsert, if_pos href] at hrow
    rw [← Option.some.inj hrow]
    exact hstate t error ht herror
  · rw [hmoved.lost hstores, hsends.2.1] at hrow
    cases hrow

/-- Every order that was sent and answered with this error is stored as Unknown, if at all. -/
def RecordedUnknown (error : Error) : Prop :=
  ∀ (uuids : UuidGenerator) (w : World) (strategy : Bytes) (intent : OrderIntent)
    (ticks : List Tick) (ref : Bytes) (t : Tick), Sends uuids w strategy intent ticks ref →
    ticks[3]? = some t → t.broker = .error error →
    ∀ row, (place uuids strategy intent ticks w).state.store.find ref = some row →
      row.state = .unknown

theorem Reconciled.recordedUnknown {error : Error} (h : Reconciled error) :
    RecordedUnknown error := by
  intro uuids w strategy intent ticks ref t hsends ht herror row hrow
  rw [place_stores hsends ht herror hrow, stateOfError, if_pos h.1]

end BrokerExec.Adapters
