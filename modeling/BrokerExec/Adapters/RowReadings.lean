import BrokerExec.Adapters.Evidence
import BrokerExec.Adapters.Kite.FetchOrders
import BrokerExec.Adapters.Kotak.FetchOrders

/-!
# The two readings of a row, on both adapters

Kotak publishes a row and flattens its order by the same mapping. Kite publishes by the status and
flattens by the fill: a complete order that is filled in part is published as filled, and is
cancelled; an open one that is filled in full is published as working, and is not.

* **`rows_read_alike_iff`** — Kotak reads every row alike, Kite the rows whose status says what
  their fill says.
-/

namespace BrokerExec.Adapters

open BrokerExec.Domain (Order Price)

/-- **When the two readings of a row agree.** The rows are those of one book, read by
`fetch_orders` (`st'`) and by the flatten (`st`). -/
theorem rows_read_alike_iff (elements : List Json.Value) (cancelled placed : Result Json.Value)
    (brokerOrderId : Bytes) (lower upper : Option Price) (row : List (Bytes × Json.Value))
    (order : Order) :
    (∀ (st st' : Kotak.KotakBrokerAdapter) orders,
        (st'.fetchOrders (.ok (.array elements))).1 = .ok orders →
        (row, order) ∈ (objectRows elements).zip orders →
        ReadersAgree (Kotak.statedBy row) order.state (st.Accepts brokerOrderId elements row)
          (st.squareOffBanded brokerOrderId lower upper
            ⟨.ok (.array elements), cancelled, placed⟩).calls)
      ∧ ∀ (st st' : Kite.KiteBrokerAdapter) orders,
        st'.fetchOrders (.ok (.array elements)) = .ok orders →
        (row, order) ∈ (objectRows elements).zip orders → Kite.malformedRow row = false →
        (ReadersAgree (Kite.statedBy row) order.state (st.Accepts brokerOrderId elements row)
            (st.squareOffBanded brokerOrderId lower upper
              ⟨.ok (.array elements), cancelled, placed⟩).calls
          ↔ Kite.StatusTold st brokerOrderId elements row) :=
  ⟨fun _ _ _ hfetch hrow => Kotak.readersAgree hfetch hrow rfl,
    fun _ _ _ hfetch hrow hreadable => Kite.readersAgree_iff hfetch hrow hreadable rfl⟩

/-! A complete order of 5 on either broker. -/

def completeRow : List (Bytes × Json.Value) := (objectRows completeBook).headD []

theorem rows_read_alike_complete :
    ReadersAgree (Kotak.statedBy completeRow)
        (Kotak.publishRow [] (Kotak.readOrderRow completeRow)).state
        (newKotak.Accepts (ascii "1") completeBook completeRow)
        (newKotak.squareOff (ascii "1") (acked completeBook)).calls
      ∧ ReadersAgree (Kite.statedBy completeRow) (newKite.publishRow completeRow).state
        (newKite.Accepts (ascii "1") completeBook completeRow)
        (newKite.squareOff (ascii "1") (acked completeBook)).calls := by
  have htold : Kite.StatusTold newKite (ascii "1") completeBook completeRow :=
    ⟨fun _ => ⟨5, by decide +kernel, by decide, fun total htotal => by
      have hfive : (Kite.statedBy completeRow).total = some 5 := by decide +kernel
      exact (Option.some.inj (htotal.symm.trans hfive)).le⟩,
      fun hworking => absurd hworking (by decide +kernel)⟩
  refine ⟨(rows_read_alike_iff completeBook (.ok .null) (.ok .null) (ascii "1") none none
      completeRow _).1 newKotak newKotak _ rfl ?_,
    ((rows_read_alike_iff completeBook (.ok .null) (.ok .null) (ascii "1") none none
      completeRow _).2 newKite newKite _ rfl ?_ (by decide +kernel)).mpr htold⟩
  · exact List.mem_singleton_self _
  · exact List.mem_singleton_self _

/-! 3 of 5 on a complete order, and 5 of 5 on an open one. -/

namespace Kite

def shortComplete : List (Bytes × Json.Value) := bought "COMPLETE" 3

def filledOpen : List (Bytes × Json.Value) := bought "OPEN" 5

theorem accepts_filledOpen :
    newKite.Accepts (ascii "1") [.object filledOpen] filledOpen := by
  cases hassess : newKite.assess (ascii "1") (.array [.object filledOpen]) with
  | error error =>
    have hok : (newKite.assess (ascii "1") (.array [.object filledOpen])).isOk = true := by
      decide +kernel
    rw [hassess] at hok
    cases hok
  | ok seen =>
    obtain ⟨elements, total, helements, hassessed⟩ := assess_ok_iff.mp hassess
    obtain rfl := Json.Value.array.inj helements
    exact ⟨seen, hassess, List.mem_singleton.mp hassessed.rows.1.1⟩

theorem complete_filledOpen : (statedBy filledOpen).Complete := by
  refine ⟨5, by decide +kernel, by decide, fun total htotal => ?_⟩
  have hfive : (statedBy filledOpen).total = some 5 := by decide +kernel
  exact (Option.some.inj (htotal.symm.trans hfive)).le

theorem rows_read_apart :
    (newKite.fetchOrders (.ok (.array [.object shortComplete]))).map (·.map (·.state))
        = .ok [.filled]
      ∧ ¬ (statedBy shortComplete).Complete
      ∧ newKite.Accepts (ascii "1") [.object filledOpen] filledOpen
      ∧ (newKite.fetchOrders (.ok (.array [.object filledOpen]))).map (·.map (·.state))
        = .ok [.sent]
      ∧ Cancelless (flattened [.object filledOpen]).calls := by
  refine ⟨by decide +kernel, ?_, accepts_filledOpen, by decide +kernel, ?_⟩
  · rintro ⟨filled, hfilled, -, hcovers⟩
    have hthree : filled = 3 := Option.some.inj (hfilled.symm.trans (by decide +kernel))
    have hfive := hcovers 5 (by decide +kernel)
    omega
  · have hread : (acked [.object filledOpen]).orders = .ok (.array [.object filledOpen]) := rfl
    obtain ⟨total, htotal, hcalls⟩ := cancelless_iff_gone hread accepts_filledOpen
    exact hcalls.mpr ((gone_iff htotal).mpr (.inr (.inr complete_filledOpen)))

end Kite

end BrokerExec.Adapters
