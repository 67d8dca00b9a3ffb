import BrokerExec.ModifyGuard
import BrokerExec.Runtime.AtMostOnce

/-!
# The row behind a modify (`runtime/dispatcher.cpp`)

`modify` reloads the row of the order, gives it the acknowledged id and writes it back: the row
keeps the terms it had.

* **`modify_row_iff`** — after an acknowledged modify the row carries the amended terms exactly
  when there was no row, or a row with nothing to change.
-/

namespace BrokerExec.Runtime

open BrokerExec.Domain (Order OrderIntent)
open BrokerExec.ModifyGuard (makeModifyRequest)

/-- What a modify amends. -/
def SameTerms (a b : OrderIntent) : Prop :=
  a.quantity = b.quantity ∧ a.price = b.price ∧ a.triggerPrice = b.triggerPrice
    ∧ a.orderType = b.orderType

/-- The row under the reference is the order as the broker acknowledged it. -/
def RowAmended (w : World) (intent : OrderIntent) (ackedId : Bytes) : Prop :=
  ∃ row, w.store.find intent.clientRef = some row ∧ SameTerms row.intent intent
    ∧ row.brokerOrderId = ackedId

/-- There is no row under the reference, or one with the amended terms already. -/
def NothingToAmend (w : World) (intent : OrderIntent) : Prop :=
  ∀ row, w.store.find intent.clientRef = some row → SameTerms row.intent intent

/-- The modify guard's own reading of a row with nothing to change. -/
theorem sameTerms_iff {current amended : OrderIntent} :
    SameTerms current amended
      ↔ (makeModifyRequest current amended).changesQuantity = false
        ∧ (makeModifyRequest current amended).changesPrice = false := by
  simp [SameTerms, makeModifyRequest, and_assoc]

/-! ## What `modify` writes -/

section

variable {ticks unused : List Tick} {w w' : World} {order : Order}

theorem store_append {op : IntentLog.IntentOp} {clientRef payloadJson : Bytes}
    {result : Result IntentLog.IntentRecord}
    (h : append op clientRef payloadJson ticks w = .done result unused w') :
    w'.store = w.store := by
  obtain ⟨t, -, happend⟩ := Process.ask_eq_done h
  have hstore : w.store = w'.store := congrArg (fun outcome => outcome.2.store) happend
  exact hstore.symm

theorem store_appendResult {clientRef : Bytes} {payload : Int64 → Bytes}
    {result : Result IntentLog.IntentRecord}
    (h : appendResult clientRef payload ticks w = .done result unused w') :
    w'.store = w.store := by
  obtain ⟨stamp, mid, w₁, hclock, happend⟩ := Process.bind_eq_done h
  obtain ⟨t, -, hclock⟩ := Process.ask_eq_done hclock
  rw [store_append happend, ← (Prod.mk.inj hclock).2]

/-- What a projection returns is in the store. -/
theorem project_eq_ok {returned : Order}
    (h : project order ticks w = .done (.ok returned) unused w') :
    returned = order ∧ w'.store = w.store.upsert order := by
  obtain ⟨upserted, mid, w₁, hupsert, h⟩ := Process.bind_eq_done h
  obtain ⟨t, -, hupsert⟩ := Process.ask_eq_done hupsert
  cases upserted with
  | error e => cases h
  | ok _ =>
    have hstore : w₁.store = w.store.upsert order := by
      unfold Store.upsertOrder at hupsert
      cases hfailure : t.storeError with
      | some e =>
        rw [hfailure] at hupsert
        cases (Prod.mk.inj hupsert).1
      | none =>
        rw [hfailure] at hupsert
        rw [← (Prod.mk.inj hupsert).2]
    obtain ⟨recorded, mid', w₂, hrecord, h⟩ := Process.bind_eq_done h
    cases recorded with
    | error e => cases h
    | ok record =>
      cases h
      exact ⟨rfl, (store_appendResult hrecord).trans hstore⟩

/-- What an acknowledged modify returns: the row there was, or the intent, under the acknowledged
id. -/
theorem concludeModify_eq_ok {brokerOrderId ackedId : Bytes} {intent : OrderIntent}
    (h : concludeModify brokerOrderId intent (.ok ackedId) ticks w = .done (.ok order) unused w') :
    order.intent = ((w.store.find intent.clientRef).getD (makeOrder intent .acknowledged)).intent
      ∧ order.brokerOrderId = ackedId ∧ w'.store = w.store.upsert order := by
  obtain ⟨found, mid, w₁, hfind, h⟩ := Process.bind_eq_done h
  obtain ⟨t, -, hfind⟩ := Process.ask_eq_done hfind
  obtain ⟨hfound, rfl⟩ := Prod.mk.inj hfind
  cases found with
  | error e => cases h
  | ok row =>
    obtain ⟨rfl, hstore⟩ := project_eq_ok h
    rw [Store.find_of_findOrder hfound]
    exact ⟨rfl, rfl, hstore⟩

/-- An acknowledged modify. -/
theorem modify_eq_ok {brokerOrderId ackedId : Bytes} {intent : OrderIntent} {t₀ t₁ t₂ : Tick}
    (hacked : t₂.broker = .ok ackedId)
    (h : modify brokerOrderId intent (t₀ :: t₁ :: t₂ :: ticks) w = .done (.ok order) unused w') :
    order.intent = ((w.store.find intent.clientRef).getD (makeOrder intent .acknowledged)).intent
      ∧ order.brokerOrderId = ackedId ∧ w'.store = w.store.upsert order := by
  obtain ⟨recorded, mid, w₁, happend, h⟩ := Process.bind_eq_done h
  have hstore := store_append happend
  obtain ⟨t, hticks, -⟩ := Process.ask_eq_done happend
  obtain ⟨-, rfl⟩ := List.cons.inj hticks
  cases recorded with
  | error e => cases h
  | ok record =>
    have h : concludeModify brokerOrderId intent t₂.broker ticks
        { w₁ with sent := w₁.sent ++ [.modify brokerOrderId intent] } = .done (.ok order) unused w' :=
      h
    rw [hacked] at h
    have hconclude := concludeModify_eq_ok h
    rw [← hstore]
    exact hconclude

/-- **The row follows an acknowledged modify exactly when there is nothing to amend in it.** `t₂`
holds the broker's answer: behind the record and the barrier. -/
theorem modify_row_iff {brokerOrderId ackedId : Bytes} {intent : OrderIntent} {t₀ t₁ t₂ : Tick}
    (hacked : t₂.broker = .ok ackedId)
    (h : modify brokerOrderId intent (t₀ :: t₁ :: t₂ :: ticks) w = .done (.ok order) unused w') :
    RowAmended w' intent ackedId ↔ NothingToAmend w intent := by
  obtain ⟨hintent, hid, hstore⟩ := modify_eq_ok hacked h
  have hkey : order.intent.clientRef = intent.clientRef := by
    rw [hintent]
    cases hrow : w.store.find intent.clientRef with
    | none => rfl
    | some row => exact (Table.mem_of_find hrow).2
  have hfind : w'.store.find intent.clientRef = some order := by
    rw [hstore, Table.find_upsert, if_pos hkey.symm]
  unfold RowAmended NothingToAmend
  cases hrow : w.store.find intent.clientRef with
  | none =>
    rw [hrow] at hintent
    have hintent : order.intent = intent := hintent
    refine iff_of_true ⟨order, hfind, ?_, hid⟩ fun row hnone => by cases hnone
    rw [hintent]
    exact ⟨rfl, rfl, rfl, rfl⟩
  | some row =>
    rw [hrow] at hintent
    have hintent : order.intent = row.intent := hintent
    constructor
    · rintro ⟨after, hafter, hterms, -⟩ before hbefore
      rw [hfind] at hafter
      cases hafter
      cases hbefore
      rw [← hintent]
      exact hterms
    · intro hterms
      refine ⟨order, hfind, ?_, hid⟩
      rw [hintent]
      exact hterms row rfl

end

/-- A working stop, armed at 95 rupees. -/
def sampleStop (trigger : Domain.Price) : OrderIntent :=
  { sampleIntent with
    clientRef := ascii "s-1", side := .sell, triggerPrice := some trigger,
    orderType := .stopLossMarket }

/-- A process that knows it, or does not. -/
def sampleWorld (rows : List Order) : World :=
  { World.blank IntentLog.sampleLog with store := rows.foldl Table.upsert .empty }

theorem modify_row_iff_unprojected :
    ∃ order w', modify (ascii "B1") (sampleStop 9800) (List.replicate 7 sampleTick)
        (sampleWorld []) = .done (.ok order) [] w'
      ∧ RowAmended w' (sampleStop 9800) (ascii "B1") := by
  obtain ⟨order, w', hrun⟩ : ∃ order w', modify (ascii "B1") (sampleStop 9800)
      (List.replicate 7 sampleTick) (sampleWorld []) = .done (.ok order) [] w' := ⟨_, _, rfl⟩
  have hacked : sampleTick.broker = .ok (ascii "B1") := rfl
  refine ⟨order, w', hrun, (modify_row_iff hacked hrun).mpr fun row hrow => ?_⟩
  cases hrow

/-- The stop is moved to 98 rupees, the broker acknowledges it, and the row still says 95. -/
theorem trigger_left_behind :
    ∃ order w', modify (ascii "B1") (sampleStop 9800) (List.replicate 7 sampleTick)
        (sampleWorld [⟨sampleStop 9500, .acknowledged, ascii "B1", 0, 0⟩])
          = .done (.ok order) [] w'
      ∧ order.intent.triggerPrice = some 9500
      ∧ ¬ RowAmended w' (sampleStop 9800) (ascii "B1") := by
  refine ⟨_, _, rfl, rfl, ?_⟩
  rintro ⟨row, hrow, ⟨-, -, htrigger, -⟩, -⟩
  cases hrow
  exact absurd htrigger (by decide)

end BrokerExec.Runtime
