import BrokerExec.IntentLog.Recovery
import BrokerExec.Runtime.Dispatcher

/-!
# Do terminal rows absorb?

`place`, `cancel` and `square_off` leave the state of every terminal row as it is: the first
only inserts, the other two ask `is_terminal` before they write. `modify` has no such guard
on its ambiguous-error branch.

* **`kept_iff_not_resurrects`** — one call keeps the state of every terminal row exactly when
  it is not a `Resurrects` step;
* **`terminal_rows_absorb_iff`** — so the rows of a whole run absorb exactly when none of its
  steps is one;
* **`modify_resurrects_filled`** — and such a step exists.
-/

namespace BrokerExec.Runtime

open BrokerExec.Domain (Order OrderIntent OrderState)
open BrokerExec.Errors (Error)
open BrokerExec.IntentLog (IntentOp IntentRecord)
open BrokerExec.Idempotency (UuidGenerator intentPayloadJson)
open BrokerExec.Lifecycle (isTerminal)

/-- Every row that is terminal in `w` has the same state in `w'`. -/
def StateKept (w w' : World) : Prop :=
  ∀ ref order, w.store.find ref = some order → isTerminal order.state = true →
    ∃ order', w'.store.find ref = some order' ∧ order'.state = order.state

theorem StateKept.refl (w : World) : StateKept w w := fun _ order h _ => ⟨order, h, rfl⟩

theorem StateKept.trans {a b c : World} (hab : StateKept a b) (hbc : StateKept b c) :
    StateKept a c := by
  intro ref order hfind hterm
  obtain ⟨order', hfind', hstate'⟩ := hab ref order hfind hterm
  obtain ⟨order'', hfind'', hstate''⟩ := hbc ref order' hfind' (by rw [hstate']; exact hterm)
  exact ⟨order'', hfind'', hstate''.trans hstate'⟩

theorem StateKept.of_store_eq {a b c : World} (hab : StateKept a b) (h : c.store = b.store) :
    StateKept a c := by
  intro ref order hfind hterm
  rw [h]
  exact hab ref order hfind hterm

/-! ## Effects -/

section Effects

variable {w₀ : World}

/-- `m` keeps the terminal states of `w₀`. -/
def KeepsTerminal {α : Type} (w₀ : World) (m : Act α) : Prop :=
  Process.Spec (StateKept w₀) m (fun _ => StateKept w₀) (StateKept w₀)

theorem KeepsTerminal.bind {α β : Type} {m : Act α} {f : α → Act β} (hm : KeepsTerminal w₀ m)
    (hf : ∀ a, KeepsTerminal w₀ (f a)) : KeepsTerminal w₀ (m >>= f) :=
  Process.Spec.bind hm hf

theorem KeepsTerminal.pure {α : Type} (a : α) : KeepsTerminal w₀ (Pure.pure a : Act α) :=
  Process.Spec.pure fun _ h => h

theorem KeepsTerminal.ask {α : Type} {effect : Tick → World → α × World}
    (h : ∀ t w, (effect t w).2.store = w.store) : KeepsTerminal w₀ (Process.ask effect) :=
  Process.Spec.ask (fun _ hw => hw) fun t w hw => hw.of_store_eq (h t w)

theorem KeepsTerminal.step {α : Type} {f : World → α × World}
    (h : ∀ w, (f w).2.store = w.store) : KeepsTerminal w₀ (Process.step f : Act α) :=
  Process.Spec.step fun w hw => hw.of_store_eq (h w)

/-- An insert adds a row where there was none. -/
theorem keepsTerminal_insertOrder (order : Order) : KeepsTerminal w₀ (insertOrder order) := by
  refine Process.Spec.ask (fun _ hw => hw) fun t w hw => ?_
  intro ref row hrow hterm
  obtain ⟨row', hfind, hstate⟩ := hw ref row hrow hterm
  refine ⟨row', ?_, hstate⟩
  show (w.store.insertOrder t.storeError order).2.find ref = _
  unfold Store.insertOrder
  cases t.storeError with
  | some error => exact hfind
  | none =>
    cases hdup : w.store.find order.intent.clientRef with
    | some _ => exact hfind
    | none =>
      have hne : ref ≠ order.intent.clientRef := by
        rintro rfl
        rw [hfind] at hdup
        cases hdup
      show (w.store.upsert order).find ref = _
      rw [Table.find_upsert, if_neg hne, hfind]

/-- A terminal row under the order's ref already has the order's state. -/
def Agrees (order : Order) (w : World) : Prop :=
  ∀ row, w.store.find order.intent.clientRef = some row → isTerminal row.state = true →
    order.state = row.state

theorem spec_upsertOrder (order : Order) :
    Process.Spec (fun w => StateKept w₀ w ∧ Agrees order w) (upsertOrder order)
      (fun _ => StateKept w₀) (StateKept w₀) := by
  refine Process.Spec.ask (fun _ hw => hw.1) fun t w hw => ?_
  obtain ⟨hkept, hagrees⟩ := hw
  intro ref row hrow hterm
  obtain ⟨row', hfind, hstate⟩ := hkept ref row hrow hterm
  show ∃ order', (w.store.upsertOrder t.storeError order).2.find ref = _ ∧ _
  unfold Store.upsertOrder
  cases t.storeError with
  | some error => exact ⟨row', hfind, hstate⟩
  | none =>
    show ∃ order', (w.store.upsert order).find ref = _ ∧ _
    rw [Table.find_upsert]
    split_ifs with href
    · subst href
      refine ⟨order, rfl, ?_⟩
      rw [hagrees row' hfind (by rw [hstate]; exact hterm), hstate]
    · exact ⟨row', hfind, hstate⟩

theorem keepsTerminal_append (op : IntentOp) (clientRef payloadJson : Bytes) :
    KeepsTerminal w₀ (append op clientRef payloadJson) := .ask fun _ _ => rfl

theorem keepsTerminal_appendResult (clientRef : Bytes) (payload : Int64 → Bytes) :
    KeepsTerminal w₀ (appendResult clientRef payload) := by
  have hclock : KeepsTerminal w₀ wallNs := .ask fun _ _ => rfl
  exact hclock.bind fun stamp => keepsTerminal_append _ _ _

/-- Recording an outcome and returning a value moves no row. -/
theorem keepsTerminal_conclude {α : Type} (clientRef : Bytes) (payload : Int64 → Bytes)
    (value : Result α) :
    KeepsTerminal w₀ (do
      match ← appendResult clientRef payload with
      | .error failure => return .error failure
      | .ok _ => return value) := by
  refine (keepsTerminal_appendResult clientRef payload).bind fun appended => ?_
  cases appended with
  | error failure => exact .pure _
  | ok _ => exact .pure _

theorem spec_project (order : Order) :
    Process.Spec (fun w => StateKept w₀ w ∧ Agrees order w) (project order)
      (fun _ => StateKept w₀) (StateKept w₀) := by
  refine (spec_upsertOrder order).bind fun upserted => ?_
  cases upserted with
  | error error => exact KeepsTerminal.pure _
  | ok _ => exact keepsTerminal_conclude _ _ _

/-! ## The operations with a guard -/

theorem keepsTerminal_settle (order : Order) : KeepsTerminal w₀ (settle order) := by
  refine (keepsTerminal_insertOrder order).bind fun inserted => ?_
  cases inserted with
  | error error => exact .pure _
  | ok _ => exact keepsTerminal_conclude _ _ _

theorem keepsTerminal_recordAndSend (placed : OrderIntent) :
    KeepsTerminal w₀ (recordAndSend placed) := by
  refine (keepsTerminal_append _ _ _).bind fun appended => ?_
  cases appended with
  | error error =>
    have hinsert : KeepsTerminal w₀ (insertUnsent placed.clientRef) := .step fun _ => rfl
    exact hinsert.bind fun _ => .pure _
  | ok _ =>
    have herase : KeepsTerminal w₀ (eraseUnsent placed.clientRef) := .step fun _ => rfl
    have hbarrier : KeepsTerminal w₀ runPreSendBarrier := .ask fun _ _ => rfl
    have hsend : KeepsTerminal w₀ (send (.place placed)) := .ask fun _ _ => rfl
    refine herase.bind fun _ => hbarrier.bind fun _ => hsend.bind fun ack => ?_
    cases ack with
    | ok brokerOrderId =>
      have hview : ∀ order view, KeepsTerminal w₀ (applyView order view) :=
        fun order view => .step fun _ => rfl
      exact (hview _ _).bind fun order => keepsTerminal_settle order
    | error error => exact keepsTerminal_settle _

theorem keepsTerminal_reserve (uuids : UuidGenerator) (strategy : Bytes) (intent : OrderIntent) :
    KeepsTerminal w₀ (reserve uuids strategy intent) := by
  have hlookup : ∀ signature, KeepsTerminal w₀ (existingRefForSignature signature) :=
    fun _ => .step fun _ => rfl
  have hfind : ∀ ref, KeepsTerminal w₀ (findOrder ref) := fun _ => .ask fun _ _ => rfl
  have hdraw : KeepsTerminal w₀ (nextUuid uuids) := .step fun _ => rfl
  have hregister : ∀ signature ref, KeepsTerminal w₀ (registerSignature signature ref) :=
    fun _ _ => .step fun _ => rfl
  refine (hlookup _).bind fun prior => ?_
  cases prior with
  | some prior =>
    refine (hfind prior).bind fun found => ?_
    cases found with
    | error error => exact .pure _
    | ok found => exact .pure _
  | none =>
    refine hdraw.bind fun uuid => (hfind _).bind fun found => ?_
    cases found with
    | error error => exact .pure _
    | ok found =>
      cases found with
      | some existing => exact (hregister _ _).bind fun _ => .pure _
      | none => exact (hregister _ _).bind fun _ => .pure _

theorem keepsTerminal_place (uuids : UuidGenerator) (strategy : Bytes) (intent : OrderIntent) :
    KeepsTerminal w₀ (place uuids strategy intent) := by
  refine (keepsTerminal_reserve uuids strategy intent).bind fun reserved => ?_
  cases reserved with
  | error error => exact .pure _
  | ok reservation =>
    obtain ⟨ref, isNew, existing⟩ := reservation
    dsimp only
    cases isNew with
    | true => exact keepsTerminal_recordAndSend _
    | false =>
      cases existing with
      | some order => exact .pure _
      | none =>
        have hunsent : KeepsTerminal w₀ (isUnsent ref) := .step fun _ => rfl
        refine hunsent.bind fun waiting => ?_
        cases waiting with
        | true => exact keepsTerminal_recordAndSend _
        | false => exact .pure _

/-- What a lookup returns is the row of the moment. -/
theorem spec_findOrder (clientRef : Bytes) :
    Process.Spec (StateKept w₀) (findOrder clientRef)
      (fun found w => StateKept w₀ w ∧ ∀ row, found = .ok row → w.store.find clientRef = row)
      (StateKept w₀) :=
  Process.Spec.ask (fun _ hw => hw) fun _ _ hw => ⟨hw, fun _ => Store.find_of_findOrder⟩

/-- The guard of `cancel` and `square_off`. -/
theorem keepsTerminal_markUnknown (clientRef : Bytes) :
    KeepsTerminal w₀ (markUnknown clientRef) := by
  refine (spec_findOrder clientRef).bind fun found => ?_
  rcases found with error | _ | order
  · exact Process.Spec.pure fun _ h => h.1
  · exact Process.Spec.pure fun _ h => h.1
  · dsimp only
    split_ifs with hterm
    · exact Process.Spec.pure fun _ h => h.1
    · refine (spec_upsertOrder _).weaken (fun w hw => ⟨hw.1, ?_⟩) fun _ _ h => h
      intro row hrow hrowterm
      have hfind := hw.2 _ rfl
      have href := (Table.mem_of_find hfind).2
      -- the row is the one just looked up, and it is not terminal
      rw [show ({ order with state := OrderState.unknown } : Order).intent.clientRef = clientRef
        from href, hfind] at hrow
      rw [← Option.some.inj hrow] at hrowterm
      exact absurd hrowterm hterm

theorem keepsTerminal_close (op : IntentOp) (name : Bytes) (call : BrokerCall)
    (brokerOrderId clientRef : Bytes) :
    KeepsTerminal w₀ (close op name call brokerOrderId clientRef) := by
  have hclock : KeepsTerminal w₀ wallNs := .ask fun _ _ => rfl
  have hbarrier : KeepsTerminal w₀ runPreSendBarrier := .ask fun _ _ => rfl
  have hsend : KeepsTerminal w₀ (send call) := .ask fun _ _ => rfl
  refine hclock.bind fun stamp => (keepsTerminal_append _ _ _).bind fun appended => ?_
  cases appended with
  | error error => exact .pure _
  | ok _ =>
    refine hbarrier.bind fun _ => hsend.bind fun outcome => ?_
    cases outcome with
    | ok _ => exact keepsTerminal_conclude _ _ _
    | error error =>
      dsimp only
      split_ifs
      · refine (keepsTerminal_markUnknown _).bind fun marked => ?_
        cases marked with
        | error failure => exact .pure _
        | ok _ => exact keepsTerminal_conclude _ _ _
      · exact keepsTerminal_conclude _ _ _

end Effects

/-! ## `modify` -/

/-- An ambiguous answer: `is_reconcile_first` holds of its error. -/
def Ambiguous (ack : Result Bytes) : Prop :=
  ∃ error, ack = .error error ∧ isReconcileFirst error = true

/-- The step that has no guard: a recorded `modify` of a terminal row gets an ambiguous
answer, and the row is found and written back. The five ticks answer the append, the barrier,
the broker call, the lookup and the upsert. -/
def Resurrects (w : World) (call : Call) (ticks : List Tick) : Prop :=
  ∃ brokerOrderId intent row t₀ t₁ t₂ t₃ t₄ rest, call = .modify brokerOrderId intent
    ∧ w.store.find intent.clientRef = some row ∧ isTerminal row.state = true
    ∧ ticks = t₀ :: t₁ :: t₂ :: t₃ :: t₄ :: rest
    ∧ w.log.attached = true ∧ t₀.write = .done ∧ Ambiguous t₂.broker
    ∧ t₃.storeError = none ∧ t₄.storeError = none

/-- After an unambiguous answer, or with no terminal row under the ref, no row is damaged. -/
theorem spec_concludeModify {w₀ : World} (brokerOrderId : Bytes) (intent : OrderIntent)
    (ack : Result Bytes) :
    Process.Spec
      (fun w => StateKept w₀ w ∧ (Ambiguous ack → ∀ row,
        w.store.find intent.clientRef = some row → isTerminal row.state = false))
      (concludeModify brokerOrderId intent ack) (fun _ => StateKept w₀) (StateKept w₀) := by
  have hfind : Process.Spec
      (fun w => StateKept w₀ w ∧ (Ambiguous ack → ∀ row,
        w.store.find intent.clientRef = some row → isTerminal row.state = false))
      (findOrder intent.clientRef)
      (fun found w => (StateKept w₀ w ∧ (Ambiguous ack → ∀ row,
        w.store.find intent.clientRef = some row → isTerminal row.state = false))
        ∧ ∀ row, found = .ok row → w.store.find intent.clientRef = row) (StateKept w₀) :=
    Process.Spec.ask (fun _ hw => hw.1) fun _ _ hw => ⟨hw, fun _ => Store.find_of_findOrder⟩
  refine hfind.bind fun found => ?_
  cases found with
  | error error => exact Process.Spec.pure fun _ h => h.1.1
  | ok found =>
    -- the row written back stands under the looked-up ref
    have href : ∀ w : World, w.store.find intent.clientRef = found →
        (found.getD (makeOrder intent .acknowledged)).intent.clientRef = intent.clientRef := by
      intro w hw
      cases found with
      | none => rfl
      | some row => exact (Table.mem_of_find hw).2
    cases ack with
    | ok ackedId =>
      refine (spec_project _).weaken (fun w hw => ⟨hw.1.1, ?_⟩) fun _ _ h => h
      intro row hrow hterm
      have hlooked := hw.2 _ rfl
      dsimp only at hrow ⊢
      rw [href w hlooked, hlooked] at hrow
      rw [hrow, Option.getD_some]
      have hpromoted : promotedByAck row.state = false := by
        cases hstate : row.state <;> rw [hstate] at hterm <;> first | rfl | cases hterm
      rw [hpromoted]
      rfl
    | error error =>
      dsimp only
      split_ifs with hfirst
      · refine (spec_project _).weaken (fun w hw => ⟨hw.1.1, ?_⟩) fun _ _ h => h
        intro row hrow hterm
        have hlooked := hw.2 _ rfl
        dsimp only at hrow
        rw [href w hlooked] at hrow
        have hlive := hw.1.2 ⟨error, rfl, hfirst⟩ row hrow
        rw [hlive] at hterm
        cases hterm
      · exact Process.Spec.weaken (keepsTerminal_conclude _ _ _) (fun _ h => h.1.1) fun _ _ h => h

/-- An append succeeds exactly on an open log whose write works. -/
theorem World.append_ok_iff (w : World) (t : Tick) (op : IntentOp) (clientRef payload : Bytes) :
    (∃ record, (w.append t op clientRef payload).1 = .ok record)
      ↔ w.log.attached = true ∧ t.write = .done := by
  show (∃ record, (w.log.append t.write t.wallTsNs op clientRef payload).1 = .ok record) ↔ _
  unfold IntentLog.append
  cases w.log.attached with
  | false => simp
  | true => cases t.write <;> simp

/-- Neither the sent orders nor the stored ones differ. -/
def SameOrders (w w' : World) : Prop := w'.store = w.store ∧ w'.placed = w.placed

theorem SameOrders.refl (w : World) : SameOrders w w := ⟨rfl, rfl⟩

/-- Recording an outcome touches neither the store nor what was sent. -/
theorem sameOrders_conclude (clientRef : Bytes) (payload : Int64 → Bytes) (value : Result Order)
    (ticks : List Tick) (w : World) :
    SameOrders w ((do
      match ← appendResult clientRef payload with
      | .error failure => return .error failure
      | .ok _ => return value : Act (Result Order)) ticks w).state := by
  have hclock : Process.Spec (SameOrders w) wallNs (fun _ => SameOrders w) (SameOrders w) :=
    Process.Spec.ask (fun _ h => h) fun _ _ h => h
  have happend : ∀ op ref payload, Process.Spec (SameOrders w) (append op ref payload)
      (fun _ => SameOrders w) (SameOrders w) :=
    fun _ _ _ => Process.Spec.ask (fun _ h => h) fun _ _ h => h
  refine Process.Spec.state ?_ ticks (SameOrders.refl w)
  refine Process.Spec.bind (Process.Spec.bind hclock fun _ => happend _ _ _) fun appended => ?_
  cases appended with
  | error failure => exact Process.Spec.pure fun _ h => h
  | ok _ => exact Process.Spec.pure fun _ h => h

/-- Writing back an order and recording the outcome: the store afterwards. -/
theorem project_store (order : Order) (t : Tick) (rest : List Tick) (w : World) :
    (project order (t :: rest) w).state.store = (w.store.upsertOrder t.storeError order).2 := by
  unfold project
  rw [Process.bind_apply, upsertOrder, Process.ask_cons]
  cases hresult : (w.store.upsertOrder t.storeError order).1 with
  | error error => rfl
  | ok _ => exact (sameOrders_conclude _ _ (.ok order) rest _).1

/-- `modify` answered by at least three ticks. -/
theorem modify_cons (brokerOrderId : Bytes) (intent : OrderIntent) (t₀ t₁ t₂ : Tick)
    (rest : List Tick) (w : World) (hok : w.log.attached = true ∧ t₀.write = .done) :
    ∃ w', w'.store = w.store ∧ modify brokerOrderId intent (t₀ :: t₁ :: t₂ :: rest) w
      = concludeModify brokerOrderId intent t₂.broker rest w' := by
  obtain ⟨record, hrecord⟩ := (w.append_ok_iff t₀ .modifyOrder intent.clientRef
    (intentPayloadJson intent)).mpr hok
  refine ⟨{ (w.append t₀ .modifyOrder intent.clientRef (intentPayloadJson intent)).2 with
    sent := w.sent ++ [.modify brokerOrderId intent] }, rfl, ?_⟩
  unfold modify
  rw [Process.bind_apply, append, Process.ask_cons]
  simp only [hrecord]
  rfl

/-- A `modify` that does not get as far as the broker's answer moves no row. -/
theorem modify_store_of_short (brokerOrderId : Bytes) (intent : OrderIntent) (ticks : List Tick)
    (w : World) (hshort : ¬ ∃ t₀ t₁ t₂ rest, ticks = t₀ :: t₁ :: t₂ :: rest
      ∧ w.log.attached = true ∧ t₀.write = .done) :
    (modify brokerOrderId intent ticks w).state.store = w.store := by
  rcases ticks with _ | ⟨t₀, ticks⟩
  · rfl
  unfold modify
  rw [Process.bind_apply, append, Process.ask_cons]
  cases hres : (w.append t₀ .modifyOrder intent.clientRef (intentPayloadJson intent)).1 with
  | error error => rfl
  | ok record =>
    have hok := (w.append_ok_iff t₀ .modifyOrder intent.clientRef
      (intentPayloadJson intent)).mp ⟨record, hres⟩
    rcases ticks with _ | ⟨t₁, _ | ⟨t₂, rest⟩⟩
    · rfl
    · rfl
    · exact absurd ⟨t₀, t₁, t₂, rest, rfl, hok⟩ hshort

/-- The order `modify` writes back after an ambiguous answer. -/
def unknownOrder (brokerOrderId : Bytes) (intent : OrderIntent) (w : World) : Order :=
  { (w.store.find intent.clientRef).getD (makeOrder intent .acknowledged) with
    brokerOrderId := brokerOrderId
    state := .unknown }

theorem concludeModify_ambiguous (brokerOrderId : Bytes) (intent : OrderIntent) {ack : Result Bytes}
    (hack : Ambiguous ack) (t : Tick) (rest : List Tick) (w : World) :
    concludeModify brokerOrderId intent ack (t :: rest) w =
      match t.storeError with
      | some error => .done (.error error) rest w
      | none => project (unknownOrder brokerOrderId intent w) rest w := by
  obtain ⟨error, rfl, hfirst⟩ := hack
  unfold concludeModify
  rw [Process.bind_apply, findOrder, Process.ask_cons]
  cases t.storeError with
  | some failure => rfl
  | none =>
    simp only [Store.findOrder, if_pos hfirst]
    rfl

/-- **`modify` keeps the terminal states unless it is a `Resurrects` step.** -/
theorem modify_kept (brokerOrderId : Bytes) (intent : OrderIntent) (ticks : List Tick) (w : World)
    (h : ¬ Resurrects w (.modify brokerOrderId intent) ticks) :
    StateKept w (modify brokerOrderId intent ticks w).state := by
  by_cases hshort : ∃ t₀ t₁ t₂ rest, ticks = t₀ :: t₁ :: t₂ :: rest
      ∧ w.log.attached = true ∧ t₀.write = .done
  swap
  · exact (StateKept.refl w).of_store_eq (modify_store_of_short _ _ _ _ hshort)
  obtain ⟨t₀, t₁, t₂, rest, rfl, hok⟩ := hshort
  obtain ⟨w', hstore, hrun⟩ := modify_cons brokerOrderId intent t₀ t₁ t₂ rest w hok
  rw [hrun]
  have hkept : StateKept w w' := (StateKept.refl w).of_store_eq hstore
  by_cases hack : Ambiguous t₂.broker
  swap
  · exact (spec_concludeModify brokerOrderId intent t₂.broker).state rest
      ⟨hkept, fun hamb => absurd hamb hack⟩
  by_cases hrow : ∃ row, w.store.find intent.clientRef = some row ∧ isTerminal row.state = true
  swap
  · refine (spec_concludeModify brokerOrderId intent t₂.broker).state rest ⟨hkept, ?_⟩
    intro _ row hfind
    rw [hstore] at hfind
    cases hterm : isTerminal row.state with
    | false => rfl
    | true => exact absurd ⟨row, hfind, hterm⟩ hrow
  -- a terminal row and an ambiguous answer: the upsert must not have happened
  obtain ⟨row, hfind, hterm⟩ := hrow
  rcases rest with _ | ⟨t₃, rest⟩
  · exact hkept
  rw [concludeModify_ambiguous _ _ hack]
  cases h₃ : t₃.storeError with
  | some error => exact hkept
  | none =>
    rcases rest with _ | ⟨t₄, rest⟩
    · exact hkept
    refine hkept.of_store_eq ?_
    rw [project_store]
    cases h₄ : t₄.storeError with
    | some error => rfl
    | none =>
      exact absurd ⟨brokerOrderId, intent, row, t₀, t₁, t₂, t₃, t₄, rest, rfl, hfind, hterm, rfl,
        hok.1, hok.2, hack, h₃, h₄⟩ h

/-- **One call keeps the state of every terminal row exactly when it is not a `Resurrects`
step.** -/
theorem kept_iff_not_resurrects (uuids : UuidGenerator) (w : World) (call : Call)
    (ticks : List Tick) :
    StateKept w (call.perform uuids ticks w).state ↔ ¬ Resurrects w call ticks := by
  constructor
  · rintro hkept ⟨brokerOrderId, intent, row, t₀, t₁, t₂, t₃, t₄, rest, rfl, hfind, hterm, rfl,
      hattached, hwrite, hack, h₃, h₄⟩
    obtain ⟨w', hstore, hrun⟩ := modify_cons brokerOrderId intent t₀ t₁ t₂ (t₃ :: t₄ :: rest) w
      ⟨hattached, hwrite⟩
    obtain ⟨order', hfind', hstate⟩ := hkept _ row hfind hterm
    rw [Call.perform, Process.state_bind_pure, hrun, concludeModify_ambiguous _ _ hack, h₃,
      project_store, h₄, Store.upsertOrder, unknownOrder, hstore, hfind, Option.getD_some,
      Table.find_upsert, if_pos (Table.mem_of_find hfind).2.symm] at hfind'
    rw [← Option.some.inj hfind'] at hstate
    rw [← hstate] at hterm
    cases hterm
  · intro h
    have hrefl := StateKept.refl w
    cases call with
    | place strategy intent =>
      rw [Call.perform, Process.state_bind_pure]
      exact (keepsTerminal_place uuids strategy intent).state ticks hrefl
    | modify brokerOrderId intent =>
      rw [Call.perform, Process.state_bind_pure]
      exact modify_kept brokerOrderId intent ticks w h
    | cancel brokerOrderId clientRef =>
      rw [Call.perform, Process.state_bind_pure]
      exact (keepsTerminal_close _ _ _ _ _).state ticks hrefl
    | squareOff brokerOrderId clientRef =>
      rw [Call.perform, Process.state_bind_pure]
      exact (keepsTerminal_close _ _ _ _ _).state ticks hrefl

/-! ## Whole runs -/

/-- The worlds of a run: the first, then the one after each call, up to where it stops. -/
def trace (uuids : UuidGenerator) : World → List (Call × List Tick) → List World
  | w, [] => [w]
  | w, (call, ticks) :: rest =>
    w :: match call.perform uuids ticks w with
      | .done _ _ w' => trace uuids w' rest
      | .stopped w' => [w']

/-- No step of the run is a `Resurrects` step. -/
def NoneResurrects (uuids : UuidGenerator) : World → List (Call × List Tick) → Prop
  | _, [] => True
  | w, (call, ticks) :: rest =>
    ¬ Resurrects w call ticks ∧
      match call.perform uuids ticks w with
      | .done _ _ w' => NoneResurrects uuids w' rest
      | .stopped _ => True

theorem trace_eq_cons (uuids : UuidGenerator) (w : World) (calls : List (Call × List Tick)) :
    ∃ tail, trace uuids w calls = w :: tail := by
  cases calls with
  | nil => exact ⟨[], rfl⟩
  | cons call calls => exact ⟨_, rfl⟩

/-- In front of a run, a step keeps what the run keeps. -/
theorem pairwise_cons_trace (uuids : UuidGenerator) (w w' : World)
    (calls : List (Call × List Tick)) :
    (w :: trace uuids w' calls).Pairwise StateKept
      ↔ StateKept w w' ∧ (trace uuids w' calls).Pairwise StateKept := by
  obtain ⟨tail, htail⟩ := trace_eq_cons uuids w' calls
  rw [htail, List.pairwise_cons]
  constructor
  · rintro ⟨hhead, hrest⟩
    exact ⟨hhead w' (by simp), hrest⟩
  · rintro ⟨hstep, hrest⟩
    refine ⟨?_, hrest⟩
    intro v hv
    rcases List.mem_cons.mp hv with rfl | hv
    · exact hstep
    · exact hstep.trans ((List.pairwise_cons.mp hrest).1 v hv)

/-- **Terminal rows absorb exactly in the runs without a `Resurrects` step**: there every
world keeps the terminal states of every earlier one. -/
theorem terminal_rows_absorb_iff (uuids : UuidGenerator) (w : World)
    (calls : List (Call × List Tick)) :
    (trace uuids w calls).Pairwise StateKept ↔ NoneResurrects uuids w calls := by
  induction calls generalizing w with
  | nil => simp [trace, NoneResurrects]
  | cons call calls ih =>
    obtain ⟨call, ticks⟩ := call
    have hstep := kept_iff_not_resurrects uuids w call ticks
    rw [trace, NoneResurrects]
    cases hrun : call.perform uuids ticks w with
    | done value unused w' =>
      rw [hrun] at hstep
      rw [pairwise_cons_trace, ih, ← hstep]
      rfl
    | stopped w' =>
      rw [hrun] at hstep
      rw [← hstep]
      simp [Outcome.state]

/-- A filled order. -/
def filledOrder : Order :=
  ⟨⟨ascii "s-1", ascii "NIFTY", .buy, 50, 0, none, .market, .intraday, ascii "s"⟩, .filled,
    ascii "B1", 50, 100⟩

/-- A timeout, with everything else working. -/
def timeoutTick : Tick :=
  ⟨.done, 0, none, .error (Errors.makeError .timeout (ascii "timed out"))⟩

def filledWorld : World :=
  { World.blank IntentLog.sampleLog with store := Table.upsert .empty filledOrder }

/-- **A `modify` that times out resurrects a filled order as `Unknown`.** -/
theorem modify_resurrects_filled :
    ¬ (trace .numbered filledWorld
      [(.modify (ascii "B1") filledOrder.intent, List.replicate 7 timeoutTick)]).Pairwise
        StateKept := by
  let call : Call := .modify (ascii "B1") filledOrder.intent
  have hresurrects : Resurrects filledWorld call (List.replicate 7 timeoutTick) :=
    ⟨ascii "B1", filledOrder.intent, filledOrder, timeoutTick, timeoutTick, timeoutTick,
      timeoutTick, timeoutTick, [timeoutTick, timeoutTick], rfl, by decide, rfl, rfl, rfl, rfl,
      ⟨_, rfl, by decide⟩, rfl, rfl⟩
  intro h
  apply (kept_iff_not_resurrects .numbered filledWorld call _).mp ?_ hresurrects
  rw [trace] at h
  cases hrun : call.perform .numbered (List.replicate 7 timeoutTick) filledWorld with
  | done value unused w' =>
    rw [hrun] at h
    exact (List.pairwise_cons.mp h).1 w' (by simp [trace])
  | stopped w' =>
    rw [hrun] at h
    exact (List.pairwise_cons.mp h).1 w' (by simp)

end BrokerExec.Runtime
