import BrokerExec.Lib.Moment
import BrokerExec.Runtime.AtMostOnce

/-!
# Record, then send, then record

The moments of a dispatcher's run at which a mutation reaches the broker.

* **`write_ahead`** — at each of them the newest record of the intent log is a successfully
  appended one of the same operation and client ref; and the row that a successful insert adds
  behind a `place` has the state that the broker's answer calls for.
-/

namespace BrokerExec.Runtime

open BrokerExec.Domain (Order OrderIntent OrderState canonicalText)
open BrokerExec.Errors (Error)
open BrokerExec.IntentLog (IntentOp IntentRecord)
open BrokerExec.Idempotency (UuidGenerator intentPayloadJson)
open BrokerExec.Lifecycle (BrokerView)

/-! ## What is recorded and what follows -/

/-- The log's newest record is a successfully appended one of this operation and ref: only a
successful append makes it what the log answers for the ref. -/
def Logged (op : IntentOp) (clientRef : Bytes) (w : World) : Prop :=
  ∃ record, w.recorded.getLast? = some record ∧ record.op = op
    ∧ record.clientRef = canonicalText clientRef ∧ w.log.lastFor clientRef = some record

/-- The state of a freshly placed order, by the broker's answer. -/
def placedState : Result Bytes → OrderState
  | .ok _ => .acknowledged
  | .error error => if isReconcileFirst error then .unknown else .rejected

/-- The store's insert behind a `place` succeeds: no error, and no row under the ref. -/
def InsertSucceeds (w : World) (t : Tick) (clientRef : Bytes) : Prop :=
  t.storeError = none ∧ w.store.find clientRef = none

/-- The one row under this ref has this state. -/
def OneRow (store : Store) (clientRef : Bytes) (state : OrderState) : Prop :=
  ∃ row, (∀ r, r ∈ store.rows ∧ r.intent.clientRef = clientRef ↔ r = row) ∧ row.state = state

/-- Behind a `place` that was answered with `t` in the world `w`: a successful insert makes the
one row, and a failed one leaves the store as it is. -/
def RowFollows (w : World) (t : Tick) (intent : OrderIntent) (future : List Tick → World) : Prop :=
  (future []).store = w.store ∧
  ∀ t' back,
    (InsertSucceeds w t' intent.clientRef →
      OneRow (future (t' :: back)).store intent.clientRef (placedState t.broker))
    ∧ (¬ InsertSucceeds w t' intent.clientRef → (future (t' :: back)).store = w.store)

/-- The mutation a dispatcher call makes, with the operation and client ref it is recorded
under. -/
inductive Call.Sends : Call → BrokerCall → IntentOp → Bytes → Prop
  | place (strategy : Bytes) (intent : OrderIntent) (clientRef : Bytes) :
    Sends (.place strategy intent) (.place { intent with clientRef := clientRef }) .placeOrder
      clientRef
  | modify (brokerOrderId : Bytes) (intent : OrderIntent) :
    Sends (.modify brokerOrderId intent) (.modify brokerOrderId intent) .modifyOrder
      intent.clientRef
  | cancel (brokerOrderId clientRef : Bytes) :
    Sends (.cancel brokerOrderId clientRef) (.cancel brokerOrderId) .cancelOrder clientRef
  | squareOff (brokerOrderId clientRef : Bytes) :
    Sends (.squareOff brokerOrderId clientRef) (.squareOff brokerOrderId) .squareOff clientRef

/-- What holds of a moment at which `call` reaches the broker. -/
def LoggedAhead (call : Call) (w : World) (t : Tick) (future : List Tick → World) : Prop :=
  ∃ b op clientRef, (future []).sent = w.sent ++ [b] ∧ call.Sends b op clientRef
    ∧ Logged op clientRef w ∧ ∀ intent, b = .place intent → RowFollows w t intent future

/-! ## The engine

A dispatcher applies views of key 1 only, and none of them is stale. -/

def Current (w : World) : Prop := ∀ ref key, w.fsm.lastKey ref = some key → key ≤ 1

theorem Current.congr {w w' : World} (h : w'.fsm = w.fsm) (hw : Current w) : Current w' := by
  intro ref key hkey
  rw [h] at hkey
  exact hw ref key hkey

/-- The acknowledgement of a placed order is applied. -/
theorem apply_ack {w : World} (hw : Current w) (placed : OrderIntent) (brokerOrderId : Bytes) :
    (w.fsm.apply (makeOrder placed .sent)
        ⟨placed.clientRef, brokerOrderId, .acknowledged, 0, 0, 1⟩).2.1.state = .acknowledged
      ∧ (w.fsm.apply (makeOrder placed .sent)
        ⟨placed.clientRef, brokerOrderId, .acknowledged, 0, 0, 1⟩).2.1.intent = placed
      ∧ ∀ w', w'.fsm = (w.fsm.apply (makeOrder placed .sent)
        ⟨placed.clientRef, brokerOrderId, .acknowledged, 0, 0, 1⟩).2.2 → Current w' := by
  set view : BrokerView := ⟨placed.clientRef, brokerOrderId, .acknowledged, 0, 0, 1⟩ with hview
  have hfresh : w.fsm.isStale view = false := by
    rw [Lifecycle.LifecycleEngine.isStale_eq, Option.any_eq_false]
    intro key hkey
    rw [decide_eq_false_iff_not, Int64.not_lt]
    exact hw _ key hkey
  have htaken : ¬ Lifecycle.Refused w.fsm (makeOrder placed .sent) view :=
    Lifecycle.not_refused_iff.mpr ⟨rfl, hfresh, rfl⟩
  rw [Lifecycle.apply_absorbed htaken]
  refine ⟨rfl, rfl, fun w' hw' ref key hkey => ?_⟩
  rw [hw'] at hkey
  have hkey : Function.update w.fsm.lastKey placed.clientRef (some 1) ref = some key := hkey
  rw [Function.update_apply] at hkey
  split_ifs at hkey with href
  · cases hkey
    exact Int64.le_refl 1
  · exact hw ref key hkey

/-! ## Effects that reach neither the broker nor the engine -/

/-- The mutations sent so far and the engine. -/
def World.seen (w : World) : List BrokerCall × Lifecycle.LifecycleEngine := (w.sent, w.fsm)

abbrev Unseen {α : Type} (m : Act α) : Prop := Process.Silent World.seen m

theorem unseen_findOrder (clientRef : Bytes) : Unseen (findOrder clientRef) :=
  .ask fun _ _ => rfl

theorem unseen_upsertOrder (order : Order) : Unseen (upsertOrder order) := .ask fun _ _ => rfl

theorem unseen_append (op : IntentOp) (clientRef payloadJson : Bytes) :
    Unseen (append op clientRef payloadJson) := .ask fun _ _ => rfl

theorem unseen_wallNs : Unseen wallNs := .ask fun _ _ => rfl

theorem unseen_barrier : Unseen runPreSendBarrier := .ask fun _ _ => rfl

theorem unseen_appendResult (clientRef : Bytes) (payload : Int64 → Bytes) :
    Unseen (appendResult clientRef payload) :=
  unseen_wallNs.bind fun stamp => unseen_append _ _ (payload stamp)

/-- A result record and what is returned behind it. -/
theorem unseen_conclude {α : Type} (clientRef : Bytes) (payload : Int64 → Bytes)
    (value : Result α) :
    Unseen (do
      match ← appendResult clientRef payload with
      | .error failure => return .error failure
      | .ok _ => return value) := by
  refine (unseen_appendResult clientRef payload).bind fun appended => ?_
  cases appended with
  | error failure => exact .pure _
  | ok _ => exact .pure _

theorem unseen_settle (order : Order) : Unseen (settle order) := by
  have hinsert : Unseen (insertOrder order) := .ask fun _ _ => rfl
  refine hinsert.bind fun inserted => ?_
  cases inserted with
  | error error => exact .pure _
  | ok _ => exact unseen_conclude _ _ _

theorem unseen_project (order : Order) : Unseen (project order) := by
  refine (unseen_upsertOrder order).bind fun upserted => ?_
  cases upserted with
  | error error => exact .pure _
  | ok _ => exact unseen_conclude _ _ _

theorem unseen_concludeModify (brokerOrderId : Bytes) (intent : OrderIntent) (ack : Result Bytes) :
    Unseen (concludeModify brokerOrderId intent ack) := by
  refine (unseen_findOrder _).bind fun found => ?_
  cases found with
  | error error => exact .pure _
  | ok found =>
    cases ack with
    | ok ackedId => exact unseen_project _
    | error error =>
      dsimp only
      split_ifs
      · exact unseen_project _
      · exact unseen_conclude _ _ _

theorem unseen_markUnknown (clientRef : Bytes) : Unseen (markUnknown clientRef) := by
  refine (unseen_findOrder _).bind fun found => ?_
  split
  · split_ifs
    · exact .pure _
    · exact unseen_upsertOrder _
  · exact .pure _

/-- `cancel` and `square_off` once the broker has answered. -/
theorem unseen_concludeClose (name brokerOrderId clientRef : Bytes) (outcome : Result Bytes) :
    Unseen (do
      match outcome with
      | .ok _ =>
        match ← appendResult clientRef (opOutcomeJson name (ascii "ok") brokerOrderId) with
        | .error error => return .error error
        | .ok _ => return .ok ()
      | .error error =>
        if isReconcileFirst error then
          match ← markUnknown clientRef with
          | .error failure => return .error failure
          | .ok () =>
            match ← appendResult clientRef (opOutcomeJson name (ascii "unknown") brokerOrderId) with
            | .error failure => return .error failure
            | .ok _ => return .error error
        else
          match ← appendResult clientRef (opOutcomeJson name (ascii "rejected") brokerOrderId) with
          | .error failure => return .error failure
          | .ok _ => return (.error error : Result Unit)) := by
  cases outcome with
  | ok _ => exact unseen_conclude _ _ _
  | error error =>
    dsimp only
    split_ifs
    · refine (unseen_markUnknown _).bind fun marked => ?_
      cases marked with
      | error failure => exact .pure _
      | ok _ => exact unseen_conclude _ _ _
    · exact unseen_conclude _ _ _

theorem unseen_reserve (uuids : UuidGenerator) (strategy : Bytes) (intent : OrderIntent) :
    Unseen (reserve uuids strategy intent) := by
  have hregister : ∀ (signature ref : Bytes) (value : Result Reservation),
      Unseen (do
        registerSignature signature ref
        return value) := by
    intro signature ref value
    have : Unseen (registerSignature signature ref) := .step fun _ => rfl
    exact this.bind fun _ => .pure _
  have hexisting : Unseen (existingRefForSignature (Idempotency.signalSignature intent)) :=
    .step fun _ => rfl
  have hnext : Unseen (nextUuid uuids) := .step fun _ => rfl
  refine hexisting.bind fun prior => ?_
  cases prior with
  | some prior =>
    refine (unseen_findOrder _).bind fun found => ?_
    cases found with
    | error error => exact .pure _
    | ok found => exact .pure _
  | none =>
    refine hnext.bind fun uuid => (unseen_findOrder _).bind fun found => ?_
    cases found with
    | error error => exact .pure _
    | ok found =>
      cases found with
      | some existing => exact hregister _ _ _
      | none => exact hregister _ _ _

theorem regular_reserve (uuids : UuidGenerator) (strategy : Bytes) (intent : OrderIntent) :
    Process.Regular (reserve uuids strategy intent) := by
  have hregister : ∀ (signature ref : Bytes) (value : Result Reservation),
      Process.Regular (do
        registerSignature signature ref
        return value : Act (Result Reservation)) :=
    fun signature ref value => (Process.Regular.step _).bind fun _ => .pure _
  refine (Process.Regular.step _).bind fun prior => ?_
  cases prior with
  | some prior =>
    refine (Process.Regular.ask _).bind fun found => ?_
    cases found with
    | error error => exact .pure _
    | ok found => exact .pure _
  | none =>
    refine (Process.Regular.step _).bind fun uuid => (Process.Regular.ask _).bind fun found => ?_
    cases found with
    | error error => exact .pure _
    | ok found =>
      cases found with
      | some existing => exact hregister _ _ _
      | none => exact hregister _ _ _

/-! ## The store behind a `place` -/

theorem oneRow_upsert (store : Store) (order : Order) :
    OneRow (store.upsert order) order.intent.clientRef order.state := by
  refine ⟨order, fun r => ?_, rfl⟩
  rw [Table.mem_upsert]
  constructor
  · rintro ⟨rfl | ⟨-, hne⟩, href⟩
    · rfl
    · exact absurd href hne
  · rintro rfl
    exact ⟨.inl rfl, rfl⟩

/-- The insert is the next effect, and what follows it leaves the store alone. -/
theorem store_settle (order : Order) (w : World) :
    (settle order [] w).state.store = w.store ∧
    ∀ t back, (settle order (t :: back) w).state.store
      = (w.store.insertOrder t.storeError order).2 := by
  refine ⟨rfl, fun t back => ?_⟩
  have hresult : ∀ inserted : Result Unit, Process.Silent World.store (do
      match inserted with
      | .error error => return .error error
      | .ok () =>
        match ← appendResult order.intent.clientRef
          (outcomeJson order.state order.brokerOrderId) with
        | .error error => return .error error
        | .ok _ => return (.ok order : Result Order)) := by
    intro inserted
    cases inserted with
    | error error => exact .pure _
    | ok _ =>
      have happend : Process.Silent World.store (appendResult order.intent.clientRef
          (outcomeJson order.state order.brokerOrderId)) :=
        Process.Silent.bind (.ask fun _ _ => rfl) fun _ => .ask fun _ _ => rfl
      refine happend.bind fun appended => ?_
      cases appended with
      | error error => exact .pure _
      | ok _ => exact .pure _
  exact hresult _ back _

theorem rowFollows_settle {w : World} (w' : World) (order : Order) {t : Tick}
    (hstore : w'.store = w.store)
    (hstate : order.state = placedState t.broker) :
    RowFollows w t order.intent fun back => (settle order back w').state := by
  obtain ⟨hnone, hsome⟩ := store_settle order w'
  refine ⟨hnone.trans hstore, fun t' back => ⟨?_, ?_⟩⟩
  · rintro ⟨herror, hfind⟩
    dsimp only
    rw [hsome, hstore, ← hstate]
    unfold Store.insertOrder
    rw [herror]
    dsimp only
    rw [hfind]
    exact oneRow_upsert w.store order
  · intro hfails
    dsimp only
    rw [hsome, hstore]
    unfold Store.insertOrder
    cases herror : t'.storeError with
    | some error => rfl
    | none =>
      cases hfind : w.store.find order.intent.clientRef with
      | some row => rfl
      | none => exact absurd ⟨herror, hfind⟩ hfails

/-! ## The moments of the operations -/

/-- A successful append is the log's newest record and its answer for the ref. -/
theorem spec_append_logged (op : IntentOp) (clientRef payloadJson : Bytes) {pre : World → Prop}
    (hpre : ∀ w w', w'.fsm = w.fsm → pre w → pre w') :
    Process.Spec pre (append op clientRef payloadJson)
      (fun result w => pre w ∧ ∀ record, result = .ok record → Logged op clientRef w)
      (fun _ => True) := by
  refine Process.Spec.ask (fun _ _ => trivial) fun t w hw => ⟨hpre w _ rfl hw, ?_⟩
  intro record hok
  show Logged op clientRef (w.append t op clientRef payloadJson).2
  have hrecord : (w.append t op clientRef payloadJson).1 = .ok record := hok
  unfold World.append at hrecord ⊢
  unfold Logged IntentLog.lastFor
  unfold IntentLog.append at hrecord ⊢
  by_cases hattached : w.log.attached = false
  · rw [if_pos hattached] at hrecord
    cases hrecord
  · rw [if_neg hattached] at hrecord ⊢
    cases hwrite : t.write with
    | shortWrite n =>
      rw [hwrite] at hrecord
      cases hrecord
    | syncFailed n =>
      rw [hwrite] at hrecord
      cases hrecord
    | done =>
      refine ⟨w.log.nextRecord t.wallTsNs op clientRef payloadJson, ?_, rfl, rfl, ?_⟩
      · -- the whole line landed
        have hwhole : (w.log.attached && (w.log.nextRecord t.wallTsNs op clientRef payloadJson).text.isPrefixOf
            (WriteIo.done.landed (IntentLog.toJsonLine
              (w.log.nextRecord t.wallTsNs op clientRef payloadJson)))) = true := by
          rw [Bool.and_eq_true, List.isPrefixOf_iff_prefix]
          exact ⟨by simpa using hattached, List.prefix_append _ _⟩
        dsimp only
        rw [hwhole]
        exact List.getLast?_concat
      · exact Function.update_self ..

abbrev Sent (w : World) : List BrokerCall := w.sent

theorem unseen_sent {α : Type} {m : Act α} (h : Unseen m) : Process.Silent Sent m :=
  Process.Silent.comp h Prod.fst

theorem Logged.congr {op : IntentOp} {clientRef : Bytes} {w w' : World} (h : Logged op clientRef w)
    (hrecorded : w'.recorded = w.recorded) (hlog : w'.log = w.log) : Logged op clientRef w' := by
  unfold Logged
  rw [hrecorded, hlog]
  exact h

/-- The barrier and the send behind a successful append. -/
theorem acts_send {α : Type} {op : IntentOp} {clientRef : Bytes} {call : BrokerCall}
    {pre : World → Prop} {f : Result Bytes → Act α} (hf : ∀ answer, Process.Silent Sent (f answer)) :
    Process.Acts Sent (fun w => pre w ∧ Logged op clientRef w)
      (do
        runPreSendBarrier
        let answer ← send call
        f answer)
      (fun w t future => pre w ∧ Logged op clientRef w ∧ (future []).sent = w.sent ++ [call]
        ∧ future = fun back => (f t.broker back { w with sent := w.sent ++ [call] }).state) := by
  have hbarrier : Process.Spec (fun w => pre w ∧ Logged op clientRef w) runPreSendBarrier
      (fun _ w => pre w ∧ Logged op clientRef w) (fun _ => True) :=
    Process.Spec.ask (fun _ _ => trivial) fun _ _ hw => hw
  refine Process.Acts.bind (.ask _) (unseen_sent unseen_barrier) hbarrier fun _ => ?_
  exact Process.Acts.ask_bind hf fun w t hw => ⟨hw.1, hw.2, hf t.broker [] _, rfl⟩

/-- An operation that returns at once unless its record was appended. -/
theorem acts_append {α : Type} {op : IntentOp} {clientRef payloadJson : Bytes}
    {pre : World → Prop} (hpre : ∀ w w', w'.fsm = w.fsm → pre w → pre w')
    {f : Result IntentRecord → Act α} {R : World → Tick → (List Tick → World) → Prop}
    (herror : ∀ error, Process.Silent Sent (f (.error error)))
    (hok : ∀ record, Process.Acts Sent (fun w => pre w ∧ Logged op clientRef w) (f (.ok record)) R) :
    Process.Acts Sent pre (append op clientRef payloadJson >>= f) R := by
  refine Process.Acts.bind (.ask _) (unseen_sent (unseen_append _ _ _))
    (spec_append_logged op clientRef payloadJson hpre) fun result => ?_
  cases result with
  | error error => exact Process.Acts.of_silent (herror error)
  | ok record =>
    exact (hok record).weaken (fun w hw => ⟨hw.1, hw.2 record rfl⟩) fun _ _ _ h => h

/-- What `modify`, `cancel` and `square_off` do once their record is there. -/
theorem covered_of_send {call : Call} {b : BrokerCall} {op : IntentOp} {clientRef : Bytes}
    (hsends : call.Sends b op clientRef) (hplace : ∀ intent, b ≠ .place intent) {w : World} {t : Tick}
    {future : List Tick → World} (hlogged : Logged op clientRef w)
    (hsent : (future []).sent = w.sent ++ [b]) : LoggedAhead call w t future :=
  ⟨b, op, clientRef, hsent, hsends, hlogged, fun intent h => absurd h (hplace intent)⟩

theorem acts_modify (brokerOrderId : Bytes) (intent : OrderIntent) :
    Process.Acts Sent Current (modify brokerOrderId intent)
      (LoggedAhead (.modify brokerOrderId intent)) := by
  refine acts_append (fun _ _ h => Current.congr h) (fun error => .pure _) fun record => ?_
  refine (acts_send fun answer =>
    unseen_sent (unseen_concludeModify brokerOrderId intent answer)).weaken (fun _ hw => hw) ?_
  rintro w t future ⟨-, hlogged, hsent, -⟩
  exact covered_of_send (.modify brokerOrderId intent) (fun _ => by simp) hlogged hsent

theorem acts_close {call : Call} {b : BrokerCall} {op : IntentOp} {brokerOrderId clientRef : Bytes}
    (name : Bytes) (hsends : call.Sends b op clientRef) (hplace : ∀ intent, b ≠ .place intent) :
    Process.Acts Sent Current (close op name b brokerOrderId clientRef) (LoggedAhead call) := by
  have hclock : Process.Spec Current wallNs (fun _ => Current) (fun _ => True) :=
    Process.Spec.ask (fun _ _ => trivial) fun _ _ hw => hw
  refine Process.Acts.bind (.ask _) (unseen_sent unseen_wallNs) hclock fun stamp => ?_
  refine acts_append (fun _ _ h => Current.congr h) (fun error => .pure _) fun record => ?_
  refine (acts_send fun answer =>
    unseen_sent (unseen_concludeClose name brokerOrderId clientRef answer)).weaken
      (fun _ hw => hw) ?_
  rintro w t future ⟨-, hlogged, hsent, -⟩
  exact covered_of_send hsends hplace hlogged hsent

/-! ## `place` -/

theorem silent_settle (order : Order) : Process.Silent Sent (settle order) :=
  unseen_sent (unseen_settle order)

/-- What `place` does with the broker's answer. -/
def concludePlace (placed : OrderIntent) (answer : Result Bytes) : Act (Result Order) := do
  match answer with
  | .ok brokerOrderId =>
    let order ← applyView (makeOrder placed .sent)
      ⟨placed.clientRef, brokerOrderId, .acknowledged, 0, 0, 1⟩
    settle order
  | .error error =>
    settle (makeOrder placed (if isReconcileFirst error then .unknown else .rejected))

theorem silent_concludePlace (placed : OrderIntent) (answer : Result Bytes) :
    Process.Silent Sent (concludePlace placed answer) := by
  cases answer with
  | ok brokerOrderId =>
    have happly : ∀ order view, Process.Silent Sent (applyView order view) :=
      fun order view => .step fun _ => rfl
    exact (happly _ _).bind fun order => silent_settle order
  | error error => exact silent_settle _

theorem rowFollows_concludePlace {w w' : World} (hcurrent : Current w) {t : Tick}
    {placed : OrderIntent} (hfsm : w'.fsm = w.fsm) (hstore : w'.store = w.store) :
    RowFollows w t placed fun back => (concludePlace placed t.broker back w').state := by
  cases hanswer : t.broker with
  | ok brokerOrderId =>
    obtain ⟨hstate, hintent, -⟩ := apply_ack (Current.congr hfsm hcurrent) placed brokerOrderId
    have hrow := rowFollows_settle { w' with fsm :=
        (w'.fsm.apply (makeOrder placed .sent)
          ⟨placed.clientRef, brokerOrderId, .acknowledged, 0, 0, 1⟩).2.2 } _ (t := t) hstore
      (hstate.trans (by rw [hanswer]; rfl))
    rw [hintent] at hrow
    exact hrow
  | error error =>
    exact rowFollows_settle w'
      (makeOrder placed (if isReconcileFirst error then .unknown else .rejected)) (t := t) hstore
      (by rw [hanswer]; rfl)

theorem acts_recordAndSend (placed : OrderIntent) :
    Process.Acts Sent Current (recordAndSend placed) (fun w t future =>
      Logged .placeOrder placed.clientRef w ∧ (future []).sent = w.sent ++ [.place placed]
        ∧ RowFollows w t placed future) := by
  have hunsent : ∀ error, Process.Silent Sent (do
      insertUnsent placed.clientRef
      return (.error error : Result Order)) := by
    intro error
    have : Process.Silent Sent (insertUnsent placed.clientRef) := .step fun _ => rfl
    exact this.bind fun _ => .pure _
  have herase : Process.Silent Sent (eraseUnsent placed.clientRef) := .step fun _ => rfl
  refine acts_append (fun _ _ h => Current.congr h) hunsent fun record => ?_
  have hkept : Process.Spec (fun w => Current w ∧ Logged .placeOrder placed.clientRef w)
      (eraseUnsent placed.clientRef)
      (fun _ w => Current w ∧ Logged .placeOrder placed.clientRef w) (fun _ => True) :=
    Process.Spec.step fun _ hw => hw
  refine Process.Acts.bind (.step _) herase hkept fun _ => ?_
  refine (acts_send (silent_concludePlace placed)).weaken (fun _ hw => hw) ?_
  rintro w t future ⟨hcurrent, hlogged, hsent, hfuture⟩
  refine ⟨hlogged, hsent, ?_⟩
  rw [hfuture]
  exact rowFollows_concludePlace hcurrent rfl rfl

theorem acts_place (uuids : UuidGenerator) (strategy : Bytes) (intent : OrderIntent) :
    Process.Acts Sent Current (place uuids strategy intent) (LoggedAhead (.place strategy intent)) := by
  have hsend : ∀ clientRef, Process.Acts Sent Current
      (recordAndSend { intent with clientRef := clientRef }) (LoggedAhead (.place strategy intent)) := by
    intro clientRef
    refine (acts_recordAndSend _).weaken (fun _ hw => hw) ?_
    rintro w t future ⟨hlogged, hsent, hrow⟩
    refine ⟨_, _, _, hsent, .place strategy intent clientRef, hlogged, ?_⟩
    rintro _ ⟨rfl⟩
    exact hrow
  have hreserve : Process.Spec Current (reserve uuids strategy intent) (fun _ => Current)
      (fun _ => True) :=
    (Process.Spec.of_silent (unseen_reserve uuids strategy intent)
      fun _ _ h => Current.congr (congrArg Prod.snd h)).weaken_stop fun _ _ => trivial
  refine Process.Acts.bind (regular_reserve uuids strategy intent)
    (unseen_sent (unseen_reserve uuids strategy intent)) hreserve fun reserved => ?_
  cases reserved with
  | error error => exact Process.Acts.of_silent (.pure _)
  | ok reservation =>
    obtain ⟨ref, isNew, existing⟩ := reservation
    cases isNew with
    | true => exact hsend ref
    | false =>
      cases existing with
      | some order => exact Process.Acts.of_silent (.pure _)
      | none =>
        have hunsent : Process.Silent Sent (isUnsent ref) := .step fun _ => rfl
        have hkept : Process.Spec Current (isUnsent ref) (fun _ => Current) (fun _ => True) :=
          Process.Spec.step fun _ hw => hw
        refine Process.Acts.bind (.step _) hunsent hkept fun b => ?_
        cases b with
        | true => exact hsend ref
        | false => exact Process.Acts.of_silent (.pure _)

theorem acts_perform (uuids : UuidGenerator) (call : Call) :
    Process.Acts Sent Current (call.perform uuids) (LoggedAhead call) := by
  cases call with
  | place strategy intent => exact (acts_place uuids strategy intent).bind_pure ()
  | modify brokerOrderId intent => exact (acts_modify brokerOrderId intent).bind_pure ()
  | cancel brokerOrderId clientRef =>
    exact (acts_close (ascii "cancel") (.cancel brokerOrderId clientRef) fun _ => by simp).bind_pure ()
  | squareOff brokerOrderId clientRef =>
    exact (acts_close (ascii "square_off") (.squareOff brokerOrderId clientRef)
      fun _ => by simp).bind_pure ()

/-! ## The engine along a run -/

/-- A process that leaves the engine alone keeps it current. -/
theorem current_of_silent {α : Type} {m : Act α} (h : Process.Silent World.fsm m) :
    Process.Spec Current m (fun _ => Current) Current :=
  Process.Spec.of_silent h fun _ _ heq => Current.congr heq

theorem unseen_fsm {α : Type} {m : Act α} (h : Unseen m) : Process.Silent World.fsm m :=
  Process.Silent.comp h Prod.snd

theorem fsm_send (call : BrokerCall) : Process.Silent World.fsm (send call) := .ask fun _ _ => rfl

theorem current_concludePlace (placed : OrderIntent) (answer : Result Bytes) :
    Process.Spec Current (concludePlace placed answer) (fun _ => Current) Current := by
  cases answer with
  | ok brokerOrderId =>
    have happly : Process.Spec Current
        (applyView (makeOrder placed .sent)
          ⟨placed.clientRef, brokerOrderId, .acknowledged, 0, 0, 1⟩)
        (fun _ => Current) Current :=
      Process.Spec.step fun w hw => (apply_ack hw placed brokerOrderId).2.2 _ rfl
    exact happly.bind fun order => current_of_silent (unseen_fsm (unseen_settle order))
  | error error => exact current_of_silent (unseen_fsm (unseen_settle _))

theorem current_recordAndSend (placed : OrderIntent) :
    Process.Spec Current (recordAndSend placed) (fun _ => Current) Current := by
  refine (current_of_silent (unseen_fsm (unseen_append _ _ _))).bind fun appended => ?_
  cases appended with
  | error error =>
    have : Process.Silent World.fsm (insertUnsent placed.clientRef) := .step fun _ => rfl
    exact current_of_silent (this.bind fun _ => .pure _)
  | ok record =>
    have herase : Process.Silent World.fsm (eraseUnsent placed.clientRef) := .step fun _ => rfl
    exact (current_of_silent herase).bind fun _ =>
      (current_of_silent (unseen_fsm unseen_barrier)).bind fun _ =>
        (current_of_silent (fsm_send _)).bind fun answer => current_concludePlace placed answer

theorem current_place (uuids : UuidGenerator) (strategy : Bytes) (intent : OrderIntent) :
    Process.Spec Current (place uuids strategy intent) (fun _ => Current) Current := by
  refine (current_of_silent (unseen_fsm (unseen_reserve uuids strategy intent))).bind
    fun reserved => ?_
  cases reserved with
  | error error => exact .pure fun _ hw => hw
  | ok reservation =>
    obtain ⟨ref, isNew, existing⟩ := reservation
    cases isNew with
    | true => exact current_recordAndSend _
    | false =>
      cases existing with
      | some order => exact .pure fun _ hw => hw
      | none =>
        have hunsent : Process.Silent World.fsm (isUnsent ref) := .step fun _ => rfl
        refine (current_of_silent hunsent).bind fun b => ?_
        cases b with
        | true => exact current_recordAndSend _
        | false => exact .pure fun _ hw => hw

theorem fsm_modify (brokerOrderId : Bytes) (intent : OrderIntent) :
    Process.Silent World.fsm (modify brokerOrderId intent) := by
  refine (unseen_fsm (unseen_append _ _ _)).bind fun appended => ?_
  cases appended with
  | error error => exact .pure _
  | ok record =>
    exact (unseen_fsm unseen_barrier).bind fun _ => (fsm_send _).bind fun answer =>
      unseen_fsm (unseen_concludeModify brokerOrderId intent answer)

theorem fsm_close (op : IntentOp) (name : Bytes) (call : BrokerCall)
    (brokerOrderId clientRef : Bytes) :
    Process.Silent World.fsm (close op name call brokerOrderId clientRef) := by
  refine (unseen_fsm unseen_wallNs).bind fun stamp =>
    (unseen_fsm (unseen_append _ _ _)).bind fun appended => ?_
  cases appended with
  | error error => exact .pure _
  | ok record =>
    exact (unseen_fsm unseen_barrier).bind fun _ => (fsm_send _).bind fun answer =>
      unseen_fsm (unseen_concludeClose name brokerOrderId clientRef answer)

theorem current_perform (uuids : UuidGenerator) (call : Call) :
    Process.Spec Current (call.perform uuids) (fun _ => Current) Current := by
  cases call with
  | place strategy intent =>
    exact (current_place uuids strategy intent).bind fun _ => .pure fun _ hw => hw
  | modify brokerOrderId intent =>
    exact (current_of_silent (fsm_modify brokerOrderId intent)).bind fun _ => .pure fun _ hw => hw
  | cancel brokerOrderId clientRef =>
    exact (current_of_silent (fsm_close _ _ _ _ _)).bind fun _ => .pure fun _ hw => hw
  | squareOff brokerOrderId clientRef =>
    exact (current_of_silent (fsm_close _ _ _ _ _)).bind fun _ => .pure fun _ hw => hw

theorem current_runCalls (uuids : UuidGenerator) {w : World} (hw : Current w)
    (served : List (Call × List Tick)) : Current (runCalls uuids w served) := by
  induction served generalizing w with
  | nil => exact hw
  | cons first served ih =>
    obtain ⟨call, ticks⟩ := first
    have hcall := current_perform uuids call ticks w hw
    rw [runCalls]
    cases hrun : call.perform uuids ticks w with
    | done _ _ w' =>
      rw [hrun] at hcall
      exact ih hcall
    | stopped w' =>
      rw [hrun] at hcall
      exact hcall

/-! ## The main result -/

/-- **Write-ahead ordering.** A process with a new engine, over any log, store and index, has
served any calls and waits in `w₁` in the middle of another one. If the next answer `t` is that
of a mutation, the log holds its record in `w₁`, and behind a `place` comes its row. -/
theorem write_ahead (uuids : UuidGenerator) (w : World) (hengine : w.fsm = .init)
    (served : List (Call × List Tick)) (call : Call) (ticks : List Tick) (t : Tick) (w₁ : World)
    (hwaits : call.perform uuids ticks (runCalls uuids w served) = .stopped w₁)
    (hmutation :
      (call.perform uuids (ticks ++ [t]) (runCalls uuids w served)).state.sent ≠ w₁.sent) :
    LoggedAhead call w₁ t fun back =>
      (call.perform uuids (ticks ++ t :: back) (runCalls uuids w served)).state := by
  have hcurrent : Current w := by
    intro ref key hkey
    rw [hengine] at hkey
    cases hkey
  exact (acts_perform uuids call).moment _ (current_runCalls uuids hcurrent served) ticks t w₁
    hwaits hmutation

/-- One market order: the lookup, the record and the barrier are behind it, the answer to the
send is next. -/
theorem write_ahead_sample :
    ∃ w₁, (Call.place (ascii "s") sampleIntent).perform UuidGenerator.numbered
        (List.replicate 3 sampleTick) (World.blank IntentLog.sampleLog) = .stopped w₁
      ∧ LoggedAhead (.place (ascii "s") sampleIntent) w₁ sampleTick fun back =>
        ((Call.place (ascii "s") sampleIntent).perform UuidGenerator.numbered
          (List.replicate 3 sampleTick ++ sampleTick :: back)
          (World.blank IntentLog.sampleLog)).state :=
  ⟨_, rfl, write_ahead UuidGenerator.numbered (World.blank IntentLog.sampleLog) rfl []
    (.place (ascii "s") sampleIntent) (List.replicate 3 sampleTick) sampleTick _ rfl
    (List.cons_ne_nil _ _)⟩

/-- The log holds canonical text: the record of a cancel under the ref `FF` does not carry these
bytes when the cancel reaches the broker. -/
theorem ill_formed_ref_not_carried :
    ∃ w₁, (Call.cancel (ascii "B1") [0xFF]).perform UuidGenerator.numbered
        (List.replicate 3 sampleTick) (World.blank IntentLog.sampleLog) = .stopped w₁
      ∧ ((Call.cancel (ascii "B1") [0xFF]).perform UuidGenerator.numbered
          (List.replicate 3 sampleTick ++ [sampleTick])
          (World.blank IntentLog.sampleLog)).state.sent = w₁.sent ++ [.cancel (ascii "B1")]
      ∧ ∀ record ∈ w₁.recorded, record.clientRef ≠ [0xFF] := by
  have hcanonical : canonicalText [0xFF] ≠ [0xFF] := by decide
  refine ⟨_, rfl, rfl, ?_⟩
  intro record hrecord
  obtain ⟨appended, -, href, -, hrecorded | ⟨hrecorded, -⟩⟩ :=
    (World.blank IntentLog.sampleLog).append_recorded sampleTick .cancelOrder [0xFF]
      (opOutcomeJson (ascii "cancel") (ascii "intent") (ascii "B1") 0)
  · have hone : record ∈ (World.blank IntentLog.sampleLog).recorded ++ [appended] :=
      hrecorded ▸ hrecord
    rw [List.mem_singleton.mp hone, href]
    exact hcanonical
  · have hnone : record ∈ (World.blank IntentLog.sampleLog).recorded := hrecorded ▸ hrecord
    exact absurd hnone List.not_mem_nil

end BrokerExec.Runtime
