import BrokerExec.Idempotency
import BrokerExec.IntentLog.Log
import BrokerExec.Lib.Process
import BrokerExec.Lifecycle
import BrokerExec.Store

/-!
# The dispatcher (`runtime/dispatcher.cpp`)

`place`, `modify`, `cancel` and `square_off` as processes over the world they share: the
intent log, the store, the idempotency index, the lifecycle engine and the set of refs that
were reserved but never recorded. At each call into a collaborator the environment answers
with one `Tick`; a process that gets no further tick has stopped there.
-/

namespace BrokerExec.Runtime

open BrokerExec.Domain (Order OrderIntent OrderState)
open BrokerExec.Errors (Error)
open BrokerExec.IntentLog (IntentOp IntentRecord toJsonLine)
open BrokerExec.Idempotency (IdempotencyIndex UuidGenerator intentPayloadJson makeClientRef
  rebuildFromLog signalSignature)
open BrokerExec.Lifecycle (BrokerView LifecycleEngine isTerminal)

/-! ## The world -/

/-- One answer of the environment. Each call reads the part it needs: what an append's write
met, the clock, the error of a store call, the broker's reply (for `place` and `modify` the
acknowledged order id). -/
structure Tick where
  write : WriteIo
  wallTsNs : Int64
  storeError : Option Error
  broker : Result Bytes

/-- A mutation that reached the broker. -/
inductive BrokerCall where
  | place (intent : OrderIntent)
  | modify (brokerOrderId : Bytes) (intent : OrderIntent)
  | cancel (brokerOrderId : Bytes)
  | squareOff (brokerOrderId : Bytes)

/-- The dispatcher and its collaborators. `recorded` is what the log file holds: the records
whose JSON text reached it whole, also where the append reported a failure. `sent` is the
trace of broker calls since boot. -/
structure World where
  log : IntentLog
  recorded : List IntentRecord
  store : Store
  index : IdempotencyIndex
  uuidCalls : Nat
  fsm : LifecycleEngine
  unsentRefs : List Bytes
  sent : List BrokerCall

abbrev Act := Process Tick World

/-! ## Calls into the collaborators -/

/-- The intent log's `append`, and what of it the file then holds. -/
def World.append (w : World) (t : Tick) (op : IntentOp) (clientRef payloadJson : Bytes) :
    Result IntentRecord × World :=
  let record := w.log.nextRecord t.wallTsNs op clientRef payloadJson
  let (result, log) := w.log.append t.write t.wallTsNs op clientRef payloadJson
  let whole := w.log.attached && record.text.isPrefixOf (t.write.landed (toJsonLine record))
  (result, { w with
    log := log
    recorded := if whole then w.recorded ++ [record] else w.recorded })

def append (op : IntentOp) (clientRef payloadJson : Bytes) : Act (Result IntentRecord) :=
  .ask fun t w => w.append t op clientRef payloadJson

def findOrder (clientRef : Bytes) : Act (Result (Option Order)) :=
  .ask fun t w => (w.store.findOrder t.storeError clientRef, w)

def insertOrder (order : Order) : Act (Result Unit) :=
  .ask fun t w =>
    let (result, store) := w.store.insertOrder t.storeError order
    (result, { w with store := store })

def upsertOrder (order : Order) : Act (Result Unit) :=
  .ask fun t w =>
    let (result, store) := w.store.upsertOrder t.storeError order
    (result, { w with store := store })

/-- A call into the broker, which gets the order whatever it replies. -/
def send (call : BrokerCall) : Act (Result Bytes) :=
  .ask fun t w => (t.broker, { w with sent := w.sent ++ [call] })

/-- `wall_ns`. -/
def wallNs : Act Int64 := .ask fun t w => (t.wallTsNs, w)

/-- `run_pre_send_barrier`: a hook that only observes, or never returns. -/
def runPreSendBarrier : Act Unit := .ask fun _ w => ((), w)

def existingRefForSignature (signature : Bytes) : Act (Option Bytes) :=
  .step fun w => (w.index signature, w)

def registerSignature (signature clientRef : Bytes) : Act Unit :=
  .step fun w => ((), { w with index := w.index.registerSignature signature clientRef })

def nextUuid (uuids : UuidGenerator) : Act Bytes :=
  .step fun w => (uuids.next w.uuidCalls, { w with uuidCalls := w.uuidCalls + 1 })

def isUnsent (clientRef : Bytes) : Act Bool := .step fun w => (clientRef ∈ w.unsentRefs, w)

def insertUnsent (clientRef : Bytes) : Act Unit :=
  .step fun w => ((), { w with unsentRefs := clientRef :: w.unsentRefs })

def eraseUnsent (clientRef : Bytes) : Act Unit :=
  .step fun w => ((), { w with unsentRefs := w.unsentRefs.filter (· ≠ clientRef) })

/-- `fsm_.apply(order, view)`: the order as the engine leaves it. -/
def applyView (order : Order) (view : BrokerView) : Act Order :=
  .step fun w =>
    let (_, order', fsm) := w.fsm.apply order view
    (order', { w with fsm := fsm })

/-! ## Result payloads -/

/-- `append_escaped`. -/
def appendEscaped (value : Bytes) : Bytes :=
  value.flatMap fun b =>
    if b = 0x22 then ascii "\\\""
    else if b = 0x5C then ascii "\\\\"
    else if b = 0x0A then ascii "\\n"
    else if b = 0x0D then ascii "\\r"
    else if b = 0x09 then ascii "\\t"
    else if b < 0x20 then
      ascii "\\u00" ++ [Json.hexDigit (b.toNat / 16), Json.hexDigit (b.toNat % 16)]
    else [b]

/-- The id and clock members both payloads end with. -/
def payloadTail (brokerOrderId : Bytes) (wallTsNs : Int64) : Bytes :=
  (if brokerOrderId = [] then []
    else ascii ",\"broker_order_id\":\"" ++ appendEscaped brokerOrderId ++ ascii "\"")
    ++ ascii ",\"wall_ts_ns\":" ++ decimal wallTsNs.toInt ++ [0x7D]

def outcomeJson (state : OrderState) (brokerOrderId : Bytes) (wallTsNs : Int64) : Bytes :=
  0x7B :: ascii "\"state\":\"" ++ appendEscaped state.toString ++ ascii "\""
    ++ payloadTail brokerOrderId wallTsNs

def opOutcomeJson (op result brokerOrderId : Bytes) (wallTsNs : Int64) : Bytes :=
  0x7B :: ascii "\"op\":\"" ++ appendEscaped op ++ ascii "\",\"outcome\":\""
    ++ appendEscaped result ++ ascii "\"" ++ payloadTail brokerOrderId wallTsNs

/-- `append_result`, with the payload stamped by the clock. -/
def appendResult (clientRef : Bytes) (payload : Int64 → Bytes) : Act (Result IntentRecord) := do
  append .result clientRef (payload (← wallNs))

/-! ## Reserving -/

structure Reservation where
  clientRef : Bytes
  isNew : Bool
  existing : Option Order

def reserve (uuids : UuidGenerator) (strategy : Bytes) (intent : OrderIntent) :
    Act (Result Reservation) := do
  let signature := signalSignature intent
  match ← existingRefForSignature signature with
  | some prior =>
    match ← findOrder prior with
    | .error error => return .error error
    | .ok found => return .ok ⟨prior, false, found⟩
  | none =>
    let clientRef := makeClientRef strategy signature (← nextUuid uuids)
    match ← findOrder clientRef with
    | .error error => return .error error
    | .ok (some existing) =>
      registerSignature signature clientRef
      return .ok ⟨clientRef, false, some existing⟩
    | .ok none =>
      registerSignature signature clientRef
      return .ok ⟨clientRef, true, none⟩

/-! ## The four mutations -/

def isReconcileFirst (error : Error) : Bool :=
  error.action = .reconcileFirst || error.category = .timeout || error.category = .network
    || error.category = .unknown

def makeOrder (intent : OrderIntent) (state : OrderState) : Order := ⟨intent, state, [], 0, 0⟩

/-- Store a freshly placed order and record its outcome: the end of both `place` branches. -/
def settle (order : Order) : Act (Result Order) := do
  match ← insertOrder order with
  | .error error => return .error error
  | .ok () =>
    match ← appendResult order.intent.clientRef (outcomeJson order.state order.brokerOrderId) with
    | .error error => return .error error
    | .ok _ => return .ok order

/-- Steps (2) and (3) of `place`, for a fresh or resumed reservation. -/
def recordAndSend (placed : OrderIntent) : Act (Result Order) := do
  match ← append .placeOrder placed.clientRef (intentPayloadJson placed) with
  | .error error =>
    insertUnsent placed.clientRef
    return .error error
  | .ok _ =>
    eraseUnsent placed.clientRef
    runPreSendBarrier
    match ← send (.place placed) with
    | .ok brokerOrderId =>
      let order ← applyView (makeOrder placed .sent)
        ⟨placed.clientRef, brokerOrderId, .acknowledged, 0, 0, 1⟩
      settle order
    | .error error =>
      settle (makeOrder placed (if isReconcileFirst error then .unknown else .rejected))

def place (uuids : UuidGenerator) (strategy : Bytes) (intent : OrderIntent) :
    Act (Result Order) := do
  match ← reserve uuids strategy intent with
  | .error error => return .error error
  | .ok reservation =>
    let placed := { intent with clientRef := reservation.clientRef }
    if reservation.isNew then recordAndSend placed
    else
      match reservation.existing with
      | some order => return .ok order
      | none =>
        if ← isUnsent reservation.clientRef then recordAndSend placed
        else return .ok (makeOrder placed .unknown)

/-- Write a modified order back and record its outcome. -/
def project (order : Order) : Act (Result Order) := do
  match ← upsertOrder order with
  | .error error => return .error error
  | .ok () =>
    match ← appendResult order.intent.clientRef (outcomeJson order.state order.brokerOrderId) with
    | .error error => return .error error
    | .ok _ => return .ok order

/-- The states a modify acknowledgement promotes. -/
def promotedByAck : OrderState → Bool
  | .unknown | .created | .validated | .pendingSend | .sent => true
  | _ => false

/-- `modify` once the broker has answered. -/
def concludeModify (brokerOrderId : Bytes) (intent : OrderIntent) (ack : Result Bytes) :
    Act (Result Order) := do
  match ← findOrder intent.clientRef with
  | .error error => return .error error
  | .ok found =>
    let order := { found.getD (makeOrder intent .acknowledged) with
      brokerOrderId := brokerOrderId }
    match ack with
    | .ok ackedId =>
      let state := if promotedByAck order.state then .acknowledged else order.state
      project { order with state := state, brokerOrderId := ackedId }
    | .error error =>
      if isReconcileFirst error then project { order with state := .unknown }
      else
        match ← appendResult intent.clientRef
          (opOutcomeJson (ascii "modify") (ascii "rejected") brokerOrderId) with
        | .error failure => return .error failure
        | .ok _ => return .error error

def modify (brokerOrderId : Bytes) (intent : OrderIntent) : Act (Result Order) := do
  match ← append .modifyOrder intent.clientRef (intentPayloadJson intent) with
  | .error error => return .error error
  | .ok _ =>
    runPreSendBarrier
    let ack ← send (.modify brokerOrderId intent)
    concludeModify brokerOrderId intent ack

/-- The error of an ambiguous cancel or square-off marks a live row `Unknown`. A failed
lookup is passed over. -/
def markUnknown (clientRef : Bytes) : Act (Result Unit) := do
  match ← findOrder clientRef with
  | .ok (some order) =>
    if isTerminal order.state then return .ok ()
    else upsertOrder { order with state := .unknown }
  | _ => return .ok ()

/-- `cancel` and `square_off` differ in the intent they record, the broker call and the
operation's name. -/
def close (op : IntentOp) (name : Bytes) (call : BrokerCall) (brokerOrderId clientRef : Bytes) :
    Act (Result Unit) := do
  let stamp ← wallNs
  match ← append op clientRef (opOutcomeJson name (ascii "intent") brokerOrderId stamp) with
  | .error error => return .error error
  | .ok _ =>
    runPreSendBarrier
    match ← send call with
    | .ok _ =>
      match ← appendResult clientRef (opOutcomeJson name (ascii "ok") brokerOrderId) with
      | .error error => return .error error
      | .ok _ => return .ok ()
    | .error error =>
      if isReconcileFirst error then
        match ← markUnknown clientRef with
        | .error failure => return .error failure
        | .ok () =>
          match ← appendResult clientRef (opOutcomeJson name (ascii "unknown") brokerOrderId) with
          | .error failure => return .error failure
          | .ok _ => return .error error
      else
        match ← appendResult clientRef (opOutcomeJson name (ascii "rejected") brokerOrderId) with
        | .error failure => return .error failure
        | .ok _ => return .error error

def cancel (brokerOrderId clientRef : Bytes) : Act (Result Unit) :=
  close .cancelOrder (ascii "cancel") (.cancel brokerOrderId) brokerOrderId clientRef

def squareOff (brokerOrderId clientRef : Bytes) : Act (Result Unit) :=
  close .squareOff (ascii "square_off") (.squareOff brokerOrderId) brokerOrderId clientRef

/-! ## Runs -/

/-- One call of the dispatcher's interface. -/
inductive Call where
  | place (strategy : Bytes) (intent : OrderIntent)
  | modify (brokerOrderId : Bytes) (intent : OrderIntent)
  | cancel (brokerOrderId clientRef : Bytes)
  | squareOff (brokerOrderId clientRef : Bytes)

def Call.perform (uuids : UuidGenerator) : Call → Act Unit
  | .place strategy intent => do
    let _ ← Runtime.place uuids strategy intent
  | .modify brokerOrderId intent => do
    let _ ← Runtime.modify brokerOrderId intent
  | .cancel brokerOrderId clientRef => do
    let _ ← Runtime.cancel brokerOrderId clientRef
  | .squareOff brokerOrderId clientRef => do
    let _ ← Runtime.squareOff brokerOrderId clientRef

/-- Calls one after another, each with its ticks, until one of them stops the process. -/
def runCalls (uuids : UuidGenerator) : World → List (Call × List Tick) → World
  | w, [] => w
  | w, (call, ticks) :: rest =>
    match call.perform uuids ticks w with
    | .done _ _ w' => runCalls uuids w' rest
    | .stopped w' => w'

/-- One process: what it finds at boot and the calls it serves. -/
structure Boot where
  log : IntentLog
  store : Store
  fsm : LifecycleEngine
  calls : List (Call × List Tick)

/-- A new process over the log's records: the index is rebuilt from them, the set of unsent
refs is empty. -/
def World.restart (parser : Json.Parser) (w : World) (boot : Boot) : World where
  log := boot.log
  recorded := w.recorded
  store := boot.store
  index := rebuildFromLog parser w.recorded
  uuidCalls := w.uuidCalls
  fsm := boot.fsm
  unsentRefs := []
  sent := []

def World.boot (parser : Json.Parser) (uuids : UuidGenerator) (w : World) (boot : Boot) : World :=
  runCalls uuids (w.restart parser boot) boot.calls

/-- Before the first boot: nothing was ever recorded. -/
def World.blank (log : IntentLog) : World :=
  ⟨log, [], .empty, fun _ => none, 0, .init, [], []⟩

/-- The intents of the `place` calls the broker got. -/
def World.placed (w : World) : List OrderIntent :=
  w.sent.filterMap fun
    | .place intent => some intent
    | _ => none

end BrokerExec.Runtime
