import BrokerExec.Store
import BrokerExec.Store.Schema

/-!
# The projection's reads and writes (`store/store.cpp`)

What each call binds, the statement it steps and how it reads a row back. A call is one statement
outside any transaction, so it is committed with its step.
-/

namespace BrokerExec.Sqlite

open BrokerExec.Domain (Order OrderIntent OrderState Position Product Side Trade)
open BrokerExec.Errors (Error makeError)

/-! ## Rows and values -/

def decodeSide (text : Bytes) : Side := if text = ascii "SELL" then .sell else .buy

def decodeOrderType (text : Bytes) : Domain.OrderType :=
  if text = ascii "LIMIT" then .limit
  else if text = ascii "SL" then .stopLoss
  else if text = ascii "SL-M" then .stopLossMarket
  else .market

def decodeProduct (text : Bytes) : Product :=
  if text = ascii "DELIVERY" then .delivery
  else if text = ascii "MARGIN" then .margin
  else if text = ascii "NORMAL" then .normal
  else .intraday

def decodeState (text : Bytes) : OrderState :=
  if text = ascii "VALIDATED" then .validated
  else if text = ascii "PENDING_SEND" then .pendingSend
  else if text = ascii "SENT" then .sent
  else if text = ascii "ACKNOWLEDGED" then .acknowledged
  else if text = ascii "PARTIALLY_FILLED" then .partiallyFilled
  else if text = ascii "FILLED" then .filled
  else if text = ascii "REJECTED" then .rejected
  else if text = ascii "CANCELLED" then .cancelled
  else if text = ascii "UNKNOWN" then .unknown
  else if text = ascii "RECONCILED" then .reconciled
  else if text = ascii "PARTIALLY_PLACED" then .partiallyPlaced
  else if text = ascii "MANUAL_INTERVENTION_REQUIRED" then .manualInterventionRequired
  else .created

/-- `bind_order`: an absent trigger is bound as `NULL`. -/
def bindOrder (o : Order) : OrderRow where
  clientRef := o.intent.clientRef
  symbol := o.intent.symbol
  side := o.intent.side.toString
  quantity := o.intent.quantity
  pricePaise := o.intent.price
  orderType := o.intent.orderType.toString
  product := o.intent.product.toString
  strategy := o.intent.strategy
  state := o.state.toString
  brokerOrderId := o.brokerOrderId
  filledQty := o.filledQty
  avgPricePaise := o.avgPrice
  triggerPricePaise := o.intent.triggerPrice

def readOrder (row : OrderRow) : Order where
  intent :=
    { clientRef := row.clientRef
      symbol := row.symbol
      side := decodeSide row.side
      quantity := row.quantity
      price := row.pricePaise
      triggerPrice := row.triggerPricePaise
      orderType := decodeOrderType row.orderType
      product := decodeProduct row.product
      strategy := row.strategy }
  state := decodeState row.state
  brokerOrderId := row.brokerOrderId
  filledQty := row.filledQty
  avgPrice := row.avgPricePaise

def bindTrade (t : Trade) : TradeRow :=
  ⟨t.tradeId, t.clientRef, t.brokerOrderId, t.quantity, t.price⟩

def readTrade (row : TradeRow) : Trade :=
  ⟨row.tradeId, row.clientRef, row.brokerOrderId, row.quantity, row.pricePaise⟩

def bindPosition (p : Position) : PositionRow := ⟨p.symbol, p.netQty, p.avgPrice⟩

def readPosition (row : PositionRow) : Position := ⟨row.symbol, row.netQty, row.avgPricePaise⟩

@[simp] theorem decodeSide_toString (side : Side) : decodeSide side.toString = side := by
  cases side <;> decide

@[simp] theorem decodeOrderType_toString (type : Domain.OrderType) :
    decodeOrderType type.toString = type := by
  cases type <;> decide

@[simp] theorem decodeProduct_toString (product : Product) :
    decodeProduct product.toString = product := by
  cases product <;> decide

@[simp] theorem decodeState_toString (state : OrderState) :
    decodeState state.toString = state := by
  cases state <;> decide

/-- Every order reads back as it was bound, its absent trigger too. -/
@[simp] theorem readOrder_bindOrder (o : Order) : readOrder (bindOrder o) = o := by
  simp [readOrder, bindOrder]

@[simp] theorem readTrade_bindTrade (t : Trade) : readTrade (bindTrade t) = t := rfl

@[simp] theorem readPosition_bindPosition (p : Position) : readPosition (bindPosition p) = p := rfl

/-! ## Statements -/

/-- The id SQLite gives the next row. -/
def nextId {α : Type} {id : α → Nat} (table : Table Nat α id) : Nat :=
  ((table.rows.map id).getLast?.getD 0) + 1

/-- A statement that writes a row. The caller's id of a risk event or an audit record is not
bound. -/
inductive Dml where
  | insertOrder (row : OrderRow)
  | upsertOrder (row : OrderRow)
  | insertTrade (row : TradeRow)
  | upsertPosition (row : PositionRow)
  | upsertFunds (row : Funds)
  | insertRiskEvent (event : RiskEvent)
  | insertAudit (record : AuditRecord)

def Dml.table : Dml → TableName
  | .insertOrder _ => .orders
  | .upsertOrder _ => .orders
  | .insertTrade _ => .trades
  | .upsertPosition _ => .positions
  | .upsertFunds _ => .funds
  | .insertRiskEvent _ => .riskEvents
  | .insertAudit _ => .audit

/-- The table with every column that the statements name. -/
def Tables.serves (tables : Tables) : TableName → Bool
  | .orders =>
    match tables.orders with
    | some orders => orders.hasTrigger
    | Option.none => false
  | name => tables.has name

/-- The orders with their column of triggers. -/
def Tables.withOrders (tables : Tables) (rows : Table Bytes OrderRow OrderRow.clientRef) : Tables :=
  { tables with orders := some ⟨true, rows, triggered rows⟩ }

def Tables.run (tables : Tables) : Dml → Except Nat Tables
  | .insertOrder row =>
    match tables.orders with
    | some ⟨true, rows, _⟩ =>
      match rows.find row.clientRef with
      | some _ => .error kSqliteConstraint
      | Option.none => .ok (tables.withOrders (rows.upsert row))
    | _ => .error kSqliteError
  | .upsertOrder row =>
    match tables.orders with
    | some ⟨true, rows, _⟩ => .ok (tables.withOrders (rows.upsert row))
    | _ => .error kSqliteError
  | .insertTrade row =>
    match tables.trades with
    | some rows =>
      match rows.find row.tradeId with
      | some _ => .ok tables
      | Option.none => .ok { tables with trades := some (rows.upsert row) }
    | Option.none => .error kSqliteError
  | .upsertPosition row =>
    match tables.positions with
    | some rows => .ok { tables with positions := some (rows.upsert row) }
    | Option.none => .error kSqliteError
  | .upsertFunds row =>
    match tables.funds with
    | some rows => .ok { tables with funds := some (rows.upsert row) }
    | Option.none => .error kSqliteError
  | .insertRiskEvent event =>
    match tables.riskEvents with
    | some rows =>
      .ok { tables with riskEvents := some (rows.upsert { event with id := nextId rows }) }
    | Option.none => .error kSqliteError
  | .insertAudit record =>
    match tables.audit with
    | some rows => .ok { tables with audit := some (rows.upsert { record with id := nextId rows }) }
    | Option.none => .error kSqliteError

def Dml.run (statement : Dml) (d : Database) : Except Nat Database :=
  (d.tables.run statement).map fun tables => { d with tables := tables }

/-- `prepare`: the statement has to compile against the schema. -/
def prepare (table : TableName) : Act (Result Unit) := do
  match ← labelled "prepare failed"
      (Transaction.read Tick.fault fun _ (d : Database) => d.tables.serves table) with
  | .error error => return .error error
  | .ok false => return .error (sqliteError kSqliteError (ascii "prepare failed"))
  | .ok true => return .ok ()

/-- A statement prepared, bound and stepped. `judge` words a step that did not end well. -/
def executeJudged (bindContext : String) (judge : Nat → Error) (statement : Dml) :
    Act (Result Unit) := do
  match ← prepare statement.table with
  | .error error => return .error error
  | .ok () =>
    match ← touch bindContext with
    | .error error => return .error error
    | .ok () =>
      match ← Transaction.write Tick.fault statement.run with
      | .error code => return .error (judge code)
      | .ok () => return .ok ()

/-- A statement that `step_done` steps. -/
def execute (bindContext stepContext : String) (statement : Dml) : Act (Result Unit) :=
  executeJudged bindContext (fun code => sqliteError code (ascii stepContext)) statement

/-- A `SELECT` by a key that is unique. -/
def selectOne {α : Type} (table : TableName) (bindContext stepContext : String)
    (row : Tables → Option α) : Act (Result (Option α)) := do
  match ← prepare table with
  | .error error => return .error error
  | .ok () =>
    match ← touch bindContext with
    | .error error => return .error error
    | .ok () =>
      labelled stepContext (Transaction.read Tick.fault fun _ (d : Database) => row d.tables)

/-- A `SELECT` of every row: a step for each, and one that finds no more. -/
def selectAll {α : Type} (table : TableName) (stepContext : String) (rows : Tables → List α) :
    Act (Result (List α)) := do
  match ← prepare table with
  | .error error => return .error error
  | .ok () =>
    match ← labelled stepContext (Transaction.read Tick.fault fun _ (d : Database) => rows d.tables)
      with
    | .error error => return .error error
    | .ok found =>
      match ← touchEach (List.replicate found.length stepContext) with
      | .error error => return .error error
      | .ok () => return .ok found

/-! ## The calls -/

/-- What a table that is not there would hold. -/
def rowsOf {κ α : Type} [LinearOrder κ] {key : α → κ} (table : Option (Table κ α key)) :
    Table κ α key :=
  table.getD .empty

def Tables.orderRows (tables : Tables) : Table Bytes OrderRow OrderRow.clientRef :=
  rowsOf (tables.orders.map OrdersTable.rows)

def duplicateOrderError : Error :=
  makeError .duplicateOrder (ascii "store: order with this client_ref already exists")

/-- The `UNIQUE(client_ref)` column is the backstop of idempotency. -/
def insertOrder (order : Order) : Act (Result Unit) :=
  executeJudged "bind order"
    (fun code =>
      if isConstraint code then duplicateOrderError else sqliteError code (ascii "insert order"))
    (.insertOrder (bindOrder order))

def upsertOrder (order : Order) : Act (Result Unit) :=
  execute "bind order" "upsert order" (.upsertOrder (bindOrder order))

def findOrder (clientRef : Bytes) : Act (Result (Option Order)) :=
  selectOne .orders "bind client_ref" "find order" fun tables =>
    (tables.orderRows.find clientRef).map readOrder

def allOrders : Act (Result (List Order)) :=
  selectAll .orders "list orders" fun tables => tables.orderRows.rows.map readOrder

def insertTrade (trade : Trade) : Act (Result Unit) :=
  execute "bind trade" "insert trade" (.insertTrade (bindTrade trade))

def allTrades : Act (Result (List Trade)) :=
  selectAll .trades "list trades" fun tables => (rowsOf tables.trades).rows.map readTrade

def upsertPosition (position : Position) : Act (Result Unit) :=
  execute "bind position" "upsert position" (.upsertPosition (bindPosition position))

def findPosition (symbol : Bytes) : Act (Result (Option Position)) :=
  selectOne .positions "bind symbol" "find position" fun tables =>
    ((rowsOf tables.positions).find symbol).map readPosition

def allPositions : Act (Result (List Position)) :=
  selectAll .positions "list positions" fun tables =>
    (rowsOf tables.positions).rows.map readPosition

def upsertFunds (funds : Funds) : Act (Result Unit) :=
  execute "bind funds" "upsert funds" (.upsertFunds funds)

def findFunds (account : Bytes) : Act (Result (Option Funds)) :=
  selectOne .funds "bind account" "find funds" fun tables => (rowsOf tables.funds).find account

def insertRiskEvent (event : RiskEvent) : Act (Result Unit) :=
  execute "bind risk_event" "insert risk_event" (.insertRiskEvent event)

def allRiskEvents : Act (Result (List RiskEvent)) :=
  selectAll .riskEvents "list risk_events" fun tables => (rowsOf tables.riskEvents).rows

def insertAudit (record : AuditRecord) : Act (Result Unit) :=
  execute "bind audit" "insert audit" (.insertAudit record)

def allAudit : Act (Result (List AuditRecord)) :=
  selectAll .audit "list audit" fun tables => (rowsOf tables.audit).rows

end BrokerExec.Sqlite
