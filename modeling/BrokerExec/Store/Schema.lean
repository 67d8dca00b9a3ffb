import BrokerExec.Domain.Types
import BrokerExec.Lib.Table
import BrokerExec.Lib.Transaction

/-!
# Opening the projection (`store/store.cpp`, `store/sqlite_util.hpp`)

The SQLite file behind the store: its six tables, the schema stamp in its header, and the calls
that open, migrate and rebuild it. SQLite answers each call with one `Tick`; a process that gets no
further tick was killed there.
-/

namespace BrokerExec.Sqlite

open BrokerExec.Errors (Error ErrorCategory SuggestedAction makeError)

/-! ## The file -/

structure OrderRow where
  clientRef : Bytes
  symbol : Bytes
  side : Bytes
  quantity : Int64
  pricePaise : Int64
  orderType : Bytes
  product : Bytes
  strategy : Bytes
  state : Bytes
  brokerOrderId : Bytes
  filledQty : Int64
  avgPricePaise : Int64
  triggerPricePaise : Option Int64
  deriving DecidableEq

structure TradeRow where
  tradeId : Bytes
  clientRef : Bytes
  brokerOrderId : Bytes
  quantity : Int64
  pricePaise : Int64
  deriving DecidableEq

structure PositionRow where
  symbol : Bytes
  netQty : Int64
  avgPricePaise : Int64
  deriving DecidableEq

structure Funds where
  account : Bytes
  availablePaise : Int64
  usedMarginPaise : Int64
  fetchedAtEpochMs : Int64
  deriving DecidableEq

/-- The id is the row's, counted by SQLite. -/
structure RiskEvent where
  id : Nat
  clientRef : Bytes
  rule : Bytes
  detail : Bytes
  atEpochMs : Int64
  deriving DecidableEq

structure AuditRecord where
  id : Nat
  seq : Int64
  clientRef : Bytes
  event : Bytes
  payload : Bytes
  atEpochMs : Int64
  deriving DecidableEq

/-- The second migration adds a column, which the rows before it hold nothing in. -/
structure OrdersTable where
  hasTrigger : Bool
  rows : Table Bytes OrderRow OrderRow.clientRef
  untriggered : hasTrigger = false → ∀ row ∈ rows.rows, row.triggerPricePaise = none

/-- Nothing is asked of the rows once the column is there. -/
theorem triggered (rows : Table Bytes OrderRow OrderRow.clientRef) (h : true = false) :
    ∀ row ∈ rows.rows, row.triggerPricePaise = none := by
  cases h

structure Tables where
  orders : Option OrdersTable
  trades : Option (Table Bytes TradeRow TradeRow.tradeId)
  positions : Option (Table Bytes PositionRow PositionRow.symbol)
  funds : Option (Table Bytes Funds Funds.account)
  riskEvents : Option (Table Nat RiskEvent RiskEvent.id)
  audit : Option (Table Nat AuditRecord AuditRecord.id)

structure Database where
  userVersion : Int
  tables : Tables

/-- The name of a table the schema owns. -/
inductive TableName where
  | orders
  | trades
  | positions
  | funds
  | riskEvents
  | audit
  deriving DecidableEq

def kTableNames : List TableName := [.orders, .trades, .positions, .funds, .riskEvents, .audit]

def Tables.none : Tables := ⟨Option.none, Option.none, Option.none, Option.none, Option.none, Option.none⟩

/-- A file that was just created. -/
def Database.blank : Database := ⟨0, .none⟩

/-- The table is listed in `sqlite_master`. -/
def Tables.has (tables : Tables) : TableName → Bool
  | .orders => tables.orders.isSome
  | .trades => tables.trades.isSome
  | .positions => tables.positions.isSome
  | .funds => tables.funds.isSome
  | .riskEvents => tables.riskEvents.isSome
  | .audit => tables.audit.isSome

def Tables.create (tables : Tables) : TableName → Tables
  | .orders => { tables with orders := some ⟨false, .empty, by simp [Table.empty]⟩ }
  | .trades => { tables with trades := some .empty }
  | .positions => { tables with positions := some .empty }
  | .funds => { tables with funds := some .empty }
  | .riskEvents => { tables with riskEvents := some .empty }
  | .audit => { tables with audit := some .empty }

def Tables.drop (tables : Tables) : TableName → Tables
  | .orders => { tables with orders := Option.none }
  | .trades => { tables with trades := Option.none }
  | .positions => { tables with positions := Option.none }
  | .funds => { tables with funds := Option.none }
  | .riskEvents => { tables with riskEvents := Option.none }
  | .audit => { tables with audit := Option.none }

/-! ## Result codes -/

def kSqliteError : Nat := 1

def kSqliteCorrupt : Nat := 11

def kSqliteConstraint : Nat := 19

def kSqliteNotADb : Nat := 26

def isConstraint (code : Nat) : Bool := code % 256 = kSqliteConstraint

/-- The file itself is damaged. -/
def isCorruption (code : Nat) : Bool :=
  code % 256 = kSqliteCorrupt || code % 256 = kSqliteNotADb

def sqliteError (code : Nat) (context : Bytes) : Error :=
  { makeError (if isConstraint code then .validation else .internal) (ascii "store: " ++ context)
    with brokerCode := ascii "SQLITE_" ++ decimalNat code }

def schemaTooNewError : Error :=
  { makeError .internal
      (ascii "store: database schema is newer than this build supports " ++ [0xE2, 0x80, 0x94]
        ++ ascii " refusing to start") with
    action := .doNotRetry }

def schemaOutOfRangeError : Error :=
  { makeError .internal
      (ascii "store: on-disk schema version is out of range " ++ [0xE2, 0x80, 0x94]
        ++ ascii " refusing to start") with
    action := .doNotRetry }

/-! ## Calls into SQLite -/

/-- One answer of SQLite. `quickCheckOk` is the row that `quick_check` returns. -/
structure Tick where
  fault : Option Fault
  quickCheckOk : Bool

abbrev Act := Process Tick (Connection Database)

/-- A statement of the schema. -/
inductive Ddl where
  | createTable (name : TableName)
  | addTriggerColumn
  | dropTableIfExists (name : TableName)
  | setUserVersion (version : Int)

def Ddl.run (d : Database) : Ddl → Except Nat Database
  | .createTable name =>
    if d.tables.has name then .error kSqliteError
    else .ok { d with tables := d.tables.create name }
  | .addTriggerColumn =>
    match d.tables.orders with
    | some ⟨false, rows, _⟩ =>
      .ok { d with tables := { d.tables with orders := some ⟨true, rows, triggered rows⟩ } }
    | _ => .error kSqliteError
  | .dropTableIfExists name => .ok { d with tables := d.tables.drop name }
  | .setUserVersion version => .ok { d with userVersion := version }

/-- An error of SQLite under the context's name. -/
def labelled {α : Type} (context : String) (call : Act (Except Nat α)) : Act (Result α) := do
  match ← call with
  | .error code => return .error (sqliteError code (ascii context))
  | .ok a => return .ok a

/-- A call that finds nothing out. -/
def touch (context : String) : Act (Result Unit) :=
  labelled context (Transaction.read Tick.fault fun _ _ => ())

/-- `exec` of a batch, which stops at its first failure. -/
def exec (context : String) : List Ddl → Act (Result Unit)
  | [] => return .ok ()
  | statement :: rest => do
    match ← labelled context (Transaction.write Tick.fault fun d => statement.run d) with
    | .error error => return .error error
    | .ok () => exec context rest

def begin (context : String) : Act (Result Unit) := labelled context (Transaction.begin Tick.fault)

def commit (context : String) : Act (Result Unit) :=
  labelled context (Transaction.commit Tick.fault)

/-- A best-effort `ROLLBACK`: what it returns is dropped. -/
def rollback : Act Unit := do
  let _ ← Transaction.rollback Tick.fault

/-! ## The schema -/

def kCurrentSchemaVersion : Int := 2

def kMigration1 : List Ddl := kTableNames.map .createTable

def kMigration2 : List Ddl := [.addTriggerColumn]

def kMigrations : List (List Ddl) := [kMigration1, kMigration2]

def readUserVersion : Act (Result Int) := do
  match ← touch "prepare failed" with
  | .error error => return .error error
  | .ok () =>
    match ← labelled "read schema_version"
      (Transaction.read Tick.fault fun _ (d : Database) => d.userVersion) with
    | .error error => return .error error
    | .ok version =>
      if version < 0 then return .error schemaOutOfRangeError
      else return .ok version

def writeUserVersion (version : Int) : Act (Result Unit) :=
  exec "write schema_version" [.setUserVersion version]

/-- One migration with the version it leads to, in a transaction of its own. -/
def applyMigration (migration : List Ddl) (version : Int) : Act (Result Unit) := do
  match ← begin "begin migration" with
  | .error error => return .error error
  | .ok () =>
    match ← exec "migration" migration with
    | .error error =>
      rollback
      return .error error
    | .ok () =>
      match ← writeUserVersion version with
      | .error error =>
        rollback
        return .error error
      | .ok () =>
        match ← commit "commit migration" with
        | .error error =>
          rollback
          return .error error
        | .ok () => return .ok ()

/-- The loop of `apply_migrations`, over what is left of the migrations. -/
def applyEach (version : Int) : List (List Ddl) → Act (Result Unit)
  | [] => return .ok ()
  | migration :: rest => do
    match ← applyMigration migration (version + 1) with
    | .error error => return .error error
    | .ok () => applyEach (version + 1) rest

def applyMigrations (version : Int) : Act (Result Unit) :=
  if version < 0 || version > kCurrentSchemaVersion then return .error schemaOutOfRangeError
  else applyEach version (kMigrations.drop version.toNat)

inductive Health where
  | sound
  | damaged
  deriving DecidableEq

/-- A probe's error, or its verdict where the code blames the file. -/
def probed (code : Nat) (context : String) : Result Health :=
  if isCorruption code then .ok .damaged else .error (sqliteError code (ascii context))

/-- Every table the version promises is there. -/
def checkEach : List TableName → Act (Result Health)
  | [] => return .ok .sound
  | name :: rest => do
    match ← Transaction.read Tick.fault fun _ _ => () with
    | .error code => return probed code "prepare failed"
    | .ok () =>
      match ← touch "bind table name" with
      | .error error => return .error error
      | .ok () =>
        match ← Transaction.read Tick.fault fun _ (d : Database) => d.tables.has name with
        | .error code => return probed code "check table"
        | .ok false => return .ok .damaged
        | .ok true => checkEach rest

def checkTables (version : Int) : Act (Result Health) :=
  if version = 0 then return .ok .sound else checkEach kTableNames

def checkIntegrity : Act (Result Health) := do
  match ← Transaction.read Tick.fault fun _ _ => () with
  | .error code => return probed code "prepare failed"
  | .ok () =>
    match ← Transaction.read Tick.fault fun (t : Tick) _ => t.quickCheckOk with
    | .error code => return probed code "integrity check"
    | .ok ok => return .ok (if ok then .sound else .damaged)

/-! ## Opening -/

/-- The pragmas a connection is opened with, each under its error's context. -/
def kConnectionCalls : List String :=
  ["open database", "set busy timeout", "set WAL", "set synchronous", "set foreign_keys"]

def touchEach : List String → Act (Result Unit)
  | [] => return .ok ()
  | context :: rest => do
    match ← touch context with
    | .error error => return .error error
    | .ok () => touchEach rest

/-- `open_connection`, with `configure_connection`. -/
def openConnection : Act (Result Unit) := touchEach kConnectionCalls

/-- `Store::reset`. -/
def reset : Act (Result Unit) := do
  match ← begin "begin reset" with
  | .error error => return .error error
  | .ok () =>
    match ← exec "drop table" (kTableNames.map .dropTableIfExists) with
    | .error error =>
      rollback
      return .error error
    | .ok () =>
      match ← writeUserVersion 0 with
      | .error error =>
        rollback
        return .error error
      | .ok () =>
        match ← commit "commit reset" with
        | .error error =>
          rollback
          return .error error
        | .ok () => applyMigrations 0

/-- `Store::open`. -/
def openStrict : Act (Result Unit) := do
  match ← openConnection with
  | .error error => return .error error
  | .ok () =>
    match ← checkIntegrity with
    | .error error => return .error error
    | .ok .damaged =>
      return .error (makeError .internal (ascii "store: projection failed integrity check"))
    | .ok .sound =>
      match ← readUserVersion with
      | .error error => return .error error
      | .ok version =>
        if version > kCurrentSchemaVersion then return .error schemaTooNewError
        else
          match ← checkTables version with
          | .error error => return .error error
          | .ok .damaged =>
            return .error (makeError .internal (ascii "store: projection is half-migrated"))
          | .ok .sound => applyMigrations version

/-- The rebuild at the end of `open_or_rebuild`. -/
def rebuild : Act (Result Bool) := do
  match ← reset with
  | .error error => return .error error
  | .ok () => return .ok true

/-- `Store::open_or_rebuild`: whether the caller has to replay the intent log. -/
def openOrRebuild : Act (Result Bool) := do
  match ← openConnection with
  | .error error => return .error error
  | .ok () =>
    match ← checkIntegrity with
    | .error error => return .error error
    | .ok .damaged => rebuild
    | .ok .sound =>
      match ← readUserVersion with
      | .error error => return .error error
      | .ok version =>
        if version > kCurrentSchemaVersion then return .error schemaTooNewError
        else
          match ← checkTables version with
          | .error error => return .error error
          | .ok .damaged => rebuild
          | .ok .sound =>
            match ← applyMigrations version with
            | .error error => return .error error
            | .ok () => return .ok false

end BrokerExec.Sqlite
