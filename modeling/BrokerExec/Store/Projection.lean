import BrokerExec.Store.Calls
import BrokerExec.Store.Migrations

/-!
# The projection that the calls keep

What the store is for: five tables by their keys and two logs, read and written one call at a time.
`project` reads a database file as one, and every call on the file is that call on the projection,
or a failure that SQLite reported and that may or may not have taken effect.

* **`Projection.apply`** — the store as its callers think of it.
* **`spec_perform`** — the calls on the file refine it.
-/

namespace BrokerExec.Sqlite

open BrokerExec.Domain (Order Position Trade)
open BrokerExec.Errors (Error)
open Process (SpecOn)
open Transaction (Idle Reported Written spec_read spec_writeIdle)

/-! ## The abstract store -/

structure Projection where
  orders : Store
  trades : Table Bytes Trade Trade.tradeId
  positions : Table Bytes Position Position.symbol
  funds : Table Bytes Funds Funds.account
  riskEvents : Table Nat RiskEvent RiskEvent.id
  audit : Table Nat AuditRecord AuditRecord.id

def Projection.empty : Projection := ⟨.empty, .empty, .empty, .empty, .empty, .empty⟩

inductive Call where
  | insertOrder (order : Order)
  | upsertOrder (order : Order)
  | findOrder (clientRef : Bytes)
  | allOrders
  | insertTrade (trade : Trade)
  | allTrades
  | upsertPosition (position : Position)
  | findPosition (symbol : Bytes)
  | allPositions
  | upsertFunds (funds : Funds)
  | findFunds (account : Bytes)
  | insertRiskEvent (event : RiskEvent)
  | allRiskEvents
  | insertAudit (record : AuditRecord)
  | allAudit

inductive Answer where
  | done
  | order (found : Option Order)
  | orders (rows : List Order)
  | trades (rows : List Trade)
  | position (found : Option Position)
  | positions (rows : List Position)
  | funds (found : Option Funds)
  | riskEvents (rows : List RiskEvent)
  | audit (rows : List AuditRecord)

/-- A call on the abstract store, with its answer. -/
def Projection.apply (p : Projection) : Call → Result Answer × Projection
  | .insertOrder order =>
    ((p.orders.insertOrder none order).1.map fun _ => .done,
      { p with orders := (p.orders.insertOrder none order).2 })
  | .upsertOrder order => (.ok .done, { p with orders := (p.orders.upsertOrder none order).2 })
  | .findOrder clientRef => ((p.orders.findOrder none clientRef).map .order, p)
  | .allOrders => ((p.orders.allOrders none).map .orders, p)
  | .insertTrade trade =>
    (.ok .done,
      if (p.trades.find trade.tradeId).isSome then p
      else { p with trades := p.trades.upsert trade })
  | .allTrades => (.ok (.trades p.trades.rows), p)
  | .upsertPosition position =>
    (.ok .done, { p with positions := p.positions.upsert position })
  | .findPosition symbol => (.ok (.position (p.positions.find symbol)), p)
  | .allPositions => (.ok (.positions p.positions.rows), p)
  | .upsertFunds funds => (.ok .done, { p with funds := p.funds.upsert funds })
  | .findFunds account => (.ok (.funds (p.funds.find account)), p)
  | .insertRiskEvent event =>
    (.ok .done,
      { p with riskEvents := p.riskEvents.upsert { event with id := nextId p.riskEvents } })
  | .allRiskEvents => (.ok (.riskEvents p.riskEvents.rows), p)
  | .insertAudit record =>
    (.ok .done, { p with audit := p.audit.upsert { record with id := nextId p.audit } })
  | .allAudit => (.ok (.audit p.audit.rows), p)

/-- The same call on the file. -/
def Call.perform : Call → Act (Result Answer)
  | .insertOrder order => return (← Sqlite.insertOrder order).map fun _ => .done
  | .upsertOrder order => return (← Sqlite.upsertOrder order).map fun _ => .done
  | .findOrder clientRef => return (← Sqlite.findOrder clientRef).map .order
  | .allOrders => return (← Sqlite.allOrders).map .orders
  | .insertTrade trade => return (← Sqlite.insertTrade trade).map fun _ => .done
  | .allTrades => return (← Sqlite.allTrades).map .trades
  | .upsertPosition position => return (← Sqlite.upsertPosition position).map fun _ => .done
  | .findPosition symbol => return (← Sqlite.findPosition symbol).map .position
  | .allPositions => return (← Sqlite.allPositions).map .positions
  | .upsertFunds funds => return (← Sqlite.upsertFunds funds).map fun _ => .done
  | .findFunds account => return (← Sqlite.findFunds account).map .funds
  | .insertRiskEvent event => return (← Sqlite.insertRiskEvent event).map fun _ => .done
  | .allRiskEvents => return (← Sqlite.allRiskEvents).map .riskEvents
  | .insertAudit record => return (← Sqlite.insertAudit record).map fun _ => .done
  | .allAudit => return (← Sqlite.allAudit).map .audit

/-! ## Reading a file as one -/

theorem clientRef_readOrder (row : OrderRow) :
    (readOrder row).intent.clientRef = row.clientRef := rfl

theorem tradeId_readTrade (row : TradeRow) : (readTrade row).tradeId = row.tradeId := rfl

theorem symbol_readPosition (row : PositionRow) : (readPosition row).symbol = row.symbol := rfl

def readOrders (rows : Table Bytes OrderRow OrderRow.clientRef) : Store :=
  rows.image readOrder clientRef_readOrder

def readTrades (rows : Table Bytes TradeRow TradeRow.tradeId) : Table Bytes Trade Trade.tradeId :=
  rows.image readTrade tradeId_readTrade

def readPositions (rows : Table Bytes PositionRow PositionRow.symbol) :
    Table Bytes Position Position.symbol :=
  rows.image readPosition symbol_readPosition

/-- A table that is not there is read as an empty one. -/
def project (tables : Tables) : Projection where
  orders := readOrders tables.orderRows
  trades := readTrades (rowsOf tables.trades)
  positions := readPositions (rowsOf tables.positions)
  funds := rowsOf tables.funds
  riskEvents := rowsOf tables.riskEvents
  audit := rowsOf tables.audit

@[simp] theorem readOrders_upsert (rows : Table Bytes OrderRow OrderRow.clientRef) (order : Order) :
    readOrders (rows.upsert (bindOrder order)) = (readOrders rows).upsert order := by
  unfold readOrders
  rw [Table.image_upsert, readOrder_bindOrder]

@[simp] theorem readTrades_upsert (rows : Table Bytes TradeRow TradeRow.tradeId) (trade : Trade) :
    readTrades (rows.upsert (bindTrade trade)) = (readTrades rows).upsert trade := by
  unfold readTrades
  rw [Table.image_upsert, readTrade_bindTrade]

@[simp] theorem readPositions_upsert (rows : Table Bytes PositionRow PositionRow.symbol)
    (position : Position) :
    readPositions (rows.upsert (bindPosition position))
      = (readPositions rows).upsert position := by
  unfold readPositions
  rw [Table.image_upsert, readPosition_bindPosition]

@[simp] theorem find_readOrders (rows : Table Bytes OrderRow OrderRow.clientRef)
    (clientRef : Bytes) :
    (readOrders rows).find clientRef = (rows.find clientRef).map readOrder :=
  Table.find_image readOrder _ rows clientRef

@[simp] theorem find_readTrades (rows : Table Bytes TradeRow TradeRow.tradeId) (tradeId : Bytes) :
    (readTrades rows).find tradeId = (rows.find tradeId).map readTrade :=
  Table.find_image readTrade _ rows tradeId

@[simp] theorem find_readPositions (rows : Table Bytes PositionRow PositionRow.symbol)
    (symbol : Bytes) :
    (readPositions rows).find symbol = (rows.find symbol).map readPosition :=
  Table.find_image readPosition _ rows symbol

/-- Every statement of this build compiles. -/
def Tables.Current (tables : Tables) : Prop := ∀ name, tables.serves name = true

/-- What an allowed answer failed. -/
def Faulted (allowed : Tick → Prop) : Prop := ∃ t, allowed t ∧ t.fault.isSome

/-- The answer of the abstract store, or a failure that SQLite reported; a failure may have taken
effect. -/
inductive Serves (allowed : Tick → Prop) (p : Projection) (call : Call) :
    Result Answer → Projection → Prop
  | answered {answer : Result Answer} {p' : Projection} :
      p.apply call = (answer, p') → Serves allowed p call answer p'
  | failed {error : Error} {p' : Projection} :
      Faulted allowed → p' = p ∨ p' = (p.apply call).2 → Serves allowed p call (.error error) p'

section Specs

variable {allowed : Tick → Prop} {d : Database} {α : Type}

theorem faulted_of_reported {code : Nat} (h : Reported Tick.fault allowed code) :
    Faulted allowed := by
  obtain ⟨t, f, ht, hfault, -⟩ := h
  exact ⟨t, ht, by simp [hfault]⟩

/-- A call that leaves the file, and gives `a` or fails by a fault. -/
abbrev Finds (allowed : Tick → Prop) (d : Database) (a : α) (call : Act (Result α)) : Prop :=
  SpecOn allowed (Idle d) call
    (fun result c => (result = .ok a ∨ Faulted allowed ∧ ∃ error, result = .error error)
      ∧ Idle d c)
    (Idle d)

theorem finds_error {a : α} {error : Error} (h : Faulted allowed) :
    Finds allowed d a (Pure.pure (.error error)) :=
  SpecOn.pure fun _ hc => ⟨.inr ⟨h, error, rfl⟩, hc⟩

/-- A found value goes on, an error is returned. -/
theorem finds_then {β : Type} {a : α} {call : Act (Result α)} {f : Result α → Act (Result β)}
    {post : Result β → Connection Database → Prop} (hcall : Finds allowed d a call)
    (hok : SpecOn allowed (Idle d) (f (.ok a)) post (Idle d))
    (herror : ∀ error, Faulted allowed → SpecOn allowed (Idle d) (f (.error error)) post (Idle d)) :
    SpecOn allowed (Idle d) (call >>= f) post (Idle d) := by
  refine SpecOn.bind hcall fun result => ?_
  cases result with
  | ok a' =>
    refine SpecOn.given fun hfound => ?_
    rcases hfound with h | ⟨-, error, h⟩
    · obtain rfl := Except.ok.inj h
      exact hok
    · cases h
  | error error =>
    refine SpecOn.given fun hfound => ?_
    rcases hfound with h | ⟨hfault, -⟩
    · cases h
    · exact herror error hfault

theorem finds_read {context : String} {answer : Database → α} :
    Finds allowed d (answer d)
      (labelled context (Transaction.read Tick.fault fun _ d => answer d)) := by
  refine SpecOn.bind (spec_read fun _ hc => hc) fun result => ?_
  cases result with
  | error code =>
    exact SpecOn.pure fun c hc => ⟨.inr ⟨faulted_of_reported hc.2, _, rfl⟩, hc.1⟩
  | ok a =>
    refine SpecOn.pure fun c hc => ?_
    obtain ⟨hidle, t, -, -, rfl⟩ := hc
    exact ⟨.inl rfl, hidle⟩

theorem finds_prepare {table : TableName} (hd : d.tables.Current) :
    Finds allowed d () (prepare table) := by
  refine finds_then finds_read ?_ fun _ => finds_error
  rw [hd table]
  exact SpecOn.pure fun c hc => ⟨.inl rfl, hc⟩

theorem finds_touchEach (contexts : List String) : Finds allowed d () (touchEach contexts) := by
  induction contexts with
  | nil => exact SpecOn.pure fun c hc => ⟨.inl rfl, hc⟩
  | cons context rest ih => exact finds_then finds_read ih fun _ => finds_error

theorem finds_selectOne {table : TableName} {bindContext stepContext : String}
    {row : Tables → Option α} (hd : d.tables.Current) :
    Finds allowed d (row d.tables) (selectOne table bindContext stepContext row) := by
  refine finds_then (finds_prepare hd) ?_ fun _ => finds_error
  exact finds_then finds_read (finds_read) fun _ => finds_error

theorem finds_selectAll {table : TableName} {stepContext : String} {rows : Tables → List α}
    (hd : d.tables.Current) :
    Finds allowed d (rows d.tables) (selectAll table stepContext rows) := by
  refine finds_then (finds_prepare hd) ?_ fun _ => finds_error
  refine finds_then (finds_read) ?_ fun _ => finds_error
  refine finds_then (finds_touchEach _) ?_ fun _ => finds_error
  exact SpecOn.pure fun c hc => ⟨.inl rfl, hc⟩

/-! ## Writes -/

/-- How a statement ends: with the step's code, or before its step. -/
def Stepped (allowed : Tick → Prop) (d : Database) (judge : Nat → Error) (statement : Dml)
    (result : Result Unit) (c : Connection Database) : Prop :=
  (∃ code, result = code.mapError judge ∧ Written Tick.fault allowed statement.run d code c)
    ∨ (Faulted allowed ∧ (∃ error, result = .error error) ∧ Idle d c)

theorem spec_executeJudged {bindContext : String} {judge : Nat → Error} {statement : Dml}
    (hd : d.tables.Current) :
    SpecOn allowed (Idle d) (executeJudged bindContext judge statement)
      (Stepped allowed d judge statement) (Idle d) := by
  have herror (error : Error) (hfault : Faulted allowed) :
      SpecOn allowed (Idle d) (Pure.pure (.error error) : Act (Result Unit))
        (Stepped allowed d judge statement) (Idle d) :=
    SpecOn.pure fun c hc => .inr ⟨hfault, ⟨error, rfl⟩, hc⟩
  refine finds_then (finds_prepare hd) ?_ herror
  refine finds_then finds_read ?_ herror
  refine SpecOn.bind (spec_writeIdle fun _ hc => hc) fun code => ?_
  rcases code with code | ⟨⟩
  · exact SpecOn.pure fun c hc => .inl ⟨.error code, rfl, hc⟩
  · exact SpecOn.pure fun c hc => .inl ⟨.ok (), rfl, hc⟩

end Specs

/-! ## The refinement -/

theorem Tables.current_iff {tables : Tables} :
    tables.Current ↔ (∃ rows, tables.orders = some ⟨true, rows, by simp⟩)
      ∧ (∃ rows, tables.trades = some rows) ∧ (∃ rows, tables.positions = some rows)
      ∧ (∃ rows, tables.funds = some rows) ∧ (∃ rows, tables.riskEvents = some rows)
      ∧ ∃ rows, tables.audit = some rows := by
  simp only [← Option.isSome_iff_exists]
  constructor
  · intro h
    refine ⟨?_, h .trades, h .positions, h .funds, h .riskEvents, h .audit⟩
    have := h .orders
    unfold Tables.serves at this
    rcases horders : tables.orders with _ | ⟨_ | _, rows, _⟩
    · simp [horders] at this
    · simp [horders] at this
    · exact ⟨rows, rfl⟩
  · rintro ⟨⟨rows, horders⟩, h⟩ name
    cases name with
    | orders => simp [Tables.serves, horders]
    | trades => exact h.1
    | positions => exact h.2.1
    | funds => exact h.2.2.1
    | riskEvents => exact h.2.2.2.1
    | audit => exact h.2.2.2.2

/-- The call's end on the file, as the abstract store sees it. -/
def Refines (allowed : Tick → Prop) (d : Database) (call : Call) (result : Result Answer)
    (c : Connection Database) : Prop :=
  ∃ e, Idle e c ∧ e.userVersion = d.userVersion ∧ e.tables.Current
    ∧ Serves allowed (project d.tables) call result (project e.tables)

section Refinement

variable {allowed : Tick → Prop} {d : Database} {α : Type} {call : Call}

theorem refines_finds {a : α} {act : Act (Result α)} {answer : α → Answer}
    (hd : d.tables.Current) (hfinds : Finds allowed d a act)
    (happly : (project d.tables).apply call = (.ok (answer a), project d.tables)) :
    SpecOn allowed (Idle d) (do return (← act).map answer) (Refines allowed d call) (Idle d) := by
  refine finds_then hfinds ?_ fun error hfault => ?_
  · exact SpecOn.pure fun c hc => ⟨d, hc, rfl, hd, .answered happly⟩
  · exact SpecOn.pure fun c hc => ⟨d, hc, rfl, hd, .failed hfault (.inl rfl)⟩

/-- A statement that the database does not refuse. -/
theorem refines_stepped {judge : Nat → Error} {statement : Dml} {tables : Tables}
    {act : Act (Result Unit)} (hd : d.tables.Current) (hrun : d.tables.run statement = .ok tables)
    (htables : tables.Current)
    (happly : (project d.tables).apply call = (.ok .done, project tables))
    (hact : SpecOn allowed (Idle d) act (Stepped allowed d judge statement) (Idle d)) :
    SpecOn allowed (Idle d) (do return (← act).map fun _ => .done) (Refines allowed d call)
      (Idle d) := by
  have heffect : statement.run d = .ok { d with tables := tables } := by
    unfold Dml.run
    rw [hrun]
    rfl
  refine SpecOn.bind hact fun result => SpecOn.pure fun c hc => ?_
  rcases hc with ⟨code, rfl, hwritten⟩ | ⟨hfault, ⟨error, rfl⟩, hidle⟩
  · cases hwritten with
    | done hdone hidle =>
      rw [heffect] at hdone
      obtain rfl := Except.ok.inj hdone
      exact ⟨_, hidle, rfl, htables, .answered happly⟩
    | refused hrefused _ =>
      rw [heffect] at hrefused
      cases hrefused
    | faulted hreported hdisk =>
      have hfault := faulted_of_reported hreported
      rcases hdisk with hidle | ⟨e, he, hidle⟩
      · exact ⟨d, hidle, rfl, hd, .failed hfault (.inl rfl)⟩
      · rw [heffect] at he
        obtain rfl := Except.ok.inj he
        exact ⟨_, hidle, rfl, htables, .failed hfault (.inr (by rw [happly]))⟩
  · exact ⟨d, hidle, rfl, hd, .failed hfault (.inl rfl)⟩

/-- A statement that the database refuses. -/
theorem refines_refused {judge : Nat → Error} {statement : Dml} {code : Nat}
    {act : Act (Result Unit)} (hd : d.tables.Current)
    (hrun : d.tables.run statement = .error code)
    (happly : (project d.tables).apply call = (.error (judge code), project d.tables))
    (hact : SpecOn allowed (Idle d) act (Stepped allowed d judge statement) (Idle d)) :
    SpecOn allowed (Idle d) (do return (← act).map fun _ => .done) (Refines allowed d call)
      (Idle d) := by
  have heffect : statement.run d = .error code := by
    unfold Dml.run
    rw [hrun]
    rfl
  refine SpecOn.bind hact fun result => SpecOn.pure fun c hc => ?_
  rcases hc with ⟨code', rfl, hwritten⟩ | ⟨hfault, ⟨error, rfl⟩, hidle⟩
  · cases hwritten with
    | done hdone _ =>
      rw [heffect] at hdone
      cases hdone
    | refused hrefused hidle =>
      rw [heffect] at hrefused
      obtain rfl := Except.error.inj hrefused
      exact ⟨d, hidle, rfl, hd, .answered happly⟩
    | faulted hreported hdisk =>
      have hfault := faulted_of_reported hreported
      rcases hdisk with hidle | ⟨e, he, -⟩
      · exact ⟨d, hidle, rfl, hd, .failed hfault (.inl rfl)⟩
      · rw [heffect] at he
        cases he
  · exact ⟨d, hidle, rfl, hd, .failed hfault (.inl rfl)⟩

/-- A statement with what it makes of current tables, and of the projection that they hold. -/
def Writes (tables : Tables) (statement : Dml) (call : Call) : Prop :=
  ∃ after, tables.run statement = .ok after ∧ after.Current
    ∧ (project tables).apply call = (.ok .done, project after)

theorem Tables.Current.withOrders {tables : Tables} (h : tables.Current)
    (rows : Table Bytes OrderRow OrderRow.clientRef) : (tables.withOrders rows).Current :=
  Tables.current_iff.mpr ⟨⟨rows, rfl⟩, (Tables.current_iff.mp h).2⟩

theorem project_withOrders (tables : Tables) (rows : Table Bytes OrderRow OrderRow.clientRef) :
    project (tables.withOrders rows) = { project tables with orders := readOrders rows } := rfl

theorem project_orders {tables : Tables} {orders : OrdersTable} (h : tables.orders = some orders) :
    (project tables).orders = readOrders orders.rows := by
  simp [project, Tables.orderRows, rowsOf, h]

theorem writes_upsertOrder {tables : Tables} (h : tables.Current) (order : Order) :
    Writes tables (.upsertOrder (bindOrder order)) (.upsertOrder order) := by
  obtain ⟨rows, hrows⟩ := (Tables.current_iff.mp h).1
  refine ⟨tables.withOrders (rows.upsert (bindOrder order)), ?_, h.withOrders _, ?_⟩
  · simp only [Tables.run, hrows]
  · rw [project_withOrders, readOrders_upsert]
    simp only [Projection.apply, Store.upsertOrder, project_orders hrows]

theorem writes_insertTrade {tables : Tables} (h : tables.Current) (trade : Trade) :
    Writes tables (.insertTrade (bindTrade trade)) (.insertTrade trade) := by
  obtain ⟨horders, ⟨rows, hrows⟩, hrest⟩ := Tables.current_iff.mp h
  have htrades : (project tables).trades = readTrades rows := by simp [project, rowsOf, hrows]
  cases hknown : rows.find trade.tradeId with
  | some row =>
    have hbound : rows.find (bindTrade trade).tradeId = some row := hknown
    refine ⟨tables, ?_, h, ?_⟩
    · simp only [Tables.run, hrows, hbound]
    · simp [Projection.apply, htrades, hknown]
  | none =>
    have hbound : rows.find (bindTrade trade).tradeId = none := hknown
    refine ⟨{ tables with trades := some (rows.upsert (bindTrade trade)) }, ?_,
      Tables.current_iff.mpr ⟨horders, ⟨_, rfl⟩, hrest⟩, ?_⟩
    · simp only [Tables.run, hrows, hbound]
    · simp [Projection.apply, hknown, project, rowsOf, hrows, Tables.orderRows]

theorem writes_upsertPosition {tables : Tables} (h : tables.Current) (position : Position) :
    Writes tables (.upsertPosition (bindPosition position)) (.upsertPosition position) := by
  obtain ⟨horders, htrades, ⟨rows, hrows⟩, hrest⟩ := Tables.current_iff.mp h
  refine ⟨{ tables with positions := some (rows.upsert (bindPosition position)) }, ?_,
    Tables.current_iff.mpr ⟨horders, htrades, ⟨_, rfl⟩, hrest⟩, ?_⟩
  · simp only [Tables.run, hrows]
  · simp [Projection.apply, project, rowsOf, hrows, Tables.orderRows]

theorem writes_upsertFunds {tables : Tables} (h : tables.Current) (funds : Funds) :
    Writes tables (.upsertFunds funds) (.upsertFunds funds) := by
  obtain ⟨horders, htrades, hpositions, ⟨rows, hrows⟩, hrest⟩ := Tables.current_iff.mp h
  refine ⟨{ tables with funds := some (rows.upsert funds) }, ?_,
    Tables.current_iff.mpr ⟨horders, htrades, hpositions, ⟨_, rfl⟩, hrest⟩, ?_⟩
  · simp only [Tables.run, hrows]
  · simp [Projection.apply, project, rowsOf, hrows, Tables.orderRows]

theorem writes_insertRiskEvent {tables : Tables} (h : tables.Current) (event : RiskEvent) :
    Writes tables (.insertRiskEvent event) (.insertRiskEvent event) := by
  obtain ⟨horders, htrades, hpositions, hfunds, ⟨rows, hrows⟩, haudit⟩ := Tables.current_iff.mp h
  refine ⟨{ tables with riskEvents := some (rows.upsert { event with id := nextId rows }) }, ?_,
    Tables.current_iff.mpr ⟨horders, htrades, hpositions, hfunds, ⟨_, rfl⟩, haudit⟩, ?_⟩
  · simp only [Tables.run, hrows]
  · simp [Projection.apply, project, rowsOf, hrows, Tables.orderRows]

theorem writes_insertAudit {tables : Tables} (h : tables.Current) (record : AuditRecord) :
    Writes tables (.insertAudit record) (.insertAudit record) := by
  obtain ⟨horders, htrades, hpositions, hfunds, hrisk, ⟨rows, hrows⟩⟩ := Tables.current_iff.mp h
  refine ⟨{ tables with audit := some (rows.upsert { record with id := nextId rows }) }, ?_,
    Tables.current_iff.mpr ⟨horders, htrades, hpositions, hfunds, hrisk, ⟨_, rfl⟩⟩, ?_⟩
  · simp only [Tables.run, hrows]
  · simp [Projection.apply, project, rowsOf, hrows, Tables.orderRows]

theorem refines_write {bindContext stepContext : String} {statement : Dml}
    (hd : d.tables.Current) (h : Writes d.tables statement call) :
    SpecOn allowed (Idle d)
      (do return (← execute bindContext stepContext statement).map fun _ => .done)
      (Refines allowed d call) (Idle d) := by
  obtain ⟨after, hrun, hcurrent, happly⟩ := h
  exact refines_stepped hd hrun hcurrent happly (spec_executeJudged hd)

/-- The insert of an order, where its client ref is free. -/
theorem writes_insertOrder {tables : Tables} (h : tables.Current) {order : Order}
    (hfree : (project tables).orders.find order.intent.clientRef = none) :
    Writes tables (.insertOrder (bindOrder order)) (.insertOrder order) := by
  obtain ⟨rows, hrows⟩ := (Tables.current_iff.mp h).1
  have hnone : rows.find (bindOrder order).clientRef = none := by
    rw [project_orders hrows, find_readOrders, Option.map_eq_none_iff] at hfree
    exact hfree
  refine ⟨tables.withOrders (rows.upsert (bindOrder order)), ?_, h.withOrders _, ?_⟩
  · simp only [Tables.run, hrows, hnone]
  · rw [project_withOrders, readOrders_upsert]
    simp only [Projection.apply, Store.insertOrder, hfree]
    rw [project_orders hrows]
    rfl

/-- A taken client ref is refused by the `UNIQUE` column. -/
theorem refused_insertOrder {tables : Tables} (h : tables.Current) {order row : Order}
    (htaken : (project tables).orders.find order.intent.clientRef = some row) :
    tables.run (.insertOrder (bindOrder order)) = .error kSqliteConstraint
      ∧ (project tables).apply (.insertOrder order)
        = (.error (Errors.makeError .duplicateOrder
            (ascii "store: order with this client_ref already exists")), project tables) := by
  obtain ⟨rows, hrows⟩ := (Tables.current_iff.mp h).1
  constructor
  · rw [project_orders hrows, find_readOrders, Option.map_eq_some_iff] at htaken
    obtain ⟨found, hfound, -⟩ := htaken
    have : rows.find (bindOrder order).clientRef = some found := hfound
    simp only [Tables.run, hrows, this]
  · simp only [Projection.apply, Store.insertOrder, htaken]
    rfl

theorem refines_insertOrder (hd : d.tables.Current) (order : Order) :
    SpecOn allowed (Idle d) (Call.insertOrder order).perform (Refines allowed d (.insertOrder order))
      (Idle d) := by
  cases hfind : (project d.tables).orders.find order.intent.clientRef with
  | none =>
    obtain ⟨after, hrun, hcurrent, happly⟩ := writes_insertOrder hd hfind
    exact refines_stepped hd hrun hcurrent happly (spec_executeJudged hd)
  | some row =>
    obtain ⟨hrun, happly⟩ := refused_insertOrder hd hfind
    exact refines_refused hd hrun happly (spec_executeJudged hd)

/-- **Every call on a current file is that call on the projection, or a failure that SQLite
reported and that may or may not have taken effect.** -/
theorem spec_perform (hd : d.tables.Current) (call : Call) :
    SpecOn allowed (Idle d) call.perform (Refines allowed d call) (Idle d) := by
  cases call with
  | insertOrder order => exact refines_insertOrder hd order
  | upsertOrder order => exact refines_write hd (writes_upsertOrder hd order)
  | findOrder clientRef =>
    refine refines_finds hd (finds_selectOne hd) ?_
    simp [Projection.apply, Store.findOrder, project]
    rfl
  | allOrders => exact refines_finds hd (finds_selectAll hd) rfl
  | insertTrade trade => exact refines_write hd (writes_insertTrade hd trade)
  | allTrades => exact refines_finds hd (finds_selectAll hd) rfl
  | upsertPosition position => exact refines_write hd (writes_upsertPosition hd position)
  | findPosition symbol =>
    refine refines_finds hd (finds_selectOne hd) ?_
    simp [Projection.apply, project]
  | allPositions => exact refines_finds hd (finds_selectAll hd) rfl
  | upsertFunds funds => exact refines_write hd (writes_upsertFunds hd funds)
  | findFunds account => exact refines_finds hd (finds_selectOne hd) rfl
  | insertRiskEvent event => exact refines_write hd (writes_insertRiskEvent hd event)
  | allRiskEvents => exact refines_finds hd (finds_selectAll hd) rfl
  | insertAudit record => exact refines_write hd (writes_insertAudit hd record)
  | allAudit => exact refines_finds hd (finds_selectAll hd) rfl

end Refinement

end BrokerExec.Sqlite
