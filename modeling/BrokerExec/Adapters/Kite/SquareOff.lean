import BrokerExec.Adapters.Flatten
import BrokerExec.Adapters.Kite.Wire

/-!
# Kite's flatten (`adapters/kite/kite_broker_adapter.cpp`)

`squareOffBanded` reads the book once, cancels the remainder and places at most one exit. Every
refusal that the book alone decides comes before the cancel (`assess`); what the exit on the
book is worth comes behind it (`judgeExit`).

* **`placed_of_squareOffBanded`** — what a flatten that places an order has seen.
-/

namespace BrokerExec.Adapters.Kite

open BrokerExec.Domain (OrderIntent OrderState Price Side kInt64Max)
open BrokerExec.Errors (Error)
open BrokerExec.FillNorm (FillSnapshot exitQtyFor neutralStatus normalizeFill)

/-! ## The adapter -/

/-- The correlation maps, which live in memory only, and the exchange authority if one is
wired. -/
structure KiteBrokerAdapter where
  exchangeResolver : Option (Bytes → Result Bytes)
  tagToRef : Bytes → Option Bytes
  idToRef : Bytes → Option Bytes

/-- The adapter of a new process. -/
def KiteBrokerAdapter.restart (st : KiteBrokerAdapter) : KiteBrokerAdapter :=
  { st with tagToRef := fun _ => none, idToRef := fun _ => none }

def KiteBrokerAdapter.recoverClientRef (st : KiteBrokerAdapter) (brokerOrderId tag : Bytes) :
    Bytes :=
  -- the id is asked first, then the tag
  match if brokerOrderId = [] then none else st.idToRef brokerOrderId with
  | some ref => ref
  | none => ((if tag = [] then none else st.tagToRef tag).getD [])

def KiteBrokerAdapter.resolveExchange (st : KiteBrokerAdapter) (symbol : Bytes) : Result Bytes :=
  match st.exchangeResolver with
  | none => .ok (inferExchange symbol)
  | some resolver =>
    match resolver symbol with
    | .error error => .error error
    | .ok exchange =>
      if exchange = [] then
        .error (codedError .validation
          (ascii "kite: the exchange resolver returned an empty exchange for the symbol")
          (ascii "KITE-EXCHANGE-EMPTY"))
      else .ok exchange

/-- The exit goes where the position is; the resolver may not disagree with the parent's row. -/
def KiteBrokerAdapter.exitExchange (st : KiteBrokerAdapter) (symbol parentExchange : Bytes) :
    Result Bytes :=
  if st.exchangeResolver.isNone then
    .ok (if parentExchange = [] then inferExchange symbol else parentExchange)
  else
    match st.resolveExchange symbol with
    | .error error => .error error
    | .ok resolved =>
      if parentExchange ≠ [] ∧ resolved ≠ parentExchange then
        .error (alertError .dataStale (ascii "kite: the exchange resolver and the parent order row "
          ++ ascii "disagree about where this position is; a flatten must route where the position "
          ++ ascii "actually is, so nothing was sent") (ascii "KITE-SQUAREOFF-EXCHANGEMISMATCH"))
      else .ok resolved

/-! ## What the book says -/

/-- The loop over the rows: the parent is the last row with its id, the exit the last other row
with the exit's tag. -/
def scanBook (brokerOrderId : Bytes) (rows : List BrokerRow) :
    Option BrokerRow × Option BrokerRow :=
  rows.foldl (fun found raw =>
    -- a row with the order's id is never taken for its exit
    if raw.orderId ≠ [] ∧ raw.orderId = brokerOrderId then (some raw, found.2)
    else if raw.tag ≠ [] ∧ raw.tag = exitTagFor brokerOrderId then (found.1, some raw)
    else found) (none, none)

/-- What a flatten knows before it changes anything at the broker. `route` is the exit's side and
exchange, for an order with a fill. -/
structure Assessment where
  parent : BrokerRow
  existingExit : Option BrokerRow
  exitQty : Int
  route : Option (Side × Bytes)
  terminal : Bool

/-- The side and the exchange of the exit. -/
def KiteBrokerAdapter.routeOf (st : KiteBrokerAdapter) (parent : BrokerRow) :
    Result (Side × Bytes) :=
  match exitSideFor parent.side with
  | none =>
    .error (reconcileFirstError (ascii "kite: square_off could not read the order's transaction "
      ++ ascii "type; reconcile before flattening") (ascii "KITE-SQUAREOFF-NOSIDE"))
  | some side =>
    match st.exitExchange parent.symbol parent.exchange with
    | .error error => .error error
    | .ok exchange => .ok (side, exchange)

/-- The canonical fill of a parent whose status and total are known, and the way out of it. -/
def KiteBrokerAdapter.measure (st : KiteBrokerAdapter) (parent : BrokerRow)
    (existingExit : Option BrokerRow) (total : Int) : Result Assessment :=
  let reported := mapStatus parent.status
  let snap := normalizeFill (neutralStatus (reported = .filled)) parent.filled total true
  let exitQty := exitQtyFor snap
  let terminal := reported = .cancelled || reported = .rejected || snap.canonicalState = .filled
  -- only a fill needs a side and an exchange
  if 0 < exitQty then
    match st.routeOf parent with
    | .error error => .error error
    | .ok route => .ok ⟨parent, existingExit, exitQty, some route, terminal⟩
  else .ok ⟨parent, existingExit, exitQty, none, terminal⟩

/-- The refusals that the book decides, in their order. -/
def KiteBrokerAdapter.assess (st : KiteBrokerAdapter) (brokerOrderId : Bytes) (book : Json.Value) :
    Result Assessment :=
  match book with
  | .array elements =>
    match scanBook brokerOrderId ((objectRows elements).map readBrokerRow) with
    | (none, _) =>
      .error (reconcileFirstError (ascii "kite: square_off could not find the order in broker "
        ++ ascii "truth; reconcile before flattening") (ascii "KITE-SQUAREOFF-NOPARENT"))
    | (some parent, existingExit) =>
      -- the tag comes back from the broker, so any process can tell an exit
      if isExitTag parent.tag then
        .error { codedError .validation (ascii "kite: square_off was asked to flatten a square-off "
          ++ ascii "EXIT order; flattening an exit re-opens the position it closed, so nothing was "
          ++ ascii "sent") (ascii "KITE-SQUAREOFF-SELFEXIT") with action := .doNotRetry }
      else if parent.malformed then
        .error (reconcileFirstError (ascii "kite: square_off read an unparseable field on the "
          ++ ascii "order; reconcile before flattening") (ascii "KITE-SQUAREOFF-MALFORMED"))
      else if existingExit.any (·.malformed) then
        .error (alertError .dataStale (ascii "kite: the square-off exit already at the broker "
          ++ ascii "carries an unparseable field, so it cannot be shown to cover the position; "
          ++ ascii "nothing was sent and an operator is needed")
          (ascii "KITE-SQUAREOFF-EXITMALFORMED"))
      else if mapStatus parent.status = .unknown then
        .error (reconcileFirstError (ascii "kite: square_off read an unrecognized order status; "
          ++ ascii "reconcile before flattening") (ascii "KITE-SQUAREOFF-UNKNOWNSTATE"))
      else
        match parent.quantity with
        | none =>
          .error (reconcileFirstError (ascii "kite: square_off could not read the order quantity; "
            ++ ascii "reconcile before flattening") (ascii "KITE-SQUAREOFF-NOQTY"))
        | some total => st.measure parent existingExit total
  | _ =>
    .error (reconcileFirstError (ascii "kite: the orderbook payload was not an array")
      (ascii "KITE-SQUAREOFF-BOOKSHAPE"))

/-- Whether the exit on the book covers the position: its status, then its size. -/
def judgeExit (exit : BrokerRow) (exitQty : Int) : Result Unit :=
  match mapStatus exit.status with
  | .rejected =>
    .error (alertError .brokerRejected (ascii "kite: a prior square-off exit for this order was "
      ++ ascii "REJECTED by the broker; the position is still open and needs an operator")
      (ascii "KITE-SQUAREOFF-EXITREJECTED"))
  | .cancelled =>
    .error (alertError .brokerRejected (ascii "kite: a prior square-off exit for this order was "
      ++ ascii "CANCELLED; the position is still open and needs an operator")
      (ascii "KITE-SQUAREOFF-EXITCANCELLED"))
  | .unknown =>
    .error (reconcileFirstError (ascii "kite: square_off read an unrecognized status on the exit "
      ++ ascii "already at the broker; reconcile before flattening")
      (ascii "KITE-SQUAREOFF-EXITUNKNOWNSTATE"))
  -- working or complete: the size decides
  | _ =>
    match exit.quantity with
    | none =>
      .error (reconcileFirstError (ascii "kite: square_off could not read the quantity of the exit "
        ++ ascii "already at the broker; reconcile before flattening")
        (ascii "KITE-SQUAREOFF-EXITNOQTY"))
    | some quantity =>
      if quantity < exitQty then
        .error (alertError .dataStale (ascii "kite: the square-off exit already at the broker is "
          ++ ascii "SMALLER than the position now reported filled; the remainder is still open and "
          ++ ascii "needs an operator") (ascii "KITE-SQUAREOFF-EXITSHORT"))
      else .ok ()

/-! ## The exit order -/

def KiteBrokerAdapter.exitRef (st : KiteBrokerAdapter) (brokerOrderId : Bytes)
    (parent : BrokerRow) : Bytes :=
  let parentRef := st.recoverClientRef brokerOrderId parent.tag
  exitClientRef (if parentRef = [] then brokerOrderId else parentRef)

/-- The parameters of the exit; the product is the parent's own. -/
def KiteBrokerAdapter.exitParams (st : KiteBrokerAdapter) (brokerOrderId : Bytes)
    (parent : BrokerRow) (exitQty : Int) (side : Side) (exchange : Bytes)
    (lower upper : Option Price) : OrderParams :=
  let exit : OrderIntent :=
    { clientRef := st.exitRef brokerOrderId parent
      symbol := parent.symbol
      side := side
      quantity := Int64.ofInt exitQty
      price := (bandPrice lower upper side).getD 0
      triggerPrice := none
      orderType := if (bandPrice lower upper side).isSome then .limit else .market
      product := .intraday
      strategy := ascii "square_off" }
  let params := buildPlaceParams exit (exitTagFor brokerOrderId) exchange
  -- a row without a product leaves the default of the place
  if parent.product = [] then params else { params with product := parent.product }

/-! ## The flatten -/

abbrev KiteCalls := List (RestCall Bytes OrderParams)

abbrev KiteFlattened := Flattened KiteBrokerAdapter Bytes OrderParams

/-- The place itself: the tag is registered before the call, the id behind it. -/
def KiteBrokerAdapter.placeExit (st : KiteBrokerAdapter) (brokerOrderId exitRef : Bytes)
    (params : OrderParams) (calls : KiteCalls) (placed : Result Json.Value) : KiteFlattened :=
  let st := { st with
    tagToRef := Function.update st.tagToRef (exitTagFor brokerOrderId) (some exitRef) }
  let calls := calls ++ [.placeOrder params]
  match placed with
  | .error error => ⟨.error error, calls, st⟩
  | .ok data =>
    let exitId := extractOrderId data
    ⟨.ok (), calls,
      if exitId = [] then st
      else { st with idToRef := Function.update st.idToRef exitId (some exitRef) }⟩

/-- Behind the cancel: nothing to exit, an exit on the book to judge, or one to place. -/
def KiteBrokerAdapter.settle (st : KiteBrokerAdapter) (brokerOrderId : Bytes)
    (lower upper : Option Price) (seen : Assessment)
    (calls : KiteCalls) (placed : Result Json.Value) : KiteFlattened :=
  match seen.route, seen.existingExit with
  | none, _ => ⟨.ok (), calls, st⟩
  | some _, some exit => ⟨judgeExit exit seen.exitQty, calls, st⟩
  | some (side, exchange), none =>
    st.placeExit brokerOrderId (st.exitRef brokerOrderId seen.parent)
      (st.exitParams brokerOrderId seen.parent seen.exitQty side exchange lower upper) calls placed

def KiteBrokerAdapter.squareOffBanded (st : KiteBrokerAdapter) (brokerOrderId : Bytes)
    (lower upper : Option Price) (answers : Answers) : KiteFlattened :=
  flatten st
    (codedError .validation (ascii "kite: square_off requires a broker order id")
      (ascii "KITE-SQUAREOFF-NOID"))
    brokerOrderId brokerOrderId (st.assess brokerOrderId) Assessment.terminal
    (fun seen calls => st.settle brokerOrderId lower upper seen calls answers.placeOrder) answers

def KiteBrokerAdapter.squareOff (st : KiteBrokerAdapter) (brokerOrderId : Bytes)
    (answers : Answers) : KiteFlattened :=
  st.squareOffBanded brokerOrderId none none answers

/-! ## What a flatten has seen -/

/-- The rows of a book. -/
def bookRows (elements : List Json.Value) : List BrokerRow :=
  (objectRows elements).map readBrokerRow

def BrokerRow.isParent (brokerOrderId : Bytes) (raw : BrokerRow) : Bool :=
  raw.orderId ≠ [] && raw.orderId = brokerOrderId

def BrokerRow.isExit (brokerOrderId : Bytes) (raw : BrokerRow) : Bool :=
  !raw.isParent brokerOrderId && raw.tag ≠ [] && raw.tag = exitTagFor brokerOrderId

/-- **The last of each**: the scan keeps the last parent and the last exit. -/
theorem scanBook_eq (brokerOrderId : Bytes) (rows : List BrokerRow) :
    scanBook brokerOrderId rows =
      ((rows.filter (·.isParent brokerOrderId)).getLast?,
        (rows.filter (·.isExit brokerOrderId)).getLast?) := by
  induction rows using List.reverseRecOn with
  | nil => rfl
  | append_singleton rows raw ih =>
    rw [scanBook, List.foldl_append, ← scanBook, ih]
    simp only [List.foldl_cons, List.foldl_nil, List.filter_append]
    -- the new row is the parent, or the exit, or neither
    split_ifs with hparent hexit
    · have hisParent : raw.isParent brokerOrderId = true := by
        simpa only [BrokerRow.isParent, Bool.and_eq_true, decide_eq_true_eq] using hparent
      have hisExit : raw.isExit brokerOrderId = false := by simp [BrokerRow.isExit, hisParent]
      simp only [List.filter_cons, List.filter_nil, hisParent, hisExit, Bool.false_eq_true,
        if_true, if_false, List.getLast?_concat, List.append_nil]
    · have hisParent : raw.isParent brokerOrderId = false := by
        simpa [BrokerRow.isParent] using hparent
      have hisExit : raw.isExit brokerOrderId = true := by
        simpa [BrokerRow.isExit, hisParent] using hexit
      simp only [List.filter_cons, List.filter_nil, hisParent, hisExit, Bool.false_eq_true,
        if_true, if_false, List.getLast?_concat, List.append_nil]
    · have hisParent : raw.isParent brokerOrderId = false := by
        simpa [BrokerRow.isParent] using hparent
      have hisExit : raw.isExit brokerOrderId = false := by
        simpa [BrokerRow.isExit, hisParent] using hexit
      simp only [List.filter_cons, List.filter_nil, hisParent, hisExit, Bool.false_eq_true,
        if_false, List.append_nil]

/-- Nothing of the order is left to cancel. -/
def Gone (parent : BrokerRow) (total : Int) : Prop :=
  mapStatus parent.status = .cancelled ∨ mapStatus parent.status = .rejected
    ∨ 0 < parent.filled ∧ total ≤ parent.filled

instance (parent : BrokerRow) (total : Int) : Decidable (Gone parent total) := by
  unfold Gone
  infer_instance

variable {st : KiteBrokerAdapter} {brokerOrderId : Bytes} {lower upper : Option Price}
  {answers : Answers} {seen : Assessment} {elements : List Json.Value}

/-- The exit is sized by the fill, and routed when there is one. -/
theorem measure_eq {parent : BrokerRow} (hfilled : 0 ≤ parent.filled)
    (existingExit : Option BrokerRow) (total : Int) :
    st.measure parent existingExit total =
      if 0 < parent.filled then
        match st.routeOf parent with
        | .error error => .error error
        | .ok route =>
          .ok ⟨parent, existingExit, parent.filled, some route, decide (Gone parent total)⟩
      else .ok ⟨parent, existingExit, parent.filled, none, decide (Gone parent total)⟩ := by
  have hgone : (decide (mapStatus parent.status = .cancelled)
      || decide (mapStatus parent.status = .rejected)
      || decide ((FillNorm.normalizeFill (neutralStatus (mapStatus parent.status = .filled))
          parent.filled total true).canonicalState = .filled)) = decide (Gone parent total) := by
    rw [Bool.eq_iff_iff, decide_eq_true_iff]
    simp only [FillNorm.filled_normalizeFill_iff _ hfilled, Gone, Bool.or_eq_true,
      decide_eq_true_eq, or_assoc]
  simp only [KiteBrokerAdapter.measure, FillNorm.exitQtyFor_reconciled _ hfilled, hgone]

/-- What stands in the assessment of a book that is not refused. -/
structure Assessed (st : KiteBrokerAdapter) (brokerOrderId : Bytes) (elements : List Json.Value)
    (seen : Assessment) (total : Int) : Prop where
  scanned : scanBook brokerOrderId (bookRows elements) = (some seen.parent, seen.existingExit)
  notExit : isExitTag seen.parent.tag = false
  readable : seen.parent.malformed = false
  exitReadable : seen.existingExit.any (·.malformed) = false
  status : mapStatus seen.parent.status ≠ .unknown
  quantity : seen.parent.quantity = some total
  measured : st.measure seen.parent seen.existingExit total = .ok seen

theorem measure_keeps {parent : BrokerRow} {existingExit : Option BrokerRow} {total : Int}
    (h : st.measure parent existingExit total = .ok seen) :
    seen.parent = parent ∧ seen.existingExit = existingExit := by
  unfold KiteBrokerAdapter.measure at h
  dsimp only at h
  split at h
  · split at h
    · cases h
    · cases h
      exact ⟨rfl, rfl⟩
  · cases h
    exact ⟨rfl, rfl⟩

theorem assess_ok_iff {book : Json.Value} :
    st.assess brokerOrderId book = .ok seen ↔
      ∃ elements total, book = .array elements ∧ Assessed st brokerOrderId elements seen total := by
  constructor
  · intro h
    cases book with
    | array elements =>
      rw [KiteBrokerAdapter.assess] at h
      split at h
      · cases h
      next parent existingExit hscan =>
        -- the refusals, in the order of `assess`
        split_ifs at h with hself hmalformed hexit hstatus
        split at h
        · cases h
        next total htotal =>
          obtain ⟨rfl, rfl⟩ := measure_keeps h
          exact ⟨elements, total, rfl, hscan, by simpa using hself, by simpa using hmalformed,
            by simpa using hexit, hstatus, htotal, h⟩
    | _ => cases h
  · rintro ⟨elements, total, rfl, h⟩
    have hscan := h.scanned
    unfold bookRows at hscan
    simp only [KiteBrokerAdapter.assess, hscan, h.notExit, h.readable, h.exitReadable, h.status,
      h.quantity, h.measured, Bool.false_eq_true, if_false]

/-- The parent is a row with the order's id, and the exit another row with the exit's tag. -/
theorem Assessed.rows {total : Int} (h : Assessed st brokerOrderId elements seen total) :
    (seen.parent ∈ bookRows elements ∧ seen.parent.isParent brokerOrderId = true)
      ∧ ∀ exit, seen.existingExit = some exit →
        exit ∈ bookRows elements ∧ exit.isExit brokerOrderId = true := by
  have hscanned := h.scanned
  rw [scanBook_eq] at hscanned
  obtain ⟨hparent, hexit⟩ := Prod.mk.inj hscanned
  refine ⟨List.mem_filter.mp (List.mem_of_getLast? hparent), fun exit hexitSome => ?_⟩
  exact List.mem_filter.mp (List.mem_of_getLast? (hexit.trans hexitSome))

theorem bookRows_filled_bound {raw : BrokerRow} (hraw : raw ∈ bookRows elements) :
    0 ≤ raw.filled ∧ raw.filled ≤ kInt64Max := by
  obtain ⟨row, -, rfl⟩ := List.mem_map.mp hraw
  refine ⟨clampFill_nonneg _ _, clampFill_le (by decide) _ ?_⟩
  cases hfilled : (jsonInt row (ascii "filled_quantity")).value? with
  | none => exact Int.le_of_lt (by decide)
  | some value => exact jsonInt_le hfilled

theorem routeOf_side {parent : BrokerRow} {route : Side × Bytes}
    (h : st.routeOf parent = .ok route) : exitSideFor parent.side = some route.1 := by
  unfold KiteBrokerAdapter.routeOf at h
  split at h
  · cases h
  next side hside =>
    split at h
    · cases h
    next exchange hexchange =>
      cases h
      exact hside

/-- What the assessment has measured. -/
theorem Assessed.measures {total : Int} (h : Assessed st brokerOrderId elements seen total) :
    seen.exitQty = seen.parent.filled ∧ seen.terminal = decide (Gone seen.parent total)
      ∧ (seen.route = none → seen.parent.filled = 0)
      ∧ ∀ side exchange, seen.route = some (side, exchange) →
        0 < seen.parent.filled ∧ exitSideFor seen.parent.side = some side := by
  have hnonneg := (bookRows_filled_bound h.rows.1.1).1
  have hmeasured := h.measured
  rw [measure_eq hnonneg] at hmeasured
  -- with a fill the route was asked; without one it is `none`
  split_ifs at hmeasured with hpositive
  · cases hroute : st.routeOf seen.parent with
    | error error =>
      rw [hroute] at hmeasured
      cases hmeasured
    | ok route =>
      rw [hroute] at hmeasured
      have hseen := (Except.ok.inj hmeasured).symm
      refine ⟨congrArg Assessment.exitQty hseen, congrArg Assessment.terminal hseen,
        fun hnone => ?_, fun side exchange hsome => ?_⟩
      · exact absurd ((congrArg Assessment.route hseen).symm.trans hnone) (by simp)
      · have heq : route = (side, exchange) :=
          Option.some.inj ((congrArg Assessment.route hseen).symm.trans hsome)
        exact ⟨hpositive, (routeOf_side hroute).trans (by rw [heq])⟩
  · have hseen := (Except.ok.inj hmeasured).symm
    refine ⟨congrArg Assessment.exitQty hseen, congrArg Assessment.terminal hseen,
      fun _ => by omega, fun side exchange hsome => ?_⟩
    exact absurd ((congrArg Assessment.route hseen).symm.trans hsome) (by simp)

/-- How a flatten settles behind the cancel. -/
inductive Settlement (st : KiteBrokerAdapter) (brokerOrderId : Bytes) (lower upper : Option Price)
    (seen : Assessment) (calls : KiteCalls) (placed : Result Json.Value) : KiteFlattened → Prop where
  | flat (hroute : seen.route = none) :
    Settlement st brokerOrderId lower upper seen calls placed ⟨.ok (), calls, st⟩
  | judged (exit : BrokerRow) (hroute : seen.route ≠ none)
      (hexit : seen.existingExit = some exit) :
    Settlement st brokerOrderId lower upper seen calls placed
      ⟨judgeExit exit seen.exitQty, calls, st⟩
  | sent (side : Side) (exchange : Bytes) (hroute : seen.route = some (side, exchange))
      (hexit : seen.existingExit = none) :
    Settlement st brokerOrderId lower upper seen calls placed
      (st.placeExit brokerOrderId (st.exitRef brokerOrderId seen.parent)
        (st.exitParams brokerOrderId seen.parent seen.exitQty side exchange lower upper) calls
        placed)

theorem settlement (calls : KiteCalls) (placed : Result Json.Value) :
    Settlement st brokerOrderId lower upper seen calls placed
      (st.settle brokerOrderId lower upper seen calls placed) := by
  unfold KiteBrokerAdapter.settle
  cases hroute : seen.route with
  | none => exact .flat hroute
  | some route =>
    cases hexit : seen.existingExit with
    | some exit => exact .judged exit (by simp [hroute]) hexit
    | none =>
      obtain ⟨side, exchange⟩ := route
      exact .sent side exchange hroute hexit

theorem placeExit_calls (exitRef : Bytes) (params : OrderParams) (calls : KiteCalls)
    (placed : Result Json.Value) :
    (st.placeExit brokerOrderId exitRef params calls placed).calls
      = calls ++ [.placeOrder params] := by
  unfold KiteBrokerAdapter.placeExit
  cases placed <;> rfl

/-- An order that a flatten places is the exit of a fill that no exit on the book covers. -/
structure Placed (st : KiteBrokerAdapter) (brokerOrderId : Bytes) (lower upper : Option Price)
    (seen : Assessment) (params : OrderParams) : Prop where
  unexited : seen.existingExit = none
  sent : ∃ side exchange, seen.route = some (side, exchange)
    ∧ params = st.exitParams brokerOrderId seen.parent seen.exitQty side exchange lower upper

/-- **What a flatten that places has seen**: an assessed book without the exit, and nothing left
to cancel. It places once. -/
theorem placed_of_squareOffBanded (st : KiteBrokerAdapter) (brokerOrderId : Bytes)
    (lower upper : Option Price) (answers : Answers) :
    Placeless (st.squareOffBanded brokerOrderId lower upper answers).calls
      ∨ ∃ seen params,
        Cleared brokerOrderId (st.assess brokerOrderId) Assessment.terminal answers seen
        ∧ Placed st brokerOrderId lower upper seen params
        ∧ (st.squareOffBanded brokerOrderId lower upper answers).calls
          = clearing OrderParams brokerOrderId seen.terminal ++ [.placeOrder params] := by
  unfold KiteBrokerAdapter.squareOffBanded
  rcases flatten_cases st _ brokerOrderId brokerOrderId (st.assess brokerOrderId)
    Assessment.terminal
    (fun seen calls => st.settle brokerOrderId lower upper seen calls answers.placeOrder) answers
    with ⟨error, calls, heq, hcalls⟩ | ⟨seen, hcleared, heq⟩
  · rw [heq]
    exact .inl hcalls
  · rw [heq]
    have hahead := clearing_placeless (π := OrderParams) brokerOrderId seen.terminal
    generalize hsettle : st.settle brokerOrderId lower upper seen _ answers.placeOrder = flattened
    have hsettled : Settlement st brokerOrderId lower upper seen _ answers.placeOrder flattened :=
      hsettle ▸ settlement _ _
    cases hsettled with
    -- what settles without a place leaves the calls of the clearing
    | flat | judged => exact .inl hahead
    | sent side exchange hroute hexit =>
      exact .inr ⟨seen, _, hcleared, ⟨hexit, side, exchange, hroute, rfl⟩, placeExit_calls _ _ _ _⟩

/-- **What a flatten that reports ok has seen**: an order with nothing left to cancel, and no fill,
or an exit on the book that covers it, or the ack of the one place of exactly its size. -/
theorem ok_of_squareOffBanded
    (hok : (st.squareOffBanded brokerOrderId lower upper answers).result = .ok ()) :
    ∃ elements seen total, answers.orders = .ok (.array elements)
      ∧ Assessed st brokerOrderId elements seen total
      ∧ (Gone seen.parent total ∨ cancelFailure answers.cancelOrder = none)
      ∧ (placedOrders (st.squareOffBanded brokerOrderId lower upper answers).calls = []
          ∧ (seen.parent.filled = 0
            ∨ ∃ exit, seen.existingExit = some exit ∧ judgeExit exit seen.parent.filled = .ok ())
        ∨ ∃ side exchange data, exitSideFor seen.parent.side = some side
          ∧ seen.existingExit = none ∧ answers.placeOrder = .ok data
          ∧ placedOrders (st.squareOffBanded brokerOrderId lower upper answers).calls
            = [st.exitParams brokerOrderId seen.parent seen.parent.filled side exchange lower
              upper]) := by
  unfold KiteBrokerAdapter.squareOffBanded at hok ⊢
  rcases flatten_cases st _ brokerOrderId brokerOrderId (st.assess brokerOrderId)
    Assessment.terminal
    (fun seen calls => st.settle brokerOrderId lower upper seen calls answers.placeOrder) answers
    with ⟨error, calls, heq, hcalls⟩ | ⟨seen, hcleared, heq⟩
  · rw [heq] at hok
    cases hok
  rw [heq] at hok ⊢
  obtain ⟨book, hread, hassess⟩ := hcleared.assessed
  obtain ⟨elements, total, rfl, hassessed⟩ := assess_ok_iff.mp hassess
  obtain ⟨hqty, hterminal, hflat, hrouted⟩ := hassessed.measures
  have hahead := clearing_placeless (π := OrderParams) brokerOrderId seen.terminal
  -- the parent is done or its cancel passed; then what the settling answered
  refine ⟨elements, seen, total, hread, hassessed, ?_, ?_⟩
  · refine hcleared.cancelled.imp_left fun hgone => ?_
    rw [hterminal] at hgone
    exact decide_eq_true_eq.mp hgone
  · generalize hsettle : st.settle brokerOrderId lower upper seen _ answers.placeOrder = flattened
      at hok ⊢
    have hsettled : Settlement st brokerOrderId lower upper seen _ answers.placeOrder flattened :=
      hsettle ▸ settlement _ _
    cases hsettled with
    | flat hroute => exact .inl ⟨placedOrders_of_placeless hahead, .inl (hflat hroute)⟩
    | judged exit hroute hexit =>
      exact .inl ⟨placedOrders_of_placeless hahead, .inr ⟨exit, hexit, hqty ▸ hok⟩⟩
    | sent side exchange hroute hexit =>
      refine .inr ⟨side, exchange, ?_⟩
      cases hplaced : answers.placeOrder with
      | error error =>
        rw [hplaced] at hok
        cases hok
      | ok data =>
        refine ⟨data, (hrouted side exchange hroute).2, hexit, rfl, ?_⟩
        rw [placeExit_calls, placedOrders_concat hahead, ← hqty]

/-- A flatten whose calls go through reports ok, unless the exit on the book does not cover. -/
theorem ok_squareOffBanded {total : Int} (hnamed : brokerOrderId ≠ [])
    (hread : answers.orders = .ok (.array elements))
    (hassessed : Assessed st brokerOrderId elements seen total)
    (hcancelled : cancelFailure answers.cancelOrder = none) {data : Json.Value}
    (hplaced : answers.placeOrder = .ok data)
    (hjudged : 0 < seen.parent.filled → ∀ exit, seen.existingExit = some exit →
      judgeExit exit seen.parent.filled = .ok ()) :
    (st.squareOffBanded brokerOrderId lower upper answers).result = .ok () := by
  have hcleared : Cleared brokerOrderId (st.assess brokerOrderId) Assessment.terminal answers seen :=
    ⟨hnamed, ⟨_, hread, assess_ok_iff.mpr ⟨elements, total, rfl, hassessed⟩⟩, .inr hcancelled⟩
  obtain ⟨hqty, -, -, hrouted⟩ := hassessed.measures
  unfold KiteBrokerAdapter.squareOffBanded
  rw [flatten_of_cleared hcleared]
  generalize hsettle : st.settle brokerOrderId lower upper seen _ answers.placeOrder = flattened
  have hsettled : Settlement st brokerOrderId lower upper seen _ answers.placeOrder flattened :=
    hsettle ▸ settlement _ _
  cases hsettled with
  | flat => rfl
  | judged exit hroute hexit =>
    obtain ⟨⟨side, exchange⟩, hrouteSome⟩ := Option.ne_none_iff_exists'.mp hroute
    rw [hqty]
    exact hjudged (hrouted side exchange hrouteSome).1 exit hexit
  | sent side exchange hroute hexit =>
    unfold KiteBrokerAdapter.placeExit
    rw [hplaced]

end BrokerExec.Adapters.Kite
