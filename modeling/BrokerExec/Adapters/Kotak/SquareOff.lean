import BrokerExec.Adapters.Flatten
import BrokerExec.Adapters.Kotak.Wire

/-!
# Kotak's flatten (`adapters/kotak/kotak_broker_adapter.cpp`)

`squareOffBanded` reads the book once, cancels the remainder and places at most one exit. No
tag comes back, so the exit on the book is looked for by the ids this process holds and then by
its attributes (`findExit`).

* **`placed_of_squareOffBanded`** — what a flatten that places an order has seen.
-/

namespace BrokerExec.Adapters.Kotak

open BrokerExec.Domain (OrderIntent OrderState Price Side kInt64Max)
open BrokerExec.Errors (Error)
open BrokerExec.FillNorm (exitQtyFor neutralStatus normalizeFill)

/-! ## The adapter -/

structure PendingIntent where
  clientRef : Bytes
  attrKey : Bytes

def kMaxPendingIntents : Nat := 256

/-- The correlation state, which lives in memory only. -/
structure KotakBrokerAdapter where
  idToRef : Bytes → Option Bytes
  anchoredRefs : List Bytes
  pending : List PendingIntent

def KotakBrokerAdapter.dropPending (st : KotakBrokerAdapter) (clientRef : Bytes) :
    KotakBrokerAdapter :=
  if clientRef = [] then st
  else { st with pending := st.pending.filter fun p => p.clientRef ≠ clientRef }

/-- A pending intent is kept current or appended; the oldest ones give way. -/
def KotakBrokerAdapter.registerIntent (st : KotakBrokerAdapter) (intent : OrderIntent) :
    KotakBrokerAdapter :=
  if intent.clientRef = [] ∨ intent.clientRef ∈ st.anchoredRefs then st
  else
    let key := attributeKey intent.symbol (sideCode intent.side) (some intent.quantity.toInt)
    match st.pending.findIdx? (·.clientRef = intent.clientRef) with
    | some i => { st with pending := st.pending.modify i fun p => { p with attrKey := key } }
    | none =>
      let pending := st.pending ++ [⟨intent.clientRef, key⟩]
      { st with pending := pending.drop (pending.length - kMaxPendingIntents) }

def KotakBrokerAdapter.anchor (st : KotakBrokerAdapter) (brokerOrderId clientRef : Bytes) :
    KotakBrokerAdapter :=
  if brokerOrderId = [] ∨ clientRef = [] then st
  else
    { st with
      idToRef := Function.update st.idToRef brokerOrderId (some clientRef)
      anchoredRefs := clientRef :: st.anchoredRefs }.dropPending clientRef

def KotakBrokerAdapter.refForId (st : KotakBrokerAdapter) (brokerOrderId : Bytes) : Bytes :=
  if brokerOrderId = [] then [] else (st.idToRef brokerOrderId).getD []

/-- `is_ambiguous_outcome`: the order may be live. -/
def isAmbiguousOutcome (error : Error) : Bool :=
  error.action = .reconcileFirst || error.category = .timeout || error.category = .network
    || error.category = .unknown

/-! ## What the book says -/

/-- What a flatten knows before it changes anything at the broker. -/
structure Assessment where
  rows : List RawOrder
  parent : RawOrder
  exitQty : Int
  terminal : Bool

/-- The canonical fill of a parent whose fill and total are known. -/
def measure (rows : List RawOrder) (parent : RawOrder) (reported : OrderState)
    (filled total : Int) : Assessment :=
  let snap := normalizeFill (neutralStatus (reported = .filled)) filled total true
  ⟨rows, parent, exitQtyFor snap,
    reported = .cancelled || reported = .rejected || snap.canonicalState = .filled⟩

/-- The refusals ahead of the cancel, in their order. The parent is the first row with its id. -/
def KotakBrokerAdapter.assess (st : KotakBrokerAdapter) (brokerOrderId : Bytes)
    (book : Json.Value) : Result Assessment :=
  match book with
  | .array elements =>
    let rows := (objectRows elements).map readOrderRow
    match rows.find? fun raw => raw.orderId ≠ [] && raw.orderId = brokerOrderId with
    | none =>
      .error (reconcileFirstError (ascii "kotak: square_off could not find the order in broker "
        ++ ascii "truth; reconcile before flattening") (ascii "KOTAK-SQUAREOFF-NOPARENT"))
    | some parent =>
      if parent.malformed then
        .error (reconcileFirstError (ascii "kotak: square_off read an unparseable field on the "
          ++ ascii "order; reconcile before flattening") (ascii "KOTAK-SQUAREOFF-MALFORMED"))
      else
        -- a fill that was not stated is not a fill of 0
        match parent.filled with
        | none =>
          .error (reconcileFirstError (ascii "kotak: square_off could not read the order's filled "
            ++ ascii "quantity; reconcile before flattening") (ascii "KOTAK-SQUAREOFF-NOFILLQTY"))
        | some filled =>
          -- only a process that still holds the id's ref can tell
          if isExitRef (st.refForId brokerOrderId) then
            .error { codedError .validation (ascii "kotak: square_off was asked to flatten a "
              ++ ascii "square-off EXIT order; flattening an exit re-opens the position it closed, "
              ++ ascii "so nothing was sent") (ascii "KOTAK-SQUAREOFF-SELFEXIT") with
              action := .doNotRetry }
          else
            let reported := mapOrderState parent.status filled parent.quantity
            if reported = .unknown then
              .error (reconcileFirstError (ascii "kotak: square_off read an unrecognized order "
                ++ ascii "status; reconcile before flattening")
                (ascii "KOTAK-SQUAREOFF-UNKNOWNSTATE"))
            else
              match parent.quantity with
              | none =>
                .error (reconcileFirstError (ascii "kotak: square_off could not read the order "
                  ++ ascii "quantity; reconcile before flattening")
                  (ascii "KOTAK-SQUAREOFF-NOQTY"))
              | some total => .ok (measure rows parent reported filled total)
  | _ =>
    .error (reconcileFirstError (ascii "kotak: the order book payload was not an array")
      (ascii "KOTAK-SQUAREOFF-BOOKSHAPE"))

/-- The exit's side; any other code is a side that could not be read. -/
def exitSideFor (parentSide : Bytes) : Option Side :=
  if parentSide = ascii "S" then some .buy
  else if parentSide = ascii "B" then some .sell
  else none

/-! ## The exit on the book -/

/-- Rung 1: the process holds this row's id as the exit's. -/
def KotakBrokerAdapter.isAnchoredExit (st : KotakBrokerAdapter) (brokerOrderId exitRef : Bytes)
    (raw : RawOrder) : Bool :=
  raw.orderId ≠ [] && raw.orderId ≠ brokerOrderId && st.refForId raw.orderId = exitRef

/-- The quantity of a row that is the exit by its id, if the row can be taken for one in force. -/
def judgeAnchored (raw : RawOrder) : Result Int :=
  match classifyKotakStatus raw.status with
  | .rejected =>
    .error (alertError .brokerRejected (ascii "kotak: a prior square-off exit for this order was "
      ++ ascii "REJECTED by the broker; the position is still open and needs an operator")
      (ascii "KOTAK-SQUAREOFF-EXITREJECTED"))
  | .cancelled =>
    .error (alertError .brokerRejected (ascii "kotak: a prior square-off exit for this order was "
      ++ ascii "CANCELLED; the position is still open and needs an operator")
      (ascii "KOTAK-SQUAREOFF-EXITCANCELLED"))
  | cls =>
    -- `working` and `complete` are read alike from here on
    if cls = .unrecognized ∨ raw.malformed then
      .error (reconcileFirstError (ascii "kotak: square_off could not read the state of the exit "
        ++ ascii "already at the broker; reconcile before flattening")
        (ascii "KOTAK-SQUAREOFF-EXITUNKNOWNSTATE"))
    else
      match raw.quantity with
      | none =>
        .error (reconcileFirstError (ascii "kotak: square_off could not read the quantity of the "
          ++ ascii "exit already at the broker; reconcile before flattening")
          (ascii "KOTAK-SQUAREOFF-EXITNOQTY"))
      | some quantity => .ok quantity

/-- Working or complete. -/
def inForce (raw : RawOrder) : Bool :=
  classifyKotakStatus raw.status = .working || classifyKotakStatus raw.status = .complete

/-- Rung 2: a well-formed row that is bound to no other ref and has the exit's symbol and side, a
size up to the exit's and a status in force. -/
def KotakBrokerAdapter.isCandidate (st : KotakBrokerAdapter) (brokerOrderId exitRef symbol : Bytes)
    (exitSide : Side) (exitQty : Int) (raw : RawOrder) : Bool :=
  raw.orderId ≠ [] && raw.orderId ≠ brokerOrderId && !raw.malformed
    && (st.refForId raw.orderId = [] || st.refForId raw.orderId = exitRef)
    && raw.symbol = symbol && raw.side = sideCode exitSide
    && raw.quantity.any (fun quantity => 0 < quantity && quantity ≤ exitQty)
    && inForce raw

/-- The quantity of the exit on the book: the first row by id, or the one row by attributes. -/
def KotakBrokerAdapter.findExit (st : KotakBrokerAdapter) (brokerOrderId exitRef : Bytes)
    (exitSide : Side) (seen : Assessment) : Result (Option Int) :=
  match seen.rows.find? (st.isAnchoredExit brokerOrderId exitRef) with
  -- the ladder stops at the first row of rung 1, whatever it makes of it
  | some raw => (judgeAnchored raw).map some
  | none =>
    match seen.rows.filter
        (st.isCandidate brokerOrderId exitRef seen.parent.symbol exitSide seen.exitQty) with
    | [] => .ok none
    -- a candidate's quantity is known, so this is never `none`
    | [raw] => .ok raw.quantity
    | _ =>
      .error (reconcileFirstError (ascii "kotak: square_off found more than one order matching "
        ++ ascii "this exit's shape; reconcile before flattening")
        (ascii "KOTAK-SQUAREOFF-AMBIGUOUS"))

/-- Whether the exit on the book is big enough. -/
def judgeSize (quantity exitQty : Int) : Result Unit :=
  if quantity < exitQty then
    .error (alertError .dataStale (ascii "kotak: the square-off exit already at the broker is "
      ++ ascii "SMALLER than the position now reported filled; the remainder is still open and "
      ++ ascii "needs an operator") (ascii "KOTAK-SQUAREOFF-EXITSHORT"))
  else .ok ()

/-! ## The exit order -/

def KotakBrokerAdapter.exitRef (st : KotakBrokerAdapter) (brokerOrderId : Bytes) : Bytes :=
  let parentRef := st.refForId brokerOrderId
  exitClientRef (if parentRef = [] then brokerOrderId else parentRef)

def exitIntent (exitRef : Bytes) (parent : RawOrder) (exitSide : Side) (exitQty : Int)
    (lower upper : Option Price) : OrderIntent where
  clientRef := exitRef
  symbol := parent.symbol
  side := exitSide
  quantity := Int64.ofInt exitQty
  price := (bandPrice lower upper exitSide).getD 0
  triggerPrice := none
  orderType := if (bandPrice lower upper exitSide).isSome then .limit else .market
  product := .intraday
  strategy := ascii "square_off"

/-- The parameters of the exit; the product and the segment are the parent's own. -/
def exitParams (exit : OrderIntent) (parent : RawOrder) : PlaceParams :=
  let params := buildPlaceParams exit
  { params with
    pc := if parent.product = [] then params.pc else parent.product
    es := if parent.segment = [] then params.es else parent.segment }

/-! ## The flatten -/

abbrev KotakCalls := List (RestCall CancelParams PlaceParams)

abbrev KotakFlattened := Flattened KotakBrokerAdapter CancelParams PlaceParams

/-- The place itself: the exit is registered before the call, its id behind it. -/
def KotakBrokerAdapter.placeExit (st : KotakBrokerAdapter) (exit : OrderIntent)
    (params : PlaceParams) (calls : KotakCalls) (placed : Result Json.Value) : KotakFlattened :=
  let st := st.registerIntent exit
  let calls := calls ++ [.placeOrder params]
  match placed with
  | .error error =>
    -- an exit that may be live stays registered
    ⟨.error error, calls, if isAmbiguousOutcome error then st else st.dropPending exit.clientRef⟩
  | .ok data =>
    let exitId := extractOrderId data
    ⟨.ok (), calls, if exitId = [] then st else st.anchor exitId exit.clientRef⟩

/-- Behind the cancel: nothing to exit, an exit on the book to judge, or one to place. -/
def KotakBrokerAdapter.settle (st : KotakBrokerAdapter) (brokerOrderId : Bytes)
    (lower upper : Option Price) (seen : Assessment) (calls : KotakCalls)
    (placed : Result Json.Value) : KotakFlattened :=
  if seen.exitQty ≤ 0 then ⟨.ok (), calls, st⟩
  else
    match exitSideFor seen.parent.side with
    -- the side is read behind the cancel
    | none =>
      ⟨.error (reconcileFirstError (ascii "kotak: square_off could not read the order's "
        ++ ascii "transaction type; reconcile before flattening") (ascii "KOTAK-SQUAREOFF-NOSIDE")),
        calls, st⟩
    | some exitSide =>
      let exitRef := st.exitRef brokerOrderId
      match st.findExit brokerOrderId exitRef exitSide seen with
      | .error error => ⟨.error error, calls, st⟩
      | .ok (some quantity) => ⟨judgeSize quantity seen.exitQty, calls, st⟩
      | .ok none =>
        let exit := exitIntent exitRef seen.parent exitSide seen.exitQty lower upper
        st.placeExit exit (exitParams exit seen.parent) calls placed

def KotakBrokerAdapter.squareOffBanded (st : KotakBrokerAdapter) (brokerOrderId : Bytes)
    (lower upper : Option Price) (answers : Answers) : KotakFlattened :=
  flatten st
    (codedError .validation (ascii "kotak: square_off requires a broker order id")
      (ascii "KOTAK-SQUAREOFF-NOID"))
    brokerOrderId (buildCancelParams brokerOrderId) (st.assess brokerOrderId) Assessment.terminal
    (fun seen calls => st.settle brokerOrderId lower upper seen calls answers.placeOrder) answers

def KotakBrokerAdapter.squareOff (st : KotakBrokerAdapter) (brokerOrderId : Bytes)
    (answers : Answers) : KotakFlattened :=
  st.squareOffBanded brokerOrderId none none answers

/-! ## What a flatten has seen -/

/-- The rows of a book. -/
def bookRows (elements : List Json.Value) : List RawOrder :=
  (objectRows elements).map readOrderRow

def RawOrder.isParent (brokerOrderId : Bytes) (raw : RawOrder) : Bool :=
  raw.orderId ≠ [] && raw.orderId = brokerOrderId

/-- Nothing of the order is left to cancel. -/
def Gone (status : Bytes) (filled total : Int) : Prop :=
  classifyKotakStatus status = .cancelled ∨ classifyKotakStatus status = .rejected
    ∨ 0 < filled ∧ total ≤ filled

instance (status : Bytes) (filled total : Int) : Decidable (Gone status filled total) := by
  unfold Gone
  infer_instance

variable {st : KotakBrokerAdapter} {brokerOrderId : Bytes} {lower upper : Option Price}
  {answers : Answers} {seen : Assessment} {elements : List Json.Value}

/-- The exit is sized by the fill. -/
theorem measure_eq (rows : List RawOrder) (parent : RawOrder) (status : Bytes) {filled : Int}
    (hfilled : 0 ≤ filled) (total : Int) :
    measure rows parent (mapOrderState status filled (some total)) filled total
      = ⟨rows, parent, filled, decide (Gone status filled total)⟩ := by
  have hcancelled : mapOrderState status filled (some total) = .cancelled
      ↔ classifyKotakStatus status = .cancelled := by
    rw [mapOrderState_total status hfilled]
    cases classifyKotakStatus status <;> simp <;> split_ifs <;> simp
  have hrejected : mapOrderState status filled (some total) = .rejected
      ↔ classifyKotakStatus status = .rejected := by
    rw [mapOrderState_total status hfilled]
    cases classifyKotakStatus status <;> simp <;> split_ifs <;> simp
  simp only [measure, FillNorm.exitQtyFor_reconciled _ hfilled]
  congr 1
  rw [Bool.eq_iff_iff, decide_eq_true_iff]
  simp only [Gone, hcancelled, hrejected, FillNorm.filled_normalizeFill_iff _ hfilled,
    Bool.or_eq_true, decide_eq_true_eq, or_assoc]

/-- What stands in the assessment of a book that is not refused. -/
structure Assessed (st : KotakBrokerAdapter) (brokerOrderId : Bytes) (elements : List Json.Value)
    (seen : Assessment) (total : Int) : Prop where
  rows : seen.rows = bookRows elements
  found : (bookRows elements).find? (·.isParent brokerOrderId) = some seen.parent
  readable : seen.parent.malformed = false
  filled : seen.parent.filled = some seen.exitQty
  notExit : isExitRef (st.refForId brokerOrderId) = false
  status : mapOrderState seen.parent.status seen.exitQty (some total) ≠ .unknown
  quantity : seen.parent.quantity = some total
  terminal : seen.terminal = decide (Gone seen.parent.status seen.exitQty total)

theorem bookRows_filled_bound {raw : RawOrder} (hraw : raw ∈ bookRows elements) {filled : Int}
    (h : raw.filled = some filled) : 0 ≤ filled ∧ filled ≤ kInt64Max := by
  obtain ⟨row, -, rfl⟩ := List.mem_map.mp hraw
  exact readOrderRow_filled_bound h

theorem Assessed.exitQty_bound {total : Int}
    (h : Assessed st brokerOrderId elements seen total) :
    0 ≤ seen.exitQty ∧ seen.exitQty ≤ kInt64Max :=
  bookRows_filled_bound (List.mem_of_find?_eq_some h.found) h.filled

theorem assess_ok_iff {book : Json.Value} :
    st.assess brokerOrderId book = .ok seen ↔
      ∃ elements total, book = .array elements ∧ Assessed st brokerOrderId elements seen total := by
  constructor
  · intro h
    cases book with
    | array elements =>
      rw [KotakBrokerAdapter.assess] at h
      dsimp only at h
      split at h
      · cases h
      next parent hfound =>
        have hmem : parent ∈ bookRows elements := List.mem_of_find?_eq_some hfound
        split at h
        · cases h
        next hmalformed =>
          split at h
          · cases h
          next filled hfilled =>
            have hnonneg := (bookRows_filled_bound hmem hfilled).1
            split at h
            · cases h
            next hself =>
              split at h
              · cases h
              next hstatus =>
                split at h
                · cases h
                next total htotal =>
                  -- every refusal is passed: what is left is the measure
                  rw [htotal, measure_eq _ _ _ hnonneg] at h
                  cases h
                  exact ⟨elements, total, rfl, rfl, hfound, by simpa using hmalformed, hfilled,
                    by simpa using hself, htotal ▸ hstatus, htotal, rfl⟩
    | _ => cases h
  · rintro ⟨elements, total, rfl, h⟩
    have hfound := h.found
    unfold bookRows at hfound
    have hassess : st.assess brokerOrderId (.array elements)
        = .ok (measure (bookRows elements) seen.parent
          (mapOrderState seen.parent.status seen.exitQty (some total)) seen.exitQty total) := by
      simp only [RawOrder.isParent] at hfound
      simp only [KotakBrokerAdapter.assess, hfound, h.readable, h.filled, h.notExit, h.status,
        h.quantity, bookRows, Bool.false_eq_true, if_false]
    rw [hassess, measure_eq _ _ _ h.exitQty_bound.1, ← h.terminal, ← h.rows]

/-- No exit is found when no row is one, by its id or by its attributes. -/
theorem findExit_none_iff {exitRef : Bytes} {exitSide : Side} :
    st.findExit brokerOrderId exitRef exitSide seen = .ok none ↔
      (∀ raw ∈ seen.rows, st.isAnchoredExit brokerOrderId exitRef raw = false)
        ∧ ∀ raw ∈ seen.rows, st.isCandidate brokerOrderId exitRef seen.parent.symbol exitSide
          seen.exitQty raw = false := by
  unfold KotakBrokerAdapter.findExit
  constructor
  · intro h
    split at h
    next raw hraw => cases hjudge : judgeAnchored raw <;> rw [hjudge] at h <;> cases h
    next hanchored =>
      refine ⟨by simpa using List.find?_eq_none.mp hanchored, ?_⟩
      split at h
      next hcandidates => simpa using List.filter_eq_nil_iff.mp hcandidates
      next raw hone =>
        -- a candidate has a quantity
        have hraw : raw ∈ seen.rows.filter (st.isCandidate brokerOrderId exitRef
            seen.parent.symbol exitSide seen.exitQty) := hone ▸ List.mem_singleton_self raw
        have hnone : raw.quantity = none := Except.ok.inj h
        simp [KotakBrokerAdapter.isCandidate, hnone] at hraw
      next => cases h
  · rintro ⟨hanchored, hcandidates⟩
    have hnone : seen.rows.find? (st.isAnchoredExit brokerOrderId exitRef) = none :=
      List.find?_eq_none.mpr (by simpa using hanchored)
    have hempty : seen.rows.filter (st.isCandidate brokerOrderId exitRef seen.parent.symbol exitSide
        seen.exitQty) = [] := List.filter_eq_nil_iff.mpr (by simpa using hcandidates)
    rw [hnone, hempty]

/-- An exit that is found is in force: it is a row by its id, or the one row by attributes. -/
theorem findExit_some {exitRef : Bytes} {exitSide : Side} {quantity : Int}
    (h : st.findExit brokerOrderId exitRef exitSide seen = .ok (some quantity)) :
    ∃ raw ∈ seen.rows, raw.malformed = false ∧ inForce raw = true ∧ raw.quantity = some quantity
      ∧ (st.isAnchoredExit brokerOrderId exitRef raw = true
        ∨ st.isCandidate brokerOrderId exitRef seen.parent.symbol exitSide seen.exitQty raw
          = true) := by
  unfold KotakBrokerAdapter.findExit at h
  split at h
  next raw hraw =>
    have hanchored : st.isAnchoredExit brokerOrderId exitRef raw = true := List.find?_some hraw
    have hmem := List.mem_of_find?_eq_some hraw
    -- rung 1: only the last branch of `judgeAnchored` has a quantity
    refine ⟨raw, hmem, ?_⟩
    unfold judgeAnchored at h
    cases hclass : classifyKotakStatus raw.status with
    | rejected | cancelled =>
      rw [hclass] at h
      cases h
    | unrecognized =>
      simp only [hclass] at h
      cases h
    | working | complete =>
      cases hmalformed : raw.malformed with
      | true =>
        simp only [hclass, hmalformed] at h
        cases h
      | false =>
        cases hquantity : raw.quantity with
        | none =>
          simp [hclass, hmalformed, hquantity, Except.map] at h
        | some q =>
          simp [hclass, hmalformed, hquantity, Except.map] at h
          exact ⟨rfl, by simp [inForce, hclass], by rw [h], .inl hanchored⟩
  next =>
    split at h
    -- rung 2: the filter keeps one row
    next => cases h
    next raw hone =>
      have hraw : raw ∈ seen.rows.filter (st.isCandidate brokerOrderId exitRef
          seen.parent.symbol exitSide seen.exitQty) := hone ▸ List.mem_singleton_self raw
      obtain ⟨hmem, hcandidate⟩ := List.mem_filter.mp hraw
      have hparts := hcandidate
      simp only [KotakBrokerAdapter.isCandidate, Bool.and_eq_true, Bool.not_eq_true'] at hparts
      exact ⟨raw, hmem, hparts.1.1.1.1.1.2, hparts.2, Except.ok.inj h, .inr hcandidate⟩
    next => cases h

/-- How a flatten settles behind the cancel. -/
inductive Settlement (st : KotakBrokerAdapter) (brokerOrderId : Bytes) (lower upper : Option Price)
    (seen : Assessment) (calls : KotakCalls) (placed : Result Json.Value) :
    KotakFlattened → Prop where
  | flat (hzero : seen.exitQty ≤ 0) :
    Settlement st brokerOrderId lower upper seen calls placed ⟨.ok (), calls, st⟩
  | refused (error : Error) :
    Settlement st brokerOrderId lower upper seen calls placed ⟨.error error, calls, st⟩
  | covered (exitSide : Side) (quantity : Int) (hside : exitSideFor seen.parent.side = some exitSide)
      (hfound : st.findExit brokerOrderId (st.exitRef brokerOrderId) exitSide seen
        = .ok (some quantity))
      (hsize : seen.exitQty ≤ quantity) :
    Settlement st brokerOrderId lower upper seen calls placed ⟨.ok (), calls, st⟩
  | sent (exitSide : Side) (hpositive : 0 < seen.exitQty)
      (hside : exitSideFor seen.parent.side = some exitSide)
      (hfound : st.findExit brokerOrderId (st.exitRef brokerOrderId) exitSide seen = .ok none) :
    Settlement st brokerOrderId lower upper seen calls placed
      (st.placeExit
        (exitIntent (st.exitRef brokerOrderId) seen.parent exitSide seen.exitQty lower upper)
        (exitParams
          (exitIntent (st.exitRef brokerOrderId) seen.parent exitSide seen.exitQty lower upper)
          seen.parent)
        calls placed)

theorem settlement (calls : KotakCalls) (placed : Result Json.Value) :
    Settlement st brokerOrderId lower upper seen calls placed
      (st.settle brokerOrderId lower upper seen calls placed) := by
  unfold KotakBrokerAdapter.settle
  split_ifs with hzero
  · exact .flat hzero
  · cases hside : exitSideFor seen.parent.side with
    | none => exact .refused _
    | some exitSide =>
      dsimp only
      cases hfound : st.findExit brokerOrderId (st.exitRef brokerOrderId) exitSide seen with
      | error error => exact .refused error
      | ok found =>
        cases found with
        | none => exact .sent exitSide (not_le.mp hzero) hside hfound
        | some quantity =>
          by_cases hsize : quantity < seen.exitQty
          · simp only [judgeSize, hsize, if_true]
            exact .refused _
          · simp only [judgeSize, hsize, if_false]
            exact .covered exitSide quantity hside hfound (not_lt.mp hsize)

/-- **What a flatten that places has seen**: an assessed book, nothing left to cancel and no exit
by either rung. Any other flatten places nothing and keeps the adapter. -/
theorem placed_of_squareOffBanded (st : KotakBrokerAdapter) (brokerOrderId : Bytes)
    (lower upper : Option Price) (answers : Answers) :
    (∃ result calls, st.squareOffBanded brokerOrderId lower upper answers = ⟨result, calls, st⟩
        ∧ Placeless calls)
      ∨ ∃ seen exitSide,
        Cleared brokerOrderId (st.assess brokerOrderId) Assessment.terminal answers seen
        ∧ 0 < seen.exitQty ∧ exitSideFor seen.parent.side = some exitSide
        ∧ st.findExit brokerOrderId (st.exitRef brokerOrderId) exitSide seen = .ok none
        ∧ st.squareOffBanded brokerOrderId lower upper answers
          = st.placeExit
            (exitIntent (st.exitRef brokerOrderId) seen.parent exitSide seen.exitQty lower upper)
            (exitParams
              (exitIntent (st.exitRef brokerOrderId) seen.parent exitSide seen.exitQty lower upper)
              seen.parent)
            (clearing PlaceParams (buildCancelParams brokerOrderId) seen.terminal)
            answers.placeOrder := by
  unfold KotakBrokerAdapter.squareOffBanded
  rcases flatten_cases st _ brokerOrderId (buildCancelParams brokerOrderId)
    (st.assess brokerOrderId) Assessment.terminal
    (fun seen calls => st.settle brokerOrderId lower upper seen calls answers.placeOrder) answers
    with ⟨error, calls, heq, hcalls⟩ | ⟨seen, hcleared, heq⟩
  · exact .inl ⟨.error error, calls, heq, hcalls⟩
  · rw [heq]
    have hahead := clearing_placeless (π := PlaceParams) (buildCancelParams brokerOrderId)
      seen.terminal
    generalize hsettle : st.settle brokerOrderId lower upper seen _ answers.placeOrder = flattened
    have hsettled : Settlement st brokerOrderId lower upper seen _ answers.placeOrder flattened :=
      hsettle ▸ settlement _ _
    cases hsettled with
    -- what settles without a place leaves the calls of the clearing
    | flat | refused | covered => exact .inl ⟨_, _, rfl, hahead⟩
    | sent exitSide hpositive hside hfound =>
      exact .inr ⟨seen, exitSide, hcleared, hpositive, hside, hfound, rfl⟩

/-- A cleared flatten of a fill without an exit places one. -/
theorem squareOffBanded_sent (lower upper : Option Price) {exitSide : Side}
    (hcleared : Cleared brokerOrderId (st.assess brokerOrderId) Assessment.terminal answers seen)
    (hpositive : 0 < seen.exitQty) (hside : exitSideFor seen.parent.side = some exitSide)
    (hfound : st.findExit brokerOrderId (st.exitRef brokerOrderId) exitSide seen = .ok none) :
    st.squareOffBanded brokerOrderId lower upper answers
      = st.placeExit
        (exitIntent (st.exitRef brokerOrderId) seen.parent exitSide seen.exitQty lower upper)
        (exitParams
          (exitIntent (st.exitRef brokerOrderId) seen.parent exitSide seen.exitQty lower upper)
          seen.parent)
        (clearing PlaceParams (buildCancelParams brokerOrderId) seen.terminal)
        answers.placeOrder := by
  unfold KotakBrokerAdapter.squareOffBanded
  rw [flatten_of_cleared hcleared]
  simp only [KotakBrokerAdapter.settle, not_le.mpr hpositive, hside, hfound, if_false]

/-! ## What a place leaves behind -/

@[simp] theorem dropPending_idToRef (st : KotakBrokerAdapter) (clientRef : Bytes) :
    (st.dropPending clientRef).idToRef = st.idToRef := by
  unfold KotakBrokerAdapter.dropPending
  split_ifs <;> rfl

@[simp] theorem registerIntent_idToRef (st : KotakBrokerAdapter) (intent : OrderIntent) :
    (st.registerIntent intent).idToRef = st.idToRef := by
  unfold KotakBrokerAdapter.registerIntent
  split_ifs
  · rfl
  · dsimp only
    split <;> rfl

theorem anchor_idToRef {orderId clientRef : Bytes} (horderId : orderId ≠ [])
    (hclientRef : clientRef ≠ []) :
    (st.anchor orderId clientRef).idToRef
      = Function.update st.idToRef orderId (some clientRef) := by
  rw [KotakBrokerAdapter.anchor, if_neg (by simp [horderId, hclientRef]), dropPending_idToRef]

theorem placeExit_calls (exit : OrderIntent) (params : PlaceParams) (calls : KotakCalls)
    (placed : Result Json.Value) :
    (st.placeExit exit params calls placed).calls = calls ++ [.placeOrder params] := by
  unfold KotakBrokerAdapter.placeExit
  cases placed <;> rfl

/-- A place binds the id of its ack to the exit, and nothing else. -/
theorem placeExit_idToRef (st : KotakBrokerAdapter) {exit : OrderIntent}
    (hexit : exit.clientRef ≠ []) (params : PlaceParams) (calls : KotakCalls) (placed : Result Json.Value) :
    (st.placeExit exit params calls placed).adapter.idToRef = st.idToRef
      ∨ ∃ data, placed = .ok data ∧ extractOrderId data ≠ []
        ∧ (st.placeExit exit params calls placed).adapter.idToRef
          = Function.update st.idToRef (extractOrderId data) (some exit.clientRef) := by
  unfold KotakBrokerAdapter.placeExit
  cases placed with
  | error error =>
    left
    dsimp only
    split_ifs <;> simp
  | ok data =>
    by_cases hid : extractOrderId data = []
    · simp [hid]
    · refine .inr ⟨data, rfl, hid, ?_⟩
      simp only [hid, if_false, anchor_idToRef hid hexit, registerIntent_idToRef]

theorem exitRef_ne_nil (h : brokerOrderId ≠ []) : st.exitRef brokerOrderId ≠ [] := by
  unfold KotakBrokerAdapter.exitRef
  dsimp only
  split_ifs with hparent
  · exact exitClientRef_ne_nil h
  · exact exitClientRef_ne_nil hparent

/-- A place changes the ref of the id in its ack only. -/
theorem placeExit_refForId {exit : OrderIntent} (hexit : exit.clientRef ≠ []) (params : PlaceParams)
    (calls : KotakCalls) (placed : Result Json.Value) (orderId : Bytes) :
    (st.placeExit exit params calls placed).adapter.refForId orderId = st.refForId orderId
      ∨ (∃ data, placed = .ok data ∧ extractOrderId data = orderId ∧ orderId ≠ [])
        ∧ (st.placeExit exit params calls placed).adapter.refForId orderId = exit.clientRef := by
  unfold KotakBrokerAdapter.refForId
  -- the ack names one id; every other id keeps its ref
  rcases placeExit_idToRef st hexit params calls placed with
    hsame | ⟨data, hdata, hid, hupdate⟩
  · rw [hsame]
    exact .inl rfl
  · rw [hupdate]
    by_cases horderId : orderId = extractOrderId data
    · subst horderId
      exact .inr ⟨⟨data, hdata, rfl, hid⟩, by simp [hid]⟩
    · rw [Function.update_of_ne horderId]
      exact .inl rfl

/-! ## What an ok rests on -/

/-- **What a flatten that reports ok has seen**: an order with nothing left to cancel, and no fill,
or an exit on the book that covers it, or the ack of the one place of exactly its size. -/
theorem ok_of_squareOffBanded
    (hok : (st.squareOffBanded brokerOrderId lower upper answers).result = .ok ()) :
    ∃ elements seen total, answers.orders = .ok (.array elements)
      ∧ Assessed st brokerOrderId elements seen total
      ∧ (Gone seen.parent.status seen.exitQty total ∨ cancelFailure answers.cancelOrder = none)
      ∧ (placedOrders (st.squareOffBanded brokerOrderId lower upper answers).calls = []
          ∧ (seen.exitQty = 0
            ∨ ∃ exitSide quantity, exitSideFor seen.parent.side = some exitSide
              ∧ st.findExit brokerOrderId (st.exitRef brokerOrderId) exitSide seen
                = .ok (some quantity)
              ∧ seen.exitQty ≤ quantity)
        ∨ ∃ exitSide data, exitSideFor seen.parent.side = some exitSide
          ∧ st.findExit brokerOrderId (st.exitRef brokerOrderId) exitSide seen = .ok none
          ∧ answers.placeOrder = .ok data
          ∧ placedOrders (st.squareOffBanded brokerOrderId lower upper answers).calls
            = [exitParams (exitIntent (st.exitRef brokerOrderId) seen.parent exitSide seen.exitQty
              lower upper) seen.parent]) := by
  unfold KotakBrokerAdapter.squareOffBanded at hok ⊢
  rcases flatten_cases st _ brokerOrderId (buildCancelParams brokerOrderId)
    (st.assess brokerOrderId) Assessment.terminal
    (fun seen calls => st.settle brokerOrderId lower upper seen calls answers.placeOrder) answers
    with ⟨error, calls, heq, hcalls⟩ | ⟨seen, hcleared, heq⟩
  · rw [heq] at hok
    cases hok
  rw [heq] at hok ⊢
  obtain ⟨book, hread, hassess⟩ := hcleared.assessed
  obtain ⟨elements, total, rfl, hassessed⟩ := assess_ok_iff.mp hassess
  have hahead := clearing_placeless (π := PlaceParams) (buildCancelParams brokerOrderId)
    seen.terminal
  -- the parent is done or its cancel passed; then what the settling answered
  refine ⟨elements, seen, total, hread, hassessed, ?_, ?_⟩
  · refine hcleared.cancelled.imp_left fun hgone => ?_
    rw [hassessed.terminal] at hgone
    exact decide_eq_true_eq.mp hgone
  · generalize hsettle : st.settle brokerOrderId lower upper seen _ answers.placeOrder = flattened
      at hok ⊢
    have hsettled : Settlement st brokerOrderId lower upper seen _ answers.placeOrder flattened :=
      hsettle ▸ settlement _ _
    cases hsettled with
    | flat hzero =>
      exact .inl ⟨placedOrders_of_placeless hahead,
        .inl (le_antisymm hzero hassessed.exitQty_bound.1)⟩
    | refused error => cases hok
    | covered exitSide quantity hside hfound hsize =>
      exact .inl ⟨placedOrders_of_placeless hahead,
        .inr ⟨exitSide, quantity, hside, hfound, hsize⟩⟩
    | sent exitSide hpositive hside hfound =>
      refine .inr ⟨exitSide, ?_⟩
      cases hplaced : answers.placeOrder with
      | error error =>
        rw [hplaced] at hok
        cases hok
      | ok data =>
        refine ⟨data, hside, hfound, rfl, ?_⟩
        rw [placeExit_calls, placedOrders_concat hahead]

/-- A flatten whose calls go through reports ok, unless the side of a fill cannot be read or the
ladder does not settle for an exit that covers it. -/
theorem ok_squareOffBanded {total : Int} (hnamed : brokerOrderId ≠ [])
    (hread : answers.orders = .ok (.array elements))
    (hassessed : Assessed st brokerOrderId elements seen total)
    (hcancelled : cancelFailure answers.cancelOrder = none) {data : Json.Value}
    (hplaced : answers.placeOrder = .ok data)
    (hfound : 0 < seen.exitQty → ∃ exitSide found, exitSideFor seen.parent.side = some exitSide
      ∧ st.findExit brokerOrderId (st.exitRef brokerOrderId) exitSide seen = .ok found
      ∧ ∀ quantity, found = some quantity → seen.exitQty ≤ quantity) :
    (st.squareOffBanded brokerOrderId lower upper answers).result = .ok () := by
  have hcleared : Cleared brokerOrderId (st.assess brokerOrderId) Assessment.terminal answers seen :=
    ⟨hnamed, ⟨_, hread, assess_ok_iff.mpr ⟨elements, total, rfl, hassessed⟩⟩, .inr hcancelled⟩
  unfold KotakBrokerAdapter.squareOffBanded
  rw [flatten_of_cleared hcleared, KotakBrokerAdapter.settle]
  split_ifs with hzero
  · rfl
  · obtain ⟨exitSide, found, hside, hladder, hsize⟩ := hfound (not_le.mp hzero)
    rw [hside]
    dsimp only
    rw [hladder]
    cases found with
    | none =>
      unfold KotakBrokerAdapter.placeExit
      rw [hplaced]
    | some quantity => exact if_neg (not_lt.mpr (hsize quantity rfl))

end BrokerExec.Adapters.Kotak
