import BrokerExec.Reconcile.Reconciler
import BrokerExec.Lib.Checked
import Mathlib.Algebra.Order.Ring.Int
import Mathlib.Algebra.Ring.Nat

/-!
# Manual intervention (`reconcile/manual_intervention.cpp`)

`detect` compares the believed book with the broker's net quantity of each symbol, and
`reconcile_positions` adopts it. Both read the first row of the symbol, while a snapshot may
have several: one for each product, as the Kite adapter publishes them.

* **`netQty_eq_iff`** — the quantity read is the symbol's net exactly when the rows behind the
  first one net to nothing;
* **`countsEveryRow_iff`** — so detection and reconciliation do exactly when that is so of every
  symbol they look up.
-/

namespace BrokerExec.Reconcile.ManualIntervention

open BrokerExec.Domain (Order Position Quantity)
open BrokerExec.Lifecycle (isTerminal)
open BrokerExec.Ports (Alert AlertContext)

/-! ## The detector -/

inductive Kind where
  | positionClosedManually
  | positionReducedManually
  | orderCancelledManually
  deriving DecidableEq

def Kind.toString : Kind → Bytes
  | .positionClosedManually => ascii "PositionClosedManually"
  | .positionReducedManually => ascii "PositionReducedManually"
  | .orderCancelledManually => ascii "OrderCancelledManually"

structure ManualInterventionEvent where
  kind : Kind
  symbol : Bytes
  clientRef : Bytes
  believedQty : Int64
  brokerQty : Int64
  detail : Bytes
  deriving DecidableEq

/-- What the detector reads of a `ReconcileResult`. -/
structure Truth where
  orders : List Order
  positions : List Position

/-- `abs_qty`. -/
def absQty (value : Int64) : Int64 := if value < 0 then -value else value

/-- `broker_net_for`: the first row of the symbol, or flat. -/
def brokerNetFor (truth : Truth) (symbol : Bytes) : Int64 :=
  match truth.positions.find? (·.symbol = symbol) with
  | some pos => pos.netQty
  | none => 0

/-- `qty_tag`. -/
def qtyTag (believed broker : Int64) : Bytes :=
  ascii "believed=" ++ decimal believed.toInt ++ ascii " broker=" ++ decimal broker.toInt

def symbolProvenance (symbol : Bytes) : AlertContext := ⟨[], [], [], symbol⟩

/-- The symbols on which the bot has a live or a filled order. -/
def botIntentSymbols (orders : List Order) : List Bytes :=
  (orders.filter fun order =>
      order.intent.symbol ≠ [] && (!isTerminal order.state || order.state = .filled)).map
    (·.intent.symbol)

/-- The broker's quantity is smaller on the same side, or on the other side. -/
def isReduced (believedQty brokerQty : Int64) : Bool :=
  let signFlipped := decide (brokerQty < 0) != decide (believedQty < 0)
  signFlipped || (!signFlipped && absQty brokerQty < absQty believedQty)

/-- An event about a position, with its alert. -/
def positionEvent (kind : Kind) (symbol : Bytes) (believedQty brokerQty : Int64) :
    ManualInterventionEvent × Alert :=
  (⟨kind, symbol, [], believedQty, brokerQty,
      kind.toString ++ ascii " " ++ symbol ++ ascii " " ++ qtyTag believedQty brokerQty⟩,
    ⟨.warning, kind.toString ++ ascii " " ++ qtyTag believedQty brokerQty,
      symbolProvenance symbol⟩)

/-- A believed position that is open and that no order of the bot explains is compared. -/
def isCompared (orders : List Order) (believed : Position) : Bool :=
  believed.netQty ≠ 0 && believed.symbol ∉ botIntentSymbols orders

/-- The loop over the believed positions, one step. -/
def detectPosition (orders : List Order) (truth : Truth) (believed : Position) :
    Option (ManualInterventionEvent × Alert) :=
  if isCompared orders believed = false then none
  else
    let brokerQty := brokerNetFor truth believed.symbol
    if brokerQty = 0 then
      some (positionEvent .positionClosedManually believed.symbol believed.netQty 0)
    else if isReduced believed.netQty brokerQty then
      some (positionEvent .positionReducedManually believed.symbol believed.netQty brokerQty)
    else none

/-- A live, acknowledged order that the broker does not list, or lists as cancelled. -/
def isCancelledManually (truth : Truth) (order : Order) : Bool :=
  !isTerminal order.state && order.brokerOrderId ≠ []
    && match truth.orders.find? (sameOrder order) with
      | some row => row.state = .cancelled
      | none => true

/-- The loop over the local orders, one step. -/
def detectOrder (truth : Truth) (order : Order) : Option (ManualInterventionEvent × Alert) :=
  if isCancelledManually truth order then
    some (⟨.orderCancelledManually, order.intent.symbol, order.intent.clientRef, 0, 0,
        Kind.orderCancelledManually.toString ++ ascii " ref=" ++ order.intent.clientRef
          ++ ascii " symbol=" ++ order.intent.symbol⟩,
      ⟨.warning, Kind.orderCancelledManually.toString, provenanceOf order⟩)
  else none

/-- `detect`: the events and their alerts. -/
def detect (believed : List Position) (orders : List Order) (truth : Truth) :
    List (ManualInterventionEvent × Alert) :=
  believed.filterMap (detectPosition orders truth) ++ orders.filterMap (detectOrder truth)

/-- One position of `reconcile_positions`: the first row of its symbol, or flat. -/
def reconcilePosition (truth : Truth) (position : Position) : Position :=
  match truth.positions.find? (·.symbol = position.symbol) with
  | some row => { position with netQty := row.netQty, avgPrice := row.avgPrice }
  | none => { position with netQty := 0, avgPrice := 0 }

/-- `reconcile_positions`. -/
def reconcilePositions (truth : Truth) (positions : List Position) : List Position :=
  positions.map (reconcilePosition truth)

/-- `needs_exit`. -/
def needsExit (position : Position) : Bool := position.netQty ≠ 0

/-! ## The property and the condition -/

/-- The rows of a symbol. -/
def rowsOf (truth : Truth) (symbol : Bytes) : List Position :=
  truth.positions.filter (·.symbol = symbol)

/-- The sum of the net quantities of these rows. -/
def netSum (rows : List Position) : Int := (rows.map (·.netQty.toInt)).sum

/-- **Every row counts**: what `detect` compares and what `reconcile_positions` adopts is the
sum over the rows of the symbol; so it is for a position reported closed, and for one that
reads flat. -/
structure CountsEveryRow (truth : Truth) (orders : List Order) (believed positions : List Position) :
    Prop where
  compared : ∀ position ∈ believed, isCompared orders position = true →
    (brokerNetFor truth position.symbol).toInt = netSum (rowsOf truth position.symbol)
  adopted : ∀ position ∈ positions,
    (reconcilePosition truth position).netQty.toInt = netSum (rowsOf truth position.symbol)
  closed : ∀ event ∈ detect believed orders truth, event.1.kind = .positionClosedManually →
    netSum (rowsOf truth event.1.symbol) = 0
  flat : ∀ position ∈ reconcilePositions truth positions, needsExit position = false →
    netSum (rowsOf truth position.symbol) = 0

/-- **The condition** on a symbol: the rows behind its first one net to nothing. -/
def RestIsFlat (truth : Truth) (symbol : Bytes) : Prop := netSum (rowsOf truth symbol).tail = 0

instance (truth : Truth) (symbol : Bytes) : Decidable (RestIsFlat truth symbol) :=
  inferInstanceAs (Decidable (_ = _))

/-! ## What is read -/

/-- What is read is the first row, so what is missed is the rest. -/
theorem brokerNetFor_add_rest (truth : Truth) (symbol : Bytes) :
    (brokerNetFor truth symbol).toInt + netSum (rowsOf truth symbol).tail
      = netSum (rowsOf truth symbol) := by
  rw [brokerNetFor, rowsOf]
  have hhead := List.head?_filter (p := (·.symbol = symbol)) (l := truth.positions)
  cases hrows : truth.positions.filter (·.symbol = symbol) with
  | nil =>
    rw [hrows] at hhead
    rw [← hhead]
    rfl
  | cons row rest =>
    rw [hrows] at hhead
    rw [← hhead]
    simp [netSum]

theorem netQty_eq_iff (truth : Truth) (symbol : Bytes) :
    (brokerNetFor truth symbol).toInt = netSum (rowsOf truth symbol)
      ↔ RestIsFlat truth symbol := by
  have hsum := brokerNetFor_add_rest truth symbol
  unfold RestIsFlat
  omega

theorem reconcilePosition_netQty (truth : Truth) (position : Position) :
    (reconcilePosition truth position).netQty = brokerNetFor truth position.symbol
      ∧ (reconcilePosition truth position).symbol = position.symbol := by
  rw [reconcilePosition, brokerNetFor]
  cases truth.positions.find? (·.symbol = position.symbol) with
  | none => exact ⟨rfl, rfl⟩
  | some row => exact ⟨rfl, rfl⟩

/-- **Everything a reported close says**: the position was compared, and its first row is flat. -/
theorem detect_closed {believed : List Position} {orders : List Order} {truth : Truth}
    {event : ManualInterventionEvent × Alert} (h : event ∈ detect believed orders truth)
    (hkind : event.1.kind = .positionClosedManually) :
    ∃ position ∈ believed, isCompared orders position = true
      ∧ event.1.symbol = position.symbol ∧ brokerNetFor truth position.symbol = 0 := by
  rcases List.mem_append.mp h with h | h
  · obtain ⟨position, hmem, hevent⟩ := List.mem_filterMap.mp h
    rw [detectPosition] at hevent
    dsimp only at hevent
    split_ifs at hevent with hskipped hflat hreduced
    · obtain rfl := Option.some.inj hevent
      exact ⟨position, hmem, by simpa using hskipped, rfl, hflat⟩
    · obtain rfl := Option.some.inj hevent
      cases hkind
  · obtain ⟨order, -, hevent⟩ := List.mem_filterMap.mp h
    rw [detectOrder] at hevent
    split_ifs at hevent
    obtain rfl := Option.some.inj hevent
    cases hkind

/-- **When every row counts**, for all snapshots and books: exactly when, of every symbol that is
looked up, the rows behind the first one net to nothing. -/
theorem countsEveryRow_iff (truth : Truth) (orders : List Order)
    (believed positions : List Position) :
    CountsEveryRow truth orders believed positions
      ↔ (∀ position ∈ believed, isCompared orders position = true →
          RestIsFlat truth position.symbol)
        ∧ ∀ position ∈ positions, RestIsFlat truth position.symbol := by
  constructor
  · rintro ⟨hcompared, hadopted, -, -⟩
    refine ⟨fun position hmem hcompares => ?_, fun position hmem => ?_⟩
    · exact (netQty_eq_iff truth _).mp (hcompared position hmem hcompares)
    · have hsum := hadopted position hmem
      rw [(reconcilePosition_netQty truth position).1] at hsum
      exact (netQty_eq_iff truth _).mp hsum
  · rintro ⟨hbelieved, hpositions⟩
    have hcompared : ∀ position ∈ believed, isCompared orders position = true →
        (brokerNetFor truth position.symbol).toInt = netSum (rowsOf truth position.symbol) :=
      fun position hmem hcompares => (netQty_eq_iff truth _).mpr (hbelieved position hmem hcompares)
    have hadopted : ∀ position ∈ positions,
        (reconcilePosition truth position).netQty.toInt
          = netSum (rowsOf truth position.symbol) := by
      intro position hmem
      rw [(reconcilePosition_netQty truth position).1]
      exact (netQty_eq_iff truth _).mpr (hpositions position hmem)
    refine ⟨hcompared, hadopted, fun event hevent hkind => ?_, fun position hmem hflat => ?_⟩
    · obtain ⟨position, hmem, hcompares, hsymbol, hzero⟩ := detect_closed hevent hkind
      rw [hsymbol, ← hcompared position hmem hcompares, hzero]
      rfl
    · obtain ⟨before, hbefore, rfl⟩ := List.mem_map.mp hmem
      rw [(reconcilePosition_netQty truth before).2, ← hadopted before hbefore]
      have hzero : (reconcilePosition truth before).netQty = 0 := by simpa [needsExit] using hflat
      rw [hzero]
      rfl

/-! A long position of 50 carried overnight, behind the day's flat row of the same symbol. -/

def twoProducts : Truth := ⟨[], [⟨ascii "NIFTY", 0, 0⟩, ⟨ascii "NIFTY", 50, 10000⟩]⟩

def heldPosition : Position := ⟨ascii "NIFTY", 50, 10000⟩

/-- **A live position reported closed and erased**: the first row is flat, the symbol is not. -/
theorem live_position_erased :
    (detect [heldPosition] [] twoProducts).map (·.1.kind) = [.positionClosedManually]
      ∧ reconcilePositions twoProducts [heldPosition] = [⟨ascii "NIFTY", 0, 0⟩]
      ∧ netSum (rowsOf twoProducts (ascii "NIFTY")) = 50
      ∧ ¬ CountsEveryRow twoProducts [] [heldPosition] [heldPosition] := by
  refine ⟨by decide, by decide, by decide, fun h => ?_⟩
  have hflat := h.flat ⟨ascii "NIFTY", 0, 0⟩ (by decide) (by decide)
  exact absurd hflat (by decide)

end BrokerExec.Reconcile.ManualIntervention
