import BrokerExec.Domain.Types
import Mathlib.Logic.Function.Basic

/-!
# The order state machine (`lifecycle/lifecycle.cpp`)

`LifecycleEngine::apply` folds a broker view into an order: terminal states absorb, a view
older than the last applied one is dropped, an illegal jump is refused.

* **`apply_cases`** — everything one `apply` can do;
* **`apply_terminal`** — a terminal order is left as it is;
* **`apply_refused`**, **`apply_absorbed`** — a view changes nothing or is written into the order.
-/

namespace BrokerExec.Lifecycle

open BrokerExec.Domain (Order OrderState Quantity Price)

structure BrokerView where
  clientRef : Bytes
  brokerOrderId : Bytes
  observedState : OrderState
  filledQty : Quantity
  avgPrice : Price
  orderingKey : Int64
  deriving DecidableEq

inductive ApplyOutcome where
  | applied
  | droppedStale
  | droppedTerminal
  | noChange
  deriving DecidableEq

/-- `is_terminal`. -/
def isTerminal : OrderState → Bool
  | .filled | .rejected | .cancelled => true
  | .created | .validated | .pendingSend | .sent | .acknowledged | .partiallyFilled | .unknown
  | .reconciled | .partiallyPlaced | .manualInterventionRequired => false

/-- `table_allows`: the documented successors of each state. -/
def tableAllows (source target : OrderState) : Bool :=
  match source with
  | .created => target ∈ [.validated, .rejected, .unknown]
  | .validated => target ∈ [.pendingSend, .rejected, .unknown]
  | .pendingSend => target ∈ [.sent, .rejected, .unknown]
  | .sent =>
    target ∈ [.acknowledged, .partiallyFilled, .filled, .rejected, .cancelled, .unknown]
  | .acknowledged => target ∈ [.partiallyFilled, .filled, .rejected, .cancelled, .unknown]
  | .partiallyFilled => target ∈ [.partiallyFilled, .filled, .cancelled, .rejected, .unknown]
  | .filled | .rejected | .cancelled => false
  | .unknown =>
    target ∈ [.acknowledged, .partiallyFilled, .filled, .rejected, .cancelled, .reconciled,
      .partiallyPlaced, .manualInterventionRequired]
  | .reconciled =>
    target ∈ [.acknowledged, .partiallyFilled, .filled, .rejected, .cancelled, .unknown,
      .manualInterventionRequired]
  | .partiallyPlaced =>
    target ∈ [.partiallyPlaced, .partiallyFilled, .filled, .cancelled, .rejected, .unknown,
      .manualInterventionRequired]
  | .manualInterventionRequired => target ∈ [.reconciled, .cancelled]

/-- `is_valid_transition`: staying is always legal. -/
def isValidTransition (source target : OrderState) : Bool :=
  source = target || tableAllows source target

/-- `sent_means_still_working`. -/
def sentMeansStillWorking : OrderState → Bool
  | .sent | .acknowledged | .partiallyFilled | .unknown | .reconciled => true
  | .created | .validated | .pendingSend | .filled | .rejected | .cancelled | .partiallyPlaced
  | .manualInterventionRequired => false

/-- `canonical_observed`: the state the transition table is asked about. -/
def canonicalObserved (source : OrderState) (view : BrokerView) : OrderState :=
  if view.observedState ≠ .sent ∨ sentMeansStillWorking source = false then view.observedState
  else if 0 < view.filledQty then .partiallyFilled
  else .acknowledged

/-- `last_key_`: the ordering key last applied to each client ref. -/
structure LifecycleEngine where
  lastKey : Bytes → Option Int64

def LifecycleEngine.init : LifecycleEngine := ⟨fun _ => none⟩

/-- `view.ordering_key < last_key_[client_ref]`. -/
def LifecycleEngine.isStale (engine : LifecycleEngine) (view : BrokerView) : Bool :=
  match engine.lastKey view.clientRef with
  | some key => view.orderingKey < key
  | none => false

theorem LifecycleEngine.isStale_eq (engine : LifecycleEngine) (view : BrokerView) :
    engine.isStale view = (engine.lastKey view.clientRef).any (view.orderingKey < ·) := by
  unfold isStale
  cases engine.lastKey view.clientRef with
  | none => rfl
  | some key => rfl

/-- The view brings a fill, a price or an id the order does not have. -/
def fillAdvances (order : Order) (view : BrokerView) : Bool :=
  view.filledQty ≠ order.filledQty || view.avgPrice ≠ order.avgPrice
    || (view.brokerOrderId ≠ [] && view.brokerOrderId ≠ order.brokerOrderId)

/-- The order with the view written into it. -/
def absorb (order : Order) (view : BrokerView) (observed : OrderState) : Order :=
  { order with
    state := observed
    filledQty := view.filledQty
    avgPrice := view.avgPrice
    brokerOrderId :=
      if view.brokerOrderId ≠ [] then view.brokerOrderId else order.brokerOrderId }

def LifecycleEngine.record (engine : LifecycleEngine) (view : BrokerView) : LifecycleEngine :=
  ⟨Function.update engine.lastKey view.clientRef (some view.orderingKey)⟩

/-- `LifecycleEngine::apply`. -/
def LifecycleEngine.apply (engine : LifecycleEngine) (order : Order) (view : BrokerView) :
    ApplyOutcome × Order × LifecycleEngine :=
  if isTerminal order.state then (.droppedTerminal, order, engine)
  else if engine.isStale view then (.droppedStale, order, engine)
  else
    let observed := canonicalObserved order.state view
    if isValidTransition order.state observed = false then (.noChange, order, engine)
    else
      let stateChanges := order.state ≠ observed
      -- an observation that says nothing new still moves the key
      if ¬ stateChanges ∧ fillAdvances order view = false then
        (.noChange, order, engine.record view)
      else (.applied, absorb order view observed, engine.record view)

/-! ## What one `apply` can do -/

/-- A current view of a live order that the table allows writes the order, even when that
changes nothing. -/
theorem absorb_eq_self {order : Order} {view : BrokerView} {observed : OrderState}
    (hstate : order.state = observed) (hfill : fillAdvances order view = false) :
    absorb order view observed = order := by
  simp only [fillAdvances, Bool.or_eq_false_iff, Bool.and_eq_false_iff, decide_eq_false_iff_not,
    not_not, ne_eq] at hfill
  obtain ⟨⟨hqty, hprice⟩, hid⟩ := hfill
  have hid' : (if view.brokerOrderId ≠ [] then view.brokerOrderId else order.brokerOrderId)
      = order.brokerOrderId := by
    split_ifs with h
    · rcases hid with hid | hid
      · exact absurd hid h
      · exact hid
    · rfl
  rw [absorb, hid', hqty, hprice, ← hstate]

/-- **Everything one `apply` can do.** -/
theorem apply_cases (engine : LifecycleEngine) (order : Order) (view : BrokerView) :
    (isTerminal order.state = true
        ∧ engine.apply order view = (.droppedTerminal, order, engine))
      ∨ (isTerminal order.state = false ∧ engine.isStale view = true
        ∧ engine.apply order view = (.droppedStale, order, engine))
      ∨ (isTerminal order.state = false ∧ engine.isStale view = false
        ∧ isValidTransition order.state (canonicalObserved order.state view) = false
        ∧ engine.apply order view = (.noChange, order, engine))
      ∨ (isTerminal order.state = false ∧ engine.isStale view = false
        ∧ isValidTransition order.state (canonicalObserved order.state view) = true
        ∧ (engine.apply order view).2
          = (absorb order view (canonicalObserved order.state view), engine.record view)
        ∧ ((engine.apply order view).1 = .applied
          ∨ (engine.apply order view).1 = .noChange
            ∧ absorb order view (canonicalObserved order.state view) = order)) := by
  cases hterm : isTerminal order.state with
  | true =>
    refine .inl ⟨rfl, ?_⟩
    rw [LifecycleEngine.apply, if_pos hterm]
  | false =>
  have hlive : ¬ isTerminal order.state = true := by simp [hterm]
  cases hstale : engine.isStale view with
  | true =>
    refine .inr (.inl ⟨rfl, rfl, ?_⟩)
    rw [LifecycleEngine.apply, if_neg hlive, if_pos hstale]
  | false =>
  have hcurrent : ¬ engine.isStale view = true := by simp [hstale]
  cases hvalid : isValidTransition order.state (canonicalObserved order.state view) with
  | false =>
    refine .inr (.inr (.inl ⟨rfl, rfl, rfl, ?_⟩))
    rw [LifecycleEngine.apply, if_neg hlive, if_neg hcurrent]
    exact if_pos hvalid
  | true =>
    have hlegal : ¬ isValidTransition order.state (canonicalObserved order.state view) = false := by
      simp [hvalid]
    refine .inr (.inr (.inr ⟨rfl, rfl, rfl, ?_⟩))
    rw [LifecycleEngine.apply, if_neg hlive, if_neg hcurrent]
    simp only [if_neg hlegal]
    -- a view with nothing new writes what the order already has
    by_cases hsame : ¬ order.state ≠ canonicalObserved order.state view
        ∧ fillAdvances order view = false
    · have habsorb := absorb_eq_self (not_not.mp hsame.1) hsame.2
      rw [if_pos hsame]
      exact ⟨by rw [habsorb], .inr ⟨rfl, habsorb⟩⟩
    · rw [if_neg hsame]
      exact ⟨rfl, .inl rfl⟩

/-- **Terminal states absorb.** -/
theorem apply_terminal (engine : LifecycleEngine) {order : Order} (view : BrokerView)
    (h : isTerminal order.state = true) :
    engine.apply order view = (.droppedTerminal, order, engine) := by
  rw [LifecycleEngine.apply, if_pos h]

/-! ## Refused or absorbed -/

/-- The view is dropped or refused. -/
def Refused (engine : LifecycleEngine) (order : Order) (view : BrokerView) : Prop :=
  isTerminal order.state = true ∨ engine.isStale view = true
    ∨ isValidTransition order.state (canonicalObserved order.state view) = false

instance (engine : LifecycleEngine) (order : Order) (view : BrokerView) :
    Decidable (Refused engine order view) := by
  unfold Refused
  infer_instance

section

variable {engine : LifecycleEngine} {order : Order} {view : BrokerView}

theorem not_refused_iff :
    ¬ Refused engine order view ↔ isTerminal order.state = false ∧ engine.isStale view = false
      ∧ isValidTransition order.state (canonicalObserved order.state view) = true := by
  simp only [Refused, not_or, Bool.not_eq_true, Bool.not_eq_false]

theorem apply_refused (h : Refused engine order view) :
    (engine.apply order view).2 = (order, engine) := by
  rcases apply_cases engine order view with
    ⟨-, happly⟩ | ⟨-, -, happly⟩ | ⟨-, -, -, happly⟩ | ⟨hlive, hfresh, hlegal, -⟩
  · rw [happly]
  · rw [happly]
  · rw [happly]
  · exact absurd h (not_refused_iff.mpr ⟨hlive, hfresh, hlegal⟩)

theorem apply_absorbed (h : ¬ Refused engine order view) :
    (engine.apply order view).2
      = (absorb order view (canonicalObserved order.state view), engine.record view) := by
  rcases apply_cases engine order view with
    ⟨hterminal, -⟩ | ⟨-, hstale, -⟩ | ⟨-, -, hillegal, -⟩ | ⟨-, -, -, happly, -⟩
  · exact absurd (.inl hterminal) h
  · exact absurd (.inr (.inl hstale)) h
  · exact absurd (.inr (.inr hillegal)) h
  · exact happly

end

theorem apply_intent (engine : LifecycleEngine) (order : Order) (view : BrokerView) :
    (engine.apply order view).2.1.intent = order.intent := by
  by_cases hrefused : Refused engine order view
  · rw [apply_refused hrefused]
  · rw [apply_absorbed hrefused]
    rfl

/-- An `apply` moves the key of its own view only. -/
theorem apply_lastKey_ne (engine : LifecycleEngine) (order : Order) {view : BrokerView}
    {clientRef : Bytes} (h : clientRef ≠ view.clientRef) :
    (engine.apply order view).2.2.lastKey clientRef = engine.lastKey clientRef := by
  by_cases hrefused : Refused engine order view
  · rw [apply_refused hrefused]
  · rw [apply_absorbed hrefused]
    exact Function.update_of_ne h _ _

end BrokerExec.Lifecycle
