import BrokerExec.Domain.Types

/-!
# The modify guard (`modifyguard/modify_guard.cpp`)

Whether a working order may be modified at all. A quantity modify sets the total at the broker,
so it must not meet a partial fill or shrink to what is filled.

* **`evaluateModify_allowed_iff`** — what exactly an allowed modify is.
-/

namespace BrokerExec.ModifyGuard

open BrokerExec.Domain (OrderIntent OrderState)

inductive ModifyVerdict where
  | allow
  | rejectQtyOnPartial
  | rejectShrinkBelowFilled
  | rejectRacedFill
  | rejectTerminal
  | rejectNotModifiable
  deriving DecidableEq

def ModifyVerdict.toString : ModifyVerdict → Bytes
  | .allow => ascii "allow"
  | .rejectQtyOnPartial => ascii "reject_qty_on_partial"
  | .rejectShrinkBelowFilled => ascii "reject_shrink_below_filled"
  | .rejectRacedFill => ascii "reject_raced_fill"
  | .rejectTerminal => ascii "reject_terminal"
  | .rejectNotModifiable => ascii "reject_not_modifiable"

structure OrderModifyState where
  state : OrderState
  filledQty : Int64
  totalQty : Int64
  deriving DecidableEq

structure ModifyRequest where
  changesQuantity : Bool
  changesPrice : Bool
  newTotalQty : Int64
  deriving DecidableEq

structure ModifyResult where
  verdict : ModifyVerdict
  allowed : Bool
  detail : Bytes
  deriving DecidableEq

/-- The fail-closed defaults. -/
def ModifyResult.initial : ModifyResult := ⟨.rejectNotModifiable, false, []⟩

def detailFor (verdict : ModifyVerdict) (state : OrderState) : Bytes :=
  verdict.toString ++ ascii " [state=" ++ state.toString ++ ascii "]"

def makeResult (verdict : ModifyVerdict) (state : OrderState) : ModifyResult :=
  ⟨verdict, verdict = .allow, detailFor verdict state⟩

def isTerminal : OrderState → Bool
  | .filled | .cancelled | .rejected => true
  | _ => false

def isNotModifiableBase : OrderState → Bool
  | .created | .validated | .pendingSend | .sent | .unknown | .manualInterventionRequired
  | .reconciled | .partiallyPlaced => true
  | _ => false

def makeModifyRequest (current amended : OrderIntent) : ModifyRequest :=
  { changesQuantity := current.quantity ≠ amended.quantity
    changesPrice := current.price ≠ amended.price || current.triggerPrice ≠ amended.triggerPrice
      || current.orderType ≠ amended.orderType
    newTotalQty := amended.quantity }

/-- The first objection, in the source's order. -/
def modifyVerdict (cur : OrderModifyState) (req : ModifyRequest) (observedFilledQty : Int64) :
    ModifyVerdict :=
  if isTerminal cur.state then .rejectTerminal
  else if isNotModifiableBase cur.state then .rejectNotModifiable
  else if cur.filledQty > observedFilledQty then .rejectRacedFill
  else if req.changesQuantity ∧ cur.state = .partiallyFilled then .rejectQtyOnPartial
  else if req.changesQuantity ∧ req.newTotalQty ≤ cur.filledQty then .rejectShrinkBelowFilled
  else .allow

def evaluateModify (cur : OrderModifyState) (req : ModifyRequest) (observedFilledQty : Int64) :
    ModifyResult :=
  makeResult (modifyVerdict cur req observedFilledQty) cur.state

/-- **What an allowed modify is**: of a confirmed working order, with no fill behind the caller's
back, and of its quantity only before the first fill and above it. -/
theorem evaluateModify_allowed_iff {cur : OrderModifyState} {req : ModifyRequest}
    {observedFilledQty : Int64} :
    (evaluateModify cur req observedFilledQty).allowed = true ↔
      (cur.state = .acknowledged ∨ cur.state = .partiallyFilled)
        ∧ ¬ cur.filledQty > observedFilledQty
        ∧ (req.changesQuantity = true →
            cur.state = .acknowledged ∧ ¬ req.newTotalQty ≤ cur.filledQty) := by
  unfold evaluateModify makeResult modifyVerdict
  rcases cur with ⟨state, filledQty, totalQty⟩
  by_cases hraced : filledQty > observedFilledQty
  · cases state <;> simp [isTerminal, isNotModifiableBase, hraced]
  · by_cases hshrink : req.newTotalQty ≤ filledQty
    · cases state <;> cases hqty : req.changesQuantity <;>
        simp [isTerminal, isNotModifiableBase, hraced, hshrink]
    · cases state <;> cases hqty : req.changesQuantity <;>
        simp [isTerminal, isNotModifiableBase, hraced, hshrink]

end BrokerExec.ModifyGuard
