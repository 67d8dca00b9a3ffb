import BrokerExec.BrokerReason

/-!
# Fill normalisation (`fillnorm/fill_normalizer.cpp`)

The canonical state of an order from its status and its quantities, the quantities first, and
the quantity an exit may be sized by.

* **`filled_normalizeFill_iff`** — under a neutral status an order is Filled exactly when it has
  a fill and nothing is outstanding;
* **`exitQtyFor_reconciled`** — an authoritative snapshot gives its fill.
-/

namespace BrokerExec.FillNorm

open BrokerExec.BrokerReason (classifyStatus contains toLower)
open BrokerExec.Domain (OrderState scrub)

structure FillSnapshot where
  canonicalState : OrderState
  filledQty : Int
  pendingQty : Int
  authoritative : Bool
  exitQtyTrustworthy : Bool
  detail : Bytes

def clampNonNegative (q : Int) : Int := if 0 < q then q else 0

def makeDetail (state : OrderState) (filled pending : Int) : Bytes :=
  scrub (ascii "fill normalized to '" ++ state.toString ++ ascii "' (filled=" ++ decimal filled
    ++ ascii ", pending=" ++ decimal pending ++ ascii ")")

/-- The state, from clamped quantities: a rejected or cancelled status first, then the fill. -/
def canonicalState (rawStatus : Bytes) (filled pending : Int) : OrderState :=
  if contains (toLower rawStatus) (ascii "reject") then .rejected
  else if contains (toLower rawStatus) (ascii "cancel") then .cancelled
  else if 0 < filled ∧ 0 < pending then .partiallyFilled
  else if 0 < filled ∧ pending = 0 then .filled
  else if filled = 0 ∧ 0 < pending then .acknowledged
  else
    -- no quantity at all: a listed working status, or a fate to reconcile
    let c := classifyStatus rawStatus
    if c.reason = .indeterminate ∧ c.shouldAlert = false then .acknowledged else .unknown

def normalizeFill (rawStatus : Bytes) (filledQty totalQty : Int) (fromReconcile : Bool) :
    FillSnapshot :=
  let filled := clampNonNegative filledQty
  let total := clampNonNegative totalQty
  let pending := if filled < total then total - filled else 0
  let state := canonicalState rawStatus filled pending
  ⟨state, filled, pending, fromReconcile, fromReconcile && decide (0 < filled),
    makeDetail state filled pending⟩

def exitQtyFor (snap : FillSnapshot) : Int := if snap.exitQtyTrustworthy then snap.filledQty else 0

/-! ## Neutral statuses -/

/-- The two statuses the adapters hand over in place of a broker's own. -/
def neutralStatus (complete : Bool) : Bytes := if complete then ascii "complete" else ascii "open"

theorem neutralStatus_plain (complete : Bool) :
    contains (toLower (neutralStatus complete)) (ascii "reject") = false
      ∧ contains (toLower (neutralStatus complete)) (ascii "cancel") = false := by
  cases complete <;> decide

/-- With no quantity at all, an open order is working and a complete one is not known. -/
theorem classifyStatus_neutral (complete : Bool) :
    ((classifyStatus (neutralStatus complete)).reason = .indeterminate
      ∧ (classifyStatus (neutralStatus complete)).shouldAlert = false) ↔ complete = false := by
  cases complete <;> decide

/-- **The quantities decide**: the state under a neutral status. -/
theorem canonicalState_neutral (complete : Bool) {filled total : Int} (hfilled : 0 ≤ filled) :
    (normalizeFill (neutralStatus complete) filled total true).canonicalState =
      if 0 < filled then (if filled < total then .partiallyFilled else .filled)
      else if 0 < total ∨ complete = false then .acknowledged else .unknown := by
  obtain ⟨hreject, hcancel⟩ := neutralStatus_plain complete
  simp only [normalizeFill, canonicalState, hreject, hcancel, classifyStatus_neutral,
    Bool.false_eq_true, if_false, clampNonNegative]
  by_cases hpositive : 0 < filled
  · by_cases hpartial : filled < total
    · have htotal : 0 < total := by omega
      simp [hpositive, hpartial, htotal]
    · by_cases htotal : 0 < total
      · simp [hpositive, hpartial, htotal]
      · have hnot : ¬ filled < 0 := by omega
        simp [hpositive, hpartial, htotal, hnot]
  · obtain rfl : filled = 0 := by omega
    by_cases htotal : 0 < total <;> simp [htotal]

/-- **Filled means a fill with nothing outstanding.** -/
theorem filled_normalizeFill_iff (complete : Bool) {filled total : Int} (hfilled : 0 ≤ filled) :
    (normalizeFill (neutralStatus complete) filled total true).canonicalState = .filled
      ↔ 0 < filled ∧ total ≤ filled := by
  rw [canonicalState_neutral complete hfilled]
  split_ifs <;> simp <;> omega

/-- **An authoritative snapshot sizes the exit by its fill.** -/
theorem exitQtyFor_reconciled (rawStatus : Bytes) {filled : Int} (hfilled : 0 ≤ filled)
    (total : Int) : exitQtyFor (normalizeFill rawStatus filled total true) = filled := by
  by_cases hpositive : 0 < filled
  · simp [exitQtyFor, normalizeFill, clampNonNegative, hpositive]
  · have hzero : filled = 0 := by omega
    simp [exitQtyFor, normalizeFill, clampNonNegative, hzero]

end BrokerExec.FillNorm
