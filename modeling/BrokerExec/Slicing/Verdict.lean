import BrokerExec.Risk.ValidationGate
import BrokerExec.Slicing.FreezeSlicer

/-!
# The gate's slicing verdict (`risk/validation_gate.cpp`, `slicing/freeze_slicer.cpp`)

The gate asks for a positive freeze quantity, the slicer for one that holds a lot.

* **`executable_iff`** — an accepted order can be sliced as the gate says exactly when the freeze
  quantity is at least one lot; its slices then pass the gate whole.
-/

namespace BrokerExec.Slicing

open BrokerExec.Domain (Instrument OrderIntent Quantity)
open BrokerExec.Risk (GateCheck GateContext GateOutcome fails_common validate validate_ok_iff)
open BrokerExec.Idempotency (kChildSep)

variable {ctx : GateContext}

/-- The context with another order in it. -/
def withIntent (ctx : GateContext) (intent : OrderIntent) : GateContext :=
  { ctx with intent := intent }

/-- What the gate's verdict promises of the slicer. -/
def Executable (ctx : GateContext) : GateOutcome → Prop
  | .allow => slice ctx.intent ctx.instrument = .ok [ctx.intent]
  | .allowWithSlicing => ∃ children, slice ctx.intent ctx.instrument = .ok children
      ∧ ∀ c ∈ children, validate (withIntent ctx c) = .ok .allow

/-! ## What the gate has checked -/

theorem lotFailure_eq_none (h : Risk.lotFailure ctx = none) :
    0 < ctx.intent.quantity.toInt ∧ 0 < ctx.instrument.lotSize.toInt
      ∧ ctx.instrument.lotSize.toInt ∣ ctx.intent.quantity.toInt := by
  unfold Risk.lotFailure at h
  dsimp only at h
  split_ifs at h with hquantity hlot haligned
  rw [Int64.le_iff_toInt_le, Int64.toInt_zero] at hquantity hlot
  rw [misaligned_iff (by omega), not_not] at haligned
  exact ⟨by omega, by omega, haligned⟩

theorem lotFailure_of_aligned (hquantity : 0 < ctx.intent.quantity.toInt)
    (hlot : 0 < ctx.instrument.lotSize.toInt)
    (haligned : ctx.instrument.lotSize.toInt ∣ ctx.intent.quantity.toInt) :
    Risk.lotFailure ctx = none := by
  unfold Risk.lotFailure
  dsimp only
  rw [if_neg, if_neg, if_neg]
  · rw [misaligned_iff hquantity, not_not]
    exact haligned
  · rw [Int64.le_iff_toInt_le, Int64.toInt_zero]
    omega
  · rw [Int64.le_iff_toInt_le, Int64.toInt_zero]
    omega

theorem freezeFailure_eq_none (h : Risk.freezeFailure ctx = none) :
    0 < ctx.instrument.freezeQty.toInt
      ∧ (ctx.instrument.freezeQty.toInt < ctx.intent.quantity.toInt → ctx.sliceMode = true) := by
  unfold Risk.freezeFailure at h
  dsimp only at h
  split_ifs at h with hfreeze hwhole
  rw [Int64.le_iff_toInt_le, Int64.toInt_zero] at hfreeze
  refine ⟨by omega, fun hover => ?_⟩
  by_contra hmode
  exact hwhole ⟨Int64.lt_iff_toInt_lt.mpr hover, by simpa using hmode⟩

theorem freezeFailure_of_within (hfreeze : 0 < ctx.instrument.freezeQty.toInt)
    (hwithin : ctx.intent.quantity.toInt ≤ ctx.instrument.freezeQty.toInt) :
    Risk.freezeFailure ctx = none := by
  unfold Risk.freezeFailure
  dsimp only
  rw [if_neg, if_neg]
  · rintro ⟨hover, -⟩
    rw [gt_iff_lt, Int64.lt_iff_toInt_lt] at hover
    omega
  · rw [Int64.le_iff_toInt_le, Int64.toInt_zero]
    omega

theorem needsSlicing_iff : ctx.needsSlicing = true
    ↔ ctx.instrument.freezeQty.toInt < ctx.intent.quantity.toInt ∧ ctx.sliceMode = true := by
  simp [GateContext.needsSlicing, Int64.lt_iff_toInt_lt]

/-- The gate's part of what the slicer asks. -/
structure Passed (ctx : GateContext) (outcome : GateOutcome) : Prop where
  checks : ∀ check, ctx.fails check = none
  quantity_pos : 0 < ctx.intent.quantity.toInt
  lot_pos : 0 < ctx.instrument.lotSize.toInt
  aligned : ctx.instrument.lotSize.toInt ∣ ctx.intent.quantity.toInt
  freeze_pos : 0 < ctx.instrument.freezeQty.toInt
  outcome_iff : outcome = .allowWithSlicing
    ↔ ctx.instrument.freezeQty.toInt < ctx.intent.quantity.toInt

theorem passed_of_validate {outcome : GateOutcome} (h : validate ctx = .ok outcome) :
    Passed ctx outcome := by
  obtain ⟨hchecks, houtcome⟩ := validate_ok_iff.mp h
  have hlotCheck : ctx.failure .lot = none := (fails_common rfl).symm.trans (hchecks .lot)
  have hfreezeCheck : ctx.failure .freeze = none := (fails_common rfl).symm.trans (hchecks .freeze)
  obtain ⟨hquantity, hlot, haligned⟩ := lotFailure_eq_none hlotCheck
  obtain ⟨hfreeze, hmode⟩ := freezeFailure_eq_none hfreezeCheck
  refine ⟨hchecks, hquantity, hlot, haligned, hfreeze, ?_⟩
  rw [houtcome]
  constructor
  · intro hslicing
    by_contra hwithin
    rw [if_neg (by rw [needsSlicing_iff]; exact fun hneeds => hwithin hneeds.1)] at hslicing
    cases hslicing
  · intro hover
    rw [if_pos (needsSlicing_iff.mpr ⟨hover, hmode hover⟩)]

/-- A slice in the place of its parent passes whatever its parent passed. -/
theorem validate_slice {outcome : GateOutcome} (h : Passed ctx outcome) (quantity : Quantity)
    (clientRef : Bytes) (hquantity : 0 < quantity.toInt)
    (haligned : ctx.instrument.lotSize.toInt ∣ quantity.toInt)
    (hwithin : quantity.toInt ≤ ctx.instrument.freezeQty.toInt) :
    validate (withIntent ctx { ctx.intent with quantity := quantity, clientRef := clientRef })
      = .ok .allow := by
  generalize hslice : withIntent ctx { ctx.intent with
    quantity := quantity, clientRef := clientRef } = slice
  have hfree : slice.needsSlicing = false := by
    rw [Bool.eq_false_iff, ne_eq, needsSlicing_iff]
    rintro ⟨hover, -⟩
    rw [← hslice] at hover
    exact absurd hover (not_lt.mpr hwithin)
  rw [validate_ok_iff, hfree]
  refine ⟨fun check => ?_, rfl⟩
  have hparent := h.checks check
  have hreducing : slice.isRiskReducing = ctx.isRiskReducing := by rw [← hslice]; rfl
  unfold GateContext.fails at hparent ⊢
  rw [hreducing]
  by_cases hskipped : check.isEntryOnly = true ∧ ctx.isRiskReducing = true
  · exact if_pos hskipped
  · rw [if_neg hskipped] at hparent ⊢
    rw [← hslice]
    cases check with
    | lot => exact lotFailure_of_aligned hquantity h.lot_pos haligned
    | freeze => exact freezeFailure_of_within h.freeze_pos hwithin
    | duplicate =>
      -- only the text of this refusal names the order
      have hfirst : ctx.isDuplicate ≠ some true := by
        intro hseen
        rw [GateContext.failure, if_pos hseen] at hparent
        cases hparent
      exact if_neg hfirst
    | killSwitch | unknownPause | exchange | product | orderShape | tick | timeWindow | funds
      | risk | hedge => exact hparent

/-- **What the gate accepts can be sliced exactly when the freeze quantity holds a lot.** -/
theorem executable_iff {outcome : GateOutcome} (hparent : kChildSep ∉ ctx.intent.clientRef)
    (h : validate ctx = .ok outcome) :
    Executable ctx outcome ↔ ctx.instrument.lotSize ≤ ctx.instrument.freezeQty := by
  have hpassed := passed_of_validate h
  have hsliceable (hlot : ctx.instrument.lotSize.toInt ≤ ctx.instrument.freezeQty.toInt) :
      Sliceable ctx.intent ctx.instrument :=
    ⟨hparent, hpassed.lot_pos, hpassed.quantity_pos, hpassed.aligned, hlot⟩
  rw [Int64.le_iff_toInt_le]
  cases outcome with
  | allow =>
    have hwithin : ctx.intent.quantity.toInt ≤ ctx.instrument.freezeQty.toInt := by
      by_contra hover
      have hslicing := hpassed.outcome_iff.mpr (by omega)
      cases hslicing
    have hlot : ctx.instrument.lotSize.toInt ≤ ctx.instrument.freezeQty.toInt :=
      (Int.le_of_dvd hpassed.quantity_pos hpassed.aligned).trans hwithin
    refine iff_of_true ?_ hlot
    rcases slice_cases ctx.intent ctx.instrument with ⟨hrefused, -⟩ | ⟨-, -, hslice⟩
      | ⟨-, hover, -⟩
    · exact absurd (hsliceable hlot) (mt (not_refused_iff.mpr ·) (not_not_intro hrefused))
    · exact hslice
    · omega
  | allowWithSlicing =>
    have hover := hpassed.outcome_iff.mp rfl
    constructor
    · rintro ⟨children, hslice, -⟩
      by_contra hbelow
      obtain ⟨e, herror⟩ := (slice_conserves ctx.intent ctx.instrument).1.mpr
        (.inr (.inr (.inr (.inr (.inr (by omega))))))
      rw [herror] at hslice
      cases hslice
    · intro hlot
      have hslices := slices_cut (hsliceable hlot)
      rcases slice_cases ctx.intent ctx.instrument with ⟨hrefused, -⟩ | ⟨-, hwithin, -⟩
        | ⟨-, -, hslice⟩
      · exact absurd (hsliceable hlot) (mt (not_refused_iff.mpr ·) (not_not_intro hrefused))
      · omega
      · refine ⟨_, hslice, fun c hc => ?_⟩
        obtain ⟨hquantity, haligned, hwithin⟩ := hslices.sized c hc
        rw [hslices.copies c hc]
        exact validate_slice hpassed _ _ hquantity haligned hwithin

/-- A protective exit, with nothing else in its way. -/
def sampleContext (freeze : Quantity) : GateContext where
  intent := sampleParent
  instrument := sampleInstrument freeze
  isRiskReducing := true
  killEntryBlock := false
  unknownPauseActive := false
  isDuplicate := none
  calendar := none
  fundsCheck := none
  riskCheck := none
  hedgeCheck := none
  allowedExchanges := []
  allowedProducts := []
  sliceMode := true

theorem executable_iff_remainder :
    validate (sampleContext 120) = .ok .allowWithSlicing
      ∧ Executable (sampleContext 120) .allowWithSlicing := by
  have hvalidate : validate (sampleContext 120) = .ok .allowWithSlicing := by decide
  exact ⟨hvalidate, (executable_iff (by decide) hvalidate).mpr (by decide)⟩

/-- A freeze quantity below one lot: the gate lets the exit through, the slicer refuses it. -/
theorem stranded_exit :
    kChildSep ∉ (sampleContext 25).intent.clientRef
      ∧ validate (sampleContext 25) = .ok .allowWithSlicing
      ∧ ¬ Executable (sampleContext 25) .allowWithSlicing := by
  have hrefused : slice (sampleContext 25).intent (sampleContext 25).instrument
      = .error (validationError (ascii "freeze slicer: freeze quantity is below one lot")) := by
    decide
  refine ⟨by decide, by decide, ?_⟩
  rintro ⟨children, hslice, -⟩
  rw [hrefused] at hslice
  cases hslice

end BrokerExec.Slicing
