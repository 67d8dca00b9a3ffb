import BrokerExec.Composition.EngineAssembly
import BrokerExec.Risk.ExactLimits

/-!
# Armed limits and enforced limits (`composition/engine_assembly.cpp`, `risk/risk_engine.cpp`)

`anyRiskLimitArmed` asks which fields differ from their "off" sentinel; the engine applies those
that are positive. A negative field is armed for the one and off for the other.

* **`canReject_iff`** — the limits under which the engine can refuse an order.
* **`armed_enforced_iff`** — where the two readings agree.
-/

namespace BrokerExec.Composition

open BrokerExec.Domain (OrderIntent)
open BrokerExec.Risk (LossWithin LotsWithin RiskLimits RiskState WithinLimits checkAll
  checkAll_within)

/-- Some order of an enabled strategy on a tradable price is refused. -/
def CanReject (limits : RiskLimits) : Prop :=
  ∃ (intent : OrderIntent) (state : RiskState), state.strategyEnabled = true
    ∧ state.dataTradable = true ∧ ∃ e, checkAll intent limits state = .error e

/-- Some rule of the engine can fire. No slippage exceeds the largest `int`. -/
def Enforces (limits : RiskLimits) : Prop :=
  0 < limits.dailyLossLimitPaise ∨ 0 < limits.maxOpenPositions ∨ 0 < limits.maxAccountMarginPaise
    ∨ 0 < limits.maxOrderValuePaise ∨ limits.blockMarketOrders = true
    ∨ (0 < limits.maxSlippageBps ∧ limits.maxSlippageBps < Int32.maxValue)
    ∨ 0 < limits.maxLotsPerStrategy ∨ 0 < limits.maxLotsPerInstrument
    ∨ 0 < limits.strategyDailyLossLimitPaise

instance (limits : RiskLimits) : Decidable (Enforces limits) := inferInstanceAs (Decidable (_ ∨ _))

/-! ## What the engine can refuse -/

section

variable {limits : RiskLimits} {intent : OrderIntent} {state : RiskState}

theorem canReject_of_not_within (intent : OrderIntent) (state : RiskState)
    (henabled : state.strategyEnabled = true) (htradable : state.dataTradable = true)
    (h : ¬ WithinLimits intent limits state) : CanReject limits := by
  refine ⟨intent, state, henabled, htradable, ?_⟩
  rw [← checkAll_within] at h
  cases hcheck : checkAll intent limits state with
  | error e => exact ⟨e, rfl⟩
  | ok u => exact absurd hcheck h

/-- A loss as large as its limit. -/
theorem not_lossWithin {limit : Int64} (hlimit : 0 < limit) : ¬ LossWithin limit (-limit) := by
  rw [Int64.lt_iff_toInt_lt, Int64.toInt_zero] at hlimit
  intro h
  have hshort := h hlimit
  rw [Risk.toInt_floor hlimit] at hshort
  exact lt_irrefl _ hshort

/-- Lots that are not known. -/
theorem not_lotsWithin {cap orderLots : Int32} (hcap : 0 < cap) :
    ¬ LotsWithin cap (-1) orderLots := by
  rw [Int32.lt_iff_toInt_lt, Int32.toInt_zero] at hcap
  intro h
  exact absurd (h hcap).1 (by decide)

/-- For each rule that can fire a state in which it does. -/
theorem canReject_of_enforces (h : Enforces limits) : CanReject limits := by
  -- in the order of the fields: a loss, a full book, unknown values, a market order, the worst
  -- slippage, unknown lots, and a loss again
  rcases h with h | h | h | h | h | ⟨h, hmax⟩ | h | h | h
  · exact canReject_of_not_within sampleIntent
      { RiskState.initial with accountPnlPaise := -limits.dailyLossLimitPaise } rfl rfl
      fun hwithin => not_lossWithin h hwithin.dailyLoss
  · exact canReject_of_not_within sampleIntent
      { RiskState.initial with openPositions := limits.maxOpenPositions } rfl rfl
      fun hwithin => lt_irrefl _ (hwithin.openPositions (Int32.lt_iff_toInt_lt.mp h) rfl)
  · exact canReject_of_not_within sampleIntent
      { RiskState.initial with orderValueKnown := false } rfl rfl
      fun hwithin => Bool.false_ne_true (hwithin.accountMargin (Int64.lt_iff_toInt_lt.mp h)).1
  · exact canReject_of_not_within sampleIntent
      { RiskState.initial with orderValueKnown := false } rfl rfl
      fun hwithin => Bool.false_ne_true (hwithin.orderValue (Int64.lt_iff_toInt_lt.mp h)).1
  · exact canReject_of_not_within { sampleIntent with orderType := .market } .initial
      rfl rfl fun hwithin => hwithin.marketOrders h rfl
  · refine canReject_of_not_within sampleIntent
      { RiskState.initial with slippageBps := Int32.maxValue } rfl rfl
      fun hwithin => ?_
    have hle := hwithin.slippage (Int32.lt_iff_toInt_lt.mp h)
    exact absurd (Int32.lt_iff_toInt_lt.mp hmax) (not_lt.mpr hle)
  · exact canReject_of_not_within sampleIntent
      { RiskState.initial with strategyLots := -1 } rfl rfl
      fun hwithin => not_lotsWithin h hwithin.strategyLots
  · exact canReject_of_not_within sampleIntent
      { RiskState.initial with instrumentLots := -1 } rfl rfl
      fun hwithin => not_lotsWithin h hwithin.instrumentLots
  · exact canReject_of_not_within sampleIntent
      { RiskState.initial with
        strategyPnlPaise := -limits.strategyDailyLossLimitPaise } rfl rfl
      fun hwithin => not_lossWithin h hwithin.strategyLoss

/-- Where no rule can fire, every order of an enabled strategy on a tradable price is within the
limits. -/
theorem within_of_not_enforces (h : ¬ Enforces limits) (henabled : state.strategyEnabled = true)
    (htradable : state.dataTradable = true) : WithinLimits intent limits state := by
  simp only [Enforces, not_or, not_and, Int64.lt_iff_toInt_lt, Int32.lt_iff_toInt_lt,
    Int64.toInt_zero, Int32.toInt_zero] at h
  obtain ⟨hloss, hpositions, hmargin, hvalue, hmarket, hslippage, hstrategyLots, hlots,
    hstrategyLoss⟩ := h
  exact
    { dailyLoss := fun harmed => absurd harmed hloss
      openPositions := fun harmed => absurd harmed hpositions
      accountMargin := fun harmed => absurd harmed hmargin
      enabled := henabled
      strategyLoss := fun harmed => absurd harmed hstrategyLoss
      strategyLots := fun harmed => absurd harmed hstrategyLots
      instrumentLots := fun harmed => absurd harmed hlots
      tradable := htradable
      marketOrders := fun hblocked => absurd hblocked hmarket
      orderValue := fun harmed => absurd harmed hvalue
      slippage := fun harmed =>
        (Int32.le_iff_toInt_le.mp state.slippageBps.le_maxValue).trans
          (not_lt.mp (hslippage harmed)) }

/-- **What the engine can refuse.** -/
theorem canReject_iff : CanReject limits ↔ Enforces limits := by
  refine ⟨?_, canReject_of_enforces⟩
  rintro ⟨intent, state, henabled, htradable, e, he⟩
  by_contra hnone
  rw [checkAll_within.mpr (within_of_not_enforces hnone henabled htradable)] at he
  cases he

/-! ## What counts as armed -/

theorem anyRiskLimitArmed_iff : anyRiskLimitArmed limits = true ↔ limits ≠ .off := by
  obtain ⟨loss, positions, margin, value, market, slippage, strategyLots, lots, strategyLoss⟩ :=
    limits
  rw [Ne, RiskLimits.off, RiskLimits.mk.injEq]
  simp only [anyRiskLimitArmed, Bool.or_eq_true, decide_eq_true_eq, ne_eq, not_and_or,
    Bool.not_eq_false, or_assoc]

theorem riskLimitsStage_ok_iff {engine : EngineAssembly} {ctx : PreflightInputs} :
    engine.riskLimitsStage ctx = .ok ()
      ↔ engine.options.declaresNoRiskLimits = true ∨ anyRiskLimitArmed ctx.riskLimits = true := by
  unfold EngineAssembly.riskLimitsStage
  cases engine.options.declaresNoRiskLimits <;> cases anyRiskLimitArmed ctx.riskLimits <;> simp

/-- Everything off can reject nothing. -/
theorem not_enforces_off : ¬ Enforces .off := by decide

theorem ne_off_of_enforces (h : Enforces limits) : limits ≠ .off := by
  rintro rfl
  exact not_enforces_off h

end

/-- **Armed is enforced**, and the stage admits no entry under limits that can reject nothing,
exactly where some rule can fire, or where nothing is set and the operator has not declared it. -/
theorem armed_enforced_iff (engine : EngineAssembly) (limits : RiskLimits) :
    ((anyRiskLimitArmed limits = true ↔ CanReject limits)
        ∧ ∀ ctx : PreflightInputs, ctx.riskLimits = limits →
          engine.riskLimitsStage ctx = .ok () → CanReject limits)
      ↔ Enforces limits ∨ (limits = .off ∧ engine.options.declaresNoRiskLimits = false) := by
  rw [anyRiskLimitArmed_iff, canReject_iff]
  constructor
  · rintro ⟨harmed, hstage⟩
    by_cases hoff : limits = .off
    · refine .inr ⟨hoff, Bool.eq_false_iff.mpr fun hdeclared => ?_⟩
      -- an operator who declared no limits passes the stage with everything off
      have henforced := hstage ⟨sampleInputs.instrument, sampleInputs.band, limits, .initial⟩ rfl
        (riskLimitsStage_ok_iff.mpr (.inl hdeclared))
      exact ne_off_of_enforces henforced hoff
    · exact .inl (harmed.mp hoff)
  · rintro (henforced | ⟨rfl, hdeclared⟩)
    · exact ⟨iff_of_true (ne_off_of_enforces henforced) henforced, fun _ _ _ => henforced⟩
    · refine ⟨iff_of_false (not_not.mpr rfl) not_enforces_off, fun ctx hctx hstage => ?_⟩
      rw [riskLimitsStage_ok_iff, hdeclared, hctx, anyRiskLimitArmed_iff] at hstage
      rcases hstage with h | h
      · cases h
      · exact absurd rfl h

/-- A daily loss limit entered as a negative amount, and nothing else. -/
def negativeLimits : RiskLimits := { RiskLimits.off with dailyLossLimitPaise := -1 }

/-- The calm assembly, without the declaration. -/
def undeclaredEngine : EngineAssembly :=
  ⟨calmDeps, { sampleOptions with declaresNoRiskLimits := false }, rfl⟩

/-- The limits count as armed, can reject nothing, and the whole entry chain passes under them. -/
theorem negative_limit_admitted :
    anyRiskLimitArmed negativeLimits = true ∧ ¬ CanReject negativeLimits
      ∧ (undeclaredEngine.preflightEntry sampleIntent
          { sampleInputs with riskLimits := negativeLimits }).ok = true := by
  rw [canReject_iff]
  exact ⟨by decide, by decide, rfl⟩

end BrokerExec.Composition
