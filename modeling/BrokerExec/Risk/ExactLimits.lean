import BrokerExec.Lib.FixedWidth
import BrokerExec.Risk.RiskEngine

/-!
# The risk limits over the integers (`risk/risk_engine.cpp`)

The engine compares by subtraction and negation in 64 and 32 bits. Behind its guards each result
is exact, so that it decides what the limits say over the integers.

* **`checkAll_exact`** — accepted exactly within every armed limit, and nothing wraps.
-/

namespace BrokerExec.Risk

open BrokerExec.Domain (OrderIntent)
open BrokerExec.Errors (Error)

/-! ## Comparisons -/

section

variable {a b ceiling limit : Int64}

/-- Behind its guards the difference is exact. -/
theorem toInt_headroom64 (hb : 0 ≤ b.toInt) (hceiling : 0 < ceiling.toInt) :
    (ceiling - b).toInt = ceiling.toInt - b.toInt := by
  have hmax := ceiling.toInt_lt
  have hbmax := b.toInt_lt
  apply toInt_sub_of_fits
  unfold FitsInt64
  omega

theorem sumOver64_iff (hb : 0 ≤ b.toInt) (hceiling : 0 < ceiling.toInt) :
    sumOver64 a b ceiling = true ↔ ceiling.toInt < a.toInt + b.toInt := by
  unfold sumOver64
  rw [decide_eq_true_eq, Int64.lt_iff_toInt_lt, toInt_headroom64 hb hceiling]
  omega

/-- Every positive limit has a negative. -/
theorem toInt_floor (hlimit : 0 < limit.toInt) : (-limit).toInt = -limit.toInt := by
  have hmax := limit.toInt_lt
  apply toInt_neg_of_fits
  unfold FitsInt64
  omega

end

section

variable {a b ceiling : Int32}

theorem toInt_headroom32 (hb : 0 ≤ b.toInt) (hceiling : 0 < ceiling.toInt) :
    (ceiling - b).toInt = ceiling.toInt - b.toInt := by
  have hmax := ceiling.toInt_lt
  have hbmax := b.toInt_lt
  apply toInt32_sub_of_fits
  unfold FitsInt32
  omega

theorem sumOver32_iff (hb : 0 ≤ b.toInt) (hceiling : 0 < ceiling.toInt) :
    sumOver32 a b ceiling = true ↔ ceiling.toInt < a.toInt + b.toInt := by
  unfold sumOver32
  rw [decide_eq_true_eq, Int32.lt_iff_toInt_lt, toInt_headroom32 hb hceiling]
  omega

end

/-! ## One rule at a time -/

/-- A loss short of the limit. -/
def LossWithin (limit pnl : Int64) : Prop := 0 < limit.toInt → -limit.toInt < pnl.toInt

/-- Lots that are known and do not exceed the cap together. -/
def LotsWithin (cap lots orderLots : Int32) : Prop :=
  0 < cap.toInt → 0 ≤ lots.toInt ∧ 0 ≤ orderLots.toInt ∧ lots.toInt + orderLots.toInt ≤ cap.toInt

section

variable {intent : OrderIntent} {limits : RiskLimits} {state : RiskState}

theorem loss_breached_iff {limit pnl : Int64} :
    (limit > 0 ∧ pnl ≤ -limit) ↔ ¬ LossWithin limit pnl := by
  unfold LossWithin
  rw [gt_iff_lt, Int64.lt_iff_toInt_lt, Int64.toInt_zero]
  by_cases harmed : 0 < limit.toInt
  · -- armed: the negated limit is exact
    rw [Int64.le_iff_toInt_le, toInt_floor harmed]
    omega
  · exact iff_of_false (fun h => harmed h.1) fun h => h fun harmed' => absurd harmed' harmed

theorem checkDailyLoss_ok_iff : checkDailyLoss limits state = .ok ()
    ↔ LossWithin limits.dailyLossLimitPaise state.accountPnlPaise := by
  unfold checkDailyLoss
  split_ifs with h <;> rw [loss_breached_iff] at h
  · exact iff_of_false (by intro h; cases h) h
  · exact iff_of_true rfl (not_not.mp h)

theorem checkOpenPositions_ok_iff : checkOpenPositions limits state = .ok ()
    ↔ (0 < limits.maxOpenPositions.toInt → state.isEntry = true →
        state.openPositions.toInt < limits.maxOpenPositions.toInt) := by
  unfold checkOpenPositions
  split_ifs with h <;>
    rw [gt_iff_lt, ge_iff_le, Int32.lt_iff_toInt_lt, Int32.le_iff_toInt_le, Int32.toInt_zero] at h
  · obtain ⟨harmed, hentry, hreached⟩ := h
    refine iff_of_false (by intro h; cases h) fun hwithin => ?_
    have := hwithin harmed hentry
    omega
  · refine iff_of_true rfl fun harmed hentry => ?_
    by_contra hreached
    exact h ⟨harmed, hentry, by omega⟩

theorem checkAccountMargin_ok_iff : checkAccountMargin limits state = .ok ()
    ↔ (0 < limits.maxAccountMarginPaise.toInt → state.orderValueKnown = true
        ∧ 0 ≤ state.usedMarginPaise.toInt ∧ 0 ≤ state.orderValuePaise.toInt
        ∧ state.usedMarginPaise.toInt + state.orderValuePaise.toInt
          ≤ limits.maxAccountMarginPaise.toInt) := by
  unfold checkAccountMargin
  split_ifs with harmed hunknown hnegative hover <;>
    rw [gt_iff_lt, Int64.lt_iff_toInt_lt, Int64.toInt_zero] at harmed
  · refine iff_of_false (by intro h; cases h) fun h => ?_
    simp [(h harmed).1] at hunknown
  · rw [Int64.lt_iff_toInt_lt, Int64.lt_iff_toInt_lt, Int64.toInt_zero] at hnegative
    refine iff_of_false (by intro h; cases h) fun h => ?_
    obtain ⟨-, hused, hvalue, -⟩ := h harmed
    omega
  · -- the order value is not negative here, which makes the headroom exact
    rw [Int64.lt_iff_toInt_lt, Int64.lt_iff_toInt_lt, Int64.toInt_zero] at hnegative
    rw [sumOver64_iff (by omega) harmed] at hover
    refine iff_of_false (by intro h; cases h) fun h => ?_
    obtain ⟨-, -, -, hsum⟩ := h harmed
    omega
  · rw [Int64.lt_iff_toInt_lt, Int64.lt_iff_toInt_lt, Int64.toInt_zero] at hnegative
    rw [sumOver64_iff (by omega) harmed] at hover
    refine iff_of_true rfl fun _ => ⟨by simpa using hunknown, ?_, ?_, ?_⟩ <;> omega
  · exact iff_of_true rfl fun h => absurd h harmed

/-- The rule on lots that a strategy and an instrument share. -/
theorem lots_ok_iff {cap lots orderLots : Int32} {negative exceeded : Error} :
    (if cap > 0 then
        if lots < 0 ∨ orderLots < 0 then .error negative
        else if sumOver32 lots orderLots cap then .error exceeded
        else .ok ()
      else .ok () : Result Unit) = .ok () ↔ LotsWithin cap lots orderLots := by
  unfold LotsWithin
  split_ifs with harmed hnegative hover <;>
    rw [gt_iff_lt, Int32.lt_iff_toInt_lt, Int32.toInt_zero] at harmed
  · rw [Int32.lt_iff_toInt_lt, Int32.lt_iff_toInt_lt, Int32.toInt_zero] at hnegative
    refine iff_of_false (by intro h; cases h) fun h => ?_
    have := h harmed
    omega
  · rw [Int32.lt_iff_toInt_lt, Int32.lt_iff_toInt_lt, Int32.toInt_zero] at hnegative
    rw [sumOver32_iff (by omega) harmed] at hover
    refine iff_of_false (by intro h; cases h) fun h => ?_
    have := h harmed
    omega
  · rw [Int32.lt_iff_toInt_lt, Int32.lt_iff_toInt_lt, Int32.toInt_zero] at hnegative
    rw [sumOver32_iff (by omega) harmed] at hover
    refine iff_of_true rfl fun _ => ?_
    omega
  · exact iff_of_true rfl fun h => absurd h harmed

theorem checkStrategy_ok_iff : checkStrategy limits state = .ok ()
    ↔ state.strategyEnabled = true
      ∧ LossWithin limits.strategyDailyLossLimitPaise state.strategyPnlPaise
      ∧ LotsWithin limits.maxLotsPerStrategy state.strategyLots state.orderLots := by
  unfold checkStrategy
  by_cases hstopped : (!state.strategyEnabled) = true
  · rw [if_pos hstopped]
    refine iff_of_false (by intro h; cases h) fun h => ?_
    simp [h.1] at hstopped
  have henabled : state.strategyEnabled = true := by simpa using hstopped
  rw [if_neg hstopped]
  by_cases hloss : limits.strategyDailyLossLimitPaise > 0
      ∧ state.strategyPnlPaise ≤ -limits.strategyDailyLossLimitPaise
  · rw [if_pos hloss]
    exact iff_of_false (by intro h; cases h) fun h => loss_breached_iff.mp hloss h.2.1
  · rw [if_neg hloss, lots_ok_iff]
    rw [loss_breached_iff, not_not] at hloss
    exact ⟨fun hlots => ⟨henabled, hloss, hlots⟩, fun h => h.2.2⟩

theorem checkInstrumentLots_ok_iff : checkInstrumentLots limits state = .ok ()
    ↔ LotsWithin limits.maxLotsPerInstrument state.instrumentLots state.orderLots :=
  lots_ok_iff

theorem checkTradable_ok_iff : checkTradable state = .ok () ↔ state.dataTradable = true := by
  unfold checkTradable
  split_ifs with h
  · exact iff_of_false (by intro h; cases h) (by simpa using h)
  · exact iff_of_true rfl (by simpa using h)

theorem checkMarketOrder_ok_iff : checkMarketOrder intent limits = .ok ()
    ↔ (limits.blockMarketOrders = true → intent.orderType ≠ .market) := by
  unfold checkMarketOrder
  split_ifs with h
  · exact iff_of_false (by intro h; cases h) fun hnot => hnot h.1 h.2
  · exact iff_of_true rfl fun hblocked htype => h ⟨hblocked, htype⟩

theorem checkOrderValue_ok_iff : checkOrderValue limits state = .ok ()
    ↔ (0 < limits.maxOrderValuePaise.toInt → state.orderValueKnown = true
        ∧ 0 ≤ state.orderValuePaise.toInt
        ∧ state.orderValuePaise.toInt ≤ limits.maxOrderValuePaise.toInt) := by
  unfold checkOrderValue
  split_ifs with harmed hunknown hnegative hover <;>
    rw [gt_iff_lt, Int64.lt_iff_toInt_lt, Int64.toInt_zero] at harmed
  · refine iff_of_false (by intro h; cases h) fun h => ?_
    simp [(h harmed).1] at hunknown
  · rw [Int64.lt_iff_toInt_lt, Int64.toInt_zero] at hnegative
    refine iff_of_false (by intro h; cases h) fun h => ?_
    have := (h harmed).2.1
    omega
  · rw [gt_iff_lt, Int64.lt_iff_toInt_lt] at hover
    refine iff_of_false (by intro h; cases h) fun h => ?_
    have := (h harmed).2.2
    omega
  · rw [Int64.lt_iff_toInt_lt, Int64.toInt_zero] at hnegative
    rw [gt_iff_lt, Int64.lt_iff_toInt_lt] at hover
    refine iff_of_true rfl fun _ => ⟨by simpa using hunknown, ?_, ?_⟩ <;> omega
  · exact iff_of_true rfl fun h => absurd h harmed

theorem checkSlippage_ok_iff : checkSlippage limits state = .ok ()
    ↔ (0 < limits.maxSlippageBps.toInt →
        state.slippageBps.toInt ≤ limits.maxSlippageBps.toInt) := by
  unfold checkSlippage
  split_ifs with h <;>
    rw [gt_iff_lt, gt_iff_lt, Int32.lt_iff_toInt_lt, Int32.lt_iff_toInt_lt, Int32.toInt_zero] at h
  · refine iff_of_false (by intro h; cases h) fun hwithin => ?_
    have := hwithin h.1
    omega
  · refine iff_of_true rfl fun harmed => ?_
    by_contra hover
    exact h ⟨harmed, by omega⟩

end

/-! ## All of them -/

/-- Every armed limit holds over the integers. -/
structure WithinLimits (intent : OrderIntent) (limits : RiskLimits) (state : RiskState) : Prop where
  dailyLoss : LossWithin limits.dailyLossLimitPaise state.accountPnlPaise
  openPositions : 0 < limits.maxOpenPositions.toInt → state.isEntry = true →
    state.openPositions.toInt < limits.maxOpenPositions.toInt
  accountMargin : 0 < limits.maxAccountMarginPaise.toInt → state.orderValueKnown = true
    ∧ 0 ≤ state.usedMarginPaise.toInt ∧ 0 ≤ state.orderValuePaise.toInt
    ∧ state.usedMarginPaise.toInt + state.orderValuePaise.toInt
      ≤ limits.maxAccountMarginPaise.toInt
  enabled : state.strategyEnabled = true
  strategyLoss : LossWithin limits.strategyDailyLossLimitPaise state.strategyPnlPaise
  strategyLots : LotsWithin limits.maxLotsPerStrategy state.strategyLots state.orderLots
  instrumentLots : LotsWithin limits.maxLotsPerInstrument state.instrumentLots state.orderLots
  tradable : state.dataTradable = true
  marketOrders : limits.blockMarketOrders = true → intent.orderType ≠ .market
  orderValue : 0 < limits.maxOrderValuePaise.toInt → state.orderValueKnown = true
    ∧ 0 ≤ state.orderValuePaise.toInt
    ∧ state.orderValuePaise.toInt ≤ limits.maxOrderValuePaise.toInt
  slippage : 0 < limits.maxSlippageBps.toInt →
    state.slippageBps.toInt ≤ limits.maxSlippageBps.toInt

/-- What the engine negates and subtracts, where its guards let it: nothing wraps. -/
structure NothingWraps (limits : RiskLimits) (state : RiskState) : Prop where
  dailyLoss : 0 < limits.dailyLossLimitPaise.toInt →
    (-limits.dailyLossLimitPaise).toInt = -limits.dailyLossLimitPaise.toInt
  strategyLoss : 0 < limits.strategyDailyLossLimitPaise.toInt →
    (-limits.strategyDailyLossLimitPaise).toInt = -limits.strategyDailyLossLimitPaise.toInt
  accountMargin : 0 < limits.maxAccountMarginPaise.toInt → 0 ≤ state.orderValuePaise.toInt →
    (limits.maxAccountMarginPaise - state.orderValuePaise).toInt
      = limits.maxAccountMarginPaise.toInt - state.orderValuePaise.toInt
  strategyLots : 0 < limits.maxLotsPerStrategy.toInt → 0 ≤ state.orderLots.toInt →
    (limits.maxLotsPerStrategy - state.orderLots).toInt
      = limits.maxLotsPerStrategy.toInt - state.orderLots.toInt
  instrumentLots : 0 < limits.maxLotsPerInstrument.toInt → 0 ≤ state.orderLots.toInt →
    (limits.maxLotsPerInstrument - state.orderLots).toInt
      = limits.maxLotsPerInstrument.toInt - state.orderLots.toInt

section

variable {intent : OrderIntent} {limits : RiskLimits} {state : RiskState}

/-- **Accepted within every armed limit.** -/
theorem checkAll_within :
    checkAll intent limits state = .ok () ↔ WithinLimits intent limits state := by
  rw [checkAll_ok_iff, checkAccount_ok_iff, checkDailyLoss_ok_iff, checkOpenPositions_ok_iff,
    checkAccountMargin_ok_iff, checkStrategy_ok_iff, checkInstrument_ok_iff,
    checkInstrumentLots_ok_iff, checkTradable_ok_iff, checkOrder_ok_iff, checkMarketOrder_ok_iff,
    checkOrderValue_ok_iff, checkSlippage_ok_iff]
  constructor
  · rintro ⟨⟨hloss, hpositions, hmargin⟩, ⟨henabled, hstrategyLoss, hstrategyLots⟩,
      ⟨hlots, htradable⟩, hmarket, hvalue, hslippage⟩
    exact
      { dailyLoss := hloss
        openPositions := hpositions
        accountMargin := hmargin
        enabled := henabled
        strategyLoss := hstrategyLoss
        strategyLots := hstrategyLots
        instrumentLots := hlots
        tradable := htradable
        marketOrders := hmarket
        orderValue := hvalue
        slippage := hslippage }
  · intro h
    exact ⟨⟨h.dailyLoss, h.openPositions, h.accountMargin⟩,
      ⟨h.enabled, h.strategyLoss, h.strategyLots⟩, ⟨h.instrumentLots, h.tradable⟩,
      h.marketOrders, h.orderValue, h.slippage⟩

theorem nothingWraps : NothingWraps limits state where
  dailyLoss := toInt_floor
  strategyLoss := toInt_floor
  accountMargin hceiling hvalue := toInt_headroom64 hvalue hceiling
  strategyLots hceiling hlots := toInt_headroom32 hlots hceiling
  instrumentLots hceiling hlots := toInt_headroom32 hlots hceiling

end

/-- **Exact arithmetic.** -/
theorem checkAll_exact (intent : OrderIntent) (limits : RiskLimits) (state : RiskState) :
    (checkAll intent limits state = .ok () ↔ WithinLimits intent limits state)
      ∧ NothingWraps limits state :=
  ⟨checkAll_within, nothingWraps⟩

end BrokerExec.Risk
