import BrokerExec.Domain.Types
import BrokerExec.Lib.Except

/-!
# Risk limits (`risk/risk_engine.cpp`)

Every limit is off at zero. The checks of the account, the strategy, the instrument and the
order run in this order, and the first breached limit is the answer.

* **`checkAll_intent`** — the intent matters only through its order type.
* **`checkAll_entry`** — being an entry matters only to the limit on open positions.
-/

namespace BrokerExec.Risk

open BrokerExec.Domain (OrderIntent)
open BrokerExec.Errors (Error makeError)

structure RiskLimits where
  dailyLossLimitPaise : Int64
  maxOpenPositions : Int32
  maxAccountMarginPaise : Int64
  maxOrderValuePaise : Int64
  blockMarketOrders : Bool
  maxSlippageBps : Int32
  maxLotsPerStrategy : Int32
  maxLotsPerInstrument : Int32
  strategyDailyLossLimitPaise : Int64
  deriving DecidableEq

/-- Nothing armed. -/
def RiskLimits.off : RiskLimits := ⟨0, 0, 0, 0, false, 0, 0, 0, 0⟩

structure RiskState where
  accountPnlPaise : Int64
  openPositions : Int32
  usedMarginPaise : Int64
  orderValuePaise : Int64
  orderValueKnown : Bool
  orderLots : Int32
  slippageBps : Int32
  isEntry : Bool
  strategyLots : Int32
  strategyPnlPaise : Int64
  strategyEnabled : Bool
  instrumentLots : Int32
  dataTradable : Bool
  deriving DecidableEq

/-- The source's defaults: a flat account and a tradable price. -/
def RiskState.initial : RiskState := ⟨0, 0, 0, 0, true, 0, 0, true, 0, 0, true, 0, true⟩

/-- `rejected(level, rule)`. -/
def rejected (level rule : String) : Error :=
  { makeError .riskRejected (ascii "risk[" ++ ascii level ++ ascii "]: " ++ ascii rule) with
    action := .blockStrategy }

/-- `sum_over`, for 64-bit amounts: `a + b > ceiling` without forming the sum. -/
def sumOver64 (a b ceiling : Int64) : Bool := ceiling - b < a

/-- `sum_over`, for `int` counts. -/
def sumOver32 (a b ceiling : Int32) : Bool := ceiling - b < a

/-! ## The four levels -/

def checkDailyLoss (limits : RiskLimits) (state : RiskState) : Result Unit :=
  if limits.dailyLossLimitPaise > 0 ∧ state.accountPnlPaise ≤ -limits.dailyLossLimitPaise then
    .error (rejected "account" "daily loss limit breached")
  else .ok ()

def checkOpenPositions (limits : RiskLimits) (state : RiskState) : Result Unit :=
  if limits.maxOpenPositions > 0 ∧ state.isEntry ∧ state.openPositions ≥ limits.maxOpenPositions
  then .error (rejected "account" "max open positions reached")
  else .ok ()

def checkAccountMargin (limits : RiskLimits) (state : RiskState) : Result Unit :=
  if limits.maxAccountMarginPaise > 0 then
    if !state.orderValueKnown then
      .error (rejected "account" "cannot verify margin (order value unknown)")
    else if state.usedMarginPaise < 0 ∨ state.orderValuePaise < 0 then
      .error (rejected "account" "cannot verify margin (negative margin/order value)")
    else if sumOver64 state.usedMarginPaise state.orderValuePaise limits.maxAccountMarginPaise then
      .error (rejected "account" "max account margin exceeded")
    else .ok ()
  else .ok ()

def checkAccount (limits : RiskLimits) (state : RiskState) : Result Unit := do
  checkDailyLoss limits state
  checkOpenPositions limits state
  checkAccountMargin limits state

def checkStrategy (limits : RiskLimits) (state : RiskState) : Result Unit :=
  if !state.strategyEnabled then .error (rejected "strategy" "strategy is stopped")
  else if limits.strategyDailyLossLimitPaise > 0
      ∧ state.strategyPnlPaise ≤ -limits.strategyDailyLossLimitPaise then
    .error (rejected "strategy" "strategy daily loss limit breached")
  else if limits.maxLotsPerStrategy > 0 then
    if state.strategyLots < 0 ∨ state.orderLots < 0 then
      .error (rejected "strategy" "cannot verify lots (negative lot count)")
    else if sumOver32 state.strategyLots state.orderLots limits.maxLotsPerStrategy then
      .error (rejected "strategy" "max lots per strategy exceeded")
    else .ok ()
  else .ok ()

def checkInstrumentLots (limits : RiskLimits) (state : RiskState) : Result Unit :=
  if limits.maxLotsPerInstrument > 0 then
    if state.instrumentLots < 0 ∨ state.orderLots < 0 then
      .error (rejected "instrument" "cannot verify lots (negative lot count)")
    else if sumOver32 state.instrumentLots state.orderLots limits.maxLotsPerInstrument then
      .error (rejected "instrument" "max lots per instrument exceeded")
    else .ok ()
  else .ok ()

def checkTradable (state : RiskState) : Result Unit :=
  if !state.dataTradable then
    .error (rejected "instrument" "price not tradable (illiquid/stale)")
  else .ok ()

def checkInstrument (limits : RiskLimits) (state : RiskState) : Result Unit := do
  checkInstrumentLots limits state
  checkTradable state

def checkOrderValue (limits : RiskLimits) (state : RiskState) : Result Unit :=
  if limits.maxOrderValuePaise > 0 then
    if !state.orderValueKnown then
      .error (rejected "order" "cannot verify order value (unknown)")
    else if state.orderValuePaise < 0 then
      .error (rejected "order" "cannot verify order value (negative)")
    else if state.orderValuePaise > limits.maxOrderValuePaise then
      .error (rejected "order" "max order value exceeded")
    else .ok ()
  else .ok ()

def checkMarketOrder (intent : OrderIntent) (limits : RiskLimits) : Result Unit :=
  if limits.blockMarketOrders ∧ intent.orderType = .market then
    .error (rejected "order" "market orders are blocked")
  else .ok ()

def checkSlippage (limits : RiskLimits) (state : RiskState) : Result Unit :=
  if limits.maxSlippageBps > 0 ∧ state.slippageBps > limits.maxSlippageBps then
    .error (rejected "order" "max slippage exceeded")
  else .ok ()

def checkOrder (intent : OrderIntent) (limits : RiskLimits) (state : RiskState) : Result Unit := do
  checkMarketOrder intent limits
  checkOrderValue limits state
  checkSlippage limits state

def checkAll (intent : OrderIntent) (limits : RiskLimits) (state : RiskState) : Result Unit := do
  checkAccount limits state
  checkStrategy limits state
  checkInstrument limits state
  checkOrder intent limits state

/-! ## What an accepted order has passed -/

section

variable {intent : OrderIntent} {limits : RiskLimits} {state : RiskState}

theorem checkAccount_ok_iff : checkAccount limits state = .ok ()
    ↔ checkDailyLoss limits state = .ok () ∧ checkOpenPositions limits state = .ok ()
      ∧ checkAccountMargin limits state = .ok () := by
  unfold checkAccount
  simp only [Steps.bind_eq_ok]
  constructor
  · rintro ⟨_, hloss, _, hpositions, hmargin⟩
    exact ⟨hloss, hpositions, hmargin⟩
  · rintro ⟨hloss, hpositions, hmargin⟩
    exact ⟨(), hloss, (), hpositions, hmargin⟩

theorem checkInstrument_ok_iff : checkInstrument limits state = .ok ()
    ↔ checkInstrumentLots limits state = .ok () ∧ checkTradable state = .ok () := by
  unfold checkInstrument
  rw [Steps.bind_eq_ok]
  constructor
  · rintro ⟨_, hlots, htradable⟩
    exact ⟨hlots, htradable⟩
  · rintro ⟨hlots, htradable⟩
    exact ⟨(), hlots, htradable⟩

theorem checkOrder_ok_iff : checkOrder intent limits state = .ok ()
    ↔ checkMarketOrder intent limits = .ok () ∧ checkOrderValue limits state = .ok ()
      ∧ checkSlippage limits state = .ok () := by
  unfold checkOrder
  simp only [Steps.bind_eq_ok]
  constructor
  · rintro ⟨_, hmarket, _, hvalue, hslippage⟩
    exact ⟨hmarket, hvalue, hslippage⟩
  · rintro ⟨hmarket, hvalue, hslippage⟩
    exact ⟨(), hmarket, (), hvalue, hslippage⟩

theorem checkAll_ok_iff : checkAll intent limits state = .ok ()
    ↔ checkAccount limits state = .ok () ∧ checkStrategy limits state = .ok ()
      ∧ checkInstrument limits state = .ok () ∧ checkOrder intent limits state = .ok () := by
  unfold checkAll
  simp only [Steps.bind_eq_ok]
  constructor
  · rintro ⟨_, haccount, _, hstrategy, _, hinstrument, horder⟩
    exact ⟨haccount, hstrategy, hinstrument, horder⟩
  · rintro ⟨haccount, hstrategy, hinstrument, horder⟩
    exact ⟨(), haccount, (), hstrategy, (), hinstrument, horder⟩

end

/-! ## What a verdict depends on -/

/-- **Only the order type of the intent counts.** -/
theorem checkAll_intent {intent intent' : OrderIntent} (limits : RiskLimits) (state : RiskState)
    (htype : intent.orderType = intent'.orderType) :
    checkAll intent limits state = checkAll intent' limits state := by
  unfold checkAll checkOrder checkMarketOrder
  rw [htype]

/-- The state, as that of an entry or of an exit. -/
def RiskState.asEntry (state : RiskState) (isEntry : Bool) : RiskState :=
  { state with isEntry := isEntry }

theorem checkOpenPositions_of_checkAll {intent : OrderIntent} {limits : RiskLimits}
    {state : RiskState} (h : checkAll intent limits state = .ok ()) :
    checkOpenPositions limits state = .ok () :=
  (checkAccount_ok_iff.mp (checkAll_ok_iff.mp h).1).2.1

/-- **Being an entry counts only for the open positions.** -/
theorem checkAll_entry {intent : OrderIntent} {limits : RiskLimits} {state : RiskState}
    (hpositions : checkOpenPositions limits (state.asEntry true) = .ok ())
    (hexit : checkAll intent limits (state.asEntry false) = .ok ()) :
    checkAll intent limits (state.asEntry true) = .ok () := by
  have hnone : checkOpenPositions limits (state.asEntry false) = .ok () := by
    unfold checkOpenPositions
    exact if_neg fun h => Bool.false_ne_true h.2.1
  -- no other rule reads the flag
  rw [← hexit]
  unfold checkAll checkAccount
  rw [hpositions, hnone]
  rfl

end BrokerExec.Risk
