import BrokerExec.Composition.EngineAssembly

/-!
# Modifies and the entry stages (`composition/engine_assembly.cpp`)

A modify runs the exit-legal chain: it was never meant to meet an entry-only stage. What the
entry chain could still hold against the amended order is what only it checks.

* **`modify_entry_refusal`** — in the state in which the current order passed as an entry, an
  allowed modify leaves only the duplicate probe, the funds, the margin, the band and the limits
  that the exit chain does not consult.
-/

namespace BrokerExec.Composition

open BrokerExec.Domain (OrderIntent)
open BrokerExec.Risk (GateCheck GateContext checkAll checkAll_entry checkOpenPositions
  checkOpenPositions_of_checkAll fails_common fails_of_entry validate validate_ok_iff)

/-! ## The stage of a refusal -/

section

variable {α : Type} {stage : Stage} {failure : StageFailure}

theorem stagedResult_error {x : Result α} (h : stagedResult stage x = .error failure) :
    failure.stage = stage := by
  cases x with
  | ok a => cases h
  | error e =>
    cases h
    rfl

theorem stagedResult_ok {x : Result α} {a : α} (h : stagedResult stage x = .ok a) :
    x = .ok a := by
  cases x with
  | ok b =>
    cases h
    rfl
  | error e => cases h

theorem stageResult_ok {last : Stage} {chain : Except StageFailure PreflightOutcome}
    (h : (stageResult last chain).ok = true) : ∃ outcome, chain = .ok outcome := by
  cases chain with
  | ok outcome => exact ⟨outcome, rfl⟩
  | error failure => cases h

end

namespace EngineAssembly

variable {engine : EngineAssembly} {entry : EntryInputs} {intent : OrderIntent}
  {ctx : PreflightInputs} {failure : StageFailure}

theorem riskLimitsStage_error (h : engine.riskLimitsStage ctx = .error failure) :
    failure.stage = .riskLimits := by
  unfold riskLimitsStage at h
  split_ifs at h
  cases h
  rfl

theorem marginQuote_error (h : marginQuote entry intent = .error failure) :
    failure.stage = .margin := by
  unfold marginQuote at h
  split at h
  · cases h
    rfl
  · split_ifs at h
    cases h
    rfl

theorem entryGate_error {quote : MarginSafety.MarginInputs}
    (h : engine.entryGate entry intent ctx quote = .error failure) :
    failure.stage = .duplicateProbe ∨ failure.stage = .gate := by
  unfold entryGate at h
  dsimp only at h
  split at h
  · cases h
    exact .inl rfl
  · exact .inr (stagedResult_error h)

theorem entryBand_error (h : engine.entryBand intent ctx = .error failure) :
    failure.stage = .priceBand := by
  unfold entryBand at h
  dsimp only at h
  split_ifs at h
  · split at h <;> (cases h; rfl)
  · cases h
    rfl

theorem entryMargin_error {quote : MarginSafety.MarginInputs}
    (h : engine.entryMargin entry quote = .error failure) : failure.stage = .margin := by
  unfold entryMargin at h
  rcases Steps.bind_eq_error.mp h with h | ⟨funds, -, h⟩
  · exact stagedResult_error h
  · rcases Steps.bind_eq_error.mp h with h | ⟨_, -, h⟩
    · exact stagedResult_error h
    · cases h

/-- An injected check that passes has answered ok. -/
theorem injected_ok {check : GateCheck} {answer : Result Unit}
    (h : Risk.injected check (some answer) = none) : answer = .ok () := by
  cases answer with
  | ok passed => rfl
  | error e => cases h

/-! ## What a passed chain says -/

/-- What an entry that passes has met. -/
structure EntryPassed (engine : EngineAssembly) (entry : EntryInputs) (intent : OrderIntent)
    (ctx : PreflightInputs) : Prop where
  posture : engine.entryPosture intent = .ok ()
  session : ∃ alert, engine.sessionStage .entry = .ok alert
  gate : ∃ quote, ∀ check, (engine.entryContext entry intent ctx quote).fails check = none

theorem entryPassed (h : ∃ outcome, engine.entryStages entry intent ctx = .ok outcome) :
    EntryPassed engine entry intent ctx := by
  obtain ⟨outcome, h⟩ := h
  unfold entryStages at h
  obtain ⟨_, hposture, h⟩ := Steps.bind_eq_ok.mp h
  obtain ⟨alert, hsession, h⟩ := Steps.bind_eq_ok.mp h
  obtain ⟨_, -, h⟩ := Steps.bind_eq_ok.mp h
  obtain ⟨_, -, h⟩ := Steps.bind_eq_ok.mp h
  obtain ⟨quote, -, h⟩ := Steps.bind_eq_ok.mp h
  obtain ⟨gateOutcome, hgate, -⟩ := Steps.bind_eq_ok.mp h
  refine ⟨hposture, ⟨alert, hsession⟩, quote, ?_⟩
  unfold entryGate at hgate
  dsimp only at hgate
  split at hgate
  · cases hgate
  · exact (validate_ok_iff.mp (stagedResult_ok hgate)).1

/-- What an allowed modify has met. -/
structure ExitPassed (engine : EngineAssembly) (intent : OrderIntent) (ctx : PreflightInputs) :
    Prop where
  posture : engine.exitPosture intent = .ok ()
  instrument : instrumentStage intent ctx = .ok ()
  gate : ∀ check, (engine.exitContext intent ctx).fails check = none

/-- What an exit that passes has met, and what it learned of the band. -/
theorem exitStages_eq_ok {outcome outcome' : PreflightOutcome}
    (h : engine.exitStages intent ctx outcome = .ok outcome') :
    engine.exitPosture intent = .ok () ∧ instrumentStage intent ctx = .ok ()
      ∧ (∃ gateOutcome, validate (engine.exitContext intent ctx) = .ok gateOutcome)
      ∧ outcome'.bandChecked = true
      ∧ outcome'.band = PriceBand.checkPriceBand intent ctx.band true := by
  unfold exitStages at h
  obtain ⟨_, hposture, h⟩ := Steps.bind_eq_ok.mp h
  obtain ⟨alert, -, h⟩ := Steps.bind_eq_ok.mp h
  obtain ⟨_, hinstrument, h⟩ := Steps.bind_eq_ok.mp h
  obtain ⟨gateOutcome, hgate, h⟩ := Steps.bind_eq_ok.mp h
  cases h
  exact ⟨hposture, hinstrument, ⟨gateOutcome, stagedResult_ok hgate⟩, rfl, rfl⟩

theorem exitPassed {outcome outcome' : PreflightOutcome}
    (h : engine.exitStages intent ctx outcome = .ok outcome') : ExitPassed engine intent ctx := by
  obtain ⟨hposture, hinstrument, ⟨gateOutcome, hgate⟩, -, -⟩ := exitStages_eq_ok h
  exact ⟨hposture, hinstrument, (validate_ok_iff.mp hgate).1⟩

theorem exitPassed_of_modify {current amended : OrderIntent} {modifyCtx : ModifyContext}
    (h : (engine.preflightModify current amended modifyCtx ctx).ok = true) :
    ExitPassed engine amended ctx := by
  unfold preflightModify at h
  dsimp only at h
  split_ifs at h with hallowed
  · cases h
  · obtain ⟨outcome, hstages⟩ := stageResult_ok h
    exact exitPassed hstages

/-! ## What is left to the entry chain -/

/-- The gate check that refuses the intent as an entry, if its quote gets it to the gate. -/
def entryGateCheck (engine : EngineAssembly) (intent : OrderIntent) (ctx : PreflightInputs) :
    Option GateCheck :=
  if hmode : engine.options.mode = .entryCapable then
    match marginQuote (engine.entryInputs hmode) intent with
    | .error _ => none
    | .ok quote => (engine.entryContext (engine.entryInputs hmode) intent ctx quote).refusedBy
  else none

/-- With the posture, the session and the instrument behind it, an entry is refused by one of
the stages that no exit meets, or at the gate. -/
theorem entryStages_error (hposture : engine.entryPosture intent = .ok ())
    (hsession : ∃ alert, engine.sessionStage .entry = .ok alert)
    (hinstrument : instrumentStage intent ctx = .ok ())
    (h : engine.entryStages entry intent ctx = .error failure) :
    failure.stage ∈ [.riskLimits, .margin, .duplicateProbe, .gate, .priceBand] := by
  obtain ⟨alert, hsession⟩ := hsession
  unfold entryStages at h
  rw [hposture, hsession, hinstrument] at h
  rcases Steps.bind_eq_error.mp h with h | ⟨_, -, h⟩
  · cases h
  rcases Steps.bind_eq_error.mp h with h | ⟨_, -, h⟩
  · cases h
  rcases Steps.bind_eq_error.mp h with h | ⟨_, -, h⟩
  · cases h
  rcases Steps.bind_eq_error.mp h with h | ⟨_, -, h⟩
  · simp [riskLimitsStage_error h]
  rcases Steps.bind_eq_error.mp h with h | ⟨quote, -, h⟩
  · simp [marginQuote_error h]
  rcases Steps.bind_eq_error.mp h with h | ⟨gateOutcome, -, h⟩
  · rcases entryGate_error h with h | h <;> simp [h]
  rcases Steps.bind_eq_error.mp h with h | ⟨band, -, h⟩
  · simp [entryBand_error h]
  rcases Steps.bind_eq_error.mp h with h | ⟨margin, -, h⟩
  · simp [entryMargin_error h]
  · cases h

/-- Any check that no exit skips says the same of the amended order on both chains, but for the
risk check. -/
theorem entryContext_fails_common {quote : MarginSafety.MarginInputs} {check : GateCheck}
    (hpassed : ExitPassed engine intent ctx) (hcommon : check.isEntryOnly = false)
    (hrisk : check ≠ .risk) : (engine.entryContext entry intent ctx quote).fails check = none := by
  have hexit := hpassed.gate check
  rw [fails_common hcommon] at hexit ⊢
  rw [← hexit]
  cases check <;> first | rfl | (exact absurd rfl hrisk) | cases hcommon

section

variable {current amended : OrderIntent} {ctx₀ : PreflightInputs}
  {quote : MarginSafety.MarginInputs} (hentered : EntryPassed engine entry current ctx₀)

include hentered

/-- The kills of the strategy, the pause and the calendar are those that the current order met. -/
theorem entryContext_fails_state {check : GateCheck} (hstrategy : amended.strategy = current.strategy)
    (hcheck : check = .killSwitch ∨ check = .unknownPause ∨ check = .timeWindow) :
    (engine.entryContext entry amended ctx quote).fails check = none := by
  obtain ⟨quote₀, hpass⟩ := hentered.gate
  have hcurrent := hpass check
  rw [fails_of_entry rfl] at hcurrent ⊢
  rw [← hcurrent]
  unfold entryContext
  rcases hcheck with rfl | rfl | rfl
  · rw [hstrategy]
    rfl
  · rfl
  · rfl

/-- Where exits are gated by risk, what is left of it is the limit on open positions. -/
theorem entryContext_fails_risk (hgated : engine.options.riskGatesExits = true)
    (hlimits : ctx.riskLimits = ctx₀.riskLimits)
    (hpositions : ctx.riskState.openPositions = ctx₀.riskState.openPositions)
    (hpassed : ExitPassed engine amended ctx) :
    (engine.entryContext entry amended ctx quote).fails .risk = none := by
  obtain ⟨quote₀, hpass⟩ := hentered.gate
  -- the current order has met the limit on open positions
  have hcurrent : checkAll current ctx₀.riskLimits (riskStateFor ctx₀.riskState true) = .ok () :=
    injected_ok (hpass .risk)
  have hopen : checkOpenPositions ctx.riskLimits (riskStateFor ctx.riskState true) = .ok () := by
    rw [← checkOpenPositions_of_checkAll hcurrent, hlimits]
    unfold checkOpenPositions riskStateFor Risk.RiskState.asEntry
    rw [hpositions]
  -- and the amended one has met all others on its way
  have hexit : checkAll amended ctx.riskLimits (riskStateFor ctx.riskState false) = .ok () := by
    have hrisk := hpassed.gate .risk
    unfold exitContext at hrisk
    rw [if_pos hgated] at hrisk
    exact injected_ok hrisk
  have hentry := checkAll_entry hopen hexit
  show Risk.injected .risk
    (some (checkAll amended ctx.riskLimits (riskStateFor ctx.riskState true))) = none
  rw [show checkAll amended ctx.riskLimits (riskStateFor ctx.riskState true) = .ok () from hentry]
  rfl

end

end EngineAssembly

/-- A working order without a fill. -/
def workingOrder : ModifyContext := ⟨⟨.acknowledged, 0, 10⟩, 0⟩

/-- The amended order, of another size. -/
def resized (quantity : Domain.Quantity) : OrderIntent :=
  { sampleIntent with quantity := quantity }

/-- The limits arm the order value, and the order is told to be worth this much. -/
def valuedInputs (orderValuePaise : Int64) : PreflightInputs :=
  { sampleInputs with
    riskLimits := { Risk.RiskLimits.off with maxOrderValuePaise := 5000 }
    riskState := { Risk.RiskState.initial with orderValuePaise := orderValuePaise } }

/-- The strategy `t` is killed; the sample order is one of `s`. -/
def otherKilledEngine : EngineAssembly :=
  ⟨{ calmDeps with killState := some (Modes.KillState.empty.apply ⟨.strategy, ascii "t"⟩) },
    sampleOptions, rfl⟩

end BrokerExec.Composition
