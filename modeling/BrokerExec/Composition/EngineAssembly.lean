import BrokerExec.Composition.ScopedPosture
import BrokerExec.Lib.Except
import BrokerExec.MarginSafety
import BrokerExec.ModifyGuard
import BrokerExec.PriceBand
import BrokerExec.Risk.FundsView
import BrokerExec.Risk.RiskEngine
import BrokerExec.Risk.ValidationGate
import BrokerExec.SessionGuard

/-!
# The engine assembly (`composition/engine_assembly.cpp`)

`makeEngine` refuses a wiring in which a guard would pass because it is absent. The three
pre-flight chains run their stages in a fixed order, and a refusal names its stage.

An injected source is modelled by what it answers when a pre-flight calls it; none is called
twice in one pre-flight but the funds view.
-/

namespace BrokerExec.Composition

open BrokerExec.Domain (Instrument Money OrderIntent Product formatPaise)
open BrokerExec.Errors (Error ErrorCategory SuggestedAction makeError)
open BrokerExec.MarginSafety (MarginInputs MarginSafetyConfig MarginSafetyResult evaluateMargin
  requireMarginOk)
open BrokerExec.Modes (DetectorSignal KillState Posture)
open BrokerExec.ModifyGuard (ModifyResult ModifyVerdict OrderModifyState evaluateModify
  makeModifyRequest)
open BrokerExec.PriceBand (Band BandCheckResult checkPriceBand emDash requireBandOk)
open BrokerExec.Risk (FundsIo FundsView GateContext GateOutcome RiskLimits RiskState checkAll
  validate)
open BrokerExec.SessionGuard (OpClass SessionState assessSession requireOpAllowed)

inductive EngineMode where
  | entryCapable
  | exitOnly
  deriving DecidableEq

def EngineMode.toString : EngineMode → Bytes
  | .entryCapable => ascii "EntryCapable"
  | .exitOnly => ascii "ExitOnly"

/-- The names under `stage::`. -/
inductive Stage where
  | engineMode
  | exitClass
  | posture
  | session
  | instrument
  | riskLimits
  | duplicateProbe
  | gate
  | priceBand
  | margin
  | modifyGuard
  deriving DecidableEq

def Stage.name : Stage → Bytes
  | .engineMode => ascii "engine-mode"
  | .exitClass => ascii "exit-class"
  | .posture => ascii "posture"
  | .session => ascii "session"
  | .instrument => ascii "instrument"
  | .riskLimits => ascii "risk-limits"
  | .duplicateProbe => ascii "duplicate-probe"
  | .gate => ascii "gate"
  | .priceBand => ascii "price-band"
  | .margin => ascii "margin"
  | .modifyGuard => ascii "modify-guard"

/-! ## The wiring -/

structure SessionSnapshot where
  state : SessionState
  lastBrokerError : Bytes

/-- The stateless authority over postures. -/
structure PostureCoordinator where

/-- The stateless engine of the risk limits. -/
structure RiskEngine where

/-- The funds view, and what its two reads meet: the gate's and the margin stage's. -/
structure FundsSource where
  view : FundsView
  gateRead : FundsIo
  marginRead : FundsIo

/-- A field that is not wired is `none`. -/
structure EngineDeps where
  killState : Option KillState
  posture : Option PostureCoordinator
  detectorSignals : Option (List DetectorSignal)
  session : Option SessionSnapshot
  fundsView : Option FundsSource
  calendar : Option (Result Unit)
  riskEngine : Option RiskEngine
  unknownPause : Option Bool
  duplicateProbe : Option (OrderIntent → Result Bool)
  marginInputs : Option (OrderIntent → Result MarginInputs)
  hedgeCheck : Option (OrderIntent → Result Unit)
  isReducing : Option (OrderIntent → Bool)

structure EngineOptions where
  mode : EngineMode
  allowedExchanges : List Bytes
  allowedProducts : List Product
  sliceMode : Bool
  marginConfig : MarginSafetyConfig
  riskGatesExits : Bool
  declaresNoHedgeCheck : Bool
  declaresNoRiskLimits : Bool
  blockEntryOnUnknownBand : Bool

def wiringError (message : Bytes) : Error :=
  { makeError .validation message with action := .doNotRetry }

/-- One refusal of the builder, unless what it asks for holds. -/
def require (wired : Bool) (message : Bytes) : Result Unit :=
  if wired then .ok () else .error (wiringError message)

/-- What both modes need. -/
def requireCore (deps : EngineDeps) : Result Unit := do
  require deps.killState.isSome
    (ascii "composition: EngineDeps::kill_state is required in every mode (modes::KillState gates "
      ++ ascii "entries via GateContext::kill_entry_block AND supplies the posture operator_floor "
      ++ emDash ++ ascii " without it a Panic kill would resolve to a Normal posture)")
  require deps.posture.isSome
    (ascii "composition: EngineDeps::posture is required in every mode (modes::PostureCoordinator "
      ++ ascii "is the single degradation-posture authority; without it no detector failure could "
      ++ ascii "ever block an entry or route an exit to the emergency engine)")
  require deps.detectorSignals.isSome
    (ascii "composition: EngineDeps::detector_signals is required in every mode (the posture "
      ++ ascii "signal source; an absent source would resolve every posture from the operator "
      ++ ascii "floor alone, so a stale feed, a mute socket, a clock stall or a reconcile mismatch "
      ++ ascii "would all read as Normal)")
  require deps.session.isSome
    (ascii "composition: EngineDeps::session is required in every mode (the mid-session re-auth "
      ++ ascii "state; an absent source would silently pass entries against a token that died "
      ++ ascii "DURING the session)")

/-- What an entry-capable engine needs on top: the gate takes each of these for a pass when it
is absent. -/
def requireEntryInputs (deps : EngineDeps) : Result Unit := do
  require deps.fundsView.isSome
    (ascii "composition: EngineDeps::funds_view is required for an EntryCapable engine "
      ++ ascii "(risk::FundsView supplies GateContext::funds_check via make_funds_check, and the "
      ++ ascii "FRESH available-margin figure the buffered marginsafety stage is tested against; "
      ++ ascii "an ABSENT funds_check is treated by the gate as PASS, so entries would be sized "
      ++ ascii "against nothing)")
  require deps.calendar.isSome
    (ascii "composition: EngineDeps::calendar is required for an EntryCapable engine "
      ++ ascii "(refdata::TradingCalendar is the gate's entry time-window authority; a NULL "
      ++ ascii "calendar makes the gate SKIP the time-window check entirely, so entries would be "
      ++ ascii "admitted on a holiday, before open, or past the entry cutoff)")
  require deps.riskEngine.isSome
    (ascii "composition: EngineDeps::risk_engine is required for an EntryCapable engine "
      ++ ascii "(risk::RiskEngine supplies GateContext::risk_check via make_risk_check; an EMPTY "
      ++ ascii "risk_check is treated by the gate as PASS, so every account/strategy/instrument/"
      ++ ascii "order limit would be unenforced)")
  require deps.unknownPause.isSome
    (ascii "composition: EngineDeps::unknown_pause is required for an EntryCapable engine (the "
      ++ ascii "runtime's UNKNOWN-pause flag; it defaults to false on GateContext, so without a "
      ++ ascii "source entries would keep flowing while UNKNOWN orders are still unresolved)")
  require deps.duplicateProbe.isSome
    (ascii "composition: EngineDeps::duplicate_probe is required for an EntryCapable engine (the "
      ++ ascii "idempotency reserve probe behind GateContext::is_duplicate; an empty probe means "
      ++ ascii "NO duplicate is ever detected, so one strategy signal could become two live "
      ++ ascii "orders)")
  require deps.marginInputs.isSome
    (ascii "composition: EngineDeps::margin_inputs is required for an EntryCapable engine (the "
      ++ ascii "broker-reported margin figures; without them there is no requirement to buffer and "
      ++ ascii "the marginsafety stage would have nothing to check)")

def requireMode (deps : EngineDeps) (options : EngineOptions) : Result Unit :=
  if options.mode = .entryCapable then requireEntryInputs deps else .ok ()

/-- The first refusal of `make_engine`. -/
def checkWiring (deps : EngineDeps) (options : EngineOptions) : Result Unit := do
  requireCore deps
  requireMode deps options
  require (!options.riskGatesExits || deps.riskEngine.isSome)
    (ascii "composition: EngineOptions::risk_gates_exits is set but EngineDeps::risk_engine is "
      ++ ascii "null " ++ emDash ++ ascii " the exit chain would present NO risk check to the "
      ++ ascii "gate, silently giving you the permissive posture you explicitly opted out of. Wire "
      ++ ascii "risk_engine, or leave risk_gates_exits false.")
  require (deps.hedgeCheck.isSome || options.declaresNoHedgeCheck)
    (ascii "composition: EngineDeps::hedge_check is empty " ++ emDash ++ ascii " an empty hedge "
      ++ ascii "check makes the gate's naked-sell / hedge-completion check pass VACUOUSLY. That is "
      ++ ascii "correct for a long-only or cash-equity book and fatal for a naked option seller, "
      ++ ascii "and this module cannot tell which you are. If the book genuinely needs no hedge "
      ++ ascii "check, set EngineOptions::declares_no_hedge_check = true.")

/-- An assembly is a wiring that the builder has accepted. -/
structure EngineAssembly where
  deps : EngineDeps
  options : EngineOptions
  accepted : checkWiring deps options = .ok ()

def makeEngine (deps : EngineDeps) (options : EngineOptions) : Result EngineAssembly :=
  match h : checkWiring deps options with
  | .error e => .error e
  | .ok () => .ok ⟨deps, options, h⟩

theorem makeEngine_eq_ok {deps : EngineDeps} {options : EngineOptions} {engine : EngineAssembly}
    (h : makeEngine deps options = .ok engine) : engine.deps = deps ∧ engine.options = options := by
  unfold makeEngine at h
  split at h
  · cases h
  · cases h
    exact ⟨rfl, rfl⟩

/-- An assembly is what the builder makes of its own wiring. -/
theorem makeEngine_of_accepted (engine : EngineAssembly) :
    makeEngine engine.deps engine.options = .ok engine := by
  unfold makeEngine
  split
  next e h =>
    rw [engine.accepted] at h
    cases h
  next => rfl

theorem require_ok_iff {wired : Bool} {message : Bytes} :
    require wired message = .ok () ↔ wired = true := by
  cases wired <;> simp [require]

section

variable {deps : EngineDeps} {options : EngineOptions}

theorem requireCore_ok (h : requireCore deps = .ok ()) :
    deps.killState.isSome ∧ deps.posture.isSome ∧ deps.detectorSignals.isSome
      ∧ deps.session.isSome := by
  unfold requireCore at h
  obtain ⟨_, hkill, h⟩ := Steps.bind_eq_ok.mp h
  obtain ⟨_, hposture, h⟩ := Steps.bind_eq_ok.mp h
  obtain ⟨_, hsignals, hsession⟩ := Steps.bind_eq_ok.mp h
  exact ⟨require_ok_iff.mp hkill, require_ok_iff.mp hposture, require_ok_iff.mp hsignals,
    require_ok_iff.mp hsession⟩

theorem requireEntryInputs_ok (h : requireEntryInputs deps = .ok ()) :
    deps.fundsView.isSome ∧ deps.calendar.isSome ∧ deps.riskEngine.isSome
      ∧ deps.unknownPause.isSome ∧ deps.duplicateProbe.isSome ∧ deps.marginInputs.isSome := by
  unfold requireEntryInputs at h
  obtain ⟨_, hfunds, h⟩ := Steps.bind_eq_ok.mp h
  obtain ⟨_, hcalendar, h⟩ := Steps.bind_eq_ok.mp h
  obtain ⟨_, hrisk, h⟩ := Steps.bind_eq_ok.mp h
  obtain ⟨_, hpause, h⟩ := Steps.bind_eq_ok.mp h
  obtain ⟨_, hprobe, hmargin⟩ := Steps.bind_eq_ok.mp h
  exact ⟨require_ok_iff.mp hfunds, require_ok_iff.mp hcalendar, require_ok_iff.mp hrisk,
    require_ok_iff.mp hpause, require_ok_iff.mp hprobe, require_ok_iff.mp hmargin⟩

theorem requireCore_of_accepted (h : checkWiring deps options = .ok ()) :
    requireCore deps = .ok () := by
  unfold checkWiring at h
  obtain ⟨_, hcore, -⟩ := Steps.bind_eq_ok.mp h
  exact hcore

theorem requireEntryInputs_of_accepted (h : checkWiring deps options = .ok ())
    (hmode : options.mode = .entryCapable) : requireEntryInputs deps = .ok () := by
  unfold checkWiring at h
  obtain ⟨_, -, h⟩ := Steps.bind_eq_ok.mp h
  obtain ⟨_, hentry, -⟩ := Steps.bind_eq_ok.mp h
  exact (if_pos hmode).symm.trans hentry

end

namespace EngineAssembly

variable (engine : EngineAssembly)

/-! ## What the wiring gives -/

def killState : KillState :=
  engine.deps.killState.get (requireCore_ok (requireCore_of_accepted engine.accepted)).1

def detectorSignals : List DetectorSignal :=
  engine.deps.detectorSignals.get (requireCore_ok (requireCore_of_accepted engine.accepted)).2.2.1

def session : SessionSnapshot :=
  engine.deps.session.get (requireCore_ok (requireCore_of_accepted engine.accepted)).2.2.2

/-- The inputs that only an entry reads. -/
structure EntryInputs where
  fundsView : FundsSource
  calendar : Result Unit
  unknownPause : Bool
  duplicateProbe : OrderIntent → Result Bool
  marginInputs : OrderIntent → Result MarginInputs

/-- An entry-capable assembly has them. -/
def entryInputs (hmode : engine.options.mode = .entryCapable) : EntryInputs :=
  have wired := requireEntryInputs_ok (requireEntryInputs_of_accepted engine.accepted hmode)
  { fundsView := engine.deps.fundsView.get wired.1
    calendar := engine.deps.calendar.get wired.2.1
    unknownPause := engine.deps.unknownPause.get wired.2.2.2.1
    duplicateProbe := engine.deps.duplicateProbe.get wired.2.2.2.2.1
    marginInputs := engine.deps.marginInputs.get wired.2.2.2.2.2 }

/-- `evaluate_posture_for_strategy`. -/
def postureFor (strategy : Bytes) : Posture :=
  evaluatePostureForStrategy engine.killState engine.detectorSignals strategy

end EngineAssembly

/-! ## Stage results -/

structure PreflightInputs where
  instrument : Instrument
  band : Band
  riskLimits : RiskLimits
  riskState : RiskState

structure ModifyContext where
  currentState : OrderModifyState
  observedFilledQty : Int64

structure PreflightOutcome where
  gateOutcome : GateOutcome
  sessionAlert : Bool
  bandChecked : Bool
  band : BandCheckResult
  bandUnvalidated : Bool
  exitClamped : Bool
  marginChecked : Bool
  margin : MarginSafetyResult
  modifyChecked : Bool
  modify : ModifyResult
  deriving DecidableEq

/-- The defaults: nothing checked yet. -/
def PreflightOutcome.initial : PreflightOutcome :=
  ⟨.allow, false, false, .initial, false, false, false, .initial, false, .initial⟩

structure StageResult where
  stage : Stage
  result : Result PreflightOutcome

def StageResult.ok (r : StageResult) : Bool := r.result.isOk

/-- A refusal and the stage that speaks it. -/
structure StageFailure where
  stage : Stage
  error : Error

/-- A chain of stages: the result of the `last` one, or of the one that refuses. -/
def stageResult (last : Stage) : Except StageFailure PreflightOutcome → StageResult
  | .ok outcome => ⟨last, .ok outcome⟩
  | .error failure => ⟨failure.stage, .error failure.error⟩

/-- The inner error, with the stage in front of its message. -/
def staged (stage : Stage) (inner : Error) : StageFailure :=
  ⟨stage, { inner with
    message := ascii "preflight[" ++ stage.name ++ ascii "]: " ++ inner.message }⟩

def stageError (stage : Stage) (category : ErrorCategory) (action : SuggestedAction)
    (detail : Bytes) : StageFailure :=
  ⟨stage, { makeError category (ascii "preflight[" ++ stage.name ++ ascii "]: " ++ detail) with
    action := action }⟩

/-- A result as a stage of its chain. -/
def stagedResult {α : Type} (stage : Stage) : Result α → Except StageFailure α
  | .ok a => .ok a
  | .error inner => .error (staged stage inner)

/-- `rejection_for`. -/
def rejectionFor : ModifyVerdict → ErrorCategory × SuggestedAction
  | .rejectQtyOnPartial | .rejectShrinkBelowFilled => (.riskRejected, .doNotRetry)
  | .rejectTerminal => (.orderNotFound, .reconcileFirst)
  | .rejectRacedFill | .rejectNotModifiable | .allow => (.validation, .reconcileFirst)

def anyRiskLimitArmed (limits : RiskLimits) : Bool :=
  limits.dailyLossLimitPaise ≠ 0 || limits.maxOpenPositions ≠ 0
    || limits.maxAccountMarginPaise ≠ 0 || limits.maxOrderValuePaise ≠ 0
    || limits.blockMarketOrders || limits.maxSlippageBps ≠ 0 || limits.maxLotsPerStrategy ≠ 0
    || limits.maxLotsPerInstrument ≠ 0 || limits.strategyDailyLossLimitPaise ≠ 0

/-- `apply_clamp`: the intent with the suggested prices, and whether there was one. -/
def applyClamp (intent : OrderIntent) (outcome : PreflightOutcome) : OrderIntent × Bool :=
  if !outcome.bandChecked then (intent, false)
  else
    ({ intent with
        price := if outcome.band.hasSuggestion then outcome.band.suggestedLimit else intent.price
        triggerPrice :=
          if outcome.band.hasTriggerSuggestion then some outcome.band.suggestedTrigger
          else intent.triggerPrice },
      outcome.band.hasSuggestion || outcome.band.hasTriggerSuggestion)

/-! ## Stages that the chains share -/

/-- The resolved reference data must be that of the order. -/
def instrumentStage (intent : OrderIntent) (ctx : PreflightInputs) : Except StageFailure Unit :=
  if intent.symbol ≠ ctx.instrument.symbol then
    .error (stageError .instrument .validation .doNotRetry
      (ascii "resolved instrument '" ++ ctx.instrument.symbol
        ++ ascii "' does not match the intent's symbol '" ++ intent.symbol ++ ascii "' " ++ emDash
        ++ ascii " lot, tick, freeze and band would all be checked against the wrong contract"))
  else .ok ()

/-- What the risk engine is told: a value of zero is not a known value. -/
def riskStateFor (state : RiskState) (isEntry : Bool) : RiskState :=
  { state with orderValueKnown := state.orderValueKnown && state.orderValuePaise > 0 }.asEntry
    isEntry

namespace EngineAssembly

variable (engine : EngineAssembly)

def sessionStage (op : OpClass) : Except StageFailure Bool :=
  let posture := assessSession engine.session.state engine.session.lastBrokerError
  match requireOpAllowed posture op with
  | .error e => .error (staged .session e)
  | .ok () => .ok posture.alert

/-! ## The entry chain -/

def entryPosture (intent : OrderIntent) : Except StageFailure Unit :=
  stagedResult .posture (Modes.requireEntryAllowed (engine.postureFor intent.strategy))

def riskLimitsStage (ctx : PreflightInputs) : Except StageFailure Unit :=
  if !engine.options.declaresNoRiskLimits && !anyRiskLimitArmed ctx.riskLimits then
    .error (stageError .riskLimits .validation .doNotRetry
      (ascii "PreflightInputs::risk_limits arms NOTHING (every field is at its 'off' sentinel), so "
        ++ ascii "the risk check would be handed to the gate and pass for every order at every "
        ++ ascii "size and every loss. If this component's risk is genuinely enforced upstream, "
        ++ ascii "set EngineOptions::declares_no_risk_limits = true."))
  else .ok ()

def marginQuote (entry : EntryInputs) (intent : OrderIntent) : Except StageFailure MarginInputs :=
  match entry.marginInputs intent with
  | .error e =>
    .error (stageError .margin .dataStale .blockStrategy
      (ascii "the broker margin quote could not be obtained (" ++ e.category.toString ++ ascii ": "
        ++ e.message ++ ascii ")"))
  | .ok margin =>
    if margin.apiRequired ≤ 0 then
      .error (stageError .margin .dataStale .blockStrategy
        (ascii "margin quote absent or non-positive (api_required "
          ++ formatPaise margin.apiRequired ++ ascii ") " ++ emDash
          ++ ascii " a zero requirement would pass the funds check against any balance; refusing "
          ++ ascii "rather than sizing an entry against nothing"))
    else .ok margin

/-- A probe that cannot answer counts as a duplicate. -/
def probedDuplicate (entry : EntryInputs) (intent : OrderIntent) : Bool :=
  match entry.duplicateProbe intent with
  | .error _ => true
  | .ok seen => seen

def entryContext (entry : EntryInputs) (intent : OrderIntent) (ctx : PreflightInputs)
    (quote : MarginInputs) : GateContext :=
  { intent := intent
    instrument := ctx.instrument
    isRiskReducing := false
    killEntryBlock := engine.killState.blocksStrategy intent.strategy
    unknownPauseActive := entry.unknownPause
    isDuplicate := some (probedDuplicate entry intent)
    calendar := some entry.calendar
    fundsCheck := some
      (entry.fundsView.view.checkMargin quote.apiRequired entry.fundsView.gateRead).1
    riskCheck := some (checkAll intent ctx.riskLimits (riskStateFor ctx.riskState true))
    hedgeCheck := engine.deps.hedgeCheck.map fun check => check intent
    allowedExchanges := engine.options.allowedExchanges
    allowedProducts := engine.options.allowedProducts
    sliceMode := engine.options.sliceMode }

/-- The probe's own error, if the gate gets as far as the probe. -/
def probeError (entry : EntryInputs) (intent : OrderIntent) (gateCtx : GateContext) :
    Option Error :=
  if gateCtx.fails .killSwitch = none ∧ gateCtx.fails .unknownPause = none then
    match entry.duplicateProbe intent with
    | .error e => some e
    | .ok _ => none
  else none

def entryGate (entry : EntryInputs) (intent : OrderIntent) (ctx : PreflightInputs)
    (quote : MarginInputs) : Except StageFailure GateOutcome :=
  let gateCtx := engine.entryContext entry intent ctx quote
  match probeError entry intent gateCtx with
  | some e => .error (staged .duplicateProbe e)
  | none => stagedResult .gate (validate gateCtx)

def entryBand (intent : OrderIntent) (ctx : PreflightInputs) :
    Except StageFailure BandCheckResult :=
  let band := checkPriceBand intent ctx.band false
  if band.blocked then
    match requireBandOk intent ctx.band false with
    | .error e => .error (staged .priceBand e)
    | .ok () =>
      .error (stageError .priceBand .validation .doNotRetry
        (ascii "entry is out of band (verdict " ++ band.verdict.toString ++ ascii ")"))
  else if engine.options.blockEntryOnUnknownBand && band.verdict = .bandUnknown then
    .error (stageError .priceBand .dataStale .blockStrategy
      (ascii "the circuit/LPP band is unavailable or malformed and this engine is configured to "
        ++ ascii "refuse UNVALIDATED entry prices (EngineOptions::block_entry_on_unknown_band)"))
  else .ok band

/-- The deployable funds are the view's, read behind the gate's own read. -/
def entryMargin (entry : EntryInputs) (quote : MarginInputs) :
    Except StageFailure MarginSafetyResult := do
  let read := (entry.fundsView.view.checkMargin quote.apiRequired entry.fundsView.gateRead).2
  let funds ← stagedResult .margin (read.ensureFresh entry.fundsView.marginRead).1
  let margin := evaluateMargin { quote with available := funds.availableMargin }
    engine.options.marginConfig
  stagedResult .margin (requireMarginOk margin)
  pure margin

def entryStages (entry : EntryInputs) (intent : OrderIntent) (ctx : PreflightInputs) :
    Except StageFailure PreflightOutcome := do
  engine.entryPosture intent
  let alert ← engine.sessionStage .entry
  instrumentStage intent ctx
  engine.riskLimitsStage ctx
  let quote ← marginQuote entry intent
  let gateOutcome ← engine.entryGate entry intent ctx quote
  let band ← engine.entryBand intent ctx
  let margin ← engine.entryMargin entry quote
  pure
    { PreflightOutcome.initial with
      gateOutcome := gateOutcome
      sessionAlert := alert
      bandChecked := true
      band := band
      bandUnvalidated := band.verdict = .bandUnknown
      marginChecked := true
      margin := margin }

def preflightEntry (intent : OrderIntent) (ctx : PreflightInputs) : StageResult :=
  if hmode : engine.options.mode = .entryCapable then
    stageResult .margin (engine.entryStages (engine.entryInputs hmode) intent ctx)
  else
    stageResult .engineMode
      (.error (stageError .engineMode .notSupported .doNotRetry
        (ascii "this assembly was composed as " ++ engine.options.mode.toString
          ++ ascii " and has no entry pipeline (it was permitted to build without a funds view, "
          ++ ascii "calendar or risk engine); it can never place an entry")))

/-! ## The exit chain -/

def exitClass (intent : OrderIntent) : Except StageFailure Unit :=
  match engine.deps.isReducing with
  | none => .ok ()
  | some reduces =>
    if reduces intent then .ok ()
    else
      .error (stageError .exitClass .validation .doNotRetry
        (ascii "preflight_exit was called for an intent that does NOT reduce exposure. The exit "
          ++ ascii "chain waives the duplicate, UNKNOWN-pause, entry-cutoff, funds and margin "
          ++ ascii "stages and clamps instead of blocking out of band; an opening order must go "
          ++ ascii "through preflight_entry"))

/-- What a posture that closes the exit gate answers. -/
def gateClosed (posture : Posture) : StageFailure :=
  stageError .posture .riskRejected .squareOff
    (ascii "posture " ++ posture.toString ++ ascii " closes the normal exit gate; the emergency "
      ++ ascii "engine drives the cancel + square-off OUT OF BAND")

def exitPosture (intent : OrderIntent) : Except StageFailure Unit :=
  let posture := engine.postureFor intent.strategy
  if Modes.allowsRiskReducingExits posture then .ok () else .error (gateClosed posture)

def exitContext (intent : OrderIntent) (ctx : PreflightInputs) : GateContext :=
  { intent := intent
    instrument := ctx.instrument
    isRiskReducing := true
    killEntryBlock := false
    unknownPauseActive := false
    isDuplicate := none
    calendar := none
    fundsCheck := none
    riskCheck :=
      if engine.options.riskGatesExits then
        some (checkAll intent ctx.riskLimits (riskStateFor ctx.riskState false))
      else none
    hedgeCheck := engine.deps.hedgeCheck.map fun check => check intent
    allowedExchanges := engine.options.allowedExchanges
    allowedProducts := engine.options.allowedProducts
    sliceMode := engine.options.sliceMode }

def exitStages (intent : OrderIntent) (ctx : PreflightInputs) (outcome : PreflightOutcome) :
    Except StageFailure PreflightOutcome := do
  engine.exitPosture intent
  let alert ← engine.sessionStage .exit
  instrumentStage intent ctx
  let gateOutcome ← stagedResult .gate (validate (engine.exitContext intent ctx))
  let band := checkPriceBand intent ctx.band true
  pure
    { outcome with
      gateOutcome := gateOutcome
      sessionAlert := alert
      bandChecked := true
      band := band
      bandUnvalidated := band.verdict = .bandUnknown
      exitClamped := band.hasSuggestion || band.hasTriggerSuggestion }

/-- `exit_chain`. -/
def exitChain (intent : OrderIntent) (ctx : PreflightInputs) (outcome : PreflightOutcome) :
    StageResult := stageResult .priceBand (engine.exitStages intent ctx outcome)

def preflightExit (intent : OrderIntent) (ctx : PreflightInputs) : StageResult :=
  match engine.exitClass intent with
  | .error failure => ⟨failure.stage, .error failure.error⟩
  | .ok () => engine.exitChain intent ctx .initial

/-! ## The modify chain -/

def preflightModify (current amended : OrderIntent) (modifyCtx : ModifyContext)
    (ctx : PreflightInputs) : StageResult :=
  let modify := evaluateModify modifyCtx.currentState (makeModifyRequest current amended)
    modifyCtx.observedFilledQty
  if !modify.allowed then
    let (category, action) := rejectionFor modify.verdict
    stageResult .modifyGuard
      (.error (stageError .modifyGuard category action
        (modify.verdict.toString ++ ascii ": " ++ modify.detail)))
  else
    engine.exitChain amended ctx
      { PreflightOutcome.initial with modifyChecked := true, modify := modify }

end EngineAssembly

/-! ## A wired assembly -/

/-- Nothing is wrong, and an order of any size needs 10 rupees a piece out of 1000. -/
def calmDeps : EngineDeps where
  killState := some .empty
  posture := some ⟨⟩
  detectorSignals := some []
  session := some ⟨.healthy, []⟩
  fundsView := some
    { view := ⟨5, ⟨100000, 0⟩, 0, true⟩
      gateRead := ⟨1, .ok ⟨100000, 0⟩, 1, 1⟩
      marginRead := ⟨2, .ok ⟨100000, 0⟩, 2, 2⟩ }
  calendar := some (.ok ())
  riskEngine := some ⟨⟩
  unknownPause := some false
  duplicateProbe := some fun _ => .ok false
  marginInputs := some fun intent => .ok ⟨1000 * intent.quantity, 0, 0, false, true⟩
  hedgeCheck := none
  isReducing := none

def sampleOptions : EngineOptions where
  mode := .entryCapable
  allowedExchanges := []
  allowedProducts := []
  sliceMode := true
  marginConfig := ⟨500, 0⟩
  riskGatesExits := false
  declaresNoHedgeCheck := true
  declaresNoRiskLimits := true
  blockEntryOnUnknownBand := false

def calmEngine : EngineAssembly := ⟨calmDeps, sampleOptions, rfl⟩

def sampleIntent : OrderIntent :=
  ⟨ascii "s-1", ascii "ACME", .buy, 10, 100, none, .limit, .intraday, ascii "s"⟩

def sampleInputs : PreflightInputs :=
  ⟨⟨ascii "ACME", 1, ascii "NSE", 1, 5, 1000, []⟩, ⟨50, 200, true⟩, .off, .initial⟩

end BrokerExec.Composition
