import BrokerExec.Composition.EngineAssembly

/-!
# Exits and entry-only state (`composition/engine_assembly.cpp`)

Two assemblies that share the options, the hedge check and the exit classifier treat an exit
alike as long as they agree on whether the posture is `Panic`.

* **`exit_isolated`** — nothing that only entries read, and not the session, changes an exit's
  verdict or clamp; the kills and the detectors change it only through a panic.
-/

namespace BrokerExec.Composition

open BrokerExec.Domain (OrderIntent)
open BrokerExec.Errors (makeError)
open BrokerExec.Modes (Posture)
open BrokerExec.SessionGuard (assessSession requireOpAllowed_exit)

/-! ## What two results share -/

/-- The alert on a degraded session is the operator's, and not part of the verdict. -/
def PreflightOutcome.withoutAlert (outcome : PreflightOutcome) : PreflightOutcome :=
  { outcome with sessionAlert := false }

def StageResult.withoutAlert (r : StageResult) : StageResult :=
  ⟨r.stage, r.result.map PreflightOutcome.withoutAlert⟩

/-- What `apply_clamp` makes of the intent when the chain passes. -/
def StageResult.clamped (r : StageResult) (intent : OrderIntent) : Option (OrderIntent × Bool) :=
  r.result.toOption.map (applyClamp intent)

/-- The same stage answers, with the same verdict, evidence and clamp. -/
structure SameVerdict (intent : OrderIntent) (r r' : StageResult) : Prop where
  evidence : r.withoutAlert = r'.withoutAlert
  ok : r.ok = r'.ok
  clamped : r.clamped intent = r'.clamped intent

theorem ok_withoutAlert (r : StageResult) : r.withoutAlert.ok = r.ok := by
  rcases r with ⟨stage, e | outcome⟩ <;> rfl

theorem clamped_withoutAlert (r : StageResult) (intent : OrderIntent) :
    r.withoutAlert.clamped intent = r.clamped intent := by
  rcases r with ⟨stage, e | outcome⟩ <;> rfl

theorem sameVerdict_of_evidence {intent : OrderIntent} {r r' : StageResult}
    (h : r.withoutAlert = r'.withoutAlert) : SameVerdict intent r r' where
  evidence := h
  ok := by rw [← ok_withoutAlert r, h, ok_withoutAlert]
  clamped := by rw [← clamped_withoutAlert r, h, clamped_withoutAlert]

theorem withoutAlert_stageResult (last : Stage)
    (chain : Except StageFailure PreflightOutcome) :
    (stageResult last chain).withoutAlert
      = stageResult last (chain.map PreflightOutcome.withoutAlert) := by
  cases chain <;> rfl

/-! ## The stages of the exit chain -/

namespace EngineAssembly

variable {engine engine' : EngineAssembly}

/-- The session never refuses an exit; it only sets the alert. -/
theorem sessionStage_exit (engine : EngineAssembly) :
    engine.sessionStage .exit
      = .ok (assessSession engine.session.state engine.session.lastBrokerError).alert := by
  unfold sessionStage
  dsimp only
  rw [requireOpAllowed_exit]

theorem exitPosture_eq (engine : EngineAssembly) (intent : OrderIntent) :
    engine.exitPosture intent
      = if engine.postureFor intent.strategy = .panic then .error (gateClosed .panic) else .ok () := by
  unfold exitPosture
  dsimp only
  by_cases hpanic : engine.postureFor intent.strategy = .panic
  · rw [if_pos hpanic, hpanic]
    exact if_neg (by decide)
  · rw [if_neg hpanic]
    exact if_pos (decide_eq_true hpanic)

/-- Only a panic kill resolves to the panic posture. -/
theorem postureFor_eq_panic_iff (engine : EngineAssembly) (strategy : Bytes) :
    engine.postureFor strategy = .panic ↔ engine.killState.panicActive = true :=
  postureForStrategy_eq_panic_iff

section

variable (hoptions : engine.options = engine'.options)
  (hhedge : engine.deps.hedgeCheck = engine'.deps.hedgeCheck) {intent : OrderIntent}
  (hpanic : engine.postureFor intent.strategy = .panic
    ↔ engine'.postureFor intent.strategy = .panic)

include hoptions hhedge

theorem exitContext_congr (ctx : PreflightInputs) :
    engine.exitContext intent ctx = engine'.exitContext intent ctx := by
  unfold exitContext
  rw [hoptions, hhedge]

include hpanic

theorem exitStages_congr (ctx : PreflightInputs) (outcome : PreflightOutcome) :
    (engine.exitStages intent ctx outcome).map PreflightOutcome.withoutAlert
      = (engine'.exitStages intent ctx outcome).map PreflightOutcome.withoutAlert := by
  unfold exitStages
  rw [sessionStage_exit, sessionStage_exit, exitPosture_eq, exitPosture_eq, if_congr hpanic rfl rfl,
    exitContext_congr hoptions hhedge]
  -- from here on both chains read the same
  split_ifs
  · rfl
  · cases instrumentStage intent ctx with
    | error failure => rfl
    | ok passed =>
      cases stagedResult .gate (Risk.validate (engine'.exitContext intent ctx)) with
      | error failure => rfl
      | ok gateOutcome => rfl

theorem exitChain_congr (ctx : PreflightInputs) (outcome : PreflightOutcome) :
    (engine.exitChain intent ctx outcome).withoutAlert
      = (engine'.exitChain intent ctx outcome).withoutAlert := by
  unfold exitChain
  rw [withoutAlert_stageResult, withoutAlert_stageResult,
    exitStages_congr hoptions hhedge hpanic]

variable (hreducing : engine.deps.isReducing = engine'.deps.isReducing)

include hreducing

theorem preflightExit_congr (ctx : PreflightInputs) :
    (engine.preflightExit intent ctx).withoutAlert
      = (engine'.preflightExit intent ctx).withoutAlert := by
  have hclass : engine.exitClass intent = engine'.exitClass intent := by
    unfold exitClass
    rw [hreducing]
  unfold preflightExit
  rw [hclass]
  cases engine'.exitClass intent with
  | error failure => rfl
  | ok passed => exact exitChain_congr hoptions hhedge hpanic ctx .initial

end

/-- Under a panic an exit that passes the classifier is refused at the posture stage. -/
theorem preflightExit_panic {intent : OrderIntent}
    (hpanic : engine.postureFor intent.strategy = .panic)
    (hclass : engine.exitClass intent = .ok ()) (ctx : PreflightInputs) :
    engine.preflightExit intent ctx = ⟨.posture, .error (gateClosed .panic).error⟩ := by
  unfold preflightExit exitChain exitStages
  rw [hclass, exitPosture_eq, if_pos hpanic]
  rfl

theorem killState_congr (h : engine.deps.killState = engine'.deps.killState) :
    engine.killState = engine'.killState := by
  unfold killState
  exact Option.some_inj.mp (by rw [Option.some_get, Option.some_get, h])

end EngineAssembly

/-! ## Two assemblies -/

/-- **Exits are never trapped by entry-only state.** Of two assemblies with the same options,
hedge check and classifier, whatever else differs: with the same kills, or if at least both
postures are a panic or neither is, an exit has the same verdict and the same clamp; and a panic
refuses it at the posture, unless the classifier has refused it before. -/
theorem exit_isolated {deps deps' : EngineDeps} {options : EngineOptions}
    {engine engine' : EngineAssembly} (hbuilt : makeEngine deps options = .ok engine)
    (hbuilt' : makeEngine deps' options = .ok engine')
    (hhedge : deps.hedgeCheck = deps'.hedgeCheck) (hreducing : deps.isReducing = deps'.isReducing)
    (intent : OrderIntent) (ctx : PreflightInputs) :
    (deps.killState = deps'.killState →
        SameVerdict intent (engine.preflightExit intent ctx) (engine'.preflightExit intent ctx))
      ∧ ((engine.postureFor intent.strategy = .panic
            ↔ engine'.postureFor intent.strategy = .panic) →
          SameVerdict intent (engine.preflightExit intent ctx) (engine'.preflightExit intent ctx))
      ∧ (engine.postureFor intent.strategy = .panic → engine.exitClass intent = .ok () →
          (engine.preflightExit intent ctx).stage = .posture
            ∧ (engine.preflightExit intent ctx).ok = false) := by
  obtain ⟨rfl, rfl⟩ := makeEngine_eq_ok hbuilt
  obtain ⟨rfl, hoptions⟩ := makeEngine_eq_ok hbuilt'
  have hagree : (engine.postureFor intent.strategy = .panic
      ↔ engine'.postureFor intent.strategy = .panic) →
      SameVerdict intent (engine.preflightExit intent ctx) (engine'.preflightExit intent ctx) :=
    fun hpanic => sameVerdict_of_evidence
      (EngineAssembly.preflightExit_congr hoptions.symm hhedge hpanic hreducing ctx)
  refine ⟨fun hkills => hagree ?_, hagree, fun hpanic hclass => ?_⟩
  · rw [EngineAssembly.postureFor_eq_panic_iff, EngineAssembly.postureFor_eq_panic_iff,
      EngineAssembly.killState_congr hkills]
  · rw [EngineAssembly.preflightExit_panic hpanic hclass]
    exact ⟨rfl, rfl⟩

/-- A day on which nothing but an exit would pass. -/
def degradedDeps : EngineDeps :=
  { calmDeps with
    session := some ⟨.failed, ascii "token expired"⟩
    calendar := some (.error (makeError .marketClosed (ascii "holiday")))
    unknownPause := some true
    duplicateProbe := some fun _ => .error (makeError .internal (ascii "store is closed"))
    marginInputs := some fun _ => .error (makeError .network (ascii "no quote")) }

def degradedEngine : EngineAssembly := ⟨degradedDeps, sampleOptions, rfl⟩

theorem exit_isolated_degraded :
    SameVerdict sampleIntent (calmEngine.preflightExit sampleIntent sampleInputs)
        (degradedEngine.preflightExit sampleIntent sampleInputs)
      ∧ (degradedEngine.preflightExit sampleIntent sampleInputs).ok = true :=
  ⟨(exit_isolated (makeEngine_of_accepted calmEngine) (makeEngine_of_accepted degradedEngine)
      rfl rfl sampleIntent sampleInputs).1 rfl, by decide⟩

end BrokerExec.Composition
