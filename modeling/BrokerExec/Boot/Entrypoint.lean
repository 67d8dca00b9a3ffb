import BrokerExec.Boot.Verdict
import BrokerExec.Config.Refusals

/-!
# The entrypoint (`main/main.cpp`)

The process looks at the configuration and makes the account's directory before it boots, with the
same functions as boot and its own way to classify what they refuse.

* **`runBoot_exits`** — what each exit code says, for every answer of the world.
-/

namespace BrokerExec.Entrypoint

open BrokerExec.Accounts (AccountDataDir)
open BrokerExec.Boot
open BrokerExec.Capabilities (Capability)
open BrokerExec.Cli (HealthState)
open BrokerExec.Clock (Detector SkewStallConfig)
open BrokerExec.Composition (BrokerDeps BrokerOptions EngineDeps EngineOptions)
open BrokerExec.Config (EnvLookup)
open BrokerExec.Errors (Error)
open BrokerExec.Process (Attempt Spec Tries)
open BrokerExec.SessionGuard (SessionState)
open BrokerExec.Steps (Fails)
open BrokerExec.Supervisor (BackoffConfig exitReasonFromCode kExitClean kExitFailClosedNeedsHuman)

structure Options where
  account : Bytes
  configPath : Bytes
  dataRoot : Bytes
  bootCheck : Bool

def Options.args (options : Options) : BootArgs :=
  ⟨options.account, options.configPath, options.dataRoot⟩

/-- `report_error`. -/
def reportError (error : Error) : Int32 := exitCodeFor (exitClassFor error)

/-! ## The wiring -/

def notComposedError : Error :=
  blocking .notSupported (ascii ("boot: no session establishment is wired for the configured broker; "
    ++ "only 'kite' is composed by this entrypoint today"))

def sessionProbe (cfg : Config) : Seams → Result SessionState :=
  if cfg.broker.name = ascii "kite" then Seams.session else fun _ => .error notComposedError

/-- `boot-check` has nothing to run. -/
def runPhaseOf (bootCheck : Bool) : Seams → Result Unit :=
  if bootCheck then fun _ => .ok () else fun _ => unimplementedRunPhase

def kSkewStall : SkewStallConfig := ⟨2000000000, 500000000⟩

def brokerDeps : BrokerDeps where
  kiteHttp := true
  kiteSecrets := true
  kiteApiKeySecret := ascii "kite.api_key"
  kiteAccessTokenSecret := ascii "kite.access_token"
  kotakHttp := false
  kotakSession := false

def brokerOptions : BrokerOptions where
  requiredCapabilities := [.placeOrder, .modifyOrder, .cancelOrder, .squareOff]
  declaresNoCapabilities := false
  capabilityOverride := none

/-- Of an engine that may only exit. -/
def engineDeps : EngineDeps where
  killState := some .empty
  posture := some ⟨⟩
  detectorSignals := some []
  session := some ⟨.healthy, []⟩
  fundsView := none
  calendar := none
  riskEngine := none
  unknownPause := none
  duplicateProbe := none
  marginInputs := none
  hedgeCheck := none
  isReducing := none

def engineOptions : EngineOptions where
  mode := .exitOnly
  allowedExchanges := []
  allowedProducts := []
  sliceMode := true
  marginConfig := ⟨500, 0⟩
  riskGatesExits := false
  declaresNoHedgeCheck := true
  declaresNoRiskLimits := false
  blockEntryOnUnknownBand := false

def wire (options : Options) (env : EnvLookup) (cfg : Config) (needsRebuild : Bool) : BootDeps where
  args := options.args
  env := some env
  clock := true
  secrets := true
  alerts := true
  clockDetector := some kSkewStall
  store := true
  ledger := true
  instruments := true
  calendar := true
  health := true
  sessionProbe := some (sessionProbe cfg)
  startHealthEndpoint := some fun _ => .ok ()
  runPhase := some (runPhaseOf options.bootCheck)
  chainPresent := none
  brokerDeps := brokerDeps
  brokerOptions := brokerOptions
  engineDeps := engineDeps
  engineOptions := engineOptions
  replayClean := !needsRebuild

/-! ## The process -/

/-- Up to the components that boot borrows. -/
def preflight (options : Options) (env : EnvLookup) : Attempt Seams World Error (Config × Bool) := do
  let file ← liftM (call Seams.configFile .readConfig)
  let cfg ← ExceptT.mk (pure (Config.load options.configPath file env))
  ExceptT.mk (pure (requireConfigConsistent cfg options.args))
  let root ← ExceptT.mk (pure (resolveDataRoot cfg options.args))
  let accountId := if options.account = [] then cfg.engine.accountId else options.account
  let _ ← ExceptT.mk (pure (AccountDataDir.create root accountId))
  ExceptT.mk ensureDirectory
  let needsRebuild ← ExceptT.mk (call Seams.store .openStore)
  return (cfg, needsRebuild)

/-- How the process ends; the calls of the preflight are kept apart from those of boot. -/
structure Exit where
  code : Int32
  preflight : List Call
  booted : Bool

/-- What was called so far; boot's record is its own. -/
def beginBoot : Act (List Call) := Process.step fun w => (w.log, .start .init)

def readWorld : Act World := Process.step fun w => (w, w)

/-- `run_boot` and its report. -/
def runBoot (lib : Libraries) (env : EnvLookup) (options : Options) : Act Exit := do
  match ← (preflight options env).run with
  | .error error =>
    let w ← readWorld
    return ⟨reportError error, w.log, false⟩
  | .ok (cfg, needsRebuild) =>
    let before ← beginBoot
    boot lib (wire options env cfg needsRebuild)
    let w ← readWorld
    return ⟨exitCodeFor w.outcome.exitClass, before, true⟩

/-! ## The preflight -/

variable {lib : Libraries} {env : EnvLookup} {options : Options}

def NeedsHuman (error : Error) : Prop := exitClassFor error = .failClosedNeedsHuman

theorem needsHuman_validation (message : Bytes) :
    NeedsHuman (Errors.makeError .validation message) := rfl

theorem parseBrokerChoice_fails (name : Bytes) :
    Fails NeedsHuman (Composition.parseBrokerChoice name) := by
  unfold Composition.parseBrokerChoice
  split_ifs <;> first | exact .error rfl | exact .ok _

theorem consistent_fails (cfg : Config) (args : BootArgs) :
    Fails NeedsHuman (requireConfigConsistent cfg args) := by
  unfold requireConfigConsistent
  have hchoice := parseBrokerChoice_fails cfg.broker.name
  cases hparsed : Composition.parseBrokerChoice cfg.broker.name with
  | error error =>
    dsimp only
    split_ifs <;> first | exact .error rfl | exact .error (hchoice error hparsed)
  | ok choice =>
    dsimp only
    split_ifs <;> first | exact .error rfl | exact .ok ()

theorem resolveDataRoot_fails (cfg : Config) (args : BootArgs) :
    Fails NeedsHuman (resolveDataRoot cfg args) := by
  unfold resolveDataRoot
  split_ifs <;> first | exact .error rfl | exact .ok _

theorem validateAccountId_fails (accountId : Bytes) :
    Fails NeedsHuman (Accounts.validateAccountId accountId) := by
  unfold Accounts.validateAccountId
  split_ifs <;> first | exact .error rfl | exact .ok ()

theorem create_fails (root accountId : Bytes) :
    Fails NeedsHuman (AccountDataDir.create root accountId) := by
  unfold AccountDataDir.create
  split
  · exact .error rfl
  · split
    · next error hinvalid => exact .error (validateAccountId_fails accountId error hinvalid)
    · exact .ok _

theorem ensure_fails (isDirectory restricted : Bool) :
    Fails NeedsHuman (AccountDataDir.ensure isDirectory restricted) := by
  unfold AccountDataDir.ensure
  split_ifs <;> first | exact .error rfl | exact .ok ()

/-! ### Its calls -/

theorem call_log {α : Type} (l : List Call) (read : Seams → α) (event : α → Call) :
    Spec (·.log = l) (call read event) (fun a w => w.log = l ++ [event a]) fun _ => True :=
  Spec.ask (fun _ _ => trivial) fun _ _ h => congrArg (· ++ _) h

/-- What a preflight has called when it goes through. -/
def passedCalls (file : Config.TomlFile) (needsRebuild : Bool) : List Call :=
  [.readConfig file, .makeDirectory true, .restrictDirectory true, .openStore (.ok needsRebuild)]

/-- Only the projection may be opened again by itself. -/
structure Refused (error : Error) (log : List Call) : Prop where
  cause : NeedsHuman error
    ∨ Call.openStore (.error error) ∈ log ∧ .makeDirectory false ∉ log
      ∧ .restrictDirectory false ∉ log

theorem refused_pure {α : Type} {K : World → Prop} {r : Result α} (hr : Fails NeedsHuman r) :
    Tries K (ExceptT.mk (pure r) : Attempt Seams World Error α) (fun a w => K w ∧ r = .ok a)
      (fun e w => Refused e w.log) fun _ => True :=
  Tries.ofExcept (fun _ _ h hok => ⟨h, hok⟩) fun e _ _ he => ⟨.inl (hr e he)⟩

theorem ensureDirectory_log (l : List Call) :
    Tries (·.log = l) (ExceptT.mk ensureDirectory : Attempt Seams World Error Unit)
      (fun _ w => w.log = l ++ [.makeDirectory true, .restrictDirectory true])
      (fun e w => Refused e w.log) fun _ => True := by
  refine Spec.bind (call_log l _ _) fun isDirectory => ?_
  cases isDirectory with
  | false => exact Tries.ofExcept (fun _ _ _ hr => nomatch hr) fun e _ _ he =>
      ⟨.inl (ensure_fails _ _ e he)⟩
  | true =>
    refine Spec.bind (call_log _ _ _) fun restricted => ?_
    cases restricted with
    | false => exact Tries.ofExcept (fun _ _ _ hr => nomatch hr) fun e _ _ he =>
        ⟨.inl (ensure_fails _ _ e he)⟩
    | true => exact Tries.ofExcept (fun _ _ h _ => by simp [h]) fun _ _ _ hr => nomatch hr

theorem openStore_log (l : List Call) (hmade : .makeDirectory false ∉ l)
    (hrestricted : .restrictDirectory false ∉ l) :
    Tries (·.log = l) (ExceptT.mk (call Seams.store .openStore) : Attempt Seams World Error Bool)
      (fun needsRebuild w => w.log = l ++ [.openStore (.ok needsRebuild)])
      (fun e w => Refused e w.log) fun _ => True := by
  refine Spec.weaken (call_log l _ _) (fun _ h => h) ?_
  rintro (e | needsRebuild) w h
  · refine ⟨.inr ?_⟩
    rw [h]
    simp [hmade, hrestricted]
  · exact h

theorem preflight_tries :
    Tries (·.log = []) (preflight options env)
      (fun r w => ∃ file, w.log = passedCalls file r.2) (fun e w => Refused e w.log)
      fun _ => True := by
  unfold preflight
  refine Tries.bind (Tries.lift (call_log [] _ _)) fun file => ?_
  refine Tries.bind (refused_pure (Config.load_fails needsHuman_validation _ _)) fun cfg => ?_
  refine Tries.bind (refused_pure (consistent_fails _ _)) fun _ => ?_
  refine Tries.bind (refused_pure (resolveDataRoot_fails _ _)) fun root => ?_
  refine Tries.bind (refused_pure (create_fails _ _)) fun dir => ?_
  refine Tries.bind ((ensureDirectory_log [.readConfig file]).weaken (fun _ h => h.1.1.1.1)
    (fun _ _ h => h) (fun _ _ h => h) fun _ h => h) fun _ => ?_
  refine Tries.bind (openStore_log _ (by simp) (by simp)) fun needsRebuild => ?_
  exact Tries.pure fun w h => ⟨file, h⟩

/-! ## The exit -/

theorem exitCodeFor_clean {exitClass : ExitClass} :
    exitCodeFor exitClass = kExitClean ↔ exitClass = .clean := by
  cases exitClass <;> decide

/-- A supervisor restarts a crash alone. -/
theorem restarted {exitClass : ExitClass} {count : Int32} {cfg : BackoffConfig}
    (h : ((exitReasonFromCode (exitCodeFor exitClass)).decide count cfg).action
      = .restartWithBackoff) : exitClass = .crash := by
  have hreason := (Supervisor.decide_restarts_iff.mp h).1
  cases exitClass with
  | crash => rfl
  | clean | failClosedNeedsHuman => exact absurd hreason (by decide)

/-- What an exit means. -/
structure ExitMeans (lib : Libraries) (env : EnvLookup) (options : Options) (exit : Exit)
    (w : World) : Prop where
  codes : exit.code ∈ [kExitClean, kExitCrash, kExitFailClosedNeedsHuman]
  clean : exit.code = kExitClean → exit.booted = true ∧ options.bootCheck = true
    ∧ ∃ cfg needsRebuild reloaded, cfg.broker.name = ascii "kite"
      ∧ Verified lib (wire options env cfg needsRebuild) reloaded w.log w.outcome.audit
  restart : ∀ count cfg,
    ((exitReasonFromCode exit.code).decide count cfg).action = .restartWithBackoff →
      exit.booted = true ∧ CrashCause w.log
        ∨ exit.booted = false ∧ ∃ error, Call.openStore (.error error) ∈ exit.preflight
          ∧ exitClassFor error = .crash
  unmounted : Call.makeDirectory false ∈ exit.preflight
      ∨ Call.restrictDirectory false ∈ exit.preflight →
    exit.booted = false ∧ exit.code = kExitFailClosedNeedsHuman

theorem codes_exitCodeFor (exitClass : ExitClass) :
    exitCodeFor exitClass ∈ [kExitClean, kExitCrash, kExitFailClosedNeedsHuman] := by
  cases exitClass <;> decide

/-- A preflight that refuses. -/
theorem exitMeans_refused {error : Error} {w : World} (h : Refused error w.log) :
    ExitMeans lib env options ⟨reportError error, w.log, false⟩ w := by
  refine ⟨codes_exitCodeFor _, fun hclean => ?_, fun count cfg hrestart => .inr ⟨rfl, error, ?_⟩,
    fun hdirectory => ⟨rfl, ?_⟩⟩
  · exact absurd (exitCodeFor_clean.mp hclean) (exitClassFor_ne_clean error)
  · have hcrash := restarted hrestart
    rcases h.cause with hhuman | ⟨hopen, -⟩
    · rw [NeedsHuman, hcrash] at hhuman
      cases hhuman
    · exact ⟨hopen, hcrash⟩
  · rcases h.cause with hhuman | ⟨-, hmade, hrestricted⟩
    · exact congrArg exitCodeFor hhuman
    · exact absurd hdirectory (not_or.mpr ⟨hmade, hrestricted⟩)

/-- Only the shipped broker has a session to probe. -/
theorem kite_of_verified {cfg reloaded : Config} {needsRebuild : Bool} {log : List Call}
    {audit : SafeStartAudit}
    (h : Verified lib (wire options env cfg needsRebuild) reloaded log audit) :
    cfg.broker.name = ascii "kite" := by
  obtain ⟨first, before, after, -, -, hpassed⟩ := h.calls
  obtain ⟨probe, t, hprobe, hhealthy, -⟩ := hpassed .session
  cases hprobe
  unfold sessionProbe at hhealthy
  split_ifs at hhealthy with hkite
  exact hkite

/-- A boot that has ended. -/
theorem exitMeans_booted {cfg : Config} {file : Config.TomlFile} {needsRebuild : Bool} {w : World}
    (hordered : Ordered lib (wire options env cfg needsRebuild) w)
    (hverdict : Verdict (wire options env cfg needsRebuild) w) :
    ExitMeans lib env options
      ⟨exitCodeFor w.outcome.exitClass, passedCalls file needsRebuild, true⟩ w := by
  refine ⟨codes_exitCodeFor _, fun hclean => ⟨rfl, ?_⟩,
    fun count cfg hrestart => .inl ⟨rfl, hverdict.crash (restarted hrestart)⟩, ?_⟩
  · have hrun := hverdict.ok (hverdict.clean.mp (exitCodeFor_clean.mp hclean))
    obtain ⟨-, phase, t, hphase, hanswer⟩ := hordered.run _ hrun
    obtain ⟨snapshot, hpublish⟩ := hordered.published_of_run hrun
    obtain ⟨-, reloaded, -, -, hverified, -⟩ := hordered.verified_of_publish hpublish
    refine ⟨?_, cfg, needsRebuild, reloaded, kite_of_verified hverified, hverified⟩
    cases hphase
    unfold runPhaseOf at hanswer
    split_ifs at hanswer with hcheck
    · exact hcheck
    · cases hanswer
  · simp [passedCalls]

theorem readWorld_spec (K : World → Prop) :
    Spec K readWorld (fun w' w => K w ∧ w' = w) fun _ => True :=
  Spec.step fun _ h => ⟨h, rfl⟩

theorem runBoot_spec (lib : Libraries) (env : EnvLookup) (options : Options) :
    Spec (·.log = []) (runBoot lib env options) (ExitMeans lib env options) fun _ => True := by
  unfold runBoot
  refine Spec.bind preflight_tries ?_
  rintro (error | ⟨cfg, needsRebuild⟩)
  · refine Spec.bind (readWorld_spec fun w => Refused error w.log) fun w' => Spec.pure fun w h => ?_
    rw [h.2]
    exact exitMeans_refused h.1
  · have hbegin : Spec (fun w => ∃ file, w.log = passedCalls file needsRebuild) beginBoot
        (fun before w => w = World.start .init ∧ ∃ file, before = passedCalls file needsRebuild)
        fun _ => True := Spec.step fun w h => ⟨rfl, h⟩
    refine Spec.bind hbegin fun before => Spec.given ?_
    rintro ⟨file, rfl⟩
    refine Spec.bind ((boot_spec lib _ .init).weakenStop fun _ _ => trivial) fun _ => ?_
    refine Spec.bind (readWorld_spec _) fun w' => Spec.pure fun w h => ?_
    rw [h.2]
    exact exitMeans_booted h.1.1 h.1.2

def checkEnv : EnvLookup := fun key =>
  if key = ascii "BROKER_EXEC_BROKER_NAME" then some (ascii "kite")
  else if key = ascii "BROKER_EXEC_ENGINE_ACCOUNT_ID" then some (ascii "a1")
  else if key = ascii "BROKER_EXEC_PATHS_DATA_DIR" then some (ascii "/data")
  else if key = kEgressIpEnv ∨ key = kEgressAllowlistEnv then some (ascii "10.0.0.1")
  else none

def checkOptions : Options := ⟨ascii "a1", [], [], true⟩

/-- A `boot-check` in a calm world. -/
def checkRun : Outcome Seams World Exit :=
  runBoot sampleLibraries checkEnv checkOptions (List.replicate 30 calmSeams) (.start .init)

theorem checkRun_done :
    ∃ exit unused w, checkRun = .done exit unused w ∧ exit.code = kExitClean := by
  have hclean : (match checkRun with
    | .done exit _ _ => exit.code == kExitClean
    | .stopped _ => false) = true := by
    decide +kernel
  cases hrun : checkRun with
  | stopped w =>
    rw [hrun] at hclean
    cases hclean
  | done exit unused w =>
    rw [hrun] at hclean
    exact ⟨exit, unused, w, rfl, eq_of_beq hclean⟩

end BrokerExec.Entrypoint
