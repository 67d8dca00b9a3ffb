import BrokerExec.Boot.Checks
import BrokerExec.Cli.HealthSnapshot
import BrokerExec.Clock.SkewStall
import BrokerExec.Composition.EngineAssembly
import BrokerExec.Supervisor.Policy

/-!
# The boot sequence (`boot/boot.cpp`, `make_safe_start_context` of `boot/boot_checks.cpp`)

Ten steps, each of which may refuse the start. What boot calls is written down with its answer; an
answer that never comes is a process that died there.
-/

namespace BrokerExec.Boot

open BrokerExec.Accounts (AccountDataDir)
open BrokerExec.Cli (HealthSnapshot HealthState)
open BrokerExec.Clock (ClockStatus Detector Sample SkewStallConfig)
open BrokerExec.Composition (BrokerAssembly BrokerDeps BrokerOptions EngineAssembly EngineDeps
  EngineOptions assertProductionPosture makeBrokerNamed makeEngine)
open BrokerExec.Config (EnvLookup TomlFile)
open BrokerExec.Domain (Order)
open BrokerExec.Errors (Error ErrorCategory SuggestedAction)
open BrokerExec.Ledger (CheckpointReadIo Digest Ed25519 LoadIo)
open BrokerExec.Ports (Alert)
open BrokerExec.Process (Attempt)
open BrokerExec.Session (SafeCheck SafeStartContext requireNoLegacyStops requireValidStrategyNames
  sessionStateToResult)
open BrokerExec.SessionGuard (SessionState)
open BrokerExec.Supervisor (kExitClean kExitFailClosedNeedsHuman)

/-! ## Exit classes and steps -/

inductive ExitClass where
  | clean
  | failClosedNeedsHuman
  | crash
  deriving DecidableEq

def ExitClass.toString : ExitClass → Bytes
  | .clean => ascii "clean"
  | .failClosedNeedsHuman => ascii "fail-closed-needs-human"
  | .crash => ascii "crash"

def kExitCrash : Int32 := 1

def exitCodeFor : ExitClass → Int32
  | .clean => kExitClean
  | .failClosedNeedsHuman => kExitFailClosedNeedsHuman
  | .crash => kExitCrash

inductive BootStep where
  | loadConfig
  | resolveDataDir
  | openLedger
  | establishSession
  | safeStart
  | composeBroker
  | composeEngine
  | publishHealth
  | startHealthEndpoint
  | run
  deriving DecidableEq

def BootStep.toString : BootStep → Bytes
  | .loadConfig => ascii "load-config"
  | .resolveDataDir => ascii "resolve-data-dir"
  | .openLedger => ascii "open-ledger"
  | .establishSession => ascii "establish-session"
  | .safeStart => ascii "safe-start"
  | .composeBroker => ascii "compose-broker"
  | .composeEngine => ascii "compose-engine"
  | .publishHealth => ascii "publish-health"
  | .startHealthEndpoint => ascii "start-health-endpoint"
  | .run => ascii "run"

/-- A transport condition is a crash; everything else follows the action. -/
def exitClassFor (error : Error) : ExitClass :=
  match error.category with
  | .transient | .rateLimited | .network | .timeout => .crash
  | _ =>
    match error.action with
    | .retrySafe | .reconcileFirst => .crash
    | .doNotRetry | .blockStrategy | .reEstablishSession | .cancel | .squareOff | .raiseAlert =>
      .failClosedNeedsHuman

def notWired (what : String) : Error :=
  blocking .internal (ascii "boot: " ++ ascii what ++ ascii " was not wired")

/-- What the shipped run phase answers. -/
def unimplementedRunPhase : Result Unit :=
  .error (blocking .internal (ascii ("boot: the trading run phase is not implemented. IMP-20 builds "
    ++ "the process entrypoint and the cold-boot sequence ONLY; the synchronous main loop "
    ++ "(dispatcher pumping, reconcile scheduling, market-data ingest) is a separate story and is "
    ++ "deliberately NOT stubbed into a fake loop. The world was verified safe and the health "
    ++ "surface is up; there is nothing yet to run")))

/-! ## What boot is given -/

/-- What the libraries compute. -/
structure Libraries where
  parser : Json.Parser
  digest : Digest
  ed25519 : Ed25519

/-- What the components and the file system answer at one moment; each call reads its own field. -/
structure Seams where
  configFile : TomlFile
  isDirectory : Bool
  restricted : Bool
  keyFile : KeyFile
  /-- `fs::exists`; nothing where it reports an error. -/
  chainExists : Option Bool
  chainPresent : Result Bool
  ledgerFile : Option Bytes
  ledgerIo : LoadIo
  checkpoint : Option Bytes
  checkpointIo : CheckpointReadIo
  session : Result SessionState
  clock : Sample
  secret : Result Bytes
  instrumentsFresh : Result Unit
  instrumentsRefresh : Result Unit
  calendarFresh : Result Unit
  calendarRefresh : Result Unit
  /-- `open_or_rebuild`, and whether the projection has to be rebuilt. -/
  store : Result Bool
  orders : Result (List Order)
  endpoint : Result Unit
  runPhase : Result Unit
  alert : Result Unit

/-- A function that is handed to boot, of what there is to answer. -/
abbrev Seam (α : Type) : Type := Option (Seams → Result α)

/-- A component that is not wired is `false` or `none`. -/
structure BootDeps where
  args : BootArgs
  env : Option EnvLookup
  clock : Bool
  secrets : Bool
  alerts : Bool
  clockDetector : Option SkewStallConfig
  store : Bool
  ledger : Bool
  instruments : Bool
  calendar : Bool
  health : Bool
  sessionProbe : Seam SessionState
  startHealthEndpoint : Seam Unit
  runPhase : Seam Unit
  /-- In place of `ledgerChainPresent`. -/
  chainPresent : Seam Bool
  brokerDeps : BrokerDeps
  brokerOptions : BrokerOptions
  engineDeps : EngineDeps
  engineOptions : EngineOptions
  replayClean : Bool

/-- A call and its answer. -/
inductive Call where
  | sample (now : Sample) (status : ClockStatus)
  | readConfig (file : TomlFile)
  | makeDirectory (isDirectory : Bool)
  | restrictDirectory (restricted : Bool)
  | openStore (answer : Result Bool)
  | readKey (file : KeyFile)
  | probeChain (present : Result Bool)
  | loadLedger (file : Option Bytes) (io : LoadIo)
  | readCheckpoint (file : Option Bytes) (io : CheckpointReadIo)
  | probeSession (answer : Result SessionState)
  | getSecret (answer : Result Bytes)
  | instrumentsFresh (answer : Result Unit)
  | instrumentsRefresh (answer : Result Unit)
  | calendarFresh (answer : Result Unit)
  | calendarRefresh (answer : Result Unit)
  | allOrders (answer : Result (List Order))
  | publish (snapshot : HealthSnapshot)
  | startEndpoint (answer : Result Unit)
  | run (answer : Result Unit)
  | alert (alert : Alert) (answer : Result Unit)

/-- What a later step leaves as it was is `none` or `false` until its own step is through. -/
structure BootOutcome where
  ok : Bool
  step : BootStep
  exitClass : ExitClass
  error : Option Error
  audit : SafeStartAudit
  config : Option Config
  dataDir : Option AccountDataDir
  sessionState : Option SessionState
  broker : Option BrokerAssembly
  engine : Option EngineAssembly
  healthPublished : Bool
  healthEndpointStarted : Bool
  runPhaseEntered : Bool
  absenceAlarmFired : Bool
  absenceAlarmDelivered : Bool

/-- An outcome that nobody filled in reads as a crash. -/
def BootOutcome.initial : BootOutcome where
  ok := false
  step := .loadConfig
  exitClass := .crash
  error := none
  audit := .empty
  config := none
  dataDir := none
  sessionState := none
  broker := none
  engine := none
  healthPublished := false
  healthEndpointStarted := false
  runPhaseEntered := false
  absenceAlarmFired := false
  absenceAlarmDelivered := false

structure World where
  outcome : BootOutcome
  detector : Detector
  health : HealthState
  log : List Call

/-- A start, over a detector that may have been used before. -/
def World.start (detector : Detector) : World := ⟨.initial, detector, .init, []⟩

/-! ## Calls -/

abbrev Act (α : Type) : Type := Process Seams World α

def call {α : Type} (read : Seams → α) (event : α → Call) : Act α :=
  Process.ask fun t w => (read t, { w with log := w.log ++ [event (read t)] })

def setOutcome (f : BootOutcome → BootOutcome) : Act Unit :=
  Process.step fun w => ((), { w with outcome := f w.outcome })

/-- `detector->sample(*clock)`. -/
def sampleClock (cfg : SkewStallConfig) : Act Detector :=
  Process.ask fun t w =>
    let detector := w.detector.sample cfg t.clock
    (detector, { w with detector, log := w.log ++ [.sample t.clock detector.status] })

/-- The step that failed, how the process exits for it, and why. -/
structure Failure where
  step : BootStep
  exitClass : ExitClass
  error : Error

def failAs {α : Type} (step : BootStep) (exitClass : Error → ExitClass) (m : Act (Result α)) :
    Attempt Seams World Failure α :=
  m.mapError fun error => ⟨step, exitClass error, error⟩

def needsHuman (_ : Error) : ExitClass := .failClosedNeedsHuman

def crashes (_ : Error) : ExitClass := .crash

def demand (holds : Bool) (error : Error) : Result Unit := if holds then .ok () else .error error

/-- A component that boot cannot do without. -/
def requireWired (step : BootStep) (wired : Bool) (what : String) :
    Attempt Seams World Failure Unit :=
  failAs step needsHuman (pure (demand wired (notWired what)))

def requireSeam {α : Type} (step : BootStep) (seam : Option α) (what : String) :
    Attempt Seams World Failure α :=
  failAs step needsHuman (pure (seam.elim (.error (notWired what)) .ok))

/-! ## The safe-start checks -/

section SafeStart

variable (deps : BootDeps) (cfg : Config) (dir : AccountDataDir)

def loadedConfig (env : EnvLookup) : Act (Result Config) := do
  let file ← call Seams.configFile .readConfig
  return Config.load deps.args.configPath file env

/-- A check that reaches its implementation is recorded. -/
def instrumented (id : SafeCheckId) (inner : Option (Act (Result Unit))) (component : String) :
    SafeCheck Seams World :=
  some <|
    match inner with
    | none => pure (.error (missingComponent id (ascii component)))
    | some check => do
      setOutcome fun outcome => { outcome with audit := outcome.audit.record id }
      check

def configCheck (env : EnvLookup) : Attempt Seams World Error Unit := do
  let reloaded ← ExceptT.mk (loadedConfig deps env)
  ExceptT.mk (pure (requireConfigConsistent reloaded deps.args))
  ExceptT.mk (pure (requireConfigConsistent cfg deps.args))

/-- Of the pinned key's file at its path. -/
def readKey : Act (Result Bytes) := do
  let file ← call Seams.keyFile .readKey
  return readPinnedPublicKey file

/-- `require_crypto_keys`. -/
def cryptoKeysCheck : Attempt Seams World Error Unit := do
  ExceptT.mk (pure (demand (tokenKeySecretName dir.accountId ≠ []) noTokenKeyNameError))
  let secret ← ExceptT.mk (call Seams.secret .getSecret)
  ExceptT.mk (pure (demand (secret.length = kTokenKeyBytes) tokenKeySizeError))
  let _ ← ExceptT.mk readKey

def clockCheck (clockCfg : SkewStallConfig) : Act (Result Unit) := do
  let detector ← sampleClock clockCfg
  return demand (detector.status = .healthy) (blocking .dataStale (ascii "boot: clock is "
    ++ detector.status.toString ++ ascii " " ++ [0xE2, 0x80, 0x94] ++ ascii " " ++ detector.reason))

def sessionCheck (probe : Seams → Result SessionState) : Attempt Seams World Error Unit := do
  let state ← ExceptT.mk (call probe .probeSession)
  ExceptT.mk (pure (sessionStateToResult state))

/-- Fresh, or refreshed and then fresh. -/
def freshCheck (fresh refresh : Act (Result Unit)) : Act (Result Unit) := do
  match ← fresh with
  | .ok () => return .ok ()
  | .error _ =>
    match ← refresh with
    | .error error => return .error error
    | .ok () => fresh

/-- A projection that cannot be read is not an empty one. -/
def ordersCheck (require : List Order → Result Unit) : Attempt Seams World Error Unit := do
  let rows ← ExceptT.mk (call Seams.orders .allOrders)
  ExceptT.mk (pure (require rows))

def makeSafeStartContext : SafeStartContext Seams World where
  configCheck := instrumented .config (deps.env.map (configCheck deps cfg))
    "configuration, arguments or environment seam"
  strategyNameCheck := instrumented .strategyNames
    (some (pure (requireValidStrategyNames cfg.strategies.names))) "configuration"
  cryptoKeysCheck := instrumented .cryptoKeys
    (if deps.secrets then some (cryptoKeysCheck dir) else none) "secret provider"
  clockCheck := instrumented .clock
    (if deps.clock then deps.clockDetector.map clockCheck else none)
    "clock or skew/stall detector"
  sessionCheck := instrumented .session (deps.sessionProbe.map sessionCheck) "session probe"
  egressIpCheck := instrumented .egressIp
    (deps.env.map fun env => pure (requireEgressIpAllowed env)) "environment seam"
  instrumentMasterCheck := instrumented .instrumentMaster
    (if deps.instruments then
      some (freshCheck (call Seams.instrumentsFresh .instrumentsFresh)
        (call Seams.instrumentsRefresh .instrumentsRefresh))
    else none) "instrument master"
  calendarCheck := instrumented .calendar
    (if deps.calendar then
      some (freshCheck (call Seams.calendarFresh .calendarFresh)
        (call Seams.calendarRefresh .calendarRefresh))
    else none) "trading calendar"
  legacyStopCheck := instrumented .legacyStops
    (if deps.store then some (ordersCheck requireNoLegacyStops) else none) "order projection"
  reconciliationCheck := instrumented .reconciliation
    (if deps.store then some (ordersCheck requireNoUnreconciledOrders) else none)
    "order projection"

end SafeStart

/-! ## The ten steps -/

section Steps

variable (lib : Libraries) (deps : BootDeps)

def loadConfig : Attempt Seams World Failure (EnvLookup × Config) := do
  let env ← requireSeam .loadConfig deps.env "the environment seam"
  let cfg ← failAs .loadConfig needsHuman (loadedConfig deps env)
  setOutcome fun outcome => { outcome with config := some cfg }
  return (env, cfg)

/-- The id that the process was started for wins. -/
def accountIdOf (cfg : Config) : Bytes :=
  if deps.args.accountId = [] then cfg.engine.accountId else deps.args.accountId

def ensureDirectory : Act (Result Unit) := do
  let isDirectory ← call Seams.isDirectory .makeDirectory
  if isDirectory = false then return AccountDataDir.ensure false false
  else
    let restricted ← call Seams.restricted .restrictDirectory
    return AccountDataDir.ensure true restricted

def resolveDataDir (cfg : Config) : Attempt Seams World Failure AccountDataDir := do
  failAs .resolveDataDir needsHuman (pure (requireConfigConsistent cfg deps.args))
  let root ← failAs .resolveDataDir needsHuman (pure (resolveDataRoot cfg deps.args))
  let dir ← failAs .resolveDataDir needsHuman
    (pure (AccountDataDir.create root (accountIdOf deps cfg)))
  setOutcome fun outcome => { outcome with dataDir := some dir }
  failAs .resolveDataDir crashes ensureDirectory
  return dir

def chainProbeError : Error :=
  blocking .internal (ascii ("boot: could not determine whether the ledger chain file exists. The "
    ++ "account tree could not be probed, so this process refuses to assume there is no chain and "
    ++ "start on an empty ledger"))

/-- `ledger_chain_present`, of a path that is not empty: a failed probe is no `false`. -/
def ledgerChainPresent : Option Bool → Result Bool
  | none => .error chainProbeError
  | some present => .ok present

def probeChain : Act (Result Bool) :=
  call (deps.chainPresent.getD fun t => ledgerChainPresent t.chainExists) .probeChain

def askLedger : Act (Option Bytes × LoadIo) :=
  call (fun t => (t.ledgerFile, t.ledgerIo)) fun answer => .loadLedger answer.1 answer.2

def askCheckpoint : Act (Option Bytes × CheckpointReadIo) :=
  call (fun t => (t.checkpoint, t.checkpointIo)) fun answer => .readCheckpoint answer.1 answer.2

/-- The chain in memory, of the file that is there now. -/
def loadChain : Attempt Seams World Failure Ledger := do
  let (file, io) ← askLedger
  let (loaded, ledger) := (Ledger.create file).load lib.parser io
  failAs .openLedger needsHuman (pure loaded)
  failAs .openLedger needsHuman (pure (ledger.verifyChain lib.digest))
  return ledger

/-- Only a clean "no" is a first boot. -/
def chainInMemory (present : Bool) : Attempt Seams World Failure Ledger :=
  if present then loadChain lib else pure (Ledger.create none)

def openLedger : Attempt Seams World Failure Ledger := do
  requireWired .openLedger deps.ledger "the ledger"
  let pinned ← failAs .openLedger needsHuman readKey
  let present ← failAs .openLedger crashes (probeChain deps)
  let ledger ← chainInMemory lib present
  let (file, io) ← askCheckpoint
  failAs .openLedger needsHuman
    (pure (ledger.verifyAgainstCheckpoint lib.parser lib.ed25519 io pinned file))
  return ledger

/-- The transport's verdict on the probe is kept. -/
def establishSession : Attempt Seams World Failure SessionState := do
  let probe ← requireSeam .establishSession deps.sessionProbe "the broker session probe"
  let state ← failAs .establishSession exitClassFor (call probe .probeSession)
  setOutcome fun outcome => { outcome with sessionState := some state }
  failAs .establishSession needsHuman (pure (sessionStateToResult state))
  return state

def safeStart (cfg : Config) (dir : AccountDataDir) : Attempt Seams World Failure Unit :=
  failAs .safeStart needsHuman (makeSafeStartContext deps cfg dir).verify

def composeBroker (cfg : Config) : Attempt Seams World Failure BrokerAssembly := do
  let assembly ← failAs .composeBroker needsHuman
    (pure (makeBrokerNamed cfg.broker.name deps.brokerDeps deps.brokerOptions))
  failAs .composeBroker needsHuman (pure (assertProductionPosture assembly))
  setOutcome fun outcome => { outcome with broker := some assembly }
  return assembly

def composeEngine : Attempt Seams World Failure Unit := do
  let assembly ← failAs .composeEngine needsHuman
    (pure (makeEngine deps.engineDeps deps.engineOptions))
  setOutcome fun outcome => { outcome with engine := some assembly }

def kNoTickYet : Int64 := 9223372036854775807

/-- The orders that the count is of; none without a projection. -/
def ordersForHealth : Attempt Seams World Failure (List Order) :=
  if deps.store then failAs .publishHealth exitClassFor (call Seams.orders .allOrders) else pure []

def readDetector : Act Detector := Process.step fun w => (w.detector, w)

/-- `publish`, and what `has_published` says then. -/
def publish (snapshot : HealthSnapshot) : Act Bool :=
  Process.step fun w =>
    let health := w.health.publish snapshot
    (health.hasPublished, { w with health, log := w.log ++ [.publish snapshot] })

def notRecordedError : Error :=
  blocking .internal (ascii "boot: the health state did not record the initial snapshot")

def publishHealth (state : SessionState) : Attempt Seams World Failure Unit := do
  requireWired .publishHealth deps.health "the health state"
  let rows ← ordersForHealth deps
  let detector ← readDetector
  let published ← publish
    { sessionState := state
      heartbeatAgeMs := 0
      tickAgeMs := kNoTickYet
      inFlightCount := Int32.ofNat (rows.countP isInFlight)
      clockSane := deps.clockDetector.isSome && detector.status = .healthy
      replayClean := deps.replayClean }
  setOutcome fun outcome => { outcome with healthPublished := published }
  failAs .publishHealth crashes (pure (demand published notRecordedError))

def startHealthEndpoint : Attempt Seams World Failure Unit := do
  let start ← requireSeam .startHealthEndpoint deps.startHealthEndpoint "the health endpoint"
  failAs .startHealthEndpoint exitClassFor (call start .startEndpoint)
  setOutcome fun outcome => { outcome with healthEndpointStarted := true }

/-- The flag says that boot was complete, not that the run phase succeeded. -/
def runPhase : Attempt Seams World Failure Unit := do
  let phase ← requireSeam .run deps.runPhase "the run phase"
  setOutcome fun outcome => { outcome with runPhaseEntered := true }
  failAs .run exitClassFor (call phase .run)

def sequence : Attempt Seams World Failure Unit := do
  let (_, cfg) ← loadConfig deps
  let dir ← resolveDataDir deps cfg
  let _ ← openLedger lib deps
  let state ← establishSession deps
  safeStart deps cfg dir
  let _ ← composeBroker deps cfg
  composeEngine deps
  publishHealth deps state
  startHealthEndpoint deps
  runPhase deps

/-! ## Boot -/

def absenceMessage (failure : Failure) : Bytes :=
  ascii "broker-exec FAILED CLOSED during boot at step '" ++ failure.step.toString
    ++ ascii "' for account '" ++ deps.args.accountId ++ ascii "'. Exit "
    ++ decimal (exitCodeFor failure.exitClass).toInt
    ++ ascii (": there will be NO automatic restart and this account is now ABSENT until a "
      ++ "human intervenes. Reason: ")
    ++ failure.error.message

/-- The delivery does not change the exit class. -/
def fireAbsenceAlarm (failure : Failure) : Act Unit := do
  setOutcome fun outcome => { outcome with absenceAlarmFired := true }
  if deps.alerts then
    let alert := Alert.plain .critical (absenceMessage deps failure)
    let sent ← call Seams.alert (.alert alert)
    setOutcome fun outcome => { outcome with absenceAlarmDelivered := sent.isOk }

def failStep (failure : Failure) : Act Unit := do
  setOutcome fun outcome =>
    { outcome with
      ok := false
      step := failure.step
      exitClass := failure.exitClass
      error := some failure.error }
  if failure.exitClass = .failClosedNeedsHuman then fireAbsenceAlarm deps failure

/-- The first sample, which is healthy by construction. -/
def takeBaseline : Act Unit := do
  if deps.clock then
    match deps.clockDetector with
    | none => return
    | some cfg =>
      let _ ← sampleClock cfg

def boot : Act Unit := do
  takeBaseline deps
  match ← (sequence lib deps).run with
  | .error failure => failStep deps failure
  | .ok () =>
    setOutcome fun outcome => { outcome with ok := true, step := .run, exitClass := .clean }

end Steps

end BrokerExec.Boot
