import BrokerExec.Config.Toml
import BrokerExec.Domain.StrategyName
import BrokerExec.Lib.Except
import BrokerExec.Refdata.InstrumentCsv

/-!
# Loading the configuration (`config/config.cpp`)

Built-in defaults, the file over them, the environment over both, and a check of the whole. The file
system and `toml++` answer what they make of the path.
-/

namespace BrokerExec.Config

inductive RunProfile where
  | dryRun
  | paper
  | live
  | replay
  deriving DecidableEq

inductive LogLevel where
  | trace
  | debug
  | info
  | warn
  | error
  deriving DecidableEq

structure EngineConfig where
  mode : RunProfile
  accountId : Bytes
  deriving DecidableEq

structure BrokerConfig where
  name : Bytes
  baseUrl : Bytes
  timeoutMs : Int64
  deriving DecidableEq

structure RiskConfig where
  maxOrderValuePaise : Int64
  maxOpenPositions : Int64
  deriving DecidableEq

structure PathsConfig where
  dataDir : Bytes
  logDir : Bytes
  deriving DecidableEq

structure LoggingConfig where
  level : LogLevel
  deriving DecidableEq

structure StrategiesConfig where
  names : List Bytes
  deriving DecidableEq

end BrokerExec.Config

namespace BrokerExec

structure Config where
  engine : Config.EngineConfig
  broker : Config.BrokerConfig
  risk : Config.RiskConfig
  paths : Config.PathsConfig
  logging : Config.LoggingConfig
  strategies : Config.StrategiesConfig
  deriving DecidableEq

end BrokerExec

namespace BrokerExec.Config

open BrokerExec.Domain (explainInvalidStrategyName isValidStrategyName signed toLowerAscii)
open BrokerExec.Errors (Error makeError)
open BrokerExec.Refdata (comma readMinus)

abbrev EnvLookup := Bytes → Option Bytes

/-- A field and the table it stands in. -/
structure Field where
  table : Bytes
  name : Bytes
  deriving DecidableEq

def field (table name : String) : Field := ⟨ascii table, ascii name⟩

/-- `field_error`. -/
def Field.error (f : Field) (reason : Bytes) : Error :=
  makeError .validation
    (ascii "config: field '" ++ f.table ++ ascii "." ++ f.name ++ ascii "' " ++ reason)

def toUpperAscii (c : UInt8) : UInt8 := if 97 ≤ c ∧ c ≤ 122 then c - 97 + 65 else c

/-- `env_key`: `BROKER_EXEC_<SECTION>_<FIELD>`. -/
def Field.envKey (f : Field) : Bytes :=
  ascii "BROKER_EXEC_" ++ f.table.map toUpperAscii ++ ascii "_" ++ f.name.map toUpperAscii

/-- `table[section][field]`. -/
def nodeAt (table : Table) (f : Field) : Option Node :=
  match table.lookup f.table with
  | some (.table members) => members.lookup f.name
  | _ => none

/-! ## One field -/

/-- What the file says of a field, or the default. -/
def fileLayer {α : Type} (table : Table) (f : Field) (out : α) (read : Node → Result α) : Result α :=
  match nodeAt table f with
  | none => .ok out
  | some node => read node

/-- The environment is read behind the file. -/
def overlay {α : Type} (file : Result α) (env : Option Bytes) (read : Bytes → Result α) :
    Result α := do
  let out ← file
  match env with
  | none => .ok out
  | some text => read text

def textOf (reason : Bytes) (f : Field) : Node → Result (Option Bytes)
  | .string value => .ok (some value)
  | _ => .error (f.error reason)

/-- A string of the file, under the string of the environment. -/
def applyText (reason : Bytes) (table : Table) (env : EnvLookup) (f : Field) :
    Result (Option Bytes) :=
  overlay (fileLayer table f none (textOf reason f)) (env f.envKey) fun value => .ok (some value)

def applyString (table : Table) (env : EnvLookup) (f : Field) (out : Bytes) : Result Bytes := do
  let raw ← applyText (ascii "must be a string") table env f
  return raw.getD out

/-- `std::from_chars` of a whole text. -/
def fromChars (text : Bytes) : Option Int64 :=
  let (negative, digits) := readMinus text
  if digits = [] ∨ digits.all isDigit = false then none
  else
    let value := signed negative (digitsValue digits)
    if FitsInt64 value then some (Int64.ofInt value) else none

/-- A boolean or a whole float is no integer. -/
def int64Of (f : Field) : Node → Result Int64
  | .integer value => .ok value
  | node => .error (f.error (ascii "must be an integer, not " ++ node.typeName))

def applyInt64 (table : Table) (env : EnvLookup) (f : Field) (out : Int64) : Result Int64 :=
  overlay (fileLayer table f out (int64Of f)) (env f.envKey) fun text =>
    match fromChars text with
    | none => .error (f.error (ascii "must be an integer"))
    | some value => .ok value

def applyPath (table : Table) (env : EnvLookup) (f : Field) (out : Bytes) : Result Bytes := do
  match ← applyText (ascii "must be a string path") table env f with
  | none => .ok out
  | some raw =>
    if 0 ∈ raw then .error (f.error (ascii "is not a well-formed path"))
    else .ok raw

def isBlankByte (c : UInt8) : Bool := c == 0x20 || c == 0x09

def trimBlanks (text : Bytes) : Bytes :=
  ((text.dropWhile isBlankByte).reverse.dropWhile isBlankByte).reverse

/-- The loop over the commas: one blank variable is the empty list, a blank entry between commas
stays. -/
def envList (text : Bytes) : List Bytes :=
  let entries := (text.splitOn comma).map trimBlanks
  if entries = [[]] then [] else entries

def stringOf (f : Field) : Node → Result Bytes
  | .string value => .ok value
  | _ => .error (f.error (ascii "must be an array of strings"))

def namesOf (f : Field) : Node → Result (List Bytes)
  | .array elements => elements.mapM (stringOf f)
  | _ => .error (f.error (ascii "must be an array of strings"))

/-- The environment replaces the whole list. -/
def applyStringList (table : Table) (env : EnvLookup) (f : Field) (out : List Bytes) :
    Result (List Bytes) :=
  overlay (fileLayer table f out (namesOf f)) (env f.envKey) fun text => .ok (envList text)

def equalsCi (a b : Bytes) : Bool := a.map toLowerAscii = b.map toLowerAscii

def parseRunProfile (text : Bytes) : Option RunProfile :=
  if equalsCi text (ascii "dry-run") || equalsCi text (ascii "dryrun")
      || equalsCi text (ascii "dry_run") then some .dryRun
  else if equalsCi text (ascii "paper") then some .paper
  else if equalsCi text (ascii "live") then some .live
  else if equalsCi text (ascii "replay") then some .replay
  else none

def parseLogLevel (text : Bytes) : Option LogLevel :=
  if equalsCi text (ascii "trace") then some .trace
  else if equalsCi text (ascii "debug") then some .debug
  else if equalsCi text (ascii "info") then some .info
  else if equalsCi text (ascii "warn") || equalsCi text (ascii "warning") then some .warn
  else if equalsCi text (ascii "error") then some .error
  else none

/-- `apply_run_profile` and `apply_log_level`. -/
def applyNamed {α : Type} (parse : Bytes → Option α) (reason : Bytes) (table : Table)
    (env : EnvLookup) (f : Field) (out : α) : Result α := do
  match ← applyText (ascii "must be a string") table env f with
  | none => .ok out
  | some raw =>
    match parse raw with
    | none => .error (f.error reason)
    | some value => .ok value

def applyRunProfile : Table → EnvLookup → Field → RunProfile → Result RunProfile :=
  applyNamed parseRunProfile (ascii "is not a valid mode (expected dry-run|paper|live|replay)")

def applyLogLevel : Table → EnvLookup → Field → LogLevel → Result LogLevel :=
  applyNamed parseLogLevel (ascii "is not a valid level (expected trace|debug|info|warn|error)")

/-! ## The whole -/

def requireThat (f : Field) (holds : Bool) (reason : Bytes) : Result Unit :=
  if holds then .ok () else .error (f.error reason)

/-- The first name that is not valid, with its place. -/
def validateNames : Nat → List Bytes → Result Unit
  | _, [] => .ok ()
  | i, name :: rest =>
    if explainInvalidStrategyName name = [] then validateNames (i + 1) rest
    else
      .error ((field "strategies" "names").error (ascii "entry #" ++ decimal (i + 1)
        ++ ascii " is invalid: " ++ explainInvalidStrategyName name))

def validate (cfg : Config) : Result Unit := do
  requireThat (field "engine" "account_id") (cfg.engine.accountId ≠ []) (ascii "is required")
  requireThat (field "broker" "name") (cfg.broker.name ≠ []) (ascii "is required")
  requireThat (field "broker" "timeout_ms") (cfg.broker.timeoutMs > 0) (ascii "must be > 0")
  requireThat (field "risk" "max_order_value_paise") (cfg.risk.maxOrderValuePaise ≥ 0)
    (ascii "must be >= 0")
  requireThat (field "risk" "max_open_positions") (cfg.risk.maxOpenPositions ≥ 0)
    (ascii "must be >= 0")
  requireThat (field "paths" "data_dir") (cfg.paths.dataDir ≠ []) (ascii "is required")
  validateNames 0 cfg.strategies.names

/-- The two layers, field by field, on the built-in defaults. -/
def applyLayers (table : Table) (env : EnvLookup) : Result Config := do
  let mode ← applyRunProfile table env (field "engine" "mode") .dryRun
  let accountId ← applyString table env (field "engine" "account_id") []
  let name ← applyString table env (field "broker" "name") []
  let baseUrl ← applyString table env (field "broker" "base_url") []
  let timeoutMs ← applyInt64 table env (field "broker" "timeout_ms") 5000
  let maxOrderValuePaise ← applyInt64 table env (field "risk" "max_order_value_paise") 0
  let maxOpenPositions ← applyInt64 table env (field "risk" "max_open_positions") 0
  let dataDir ← applyPath table env (field "paths" "data_dir") []
  let logDir ← applyPath table env (field "paths" "log_dir") []
  let level ← applyLogLevel table env (field "logging" "level") .info
  let names ← applyStringList table env (field "strategies" "names") []
  return ⟨⟨mode, accountId⟩, ⟨name, baseUrl, timeoutMs⟩, ⟨maxOrderValuePaise, maxOpenPositions⟩,
    ⟨dataDir, logDir⟩, ⟨level⟩, ⟨names⟩⟩

/-- What the file system and the parser make of the path. -/
inductive TomlFile where
  | absent
  | malformed (description : Bytes)
  | parsed (table : Table)

def readTable (tomlPath : Bytes) (file : TomlFile) : Result Table :=
  if tomlPath = [] then .ok []
  else
    match file with
    | .absent =>
      .error (makeError .validation (ascii "config: TOML file not found: " ++ tomlPath))
    | .malformed description =>
      .error (makeError .validation (ascii "config: TOML parse error: " ++ description))
    | .parsed table =>
      match scanSecrets [] table with
      | some error => .error error
      | none => .ok table

def load (tomlPath : Bytes) (file : TomlFile) (env : EnvLookup) : Result Config := do
  let table ← readTable tomlPath file
  let cfg ← applyLayers table env
  validate cfg
  return cfg

end BrokerExec.Config
