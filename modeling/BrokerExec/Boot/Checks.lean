import BrokerExec.Accounts.DataDir
import BrokerExec.Composition.BrokerFactory
import BrokerExec.Config.Layers
import BrokerExec.Ledger.Checkpoint
import BrokerExec.Session.SafeStart

/-!
# The checks of a boot (`boot/boot_checks.cpp`)

What boot compares by itself: the account and the roots, the pinned key, the token key, the egress
address, and the orders that the projection left open.
-/

namespace BrokerExec.Boot

open BrokerExec.Accounts (canonicalForm)
open BrokerExec.Composition (parseBrokerChoice)
open BrokerExec.Config (EnvLookup isBlankByte trimBlanks)
open BrokerExec.Domain (Order OrderState)
open BrokerExec.Errors (Error ErrorCategory makeError)
open BrokerExec.Refdata (comma)
open BrokerExec.Session (refText)

structure BootArgs where
  accountId : Bytes
  configPath : Bytes
  dataRoot : Bytes

/-- A refusal that has to halt the process. -/
def blocking (category : ErrorCategory) (message : Bytes) : Error :=
  { makeError category message with action := .blockStrategy }

/-! ## The ten checks by name -/

inductive SafeCheckId where
  | config
  | strategyNames
  | cryptoKeys
  | clock
  | session
  | egressIp
  | instrumentMaster
  | calendar
  | legacyStops
  | reconciliation
  deriving DecidableEq

def SafeCheckId.toString : SafeCheckId → Bytes
  | .config => ascii "config"
  | .strategyNames => ascii "strategy-names"
  | .cryptoKeys => ascii "crypto-keys"
  | .clock => ascii "clock"
  | .session => ascii "session"
  | .egressIp => ascii "egress-IP"
  | .instrumentMaster => ascii "instrument-master"
  | .calendar => ascii "calendar"
  | .legacyStops => ascii "legacy-stops"
  | .reconciliation => ascii "reconciliation"

def SafeCheckId.all : List SafeCheckId :=
  [.config, .strategyNames, .cryptoKeys, .clock, .session, .egressIp, .instrumentMaster, .calendar,
    .legacyStops, .reconciliation]

def missingComponent (id : SafeCheckId) (component : Bytes) : Error :=
  blocking .internal (ascii "boot: the " ++ id.toString ++ ascii " check has no " ++ component
    ++ ascii " to consult (composition fault: the component was not wired)")

/-- How often each check reached its implementation. -/
structure SafeStartAudit where
  count : SafeCheckId → Nat

namespace SafeStartAudit

def empty : SafeStartAudit := ⟨fun _ => 0⟩

def record (audit : SafeStartAudit) (id : SafeCheckId) : SafeStartAudit :=
  ⟨fun i => if i = id then audit.count i + 1 else audit.count i⟩

def firstMissing (audit : SafeStartAudit) : Option SafeCheckId :=
  SafeCheckId.all.find? fun id => audit.count id = 0

def allInvoked (audit : SafeStartAudit) : Bool := audit.firstMissing.isNone

theorem allInvoked_iff {audit : SafeStartAudit} :
    audit.allInvoked = true ↔ ∀ id, audit.count id ≠ 0 := by
  have hall : ∀ id, id ∈ SafeCheckId.all := by
    intro id
    cases id <;> decide
  unfold allInvoked firstMissing
  rw [Option.isNone_iff_eq_none, List.find?_eq_none]
  constructor
  · intro h id
    simpa using h id (hall id)
  · intro h id _
    simpa using h id

end SafeStartAudit

/-! ## The account and the roots -/

def tokenKeySecretName (accountId : Bytes) : Bytes := accountId ++ ascii ".token_key"

/-- `comparable_path`, as its components. -/
def comparablePath (path : Bytes) : List Bytes := canonicalForm path

def noDataRootError : Error :=
  blocking .validation
    (ascii "boot: no data root " ++ [0xE2, 0x80, 0x94]
      ++ ascii " set config paths.data_dir or pass --data-root")

def requireConfigConsistent (cfg : Config) (args : BootArgs) : Result Unit :=
  if cfg.engine.accountId = [] then
    .error (blocking .validation (ascii "boot: config engine.account_id is empty "
      ++ [0xE2, 0x80, 0x94] ++ ascii (" the per-account data tree, the token-store key name and "
      ++ "the ledger all key off it")))
  else if args.accountId ≠ [] ∧ cfg.engine.accountId ≠ args.accountId then
    .error (blocking .validation (ascii ("boot: the account this process was started for does not "
      ++ "match config engine.account_id ") ++ [0xE2, 0x80, 0x94]
      ++ ascii (" this binary would open a DIFFERENT account's data tree than its configuration "
      ++ "describes. Check the systemd instance name (%i) against the configuration file")))
  else
    match parseBrokerChoice cfg.broker.name with
    | .error error => .error error
    | .ok _ =>
      if cfg.paths.dataDir = [] ∧ args.dataRoot = [] then .error noDataRootError else .ok ()

def resolveDataRoot (cfg : Config) (args : BootArgs) : Result Bytes :=
  if args.dataRoot = [] ∧ cfg.paths.dataDir = [] then .error noDataRootError
  else if args.dataRoot ≠ [] ∧ cfg.paths.dataDir ≠ []
      ∧ comparablePath args.dataRoot ≠ comparablePath cfg.paths.dataDir then
    .error (blocking .validation (ascii ("boot: --data-root and config paths.data_dir name "
      ++ "different directories; they must agree (they select the tree holding the intent log, the "
      ++ "projection, the token store and the ledger)")))
  else .ok (if args.dataRoot ≠ [] then args.dataRoot else cfg.paths.dataDir)

/-! ## Keys -/

def kTokenKeyBytes : Nat := 32

def kEd25519PublicKeyBytes : Nat := 32

/-- What opening and reading the pinned key's file gives. -/
inductive KeyFile where
  | missing
  | broken
  | text (bytes : Bytes)

def isKeyWhitespace (c : UInt8) : Bool := c == 0x0A || c == 0x0D || c == 0x20 || c == 0x09

/-- Of a path that is not empty; the hex loop is the ledger's. -/
def readPinnedPublicKey : KeyFile → Result Bytes
  | .missing =>
    .error (blocking .validation (ascii ("boot: the pinned ledger public key is missing. It anchors "
      ++ "the ledger's truncation/rollback detection and must be provisioned out-of-band as "
      ++ "ledger_public_key.hex under the account directory (see ledger.hpp's trust model)")))
  | .broken =>
    .error (blocking .internal (ascii "boot: failed to read the pinned ledger public key file"))
  | .text bytes =>
    let text := bytes.filter fun c => !isKeyWhitespace c
    if text.length ≠ kEd25519PublicKeyBytes * 2 then
      .error (blocking .validation (ascii "boot: the pinned ledger public key must be exactly "
        ++ decimal kEd25519PublicKeyBytes ++ ascii " bytes of hex (Ed25519 raw public key)"))
    else
      match Ledger.fromHex text with
      | none =>
        .error (blocking .validation (ascii "boot: the pinned ledger public key is not valid hex"))
      | some key => .ok key

def noTokenKeyNameError : Error :=
  blocking .internal (ascii "boot: no token-store key name was derived for this account")

def tokenKeySizeError : Error :=
  blocking .validation (ascii "boot: the per-account token-store key must be "
    ++ decimal kTokenKeyBytes
    ++ ascii " bytes (AES-256); the configured secret is a different size")

/-! ## The egress address -/

def kEgressIpEnv : Bytes := ascii "BROKER_EXEC_EGRESS_IP"

def kEgressAllowlistEnv : Bytes := ascii "BROKER_EXEC_EGRESS_IP_ALLOWLIST"

/-- An entry that is not blank and is the address. -/
def isListed (allowlist current : Bytes) : Bool :=
  (allowlist.splitOn comma).any fun entry => trimBlanks entry ≠ [] ∧ trimBlanks entry = current

def requireEgressIpAllowed (env : EnvLookup) : Result Unit :=
  let observed := (env kEgressIpEnv).getD []
  let allowlist := (env kEgressAllowlistEnv).getD []
  if trimBlanks observed = [] then
    .error (blocking .validation (ascii "boot: " ++ kEgressIpEnv
      ++ ascii (" is not set, so the egress address this deployment presents to the broker is "
        ++ "unknown. A world we cannot verify is not a world we trade in ") ++ [0xE2, 0x80, 0x94]
      ++ ascii " set it from the out-of-band probe"))
  else if trimBlanks allowlist = [] then
    .error (blocking .validation (ascii "boot: " ++ kEgressAllowlistEnv
      ++ ascii " is not set. An empty allow-list is not 'allow everything' " ++ [0xE2, 0x80, 0x94]
      ++ ascii " it is an unconfigured check, and it blocks the start"))
  else if isListed allowlist (trimBlanks observed) then .ok ()
  else
    .error (blocking .validation (ascii "boot: the observed egress address (" ++ kEgressIpEnv
      ++ ascii ") is not in " ++ kEgressAllowlistEnv
      ++ ascii (". Orders from an unregistered address are rejected by the broker or, worse, "
        ++ "accepted from the wrong host")))

/-! ## Orders -/

def isUnreconciled (order : Order) : Bool :=
  match order.state with
  | .pendingSend | .sent | .unknown | .partiallyPlaced | .manualInterventionRequired => true
  | .created | .validated | .acknowledged | .partiallyFilled | .filled | .rejected | .cancelled
  | .reconciled => false

/-- The state beside the first reference that is not empty: of the last order up to it, where the
first ones have none. -/
def firstStuck : Bytes × Bytes → List Order → Bytes × Bytes
  | found, [] => found
  | (ref, state), order :: rest =>
    if ref = [] then firstStuck (order.intent.clientRef, order.state.toString) rest
    else firstStuck (ref, state) rest

def requireNoUnreconciledOrders (orders : List Order) : Result Unit :=
  let stuck := orders.filter isUnreconciled
  if stuck.length = 0 then .ok ()
  else
    let (ref, state) := firstStuck ([], []) stuck
    .error (blocking .validation (ascii "boot: the projection holds " ++ decimal stuck.length
      ++ ascii " order(s) whose send result was never confirmed (first state "
      ++ (if state = [] then ascii "unknown" else state)
      ++ ascii ("). Trading on top of one is the duplicate-order hazard this library exists to "
        ++ "prevent: it must be resolved against broker truth before a start. First: ")
      ++ refText ref))

def isInFlight (order : Order) : Bool :=
  match order.state with
  | .filled | .rejected | .cancelled => false
  | .created | .validated | .pendingSend | .sent | .acknowledged | .partiallyFilled | .unknown
  | .reconciled | .partiallyPlaced | .manualInterventionRequired => true

/-! ## What a check that passes says -/

section

variable {cfg : Config} {args : BootArgs}

/-- The account and the broker that a consistent configuration names. -/
structure Consistent (cfg : Config) (args : BootArgs) : Prop where
  account : args.accountId = [] ∨ cfg.engine.accountId = args.accountId
  broker : ∃ choice, parseBrokerChoice cfg.broker.name = .ok choice

theorem requireConfigConsistent_ok (h : requireConfigConsistent cfg args = .ok ()) :
    Consistent cfg args := by
  unfold requireConfigConsistent at h
  cases hchoice : parseBrokerChoice cfg.broker.name with
  | error e =>
    rw [hchoice] at h
    split_ifs at h
  | ok choice =>
    rw [hchoice] at h
    split_ifs at h with _ haccount
    rw [not_and_or, not_not, not_not] at haccount
    exact ⟨haccount, choice, hchoice⟩

/-- Both names of the root mean one directory. -/
theorem resolveDataRoot_ok {root : Bytes} (h : resolveDataRoot cfg args = .ok root) :
    (args.dataRoot = [] ∨ comparablePath root = comparablePath args.dataRoot)
      ∧ (cfg.paths.dataDir = [] ∨ comparablePath root = comparablePath cfg.paths.dataDir) := by
  unfold resolveDataRoot at h
  split_ifs at h with hnone hdiffer harg <;> cases h
  · refine ⟨.inr rfl, ?_⟩
    by_cases hdir : cfg.paths.dataDir = []
    · exact .inl hdir
    · exact .inr (by_contra fun hne => hdiffer ⟨harg, hdir, hne⟩)
  · exact ⟨.inl (by simpa using harg), .inr rfl⟩

theorem readPinnedPublicKey_length {file : KeyFile} {key : Bytes}
    (h : readPinnedPublicKey file = .ok key) : key.length = kEd25519PublicKeyBytes := by
  cases file with
  | missing => cases h
  | broken => cases h
  | text bytes =>
    unfold readPinnedPublicKey at h
    dsimp only at h
    split_ifs at h with hlength
    rw [not_not] at hlength
    cases hkey : Ledger.fromHex (bytes.filter fun c => !isKeyWhitespace c) with
    | none =>
      rw [hkey] at h
      cases h
    | some key' =>
      rw [hkey] at h
      cases h
      have htwice := Ledger.length_of_fromHex hkey
      omega

/-- The address is one of the entries. -/
theorem requireEgressIpAllowed_ok {env : EnvLookup} (h : requireEgressIpAllowed env = .ok ()) :
    ∃ observed allowlist, env kEgressIpEnv = some observed
      ∧ env kEgressAllowlistEnv = some allowlist ∧ trimBlanks observed ≠ []
      ∧ ∃ entry ∈ allowlist.splitOn comma, trimBlanks entry = trimBlanks observed := by
  unfold requireEgressIpAllowed at h
  dsimp only at h
  split_ifs at h with hobserved hallowlist hlisted
  cases hip : env kEgressIpEnv with
  | none => exact absurd (by rw [hip]; decide) hobserved
  | some observed =>
    cases hlist : env kEgressAllowlistEnv with
    | none => exact absurd (by rw [hlist]; decide) hallowlist
    | some allowlist =>
      rw [hip, hlist] at hlisted
      rw [hip] at hobserved
      simp only [Option.getD_some, isListed, List.any_eq_true, decide_eq_true_eq] at hlisted
      obtain ⟨entry, hentry, -, hsame⟩ := hlisted
      exact ⟨observed, allowlist, rfl, rfl, hobserved, entry, hentry, hsame⟩

theorem requireNoUnreconciledOrders_ok_iff {orders : List Order} :
    requireNoUnreconciledOrders orders = .ok () ↔ ∀ o ∈ orders, isUnreconciled o = false := by
  unfold requireNoUnreconciledOrders
  simp

end

end BrokerExec.Boot
