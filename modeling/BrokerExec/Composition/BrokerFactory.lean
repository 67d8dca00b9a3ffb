import BrokerExec.Capabilities
import BrokerExec.Lib.Except

/-!
# The broker factory (`composition/broker_factory.cpp`)

`makeBroker` hands out a port only over a profile that admits what its caller declares, and the port
asks the profile again at every mutation.

* **`forwarded_iff`** — in production, a mutation reaches an adapter exactly for the broker that is
  certified for it.
-/

namespace BrokerExec.Composition

open BrokerExec.Capabilities (Capability CapabilitySet kiteCapabilities kotakCapabilities neededBy)
open BrokerExec.Errors (Error makeError)
open BrokerExec.Ports (BrokerCall)

inductive BrokerChoice where
  | kite
  | kotak
  deriving DecidableEq

def BrokerChoice.toString : BrokerChoice → Bytes
  | .kite => ascii "kite"
  | .kotak => ascii "kotak"

def isAsciiAlpha (c : UInt8) : Bool := (97 ≤ c && c ≤ 122) || (65 ≤ c && c ≤ 90)

def kMaxEchoedValueChars : Nat := 16

/-- A value that cannot be a secret is shown, any other described. -/
def safeEcho (raw : Bytes) : Bytes :=
  if raw = [] then ascii "<empty>"
  else if raw.length ≤ kMaxEchoedValueChars && raw.all isAsciiAlpha then raw
  else ascii "<invalid broker name, " ++ decimal raw.length ++ ascii " chars>"

def factoryError (message : Bytes) : Error :=
  { makeError .validation message with action := .doNotRetry }

/-- Exact match only. -/
def parseBrokerChoice (name : Bytes) : Result BrokerChoice :=
  if name = BrokerChoice.kite.toString then .ok .kite
  else if name = BrokerChoice.kotak.toString then .ok .kotak
  else .error (factoryError (ascii "composition: config broker.name is not a supported broker: '"
    ++ safeEcho name ++ ascii "' (expected exactly \"" ++ BrokerChoice.kite.toString
    ++ ascii "\" or \"" ++ BrokerChoice.kotak.toString ++ ascii "\", case-sensitive)"))

def realCapabilities : BrokerChoice → CapabilitySet
  | .kite => kiteCapabilities
  | .kotak => kotakCapabilities

/-- What is wired; of a wired component the factory only keeps the reference. -/
structure BrokerDeps where
  kiteHttp : Bool
  kiteSecrets : Bool
  kiteApiKeySecret : Bytes
  kiteAccessTokenSecret : Bytes
  kotakHttp : Bool
  kotakSession : Bool

structure BrokerOptions where
  requiredCapabilities : List Capability
  declaresNoCapabilities : Bool
  /-- The profile that a test fixture asserts. -/
  capabilityOverride : Option CapabilitySet

def validateDeps (choice : BrokerChoice) (deps : BrokerDeps) : Result Unit :=
  match choice with
  | .kite =>
    if deps.kiteHttp = false then
      .error (factoryError
        (ascii "composition: broker \"kite\" requires BrokerDeps::kite_http (HTTP transport)"))
    else if deps.kiteSecrets = false then
      .error (factoryError
        (ascii "composition: broker \"kite\" requires BrokerDeps::kite_secrets (SecretProvider)"))
    else if deps.kiteApiKeySecret = [] ∨ deps.kiteAccessTokenSecret = [] then
      .error (factoryError (ascii ("composition: broker \"kite\" requires non-empty "
        ++ "api_key/access_token secret NAMES")))
    else .ok ()
  | .kotak =>
    if deps.kotakHttp = false then
      .error (factoryError
        (ascii "composition: broker \"kotak\" requires BrokerDeps::kotak_http (HTTP transport)"))
    else if deps.kotakSession = false then
      .error (factoryError (ascii
        "composition: broker \"kotak\" requires BrokerDeps::kotak_session (bundle provider)"))
    else .ok ()

/-- Silence is not a declaration. -/
def validateDeclaration (options : BrokerOptions) : Result Unit :=
  if options.requiredCapabilities ≠ [] then .ok ()
  else if options.declaresNoCapabilities then .ok ()
  else .error (factoryError (ascii ("composition: BrokerOptions::required_capabilities is empty ")
    ++ [0xE2, 0x80, 0x94] ++ ascii (" declare what this component "
    ++ "needs from the broker (an empty list would pass the capability gate vacuously and hand "
    ++ "back an UNGATED port). If it genuinely performs no mutation, set "
    ++ "BrokerOptions::declares_no_capabilities = true.")))

/-- What only the factory builds: without an override, the profile is the broker's own. -/
structure BrokerAssembly where
  choice : BrokerChoice
  capabilities : CapabilitySet
  overrideInEffect : Bool
  own : overrideInEffect = false → capabilities = realCapabilities choice

def makeBroker (choice : BrokerChoice) (deps : BrokerDeps) (options : BrokerOptions) :
    Result BrokerAssembly := do
  validateDeclaration options
  let profile := options.capabilityOverride.getD (realCapabilities choice)
  profile.requireAll options.requiredCapabilities
  validateDeps choice deps
  return {
    choice
    capabilities := profile
    overrideInEffect := options.capabilityOverride.isSome
    own := by
      intro hnone
      rw [Option.isSome_eq_false_iff, Option.isNone_iff_eq_none] at hnone
      show options.capabilityOverride.getD _ = _
      rw [hnone, Option.getD_none] }

/-- `make_broker`, of the configured name. -/
def makeBrokerNamed (name : Bytes) (deps : BrokerDeps) (options : BrokerOptions) :
    Result BrokerAssembly := do
  makeBroker (← parseBrokerChoice name) deps options

def assertProductionPosture (assembly : BrokerAssembly) : Result Unit :=
  if assembly.overrideInEffect then
    .error (factoryError (ascii ("composition: this BrokerAssembly was composed with a "
      ++ "FixtureCertification ") ++ [0xE2, 0x80, 0x94] ++ ascii (" its capabilities are a TEST "
      ++ "FIXTURE assertion, not a broker's certified profile. A process that can reach a live "
      ++ "broker must not start on one.")))
  else .ok ()

/-- `require_capabilities`: no answer from a fixture. -/
def requireCapabilities (assembly : BrokerAssembly) (required : List Capability) : Result Unit := do
  assertProductionPosture assembly
  assembly.capabilities.requireAll required

/-- One call on the owned port: what reaches the adapter, or the refusal. -/
def BrokerAssembly.call (assembly : BrokerAssembly) (call : BrokerCall) : Result BrokerCall :=
  match neededBy call with
  | none => .ok call
  | some capability => do
    assembly.capabilities.require capability
    return call

/-! ## What a production assembly does -/

section

variable {choice : BrokerChoice} {deps : BrokerDeps} {options : BrokerOptions}
  {assembly : BrokerAssembly}

theorem makeBroker_ok (h : makeBroker choice deps options = .ok assembly) :
    assembly.choice = choice
      ∧ (∀ c ∈ options.requiredCapabilities, assembly.capabilities.supports c = true)
      ∧ (options.requiredCapabilities = [] → options.declaresNoCapabilities = true) := by
  unfold makeBroker at h
  obtain ⟨_, hdeclared, h⟩ := Steps.bind_eq_ok.mp h
  obtain ⟨_, hgate, h⟩ := Steps.bind_eq_ok.mp h
  obtain ⟨_, -, h⟩ := Steps.bind_eq_ok.mp h
  cases h
  refine ⟨rfl, Capabilities.requireAll_ok_iff.mp hgate, fun hnone => ?_⟩
  unfold validateDeclaration at hdeclared
  rw [hnone] at hdeclared
  by_contra hsilent
  simp [hsilent] at hdeclared

theorem posture_ok (h : assertProductionPosture assembly = .ok ()) :
    assembly.capabilities = realCapabilities assembly.choice := by
  unfold assertProductionPosture at h
  split_ifs at h with hoverride
  exact assembly.own (by simpa using hoverride)

theorem parseBrokerChoice_ok {name : Bytes} (h : parseBrokerChoice name = .ok choice) :
    choice = .kite ↔ name = ascii "kite" := by
  unfold parseBrokerChoice at h
  split_ifs at h with hkite hkotak
  · cases h
    exact iff_of_true rfl hkite
  · cases h
    exact iff_of_false nofun hkite

/-- What the profile of a broker lets through. -/
theorem realCapabilities_call (call : BrokerCall) {capability : Capability}
    (hneeded : neededBy call = some capability) :
    (realCapabilities choice).supports capability = true ↔ choice = .kite := by
  cases choice with
  | kite => exact iff_of_true (Capabilities.kite_supports_needed hneeded) rfl
  | kotak => cases capability <;> decide

/-- **What reaches the adapter of a production assembly**: every read, and a mutation exactly where the
configuration names the certified broker, whatever its caller has declared. -/
theorem forwarded_iff {name : Bytes} (hmade : makeBrokerNamed name deps options = .ok assembly)
    (hposture : assertProductionPosture assembly = .ok ()) (call : BrokerCall) :
    assembly.call call = .ok call ↔ call.isMutation = false ∨ name = ascii "kite" := by
  obtain ⟨choice, hchoice, hmade⟩ := Steps.bind_eq_ok.mp hmade
  obtain ⟨rfl, -, -⟩ := makeBroker_ok hmade
  rw [← parseBrokerChoice_ok hchoice, ← Capabilities.neededBy_isSome]
  unfold BrokerAssembly.call
  cases hneeded : neededBy call with
  | none => exact iff_of_true rfl (.inl rfl)
  | some capability =>
    have hcall : (do assembly.capabilities.require capability; return call : Result BrokerCall)
        = .ok call ↔ assembly.capabilities.supports capability = true := by
      rw [← Capabilities.require_ok_iff]
      refine ⟨fun h => ?_, fun h => Steps.bind_eq_ok.mpr ⟨(), h, rfl⟩⟩
      obtain ⟨_, hrequire, -⟩ := Steps.bind_eq_ok.mp h
      exact hrequire
    refine hcall.trans ?_
    rw [posture_ok hposture, realCapabilities_call call hneeded]
    simp

/-- Kotak, for a caller that only reads. -/
def kotakReader : Result BrokerAssembly :=
  makeBrokerNamed (ascii "kotak") ⟨false, false, [], [], true, true⟩ ⟨[], true, none⟩

theorem forwarded_iff_kotak :
    ∃ assembly, kotakReader = .ok assembly
      ∧ (assembly.call (.cancel (ascii "1")) = .ok (.cancel (ascii "1"))
        ↔ (BrokerCall.cancel (ascii "1")).isMutation = false ∨ ascii "kotak" = ascii "kite") := by
  have hmade : kotakReader = .ok ⟨.kotak, kotakCapabilities, false, fun _ => rfl⟩ := by rfl
  exact ⟨_, hmade, forwarded_iff hmade (by rfl) _⟩

end

end BrokerExec.Composition
