import BrokerExec.Ports

/-!
# Broker capabilities (`capabilities/capabilities.cpp`, `adapters/kotak/kotak_capabilities.cpp`)

A profile says for each capability whether the broker is certified for it. What is not certified is
unknown, and the gate reads unknown as unsupported.
-/

namespace BrokerExec.Capabilities

open BrokerExec.Errors (Error makeError)
open BrokerExec.Ports (BrokerCall)

inductive Capability where
  | placeOrder
  | modifyOrder
  | cancelOrder
  | squareOff
  | basketMargin
  | orderUpdateWebsocket
  | headlessSessionRefresh
  | gttOrders
  | amoOrders
  | coverOrder
  | bracketOrder
  | tagCarry
  | marginShockSim
  deriving DecidableEq

def Capability.toString : Capability → Bytes
  | .placeOrder => ascii "place_order"
  | .modifyOrder => ascii "modify_order"
  | .cancelOrder => ascii "cancel_order"
  | .squareOff => ascii "square_off"
  | .basketMargin => ascii "basket_margin"
  | .orderUpdateWebsocket => ascii "order_update_websocket"
  | .headlessSessionRefresh => ascii "headless_session_refresh"
  | .gttOrders => ascii "gtt_orders"
  | .amoOrders => ascii "amo_orders"
  | .coverOrder => ascii "cover_order"
  | .bracketOrder => ascii "bracket_order"
  | .tagCarry => ascii "tag_carry"
  | .marginShockSim => ascii "margin_shock_sim"

inductive Support where
  | unknown
  | supported
  | unsupported
  deriving DecidableEq

structure CapabilitySet where
  supportOf : Capability → Support

namespace CapabilitySet

/-- The default: nothing is certified. -/
def empty : CapabilitySet := ⟨fun _ => .unknown⟩

def set (profile : CapabilitySet) (capability : Capability) (support : Support) : CapabilitySet :=
  ⟨fun c => if c = capability then support else profile.supportOf c⟩

def supports (profile : CapabilitySet) (capability : Capability) : Bool :=
  profile.supportOf capability = .supported

end CapabilitySet

def notSupportedError (capability : Capability) : Error :=
  { makeError .notSupported (ascii "capability '" ++ capability.toString
      ++ ascii "' is not supported by this broker (reject-only; no substitution)")
    with action := .doNotRetry }

def CapabilitySet.require (profile : CapabilitySet) (capability : Capability) : Result Unit :=
  if profile.supports capability then .ok () else .error (notSupportedError capability)

/-- The first one that is not supported decides. -/
def CapabilitySet.requireAll (profile : CapabilitySet) : List Capability → Result Unit
  | [] => .ok ()
  | capability :: rest =>
    if profile.supports capability then profile.requireAll rest
    else .error (notSupportedError capability)

def kiteCapabilities : CapabilitySet :=
  ((((CapabilitySet.empty.set .placeOrder .supported).set .modifyOrder .supported).set
    .cancelOrder .supported).set .squareOff .supported).set .headlessSessionRefresh .unsupported

/-- No request has reached this broker. -/
def kotakCapabilities : CapabilitySet := .empty

/-- What a call on the port needs; reads need nothing. -/
def neededBy : BrokerCall → Option Capability
  | .place _ => some .placeOrder
  | .modify _ _ => some .modifyOrder
  | .cancel _ => some .cancelOrder
  | .squareOff _ => some .squareOff
  | .fetchOrders | .fetchTrades | .fetchPositions | .fetchFunds => none

variable {profile : CapabilitySet} {capability : Capability}

theorem require_ok_iff :
    profile.require capability = .ok () ↔ profile.supports capability = true := by
  unfold CapabilitySet.require
  split_ifs with h <;> simp [h]

theorem requireAll_ok_iff {capabilities : List Capability} :
    profile.requireAll capabilities = .ok () ↔ ∀ c ∈ capabilities, profile.supports c = true := by
  induction capabilities with
  | nil => simp [CapabilitySet.requireAll]
  | cons first rest ih =>
    unfold CapabilitySet.requireAll
    split_ifs with h <;> simp [h, ih]

/-- Every mutation, and only a mutation, needs a capability. -/
theorem neededBy_isSome (call : BrokerCall) : (neededBy call).isSome = call.isMutation := by
  cases call <;> rfl

theorem kite_supports_needed {call : BrokerCall} (h : neededBy call = some capability) :
    kiteCapabilities.supports capability = true := by
  cases call <;> cases h <;> decide

end BrokerExec.Capabilities
