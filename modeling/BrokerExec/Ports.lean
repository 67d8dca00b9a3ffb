import BrokerExec.Domain.Types

/-!
# The ports (`ports/alert_sink.hpp`, `ports/broker_port.hpp`)

What the core hands to the alert sink, and the calls it can make on a broker.
-/

namespace BrokerExec.Ports

open BrokerExec.Domain (OrderIntent)

inductive AlertLevel where
  | info
  | warning
  | error
  | critical
  deriving DecidableEq

structure AlertContext where
  clientRef : Bytes
  brokerOrderId : Bytes
  strategy : Bytes
  symbol : Bytes
  deriving DecidableEq

/-- An alert handed to the sink; what the sink answers is ignored by its callers here. -/
structure Alert where
  level : AlertLevel
  message : Bytes
  provenance : AlertContext
  deriving DecidableEq

/-- `send`, without provenance. -/
def Alert.plain (level : AlertLevel) (message : Bytes) : Alert :=
  ⟨level, message, ⟨[], [], [], []⟩⟩

structure BrokerAck where
  brokerOrderId : Bytes
  clientRef : Bytes
  deriving DecidableEq

/-- A call on the `BrokerPort`. -/
inductive BrokerCall where
  | place (intent : OrderIntent)
  | modify (brokerOrderId : Bytes) (intent : OrderIntent)
  | cancel (brokerOrderId : Bytes)
  | squareOff (brokerOrderId : Bytes)
  | fetchOrders
  | fetchTrades
  | fetchPositions
  | fetchFunds
  deriving DecidableEq

def BrokerCall.isMutation : BrokerCall → Bool
  | .place _ | .modify _ _ | .cancel _ | .squareOff _ => true
  | .fetchOrders | .fetchTrades | .fetchPositions | .fetchFunds => false

end BrokerExec.Ports
