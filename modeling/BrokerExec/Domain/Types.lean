import BrokerExec.Lib.Bytes

/-!
# The domain types (`domain/enums.hpp`, `domain/types.hpp`) and errors (`errors/error.cpp`)

Prices and quantities are the source's `std::int64_t` wrappers; every string is raw bytes.
-/

namespace BrokerExec.Domain

inductive Side where
  | buy
  | sell
  deriving DecidableEq

inductive OrderType where
  | market
  | limit
  | stopLoss
  | stopLossMarket
  deriving DecidableEq

inductive Product where
  | intraday
  | delivery
  | margin
  | normal
  deriving DecidableEq

inductive OrderState where
  | created
  | validated
  | pendingSend
  | sent
  | acknowledged
  | partiallyFilled
  | filled
  | rejected
  | cancelled
  | unknown
  | reconciled
  | partiallyPlaced
  | manualInterventionRequired
  deriving DecidableEq

def Side.toString : Side → Bytes
  | .buy => ascii "BUY"
  | .sell => ascii "SELL"

def OrderType.toString : OrderType → Bytes
  | .market => ascii "MARKET"
  | .limit => ascii "LIMIT"
  | .stopLoss => ascii "SL"
  | .stopLossMarket => ascii "SL-M"

def Product.toString : Product → Bytes
  | .intraday => ascii "INTRADAY"
  | .delivery => ascii "DELIVERY"
  | .margin => ascii "MARGIN"
  | .normal => ascii "NORMAL"

def OrderState.toString : OrderState → Bytes
  | .created => ascii "CREATED"
  | .validated => ascii "VALIDATED"
  | .pendingSend => ascii "PENDING_SEND"
  | .sent => ascii "SENT"
  | .acknowledged => ascii "ACKNOWLEDGED"
  | .partiallyFilled => ascii "PARTIALLY_FILLED"
  | .filled => ascii "FILLED"
  | .rejected => ascii "REJECTED"
  | .cancelled => ascii "CANCELLED"
  | .unknown => ascii "UNKNOWN"
  | .reconciled => ascii "RECONCILED"
  | .partiallyPlaced => ascii "PARTIALLY_PLACED"
  | .manualInterventionRequired => ascii "MANUAL_INTERVENTION_REQUIRED"

/-- `Price`, in paise. -/
abbrev Price := Int64

abbrev Quantity := Int64

structure OrderIntent where
  clientRef : Bytes
  symbol : Bytes
  side : Side
  quantity : Quantity
  price : Price
  triggerPrice : Option Price
  orderType : OrderType
  product : Product
  strategy : Bytes
  deriving DecidableEq

structure Order where
  intent : OrderIntent
  state : OrderState
  brokerOrderId : Bytes
  filledQty : Quantity
  avgPrice : Price
  deriving DecidableEq

structure Trade where
  tradeId : Bytes
  clientRef : Bytes
  brokerOrderId : Bytes
  quantity : Quantity
  price : Price
  deriving DecidableEq

/-- A net position: long above zero, short below. -/
structure Position where
  symbol : Bytes
  netQty : Quantity
  avgPrice : Price
  deriving DecidableEq

end BrokerExec.Domain

namespace BrokerExec.Errors

inductive ErrorCategory where
  | transient
  | rateLimited
  | network
  | timeout
  | auth
  | sessionExpired
  | validation
  | insufficientFunds
  | riskRejected
  | notSupported
  | duplicateOrder
  | orderNotFound
  | brokerRejected
  | marketClosed
  | dataStale
  | internal
  | unknown
  deriving DecidableEq

def ErrorCategory.toString : ErrorCategory → Bytes
  | .transient => ascii "Transient"
  | .rateLimited => ascii "RateLimited"
  | .network => ascii "Network"
  | .timeout => ascii "Timeout"
  | .auth => ascii "Auth"
  | .sessionExpired => ascii "SessionExpired"
  | .validation => ascii "Validation"
  | .insufficientFunds => ascii "InsufficientFunds"
  | .riskRejected => ascii "RiskRejected"
  | .notSupported => ascii "NotSupported"
  | .duplicateOrder => ascii "DuplicateOrder"
  | .orderNotFound => ascii "OrderNotFound"
  | .brokerRejected => ascii "BrokerRejected"
  | .marketClosed => ascii "MarketClosed"
  | .dataStale => ascii "DataStale"
  | .internal => ascii "Internal"
  | .unknown => ascii "Unknown"

inductive SuggestedAction where
  | retrySafe
  | doNotRetry
  | reconcileFirst
  | blockStrategy
  | reEstablishSession
  | cancel
  | squareOff
  | raiseAlert
  deriving DecidableEq

structure Error where
  category : ErrorCategory
  action : SuggestedAction
  message : Bytes
  brokerCode : Bytes
  deriving DecidableEq

def defaultActionFor : ErrorCategory → SuggestedAction
  | .transient => .retrySafe
  | .rateLimited => .retrySafe
  | .network => .reconcileFirst
  | .timeout => .reconcileFirst
  | .auth => .reEstablishSession
  | .sessionExpired => .reEstablishSession
  | .validation => .doNotRetry
  | .insufficientFunds => .blockStrategy
  | .riskRejected => .reconcileFirst
  | .notSupported => .doNotRetry
  | .duplicateOrder => .reconcileFirst
  | .orderNotFound => .reconcileFirst
  | .brokerRejected => .reconcileFirst
  | .marketClosed => .blockStrategy
  | .dataStale => .blockStrategy
  | .internal => .raiseAlert
  | .unknown => .reconcileFirst

/-- `make_error(category, message)`: the category's own action, no broker code. -/
def makeError (category : ErrorCategory) (message : Bytes) : Error :=
  ⟨category, defaultActionFor category, message, []⟩

end BrokerExec.Errors

namespace BrokerExec

/-- `Result<T>`. -/
abbrev Result (α : Type) := Except Errors.Error α

end BrokerExec
