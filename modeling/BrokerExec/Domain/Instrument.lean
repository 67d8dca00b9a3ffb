import BrokerExec.Domain.Types

/-!
# Money and instruments (`domain/money.cpp`, `domain/types.hpp`)
-/

namespace BrokerExec.Domain

/-- An amount in paise. -/
abbrev Money := Int64

/-- `<rupees>.<pp>`, with a sign for a negative amount. -/
def formatPaise (paise : Int64) : Bytes :=
  let magnitude := paise.toInt.natAbs
  let frac := magnitude % 100
  (if paise < 0 then ascii "-" else []) ++ decimalNat (magnitude / 100) ++ ascii "."
    ++ (if frac < 10 then ascii "0" else []) ++ decimalNat frac

/-- What the instrument master says of a symbol. -/
structure Instrument where
  symbol : Bytes
  token : Int64
  exchange : Bytes
  lotSize : Quantity
  tickSize : Price
  freezeQty : Quantity
  expiry : Bytes
  deriving DecidableEq

example : formatPaise (-1205) = ascii "-12.05" := by decide

end BrokerExec.Domain
