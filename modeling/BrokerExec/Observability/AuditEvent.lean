import BrokerExec.Json.Nested
import BrokerExec.Lib.CivilDate

/-!
# Audit events (`observability/audit_event.cpp`)

An event renders to one line of JSON: the reserved keys, the typed columns that carry a value, and
the caller's free-form object under `fields`. The members of the line are in key order.
-/

namespace BrokerExec.Observability

open BrokerExec.Json (Value dumpValue)

inductive EventType where
  | orderPlaced
  | orderAcknowledged
  | orderPartiallyFilled
  | orderFilled
  | orderRejected
  | orderCancelled
  | orderUnknown
  | riskResult
  | reconcileResult
  | error
  | override
  deriving DecidableEq, Repr

def EventType.toString : EventType → Bytes
  | .orderPlaced => ascii "order.placed"
  | .orderAcknowledged => ascii "order.acknowledged"
  | .orderPartiallyFilled => ascii "order.partially_filled"
  | .orderFilled => ascii "order.filled"
  | .orderRejected => ascii "order.rejected"
  | .orderCancelled => ascii "order.cancelled"
  | .orderUnknown => ascii "order.unknown"
  | .riskResult => ascii "risk.result"
  | .reconcileResult => ascii "reconcile.result"
  | .error => ascii "error"
  | .override => ascii "override"

def pad (value : Int) (width : Nat) : Bytes :=
  List.replicate (width - (decimal value).length) 0x30 ++ decimal value

/-- `YYYY-MM-DDTHH:MM:SSZ` of a wall instant in nanoseconds since the epoch. -/
def toIso8601Utc (ts : Int) : Bytes :=
  let seconds := ts / 1000000000
  let day := CivilDate.ofDays (seconds / 86400)
  let tod := seconds % 86400
  pad day.year 4 ++ ascii "-" ++ pad day.month 2 ++ ascii "-" ++ pad day.day 2 ++ ascii "T"
    ++ pad (tod / 3600) 2 ++ ascii ":" ++ pad (tod / 60 % 60) 2 ++ ascii ":" ++ pad (tod % 60) 2
    ++ ascii "Z"

example : toIso8601Utc 1783000800000000000 = ascii "2026-07-02T14:00:00Z" := by decide +kernel

structure AuditEvent where
  type : EventType
  ts : Int
  strategy : Bytes
  broker : Bytes
  account : Bytes
  clientRef : Bytes
  brokerOrderId : Bytes
  fields : Value

def AuditEvent.kSchemaVersion : Int := 1

/-- A typed column is left out when it is empty. -/
def putIfSet (key : String) (value : Bytes) : List (Bytes × Value) :=
  if value = [] then [] else [(ascii key, .string value)]

/-- The caller's columns, when there are any. -/
def putFields : Value → List (Bytes × Value)
  | .object (m :: rest) => [(ascii "fields", .object (m :: rest))]
  | _ => []

/-- The members of the line; the map keeps them in key order. -/
def AuditEvent.members (ev : AuditEvent) : List (Bytes × Value) :=
  putIfSet "account" ev.account ++ putIfSet "broker" ev.broker
    ++ putIfSet "broker_order_id" ev.brokerOrderId ++ putIfSet "client_ref" ev.clientRef
    ++ putFields ev.fields ++ [(ascii "schema_version", .int AuditEvent.kSchemaVersion)]
    ++ putIfSet "strategy" ev.strategy
    ++ [(ascii "ts", .string (toIso8601Utc ev.ts)),
        (ascii "type", .string (ev.type.toString))]

def toJsonLine (ev : AuditEvent) : Bytes := dumpValue (.object ev.members)

end BrokerExec.Observability
