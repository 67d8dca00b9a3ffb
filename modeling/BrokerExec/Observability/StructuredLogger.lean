import BrokerExec.Domain.Redaction
import BrokerExec.Lib.Words
import BrokerExec.Observability.AuditEvent

/-!
# The structured logger (`observability/structured_logger.cpp`)

The whole rendered line goes through the scrubber. A typed column of an identifier's shape is
rendered as a sentinel and spliced back behind the scrub; when the splice misses or a sentinel is
left, the line is rendered once more without any exemption.
-/

namespace BrokerExec.Observability

open BrokerExec.Domain (isProvenanceIdShape scrub)

inductive ProvenanceColumn where
  | strategy
  | broker
  | account
  | clientRef
  | brokerOrderId
  deriving DecidableEq

namespace ProvenanceColumn

/-- The rendered key. -/
def key : ProvenanceColumn → String
  | .strategy => "strategy"
  | .broker => "broker"
  | .account => "account"
  | .clientRef => "client_ref"
  | .brokerOrderId => "broker_order_id"

/-- The fixed part of the sentinel. -/
def tag : ProvenanceColumn → Bytes
  | .strategy => ascii "STRATEGY"
  | .broker => ascii "BROKER"
  | .account => ascii "ACCOUNT"
  | .clientRef => ascii "CLIENTREF"
  | .brokerOrderId => ascii "ORDERID"

/-- The typed column of an event. -/
def member : ProvenanceColumn → AuditEvent → Bytes
  | .strategy, ev => ev.strategy
  | .broker, ev => ev.broker
  | .account, ev => ev.account
  | .clientRef, ev => ev.clientRef
  | .brokerOrderId, ev => ev.brokerOrderId

end ProvenanceColumn

def kProvenanceColumns : List ProvenanceColumn :=
  [.strategy, .broker, .account, .clientRef, .brokerOrderId]

def kSentinelPrefix : Bytes := ascii "PROVENANCESENTINEL"

def kSentinelRandomChars : Nat := 16

/-- The capital letters without `E` and `P`. -/
def kSentinelAlphabet : Bytes := ascii "ABCDFGHIJKLMNOQRSTUVWXYZ"

/-- What a process has drawn at its start: a random tail for each column. -/
structure Sentinels where
  tail : ProvenanceColumn → Bytes
  length_tail : ∀ column, (tail column).length = kSentinelRandomChars
  mem_alphabet : ∀ column, ∀ c ∈ tail column, c ∈ kSentinelAlphabet

variable (sentinels : Sentinels) (ev : AuditEvent)

def Sentinels.sentinel (column : ProvenanceColumn) : Bytes :=
  kSentinelPrefix ++ column.tag ++ sentinels.tail column

def scrubbedLine : Bytes := scrub (toJsonLine ev)

/-- `"<key>":"<value>"`. -/
def renderedPair (key : String) (value : Bytes) : Bytes :=
  0x22 :: (ascii key ++ ascii "\":\"" ++ value ++ [0x22])

/-- The column is put aside for the scrub. -/
def isPreserved (column : ProvenanceColumn) : Bool := isProvenanceIdShape (column.member ev)

/-- What stands in a column while the line is scrubbed. -/
def swapped (column : ProvenanceColumn) : Bytes :=
  if isPreserved ev column then sentinels.sentinel column else column.member ev

/-- The event as it is scrubbed. -/
def swap : AuditEvent :=
  { ev with
    strategy := swapped sentinels ev .strategy
    broker := swapped sentinels ev .broker
    account := swapped sentinels ev .account
    clientRef := swapped sentinels ev .clientRef
    brokerOrderId := swapped sentinels ev .brokerOrderId }

/-- The columns are put back one by one; a sentinel that is not found with its key ends it. -/
def spliceColumns : List ProvenanceColumn → Bytes → Option Bytes
  | [], line => some line
  | column :: columns, line =>
    if isPreserved ev column then
      match replaceFirst (renderedPair column.key (sentinels.sentinel column))
          (renderedPair column.key (column.member ev)) line with
      | none => none
      | some line => spliceColumns columns line
    else spliceColumns columns line

/-- The line with every column back in its place and no sentinel left. -/
def spliced : Option Bytes :=
  match spliceColumns sentinels ev kProvenanceColumns (scrubbedLine (swap sentinels ev)) with
  | none => none
  | some line =>
    if kProvenanceColumns.any fun column => decide (sentinels.sentinel column <:+: line) then none
    else some line

def renderLine : Bytes :=
  if kProvenanceColumns.any (isPreserved ev) = false then scrubbedLine ev
  else
    match spliced sentinels ev with
    | some line => line
    -- the safety net: the line as it was before the exemption
    | none => scrubbedLine ev

end BrokerExec.Observability
