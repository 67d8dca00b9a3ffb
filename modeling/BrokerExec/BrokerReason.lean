import BrokerExec.Domain.Redaction
import BrokerExec.Domain.Types

/-!
# Broker reasons (`brokerreason/rejection_classifier.cpp`)

One versioned table from a broker's rejection text or order status to a canonical reason and a
retry posture. Text that no keyword matches is `Unknown` with `DoNotRetry`; a status that is
not listed is `Indeterminate` with `ReconcileFirst`.

* **`classifyRejection_posture`** — the posture is the one of the reason, so only a rate limit is
  ever safe to retry.
-/

namespace BrokerExec.BrokerReason

open BrokerExec.Domain (isSpace scrub toLowerAscii)
open BrokerExec.Errors (SuggestedAction)

def kClassifierVersion : Int := 1

inductive RejectReason where
  | margin
  | circuitLimit
  | freezeQuantity
  | illiquid
  | rmsBlock
  | sessionExpired
  | rateLimited
  | orderNotFound
  | alreadyComplete
  | indeterminate
  | unknown
  deriving DecidableEq

inductive RetryPosture where
  | doNotRetry
  | reconcileFirst
  | safeToRetryReadOnly
  deriving DecidableEq

structure Classification where
  reason : RejectReason
  posture : RetryPosture
  shouldAlert : Bool
  canonicalDetail : Bytes

def RejectReason.toString : RejectReason → Bytes
  | .margin => ascii "margin"
  | .circuitLimit => ascii "circuit_limit"
  | .freezeQuantity => ascii "freeze_quantity"
  | .illiquid => ascii "illiquid"
  | .rmsBlock => ascii "rms_block"
  | .sessionExpired => ascii "session_expired"
  | .rateLimited => ascii "rate_limited"
  | .orderNotFound => ascii "order_not_found"
  | .alreadyComplete => ascii "already_complete"
  | .indeterminate => ascii "indeterminate"
  | .unknown => ascii "unknown"

def RetryPosture.toString : RetryPosture → Bytes
  | .doNotRetry => ascii "do_not_retry"
  | .reconcileFirst => ascii "reconcile_first"
  | .safeToRetryReadOnly => ascii "safe_to_retry_read_only"

def toSuggestedAction : RetryPosture → SuggestedAction
  | .doNotRetry => .doNotRetry
  | .reconcileFirst => .reconcileFirst
  | .safeToRetryReadOnly => .retrySafe

/-! ## Text -/

def toLower (text : Bytes) : Bytes := text.map toLowerAscii

def trim (text : Bytes) : Bytes :=
  ((text.dropWhile isSpace).reverse.dropWhile isSpace).reverse

def contains (haystack needle : Bytes) : Bool := decide (needle <:+: haystack)

def containsAny (haystack : Bytes) (needles : List String) : Bool :=
  needles.any fun needle => contains haystack (ascii needle)

/-! ## The rules -/

def makeDetail (reason : RejectReason) (posture : RetryPosture) : Bytes :=
  scrub (ascii "rejection classified as '" ++ reason.toString ++ ascii "'; retry posture '"
    ++ posture.toString ++ ascii "' (classifier v" ++ decimal kClassifierVersion ++ ascii ")")

def make (reason : RejectReason) (posture : RetryPosture) (alert : Bool) : Classification :=
  ⟨reason, posture, alert, makeDetail reason posture⟩

def posture : RejectReason → RetryPosture
  | .margin | .circuitLimit | .freezeQuantity | .illiquid | .rmsBlock | .unknown => .doNotRetry
  | .sessionExpired | .orderNotFound | .alreadyComplete | .indeterminate => .reconcileFirst
  | .rateLimited => .safeToRetryReadOnly

/-- `make(rule_for(reason))`: the canonical posture and alert of a reason. -/
def ruleFor (reason : RejectReason) : Classification :=
  make reason (posture reason) <|
    match reason with
    | .rateLimited | .alreadyComplete => false
    | _ => true

/-- The order is the precedence: the first reason with a keyword in the text wins. -/
def reasonOf (m : Bytes) : RejectReason :=
  if containsAny m ["margin", "insufficient funds", "insufficient balance", "rms:margin"] then
    .margin
  else if containsAny m ["circuit", "price out of", "lpp", "dpr", "out of range",
      "outside the daily price"] then .circuitLimit
  else if containsAny m ["freeze", "quantity higher than maximum", "max allowed qty",
      "maximum allowed", "exceeds the maximum"] then .freezeQuantity
  else if containsAny m ["no trades in this instrument", "illiquid", "no liquidity",
      "no trades"] then .illiquid
  else if containsAny m ["access_token", "api_key", "token", "session", "unauthorized",
      "401"] then .sessionExpired
  -- anchored forms of 429 only: a bare one also stands in order ids
  else if containsAny m ["too many requests", "rate limit", "rate-limit", "ratelimit", "throttle",
      "429 too many", "http 429", "status 429", "error 429", "code 429", "(429)"] then .rateLimited
  else if contains m (ascii "already") && containsAny m ["complete", "executed", "cancelled",
      "canceled", "filled", "traded"] then .alreadyComplete
  else if containsAny m ["order not found", "invalid order", "unknown order",
      "order does not exist", "no such order"] then .orderNotFound
  else if containsAny m ["timeout", "timed out", "no response from oms", "no response", "kt-oms",
      "gateway timeout", "502", "503", "504"] then .indeterminate
  else if containsAny m ["rms", "blocked", "block", "not allowed to trade"] then .rmsBlock
  else .unknown

def classifyRejection (rawMessage : Bytes) : Classification :=
  if trim rawMessage = [] then ruleFor .unknown else ruleFor (reasonOf (toLower rawMessage))

/-- **The posture is the one of the reason.** -/
theorem classifyRejection_posture (rawMessage : Bytes) :
    (classifyRejection rawMessage).posture = posture (classifyRejection rawMessage).reason := by
  unfold classifyRejection
  split_ifs <;> rfl

/-! ## Order statuses -/

def classifyStatus (rawStatus : Bytes) : Classification :=
  let s := toLower (trim rawStatus)
  let isOneOf := fun names : List String => (names.map ascii).contains s
  if isOneOf ["complete", "completed"] then make .alreadyComplete .reconcileFirst false
  else if isOneOf ["cancelled", "canceled"] then make .alreadyComplete .reconcileFirst false
  else if isOneOf ["rejected"] then make .unknown .doNotRetry true
  else if isOneOf ["open", "open pending", "trigger pending", "update", "modify pending",
      "validation pending", "put order req received", "amo req received",
      "after market order req received"] then make .indeterminate .reconcileFirst false
  else make .indeterminate .reconcileFirst true

example : (classifyRejection (ascii "RMS:Margin exceeds")).reason = .margin := by decide

end BrokerExec.BrokerReason
