import BrokerExec.Adapters.Http
import BrokerExec.BrokerReason

/-!
# The Kotak error mapper (`adapters/kotak/kotak_errors.cpp`)

An answer is read as an envelope, whatever its status: `stat`, a gateway `fault`, a login `error`
node. `mapKotakError` puts a failing server before every phrasing and a dead session before a
throttle.
-/

namespace BrokerExec.Adapters.Kotak

open BrokerExec.BrokerReason (RejectReason RetryPosture classifyRejection contains toLower
  toSuggestedAction)
open BrokerExec.Domain (isTokenChar kRedactionMarker scrub toLowerAscii)
open BrokerExec.Errors (Error ErrorCategory)

/-! ## Reading scalars -/

/-- `scalar_to_text`: a float is never rendered. -/
def scalarToText : Json.Value → Bytes
  | .string s => s
  | .int i => decimal i
  | .bool b => if b then ascii "true" else ascii "false"
  | _ => []

/-- `first_text`: the first of the fields that is present and renders as text. -/
def firstText (members : List (Bytes × Json.Value)) (names : List String) : Bytes :=
  match names with
  | [] => []
  | name :: names =>
    match members.lookup (ascii name) with
    | none => firstText members names
    | some value => if scalarToText value = [] then firstText members names else scalarToText value

def equalsIgnoreAsciiCase (a b : Bytes) : Bool := a.map toLowerAscii == b.map toLowerAscii

/-! ## Redaction before `scrub` -/

def kKotakSecretKeys : List Bytes :=
  ["sid", "auth", "hsserverid", "serverid", "jsessionid"].map ascii

def isKotakSecretKey (key : Bytes) : Bool := kKotakSecretKeys.any (equalsIgnoreAsciiCase key)

/-- Quotes, blanks, `:` and `=`. -/
def isKeySeparator (c : UInt8) : Bool := [0x22, 0x27, 0x20, 0x09, 0x3A, 0x3D].contains c

/-- The loop of `redact_kotak_keys`; `inRun` says that the byte before is a token character. -/
def redactLoop : Nat → (inRun : Bool) → Bytes → Bytes
  | 0, _, _ => []
  | _ + 1, _, [] => []
  | fuel + 1, inRun, c :: cs =>
    if isTokenChar c = false ∨ inRun then c :: redactLoop fuel (isTokenChar c) cs
    else
      let key := (c :: cs).takeWhile isTokenChar
      let rest := (c :: cs).drop key.length
      if isKotakSecretKey key = false then key ++ redactLoop fuel true rest
      else
        let separators := rest.takeWhile isKeySeparator
        let behind := rest.drop separators.length
        let value := behind.takeWhile isTokenChar
        let explicitSeparator := separators.any fun c => c == 0x3A || c == 0x3D
        let valueShaped := 3 ≤ value.length && (12 ≤ value.length || value.any isDigit)
        if value ≠ [] ∧ (explicitSeparator || valueShaped) then
          key ++ separators ++ kRedactionMarker ++ redactLoop fuel true (behind.drop value.length)
        else key ++ separators ++ redactLoop fuel (separators = []) behind

def redactKotakKeys (text : Bytes) : Bytes := redactLoop text.length false text

def scrubBrokerText (text : Bytes) : Bytes := scrub (redactKotakKeys text)

example : redactKotakKeys (ascii "invalid sid 884213") = ascii "invalid sid ***REDACTED***" := by
  decide

/-! ## The envelope -/

structure KotakEnvelope where
  parsed : Bool
  hasStat : Bool
  statOk : Bool
  hasFault : Bool
  hasError : Bool
  hasData : Bool
  message : Bytes
  statusCode : Bytes

def KotakEnvelope.init : KotakEnvelope := ⟨false, false, false, false, false, false, [], []⟩

/-- `stat` and `data`. -/
def readStat (members : List (Bytes × Json.Value)) (env : KotakEnvelope) : KotakEnvelope :=
  let env := { env with parsed := true, hasData := (members.lookup (ascii "data")).isSome }
  match members.lookup (ascii "stat") with
  | some (.string stat) =>
    { env with hasStat := true, statOk := equalsIgnoreAsciiCase stat (ascii "Ok") }
  | _ => env

/-- The gateway's `fault`; its code may stand in a `detail` of its own. -/
def readFault (members : List (Bytes × Json.Value)) (env : KotakEnvelope) : KotakEnvelope :=
  match members.lookup (ascii "fault") with
  | some (.object fault) =>
    let code := firstText fault ["code", "errorcode", "errorCode"]
    let code :=
      match code, fault.lookup (ascii "detail") with
      | [], some (.object detail) => firstText detail ["errorcode", "errorCode", "code"]
      | _, _ => code
    { env with
      hasFault := true
      message := firstText fault ["message", "faultstring", "description"]
      statusCode := code }
  | _ => env

/-- The record of a login `error` node; what was read before stays. -/
def readErrorRecord (record : List (Bytes × Json.Value)) (env : KotakEnvelope) : KotakEnvelope :=
  { env with
    hasError := true
    message :=
      if env.message = [] then firstText record ["message", "errMsg", "description"]
      else env.message
    statusCode :=
      if env.statusCode = [] then firstText record ["code", "errorcode", "errorCode"]
      else env.statusCode }

def readErrorNode (members : List (Bytes × Json.Value)) (env : KotakEnvelope) : KotakEnvelope :=
  match members.lookup (ascii "error") with
  | some (.array (.object record :: _)) => readErrorRecord record env
  | some (.object record) => readErrorRecord record env
  | some (.string text) =>
    { env with hasError := true, message := if env.message = [] then text else env.message }
  | _ => env

/-- The envelope's own error text and code. -/
def readErrorText (members : List (Bytes × Json.Value)) (env : KotakEnvelope) : KotakEnvelope :=
  { env with
    message :=
      if env.message = [] then
        firstText members ["errMsg", "errmsg", "emsg", "errorMessage", "message"]
      else env.message
    statusCode :=
      if env.statusCode = [] then firstText members ["stCode", "stcode", "errCode", "code"]
      else env.statusCode }

def readObject (members : List (Bytes × Json.Value)) : KotakEnvelope :=
  readErrorText members (readErrorNode members (readFault members (readStat members .init)))

def parseKotakEnvelope (parse : ParseJson) (body : Bytes) : KotakEnvelope :=
  match parse body with
  | some (.object members) => readObject members
  | some (.array (.object members :: _)) => readObject members
  | _ => .init

/-- The envelope tells of an error: a fault, an error node, an error text or a bad `stat`. -/
def KotakEnvelope.tellsError (env : KotakEnvelope) : Bool :=
  env.hasFault || env.hasError || env.message ≠ [] || (env.hasStat && !env.statOk)

def isKotakSuccess (parse : ParseJson) (r : HttpResponse) : Bool :=
  let env := parseKotakEnvelope parse r.body
  r.isSuccess && !(env.hasFault || env.hasError) && (!env.hasStat || env.statOk)

/-! ## The mapper -/

def kSessionCoPhrases : List Bytes :=
  ["session", "expired", "re-login", "relogin", "login again", "log in again", "unauthorized",
    "invalid credentials"].map ascii

def hasSessionCoPhrase (message : Bytes) : Bool :=
  kSessionCoPhrases.any (contains (message.map toLowerAscii))

/-- The canonical reason of the text; a session verdict also needs session-like phrasing. -/
def reasonOf (message : Bytes) : RejectReason :=
  let reason := if message = [] then .unknown else (classifyRejection message).reason
  if reason = .sessionExpired ∧ hasSessionCoPhrase message = false then .unknown else reason

def categoryForReason : RejectReason → Option ErrorCategory
  | .margin => some .insufficientFunds
  | .circuitLimit | .freezeQuantity => some .validation
  | .illiquid => some .brokerRejected
  | .rmsBlock => some .riskRejected
  | .sessionExpired => some .sessionExpired
  | .rateLimited => some .rateLimited
  | .orderNotFound => some .orderNotFound
  | .alreadyComplete => some .brokerRejected
  | .indeterminate | .unknown => none

def mapKotakError (parse : ParseJson) (r : HttpResponse) : Error :=
  let env := parseKotakEnvelope parse r.body
  let code := r.codeText
    ++ (if env.statusCode = [] then [] else ascii " stCode=" ++ scrubBrokerText env.statusCode)
    ++ match r.findHeader (ascii "Retry-After") with
      | some retryAfter => ascii " Retry-After=" ++ scrubBrokerText retryAfter
      | none => []
  let scrubbed := if env.message = [] then [] else scrubBrokerText env.message
  let build := fun category action fallback =>
    (⟨category, action, if scrubbed = [] then fallback else ascii "kotak: " ++ scrubbed, code⟩ : Error)
  let posture := if env.message = [] then .doNotRetry else (classifyRejection env.message).posture
  let reason := reasonOf env.message
  if 500 ≤ r.statusCode ∨ r.statusCode ≤ 0 ∨ reason = .indeterminate then
    build .network .reconcileFirst (ascii "kotak: broker/transport error; reconcile required")
  else if r.statusCode = 401 ∨ r.statusCode = 403 ∨ reason = .sessionExpired then
    build .sessionExpired .reEstablishSession
      (ascii "kotak: session expired or invalid; re-establish required")
  else if r.statusCode = 429 ∨ reason = .rateLimited then
    build .rateLimited .retrySafe (ascii "kotak: rate limited by broker")
  else
    match categoryForReason reason with
    | some category =>
      build category (toSuggestedAction posture) (ascii "kotak: broker rejected the request")
    | none =>
      if r.statusCode = 404 then
        build .orderNotFound .reconcileFirst
          (ascii "kotak: order or endpoint not found; reconcile required")
      else if r.statusCode = 400 ∨ r.statusCode = 422 then
        build .validation .doNotRetry (ascii "kotak: request rejected as invalid")
      else if env.hasFault ∨ env.hasError ∨ scrubbed ≠ [] ∨ env.hasStat ∧ env.statOk = false then
        build .brokerRejected .reconcileFirst (ascii "kotak: broker rejected the request")
      else
        build .unknown .reconcileFirst (ascii "kotak: unclassified transport error")

end BrokerExec.Adapters.Kotak
