import BrokerExec.Adapters.Kotak.Errors
import BrokerExec.Json.Nested
import BrokerExec.Lib.Attempt
import BrokerExec.Lib.Table
import BrokerExec.SessionGuard

/-!
# The Kotak session (`adapters/kotak/kotak_session.cpp`)

A login is three exchanges with the broker, and each carries what the one before has brought. Only
a bundle that all three have filled is stored, by one save; a probe reads it back and tries it.

* **`log_run`** — what is in front of every save, every probe and every verdict, over processes that
  end or are killed anywhere; and what is stored is what was saved last.
-/

namespace BrokerExec.Adapters.Kotak.Login

open BrokerExec.BrokerReason (classifyRejection)
open BrokerExec.Errors (Error ErrorCategory makeError)
open BrokerExec.Json (dumpValue)
open BrokerExec.Process (Attempt Spec Tries)
open BrokerExec.SessionGuard (SessionState)

/-! ## Requests -/

inductive HttpMethod where
  | get
  | post
  | put
  | delete
  deriving DecidableEq

structure HttpRequest where
  method : HttpMethod
  path : Bytes
  query : List (Bytes × Bytes)
  headers : List (Bytes × Bytes)
  body : Bytes
  deriving DecidableEq

def kOauthToken : Bytes := ascii "/oauth2/token"
def kLoginValidate : Bytes := ascii "/login/1.0/login/v2/validate"
def kOrderBook : Bytes := ascii "/Orders/2.0/quick/user/orders"

def kNeoFinKey : Bytes × Bytes := (ascii "neo-fin-key", ascii "neotradeapi")

def kAlphabet : Bytes := ascii "ABCDEFGHIJKLMNOPQRSTUVWXYZabcdefghijklmnopqrstuvwxyz0123456789+/"

/-- A letter of the alphabet for six bits. -/
def base64Letter (bits : Nat) : UInt8 := kAlphabet.getD (bits % 64) 0

def base64Encode : Bytes → Bytes
  | b0 :: b1 :: b2 :: rest =>
    let triple := b0.toNat * 65536 + b1.toNat * 256 + b2.toNat
    base64Letter (triple / 262144) :: base64Letter (triple / 4096) :: base64Letter (triple / 64)
      :: base64Letter triple :: base64Encode rest
  | [b0, b1] =>
    let triple := b0.toNat * 65536 + b1.toNat * 256
    [base64Letter (triple / 262144), base64Letter (triple / 4096), base64Letter (triple / 64), 0x3D]
  | [b0] =>
    let triple := b0.toNat * 65536
    [base64Letter (triple / 262144), base64Letter (triple / 4096), 0x3D, 0x3D]
  | [] => []

example : base64Encode (ascii "key:pass") = ascii "a2V5OnBhc3M=" := by decide

def oauthRequest (consumerKey consumerSecret : Bytes) : HttpRequest where
  method := .post
  path := kOauthToken
  query := []
  headers :=
    [(ascii "Authorization", ascii "Basic " ++ base64Encode (consumerKey ++ ascii ":" ++ consumerSecret)),
      (ascii "Content-Type", ascii "application/x-www-form-urlencoded")]
  body := ascii "grant_type=client_credentials"

def loginRequest (accessToken body : Bytes) (extraHeaders : List (Bytes × Bytes)) : HttpRequest where
  method := .post
  path := kLoginValidate
  query := []
  headers :=
    [(ascii "Authorization", ascii "Bearer " ++ accessToken), kNeoFinKey,
      (ascii "Content-Type", ascii "application/json")] ++ extraHeaders
  body := body

def loginBody (mobile password : Bytes) : Bytes :=
  dumpValue (.object [(ascii "mobileNumber", .string mobile), (ascii "password", .string password)])

def mpinBody (mobile mpin : Bytes) : Bytes :=
  dumpValue (.object [(ascii "mobileNumber", .string mobile), (ascii "mpin", .string mpin)])

/-! ## The bundle -/

structure KotakSessionBundle where
  accessToken : Bytes
  token : Bytes
  sid : Bytes
  hsServerId : Bytes
  extras : List (Bytes × Bytes)
  deriving DecidableEq

def KotakSessionBundle.complete (bundle : KotakSessionBundle) : Bool :=
  bundle.accessToken ≠ [] && bundle.token ≠ [] && bundle.sid ≠ [] && bundle.hsServerId ≠ []

/-- `extra_object`: a later value replaces an earlier one under the same key. -/
def extraObject (extras : List (Bytes × Bytes)) : Table Bytes (Bytes × Bytes) Prod.fst :=
  extras.foldl Table.upsert .empty

def KotakSessionBundle.toJson (bundle : KotakSessionBundle) : Bytes :=
  dumpValue (.object
    [(ascii "access_token", .string bundle.accessToken),
      (ascii "extras", .object ((extraObject bundle.extras).rows.map fun e => (e.1, .string e.2))),
      (ascii "hs_server_id", .string bundle.hsServerId), (ascii "sid", .string bundle.sid),
      (ascii "token", .string bundle.token)])

/-- `pick_string`: the first of the names under which there is a text. -/
def pickString (members : List (Bytes × Json.Value)) : List String → Bytes
  | [] => []
  | name :: names =>
    match members.lookup (ascii name) with
    | some (.string (c :: text)) => c :: text
    | _ => pickString members names

/-- The members that are strings. -/
def stringMembers (members : List (Bytes × Json.Value)) : List (Bytes × Bytes) :=
  members.filterMap fun m =>
    match m.2 with
    | .string text => some (m.1, text)
    | _ => none

def KotakSessionBundle.fromJson (parse : ParseJson) (text : Bytes) : Result KotakSessionBundle :=
  match parse text with
  | some (.object members) =>
    .ok
      { accessToken := pickString members ["access_token"]
        token := pickString members ["token"]
        sid := pickString members ["sid"]
        hsServerId := pickString members ["hs_server_id"]
        extras :=
          match members.lookup (ascii "extras") with
          | some (.object extras) => stringMembers extras
          | _ => [] }
  | _ => .error (makeError .internal (ascii "kotak: stored session bundle is malformed"))

def authHeaders (bundle : KotakSessionBundle) : List (Bytes × Bytes) :=
  [(ascii "Authorization", ascii "Bearer " ++ bundle.accessToken), (ascii "Auth", bundle.token),
    (ascii "Sid", bundle.sid), kNeoFinKey]

def probeRequest (bundle : KotakSessionBundle) : HttpRequest where
  method := .get
  path := kOrderBook
  query := [(ascii "sId", bundle.hsServerId)]
  headers := authHeaders bundle
  body := []

/-! ## What an answer brings -/

def failure (category : ErrorCategory) (message : String) (r : HttpResponse) : Error :=
  { makeError category (ascii message) with brokerCode := r.codeText }

/-- The broker itself has refused the credentials. -/
def isCredentialRefusal (error : Error) (env : KotakEnvelope) : Bool :=
  match error.category with
  | .auth | .sessionExpired => true
  | .validation | .brokerRejected => env.parsed
  | _ => false

def accessTokenIn (parse : ParseJson) (body : Bytes) : Bytes :=
  match parse body with
  | some (.object members) =>
    match pickString members ["access_token"], members.lookup (ascii "data") with
    | [], some (.object data) => pickString data ["access_token"]
    | token, _ => token
  | _ => []

structure LoginLeg where
  token : Bytes
  sid : Bytes
  hsServerId : Bytes
  extras : List (Bytes × Bytes)

def kCoreFields : List Bytes := ["token", "sid", "hsServerId", "hsServerid", "serverId", "sId"].map ascii

def readLeg (parse : ParseJson) (r : HttpResponse) : Result LoginLeg :=
  match parse r.body with
  | some (.object members) =>
    let data :=
      match members.lookup (ascii "data") with
      | some (.object data) => data
      | _ => members
    let leg : LoginLeg :=
      { token := pickString data ["token"]
        sid := pickString data ["sid"]
        hsServerId := pickString data ["hsServerId", "hsServerid", "serverId", "sId"]
        extras := (stringMembers data).filter fun e => !kCoreFields.contains e.1 }
    if leg.token = [] then
      .error (failure .auth "kotak: login response carried no session token" r)
    else .ok leg
  | _ => .error (failure .auth "kotak: login response was not a JSON object" r)

/-- The last leg's artifacts; where it does not issue a `sid` or server again, the ones before. -/
def bundleOf (accessToken : Bytes) (view finalLeg : LoginLeg) : KotakSessionBundle where
  accessToken := accessToken
  token := finalLeg.token
  sid := if finalLeg.sid = [] then view.sid else finalLeg.sid
  hsServerId := if finalLeg.hsServerId = [] then view.hsServerId else finalLeg.hsServerId
  extras := finalLeg.extras

/-- `is_session_death` -/
def isSessionDeath (parse : ParseJson) (r : HttpResponse) : Bool :=
  if r.statusCode = 401 ∨ r.statusCode = 403 then true
  else if 500 ≤ r.statusCode ∨ r.statusCode ≤ 0 then false
  else if isKotakSuccess parse r then false
  else
    let message := (parseKotakEnvelope parse r.body).message
    if message = [] then false
    else (classifyRejection message).reason = .sessionExpired && hasSessionCoPhrase message

/-! ## The world -/

/-- What a save comes to. A fault behind the rename, or a kill there, leaves a token that has
landed though nobody was told. -/
structure Saved where
  landed : Bool
  result : Result Unit
  ok_landed : result = .ok () → landed = true

/-- An answer to whatever is asked next. -/
structure Tick where
  secret : Bytes → Result Bytes
  response : Result HttpResponse
  saved : Saved
  loadFault : Option Error

structure KotakLoginInputs where
  consumerKeySecretName : Bytes
  consumerSecretSecretName : Bytes
  mobileSecretName : Bytes
  passwordSecretName : Bytes
  mpinSecretName : Bytes
  deriving DecidableEq

def KotakLoginInputs.init : KotakLoginInputs where
  consumerKeySecretName := ascii "kotak_consumer_key"
  consumerSecretSecretName := ascii "kotak_consumer_secret"
  mobileSecretName := ascii "kotak_mobile"
  passwordSecretName := ascii "kotak_password"
  mpinSecretName := ascii "kotak_mpin"

inductive Op where
  | establish (inputs : KotakLoginInputs)
  | validate
  deriving DecidableEq

inductive Event where
  | sent (request : HttpRequest) (answer : Result HttpResponse)
  | saved (text : Bytes) (answer : Saved)
  | answered (op : Op) (result : Result SessionState)

/-- The account's entry in the token store, and what has happened. -/
structure World where
  stored : Option Bytes
  log : List Event

def World.hear (w : World) (e : Event) : World := { w with log := w.log ++ [e] }

/-- An error, and whether it is the broker's word on the credentials. -/
structure LegFailure where
  error : Error
  credentialRefusal : Bool

abbrev Establishing := Attempt Tick World LegFailure

def plainly {α : Type} (m : Process Tick World (Result α)) : Establishing α :=
  m.mapError fun error => ⟨error, false⟩

def askSecret (name : Bytes) : Process Tick World (Result Bytes) :=
  .ask fun t w => (t.secret name, w)

def send (request : HttpRequest) : Process Tick World (Result HttpResponse) :=
  .ask fun t w => (t.response, w.hear (.sent request t.response))

def save (text : Bytes) : Process Tick World (Result Unit) :=
  .ask fun t w =>
    (t.saved.result,
      { stored := if t.saved.landed then some text else w.stored
        log := w.log ++ [.saved text t.saved] })

def loadText : Process Tick World (Result Bytes) :=
  .ask fun t w =>
    match t.loadFault, w.stored with
    | some error, _ => (.error error, w)
    | none, some text => (.ok text, w)
    | none, none =>
      (.error (makeError .validation (ascii "token store: token file not found")), w)

/-! ## The establisher -/

section

variable (parse : ParseJson)

/-- The part that both legs share. -/
def exchange (request : HttpRequest) : Establishing HttpResponse := do
  let r ← plainly (send request)
  if isKotakSuccess parse r then return r
  else
    let error := mapKotakError parse r
    throw ⟨error, isCredentialRefusal error (parseKotakEnvelope parse r.body)⟩

def fetchAccessToken (consumerKey consumerSecret : Bytes) : Establishing Bytes := do
  let r ← exchange parse (oauthRequest consumerKey consumerSecret)
  match accessTokenIn parse r.body with
  | [] => throw ⟨failure .auth "kotak: oauth response carried no access token" r, false⟩
  | c :: token => return c :: token

def postLogin (accessToken body : Bytes) (extraHeaders : List (Bytes × Bytes)) :
    Establishing LoginLeg := do
  let r ← exchange parse (loginRequest accessToken body extraHeaders)
  plainly (pure (readLeg parse r))

def viewHeaders (view : LoginLeg) : List (Bytes × Bytes) :=
  [(ascii "Auth", view.token), (ascii "Sid", view.sid)]

/-- What is known once the third leg has answered. -/
def persist (bundle : KotakSessionBundle) : Establishing SessionState :=
  if bundle.complete then do
    plainly (save bundle.toJson)
    return .healthy
  else return .failed

/-- The three legs; the credentials are resolved first. -/
def legs (consumerKey consumerSecret mobile password mpin : Bytes) :
    Establishing KotakSessionBundle := do
  let accessToken ← fetchAccessToken parse consumerKey consumerSecret
  let view ← postLogin parse accessToken (loginBody mobile password) []
  let finalLeg ← postLogin parse accessToken (mpinBody mobile mpin) (viewHeaders view)
  return bundleOf accessToken view finalLeg

def login (inputs : KotakLoginInputs) : Establishing SessionState := do
  let consumerKey ← plainly (askSecret inputs.consumerKeySecretName)
  let consumerSecret ← plainly (askSecret inputs.consumerSecretSecretName)
  let mobile ← plainly (askSecret inputs.mobileSecretName)
  let password ← plainly (askSecret inputs.passwordSecretName)
  let mpin ← plainly (askSecret inputs.mpinSecretName)
  let bundle ← legs parse consumerKey consumerSecret mobile password mpin
  persist bundle

/-- What the caller is told of a login. -/
def verdict : Except LegFailure SessionState → Result SessionState
  | .ok state => .ok state
  | .error f => if f.credentialRefusal then .ok .failed else .error f.error

def establish (inputs : KotakLoginInputs) : Process Tick World (Result SessionState) := do
  let outcome ← (login parse inputs).run
  return verdict outcome

/-- What a probe's answer says of the session. -/
def probed (r : HttpResponse) : Result SessionState :=
  if isSessionDeath parse r then .ok .needsReauth
  else if isKotakSuccess parse r then
    if (parseKotakEnvelope parse r.body).parsed then .ok .healthy
    else
      .error (failure .unknown ("kotak: session probe returned an unrecognized (non-JSON) body; "
        ++ "not treating as healthy") r)
  else .error (mapKotakError parse r)

def validate : Process Tick World (Result SessionState) := do
  let text ← loadText
  match text with
  | .error error => return .error error
  | .ok text =>
    match KotakSessionBundle.fromJson parse text with
    | .error error => return .error error
    | .ok bundle =>
      if bundle.complete then do
        let answer ← send (probeRequest bundle)
        return answer >>= probed parse
      else return .ok .failed

def perform (op : Op) : Process Tick World (Result SessionState) :=
  match op with
  | .establish inputs => establish parse inputs
  | .validate => validate parse

def serve : List Op → Process Tick World Unit
  | [] => return ()
  | op :: ops => do
    let result ← perform parse op
    .step fun w => ((), w.hear (.answered op result))
    serve ops

/-- A process: its calls, and how long it lives. -/
structure Life where
  ops : List Op
  ticks : List Tick

def live (w : World) (life : Life) : World := (serve parse life.ops life.ticks w).state

def lives (all : List Life) : World := all.foldl (live parse) ⟨none, []⟩

end

/-! ## What stands in front of an event -/

/-- The newest text that has landed. -/
def lastSaved (log : List Event) : Option Bytes :=
  (log.filterMap fun
    | .saved text saved => if saved.landed then some text else none
    | _ => none).getLast?

section

variable (parse : ParseJson)

/-- Three exchanges that succeed, each with what the one before has brought; nothing between. -/
def LoggedIn (before front : List Event) (bundle : KotakSessionBundle) : Prop :=
  ∃ consumerKey consumerSecret mobile password mpin view finalLeg r1 r2 r3,
    front = before ++
      [.sent (oauthRequest consumerKey consumerSecret) (.ok r1),
        .sent (loginRequest bundle.accessToken (loginBody mobile password) []) (.ok r2),
        .sent (loginRequest bundle.accessToken (mpinBody mobile mpin) (viewHeaders view)) (.ok r3)]
      ∧ isKotakSuccess parse r1 = true ∧ isKotakSuccess parse r2 = true
      ∧ isKotakSuccess parse r3 = true ∧ accessTokenIn parse r1.body = bundle.accessToken
      ∧ readLeg parse r2 = .ok view ∧ readLeg parse r3 = .ok finalLeg
      ∧ bundle = bundleOf bundle.accessToken view finalLeg

/-- The last thing that was heard is the broker's refusal of a credential. -/
def RefusedLast (front : List Event) : Prop :=
  ∃ before request r, front = before ++ [.sent request (.ok r)] ∧ isKotakSuccess parse r = false
    ∧ isCredentialRefusal (mapKotakError parse r) (parseKotakEnvelope parse r.body) = true

def Justified (front : List Event) : Event → Prop
  | .saved text _ =>
    ∃ before bundle, LoggedIn parse before front bundle ∧ bundle.complete = true
      ∧ text = bundle.toJson
  | .sent request _ =>
    request.method = .get → ∃ text bundle, lastSaved front = some text
      ∧ KotakSessionBundle.fromJson parse text = .ok bundle ∧ bundle.complete = true
      ∧ request = probeRequest bundle
  | .answered (.establish _) (.ok .healthy) =>
    ∃ before text saved, front = before ++ [.saved text saved] ∧ saved.result = .ok ()
  | .answered (.establish _) (.ok .failed) =>
    RefusedLast parse front
      ∨ ∃ before bundle, LoggedIn parse before front bundle ∧ bundle.complete = false
  | .answered (.establish _) (.ok .needsReauth) => False
  | .answered .validate (.ok .healthy) =>
    ∃ before bundle r, front = before ++ [.sent (probeRequest bundle) (.ok r)]
      ∧ isKotakSuccess parse r = true ∧ (parseKotakEnvelope parse r.body).parsed = true
  | .answered _ _ => True

/-- **The invariant.** -/
structure Sound (w : World) : Prop where
  log : ∀ front e back, w.log = front ++ e :: back → Justified parse front e
  stored : w.stored = lastSaved w.log

end

variable {parse : ParseJson} {w : World} {log : List Event}

theorem justified_append {front : List Event} {e : Event}
    (hfront : ∀ front' e' back, front = front' ++ e' :: back → Justified parse front' e')
    (he : Justified parse front e) (front' : List Event) (e' : Event) (back : List Event)
    (h : front ++ [e] = front' ++ e' :: back) : Justified parse front' e' := by
  rcases List.eq_nil_or_concat' back with rfl | ⟨back, last, rfl⟩
  · obtain ⟨rfl, hlast⟩ := List.append_inj' h rfl
    obtain ⟨rfl, -⟩ := List.cons.inj hlast
    exact he
  · have hsplit : front ++ [e] = (front' ++ e' :: back) ++ [last] := by
      rw [h]
      simp
    obtain ⟨hsame, -⟩ := List.append_inj' hsplit rfl
    exact hfront front' e' back hsame

theorem Sound.hear (h : Sound parse w) {e : Event} (hsaved : ∀ text saved, e ≠ .saved text saved)
    (he : Justified parse w.log e) : Sound parse (w.hear e) := by
  refine ⟨justified_append h.log he, ?_⟩
  have hlast : lastSaved (w.log ++ [e]) = lastSaved w.log := by
    unfold lastSaved
    rw [List.filterMap_append]
    cases e with
    | saved text saved => exact absurd rfl (hsaved text saved)
    | sent request answer => simp
    | answered op result => simp
  exact h.stored.trans hlast.symm

/-- A state between two calls of the outside. -/
def At (parse : ParseJson) (log : List Event) (w : World) : Prop := Sound parse w ∧ w.log = log

/-! ## The steps -/

theorem askSecret_tries (name : Bytes) :
    Tries (At parse log) (plainly (askSecret name)) (fun _ => At parse log)
      (fun f w => Sound parse w ∧ f.credentialRefusal = false) (Sound parse) := by
  refine Tries.mapError ?_
  show Spec _ _ _ _
  refine Spec.ask (fun w h => h.1) fun t w h => ?_
  dsimp only
  cases t.secret name with
  | ok secret => exact h
  | error error => exact ⟨h.1, rfl⟩

/-- What a leg may fail with. -/
def LegFails (parse : ParseJson) (f : LegFailure) (w : World) : Prop :=
  Sound parse w ∧ (f.credentialRefusal = true → RefusedLast parse w.log)

theorem send_tries {request : HttpRequest} (hpost : request.method = .post) :
    Tries (At parse log) (plainly (send request))
      (fun r => At parse (log ++ [.sent request (.ok r)])) (LegFails parse) (Sound parse) := by
  refine Tries.mapError ?_
  show Spec _ _ _ _
  refine Spec.ask (fun w h => h.1) fun t w h => ?_
  obtain ⟨hsound, rfl⟩ := h
  have hheard : Sound parse (w.hear (.sent request t.response)) := by
    -- only a probe has to be justified, and no probe is a post
    refine hsound.hear (fun _ _ => nofun) fun hget => ?_
    rw [hpost] at hget
    cases hget
  dsimp only
  cases hresponse : t.response with
  | ok r =>
    rw [hresponse] at hheard
    exact ⟨hheard, rfl⟩
  | error error =>
    rw [hresponse] at hheard
    exact ⟨hheard, fun hrefusal => absurd hrefusal Bool.false_ne_true⟩

theorem exchange_tries {request : HttpRequest} (hpost : request.method = .post) :
    Tries (At parse log) (exchange parse request)
      (fun r w => At parse (log ++ [.sent request (.ok r)]) w ∧ isKotakSuccess parse r = true)
      (LegFails parse) (Sound parse) := by
  unfold exchange
  refine Tries.bind (send_tries hpost) fun r => ?_
  cases hsuccess : isKotakSuccess parse r with
  | true => exact Tries.pure fun w h => ⟨h, hsuccess⟩
  | false =>
    -- the answer that is thrown here is the last thing that was heard
    refine Tries.throw fun w h => ⟨h.1, fun hrefusal => ?_⟩
    exact ⟨log, request, r, h.2, hsuccess, hrefusal⟩

theorem fetchAccessToken_tries (consumerKey consumerSecret : Bytes) :
    Tries (At parse log) (fetchAccessToken parse consumerKey consumerSecret)
      (fun token w => ∃ r,
        At parse (log ++ [.sent (oauthRequest consumerKey consumerSecret) (.ok r)]) w
          ∧ isKotakSuccess parse r = true ∧ accessTokenIn parse r.body = token)
      (LegFails parse) (Sound parse) := by
  unfold fetchAccessToken
  refine Tries.bind (exchange_tries rfl) fun r => ?_
  cases htoken : accessTokenIn parse r.body with
  | nil => exact Tries.throw fun w h => ⟨h.1.1, fun hrefusal => absurd hrefusal Bool.false_ne_true⟩
  | cons c token => exact Tries.pure fun w h => ⟨r, h.1, h.2, htoken⟩

theorem postLogin_tries (accessToken body : Bytes) (extraHeaders : List (Bytes × Bytes)) :
    Tries (At parse log) (postLogin parse accessToken body extraHeaders)
      (fun leg w => ∃ r,
        At parse (log ++ [.sent (loginRequest accessToken body extraHeaders) (.ok r)]) w
          ∧ isKotakSuccess parse r = true ∧ readLeg parse r = .ok leg)
      (LegFails parse) (Sound parse) := by
  unfold postLogin
  refine Tries.bind (exchange_tries rfl) fun r => Tries.mapError (Tries.ofExcept ?_ ?_)
  · intro leg w h hleg
    exact ⟨r, h.1, h.2, hleg⟩
  · intro error w h _
    exact ⟨h.1.1, fun hrefusal => absurd hrefusal Bool.false_ne_true⟩

theorem legs_tries (consumerKey consumerSecret mobile password mpin : Bytes) :
    Tries (At parse log) (legs parse consumerKey consumerSecret mobile password mpin)
      (fun bundle w => Sound parse w ∧ LoggedIn parse log w.log bundle) (LegFails parse)
      (Sound parse) := by
  unfold legs
  -- each leg starts from the log that the one before has left
  refine Tries.bind (fetchAccessToken_tries consumerKey consumerSecret) fun accessToken => ?_
  refine Spec.exists fun r1 => Spec.given fun ⟨hfirst, htoken⟩ => ?_
  refine Tries.bind (postLogin_tries accessToken (loginBody mobile password) []) fun view => ?_
  refine Spec.exists fun r2 => Spec.given fun ⟨hsecond, hview⟩ => ?_
  refine Tries.bind (postLogin_tries accessToken (mpinBody mobile mpin) (viewHeaders view))
    fun finalLeg => ?_
  refine Spec.exists fun r3 => Spec.given fun ⟨hthird, hfinal⟩ => Tries.pure fun w h => ⟨h.1, ?_⟩
  refine ⟨consumerKey, consumerSecret, mobile, password, mpin, view, finalLeg, r1, r2, r3, ?_,
    hfirst, hsecond, hthird, htoken, hview, hfinal, rfl⟩
  rw [h.2]
  simp [bundleOf]

/-- What a login comes to, before it is told. -/
def LoginEnds (parse : ParseJson) (state : SessionState) (w : World) : Prop :=
  Sound parse w ∧ ∀ inputs, Justified parse w.log (.answered (.establish inputs) (.ok state))

theorem save_tries {before : List Event} {bundle : KotakSessionBundle}
    (hlogin : LoggedIn parse before log bundle) (hcomplete : bundle.complete = true) :
    Tries (At parse log) (plainly (save bundle.toJson))
      (fun _ w => Sound parse w
        ∧ ∃ saved, w.log = log ++ [.saved bundle.toJson saved] ∧ saved.result = .ok ())
      (LegFails parse) (Sound parse) := by
  refine Tries.mapError ?_
  show Spec _ _ _ _
  refine Spec.ask (fun w h => h.1) fun t w h => ?_
  obtain ⟨hsound, rfl⟩ := h
  dsimp only
  have hsaved : Sound parse
      { stored := if t.saved.landed then some bundle.toJson else w.stored
        log := w.log ++ [.saved bundle.toJson t.saved] } := by
    refine ⟨justified_append hsound.log ⟨before, bundle, hlogin, hcomplete, rfl⟩, ?_⟩
    -- what has landed counts, whatever the caller is told of it
    show (if t.saved.landed then _ else _) = lastSaved (w.log ++ [_])
    unfold lastSaved
    rw [List.filterMap_append, hsound.stored]
    cases hlanded : t.saved.landed with
    | true => simp [hlanded]
    | false => simp [hlanded, lastSaved]
  cases hresult : t.saved.result with
  | ok _ => exact ⟨hsaved, t.saved, rfl, hresult⟩
  | error error => exact ⟨hsaved, fun hrefusal => absurd hrefusal Bool.false_ne_true⟩

theorem persist_tries (bundle : KotakSessionBundle) :
    Tries (fun w => Sound parse w ∧ LoggedIn parse log w.log bundle) (persist bundle)
      (LoginEnds parse) (LegFails parse) (Sound parse) := by
  unfold persist
  cases hcomplete : bundle.complete with
  | true =>
    -- the log in front of the save, by name
    intro ticks w h
    refine Tries.bind (save_tries h.2 hcomplete) (fun _ => Tries.pure fun w' h' => ?_) ticks w
      ⟨h.1, rfl⟩
    obtain ⟨hsound, saved, hlog, hresult⟩ := h'
    exact ⟨hsound, fun _ => ⟨w.log, bundle.toJson, saved, hlog, hresult⟩⟩
  | false =>
    exact Tries.pure fun w h => ⟨h.1, fun _ => .inr ⟨log, bundle, h.2, hcomplete⟩⟩

theorem login_tries (inputs : KotakLoginInputs) :
    Tries (At parse log) (login parse inputs) (LoginEnds parse) (LegFails parse) (Sound parse) := by
  have hsecret : ∀ name, Tries (At parse log) (plainly (askSecret name)) (fun _ => At parse log)
      (LegFails parse) (Sound parse) := by
    intro name
    refine (askSecret_tries name).weaken (fun _ h => h) (fun _ _ h => h) (fun f w h => ?_)
      fun _ h => h
    exact ⟨h.1, fun hrefusal => absurd (h.2.symm.trans hrefusal) Bool.false_ne_true⟩
  unfold login
  refine Tries.bind (hsecret _) fun consumerKey => ?_
  refine Tries.bind (hsecret _) fun consumerSecret => ?_
  refine Tries.bind (hsecret _) fun mobile => ?_
  refine Tries.bind (hsecret _) fun password => ?_
  refine Tries.bind (hsecret _) fun mpin => ?_
  exact Tries.bind (legs_tries consumerKey consumerSecret mobile password mpin) persist_tries

/-- A call that has answered. -/
def Answers (parse : ParseJson) (op : Op) (result : Result SessionState) (w : World) : Prop :=
  Sound parse w ∧ Justified parse w.log (.answered op result)

theorem establish_spec (inputs : KotakLoginInputs) :
    Spec (Sound parse) (establish parse inputs) (Answers parse (.establish inputs))
      (Sound parse) := by
  intro ticks w h
  have hlogin : Tries (At parse w.log) (login parse inputs) (LoginEnds parse) (LegFails parse)
      (Sound parse) := login_tries inputs
  refine Spec.bind hlogin (fun outcome => Spec.pure ?_) ticks w ⟨h, rfl⟩
  intro w' hends
  cases outcome with
  | ok state => exact ⟨hends.1, hends.2 inputs⟩
  | error f =>
    refine ⟨hends.1, ?_⟩
    show Justified parse w'.log
      (.answered _ (if f.credentialRefusal then .ok .failed else .error f.error))
    cases hrefusal : f.credentialRefusal with
    | true => exact .inl (hends.2 hrefusal)
    | false => trivial

theorem loadText_spec :
    Spec (Sound parse) loadText
      (fun text w => Sound parse w ∧ ∀ found, text = .ok found → w.stored = some found)
      (Sound parse) := by
  refine Spec.ask (fun w h => h) fun t w h => ?_
  cases t.loadFault with
  | some error => exact ⟨h, fun _ => nofun⟩
  | none =>
    cases hstored : w.stored with
    | none => exact ⟨h, fun _ => nofun⟩
    | some text =>
      refine ⟨h, fun found heq => ?_⟩
      rw [hstored, Except.ok.inj heq]

/-- The probe of a bundle that was read from what is stored. -/
theorem probe_spec {text : Bytes} {bundle : KotakSessionBundle}
    (hread : KotakSessionBundle.fromJson parse text = .ok bundle)
    (hcomplete : bundle.complete = true) :
    Spec (fun w => Sound parse w ∧ w.stored = some text)
      (do let answer ← send (probeRequest bundle); return answer >>= probed parse)
      (Answers parse .validate) (Sound parse) := by
  have hsend : Spec (fun w => Sound parse w ∧ w.stored = some text) (send (probeRequest bundle))
      (fun answer w => Sound parse w
        ∧ ∃ before, w.log = before ++ [.sent (probeRequest bundle) answer])
      (Sound parse) := by
    refine Spec.ask (fun w h => h.1) fun t w h => ?_
    -- what is stored was saved last, so the probe carries it
    refine ⟨h.1.hear (fun _ _ => nofun) fun _ => ?_, w.log, rfl⟩
    exact ⟨text, bundle, h.1.stored.symm.trans h.2, hread, hcomplete, rfl⟩
  refine Spec.bind hsend fun answer => Spec.pure fun w h => ⟨h.1, ?_⟩
  obtain ⟨hsound, before, hlog⟩ := h
  cases answer with
  | error error => trivial
  | ok r =>
    show Justified parse w.log (.answered .validate (probed parse r))
    unfold probed
    split_ifs with hdeath hsuccess hparsed
    · trivial
    · exact ⟨before, bundle, r, hlog, hsuccess, hparsed⟩
    · trivial
    · trivial

theorem validate_spec : Spec (Sound parse) (validate parse) (Answers parse .validate)
    (Sound parse) := by
  unfold validate
  refine Spec.bind loadText_spec fun text => ?_
  cases text with
  | error error => exact Spec.pure fun w h => ⟨h.1, trivial⟩
  | ok text =>
    cases hread : KotakSessionBundle.fromJson parse text with
    | error error =>
      simp only [hread]
      exact Spec.pure fun w h => ⟨h.1, trivial⟩
    | ok bundle =>
      simp only [hread]
      cases hcomplete : bundle.complete with
      | false => exact Spec.pure fun w h => ⟨h.1, trivial⟩
      | true =>
        rw [if_pos rfl]
        exact (probe_spec hread hcomplete).weaken (fun w h => ⟨h.1, h.2 text rfl⟩) fun _ _ h => h

theorem perform_spec (op : Op) :
    Spec (Sound parse) (perform parse op) (Answers parse op) (Sound parse) := by
  cases op with
  | establish inputs => exact establish_spec inputs
  | validate => exact validate_spec

theorem serve_spec (ops : List Op) :
    Spec (Sound parse) (serve parse ops) (fun _ => Sound parse) (Sound parse) := by
  induction ops with
  | nil => exact Spec.pure fun _ h => h
  | cons op ops ih =>
    refine Spec.bind (perform_spec op) fun result => ?_
    refine Spec.bind (Spec.step fun w h => ?_) fun _ => ih
    exact h.1.hear (fun _ _ => nofun) h.2

/-- **Whatever the broker answers and wherever a process dies**: each save stores what three
exchanges in a row have brought, and nothing incomplete; a probe carries what was saved last; a
login is healthy only behind its save, and failed only behind the broker's own word. -/
theorem log_run (parse : ParseJson) (all : List Life) : Sound parse (lives parse all) := by
  have hstart : Sound parse ⟨none, []⟩ := by
    refine ⟨fun front e back h => ?_, rfl⟩
    simp at h
  unfold lives
  generalize (⟨none, []⟩ : World) = w at hstart
  induction all generalizing w with
  | nil => exact hstart
  | cons life all ih => exact ih _ ((serve_spec life.ops).state life.ticks hstart)

end BrokerExec.Adapters.Kotak.Login
