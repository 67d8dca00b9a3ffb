import BrokerExec.Adapters.Reconciled

/-!
# The Kite REST client (`adapters/kite/kite_rest_client.cpp`)

What the client makes of a response: the envelope's `data`, or an error. `mapHttpError` reads
the exception name first and the HTTP status second.

* **`mapHttpError_reconciled_iff`** — which responses the mapper leaves to be reconciled;
* **`responseData_reconciled_iff`** — an ambiguous answer is among them exactly when neither its
  status nor its exception name settles it.
-/

namespace BrokerExec.Adapters

open BrokerExec.Domain (isAlnum scrub)
open BrokerExec.Errors (Error ErrorCategory SuggestedAction makeError)

namespace Kite

/-! ## Path segments -/

def kMaxPathIdChars : Nat := 64

def isPathIdShape (value : Bytes) : Bool :=
  if value = [] ∨ kMaxPathIdChars < value.length then false
  else value.all fun c => isAlnum c || c == 0x2D || c == 0x5F

def encodedPathSegment (value what code : Bytes) : Result Bytes :=
  if isPathIdShape value = false then
    .error ⟨.validation, .doNotRetry, ascii "kite: the " ++ what
      ++ ascii " is not id-shaped ([A-Za-z0-9_-], 1-64 bytes); it was NOT spliced into a request "
      ++ ascii "URL path and nothing was sent", code⟩
  else .ok (urlEncode value)

/-- **An accepted segment goes out as it is.** -/
theorem encodedPathSegment_eq_ok {value what code segment : Bytes}
    (h : encodedPathSegment value what code = .ok segment) :
    isPathIdShape value = true ∧ segment = value := by
  unfold encodedPathSegment at h
  split_ifs at h with hshape
  obtain rfl := Except.ok.inj h
  have hshape : isPathIdShape value = true := by simpa using hshape
  refine ⟨hshape, urlEncode_of_unreserved fun c hc => ?_⟩
  unfold isPathIdShape at hshape
  split_ifs at hshape
  have hc := List.all_eq_true.mp hshape c hc
  simp only [isUnreserved, Bool.or_eq_true] at hc ⊢
  rcases hc with (hc | hc) | hc
  · exact .inl (.inl (.inl (.inl hc)))
  · exact .inl (.inl (.inl (.inr hc)))
  · exact .inl (.inl (.inr hc))

/-! ## Errors -/

/-- A string member, or nothing. -/
def stringField (members : List (Bytes × Json.Value)) (key : Bytes) : Bytes :=
  match members.lookup key with
  | some (.string s) => s
  | _ => []

/-- The `error_type` and the `message` of the body. -/
def readVerdict (parse : ParseJson) (body : Bytes) : Bytes × Bytes :=
  match parse body with
  | some (.object members) =>
    (stringField members (ascii "error_type"), stringField members (ascii "message"))
  | _ => ([], [])

def mapHttpError (parse : ParseJson) (r : HttpResponse) : Error :=
  let (errorType, rawMessage) := readVerdict parse r.body
  let code := r.codeText ++ if errorType = [] then [] else ascii " " ++ scrub errorType
  let scrubbed := if rawMessage = [] then [] else scrub rawMessage
  let build := fun category action code fallback =>
    (⟨category, action, if scrubbed = [] then fallback else ascii "kite: " ++ scrubbed, code⟩ : Error)
  if errorType = ascii "TokenException" ∨ errorType = ascii "PermissionException"
      ∨ errorType = ascii "TwoFAException" ∨ r.statusCode = 401 ∨ r.statusCode = 403 then
    build .sessionExpired .reEstablishSession code
      (ascii "kite: session expired or invalid; re-establish required")
  else if r.statusCode = 429 ∨ errorType = ascii "TooManyRequests" then
    let code := code ++
      match r.findHeader (ascii "Retry-After") with
      | some retryAfter => ascii " Retry-After=" ++ retryAfter
      | none => []
    build .rateLimited .retrySafe code (ascii "kite: rate limited by broker")
  else if r.statusCode = 404 then
    build .orderNotFound .reconcileFirst code
      (ascii "kite: order or endpoint not found; reconcile required")
  else if errorType = ascii "MarginException" then
    build .insufficientFunds .doNotRetry code (ascii "kite: insufficient margin for the order")
  else if errorType = ascii "OrderException" ∨ errorType = ascii "NetworkException"
      ∨ errorType = ascii "DataException" ∨ errorType = ascii "GeneralException"
      ∨ 500 ≤ r.statusCode then
    build .network .reconcileFirst code (ascii "kite: broker/transport error; reconcile required")
  else if errorType = ascii "InputException"
      ∨ rawMessage ≠ [] ∧ (r.statusCode = 400 ∨ r.statusCode = 422) then
    build .validation .doNotRetry code (ascii "kite: request rejected as invalid")
  else if errorType ≠ [] ∨ scrubbed ≠ [] then
    build .brokerRejected .reconcileFirst code (ascii "kite: broker rejected the request")
  else
    build .unknown .reconcileFirst code (ascii "kite: unclassified transport error")

/-- `request_json` behind the response: the `data` of the envelope. -/
def responseData (parse : ParseJson) (r : HttpResponse) : Result Json.Value :=
  if r.isSuccess = false then .error (mapHttpError parse r)
  else
    match parse r.body with
    | some (.object members) =>
      if stringField members (ascii "status") = ascii "error" then .error (mapHttpError parse r)
      else
        match members.lookup (ascii "data") with
        | none =>
          .error { makeError .unknown (ascii "kite: response missing data envelope") with
            brokerCode := r.codeText }
        | some data => .ok data
    | _ =>
      .error { makeError .unknown (ascii "kite: malformed response body") with
        brokerCode := r.codeText }

/-! ## Which errors are to be reconciled -/

/-- The responses whose error is a verdict: a dead session, a throttle, a lack of margin, or a
request that is rejected as invalid. -/
def Definitive (errorType rawMessage : Bytes) (status : Int) : Prop :=
  (errorType = ascii "TokenException" ∨ errorType = ascii "PermissionException"
      ∨ errorType = ascii "TwoFAException" ∨ status = 401 ∨ status = 403)
    ∨ (status = 429 ∨ errorType = ascii "TooManyRequests")
    ∨ status ≠ 404 ∧ errorType = ascii "MarginException"
    ∨ status ≠ 404 ∧ status < 500 ∧ errorType = ascii "InputException"
    ∨ status < 500 ∧ (errorType ≠ ascii "OrderException" ∧ errorType ≠ ascii "NetworkException"
        ∧ errorType ≠ ascii "DataException" ∧ errorType ≠ ascii "GeneralException")
      ∧ rawMessage ≠ [] ∧ (status = 400 ∨ status = 422)

/-- **When the mapper gives an error to reconcile.** -/
theorem mapHttpError_reconciled_iff (parse : ParseJson) (r : HttpResponse) :
    Reconciled (mapHttpError parse r) ↔
      ¬ Definitive (readVerdict parse r.body).1 (readVerdict parse r.body).2 r.statusCode := by
  unfold mapHttpError
  generalize readVerdict parse r.body = verdict
  obtain ⟨errorType, rawMessage⟩ := verdict
  dsimp only
  by_cases hsession : errorType = ascii "TokenException" ∨ errorType = ascii "PermissionException"
      ∨ errorType = ascii "TwoFAException" ∨ r.statusCode = 401 ∨ r.statusCode = 403
  · rw [if_pos hsession]
    exact iff_of_false (by rw [reconciled_mk]; decide) (not_not_intro (.inl hsession))
  rw [if_neg hsession]
  by_cases hthrottle : r.statusCode = 429 ∨ errorType = ascii "TooManyRequests"
  · rw [if_pos hthrottle]
    exact iff_of_false (by rw [reconciled_mk]; decide) (not_not_intro (.inr (.inl hthrottle)))
  rw [if_neg hthrottle]
  by_cases hmissing : r.statusCode = 404
  · rw [if_pos hmissing]
    refine iff_of_true (by rw [reconciled_mk]; decide) ?_
    -- a 404 is to be reconciled, whatever else the body says
    rintro (h | h | ⟨h, -⟩ | ⟨h, -⟩ | ⟨-, -, -, h⟩)
    · exact hsession h
    · exact hthrottle h
    · exact h hmissing
    · exact h hmissing
    · omega
  rw [if_neg hmissing]
  by_cases hmargin : errorType = ascii "MarginException"
  · rw [if_pos hmargin]
    exact iff_of_false (by rw [reconciled_mk]; decide)
      (not_not_intro (.inr (.inr (.inl ⟨hmissing, hmargin⟩))))
  rw [if_neg hmargin]
  by_cases huncertain : errorType = ascii "OrderException" ∨ errorType = ascii "NetworkException"
      ∨ errorType = ascii "DataException" ∨ errorType = ascii "GeneralException"
      ∨ 500 ≤ r.statusCode
  · rw [if_pos huncertain]
    refine iff_of_true (by rw [reconciled_mk]; decide) ?_
    -- the broker's side failed: the exception is not a verdict
    rintro (h | h | ⟨-, h⟩ | ⟨-, hstatus, rfl⟩ | ⟨hstatus, ⟨h₁, h₂, h₃, h₄⟩, -, -⟩)
    · exact hsession h
    · exact hthrottle h
    · exact hmargin h
    · rcases huncertain with h | h | h | h | h
      · exact absurd h (by decide)
      · exact absurd h (by decide)
      · exact absurd h (by decide)
      · exact absurd h (by decide)
      · omega
    · rcases huncertain with h | h | h | h | h
      · exact h₁ h
      · exact h₂ h
      · exact h₃ h
      · exact h₄ h
      · omega
  rw [if_neg huncertain]
  obtain ⟨h₁, h₂, h₃, h₄, hstatus⟩ : errorType ≠ ascii "OrderException"
      ∧ errorType ≠ ascii "NetworkException" ∧ errorType ≠ ascii "DataException"
      ∧ errorType ≠ ascii "GeneralException" ∧ ¬ 500 ≤ r.statusCode := by
    simpa only [not_or] using huncertain
  by_cases hinvalid : errorType = ascii "InputException"
      ∨ rawMessage ≠ [] ∧ (r.statusCode = 400 ∨ r.statusCode = 422)
  · rw [if_pos hinvalid]
    refine iff_of_false (by rw [reconciled_mk]; decide) (not_not_intro ?_)
    rcases hinvalid with h | ⟨hmessage, h⟩
    · exact .inr (.inr (.inr (.inl ⟨hmissing, by omega, h⟩)))
    · exact .inr (.inr (.inr (.inr ⟨by omega, ⟨h₁, h₂, h₃, h₄⟩, hmessage, h⟩)))
  rw [if_neg hinvalid]
  have hopen : ¬ Definitive errorType rawMessage r.statusCode := by
    rintro (h | h | ⟨-, h⟩ | ⟨-, -, h⟩ | ⟨-, -, hmessage, h⟩)
    · exact hsession h
    · exact hthrottle h
    · exact hmargin h
    · exact hinvalid (.inl h)
    · exact hinvalid (.inr ⟨hmessage, h⟩)
  refine iff_of_true ?_ hopen
  -- with or without a text, the last two branches are to be reconciled
  generalize (if rawMessage = [] then [] else scrub rawMessage) = scrubbed
  by_cases hread : errorType ≠ [] ∨ scrubbed ≠ []
  · rw [if_pos hread, reconciled_mk]
    decide
  · rw [if_neg hread, reconciled_mk]
    decide

/-- An answer that leaves the fate of the order open: a failing server, no status, a throttle, or
a body without an error to read. -/
def Ambiguous (parse : ParseJson) (r : HttpResponse) : Prop :=
  500 ≤ r.statusCode ∨ r.statusCode ≤ 0 ∨ r.statusCode = 429
    ∨ readVerdict parse r.body = ([], [])

/-- The ambiguous answers that get a verdict all the same. -/
def Settled (parse : ParseJson) (r : HttpResponse) : Prop :=
  let errorType := (readVerdict parse r.body).1
  r.statusCode = 429
    ∨ (500 ≤ r.statusCode ∨ r.statusCode ≤ 0)
      ∧ (errorType = ascii "TokenException" ∨ errorType = ascii "PermissionException"
        ∨ errorType = ascii "TwoFAException" ∨ errorType = ascii "TooManyRequests"
        ∨ errorType = ascii "MarginException")
    ∨ r.statusCode ≤ 0 ∧ errorType = ascii "InputException"
    ∨ (r.statusCode = 401 ∨ r.statusCode = 403) ∧ readVerdict parse r.body = ([], [])

/-- An error of the client is the mapper's, or one to reconcile. -/
theorem responseData_error {parse : ParseJson} {r : HttpResponse} {error : Error}
    (h : responseData parse r = .error error) :
    error = mapHttpError parse r ∨ r.isSuccess = true ∧ Reconciled error := by
  unfold responseData at h
  split_ifs at h with hstatus
  · exact .inl (Except.error.inj h).symm
  · have hsuccess : r.isSuccess = true := by simpa using hstatus
    split at h
    · split_ifs at h
      · exact .inl (Except.error.inj h).symm
      · split at h
        · obtain rfl := Except.error.inj h
          exact .inr ⟨hsuccess, rfl, by simp [makeError, Errors.defaultActionFor]⟩
        · cases h
    · obtain rfl := Except.error.inj h
      exact .inr ⟨hsuccess, rfl, by simp [makeError, Errors.defaultActionFor]⟩

theorem Settled.definitive {parse : ParseJson} {r : HttpResponse} (h : Settled parse r) :
    Definitive (readVerdict parse r.body).1 (readVerdict parse r.body).2 r.statusCode
      ∧ Ambiguous parse r ∧ r.isSuccess = false := by
  -- none of these statuses is a success
  have hfails : ∀ s : Int, s < 200 ∨ 300 ≤ s → r.statusCode = s → r.isSuccess = false := by
    intro s hs heq
    simp only [HttpResponse.isSuccess, heq, Bool.and_eq_false_iff, decide_eq_false_iff_not]
    omega
  rcases h with h | ⟨hstatus, htype⟩ | ⟨hstatus, htype⟩ | ⟨hstatus, hread⟩
  · exact ⟨.inr (.inl (.inl h)), .inr (.inr (.inl h)), hfails _ (by omega) h⟩
  · refine ⟨?_, by rcases hstatus with h | h <;> simp [Ambiguous, h], hfails _ (by omega) rfl⟩
    rcases htype with h | h | h | h | h
    · exact .inl (.inl h)
    · exact .inl (.inr (.inl h))
    · exact .inl (.inr (.inr (.inl h)))
    · exact .inr (.inl (.inr h))
    · exact .inr (.inr (.inl ⟨by omega, h⟩))
  · exact ⟨.inr (.inr (.inr (.inl ⟨by omega, by omega, htype⟩))), .inr (.inl hstatus),
      hfails _ (by omega) rfl⟩
  · exact ⟨.inl (.inr (.inr (.inr hstatus))), .inr (.inr (.inr hread)), hfails _ (by omega) rfl⟩

theorem settled_of_definitive {parse : ParseJson} {r : HttpResponse} (hambiguous : Ambiguous parse r)
    (h : Definitive (readVerdict parse r.body).1 (readVerdict parse r.body).2 r.statusCode) :
    Settled parse r := by
  by_cases hthrottle : r.statusCode = 429
  · exact .inl hthrottle
  by_cases hread : readVerdict parse r.body = ([], [])
  · -- nothing was read, so the status alone gave the verdict
    rw [hread] at h
    rcases h with (h | h | h | h) | (h | h) | ⟨-, h⟩ | ⟨-, -, h⟩ | ⟨-, -, h, -⟩
    · exact absurd h (by decide)
    · exact absurd h (by decide)
    · exact absurd h (by decide)
    · exact .inr (.inr (.inr ⟨h, hread⟩))
    · exact absurd h hthrottle
    · exact absurd h (by decide)
    · exact absurd h (by decide)
    · exact absurd h (by decide)
    · exact absurd rfl h
  -- something was read and it is no throttle, so the server failed
  have hstatus : 500 ≤ r.statusCode ∨ r.statusCode ≤ 0 := by
    rcases hambiguous with h | h | h | h
    · exact .inl h
    · exact .inr h
    · exact absurd h hthrottle
    · exact absurd h hread
  rcases h with (h | h | h | h) | (h | h) | ⟨-, h⟩ | ⟨-, hlow, h⟩ | ⟨-, -, -, h⟩
  · exact .inr (.inl ⟨hstatus, .inl h⟩)
  · exact .inr (.inl ⟨hstatus, .inr (.inl h)⟩)
  · exact .inr (.inl ⟨hstatus, .inr (.inr (.inl h))⟩)
  · omega
  · omega
  · exact .inr (.inl ⟨hstatus, .inr (.inr (.inr (.inl h)))⟩)
  · exact .inr (.inl ⟨hstatus, .inr (.inr (.inr (.inr h)))⟩)
  · exact .inr (.inr (.inl ⟨by omega, h⟩))
  · omega

/-- **An ambiguous answer is to be reconciled exactly when it is not `Settled`.** -/
theorem responseData_reconciled_iff (parse : ParseJson) (r : HttpResponse) :
    (∀ error, responseData parse r = .error error → Ambiguous parse r → Reconciled error)
      ↔ ¬ Settled parse r := by
  constructor
  · intro h hsettled
    obtain ⟨hdefinitive, hambiguous, hstatus⟩ := hsettled.definitive
    have herror : responseData parse r = .error (mapHttpError parse r) := if_pos hstatus
    exact (mapHttpError_reconciled_iff parse r).mp (h _ herror hambiguous) hdefinitive
  · intro h error herror hambiguous
    rcases responseData_error herror with rfl | ⟨-, hreconciled⟩
    · rw [mapHttpError_reconciled_iff]
      exact fun hdefinitive => h (settled_of_definitive hambiguous hdefinitive)
    · exact hreconciled

end Kite

end BrokerExec.Adapters
