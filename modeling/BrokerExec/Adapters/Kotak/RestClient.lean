import BrokerExec.Adapters.Kotak.Errors
import BrokerExec.Adapters.Reconciled

/-!
# The Kotak REST client (`adapters/kotak/kotak_rest_client.cpp`)

What the client makes of a response: the envelope first, the status second, and no verdict of
`RetrySafe` on a mutation.

* **`mapKotakError_reconciled_iff`** — which responses the mapper leaves to be reconciled, once
  the throttles are guarded;
* **`responseData_reconciled_iff`** — an ambiguous answer is among them exactly when neither its
  status nor a session phrasing settles it.
-/

namespace BrokerExec.Adapters.Kotak

open BrokerExec.BrokerReason (RejectReason classifyRejection classifyRejection_posture posture)
open BrokerExec.Errors (Error ErrorCategory SuggestedAction makeError)

/-- `guard_mutation`. -/
def guardMutation (isMutation : Bool) (error : Error) : Error :=
  if isMutation ∧ error.action = .retrySafe then { error with action := .reconcileFirst } else error

/-- `request_json` behind the response: the `data`, or the whole object of a mutation. -/
def responseData (parse : ParseJson) (isMutation : Bool) (r : HttpResponse) : Result Json.Value :=
  if isKotakSuccess parse r = false then .error (guardMutation isMutation (mapKotakError parse r))
  else
    match parse r.body with
    | none =>
      .error { makeError .unknown (ascii "kotak: malformed response body") with
        brokerCode := r.codeText }
    | some (.object members) =>
      match members.lookup (ascii "data") with
      | some data => .ok data
      | none => .ok (.object members)
    | some (.array elements) => .ok (.array elements)
    | some _ =>
      .error { makeError .unknown (ascii "kotak: unexpected response shape") with
        brokerCode := r.codeText }

/-! ## Which errors are to be reconciled -/

/-- The responses whose error is a verdict on a mutation: a dead session, a refusal by its text,
or a request that is rejected as invalid. -/
def Definitive (message : Bytes) (status : Int) : Prop :=
  (0 < status ∧ status < 500 ∧ reasonOf message ≠ .indeterminate)
    ∧ ((status = 401 ∨ status = 403 ∨ reasonOf message = .sessionExpired)
      ∨ status ≠ 429
        ∧ (reasonOf message = .margin ∨ reasonOf message = .circuitLimit
          ∨ reasonOf message = .freezeQuantity ∨ reasonOf message = .illiquid
          ∨ reasonOf message = .rmsBlock)
      ∨ reasonOf message = .unknown ∧ (status = 400 ∨ status = 422))

/-- The text of a guarded error says nothing about it. -/
theorem reconciled_guard_mk (category : ErrorCategory) (action : SuggestedAction)
    (message brokerCode : Bytes) :
    Reconciled (guardMutation true ⟨category, action, message, brokerCode⟩)
      ↔ Reconciled (guardMutation true ⟨category, action, [], []⟩) := by
  unfold guardMutation
  split <;> exact Iff.rfl

/-- A reason that is not `Unknown` is the classifier's, and comes with its posture. -/
theorem posture_of_reasonOf (message : Bytes) (h : reasonOf message ≠ .unknown) :
    (if message = [] then .doNotRetry else (classifyRejection message).posture)
      = posture (reasonOf message) := by
  unfold reasonOf at h ⊢
  dsimp only at h ⊢
  by_cases hmessage : message = []
  · simp [hmessage] at h
  · simp only [if_neg hmessage] at h ⊢
    split_ifs at h ⊢
    · exact absurd rfl h
    · exact classifyRejection_posture message

/-- **When the guarded mapper gives an error to reconcile.** -/
theorem mapKotakError_reconciled_iff (parse : ParseJson) (r : HttpResponse) :
    Reconciled (guardMutation true (mapKotakError parse r)) ↔
      ¬ Definitive (parseKotakEnvelope parse r.body).message r.statusCode := by
  unfold mapKotakError
  dsimp only
  generalize parseKotakEnvelope parse r.body = env
  have hposture := posture_of_reasonOf env.message
  generalize (if env.message = [] then [] else scrubBrokerText env.message) = scrubbed
  generalize (r.codeText ++ _ ++ _ : Bytes) = code
  -- a failing server and an indeterminate text outrank every phrasing
  by_cases hserver : 500 ≤ r.statusCode ∨ r.statusCode ≤ 0 ∨ reasonOf env.message = .indeterminate
  · rw [if_pos hserver, reconciled_guard_mk]
    refine iff_of_true (by decide) ?_
    rintro ⟨⟨hpos, hlow, hreason⟩, -⟩
    rcases hserver with h | h | h
    · omega
    · omega
    · exact hreason h
  rw [if_neg hserver]
  obtain ⟨hlow, hpos, hreason⟩ : ¬ 500 ≤ r.statusCode ∧ ¬ r.statusCode ≤ 0
      ∧ reasonOf env.message ≠ .indeterminate := by simpa only [not_or] using hserver
  have hopen : 0 < r.statusCode ∧ r.statusCode < 500 ∧ reasonOf env.message ≠ .indeterminate :=
    ⟨by omega, by omega, hreason⟩
  by_cases hsession : r.statusCode = 401 ∨ r.statusCode = 403
      ∨ reasonOf env.message = .sessionExpired
  · rw [if_pos hsession, reconciled_guard_mk]
    exact iff_of_false (by decide) (not_not_intro ⟨hopen, .inl hsession⟩)
  rw [if_neg hsession]
  -- the guard turns a throttle into one to reconcile
  by_cases hthrottle : r.statusCode = 429 ∨ reasonOf env.message = .rateLimited
  · rw [if_pos hthrottle, reconciled_guard_mk]
    refine iff_of_true (by decide) ?_
    rintro ⟨-, h | ⟨hstatus, h⟩ | ⟨h, hstatus⟩⟩
    · exact hsession h
    · rcases hthrottle with hthrottle | hthrottle
      · exact hstatus hthrottle
      · rw [hthrottle] at h
        simp at h
    · rcases hthrottle with hthrottle | hthrottle
      · omega
      · rw [hthrottle] at h
        cases h
  rw [if_neg hthrottle]
  obtain ⟨hstatus, hlimited⟩ : r.statusCode ≠ 429 ∧ reasonOf env.message ≠ .rateLimited := by
    simpa only [not_or] using hthrottle
  have hexpired : reasonOf env.message ≠ .sessionExpired := fun h => hsession (.inr (.inr h))
  unfold Definitive
  generalize reasonOf env.message = reason at *
  -- a refusal by its text, a text that asks to reconcile, and no verdict of the text at all
  cases reason with
  | margin | circuitLimit | freezeQuantity | illiquid | rmsBlock =>
    simp only [categoryForReason]
    rw [hposture (by decide), reconciled_guard_mk]
    exact iff_of_false (by decide) (not_not_intro ⟨hopen, .inr (.inl ⟨hstatus, by simp⟩)⟩)
  | orderNotFound | alreadyComplete =>
    simp only [categoryForReason]
    rw [hposture (by decide), reconciled_guard_mk]
    refine iff_of_true (by decide) ?_
    rintro ⟨-, h | ⟨-, h⟩ | ⟨h, -⟩⟩
    · exact hsession h
    · simp at h
    · cases h
  | sessionExpired => exact absurd rfl hexpired
  | rateLimited => exact absurd rfl hlimited
  | indeterminate => exact absurd rfl hreason
  | unknown =>
    simp only [categoryForReason]
    -- without a reason the status decides
    by_cases hinvalid : r.statusCode = 400 ∨ r.statusCode = 422
    · have hfound : r.statusCode ≠ 404 := by omega
      rw [if_neg hfound, if_pos hinvalid, reconciled_guard_mk]
      exact iff_of_false (by decide) (not_not_intro ⟨hopen, .inr (.inr ⟨trivial, hinvalid⟩)⟩)
    refine iff_of_true ?_ ?_
    swap
    · rintro ⟨-, h | ⟨-, h⟩ | ⟨-, h⟩⟩
      · exact hsession h
      · simp at h
      · exact hinvalid h
    by_cases hfound : r.statusCode = 404
    · rw [if_pos hfound, reconciled_guard_mk]
      decide
    rw [if_neg hfound, if_neg hinvalid]
    by_cases hread : env.hasFault = true ∨ env.hasError = true ∨ scrubbed ≠ []
        ∨ env.hasStat = true ∧ env.statOk = false
    · rw [if_pos hread, reconciled_guard_mk]
      decide
    · rw [if_neg hread, reconciled_guard_mk]
      decide

/-- An answer that leaves the fate of the order open: a failing server, no status, a throttle, or
a body that tells of no error. -/
def Ambiguous (parse : ParseJson) (r : HttpResponse) : Prop :=
  500 ≤ r.statusCode ∨ r.statusCode ≤ 0 ∨ r.statusCode = 429
    ∨ (parseKotakEnvelope parse r.body).tellsError = false

/-- The ambiguous answers that get a verdict all the same. -/
def Settled (parse : ParseJson) (r : HttpResponse) : Prop :=
  r.statusCode = 429 ∧ reasonOf (parseKotakEnvelope parse r.body).message = .sessionExpired
    ∨ (r.statusCode = 400 ∨ r.statusCode = 401 ∨ r.statusCode = 403 ∨ r.statusCode = 422)
      ∧ (parseKotakEnvelope parse r.body).tellsError = false

/-- An error of the client is the guarded mapper's, or one to reconcile. -/
theorem responseData_error {parse : ParseJson} {r : HttpResponse} {error : Error}
    (h : responseData parse true r = .error error) :
    isKotakSuccess parse r = false ∧ error = guardMutation true (mapKotakError parse r)
      ∨ Reconciled error := by
  unfold responseData at h
  split_ifs at h with hstatus
  · exact .inl ⟨hstatus, (Except.error.inj h).symm⟩
  · split at h
    · obtain rfl := Except.error.inj h
      exact .inr ⟨rfl, by simp [makeError, Errors.defaultActionFor]⟩
    · split at h <;> cases h
    · cases h
    · obtain rfl := Except.error.inj h
      exact .inr ⟨rfl, by simp [makeError, Errors.defaultActionFor]⟩

/-- A body that tells of no error has no text, and no text has no reason. -/
theorem reasonOf_of_silent {env : KotakEnvelope} (h : env.tellsError = false) :
    reasonOf env.message = .unknown := by
  have hmessage : env.message = [] := by
    simp only [KotakEnvelope.tellsError, Bool.or_eq_false_iff] at h
    simpa using h.1.2
  rw [hmessage]
  rfl

theorem Settled.definitive {parse : ParseJson} {r : HttpResponse} (h : Settled parse r) :
    Definitive (parseKotakEnvelope parse r.body).message r.statusCode ∧ Ambiguous parse r
      ∧ isKotakSuccess parse r = false := by
  have hfails : r.isSuccess = false → isKotakSuccess parse r = false := by
    intro hstatus
    simp [isKotakSuccess, hstatus]
  have hstatus : 300 ≤ r.statusCode ∧ r.statusCode < 500 := by
    rcases h with ⟨h, -⟩ | ⟨h, -⟩ <;> omega
  have hfailed : r.isSuccess = false := by
    simp only [HttpResponse.isSuccess, Bool.and_eq_false_iff, decide_eq_false_iff_not]
    omega
  rcases h with ⟨h, hsession⟩ | ⟨h, hsilent⟩
  · exact ⟨⟨⟨by omega, by omega, by rw [hsession]; decide⟩, .inl (.inr (.inr hsession))⟩,
      .inr (.inr (.inl h)), hfails hfailed⟩
  · have hreason := reasonOf_of_silent hsilent
    refine ⟨⟨⟨by omega, by omega, by rw [hreason]; decide⟩, ?_⟩, .inr (.inr (.inr hsilent)),
      hfails hfailed⟩
    rcases h with h | h | h | h
    · exact .inr (.inr ⟨hreason, .inl h⟩)
    · exact .inl (.inl h)
    · exact .inl (.inr (.inl h))
    · exact .inr (.inr ⟨hreason, .inr h⟩)

theorem settled_of_definitive {parse : ParseJson} {r : HttpResponse} (hambiguous : Ambiguous parse r)
    (h : Definitive (parseKotakEnvelope parse r.body).message r.statusCode) :
    Settled parse r := by
  obtain ⟨⟨hpos, hlow, -⟩, h⟩ := h
  -- the first two contradict a verdict, which needs a status within 1 and 499
  rcases hambiguous with hstatus | hstatus | hstatus | hsilent
  · omega
  · omega
  · rcases h with (h | h | h) | ⟨h, -⟩ | ⟨-, h⟩
    · omega
    · omega
    · exact .inl ⟨hstatus, h⟩
    · exact absurd hstatus h
    · omega
  · rw [reasonOf_of_silent hsilent] at h
    rcases h with (h | h | h) | ⟨-, h⟩ | ⟨-, h | h⟩
    · exact .inr ⟨.inr (.inl h), hsilent⟩
    · exact .inr ⟨.inr (.inr (.inl h)), hsilent⟩
    · cases h
    · simp at h
    · exact .inr ⟨.inl h, hsilent⟩
    · exact .inr ⟨.inr (.inr (.inr h)), hsilent⟩

/-- **An ambiguous answer to a mutation is to be reconciled exactly when it is not `Settled`.** -/
theorem responseData_reconciled_iff (parse : ParseJson) (r : HttpResponse) :
    (∀ error, responseData parse true r = .error error → Ambiguous parse r → Reconciled error)
      ↔ ¬ Settled parse r := by
  constructor
  · intro h hsettled
    obtain ⟨hdefinitive, hambiguous, hstatus⟩ := hsettled.definitive
    have herror : responseData parse true r
        = .error (guardMutation true (mapKotakError parse r)) := if_pos hstatus
    exact (mapKotakError_reconciled_iff parse r).mp (h _ herror hambiguous) hdefinitive
  · intro h error herror hambiguous
    rcases responseData_error herror with ⟨-, rfl⟩ | hreconciled
    · rw [mapKotakError_reconciled_iff]
      exact fun hdefinitive => h (settled_of_definitive hambiguous hdefinitive)
    · exact hreconciled

end BrokerExec.Adapters.Kotak
