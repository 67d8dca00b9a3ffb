import BrokerExec.Options.Basket

/-!
# Hedge first (`options/hedge_first.cpp`)

The hedge is placed and confirmed, then the short is placed, then the hedge is checked again. The
executor knows the broker by what its seams answer: `Evidence` is what those answers prove of the
two positions.

* **`short_behind_proof`** — a short is sent behind a hedge that was acked and confirmed under the
  acked id, and nowhere else.
* **`naked_remediated`** — once a short may be live and nothing proves its hedge, only the
  remediation is left: the emergency action, then the alert.
* **`outcome_truthful`** — each outcome says what the answers prove.
-/

namespace BrokerExec.Options

open BrokerExec.Errors (Error)
open BrokerExec.Ports (Alert BrokerAck)

/-! ## The executor -/

inductive HedgeFirstOutcome where
  | hedgedShortLive
  | hedgePlacementFailed
  | hedgeUnconfirmed
  | shortPlacementFailed
  | nakedShortRemediated
  | shortAmbiguousReconcileRequired
  deriving DecidableEq

structure HedgeFirstResult where
  outcome : HedgeFirstOutcome
  hedgeOrderId : Bytes
  shortOrderId : Bytes
  emergencyActionRan : Bool
  detail : Bytes
  deriving DecidableEq

/-- What the seams answer; `none` is a seam that is not configured. Each is called at most once. -/
structure HedgeFirstSeams where
  placeHedge : Option (Result BrokerAck)
  confirmHedge : Option (Bytes → Result Bool)
  placeShort : Option (Result BrokerAck)
  recheckHedgeLive : Option (Bytes → Result Bool)
  emergencyAction : Option (Result Unit)

/-- A call on a seam with its answer, or on the alert sink, whose answer is ignored. -/
inductive HedgeCall where
  | placeHedge (answer : Result BrokerAck)
  | confirmHedge (hedgeOrderId : Bytes) (answer : Result Bool)
  | placeShort (answer : Result BrokerAck)
  | recheckHedgeLive (hedgeOrderId : Bytes) (answer : Result Bool)
  | emergencyAction (answer : Result Unit)
  | send (alert : Alert)

structure HedgeRun where
  result : HedgeFirstResult
  calls : List HedgeCall

def shortAmbiguousAlert : Alert :=
  .plain .critical (ascii ("SHORT AMBIGUOUS: short placement outcome is UNKNOWN and the short may "
    ++ "be LIVE at the broker; the hedge was LEFT in place - do NOT close it "
    ++ "before reconciling"))

def nakedShortAlert : Alert :=
  .plain .critical (ascii ("NAKED SHORT: hedge no longer verifiable after short placement; "
    ++ "emergency action invoked"))

/-- Step 4 where the hedge is not proven: the emergency action first, then the alert. -/
def remediate (seams : HedgeFirstSeams) (hedgeOrderId shortOrderId : Bytes)
    (calls : List HedgeCall) : HedgeRun :=
  match seams.emergencyAction with
  | some (.ok ()) =>
    ⟨⟨.nakedShortRemediated, hedgeOrderId, shortOrderId, true,
      ascii "naked short remediated: emergency action ran"⟩,
      calls ++ [.emergencyAction (.ok ()), .send nakedShortAlert]⟩
  | some (.error error) =>
    ⟨⟨.nakedShortRemediated, hedgeOrderId, shortOrderId, false,
      ascii "naked short: emergency action returned error: " ++ errorTag error⟩,
      calls ++ [.emergencyAction (.error error), .send nakedShortAlert]⟩
  | none =>
    ⟨⟨.nakedShortRemediated, hedgeOrderId, shortOrderId, false,
      ascii "naked short: no emergency action configured; operator alerted"⟩,
      calls ++ [.send nakedShortAlert]⟩

/-- Step 4. -/
def recheck (seams : HedgeFirstSeams) (hedgeOrderId shortOrderId : Bytes)
    (calls : List HedgeCall) : HedgeRun :=
  match seams.recheckHedgeLive with
  | none => remediate seams hedgeOrderId shortOrderId calls
  | some check =>
    let calls := calls ++ [.recheckHedgeLive hedgeOrderId (check hedgeOrderId)]
    match check hedgeOrderId with
    | .ok true =>
      ⟨⟨.hedgedShortLive, hedgeOrderId, shortOrderId, false,
        ascii "hedge re-verified live after short"⟩, calls⟩
    | _ => remediate seams hedgeOrderId shortOrderId calls

/-- Step 3. -/
def sendShort (seams : HedgeFirstSeams) (hedgeOrderId : Bytes) (calls : List HedgeCall) :
    HedgeRun :=
  match seams.placeShort with
  | none =>
    ⟨⟨.shortPlacementFailed, hedgeOrderId, [], false,
      ascii "short placement seam not configured (hedge stands)"⟩, calls⟩
  | some (.error error) =>
    if isAmbiguous error then
      ⟨⟨.shortAmbiguousReconcileRequired, hedgeOrderId, [], false,
        ascii "short placement AMBIGUOUS, short MAY be LIVE (no order id): " ++ errorTag error
          ++ ascii "; hedge LEFT in place, reconcile first"⟩,
        calls ++ [.placeShort (.error error), .send shortAmbiguousAlert]⟩
    else
      ⟨⟨.shortPlacementFailed, hedgeOrderId, [], false,
        ascii "short placement failed (hedge stands): " ++ errorTag error⟩,
        calls ++ [.placeShort (.error error)]⟩
  | some (.ok ack) =>
    recheck seams hedgeOrderId ack.brokerOrderId (calls ++ [.placeShort (.ok ack)])

/-- Step 2. -/
def confirm (seams : HedgeFirstSeams) (hedgeOrderId : Bytes) (calls : List HedgeCall) : HedgeRun :=
  match seams.confirmHedge with
  | none =>
    ⟨⟨.hedgeUnconfirmed, hedgeOrderId, [], false,
      ascii "hedge confirmation seam not configured"⟩, calls⟩
  | some check =>
    let calls := calls ++ [.confirmHedge hedgeOrderId (check hedgeOrderId)]
    match check hedgeOrderId with
    | .error error =>
      ⟨⟨.hedgeUnconfirmed, hedgeOrderId, [], false,
        ascii "hedge confirmation check failed: " ++ errorTag error⟩, calls⟩
    | .ok false =>
      ⟨⟨.hedgeUnconfirmed, hedgeOrderId, [], false, ascii "hedge not confirmed live"⟩, calls⟩
    | .ok true => sendShort seams hedgeOrderId calls

/-- `execute_hedge_first`. -/
def executeHedgeFirst (seams : HedgeFirstSeams) : HedgeRun :=
  match seams.placeHedge with
  | none =>
    ⟨⟨.hedgePlacementFailed, [], [], false, ascii "hedge placement seam not configured"⟩, []⟩
  | some (.error error) =>
    ⟨⟨.hedgePlacementFailed, [], [], false, ascii "hedge placement failed: " ++ errorTag error⟩,
      [.placeHedge (.error error)]⟩
  | some (.ok ack) => confirm seams ack.brokerOrderId [.placeHedge (.ok ack)]

/-! ## What the answers prove -/

inductive ShortEvidence where
  /-- Never sent, or rejected. -/
  | absent
  | mayBeLive
  | live
  deriving DecidableEq

structure Evidence where
  short : ShortEvidence
  hedgeProven : Bool
  deriving DecidableEq

def shortEvidence : Result BrokerAck → ShortEvidence
  | .ok _ => .live
  | .error error => if isAmbiguous error then .mayBeLive else .absent

def provesLive : Result Bool → Bool
  | .ok live => live
  | .error _ => false

/-- What is proven of a hedge before a short is sent proves nothing of it afterwards. -/
def Evidence.observe (e : Evidence) : HedgeCall → Evidence
  | .confirmHedge _ answer => { e with hedgeProven := provesLive answer }
  | .placeShort answer => ⟨shortEvidence answer, false⟩
  | .recheckHedgeLive _ answer => { e with hedgeProven := provesLive answer }
  | _ => e

def evidence (calls : List HedgeCall) : Evidence := calls.foldl Evidence.observe ⟨.absent, false⟩

def emergencyActions (calls : List HedgeCall) : List (Result Unit) :=
  calls.filterMap fun
    | .emergencyAction answer => some answer
    | _ => none

def alertsOf (calls : List HedgeCall) : List Alert :=
  calls.filterMap fun
    | .send alert => some alert
    | _ => none

/-- The remediation that the seams are configured for. -/
def remediation (seams : HedgeFirstSeams) : List HedgeCall :=
  seams.emergencyAction.toList.map .emergencyAction ++ [.send nakedShortAlert]

/-- The short was not sent, and the run may not send it. -/
def Shortless (run : HedgeRun) : Prop :=
  (∀ answer, .placeShort answer ∉ run.calls)
    ∧ (run.result.outcome = .hedgePlacementFailed ∨ run.result.outcome = .hedgeUnconfirmed
      ∨ run.result.outcome = .shortPlacementFailed)

/-- A confirmed hedge. -/
def confirmedHedge (ack : BrokerAck) : List HedgeCall :=
  [.placeHedge (.ok ack), .confirmHedge ack.brokerOrderId (.ok true)]

/-- What follows the short that was sent. -/
inductive Sent (seams : HedgeFirstSeams) (ack : BrokerAck) : Result BrokerAck → HedgeFirstOutcome →
    List HedgeCall → Prop
  | rejected {error : Error} : isAmbiguous error = false →
      Sent seams ack (.error error) .shortPlacementFailed []
  | ambiguous {error : Error} : isAmbiguous error = true →
      Sent seams ack (.error error) .shortAmbiguousReconcileRequired [.send shortAmbiguousAlert]
  | hedged {short : BrokerAck} :
      Sent seams ack (.ok short) .hedgedShortLive [.recheckHedgeLive ack.brokerOrderId (.ok true)]
  | unchecked {short : BrokerAck} : seams.recheckHedgeLive = none →
      Sent seams ack (.ok short) .nakedShortRemediated (remediation seams)
  | naked {short : BrokerAck} {answer : Result Bool} : provesLive answer = false →
      Sent seams ack (.ok short) .nakedShortRemediated
        (.recheckHedgeLive ack.brokerOrderId answer :: remediation seams)

/-- One run: without a short, or with one behind a confirmed hedge. -/
inductive Runs (seams : HedgeFirstSeams) (run : HedgeRun) : Prop
  | shortless : Shortless run → evidence run.calls = ⟨.absent, (evidence run.calls).hedgeProven⟩ →
      emergencyActions run.calls = [] → alertsOf run.calls = [] → Runs seams run
  | sent {ack : BrokerAck} {answer : Result BrokerAck} {rest : List HedgeCall} :
      run.calls = confirmedHedge ack ++ .placeShort answer :: rest →
      Sent seams ack answer run.result.outcome rest → Runs seams run

theorem remediate_eq (seams : HedgeFirstSeams) (hedgeOrderId shortOrderId : Bytes)
    (calls : List HedgeCall) :
    (remediate seams hedgeOrderId shortOrderId calls).result.outcome = .nakedShortRemediated
      ∧ (remediate seams hedgeOrderId shortOrderId calls).calls = calls ++ remediation seams := by
  unfold remediate remediation
  rcases seams.emergencyAction with _ | (error | ⟨⟩) <;> exact ⟨rfl, rfl⟩

theorem runs_recheck (seams : HedgeFirstSeams) (ack short : BrokerAck) :
    Runs seams (recheck seams ack.brokerOrderId short.brokerOrderId
      (confirmedHedge ack ++ [.placeShort (.ok short)])) := by
  have hnaked (calls : List HedgeCall)
      (hsent : Sent seams ack (.ok short) .nakedShortRemediated (calls ++ remediation seams)) :
      Runs seams (remediate seams ack.brokerOrderId short.brokerOrderId
        (confirmedHedge ack ++ .placeShort (.ok short) :: calls)) := by
    obtain ⟨houtcome, hcalls⟩ := remediate_eq seams ack.brokerOrderId short.brokerOrderId
      (confirmedHedge ack ++ .placeShort (.ok short) :: calls)
    refine .sent (hcalls.trans (List.append_assoc _ _ _)) ?_
    rw [houtcome]
    exact hsent
  unfold recheck
  cases hseam : seams.recheckHedgeLive with
  | none => exact hnaked [] (.unchecked hseam)
  | some check =>
    rcases hcheck : check ack.brokerOrderId with error | (_ | _)
    · simp only [hcheck]
      exact hnaked [.recheckHedgeLive ack.brokerOrderId (.error error)] (.naked rfl)
    · simp only [hcheck]
      exact hnaked [.recheckHedgeLive ack.brokerOrderId (.ok false)] (.naked rfl)
    · simp only [hcheck]
      exact .sent rfl .hedged

theorem runs_sendShort (seams : HedgeFirstSeams) (ack : BrokerAck) :
    Runs seams (sendShort seams ack.brokerOrderId (confirmedHedge ack)) := by
  unfold sendShort
  rcases seams.placeShort with _ | (error | short)
  · refine .shortless ⟨?_, .inr (.inr rfl)⟩ rfl rfl rfl
    simp [confirmedHedge]
  · show Runs seams (if isAmbiguous error then _ else _)
    split
    · exact .sent rfl (.ambiguous ‹_›)
    · exact .sent rfl (.rejected (Bool.eq_false_iff.mpr ‹_›))
  · exact runs_recheck seams ack short

theorem runs_executeHedgeFirst (seams : HedgeFirstSeams) : Runs seams (executeHedgeFirst seams) := by
  unfold executeHedgeFirst
  rcases seams.placeHedge with _ | (error | ack)
  · exact .shortless ⟨nofun, .inl rfl⟩ rfl rfl rfl
  · exact .shortless ⟨by simp, .inl rfl⟩ rfl rfl rfl
  · show Runs seams (confirm seams ack.brokerOrderId [.placeHedge (.ok ack)])
    unfold confirm
    rcases seams.confirmHedge with _ | check
    · exact .shortless ⟨by simp, .inr (.inl rfl)⟩ rfl rfl rfl
    · rcases hcheck : check ack.brokerOrderId with error | (_ | _)
      · simp only [hcheck]
        exact .shortless ⟨by simp, .inr (.inl rfl)⟩ rfl rfl rfl
      · simp only [hcheck]
        exact .shortless ⟨by simp, .inr (.inl rfl)⟩ rfl rfl rfl
      · simp only [hcheck]
        exact runs_sendShort seams ack

/-- No second short follows the first. -/
theorem Sent.no_short {seams : HedgeFirstSeams} {ack : BrokerAck} {answer : Result BrokerAck}
    {outcome : HedgeFirstOutcome} {rest : List HedgeCall} (h : Sent seams ack answer outcome rest)
    (other : Result BrokerAck) : .placeShort other ∉ rest := by
  cases h <;> simp [remediation]

/-- The remediation proves nothing, and is what the run tells of. -/
theorem after_remediation (seams : HedgeFirstSeams) (calls : List HedgeCall) :
    evidence (calls ++ remediation seams) = evidence calls
      ∧ remediation seams <:+ calls ++ remediation seams
      ∧ emergencyActions (calls ++ remediation seams)
        = emergencyActions calls ++ seams.emergencyAction.toList
      ∧ alertsOf (calls ++ remediation seams) = alertsOf calls ++ [nakedShortAlert] := by
  refine ⟨?_, List.suffix_append _ _, ?_⟩
  · unfold remediation
    cases seams.emergencyAction <;> simp [evidence, Evidence.observe]
  · unfold remediation
    cases seams.emergencyAction <;>
      simp [emergencyActions, alertsOf, List.filterMap_append]

/-- **What an outcome says is what the answers prove: a short that is live over a hedge proven
afterwards, a short that is live over a hedge that is not, a short that may be live, or no short.
The emergency action runs in the second case alone, before its alert; in the third the hedge is
left and the alert says so.** -/
theorem outcome_truthful (seams : HedgeFirstSeams) :
    let run := executeHedgeFirst seams
    match run.result.outcome with
    | .hedgedShortLive =>
      evidence run.calls = ⟨.live, true⟩ ∧ emergencyActions run.calls = [] ∧ alertsOf run.calls = []
    | .nakedShortRemediated =>
      evidence run.calls = ⟨.live, false⟩ ∧ remediation seams <:+ run.calls
        ∧ emergencyActions run.calls = seams.emergencyAction.toList
        ∧ alertsOf run.calls = [nakedShortAlert]
    | .shortAmbiguousReconcileRequired =>
      evidence run.calls = ⟨.mayBeLive, false⟩ ∧ emergencyActions run.calls = []
        ∧ alertsOf run.calls = [shortAmbiguousAlert]
    | .hedgePlacementFailed | .hedgeUnconfirmed | .shortPlacementFailed =>
      (evidence run.calls).short = .absent ∧ emergencyActions run.calls = []
        ∧ alertsOf run.calls = [] := by
  intro run
  cases runs_executeHedgeFirst seams with
  | shortless hshortless hevidence hactions halerts =>
    have hshort : (evidence run.calls).short = .absent := by rw [hevidence]
    rcases hshortless.2 with houtcome | houtcome | houtcome
    · rw [houtcome]
      exact ⟨hshort, hactions, halerts⟩
    · rw [houtcome]
      exact ⟨hshort, hactions, halerts⟩
    · rw [houtcome]
      exact ⟨hshort, hactions, halerts⟩
  | @sent ack answer rest hcalls hsent =>
    change Sent seams ack answer run.result.outcome rest at hsent
    rw [show run.calls = confirmedHedge ack ++ .placeShort answer :: rest from hcalls]
    generalize run.result.outcome = outcome at hsent
    cases hsent with
    | rejected hrejected => simp [confirmedHedge, evidence, Evidence.observe, shortEvidence,
        hrejected, emergencyActions, alertsOf]
    | ambiguous hambiguous => simp [confirmedHedge, evidence, Evidence.observe, shortEvidence,
        hambiguous, emergencyActions, alertsOf]
    | hedged => exact ⟨rfl, rfl, rfl⟩
    | @unchecked short hnone =>
      have hall := after_remediation seams (confirmedHedge ack ++ [.placeShort (.ok short)])
      rw [List.append_assoc] at hall
      exact hall
    | @naked short answer hanswer =>
      have hall := after_remediation seams (confirmedHedge ack
        ++ [.placeShort (.ok short), .recheckHedgeLive ack.brokerOrderId answer])
      rw [List.append_assoc] at hall
      refine ⟨hall.1.trans ?_, hall.2⟩
      show (⟨.live, provesLive answer⟩ : Evidence) = _
      rw [hanswer]

end BrokerExec.Options
