import BrokerExec.Domain.StrategyName
import BrokerExec.Lib.Attempt
import BrokerExec.SessionGuard

/-!
# The safe-start gate (`session/safe_start.cpp`)

Ten checks in a fixed order; the first one that is not there or fails names itself and stops the
start. A check is a process of the caller's.

* **`verify_tries`** — what the ten checks leave one after the other, the gate leaves.
-/

namespace BrokerExec.Session

open BrokerExec.Domain (Order explainInvalidStrategyName isValidStrategyName)
open BrokerExec.Errors (Error makeError)
open BrokerExec.Process (Tries)
open BrokerExec.SessionGuard (SessionState)

variable {τ σ : Type}

/-- An empty one is not wired. -/
abbrev SafeCheck (τ σ : Type) : Type := Option (Process τ σ (Result Unit))

structure SafeStartContext (τ σ : Type) where
  configCheck : SafeCheck τ σ
  strategyNameCheck : SafeCheck τ σ
  cryptoKeysCheck : SafeCheck τ σ
  clockCheck : SafeCheck τ σ
  sessionCheck : SafeCheck τ σ
  egressIpCheck : SafeCheck τ σ
  instrumentMasterCheck : SafeCheck τ σ
  calendarCheck : SafeCheck τ σ
  legacyStopCheck : SafeCheck τ σ
  reconciliationCheck : SafeCheck τ σ

def named (check detail : Bytes) : Bytes :=
  ascii "safe-start: " ++ check ++ ascii " check failed: " ++ detail

def notConfiguredError (check : Bytes) : Error :=
  { makeError .internal (named check (ascii "not configured")) with action := .blockStrategy }

/-- The category, the action and the broker's code stay. -/
def wrapError (check : Bytes) (inner : Error) : Error :=
  { inner with message := named check inner.message }

def runCheck (name : Bytes) (check : SafeCheck τ σ) : Process τ σ (Result Unit) :=
  match check with
  | none => pure (.error (notConfiguredError name))
  | some check => check.mapError (wrapError name)

/-- `SafeStartGate::verify`. -/
def SafeStartContext.verify (ctx : SafeStartContext τ σ) : Process.Attempt τ σ Error Unit := do
  runCheck (ascii "config") ctx.configCheck
  runCheck (ascii "strategy-names") ctx.strategyNameCheck
  runCheck (ascii "crypto-keys") ctx.cryptoKeysCheck
  runCheck (ascii "clock") ctx.clockCheck
  runCheck (ascii "session") ctx.sessionCheck
  runCheck (ascii "egress-IP") ctx.egressIpCheck
  runCheck (ascii "instrument-master") ctx.instrumentMasterCheck
  runCheck (ascii "calendar") ctx.calendarCheck
  runCheck (ascii "legacy-stops") ctx.legacyStopCheck
  runCheck (ascii "reconciliation") ctx.reconciliationCheck

/-! ## The checks of the session's own -/

/-- Only a working stop can still fire. -/
def isLegacyTriggerLessStop (order : Order) : Bool :=
  let isStop := order.intent.orderType = .stopLoss ∨ order.intent.orderType = .stopLossMarket
  if ¬isStop ∨ order.intent.triggerPrice.isSome then false
  else
    match order.state with
    | .filled | .rejected | .cancelled => false
    | _ => true

/-- The `client_ref` of the first one that has any. -/
def firstRef (orders : List Order) : Bytes :=
  ((orders.map (·.intent.clientRef)).find? (· ≠ [])).getD []

def refText (ref : Bytes) : Bytes := if ref = [] then ascii "<no client_ref>" else ref

def requireNoLegacyStops (orders : List Order) : Result Unit :=
  let legacy := orders.filter isLegacyTriggerLessStop
  if legacy.length = 0 then .ok ()
  else
    .error { makeError .validation (ascii "projection holds " ++ decimal legacy.length
        ++ ascii " working stop order(s) with no trigger price " ++ [0xE2, 0x80, 0x94]
        ++ ascii (" these were placed by a pre-IMP-11 binary, which stored the stop level in "
          ++ "\x60price\x60. Their signal signatures have changed, so restart dedupe cannot "
          ++ "recognize them and they could be placed a SECOND time. Flatten or cancel every "
          ++ "outstanding stop before deploying (see docs/upgrade-imp-11-stops.md). First: ")
        ++ refText (firstRef legacy)) with action := .blockStrategy }

def requireValidStrategyNames (names : List Bytes) : Result Unit :=
  let reasons := (names.map explainInvalidStrategyName).filter (· ≠ [])
  match reasons with
  | [] => .ok ()
  | first :: _ =>
    .error { makeError .validation (decimal reasons.length ++ ascii " of " ++ decimal names.length
        ++ ascii (" configured strategy name(s) would make every client_ref they mint unloggable ")
        ++ [0xE2, 0x80, 0x94]
        ++ ascii (" an alert or ledger entry about such an order reads client_ref=***REDACTED*** "
          ++ "and cannot be linked to the store or the intent log. Fix the name(s) in "
          ++ "configuration before trading; renaming changes the signal signature, so do it "
          ++ "BETWEEN sessions with no working orders. First: ")
        ++ first) with action := .blockStrategy }

/-- `KiteSessionEstablisher::needs_reauth_error`. -/
def needsReauthError : Error :=
  ⟨.sessionExpired, .reEstablishSession,
    ascii "kite: daily session expired; operator must re-establish (no headless refresh)", []⟩

def sessionStateToResult : SessionState → Result Unit
  | .healthy => .ok ()
  | .needsReauth | .failed => .error needsReauthError

theorem requireNoLegacyStops_ok_iff {orders : List Order} :
    requireNoLegacyStops orders = .ok () ↔ ∀ o ∈ orders, isLegacyTriggerLessStop o = false := by
  have hnone : (orders.filter isLegacyTriggerLessStop).length = 0
      ↔ ∀ o ∈ orders, isLegacyTriggerLessStop o = false := by
    simp
  rw [← hnone]
  unfold requireNoLegacyStops
  dsimp only
  split_ifs with h
  · exact iff_of_true rfl h
  · exact iff_of_false nofun h

theorem requireValidStrategyNames_ok_iff {names : List Bytes} :
    requireValidStrategyNames names = .ok () ↔ ∀ name ∈ names, isValidStrategyName name = true := by
  have hreasons : (names.map explainInvalidStrategyName).filter (· ≠ []) = []
      ↔ ∀ name ∈ names, isValidStrategyName name = true := by
    simp [List.filter_eq_nil_iff, isValidStrategyName]
  rw [← hreasons]
  unfold requireValidStrategyNames
  dsimp only
  cases (names.map explainInvalidStrategyName).filter (· ≠ []) with
  | nil => exact iff_of_true rfl rfl
  | cons first rest => exact iff_of_false nofun nofun

theorem sessionStateToResult_ok_iff {state : SessionState} :
    sessionStateToResult state = .ok () ↔ state = .healthy := by
  cases state <;> simp [sessionStateToResult]

/-! ## The gate -/

/-- **The gate hands over from check to check.** -/
theorem verify_tries {ctx : SafeStartContext τ σ} {I : Nat → σ → Prop} {fail : Error → σ → Prop}
    {stop : σ → Prop}
    (hconfig : Tries (I 0) (runCheck (ascii "config") ctx.configCheck) (fun _ => I 1) fail stop)
    (hnames : Tries (I 1) (runCheck (ascii "strategy-names") ctx.strategyNameCheck) (fun _ => I 2)
      fail stop)
    (hkeys : Tries (I 2) (runCheck (ascii "crypto-keys") ctx.cryptoKeysCheck) (fun _ => I 3)
      fail stop)
    (hclock : Tries (I 3) (runCheck (ascii "clock") ctx.clockCheck) (fun _ => I 4) fail stop)
    (hsession : Tries (I 4) (runCheck (ascii "session") ctx.sessionCheck) (fun _ => I 5) fail stop)
    (hegress : Tries (I 5) (runCheck (ascii "egress-IP") ctx.egressIpCheck) (fun _ => I 6) fail
      stop)
    (hmaster : Tries (I 6) (runCheck (ascii "instrument-master") ctx.instrumentMasterCheck)
      (fun _ => I 7) fail stop)
    (hcalendar : Tries (I 7) (runCheck (ascii "calendar") ctx.calendarCheck) (fun _ => I 8) fail
      stop)
    (hlegacy : Tries (I 8) (runCheck (ascii "legacy-stops") ctx.legacyStopCheck) (fun _ => I 9)
      fail stop)
    (hreconciled : Tries (I 9) (runCheck (ascii "reconciliation") ctx.reconciliationCheck)
      (fun _ => I 10) fail stop) :
    Tries (I 0) ctx.verify (fun _ => I 10) fail stop := by
  unfold SafeStartContext.verify
  exact Tries.bind hconfig fun _ => Tries.bind hnames fun _ => Tries.bind hkeys fun _ =>
    Tries.bind hclock fun _ => Tries.bind hsession fun _ => Tries.bind hegress fun _ =>
    Tries.bind hmaster fun _ => Tries.bind hcalendar fun _ => Tries.bind hlegacy fun _ =>
    hreconciled

end BrokerExec.Session
