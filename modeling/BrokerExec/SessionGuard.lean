import BrokerExec.BrokerReason

/-!
# The session guard (`sessionguard/session_guard.cpp`)

A broker text that reads as a dead session overrides the last known session state. Only a
healthy session lets entries through; exits and reconcile reads always pass.

* **`requireOpAllowed_exit`** — no posture blocks an exit.
-/

namespace BrokerExec.SessionGuard

open BrokerExec.BrokerReason (classifyRejection)
open BrokerExec.Domain (scrub)
open BrokerExec.Errors (Error makeError)

inductive SessionState where
  | healthy
  | needsReauth
  | failed
  deriving DecidableEq

def SessionState.toString : SessionState → Bytes
  | .healthy => ascii "Healthy"
  | .needsReauth => ascii "NeedsReauth"
  | .failed => ascii "Failed"

inductive OpClass where
  | entry
  | exit
  | reconcileRead
  deriving DecidableEq

def OpClass.toString : OpClass → Bytes
  | .entry => ascii "entry"
  | .exit => ascii "exit"
  | .reconcileRead => ascii "reconcile_read"

structure SessionPosture where
  state : SessionState
  freezeEntries : Bool
  allowExits : Bool
  allowReconcileReads : Bool
  alert : Bool
  detail : Bytes
  deriving DecidableEq

def makeDetail (state : SessionState) : Bytes :=
  scrub (ascii "session posture '" ++ state.toString ++ ascii "'")

def postureFor (state : SessionState) : SessionPosture :=
  { state := state
    freezeEntries := state ≠ .healthy
    allowExits := true
    allowReconcileReads := true
    alert := state ≠ .healthy
    detail := makeDetail state }

def frozenEntryError (op : OpClass) : Error :=
  { makeError .sessionExpired
      (ascii "sessionguard: entries frozen; operator must re-establish session ("
        ++ op.toString ++ ascii " not allowed)") with
    action := .reEstablishSession }

def assessSession (current : SessionState) (brokerErrorText : Bytes) : SessionPosture :=
  let effective :=
    if (classifyRejection brokerErrorText).reason = .sessionExpired then SessionState.needsReauth
    else current
  postureFor effective

def requireOpAllowed (posture : SessionPosture) (op : OpClass) : Result Unit :=
  if op = .exit ∨ op = .reconcileRead then .ok ()
  else if posture.freezeEntries ∨ posture.state ≠ .healthy then .error (frozenEntryError op)
  else .ok ()

/-- **No posture blocks an exit.** -/
theorem requireOpAllowed_exit (posture : SessionPosture) :
    requireOpAllowed posture .exit = .ok () := if_pos (.inl rfl)

/-- An entry passes exactly in a healthy session whose last broker text reads so. -/
theorem requireOpAllowed_entry (current : SessionState) (brokerErrorText : Bytes) :
    requireOpAllowed (assessSession current brokerErrorText) .entry = .ok ()
      ↔ current = .healthy
        ∧ (classifyRejection brokerErrorText).reason ≠ .sessionExpired := by
  unfold requireOpAllowed assessSession
  rw [if_neg (by decide)]
  dsimp only
  by_cases hdead : (classifyRejection brokerErrorText).reason = .sessionExpired
  · rw [if_pos hdead, if_pos (.inl rfl)]
    exact iff_of_false (by intro h; cases h) fun h => h.2 hdead
  · rw [if_neg hdead]
    by_cases hhealthy : current = .healthy
    · rw [hhealthy]
      exact iff_of_true rfl ⟨rfl, hdead⟩
    · rw [if_pos (.inr hhealthy)]
      exact iff_of_false (by intro h; cases h) fun h => hhealthy h.1

end BrokerExec.SessionGuard
