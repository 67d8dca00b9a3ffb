import BrokerExec.SessionGuard

/-!
# The health snapshot (`cli/health_snapshot.cpp`, `cli/health_state.cpp`)

What the health endpoint is asked is answered from the snapshot published last, and by a refusal
before there is one.

* **`latest_ready`** — behind a ready answer stands a snapshot that somebody published.
-/

namespace BrokerExec.Cli

open BrokerExec.SessionGuard (SessionState)

structure HealthSnapshot where
  sessionState : SessionState
  heartbeatAgeMs : Int64
  tickAgeMs : Int64
  inFlightCount : Int32
  clockSane : Bool
  replayClean : Bool

def HealthSnapshot.isLive (snapshot : HealthSnapshot) (liveBudgetMs : Int64) : Bool :=
  if liveBudgetMs < 0 ∨ snapshot.heartbeatAgeMs < 0 then false
  else snapshot.heartbeatAgeMs ≤ liveBudgetMs && snapshot.clockSane

def HealthSnapshot.isReady (snapshot : HealthSnapshot) (liveBudgetMs : Int64) : Bool :=
  snapshot.isLive liveBudgetMs && snapshot.replayClean && snapshot.sessionState = .healthy
    && snapshot.inFlightCount ≥ 0

def kMaxInt64 : Int64 := 9223372036854775807

def failClosedDefault : HealthSnapshot := ⟨.failed, kMaxInt64, kMaxInt64, -1, false, false⟩

structure HealthState where
  published : Option HealthSnapshot

namespace HealthState

def init : HealthState := ⟨none⟩

def publish (_ : HealthState) (snapshot : HealthSnapshot) : HealthState := ⟨some snapshot⟩

def latest (state : HealthState) : HealthSnapshot := state.published.getD failClosedDefault

def hasPublished (state : HealthState) : Bool := state.published.isSome

/-- Nobody is ready by default, under any budget. -/
theorem latest_ready {state : HealthState} {liveBudgetMs : Int64}
    (h : state.latest.isReady liveBudgetMs = true) :
    ∃ snapshot, state.published = some snapshot ∧ snapshot.isReady liveBudgetMs = true := by
  cases hpublished : state.published with
  | some snapshot =>
    unfold latest at h
    rw [hpublished] at h
    exact ⟨snapshot, rfl, h⟩
  | none =>
    unfold latest at h
    rw [hpublished] at h
    simp [HealthSnapshot.isReady, HealthSnapshot.isLive, failClosedDefault] at h

end HealthState

end BrokerExec.Cli
