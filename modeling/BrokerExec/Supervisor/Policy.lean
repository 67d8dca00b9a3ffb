import BrokerExec.Lib.Bytes
import BrokerExec.Lib.CappedDoubling

/-!
# The supervisor's decision (`supervisor/supervisor_policy.cpp`)

An exit code gives a reason, and the reason with the crash count gives the decision.

* **`toInt_backoffFor`** — the delay of the k-th crash is `base * 2^(k-1)` held at the cap, and no
  doubling on the way overflows.
* **`decide_crash`** — what a crash leads to, by its count alone.
-/

namespace BrokerExec.Supervisor

inductive ExitReason where
  | cleanShutdown
  | crash
  | failClosedNeedsHuman
  deriving DecidableEq, Repr

def kExitClean : Int32 := 0

def kExitFailClosedNeedsHuman : Int32 := 70

/-- Every code but the two canonical ones is a crash. -/
def exitReasonFromCode (exitCode : Int32) : ExitReason :=
  if exitCode = kExitClean then .cleanShutdown
  else if exitCode = kExitFailClosedNeedsHuman then .failClosedNeedsHuman
  else .crash

/-- In whole seconds. -/
structure BackoffConfig where
  baseSeconds : Int32
  maxSeconds : Int32
  maxConsecutiveRestarts : Int32
  deriving DecidableEq

/-- The source's defaults. -/
def BackoffConfig.initial : BackoffConfig := ⟨1, 300, 10⟩

inductive SupervisorAction where
  | restartWithBackoff
  | noRestartCleanShutdown
  | noRestartEscalate
  deriving DecidableEq, Repr

structure SupervisorDecision where
  action : SupervisorAction
  backoffSeconds : Int32
  raiseAbsenceAlarm : Bool
  detail : Bytes
  deriving DecidableEq

/-! ## The delay -/

/-- The two settings of `backoff_for`, floored. -/
def BackoffConfig.base (cfg : BackoffConfig) : Int32 :=
  if cfg.baseSeconds > 0 then cfg.baseSeconds else 1

def BackoffConfig.cap (cfg : BackoffConfig) : Int32 :=
  if cfg.maxSeconds ≥ cfg.base then cfg.maxSeconds else cfg.base

def backoffFor (consecutiveCrashes : Int32) (cfg : BackoffConfig) : Int32 :=
  if consecutiveCrashes ≤ 1 then cfg.base
  else doubleCapped cfg.cap (consecutiveCrashes.toInt - 1).toNat cfg.base

/-- `decide`. -/
def ExitReason.decide (reason : ExitReason) (consecutiveCrashes : Int32) (cfg : BackoffConfig) :
    SupervisorDecision :=
  match reason with
  | .cleanShutdown =>
    ⟨.noRestartCleanShutdown, 0, false, ascii "clean shutdown - intended stop, no restart"⟩
  | .failClosedNeedsHuman =>
    ⟨.noRestartEscalate, 0, true,
      ascii "fail-closed: human required - no auto-restart, absence alarm raised"⟩
  | .crash =>
    if consecutiveCrashes > cfg.maxConsecutiveRestarts then
      ⟨.noRestartEscalate, 0, true, ascii "crash-loop circuit-breaker tripped after "
        ++ decimal consecutiveCrashes.toInt ++ ascii " consecutive crashes - escalated"⟩
    else
      let backoff := backoffFor consecutiveCrashes cfg
      ⟨.restartWithBackoff, backoff, false,
        ascii "crash - restarting after " ++ decimal backoff.toInt ++ ascii "s backoff"⟩

/-! ## The delay over the integers -/

/-- A base of no use is one second. -/
def BackoffConfig.flooredBase (cfg : BackoffConfig) : Int :=
  max cfg.baseSeconds.toInt 1

/-- No cap is below the base. -/
def BackoffConfig.flooredCap (cfg : BackoffConfig) : Int :=
  max cfg.flooredBase cfg.maxSeconds.toInt

section

variable {cfg : BackoffConfig}

theorem toInt_base : cfg.base.toInt = cfg.flooredBase := by
  unfold BackoffConfig.base BackoffConfig.flooredBase
  split <;> rename_i h <;> rw [gt_iff_lt, Int32.lt_iff_toInt_lt, Int32.toInt_zero] at h
  · omega
  · rw [Int32.toInt_one]
    omega

theorem toInt_cap : cfg.cap.toInt = cfg.flooredCap := by
  unfold BackoffConfig.cap BackoffConfig.flooredCap
  rw [← toInt_base]
  split <;> rename_i h <;> rw [ge_iff_le, Int32.le_iff_toInt_le] at h <;> omega

theorem base_pos (cfg : BackoffConfig) : 0 < cfg.base.toInt := by
  rw [toInt_base]
  unfold BackoffConfig.flooredBase
  omega

theorem base_le_cap (cfg : BackoffConfig) : cfg.base.toInt ≤ cfg.cap.toInt := by
  rw [toInt_base, toInt_cap]
  exact le_max_left _ _

/-- **The capped loop gives the exact power**, and every doubling it makes is exact. -/
theorem toInt_backoffFor {consecutiveCrashes : Int32} {k : Nat} (hk : 0 < k)
    (hcount : consecutiveCrashes.toInt = k) :
    (backoffFor consecutiveCrashes cfg).toInt = min (cfg.flooredBase * 2 ^ (k - 1)) cfg.flooredCap
      ∧ DoublingsFit cfg.cap (k - 1) cfg.base := by
  have hexponent : (consecutiveCrashes.toInt - 1).toNat = k - 1 := by omega
  refine ⟨?_, doublingsFit _ (base_pos cfg) (base_le_cap cfg)⟩
  rw [← toInt_base, ← toInt_cap]
  unfold backoffFor
  split <;> rename_i hfirst <;> rw [Int32.le_iff_toInt_le, Int32.toInt_one] at hfirst
  · have hle := base_le_cap cfg
    rw [show k - 1 = 0 by omega, pow_zero, mul_one]
    omega
  · rw [toInt_doubleCapped _ (base_pos cfg) (base_le_cap cfg), hexponent]

end

/-! ## The decision -/

/-- A decision restarts a crash within the limit and nothing else. -/
theorem decide_restarts_iff {reason : ExitReason} {count : Int32} {cfg : BackoffConfig} :
    (reason.decide count cfg).action = .restartWithBackoff
      ↔ reason = .crash ∧ count ≤ cfg.maxConsecutiveRestarts := by
  cases reason with
  | cleanShutdown => simp [ExitReason.decide]
  | failClosedNeedsHuman => simp [ExitReason.decide]
  | crash =>
    unfold ExitReason.decide
    by_cases htripped : count > cfg.maxConsecutiveRestarts
    · have hover : ¬ count ≤ cfg.maxConsecutiveRestarts := Int32.not_le.mpr htripped
      simp [htripped, hover]
    · have hwithin : count ≤ cfg.maxConsecutiveRestarts := Int32.not_lt.mp htripped
      simp [htripped, hwithin]

theorem decide_crash {count : Int32} {cfg : BackoffConfig} {k : Nat} (hk : 0 < k)
    (hcount : count.toInt = k) :
    (cfg.maxConsecutiveRestarts.toInt < k →
        (ExitReason.crash.decide count cfg).action = .noRestartEscalate)
      ∧ ((k : Int) ≤ cfg.maxConsecutiveRestarts.toInt →
        (ExitReason.crash.decide count cfg).action = .restartWithBackoff
          ∧ (ExitReason.crash.decide count cfg).backoffSeconds.toInt
            = min (cfg.flooredBase * 2 ^ (k - 1)) cfg.flooredCap) := by
  have htripped : count > cfg.maxConsecutiveRestarts ↔ cfg.maxConsecutiveRestarts.toInt < k := by
    rw [gt_iff_lt, Int32.lt_iff_toInt_lt, hcount]
  unfold ExitReason.decide
  constructor
  · intro h
    simp only [htripped.mpr h, if_true]
  · intro h
    have hwithin : ¬ count > cfg.maxConsecutiveRestarts := by
      rw [htripped]
      omega
    simp only [hwithin, if_false, true_and]
    exact (toInt_backoffFor hk hcount).1

end BrokerExec.Supervisor
