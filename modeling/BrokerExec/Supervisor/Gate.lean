import BrokerExec.Supervisor.Plan

/-!
# The restart gate (`supervisor/supervisor_plan.cpp`)

The decision looks at the exit and the crash count, the gate at the flags as well, and
`escalated` stays up through exits and restarts. A crash within the limit of an account that is
still escalated is told to restart and is not let through.

* **`gate_agrees_iff`** — over every run the gate follows the decisions, and an escalated account
  is never told to restart, exactly when no such crash comes.
-/

namespace BrokerExec.Supervisor

variable {s : Supervision} {accountId : Bytes} {exitCode : Int32} {now t : Int}

def Supervision.isEscalated (s : Supervision) (accountId : Bytes) : Bool :=
  (s.plan.entry accountId).escalated

/-- The crash count within the limit meets the flag of an earlier escalation. -/
def Supervision.Overtaken (s : Supervision) : SupervisorOp → Prop
  | .onExit accountId exitCode _ =>
    accountId ≠ [] ∧ exitReasonFromCode exitCode = .crash ∧ s.isEscalated accountId = true
      ∧ s.crashCount accountId + 1 ≤ s.plan.backoff.maxConsecutiveRestarts
  | _ => False

instance (s : Supervision) (op : SupervisorOp) : Decidable (s.Overtaken op) := by
  cases op <;> unfold Supervision.Overtaken <;> infer_instance

/-! ## The gate behind an exit -/

/-- The gate depends on the account's own entry. -/
theorem mayRestart_eq (s : Supervision) (accountId : Bytes) (t : Int) :
    s.plan.mayRestart accountId t = ((s.ofAccount accountId).state.any (·.mayRestart t)) := by
  unfold SupervisorPlan.mayRestart Supervision.ofAccount
  dsimp only
  cases s.plan.stateOf accountId <;> rfl

/-- No operation on another account moves the gate. -/
theorem mayRestart_run_other {rest : List SupervisorOp}
    (hrest : ∀ op ∈ rest, op.accountId ≠ accountId) :
    (run Supervision.step s rest).plan.mayRestart accountId t = s.plan.mayRestart accountId t := by
  have hnone : rest.filter (·.accountId = accountId) = [] := by
    rw [List.filter_eq_nil_iff]
    intro op hop
    simpa using hrest op hop
  have hsame := ofAccount_run s rest accountId
  rw [hnone, run_nil] at hsame
  rw [mayRestart_eq, hsame, ← mayRestart_eq]

/-- An account without a name never gets an entry. -/
theorem stateOf_nil_run (cfg : BackoffConfig) (ops : List SupervisorOp) :
    (run Supervision.step (.create cfg) ops).plan.stateOf [] = none := by
  induction ops using List.reverseRecOn with
  | nil => rfl
  | append_singleton ops op ih =>
    rw [run_concat, stateOf_step, ih]
    split
    · next hown =>
      cases op with
      | registerAccount id => exact if_pos hown.symm
      | onExit id exitCode now => exact if_pos hown.symm
      | noteStarted id => exact if_pos hown.symm
      | noteHealthy id => rfl
      | clearAlarm id => rfl
    · rfl

/-- A decision restarts exactly a crash within the limit. -/
theorem onExit_restarts_iff :
    (s.plan.onExit accountId exitCode now).1.action = .restartWithBackoff
      ↔ accountId ≠ [] ∧ exitReasonFromCode exitCode = .crash
        ∧ s.crashCount accountId + 1 ≤ s.plan.backoff.maxConsecutiveRestarts := by
  rw [onExit_fst, verdictOn]
  by_cases hname : accountId = []
  · simp [hname]
  · rw [if_neg hname, AccountSupervision.verdict, decide_restarts_iff]
    constructor
    · rintro ⟨hcrash, hwithin⟩
      rw [hcrash] at hwithin
      exact ⟨hname, hcrash, hwithin⟩
    · rintro ⟨-, hcrash, hwithin⟩
      rw [hcrash]
      exact ⟨rfl, hwithin⟩

theorem AccountSupervision.mayRestart_onExit (account : AccountSupervision)
    (cfg : BackoffConfig) :
    (account.onExit exitCode now cfg).mayRestart t = true
      ↔ account.escalated = false ∧ (account.verdict exitCode cfg).action = .restartWithBackoff
        ∧ now + (account.verdict exitCode cfg).backoffSeconds.toInt * 1000000000 ≤ t := by
  unfold AccountSupervision.mayRestart AccountSupervision.onExit
  cases haction : (account.verdict exitCode cfg).action with
  | restartWithBackoff => simp [haction]
  | noRestartCleanShutdown => simp [haction]
  | noRestartEscalate => simp [haction]

/-- Behind an exit the gate opens for a decision to restart, at its time, unless the account was
escalated before. -/
theorem mayRestart_onExit (hnone : s.plan.stateOf [] = none) :
    (s.step (.onExit accountId exitCode now)).plan.mayRestart accountId t = true
      ↔ s.isEscalated accountId = false
        ∧ (s.plan.onExit accountId exitCode now).1.action = .restartWithBackoff
        ∧ now + (s.plan.onExit accountId exitCode now).1.backoffSeconds.toInt * 1000000000 ≤ t := by
  have hstate : (s.step (.onExit accountId exitCode now)).plan.stateOf accountId
      = if accountId = [] then s.plan.stateOf accountId
        else some ((s.plan.entry accountId).onExit exitCode now s.plan.backoff) := by
    rw [stateOf_step]
    exact if_pos rfl
  rw [onExit_fst, mayRestart_eq]
  show ((s.step (.onExit accountId exitCode now)).plan.stateOf accountId).any _ = true ↔ _
  rw [hstate]
  by_cases hname : accountId = []
  · simp [verdictOn, hname, hnone]
  · rw [if_neg hname, Option.any_some, AccountSupervision.mayRestart_onExit, verdictOn,
      if_neg hname]
    rfl

theorem overtaken_iff :
    s.Overtaken (.onExit accountId exitCode now)
      ↔ s.isEscalated accountId = true
        ∧ (s.plan.onExit accountId exitCode now).1.action = .restartWithBackoff := by
  rw [onExit_restarts_iff]
  show (_ ∧ _ ∧ _ ∧ _) ↔ _
  tauto

/-! ## Over a run -/

/-- The gate follows the decision on this exit until the account's next operation, and an
escalated account is not told to restart. -/
def GateAgrees (s : Supervision) (accountId : Bytes) (exitCode : Int32) (now : Int)
    (rest : List SupervisorOp) : Prop :=
  let decision := (s.plan.onExit accountId exitCode now).1
  let later := run Supervision.step (s.step (.onExit accountId exitCode now)) rest
  (∀ t, later.plan.mayRestart accountId t = true
      ↔ decision.action = .restartWithBackoff
        ∧ now + decision.backoffSeconds.toInt * 1000000000 ≤ t)
    ∧ (s.isEscalated accountId = true → decision.action ≠ .restartWithBackoff)

theorem gateAgrees_iff (hnone : s.plan.stateOf [] = none) {rest : List SupervisorOp}
    (hrest : ∀ op ∈ rest, op.accountId ≠ accountId) :
    GateAgrees s accountId exitCode now rest ↔ ¬ s.Overtaken (.onExit accountId exitCode now) := by
  rw [overtaken_iff]
  unfold GateAgrees
  constructor
  · rintro ⟨-, hquiet⟩ ⟨hescalated, hrestart⟩
    exact hquiet hescalated hrestart
  · intro hnever
    refine ⟨fun t => ?_, fun hescalated hrestart => hnever ⟨hescalated, hrestart⟩⟩
    rw [mayRestart_run_other hrest, mayRestart_onExit hnone]
    constructor
    · exact And.right
    · intro hopen
      refine ⟨?_, hopen⟩
      rw [← Bool.not_eq_true]
      exact fun hescalated => hnever ⟨hescalated, hopen.1⟩

/-- **The gate follows the decisions over a run** exactly when no crash within the limit meets the
flag of an earlier escalation. -/
theorem gate_agrees_iff (cfg : BackoffConfig) (ops : List SupervisorOp) :
    (∀ front accountId exitCode now rest back,
        ops = front ++ .onExit accountId exitCode now :: (rest ++ back) →
        (∀ op ∈ rest, op.accountId ≠ accountId) →
          GateAgrees (run Supervision.step (.create cfg) front) accountId exitCode now rest)
      ↔ Along Supervision.step (fun s op => ¬ s.Overtaken op) (.create cfg) ops := by
  constructor
  · intro h front op back hops
    cases op with
    | onExit accountId exitCode now =>
      have hagrees := h front accountId exitCode now [] back hops (by simp)
      exact (gateAgrees_iff (stateOf_nil_run cfg front) (by simp)).mp hagrees
    | registerAccount accountId => exact not_false
    | noteStarted accountId => exact not_false
    | noteHealthy accountId => exact not_false
    | clearAlarm accountId => exact not_false
  · intro h front accountId exitCode now rest back hops hrest
    exact (gateAgrees_iff (stateOf_nil_run cfg front) hrest).mpr (h front _ _ hops)

/-- Escalated by a fail-closed exit, started by hand, crashed: told to restart in a second, and
never let through. -/
theorem crash_while_escalated :
    let before := run Supervision.step (.create .initial)
      [.onExit (ascii "alpha") 70 0, .noteStarted (ascii "alpha")]
    let decision := (before.plan.onExit (ascii "alpha") 1 5000000000).1
    before.isEscalated (ascii "alpha") = true
      ∧ decision.action = .restartWithBackoff ∧ decision.backoffSeconds = 1
      ∧ (before.step (.onExit (ascii "alpha") 1 5000000000)).plan.mayRestart (ascii "alpha")
        6000000000 = false := by
  decide

end BrokerExec.Supervisor
