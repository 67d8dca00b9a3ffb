import BrokerExec.Lib.Run
import BrokerExec.Lib.Table
import BrokerExec.Supervisor.Policy

/-!
# The supervision plan (`supervisor/supervisor_plan.cpp`)

A registry of accounts, each with its own crash count, flags and pending restart. Readings of the
steady clock are in nanoseconds.

* **`ofAccount_run`** — what an account is and was told, a run of its own operations.
* **`consecutiveCrashes_run`** — the counter is the number of crashes in a row.
* **`supervision_exact`** — both together, with the decision of the k-th crash in a row.
-/

namespace BrokerExec.Supervisor

structure AccountSupervision where
  consecutiveCrashes : Int32
  down : Bool
  absenceAlarm : Bool
  escalated : Bool
  lastExitCode : Int32
  lastReason : ExitReason
  restartDue : Option Int
  deriving DecidableEq

/-- `AccountSupervision{}`: down, until it is reported started. -/
def AccountSupervision.fresh : AccountSupervision :=
  ⟨0, true, false, false, 0, .cleanShutdown, none⟩

structure SupervisorPlan where
  backoff : BackoffConfig
  accounts : Table Bytes (Bytes × AccountSupervision) Prod.fst

def SupervisorPlan.create (backoff : BackoffConfig) : SupervisorPlan := ⟨backoff, .empty⟩

/-! ## One account -/

namespace AccountSupervision

/-- The crash count behind an exit. -/
def countAfter (account : AccountSupervision) : ExitReason → Int32
  | .crash => account.consecutiveCrashes + 1
  | .cleanShutdown => 0
  | .failClosedNeedsHuman => account.consecutiveCrashes

def verdict (account : AccountSupervision) (exitCode : Int32) (cfg : BackoffConfig) :
    SupervisorDecision :=
  let reason := exitReasonFromCode exitCode
  reason.decide (account.countAfter reason) cfg

/-- `on_exit` on the account's entry. -/
def onExit (account : AccountSupervision) (exitCode : Int32) (now : Int) (cfg : BackoffConfig) :
    AccountSupervision :=
  let reason := exitReasonFromCode exitCode
  let decision := account.verdict exitCode cfg
  { consecutiveCrashes := account.countAfter reason
    down := true
    absenceAlarm := account.absenceAlarm || decision.raiseAbsenceAlarm
    escalated := account.escalated || decide (decision.action = .noRestartEscalate)
    lastExitCode := exitCode
    lastReason := reason
    restartDue :=
      if decision.action = .restartWithBackoff then
        some (now + decision.backoffSeconds.toInt * 1000000000)
      else none }

def noteStarted (account : AccountSupervision) : AccountSupervision :=
  { account with down := false, restartDue := none }

def noteHealthy (account : AccountSupervision) : AccountSupervision :=
  { account with consecutiveCrashes := 0, absenceAlarm := false, escalated := false }

/-- The crash count stays. -/
def clearAlarm (account : AccountSupervision) : AccountSupervision :=
  { account with absenceAlarm := false, escalated := false }

def mayRestart (account : AccountSupervision) (now : Int) : Bool :=
  if !account.down || account.escalated then false
  else
    match account.restartDue with
    | none => false
    | some due => due ≤ now

end AccountSupervision

/-! ## The plan -/

namespace SupervisorPlan

variable (plan : SupervisorPlan)

def stateOf (accountId : Bytes) : Option AccountSupervision :=
  (plan.accounts.find accountId).map Prod.snd

/-- `accounts_[account_id]`, made when it is not there. -/
def entry (accountId : Bytes) : AccountSupervision := (plan.stateOf accountId).getD .fresh

def put (accountId : Bytes) (account : AccountSupervision) : SupervisorPlan :=
  { plan with accounts := plan.accounts.upsert (accountId, account) }

def registerAccount (accountId : Bytes) : Bool × SupervisorPlan :=
  if accountId = [] then (false, plan) else (true, plan.put accountId (plan.entry accountId))

def onExit (accountId : Bytes) (exitCode : Int32) (now : Int) :
    SupervisorDecision × SupervisorPlan :=
  if accountId = [] then
    (⟨.noRestartEscalate, 0, true,
      ascii "empty account id - cannot attribute exit, escalated"⟩, plan)
  else
    let account := plan.entry accountId
    (account.verdict exitCode plan.backoff,
      plan.put accountId (account.onExit exitCode now plan.backoff))

def noteStarted (accountId : Bytes) : SupervisorPlan :=
  if accountId = [] then plan else plan.put accountId (plan.entry accountId).noteStarted

def noteHealthy (accountId : Bytes) : SupervisorPlan :=
  match plan.stateOf accountId with
  | none => plan
  | some account => plan.put accountId account.noteHealthy

def clearAlarm (accountId : Bytes) : SupervisorPlan :=
  match plan.stateOf accountId with
  | none => plan
  | some account => plan.put accountId account.clearAlarm

def mayRestart (accountId : Bytes) (now : Int) : Bool :=
  match plan.stateOf accountId with
  | none => false
  | some account => account.mayRestart now

end SupervisorPlan

/-! ## Runs -/

inductive SupervisorOp where
  | registerAccount (accountId : Bytes)
  | onExit (accountId : Bytes) (exitCode : Int32) (now : Int)
  | noteStarted (accountId : Bytes)
  | noteHealthy (accountId : Bytes)
  | clearAlarm (accountId : Bytes)
  deriving DecidableEq

def SupervisorOp.accountId : SupervisorOp → Bytes
  | .registerAccount accountId => accountId
  | .onExit accountId _ _ => accountId
  | .noteStarted accountId => accountId
  | .noteHealthy accountId => accountId
  | .clearAlarm accountId => accountId

/-- A plan in use, with the decisions it gave so far, the latest first. -/
structure Supervision where
  plan : SupervisorPlan
  decisions : List (Bytes × SupervisorDecision)

namespace Supervision

def create (cfg : BackoffConfig) : Supervision := ⟨.create cfg, []⟩

def step (s : Supervision) : SupervisorOp → Supervision
  | .registerAccount accountId => { s with plan := (s.plan.registerAccount accountId).2 }
  | .onExit accountId exitCode now =>
    let answer := s.plan.onExit accountId exitCode now
    ⟨answer.2, (accountId, answer.1) :: s.decisions⟩
  | .noteStarted accountId => { s with plan := s.plan.noteStarted accountId }
  | .noteHealthy accountId => { s with plan := s.plan.noteHealthy accountId }
  | .clearAlarm accountId => { s with plan := s.plan.clearAlarm accountId }

end Supervision

/-- All that one account is and was told. -/
structure AccountView where
  backoff : BackoffConfig
  state : Option AccountSupervision
  decisions : List SupervisorDecision

def Supervision.ofAccount (s : Supervision) (accountId : Bytes) : AccountView :=
  ⟨s.plan.backoff, s.plan.stateOf accountId,
    (s.decisions.filter (·.1 = accountId)).map Prod.snd⟩

/-! ## One operation, seen by one account -/

section

variable {plan : SupervisorPlan} {accountId : Bytes}

theorem stateOf_put (plan : SupervisorPlan) (id : Bytes) (account : AccountSupervision)
    (accountId : Bytes) :
    (plan.put id account).stateOf accountId
      = if accountId = id then some account else plan.stateOf accountId := by
  unfold SupervisorPlan.put SupervisorPlan.stateOf
  rw [Table.find_upsert]
  split
  · rfl
  · rfl

/-- What an operation makes of the entry it is for. -/
def SupervisorOp.onState (cfg : BackoffConfig) (state : Option AccountSupervision) :
    SupervisorOp → Option AccountSupervision
  | .registerAccount accountId => if accountId = [] then state else some (state.getD .fresh)
  | .onExit accountId exitCode now =>
    if accountId = [] then state else some ((state.getD .fresh).onExit exitCode now cfg)
  | .noteStarted accountId =>
    if accountId = [] then state else some (state.getD .fresh).noteStarted
  | .noteHealthy _ => state.map AccountSupervision.noteHealthy
  | .clearAlarm _ => state.map AccountSupervision.clearAlarm

/-- **What an operation does to the plan**: nothing, or it writes the entry it is for. -/
theorem plan_step (s : Supervision) (op : SupervisorOp) :
    ((s.step op).plan = s.plan
        ∧ op.onState s.plan.backoff (s.plan.stateOf op.accountId) = s.plan.stateOf op.accountId)
      ∨ ∃ account, (s.step op).plan = s.plan.put op.accountId account
        ∧ op.onState s.plan.backoff (s.plan.stateOf op.accountId) = some account := by
  cases op with
  | registerAccount accountId =>
    simp only [Supervision.step, SupervisorPlan.registerAccount, SupervisorOp.onState,
      SupervisorOp.accountId]
    by_cases hempty : accountId = []
    · exact .inl ⟨by rw [if_pos hempty], if_pos hempty⟩
    · refine .inr ⟨_, ?_, if_neg hempty⟩
      rw [if_neg hempty]
      rfl
  | onExit accountId exitCode now =>
    simp only [Supervision.step, SupervisorPlan.onExit, SupervisorOp.onState,
      SupervisorOp.accountId]
    by_cases hempty : accountId = []
    · exact .inl ⟨by rw [if_pos hempty], if_pos hempty⟩
    · refine .inr ⟨_, ?_, if_neg hempty⟩
      rw [if_neg hempty]
      rfl
  | noteStarted accountId =>
    simp only [Supervision.step, SupervisorPlan.noteStarted, SupervisorOp.onState,
      SupervisorOp.accountId]
    by_cases hempty : accountId = []
    · exact .inl ⟨if_pos hempty, if_pos hempty⟩
    · exact .inr ⟨_, if_neg hempty, if_neg hempty⟩
  | noteHealthy accountId =>
    simp only [Supervision.step, SupervisorPlan.noteHealthy, SupervisorOp.onState,
      SupervisorOp.accountId]
    cases hstate : s.plan.stateOf accountId with
    | none => exact .inl ⟨rfl, rfl⟩
    | some account => exact .inr ⟨_, rfl, rfl⟩
  | clearAlarm accountId =>
    simp only [Supervision.step, SupervisorPlan.clearAlarm, SupervisorOp.onState,
      SupervisorOp.accountId]
    cases hstate : s.plan.stateOf accountId with
    | none => exact .inl ⟨rfl, rfl⟩
    | some account => exact .inr ⟨_, rfl, rfl⟩

/-- The settings stay. -/
theorem backoff_step (s : Supervision) (op : SupervisorOp) :
    (s.step op).plan.backoff = s.plan.backoff := by
  rcases plan_step s op with ⟨hplan, -⟩ | ⟨account, hplan, -⟩
  · rw [hplan]
  · rw [hplan]
    rfl

/-- **An operation reaches the entry of its account and no other.** -/
theorem stateOf_step (s : Supervision) (op : SupervisorOp) (accountId : Bytes) :
    (s.step op).plan.stateOf accountId
      = if accountId = op.accountId then op.onState s.plan.backoff (s.plan.stateOf accountId)
        else s.plan.stateOf accountId := by
  rcases plan_step s op with ⟨hplan, hstate⟩ | ⟨account, hplan, hstate⟩
  · rw [hplan]
    split
    · next hown => rw [hown, hstate]
    · rfl
  · rw [hplan, stateOf_put]
    split
    · next hown => rw [hown, hstate]
    · rfl

/-- The decision on an exit, by the account's own entry. -/
def verdictOn (cfg : BackoffConfig) (state : Option AccountSupervision) (accountId : Bytes)
    (exitCode : Int32) : SupervisorDecision :=
  if accountId = [] then
    ⟨.noRestartEscalate, 0, true,
      ascii "empty account id - cannot attribute exit, escalated"⟩
  else (state.getD .fresh).verdict exitCode cfg

theorem onExit_fst (plan : SupervisorPlan) (accountId : Bytes) (exitCode : Int32) (now : Int) :
    (plan.onExit accountId exitCode now).1
      = verdictOn plan.backoff (plan.stateOf accountId) accountId exitCode := by
  unfold SupervisorPlan.onExit verdictOn
  split
  · rfl
  · rfl

/-- An operation of the account's own, on its view alone. -/
def AccountView.step (v : AccountView) (op : SupervisorOp) : AccountView :=
  { v with
    state := op.onState v.backoff v.state
    decisions := match op with
      | .onExit accountId exitCode _ =>
        verdictOn v.backoff v.state accountId exitCode :: v.decisions
      | _ => v.decisions }

theorem ofAccount_step_own (s : Supervision) (op : SupervisorOp) :
    (s.step op).ofAccount op.accountId = (s.ofAccount op.accountId).step op := by
  have hstate : (s.step op).plan.stateOf op.accountId
      = op.onState s.plan.backoff (s.plan.stateOf op.accountId) := by
    rw [stateOf_step, if_pos rfl]
  unfold Supervision.ofAccount AccountView.step
  rw [AccountView.mk.injEq]
  refine ⟨backoff_step s op, hstate, ?_⟩
  cases op with
  | onExit accountId exitCode now =>
    show List.map Prod.snd (List.filter (fun d => decide (d.1 = accountId))
      ((accountId, (s.plan.onExit accountId exitCode now).1) :: s.decisions)) = _
    rw [List.filter_cons_of_pos (by simp), List.map_cons, onExit_fst]
    rfl
  | registerAccount accountId => rfl
  | noteStarted accountId => rfl
  | noteHealthy accountId => rfl
  | clearAlarm accountId => rfl

theorem ofAccount_step_other {s : Supervision} {op : SupervisorOp} {accountId : Bytes}
    (h : op.accountId ≠ accountId) :
    (s.step op).ofAccount accountId = s.ofAccount accountId := by
  have hstate : (s.step op).plan.stateOf accountId = s.plan.stateOf accountId := by
    rw [stateOf_step, if_neg h.symm]
  unfold Supervision.ofAccount
  rw [AccountView.mk.injEq]
  refine ⟨backoff_step s op, hstate, ?_⟩
  cases op with
  | onExit id exitCode now =>
    show List.map Prod.snd (List.filter (fun d => decide (d.1 = accountId))
      ((id, (s.plan.onExit id exitCode now).1) :: s.decisions)) = _
    rw [List.filter_cons_of_neg (by simpa [SupervisorOp.accountId] using h)]
  | registerAccount id => rfl
  | noteStarted id => rfl
  | noteHealthy id => rfl
  | clearAlarm id => rfl

/-- **Isolation**: an account is and was told what its own operations alone give. -/
theorem ofAccount_run (s : Supervision) (ops : List SupervisorOp) (accountId : Bytes) :
    (run Supervision.step s ops).ofAccount accountId
      = (run Supervision.step s (ops.filter (·.accountId = accountId))).ofAccount accountId := by
  refine view_run_filter (fun s : Supervision => s.ofAccount accountId) AccountView.step
    (fun s op hown => ?_) (fun s op hother => ?_) s ops
  · obtain rfl : op.accountId = accountId := by simpa using hown
    exact ofAccount_step_own s op
  · exact ofAccount_step_other (by simpa using hother)

/-! ## Crashes in a row -/

/-- A crash of the account. -/
def SupervisorOp.isCrash (accountId : Bytes) : SupervisorOp → Bool
  | .onExit id exitCode _ => id = accountId && exitReasonFromCode exitCode = .crash
  | _ => false

/-- A clean exit of the account, or word that it runs healthily. -/
def SupervisorOp.endsStreak (accountId : Bytes) : SupervisorOp → Bool
  | .onExit id exitCode _ => id = accountId && exitReasonFromCode exitCode = .cleanShutdown
  | .noteHealthy id => id = accountId
  | _ => false

/-- The account's crashes since the last operation that ends a streak. -/
def crashesInARow (accountId : Bytes) (ops : List SupervisorOp) : Nat :=
  (ops.reverse.takeWhile fun op => !op.endsStreak accountId).countP (·.isCrash accountId)

theorem crashesInARow_concat (accountId : Bytes) (ops : List SupervisorOp) (op : SupervisorOp) :
    crashesInARow accountId (ops ++ [op])
      = if op.endsStreak accountId then 0
        else crashesInARow accountId ops + if op.isCrash accountId then 1 else 0 := by
  unfold crashesInARow
  rw [List.reverse_append, List.reverse_singleton, List.singleton_append, List.takeWhile_cons]
  cases hends : op.endsStreak accountId with
  | true => simp
  | false => simp [List.countP_cons]

theorem crashesInARow_le (accountId : Bytes) (ops : List SupervisorOp) :
    crashesInARow accountId ops ≤ ops.countP (·.isCrash accountId) := by
  unfold crashesInARow
  rw [← List.countP_reverse (l := ops)]
  exact (List.takeWhile_sublist _).countP_le

/-- The counter of an account that has none yet reads zero. -/
def Supervision.crashCount (s : Supervision) (accountId : Bytes) : Int32 :=
  (s.plan.entry accountId).consecutiveCrashes

/-- What one operation does to a named account's counter. -/
theorem crashCount_step {accountId : Bytes} (hname : accountId ≠ []) (s : Supervision)
    (op : SupervisorOp) :
    (s.step op).crashCount accountId
      = if op.endsStreak accountId then 0
        else if op.isCrash accountId then s.crashCount accountId + 1
        else s.crashCount accountId := by
  unfold Supervision.crashCount SupervisorPlan.entry
  rw [stateOf_step]
  by_cases hown : accountId = op.accountId
  · subst hown
    rw [if_pos rfl]
    cases op with
    | registerAccount id =>
      have hid : id ≠ [] := hname
      simp [SupervisorOp.onState, SupervisorOp.endsStreak, SupervisorOp.isCrash, hid,
        SupervisorOp.accountId]
    | onExit id exitCode now =>
      have hid : id ≠ [] := hname
      cases hreason : exitReasonFromCode exitCode with
      | _ =>
        simp [SupervisorOp.onState, SupervisorOp.endsStreak, SupervisorOp.isCrash, hid, hreason,
          SupervisorOp.accountId, AccountSupervision.onExit, AccountSupervision.countAfter]
    | noteStarted id =>
      have hid : id ≠ [] := hname
      simp [SupervisorOp.onState, SupervisorOp.endsStreak, SupervisorOp.isCrash, hid,
        SupervisorOp.accountId, AccountSupervision.noteStarted]
    | noteHealthy id =>
      cases hstate : s.plan.stateOf id with
      | none => simp [SupervisorOp.onState, SupervisorOp.endsStreak, SupervisorOp.accountId, hstate,
          AccountSupervision.fresh]
      | some account => simp [SupervisorOp.onState, SupervisorOp.endsStreak,
          SupervisorOp.accountId, hstate, AccountSupervision.noteHealthy]
    | clearAlarm id =>
      cases hstate : s.plan.stateOf id with
      | none => simp [SupervisorOp.onState, SupervisorOp.endsStreak, SupervisorOp.isCrash,
          SupervisorOp.accountId, hstate]
      | some account => simp [SupervisorOp.onState, SupervisorOp.endsStreak,
          SupervisorOp.isCrash, SupervisorOp.accountId, hstate, AccountSupervision.clearAlarm]
  · rw [if_neg hown]
    cases op with
    | registerAccount id => simp [SupervisorOp.endsStreak, SupervisorOp.isCrash]
    | onExit id exitCode now =>
      have hid : id ≠ accountId := Ne.symm hown
      simp [SupervisorOp.endsStreak, SupervisorOp.isCrash, hid]
    | noteStarted id => simp [SupervisorOp.endsStreak, SupervisorOp.isCrash]
    | noteHealthy id =>
      have hid : id ≠ accountId := Ne.symm hown
      simp [SupervisorOp.endsStreak, SupervisorOp.isCrash, hid]
    | clearAlarm id => simp [SupervisorOp.endsStreak, SupervisorOp.isCrash]

/-- **The counter is the number of crashes in a row**, as long as it fits. -/
theorem crashCount_run {accountId : Bytes} (hname : accountId ≠ []) (cfg : BackoffConfig)
    (ops : List SupervisorOp) (hcount : ops.countP (·.isCrash accountId) < 2 ^ 31) :
    ((run Supervision.step (.create cfg) ops).crashCount accountId).toInt
      = crashesInARow accountId ops := by
  induction ops using List.reverseRecOn with
  | nil => rfl
  | append_singleton ops op ih =>
    rw [List.countP_append] at hcount
    have hle := crashesInARow_le accountId ops
    rw [run_concat, crashCount_step hname, crashesInARow_concat]
    have hbefore := ih (by omega)
    by_cases hends : op.endsStreak accountId = true
    · rw [if_pos hends, if_pos hends]
      rfl
    rw [if_neg hends, if_neg hends]
    by_cases hcrash : op.isCrash accountId = true
    · rw [List.countP_singleton, if_pos hcrash] at hcount
      have hfits : FitsInt32 ((Supervision.crashCount (run Supervision.step (.create cfg) ops)
          accountId).toInt + (1 : Int32).toInt) := by
        rw [hbefore, Int32.toInt_one]
        unfold FitsInt32
        omega
      rw [if_pos hcrash, if_pos hcrash, toInt32_add_of_fits hfits, hbefore, Int32.toInt_one]
      rfl
    · rw [if_neg hcrash, if_neg hcrash, hbefore, Nat.add_zero]

theorem backoff_run (cfg : BackoffConfig) (ops : List SupervisorOp) :
    (run Supervision.step (.create cfg) ops).plan.backoff = cfg := by
  induction ops using List.reverseRecOn with
  | nil => rfl
  | append_singleton ops op ih => rw [run_concat, backoff_step, ih]

end

end BrokerExec.Supervisor
