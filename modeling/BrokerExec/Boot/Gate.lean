import BrokerExec.Boot.Cleared

/-!
# What the gate asks again (`boot/boot_checks.cpp`)

The ten checks hear everything from the components once more, after the ledger was opened, and each
is counted where it reaches its component.

* **`safeStart_tries`** — behind the gate stand ten facts from its own calls, and ten counts of one.
-/

namespace BrokerExec.Boot

open BrokerExec.Accounts (AccountDataDir)
open BrokerExec.Clock (Detector Sample SkewStallConfig Within)
open BrokerExec.Config (EnvLookup)
open BrokerExec.Domain (Order isValidStrategyName)
open BrokerExec.Errors (Error)
open BrokerExec.Process (Spec Stable Tries)
open BrokerExec.SessionGuard (SessionState)
open BrokerExec.Session (isLegacyTriggerLessStop requireNoLegacyStops requireValidStrategyNames
  runCheck)

/-! ## The ten facts -/

/-- What a check has heard when it passes; `first` is the sample that boot began with. -/
def Passed (deps : BootDeps) (cfg : Config) (first : Sample) : SafeCheckId → List Call → Prop
  | .config, log => ∃ env reloaded, deps.env = some env ∧ Loaded deps env reloaded log
    ∧ Consistent reloaded deps.args ∧ Consistent cfg deps.args
  | .strategyNames, _ => ∀ name ∈ cfg.strategies.names, isValidStrategyName name = true
  | .cryptoKeys, log => (∃ secret, Call.getSecret (.ok secret) ∈ log
      ∧ secret.length = kTokenKeyBytes) ∧ ∃ pinned, KeyRead pinned log
  | .clock, log => ∃ clockCfg now, deps.clock = true ∧ deps.clockDetector = some clockCfg
    ∧ Call.sample now .healthy ∈ log ∧ Within clockCfg first now
  | .session, log => ∃ probe t, deps.sessionProbe = some probe ∧ probe t = .ok .healthy
    ∧ Call.probeSession (probe t) ∈ log
  | .egressIp, _ => ∃ env, deps.env = some env ∧ requireEgressIpAllowed env = .ok ()
  | .instrumentMaster, log => Call.instrumentsFresh (.ok ()) ∈ log
  | .calendar, log => Call.calendarFresh (.ok ()) ∈ log
  | .legacyStops, log => deps.store = true ∧ ∃ rows, Call.allOrders (.ok rows) ∈ log
    ∧ ∀ o ∈ rows, isLegacyTriggerLessStop o = false
  | .reconciliation, log => deps.store = true ∧ ∃ rows, Call.allOrders (.ok rows) ∈ log
    ∧ ∀ o ∈ rows, isUnreconciled o = false

theorem lasting_passed (deps : BootDeps) (cfg : Config) (first : Sample) (id : SafeCheckId) :
    Lasting (Passed deps cfg first id) := by
  intro l l' hsub h
  cases id with
  | config =>
    obtain ⟨env, reloaded, henv, hloaded, hconsistent⟩ := h
    exact ⟨env, reloaded, henv, lasting_loaded _ _ _ _ _ hsub hloaded, hconsistent⟩
  | strategyNames => exact h
  | cryptoKeys =>
    obtain ⟨⟨secret, hsecret, hlength⟩, pinned, hkey⟩ := h
    exact ⟨⟨secret, hsub hsecret, hlength⟩, pinned, lasting_keyRead _ _ _ hsub hkey⟩
  | clock =>
    obtain ⟨clockCfg, now, hclock, hdetector, hsample, hwithin⟩ := h
    exact ⟨clockCfg, now, hclock, hdetector, hsub hsample, hwithin⟩
  | session =>
    obtain ⟨probe, t, hprobe, hhealthy, hcall⟩ := h
    exact ⟨probe, t, hprobe, hhealthy, hsub hcall⟩
  | egressIp => exact h
  | instrumentMaster | calendar => exact hsub h
  | legacyStops | reconciliation =>
    obtain ⟨hstore, rows, hrows, hall⟩ := h
    exact ⟨hstore, rows, hsub hrows, hall⟩

/-- The facts of the first `i` checks. -/
def UpTo (deps : BootDeps) (cfg : Config) (first : Sample) (i : Nat) (log : List Call) : Prop :=
  ∀ id ∈ SafeCheckId.all.take i, Passed deps cfg first id log

def auditUpTo (i : Nat) : SafeStartAudit :=
  (SafeCheckId.all.take i).foldl SafeStartAudit.record .empty

theorem count_auditUpTo (id : SafeCheckId) : (auditUpTo 10).count id = 1 := by
  cases id <;> decide

/-! ## Inside the gate -/

/-- A detector that is wired has its first sample. -/
def Began (deps : BootDeps) (first : Sample) (detector : Detector) : Prop :=
  deps.clock = true → deps.clockDetector.isSome = true → detector.last = some first

/-- Nothing is composed and nothing shows itself. -/
def NotYet (w : World) : Prop := w.progress = ⟨none, none, false, false, false, false, .init, []⟩

/-- The gate's own calls are those behind `before`. -/
structure During (before : List Call) (F : List Call → Prop) (audit : SafeStartAudit)
    (D : Detector → Prop) (w : World) : Prop where
  calls : ∃ after, w.log = before ++ after ∧ F after
  audit : w.outcome.audit = audit
  detector : D w.detector
  notYet : NotYet w

section Inside

variable {α : Type} {before : List Call} {F F' : List Call → Prop} {audit : SafeStartAudit} {w : World}
  {D D' : Detector → Prop} {deps : BootDeps} {cfg : Config} {first : Sample}

theorem During.heard (h : During before F audit D w) (hF : Lasting F) {c : Call}
    (hshown : c.isShown = false) :
    During before (fun l => F l ∧ c ∈ l) audit D { w with log := w.log ++ [c] } := by
  obtain ⟨after, hlog, hafter⟩ := h.calls
  refine ⟨⟨after ++ [c], ?_, hF _ _ (List.subset_append_left _ _) hafter, by simp⟩, h.audit,
    h.detector, ?_⟩
  · show w.log ++ _ = _
    rw [hlog, List.append_assoc]
  · rw [NotYet, ← h.notYet]
    unfold World.progress
    simp [hshown]

theorem during_call (hF : Lasting F) {read : Seams → α} {event : α → Call}
    (hshown : ∀ a, (event a).isShown = false) :
    Spec (During before F audit D) (call read event)
      (fun a => During before (fun l => F l ∧ event a ∈ l) audit D) NotYet :=
  Spec.ask (fun _ h => h.notYet) fun _ _ h => h.heard hF (hshown _)

theorem during_answer (hF : Lasting F) {read : Seams → Result α} {event : Result α → Call}
    (hshown : ∀ r, (event r).isShown = false) :
    Tries (During before F audit D) (call read event)
      (fun a => During before (fun l => F l ∧ event (.ok a) ∈ l) audit D) (fun _ => NotYet)
      NotYet := by
  refine Spec.weaken (during_call hF hshown) (fun _ h => h) ?_
  rintro (e | a) w h
  · exact h.notYet
  · exact h

theorem during_result {r : Result α} :
    Tries (During before F audit D) (pure r : Act (Result α))
      (fun a => During before (fun l => F l ∧ r = .ok a) audit D) (fun _ => NotYet) NotYet := by
  refine Tries.ofExcept (fun a w h hr => ?_) fun _ _ h _ => h.notYet
  obtain ⟨after, hlog, hafter⟩ := h.calls
  exact ⟨⟨after, hlog, hafter, hr⟩, h.audit, h.detector, h.notYet⟩

theorem During.mono (h : During before F audit D w) (hF : ∀ l, F l → F' l) :
    During before F' audit D w := by
  obtain ⟨⟨after, hlog, hafter⟩, haudit, hdetector, hnotYet⟩ := h
  exact ⟨⟨after, hlog, hF after hafter⟩, haudit, hdetector, hnotYet⟩

theorem Lasting.and {P Q : List Call → Prop} (hP : Lasting P) (hQ : Lasting Q) :
    Lasting fun l => P l ∧ Q l :=
  fun l l' hsub h => ⟨hP l l' hsub h.1, hQ l l' hsub h.2⟩

theorem lasting_const (p : Prop) : Lasting fun _ => p := fun _ _ _ h => h

/-- A check is counted, and then it is its component's. -/
theorem check_tries {name : Bytes} {id : SafeCheckId} {inner : Option (Act (Result Unit))}
    {component : String}
    (hinner : ∀ check, inner = some check →
      Tries (During before F (audit.record id) D) check
        (fun _ => During before F' (audit.record id) D') (fun _ => NotYet) NotYet) :
    Tries (During before F audit D) (runCheck name (instrumented id inner component))
      (fun _ => During before F' (audit.record id) D') (fun _ => NotYet) NotYet := by
  refine Tries.mapError ?_
  cases inner with
  | none => exact Tries.ofExcept (fun _ _ _ hr => nomatch hr) fun _ _ h _ => h.notYet
  | some check =>
    refine Spec.bind (Spec.step fun w h => ?_) fun _ => hinner check rfl
    exact ⟨h.calls, congrArg (·.record id) h.audit, h.detector, h.notYet⟩

theorem lasting_upTo (i : Nat) : Lasting (UpTo deps cfg first i) :=
  fun l l' hsub h id hid => lasting_passed deps cfg first id l l' hsub (h id hid)

theorem upTo_succ {i : Nat} {id : SafeCheckId} (hid : SafeCheckId.all[i]? = some id)
    {log : List Call} (h : UpTo deps cfg first i log) (hpassed : Passed deps cfg first id log) :
    UpTo deps cfg first (i + 1) log := by
  intro id' hid'
  rw [List.take_add_one, hid, List.mem_append] at hid'
  rcases hid' with hid' | hid'
  · exact h id' hid'
  · obtain rfl := List.mem_singleton.mp hid'
    exact hpassed

/-- The `i`-th check adds its own fact. -/
theorem adds_passed {i : Nat} {id : SafeCheckId} {check : Act (Result Unit)}
    (hid : SafeCheckId.all[i]? = some id)
    (h : Tries (During before (UpTo deps cfg first i) audit D) check
      (fun _ => During before
        (fun l => UpTo deps cfg first i l ∧ Passed deps cfg first id l) audit D')
      (fun _ => NotYet) NotYet) :
    Tries (During before (UpTo deps cfg first i) audit D) check
      (fun _ => During before (UpTo deps cfg first (i + 1)) audit D') (fun _ => NotYet) NotYet :=
  h.weaken (fun _ h => h) (fun _ _ h => h.mono fun _ hl => upTo_succ hid hl.1 hl.2)
    (fun _ _ h => h) fun _ h => h

/-! ### The ten checks -/

theorem mono_tries {check : Act (Result α)} {G : α → List Call → Prop}
    (h : Tries (During before F audit D) check (fun a => During before (G a) audit D')
      (fun _ => NotYet) NotYet) {G' : α → List Call → Prop} (hG : ∀ a l, G a l → G' a l) :
    Tries (During before F audit D) check (fun a => During before (G' a) audit D')
      (fun _ => NotYet) NotYet :=
  h.weaken (fun _ h => h) (fun a _ h => h.mono (hG a)) (fun _ _ h => h) fun _ h => h

theorem during_loadedConfig (hF : Lasting F) (env : EnvLookup) :
    Tries (During before F audit D) (loadedConfig deps env)
      (fun cfg => During before (fun l => F l ∧ Loaded deps env cfg l) audit D) (fun _ => NotYet)
      NotYet := by
  refine Spec.bind (during_call hF fun _ => rfl) fun file => ?_
  exact mono_tries during_result fun cfg _ h => ⟨h.1.1, file, h.1.2, h.2⟩

theorem during_readKey (hF : Lasting F) :
    Tries (During before F audit D) readKey
      (fun pinned => During before (fun l => F l ∧ KeyRead pinned l) audit D) (fun _ => NotYet)
      NotYet := by
  refine Spec.bind (during_call hF fun _ => rfl) fun key => ?_
  exact mono_tries during_result fun _ _ h => ⟨h.1.1, key, h.1.2, h.2⟩

theorem config_passed (hF : Lasting F) {env : EnvLookup} (henv : deps.env = some env) :
    Tries (During before F audit D) (configCheck deps cfg env)
      (fun _ => During before (fun l => F l ∧ Passed deps cfg first .config l) audit D)
      (fun _ => NotYet) NotYet := by
  unfold configCheck
  refine Tries.bind (during_loadedConfig hF env) fun reloaded => ?_
  refine Tries.bind during_result fun _ => ?_
  refine mono_tries during_result fun _ _ h => ?_
  obtain ⟨⟨⟨hl, hloaded⟩, hreloaded⟩, hcfg⟩ := h
  exact ⟨hl, env, reloaded, henv, hloaded, requireConfigConsistent_ok hreloaded,
    requireConfigConsistent_ok hcfg⟩

theorem cryptoKeys_passed (hF : Lasting F) (dir : AccountDataDir) :
    Tries (During before F audit D) (cryptoKeysCheck dir)
      (fun _ => During before (fun l => F l ∧ Passed deps cfg first .cryptoKeys l) audit D)
      (fun _ => NotYet) NotYet := by
  unfold cryptoKeysCheck
  refine Tries.bind during_result fun _ => ?_
  have hnamed := hF.and (lasting_const (demand (tokenKeySecretName dir.accountId ≠ [])
    noTokenKeyNameError = .ok ()))
  refine Tries.bind (during_answer hnamed fun _ => rfl) fun secret => ?_
  refine Tries.bind during_result fun _ => ?_
  have hsized := (hnamed.and (lasting_mem (.getSecret (.ok secret)))).and
    (lasting_const (demand (secret.length = kTokenKeyBytes) tokenKeySizeError = .ok ()))
  refine Tries.bind (during_readKey hsized) fun pinned => ?_
  refine Tries.pure fun w h => h.mono fun l hl => ?_
  obtain ⟨⟨⟨⟨hl, -⟩, hsecret⟩, hlength⟩, hkey⟩ := hl
  exact ⟨hl, ⟨secret, hsecret, of_decide_eq_true (demand_ok_iff.mp hlength)⟩, pinned, hkey⟩

theorem clock_passed (hF : Lasting F) {clockCfg : SkewStallConfig} (hclock : deps.clock = true)
    (hdetector : deps.clockDetector = some clockCfg) :
    Tries (During before F audit (Began deps first)) (clockCheck clockCfg)
      (fun _ => During before (fun l => F l ∧ Passed deps cfg first .clock l) audit
        fun d => d.status = .healthy) (fun _ => NotYet) NotYet := by
  unfold clockCheck
  have hsample : Spec (During before F audit (Began deps first)) (sampleClock clockCfg)
      (fun d => During before
        (fun l => F l ∧ (d.status = .healthy → Passed deps cfg first .clock l)) audit (· = d))
      NotYet := by
    refine Spec.ask (fun _ h => h.notYet) fun t w h => ?_
    obtain ⟨after, hlog, hafter⟩ := h.calls
    have hlast : w.detector.last = some first := h.detector hclock (hdetector ▸ rfl)
    refine ⟨⟨after ++ [.sample t.clock (w.detector.sample clockCfg t.clock).status], ?_,
      hF _ _ (List.subset_append_left _ _) hafter, fun hhealthy => ?_⟩, h.audit, rfl, ?_⟩
    · show w.log ++ _ = _
      rw [hlog, List.append_assoc]
    · have hwithin := (Clock.sample_healthy_iff _ _).mp hhealthy
      rw [hlast] at hwithin
      refine ⟨clockCfg, t.clock, hclock, hdetector, ?_, hwithin.2 first rfl⟩
      rw [hhealthy]
      simp
    · rw [NotYet, ← h.notYet]
      unfold World.progress
      simp [Call.isShown]
  refine Spec.bind hsample fun d => ?_
  refine Tries.ofExcept (fun _ w h hr => ?_) fun _ _ h _ => h.notYet
  have hhealthy : d.status = .healthy := of_decide_eq_true (demand_ok_iff.mp hr)
  obtain ⟨⟨after, hlog, hafter, hpassed⟩, haudit, hd, hnotYet⟩ := h
  exact ⟨⟨after, hlog, hafter, hpassed hhealthy⟩, haudit, hd ▸ hhealthy, hnotYet⟩

theorem session_passed (hF : Lasting F) {probe : Seams → Result SessionState}
    (hprobe : deps.sessionProbe = some probe) :
    Tries (During before F audit D) (sessionCheck probe)
      (fun _ => During before (fun l => F l ∧ Passed deps cfg first .session l) audit D)
      (fun _ => NotYet) NotYet := by
  unfold sessionCheck
  have hcall : Tries (During before F audit D) (call probe .probeSession)
      (fun state => During before
        (fun l => F l ∧ ∃ t, probe t = .ok state ∧ Call.probeSession (probe t) ∈ l) audit D)
      (fun _ => NotYet) NotYet := by
    refine Spec.ask (fun _ h => h.notYet) fun t w h => ?_
    have hheard := h.heard hF (c := .probeSession (probe t)) rfl
    dsimp only
    split
    · next state hstate => exact hheard.mono fun l hl => ⟨hl.1, t, hstate, hl.2⟩
    · exact hheard.notYet
  refine Tries.bind hcall fun state => ?_
  refine mono_tries during_result fun _ l h => ?_
  obtain ⟨⟨hl, t, hstate, hcall⟩, hhealthy⟩ := h
  obtain rfl := Session.sessionStateToResult_ok_iff.mp hhealthy
  exact ⟨hl, probe, t, hprobe, hstate, hcall⟩

/-- Whichever of the two asked, the last answer is that it is fresh. -/
theorem fresh_passed (hF : Lasting F) {readFresh readRefresh : Seams → Result Unit}
    {fresh refresh : Result Unit → Call} (hfresh : ∀ r, (fresh r).isShown = false)
    (hrefresh : ∀ r, (refresh r).isShown = false) :
    Tries (During before F audit D) (freshCheck (call readFresh fresh) (call readRefresh refresh))
      (fun _ => During before (fun l => F l ∧ fresh (.ok ()) ∈ l) audit D)
      (fun _ => NotYet) NotYet := by
  unfold freshCheck
  refine Spec.bind (during_call hF hfresh) fun answer => ?_
  cases answer with
  | ok => exact Spec.pure fun _ h => h
  | error e =>
    have hstale := hF.and (lasting_mem (fresh (.error e)))
    refine Spec.bind (during_call hstale hrefresh) fun answer => ?_
    cases answer with
    | error e => exact Spec.pure fun _ h => h.notYet
    | ok =>
      have hrefreshed := hstale.and (lasting_mem (refresh (.ok ())))
      exact mono_tries (during_answer hrefreshed hfresh) fun _ _ h => ⟨h.1.1.1, h.2⟩

theorem orders_passed (hF : Lasting F) {require : List Order → Result Unit} {P : Order → Prop}
    (hrequire : ∀ rows, require rows = .ok () → ∀ o ∈ rows, P o) :
    Tries (During before F audit D) (ordersCheck require)
      (fun _ => During before
        (fun l => F l ∧ ∃ rows, Call.allOrders (.ok rows) ∈ l ∧ ∀ o ∈ rows, P o) audit D)
      (fun _ => NotYet) NotYet := by
  unfold ordersCheck
  refine Tries.bind (during_answer hF fun _ => rfl) fun rows => ?_
  exact mono_tries during_result fun _ _ h => ⟨h.1.1, rows, h.1.2, hrequire rows h.2⟩

/-! ### The gate -/

/-- What the clock has said before the `i`-th check: the fourth is its own. -/
def ClockSays (deps : BootDeps) (first : Sample) : Nat → Detector → Prop
  | 0, d | 1, d | 2, d | 3, d => Began deps first d
  | _, d => d.status = .healthy

/-- `i` checks have passed. -/
def AtCheck (deps : BootDeps) (cfg : Config) (first : Sample) (before : List Call) (i : Nat) :
    World → Prop :=
  During before (UpTo deps cfg first i) (auditUpTo i) (ClockSays deps first i)

theorem auditUpTo_succ {i : Nat} {id : SafeCheckId} (hid : SafeCheckId.all[i]? = some id) :
    auditUpTo (i + 1) = (auditUpTo i).record id := by
  unfold auditUpTo
  rw [List.take_add_one, hid, List.foldl_append]
  rfl

/-- The check that is next takes the gate one further. -/
theorem next_check (i : Nat) (id : SafeCheckId) {name : Bytes}
    {inner : Option (Act (Result Unit))} {component : String}
    (hid : SafeCheckId.all[i]? = some id)
    (hinner : ∀ check, inner = some check →
      Tries (During before (UpTo deps cfg first i) ((auditUpTo i).record id) (ClockSays deps first i))
        check
        (fun _ => During before (fun l => UpTo deps cfg first i l ∧ Passed deps cfg first id l)
          ((auditUpTo i).record id) (ClockSays deps first (i + 1)))
        (fun _ => NotYet) NotYet) :
    Tries (AtCheck deps cfg first before i) (runCheck name (instrumented id inner component))
      (fun _ => AtCheck deps cfg first before (i + 1)) (fun _ => NotYet) NotYet := by
  unfold AtCheck
  rw [auditUpTo_succ hid]
  exact check_tries fun check hcheck => adds_passed hid (hinner check hcheck)

theorem eq_of_wired {wired : Bool} {check check' : Act (Result Unit)}
    (h : (if wired then some check else none) = some check') : wired = true ∧ check' = check := by
  split at h
  · next hwired => exact ⟨hwired, (Option.some.inj h).symm⟩
  · cases h

/-- **The gate ends with the ten facts from its own calls.** -/
theorem safeStart_tries (dir : AccountDataDir) :
    Tries (AtCheck deps cfg first before 0) (safeStart deps cfg dir)
      (fun _ => AtCheck deps cfg first before 10) (fun f w => NotYet w ∧ Explained f w.log)
      NotYet := by
  refine needsHuman_tries (Session.verify_tries (I := AtCheck deps cfg first before) ?_ ?_ ?_ ?_
    ?_ ?_ ?_ ?_ ?_ ?_)
  · refine next_check 0 .config rfl fun check hcheck => ?_
    obtain ⟨env, henv, rfl⟩ := Option.map_eq_some_iff.mp hcheck
    exact config_passed (lasting_upTo 0) henv
  · dsimp only [makeSafeStartContext]
    refine next_check 1 .strategyNames rfl fun check hcheck => ?_
    cases hcheck
    exact mono_tries during_result fun _ _ h =>
      ⟨h.1, Session.requireValidStrategyNames_ok_iff.mp h.2⟩
  · refine next_check 2 .cryptoKeys rfl fun check hcheck => ?_
    obtain ⟨-, rfl⟩ := eq_of_wired hcheck
    exact cryptoKeys_passed (lasting_upTo 2) dir
  · refine next_check 3 .clock rfl fun check hcheck => ?_
    split at hcheck
    · next hclock =>
      obtain ⟨clockCfg, hdetector, rfl⟩ := Option.map_eq_some_iff.mp hcheck
      exact clock_passed (lasting_upTo 3) hclock hdetector
    · cases hcheck
  · refine next_check 4 .session rfl fun check hcheck => ?_
    obtain ⟨probe, hprobe, rfl⟩ := Option.map_eq_some_iff.mp hcheck
    exact session_passed (lasting_upTo 4) hprobe
  · refine next_check 5 .egressIp rfl fun check hcheck => ?_
    obtain ⟨env, henv, rfl⟩ := Option.map_eq_some_iff.mp hcheck
    exact mono_tries during_result fun _ _ h => ⟨h.1, env, henv, h.2⟩
  · refine next_check 6 .instrumentMaster rfl fun check hcheck => ?_
    obtain ⟨-, rfl⟩ := eq_of_wired hcheck
    exact fresh_passed (lasting_upTo 6) (fun _ => rfl) fun _ => rfl
  · refine next_check 7 .calendar rfl fun check hcheck => ?_
    obtain ⟨-, rfl⟩ := eq_of_wired hcheck
    exact fresh_passed (lasting_upTo 7) (fun _ => rfl) fun _ => rfl
  · refine next_check 8 .legacyStops rfl fun check hcheck => ?_
    obtain ⟨hstore, rfl⟩ := eq_of_wired hcheck
    exact mono_tries (orders_passed (lasting_upTo 8) fun _ =>
      Session.requireNoLegacyStops_ok_iff.mp) fun _ _ h => ⟨h.1, hstore, h.2⟩
  · refine next_check 9 .reconciliation rfl fun check hcheck => ?_
    obtain ⟨hstore, rfl⟩ := eq_of_wired hcheck
    exact mono_tries (orders_passed (lasting_upTo 9) fun _ =>
      requireNoUnreconciledOrders_ok_iff.mp) fun _ _ h => ⟨h.1, hstore, h.2⟩

end Inside

end BrokerExec.Boot
