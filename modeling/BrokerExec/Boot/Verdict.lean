import BrokerExec.Boot.Gate
import BrokerExec.Json.Reader

/-!
# What a boot may show (`boot/boot.cpp`)

From the gate on each step leaves evidence: a component, a flag, a call that others see. None of it
may be there before what it stands on.

* **`boot_ordered`** — it never is, whatever is answered and wherever the process dies.
* **`boot_verdict`** — how a process that does not die exits, and whom that wakes.
-/

namespace BrokerExec.Boot

open BrokerExec.Accounts (AccountDataDir)
open BrokerExec.Cli (HealthSnapshot)
open BrokerExec.Clock (Detector Sample)
open BrokerExec.Composition (BrokerAssembly EngineAssembly assertProductionPosture makeBrokerNamed
  makeEngine parseBrokerChoice realCapabilities)
open BrokerExec.Domain (Order)
open BrokerExec.Errors (Error)
open BrokerExec.Process (Spec Stable Tries)
open BrokerExec.SessionGuard (SessionState)

/-! ## The order of the evidence -/

/-- What boot has heard before the gate. -/
structure Prepared (lib : Libraries) (deps : BootDeps) (first : Sample) (cfg : Config)
    (log : List Call) : Prop where
  baseline : deps.clock = true → deps.clockDetector.isSome = true →
    ∃ status, Call.sample first status ∈ log
  loaded : ∃ env, deps.env = some env ∧ Loaded deps env cfg log
  placed : ∃ dir, Placed deps cfg dir log
  anchored : ∃ ledger, Anchored lib ledger log
  session : Call.probeSession (.ok .healthy) ∈ log

/-- Behind the preparation stand the gate's own ten facts, and each check was made once. -/
structure Verified (lib : Libraries) (deps : BootDeps) (cfg : Config) (log : List Call)
    (audit : SafeStartAudit) : Prop where
  calls : ∃ first before after, log = before ++ after ∧ Prepared lib deps first cfg before
    ∧ ∀ id, Passed deps cfg first id after
  audit : ∀ id, audit.count id = 1

/-- A snapshot of a world that is verified. -/
structure Honest (deps : BootDeps) (snapshot : HealthSnapshot) (log : List Call) : Prop where
  session : snapshot.sessionState = .healthy
  heartbeat : snapshot.heartbeatAgeMs = 0
  clock : snapshot.clockSane = true
  replay : snapshot.replayClean = deps.replayClean
  orders : ∃ rows, Call.allOrders (.ok rows) ∈ log
    ∧ snapshot.inFlightCount = Int32.ofNat (rows.countP isInFlight)

/-- Each piece of evidence stands on the one before. -/
structure Ordered (lib : Libraries) (deps : BootDeps) (w : World) : Prop where
  broker : ∀ assembly, w.outcome.broker = some assembly →
    ∃ cfg, Verified lib deps cfg w.log w.outcome.audit
      ∧ parseBrokerChoice cfg.broker.name = .ok assembly.choice
      ∧ assembly.capabilities = realCapabilities assembly.choice
      ∧ ∀ c ∈ deps.brokerOptions.requiredCapabilities, assembly.capabilities.supports c = true
  engine : ∀ assembly, w.outcome.engine = some assembly →
    w.outcome.broker.isSome = true ∧ makeEngine deps.engineDeps deps.engineOptions = .ok assembly
  publish : ∀ snapshot, Call.publish snapshot ∈ w.log →
    w.outcome.engine.isSome = true ∧ Honest deps snapshot w.log
  latest : ∀ snapshot, w.health.published = some snapshot → Call.publish snapshot ∈ w.log
  published : w.outcome.healthPublished = true → w.health.hasPublished = true
  endpoint : ∀ answer, Call.startEndpoint answer ∈ w.log → w.outcome.healthPublished = true
  started : w.outcome.healthEndpointStarted = true → Call.startEndpoint (.ok ()) ∈ w.log
  run : ∀ answer, Call.run answer ∈ w.log → w.outcome.runPhaseEntered = true
    ∧ ∃ phase t, deps.runPhase = some phase ∧ answer = phase t
  entered : w.outcome.runPhaseEntered = true → w.outcome.healthEndpointStarted = true

/-- Nobody was woken. -/
def Silent (w : World) : Prop :=
  w.outcome.absenceAlarmFired = false ∧ ∀ alert answer, Call.alert alert answer ∉ w.log

variable {lib : Libraries} {deps : BootDeps} {cfg : Config} {w w' : World}

/-! ## Moves that show nothing -/

theorem Verified.extend {log log' : List Call} {audit : SafeStartAudit}
    (h : Verified lib deps cfg log audit) (hgrows : log <+: log') :
    Verified lib deps cfg log' audit := by
  obtain ⟨first, before, after, rfl, hprepared, hpassed⟩ := h.calls
  obtain ⟨more, rfl⟩ := hgrows
  refine ⟨⟨first, before, after ++ more, List.append_assoc .., hprepared, fun id => ?_⟩, h.audit⟩
  exact lasting_passed deps cfg first id _ _ (List.subset_append_left ..) (hpassed id)

theorem Honest.extend {snapshot : HealthSnapshot} {log log' : List Call}
    (h : Honest deps snapshot log) (hsub : log ⊆ log') : Honest deps snapshot log' := by
  obtain ⟨rows, hrows, hcount⟩ := h.orders
  exact ⟨h.session, h.heartbeat, h.clock, h.replay, rows, hsub hrows, hcount⟩

/-- A call that shows the process is not new after a quiet move. -/
theorem Quiet.mem (hquiet : Quiet w w') {c : Call} (hshown : c.isShown = true)
    (hc : c ∈ w'.log) : c ∈ w.log := by
  have h : c ∈ w'.progress.shown := List.mem_filter.mpr ⟨hc, hshown⟩
  rw [hquiet.progress] at h
  exact (List.mem_filter.mp h).1

theorem stable_ordered : Stable Quiet (Ordered lib deps) := by
  intro w w' hquiet h
  have hbroker : w'.outcome.broker = w.outcome.broker := congrArg Progress.broker hquiet.progress
  have hengine : w'.outcome.engine = w.outcome.engine := congrArg Progress.engine hquiet.progress
  have hpublished : w'.outcome.healthPublished = w.outcome.healthPublished :=
    congrArg Progress.healthPublished hquiet.progress
  have hstarted : w'.outcome.healthEndpointStarted = w.outcome.healthEndpointStarted :=
    congrArg Progress.healthEndpointStarted hquiet.progress
  have hentered : w'.outcome.runPhaseEntered = w.outcome.runPhaseEntered :=
    congrArg Progress.runPhaseEntered hquiet.progress
  have hhealth : w'.health = w.health := congrArg Progress.health hquiet.progress
  have hsub := hquiet.log.subset
  constructor
  · intro assembly hassembly
    obtain ⟨cfg, hverified, hrest⟩ := h.broker assembly (hbroker ▸ hassembly)
    rw [hquiet.audit]
    exact ⟨cfg, hverified.extend hquiet.log, hrest⟩
  · intro assembly hassembly
    rw [hbroker]
    exact h.engine assembly (hengine ▸ hassembly)
  · intro snapshot hcall
    obtain ⟨hcomposed, hhonest⟩ := h.publish snapshot (hquiet.mem rfl hcall)
    exact ⟨hengine ▸ hcomposed, hhonest.extend hsub⟩
  · intro snapshot hlatest
    exact hsub (h.latest snapshot (hhealth ▸ hlatest))
  · intro hflag
    rw [hhealth]
    exact h.published (hpublished ▸ hflag)
  · intro answer hcall
    rw [hpublished]
    exact h.endpoint answer (hquiet.mem rfl hcall)
  · intro hflag
    exact hsub (h.started (hstarted ▸ hflag))
  · intro answer hcall
    rw [hentered]
    exact h.run answer (hquiet.mem rfl hcall)
  · intro hflag
    rw [hstarted]
    exact h.entered (hentered ▸ hflag)

theorem stable_silent : Stable Quiet Silent := by
  intro w w' hquiet h
  have halarm : w'.outcome.absenceAlarmFired = w.outcome.absenceAlarmFired :=
    congrArg Progress.absenceAlarmFired hquiet.progress
  exact ⟨halarm ▸ h.1, fun alert answer hcall => h.2 alert answer (hquiet.mem rfl hcall)⟩

/-- What is said of a boot that fails or dies. -/
def Sound (lib : Libraries) (deps : BootDeps) (w : World) : Prop := Ordered lib deps w ∧ Silent w

theorem sound_of_notYet (h : NotYet w) : Sound lib deps w := by
  have hbroker : w.outcome.broker = none := congrArg Progress.broker h
  have hengine : w.outcome.engine = none := congrArg Progress.engine h
  have hpublished : w.outcome.healthPublished = false := congrArg Progress.healthPublished h
  have hstarted : w.outcome.healthEndpointStarted = false :=
    congrArg Progress.healthEndpointStarted h
  have hentered : w.outcome.runPhaseEntered = false := congrArg Progress.runPhaseEntered h
  have halarm : w.outcome.absenceAlarmFired = false := congrArg Progress.absenceAlarmFired h
  have hhealth : w.health.published = none := congrArg (·.health.published) h
  have hshown : ∀ c ∈ w.log, c.isShown = false := by
    simpa using List.filter_eq_nil_iff.mp (congrArg Progress.shown h)
  refine ⟨⟨?_, ?_, ?_, ?_, ?_, ?_, ?_, ?_, ?_⟩, halarm, ?_⟩
  · simp [hbroker]
  · simp [hengine]
  · exact fun _ hcall => nomatch hshown _ hcall
  · simp [hhealth]
  · simp [hpublished]
  · exact fun _ hcall => nomatch hshown _ hcall
  · simp [hstarted]
  · exact fun _ hcall => nomatch hshown _ hcall
  · simp [hentered]
  · exact fun _ _ hcall => nomatch hshown _ hcall

/-! ## The steps before the gate -/

theorem stable_notYet : Stable Quiet NotYet := fun _ _ hquiet h => hquiet.progress.trans h

/-- A boot with its first sample. -/
structure Begun (deps : BootDeps) (first : Sample) (w : World) : Prop where
  notYet : NotYet w
  audit : w.outcome.audit = .empty
  detector : Began deps first w.detector
  baseline : deps.clock = true → deps.clockDetector.isSome = true →
    ∃ status, Call.sample first status ∈ w.log

theorem stable_begun (deps : BootDeps) (first : Sample) : Stable Quiet (Begun deps first) := by
  intro w w' hquiet h
  refine ⟨stable_notYet w w' hquiet h.notYet, hquiet.audit.trans h.audit, ?_, ?_⟩
  · rw [hquiet.detector]
    exact h.detector
  · intro hclock hdetector
    obtain ⟨status, hsample⟩ := h.baseline hclock hdetector
    exact ⟨status, hquiet.log.subset hsample⟩

theorem takeBaseline_spec (detector : Detector) :
    Spec (· = World.start detector) (takeBaseline deps) (fun _ w => ∃ first, Begun deps first w)
      (Ordered lib deps) := by
  have hunwired : ∀ w, w = World.start detector →
      ¬(deps.clock = true ∧ deps.clockDetector.isSome = true) → Begun deps ⟨0, 0⟩ w := by
    rintro w rfl hnot
    exact ⟨rfl, rfl, fun hclock hdetector => absurd ⟨hclock, hdetector⟩ hnot,
      fun hclock hdetector => absurd ⟨hclock, hdetector⟩ hnot⟩
  unfold takeBaseline
  cases hclock : deps.clock with
  | false => exact Spec.pure fun w h => ⟨⟨0, 0⟩, hunwired w h (by simp [hclock])⟩
  | true =>
    cases hdetector : deps.clockDetector with
    | none => exact Spec.pure fun w h => ⟨⟨0, 0⟩, hunwired w h (by simp [hdetector])⟩
    | some cfg =>
      have hsample : Spec (· = World.start detector) (sampleClock cfg)
          (fun _ w => ∃ first, Begun deps first w) (Ordered lib deps) := by
        refine Spec.ask (fun w h => (sound_of_notYet (h ▸ rfl)).1) fun t w h => ?_
        subst h
        exact ⟨t.clock, rfl, rfl, fun _ _ => Clock.last_sample _ _,
          fun _ _ => ⟨_, List.mem_singleton.mpr rfl⟩⟩
      exact Spec.bind hsample fun _ => Spec.pure fun _ h => h

/-- What the first four steps have verified. -/
def Preparing (lib : Libraries) (deps : BootDeps) (first : Sample) (cfg : Config) (w : World) :
    Prop :=
  Begun deps first w ∧ Prepared lib deps first cfg w.log

/-- What stands behind the gate and every step from there. -/
structure Stage (lib : Libraries) (deps : BootDeps) (cfg : Config) (P : Progress → Prop)
    (w : World) : Prop where
  verified : Verified lib deps cfg w.log w.outcome.audit
  clock : w.detector.status = .healthy
  sound : Sound lib deps w
  reached : P w.progress

theorem gate_tries {first : Sample} (dir : AccountDataDir) :
    Tries (Preparing lib deps first cfg) (safeStart deps cfg dir)
      (fun _ => Stage lib deps cfg fun _ => True)
      (fun f w => Sound lib deps w ∧ Explained f w.log) (Sound lib deps) := by
  intro ticks w h
  obtain ⟨hbegun, hprepared⟩ := h
  have hgate : Tries (AtCheck deps cfg first w.log 0) (safeStart deps cfg dir)
      (fun _ => AtCheck deps cfg first w.log 10) (fun f w => NotYet w ∧ Explained f w.log) NotYet :=
    safeStart_tries dir
  have hstart : AtCheck deps cfg first w.log 0 w :=
    ⟨⟨[], (List.append_nil _).symm, nofun⟩, hbegun.audit, hbegun.detector, hbegun.notYet⟩
  refine hgate.weaken (fun _ h => h) ?_ (fun _ _ h => ⟨sound_of_notYet h.1, h.2⟩)
    (fun _ h => sound_of_notYet h) ticks w hstart
  · intro _ w' h
    obtain ⟨after, hlog, hafter⟩ := h.calls
    refine ⟨⟨⟨first, w.log, after, hlog, hprepared, fun id => hafter id ?_⟩, fun id => ?_⟩,
      h.detector, sound_of_notYet h.notYet, trivial⟩
    · cases id <;> decide
    · rw [h.audit]
      exact count_auditUpTo id

/-! ## The steps after the gate -/

section Stages

variable {P : Progress → Prop}

theorem stable_sound : Stable Quiet (Sound lib deps) := stable_ordered.and stable_silent

theorem stable_stage : Stable Quiet (Stage lib deps cfg P) := by
  intro w w' hquiet h
  refine ⟨?_, hquiet.detector ▸ h.clock, stable_sound w w' hquiet h.sound,
    hquiet.progress ▸ h.reached⟩
  rw [hquiet.audit]
  exact h.verified.extend hquiet.log

theorem composeBroker_tries :
    Tries (Stage lib deps cfg P) (composeBroker deps cfg)
      (fun _ => Stage lib deps cfg fun p => p.broker.isSome = true)
      (fun f w => Sound lib deps w ∧ Explained f w.log) (Sound lib deps) := by
  unfold composeBroker
  refine Tries.bind (needsHuman_pure fun _ h => h.sound) fun assembly => ?_
  refine Tries.bind (needsHuman_pure fun _ h => h.1.sound) fun _ => ?_
  refine Tries.bind (Tries.lift (Spec.step fun w h => ?_)) fun _ => Tries.pure fun _ h => h
  obtain ⟨⟨⟨hverified, hclock, ⟨hordered, hsilent⟩, -⟩, hmade⟩, hposture⟩ := h
  obtain ⟨choice, hchoice, hmade⟩ := Steps.bind_eq_ok.mp hmade
  obtain ⟨rfl, hrequired, -⟩ := Composition.makeBroker_ok hmade
  refine ⟨hverified, hclock, ⟨{ hordered with broker := ?_, engine := ?_ }, hsilent⟩, rfl⟩
  · rintro assembly' ⟨rfl⟩
    exact ⟨cfg, hverified, hchoice, Composition.posture_ok hposture, hrequired⟩
  · exact fun assembly' hassembly => ⟨rfl, (hordered.engine assembly' hassembly).2⟩

theorem composeEngine_tries :
    Tries (Stage lib deps cfg fun p => p.broker.isSome = true) (composeEngine deps)
      (fun _ => Stage lib deps cfg fun p => p.engine.isSome = true)
      (fun f w => Sound lib deps w ∧ Explained f w.log) (Sound lib deps) := by
  unfold composeEngine
  refine Tries.bind (needsHuman_pure fun _ h => h.sound) fun assembly => ?_
  refine Tries.lift (Spec.step fun w h => ?_)
  obtain ⟨⟨hverified, hclock, ⟨hordered, hsilent⟩, hbroker⟩, hmade⟩ := h
  refine ⟨hverified, hclock, ⟨{ hordered with engine := ?_, publish := ?_ }, hsilent⟩, rfl⟩
  · rintro assembly' ⟨rfl⟩
    exact ⟨hbroker, hmade⟩
  · exact fun snapshot hcall => ⟨rfl, (hordered.publish snapshot hcall).2⟩

/-- The gate has seen the projection. -/
theorem Verified.store {log : List Call} {audit : SafeStartAudit}
    (h : Verified lib deps cfg log audit) : deps.store = true := by
  obtain ⟨first, before, after, -, -, hpassed⟩ := h.calls
  exact (hpassed .reconciliation).1

/-- And the detector. -/
theorem Verified.detector {log : List Call} {audit : SafeStartAudit}
    (h : Verified lib deps cfg log audit) : deps.clockDetector.isSome = true := by
  obtain ⟨first, before, after, -, -, hpassed⟩ := h.calls
  obtain ⟨clockCfg, now, -, hdetector, -⟩ := hpassed .clock
  rw [hdetector]
  rfl

theorem ordersForHealth_tries :
    Tries (Stage lib deps cfg P) (ordersForHealth deps)
      (fun rows w => Stage lib deps cfg P w ∧ Call.allOrders (.ok rows) ∈ w.log)
      (fun f w => Sound lib deps w ∧ Explained f w.log) (Sound lib deps) := by
  unfold ordersForHealth
  cases hstore : deps.store with
  | false =>
    exact Tries.pure fun w h => absurd h.verified.store (by simp [hstore])
  | true =>
    exact failAs_call stable_stage (fun _ h => h.sound) (fun _ => rfl) exitClassFor_ne_clean
      fun e _ h hclass => .orders e h hclass

/-- A call is in order where what it stands on is there. -/
theorem Ordered.hear (h : Ordered lib deps w) {c : Call}
    (hpublish : ∀ snapshot, c = .publish snapshot →
      w.outcome.engine.isSome = true ∧ Honest deps snapshot w.log)
    (hendpoint : ∀ answer, c = .startEndpoint answer → w.outcome.healthPublished = true)
    (hrun : ∀ answer, c = .run answer → w.outcome.runPhaseEntered = true
      ∧ ∃ phase t, deps.runPhase = some phase ∧ answer = phase t) :
    Ordered lib deps { w with log := w.log ++ [c] } := by
  have hsub : w.log ⊆ w.log ++ [c] := List.subset_append_left ..
  have hnew : ∀ c' ∈ w.log ++ [c], c' ∈ w.log ∨ c = c' := by
    simp [eq_comm]
  constructor
  · intro assembly hassembly
    obtain ⟨cfg, hverified, hrest⟩ := h.broker assembly hassembly
    exact ⟨cfg, hverified.extend (List.prefix_append ..), hrest⟩
  · exact h.engine
  · intro snapshot hcall
    obtain ⟨hengine, hhonest⟩ := (hnew _ hcall).elim (h.publish snapshot) (hpublish snapshot)
    exact ⟨hengine, hhonest.extend hsub⟩
  · exact fun snapshot hlatest => hsub (h.latest snapshot hlatest)
  · exact h.published
  · exact fun answer hcall => (hnew _ hcall).elim (h.endpoint answer) (hendpoint answer)
  · exact fun hflag => hsub (h.started hflag)
  · exact fun answer hcall => (hnew _ hcall).elim (h.run answer) (hrun answer)
  · exact h.entered

/-- Nobody is woken by another call. -/
theorem Silent.hear (h : Silent w) {c : Call} (hc : ∀ alert answer, c ≠ .alert alert answer) :
    Silent { w with log := w.log ++ [c] } := by
  refine ⟨h.1, fun alert answer hcall => ?_⟩
  rcases List.mem_append.mp hcall with hcall | hcall
  · exact h.2 alert answer hcall
  · exact hc alert answer (List.mem_singleton.mp hcall).symm

/-- The first snapshot is published over a composed engine. -/
theorem publish_spec {snapshot : HealthSnapshot} :
    Spec (fun w => Stage lib deps cfg (fun p => p.engine.isSome = true) w
        ∧ Honest deps snapshot w.log) (publish snapshot)
      (fun published w => published = true
        ∧ Stage lib deps cfg (fun p => p.health.hasPublished = true) w) (Sound lib deps) := by
  refine Spec.step fun w h => ⟨rfl, ?_⟩
  obtain ⟨⟨hverified, hclock, ⟨hordered, hsilent⟩, hengine⟩, hhonest⟩ := h
  have hheard : Ordered lib deps { w with log := w.log ++ [.publish snapshot] } :=
    hordered.hear (fun _ heq => by cases heq; exact ⟨hengine, hhonest⟩) (fun _ => nofun)
      fun _ => nofun
  have hsilent' : Silent { w with log := w.log ++ [.publish snapshot] } := hsilent.hear fun _ _ => nofun
  refine ⟨hverified.extend (List.prefix_append ..), hclock,
    ⟨{ hheard with latest := ?_, published := fun _ => rfl }, hsilent'⟩, rfl⟩
  rintro snapshot' ⟨rfl⟩
  exact List.mem_append_right _ (List.mem_singleton.mpr rfl)

/-- What the snapshot of a verified world says. -/
theorem honest_of_stage {rows : List Order} {detector : Detector}
    (h : Stage lib deps cfg P w) (hrows : Call.allOrders (.ok rows) ∈ w.log)
    (hdetector : detector = w.detector) :
    Honest deps
      { sessionState := .healthy
        heartbeatAgeMs := 0
        tickAgeMs := kNoTickYet
        inFlightCount := Int32.ofNat (rows.countP isInFlight)
        clockSane := deps.clockDetector.isSome && detector.status = .healthy
        replayClean := deps.replayClean } w.log := by
  refine ⟨rfl, rfl, ?_, rfl, rows, hrows, rfl⟩
  rw [hdetector, h.clock]
  simp [h.verified.detector]

theorem publishHealth_tries :
    Tries (Stage lib deps cfg fun p => p.engine.isSome = true) (publishHealth deps .healthy)
      (fun _ => Stage lib deps cfg fun p => p.healthPublished = true)
      (fun f w => Sound lib deps w ∧ Explained f w.log) (Sound lib deps) := by
  unfold publishHealth
  refine Tries.bind (requireWired_tries fun _ h => h.sound) fun _ => ?_
  refine Tries.bind ((ordersForHealth_tries (P := fun p => p.engine.isSome = true)).weaken
    (fun _ h => h.1) (fun _ _ h => h) (fun _ _ h => h) fun _ h => h) fun rows => ?_
  have hread : Spec (fun w => Stage lib deps cfg (fun p => p.engine.isSome = true) w
      ∧ Call.allOrders (.ok rows) ∈ w.log) readDetector
      (fun detector w => (Stage lib deps cfg (fun p => p.engine.isSome = true) w
        ∧ Call.allOrders (.ok rows) ∈ w.log) ∧ detector = w.detector) (Sound lib deps) :=
    Spec.step fun w h => ⟨h, rfl⟩
  refine Tries.bind (Tries.lift hread) fun detector => ?_
  refine Tries.bind (Tries.lift (Spec.weaken publish_spec
    (fun w h => ⟨h.1.1, honest_of_stage h.1.1 h.1.2 h.2⟩) fun _ _ h => h)) fun published => ?_
  have hset : Spec (fun w => published = true
      ∧ Stage lib deps cfg (fun p => p.health.hasPublished = true) w)
      (setOutcome fun outcome => { outcome with healthPublished := published })
      (fun _ w => published = true ∧ Stage lib deps cfg (fun p => p.healthPublished = true) w)
      (Sound lib deps) := by
    refine Spec.step fun w h => ?_
    obtain ⟨rfl, hverified, hclock, ⟨hordered, hsilent⟩, hpublished⟩ := h
    exact ⟨rfl, hverified, hclock,
      ⟨{ hordered with published := fun _ => hpublished, endpoint := fun _ _ => rfl }, hsilent⟩,
      rfl⟩
  refine Tries.bind (Tries.lift hset) fun _ => ?_
  refine Tries.mapError (Tries.ofExcept (fun _ _ h _ => h.2) fun e w h he => ?_)
  rw [h.1] at he
  cases he

/-- A call that others see, from a step that may be made again. -/
theorem shown_tries {step : BootStep} {read : Seams → Result Unit} {event : Result Unit → Call}
    {Q : Progress → Prop} (halert : ∀ r alert answer, event r ≠ .alert alert answer)
    (hkeep : ∀ c p, P p → Q { p with shown := c })
    (hhear : ∀ t w, Stage lib deps cfg P w →
      Ordered lib deps { w with log := w.log ++ [event (read t)] })
    (hcause : ∀ e log, event (.error e) ∈ log → exitClassFor e = .crash → CrashCause log) :
    Tries (Stage lib deps cfg P) (failAs step exitClassFor (call read event))
      (fun _ w => Stage lib deps cfg Q w ∧ event (.ok ()) ∈ w.log)
      (fun f w => Sound lib deps w ∧ Explained f w.log) (Sound lib deps) := by
  refine Tries.mapError ?_
  refine Spec.ask (fun _ h => h.sound) fun t w h => ?_
  have hmem : event (read t) ∈ w.log ++ [event (read t)] := by simp
  have hsound : Sound lib deps { w with log := w.log ++ [event (read t)] } :=
    ⟨hhear _ w h, h.sound.2.hear (halert _)⟩
  dsimp only
  cases hr : read t with
  | error e =>
    rw [hr] at hsound hmem
    exact ⟨hsound, exitClassFor_ne_clean e, hcause e _ hmem⟩
  | ok =>
    rw [hr] at hsound hmem
    exact ⟨⟨h.verified.extend (List.prefix_append ..), h.clock, hsound, hkeep _ _ h.reached⟩, hmem⟩

theorem startHealthEndpoint_tries :
    Tries (Stage lib deps cfg fun p => p.healthPublished = true) (startHealthEndpoint deps)
      (fun _ => Stage lib deps cfg fun p => p.healthEndpointStarted = true)
      (fun f w => Sound lib deps w ∧ Explained f w.log) (Sound lib deps) := by
  unfold startHealthEndpoint
  refine Tries.bind (requireSeam_tries fun _ h => h.sound) fun start => ?_
  have hcall : Tries (Stage lib deps cfg fun p => p.healthPublished = true)
      (failAs .startHealthEndpoint exitClassFor (call start .startEndpoint))
      (fun _ w => Stage lib deps cfg (fun p => p.healthPublished = true) w
        ∧ Call.startEndpoint (.ok ()) ∈ w.log)
      (fun f w => Sound lib deps w ∧ Explained f w.log) (Sound lib deps) :=
    shown_tries (fun _ _ _ => nofun) (fun _ _ h => h)
      (fun _ w h => h.sound.1.hear (fun _ => nofun) (fun _ _ => h.reached) fun _ => nofun)
      fun e _ h hclass => .endpoint e h hclass
  refine Tries.bind (hcall.weaken (fun _ h => h.1) (fun _ _ h => h) (fun _ _ h => h) fun _ h => h)
    fun _ => ?_
  refine Tries.lift (Spec.step fun w h => ?_)
  obtain ⟨⟨hverified, hclock, ⟨hordered, hsilent⟩, hpublished⟩, hstarted⟩ := h
  exact ⟨hverified, hclock,
    ⟨{ hordered with started := fun _ => hstarted, entered := fun _ => rfl }, hsilent⟩, rfl⟩

theorem runPhase_tries :
    Tries (Stage lib deps cfg fun p => p.healthEndpointStarted = true) (runPhase deps)
      (fun _ w => Sound lib deps w ∧ Call.run (.ok ()) ∈ w.log)
      (fun f w => Sound lib deps w ∧ Explained f w.log) (Sound lib deps) := by
  unfold runPhase
  refine Tries.bind (requireSeam_tries fun _ h => h.sound) fun phase => ?_
  refine Spec.given fun hphase => ?_
  have hset : Spec (Stage lib deps cfg fun p => p.healthEndpointStarted = true)
      (setOutcome fun outcome => { outcome with runPhaseEntered := true })
      (fun _ => Stage lib deps cfg fun p => p.runPhaseEntered = true) (Sound lib deps) := by
    refine Spec.step fun w h => ?_
    obtain ⟨hverified, hclock, ⟨hordered, hsilent⟩, hstarted⟩ := h
    exact ⟨hverified, hclock, ⟨{ hordered with
      run := fun answer hcall => ⟨rfl, (hordered.run answer hcall).2⟩
      entered := fun _ => hstarted }, hsilent⟩, rfl⟩
  refine Tries.bind (Tries.lift hset) fun _ => ?_
  have hcall : Tries (Stage lib deps cfg fun p => p.runPhaseEntered = true)
      (failAs .run exitClassFor (call phase .run))
      (fun _ w => Stage lib deps cfg (fun p => p.runPhaseEntered = true) w
        ∧ Call.run (.ok ()) ∈ w.log)
      (fun f w => Sound lib deps w ∧ Explained f w.log) (Sound lib deps) :=
    shown_tries (fun _ _ _ => nofun) (fun _ _ h => h)
      (fun t w h => h.sound.1.hear (fun _ => nofun) (fun _ => nofun) fun _ hrun =>
        ⟨h.reached, phase, t, hphase, (Call.run.inj hrun).symm⟩)
      fun e _ h hclass => .run e h hclass
  exact hcall.weaken (fun _ h => h) (fun _ _ h => ⟨h.1.sound, h.2⟩) (fun _ _ h => h) fun _ h => h

theorem sequence_tries {first : Sample} :
    Tries (Begun deps first) (sequence lib deps)
      (fun _ w => Sound lib deps w ∧ Call.run (.ok ()) ∈ w.log)
      (fun f w => Sound lib deps w ∧ Explained f w.log) (Sound lib deps) := by
  have hL : ∀ w, Begun deps first w → Sound lib deps w := fun _ h => sound_of_notYet h.notYet
  have hbegun := stable_begun deps first
  unfold sequence
  refine Tries.bind (loadConfig_tries hbegun hL) fun loaded => ?_
  obtain ⟨env, cfg⟩ := loaded
  dsimp only
  have hloaded := (stable_heard hbegun (lasting_loaded deps env cfg)).and
    (Process.stable_const (deps.env = some env))
  refine Tries.bind (resolveDataDir_tries hloaded (fun w h => hL w h.1.1) cfg) fun dir => ?_
  have hplaced := stable_heard hloaded (lasting_placed deps cfg dir)
  refine Tries.bind (openLedger_tries hplaced fun w h => hL w h.1.1.1) fun ledger => ?_
  have hanchored := stable_heard hplaced (lasting_anchored lib ledger)
  refine Tries.bind (establishSession_tries hanchored fun w h => hL w h.1.1.1.1) fun state => ?_
  refine Spec.given fun hstate => ?_
  subst hstate
  have hprepared : ∀ w, ((((Begun deps first w ∧ Loaded deps env cfg w.log)
      ∧ deps.env = some env) ∧ Placed deps cfg dir w.log) ∧ Anchored lib ledger w.log)
      ∧ Call.probeSession (.ok .healthy) ∈ w.log → Preparing lib deps first cfg w := by
    rintro w ⟨⟨⟨⟨⟨hbegun, hloaded⟩, henv⟩, hplaced⟩, hanchored⟩, hsession⟩
    exact ⟨hbegun, hbegun.baseline, ⟨env, henv, hloaded⟩, ⟨dir, hplaced⟩, ⟨ledger, hanchored⟩,
      hsession⟩
  refine Tries.bind ((gate_tries dir).weaken hprepared (fun _ _ h => h) (fun _ _ h => h)
    fun _ h => h) fun _ => ?_
  refine Tries.bind composeBroker_tries fun _ => ?_
  refine Tries.bind composeEngine_tries fun _ => ?_
  refine Tries.bind publishHealth_tries fun _ => ?_
  exact Tries.bind startHealthEndpoint_tries fun _ => runPhase_tries

end Stages

/-! ## Boot -/

/-- What a process that ends by itself leaves. -/
structure Verdict (deps : BootDeps) (w : World) : Prop where
  clean : w.outcome.exitClass = .clean ↔ w.outcome.ok = true
  ok : w.outcome.ok = true → Call.run (.ok ()) ∈ w.log
  crash : w.outcome.exitClass = .crash → CrashCause w.log
  alarm : w.outcome.absenceAlarmFired = true ↔ w.outcome.exitClass = .failClosedNeedsHuman
  alert : (∃ alert answer, Call.alert alert answer ∈ w.log)
    ↔ w.outcome.exitClass = .failClosedNeedsHuman ∧ deps.alerts = true

/-- A refusal that has been written down. -/
structure Failed (lib : Libraries) (deps : BootDeps) (exitClass : ExitClass) (w : World) : Prop where
  ordered : Ordered lib deps w
  exitClass : w.outcome.exitClass = exitClass
  ok : w.outcome.ok = false

theorem fireAbsenceAlarm_spec (failure : Failure) :
    Spec (fun w => Failed lib deps .failClosedNeedsHuman w ∧ Silent w)
      (fireAbsenceAlarm deps failure) (fun _ w => Ordered lib deps w ∧ Verdict deps w)
      (Ordered lib deps) := by
  have hverdict : ∀ w, Failed lib deps .failClosedNeedsHuman w → w.outcome.absenceAlarmFired = true →
      ((∃ alert answer, Call.alert alert answer ∈ w.log) ↔ deps.alerts = true) →
      Ordered lib deps w ∧ Verdict deps w := by
    intro w h halarm halert
    refine ⟨h.ordered, ?_, ?_, ?_, ?_, ?_⟩
    · simp [h.exitClass, h.ok]
    · simp [h.ok]
    · simp [h.exitClass]
    · simp [h.exitClass, halarm]
    · simpa [h.exitClass] using halert
  unfold fireAbsenceAlarm
  have hset : Spec (fun w => Failed lib deps .failClosedNeedsHuman w ∧ Silent w)
      (setOutcome fun outcome => { outcome with absenceAlarmFired := true })
      (fun _ w => Failed lib deps .failClosedNeedsHuman w ∧ w.outcome.absenceAlarmFired = true
        ∧ ∀ alert answer, Call.alert alert answer ∉ w.log) (Ordered lib deps) :=
    Spec.step fun w h => ⟨⟨{ h.1.ordered with }, h.1.exitClass, h.1.ok⟩, rfl, h.2.2⟩
  refine Spec.bind hset fun _ => ?_
  cases halerts : deps.alerts with
  | false =>
    refine Spec.pure fun w h => hverdict w h.1 h.2.1 ?_
    simpa [halerts] using h.2.2
  | true =>
    have hcall : Spec (fun w => Failed lib deps .failClosedNeedsHuman w
        ∧ w.outcome.absenceAlarmFired = true
        ∧ ∀ alert answer, Call.alert alert answer ∉ w.log)
        (call Seams.alert (.alert (.plain .critical (absenceMessage deps failure))))
        (fun _ w => Failed lib deps .failClosedNeedsHuman w ∧ w.outcome.absenceAlarmFired = true
          ∧ ∃ alert answer, Call.alert alert answer ∈ w.log) (Ordered lib deps) := by
      refine Spec.ask (fun _ h => h.1.ordered) fun t w h => ?_
      obtain ⟨⟨hordered, hexit, hok⟩, halarm, -⟩ := h
      exact ⟨⟨hordered.hear (fun _ => nofun) (fun _ => nofun) fun _ => nofun, hexit, hok⟩, halarm,
        _, _, List.mem_append_right _ (List.mem_singleton.mpr rfl)⟩
    refine Spec.bind hcall fun sent => Spec.step fun w h => hverdict _ ?_ h.2.1 ?_
    · exact ⟨{ h.1.ordered with }, h.1.exitClass, h.1.ok⟩
    · simpa [halerts] using h.2.2

theorem failStep_spec (failure : Failure) :
    Spec (fun w => Sound lib deps w ∧ Explained failure w.log) (failStep deps failure)
      (fun _ w => Ordered lib deps w ∧ Verdict deps w) (Ordered lib deps) := by
  unfold failStep
  have hset : Spec (fun w => Sound lib deps w ∧ Explained failure w.log)
      (setOutcome fun outcome =>
        { outcome with
          ok := false
          step := failure.step
          exitClass := failure.exitClass
          error := some failure.error })
      (fun _ w => (Failed lib deps failure.exitClass w ∧ Silent w) ∧ Explained failure w.log)
      (Ordered lib deps) :=
    Spec.step fun w h => ⟨⟨⟨{ h.1.1 with }, rfl, rfl⟩, h.1.2⟩, h.2⟩
  refine Spec.bind hset fun _ => ?_
  split_ifs with hhuman
  · exact (fireAbsenceAlarm_spec failure).weaken (fun w h => hhuman ▸ h.1) fun _ _ h => h
  · refine Spec.pure fun w h => ?_
    obtain ⟨⟨⟨hordered, hexit, hok⟩, halarm, hsilent⟩, hclean, hcause⟩ := h
    refine ⟨hordered, ?_, ?_, ?_, ?_, ?_⟩
    · simp [hexit, hclean, hok]
    · simp [hok]
    · exact fun hcrash => hcause (hexit ▸ hcrash)
    · simp [halarm, hexit, hhuman]
    · simpa [hexit, hhuman] using hsilent

theorem boot_spec (lib : Libraries) (deps : BootDeps) (detector : Detector) :
    Spec (· = World.start detector) (boot lib deps)
      (fun _ w => Ordered lib deps w ∧ Verdict deps w) (Ordered lib deps) := by
  unfold boot
  refine Spec.bind (takeBaseline_spec detector) fun _ => Spec.exists fun first => ?_
  have hsequence : Tries (Begun deps first) (sequence lib deps)
      (fun _ w => Sound lib deps w ∧ Call.run (.ok ()) ∈ w.log)
      (fun f w => Sound lib deps w ∧ Explained f w.log) (Ordered lib deps) :=
    sequence_tries.weaken (fun _ h => h) (fun _ _ h => h) (fun _ _ h => h) fun _ h => h.1
  refine Spec.bind hsequence ?_
  rintro (failure | ⟨⟩)
  · exact failStep_spec failure
  · refine Spec.step fun w h => ?_
    obtain ⟨⟨hordered, halarm, hsilent⟩, hrun⟩ := h
    refine ⟨{ hordered with }, by simp, fun _ => hrun, nofun, by simp [halarm], by simpa using hsilent⟩

/-- What a published snapshot stands on. -/
theorem Ordered.verified_of_publish {snapshot : HealthSnapshot} (h : Ordered lib deps w)
    (hpublish : Call.publish snapshot ∈ w.log) :
    w.outcome.engine.isSome = true ∧ ∃ cfg assembly, w.outcome.broker = some assembly
      ∧ Verified lib deps cfg w.log w.outcome.audit
      ∧ parseBrokerChoice cfg.broker.name = .ok assembly.choice := by
  obtain ⟨hengine, -⟩ := h.publish snapshot hpublish
  obtain ⟨engine, heq⟩ := Option.isSome_iff_exists.mp hengine
  obtain ⟨assembly, hassembly⟩ := Option.isSome_iff_exists.mp (h.engine engine heq).1
  obtain ⟨cfg, hverified, hchoice, -⟩ := h.broker assembly hassembly
  exact ⟨hengine, cfg, assembly, hassembly, hverified, hchoice⟩

/-- The run phase is behind the first snapshot. -/
theorem Ordered.published_of_run {answer : Result Unit} (h : Ordered lib deps w)
    (hrun : Call.run answer ∈ w.log) : ∃ snapshot, Call.publish snapshot ∈ w.log := by
  have hstarted := h.entered (h.run answer hrun).1
  have hpublished := h.published (h.endpoint _ (h.started hstarted))
  obtain ⟨snapshot, hsnapshot⟩ := Option.isSome_iff_exists.mp hpublished
  exact ⟨snapshot, h.latest snapshot hsnapshot⟩

theorem ordered_boot (lib : Libraries) (deps : BootDeps) (detector : Detector)
    (ticks : List Seams) :
    Ordered lib deps (boot lib deps ticks (World.start detector)).state :=
  Spec.state ((boot_spec lib deps detector).weaken (fun _ h => h) fun _ _ h => h.1) ticks rfl

/-- **Nobody is told that the process is ready before its world is verified**; from then on, that the
projection was not rebuilt decides. -/
theorem ready_verified (lib : Libraries) (deps : BootDeps) (detector : Detector)
    (ticks : List Seams) (liveBudgetMs : Int64) :
    let w := (boot lib deps ticks (World.start detector)).state
    (w.health.latest.isReady liveBudgetMs = true
        ↔ 0 ≤ liveBudgetMs ∧ deps.replayClean = true
          ∧ ∃ snapshot, w.health.published = some snapshot ∧ 0 ≤ snapshot.inFlightCount)
      ∧ (w.health.latest.isReady liveBudgetMs = true →
        w.outcome.engine.isSome = true ∧ ∃ cfg assembly, w.outcome.broker = some assembly
          ∧ Verified lib deps cfg w.log w.outcome.audit
          ∧ parseBrokerChoice cfg.broker.name = .ok assembly.choice) := by
  intro w
  have h : Ordered lib deps w := ordered_boot lib deps detector ticks
  have hready : ∀ snapshot, w.health.published = some snapshot →
      (snapshot.isReady liveBudgetMs = true
        ↔ 0 ≤ liveBudgetMs ∧ deps.replayClean = true ∧ 0 ≤ snapshot.inFlightCount) := by
    intro snapshot hsnapshot
    obtain ⟨-, hhonest⟩ := h.publish snapshot (h.latest snapshot hsnapshot)
    unfold HealthSnapshot.isReady HealthSnapshot.isLive
    rw [hhonest.session, hhonest.heartbeat, hhonest.clock, hhonest.replay]
    by_cases hbudget : liveBudgetMs < 0
    · simp [hbudget, Int64.not_le.mpr hbudget]
    · simp [hbudget, Int64.not_lt.mp hbudget]
  constructor
  · constructor
    · intro hlatest
      obtain ⟨snapshot, hsnapshot, hsays⟩ := Cli.HealthState.latest_ready hlatest
      obtain ⟨hbudget, hclean, hcount⟩ := (hready snapshot hsnapshot).mp hsays
      exact ⟨hbudget, hclean, snapshot, hsnapshot, hcount⟩
    · rintro ⟨hbudget, hclean, snapshot, hsnapshot, hcount⟩
      unfold Cli.HealthState.latest
      rw [hsnapshot]
      exact (hready snapshot hsnapshot).mpr ⟨hbudget, hclean, hcount⟩
  · intro hlatest
    obtain ⟨snapshot, hsnapshot, -⟩ := Cli.HealthState.latest_ready hlatest
    exact h.verified_of_publish (h.latest snapshot hsnapshot)

/-- **A boot that ends is clean exactly when its run phase was, a crash only over an answer that may
be another the next time, and everything else wakes a human.** -/
theorem boot_verdict {detector : Detector} {ticks unused : List Seams}
    (h : boot lib deps ticks (World.start detector) = .done () unused w) : Verdict deps w := by
  have hspec := boot_spec lib deps detector ticks (World.start detector) rfl
  rw [h] at hspec
  exact hspec.2

/-- A world in which nothing is wrong, on a first boot. -/
def calmSeams : Seams where
  configFile := .absent
  isDirectory := true
  restricted := true
  keyFile := .text (List.replicate 64 0x30)
  chainExists := some false
  chainPresent := .ok false
  ledgerFile := none
  ledgerIo := .clean
  checkpoint := none
  checkpointIo := .clean
  session := .ok .healthy
  clock := ⟨0, 0⟩
  secret := .ok (List.replicate 32 0)
  instrumentsFresh := .ok ()
  instrumentsRefresh := .ok ()
  calendarFresh := .ok ()
  calendarRefresh := .ok ()
  store := .ok false
  orders := .ok []
  endpoint := .ok ()
  runPhase := .ok ()
  alert := .ok ()

def sampleLibraries : Libraries :=
  ⟨Json.reader, .sha256, ⟨fun _ message => .signed message, fun _ _ _ => .accepted⟩⟩

/-- Boot with nobody but the operator. -/
def bareDeps : BootDeps where
  args := ⟨[], [], []⟩
  env := none
  clock := false
  secrets := false
  alerts := true
  clockDetector := none
  store := false
  ledger := false
  instruments := false
  calendar := false
  health := false
  sessionProbe := none
  startHealthEndpoint := none
  runPhase := none
  chainPresent := none
  brokerDeps := ⟨false, false, [], [], false, false⟩
  brokerOptions := ⟨[], false, none⟩
  engineDeps := ⟨none, none, none, none, none, none, none, none, none, none, none, none⟩
  engineOptions := ⟨.exitOnly, [], [], true, ⟨500, 0⟩, false, false, false, false⟩
  replayClean := false

theorem bare_boot_done :
    ∃ w, boot sampleLibraries bareDeps [calmSeams] (World.start .init) = .done () [] w
      ∧ w.outcome.exitClass = .failClosedNeedsHuman :=
  ⟨_, rfl, rfl⟩

theorem boot_verdict_bare :
    ∃ w, boot sampleLibraries bareDeps [calmSeams] (World.start .init) = .done () [] w
      ∧ w.outcome.exitClass = .failClosedNeedsHuman ∧ Verdict bareDeps w := by
  obtain ⟨w, hboot, hexit⟩ := bare_boot_done
  exact ⟨w, hboot, hexit, boot_verdict hboot⟩

end BrokerExec.Boot
