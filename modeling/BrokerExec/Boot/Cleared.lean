import BrokerExec.Boot.Sequence

/-!
# What a boot has verified (`boot/boot.cpp`, `boot/boot_checks.cpp`)

Each step adds to what the calls so far have said, and no later move takes it back: the facts are
about the calls alone, and calls are only added.
-/

namespace BrokerExec.Boot

open BrokerExec.Accounts (AccountDataDir)
open BrokerExec.Clock (Detector Sample SkewStallConfig Within)
open BrokerExec.Cli (HealthState)
open BrokerExec.Composition (BrokerAssembly EngineAssembly)
open BrokerExec.Config (EnvLookup)
open BrokerExec.Domain (Order isValidStrategyName)
open BrokerExec.Errors (Error)
open BrokerExec.Process (Spec Stable Tries)
open BrokerExec.Session (isLegacyTriggerLessStop requireNoLegacyStops runCheck)
open BrokerExec.SessionGuard (SessionState)

/-! ## Moves -/

/-- The calls by which others learn of the process. -/
def Call.isShown : Call → Bool
  | .publish _ | .startEndpoint _ | .run _ | .alert _ _ => true
  | _ => false

/-- What tells how far boot came. -/
structure Progress where
  broker : Option BrokerAssembly
  engine : Option EngineAssembly
  healthPublished : Bool
  healthEndpointStarted : Bool
  runPhaseEntered : Bool
  absenceAlarmFired : Bool
  health : HealthState
  shown : List Call

def World.progress (w : World) : Progress :=
  ⟨w.outcome.broker, w.outcome.engine, w.outcome.healthPublished, w.outcome.healthEndpointStarted,
    w.outcome.runPhaseEntered, w.outcome.absenceAlarmFired, w.health, w.log.filter Call.isShown⟩

/-- A move that adds calls and leaves what the facts are about. -/
structure Quiet (w w' : World) : Prop where
  log : w.log <+: w'.log
  detector : w'.detector = w.detector
  audit : w'.outcome.audit = w.outcome.audit
  progress : w'.progress = w.progress

/-- A crash is only what a call has answered. -/
inductive CrashCause (log : List Call) : Prop where
  | directory (h : Call.makeDirectory false ∈ log ∨ Call.restrictDirectory false ∈ log)
  | chain (error : Error) (h : Call.probeChain (.error error) ∈ log)
  | session (error : Error) (h : Call.probeSession (.error error) ∈ log)
      (hclass : exitClassFor error = .crash)
  | orders (error : Error) (h : Call.allOrders (.error error) ∈ log)
      (hclass : exitClassFor error = .crash)
  | endpoint (error : Error) (h : Call.startEndpoint (.error error) ∈ log)
      (hclass : exitClassFor error = .crash)
  | run (error : Error) (h : Call.run (.error error) ∈ log) (hclass : exitClassFor error = .crash)

structure Explained (failure : Failure) (log : List Call) : Prop where
  notClean : failure.exitClass ≠ .clean
  cause : failure.exitClass = .crash → CrashCause log

theorem exitClassFor_ne_clean (error : Error) : exitClassFor error ≠ .clean := by
  unfold exitClassFor
  split <;> (try split) <;> decide

/-! ## One call

`K` is what holds before, `L` what is said of a boot that fails or dies. -/

section Leaves

variable {α : Type} {K L : World → Prop} {step : BootStep}

theorem call_spec (hK : Stable Quiet K) (hL : ∀ w, K w → L w) {read : Seams → α}
    {event : α → Call} (hshown : ∀ a, (event a).isShown = false) :
    Spec K (call read event) (fun a w => K w ∧ event a ∈ w.log) L := by
  refine Spec.ask hL fun t w h => ⟨hK w _ ⟨List.prefix_append _ _, rfl, rfl, ?_⟩ h, by simp⟩
  unfold World.progress
  simp [hshown]

theorem call_tries (hK : Stable Quiet K) (hL : ∀ w, K w → L w) {read : Seams → Result α}
    {event : Result α → Call} (hshown : ∀ r, (event r).isShown = false) :
    Tries K (call read event) (fun a w => K w ∧ event (.ok a) ∈ w.log)
      (fun e w => L w ∧ event (.error e) ∈ w.log) L := by
  refine Spec.weaken (call_spec hK hL hshown) (fun _ h => h) ?_
  rintro (e | a) w h
  · exact ⟨hL w h.1, h.2⟩
  · exact h

theorem setOutcome_quiet {f : BootOutcome → BootOutcome} (hK : Stable Quiet K)
    (haudit : ∀ o, (f o).audit = o.audit)
    (hprogress : ∀ w : World, { w with outcome := f w.outcome }.progress = w.progress) :
    Spec K (setOutcome f) (fun _ => K) L :=
  Spec.step fun w => hK w _ ⟨List.prefix_rfl, rfl, haudit _, hprogress w⟩

/-- What only a human can fix. -/
theorem needsHuman_tries {m : Act (Result α)} {post : α → World → Prop}
    (h : Tries K m post (fun _ => L) L) :
    Tries K (failAs step needsHuman m) post (fun f w => L w ∧ Explained f w.log) L :=
  Tries.mapError <| h.weaken (fun _ h => h) (fun _ _ h => h) (fun _ _ h => ⟨h, nofun, nofun⟩)
    fun _ h => h

theorem needsHuman_pure (hL : ∀ w, K w → L w) {r : Result α} :
    Tries K (failAs step needsHuman (pure r)) (fun a w => K w ∧ r = .ok a)
      (fun f w => L w ∧ Explained f w.log) L :=
  needsHuman_tries (Tries.ofExcept (fun _ _ h hr => ⟨h, hr⟩) fun _ w h _ => hL w h)

theorem demand_ok_iff {holds : Bool} {error : Error} : demand holds error = .ok () ↔ holds = true := by
  cases holds <;> simp [demand]

theorem requireWired_tries (hL : ∀ w, K w → L w) {wired : Bool} {what : String} :
    Tries K (requireWired step wired what) (fun _ w => K w ∧ wired = true)
      (fun f w => L w ∧ Explained f w.log) L :=
  (needsHuman_pure hL).weaken (fun _ h => h) (fun _ _ h => ⟨h.1, demand_ok_iff.mp h.2⟩)
    (fun _ _ h => h) fun _ h => h

theorem requireSeam_tries (hL : ∀ w, K w → L w) {seam : Option α} {what : String} :
    Tries K (requireSeam step seam what) (fun a w => K w ∧ seam = some a)
      (fun f w => L w ∧ Explained f w.log) L := by
  refine (needsHuman_pure hL).weaken (fun _ h => h) (fun a w h => ⟨h.1, ?_⟩) (fun _ _ h => h)
    fun _ h => h
  cases seam with
  | none => exact nomatch h.2
  | some a' => exact congrArg some (Except.ok.inj h.2)

/-- A call whose error may let the process be restarted. -/
theorem failAs_call {exitClass : Error → ExitClass} {read : Seams → Result α}
    {event : Result α → Call} (hK : Stable Quiet K) (hL : ∀ w, K w → L w)
    (hshown : ∀ r, (event r).isShown = false) (hclean : ∀ e, exitClass e ≠ .clean)
    (hcause : ∀ e log, event (.error e) ∈ log → exitClass e = .crash → CrashCause log) :
    Tries K (failAs step exitClass (call read event)) (fun a w => K w ∧ event (.ok a) ∈ w.log)
      (fun f w => L w ∧ Explained f w.log) L :=
  Tries.mapError <| (call_tries hK hL hshown).weaken (fun _ h => h) (fun _ _ h => h)
    (fun e w h => ⟨h.1, hclean e, hcause e w.log h.2⟩) fun _ h => h

end Leaves

/-! ## Facts -/

/-- What more calls do not take back. -/
def Lasting (P : List Call → Prop) : Prop := ∀ l l' : List Call, l ⊆ l' → P l → P l'

theorem stable_heard {K : World → Prop} {P : List Call → Prop} (hK : Stable Quiet K)
    (hP : Lasting P) : Stable Quiet fun w => K w ∧ P w.log :=
  hK.and fun _ _ hquiet h => hP _ _ hquiet.log.subset h

theorem lasting_mem (c : Call) : Lasting (c ∈ ·) := fun _ _ hsub h => hsub h

/-- The configuration that some read of the file gave. -/
def Loaded (deps : BootDeps) (env : EnvLookup) (cfg : Config) (log : List Call) : Prop :=
  ∃ file, Call.readConfig file ∈ log ∧ Config.load deps.args.configPath file env = .ok cfg

theorem lasting_loaded (deps : BootDeps) (env : EnvLookup) (cfg : Config) :
    Lasting (Loaded deps env cfg) :=
  fun _ _ hsub ⟨file, hfile, hload⟩ => ⟨file, hsub hfile, hload⟩

/-- The directory is this account's, below the one root that arguments and configuration name. -/
structure Placed (deps : BootDeps) (cfg : Config) (dir : AccountDataDir) (log : List Call) :
    Prop where
  consistent : Consistent cfg deps.args
  account : dir.accountId = accountIdOf deps cfg
  argument : deps.args.dataRoot = []
    ∨ comparablePath dir.dataRoot = comparablePath deps.args.dataRoot
  configured : cfg.paths.dataDir = []
    ∨ comparablePath dir.dataRoot = comparablePath cfg.paths.dataDir
  made : Call.makeDirectory true ∈ log
  restricted : Call.restrictDirectory true ∈ log

theorem lasting_placed (deps : BootDeps) (cfg : Config) (dir : AccountDataDir) :
    Lasting (Placed deps cfg dir) :=
  fun _ _ hsub h => { h with made := hsub h.made, restricted := hsub h.restricted }

def KeyRead (pinned : Bytes) (log : List Call) : Prop :=
  ∃ key, Call.readKey key ∈ log ∧ readPinnedPublicKey key = .ok pinned

theorem lasting_keyRead (pinned : Bytes) : Lasting (KeyRead pinned) :=
  fun _ _ hsub ⟨key, hkey, hread⟩ => ⟨key, hsub hkey, hread⟩

/-- Where the chain in memory comes from. -/
def ChainRead (lib : Libraries) (ledger : Ledger) (log : List Call) : Prop :=
  Call.probeChain (.ok false) ∈ log ∧ ledger = Ledger.create none
    ∨ Call.probeChain (.ok true) ∈ log ∧ Ledger.Linked lib.digest 0 [] ledger.entries
      ∧ ∃ file io, Call.loadLedger file io ∈ log
        ∧ (Ledger.create file).load lib.parser io = (.ok (), ledger)

theorem lasting_chainRead (lib : Libraries) (ledger : Ledger) : Lasting (ChainRead lib ledger) := by
  rintro l l' hsub (⟨hprobe, hnone⟩ | ⟨hprobe, hlinked, file, io, hloaded, hload⟩)
  · exact .inl ⟨hsub hprobe, hnone⟩
  · exact .inr ⟨hsub hprobe, hlinked, file, io, hsub hloaded, hload⟩

/-- The chain in memory is the whole file, linked, or there is none; and it meets the checkpoint under
the pinned key. -/
structure Anchored (lib : Libraries) (ledger : Ledger) (log : List Call) : Prop where
  chain : ChainRead lib ledger log
  checkpoint : ∃ pinned checkpoint io, KeyRead pinned log
    ∧ Call.readCheckpoint checkpoint io ∈ log
    ∧ ledger.verifyAgainstCheckpoint lib.parser lib.ed25519 io pinned checkpoint = .ok ()

theorem lasting_anchored (lib : Libraries) (ledger : Ledger) : Lasting (Anchored lib ledger) := by
  intro l l' hsub h
  obtain ⟨pinned, checkpoint, io, hkey, hread, hverified⟩ := h.checkpoint
  exact ⟨lasting_chainRead lib ledger _ _ hsub h.chain,
    pinned, checkpoint, io, lasting_keyRead pinned _ _ hsub hkey, hsub hread, hverified⟩

section Steps

variable {lib : Libraries} {deps : BootDeps} {K L : World → Prop}

theorem loadedConfig_tries (hK : Stable Quiet K) (hL : ∀ w, K w → L w) (env : EnvLookup) :
    Tries K (loadedConfig deps env) (fun cfg w => K w ∧ Loaded deps env cfg w.log) (fun _ => L)
      L := by
  refine Spec.bind (call_spec hK hL fun _ => rfl) fun file => ?_
  exact Tries.ofExcept (fun _ _ h hload => ⟨h.1, file, h.2, hload⟩) fun _ w h _ => hL w h.1

theorem loadConfig_tries (hK : Stable Quiet K) (hL : ∀ w, K w → L w) :
    Tries K (loadConfig deps)
      (fun r w => (K w ∧ Loaded deps r.1 r.2 w.log) ∧ deps.env = some r.1)
      (fun f w => L w ∧ Explained f w.log) L := by
  unfold loadConfig
  refine Tries.bind (requireSeam_tries hL) fun env => ?_
  have hwired : Stable Quiet fun w => K w ∧ deps.env = some env := hK.and (Process.stable_const _)
  refine Tries.bind (needsHuman_tries (loadedConfig_tries hwired (fun w h => hL w h.1) env))
    fun cfg => ?_
  have hread := stable_heard hwired (lasting_loaded deps env cfg)
  refine Tries.bind (Tries.lift (setOutcome_quiet hread (fun _ => rfl) fun _ => rfl)) fun _ => ?_
  exact Tries.pure fun w h => ⟨⟨h.1.1, h.2⟩, h.1.2⟩

theorem ensureDirectory_tries (hK : Stable Quiet K) (hL : ∀ w, K w → L w) :
    Tries K (failAs .resolveDataDir crashes ensureDirectory)
      (fun _ w => (K w ∧ Call.makeDirectory true ∈ w.log) ∧ Call.restrictDirectory true ∈ w.log)
      (fun f w => L w ∧ Explained f w.log) L := by
  refine Tries.mapError ?_
  refine Spec.bind (call_spec hK hL fun _ => rfl) fun isDirectory => ?_
  cases isDirectory with
  | false => exact Tries.ofExcept (fun _ _ _ hr => nomatch hr) fun _ w h _ =>
      ⟨hL w h.1, nofun, fun _ => .directory (.inl h.2)⟩
  | true =>
    have hmade := stable_heard hK (lasting_mem (.makeDirectory true))
    refine Spec.bind (call_spec hmade (fun w h => hL w h.1) fun _ => rfl) fun restricted => ?_
    cases restricted with
    | false => exact Tries.ofExcept (fun _ _ _ hr => nomatch hr) fun _ w h _ =>
        ⟨hL w h.1.1, nofun, fun _ => .directory (.inr h.2)⟩
    | true => exact Tries.ofExcept (fun _ _ h _ => h) fun _ _ _ hr => nomatch hr

theorem resolveDataDir_tries (hK : Stable Quiet K) (hL : ∀ w, K w → L w) (cfg : Config) :
    Tries K (resolveDataDir deps cfg) (fun dir w => K w ∧ Placed deps cfg dir w.log)
      (fun f w => L w ∧ Explained f w.log) L := by
  unfold resolveDataDir
  refine Tries.bind (needsHuman_pure hL) fun _ => ?_
  refine Tries.bind (needsHuman_pure fun w h => hL w h.1) fun root => ?_
  refine Tries.bind (needsHuman_pure fun w h => hL w h.1.1) fun dir => ?_
  have hplaced : Stable Quiet fun w => ((K w ∧ requireConfigConsistent cfg deps.args = .ok ())
      ∧ resolveDataRoot cfg deps.args = .ok root)
      ∧ AccountDataDir.create root (accountIdOf deps cfg) = .ok dir :=
    ((hK.and (Process.stable_const _)).and (Process.stable_const _)).and (Process.stable_const _)
  refine Tries.bind (Tries.lift (setOutcome_quiet hplaced (fun _ => rfl) fun _ => rfl)) fun _ => ?_
  refine Tries.bind (ensureDirectory_tries hplaced fun w h => hL w h.1.1.1) fun _ => ?_
  refine Tries.pure fun w h => ?_
  obtain ⟨⟨⟨⟨⟨hw, hconsistent⟩, hroot⟩, hdir⟩, hmade⟩, hrestricted⟩ := h
  obtain ⟨hdirRoot, hdirId⟩ := Accounts.create_eq_ok hdir
  obtain ⟨hargument, hconfigured⟩ := resolveDataRoot_ok hroot
  rw [← hdirRoot] at hargument hconfigured
  exact ⟨hw, requireConfigConsistent_ok hconsistent, hdirId, hargument, hconfigured, hmade,
    hrestricted⟩

/-! ### The ledger -/

theorem readKey_tries (hK : Stable Quiet K) (hL : ∀ w, K w → L w) :
    Tries K readKey (fun pinned w => K w ∧ KeyRead pinned w.log) (fun _ => L) L := by
  refine Spec.bind (call_spec hK hL fun _ => rfl) fun key => ?_
  exact Tries.ofExcept (fun _ _ h hread => ⟨h.1, key, h.2, hread⟩) fun _ w h _ => hL w h.1

theorem loadChain_tries (hK : Stable Quiet K) (hL : ∀ w, K w → L w) :
    Tries (fun w => K w ∧ Call.probeChain (.ok true) ∈ w.log) (loadChain lib)
      (fun ledger w => K w ∧ ChainRead lib ledger w.log)
      (fun f w => L w ∧ Explained f w.log) L := by
  unfold loadChain
  have hprobed := stable_heard hK (lasting_mem (.probeChain (.ok true)))
  refine Tries.bind (Tries.lift (call_spec hprobed (fun w h => hL w h.1) fun _ => rfl)) fun answer => ?_
  obtain ⟨file, io⟩ := answer
  dsimp only
  refine Tries.bind (needsHuman_pure fun w h => hL w h.1.1) fun _ => ?_
  refine Tries.bind (needsHuman_pure fun w h => hL w h.1.1.1) fun _ => ?_
  refine Tries.pure fun w h => ?_
  obtain ⟨⟨⟨⟨hw, hprobe⟩, hloaded⟩, hload⟩, hverified⟩ := h
  exact ⟨hw, .inr ⟨hprobe, (Ledger.verifyChain_ok_iff _ _).mp hverified, file, io, hloaded,
    Prod.ext hload rfl⟩⟩

theorem chainInMemory_tries (hK : Stable Quiet K) (hL : ∀ w, K w → L w) (present : Bool) :
    Tries (fun w => K w ∧ Call.probeChain (.ok present) ∈ w.log) (chainInMemory lib present)
      (fun ledger w => K w ∧ ChainRead lib ledger w.log)
      (fun f w => L w ∧ Explained f w.log) L := by
  cases present with
  | true => exact loadChain_tries hK hL
  | false => exact Tries.pure fun w h => ⟨h.1, .inl ⟨h.2, rfl⟩⟩

theorem openLedger_tries (hK : Stable Quiet K) (hL : ∀ w, K w → L w) :
    Tries K (openLedger lib deps) (fun ledger w => K w ∧ Anchored lib ledger w.log)
      (fun f w => L w ∧ Explained f w.log) L := by
  unfold openLedger
  refine Tries.bind (requireWired_tries hL) fun _ => ?_
  have hwired : Stable Quiet fun w => K w ∧ deps.ledger = true := hK.and (Process.stable_const _)
  refine Tries.bind (needsHuman_tries (readKey_tries hwired fun w h => hL w h.1)) fun pinned => ?_
  have hkey := stable_heard hwired (lasting_keyRead pinned)
  refine Tries.bind (failAs_call hkey (fun w h => hL w h.1.1) (fun _ => rfl) (fun _ => nofun)
    fun e _ h _ => .chain e h) fun present => ?_
  refine Tries.bind (chainInMemory_tries hkey (fun w h => hL w h.1.1) present) fun ledger => ?_
  have hchain := stable_heard hkey (lasting_chainRead lib ledger)
  refine Tries.bind (Tries.lift (call_spec hchain (fun w h => hL w h.1.1.1) fun _ => rfl)) fun answer => ?_
  obtain ⟨checkpoint, io⟩ := answer
  dsimp only
  refine Tries.bind (needsHuman_pure fun w h => hL w h.1.1.1.1) fun _ => ?_
  refine Tries.pure fun w h => ?_
  obtain ⟨⟨⟨⟨⟨hw, -⟩, hkey⟩, hchain⟩, hcheckpoint⟩, hverified⟩ := h
  exact ⟨hw, hchain, pinned, checkpoint, io, hkey, hcheckpoint, hverified⟩

theorem establishSession_tries (hK : Stable Quiet K) (hL : ∀ w, K w → L w) :
    Tries K (establishSession deps)
      (fun state w => (K w ∧ Call.probeSession (.ok .healthy) ∈ w.log) ∧ state = .healthy)
      (fun f w => L w ∧ Explained f w.log) L := by
  unfold establishSession
  refine Tries.bind (requireSeam_tries hL) fun probe => ?_
  have hwired : Stable Quiet fun w => K w ∧ deps.sessionProbe = some probe :=
    hK.and (Process.stable_const _)
  refine Tries.bind (failAs_call hwired (fun w h => hL w h.1) (fun _ => rfl) exitClassFor_ne_clean
    fun e _ h hclass => .session e h hclass) fun state => ?_
  have hprobed := stable_heard hwired (lasting_mem (.probeSession (.ok state)))
  refine Tries.bind (Tries.lift (setOutcome_quiet hprobed (fun _ => rfl) fun _ => rfl)) fun _ => ?_
  refine Tries.bind (needsHuman_pure fun w h => hL w h.1.1) fun _ => ?_
  refine Tries.pure fun w h => ?_
  obtain ⟨⟨⟨hw, -⟩, hprobe⟩, hhealthy⟩ := h
  obtain rfl := Session.sessionStateToResult_ok_iff.mp hhealthy
  exact ⟨⟨hw, hprobe⟩, rfl⟩

end Steps

end BrokerExec.Boot
