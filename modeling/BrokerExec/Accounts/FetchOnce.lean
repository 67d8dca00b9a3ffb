import BrokerExec.Accounts.CacheSound
import BrokerExec.Platform.FreshLock

/-!
# One fetch for each key

While no lock goes stale and fetches and publishes succeed, a fetch is called under the lock of its
key, and the next call that gets the lock finds the artifact.

An empty artifact reads as a miss. A validator that accepts the empty payload lets it be published
all the same, and then every call fetches again.

* **`step_once`** — the invariant: a key that was fetched is published, or its fetch still holds
  the lock.
* **`cache_contract`** — whole validated payloads and one fetch, over every run in which no fetch
  gives an empty payload that validates.
* **`empty_payload_fetched_twice`** — the run that such a payload spoils.
-/

namespace BrokerExec.Accounts

open BrokerExec.Platform (Acquirer World FreshPath Plain)

namespace CallPhase

variable {κ : Type}

/-- The purpose for which the artifact is being read. -/
def reads : CallPhase κ → Option Purpose
  | .looking purpose | .opening purpose | .pieces purpose _ _ => some purpose
  | _ => none

/-- The attempt under whose lock the call has fetched, or fetches. -/
def fetchedUnder : CallPhase κ → Option Nat
  | .fetching attempt | .touching attempt _ _ | .confirming attempt _ | .openingTemp attempt _
  | .writing attempt _ _ _ | .syncing attempt _ | .publishing attempt _ _
  | .abandoning attempt _ _ => some attempt
  | _ => none

/-- The attempt under whose lock the call works. -/
def critical (phase : CallPhase κ) : Option Nat :=
  match phase.reads with
  | some (.doubleCheck attempt) => some attempt
  | _ => phase.fetchedUnder

def abandons : CallPhase κ → Bool
  | .abandoning .. => true
  | _ => false

end CallPhase

section

variable {κ : Type} (config : SharedRefdataCacheConfig) (validate : Option (Bytes → Bool))
  (requests : κ → Request) (who : κ × Nat → Acquirer)

/-- The fetch that returns here, if one does, succeeds and validates. -/
def fetchValidates : Event κ → Bool
  | .fetch _ (.ok payload) => accepts validate payload
  | .fetch _ (.error _) => false
  | _ => true

/-- No lock file is stale, no publish has failed, and the fetch that returns here validates. -/
def Untroubled (w : Cache κ) (e : Event κ) : Prop :=
  (∀ c, FreshPath config.lockStaleness (w.locks (requests c).key))
    ∧ (∀ c, (w.phase c).abandons = false) ∧ fetchValidates validate e = true

/-- The call has fetched and holds the lock, or held it when it crashed. -/
def InFlight (w : Cache κ) (c : κ) (attempt : Nat) : Prop :=
  ((w.locks (requests c).key).phase (c, attempt)).holds
    ∧ (w.phase c = .crashed ∨ (w.phase c).fetchedUnder = some attempt)

def Published (w : Cache κ) (key : RefdataKey) : Prop := w.disk.entry (artifactName key) ≠ none

structure Once (w : Cache κ) : Prop where
  locks : ∀ c, Plain who (w.locks (requests c).key)
  critical : ∀ c attempt, (w.phase c).critical = some attempt →
    ((w.locks (requests c).key).phase (c, attempt)).holds
  opening : ∀ c purpose, w.phase c = .opening purpose → Published w (requests c).key
  fetched : ∀ c attempt fetched begun, w.phase c = .touching attempt fetched begun →
    ∃ payload, fetched = .ok payload ∧ accepts validate payload = true
  payloads : ∀ key payload, (key, .ok payload) ∈ w.fetched → payload ≠ []
  once : ∀ key, w.called.count key = 0 ∨ (w.called.count key = 1 ∧ key.Safe
    ∧ (Published w key ∨ ∃ c attempt, (requests c).key = key ∧ InFlight requests w c attempt))

variable {config validate requests who} {w w' : Cache κ} {c : κ}

theorem critical_of_fetchedUnder {phase : CallPhase κ} {attempt : Nat}
    (h : phase.fetchedUnder = some attempt) : phase.critical = some attempt := by
  cases phase <;> first | exact h | cases h

/-- **The invariant, from what the step of `c` leaves alone and what `c` comes to.** -/
theorem Once.of_step (honce : Once validate requests who w)
    (hlocks : ∀ c', Plain who (w'.locks (requests c').key))
    (hphases : ∀ c', c' ≠ c → w'.phase c' = w.phase c')
    (hlockPhases : ∀ c', c' ≠ c → ∀ attempt, (w'.locks (requests c').key).phase (c', attempt)
      = (w.locks (requests c').key).phase (c', attempt))
    (hartifacts : ∀ key, key.Safe → Published w key → Published w' key)
    (hsafe : ∀ c', (∃ purpose, w.phase c' = .opening purpose) → (requests c').key.Safe)
    (hcalled : w'.called = w.called)
    (hpayloads : ∀ key payload, (key, .ok payload) ∈ w'.fetched → payload ≠ [])
    (hcritical : ∀ attempt, (w'.phase c).critical = some attempt →
      ((w'.locks (requests c).key).phase (c, attempt)).holds)
    (hopening : ∀ purpose, w'.phase c = .opening purpose → Published w' (requests c).key)
    (hfetched : ∀ attempt fetched begun, w'.phase c = .touching attempt fetched begun →
      ∃ payload, fetched = .ok payload ∧ accepts validate payload = true)
    (hflight : ∀ attempt, InFlight requests w c attempt →
      Published w' (requests c).key ∨ InFlight requests w' c attempt) :
    Once validate requests who w' where
  locks := hlocks
  critical c' attempt h := by
    by_cases hc : c' = c
    · subst hc
      exact hcritical attempt h
    · rw [hphases c' hc] at h
      rw [hlockPhases c' hc]
      exact honce.critical c' attempt h
  opening c' purpose h := by
    by_cases hc : c' = c
    · subst hc
      exact hopening purpose h
    · rw [hphases c' hc] at h
      exact hartifacts _ (hsafe c' ⟨purpose, h⟩) (honce.opening c' purpose h)
  fetched c' attempt fetched begun h := by
    by_cases hc : c' = c
    · subst hc
      exact hfetched attempt fetched begun h
    · rw [hphases c' hc] at h
      exact honce.fetched c' attempt fetched begun h
  payloads := hpayloads
  once key := by
    rw [hcalled]
    rcases honce.once key with h | ⟨hcount, hkey, h⟩
    · exact .inl h
    · refine .inr ⟨hcount, hkey, ?_⟩
      rcases h with hpublished | ⟨c', attempt, rfl, hinflight⟩
      · exact .inl (hartifacts key hkey hpublished)
      · by_cases hc : c' = c
        · subst hc
          rcases hflight attempt hinflight with h | h
          · exact .inl h
          · exact .inr ⟨c', attempt, rfl, h⟩
        · refine .inr ⟨c', attempt, rfl, ?_⟩
          unfold InFlight
          rw [hlockPhases c' hc, hphases c' hc]
          exact hinflight

variable [DecidableEq κ]

/-- `c` turns to its next phase, from a world `w₁` that has its files and its locks changed. -/
theorem Once.turns (honce : Once validate requests who w)
    (hsound : Sound validate requests who w) (w₁ : Cache κ) (next : CallPhase κ)
    (hphase : w₁.phase = w.phase) (hcalled : w₁.called = w.called)
    (hpayloads : ∀ key payload, (key, .ok payload) ∈ w₁.fetched → payload ≠ [])
    (hartifacts : ∀ key, key.Safe → Published w key → Published w₁ key)
    (hlocks : ∀ c', Plain who (w₁.locks (requests c').key))
    (hlockPhases : ∀ c', c' ≠ c → ∀ attempt, (w₁.locks (requests c').key).phase (c', attempt)
      = (w.locks (requests c').key).phase (c', attempt))
    (hcritical : ∀ attempt, next.critical = some attempt →
      ((w₁.locks (requests c).key).phase (c, attempt)).holds)
    (hopening : ∀ purpose, next = .opening purpose → Published w₁ (requests c).key)
    (hfetched : ∀ attempt fetched begun, next = .touching attempt fetched begun →
      ∃ payload, fetched = .ok payload ∧ accepts validate payload = true)
    (hflight : ∀ attempt, InFlight requests w c attempt → Published w₁ (requests c).key
      ∨ (((w₁.locks (requests c).key).phase (c, attempt)).holds
        ∧ (next = .crashed ∨ next.fetchedUnder = some attempt))) :
    Once validate requests who (w₁.goTo c next) := by
  refine honce.of_step (c := c) hlocks ?_ hlockPhases hartifacts ?_ hcalled hpayloads ?_ ?_ ?_ ?_
  · intro c' hc
    rw [goTo_phase_of_ne _ _ hc, hphase]
  · rintro c' ⟨purpose, h⟩
    have hknows := hsound.knows c'
    rw [h] at hknows
    exact hknows
  · rw [goTo_phase_self]
    exact hcritical
  · rw [goTo_phase_self]
    exact hopening
  · rw [goTo_phase_self]
    exact hfetched
  · intro attempt h
    rcases hflight attempt h with hpublished | h
    · exact .inl hpublished
    · refine .inr ?_
      unfold InFlight
      rw [goTo_phase_self]
      exact h

/-- A turn of the phase, with files and locks as before. -/
theorem Once.turnsAlone (honce : Once validate requests who w)
    (hsound : Sound validate requests who w) {next : CallPhase κ}
    (hcritical : ∀ attempt, next.critical = some attempt → (w.phase c).critical = some attempt)
    (hopening : ∀ purpose, next = .opening purpose → Published w (requests c).key)
    (hfetched : ∀ attempt fetched begun, next ≠ .touching attempt fetched begun)
    (hflight : ∀ attempt, (w.phase c).fetchedUnder = some attempt →
      next.fetchedUnder = some attempt)
    (hrunning : w.phase c ≠ .crashed) : Once validate requests who (w.goTo c next) := by
  refine honce.turns hsound w next rfl rfl honce.payloads (fun _ _ h => h) honce.locks
    (fun _ _ _ => rfl) ?_ hopening ?_ ?_
  · exact fun attempt h => honce.critical c attempt (hcritical attempt h)
  · exact fun attempt fetched begun h => absurd h (hfetched attempt fetched begun)
  · rintro attempt ⟨hholds, hcrashed | hunder⟩
    · exact absurd hcrashed hrunning
    · exact .inr ⟨hholds, .inr (hflight attempt hunder)⟩

section

variable (hdistinct : Function.Injective fun a => (who a).nonce)
  (hfresh : ∀ c, FreshPath config.lockStaleness (w.locks (requests c).key))

include hdistinct hfresh

theorem Once.lockStep_plain (honce : Once validate requests who w) (c : κ)
    (e : Platform.Event (κ × Nat)) (c' : κ) :
    Plain who ((w.lockStep config who (requests c).key e).locks (requests c').key) := by
  show Plain who (Function.update w.locks _ _ _)
  by_cases hkey : (requests c').key = (requests c).key
  · rw [hkey, Function.update_self]
    exact Platform.freshStep_plain (honce.locks c) hdistinct (hfresh c) e
  · rw [Function.update_of_ne hkey]
    exact honce.locks c'

end

theorem lockStep_phase_of_ne {c' : κ} (hc : c' ≠ c) {attempt : Nat} {e : Platform.Event (κ × Nat)}
    (hactor : e.actor = some (c, attempt)) (attempt' : Nat) :
    ((w.lockStep config who (requests c).key e).locks (requests c').key).phase (c', attempt')
      = (w.locks (requests c').key).phase (c', attempt') := by
  show (Function.update w.locks _ _ _).phase _ = _
  by_cases hkey : (requests c').key = (requests c).key
  · rw [hkey, Function.update_self]
    refine Platform.step_phase_of_ne ?_
    rw [hactor]
    intro h
    exact hc (Prod.mk.inj (Option.some.inj h)).1.symm
  · rw [Function.update_of_ne hkey]

theorem lockStep_locks_self (e : Platform.Event (κ × Nat)) :
    (w.lockStep config who (requests c).key e).locks (requests c).key
      = Platform.step config.lockStaleness who (w.locks (requests c).key) e := by
  show Function.update w.locks _ _ _ = _
  rw [Function.update_self]

/-! ## The step lemma -/

/-- **A fetch is called**: under the lock, with no artifact there, so nobody has fetched. -/
theorem Once.misses (honce : Once validate requests who w) (hsound : Sound validate requests who w)
    (hdistinct : Function.Injective fun a => (who a).nonce) {attempt : Nat}
    (hphase : w.phase c = .looking (.doubleCheck attempt))
    (hnone : w.disk.entry (artifactName (requests c).key) = none) :
    Once validate requests who
      ({ w with called := (requests c).key :: w.called }.goTo c (.fetching attempt)) := by
  have hsafe : (requests c).key.Safe := by
    have hknows := hsound.knows c
    rw [hphase] at hknows
    exact hknows
  have hholds : ((w.locks (requests c).key).phase (c, attempt)).holds :=
    honce.critical c attempt (by rw [hphase]; rfl)
  have hnobody : w.called.count (requests c).key = 0 := by
    rcases honce.once (requests c).key with h | ⟨-, -, hpublished | ⟨c', attempt', hkey, hother, h⟩⟩
    · exact h
    · exact absurd hnone hpublished
    · rw [hkey] at hother
      -- the lock has one holder, which is looking
      obtain ⟨rfl, -⟩ : c' = c ∧ attempt' = attempt := Prod.mk.inj
        ((honce.locks c).sole hdistinct (Platform.Phase.hasFile_of_holds hother)
          (Platform.Phase.hasFile_of_holds hholds))
      rw [hphase] at h
      rcases h with h | h <;> cases h
  constructor
  case locks => exact honce.locks
  case critical =>
    intro c' attempt' h
    by_cases hc : c' = c
    · subst hc
      rw [goTo_phase_self] at h
      obtain rfl : attempt = attempt' := Option.some.inj h
      exact hholds
    · rw [goTo_phase_of_ne _ _ hc] at h
      exact honce.critical c' attempt' h
  case opening =>
    intro c' purpose h
    by_cases hc : c' = c
    · subst hc
      rw [goTo_phase_self] at h
      cases h
    · rw [goTo_phase_of_ne _ _ hc] at h
      exact honce.opening c' purpose h
  case fetched =>
    intro c' attempt' fetched begun h
    by_cases hc : c' = c
    · subst hc
      rw [goTo_phase_self] at h
      cases h
    · rw [goTo_phase_of_ne _ _ hc] at h
      exact honce.fetched c' attempt' fetched begun h
  case payloads => exact honce.payloads
  case once =>
    intro key
    by_cases hkey : key = (requests c).key
    · subst hkey
      refine .inr ⟨?_, hsafe, .inr ⟨c, attempt, rfl, hholds, .inr ?_⟩⟩
      · show ((requests c).key :: w.called).count (requests c).key = 1
        rw [List.count_cons_self, hnobody]
      · rw [goTo_phase_self]
        rfl
    · have hcount : ((requests c).key :: w.called).count key = w.called.count key :=
        List.count_cons_of_ne (Ne.symm hkey)
      show ((requests c).key :: w.called).count key = 0 ∨ _
      rw [hcount]
      rcases honce.once key with h | ⟨hone, hkeySafe, hpublished | ⟨c', attempt', rfl, h⟩⟩
      · exact .inl h
      · exact .inr ⟨hcount.trans hone, hkeySafe, .inl hpublished⟩
      · have hc : c' ≠ c := by
          rintro rfl
          exact hkey rfl
        refine .inr ⟨hcount.trans hone, hkeySafe, .inr ⟨c', attempt', rfl, ?_⟩⟩
        unfold InFlight
        rw [goTo_phase_of_ne _ _ hc]
        exact h

/-- The artifact is there, whole and not empty: a hit. -/
theorem Once.hits (honce : Once validate requests who w) (hsound : Sound validate requests who w)
    {purpose : Purpose} {payload : Bytes} (hreads : (w.phase c).reads = some purpose)
    (hgood : Good validate w (requests c).key payload) :
    Once validate requests who
      (finishRead config validate requests w c purpose (some payload)) := by
  have hne : payload ≠ [] := honce.payloads _ _ hgood.1
  have hrunning : w.phase c ≠ .crashed := by
    intro h
    rw [h] at hreads
    cases hreads
  have hunder : (w.phase c).fetchedUnder = none := by
    cases hphase : w.phase c <;> rw [hphase] at hreads <;> first | rfl | cases hreads
  have hhit : (some payload).filter (fun payload => payload ≠ [] && accepts validate payload)
      = some payload := by
    simp [hne, hgood.2]
  unfold finishRead
  rw [hhit]
  cases purpose <;>
    exact honce.turnsAlone hsound (by simp [CallPhase.critical, CallPhase.reads,
      CallPhase.fetchedUnder]) (by simp) (by simp) (by simp [hunder]) hrunning

section

variable (hdistinct : Function.Injective fun a => (who a).nonce)
  (hfresh : ∀ c, FreshPath config.lockStaleness (w.locks (requests c).key))

include hdistinct hfresh

/-- A step of the lock alone, by a call that works under no lock. -/
theorem Once.lockOnly (honce : Once validate requests who w)
    (hsound : Sound validate requests who w) (hcritical : (w.phase c).critical = none)
    (hrunning : w.phase c ≠ .crashed) (hopening : ∀ purpose, w.phase c ≠ .opening purpose)
    {attempt : Nat} {e : Platform.Event (κ × Nat)} (hactor : e.actor = some (c, attempt)) :
    Once validate requests who (w.lockStep config who (requests c).key e) := by
  refine honce.of_step (c := c) (honce.lockStep_plain hdistinct hfresh c e) (fun _ _ => rfl)
    (fun c' hc attempt' => lockStep_phase_of_ne hc hactor attempt') (fun _ _ h => h) ?_ rfl
    honce.payloads ?_ ?_ (honce.fetched c) ?_
  · rintro c' ⟨purpose, h⟩
    have hknows := hsound.knows c'
    rw [h] at hknows
    exact hknows
  · intro attempt' h
    have h' : (w.phase c).critical = some attempt' := h
    rw [hcritical] at h'
    cases h'
  · exact fun purpose h => absurd h (hopening purpose)
  · rintro attempt' ⟨-, hcrashed | hunder⟩
    · exact absurd hcrashed hrunning
    · rw [critical_of_fetchedUnder hunder] at hcritical
      cases hcritical

/-- A step of the lock and a turn. -/
theorem Once.turnsLocked (honce : Once validate requests who w)
    (hsound : Sound validate requests who w) {attempt : Nat} {e : Platform.Event (κ × Nat)}
    (hactor : e.actor = some (c, attempt)) {next : CallPhase κ}
    (hcritical : ∀ attempt', next.critical = some attempt' →
      ((Platform.step config.lockStaleness who (w.locks (requests c).key) e).phase
        (c, attempt')).holds)
    (hopening : ∀ purpose, next ≠ .opening purpose)
    (hfetched : ∀ attempt fetched begun, next = .touching attempt fetched begun →
      ∃ payload, fetched = .ok payload ∧ accepts validate payload = true)
    (hflight : ∀ attempt', (w.phase c).fetchedUnder = some attempt' →
      next.fetchedUnder = some attempt')
    (hrunning : w.phase c ≠ .crashed) :
    Once validate requests who ((w.lockStep config who (requests c).key e).goTo c next) := by
  refine honce.turns hsound _ next rfl rfl honce.payloads (fun _ _ h => h)
    (honce.lockStep_plain hdistinct hfresh c e)
    (fun c' hc attempt' => lockStep_phase_of_ne hc hactor attempt') ?_ ?_ hfetched ?_
  · intro attempt' h
    rw [lockStep_locks_self]
    exact hcritical attempt' h
  · exact fun purpose h => absurd h (hopening purpose)
  · rintro attempt' ⟨-, hcrashed | hunder⟩
    · exact absurd hcrashed hrunning
    · have hnext := hflight attempt' hunder
      refine .inr ⟨?_, .inr hnext⟩
      rw [lockStep_locks_self]
      exact hcritical attempt' (critical_of_fetchedUnder hnext)

/-- A step of the lock that a call holds, and a turn: it goes on under the same lock. -/
theorem Once.turnsHolding (honce : Once validate requests who w)
    (hsound : Sound validate requests who w) {attempt : Nat} {e : Platform.Event (κ × Nat)}
    (hactor : e.actor = some (c, attempt)) {next : CallPhase κ}
    (hunder : (w.phase c).fetchedUnder = some attempt)
    (hnext : next.fetchedUnder = some attempt)
    (hkept : ((Platform.step config.lockStaleness who (w.locks (requests c).key) e).phase
      (c, attempt)).holds)
    (hopening : ∀ purpose, next ≠ .opening purpose)
    (hfetched : ∀ attempt fetched begun, next = .touching attempt fetched begun →
      ∃ payload, fetched = .ok payload ∧ accepts validate payload = true)
    (hrunning : w.phase c ≠ .crashed) :
    Once validate requests who ((w.lockStep config who (requests c).key e).goTo c next) := by
  refine honce.turnsLocked hdistinct hfresh hsound hactor ?_ hopening hfetched ?_ hrunning
  · intro attempt' h
    rw [critical_of_fetchedUnder hnext] at h
    obtain rfl := Option.some.inj h
    exact hkept
  · intro attempt' h
    rw [hnext, ← hunder, h]

end

/-- Files other than the artifacts change. -/
theorem Once.turnsFiles (honce : Once validate requests who w)
    (hsound : Sound validate requests who w) (w₁ : Cache κ) {next : CallPhase κ}
    (hphase : w₁.phase = w.phase) (hcalled : w₁.called = w.called)
    (hfetched : w₁.fetched = w.fetched) (hlocks : w₁.locks = w.locks)
    (hartifacts : ∀ key, key.Safe → Published w key → Published w₁ key)
    (hcritical : ∀ attempt, next.critical = some attempt → (w.phase c).critical = some attempt)
    (hopening : ∀ purpose, next ≠ .opening purpose)
    (htouching : ∀ attempt fetched begun, next ≠ .touching attempt fetched begun)
    (hflight : ∀ attempt, (w.phase c).fetchedUnder = some attempt →
      Published w₁ (requests c).key ∨ next.fetchedUnder = some attempt)
    (hrunning : w.phase c ≠ .crashed) : Once validate requests who (w₁.goTo c next) := by
  refine honce.turns hsound w₁ next hphase hcalled ?_ hartifacts ?_ ?_ ?_ ?_ ?_ ?_
  · rw [hfetched]
    exact honce.payloads
  · rw [hlocks]
    exact honce.locks
  · exact fun _ _ _ => by rw [hlocks]
  · intro attempt h
    rw [hlocks]
    exact honce.critical c attempt (hcritical attempt h)
  · exact fun purpose h => absurd h (hopening purpose)
  · exact fun attempt fetched begun h => absurd h (htouching attempt fetched begun)
  · rintro attempt ⟨hholds, hcrashed | hunder⟩
    · exact absurd hcrashed hrunning
    · rcases hflight attempt hunder with h | h
      · exact .inl h
      · rw [hlocks]
        exact .inr ⟨hholds, .inr h⟩

/-- The sweep removes old debris, which no artifact is. -/
theorem Once.removes (honce : Once validate requests who w)
    (hsound : Sound validate requests who w) {entry : DirEntry κ}
    (hphase : w.phase c = .sweeping (some entry)) :
    Once validate requests who ((w.removeEntry entry).goTo c (.sweeping none)) := by
  have hknows := hsound.knows c
  rw [hphase] at hknows
  cases entry with
  | file name =>
    refine honce.turnsFiles hsound (w.removeEntry (.file name)) rfl rfl rfl rfl ?_
      (by simp [CallPhase.critical, CallPhase.reads, CallPhase.fetchedUnder]) (by simp)
      (by simp) (by simp [hphase, CallPhase.fetchedUnder]) (by simp [hphase])
    intro key hkey h
    show (w.disk.remove name).entry (artifactName key) ≠ none
    rw [Disk.entry_remove_of_ne]
    · exact h
    · rintro rfl
      exact not_isDebris_artifactName hkey hknows
  | claim key acquisition =>
    have hlock : ∀ key', (Function.update w.locks key
        ((w.locks key).setClaim acquisition none) key').phase = (w.locks key').phase
        ∧ (Function.update w.locks key
          ((w.locks key).setClaim acquisition none) key').path = (w.locks key').path := by
      intro key'
      by_cases hkey : key' = key
      · rw [hkey, Function.update_self]
        exact ⟨rfl, rfl⟩
      · rw [Function.update_of_ne hkey]
        exact ⟨rfl, rfl⟩
    refine honce.turns hsound (w.removeEntry (.claim key acquisition)) _ rfl rfl
      honce.payloads (fun _ _ h => h) ?_ ?_
      (by simp [CallPhase.critical, CallPhase.reads, CallPhase.fetchedUnder]) (by simp)
      (by simp) ?_
    · intro c'
      have hplain := honce.locks c'
      constructor
      · show ∀ i, ((Function.update w.locks key _ (requests c').key).phase i).plain
        rw [(hlock _).1]
        exact hplain.plain
      · show ∀ i, ((Function.update w.locks key _ (requests c').key).phase i).hasFile →
          ∃ f ∈ (Function.update w.locks key _ (requests c').key).path,
            Platform.Carries f (who i)
        rw [(hlock _).1, (hlock _).2]
        exact hplain.owner
    · intro c' _ attempt
      show (Function.update w.locks key _ (requests c').key).phase _ = _
      rw [(hlock _).1]
    · rintro attempt ⟨-, h | h⟩ <;> rw [hphase] at h <;> cases h

/-- The temporary file is opened beside the artifacts. -/
theorem Once.opensTemp (honce : Once validate requests who w)
    (hsound : Sound validate requests who w) {attempt : Nat} {payload : Bytes}
    (hphase : w.phase c = .openingTemp attempt payload) :
    Once validate requests who ({ w with
        disk := (w.disk.openTruncate (tempOf requests who c attempt)).1
        mtime := Function.update w.mtime
          (w.disk.openTruncate (tempOf requests who c attempt)).2 w.now }.goTo c
      (.writing attempt payload (w.disk.openTruncate (tempOf requests who c attempt)).2 0)) := by
  have hknows := hsound.knows c
  rw [hphase] at hknows
  refine honce.turnsFiles hsound
    { w with
      disk := (w.disk.openTruncate (tempOf requests who c attempt)).1
      mtime := Function.update w.mtime _ w.now } rfl rfl rfl rfl ?_ ?_ (by simp) (by simp) ?_
    (by simp [hphase])
  · intro key hkey h
    show (w.disk.openTruncate _).1.entry (artifactName key) ≠ none
    rw [Disk.openTruncate_entry_of_ne (tempOf_ne_artifact hknows.1 hkey).symm]
    exact h
  · rw [hphase]
    exact fun attempt' h => h
  · rw [hphase]
    exact fun attempt' h => .inr h

/-- The rename puts this artifact there and takes no other one away. -/
theorem Once.publishes (honce : Once validate requests who w)
    (hsound : Sound validate requests who w) {attempt tries inode : Nat} {payload : Bytes}
    (hphase : w.phase c = .publishing attempt payload tries)
    (hentry : w.disk.entry (tempOf requests who c attempt) = some inode) :
    Once validate requests who ({ w with
        disk := w.disk.rename (tempOf requests who c attempt)
          (artifactName (requests c).key) }.goTo c (.releasing attempt (.ok payload))) := by
  have hknows := hsound.knows c
  rw [hphase] at hknows
  refine honce.turnsFiles hsound
    { w with disk := w.disk.rename _ (artifactName (requests c).key) } rfl rfl rfl rfl ?_
    (by simp [CallPhase.critical, CallPhase.reads, CallPhase.fetchedUnder]) (by simp)
    (by simp) ?_ (by simp [hphase])
  · intro key hkey h
    show (w.disk.rename _ _).entry (artifactName key) ≠ none
    by_cases hsame : artifactName key = artifactName (requests c).key
    · rw [hsame, Disk.entry_rename_dst hentry]
      simp
    · rw [Disk.entry_rename_of_ne hentry hsame (tempOf_ne_artifact hknows.1 hkey).symm]
      exact h
  · refine fun attempt' _ => .inl ?_
    show (w.disk.rename _ _).entry (artifactName (requests c).key) ≠ none
    rw [Disk.entry_rename_dst hentry]
    simp

/-- **One step of a call.** -/
theorem advance_once (honce : Once validate requests who w)
    (hsound : Sound validate requests who w)
    (hdistinct : Function.Injective fun a => (who a).nonce)
    (hfresh : ∀ c, FreshPath config.lockStaleness (w.locks (requests c).key))
    (habandons : ∀ c, (w.phase c).abandons = false) (c : κ) (ok : Bool) (count : Nat) :
    Once validate requests who (advance config validate requests who w c ok count) := by
  have hknows := hsound.knows c
  have hcritical := honce.critical c
  -- a turn of a call that is under no lock
  have hfree : ∀ next : CallPhase κ, (w.phase c).fetchedUnder = none → next.critical = none →
      (∀ purpose, next ≠ .opening purpose) → w.phase c ≠ .crashed →
      Once validate requests who (w.goTo c next) := by
    intro next hunder hnext hopening hrunning
    refine honce.turnsAlone hsound (by simp [hnext]) ?_ ?_ (by simp [hunder]) hrunning
    · exact fun purpose h => absurd h (hopening purpose)
    · rintro attempt fetched begun rfl
      cases hnext
  -- a turn of a call that has fetched
  have hunder : ∀ (next : CallPhase κ) {attempt : Nat}, (w.phase c).fetchedUnder = some attempt →
      next.fetchedUnder = some attempt → (∀ purpose, next ≠ .opening purpose) →
      (∀ attempt fetched begun, next ≠ .touching attempt fetched begun) → w.phase c ≠ .crashed →
      Once validate requests who (w.goTo c next) := by
    intro next attempt hnow hnext hopening htouching hrunning
    refine honce.turnsAlone hsound ?_ ?_ htouching ?_ hrunning
    · intro attempt' h
      rw [critical_of_fetchedUnder hnext] at h
      rw [← h]
      exact critical_of_fetchedUnder hnow
    · exact fun purpose h => absurd h (hopening purpose)
    · intro attempt' h
      rw [← h, hnow]
      exact hnext
  unfold advance
  dsimp only
  cases hphase : w.phase c with
  | sweeping judged =>
    cases judged with
    | none => exact honce
    | some entry =>
      rw [hphase] at hknows hfree
      cases ok with
      | false => exact hfree _ rfl rfl (by simp) (by simp)
      | true => exact honce.removes hsound hphase
  | looking purpose =>
    rw [hphase] at hknows hfree
    dsimp only
    split
    · rename_i inode hentry
      refine honce.turnsAlone hsound ?_ ?_ (by simp) ?_ (by simp [hphase])
      · rw [hphase]
        exact fun attempt h => h
      · rintro purpose' -
        unfold Published
        rw [hentry]
        simp
      · simp [hphase, CallPhase.fetchedUnder]
    · rename_i hnone
      cases purpose with
      | fast => exact hfree _ rfl rfl (by simp) (by simp)
      | doubleCheck attempt => exact honce.misses hsound hdistinct hphase hnone
      | lost attempt =>
        show Once validate requests who
          (if attempt + 1 < atLeastOne config.maxLockAttempts then _ else _)
        split <;> exact hfree _ rfl rfl (by simp) (by simp)
  | opening purpose =>
    dsimp only
    split
    · rename_i inode hentry
      refine honce.turnsAlone hsound ?_ (by simp) (by simp) ?_ (by simp [hphase])
      · rw [hphase]
        exact fun attempt h => h
      · simp [hphase, CallPhase.fetchedUnder]
    · rename_i hnone
      exact absurd hnone (honce.opening c purpose hphase)
  | pieces purpose inode contents =>
    dsimp only
    split
    · refine honce.turnsAlone hsound ?_ (by simp) (by simp) ?_ (by simp [hphase])
      · rw [hphase]
        exact fun attempt h => h
      · simp [hphase, CallPhase.fetchedUnder]
    · rename_i hend
      refine honce.hits hsound ?_ (hsound.good_of_pieces hphase (by simpa using hend))
      rw [hphase]
      rfl
  | preparing =>
    rw [hphase] at hfree
    cases ok <;> exact hfree _ rfl rfl (by simp) (by simp)
  | acquiring attempt =>
    have hactor : (Platform.Event.step (c, attempt) ok).actor = some (c, attempt) := rfl
    dsimp only
    split
    · rename_i hheld
      rw [lockStep_locks_self] at hheld
      refine honce.turnsLocked hdistinct hfresh hsound hactor ?_ (by simp) (by simp)
        (by simp [hphase, CallPhase.fetchedUnder]) (by simp [hphase])
      intro attempt' h
      obtain rfl : attempt = attempt' := Option.some.inj h
      rw [hheld]
      rfl
    · exact honce.turnsLocked hdistinct hfresh hsound hactor
        (by simp [CallPhase.critical, CallPhase.reads, CallPhase.fetchedUnder]) (by simp) (by simp)
        (by simp [hphase, CallPhase.fetchedUnder]) (by simp [hphase])
    · exact honce.lockOnly hdistinct hfresh hsound (by rw [hphase]; rfl) (by simp [hphase])
        (by simp [hphase]) hactor
  | touching attempt fetched begun =>
    obtain ⟨payload, rfl, haccepts⟩ := honce.fetched c attempt fetched begun hphase
    have hnext : afterTouch (κ := κ) validate attempt (.ok payload)
        = .confirming attempt payload := by
      simp [afterTouch, haccepts]
    have hholds : ((w.locks (requests c).key).phase (c, attempt)).holds :=
      hcritical attempt (by rw [hphase]; rfl)
    have hnow : (w.phase c).fetchedUnder = some attempt := by rw [hphase]; rfl
    cases begun with
    | false =>
      have hkept : ((Platform.step config.lockStaleness who (w.locks (requests c).key)
          (.touch (c, attempt) ok)).phase (c, attempt)).holds := Platform.holds_touch hholds ok
      have hactor : (Platform.Event.touch (c, attempt) ok).actor = some (c, attempt) := rfl
      dsimp only
      rw [hnext]
      split
      · refine honce.turnsHolding hdistinct hfresh hsound hactor hnow rfl hkept (by simp) ?_
          (by simp [hphase])
        intro attempt' fetched' begun' h
        obtain ⟨-, rfl, -⟩ := CallPhase.touching.inj h
        exact ⟨payload, rfl, haccepts⟩
      · exact honce.turnsHolding hdistinct hfresh hsound hactor hnow rfl hkept (by simp) (by simp)
          (by simp [hphase])
    | true =>
      have hkept : ((Platform.step config.lockStaleness who (w.locks (requests c).key)
          (.step (c, attempt) ok)).phase (c, attempt)).holds := Platform.holds_advance hholds ok
      have hactor : (Platform.Event.step (c, attempt) ok).actor = some (c, attempt) := rfl
      dsimp only
      rw [hnext]
      exact honce.turnsHolding hdistinct hfresh hsound hactor hnow rfl hkept (by simp) (by simp)
        (by simp [hphase])
  | confirming attempt payload =>
    rw [hphase] at hunder
    dsimp only
    split <;> exact hunder _ rfl rfl (by simp) (by simp) (by simp)
  | openingTemp attempt payload =>
    rw [hphase] at hunder hknows
    cases ok with
    | false => exact hunder _ rfl rfl (by simp) (by simp) (by simp)
    | true => exact honce.opensTemp hsound hphase
  | writing attempt payload inode offset =>
    rw [hphase] at hunder
    dsimp only
    split
    · exact hunder _ rfl rfl (by simp) (by simp) (by simp)
    · split
      · refine honce.turnsFiles hsound
          { w with
            disk := w.disk.write inode offset ((payload.drop offset).take (count + 1))
            mtime := Function.update w.mtime inode w.now } rfl rfl rfl rfl (fun _ _ h => h) ?_
          (by simp) (by simp) ?_ (by simp [hphase])
        · rw [hphase]
          exact fun attempt' h => h
        · rw [hphase]
          exact fun attempt' h => .inr h
      · exact hunder _ rfl rfl (by simp) (by simp) (by simp)
  | syncing attempt payload =>
    rw [hphase] at hunder
    cases ok <;> exact hunder _ rfl rfl (by simp) (by simp) (by simp)
  | publishing attempt payload tries =>
    rw [hphase] at hunder hknows
    dsimp only
    split
    · rename_i hpublished
      simp only [Bool.and_eq_true] at hpublished
      obtain ⟨inode, hentry⟩ := Option.isSome_iff_exists.mp hpublished.2
      exact honce.publishes hsound hphase hentry
    · split <;> exact hunder _ rfl rfl (by simp) (by simp) (by simp)
  | abandoning attempt e temp =>
    have h := habandons c
    rw [hphase] at h
    cases h
  | releasing attempt result =>
    rw [hphase] at hfree
    dsimp only
    split
    · have hactor : (Platform.Event.release (c, attempt)).actor = some (c, attempt) := rfl
      exact honce.lockOnly hdistinct hfresh hsound (by rw [hphase]; rfl) (by simp [hphase])
        (by simp [hphase]) hactor
    · have hactor : (Platform.Event.step (c, attempt) ok).actor = some (c, attempt) := rfl
      exact honce.lockOnly hdistinct hfresh hsound (by rw [hphase]; rfl) (by simp [hphase])
        (by simp [hphase]) hactor
    · exact hfree _ rfl rfl (by simp) (by simp)
  | fetching attempt | done result | crashed => exact honce

/-- **One step keeps the invariant.** -/
theorem step_once (honce : Once validate requests who w) (hsound : Sound validate requests who w)
    (hdistinct : Function.Injective fun a => (who a).nonce) {e : Event κ}
    (huntroubled : Untroubled config validate requests w e)
    (hempty : ∀ c, e = .fetch c (.ok []) → accepts validate [] = false) :
    Once validate requests who (step config validate requests who w e) := by
  obtain ⟨hfresh, habandons, hvalidates⟩ := huntroubled
  cases e with
  | tick elapsed =>
    exact
      { locks := fun c => ⟨(honce.locks c).plain, (honce.locks c).owner⟩
        critical := honce.critical
        opening := honce.opening
        fetched := honce.fetched
        payloads := honce.payloads
        once := honce.once }
  | sweep c entry =>
    simp only [step]
    split
    · rename_i hphase
      split
      · exact honce.turnsAlone hsound
          (by simp [CallPhase.critical, CallPhase.reads, CallPhase.fetchedUnder]) (by simp)
          (by simp) (by simp [hphase, CallPhase.fetchedUnder]) (by simp [hphase])
      · exact honce
    · exact honce
  | call c =>
    simp only [step]
    split
    · rename_i hphase
      split <;>
        exact honce.turnsAlone hsound
          (by simp [CallPhase.critical, CallPhase.reads, CallPhase.fetchedUnder]) (by simp)
          (by simp) (by simp [hphase, CallPhase.fetchedUnder]) (by simp [hphase])
    · exact honce
  | step c ok count => exact advance_once honce hsound hdistinct hfresh habandons c ok count
  | fetch c result =>
    simp only [step]
    split
    · rename_i attempt hphase
      cases result with
      | error e => cases hvalidates
      | ok payload =>
        have hne : payload ≠ [] := by
          rintro rfl
          rw [show fetchValidates validate (.fetch c (.ok [])) = accepts validate [] from rfl,
            hempty c rfl] at hvalidates
          cases hvalidates
        refine honce.turns hsound _ _ rfl rfl ?_ (fun _ _ h => h) honce.locks (fun _ _ _ => rfl) ?_
          (by simp) ?_ ?_
        · intro key payload' h
          rcases List.mem_cons.mp h with hnew | hold
          · obtain rfl := Except.ok.inj (Prod.mk.inj hnew).2
            exact hne
          · exact honce.payloads key payload' hold
        · intro attempt' h
          refine honce.critical c attempt' ?_
          rw [hphase]
          exact h
        · intro attempt' fetched begun h
          obtain ⟨-, rfl, -⟩ := CallPhase.touching.inj h
          exact ⟨payload, rfl, hvalidates⟩
        · rintro attempt' ⟨hholds, h | h⟩
          · rw [hphase] at h
            cases h
          · rw [hphase] at h
            exact .inr ⟨hholds, .inr h⟩
    · exact honce
  | crash c =>
    simp only [step]
    split
    · exact honce
    · refine honce.turns hsound w .crashed rfl rfl honce.payloads (fun _ _ h => h) honce.locks
        (fun _ _ _ => rfl) (by simp [CallPhase.critical, CallPhase.reads, CallPhase.fetchedUnder])
        (by simp) (by simp) ?_
      exact fun attempt h => .inr ⟨h.1, .inl rfl⟩

omit [DecidableEq κ] in
theorem start_once (now : Int) : Once validate requests who (Cache.start now : Cache κ) where
  locks _ := ⟨fun _ => rfl, fun _ h => by cases h⟩
  critical _ _ h := by cases h
  opening _ _ h := by cases h
  fetched _ _ _ _ h := by cases h
  payloads _ _ h := by cases h
  once _ := .inl rfl

/-! ## The contract of the cache -/

variable (config validate requests who)

/-- What the cache promises of a run: values returned and artifacts are payloads that were fetched
for their key and validate; and where nothing troubles it, one fetch at most for each key. -/
structure Contract (now : Int) (events : List (Event κ)) : Prop where
  returned : ∀ c payload,
    (run (step config validate requests who) (Cache.start now) events).phase c
      = .done (.ok payload) →
    Good validate (run (step config validate requests who) (Cache.start now) events)
      (requests c).key payload
  artifact : ∀ key, key.Safe → ∀ bytes,
    (run (step config validate requests who) (Cache.start now) events).disk.read (artifactName key)
      = some bytes →
    Good validate (run (step config validate requests who) (Cache.start now) events) key bytes
  once : Along (step config validate requests who) (Untroubled config validate requests)
      (Cache.start now) events →
    ∀ key, (run (step config validate requests who) (Cache.start now) events).called.count key ≤ 1

variable {config validate requests who}

/-- **Where no empty payload that is fetched validates, the cache keeps its contract.** -/
theorem cache_contract (hdistinct : Function.Injective fun a => (who a).nonce) (now : Int)
    {events : List (Event κ)}
    (hempty : ∀ c, .fetch c (.ok []) ∈ events → accepts validate [] = false) :
    Contract config validate requests who now events where
  returned c payload h := by
    have hsound : Sound validate requests who
        (run (step config validate requests who) (Cache.start now) events) :=
      run_sound hdistinct now events
    have hknows := hsound.knows c
    rw [h] at hknows
    exact hknows
  artifact key hkey bytes h := by
    obtain ⟨x, hentry, rfl⟩ := Disk.read_eq_some_iff.mp h
    exact (run_sound hdistinct now events).artifact key hkey x hentry
  once huntroubled key := by
    have hboth : Along (step config validate requests who)
        (fun w e => Untroubled config validate requests w e
          ∧ ∀ c, e = .fetch c (.ok []) → accepts validate [] = false) (Cache.start now) events := by
      intro front e back hsplit
      refine ⟨huntroubled front e back hsplit, fun c he => hempty c ?_⟩
      rw [hsplit, ← he]
      exact List.mem_append_right _ List.mem_cons_self
    have hkeeps : ∀ w e, (Sound validate requests who w ∧ Once validate requests who w) →
        (Untroubled config validate requests w e
          ∧ ∀ c, e = .fetch c (.ok []) → accepts validate [] = false) →
        Sound validate requests who (step config validate requests who w e)
          ∧ Once validate requests who (step config validate requests who w e) :=
      fun w e h hcond => ⟨step_sound h.1 hdistinct e,
        step_once h.2 h.1 hdistinct hcond.1 hcond.2⟩
    have honce := (run_keeps hkeeps ⟨start_sound now, start_once now⟩ hboth).2
    rcases honce.once key with h | ⟨h, -⟩
    · exact h ▸ Nat.zero_le 1
    · exact h.le

end

/-! ## An empty payload -/

section

variable {κ : Type} [Fintype κ] (config : SharedRefdataCacheConfig)
  (validate : Option (Bytes → Bool)) (requests : κ → Request)

instance (staleness : Int) {ι : Type} (w : World ι) : Decidable (FreshPath staleness w) :=
  inferInstanceAs (Decidable (∀ f ∈ w.path, _))

instance (w : Cache κ) (e : Event κ) : Decidable (Untroubled config validate requests w e) :=
  inferInstanceAs (Decidable (_ ∧ _))

end

def sharedConfig : SharedRefdataCacheConfig where
  sharedRoot := ascii "/srv/broker/shared"
  accountDataRoot := ascii "/srv/broker/accounts"
  lockStaleness := 600
  maxLockAttempts := 50
  maxPublishAttempts := 10

/-- Two accounts' processes ask for one instrument dump. -/
def dumpRequests (_ : Fin 2) : Request :=
  ⟨⟨ascii "kite", ascii "nfo", ascii "2026-03-02", ascii ".csv"⟩, true⟩

def siblings (a : Fin 2 × Nat) : Acquirer :=
  ⟨4242, ⟨2026, 3, 2, 3, 30, 0⟩, 1772422200000000000, 2 * a.2 + a.1⟩

theorem siblings_distinct : Function.Injective fun a => (siblings a).nonce := by
  intro a b h
  have hcounter : decimalNat (2 * a.2 + a.1) = decimalNat (2 * b.2 + b.1) :=
    List.append_cancel_left h
  have hsame : 2 * a.2 + a.1 = 2 * b.2 + b.1 := by
    rw [← digitsValue_decimalNat (2 * a.2 + a.1), hcounter, digitsValue_decimalNat]
  obtain ⟨⟨c, hc⟩, attempt⟩ := a
  obtain ⟨⟨c', hc'⟩, attempt'⟩ := b
  simp only at hsame
  simp only [Prod.mk.injEq, Fin.mk.injEq]
  omega

/-- One process after the other; the first fetches. -/
def inTurn (payload : Bytes) : List (Event (Fin 2)) :=
  .call 0 :: List.replicate 5 (.step 0 true 63) ++ .fetch 0 (.ok payload)
    :: List.replicate 20 (.step 0 true 63) ++ .call 1 :: List.replicate 20 (.step 1 true 63)

def dump : Bytes := ascii "symbol,lot
NIFTY,75
"

theorem cache_contract_in_turn :
    Contract sharedConfig (some csvSanityValidator) dumpRequests siblings 0 (inTurn dump) :=
  cache_contract siblings_distinct 0 fun _ _ => sanityValidators_reject_empty.1

/-- **An empty payload that validates is published, and read as a miss.** -/
theorem empty_payload_fetched_twice :
    Function.Injective (fun a => (siblings a).nonce)
      ∧ ¬ Contract sharedConfig (some fun _ => true) dumpRequests siblings 0 (inTurn []) := by
  refine ⟨siblings_distinct, fun h => ?_⟩
  have honce := h.once (by decide +kernel) (dumpRequests 0).key
  revert honce
  decide +kernel

end BrokerExec.Accounts
