import BrokerExec.Domain.Types
import BrokerExec.Lib.Run
import BrokerExec.Platform.LockPayload
import Mathlib.Data.Fintype.Basic

/-!
# The advisory file lock (`platform/file_lock.cpp`)

Any number of callers on one lock path, one file-system step at a time. A caller stands for one
acquisition: it tries to acquire, and once granted it may touch the lock any number of times and
release it. Creating exclusively writes the payload in the same step.

The clock runs between the steps, and every step can fail as a file-system call can.

* **`removeIfOurs_cases`** — what one step of the nonce-checked removal does: it leaves the lock
  path alone, or it empties it.
-/

namespace BrokerExec.Platform

open BrokerExec.Errors (Error makeError)

structure LockFile where
  text : Bytes
  /-- The modification time, on the file system's clock. -/
  mtime : Int
  deriving DecidableEq

/-- Where `remove_if_ours` stands. -/
inductive RemoveStage where
  | reading
  /-- The file did not open: is it there at all? -/
  | missing
  | removing
  deriving DecidableEq

inductive RemoveOutcome where
  | removed
  | notOurs
  | failed
  deriving DecidableEq

/-- Where a caller stands, named by the step it makes next. -/
inductive Phase where
  | idle
  /-- The create said the file exists. -/
  | examining
  | reading
  | claiming
  | taking
  /-- Somebody took the freed name: drop the claim. -/
  | dropping
  | judging
  | undoing (attempt : Nat) (stage : RemoveStage)
  | looking
  /-- The name is a stranger's: drop the claim. -/
  | retaken
  | restoring (undo : RemoveOutcome)
  | burying
  | verifying
  | held
  /-- The touch has read its own nonce. -/
  | touching
  | releasing (stage : RemoveStage)
  | released
  | refused (e : Error)
  deriving DecidableEq

/-- Granted and not released; `release` gives the lock up before it looks at the file. -/
def Phase.holds : Phase → Bool
  | .held | .touching => true
  | _ => false

structure World (ι : Type) where
  now : Int
  path : Option LockFile
  /-- The private name to which a caller's takeover moves the file that it judged stale. -/
  claim : ι → Option LockFile
  phase : ι → Phase

inductive Event (ι : Type) where
  | tick (elapsed : Nat)
  | step (i : ι) (ok : Bool)
  | touch (i : ι) (ok : Bool)
  | release (i : ι)

def kUndoRemoveAttempts : Nat := 4

/-- Seconds. -/
def kDefaultLockStaleness : Int := 600

def transient (message : String) : Error := makeError .transient (ascii message)

def internal (message : String) : Error := makeError .internal (ascii message)

/-! ## Age and ownership -/

section

variable (staleness : Int)

/-- `path_is_stale`, of a file that is there. -/
def stale (now : Int) (f : LockFile) : Bool :=
  0 < staleness && f.mtime ≤ now && staleness < now - f.mtime

/-- `path_is_stale`: `none` when the time cannot be read. -/
def pathIsStale (now : Int) (file : Option LockFile) (ok : Bool) : Option Bool :=
  if staleness ≤ 0 then some false
  else if ok then file.map (stale staleness now) else none

variable {staleness}

theorem pathIsStale_true {now : Int} {file : Option LockFile} {ok : Bool}
    (h : pathIsStale staleness now file ok = some true) :
    ∃ f, file = some f ∧ stale staleness now f = true := by
  unfold pathIsStale at h
  split_ifs at h with hoff hok
  · cases h
  · exact Option.map_eq_some_iff.mp h

/-- What is stale stays so as the clock runs. -/
theorem stale_mono {now now' : Int} {f : LockFile} (hnow : now ≤ now')
    (h : stale staleness now f = true) : stale staleness now' f = true := by
  unfold stale at h ⊢
  simp only [Bool.and_eq_true, decide_eq_true_eq] at h ⊢
  omega

end

/-- The nonce in the file, if it parses as a lock file. -/
def LockFile.nonce (f : LockFile) : Option Bytes := (parseLockPayload f.text).map LockPayload.nonce

/-- The file carries the nonce of this acquisition. -/
def Carries (f : LockFile) (a : Acquirer) : Prop := f.nonce = some a.nonce

instance (f : LockFile) (a : Acquirer) : Decidable (Carries f a) :=
  inferInstanceAs (Decidable (f.nonce = some a.nonce))

theorem carries_text (a : Acquirer) (mtime : Int) : Carries ⟨a.text, mtime⟩ a := by
  unfold Carries LockFile.nonce
  rw [parseLockPayload_text]
  rfl

/-! ## The nonce-checked removal -/

/-- One step of `remove_if_ours`: the next stage, or the outcome; and the lock path behind it. -/
def removeIfOurs (a : Acquirer) (path : Option LockFile) (ok : Bool) :
    RemoveStage → (RemoveStage ⊕ RemoveOutcome) × Option LockFile
  | .reading =>
    match ok, path with
    | true, some f =>
      match f.nonce with
      | none => (.inr .failed, path)
      | some nonce => if nonce ≠ a.nonce then (.inr .notOurs, path) else (.inl .removing, path)
    | _, _ => (.inl .missing, path)
  | .missing => (.inr (if ok ∧ path = none then .removed else .failed), path)
  | .removing => if ok then (.inr .removed, none) else (.inr .failed, path)

theorem removeIfOurs_cases (a : Acquirer) (path : Option LockFile) (ok : Bool)
    (stage : RemoveStage) :
    (∃ stage', removeIfOurs a path ok stage = (.inl stage', path))
      ∨ (removeIfOurs a path ok stage = (.inr .removed, none)
        ∧ (path = none ∨ (stage = .removing ∧ ok = true)))
      ∨ (removeIfOurs a path ok stage = (.inr .notOurs, path) ∧ ∃ f ∈ path, ¬ Carries f a)
      ∨ removeIfOurs a path ok stage = (.inr .failed, path) := by
  cases stage with
  | reading =>
    unfold removeIfOurs
    cases ok with
    | false => exact .inl ⟨_, rfl⟩
    | true =>
      cases path with
      | none => exact .inl ⟨_, rfl⟩
      | some f =>
        cases hnonce : f.nonce with
        | none =>
          refine .inr (.inr (.inr ?_))
          simp only [hnonce]
        | some nonce =>
          by_cases hours : nonce = a.nonce
          · refine .inl ⟨.removing, ?_⟩
            simp [hnonce, hours]
          · refine .inr (.inr (.inl ⟨?_, f, rfl, ?_⟩))
            · simp [hnonce, hours]
            · simpa [Carries, hnonce] using hours
  | missing =>
    by_cases hgone : ok = true ∧ path = none
    · obtain ⟨rfl, rfl⟩ := hgone
      exact .inr (.inl ⟨rfl, .inl rfl⟩)
    · refine .inr (.inr (.inr ?_))
      simp only [removeIfOurs, if_neg hgone]
  | removing =>
    cases ok with
    | false => exact .inr (.inr (.inr rfl))
    | true => exact .inr (.inl ⟨rfl, .inr ⟨rfl, rfl⟩⟩)

/-! ## The steps of a caller -/

section

variable {ι : Type} [DecidableEq ι]

def World.goTo (w : World ι) (i : ι) (phase : Phase) : World ι :=
  { w with phase := Function.update w.phase i phase }

def World.setClaim (w : World ι) (i : ι) (file : Option LockFile) : World ι :=
  { w with claim := Function.update w.claim i file }

variable (staleness : Int) (who : ι → Acquirer)

/-- The file that a create-exclusive makes. -/
def newFile (w : World ι) (i : ι) : LockFile := ⟨(who i).text, w.now⟩

/-- What follows the outcome of the undo's removal. -/
def afterUndo (attempt : Nat) : RemoveOutcome → Phase
  | .notOurs => .retaken
  | .removed => .looking
  | .failed =>
    if attempt < kUndoRemoveAttempts then .undoing (attempt + 1) .reading else .restoring .failed

/-- The error of a restore that failed. -/
def restoreError : RemoveOutcome → Error
  | .failed =>
    internal ("file lock: stale takeover aborted, our own lock could NOT be removed and the "
      ++ "displaced lock could NOT be restored over it (an orphaned lock and a claimed-lock "
      ++ "'.stale-' file both remain)")
  | _ =>
    internal ("file lock: stale takeover aborted and the displaced lock could NOT be restored (a "
      ++ "claimed-lock '.stale-' file remains beside it)")

/-- One step of a caller; `ok` says whether its file-system call succeeds. -/
def advance (w : World ι) (i : ι) (ok : Bool) : World ι :=
  match w.phase i with
  | .idle =>
    if !ok then w.goTo i (.refused (internal "file lock: cannot create lock file"))
    else
      match w.path with
      | none => { w with path := some (newFile who w i) }.goTo i .verifying
      | some _ => w.goTo i .examining
  | .examining =>
    match pathIsStale staleness w.now w.path ok with
    | none =>
      w.goTo i (.refused (internal "file lock: lock file age unreadable - failing closed"))
    | some false =>
      w.goTo i (.refused (transient "file lock: already held by another process"))
    | some true => w.goTo i .reading
  | .reading =>
    if ok && (w.path.bind LockFile.nonce).isSome then w.goTo i .claiming
    else
      w.goTo i (.refused (internal ("file lock: stale lock file has an unreadable payload - "
        ++ "refusing to take it over; an operator must remove it")))
  | .claiming =>
    match ok, w.path with
    | true, some f => ({ w with path := none }.setClaim i (some f)).goTo i .taking
    | _, _ =>
      w.goTo i (.refused (transient "file lock: stale takeover lost the race to another process"))
  | .taking =>
    if !ok then
      w.goTo i (.refused (internal ("file lock: cannot create lock file after takeover (the "
        ++ "displaced lock remains beside it as a claimed-lock '.stale-' file)")))
    else
      match w.path with
      | none => { w with path := some (newFile who w i) }.goTo i .judging
      | some _ => w.goTo i .dropping
  | .dropping =>
    (if ok then w.setClaim i none else w).goTo i
      (.refused (transient "file lock: re-acquired by another process during takeover"))
  | .judging =>
    match pathIsStale staleness w.now (w.claim i) ok with
    | some true => w.goTo i .burying
    | some false | none => w.goTo i (.undoing 1 .reading)
  | .undoing attempt stage =>
    match removeIfOurs (who i) w.path ok stage with
    | (.inl stage', path) => { w with path := path }.goTo i (.undoing attempt stage')
    | (.inr outcome, path) => { w with path := path }.goTo i (afterUndo attempt outcome)
  | .looking =>
    if ok && w.path.isSome then w.goTo i .retaken else w.goTo i (.restoring .removed)
  | .retaken =>
    (if ok then w.setClaim i none else w).goTo i
      (.refused (internal ("file lock: stale takeover aborted, and the displaced lock could NOT be "
        ++ "restored (the lock path was re-taken)")))
  | .restoring undo =>
    match ok, w.claim i with
    | true, some f =>
      ({ w with path := some f }.setClaim i none).goTo i
        (.refused (transient ("file lock: stale takeover aborted - the lock was live and has been "
          ++ "restored")))
    | _, _ => w.goTo i (.refused (restoreError undo))
  | .burying => (if ok then w.setClaim i none else w).goTo i .verifying
  | .verifying =>
    match ok, w.path with
    | true, some f =>
      if Carries f (who i) then w.goTo i .held
      else
        w.goTo i (.refused (transient "file lock: lost the lock to a concurrent takeover"))
    | _, _ =>
      w.goTo i (.refused (internal ("file lock: cannot verify lock file after create - failing "
        ++ "closed")))
  | .touching =>
    match ok, w.path with
    | true, some f => { w with path := some { f with mtime := w.now } }.goTo i .held
    | _, _ => w.goTo i .held
  | .releasing stage =>
    match removeIfOurs (who i) w.path ok stage with
    | (.inl stage', path) => { w with path := path }.goTo i (.releasing stage')
    | (.inr _, path) => { w with path := path }.goTo i .released
  | .held | .released | .refused _ => w

/-- `still_ours`, at one read of the file. -/
def stillOurs (w : World ι) (i : ι) (ok : Bool) : Prop :=
  ok = true ∧ ∃ f, w.path = some f ∧ Carries f (who i)

instance (w : World ι) (i : ι) (ok : Bool) : Decidable (stillOurs who w i ok) := by
  unfold stillOurs
  cases w.path with
  | none => exact .isFalse (by rintro ⟨-, f, hf, -⟩; cases hf)
  | some f =>
    exact decidable_of_iff (ok = true ∧ Carries f (who i)) (by simp)

def step (w : World ι) : Event ι → World ι
  | .tick elapsed => { w with now := w.now + elapsed }
  | .step i ok => advance staleness who w i ok
  | .touch i ok =>
    if w.phase i = .held ∧ stillOurs who w i ok then w.goTo i .touching else w
  | .release i => if w.phase i = .held then w.goTo i (.releasing .reading) else w

end

end BrokerExec.Platform
