import BrokerExec.Platform.FileLock
import Mathlib.Data.Fintype.Option

/-!
# Mutual exclusion of the file lock

Two callers can hold the lock at once while both lock files are fresh: a takeover that acts on an
old observation moves a live lock away, and whoever creates at the freed name is granted it too.

`Unraced` rules this out, step by step. Under it the lock excludes:

* **`step_moves`** — what a step does: it puts no file anywhere and loses no live lock, or it is a
  create, a takeover's rename, a restore or a touch.
* **`step_orderly`** — the invariant, one lemma for each of these.
* **`lock_exclusive`** — no two callers hold the lock over files that never went stale.
-/

namespace BrokerExec.Platform

open BrokerExec.Errors (Error)

/-! ## Classes of phases -/

namespace Phase

/-- No lock file of this acquisition has been made yet. -/
def unborn : Phase → Bool
  | .idle | .examining | .reading | .claiming | .taking => true
  | _ => false

/-- No stale file has been moved away yet. -/
def unclaimed : Phase → Bool
  | .idle | .examining | .reading | .claiming => true
  | _ => false

/-- Holds the lock, or may still be granted it on the file that it made. -/
def contends : Phase → Bool
  | .judging | .burying | .verifying | .held | .touching => true
  | _ => false

/-- What was moved away has been given up, or found stale. -/
def condemns : Phase → Bool
  | .dropping | .retaken | .burying | .verifying | .held | .touching => true
  | _ => false

def creates : Phase → Bool
  | .idle | .taking => true
  | _ => false

def restores : Phase → Bool
  | .restoring _ => true
  | _ => false

/-- About to remove the file at the lock path, which carried its nonce when it was read. -/
def removes : Phase → Bool
  | .undoing _ .removing | .releasing .removing => true
  | _ => false

theorem contends_of_holds {phase : Phase} (h : phase.holds = true) : phase.contends = true := by
  cases phase <;> first | rfl | cases h

theorem judging_or_condemns {phase : Phase} (h : phase.contends = true) :
    phase = .judging ∨ phase.condemns = true := by
  cases phase <;> first | exact .inl rfl | exact .inr rfl | cases h

end Phase

section

variable {ι : Type} (staleness : Int) (who : ι → Acquirer)

/-! ## The condition -/

/-- A fresh lock file of a caller that holds the lock or may yet be granted it. -/
def Live (w : World ι) (f : LockFile) : Prop :=
  ∃ i, Carries f (who i) ∧ (w.phase i).contends ∧ stale staleness w.now f = false

/-- Another caller's takeover has moved a live lock away. -/
def Displaced (w : World ι) (i : ι) : Prop :=
  ∃ k, k ≠ i ∧ ∃ f ∈ w.claim k, Live staleness who w f

/-- The step puts a file at the lock path. -/
def Fills (w : World ι) (i : ι) : Prop :=
  ((w.phase i).creates ∧ w.path = none) ∨ (w.phase i).restores

/-- The step removes whatever file is at the lock path. -/
def Clears (w : World ι) (i : ι) : Prop := (w.phase i).removes ∨ (w.phase i).restores

/-- No file is put at the lock path while a live lock is displaced from it, and no live lock is
removed from it. -/
def Unraced (w : World ι) : Event ι → Prop
  | .step i true =>
    (Fills w i → ¬ Displaced staleness who w i)
      ∧ (Clears w i → ¬ ∃ f ∈ w.path, Live staleness who w f)
  | _ => True

section

variable [Fintype ι] [DecidableEq ι]

instance (w : World ι) (f : LockFile) : Decidable (Live staleness who w f) :=
  inferInstanceAs (Decidable (∃ _, _))

instance (w : World ι) (i : ι) : Decidable (Displaced staleness who w i) :=
  inferInstanceAs (Decidable (∃ _, _))

instance (w : World ι) (i : ι) : Decidable (Fills w i) := inferInstanceAs (Decidable (_ ∨ _))

instance (w : World ι) (i : ι) : Decidable (Clears w i) := inferInstanceAs (Decidable (_ ∨ _))

instance : (w : World ι) → (e : Event ι) → Decidable (Unraced staleness who w e)
  | _, .step _ true => inferInstanceAs (Decidable (_ ∧ _))
  | _, .step _ false | _, .tick _ | _, .touch _ _ | _, .release _ => .isTrue trivial

end

/-! ## Where files are -/

/-- The file at the lock path, or at a caller's private name. -/
def World.fileAt (w : World ι) : Option ι → Option LockFile
  | none => w.path
  | some k => w.claim k

variable {staleness who}

theorem Live.of_later {w w' : World ι} {f : LockFile} (hnow : w.now ≤ w'.now)
    (hcontends : ∀ i, (w'.phase i).contends → (w.phase i).contends)
    (h : Live staleness who w' f) : Live staleness who w f := by
  obtain ⟨i, hcarries, hphase, hfresh⟩ := h
  refine ⟨i, hcarries, hcontends i hphase, ?_⟩
  rw [← Bool.not_eq_true] at hfresh ⊢
  exact fun hstale => hfresh (stale_mono hnow hstale)

/-! ## The invariant -/

variable (staleness who)

structure Orderly (w : World ι) : Prop where
  unborn : ∀ k, (w.phase k).unborn → ∀ p, ∀ f ∈ w.fileAt p, ¬ Carries f (who k)
  unclaimed : ∀ k, (w.phase k).unclaimed → w.claim k = none
  /-- A nonce is in one place. -/
  single : ∀ k p q, ∀ f ∈ w.fileAt p, ∀ g ∈ w.fileAt q, Carries f (who k) → Carries g (who k) →
    p = q
  /-- While a live lock is displaced, its taker alone may be at the lock path. -/
  named : ∀ k, ∀ f ∈ w.claim k, Live staleness who w f → ∀ g ∈ w.path, Carries g (who k)
  looked : ∀ k, w.phase k = .looking → ∀ f ∈ w.claim k, Live staleness who w f → w.path = none
  condemned : ∀ k, (w.phase k).condemns → ∀ f ∈ w.claim k, ¬ Live staleness who w f
  /-- Of two contenders with fresh files, one has moved the other's away and is to judge it. -/
  rivals : ∀ i j, i ≠ j → (w.phase i).contends → (w.phase j).contends →
    ∀ p, ∀ f ∈ w.fileAt p, ∀ q, ∀ g ∈ w.fileAt q, Carries f (who i) → Carries g (who j) →
    stale staleness w.now f = false → stale staleness w.now g = false →
    (w.phase i = .judging ∧ w.claim i = some g) ∨ (w.phase j = .judging ∧ w.claim j = some f)

/-- While a caller holds the lock its file is somewhere. -/
def Kept (w : World ι) (i : ι) : Prop :=
  (w.phase i).holds → ∃ p, ∃ f ∈ w.fileAt p, Carries f (who i)

/-- Holds the lock over a lock file of its own that is older than the staleness window. -/
def StaleHolder (w : World ι) (i : ι) : Prop :=
  (w.phase i).holds ∧
    ∃ p, ∃ f ∈ w.fileAt p, Carries f (who i) ∧ stale staleness w.now f = true

/-! ## What a step does -/

/-- What a caller may turn to, with `path` at the lock path, when no file appears. -/
structure Follows (w : World ι) (k : ι) (path : Option LockFile) (next : Phase) : Prop where
  unborn : next.unborn → (w.phase k).unborn
  unclaimed : next.unclaimed → (w.phase k).unclaimed
  contends : next.contends → (w.phase k).contends
  looked : next = .looking → ∀ f ∈ w.claim k, Live staleness who w f → path = none
  condemned : next.condemns → ∀ f ∈ w.claim k, ¬ Live staleness who w f
  judged : w.phase k = .judging → next.contends →
    next = .judging ∨ ∀ f ∈ w.claim k, stale staleness w.now f = true
  holds : next.holds → (w.phase k).holds ∨ ∃ f ∈ path, Carries f (who k)

/-- From `w` to `w'` no file appears and no live lock goes. -/
structure Recedes (w w' : World ι) : Prop where
  now : w.now ≤ w'.now
  fewer : ∀ p, ∀ f ∈ w'.fileAt p, f ∈ w.fileAt p
  kept : ∀ p, ∀ f ∈ w.fileAt p, Live staleness who w f → f ∈ w'.fileAt p
  follows : ∀ k, Follows staleness who w k w'.path (w'.phase k)

variable [DecidableEq ι] in
inductive Moves (w : World ι) : World ι → Prop
  | recedes {w' : World ι} (h : Recedes staleness who w w') : Moves w w'
  | creates (i : ι) (next : Phase) (hpath : w.path = none)
      (hphase : (w.phase i = .idle ∧ next = .verifying) ∨ (w.phase i = .taking ∧ next = .judging))
      (hclear : ¬ Displaced staleness who w i) :
      Moves w ({ w with path := some (newFile who w i) }.goTo i next)
  | renames (i : ι) (f : LockFile) (hphase : w.phase i = .claiming) (hpath : w.path = some f) :
      Moves w (({ w with path := none }.setClaim i (some f)).goTo i .taking)
  | restores (i : ι) (f : LockFile) (undo : RemoveOutcome) (e : Error)
      (hphase : w.phase i = .restoring undo) (hclaim : w.claim i = some f)
      (hclear : ¬ Displaced staleness who w i) (hpath : ∀ g ∈ w.path, ¬ Live staleness who w g) :
      Moves w (({ w with path := some f }.setClaim i none).goTo i (.refused e))
  | touches (i : ι) (f : LockFile) (hphase : w.phase i = .touching) (hpath : w.path = some f) :
      Moves w ({ w with path := some { f with mtime := w.now } }.goTo i .held)

variable {staleness who}

section

variable {w : World ι} {i : ι} {next : Phase}

theorem Orderly.follows_same (horderly : Orderly staleness who w) (k : ι)
    {path : Option LockFile} (hpath : ∀ f ∈ path, f ∈ w.path) :
    Follows staleness who w k path (w.phase k) where
  unborn := id
  unclaimed := id
  contends := id
  looked hphase f hclaim hlive := by
    have hnone : w.path = none := horderly.looked k hphase f hclaim hlive
    refine Option.eq_none_iff_forall_not_mem.mpr fun g hg => ?_
    rw [hnone] at hpath
    exact Option.not_mem_none g (hpath g hg)
  condemned := horderly.condemned k
  judged hphase _ := .inl hphase
  holds := .inl

/-- A phase that is neither in the running nor has judged anything. -/
theorem follows_plain {path : Option LockFile} (hunborn : next.unborn → (w.phase i).unborn)
    (hunclaimed : next.unclaimed → (w.phase i).unclaimed) (hcontends : next.contends = false)
    (hcondemns : next.condemns = false) (hlooking : next ≠ .looking) :
    Follows staleness who w i path next where
  unborn := hunborn
  unclaimed := hunclaimed
  contends h := absurd h (by simp [hcontends])
  looked h := absurd h hlooking
  condemned h := absurd h (by simp [hcondemns])
  judged _ h := absurd h (by simp [hcontends])
  holds h := absurd (Phase.contends_of_holds h) (by simp [hcontends])

theorem follows_refused (e : Error) {path : Option LockFile} :
    Follows staleness who w i path (.refused e) :=
  follows_plain (by simp [Phase.unborn]) (by simp [Phase.unclaimed]) rfl rfl (by simp)

/-- Out of the running, its claim condemned. -/
theorem follows_condemning {path : Option LockFile} (hunborn : next.unborn = false)
    (hunclaimed : next.unclaimed = false) (hcontends : next.contends = false)
    (hlooking : next ≠ .looking) (h : ∀ f ∈ w.claim i, ¬ Live staleness who w f) :
    Follows staleness who w i path next where
  unborn h := absurd h (by simp [hunborn])
  unclaimed h := absurd h (by simp [hunclaimed])
  contends h := absurd h (by simp [hcontends])
  looked h := absurd h hlooking
  condemned _ := h
  judged _ h := absurd h (by simp [hcontends])
  holds h := absurd (Phase.contends_of_holds h) (by simp [hcontends])

/-- In the running as before, the claim judged and condemned. -/
theorem Orderly.follows_contending (horderly : Orderly staleness who w) {path : Option LockFile}
    (hunborn : next.unborn = false) (hunclaimed : next.unclaimed = false)
    (hlooking : next ≠ .looking) (hcontends : (w.phase i).contends)
    (hcondemns : (w.phase i).condemns)
    (hholds : next.holds → (w.phase i).holds ∨ ∃ f ∈ path, Carries f (who i)) :
    Follows staleness who w i path next where
  unborn h := absurd h (by simp [hunborn])
  unclaimed h := absurd h (by simp [hunclaimed])
  contends _ := hcontends
  looked h := absurd h hlooking
  condemned _ := horderly.condemned i hcondemns
  judged h := by
    rw [h] at hcondemns
    cases hcondemns
  holds := hholds

theorem Orderly.recedes_same (horderly : Orderly staleness who w) :
    Recedes staleness who w w where
  now := le_refl w.now
  fewer _ _ hf := hf
  kept _ _ hf _ := hf
  follows k := horderly.follows_same k fun _ hf => hf

/-- A live lock at a private name leaves only its taker at the lock path. -/
theorem Orderly.not_live_of_stranger (horderly : Orderly staleness who w) {g : LockFile}
    (hg : g ∈ w.path) (hstranger : ¬ Carries g (who i)) :
    ∀ f ∈ w.claim i, ¬ Live staleness who w f := by
  intro f hf hlive
  exact hstranger (horderly.named i f hf hlive g hg)

section

variable [DecidableEq ι]

@[simp] theorem goTo_now (w : World ι) (i : ι) (next : Phase) : (w.goTo i next).now = w.now := rfl

@[simp] theorem goTo_path (w : World ι) (i : ι) (next : Phase) : (w.goTo i next).path = w.path :=
  rfl

@[simp] theorem goTo_claim (w : World ι) (i : ι) (next : Phase) :
    (w.goTo i next).claim = w.claim := rfl

@[simp] theorem goTo_fileAt (w : World ι) (i : ι) (next : Phase) (p : Option ι) :
    (w.goTo i next).fileAt p = w.fileAt p := by
  cases p <;> rfl

@[simp] theorem goTo_phase_self (w : World ι) (i : ι) (next : Phase) :
    (w.goTo i next).phase i = next := by
  show Function.update w.phase i next i = next
  rw [Function.update_self]

theorem goTo_phase_of_ne (w : World ι) {i k : ι} (next : Phase) (h : k ≠ i) :
    (w.goTo i next).phase k = w.phase k := by
  show Function.update w.phase i next k = w.phase k
  rw [Function.update_of_ne h]

/-- Only the caller's phase and some files that are not live locks change. -/
theorem Orderly.recedes_goTo (horderly : Orderly staleness who w) {w' : World ι}
    (hnow : w'.now = w.now) (hphase : w'.phase = w.phase)
    (hfewer : ∀ p, ∀ f ∈ w'.fileAt p, f ∈ w.fileAt p)
    (hkept : ∀ p, ∀ f ∈ w.fileAt p, Live staleness who w f → f ∈ w'.fileAt p)
    (h : Follows staleness who w i w'.path next) : Recedes staleness who w (w'.goTo i next) where
  now := by simp [hnow]
  fewer p f hf := hfewer p f (by simpa using hf)
  kept p f hf hlive := by simpa using hkept p f hf hlive
  follows k := by
    by_cases hk : k = i
    · subst hk
      simpa using h
    · rw [goTo_phase_of_ne _ _ hk, hphase]
      exact horderly.follows_same k (hfewer none)

theorem Orderly.recedes_quietly (horderly : Orderly staleness who w)
    (h : Follows staleness who w i w.path next) : Recedes staleness who w (w.goTo i next) :=
  horderly.recedes_goTo rfl rfl (fun _ _ hf => hf) (fun _ _ hf _ => hf) h

/-- The takeover's file is dropped, once it has been condemned. -/
theorem Orderly.recedes_dropping (horderly : Orderly staleness who w)
    (hcondemns : (w.phase i).condemns) (ok : Bool)
    (h : Follows staleness who w i w.path next) :
    Recedes staleness who w ((if ok then w.setClaim i none else w).goTo i next) := by
  cases ok with
  | false => exact horderly.recedes_quietly h
  | true =>
    refine horderly.recedes_goTo rfl rfl ?_ ?_ h
    · intro p f hf
      cases p with
      | none => exact hf
      | some k =>
        by_cases hk : k = i
        · subst hk
          simp [World.fileAt, World.setClaim] at hf
        · simpa [World.fileAt, World.setClaim, hk] using hf
    · intro p f hf hlive
      cases p with
      | none => exact hf
      | some k =>
        by_cases hk : k = i
        · subst hk
          exact absurd hlive (horderly.condemned k hcondemns f hf)
        · simpa [World.fileAt, World.setClaim, hk] using hf

/-- The file at the lock path is removed; it was no live lock. -/
theorem Orderly.recedes_removing (horderly : Orderly staleness who w)
    (hclear : ¬ ∃ f ∈ w.path, Live staleness who w f) (h : Follows staleness who w i none next) :
    Recedes staleness who w ({ w with path := none }.goTo i next) := by
  refine horderly.recedes_goTo rfl rfl ?_ ?_ h
  · intro p f hf
    cases p with
    | none => cases hf
    | some k => exact hf
  · intro p f hf hlive
    cases p with
    | none => exact absurd ⟨f, hf, hlive⟩ hclear
    | some k => exact hf

/-- The nonce-checked removal, by a caller that is giving up. -/
theorem Orderly.moves_removeIfOurs (horderly : Orderly staleness who w) {ok : Bool}
    {stage : RemoveStage} (wrap : RemoveStage → Phase) (next : RemoveOutcome → Phase)
    (hclear : stage = .removing → ok = true → ¬ ∃ f ∈ w.path, Live staleness who w f)
    (hwrap : ∀ stage, Follows staleness who w i w.path (wrap stage))
    (hremoved : Follows staleness who w i none (next .removed))
    (hnotOurs : ∀ f ∈ w.path, ¬ Carries f (who i) →
      Follows staleness who w i w.path (next .notOurs))
    (hfailed : Follows staleness who w i w.path (next .failed)) :
    Recedes staleness who w
      (match removeIfOurs (who i) w.path ok stage with
      | (.inl stage', path) => { w with path := path }.goTo i (wrap stage')
      | (.inr outcome, path) => { w with path := path }.goTo i (next outcome)) := by
  obtain ⟨stage', h⟩ | ⟨h, hpath⟩ | ⟨h, f, hf, hstranger⟩ | h :=
    removeIfOurs_cases (who i) w.path ok stage <;> rw [h]
  · exact horderly.recedes_quietly (hwrap stage')
  · refine horderly.recedes_removing ?_ hremoved
    rcases hpath with hgone | ⟨hstage, hok⟩
    · rw [hgone]
      rintro ⟨f, hf, -⟩
      cases hf
    · exact hclear hstage hok
  · exact horderly.recedes_quietly (hnotOurs f hf hstranger)
  · exact horderly.recedes_quietly hfailed

/-- **What one step of a caller does.** -/
theorem advance_moves (horderly : Orderly staleness who w) (i : ι) (ok : Bool)
    (hunraced : Unraced staleness who w (.step i ok)) :
    Moves staleness who w (advance staleness who w i ok) := by
  unfold advance
  cases hphase : w.phase i with
  | idle =>
    cases ok with
    | false => exact .recedes (horderly.recedes_quietly (follows_refused _))
    | true =>
      cases hpath : w.path with
      | none =>
        refine .creates i _ hpath (.inl ⟨hphase, rfl⟩) (hunraced.1 (.inl ⟨?_, hpath⟩))
        rw [hphase]
        rfl
      | some f =>
        refine .recedes (horderly.recedes_quietly (follows_plain ?_ ?_ rfl rfl ?_)) <;>
          simp [hphase, Phase.unborn, Phase.unclaimed]
  | examining =>
    dsimp only
    split
    · exact .recedes (horderly.recedes_quietly (follows_refused _))
    · exact .recedes (horderly.recedes_quietly (follows_refused _))
    · refine .recedes (horderly.recedes_quietly (follows_plain ?_ ?_ rfl rfl ?_)) <;>
        simp [hphase, Phase.unborn, Phase.unclaimed]
  | reading =>
    dsimp only
    split
    · refine .recedes (horderly.recedes_quietly (follows_plain ?_ ?_ rfl rfl ?_)) <;>
        simp [hphase, Phase.unborn, Phase.unclaimed]
    · exact .recedes (horderly.recedes_quietly (follows_refused _))
  | claiming =>
    dsimp only
    split
    · rename_i f hpath
      exact .renames i f hphase hpath
    · exact .recedes (horderly.recedes_quietly (follows_refused _))
  | taking =>
    cases ok with
    | false => exact .recedes (horderly.recedes_quietly (follows_refused _))
    | true =>
      cases hpath : w.path with
      | none =>
        refine .creates i _ hpath (.inr ⟨hphase, rfl⟩) (hunraced.1 (.inl ⟨?_, hpath⟩))
        rw [hphase]
        rfl
      | some g =>
        -- nobody put a file here while a live lock was at the private name
        have hstranger : ¬ Carries g (who i) :=
          horderly.unborn i (by rw [hphase]; rfl) none g hpath
        refine .recedes (horderly.recedes_quietly ?_)
        refine follows_condemning rfl rfl rfl (by simp) ?_
        exact horderly.not_live_of_stranger hpath hstranger
  | dropping =>
    refine .recedes (horderly.recedes_dropping ?_ ok (follows_refused _))
    rw [hphase]
    rfl
  | judging =>
    dsimp only
    split
    · rename_i hstale
      obtain ⟨f, hf, hfstale⟩ := pathIsStale_true hstale
      have hall : ∀ g ∈ w.claim i, stale staleness w.now g = true := by
        intro g hg
        obtain rfl : f = g := Option.some.inj (hf.symm.trans hg)
        exact hfstale
      refine .recedes (horderly.recedes_quietly ?_)
      exact
        { unborn := by simp [Phase.unborn]
          unclaimed := by simp [Phase.unclaimed]
          contends := by simp [hphase, Phase.contends]
          looked := by simp
          condemned := by
            rintro - g hg ⟨k, -, -, hfresh⟩
            rw [hall g hg] at hfresh
            cases hfresh
          judged := fun _ _ => .inr hall
          holds := by simp [Phase.holds] }
    all_goals
      refine .recedes (horderly.recedes_quietly (follows_plain ?_ ?_ rfl rfl ?_)) <;>
        simp [Phase.unborn, Phase.unclaimed]
  | undoing attempt stage =>
    refine .recedes (horderly.moves_removeIfOurs (.undoing attempt) (afterUndo attempt)
      ?_ ?_ ?_ ?_ ?_)
    · rintro rfl rfl
      refine hunraced.2 (.inl ?_)
      rw [hphase]
      rfl
    · intro stage'
      refine follows_plain ?_ ?_ rfl rfl ?_ <;> simp [Phase.unborn, Phase.unclaimed]
    · exact
        { unborn := by simp [afterUndo, Phase.unborn]
          unclaimed := by simp [afterUndo, Phase.unclaimed]
          contends := by simp [afterUndo, Phase.contends]
          looked := fun _ _ _ _ => rfl
          condemned := by simp [afterUndo, Phase.condemns]
          judged := by simp [afterUndo, Phase.contends]
          holds := by simp [afterUndo, Phase.holds] }
    · intro f hf hstranger
      refine follows_condemning rfl rfl rfl (by simp [afterUndo]) ?_
      exact horderly.not_live_of_stranger hf hstranger
    · unfold afterUndo
      dsimp only
      split
      · refine follows_plain ?_ ?_ rfl rfl ?_ <;> simp [Phase.unborn, Phase.unclaimed]
      · refine follows_plain ?_ ?_ rfl rfl ?_ <;> simp [Phase.unborn, Phase.unclaimed]
  | looking =>
    dsimp only
    split
    · rename_i hsome
      have hpath : w.path ≠ none := by
        intro hnone
        simp [hnone] at hsome
      refine .recedes (horderly.recedes_quietly ?_)
      refine follows_condemning rfl rfl rfl (by simp) fun f hf hlive => ?_
      exact hpath (horderly.looked i hphase f hf hlive)
    · refine .recedes (horderly.recedes_quietly (follows_plain ?_ ?_ rfl rfl ?_)) <;>
        simp [Phase.unborn, Phase.unclaimed]
  | retaken =>
    refine .recedes (horderly.recedes_dropping ?_ ok (follows_refused _))
    rw [hphase]
    rfl
  | restoring undo =>
    dsimp only
    split
    · rename_i f hclaim
      have hrestores : (w.phase i).restores := by
        rw [hphase]
        rfl
      refine .restores i f undo _ hphase hclaim (hunraced.1 (.inr hrestores)) ?_
      intro g hg hlive
      exact hunraced.2 (.inr hrestores) ⟨g, hg, hlive⟩
    · exact .recedes (horderly.recedes_quietly (follows_refused _))
  | burying =>
    refine .recedes (horderly.recedes_dropping ?_ ok
      (horderly.follows_contending rfl rfl ?_ ?_ ?_ ?_)) <;>
      simp [hphase, Phase.contends, Phase.condemns, Phase.holds]
  | verifying =>
    dsimp only
    split
    · rename_i f hpath
      split
      · rename_i hcarries
        refine .recedes (horderly.recedes_quietly
          (horderly.follows_contending rfl rfl ?_ ?_ ?_ fun _ => .inr ⟨f, hpath, hcarries⟩)) <;>
          simp [hphase, Phase.contends, Phase.condemns]
      · exact .recedes (horderly.recedes_quietly (follows_refused _))
    · exact .recedes (horderly.recedes_quietly (follows_refused _))
  | touching =>
    dsimp only
    split
    · rename_i f hpath
      exact .touches i f hphase hpath
    · refine .recedes (horderly.recedes_quietly
        (horderly.follows_contending rfl rfl ?_ ?_ ?_ ?_)) <;>
        simp [hphase, Phase.contends, Phase.condemns, Phase.holds]
  | releasing stage =>
    refine .recedes (horderly.moves_removeIfOurs .releasing (fun _ => .released) ?_ ?_ ?_ ?_ ?_)
    · rintro rfl rfl
      refine hunraced.2 (.inl ?_)
      rw [hphase]
      rfl
    · intro stage'
      refine follows_plain ?_ ?_ rfl rfl ?_ <;> simp [Phase.unborn, Phase.unclaimed]
    · refine follows_plain ?_ ?_ rfl rfl ?_ <;> simp [Phase.unborn, Phase.unclaimed]
    · intro f _ _
      refine follows_plain ?_ ?_ rfl rfl ?_ <;> simp [Phase.unborn, Phase.unclaimed]
    · refine follows_plain ?_ ?_ rfl rfl ?_ <;> simp [Phase.unborn, Phase.unclaimed]
  | held | released | refused e => exact .recedes horderly.recedes_same

/-- **What one event does.** -/
theorem step_moves (horderly : Orderly staleness who w) (e : Event ι)
    (hunraced : Unraced staleness who w e) :
    Moves staleness who w (step staleness who w e) := by
  cases e with
  | tick elapsed =>
    refine .recedes
      { now := ?_
        fewer := fun p f hf => ?_
        kept := fun p f hf _ => ?_
        follows := fun k => horderly.follows_same k fun _ hf => hf }
    · show w.now ≤ w.now + elapsed
      omega
    · cases p <;> exact hf
    · cases p <;> exact hf
  | step i ok => exact advance_moves horderly i ok hunraced
  | touch i ok =>
    simp only [step]
    split
    · rename_i h
      refine .recedes (horderly.recedes_quietly
        (horderly.follows_contending rfl rfl ?_ ?_ ?_ ?_)) <;>
        simp [h.1, Phase.contends, Phase.condemns, Phase.holds]
    · exact .recedes horderly.recedes_same
  | release i =>
    simp only [step]
    split
    · refine .recedes (horderly.recedes_quietly (follows_plain ?_ ?_ rfl rfl ?_)) <;>
        simp [Phase.unborn, Phase.unclaimed]
    · exact .recedes horderly.recedes_same

end

/-! ## The step lemma -/

theorem carries_unique (hdistinct : Function.Injective fun i => (who i).nonce) {f : LockFile}
    {i j : ι} (hi : Carries f (who i)) (hj : Carries f (who j)) : i = j := by
  apply hdistinct
  exact Option.some.inj (hi.symm.trans hj)

theorem fresh_earlier {now now' : Int} {f : LockFile} (hnow : now ≤ now')
    (h : stale staleness now' f = false) : stale staleness now f = false := by
  rw [← Bool.not_eq_true] at h ⊢
  exact fun hstale => h (stale_mono hnow hstale)

section

variable {w' : World ι}

theorem Recedes.live (h : Recedes staleness who w w') {f : LockFile}
    (hlive : Live staleness who w' f) : Live staleness who w f :=
  hlive.of_later h.now fun k => (h.follows k).contends

/-- Who is to judge a live lock and stays in the running is still to judge it. -/
theorem Recedes.judging (h : Recedes staleness who w w') {k : ι} {g : LockFile}
    (hphase : w.phase k = .judging) (hclaim : w.claim k = some g)
    (hlive : Live staleness who w g) (hfresh : stale staleness w.now g = false)
    (hcontends : (w'.phase k).contends) : w'.phase k = .judging ∧ w'.claim k = some g := by
  refine ⟨?_, h.kept (some k) g hclaim hlive⟩
  rcases (h.follows k).judged hphase hcontends with hstill | hstale
  · exact hstill
  · rw [hstale g hclaim] at hfresh
    cases hfresh

theorem Recedes.orderly (h : Recedes staleness who w w') (horderly : Orderly staleness who w) :
    Orderly staleness who w' where
  unborn k hk p f hf := horderly.unborn k ((h.follows k).unborn hk) p f (h.fewer p f hf)
  unclaimed k hk := by
    have hnone : w.claim k = none := horderly.unclaimed k ((h.follows k).unclaimed hk)
    refine Option.eq_none_iff_forall_not_mem.mpr fun g hg => ?_
    have hold : g ∈ w.claim k := h.fewer (some k) g hg
    rw [hnone] at hold
    exact Option.not_mem_none g hold
  single k p q f hf g hg := horderly.single k p q f (h.fewer p f hf) g (h.fewer q g hg)
  named k f hf hlive g hg :=
    horderly.named k f (h.fewer (some k) f hf) (h.live hlive) g (h.fewer none g hg)
  looked k hk f hf hlive :=
    (h.follows k).looked hk f (h.fewer (some k) f hf) (h.live hlive)
  condemned k hk f hf hlive :=
    (h.follows k).condemned hk f (h.fewer (some k) f hf) (h.live hlive)
  rivals i j hne hi hj p f hf q g hg hfi hgj hffresh hgfresh := by
    have hiold : (w.phase i).contends := (h.follows i).contends hi
    have hjold : (w.phase j).contends := (h.follows j).contends hj
    have hf' : stale staleness w.now f = false := fresh_earlier h.now hffresh
    have hg' : stale staleness w.now g = false := fresh_earlier h.now hgfresh
    rcases horderly.rivals i j hne hiold hjold p f (h.fewer p f hf) q g (h.fewer q g hg) hfi hgj
      hf' hg' with ⟨hphase, hclaim⟩ | ⟨hphase, hclaim⟩
    · exact .inl (h.judging hphase hclaim ⟨j, hgj, hjold, hg'⟩ hg' hi)
    · exact .inr (h.judging hphase hclaim ⟨i, hfi, hiold, hf'⟩ hf' hj)

end

/-- A file moves from one place to another, at the hands of `i`, which is out of the running. -/
theorem Orderly.relocate (horderly : Orderly staleness who w) {w' : World ι}
    (origin : Option ι → Option ι) (hnow : w'.now = w.now)
    (hothers : ∀ k, k ≠ i → w'.phase k = w.phase k ∧ w'.claim k = w.claim k)
    (hunborn : (w'.phase i).unborn → (w.phase i).unborn)
    (hunclaimed : (w'.phase i).unclaimed = false) (hcontends : (w'.phase i).contends = false)
    (hcondemns : (w'.phase i).condemns = false) (hlooking : w'.phase i ≠ .looking)
    (horigin : ∀ p, ∀ f ∈ w'.fileAt p, f ∈ w.fileAt (origin p))
    (hinj : ∀ p q, (w'.fileAt p).isSome → (w'.fileAt q).isSome → origin p = origin q → p = q)
    (hclear : w'.path = none ∨ ∀ k, ∀ f ∈ w'.claim k, ¬ Live staleness who w f) :
    Orderly staleness who w' := by
  have hcontending : ∀ k, (w'.phase k).contends → k ≠ i ∧ (w.phase k).contends := by
    intro k hk
    have hne : k ≠ i := by
      rintro rfl
      rw [hcontends] at hk
      cases hk
    exact ⟨hne, by rwa [(hothers k hne).1] at hk⟩
  have hlive : ∀ f, Live staleness who w' f → Live staleness who w f := fun f h =>
    h.of_later hnow.ge fun k hk => (hcontending k hk).2
  have hvacant : ∀ k, ∀ f ∈ w'.claim k, Live staleness who w' f → w'.path = none := by
    intro k f hf h
    rcases hclear with hnone | hdead
    · exact hnone
    · exact absurd (hlive f h) (hdead k f hf)
  constructor
  case unborn =>
    intro k hk p f hf
    refine horderly.unborn k ?_ (origin p) f (horigin p f hf)
    by_cases hki : k = i
    · subst hki
      exact hunborn hk
    · rwa [(hothers k hki).1] at hk
  case unclaimed =>
    intro k hk
    have hki : k ≠ i := by
      rintro rfl
      rw [hunclaimed] at hk
      cases hk
    rw [(hothers k hki).1] at hk
    rw [(hothers k hki).2]
    exact horderly.unclaimed k hk
  case single =>
    intro k p q f hf g hg hfk hgk
    refine hinj p q (Option.isSome_of_mem hf) (Option.isSome_of_mem hg) ?_
    exact horderly.single k _ _ f (horigin p f hf) g (horigin q g hg) hfk hgk
  case named =>
    intro k f hf h g hg
    rw [hvacant k f hf h] at hg
    cases hg
  case looked => exact fun k _ f hf h => hvacant k f hf h
  case condemned =>
    intro k hk f hf h
    have hki : k ≠ i := by
      rintro rfl
      rw [hcondemns] at hk
      cases hk
    rw [(hothers k hki).1] at hk
    rw [(hothers k hki).2] at hf
    exact horderly.condemned k hk f hf (hlive f h)
  case rivals =>
    intro a b hne ha hb p f hf q g hg hfa hgb hff hgf
    obtain ⟨hai, haold⟩ := hcontending a ha
    obtain ⟨hbi, hbold⟩ := hcontending b hb
    rw [hnow] at hff hgf
    rw [(hothers a hai).1, (hothers a hai).2, (hothers b hbi).1, (hothers b hbi).2]
    exact horderly.rivals a b hne haold hbold _ f (horigin p f hf) _ g (horigin q g hg) hfa hgb
      hff hgf

/-- A live lock at a private name is its contending taker's to judge. -/
theorem Orderly.judging_of_named (horderly : Orderly staleness who w)
    (hdistinct : Function.Injective fun i => (who i).nonce) {f g : LockFile} {k a : ι}
    (hpath : f ∈ w.path) (hfa : Carries f (who a)) (ha : (w.phase a).contends)
    (hg : g ∈ w.claim k) (hlive : Live staleness who w g) :
    w.phase a = .judging ∧ w.claim a = some g := by
  obtain rfl : k = a := carries_unique hdistinct (horderly.named k g hg hlive f hpath) hfa
  rcases Phase.judging_or_condemns ha with hjudging | hcondemns
  · exact ⟨hjudging, hg⟩
  · exact absurd hlive (horderly.condemned k hcondemns g hg)

/-- Touching renews whatever is at the lock path, also a stranger's file. -/
theorem Orderly.renews (horderly : Orderly staleness who w)
    (hdistinct : Function.Injective fun i => (who i).nonce) {w' : World ι} {f f' : LockFile}
    (hnow : w'.now = w.now) (hclaim : w'.claim = w.claim)
    (hphases : ∀ k, w'.phase k = w.phase k ∨ (w.phase k = .touching ∧ w'.phase k = .held))
    (hpath : w.path = some f) (hpath' : w'.path = some f') (htext : f'.text = f.text) :
    Orderly staleness who w' := by
  have hcarries : ∀ k, Carries f' (who k) → Carries f (who k) := by
    intro k h
    unfold Carries LockFile.nonce at h ⊢
    rwa [htext] at h
  have hfile : ∀ {p g}, g ∈ w'.fileAt p →
      ∃ g' ∈ w.fileAt p, ∀ k, Carries g (who k) → Carries g' (who k) := by
    intro p g hg
    cases p with
    | none =>
      obtain rfl : f' = g := Option.some.inj (hpath'.symm.trans hg)
      exact ⟨f, hpath, hcarries⟩
    | some k =>
      refine ⟨g, ?_, fun _ h => h⟩
      show g ∈ w.claim k
      rwa [← hclaim]
  have hcontends : ∀ k, (w'.phase k).contends → (w.phase k).contends := by
    intro k hk
    rcases hphases k with h | ⟨h, -⟩
    · rwa [h] at hk
    · rw [h]
      rfl
  have hjudging : ∀ k, w.phase k = .judging → w'.phase k = .judging := by
    intro k hk
    rcases hphases k with h | ⟨h, -⟩
    · rwa [h]
    · rw [h] at hk
      cases hk
  have hlive : ∀ g, Live staleness who w' g → Live staleness who w g := fun g h =>
    h.of_later hnow.ge hcontends
  constructor
  case unborn =>
    intro k hk p g hg hcarries
    obtain ⟨g', hg', hsame⟩ := hfile hg
    rcases hphases k with h | ⟨-, h⟩ <;> rw [h] at hk
    · exact horderly.unborn k hk p g' hg' (hsame k hcarries)
    · cases hk
  case unclaimed =>
    intro k hk
    rw [hclaim]
    rcases hphases k with h | ⟨-, h⟩ <;> rw [h] at hk
    · exact horderly.unclaimed k hk
    · cases hk
  case single =>
    intro k p q g hg g₂ hg₂ hk hk₂
    obtain ⟨g', hg', hsame⟩ := hfile hg
    obtain ⟨g₂', hg₂', hsame₂⟩ := hfile hg₂
    exact horderly.single k p q g' hg' g₂' hg₂' (hsame k hk) (hsame₂ k hk₂)
  case named =>
    intro k g hg h g₂ hg₂
    obtain rfl : f' = g₂ := Option.some.inj (hpath'.symm.trans hg₂)
    rw [hclaim] at hg
    have hold : Carries f (who k) := horderly.named k g hg (hlive g h) f hpath
    unfold Carries LockFile.nonce at hold ⊢
    rwa [htext]
  case looked =>
    intro k hk g hg h
    rw [hclaim] at hg
    rcases hphases k with hsame | ⟨-, hheld⟩
    · rw [hsame] at hk
      rw [horderly.looked k hk g hg (hlive g h)] at hpath
      cases hpath
    · rw [hheld] at hk
      cases hk
  case condemned =>
    intro k hk g hg h
    rw [hclaim] at hg
    refine horderly.condemned k ?_ g hg (hlive g h)
    rcases hphases k with hsame | ⟨htouching, -⟩
    · rwa [hsame] at hk
    · rw [htouching]
      rfl
  case rivals =>
    intro a b hne ha hb p g hg q g₂ hg₂ hga hg₂b hgf hg₂f
    have haold : (w.phase a).contends := hcontends a ha
    have hbold : (w.phase b).contends := hcontends b hb
    rw [hnow] at hgf hg₂f
    rw [hclaim]
    cases p with
    | none =>
      obtain rfl : f' = g := Option.some.inj (hpath'.symm.trans hg)
      cases q with
      | none =>
        obtain rfl : f' = g₂ := Option.some.inj (hpath'.symm.trans hg₂)
        exact absurd (carries_unique hdistinct hga hg₂b) hne
      | some l =>
        have hold : g₂ ∈ w.claim l := by rwa [← hclaim]
        obtain ⟨hj, hmine⟩ := horderly.judging_of_named hdistinct hpath (hcarries a hga) haold hold
          ⟨b, hg₂b, hbold, hg₂f⟩
        exact .inl ⟨hjudging a hj, hmine⟩
    | some k =>
      have hgold : g ∈ w.claim k := by rwa [← hclaim]
      cases q with
      | none =>
        obtain rfl : f' = g₂ := Option.some.inj (hpath'.symm.trans hg₂)
        obtain ⟨hj, hmine⟩ := horderly.judging_of_named hdistinct hpath (hcarries b hg₂b) hbold
          hgold ⟨a, hga, haold, hgf⟩
        exact .inr ⟨hjudging b hj, hmine⟩
      | some l =>
        have hg₂old : g₂ ∈ w.claim l := by rwa [← hclaim]
        rcases horderly.rivals a b hne haold hbold (some k) g hgold (some l) g₂ hg₂old hga hg₂b
          hgf hg₂f with ⟨hj, hmine⟩ | ⟨hj, hmine⟩
        · exact .inl ⟨hjudging a hj, hmine⟩
        · exact .inr ⟨hjudging b hj, hmine⟩

section

variable [DecidableEq ι]

theorem Orderly.renames (horderly : Orderly staleness who w) {f : LockFile}
    (hphase : w.phase i = .claiming) (hpath : w.path = some f) :
    Orderly staleness who
      (({ w with path := none }.setClaim i (some f)).goTo i .taking) := by
  refine horderly.relocate (i := i) (fun p => if p = some i then none else p) rfl ?_ ?_ ?_ ?_ ?_ ?_
    ?_ ?_ (.inl rfl)
  · intro k hk
    exact ⟨goTo_phase_of_ne _ _ hk, Function.update_of_ne hk _ _⟩
  · simp [hphase, Phase.unborn]
  · simp [Phase.unclaimed]
  · simp [Phase.contends]
  · simp [Phase.condemns]
  · simp
  · intro p g hg
    cases p with
    | none => cases hg
    | some k =>
      by_cases hk : k = i
      · subst hk
        simpa [World.fileAt, World.setClaim, hpath] using hg
      · simpa [World.fileAt, World.setClaim, hk] using hg
  · intro p q hp hq h
    cases p with
    | none => cases hp
    | some k =>
      cases q with
      | none => cases hq
      | some l => by_cases hk : k = i <;> by_cases hl : l = i <;> simp_all

theorem Orderly.restores (horderly : Orderly staleness who w) {f : LockFile} {e : Error}
    (hclaim : w.claim i = some f) (hclear : ¬ Displaced staleness who w i) :
    Orderly staleness who
      (({ w with path := some f }.setClaim i none).goTo i (.refused e)) := by
  refine horderly.relocate (i := i) (fun p => if p = none then some i else p) rfl ?_ ?_ ?_ ?_ ?_ ?_
    ?_ ?_ (.inr ?_)
  · intro k hk
    exact ⟨goTo_phase_of_ne _ _ hk, Function.update_of_ne hk _ _⟩
  · simp [Phase.unborn]
  · simp [Phase.unclaimed]
  · simp [Phase.contends]
  · simp [Phase.condemns]
  · simp
  · intro p g hg
    cases p with
    | none => simpa [World.fileAt, World.setClaim, hclaim] using hg
    | some k =>
      by_cases hk : k = i
      · subst hk
        simp [World.fileAt, World.setClaim] at hg
      · simpa [World.fileAt, World.setClaim, hk] using hg
  · intro p q hp hq h
    have hne : ∀ k, ((({ w with path := some f }.setClaim i none).goTo i
        (.refused e)).fileAt (some k)).isSome → k ≠ i := by
      rintro k hk rfl
      simp [World.fileAt, World.setClaim] at hk
    cases p with
    | none =>
      cases q with
      | none => rfl
      | some l => exact absurd (Option.some.inj h).symm (hne l hq)
    | some k =>
      cases q with
      | none => exact absurd (Option.some.inj h) (hne k hp)
      | some l => simpa using h
  · intro k g hg hlive
    have hk : k ≠ i := by
      rintro rfl
      simp [World.setClaim] at hg
    refine hclear ⟨k, hk, g, ?_, hlive⟩
    simpa [World.setClaim, hk] using hg

/-- A create finds a live lock displaced only by the creator's own takeover, which judges it next. -/
theorem Orderly.claim_of_create (horderly : Orderly staleness who w) (hpath : w.path = none)
    (hphase : (w.phase i = .idle ∧ next = .verifying) ∨ (w.phase i = .taking ∧ next = .judging))
    (hclear : ¬ Displaced staleness who w i) {p : Option ι} {g : LockFile} (hg : g ∈ w.fileAt p)
    (hlive : Live staleness who w g) : next = .judging ∧ w.claim i = some g := by
  cases p with
  | none =>
    have hsome : w.path = some g := hg
    rw [hpath] at hsome
    cases hsome
  | some k =>
    obtain rfl : k = i := by
      by_contra hk
      exact hclear ⟨k, hk, g, hg, hlive⟩
    rcases hphase with ⟨hidle, -⟩ | ⟨-, hnext⟩
    · have hsome : w.claim k = some g := hg
      rw [horderly.unclaimed k (by rw [hidle]; rfl)] at hsome
      cases hsome
    · exact ⟨hnext, hg⟩

theorem Orderly.creates (horderly : Orderly staleness who w)
    (hdistinct : Function.Injective fun i => (who i).nonce) (hpath : w.path = none)
    (hphase : (w.phase i = .idle ∧ next = .verifying) ∨ (w.phase i = .taking ∧ next = .judging))
    (hclear : ¬ Displaced staleness who w i) :
    Orderly staleness who ({ w with path := some (newFile who w i) }.goTo i next) := by
  have hunborn : (w.phase i).unborn := by
    rcases hphase with ⟨h, -⟩ | ⟨h, -⟩ <;> rw [h] <;> rfl
  have hborn : next.unborn = false ∧ next.unclaimed = false ∧ next ≠ .looking := by
    rcases hphase with ⟨-, rfl⟩ | ⟨-, rfl⟩ <;> exact ⟨rfl, rfl, by simp⟩
  have hnew : ∀ {k}, Carries (newFile who w i) (who k) → k = i := fun h =>
    carries_unique hdistinct h (carries_text (who i) w.now)
  -- a file of the new world: the new one, or an old one at a private name
  have hfile : ∀ {p f}, f ∈ World.fileAt ({ w with path := some (newFile who w i) }) p →
      (p = none ∧ f = newFile who w i) ∨ (∃ k, p = some k) ∧ f ∈ w.fileAt p := by
    intro p f hf
    cases p with
    | none => exact .inl ⟨rfl, (Option.some.inj hf).symm⟩
    | some k => exact .inr ⟨⟨k, rfl⟩, hf⟩
  have hlive : ∀ {p f}, f ∈ w.fileAt p →
      Live staleness who ({ w with path := some (newFile who w i) }.goTo i next) f →
      Live staleness who w f := by
    rintro p f hf ⟨k, hk, hcontends, hfresh⟩
    have hki : k ≠ i := by
      rintro rfl
      exact horderly.unborn k hunborn p f hf hk
    rw [goTo_phase_of_ne _ _ hki] at hcontends
    exact ⟨k, hk, hcontends, hfresh⟩
  have hjudging : ∀ {p g}, g ∈ w.fileAt p → Live staleness who w g →
      next = .judging ∧ w.claim i = some g := fun hg h =>
    horderly.claim_of_create hpath hphase hclear hg h
  constructor
  case unborn =>
    intro k hk p f hf hcarries
    have hki : k ≠ i := by
      rintro rfl
      rw [goTo_phase_self, hborn.1] at hk
      cases hk
    rw [goTo_phase_of_ne _ _ hki] at hk
    rw [goTo_fileAt] at hf
    rcases hfile hf with ⟨-, rfl⟩ | ⟨-, hold⟩
    · exact hki (hnew hcarries)
    · exact horderly.unborn k hk p f hold hcarries
  case unclaimed =>
    intro k hk
    have hki : k ≠ i := by
      rintro rfl
      rw [goTo_phase_self, hborn.2.1] at hk
      cases hk
    rw [goTo_phase_of_ne _ _ hki] at hk
    exact horderly.unclaimed k hk
  case single =>
    intro k p q f hf g hg hfk hgk
    rw [goTo_fileAt] at hf hg
    rcases hfile hf with ⟨rfl, rfl⟩ | ⟨-, hfold⟩ <;> rcases hfile hg with ⟨rfl, rfl⟩ | ⟨-, hgold⟩
    · rfl
    · obtain rfl := hnew hfk
      exact absurd hgk (horderly.unborn k hunborn q g hgold)
    · obtain rfl := hnew hgk
      exact absurd hfk (horderly.unborn k hunborn p f hfold)
    · exact horderly.single k p q f hfold g hgold hfk hgk
  case named =>
    intro k f hf h g hg
    obtain rfl : newFile who w i = g := Option.some.inj hg
    have hk : k = i := by
      by_contra hk
      exact hclear ⟨k, hk, f, hf, hlive (p := some k) hf h⟩
    rw [hk]
    exact carries_text (who i) w.now
  case looked =>
    intro k hk f hf h
    have hki : k ≠ i := by
      rintro rfl
      rw [goTo_phase_self] at hk
      exact hborn.2.2 hk
    exact absurd ⟨k, hki, f, hf, hlive (p := some k) hf h⟩ hclear
  case condemned =>
    intro k hk f hf h
    have hold : Live staleness who w f := hlive (p := some k) hf h
    by_cases hki : k = i
    · rw [hki, goTo_phase_self, (hjudging (p := some k) hf hold).1] at hk
      cases hk
    · exact hclear ⟨k, hki, f, hf, hold⟩
  case rivals =>
    intro a b hne ha hb p f hf q g hg hfa hgb hff hgf
    rw [goTo_fileAt] at hf hg
    by_cases hai : a = i
    · subst hai
      have hba : b ≠ a := Ne.symm hne
      rw [goTo_phase_of_ne _ _ hba] at hb
      rcases hfile hg with ⟨-, rfl⟩ | ⟨-, hgold⟩
      · exact absurd (hnew hgb) hba
      · rw [goTo_phase_self]
        exact .inl (hjudging hgold ⟨b, hgb, hb, hgf⟩)
    · rw [goTo_phase_of_ne _ _ hai] at ha ⊢
      rcases hfile hf with ⟨-, rfl⟩ | ⟨-, hfold⟩
      · exact absurd (hnew hfa) hai
      · by_cases hbi : b = i
        · subst hbi
          rw [goTo_phase_self]
          exact .inr (hjudging hfold ⟨a, hfa, ha, hff⟩)
        · rw [goTo_phase_of_ne _ _ hbi] at hb ⊢
          rcases hfile hg with ⟨-, rfl⟩ | ⟨-, hgold⟩
          · exact absurd (hnew hgb) hbi
          · exact horderly.rivals a b hne ha hb p f hfold q g hgold hfa hgb hff hgf

/-- **One step keeps the invariant.** -/
theorem step_orderly (hdistinct : Function.Injective fun i => (who i).nonce)
    (horderly : Orderly staleness who w) (e : Event ι) (hunraced : Unraced staleness who w e) :
    Orderly staleness who (step staleness who w e) := by
  have hmoves := step_moves horderly e hunraced
  generalize step staleness who w e = w' at hmoves ⊢
  cases hmoves with
  | recedes h => exact h.orderly horderly
  | creates i next hpath hphase hclear => exact horderly.creates hdistinct hpath hphase hclear
  | renames i f hphase hpath => exact horderly.renames hphase hpath
  | restores i f undo e hphase hclaim hclear hpath => exact horderly.restores hclaim hclear
  | touches i f hphase hpath =>
    refine horderly.renews (f := f) hdistinct rfl rfl (fun k => ?_) hpath rfl rfl
    by_cases hk : k = i
    · subst hk
      exact .inr ⟨hphase, goTo_phase_self _ _ _⟩
    · exact .inl (goTo_phase_of_ne _ _ hk)

/-- **A holder whose file is fresh keeps it.** -/
theorem step_kept (horderly : Orderly staleness who w) (e : Event ι)
    (hunraced : Unraced staleness who w e) (hfresh : ¬ StaleHolder staleness who w i)
    (hkept : Kept who w i) : Kept who (step staleness who w e) i := by
  have hmoves := step_moves horderly e hunraced
  generalize step staleness who w e = w' at hmoves ⊢
  -- a holder is in the running, so its file is a live lock
  have hlive : (w.phase i).holds → ∃ p, ∃ f ∈ w.fileAt p,
      Carries f (who i) ∧ Live staleness who w f := by
    intro h
    obtain ⟨p, f, hf, hcarries⟩ := hkept h
    refine ⟨p, f, hf, hcarries, i, hcarries, Phase.contends_of_holds h, ?_⟩
    rw [← Bool.not_eq_true]
    exact fun hstale => hfresh ⟨h, p, f, hf, hcarries, hstale⟩
  intro hholds
  cases hmoves with
  | recedes h =>
    rcases (h.follows i).holds hholds with hheld | ⟨f, hf, hcarries⟩
    · obtain ⟨p, f, hf, hcarries, hf'⟩ := hlive hheld
      exact ⟨p, f, h.kept p f hf hf', hcarries⟩
    · exact ⟨none, f, hf, hcarries⟩
  | creates k next hpath hphase hclear =>
    have hik : i ≠ k := by
      rintro rfl
      rw [goTo_phase_self] at hholds
      rcases hphase with ⟨-, rfl⟩ | ⟨-, rfl⟩ <;> cases hholds
    rw [goTo_phase_of_ne _ _ hik] at hholds
    obtain ⟨p, f, hf, hcarries, -⟩ := hlive hholds
    cases p with
    | none =>
      rw [show w.fileAt none = none from hpath] at hf
      cases hf
    | some l => exact ⟨some l, f, hf, hcarries⟩
  | renames k f hphase hpath =>
    have hik : i ≠ k := by
      rintro rfl
      rw [goTo_phase_self] at hholds
      cases hholds
    rw [goTo_phase_of_ne _ _ hik] at hholds
    obtain ⟨p, g, hg, hcarries, -⟩ := hlive hholds
    cases p with
    | none =>
      refine ⟨some k, g, ?_, hcarries⟩
      rw [show w.fileAt none = some f from hpath] at hg
      simpa [World.fileAt, World.setClaim] using hg
    | some l =>
      have hlk : l ≠ k := by
        rintro rfl
        rw [show w.fileAt (some l) = none from horderly.unclaimed l (by rw [hphase]; rfl)] at hg
        cases hg
      refine ⟨some l, g, ?_, hcarries⟩
      simpa [World.fileAt, World.setClaim, hlk] using hg
  | restores k f undo e hphase hclaim hclear hpath =>
    have hik : i ≠ k := by
      rintro rfl
      rw [goTo_phase_self] at hholds
      cases hholds
    rw [goTo_phase_of_ne _ _ hik] at hholds
    obtain ⟨p, g, hg, hcarries, hlive⟩ := hlive hholds
    cases p with
    | none => exact absurd hlive (hpath g hg)
    | some l =>
      by_cases hlk : l = k
      · subst hlk
        refine ⟨none, g, ?_, hcarries⟩
        rw [show w.fileAt (some l) = some f from hclaim] at hg
        exact hg
      · refine ⟨some l, g, ?_, hcarries⟩
        simpa [World.fileAt, World.setClaim, hlk] using hg
  | touches k f hphase hpath =>
    have hheld : (w.phase i).holds := by
      by_cases hik : i = k
      · rw [hik, hphase]
        rfl
      · rwa [goTo_phase_of_ne _ _ hik] at hholds
    obtain ⟨p, g, hg, hcarries, -⟩ := hlive hheld
    cases p with
    | none =>
      obtain rfl : f = g := Option.some.inj (hpath.symm.trans hg)
      exact ⟨none, _, rfl, hcarries⟩
    | some l => exact ⟨some l, g, hg, hcarries⟩

end

end

/-! ## Runs -/

variable (who) in
/-- Nobody has begun; the file at the lock path, if any, is somebody else's. -/
structure Start (w : World ι) : Prop where
  idle : ∀ i, w.phase i = .idle
  claim : ∀ i, w.claim i = none
  path : ∀ f ∈ w.path, ∀ i, ¬ Carries f (who i)

theorem Start.orderly {w₀ : World ι} (h : Start who w₀) : Orderly staleness who w₀ where
  unborn k _ p f hf := by
    cases p with
    | none => exact h.path f hf k
    | some l =>
      rw [show w₀.fileAt (some l) = none from h.claim l] at hf
      cases hf
  unclaimed k _ := h.claim k
  single k p q f hf g hg _ _ := by
    cases p with
    | none =>
      cases q with
      | none => rfl
      | some l =>
        rw [show w₀.fileAt (some l) = none from h.claim l] at hg
        cases hg
    | some l =>
      rw [show w₀.fileAt (some l) = none from h.claim l] at hf
      cases hf
  named k f hf _ := by
    rw [h.claim k] at hf
    cases hf
  looked k hk _ _ _ := by
    rw [h.idle k] at hk
    cases hk
  condemned k hk _ _ _ := by
    rw [h.idle k] at hk
    cases hk
  rivals i _ _ hi _ _ _ _ _ _ _ _ _ _ _ := by
    rw [h.idle i] at hi
    cases hi

section

variable (staleness who) [DecidableEq ι]

/-- At no moment of the run was the caller a stale holder. -/
def NeverStale (w₀ : World ι) (events : List (Event ι)) (i : ι) : Prop :=
  Along (step staleness who) (fun w _ => ¬ StaleHolder staleness who w i) w₀ events
    ∧ ¬ StaleHolder staleness who (run (step staleness who) w₀ events) i

/-- No two callers hold the lock that were never stale holders. -/
def Exclusive (w₀ : World ι) (events : List (Event ι)) : Prop :=
  ∀ i j, i ≠ j → NeverStale staleness who w₀ events i → NeverStale staleness who w₀ events j →
    ¬ (((run (step staleness who) w₀ events).phase i).holds
      ∧ ((run (step staleness who) w₀ events).phase j).holds)

variable {staleness who}

theorem run_orderly (hdistinct : Function.Injective fun i => (who i).nonce) {w₀ : World ι}
    (hstart : Start who w₀) {events : List (Event ι)}
    (hunraced : Along (step staleness who) (Unraced staleness who) w₀ events) :
    Orderly staleness who (run (step staleness who) w₀ events) :=
  run_keeps (I := Orderly staleness who) (fun _ e h => step_orderly hdistinct h e) hstart.orderly hunraced

/-- The steps of a run that are unraced and at which `i` is no stale holder keep its file. -/
theorem run_kept (hdistinct : Function.Injective fun i => (who i).nonce) {w₀ : World ι}
    (hstart : Start who w₀) {events : List (Event ι)}
    (hunraced : Along (step staleness who) (Unraced staleness who) w₀ events) {i : ι}
    (hnever : NeverStale staleness who w₀ events i) :
    Kept who (run (step staleness who) w₀ events) i := by
  have hboth : Along (step staleness who)
      (fun w e => Unraced staleness who w e ∧ ¬ StaleHolder staleness who w i) w₀ events :=
    fun front e back h => ⟨hunraced front e back h, hnever.1 front e back h⟩
  have hkeeps : ∀ w e, (Orderly staleness who w ∧ Kept who w i) →
      (Unraced staleness who w e ∧ ¬ StaleHolder staleness who w i) →
      Orderly staleness who (step staleness who w e) ∧ Kept who (step staleness who w e) i :=
    fun w e h hcond => ⟨step_orderly hdistinct h.1 e hcond.1,
      step_kept h.1 e hcond.1 hcond.2 h.2⟩
  refine (run_keeps hkeeps ⟨hstart.orderly, fun h => ?_⟩ hboth).2
  rw [hstart.idle i] at h
  cases h

/-- **Where no step is raced, the lock excludes.** -/
theorem lock_exclusive (hdistinct : Function.Injective fun i => (who i).nonce) {w₀ : World ι}
    (hstart : Start who w₀) {events : List (Event ι)}
    (hunraced : Along (step staleness who) (Unraced staleness who) w₀ events) :
    Exclusive staleness who w₀ events := by
  rintro i j hne hi hj ⟨hholdsi, hholdsj⟩
  have horderly := run_orderly hdistinct hstart hunraced
  obtain ⟨p, f, hf, hfi⟩ := run_kept hdistinct hstart hunraced hi hholdsi
  obtain ⟨q, g, hg, hgj⟩ := run_kept hdistinct hstart hunraced hj hholdsj
  have hffresh : stale staleness (run (step staleness who) w₀ events).now f = false := by
    rw [← Bool.not_eq_true]
    exact fun hstale => hi.2 ⟨hholdsi, p, f, hf, hfi, hstale⟩
  have hgfresh : stale staleness (run (step staleness who) w₀ events).now g = false := by
    rw [← Bool.not_eq_true]
    exact fun hstale => hj.2 ⟨hholdsj, q, g, hg, hgj, hstale⟩
  -- one of them would have the other's file still to judge
  rcases horderly.rivals i j hne (Phase.contends_of_holds hholdsi)
    (Phase.contends_of_holds hholdsj) p f hf q g hg hfi hgj hffresh hgfresh with
    ⟨hphase, -⟩ | ⟨hphase, -⟩
  · rw [hphase] at hholdsi
    cases hholdsi
  · rw [hphase] at hholdsj
    cases hholdsj

end

end

/-! ## Crossed takeovers -/

section

variable {ι : Type} [Fintype ι] (staleness : Int) (who : ι → Acquirer)

instance (w : World ι) (i : ι) : Decidable (StaleHolder staleness who w i) :=
  inferInstanceAs (Decidable (_ ∧ _))

variable [DecidableEq ι]

instance (w₀ : World ι) (events : List (Event ι)) (i : ι) :
    Decidable (NeverStale staleness who w₀ events i) :=
  inferInstanceAs (Decidable (_ ∧ _))

end

def taker (counter : Nat) : Acquirer := ⟨4242, ⟨2026, 3, 2, 3, 30, 0⟩, 1772422200000000000, counter⟩

def takers (i : Fin 3) : Acquirer := taker (i + 2)

/-- A holder died eleven minutes ago. -/
def afterDeath : World (Fin 3) where
  now := 660
  path := some ⟨(taker 1).text, 0⟩
  claim _ := none
  phase _ := .idle

def steps (n : Nat) (i : Fin 3) : List (Event (Fin 3)) := List.replicate n (.step i true)

theorem takers_distinct : Function.Injective fun i => (takers i).nonce := by
  decide +kernel

theorem afterDeath_start : Start takers afterDeath where
  idle _ := rfl
  claim _ := rfl
  path := by decide +kernel

theorem lock_exclusive_takeover :
    Exclusive kDefaultLockStaleness takers afterDeath (steps 8 0 ++ steps 2 1) :=
  lock_exclusive takers_distinct afterDeath_start (by decide +kernel)

/-- The first takes its observation, the second takes over, the first moves the second's lock away,
and the third creates at the freed name. -/
def crossedTakeovers : List (Event (Fin 3)) := steps 3 0 ++ steps 8 1 ++ steps 1 0 ++ steps 2 2

theorem crossed_takeovers_both_hold :
    Function.Injective (fun i => (takers i).nonce) ∧ Start takers afterDeath
      ∧ ¬ Exclusive kDefaultLockStaleness takers afterDeath crossedTakeovers := by
  refine ⟨takers_distinct, afterDeath_start, fun h => ?_⟩
  exact h 1 2 (by decide) (by decide +kernel) (by decide +kernel) (by decide +kernel)

end BrokerExec.Platform
