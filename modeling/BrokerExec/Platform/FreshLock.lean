import BrokerExec.Platform.LockExclusion

/-!
# A lock file that never goes stale

Without a stale lock file there is no takeover: whoever has made a lock file finds it at the lock
path until it releases.

* **`freshStep_plain`** — one event keeps this, while the file at the lock path is fresh.
* **`Plain.sole`** — one caller at most has its file there.
-/

namespace BrokerExec.Platform

/-- No part of a takeover. -/
def Phase.plain : Phase → Bool
  | .idle | .examining | .verifying | .held | .touching | .releasing _ | .released | .refused _ =>
    true
  | _ => false

/-- Has made its lock file and not given it up. -/
def Phase.hasFile : Phase → Bool
  | .verifying | .held | .touching | .releasing _ => true
  | _ => false

theorem Phase.hasFile_of_holds {phase : Phase} (h : phase.holds = true) : phase.hasFile = true := by
  cases phase <;> first | rfl | cases h

section

variable {ι : Type} (staleness : Int) (who : ι → Acquirer)

structure Plain (w : World ι) : Prop where
  plain : ∀ i, (w.phase i).plain
  owner : ∀ i, (w.phase i).hasFile → ∃ f ∈ w.path, Carries f (who i)

/-- The file at the lock path, if any, is fresh. -/
def FreshPath (w : World ι) : Prop := ∀ f ∈ w.path, stale staleness w.now f = false

variable {staleness who} {w : World ι}

theorem Plain.sole (hplain : Plain who w) (hdistinct : Function.Injective fun i => (who i).nonce)
    {i j : ι} (hi : (w.phase i).hasFile) (hj : (w.phase j).hasFile) : i = j := by
  obtain ⟨f, hf, hfi⟩ := hplain.owner i hi
  obtain ⟨g, hg, hgj⟩ := hplain.owner j hj
  obtain rfl : f = g := Option.some.inj (hf.symm.trans hg)
  exact carries_unique hdistinct hfi hgj

variable [DecidableEq ι] {i : ι}

/-- The caller turns to a phase in which it has no file, or none that it did not have. -/
theorem Plain.goTo (hplain : Plain who w) {next : Phase} (hnext : next.plain)
    (hfile : next.hasFile → ∃ f ∈ w.path, Carries f (who i)) : Plain who (w.goTo i next) where
  plain k := by
    by_cases hk : k = i
    · rw [hk, goTo_phase_self]
      exact hnext
    · rw [goTo_phase_of_ne _ _ hk]
      exact hplain.plain k
  owner k h := by
    by_cases hk : k = i
    · subst hk
      rw [goTo_phase_self] at h
      exact hfile h
    · rw [goTo_phase_of_ne _ _ hk] at h
      exact hplain.owner k h

/-- The one that has its file at the lock path clears it. -/
theorem Plain.clears (hplain : Plain who w)
    (hdistinct : Function.Injective fun i => (who i).nonce) (hi : (w.phase i).hasFile)
    {next : Phase} (hnext : next.plain) (hgone : next.hasFile = false) :
    Plain who ({ w with path := none }.goTo i next) where
  plain k := by
    by_cases hk : k = i
    · rw [hk, goTo_phase_self]
      exact hnext
    · rw [goTo_phase_of_ne _ _ hk]
      exact hplain.plain k
  owner k h := by
    by_cases hk : k = i
    · subst hk
      rw [goTo_phase_self, hgone] at h
      cases h
    · rw [goTo_phase_of_ne _ _ hk] at h
      exact absurd (hplain.sole hdistinct h hi) hk

/-- A lock file is made: nobody else can have one, as there was none. -/
theorem Plain.makes (hplain : Plain who w) (hpath : w.path = none) :
    Plain who ({ w with path := some (newFile who w i) }.goTo i .verifying) where
  plain k := by
    by_cases hk : k = i
    · rw [hk, goTo_phase_self]
      rfl
    · rw [goTo_phase_of_ne _ _ hk]
      exact hplain.plain k
  owner k h := by
    by_cases hk : k = i
    · exact ⟨_, rfl, hk ▸ carries_text (who i) w.now⟩
    · rw [goTo_phase_of_ne _ _ hk] at h
      obtain ⟨f, hf, -⟩ := hplain.owner k h
      rw [hpath] at hf
      cases hf

/-- **One step of a caller.** -/
theorem freshAdvance_plain (hplain : Plain who w)
    (hdistinct : Function.Injective fun i => (who i).nonce) (hfresh : FreshPath staleness w)
    (i : ι) (ok : Bool) : Plain who (advance staleness who w i ok) := by
  have hrefused : ∀ e, Plain who (w.goTo i (.refused e)) := fun e =>
    hplain.goTo rfl (by simp [Phase.hasFile])
  unfold advance
  cases hphase : w.phase i with
  | idle =>
    cases ok with
    | false => exact hrefused _
    | true =>
      cases hpath : w.path with
      | none => exact hplain.makes hpath
      | some f => exact hplain.goTo rfl (by simp [Phase.hasFile])
  | examining =>
    dsimp only
    split
    · exact hrefused _
    · exact hrefused _
    · rename_i hstale
      obtain ⟨f, hf, hfstale⟩ := pathIsStale_true hstale
      rw [hfresh f hf] at hfstale
      cases hfstale
  | verifying =>
    dsimp only
    split
    · rename_i f hpath
      split
      · rename_i hcarries
        exact hplain.goTo rfl fun _ => ⟨f, hpath, hcarries⟩
      · exact hrefused _
    · exact hrefused _
  | touching =>
    have hmine : (w.phase i).hasFile := by
      rw [hphase]
      rfl
    dsimp only
    split
    · rename_i f hpath
      have hrenewed : Plain who { w with path := some { f with mtime := w.now } } :=
        { plain := hplain.plain
          owner := fun k h => by
            obtain ⟨g, hg, hcarries⟩ := hplain.owner k h
            obtain rfl : f = g := Option.some.inj (hpath.symm.trans hg)
            exact ⟨_, rfl, hcarries⟩ }
      exact hrenewed.goTo rfl fun _ => hrenewed.owner i hmine
    · exact hplain.goTo rfl fun _ => hplain.owner i hmine
  | releasing stage =>
    have hmine : (w.phase i).hasFile := by
      rw [hphase]
      rfl
    dsimp only
    obtain ⟨stage', h⟩ | ⟨h, -⟩ | ⟨h, -⟩ | h := removeIfOurs_cases (who i) w.path ok stage <;> rw [h]
    · exact hplain.goTo rfl fun _ => hplain.owner i hmine
    · exact hplain.clears hdistinct hmine rfl rfl
    · exact hplain.goTo rfl (by simp [Phase.hasFile])
    · exact hplain.goTo rfl (by simp [Phase.hasFile])
  | held | released | refused e => exact hplain
  | reading | claiming | taking | dropping | judging | undoing attempt stage | looking | retaken
  | restoring undo | burying =>
    have h := hplain.plain i
    rw [hphase] at h
    cases h

/-- **One event.** -/
theorem freshStep_plain (hplain : Plain who w)
    (hdistinct : Function.Injective fun i => (who i).nonce) (hfresh : FreshPath staleness w)
    (e : Event ι) : Plain who (step staleness who w e) := by
  cases e with
  | tick elapsed => exact ⟨hplain.plain, hplain.owner⟩
  | step i ok => exact freshAdvance_plain hplain hdistinct hfresh i ok
  | touch i ok =>
    simp only [step]
    split
    · rename_i h
      exact hplain.goTo rfl fun _ => hplain.owner i (by rw [h.1]; rfl)
    · exact hplain
  | release i =>
    simp only [step]
    split
    · rename_i h
      exact hplain.goTo rfl fun _ => hplain.owner i (by rw [h]; rfl)
    · exact hplain

/-- A step is the caller's own. -/
theorem advance_phase_of_ne {k : ι} (h : k ≠ i) (ok : Bool) :
    (advance staleness who w i ok).phase k = w.phase k := by
  have hgoTo : ∀ {w' : World ι} {next : Phase}, w'.phase = w.phase →
      (w'.goTo i next).phase k = w.phase k := by
    intro w' next hphase
    rw [goTo_phase_of_ne _ _ h, hphase]
  unfold advance
  split
  all_goals
    (repeat' split) <;> first | exact hgoTo rfl | rfl

/-- Whose step an event is. -/
def Event.actor {ι : Type} : Event ι → Option ι
  | .tick _ => none
  | .step i _ | .touch i _ | .release i => some i

theorem step_phase_of_ne {k : ι} {e : Event ι} (h : e.actor ≠ some k) :
    (step staleness who w e).phase k = w.phase k := by
  cases e with
  | tick elapsed => rfl
  | step i ok =>
    refine advance_phase_of_ne ?_ ok
    rintro rfl
    exact h rfl
  | touch i ok | release i =>
    have hk : k ≠ i := by
      rintro rfl
      exact h rfl
    simp only [step]
    split
    · exact goTo_phase_of_ne _ _ hk
    · rfl

/-- A granted lock stays granted through touches. -/
theorem holds_advance (h : (w.phase i).holds) (ok : Bool) :
    ((advance staleness who w i ok).phase i).holds := by
  unfold advance
  cases hphase : w.phase i with
  | held =>
    dsimp only
    rw [hphase]
    rfl
  | touching =>
    dsimp only
    split <;> (rw [goTo_phase_self]; rfl)
  | _ =>
    rw [hphase] at h
    cases h

theorem holds_touch (h : (w.phase i).holds) (ok : Bool) :
    ((step staleness who w (.touch i ok)).phase i).holds := by
  simp only [step]
  split
  · rw [goTo_phase_self]
    rfl
  · exact h

end

end BrokerExec.Platform
