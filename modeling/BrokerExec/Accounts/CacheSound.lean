import BrokerExec.Accounts.SharedCache

/-!
# Only whole validated payloads

Whatever the locks do, the artifact of a key holds a payload that was fetched for it and validated,
and so does every value that a call returns.

* **`step_sound`** — the invariant: what each phase of a call knows of the directory.
* **`run_sound`** — it holds in every state of a run.
-/

namespace BrokerExec.Accounts

open BrokerExec.Errors (Error)
open BrokerExec.Platform (Acquirer)

/-- The inode that the call has open for writing. -/
def CallPhase.handle {κ : Type} : CallPhase κ → Option Nat
  | .writing _ _ inode _ => some inode
  | _ => none

/-- The call may have made its temporary file. -/
def CallPhase.pastOpening {κ : Type} : CallPhase κ → Bool
  | .writing .. | .syncing .. | .publishing .. | .abandoning .. | .releasing .. | .done _
  | .crashed => true
  | _ => false

section

variable {κ : Type} (validate : Option (Bytes → Bool)) (requests : κ → Request)
  (who : κ × Nat → Acquirer)

/-- A payload that some fetch for the key returned, and that validates. -/
def Good (w : Cache κ) (key : RefdataKey) (payload : Bytes) : Prop :=
  (key, .ok payload) ∈ w.fetched ∧ accepts validate payload = true

/-- The temporary file of an attempt. -/
def tempOf (c : κ) (attempt : Nat) : Bytes := tempName (requests c).key (who (c, attempt)).nonce

/-- What a call in this phase knows. -/
def Knows (w : Cache κ) (c : κ) : CallPhase κ → Prop
  | .sweeping (some (.file name)) => IsDebris name
  | .sweeping (some (.claim ..)) | .sweeping none | .done (.error _) | .crashed => True
  | .looking _ | .opening _ | .preparing | .acquiring _ | .fetching _ | .abandoning .. =>
    (requests c).key.Safe
  | .pieces _ inode contents =>
    (requests c).key.Safe ∧ inode < w.disk.next
      ∧ Good validate w (requests c).key (w.disk.content inode)
      ∧ contents = (w.disk.content inode).take contents.length
  | .touching _ fetched _ => (requests c).key.Safe ∧ ((requests c).key, fetched) ∈ w.fetched
  | .confirming _ payload | .openingTemp _ payload =>
    (requests c).key.Safe ∧ Good validate w (requests c).key payload
  | .writing attempt payload inode offset =>
    (requests c).key.Safe ∧ Good validate w (requests c).key payload ∧ inode < w.disk.next
      ∧ offset ≤ payload.length ∧ w.disk.content inode = payload.take offset
      ∧ (∀ n, w.disk.entry n = some inode → n = tempOf requests who c attempt)
      ∧ ∀ y, w.disk.entry (tempOf requests who c attempt) = some y → y = inode
  | .syncing attempt payload | .publishing attempt payload _ =>
    (requests c).key.Safe ∧ Good validate w (requests c).key payload
      ∧ ∀ y, w.disk.entry (tempOf requests who c attempt) = some y → w.disk.content y = payload
  | .releasing _ (.error _) => (requests c).key.Safe
  | .releasing _ (.ok payload) =>
    (requests c).key.Safe ∧ Good validate w (requests c).key payload
  | .done (.ok payload) => Good validate w (requests c).key payload

structure Sound (w : Cache κ) : Prop where
  knows : ∀ c, Knows validate requests who w c (w.phase c)
  artifact : ∀ key, key.Safe → ∀ x, w.disk.entry (artifactName key) = some x →
    Good validate w key (w.disk.content x)
  /-- Nobody writes to what another call writes to, or to what a call reads. -/
  handles : ∀ c c' x, c ≠ c' → (w.phase c).handle = some x → (w.phase c').handle ≠ some x
  readers : ∀ c p x contents, w.phase c = .pieces p x contents →
    ∀ c', (w.phase c').handle ≠ some x
  temp : ∀ c attempt, (requests c).key.Safe →
    w.disk.entry (tempOf requests who c attempt) ≠ none → (w.phase c).pastOpening

variable {validate requests who}

theorem tempOf_inj (hdistinct : Function.Injective fun a => (who a).nonce) {c c' : κ}
    {attempt attempt' : Nat} (hc : (requests c).key.Safe) (hc' : (requests c').key.Safe)
    (h : tempOf requests who c attempt = tempOf requests who c' attempt') :
    c = c' ∧ attempt = attempt' := by
  have hnonce : (who (c, attempt)).nonce = (who (c', attempt')).nonce := tempName_inj hc hc' h
  exact Prod.mk.inj (hdistinct hnonce)

theorem tempOf_ne_artifact {c : κ} {attempt : Nat} {key : RefdataKey}
    (hc : (requests c).key.Safe) (hkey : key.Safe) :
    tempOf requests who c attempt ≠ artifactName key :=
  tempName_ne_artifactName hc hkey

theorem Good.of_grown {w w' : Cache κ} {key : RefdataKey} {payload : Bytes}
    (hgrown : ∀ e ∈ w.fetched, e ∈ w'.fetched) (h : Good validate w key payload) :
    Good validate w' key payload :=
  ⟨hgrown _ h.1, h.2⟩

/-- Read to the end, the artifact is a payload as a whole. -/
theorem Sound.good_of_pieces {w : Cache κ} (hsound : Sound validate requests who w) {c : κ}
    {purpose : Purpose} {inode : Nat} {contents : Bytes}
    (hphase : w.phase c = .pieces purpose inode contents)
    (hend : (w.disk.content inode).length ≤ contents.length) :
    Good validate w (requests c).key contents := by
  have hknows := hsound.knows c
  rw [hphase] at hknows
  obtain ⟨-, -, hgood, hcontents⟩ := hknows
  rw [List.take_of_length_le hend] at hcontents
  rw [hcontents]
  exact hgood

/-! ## Frame -/

variable (requests who) in
/-- What a step of `c` spares: the other calls' phases, and every file but its own temporary ones and
the artifacts. -/
structure Spares (w w' : Cache κ) (c : κ) : Prop where
  next : w.disk.next ≤ w'.disk.next
  fetched : ∀ e ∈ w.fetched, e ∈ w'.fetched
  phases : ∀ c', c' ≠ c → w'.phase c' = w.phase c'
  content : ∀ x < w.disk.next, (w.phase c).handle ≠ some x → w'.disk.content x = w.disk.content x
  entry : ∀ n x, w'.disk.entry n = some x → x < w.disk.next →
    w.disk.entry n = some x
      ∨ ((requests c).key.Safe ∧ ∃ attempt, w.disk.entry (tempOf requests who c attempt) = some x)
  others : ∀ n, ((requests c).key.Safe → ∀ attempt, n ≠ tempOf requests who c attempt) →
    (∀ key, key.Safe → n ≠ artifactName key) → ∀ x, w'.disk.entry n = some x →
    w.disk.entry n = some x
  handle : ∀ x, (w'.phase c).handle = some x → (w.phase c).handle = some x ∨ w.disk.next ≤ x

section

variable {w w' : Cache κ} {c : κ}

/-- What a call has open for writing leads only to its own temporary file. -/
theorem Sound.handle_owner (hsound : Sound validate requests who w) {c : κ} {x : Nat}
    (hhandle : (w.phase c).handle = some x) :
    x < w.disk.next ∧ (requests c).key.Safe
      ∧ ∀ n, w.disk.entry n = some x → ∃ attempt, n = tempOf requests who c attempt := by
  have hknows := hsound.knows c
  cases hphase : w.phase c with
  | writing attempt payload inode offset =>
    rw [hphase] at hknows hhandle
    obtain rfl : inode = x := Option.some.inj hhandle
    obtain ⟨hsafe, -, hnext, -, -, hnames, -⟩ := hknows
    exact ⟨hnext, hsafe, fun n hn => ⟨attempt, hnames n hn⟩⟩
  | _ =>
    rw [hphase] at hhandle
    cases hhandle

/-- What another call knows stays so. -/
theorem Sound.knows_other (hsound : Sound validate requests who w)
    (hdistinct : Function.Injective fun a => (who a).nonce) (hspares : Spares requests who w w' c)
    {c' : κ} (hne : c' ≠ c) : Knows validate requests who w' c' (w'.phase c') := by
  have hknows := hsound.knows c'
  rw [hspares.phases c' hne]
  have hforeign : ∀ attempt, (requests c').key.Safe → ∀ x,
      w.disk.entry (tempOf requests who c' attempt) = some x → (w.phase c).handle ≠ some x := by
    intro attempt hsafe x hx hhandle
    obtain ⟨-, hsafec, hnames⟩ := hsound.handle_owner hhandle
    obtain ⟨attempt', hsame⟩ := hnames _ hx
    exact hne (tempOf_inj hdistinct hsafe hsafec hsame).1
  have hback : ∀ attempt, (requests c').key.Safe → ∀ x,
      w'.disk.entry (tempOf requests who c' attempt) = some x →
      w.disk.entry (tempOf requests who c' attempt) = some x := by
    intro attempt hsafe x hx
    refine hspares.others _ ?_ ?_ x hx
    · exact fun hsafec attempt' h => hne (tempOf_inj hdistinct hsafe hsafec h).1
    · exact fun key hkey => tempOf_ne_artifact hsafe hkey
  cases hphase : w.phase c' with
  | pieces purpose inode contents =>
    rw [hphase] at hknows
    obtain ⟨hsafe, hnext, hgood, hcontents⟩ := hknows
    have hsame : w'.disk.content inode = w.disk.content inode :=
      hspares.content inode hnext (hsound.readers c' purpose inode contents hphase c)
    refine ⟨hsafe, lt_of_lt_of_le hnext hspares.next, ?_, ?_⟩
    · rw [hsame]
      exact hgood.of_grown hspares.fetched
    · rw [hsame]
      exact hcontents
  | writing attempt payload inode offset =>
    have hhandle : (w.phase c').handle = some inode := by
      rw [hphase]
      rfl
    rw [hphase] at hknows
    obtain ⟨hsafe, hgood, hnext, hoffset, hcontent, hnames, hopen⟩ := hknows
    refine ⟨hsafe, hgood.of_grown hspares.fetched, lt_of_lt_of_le hnext hspares.next, hoffset, ?_,
      ?_, fun y hy => hopen y (hback attempt hsafe y hy)⟩
    · rw [hspares.content inode hnext (hsound.handles c' c inode hne hhandle)]
      exact hcontent
    · intro n hn
      rcases hspares.entry n inode hn hnext with h | ⟨hsafec, attempt', h⟩
      · exact hnames n h
      · exact absurd (tempOf_inj hdistinct hsafec hsafe (hnames _ h)).1.symm hne
  | syncing attempt payload | publishing attempt payload tries =>
    rw [hphase] at hknows
    obtain ⟨hsafe, hgood, hwhole⟩ := hknows
    refine ⟨hsafe, hgood.of_grown hspares.fetched, fun y hy => ?_⟩
    have hy := hback attempt hsafe y hy
    rw [hspares.content y (w.disk.bounded hy) (hforeign attempt hsafe y hy)]
    exact hwhole y hy
  | sweeping judged =>
    rw [hphase] at hknows
    cases judged with
    | none => trivial
    | some entry => cases entry <;> exact hknows
  | looking purpose | opening purpose | preparing | acquiring attempt | fetching attempt
  | abandoning attempt e temp =>
    rw [hphase] at hknows
    exact hknows
  | touching attempt fetched begun =>
    rw [hphase] at hknows
    exact ⟨hknows.1, hspares.fetched _ hknows.2⟩
  | confirming attempt payload | openingTemp attempt payload =>
    rw [hphase] at hknows
    exact ⟨hknows.1, hknows.2.of_grown hspares.fetched⟩
  | releasing attempt result =>
    rw [hphase] at hknows
    cases result with
    | error e => exact hknows
    | ok payload => exact ⟨hknows.1, hknows.2.of_grown hspares.fetched⟩
  | done result =>
    rw [hphase] at hknows
    cases result with
    | error e => trivial
    | ok payload => exact Good.of_grown hspares.fetched hknows
  | crashed => trivial

/-- **The invariant, from what the step spares and what `c` knows after it.** -/
theorem Sound.of_spares (hsound : Sound validate requests who w)
    (hdistinct : Function.Injective fun a => (who a).nonce) (hspares : Spares requests who w w' c)
    (hknows : Knows validate requests who w' c (w'.phase c))
    (hartifact : ∀ key, key.Safe → ∀ x, w'.disk.entry (artifactName key) = some x →
      Good validate w' key (w'.disk.content x))
    (hreads : ∀ p x contents, w'.phase c = .pieces p x contents →
      ∀ c', (w.phase c').handle ≠ some x)
    (htemp : ∀ attempt, (requests c).key.Safe →
      w'.disk.entry (tempOf requests who c attempt) ≠ none → (w'.phase c).pastOpening) :
    Sound validate requests who w' where
  knows c' := by
    by_cases hc : c' = c
    · rw [hc]
      exact hknows
    · exact hsound.knows_other hdistinct hspares hc
  artifact := hartifact
  handles a b x hne ha hb := by
    by_cases hac : a = c
    · subst hac
      rw [hspares.phases b (Ne.symm hne)] at hb
      rcases hspares.handle x ha with h | h
      · exact hsound.handles a b x hne h hb
      · exact absurd (hsound.handle_owner hb).1 (not_lt.mpr h)
    · rw [hspares.phases a hac] at ha
      by_cases hbc : b = c
      · subst hbc
        rcases hspares.handle x hb with h | h
        · exact hsound.handles a b x hne ha h
        · exact absurd (hsound.handle_owner ha).1 (not_lt.mpr h)
      · rw [hspares.phases b hbc] at hb
        exact hsound.handles a b x hne ha hb
  readers a p x contents ha b hb := by
    by_cases hac : a = c
    · subst hac
      by_cases hba : b = a
      · rw [hba, ha] at hb
        cases hb
      · rw [hspares.phases b hba] at hb
        exact hreads p x contents ha b hb
    · rw [hspares.phases a hac] at ha
      have hold := hsound.readers a p x contents ha
      by_cases hbc : b = c
      · subst hbc
        rcases hspares.handle x hb with h | h
        · exact hold b h
        · have hknows := hsound.knows a
          rw [ha] at hknows
          exact absurd hknows.2.1 (not_lt.mpr h)
      · rw [hspares.phases b hbc] at hb
        exact hold b hb
  temp a attempt hsafe ha := by
    by_cases hac : a = c
    · subst hac
      exact htemp attempt hsafe ha
    · rw [hspares.phases a hac]
      refine hsound.temp a attempt hsafe ?_
      obtain ⟨x, hx⟩ := Option.ne_none_iff_exists'.mp ha
      rw [hspares.others _ (fun hsafec attempt' h => hac (tempOf_inj hdistinct hsafe hsafec h).1)
        (fun key hkey => tempOf_ne_artifact hsafe hkey) x hx]
      simp

/-! ## The step lemma -/

/-- Only the phase of `c` changes, and its locks. -/
theorem Sound.of_phase (hsound : Sound validate requests who w)
    (hdistinct : Function.Injective fun a => (who a).nonce) (hdisk : w'.disk = w.disk)
    (hfetched : ∀ e ∈ w.fetched, e ∈ w'.fetched) (hphases : ∀ c', c' ≠ c → w'.phase c' = w.phase c')
    (hknows : Knows validate requests who w' c (w'.phase c))
    (hhandle : (w'.phase c).handle = none)
    (hreads : ∀ p x contents, w'.phase c = .pieces p x contents →
      ∀ c', (w.phase c').handle ≠ some x)
    (hpast : (w.phase c).pastOpening → (w'.phase c).pastOpening) : Sound validate requests who w' := by
  refine hsound.of_spares hdistinct ?_ hknows ?_ hreads ?_
  · exact
      { next := by rw [hdisk]
        fetched := hfetched
        phases := hphases
        content := fun x _ _ => by rw [hdisk]
        entry := fun n x h _ => .inl (by rwa [← hdisk])
        others := fun n _ _ x h => by rwa [← hdisk]
        handle := fun x h => by
          rw [hhandle] at h
          cases h }
  · intro key hkey x hx
    rw [hdisk] at hx ⊢
    exact (hsound.artifact key hkey x hx).of_grown hfetched
  · intro attempt hsafe h
    rw [hdisk] at h
    exact hpast (hsound.temp c attempt hsafe h)

/-- What a phase knows is about the directory and what was fetched alone. -/
theorem knows_congr (hdisk : w'.disk = w.disk) (hfetched : w'.fetched = w.fetched)
    (phase : CallPhase κ) :
    Knows validate requests who w' c phase ↔ Knows validate requests who w c phase := by
  unfold Knows Good
  rw [hdisk, hfetched]

theorem afterTouch_knows (hsafe : (requests c).key.Safe) {fetched : Result Bytes}
    (attempt : Nat) (hfetched : ((requests c).key, fetched) ∈ w.fetched) :
    Knows validate requests who w c (afterTouch validate attempt fetched)
      ∧ (afterTouch (κ := κ) validate attempt fetched).handle = none
      ∧ ∀ p x contents, afterTouch (κ := κ) validate attempt fetched ≠ .pieces p x contents := by
  cases fetched with
  | error e => exact ⟨hsafe, rfl, by simp [afterTouch]⟩
  | ok payload =>
    unfold afterTouch
    dsimp only
    split
    · exact ⟨hsafe, rfl, by simp⟩
    · rename_i haccepts
      exact ⟨⟨hsafe, hfetched, by simpa using haccepts⟩, rfl, by simp⟩

theorem start_sound (now : Int) : Sound validate requests who (Cache.start now : Cache κ) where
  knows _ := trivial
  artifact _ _ _ h := by cases h
  handles _ _ _ _ h := by cases h
  readers _ _ _ _ h := by cases h
  temp _ _ _ h := absurd rfl h

variable [DecidableEq κ]

@[simp] theorem goTo_phase_self (w : Cache κ) (c : κ) (next : CallPhase κ) :
    (w.goTo c next).phase c = next := by
  show Function.update w.phase c next c = next
  rw [Function.update_self]

theorem goTo_phase_of_ne (w : Cache κ) {c c' : κ} (next : CallPhase κ) (h : c' ≠ c) :
    (w.goTo c next).phase c' = w.phase c' := by
  show Function.update w.phase c next c' = w.phase c'
  rw [Function.update_of_ne h]

/-- `c` turns to a phase in which it writes to no file. -/
theorem Sound.goTo (hsound : Sound validate requests who w)
    (hdistinct : Function.Injective fun a => (who a).nonce) (w' : Cache κ) (next : CallPhase κ)
    (hdisk : w'.disk = w.disk) (hfetched : w'.fetched = w.fetched) (hphase : w'.phase = w.phase)
    (hknows : Knows validate requests who w c next) (hhandle : next.handle = none)
    (hreads : ∀ p x contents, next = .pieces p x contents → ∀ c', (w.phase c').handle ≠ some x)
    (hpast : (w.phase c).pastOpening → next.pastOpening) :
    Sound validate requests who (w'.goTo c next) := by
  refine hsound.of_phase (c := c) hdistinct hdisk ?_ ?_ ?_ ?_ ?_ ?_
  · intro e he
    show e ∈ w'.fetched
    rwa [hfetched]
  · intro c' hc
    rw [goTo_phase_of_ne _ _ hc, hphase]
  · rw [goTo_phase_self]
    exact (knows_congr hdisk hfetched next).mpr hknows
  · rw [goTo_phase_self]
    exact hhandle
  · rw [goTo_phase_self]
    exact hreads
  · rw [goTo_phase_self]
    exact hpast

/-- A file is removed. -/
theorem Sound.removes (hsound : Sound validate requests who w)
    (hdistinct : Function.Injective fun a => (who a).nonce) (name : Bytes) (next : CallPhase κ)
    (hknows : Knows validate requests who { w with disk := w.disk.remove name } c next)
    (hhandle : next.handle = none) (hreads : ∀ p x contents, next ≠ .pieces p x contents)
    (hpast : (w.phase c).pastOpening → next.pastOpening) :
    Sound validate requests who ({ w with disk := w.disk.remove name }.goTo c next) := by
  have hfewer : ∀ n x, (w.disk.remove name).entry n = some x → w.disk.entry n = some x := by
    intro n x h
    by_cases hn : n = name
    · rw [hn, Disk.entry_remove_self] at h
      cases h
    · rwa [Disk.entry_remove_of_ne hn] at h
  refine hsound.of_spares (c := c) hdistinct ?_ ?_ ?_ ?_ ?_
  · exact
      { next := le_refl _
        fetched := fun _ h => h
        phases := fun c' hc => goTo_phase_of_ne _ _ hc
        content := fun _ _ _ => rfl
        entry := fun n x h _ => .inl (hfewer n x h)
        others := fun n _ _ x h => hfewer n x h
        handle := fun x h => by
          rw [goTo_phase_self, hhandle] at h
          cases h }
  · rw [goTo_phase_self]
    exact hknows
  · intro key hkey x hx
    exact hsound.artifact key hkey x (hfewer _ x hx)
  · intro p x contents h
    rw [goTo_phase_self] at h
    exact absurd h (hreads p x contents)
  · intro attempt hsafe h
    rw [goTo_phase_self]
    obtain ⟨x, hx⟩ := Option.ne_none_iff_exists'.mp h
    refine hpast (hsound.temp c attempt hsafe ?_)
    rw [hfewer _ x hx]
    simp

/-- The temporary file is made: a name and an inode of its own. -/
theorem Sound.opensTemp (hsound : Sound validate requests who w)
    (hdistinct : Function.Injective fun a => (who a).nonce) {attempt : Nat} {payload : Bytes}
    {mtime : Nat → Int} (hphase : w.phase c = .openingTemp attempt payload) :
    Sound validate requests who
      ({ w with
        disk := (w.disk.openTruncate (tempOf requests who c attempt)).1
        mtime := mtime }.goTo c
        (.writing attempt payload (w.disk.openTruncate (tempOf requests who c attempt)).2 0)) := by
  have hknows := hsound.knows c
  rw [hphase] at hknows
  obtain ⟨hsafe, hgood⟩ := hknows
  have hnone : w.disk.entry (tempOf requests who c attempt) = none := by
    by_contra h
    have hpast := hsound.temp c attempt hsafe h
    rw [hphase] at hpast
    cases hpast
  have hinode := Disk.openTruncate_inode hnone
  have hentry : ∀ n x, n ≠ tempOf requests who c attempt →
      (w.disk.openTruncate (tempOf requests who c attempt)).1.entry n = some x →
      w.disk.entry n = some x := by
    intro n x hn h
    rwa [Disk.openTruncate_entry_of_ne hn] at h
  refine hsound.of_spares (c := c) hdistinct ?_ ?_ ?_ ?_ ?_
  · exact
      { next := by
          show w.disk.next ≤ (w.disk.openTruncate (tempOf requests who c attempt)).1.next
          rw [Disk.openTruncate_next hnone]
          omega
        fetched := fun _ h => h
        phases := fun c' hc => goTo_phase_of_ne _ _ hc
        content := fun x hx _ => Disk.openTruncate_content_of_lt hnone hx
        entry := fun n x h hx => by
          by_cases hn : n = tempOf requests who c attempt
          · subst hn
            have hnew := @Disk.openTruncate_entry_self _ _ w.disk (tempOf requests who c attempt)
            have hsame : w.disk.next = x := by
              rw [← hinode]
              exact Option.some.inj (hnew.symm.trans h)
            omega
          · exact .inl (hentry n x hn h)
        others := fun n hown _ x h => hentry n x (hown hsafe attempt) h
        handle := fun x h => by
          rw [goTo_phase_self] at h
          obtain rfl := Option.some.inj h
          exact .inr hinode.ge }
  · rw [goTo_phase_self]
    refine ⟨hsafe, hgood, ?_, Nat.zero_le _, ?_, ?_, ?_⟩
    · show (w.disk.openTruncate _).2 < (w.disk.openTruncate _).1.next
      rw [hinode, Disk.openTruncate_next hnone]
      omega
    · exact Disk.openTruncate_content
    · intro n hn
      by_contra hne
      have hold := hentry n _ hne hn
      rw [hinode] at hold
      exact absurd (w.disk.bounded hold) (lt_irrefl _)
    · intro y hy
      exact Option.some.inj (hy.symm.trans Disk.openTruncate_entry_self)
  · intro key hkey x hx
    have hold : w.disk.entry (artifactName key) = some x :=
      hentry _ x (tempOf_ne_artifact hsafe hkey).symm hx
    show Good validate w key ((w.disk.openTruncate (tempOf requests who c attempt)).1.content x)
    rw [Disk.openTruncate_content_of_lt hnone (w.disk.bounded hold)]
    exact hsound.artifact key hkey x hold
  · intro p x contents h
    rw [goTo_phase_self] at h
    cases h
  · intro attempt' _ _
    rw [goTo_phase_self]
    rfl

/-- A piece of the payload lands in the temporary file. -/
theorem Sound.writes (hsound : Sound validate requests who w)
    (hdistinct : Function.Injective fun a => (who a).nonce) {attempt inode offset count : Nat}
    {payload : Bytes} {mtime : Nat → Int}
    (hphase : w.phase c = .writing attempt payload inode offset) :
    Sound validate requests who
      ({ w with
        disk := w.disk.write inode offset ((payload.drop offset).take count)
        mtime := mtime }.goTo c
        (.writing attempt payload inode
          (offset + ((payload.drop offset).take count).length))) := by
  have hknows := hsound.knows c
  rw [hphase] at hknows
  obtain ⟨hsafe, hgood, hnext, hoffset, hcontent, hnames, hopen⟩ := hknows
  refine hsound.of_spares (c := c) hdistinct ?_ ?_ ?_ ?_ ?_
  · exact
      { next := le_refl _
        fetched := fun _ h => h
        phases := fun c' hc => goTo_phase_of_ne _ _ hc
        content := fun x _ hx => by
          refine Disk.content_write_of_ne ?_
          rintro rfl
          exact hx (by rw [hphase]; rfl)
        entry := fun n x h _ => .inl h
        others := fun n _ _ x h => h
        handle := fun x h => by
          rw [goTo_phase_self] at h
          rw [hphase]
          exact .inl h }
  · rw [goTo_phase_self]
    refine ⟨hsafe, hgood, hnext, ?_, ?_, hnames, hopen⟩
    · rw [List.length_take, List.length_drop]
      omega
    · show (w.disk.write inode offset _).content inode = _
      rw [Disk.content_write_self, hcontent, overwrite_take hoffset]
      rw [List.length_take, List.length_drop]
      rcases le_total count (payload.length - offset) with h | h
      · rw [Nat.min_eq_left h]
      · rw [Nat.min_eq_right h, List.take_of_length_le (by omega), List.take_of_length_le (by omega)]
  · intro key hkey x hx
    have hold : w.disk.entry (artifactName key) = some x := hx
    show Good validate w key ((w.disk.write inode offset _).content x)
    rw [Disk.content_write_of_ne]
    · exact hsound.artifact key hkey x hold
    · rintro rfl
      exact tempOf_ne_artifact hsafe hkey (hnames _ hold).symm
  · intro p x contents h
    rw [goTo_phase_self] at h
    cases h
  · intro attempt' _ _
    rw [goTo_phase_self]
    rfl

/-- **The publish**: the whole payload at once. -/
theorem Sound.publishes (hsound : Sound validate requests who w)
    (hdistinct : Function.Injective fun a => (who a).nonce) {attempt tries inode : Nat}
    {payload : Bytes} (hphase : w.phase c = .publishing attempt payload tries)
    (hentry : w.disk.entry (tempOf requests who c attempt) = some inode) :
    Sound validate requests who
      ({ w with
        disk := w.disk.rename (tempOf requests who c attempt)
          (artifactName (requests c).key) }.goTo c (.releasing attempt (.ok payload))) := by
  have hknows := hsound.knows c
  rw [hphase] at hknows
  obtain ⟨hsafe, hgood, hwhole⟩ := hknows
  have hne : tempOf requests who c attempt ≠ artifactName (requests c).key :=
    tempOf_ne_artifact hsafe hsafe
  have hcases : ∀ n x, (w.disk.rename (tempOf requests who c attempt)
      (artifactName (requests c).key)).entry n = some x →
      (n = artifactName (requests c).key ∧ x = inode)
        ∨ (n ≠ artifactName (requests c).key ∧ w.disk.entry n = some x) := by
    intro n x h
    by_cases hdst : n = artifactName (requests c).key
    · rw [hdst, Disk.entry_rename_dst hentry] at h
      exact .inl ⟨hdst, (Option.some.inj h).symm⟩
    · by_cases hsrc : n = tempOf requests who c attempt
      · rw [hsrc, Disk.entry_rename_src hentry hne] at h
        cases h
      · rw [Disk.entry_rename_of_ne hentry hdst hsrc] at h
        exact .inr ⟨hdst, h⟩
  refine hsound.of_spares (c := c) hdistinct ?_ ?_ ?_ ?_ ?_
  · exact
      { next := by
          show w.disk.next ≤ (w.disk.rename _ _).next
          rw [Disk.next_rename]
        fetched := fun _ h => h
        phases := fun c' hc => goTo_phase_of_ne _ _ hc
        content := fun x _ _ => by
          show (w.disk.rename _ _).content x = _
          rw [Disk.content_rename hentry]
        entry := fun n x h _ => by
          rcases hcases n x h with ⟨-, rfl⟩ | ⟨-, hold⟩
          · exact .inr ⟨hsafe, attempt, hentry⟩
          · exact .inl hold
        others := fun n _ hart x h => by
          rcases hcases n x h with ⟨hn, -⟩ | ⟨-, hold⟩
          · exact absurd hn (hart _ hsafe)
          · exact hold
        handle := fun x h => by
          rw [goTo_phase_self] at h
          cases h }
  · rw [goTo_phase_self]
    exact ⟨hsafe, hgood⟩
  · intro key hkey x hx
    show Good validate w key ((w.disk.rename _ _).content x)
    rw [Disk.content_rename hentry]
    rcases hcases _ x hx with ⟨hn, rfl⟩ | ⟨-, hold⟩
    · rw [artifactName_inj hkey hsafe hn, hwhole x hentry]
      exact hgood
    · exact hsound.artifact key hkey x hold
  · intro p x contents h
    rw [goTo_phase_self] at h
    cases h
  · intro attempt' _ _
    rw [goTo_phase_self]
    rfl

variable {config : SharedRefdataCacheConfig}

theorem Sound.finishes (hsound : Sound validate requests who w)
    (hdistinct : Function.Injective fun a => (who a).nonce) {purpose : Purpose}
    {contents : Option Bytes} (hsafe : (requests c).key.Safe)
    (hgood : ∀ payload ∈ contents, Good validate w (requests c).key payload)
    (hpast : (w.phase c).pastOpening = false) :
    Sound validate requests who (finishRead config validate requests w c purpose contents) := by
  have hplain : ∀ next : CallPhase κ, Knows validate requests who w c next → next.handle = none →
      (∀ p x contents, next ≠ .pieces p x contents) →
      Sound validate requests who (w.goTo c next) := by
    intro next hknows hhandle hpieces
    refine hsound.goTo hdistinct w _ rfl rfl rfl hknows hhandle ?_ ?_
    · exact fun p x contents h => absurd h (hpieces p x contents)
    · simp [hpast]
  unfold finishRead
  dsimp only
  split
  · rename_i payload hhit
    exact hplain _ (hgood _ (Option.filter_eq_some_iff.mp hhit).1) rfl (by simp)
  · rename_i payload hhit
    exact hplain _ (hgood _ (Option.filter_eq_some_iff.mp hhit).1) rfl (by simp)
  · rename_i payload hhit
    exact hplain _ ⟨hsafe, hgood _ (Option.filter_eq_some_iff.mp hhit).1⟩ rfl (by simp)
  · exact hplain _ hsafe rfl (by simp)
  · rename_i attempt hmiss
    exact hsound.goTo hdistinct { w with called := (requests c).key :: w.called }
      (.fetching attempt) rfl rfl rfl hsafe rfl (by simp) (by simp [hpast])
  · split
    · exact hplain _ hsafe rfl (by simp)
    · exact hplain _ trivial rfl (by simp)

/-- **One step of a call.** -/
theorem advance_sound (hsound : Sound validate requests who w)
    (hdistinct : Function.Injective fun a => (who a).nonce) (c : κ) (ok : Bool) (count : Nat) :
    Sound validate requests who (advance config validate requests who w c ok count) := by
  have hknows := hsound.knows c
  -- a turn of the phase alone, also after a step of the lock
  have hturn : ∀ (w₁ : Cache κ) (next : CallPhase κ), w₁.disk = w.disk → w₁.fetched = w.fetched →
      w₁.phase = w.phase → Knows validate requests who w c next → next.handle = none →
      (∀ p x contents, next ≠ .pieces p x contents) →
      ((w.phase c).pastOpening → next.pastOpening) →
      Sound validate requests who (w₁.goTo c next) := by
    intro w₁ next hdisk hfetched hphase hknows hhandle hpieces hpast
    exact hsound.goTo hdistinct w₁ next hdisk hfetched hphase hknows hhandle
      (fun p x contents h => absurd h (hpieces p x contents)) hpast
  -- and one of the lock alone
  have hlock : ∀ e, Sound validate requests who (w.lockStep config who (requests c).key e) := by
    intro e
    exact
      { knows := fun c' => (knows_congr rfl rfl _).mpr (hsound.knows c')
        artifact := hsound.artifact
        handles := hsound.handles
        readers := hsound.readers
        temp := hsound.temp }
  unfold advance
  dsimp only
  cases hphase : w.phase c with
  | sweeping judged =>
    cases judged with
    | none => exact hsound
    | some entry =>
      cases ok with
      | false => exact hturn _ _ rfl rfl rfl trivial rfl (by simp) (by simp [hphase, CallPhase.pastOpening])
      | true =>
        cases entry with
        | file name =>
          refine hsound.removes hdistinct name (.sweeping none) trivial rfl (by simp) ?_
          simp [hphase, CallPhase.pastOpening]
        | claim key acquisition =>
          refine hturn (w.removeEntry (.claim key acquisition)) _ rfl rfl rfl trivial rfl
            (by simp) ?_
          simp [hphase, CallPhase.pastOpening]
  | looking purpose =>
    rw [hphase] at hknows
    dsimp only
    split
    · exact hturn _ _ rfl rfl rfl hknows rfl (by simp) (by simp [hphase, CallPhase.pastOpening])
    · exact hsound.finishes hdistinct hknows (by simp) (by rw [hphase]; rfl)
  | opening purpose =>
    rw [hphase] at hknows
    dsimp only
    split
    · rename_i inode hentry
      refine hsound.goTo hdistinct w _ rfl rfl rfl ?_ rfl ?_ (by simp [hphase, CallPhase.pastOpening])
      · refine ⟨hknows, w.disk.bounded hentry, hsound.artifact _ hknows inode hentry, ?_⟩
        simp
      · rintro p x contents hpieces c' hhandle
        obtain ⟨-, rfl, -⟩ := CallPhase.pieces.inj hpieces
        -- what is open for writing is nobody's artifact
        obtain ⟨-, hsafe', hnames⟩ := hsound.handle_owner hhandle
        obtain ⟨attempt, hname⟩ := hnames _ hentry
        exact tempOf_ne_artifact hsafe' hknows hname.symm
    · exact hsound.finishes hdistinct hknows (by simp) (by rw [hphase]; rfl)
  | pieces purpose inode contents =>
    rw [hphase] at hknows
    obtain ⟨hsafe, hnext, hgood, hcontents⟩ := hknows
    dsimp only
    split
    · refine hsound.goTo hdistinct w _ rfl rfl rfl ⟨hsafe, hnext, hgood, ?_⟩ rfl ?_
        (by simp [hphase, CallPhase.pastOpening])
      · rw [List.length_append]
        conv_lhs => rw [hcontents]
        rw [List.length_take_of_le (by rw [hcontents, List.length_take]; omega), ← List.take_add]
        have hle : contents.length ≤ (w.disk.content inode).length := by
          rw [hcontents, List.length_take]
          omega
        rw [List.length_take, List.length_drop]
        rcases le_total (count + 1) ((w.disk.content inode).length - contents.length) with h | h
        · rw [Nat.min_eq_left h]
        · rw [Nat.min_eq_right h, List.take_of_length_le (by omega),
            List.take_of_length_le (by omega)]
      · rintro p x contents' hpieces
        obtain ⟨-, rfl, -⟩ := CallPhase.pieces.inj hpieces
        exact hsound.readers c purpose inode contents hphase
    · rename_i hend
      refine hsound.finishes hdistinct hsafe ?_ (by rw [hphase]; rfl)
      rintro payload ⟨⟩
      exact hsound.good_of_pieces hphase (by simpa using hend)
  | preparing =>
    rw [hphase] at hknows
    cases ok with
    | true => exact hturn _ _ rfl rfl rfl hknows rfl (by simp) (by simp [hphase, CallPhase.pastOpening])
    | false => exact hturn _ _ rfl rfl rfl trivial rfl (by simp) (by simp [hphase, CallPhase.pastOpening])
  | acquiring attempt =>
    rw [hphase] at hknows
    dsimp only
    split
    · exact hturn _ _ rfl rfl rfl hknows rfl (by simp) (by simp [hphase, CallPhase.pastOpening])
    · exact hturn _ _ rfl rfl rfl hknows rfl (by simp) (by simp [hphase, CallPhase.pastOpening])
    · exact hlock _
  | touching attempt fetched begun =>
    rw [hphase] at hknows
    obtain ⟨hafter, hhandle, hpieces⟩ :=
      afterTouch_knows hknows.1 attempt hknows.2
    cases begun with
    | false =>
      dsimp only
      split
      · exact hturn _ _ rfl rfl rfl hknows rfl (by simp) (by simp [hphase, CallPhase.pastOpening])
      · exact hturn _ _ rfl rfl rfl hafter hhandle hpieces (by simp [hphase, CallPhase.pastOpening])
    | true => exact hturn _ _ rfl rfl rfl hafter hhandle hpieces (by simp [hphase, CallPhase.pastOpening])
  | confirming attempt payload =>
    rw [hphase] at hknows
    dsimp only
    split
    · exact hturn _ _ rfl rfl rfl hknows rfl (by simp) (by simp [hphase, CallPhase.pastOpening])
    · exact hturn _ _ rfl rfl rfl hknows.1 rfl (by simp) (by simp [hphase, CallPhase.pastOpening])
  | openingTemp attempt payload =>
    rw [hphase] at hknows
    cases ok with
    | true => exact hsound.opensTemp hdistinct hphase
    | false => exact hturn _ _ rfl rfl rfl hknows.1 rfl (by simp) (by simp [CallPhase.pastOpening])
  | writing attempt payload inode offset =>
    rw [hphase] at hknows
    obtain ⟨hsafe, hgood, -, hoffset, hcontent, -, hopen⟩ := hknows
    dsimp only
    split
    · exact hturn _ _ rfl rfl rfl hsafe rfl (by simp) (by simp [CallPhase.pastOpening])
    · split
      · exact hsound.writes hdistinct hphase
      · rename_i hend
        refine hturn _ _ rfl rfl rfl ⟨hsafe, hgood, fun y hy => ?_⟩ rfl (by simp)
          (by simp [CallPhase.pastOpening])
        have hlength : payload.length ≤ offset := by simpa using hend
        rw [hopen y hy, hcontent, List.take_of_length_le hlength]
  | syncing attempt payload =>
    rw [hphase] at hknows
    cases ok with
    | true => exact hturn _ _ rfl rfl rfl hknows rfl (by simp) (by simp [CallPhase.pastOpening])
    | false => exact hturn _ _ rfl rfl rfl hknows.1 rfl (by simp) (by simp [CallPhase.pastOpening])
  | publishing attempt payload tries =>
    rw [hphase] at hknows
    dsimp only
    split
    · rename_i hpublished
      simp only [Bool.and_eq_true] at hpublished
      obtain ⟨inode, hentry⟩ := Option.isSome_iff_exists.mp hpublished.2
      exact hsound.publishes hdistinct hphase hentry
    · split
      · exact hturn _ _ rfl rfl rfl hknows rfl (by simp) (by simp [CallPhase.pastOpening])
      · exact hturn _ _ rfl rfl rfl hknows.1 rfl (by simp) (by simp [CallPhase.pastOpening])
  | abandoning attempt e temp =>
    rw [hphase] at hknows
    dsimp only
    split
    · exact hsound.removes hdistinct _ (.releasing attempt (.error e)) hknows rfl (by simp)
        (by simp [CallPhase.pastOpening])
    · exact hturn _ _ rfl rfl rfl hknows rfl (by simp) (by simp [CallPhase.pastOpening])
  | releasing attempt result =>
    rw [hphase] at hknows
    dsimp only
    split
    · exact hlock _
    · exact hlock _
    · refine hturn _ _ rfl rfl rfl ?_ rfl (by simp) (by simp [CallPhase.pastOpening])
      cases result with
      | error e => trivial
      | ok payload => exact hknows.2
  | fetching attempt | done result | crashed => exact hsound

/-- **One step keeps the invariant.** -/
theorem step_sound (hsound : Sound validate requests who w)
    (hdistinct : Function.Injective fun a => (who a).nonce) (e : Event κ) :
    Sound validate requests who (step config validate requests who w e) := by
  cases e with
  | tick elapsed =>
    exact
      { knows := fun c => (knows_congr rfl rfl _).mpr (hsound.knows c)
        artifact := hsound.artifact
        handles := hsound.handles
        readers := hsound.readers
        temp := hsound.temp }
  | sweep c entry =>
    simp only [step]
    split
    · rename_i hphase
      split
      · rename_i hdebris
        refine hsound.goTo hdistinct w _ rfl rfl rfl ?_ rfl (by simp) (by simp [hphase, CallPhase.pastOpening])
        cases entry with
        | file name =>
          simp only [isOldDebris, Bool.and_eq_true, decide_eq_true_eq] at hdebris
          exact hdebris.1
        | claim key acquisition => trivial
      · exact hsound
    · exact hsound
  | call c =>
    simp only [step]
    split
    · rename_i hphase
      split
      · exact hsound.goTo hdistinct w _ rfl rfl rfl trivial rfl (by simp)
          (by simp [hphase, CallPhase.pastOpening])
      · rename_i hadmitted
        exact hsound.goTo hdistinct w _ rfl rfl rfl (safe_of_admitted hadmitted) rfl (by simp)
          (by simp [hphase, CallPhase.pastOpening])
    · exact hsound
  | step c ok count => exact advance_sound hsound hdistinct c ok count
  | fetch c result =>
    simp only [step]
    split
    · rename_i attempt hphase
      have hknows := hsound.knows c
      rw [hphase] at hknows
      refine hsound.of_phase (c := c) hdistinct rfl ?_ ?_ ?_ ?_ ?_ ?_
      · exact fun e he => List.mem_cons_of_mem _ he
      · exact fun c' hc => goTo_phase_of_ne _ _ hc
      · rw [goTo_phase_self]
        exact ⟨hknows, List.mem_cons_self⟩
      · rw [goTo_phase_self]
        rfl
      · rw [goTo_phase_self]
        simp
      · simp [hphase, CallPhase.pastOpening]
    · exact hsound
  | crash c =>
    simp only [step]
    split
    · exact hsound
    · exact hsound.goTo hdistinct w _ rfl rfl rfl trivial rfl (by simp) (by simp [CallPhase.pastOpening])

/-- **Every state of a run.** -/
theorem run_sound (hdistinct : Function.Injective fun a => (who a).nonce) (now : Int)
    (events : List (Event κ)) :
    Sound validate requests who (run (step config validate requests who) (Cache.start now) events) :=
  run_keeps (I := Sound validate requests who) (P := fun _ _ => True) (fun _ e h _ => step_sound h hdistinct e) (start_sound now)
    fun _ _ _ _ => trivial

end

end

end BrokerExec.Accounts
