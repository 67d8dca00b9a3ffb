import BrokerExec.Domain.Types
import BrokerExec.Lib.Disk
import BrokerExec.Lib.Run
import Mathlib.Data.Fintype.Basic

/-!
# The token store (`secrets/token_store.cpp`)

Any number of processes save a token under one account and name. A save writes its blob to a
temporary sibling, syncs it and renames it over the token file, one file-system step at a time.
The temporary name carries the process' own counter only, so two processes can share it.

* **`token_publish_atomic`** — while no two saves use one temporary name at once, the token file is absent
  or holds the whole blob of a save.
* **`shared_temp_tears`** — two processes' first saves share theirs.
-/

namespace BrokerExec.Secrets

open BrokerExec.Errors (Error makeError)

/-! ## One call of `save` -/

/-- What a save is handed and what the outside answers it. `serial` is what its process' counter
gives the write. -/
structure SaveCall where
  serial : Nat
  key : Result Bytes
  encrypted : Result Bytes
  dirCreated : Bool
  dirRestricted : Bool

def kKeyBytes : Nat := 32

def isSafeComponent (component : Bytes) : Bool :=
  component ≠ [] && component ≠ ascii "." && component ≠ ascii ".."
    && component.all fun c => c ≠ 0x2F && c ≠ 0x5C && c ≠ 0

def resolveKey (key : Result Bytes) : Result Bytes :=
  match key with
  | .error e => .error e
  | .ok key =>
    if key.length ≠ kKeyBytes then
      .error (makeError .validation
        (ascii "token store: per-account encryption key must be 32 bytes (256-bit)"))
    else .ok key

/-- `save`, up to `write_durably`: the blob to publish. -/
def prepare (account name : Bytes) (call : SaveCall) : Result Bytes :=
  if !isSafeComponent account || !isSafeComponent name then
    .error (makeError .validation
      (ascii "token store: account/name must be a single safe path component"))
  else
    match resolveKey call.key with
    | .error e => .error e
    | .ok _ =>
      match call.encrypted with
      | .error e => .error e
      | .ok blob =>
        if !call.dirCreated then
          .error (makeError .internal (ascii "token store: failed to create account directory"))
        else if !call.dirRestricted then
          .error (makeError .internal
            (ascii "token store: failed to restrict account directory permissions"))
        else .ok blob

/-- `<name>.enc`, in the account's directory. -/
def target (name : Bytes) : Bytes := name ++ ascii ".enc"

/-- `tmp` of `write_durably`. -/
def tempName (name : Bytes) (serial : Nat) : Bytes :=
  target name ++ ascii ".tmp-" ++ decimalNat serial

theorem tempName_ne_target (name : Bytes) (serial : Nat) : tempName name serial ≠ target name := by
  intro h
  have hlength := congrArg List.length h
  simp only [tempName, List.length_append] at hlength
  have hmark : (ascii ".tmp-").length = 5 := by decide
  omega

theorem tempName_inj {name : Bytes} {serial serial' : Nat}
    (h : tempName name serial = tempName name serial') : serial = serial' := by
  have hdigits := List.append_cancel_left h
  rw [← digitsValue_decimalNat serial, hdigits, digitsValue_decimalNat]

/-! ## Its file-system steps -/

inductive Phase where
  | idle
  | opening
  | writing (inode offset : Nat)
  | syncing
  | closing (durable : Bool)
  | tightening
  | publishing
  | dirSyncing
  /-- About to remove the temporary file and answer the error. -/
  | discarding (e : Error)
  | returned (result : Result Unit)
  | crashed
  deriving DecidableEq

/-- How a step fares; of a write, how many bytes of the rest it lands. -/
structure Io where
  ok : Bool
  landed : Nat

inductive Event (ι : Type) where
  | step (i : ι) (io : Io)
  | crash (i : ι)

/-- The saves' calls are fixed; what moves is the directory and each save's place in its steps. -/
structure World (ι : Type) where
  disk : Disk Bytes
  phase : ι → Phase

def failure (message : String) : Error := makeError .internal (ascii message)

section

variable {ι : Type} [DecidableEq ι] (account name : Bytes) (calls : ι → SaveCall)

def World.goTo (w : World ι) (i : ι) (phase : Phase) : World ι :=
  { w with phase := Function.update w.phase i phase }

/-- `fwrite` and `fflush`: the bytes reach the file in pieces. -/
def writePiece (blob : Bytes) (inode offset : Nat) (io : Io) (i : ι) (w : World ι) : World ι :=
  let piece := (blob.drop offset).take io.landed
  let offset' := offset + piece.length
  let next : Phase :=
    if !io.ok then .closing false
    else if offset' < blob.length then .writing inode offset' else .syncing
  { w with disk := w.disk.write inode offset piece }.goTo i next

/-- One step of a save. -/
def advance (w : World ι) (i : ι) (io : Io) : World ι :=
  let temp := tempName name (calls i).serial
  match w.phase i with
  | .idle =>
    match prepare account name (calls i) with
    | .error e => w.goTo i (.returned (.error e))
    | .ok _ => w.goTo i .opening
  | .opening =>
    if !io.ok then
      w.goTo i (.returned (.error (failure "token store: failed to open temp token file")))
    else
      let (disk, inode) := w.disk.openTruncate temp
      { w with disk := disk }.goTo i (.writing inode 0)
  | .writing inode offset =>
    match prepare account name (calls i) with
    | .error _ => w
    | .ok blob => writePiece blob inode offset io i w
  | .syncing => w.goTo i (.closing io.ok)
  | .closing durable =>
    if durable && io.ok then w.goTo i .tightening
    else
      w.goTo i (.discarding (failure "token store: failed to durably write the token file"))
  | .tightening =>
    if io.ok then w.goTo i .publishing
    else
      w.goTo i (.discarding (failure "token store: failed to restrict token file permissions"))
  | .publishing =>
    if io.ok && (w.disk.entry temp).isSome then
      { w with disk := w.disk.rename temp (target name) }.goTo i .dirSyncing
    else w.goTo i (.discarding (failure "token store: failed to publish token file"))
  | .dirSyncing =>
    if io.ok then w.goTo i (.returned (.ok ()))
    else
      w.goTo i (.returned (.error
        (failure "token store: failed to durably publish the token file")))
  | .discarding e =>
    { w with disk := if io.ok then w.disk.remove temp else w.disk }.goTo i (.returned (.error e))
  | .returned _ | .crashed => w

def step (w : World ι) : Event ι → World ι
  | .step i io => advance account name calls w i io
  | .crash i =>
    match w.phase i with
    | .returned _ => w
    | _ => w.goTo i .crashed

end

/-! ## Saves that share no temporary name -/

/-- Between the open of the temporary file and its rename or removal. -/
def Phase.usesTemp : Phase → Bool
  | .writing .. | .syncing | .closing _ | .tightening | .publishing | .discarding _ => true
  | .idle | .opening | .dirSyncing | .returned _ | .crashed => false

section

variable {ι : Type} [DecidableEq ι] (account name : Bytes) (calls : ι → SaveCall)

/-- The open of a temporary file meets no other save that is using one of its name. -/
def OpensAlone (w : World ι) : Event ι → Prop
  | .step i _ =>
    w.phase i = .opening →
      ∀ j, j ≠ i → (calls j).serial = (calls i).serial → (w.phase j).usesTemp = false
  | .crash _ => True

instance [Fintype ι] (w : World ι) : (e : Event ι) → Decidable (OpensAlone calls w e)
  | .step i _ => inferInstanceAs (Decidable (w.phase i = .opening →
      ∀ j, j ≠ i → (calls j).serial = (calls i).serial → (w.phase j).usesTemp = false))
  | .crash _ => inferInstanceAs (Decidable True)

/-- The token file is absent or holds the whole blob of a save. -/
def TargetWhole (w : World ι) : Prop :=
  ∀ bytes, w.disk.read (target name) = some bytes →
    ∃ i, prepare account name (calls i) = .ok bytes

/-- What a save has on disk at its place. -/
def Own (w : World ι) (i : ι) : Prop :=
  let temp := tempName name (calls i).serial
  match w.phase i with
  | .opening => ∃ blob, prepare account name (calls i) = .ok blob
  | .writing inode offset =>
    ∃ blob, prepare account name (calls i) = .ok blob ∧ offset ≤ blob.length
      ∧ w.disk.entry temp = some inode ∧ w.disk.read temp = some (blob.take offset)
  | .syncing | .closing true | .tightening | .publishing =>
    ∃ blob, prepare account name (calls i) = .ok blob ∧ w.disk.read temp = some blob
  | .dirSyncing | .returned (.ok ()) => (w.disk.entry (target name)).isSome = true
  | _ => True

/-- **The invariant.** -/
structure Inv (w : World ι) : Prop where
  whole : TargetWhole account name calls w
  apart : ∀ i j, i ≠ j → (calls i).serial = (calls j).serial → (w.phase i).usesTemp = true →
    (w.phase j).usesTemp = false
  own : ∀ i, Own account name calls w i

variable {account name calls} {w : World ι} {i j : ι}

/-! ### One step -/

@[simp] theorem goTo_disk (phase : Phase) : (w.goTo i phase).disk = w.disk := rfl

theorem goTo_phase_self (phase : Phase) : (w.goTo i phase).phase i = phase :=
  Function.update_self ..

theorem goTo_phase_of_ne (phase : Phase) (hj : j ≠ i) : (w.goTo i phase).phase j = w.phase j :=
  Function.update_of_ne hj ..

/-- A save moves only itself. -/
theorem advance_phase_of_ne (io : Io) (hj : j ≠ i) :
    (advance account name calls w i io).phase j = w.phase j := by
  unfold advance
  dsimp only
  split <;> (try split) <;> first | rfl | exact goTo_phase_of_ne _ hj

/-- **And only its own temporary file**, until it publishes it. -/
theorem advance_untouched (hown : Own account name calls w i) (io : Io) {m : Bytes}
    (htemp : m ≠ tempName name (calls i).serial)
    (htarget : w.phase i = .publishing → m ≠ target name) :
    (advance account name calls w i io).disk.entry m = w.disk.entry m
      ∧ (advance account name calls w i io).disk.read m = w.disk.read m := by
  unfold Own at hown
  unfold advance
  dsimp only at hown ⊢
  cases hphase : w.phase i with
  | opening =>
    dsimp only
    split_ifs
    · exact ⟨rfl, rfl⟩
    · exact ⟨Disk.openTruncate_entry_of_ne htemp, Disk.read_openTruncate_of_ne htemp⟩
  | writing inode offset =>
    rw [hphase] at hown
    obtain ⟨blob, hblob, -, hentry, -⟩ := hown
    dsimp only
    rw [hblob]
    refine ⟨rfl, Disk.read_write_of_ne fun hm => htemp (w.disk.single hm hentry)⟩
  | publishing =>
    dsimp only
    split_ifs with hok
    · obtain ⟨x, hx⟩ := Option.isSome_iff_exists.mp (Bool.and_eq_true_iff.mp hok).2
      have hentry := Disk.entry_rename_of_ne hx (htarget hphase) htemp
      refine ⟨hentry, ?_⟩
      show (Disk.rename _ _ _).read m = _
      unfold Disk.read
      rw [hentry, Disk.content_rename hx]
    · exact ⟨rfl, rfl⟩
  | discarding e =>
    dsimp only [goTo_disk]
    split_ifs
    · exact ⟨Disk.entry_remove_of_ne htemp, Disk.read_remove_of_ne htemp⟩
    · exact ⟨rfl, rfl⟩
  | idle => dsimp only; split <;> exact ⟨rfl, rfl⟩
  | syncing => exact ⟨rfl, rfl⟩
  | closing durable => dsimp only; split_ifs <;> exact ⟨rfl, rfl⟩
  | tightening => dsimp only; split_ifs <;> exact ⟨rfl, rfl⟩
  | dirSyncing => dsimp only; split_ifs <;> exact ⟨rfl, rfl⟩
  | returned result => exact ⟨rfl, rfl⟩
  | crashed => exact ⟨rfl, rfl⟩

/-- Outside its use of a temporary file a save touches nothing. -/
theorem advance_idle_disk (hidle : (w.phase i).usesTemp = false) (hopening : w.phase i ≠ .opening)
    (io : Io) (m : Bytes) :
    (advance account name calls w i io).disk.entry m = w.disk.entry m
      ∧ (advance account name calls w i io).disk.read m = w.disk.read m := by
  unfold advance
  dsimp only
  cases hphase : w.phase i with
  | opening => exact absurd hphase hopening
  | idle => dsimp only; split <;> exact ⟨rfl, rfl⟩
  | dirSyncing => dsimp only; split_ifs <;> exact ⟨rfl, rfl⟩
  | returned result => exact ⟨rfl, rfl⟩
  | crashed => exact ⟨rfl, rfl⟩
  | _ =>
    rw [hphase] at hidle
    cases hidle

/-- A save that publishes shows its whole blob under the token file's name. -/
theorem advance_target (hown : Own account name calls w i) (io : Io) :
    (advance account name calls w i io).disk.read (target name) = w.disk.read (target name)
      ∨ ∃ blob, prepare account name (calls i) = .ok blob
          ∧ (advance account name calls w i io).disk.read (target name) = some blob := by
  by_cases hphase : w.phase i = .publishing
  · unfold Own at hown
    unfold advance
    rw [hphase] at hown ⊢
    obtain ⟨blob, hblob, hread⟩ := hown
    dsimp only
    split_ifs
    · obtain ⟨x, hx, -⟩ := Disk.read_eq_some_iff.mp hread
      exact .inr ⟨blob, hblob, (Disk.read_rename hx).trans hread⟩
    · exact .inl rfl
  · exact .inl (advance_untouched hown io (tempName_ne_target name _).symm
      fun h => absurd h hphase).2

/-- Once there is a token file, there is one. -/
theorem advance_target_isSome (hown : Own account name calls w i) (io : Io)
    (h : (w.disk.entry (target name)).isSome = true) :
    ((advance account name calls w i io).disk.entry (target name)).isSome = true := by
  have hread (disk : Disk Bytes) :
      (disk.read (target name)).isSome = (disk.entry (target name)).isSome := Option.isSome_map
  rw [← hread] at h ⊢
  rcases advance_target hown io with hsame | ⟨blob, -, hblob⟩
  · rw [hsame]
    exact h
  · rw [hblob]
    rfl

/-- A save that uses its temporary file, or opens it in this step. -/
theorem usesTemp_advance {io : Io}
    (h : ((advance account name calls w i io).phase i).usesTemp = true) :
    (w.phase i).usesTemp = true ∨ w.phase i = .opening := by
  unfold advance at h
  dsimp only at h
  cases hphase : w.phase i with
  | opening => exact .inr rfl
  | idle =>
    rw [hphase] at h
    dsimp only at h
    split at h <;> (rw [goTo_phase_self] at h; cases h)
  | dirSyncing =>
    rw [hphase] at h
    dsimp only at h
    split_ifs at h <;> (rw [goTo_phase_self] at h; cases h)
  | returned result =>
    rw [hphase] at h
    dsimp only at h
    rw [hphase] at h
    cases h
  | crashed =>
    rw [hphase] at h
    dsimp only at h
    rw [hphase] at h
    cases h
  | _ => exact .inl rfl

/-- The step keeps what the other saves have on disk. -/
theorem own_other (hinv : Inv account name calls w) {io : Io}
    (halone : OpensAlone calls w (.step i io)) (hj : j ≠ i) :
    Own account name calls (advance account name calls w i io) j := by
  have hsame : (advance account name calls w i io).phase j = w.phase j :=
    advance_phase_of_ne io hj
  have hown := hinv.own j
  -- no temporary file in use is the one that this step touches
  have htemp (huses : (w.phase j).usesTemp = true) :
      (advance account name calls w i io).disk.entry (tempName name (calls j).serial)
          = w.disk.entry (tempName name (calls j).serial)
        ∧ (advance account name calls w i io).disk.read (tempName name (calls j).serial)
          = w.disk.read (tempName name (calls j).serial) := by
    by_cases hserial : (calls j).serial = (calls i).serial
    · have hidle : (w.phase i).usesTemp = false := hinv.apart j i hj hserial huses
      have hnotopening : w.phase i ≠ .opening := by
        intro hopening
        rw [halone hopening j hj hserial] at huses
        cases huses
      exact advance_idle_disk hidle hnotopening io _
    · exact advance_untouched (hinv.own i) io (fun h => hserial (tempName_inj h))
        fun _ => tempName_ne_target name _
  have htarget := advance_target_isSome (hinv.own i) io
  unfold Own at hown ⊢
  rw [hsame]
  cases hphase : w.phase j with
  | opening =>
    rw [hphase] at hown
    exact hown
  | writing inode offset =>
    rw [hphase] at hown htemp
    obtain ⟨blob, hblob, hoffset, hentry, hread⟩ := hown
    exact ⟨blob, hblob, hoffset, (htemp rfl).1.trans hentry, (htemp rfl).2.trans hread⟩
  | syncing | tightening | publishing =>
    rw [hphase] at hown htemp
    obtain ⟨blob, hblob, hread⟩ := hown
    exact ⟨blob, hblob, (htemp rfl).2.trans hread⟩
  | closing durable =>
    cases durable with
    | false => trivial
    | true =>
      rw [hphase] at hown htemp
      obtain ⟨blob, hblob, hread⟩ := hown
      exact ⟨blob, hblob, (htemp rfl).2.trans hread⟩
  | dirSyncing =>
    rw [hphase] at hown
    exact htarget hown
  | returned result =>
    cases result with
    | error e => trivial
    | ok done =>
      rw [hphase] at hown
      exact htarget hown
  | idle | discarding | crashed => trivial

/-- Writing the next piece behind what has been written. -/
theorem own_writePiece {blob : Bytes} {inode offset : Nat}
    (hblob : prepare account name (calls i) = .ok blob) (hoffset : offset ≤ blob.length)
    (hentry : w.disk.entry (tempName name (calls i).serial) = some inode)
    (hread : w.disk.read (tempName name (calls i).serial) = some (blob.take offset)) (io : Io) :
    Own account name calls (writePiece blob inode offset io i w) i := by
  have hcontent : w.disk.content inode = blob.take offset :=
    Option.some_inj.mp ((Disk.read_of_entry hentry).symm.trans hread)
  -- the inode holds what has been written so far, this piece included
  have hnow : (w.disk.write inode offset ((blob.drop offset).take io.landed)).read
      (tempName name (calls i).serial) = some (blob.take (offset + io.landed)) := by
    rw [@Disk.read_of_entry _ (w.disk.write inode offset _) _ _ hentry, Disk.content_write_self,
      hcontent, overwrite_take hoffset]
  have hlength : offset + ((blob.drop offset).take io.landed).length
      = min (offset + io.landed) blob.length := by
    rw [List.length_take, List.length_drop]
    omega
  unfold Own writePiece
  dsimp only
  rw [goTo_phase_self, hlength]
  split_ifs with hok hmore
  · trivial
  · refine ⟨blob, hblob, by omega, hentry, ?_⟩
    rw [Nat.min_eq_left (by omega)]
    exact hnow
  · refine ⟨blob, hblob, hnow.trans ?_⟩
    rw [List.take_of_length_le (by omega)]

/-- The step keeps what the stepping save has on disk. -/
theorem own_self (hown : Own account name calls w i) (io : Io) :
    Own account name calls (advance account name calls w i io) i := by
  unfold advance
  unfold Own at hown
  cases hphase : w.phase i with
  | idle =>
    dsimp only
    cases hprepare : prepare account name (calls i) with
    | error e =>
      unfold Own
      rw [goTo_phase_self]
      trivial
    | ok blob =>
      unfold Own
      rw [goTo_phase_self]
      exact ⟨blob, hprepare⟩
  | opening =>
    rw [hphase] at hown
    obtain ⟨blob, hblob⟩ := hown
    dsimp only
    split_ifs <;> unfold Own <;> rw [goTo_phase_self]
    · trivial
    · refine ⟨blob, hblob, Nat.zero_le _, Disk.openTruncate_entry_self, ?_⟩
      exact (Disk.read_of_entry Disk.openTruncate_entry_self).trans
        (congrArg some Disk.openTruncate_content)
  | writing inode offset =>
    rw [hphase] at hown
    obtain ⟨blob, hblob, hoffset, hentry, hread⟩ := hown
    dsimp only
    rw [hblob]
    exact own_writePiece hblob hoffset hentry hread io
  | syncing =>
    rw [hphase] at hown
    unfold Own
    dsimp only
    rw [goTo_phase_self]
    cases hok : io.ok with
    | false => trivial
    | true => exact hown
  | closing durable =>
    rw [hphase] at hown
    dsimp only
    split_ifs with hok <;> unfold Own <;> rw [goTo_phase_self]
    · rw [(Bool.and_eq_true_iff.mp hok).1] at hown
      exact hown
    · trivial
  | tightening =>
    rw [hphase] at hown
    dsimp only
    split_ifs <;> unfold Own <;> rw [goTo_phase_self]
    · exact hown
    · trivial
  | publishing =>
    dsimp only
    split_ifs with hok <;> unfold Own <;> rw [goTo_phase_self]
    · obtain ⟨x, hx⟩ := Option.isSome_iff_exists.mp (Bool.and_eq_true_iff.mp hok).2
      show ((Disk.rename _ _ _).entry _).isSome = true
      rw [Disk.entry_rename_dst hx]
      rfl
    · trivial
  | dirSyncing =>
    rw [hphase] at hown
    dsimp only
    split_ifs <;> unfold Own <;> rw [goTo_phase_self]
    · exact hown
    · trivial
  | discarding e =>
    unfold Own
    dsimp only
    rw [goTo_phase_self]
    trivial
  | returned result =>
    unfold Own
    dsimp only
    rw [hphase] at hown ⊢
    exact hown
  | crashed =>
    unfold Own
    dsimp only
    rw [hphase]
    trivial

theorem inv_advance (hinv : Inv account name calls w) {io : Io}
    (halone : OpensAlone calls w (.step i io)) :
    Inv account name calls (advance account name calls w i io) where
  whole bytes hread := by
    rcases advance_target (hinv.own i) io with hsame | ⟨blob, hblob, hnew⟩
    · exact hinv.whole bytes (hsame.symm.trans hread)
    · exact ⟨i, hblob.trans (congrArg Except.ok (Option.some_inj.mp (hnew.symm.trans hread)))⟩
  apart j k hjk hserial huses := by
    -- the stepping save used its file before, or opens it alone
    by_cases hj : j = i
    · subst hj
      rw [advance_phase_of_ne io hjk.symm]
      rcases usesTemp_advance huses with hbefore | hopening
      · exact hinv.apart j k hjk hserial hbefore
      · exact halone hopening k hjk.symm hserial.symm
    · rw [advance_phase_of_ne io hj] at huses
      by_cases hk : k = i
      · subst hk
        by_contra hboth
        rcases usesTemp_advance (Bool.eq_true_of_not_eq_false hboth) with hbefore | hopening
        · rw [hinv.apart j k hjk hserial huses] at hbefore
          cases hbefore
        · rw [halone hopening j hj hserial] at huses
          cases huses
      · rw [advance_phase_of_ne io hk]
        exact hinv.apart j k hjk hserial huses
  own j := by
    by_cases hj : j = i
    · subst hj
      exact own_self (hinv.own j) io
    · exact own_other hinv halone hj

theorem inv_crash (hinv : Inv account name calls w) :
    Inv account name calls (w.goTo i .crashed) where
  whole := hinv.whole
  apart j k hjk hserial huses := by
    by_cases hk : k = i
    · subst hk
      rw [goTo_phase_self]
      rfl
    · rw [goTo_phase_of_ne _ hk]
      by_cases hj : j = i
      · subst hj
        rw [goTo_phase_self] at huses
        cases huses
      · rw [goTo_phase_of_ne _ hj] at huses
        exact hinv.apart j k hjk hserial huses
  own j := by
    by_cases hj : j = i
    · subst hj
      unfold Own
      rw [goTo_phase_self]
      trivial
    · have hown := hinv.own j
      unfold Own at hown ⊢
      rw [goTo_phase_of_ne _ hj]
      exact hown

theorem inv_step (w : World ι) (e : Event ι) (hinv : Inv account name calls w)
    (halone : OpensAlone calls w e) : Inv account name calls (step account name calls w e) := by
  cases e with
  | step i io => exact inv_advance hinv halone
  | crash i =>
    unfold step
    dsimp only
    split
    · exact hinv
    · exact inv_crash hinv

theorem returned_step {e : Event ι} (h : w.phase i = .returned (.ok ())) :
    (step account name calls w e).phase i = .returned (.ok ()) := by
  cases e with
  | step j io =>
    by_cases hj : i = j
    · subst hj
      unfold step advance
      dsimp only
      rw [h]
      exact h
    · exact (advance_phase_of_ne io hj).trans h
  | crash j =>
    unfold step
    dsimp only
    split
    · exact h
    next hnot =>
      rw [goTo_phase_of_ne]
      · exact h
      · rintro rfl
        exact hnot _ h

/-- What has returned stays returned. -/
theorem returned_run {events : List (Event ι)} (h : w.phase i = .returned (.ok ())) :
    (run (step account name calls) w events).phase i = .returned (.ok ()) := by
  induction events generalizing w with
  | nil => exact h
  | cons e events ih => exact ih (returned_step h)

end

/-- No save has begun. -/
def World.fresh {ι : Type} (disk : Disk Bytes) : World ι := ⟨disk, fun _ => .idle⟩

theorem inv_fresh {ι : Type} [DecidableEq ι] {account name : Bytes} {calls : ι → SaveCall}
    {disk : Disk Bytes} (h : TargetWhole account name calls (World.fresh disk)) :
    Inv account name calls (World.fresh disk) where
  whole := h
  apart _ _ _ _ huses := by cases huses
  own _ := trivial

/-- **Token publish is atomic** while no save opens its temporary file as long as another one
uses a file of the same name: at every moment the token file is absent or the whole blob of a
save, and once a save has returned ok it is there. -/
theorem token_publish_atomic {ι : Type} [DecidableEq ι] (account name : Bytes)
    (calls : ι → SaveCall) {disk : Disk Bytes}
    (hbefore : TargetWhole account name calls (World.fresh disk)) (events : List (Event ι))
    (halone : Along (step account name calls) (OpensAlone calls) (World.fresh disk) events) :
    TargetWhole account name calls (run (step account name calls) (World.fresh disk) events)
      ∧ ∀ front back i, events = front ++ back →
          (run (step account name calls) (World.fresh disk) front).phase i = .returned (.ok ()) →
            ∃ j blob, prepare account name (calls j) = .ok blob
              ∧ (run (step account name calls) (World.fresh disk) events).disk.read (target name)
                = some blob := by
  have hinv := run_keeps inv_step (inv_fresh hbefore) halone
  refine ⟨hinv.whole, ?_⟩
  rintro front back i rfl hreturned
  rw [run_append] at hinv ⊢
  have hown := hinv.own i
  unfold Own at hown
  rw [returned_run hreturned] at hown
  obtain ⟨x, hx⟩ := Option.isSome_iff_exists.mp hown
  obtain ⟨j, hj⟩ := hinv.whole _ (Disk.read_of_entry hx)
  exact ⟨j, _, hj, Disk.read_of_entry hx⟩

/-! ## Two processes -/

/-- The first saves of two processes. -/
def firstSaves : Bool → SaveCall
  | false => ⟨1, .ok (List.replicate 32 0), .ok [1, 2], true, true⟩
  | true => ⟨1, .ok (List.replicate 32 0), .ok [3, 4], true, true⟩

def sampleAccount : Bytes := ascii "a"

def sampleName : Bytes := ascii "t"

/-- The first `count` steps of a save, all of which succeed. -/
def undisturbed (i : Bool) (count : Nat) : List (Event Bool) :=
  List.replicate count (.step i ⟨true, 2⟩)

theorem token_publish_atomic_in_turn :
    ∃ j blob, prepare sampleAccount sampleName (firstSaves j) = .ok blob
      ∧ (run (step sampleAccount sampleName firstSaves) (World.fresh .empty)
          (undisturbed false 8 ++ undisturbed true 4)).disk.read (target sampleName)
        = some blob :=
  (@token_publish_atomic Bool _ sampleAccount sampleName firstSaves .empty
    (by intro bytes h; cases h) (undisturbed false 8 ++ undisturbed true 4)
    (by decide)).2 (undisturbed false 8) (undisturbed true 4) false rfl (by decide)

/-- The second process opens the temporary file that the first one has synced, and so empties
what the first one publishes. -/
theorem shared_temp_tears :
    (run (step sampleAccount sampleName firstSaves) (World.fresh .empty)
        (undisturbed false 6 ++ undisturbed true 2 ++ undisturbed false 2)).phase false
        = .returned (.ok ())
      ∧ (run (step sampleAccount sampleName firstSaves) (World.fresh .empty)
          (undisturbed false 6 ++ undisturbed true 2 ++ undisturbed false 2)).disk.read
            (target sampleName) = some []
      ∧ ∀ i, prepare sampleAccount sampleName (firstSaves i) ≠ .ok [] := by
  decide

end BrokerExec.Secrets
