import BrokerExec.Json.Reader
import BrokerExec.Ledger.Chain

/-!
# Appending to a ledger that loads

A file on which `load` succeeded, then any run of appends that may fail at any step, then a
fresh `load`. The states of the run:

* **open** (`Open`): the file is whole lines, each blank or readable, and the chain in memory
  is what they read as;
* **shut** (`Shut`): the object is sealed, or the file ends inside a line; nothing is written
  any more.

A failed write is rolled back, and the ledger stays open; a rollback that leaves bytes behind
shuts it. The bytes left behind are a front part of one line: unless they are the whole JSON
text, `load` skips them (`load_fragment`).

* **`append_keeps_loadable`** — the fresh load gives the loaded entries and the appended ones,
  and behind them at most the one record whose rollback failed after all of it was written.
-/

namespace BrokerExec.Ledger

/-! ## Files of whole lines -/

section Lines

variable (parser : Json.Parser)

/-- Every line is blank or reads as an entry. -/
def Readable (lines : List Bytes) : Prop :=
  ∀ line ∈ lines, newline ∉ line ∧ (line = [] ∨ (readEntry parser line).isSome)

/-- The entries of such lines. -/
def entriesOf (lines : List Bytes) : List LedgerEntry :=
  lines.filterMap fun line => if line = [] then none else readEntry parser line

end Lines

variable {parser : Json.Parser} {digest : Digest}

theorem Readable.concat {lines : List Bytes} (h : Readable parser lines) {entry : LedgerEntry}
    (hentry : entry.Textual) : Readable parser (lines ++ [entryToLine entry]) := by
  intro line hline
  rcases List.mem_append.mp hline with hline | hline
  · exact h line hline
  · rw [List.mem_singleton.mp hline]
    refine ⟨newline_notMem_entryToLine entry, .inr ?_⟩
    rw [readEntry_entryToLine parser hentry]
    rfl

theorem entriesOf_concat (lines : List Bytes) {entry : LedgerEntry} (hentry : entry.Textual) :
    entriesOf parser (lines ++ [entryToLine entry]) = entriesOf parser lines ++ [entry] := by
  simp [entriesOf, entryToLine_ne_nil, readEntry_entryToLine parser hentry]

/-- The loop goes through readable lines and takes their entries. -/
theorem loadLoop_readable {lines : List Bytes} (h : Readable parser lines) (i : Nat)
    (rest : List Bytes) (before : List LedgerEntry) :
    loadLoop parser i (lines ++ rest) before =
      loadLoop parser (i + lines.length) rest (before ++ entriesOf parser lines) := by
  induction lines generalizing i before with
  | nil => simp [entriesOf]
  | cons line lines ih =>
    have hrest : Readable parser lines := fun l hl => h l (by simp [hl])
    have hshift : i + (line :: lines).length = i + 1 + lines.length := by
      rw [List.length_cons]
      omega
    rw [List.cons_append, loadLoop, hshift]
    rcases (h line (by simp)).2 with hblank | hread
    · rw [if_pos hblank, ih hrest]
      simp [entriesOf, hblank]
    · by_cases hblank : line = []
      · rw [if_pos hblank, ih hrest]
        simp [entriesOf, hblank]
      · obtain ⟨entry, hentry⟩ := Option.isSome_iff_exists.mp hread
        rw [if_neg hblank, hentry]
        dsimp only
        rw [ih hrest]
        simp [entriesOf, hblank, hentry]

/-- Whole readable lines with a newline-free fragment behind them: the loop comes to the
fragment with the entries of the lines. -/
theorem load_append_fragment {lines : List Bytes} (h : Readable parser lines) {fragment : Bytes}
    (hnewline : newline ∉ fragment) {result : Result Unit} {entries : List LedgerEntry}
    (hloop : loadLoop parser lines.length (if fragment = [] then [] else [fragment])
      (entriesOf parser lines) = (result, entries)) :
    (create (some (lines.flatMap terminated ++ fragment))).load parser .clean =
      (result, ⟨some (lines.flatMap terminated ++ fragment), entries, false⟩) := by
  have hlast : (chunks fragment).map Prod.fst = if fragment = [] then [] else [fragment] := by
    split_ifs with hnil
    · rw [hnil]
      rfl
    · rw [chunks_fragment hnewline hnil]
      rfl
  have hpieces : (chunks (lines.flatMap terminated ++ fragment)).map Prod.fst
      = lines ++ if fragment = [] then [] else [fragment] := by
    rw [chunks_terminated (fun l hl => (h l hl).1), List.map_append, hlast, List.map_map]
    exact congrArg (· ++ _) (List.map_id _)
  rw [load_clean, hpieces, loadLoop_readable h, Nat.zero_add, List.nil_append, hloop]

theorem load_readable {lines : List Bytes} (h : Readable parser lines) :
    (create (some (lines.flatMap terminated))).load parser .clean =
      (.ok (), ⟨some (lines.flatMap terminated), entriesOf parser lines, false⟩) := by
  have hload := load_append_fragment h (show newline ∉ [] by simp)
    (show loadLoop parser lines.length [] (entriesOf parser lines) = _ from rfl)
  rw [List.append_nil] at hload
  exact hload

/-- **A torn last record is skipped, a whole one is read.** Behind readable lines any front
part of an entry's line loads, and it counts exactly when it holds the whole JSON text. -/
theorem load_fragment {lines : List Bytes} (h : Readable parser lines) {entry : LedgerEntry}
    (hentry : entry.Textual) {fragment : Bytes}
    (hfront : fragment <+: terminated (entryToLine entry)) :
    (create (some (lines.flatMap terminated ++ fragment))).load parser .clean =
      (.ok (), ⟨some (lines.flatMap terminated ++ fragment), entriesOf parser lines ++
        if (entryToLine entry).length ≤ fragment.length then [entry] else [], false⟩) := by
  rcases List.prefix_concat_iff.mp hfront with hwhole | hpart
  · -- the whole line, newline and all
    have hlength : (entryToLine entry).length ≤ fragment.length := by
      rw [hwhole, List.length_append]
      omega
    have hload := load_readable (h.concat hentry)
    rw [List.flatMap_append, List.flatMap_singleton, entriesOf_concat lines hentry] at hload
    rw [if_pos hlength, hwhole]
    exact hload
  · have hnewline : newline ∉ fragment := fun hmem =>
      newline_notMem_entryToLine entry (hpart.subset hmem)
    apply load_append_fragment h hnewline
    by_cases hnil : fragment = []
    · have hshort : ¬ (entryToLine entry).length ≤ fragment.length := by
        have hpositive := List.length_pos_iff.mpr (entryToLine_ne_nil entry)
        rw [hnil, List.length_nil]
        omega
      rw [if_pos hnil, if_neg hshort, List.append_nil]
      rfl
    · rw [if_neg hnil]
      by_cases htext : fragment = entryToLine entry
      · rw [htext, if_pos (Nat.le_refl _), loadLoop_entryToLine parser hentry]
        rfl
      · have hshort : ¬ (entryToLine entry).length ≤ fragment.length := fun hle =>
          htext (hpart.eq_of_length_le hle)
        rw [if_neg hshort, loadLoop, if_neg hnil, readEntry_prefix parser hentry hpart htext]
        simp [loadLoop]

/-! ## One append -/

/-- `append` comes to its `fwrite`. -/
def admits (ledger : Ledger) (io : AppendIo) : Bool :=
  !ledger.poisoned && io.hashed && io.measured
    && (ledger.file.getD [] == [] || endsOnRecordBoundary io.tailReadable (ledger.file.getD []))
    && io.opened

/-- What stops `append` before its `fwrite` leaves file and chain alone. -/
theorem append_not_admitted (digest : Digest) {ledger : Ledger} {io : AppendIo}
    (h : ledger.admits io = false) (payload : Bytes) (provenance : ProvenanceContext) : ∃ error sealed,
    ledger.append digest io payload provenance = (.error error, { ledger with poisoned := sealed })
      ∧ (ledger.poisoned = true → sealed = true) := by
  unfold append
  dsimp only
  split_ifs with hpoisoned hhashed hmeasured hboundary hopened
  · exact ⟨_, ledger.poisoned, rfl, id⟩
  · exact ⟨_, ledger.poisoned, rfl, id⟩
  · exact ⟨_, ledger.poisoned, rfl, id⟩
  · exact ⟨_, true, rfl, fun _ => rfl⟩
  · exact ⟨_, ledger.poisoned, rfl, id⟩
  · -- every guard passed, so the call is admitted
    exfalso
    have hboundary' : ledger.file.getD [] = []
        ∨ endsOnRecordBoundary io.tailReadable (ledger.file.getD []) = true := by
      rcases List.eq_nil_or_concat (ledger.file.getD []) with hnil | ⟨front, last, hlast⟩
      · exact .inl hnil
      · right
        by_contra hfalse
        exact hboundary ⟨by simp [hlast], by simpa using hfalse⟩
    simp only [admits, Bool.and_eq_false_iff, Bool.or_eq_false_iff, beq_eq_false_iff_ne] at h
    rcases hboundary' with hb | hb <;> simp_all

theorem append_admitted (digest : Digest) {ledger : Ledger} {io : AppendIo}
    (h : ledger.admits io = true) (payload : Bytes) (provenance : ProvenanceContext) :
    ledger.append digest io payload provenance =
      match io.write with
      | .done =>
        (.ok (ledger.nextEntry digest payload provenance),
          { ledger with
            file := some (ledger.file.getD []
              ++ terminated (entryToLine (ledger.nextEntry digest payload provenance)))
            entries := ledger.entries ++ [ledger.nextEntry digest payload provenance] })
      | .shortWrite _ =>
        ledger.rollBack io
          (terminated (entryToLine (ledger.nextEntry digest payload provenance))) false
      | .syncFailed _ =>
        ledger.rollBack io
          (terminated (entryToLine (ledger.nextEntry digest payload provenance))) true := by
  simp only [admits, Bool.and_eq_true, Bool.or_eq_true, beq_iff_eq, Bool.not_eq_true'] at h
  obtain ⟨⟨⟨⟨hpoisoned, hhashed⟩, hmeasured⟩, hboundary⟩, hopened⟩ := h
  have hboundary' : ¬ (0 < (ledger.file.getD []).length
      ∧ endsOnRecordBoundary io.tailReadable (ledger.file.getD []) = false) := by
    rintro ⟨hpositive, hfalse⟩
    rcases hboundary with hnil | htrue
    · simp [hnil] at hpositive
    · simp [htrue] at hfalse
  rw [append, if_neg (by simp [hpoisoned])]
  dsimp only
  rw [if_neg (by simp [hhashed]), if_neg (by simp [hmeasured]), if_neg hboundary']
  refine (if_neg (by simp [hopened])).trans ?_
  cases io.write with
  | done => rfl
  | shortWrite n => rfl
  | syncFailed n => rfl

/-- The rollback leaves the bytes that landed in place. -/
def RestoreIo.gaveUp (io : RestoreIo) : Bool := !io.measured || !io.resized

theorem restoreToSize_cases (io : RestoreIo) (before landed : Bytes) :
    (restoreToSize io (before ++ landed) before.length = (false, before ++ landed)
      ∧ io.gaveUp = true)
    ∨ ∃ proven, restoreToSize io (before ++ landed) before.length = (proven, before)
      ∧ (io.gaveUp = true → landed = []) := by
  have hcut : (before ++ landed).take before.length = before := List.take_left
  unfold restoreToSize
  split_ifs with hmeasured hsize hshrunk hresized
  · exact .inl ⟨rfl, by simp [RestoreIo.gaveUp, hmeasured]⟩
  · have hnothing : landed = [] := by simpa using hsize
    exact .inr ⟨true, by rw [hnothing, List.append_nil], fun _ => hnothing⟩
  · rw [List.length_append] at hshrunk
    omega
  · exact .inl ⟨rfl, by simp [RestoreIo.gaveUp, hresized]⟩
  · refine .inr ⟨_, by rw [hcut], fun hgave => ?_⟩
    simp [RestoreIo.gaveUp, hmeasured, hresized] at hgave

/-- **What a failed write leaves**: the old file with all that landed behind it, and the ledger
sealed, or the old file. -/
theorem rollBack_cases (ledger : Ledger) (io : AppendIo) (line : Bytes) (flushed : Bool) :
    ∃ error sealed file, ledger.rollBack io line flushed =
        (.error error, { ledger with file := some file, poisoned := sealed })
      ∧ (file = ledger.file.getD [] ++ io.write.landed line ∧ io.restore.gaveUp = true
          ∧ sealed = true
        ∨ file = ledger.file.getD [] ∧ (ledger.poisoned = true → sealed = true)
          ∧ (io.restore.gaveUp = true → io.write.landed line = [])) := by
  unfold rollBack
  rcases restoreToSize_cases io.restore (ledger.file.getD []) (io.write.landed line) with
    ⟨hrestore, hgave⟩ | ⟨proven, hrestore, hnothing⟩
  · dsimp only
    rw [hrestore]
    exact ⟨_, true, _, rfl, .inl ⟨rfl, hgave, rfl⟩⟩
  · dsimp only
    rw [hrestore]
    cases proven with
    | true => exact ⟨_, ledger.poisoned, _, rfl, .inr ⟨rfl, id, hnothing⟩⟩
    | false => exact ⟨_, true, _, rfl, .inr ⟨rfl, fun _ => rfl, hnothing⟩⟩

/-! ## Runs of appends -/

/-- One call of `append` with what the operating system answers. -/
structure AppendCall where
  io : AppendIo
  payload : Bytes
  provenance : ProvenanceContext

/-- The entries of the appends that returned success, in order, and the ledger behind them. -/
def runAppends (digest : Digest) : Ledger → List AppendCall → List LedgerEntry × Ledger
  | ledger, [] => ([], ledger)
  | ledger, call :: calls =>
    match ledger.append digest call.io call.payload call.provenance with
    | (.ok entry, ledger') => (entry :: (runAppends digest ledger' calls).1,
        (runAppends digest ledger' calls).2)
    | (.error _, ledger') => runAppends digest ledger' calls

/-- The entry a call would append. -/
def entryOf (digest : Digest) (ledger : Ledger) (call : AppendCall) : LedgerEntry :=
  ledger.nextEntry digest call.payload call.provenance

/-- The call comes to its write and the write fails. -/
def writeFails (ledger : Ledger) (call : AppendCall) : Bool :=
  ledger.admits call.io && call.io.write != .done

/-- The write fails after the whole JSON text is in the file, and the rollback gives up before
it cuts the file. -/
def strands (digest : Digest) (ledger : Ledger) (call : AppendCall) : Bool :=
  ledger.writeFails call && call.io.restore.gaveUp
    && decide ((entryToLine (ledger.entryOf digest call)).length
      ≤ (call.io.write.landed (terminated (entryToLine (ledger.entryOf digest call)))).length)

theorem append_write_failed (digest : Digest) {ledger : Ledger} {call : AppendCall}
    (h : ledger.writeFails call = true) : ∃ flushed,
    ledger.append digest call.io call.payload call.provenance =
      ledger.rollBack call.io (terminated (entryToLine (ledger.entryOf digest call))) flushed := by
  simp only [writeFails, Bool.and_eq_true, bne_iff_ne] at h
  rw [append_admitted digest h.1]
  cases hwrite : call.io.write with
  | done => exact absurd hwrite h.2
  | shortWrite n => exact ⟨false, rfl⟩
  | syncFailed n => exact ⟨true, rfl⟩

/-- The record, if any, that a failed rollback leaves complete in the file. -/
def stranded (digest : Digest) : Ledger → List AppendCall → Option LedgerEntry
  | _, [] => none
  | ledger, call :: calls =>
    if ledger.strands digest call then some (ledger.entryOf digest call)
    else stranded digest (ledger.append digest call.io call.payload call.provenance).2 calls

/-! ### Shut ledgers -/

/-- Sealed, or the file ends inside a line. -/
def Shut (ledger : Ledger) : Prop :=
  ledger.poisoned = true
    ∨ ledger.file.getD [] ≠ [] ∧ (ledger.file.getD []).getLast? ≠ some newline

theorem Shut.not_admits {ledger : Ledger} (h : ledger.Shut) (io : AppendIo) :
    ledger.admits io = false := by
  rcases h with hpoisoned | ⟨hne, hlast⟩
  · simp [admits, hpoisoned]
  · simp [admits, endsOnRecordBoundary, hne, hlast]

/-- **A shut ledger writes nothing more.** -/
theorem runAppends_shut (digest : Digest) {ledger : Ledger} (h : ledger.Shut)
    (calls : List AppendCall) :
    (ledger.runAppends digest calls).1 = []
      ∧ (ledger.runAppends digest calls).2.file = ledger.file
      ∧ ledger.stranded digest calls = none := by
  induction calls generalizing ledger with
  | nil => exact ⟨rfl, rfl, rfl⟩
  | cons call calls ih =>
    have hadmits := h.not_admits call.io
    obtain ⟨error, sealed, happend, hsealed⟩ :=
      append_not_admitted digest hadmits call.payload call.provenance
    have hshut : Shut { ledger with poisoned := sealed } := by
      rcases h with hpoisoned | htorn
      · exact .inl (hsealed hpoisoned)
      · exact .inr htorn
    have hstrands : ledger.strands digest call = false := by simp [strands, writeFails, hadmits]
    obtain ⟨hnone, hfile, hleft⟩ := ih hshut
    rw [runAppends, stranded, happend, hstrands]
    exact ⟨hnone, hfile, hleft⟩

/-! ### Open ledgers -/

/-- The chain in memory is what the file's lines read as. -/
structure Open (parser : Json.Parser) (ledger : Ledger) (lines : List Bytes) : Prop where
  unsealed : ledger.poisoned = false
  file : ledger.file = some (lines.flatMap terminated)
  readable : Readable parser lines
  entries : ledger.entries = entriesOf parser lines

theorem entriesOf_textual {lines : List Bytes} {entry : LedgerEntry}
    (h : entry ∈ entriesOf parser lines) : entry.Textual := by
  obtain ⟨line, -, hread⟩ := List.mem_filterMap.mp h
  split_ifs at hread
  exact readEntry_textual parser hread

/-- The next entry of an open ledger survives its own line. -/
theorem Open.entryOf_textual {ledger : Ledger} {lines : List Bytes}
    (h : Open parser ledger lines) (digest : Digest) (call : AppendCall) :
    (ledger.entryOf digest call).Textual where
  prevHash := by
    show WellFormed (headOf ledger.entries)
    unfold headOf
    cases hlast : ledger.entries.getLast? with
    | none => exact .nil
    | some last =>
      have hmem := List.mem_of_getLast? hlast
      rw [h.entries] at hmem
      exact (entriesOf_textual hmem).hash
  payload := Domain.canonicalText_wellFormed _
  hash := digest.wellFormed _

/-- A fresh load of this file gives these entries. -/
def LoadsAs (parser : Json.Parser) (file : Option Bytes) (entries : List LedgerEntry) : Prop :=
  (create file).load parser .clean = (.ok (), ⟨file, entries, false⟩)

/-- **A run from an open ledger**: its file loads as the entries it had, those of the successful
appends and, last, the record a failed rollback left whole. -/
theorem runAppends_open (digest : Digest) {ledger : Ledger} {lines : List Bytes}
    (h : Open parser ledger lines) (calls : List AppendCall) :
    LoadsAs parser (ledger.runAppends digest calls).2.file
      (entriesOf parser lines ++ (ledger.runAppends digest calls).1
        ++ (ledger.stranded digest calls).toList) := by
  induction calls generalizing ledger lines with
  | nil =>
    show LoadsAs parser ledger.file (entriesOf parser lines ++ [] ++ [])
    rw [h.file, List.append_nil, List.append_nil]
    exact load_readable h.readable
  | cons call calls ih =>
    -- an append that fails with file and chain as before either seals or changes nothing
    have hfailed : ∀ ledger' : Ledger, ledger'.file = ledger.file →
        ledger'.entries = ledger.entries →
        LoadsAs parser (ledger'.runAppends digest calls).2.file
          (entriesOf parser lines ++ (ledger'.runAppends digest calls).1
            ++ (ledger'.stranded digest calls).toList) := by
      intro ledger' hfile hentries
      cases hpoisoned : ledger'.poisoned with
      | false => exact ih ⟨hpoisoned, hfile.trans h.file, h.readable, hentries.trans h.entries⟩
      | true =>
        obtain ⟨hnone, hfinal, hleft⟩ := runAppends_shut digest (.inl hpoisoned) calls
        rw [hnone, hfinal, hleft, hfile, h.file]
        simpa [LoadsAs] using load_readable h.readable
    have hentry := h.entryOf_textual digest call
    rw [runAppends, stranded]
    cases hadmits : ledger.admits call.io with
    | false =>
      obtain ⟨error, sealed, happend, -⟩ :=
        append_not_admitted digest hadmits call.payload call.provenance
      have hstrands : ledger.strands digest call = false := by simp [strands, writeFails, hadmits]
      rw [happend, hstrands]
      exact hfailed _ rfl rfl
    | true =>
      by_cases hdone : call.io.write = .done
      · -- the line is written: the file has one more readable line
        have happend := append_admitted digest hadmits call.payload call.provenance
        have hstrands : ledger.strands digest call = false := by
          simp [strands, writeFails, hdone]
        rw [hdone] at happend
        rw [happend, hstrands]
        have hopen : Open parser
            { ledger with
              file := some (ledger.file.getD []
                ++ terminated (entryToLine (ledger.entryOf digest call)))
              entries := ledger.entries ++ [ledger.entryOf digest call] }
            (lines ++ [entryToLine (ledger.entryOf digest call)]) := by
          refine ⟨h.unsealed, ?_, h.readable.concat hentry, ?_⟩
          · rw [h.file, List.flatMap_append, List.flatMap_singleton]
            rfl
          · rw [entriesOf_concat lines hentry, ← h.entries]
        have hrun := ih hopen
        rw [entriesOf_concat lines hentry, List.append_assoc (entriesOf parser lines)] at hrun
        exact hrun
      · have hfails : ledger.writeFails call = true := by simp [writeFails, hadmits, hdone]
        obtain ⟨flushed, happend⟩ := append_write_failed digest hfails
        obtain ⟨error, sealed, file, hroll, hleft⟩ := rollBack_cases ledger call.io
          (terminated (entryToLine (ledger.entryOf digest call))) flushed
        rw [happend, hroll]
        rcases hleft with ⟨hfile, hgave, rfl⟩ | ⟨hfile, -, hnothing⟩
        · -- the rollback gave up: whatever landed stays, and the ledger is sealed
          obtain ⟨hnone, hfinal, hstranded⟩ := runAppends_shut digest
            (show Shut { ledger with file := some file, poisoned := true } from .inl rfl) calls
          have hload := load_fragment h.readable hentry
            (call.io.write.landed_prefix (terminated (entryToLine (ledger.entryOf digest call))))
          have hstrands : ledger.strands digest call =
              decide ((entryToLine (ledger.entryOf digest call)).length
                ≤ (call.io.write.landed
                  (terminated (entryToLine (ledger.entryOf digest call)))).length) := by
            simp [strands, hfails, hgave]
          dsimp only
          rw [hnone, hfinal, hstranded, List.append_nil, hstrands, hfile, h.file]
          by_cases hwhole : (entryToLine (ledger.entryOf digest call)).length
              ≤ (call.io.write.landed
                (terminated (entryToLine (ledger.entryOf digest call)))).length
          · rw [if_pos hwhole] at hload
            rw [decide_eq_true hwhole]
            exact hload
          · rw [if_neg hwhole] at hload
            rw [decide_eq_false hwhole]
            exact hload
        · have hstrands : ledger.strands digest call = false := by
            have hpositive := List.length_pos_iff.mpr
              (entryToLine_ne_nil (ledger.entryOf digest call))
            by_contra htrue
            simp only [strands, Bool.not_eq_false, Bool.and_eq_true, decide_eq_true_eq] at htrue
            obtain ⟨⟨-, hgave⟩, hlength⟩ := htrue
            rw [hnothing hgave, List.length_nil] at hlength
            omega
          rw [hstrands]
          exact hfailed _ (by rw [hfile, h.file]; rfl) rfl

/-! ## From any file that loads -/

/-- `load` skips a malformed line that a newline ends. -/
def SkipsTerminated (parser : Json.Parser) (file : Bytes) : Prop :=
  file.getLast? = some newline
    ∧ ∃ line ∈ (chunks file).map Prod.fst, line ≠ [] ∧ readEntry parser line = none

theorem load_ok {io : LoadIo} {file : Bytes} {ledger : Ledger}
    (h : (create (some file)).load parser io = (.ok (), ledger)) :
    ledger.file = some file ∧ ledger.poisoned = false
      ∧ LoadsAs parser (some file) ledger.entries := by
  obtain ⟨opened, readOk⟩ := io
  cases opened with
  | false => cases h
  | true =>
    cases readOk with
    | false => cases h
    | true =>
      have hclean : (create (some file)).load parser .clean = (.ok (), ledger) := h
      obtain rfl := (Prod.mk.inj (h.symm.trans (load_clean parser file))).2
      exact ⟨rfl, rfl, hclean⟩

/-- **Appending keeps a ledger loadable.** From every file on which `load` succeeds, unless it
skipped a malformed line that a newline ends, and over every run of appends that may fail at
any step, the file left behind loads as the loaded entries followed by those of the successful
appends, and behind them at most the one record that a failed rollback left whole. -/
theorem append_keeps_loadable (parser : Json.Parser) (digest : Digest) {io : LoadIo}
    {file : Bytes} {ledger : Ledger}
    (hload : (create (some file)).load parser io = (.ok (), ledger))
    (htail : ¬ SkipsTerminated parser file) (calls : List AppendCall) :
    LoadsAs parser (ledger.runAppends digest calls).2.file
      (ledger.entries ++ (ledger.runAppends digest calls).1
        ++ (ledger.stranded digest calls).toList) := by
  obtain ⟨hfile, hunsealed, hloads⟩ := load_ok hload
  by_cases hboundary : file = [] ∨ file.getLast? = some newline
  · -- whole lines: the ledger is open
    have hlines := flatMap_terminated_chunks hboundary
    have hreadable : Readable parser ((chunks file).map Prod.fst) := by
      intro line hline
      obtain ⟨piece, hpiece, rfl⟩ := List.mem_map.mp hline
      refine ⟨newline_notMem_chunks file piece hpiece, ?_⟩
      rcases hboundary with rfl | hlast
      · simp at hpiece
      · by_contra hbad
        simp only [not_or, Bool.not_eq_true, Option.isSome_eq_false_iff, Option.isNone_iff_eq_none]
          at hbad
        exact htail ⟨hlast, piece.1, List.mem_map_of_mem hpiece, hbad⟩
    have hentries : ledger.entries = entriesOf parser ((chunks file).map Prod.fst) := by
      have hread := load_readable hreadable
      rw [hlines] at hread
      exact congrArg (fun r => r.2.entries) (hloads.symm.trans hread)
    have hopen : Open parser ledger ((chunks file).map Prod.fst) :=
      ⟨hunsealed, by rw [hlines, hfile], hreadable, hentries⟩
    rw [hentries]
    exact runAppends_open digest hopen calls
  · -- the file ends inside a line: every append is refused
    rw [not_or] at hboundary
    have hshut : ledger.Shut := .inr (by rw [hfile]; exact hboundary)
    obtain ⟨hnone, hfinal, hleft⟩ := runAppends_shut digest hshut calls
    rw [hnone, hfinal, hleft, hfile, List.append_nil]
    simpa using hloads

/-- One append that works, onto an empty file. -/
theorem append_keeps_loadable_empty :
    (create (some [])).load Json.reader .clean = (.ok (), create (some []))
      ∧ LoadsAs Json.reader
          ((create (some [])).runAppends .sha256 [⟨.clean, ascii "a", ⟨[], [], []⟩⟩]).2.file
          ((create (some [])).entries
            ++ ((create (some [])).runAppends .sha256 [⟨.clean, ascii "a", ⟨[], [], []⟩⟩]).1
            ++ ((create (some [])).stranded .sha256 [⟨.clean, ascii "a", ⟨[], [], []⟩⟩]).toList) := by
  have hload : (create (some [])).load Json.reader .clean = (.ok (), create (some [])) := rfl
  have htail : ¬ SkipsTerminated Json.reader [] := by simp [SkipsTerminated]
  exact ⟨hload, append_keeps_loadable Json.reader .sha256 hload htail _⟩

/-- The line is written, `durable_sync` fails, and so does the `file_size` of the rollback. -/
def strandingCall : AppendCall :=
  ⟨⟨true, true, true, true, .syncFailed 300, ⟨false, true, true, true⟩⟩, ascii "a", ⟨[], [], []⟩⟩

/-- **A failed rollback adds an entry**: the append reports failure, and the fresh load of the
file does not give the entries of the successful appends alone. -/
theorem failed_rollback_adds_entry :
    (create (some [])).load Json.reader .clean = (.ok (), create (some []))
      ∧ ((create (some [])).runAppends .sha256 [strandingCall]).1 = []
      ∧ ¬ LoadsAs Json.reader ((create (some [])).runAppends .sha256 [strandingCall]).2.file
          ((create (some [])).entries
            ++ ((create (some [])).runAppends .sha256 [strandingCall]).1) := by
  have hnone : ((create (some [])).runAppends .sha256 [strandingCall]).1 = [] := by decide +kernel
  have hstrands : (create (some [])).strands .sha256 strandingCall = true := by decide +kernel
  have hopen : Open Json.reader (create (some [])) [] := ⟨rfl, rfl, by simp [Readable], rfl⟩
  have hrun := runAppends_open .sha256 hopen [strandingCall]
  refine ⟨rfl, hnone, fun hclaim => ?_⟩
  rw [stranded, hstrands, if_pos rfl] at hrun
  have hentries := congrArg (fun r => r.2.entries.length) (hclaim.symm.trans hrun)
  rw [hnone] at hentries
  simp [create, entriesOf] at hentries

end BrokerExec.Ledger
