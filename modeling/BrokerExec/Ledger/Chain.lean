import BrokerExec.Domain.Redaction
import BrokerExec.Domain.Types
import BrokerExec.IntentLog.Sha256
import BrokerExec.Json.Text

/-!
# The hash-chained ledger (`ledger/ledger.cpp`)

`append`, `verify_chain` and `load` over the bytes of the ledger file. What the operating
system answers is an argument of each call. SHA-256 comes from OpenSSL and is a parameter:
a **`Digest`** gives 64 lowercase hexadecimal digits.

* **`readEntry_entryToLine`** — the typed reads of `load` give back the entry whose line was
  written;
* **`verifyChain_ok_iff`** — what `verify_chain` accepts, entry by entry.
-/

namespace BrokerExec

open BrokerExec.Errors (Error ErrorCategory makeError)
open BrokerExec.Domain (canonicalText kUtf8Replacement renderProvenanceBlock scrub)

namespace Ledger

/-! ## Entries -/

/-- `sha256_hex` over OpenSSL's EVP interface. -/
structure Digest where
  sha256Hex : Bytes → Bytes
  length_sha256Hex : ∀ data, (sha256Hex data).length = 64
  mem_sha256Hex : ∀ data, ∀ b ∈ sha256Hex data, IntentLog.isHexDigit b = true

/-- The SHA-256 function itself, as the intent log computes it. -/
def Digest.sha256 : Digest :=
  ⟨IntentLog.sha256Hex, IntentLog.length_sha256Hex, fun _ _ => IntentLog.mem_sha256Hex⟩

theorem Digest.ne_nil (digest : Digest) (data : Bytes) : digest.sha256Hex data ≠ [] := by
  intro h
  have hlength := digest.length_sha256Hex data
  rw [h] at hlength
  exact absurd hlength (by decide)

theorem Digest.wellFormed (digest : Digest) (data : Bytes) : WellFormed (digest.sha256Hex data) :=
  .of_ascii fun b hb => IntentLog.isHexDigit_lt (digest.mem_sha256Hex data b hb)

@[ext]
structure LedgerEntry where
  seq : Int64
  prevHash : Bytes
  payload : Bytes
  hash : Bytes
  deriving DecidableEq

/-- What is hashed: the two texts one behind the other. -/
def LedgerEntry.preimage (entry : LedgerEntry) : Bytes := entry.prevHash ++ entry.payload

structure ProvenanceContext where
  clientRef : Bytes
  brokerOrderId : Bytes
  strategy : Bytes

def provenanceBlock (provenance : ProvenanceContext) : Bytes :=
  renderProvenanceBlock [
    ⟨ascii "client_ref", provenance.clientRef, .id⟩,
    ⟨ascii "broker_order_id", provenance.brokerOrderId, .id⟩,
    ⟨ascii "strategy", provenance.strategy, .id⟩]

/-- The object of `entry_to_line`, its members in the byte order `nlohmann::json` keeps. -/
def LedgerEntry.toJson (entry : LedgerEntry) : Json.Flat := [
  (ascii "hash", .string entry.hash),
  (ascii "payload", .string entry.payload),
  (ascii "prev_hash", .string entry.prevHash),
  (ascii "seq", .int entry.seq)]

def entryToLine (entry : LedgerEntry) : Bytes := Json.dump entry.toJson

/-! ## Reading one line back -/

/-- `contains(key) && is_string()`, then the string. -/
def fieldString (members : List (Bytes × Json.Value)) (key : Bytes) : Option Bytes :=
  match members.lookup key with
  | some (.string s) => some s
  | _ => none

/-- `contains(key) && is_number_integer()`, then `get<std::int64_t>()`. -/
def fieldInt64 (members : List (Bytes × Json.Value)) (key : Bytes) : Option Int64 :=
  match members.lookup key with
  | some (.int i) => some (Int64.ofInt i)
  | _ => none

/-- The type-checked reads of one line; `none` is a malformed line. -/
def readEntry (parser : Json.Parser) (line : Bytes) : Option LedgerEntry :=
  match parser.parse line with
  | some (.object members) => do
    let seq ← fieldInt64 members (ascii "seq")
    let prevHash ← fieldString members (ascii "prev_hash")
    let payload ← fieldString members (ascii "payload")
    let hash ← fieldString members (ascii "hash")
    return ⟨seq, prevHash, payload, hash⟩
  | _ => none

/-! A line that was written is read back, and no front part of it is. -/

/-- The strings of an entry that came through `append` or `load`. -/
structure LedgerEntry.Textual (entry : LedgerEntry) : Prop where
  prevHash : WellFormed entry.prevHash
  payload : WellFormed entry.payload
  hash : WellFormed entry.hash

theorem LedgerEntry.toJson_readable {entry : LedgerEntry} (h : entry.Textual) :
    entry.toJson.Readable where
  sorted := by
    show List.Pairwise (· < ·) [ascii "hash", ascii "payload", ascii "prev_hash", ascii "seq"]
    decide
  keys := by
    intro m hm
    have hall : (entry.toJson.map Prod.fst).all (·.all (· < 0x80)) = true := by
      show List.all [ascii "hash", ascii "payload", ascii "prev_hash", ascii "seq"] _ = true
      decide
    have hkey := List.all_eq_true.mp hall m.1 (List.mem_map_of_mem hm)
    exact .of_ascii fun b hb => by simpa using List.all_eq_true.mp hkey b hb
  strings := by
    intro m hm s hs
    simp only [LedgerEntry.toJson, List.mem_cons, List.not_mem_nil, or_false] at hm
    rcases hm with rfl | rfl | rfl | rfl
    · exact Json.Scalar.string.inj hs ▸ h.hash
    · exact Json.Scalar.string.inj hs ▸ h.payload
    · exact Json.Scalar.string.inj hs ▸ h.prevHash
    · cases hs

theorem fieldString_members {o : Json.Flat} {key s : Bytes}
    (h : o.lookup key = some (.string s)) : fieldString o.members key = some s := by
  rw [fieldString, Json.Flat.lookup_members h]
  rfl

theorem fieldInt64_members {o : Json.Flat} {key : Bytes} {i : Int64}
    (h : o.lookup key = some (.int i)) : fieldInt64 o.members key = some i := by
  rw [fieldInt64, Json.Flat.lookup_members h]
  simp [Json.Scalar.toValue]

/-- **The reads of `load` give the written entry back.** -/
theorem readEntry_entryToLine (parser : Json.Parser) {entry : LedgerEntry} (h : entry.Textual) :
    readEntry parser (entryToLine entry) = some entry := by
  let o := entry.toJson
  have hseq : fieldInt64 o.members (ascii "seq") = some entry.seq := fieldInt64_members rfl
  have hprev : fieldString o.members (ascii "prev_hash") = some entry.prevHash :=
    fieldString_members rfl
  have hpayload : fieldString o.members (ascii "payload") = some entry.payload :=
    fieldString_members rfl
  have hhash : fieldString o.members (ascii "hash") = some entry.hash := fieldString_members rfl
  unfold readEntry entryToLine
  rw [parser.parse_dump _ (entry.toJson_readable h)]
  show (do
    let seq ← fieldInt64 o.members (ascii "seq")
    let prevHash ← fieldString o.members (ascii "prev_hash")
    let payload ← fieldString o.members (ascii "payload")
    let hash ← fieldString o.members (ascii "hash")
    return (⟨seq, prevHash, payload, hash⟩ : LedgerEntry)) = some entry
  rw [hseq, hprev, hpayload, hhash]
  rfl

theorem readEntry_prefix (parser : Json.Parser) {entry : LedgerEntry} (h : entry.Textual)
    {p : Bytes} (hp : p <+: entryToLine entry) (hne : p ≠ entryToLine entry) :
    readEntry parser p = none := by
  rw [readEntry, parser.parse_prefix _ (entry.toJson_readable h) p hp hne]

theorem fieldString_eq_some {members : List (Bytes × Json.Value)} {key s : Bytes}
    (h : fieldString members key = some s) : members.lookup key = some (.string s) := by
  unfold fieldString at h
  split at h
  · rename_i t ht
    rw [ht, Option.some.inj h]
  · cases h

/-- What was read is well-formed text: the parser discards anything else. -/
theorem readEntry_textual (parser : Json.Parser) {line : Bytes} {entry : LedgerEntry}
    (h : readEntry parser line = some entry) : entry.Textual := by
  unfold readEntry at h
  split at h
  · rename_i members hparse
    obtain ⟨seq, -, h⟩ := Option.bind_eq_some_iff.mp h
    obtain ⟨prevHash, hprev, h⟩ := Option.bind_eq_some_iff.mp h
    obtain ⟨payload, hpayload, h⟩ := Option.bind_eq_some_iff.mp h
    obtain ⟨hash, hhash, h⟩ := Option.bind_eq_some_iff.mp h
    obtain rfl := Option.some.inj h
    have hstring := parser.parse_strings line members hparse
    exact ⟨hstring _ _ (fieldString_eq_some hprev), hstring _ _ (fieldString_eq_some hpayload),
      hstring _ _ (fieldString_eq_some hhash)⟩
  · cases h

theorem newline_notMem_entryToLine (entry : LedgerEntry) : newline ∉ entryToLine entry :=
  Json.newline_notMem_dump _

theorem entryToLine_ne_nil (entry : LedgerEntry) : entryToLine entry ≠ [] :=
  Json.dump_ne_nil _

end Ledger

/-- A `Ledger` and the content of its file, `none` when there is no file. `clock_` is read by
no modelled function. -/
structure Ledger where
  file : Option Bytes
  entries : List Ledger.LedgerEntry
  poisoned : Bool

namespace Ledger

/-- A new object on this file. -/
def create (file : Option Bytes) : Ledger := ⟨file, [], false⟩

/-- The hash of the last entry, empty when there is none. -/
def headOf (entries : List LedgerEntry) : Bytes :=
  (entries.getLast?.map LedgerEntry.hash).getD []

def headHash (ledger : Ledger) : Bytes := headOf ledger.entries

theorem headOf_concat (entries : List LedgerEntry) (entry : LedgerEntry) :
    headOf (entries ++ [entry]) = entry.hash := by
  simp [headOf]

/-! ## `load` -/

/-- `std::ifstream` opens, and no read goes bad. -/
structure LoadIo where
  opened : Bool
  readOk : Bool

def LoadIo.clean : LoadIo := ⟨true, true⟩

/-- The loop over the lines. Only the last content line, behind which every line is blank,
may be malformed. -/
def loadLoop (parser : Json.Parser) :
    Nat → List Bytes → List LedgerEntry → Result Unit × List LedgerEntry
  | _, [], entries => (.ok (), entries)
  | i, line :: lines, entries =>
    if line = [] then loadLoop parser (i + 1) lines entries
    else
      match readEntry parser line with
      | some entry => loadLoop parser (i + 1) lines (entries ++ [entry])
      | none =>
        if lines.all (· = []) then loadLoop parser (i + 1) lines entries
        else
          (.error (makeError .validation
            (ascii "ledger: malformed entry on line " ++ decimal (i + 1))), entries)

def load (parser : Json.Parser) (io : LoadIo) (ledger : Ledger) : Result Unit × Ledger :=
  match ledger.file with
  | none =>
    (.error (makeError .validation (ascii "ledger: ledger file not found")),
      { ledger with entries := [] })
  | some file =>
    if io.opened = false then
      (.error (makeError .validation (ascii "ledger: ledger file not found")),
        { ledger with entries := [] })
    else if io.readOk = false then
      (.error (makeError .internal (ascii "ledger: failed to read ledger file")),
        { ledger with entries := [] })
    else
      let (result, entries) := loadLoop parser 0 ((chunks file).map Prod.fst) []
      (result, { ledger with entries := entries })

/-- A fresh object on a readable file runs the loop over its lines. -/
theorem load_clean (parser : Json.Parser) (file : Bytes) :
    (create (some file)).load parser .clean =
      ((loadLoop parser 0 ((chunks file).map Prod.fst) []).1,
        ⟨some file, (loadLoop parser 0 ((chunks file).map Prod.fst) []).2, false⟩) := rfl

/-- The file that holds these entries, one line each. -/
def linesOf (entries : List LedgerEntry) : Bytes :=
  (entries.map entryToLine).flatMap terminated

theorem loadLoop_entryToLine (parser : Json.Parser) {entry : LedgerEntry} (h : entry.Textual)
    (i : Nat) (lines : List Bytes) (before : List LedgerEntry) :
    loadLoop parser i (entryToLine entry :: lines) before =
      loadLoop parser (i + 1) lines (before ++ [entry]) := by
  rw [loadLoop, if_neg (entryToLine_ne_nil entry), readEntry_entryToLine parser h]

theorem loadLoop_entries (parser : Json.Parser) {entries : List LedgerEntry}
    (h : ∀ entry ∈ entries, entry.Textual) (i : Nat) (before : List LedgerEntry) :
    loadLoop parser i (entries.map entryToLine) before = (.ok (), before ++ entries) := by
  induction entries generalizing i before with
  | nil => simp [loadLoop]
  | cons entry entries ih =>
    rw [List.map_cons, loadLoop_entryToLine parser (h entry (by simp)),
      ih (fun e he => h e (by simp [he])), List.append_assoc, List.singleton_append]

/-- **A file of whole lines loads as it was written.** -/
theorem load_linesOf (parser : Json.Parser) {entries : List LedgerEntry}
    (h : ∀ entry ∈ entries, entry.Textual) :
    (create (some (linesOf entries))).load parser .clean =
      (.ok (), ⟨some (linesOf entries), entries, false⟩) := by
  have hlines : ∀ line ∈ entries.map entryToLine, newline ∉ line := by
    intro line hline
    obtain ⟨entry, -, rfl⟩ := List.mem_map.mp hline
    exact newline_notMem_entryToLine entry
  have hchunks : (chunks (linesOf entries)).map Prod.fst = entries.map entryToLine := by
    have hcut := chunks_terminated hlines []
    rw [List.append_nil, chunks_nil, List.append_nil] at hcut
    rw [linesOf, hcut, List.map_map]
    exact List.map_id _
  rw [load_clean, hchunks, loadLoop_entries parser h, List.nil_append]

theorem loadLoop_textual {parser : Json.Parser} {i : Nat} {lines : List Bytes}
    {before entries : List LedgerEntry} {result : Result Unit}
    (hbefore : ∀ entry ∈ before, entry.Textual)
    (h : loadLoop parser i lines before = (result, entries)) :
    ∀ entry ∈ entries, entry.Textual := by
  induction lines generalizing i before with
  | nil =>
    obtain ⟨-, rfl⟩ := Prod.mk.inj h
    exact hbefore
  | cons line lines ih =>
    rw [loadLoop] at h
    by_cases hblank : line = []
    · rw [if_pos hblank] at h
      exact ih hbefore h
    · rw [if_neg hblank] at h
      cases hread : readEntry parser line with
      | some entry =>
        rw [hread] at h
        refine ih (fun e he => ?_) h
        rcases List.mem_append.mp he with he | he
        · exact hbefore e he
        · rw [List.mem_singleton.mp he]
          exact readEntry_textual parser hread
      | none =>
        rw [hread] at h
        dsimp only at h
        split_ifs at h with hlast
        · exact ih hbefore h
        · obtain ⟨-, rfl⟩ := Prod.mk.inj h
          exact hbefore

/-- Loaded entries are well-formed text, whatever the file holds. -/
theorem load_textual {parser : Json.Parser} {io : LoadIo} {file : Option Bytes}
    {result : Result Unit} {ledger : Ledger}
    (h : (create file).load parser io = (result, ledger)) :
    ∀ entry ∈ ledger.entries, entry.Textual := by
  unfold load create at h
  cases file with
  | none =>
    obtain ⟨-, rfl⟩ := Prod.mk.inj h
    simp
  | some file =>
    dsimp only at h
    split_ifs at h with hopened hread
    · obtain ⟨-, rfl⟩ := Prod.mk.inj h
      simp
    · obtain ⟨-, rfl⟩ := Prod.mk.inj h
      simp
    · obtain ⟨-, rfl⟩ := Prod.mk.inj h
      exact loadLoop_textual (by simp) rfl

/-! ## `verify_chain` -/

def brokenAt (i : Nat) (facts : Bool) : Error :=
  makeError .validation
    (ascii "ledger chain broken at seq " ++ decimal i ++
      if facts then
        ascii (" (observed: payload hash mismatch; link and seq intact; stored payload contains "
          ++ "U+FFFD. These are facts for the runbook to interpret, NOT an exoneration ")
          ++ [0xE2, 0x80, 0x94] ++ ascii " the entry is BROKEN and still blocks safe start.)"
      else [])

/-- The loop of `verify_chain`, at index `i` behind an entry with hash `prev`; the genesis
`prev_hash` is empty. -/
def verifyFrom (digest : Digest) : Nat → Bytes → List LedgerEntry → Result Unit
  | _, _, [] => .ok ()
  | i, prev, entry :: entries =>
    let expected := digest.sha256Hex entry.preimage
    let hashOk := expected ≠ [] ∧ entry.hash = expected
    let linkOk := entry.prevHash = prev
    let seqOk := entry.seq = Int64.ofNat i
    if ¬ hashOk ∨ ¬ linkOk ∨ ¬ seqOk then
      .error (brokenAt i (¬ hashOk ∧ linkOk ∧ seqOk ∧ kUtf8Replacement <:+: entry.payload))
    else verifyFrom digest (i + 1) entry.hash entries

def verifyChain (digest : Digest) (ledger : Ledger) : Result Unit :=
  verifyFrom digest 0 [] ledger.entries

/-- The chain conditions, entry by entry. -/
def Linked (digest : Digest) : Nat → Bytes → List LedgerEntry → Prop
  | _, _, [] => True
  | i, prev, entry :: entries =>
    entry.hash = digest.sha256Hex entry.preimage ∧ entry.prevHash = prev
      ∧ entry.seq = Int64.ofNat i ∧ Linked digest (i + 1) entry.hash entries

/-- **What the walk accepts.** -/
theorem verifyFrom_ok_iff (digest : Digest) (i : Nat) (prev : Bytes)
    (entries : List LedgerEntry) :
    verifyFrom digest i prev entries = .ok () ↔ Linked digest i prev entries := by
  induction entries generalizing i prev with
  | nil => simp [verifyFrom, Linked]
  | cons entry entries ih =>
    unfold verifyFrom Linked
    rw [← ih]
    have hne := digest.ne_nil entry.preimage
    dsimp only
    split_ifs with hbad
    · refine iff_of_false (fun h => nomatch h) ?_
      rintro ⟨hhash, hlink, hseq, -⟩
      rcases hbad with h | h | h
      · exact h ⟨hne, hhash⟩
      · exact h hlink
      · exact h hseq
    · simp only [not_or, not_not] at hbad
      obtain ⟨⟨-, hhash⟩, hlink, hseq⟩ := hbad
      simp only [hhash, hlink, hseq, true_and]

theorem verifyChain_ok_iff (digest : Digest) (ledger : Ledger) :
    ledger.verifyChain digest = .ok () ↔ Linked digest 0 [] ledger.entries :=
  verifyFrom_ok_iff digest 0 [] ledger.entries

/-- The conditions at one index. -/
theorem Linked.getElem? {digest : Digest} {i : Nat} {prev : Bytes} {entries : List LedgerEntry}
    (h : Linked digest i prev entries) {j : Nat} {entry : LedgerEntry}
    (hj : entries[j]? = some entry) :
    entry.hash = digest.sha256Hex entry.preimage ∧ entry.seq = Int64.ofNat (i + j) := by
  induction entries generalizing i prev j with
  | nil => simp at hj
  | cons head entries ih =>
    obtain ⟨hhash, -, hseq, hrest⟩ := h
    cases j with
    | zero =>
      obtain rfl : head = entry := by simpa using hj
      exact ⟨hhash, hseq⟩
    | succ j =>
      have htail := ih hrest (show entries[j]? = some entry by simpa using hj)
      rw [show i + (j + 1) = i + 1 + j by omega]
      exact htail

/-- The link between two neighbours. -/
theorem Linked.link {digest : Digest} {i : Nat} {prev : Bytes} {entries : List LedgerEntry}
    (h : Linked digest i prev entries) {j : Nat} {entry next : LedgerEntry}
    (hj : entries[j]? = some entry) (hnext : entries[j + 1]? = some next) :
    next.prevHash = entry.hash := by
  induction entries generalizing i prev j with
  | nil => simp at hj
  | cons head entries ih =>
    obtain ⟨-, -, -, hrest⟩ := h
    cases j with
    | zero =>
      obtain rfl : head = entry := by simpa using hj
      cases entries with
      | nil => simp at hnext
      | cons second entries =>
        obtain rfl : second = next := by simpa using hnext
        exact hrest.2.1
    | succ j =>
      exact ih hrest (show entries[j]? = some entry by simpa using hj)
        (show entries[j + 1]? = some next by simpa using hnext)

/-- The first entry carries the genesis link. -/
theorem Linked.first {digest : Digest} {i : Nat} {prev : Bytes} {entries : List LedgerEntry}
    (h : Linked digest i prev entries) {entry : LedgerEntry} (hfirst : entries[0]? = some entry) :
    entry.prevHash = prev := by
  cases entries with
  | nil => simp at hfirst
  | cons head entries =>
    obtain rfl : head = entry := by simpa using hfirst
    exact h.2.1

theorem Linked.concat {digest : Digest} {i : Nat} {prev : Bytes} {entries : List LedgerEntry}
    (h : Linked digest i prev entries) {entry : LedgerEntry}
    (hhash : entry.hash = digest.sha256Hex entry.preimage)
    (hlink : entry.prevHash = (entries.getLast?.map LedgerEntry.hash).getD prev)
    (hseq : entry.seq = Int64.ofNat (i + entries.length)) :
    Linked digest i prev (entries ++ [entry]) := by
  induction entries generalizing i prev with
  | nil => exact ⟨hhash, hlink, hseq, trivial⟩
  | cons head entries ih =>
    obtain ⟨hh, hl, hs, hrest⟩ := h
    refine ⟨hh, hl, hs, ih hrest ?_ ?_⟩
    · rw [hlink, List.getLast?_cons]
      cases entries.getLast? <;> rfl
    · rw [hseq, List.length_cons, show i + (entries.length + 1) = i + 1 + entries.length by omega]

/-! ## `append` -/

/-- The answers during `restore_to_size`: `file_size`, `resize_file`, the reopening, and the
sync with its close. -/
structure RestoreIo where
  measured : Bool
  resized : Bool
  reopened : Bool
  synced : Bool
  deriving DecidableEq

/-- The answers during one `append`. -/
structure AppendIo where
  hashed : Bool
  measured : Bool
  tailReadable : Bool
  opened : Bool
  write : WriteIo
  restore : RestoreIo
  deriving DecidableEq

/-- Nothing fails. -/
def AppendIo.clean : AppendIo := ⟨true, true, true, true, .done, ⟨true, true, true, true⟩⟩

/-- Whether the file ends on a record boundary; an unreadable tail does not count as one. -/
def endsOnRecordBoundary (readable : Bool) (file : Bytes) : Bool :=
  readable && file.getLast? == some newline

/-- `restore_to_size`: whether the file is proven back at its size, and the file. -/
def restoreToSize (io : RestoreIo) (file : Bytes) (targetSize : Nat) : Bool × Bytes :=
  if io.measured = false then (false, file)
  else if file.length = targetSize then (true, file)
  else if file.length < targetSize then (false, file)
  else if io.resized = false then (false, file)
  else (io.reopened && io.synced, file.take targetSize)

/-- The entry `append` builds before it writes. -/
def nextEntry (digest : Digest) (ledger : Ledger) (payload : Bytes)
    (provenance : ProvenanceContext) : LedgerEntry :=
  let text := canonicalText (scrub payload ++ provenanceBlock provenance)
  { seq := Int64.ofNat ledger.entries.length
    prevHash := ledger.headHash
    payload := text
    hash := digest.sha256Hex (ledger.headHash ++ text) }

/-- The failed write: roll back, then report; a rollback that is not proven seals. -/
def rollBack (ledger : Ledger) (io : AppendIo) (line : Bytes) (flushed : Bool) :
    Result LedgerEntry × Ledger :=
  let before := ledger.file.getD []
  let (restored, file) := restoreToSize io.restore (before ++ io.write.landed line) before.length
  if restored then
    (.error (makeError .internal
      (if flushed then ascii "ledger: failed to durably sync ledger entry"
      else ascii "ledger: failed to write ledger entry")), { ledger with file := some file })
  else
    (.error (makeError .validation (ascii ("ledger: failed to write ledger entry AND could not "
      ++ "restore the file to its pre-append size; ledger sealed"))),
      { ledger with file := some file, poisoned := true })

def append (digest : Digest) (ledger : Ledger) (io : AppendIo) (payload : Bytes)
    (provenance : ProvenanceContext) : Result LedgerEntry × Ledger :=
  if ledger.poisoned then
    (.error (makeError .validation (ascii ("ledger: sealed by an earlier failed append; refusing "
      ++ "to write onto unaccounted bytes"))), ledger)
  else
    let entry := ledger.nextEntry digest payload provenance
    let line := terminated (entryToLine entry)
    let before := ledger.file.getD []
    if io.hashed = false then
      (.error (makeError .internal (ascii "ledger: SHA-256 hashing failed")), ledger)
    else if io.measured = false then
      (.error (makeError .internal
        (ascii "ledger: failed to measure ledger file before append")), ledger)
    else if 0 < before.length ∧ endsOnRecordBoundary io.tailReadable before = false then
      (.error (makeError .validation (ascii ("ledger: refusing to append onto a torn ledger file "
        ++ "(the last record has no line terminator)"))), { ledger with poisoned := true })
    else if io.opened = false then
      (.error (makeError .internal (ascii "ledger: failed to open ledger file for append")),
        ledger)
    else
      match io.write with
      | .done =>
        (.ok entry,
          { ledger with file := some (before ++ line), entries := ledger.entries ++ [entry] })
      | .shortWrite _ => ledger.rollBack io line false
      | .syncFailed _ => ledger.rollBack io line true

/-- What one `append` can do to the chain in memory: extend it by its entry, or nothing. -/
theorem append_entries (digest : Digest) (ledger : Ledger) (io : AppendIo) (payload : Bytes)
    (provenance : ProvenanceContext) :
    (∃ ledger', ledger.append digest io payload provenance =
        (.ok (ledger.nextEntry digest payload provenance), ledger')
      ∧ ledger'.entries = ledger.entries ++ [ledger.nextEntry digest payload provenance])
    ∨ ∃ error ledger', ledger.append digest io payload provenance = (.error error, ledger')
      ∧ ledger'.entries = ledger.entries := by
  have hroll : ∀ line flushed, ∃ error ledger',
      ledger.rollBack io line flushed = (.error error, ledger')
        ∧ ledger'.entries = ledger.entries := by
    intro line flushed
    unfold rollBack
    dsimp only
    split_ifs
    · exact ⟨_, _, rfl, rfl⟩
    · exact ⟨_, _, rfl, rfl⟩
    · exact ⟨_, _, rfl, rfl⟩
  unfold append
  dsimp only
  split_ifs
  · exact .inr ⟨_, _, rfl, rfl⟩
  · exact .inr ⟨_, _, rfl, rfl⟩
  · exact .inr ⟨_, _, rfl, rfl⟩
  · exact .inr ⟨_, _, rfl, rfl⟩
  · exact .inr ⟨_, _, rfl, rfl⟩
  · cases io.write with
    | done => exact .inl ⟨_, rfl, rfl⟩
    | shortWrite n => exact .inr (hroll _ false)
    | syncFailed n => exact .inr (hroll _ true)

theorem nextEntry_linked (digest : Digest) {ledger : Ledger}
    (h : Linked digest 0 [] ledger.entries) (payload : Bytes) (provenance : ProvenanceContext) :
    Linked digest 0 [] (ledger.entries ++ [ledger.nextEntry digest payload provenance]) := by
  refine h.concat rfl rfl ?_
  rw [Nat.zero_add]
  rfl

end Ledger

end BrokerExec
