import BrokerExec.Json.Reader
import BrokerExec.Ledger.Checkpoint
import Mathlib.Data.Set.Function

/-!
# What the checkpoint proves about the chain

The hash preimage of an entry is `prev_hash + payload` with nothing between the two, the
sequence number is outside it, and the signature covers the head hash alone. One preimage can
therefore be cut in more than one place:

* two or more checkpointed entries can be replaced by **one** genesis entry whose payload is
  the old head's `prev_hash` followed by its payload (`merged`);
* a single entry whose payload begins with the digest of some text can be replaced by **two**
  entries, that text first (`split`).

Neither needs a new signature or a hash collision. **`withstands_iff`** says that nothing
else goes wrong: a checkpointed run is tamper-evident exactly when every checkpoint was taken
at one entry and the entry's payload begins with no such digest.
-/

namespace BrokerExec.Ledger

/-! ## Custody: how a checkpointed history comes about -/

section Custody

variable (parser : Json.Parser) (digest : Digest) (ed : Ed25519) (privateKey publicKey : Bytes)

/-- The runs of the key holder from an empty ledger, with the histories that
`write_checkpoint` signed: appends that may fail anywhere, checkpoints, and restarts that read
back at least what the last process had. -/
inductive Custody : Ledger → List (List LedgerEntry) → Prop where
  | fresh (file : Option Bytes) : Custody (create file) []
  | append {ledger : Ledger} {marks : List (List LedgerEntry)} (h : Custody ledger marks)
      (io : AppendIo) (payload : Bytes) (provenance : ProvenanceContext) :
      Custody (ledger.append digest io payload provenance).2 marks
  | checkpoint {ledger : Ledger} {marks : List (List LedgerEntry)} (h : Custody ledger marks)
      (io : CheckpointIo) (published : Option Bytes)
      (hok : (ledger.writeCheckpoint ed io privateKey publicKey published).1 = .ok ()) :
      Custody ledger (ledger.entries :: marks)
  | restart {ledger ledger' : Ledger} {marks : List (List LedgerEntry)} (h : Custody ledger marks)
      (file : Option Bytes) (io : LoadIo)
      (hload : (create file).load parser io = (.ok (), ledger'))
      (hverify : ledger'.verifyChain digest = .ok ())
      (hkeeps : ledger.entries <+: ledger'.entries) : Custody ledger' marks

/-- What holds along every run. -/
structure Kept (ledger : Ledger) (marks : List (List LedgerEntry)) : Prop where
  linked : Linked digest 0 [] ledger.entries
  payloads : ∀ entry ∈ ledger.entries, WellFormed entry.payload
  /-- A checkpointed history is a front part of the chain, not empty, and its head is signed. -/
  marks : ∀ mark ∈ marks, mark <+: ledger.entries ∧ mark ≠ []
    ∧ ∃ signature, ed.sign privateKey (headOf mark) = .signed signature

end Custody

variable {parser : Json.Parser} {digest : Digest} {ed : Ed25519} {privateKey publicKey : Bytes}

theorem signHead_ok {ledger : Ledger} {signature : Bytes}
    (h : ledger.signHead ed privateKey = .ok signature) :
    ed.sign privateKey ledger.headHash = .signed signature := by
  unfold signHead at h
  split_ifs at h with hempty hlength
  cases hsign : ed.sign privateKey ledger.headHash with
  | signed s =>
    rw [hsign] at h
    rw [Except.ok.inj h]
  | _ =>
    rw [hsign] at h
    cases h

theorem writeCheckpoint_ok {ledger : Ledger} {io : CheckpointIo} {published : Option Bytes}
    (h : (ledger.writeCheckpoint ed io privateKey publicKey published).1 = .ok ()) :
    ledger.entries ≠ []
      ∧ ∃ signature, ed.sign privateKey (headOf ledger.entries) = .signed signature := by
  unfold writeCheckpoint at h
  by_cases hempty : ledger.headHash = []
  · rw [if_pos hempty] at h
    cases h
  · rw [if_neg hempty] at h
    have hne : ledger.entries ≠ [] := by
      intro hnil
      exact hempty (by rw [headHash, hnil]; rfl)
    cases hsign : ledger.signHead ed privateKey with
    | ok signature => exact ⟨hne, signature, signHead_ok hsign⟩
    | error error =>
      rw [eodReport, hsign] at h
      cases h

theorem Kept.append {ledger : Ledger} {marks : List (List LedgerEntry)}
    (h : Kept digest ed privateKey ledger marks) (io : AppendIo) (payload : Bytes)
    (provenance : ProvenanceContext) :
    Kept digest ed privateKey (ledger.append digest io payload provenance).2 marks := by
  rcases append_entries digest ledger io payload provenance with
    ⟨ledger', happend, hentries⟩ | ⟨error, ledger', happend, hentries⟩
  · rw [happend]
    refine ⟨?_, ?_, ?_⟩
    · rw [hentries]
      exact nextEntry_linked digest h.linked payload provenance
    · intro entry hentry
      rw [hentries] at hentry
      rcases List.mem_append.mp hentry with hentry | hentry
      · exact h.payloads entry hentry
      · rw [List.mem_singleton.mp hentry]
        exact Domain.canonicalText_wellFormed _
    · intro mark hmark
      obtain ⟨hfront, hrest⟩ := h.marks mark hmark
      rw [hentries]
      exact ⟨hfront.trans (List.prefix_append _ _), hrest⟩
  · rw [happend]
    refine ⟨?_, ?_, ?_⟩
    · rw [hentries]
      exact h.linked
    · rw [hentries]
      exact h.payloads
    · rw [hentries]
      exact h.marks

/-- **Every run keeps its chain intact and its checkpointed histories in front.** -/
theorem Custody.kept {ledger : Ledger} {marks : List (List LedgerEntry)}
    (h : Custody parser digest ed privateKey publicKey ledger marks) :
    Kept digest ed privateKey ledger marks := by
  induction h with
  | fresh file => exact ⟨trivial, by simp [create], by simp⟩
  | append _ io payload provenance ih => exact ih.append io payload provenance
  | @checkpoint ledger marks _ io published hok ih =>
    obtain ⟨hne, hsigned⟩ := writeCheckpoint_ok hok
    refine ⟨ih.linked, ih.payloads, ?_⟩
    intro mark hmark
    rcases List.mem_cons.mp hmark with rfl | hmark
    · exact ⟨List.prefix_rfl, hne, hsigned⟩
    · exact ih.marks mark hmark
  | restart _ file io hload hverify hkeeps ih =>
    refine ⟨(verifyChain_ok_iff _ _).mp hverify, ?_, ?_⟩
    · exact fun entry hentry => (load_textual hload entry hentry).payload
    · intro mark hmark
      obtain ⟨hfront, hrest⟩ := ih.marks mark hmark
      exact ⟨hfront.trans hkeeps, hrest⟩

/-! ## The property -/

/-- The hash preimages of these entries. -/
def preimages (entries : List LedgerEntry) : Set Bytes := fun p => ∃ e ∈ entries, e.preimage = p

/-- The checkpoint carries no forged signature: one that verifies under the pinned key covers
a head the key holder passed to `write_checkpoint`. -/
def Unforged (parser : Json.Parser) (ed : Ed25519) (pinned : Bytes)
    (marks : List (List LedgerEntry)) (checkpoint : Bytes) : Prop :=
  ∀ report, readReport parser checkpoint = some report →
    ed.verify pinned report.headHash report.signature = .accepted →
    ∃ mark ∈ marks, headOf mark = report.headHash

/-- **Tamper evidence of one checkpointed history** `mark`: whatever stands in the ledger file
and in the checkpoint file, if all three checks pass the chain still begins with `mark`. -/
def Withstands (parser : Json.Parser) (digest : Digest) (ed : Ed25519) (pinned : Bytes)
    (marks : List (List LedgerEntry)) (mark : List LedgerEntry) : Prop :=
  ∀ (file checkpoint : Bytes) (loadIo : LoadIo) (readIo : CheckpointReadIo) (rewritten : Ledger),
    Unforged parser ed pinned marks checkpoint →
    (create (some file)).load parser loadIo = (.ok (), rewritten) →
    Set.InjOn digest.sha256Hex (preimages mark ∪ preimages rewritten.entries) →
    rewritten.verifyChain digest = .ok () →
    rewritten.verifyAgainstCheckpoint parser ed readIo pinned (some checkpoint) = .ok () →
    mark.length ≤ rewritten.entries.length ∧ rewritten.entries.take mark.length = mark

/-- The payload begins with the digest of a text that is not the entry's own preimage. -/
def Splits (digest : Digest) (entry : LedgerEntry) : Prop :=
  ∃ text, WellFormed text ∧ digest.sha256Hex text ≠ entry.hash
    ∧ digest.sha256Hex text <+: entry.payload

/-! ## Rewrites that pass -/

/-- An intact chain that carries a signed head anywhere passes all three checks, under a
checkpoint that states its position. -/
theorem Withstands.of_rewrite {marks : List (List LedgerEntry)} {mark rewritten : List LedgerEntry}
    (h : Withstands parser digest ed publicKey marks mark)
    (hkey : publicKey.length = kEd25519KeyBytes) {signature : Bytes} {signed : List LedgerEntry}
    (hsigned : signed ∈ marks)
    (hverify : ed.verify publicKey (headOf signed) signature = .accepted)
    (htextual : ∀ entry ∈ rewritten, entry.Textual) (hlinked : Linked digest 0 [] rewritten)
    (hsize : rewritten.length < 2 ^ 63) {i : Nat} {entry : LedgerEntry}
    (hentry : rewritten[i]? = some entry) (hhead : entry.hash = headOf signed)
    (hinj : Set.InjOn digest.sha256Hex (preimages mark ∪ preimages rewritten)) :
    mark.length ≤ rewritten.length ∧ rewritten.take mark.length = mark := by
  have hhash : WellFormed entry.hash :=
    (htextual entry (List.mem_of_getElem? hentry)).hash
  let report := EodReport.mk (Int64.ofNat (i + 1)) entry.hash signature publicKey
  have hunforged : Unforged parser ed publicKey marks (Json.dump report.toJson) := by
    intro report' hread _
    rw [readReport_dump parser hhash] at hread
    rw [← Option.some.inj hread]
    exact ⟨signed, hsigned, hhead.symm⟩
  refine h _ _ .clean .clean _ hunforged (load_linesOf parser htextual) hinj
    ((verifyChain_ok_iff _ _).mpr hlinked) ?_
  exact verifyAgainstCheckpoint_report parser hkey hsize hentry hhash (by rw [hhead]; exact hverify)

/-- One genesis entry with the preimage, and so the hash, of `last`. -/
def merged (last : LedgerEntry) : LedgerEntry :=
  { seq := 0, prevHash := [], payload := last.preimage, hash := last.hash }

/-- **Two or more checkpointed entries do not withstand**: the merged entry stands for all of
them. -/
theorem not_withstands_of_two {marks : List (List LedgerEntry)} {front : List LedgerEntry}
    {last : LedgerEntry} (hfront : front ≠ []) (hmark : front ++ [last] ∈ marks)
    (hkey : publicKey.length = kEd25519KeyBytes) {signature : Bytes}
    (hverify : ed.verify publicKey last.hash signature = .accepted)
    (hhash : last.hash = digest.sha256Hex last.preimage) (htext : WellFormed last.preimage)
    (hinj : Set.InjOn digest.sha256Hex (preimages (front ++ [last]))) :
    ¬ Withstands parser digest ed publicKey marks (front ++ [last]) := by
  intro h
  have htextual : ∀ entry ∈ [merged last], entry.Textual := by
    intro entry hentry
    rw [List.mem_singleton.mp hentry]
    refine ⟨.nil, htext, ?_⟩
    show WellFormed last.hash
    rw [hhash]
    exact digest.wellFormed _
  have hlinked : Linked digest 0 [] [merged last] := ⟨hhash, rfl, rfl, trivial⟩
  -- the rewritten chain hashes nothing that the genuine one did not hash
  have hpreimages : preimages (front ++ [last]) ∪ preimages [merged last]
      = preimages (front ++ [last]) := by
    apply Set.union_eq_self_of_subset_right
    rintro p ⟨entry, hentry, rfl⟩
    rw [List.mem_singleton.mp hentry]
    exact ⟨last, by simp, rfl⟩
  have hlength := (h.of_rewrite hkey hmark (by rw [headOf_concat]; exact hverify) htextual hlinked
    (by simp) (show [merged last][0]? = some (merged last) from rfl)
    (headOf_concat front last).symm (by rw [hpreimages]; exact hinj)).1
  have hpositive : 0 < front.length := List.length_pos_iff.mpr hfront
  rw [List.length_append, List.length_singleton, List.length_singleton] at hlength
  omega

/-- **A splitting payload does not withstand**: the text whose digest it begins with becomes
the first entry, the rest of the payload the second. -/
theorem not_withstands_of_splits {marks : List (List LedgerEntry)} {entry : LedgerEntry}
    (hmark : [entry] ∈ marks) (hkey : publicKey.length = kEd25519KeyBytes) {signature : Bytes}
    (hverify : ed.verify publicKey entry.hash signature = .accepted)
    (hlinked : Linked digest 0 [] [entry]) (hpayload : WellFormed entry.payload)
    (hsplits : Splits digest entry) :
    ¬ Withstands parser digest ed publicKey marks [entry] := by
  intro h
  obtain ⟨text, htext, hne, tail, htail⟩ := hsplits
  obtain ⟨hhash, hlink, hseq, -⟩ := hlinked
  have hascii : ∀ b ∈ digest.sha256Hex text, b < 0x80 := fun b hb =>
    IntentLog.isHexDigit_lt (digest.mem_sha256Hex text b hb)
  have hpreimage : entry.preimage = entry.payload := by
    rw [LedgerEntry.preimage, hlink, List.nil_append]
  -- the entry's own preimage, cut into a genesis entry and its successor
  let first : LedgerEntry := ⟨0, [], text, digest.sha256Hex text⟩
  let second : LedgerEntry := ⟨1, digest.sha256Hex text, tail, entry.hash⟩
  have hsecond : second.preimage = entry.preimage := htail.trans hpreimage.symm
  have hdigest := digest.wellFormed text
  have htextual : ∀ e ∈ [first, second], e.Textual := by
    intro e he
    rcases List.mem_cons.mp he with rfl | he
    · exact ⟨.nil, htext, hdigest⟩
    · rw [List.mem_singleton.mp he]
      refine ⟨hdigest, .of_ascii_append hascii (htail ▸ hpayload), ?_⟩
      show WellFormed entry.hash
      rw [hhash]
      exact digest.wellFormed _
  have hchain : Linked digest 0 [] [first, second] :=
    ⟨rfl, rfl, rfl, by rw [hsecond]; exact hhash, rfl, rfl, trivial⟩
  -- only two texts are hashed, and their digests differ
  have hinj : Set.InjOn digest.sha256Hex (preimages [entry] ∪ preimages [first, second]) := by
    have hcases : ∀ p ∈ preimages [entry] ∪ preimages [first, second],
        p = text ∨ p = entry.preimage := by
      rintro p (⟨e, he, rfl⟩ | ⟨e, he, rfl⟩)
      · exact .inr (by rw [List.mem_singleton.mp he])
      · rcases List.mem_cons.mp he with rfl | he
        · exact .inl rfl
        · exact .inr (by rw [List.mem_singleton.mp he, hsecond])
    rw [hhash] at hne
    intro p hp q hq hpq
    rcases hcases p hp with rfl | rfl
    · rcases hcases q hq with rfl | rfl
      · rfl
      · exact absurd hpq hne
    · rcases hcases q hq with rfl | rfl
      · exact absurd hpq.symm hne
      · rfl
  have hfirst := (h.of_rewrite hkey hmark hverify htextual hchain (by simp)
    (show [first, second][1]? = some second from rfl) rfl hinj).2
  obtain hentry : first = entry := by simpa using hfirst
  exact hne (by rw [← hentry])

/-! ## Nothing else passes -/

/-- **The walk back.** If any entry of an intact chain carries the hash of a genesis entry that
does not split, the chain begins with that genesis entry. -/
theorem first_of_hash {entry : LedgerEntry} {rewritten : List LedgerEntry}
    (hentry : Linked digest 0 [] [entry]) (hsplits : ¬ Splits digest entry)
    (hlinked : Linked digest 0 [] rewritten) (htextual : ∀ e ∈ rewritten, e.Textual)
    (hinj : Set.InjOn digest.sha256Hex (preimages [entry] ∪ preimages rewritten))
    (i : Nat) {found : LedgerEntry} (hfound : rewritten[i]? = some found)
    (hhash : found.hash = entry.hash) : rewritten[0]? = some entry := by
  obtain ⟨hentryHash, hentryLink, hentrySeq, -⟩ := hentry
  have hpayload : entry.preimage = entry.payload := by
    rw [LedgerEntry.preimage, hentryLink, List.nil_append]
  induction i generalizing found with
  | zero =>
    -- the same hash at the genesis position is the same entry
    obtain ⟨hfoundHash, hfoundSeq⟩ := hlinked.getElem? hfound
    have hfoundLink := hlinked.first hfound
    have hpreimage : found.preimage = entry.preimage := by
      refine hinj (.inr ⟨found, List.mem_of_getElem? hfound, rfl⟩)
        (.inl ⟨entry, by simp, rfl⟩) ?_
      rw [← hfoundHash, ← hentryHash, hhash]
    rw [hpayload, LedgerEntry.preimage, hfoundLink, List.nil_append] at hpreimage
    have heq : found = entry := LedgerEntry.ext (hfoundSeq.trans hentrySeq.symm)
      (hfoundLink.trans hentryLink.symm) hpreimage hhash
    rw [hfound, heq]
  | succ i ih =>
    -- a later position would put the digest of the entry before it in front of the payload
    have hi : i < rewritten.length := by
      have := (List.getElem?_eq_some_iff.mp hfound).1
      omega
    obtain ⟨prior, hprior⟩ : ∃ prior, rewritten[i]? = some prior :=
      ⟨_, List.getElem?_eq_getElem hi⟩
    obtain ⟨hpriorHash, -⟩ := hlinked.getElem? hprior
    obtain ⟨hfoundHash, -⟩ := hlinked.getElem? hfound
    have hpriorText := htextual prior (List.mem_of_getElem? hprior)
    have hpreimage : found.preimage = entry.preimage := by
      refine hinj (.inr ⟨found, List.mem_of_getElem? hfound, rfl⟩)
        (.inl ⟨entry, by simp, rfl⟩) ?_
      rw [← hfoundHash, ← hentryHash, hhash]
    by_cases hsame : prior.hash = entry.hash
    · exact ih hprior hsame
    · refine absurd ⟨prior.preimage, hpriorText.prevHash.append hpriorText.payload, ?_, ?_⟩ hsplits
      · rw [← hpriorHash]
        exact hsame
      · rw [← hpriorHash, ← hlinked.link hprior hfound, ← hpayload, ← hpreimage]
        exact List.prefix_append _ _

theorem withstands_of_single {ledger : Ledger} {marks : List (List LedgerEntry)}
    (hkept : Kept digest ed privateKey ledger marks)
    (hsingle : ∀ mark ∈ marks, ∃ entry, mark = [entry] ∧ ¬ Splits digest entry)
    {mark : List LedgerEntry} (hmark : mark ∈ marks) :
    Withstands parser digest ed publicKey marks mark := by
  intro file checkpoint loadIo readIo rewritten hunforged hload hinj hchain haccepted
  obtain ⟨entry, rfl, hsplits⟩ := hsingle mark hmark
  obtain ⟨report, i, found, hread, hverify, hfound, hhead⟩ := verifyAgainstCheckpoint_ok haccepted
  obtain ⟨signed, hsigned, hsignedHead⟩ := hunforged report hread hverify
  -- every checkpointed history is the same one-entry front of the genuine chain
  obtain ⟨other, rfl, -⟩ := hsingle signed hsigned
  obtain ⟨rest, hrest⟩ := (hkept.marks _ hmark).1
  obtain ⟨rest', hrest'⟩ := (hkept.marks _ hsigned).1
  have hlinked := hkept.linked
  rw [← hrest'] at hrest
  obtain rfl : entry = other := (List.cons.inj hrest).1
  rw [← hrest'] at hlinked
  have hentry : Linked digest 0 [] [entry] := ⟨hlinked.1, hlinked.2.1, hlinked.2.2.1, trivial⟩
  have hfirst := first_of_hash hentry hsplits ((verifyChain_ok_iff _ _).mp hchain)
    (load_textual hload) hinj i hfound (hhead.trans hsignedHead.symm)
  cases hentries : rewritten.entries with
  | nil => simp [hentries] at hfirst
  | cons head tail =>
    obtain rfl : head = entry := by simpa [hentries] using hfirst
    simp

/-- **When a checkpointed run is tamper-evident**: exactly when every checkpoint was taken at
one entry, and that entry's payload does not begin with the digest of another text. -/
theorem withstands_iff {ledger : Ledger} {marks : List (List LedgerEntry)}
    (hcustody : Custody parser digest ed privateKey publicKey ledger marks)
    (hkey : publicKey.length = kEd25519KeyBytes)
    (hpair : ∀ message signature, ed.sign privateKey message = .signed signature →
      ed.verify publicKey message signature = .accepted)
    (hinj : ∀ mark ∈ marks, Set.InjOn digest.sha256Hex (preimages mark)) :
    (∀ mark ∈ marks, Withstands parser digest ed publicKey marks mark) ↔
      ∀ mark ∈ marks, ∃ entry, mark = [entry] ∧ ¬ Splits digest entry := by
  have hkept := hcustody.kept
  refine ⟨?_, fun hsingle mark hmark => withstands_of_single hkept hsingle hmark⟩
  intro hwithstands mark hmark
  obtain ⟨⟨rest, hrest⟩, hne, signature, hsign⟩ := hkept.marks mark hmark
  have hverify := hpair _ _ hsign
  obtain ⟨front, last, rfl⟩ : ∃ front last, mark = front ++ [last] :=
    ⟨_, _, (List.dropLast_concat_getLast hne).symm⟩
  rw [headOf_concat] at hverify
  have hlinked := hkept.linked
  have hpayloads := hkept.payloads
  rw [← hrest] at hlinked hpayloads
  have hlast : (front ++ [last] ++ rest)[front.length]? = some last := by simp
  obtain ⟨hhash, -⟩ := hlinked.getElem? hlast
  have hpayload := hpayloads last (List.mem_of_getElem? hlast)
  cases front with
  | nil =>
    refine ⟨last, rfl, fun hsplits => ?_⟩
    exact not_withstands_of_splits hmark hkey hverify
      ⟨hlinked.1, hlinked.2.1, hlinked.2.2.1, trivial⟩ hpayload hsplits (hwithstands _ hmark)
  | cons first middle =>
    -- the previous hash is the digest of the entry before, so the preimage is text
    have hinside : middle.length < (first :: middle ++ [last] ++ rest).length := by
      rw [List.length_append, List.length_append, List.length_cons]
      omega
    obtain ⟨prior, hprior⟩ : ∃ prior, (first :: middle ++ [last] ++ rest)[middle.length]?
        = some prior := ⟨_, List.getElem?_eq_getElem hinside⟩
    have hlink := hlinked.link hprior hlast
    have htext : WellFormed last.preimage := by
      rw [LedgerEntry.preimage, hlink, (hlinked.getElem? hprior).1]
      exact (digest.wellFormed _).append hpayload
    exact absurd (hwithstands _ hmark)
      (not_withstands_of_two (by simp) hmark hkey hverify hhash htext (hinj _ hmark))

theorem Kept.last_hash {ledger : Ledger} {marks : List (List LedgerEntry)}
    (h : Kept digest ed privateKey ledger marks) {front : List LedgerEntry} {last : LedgerEntry}
    (hentries : ledger.entries = front ++ [last]) :
    last.hash = digest.sha256Hex last.preimage := by
  have hlast : ledger.entries[front.length]? = some last := by simp [hentries]
  exact (h.linked.getElem? hlast).1

/-! Two sample runs of the key holder: `oneEntry` is checkpointed at its one entry,
`twoEntries` at its two. -/

def sampleEd : Ed25519 where
  sign key message := if key = List.replicate 32 1 then .signed message else .keyImportFailed
  verify key message signature :=
    if key = List.replicate 32 2 ∧ signature = message then .accepted else .rejected

def oneEntry : Ledger := ((create none).append .sha256 .clean (ascii "a") ⟨[], [], []⟩).2

def twoEntries : Ledger := (oneEntry.append .sha256 .clean (ascii "b") ⟨[], [], []⟩).2

theorem oneEntry_entries : oneEntry.entries =
    [⟨0, [], ascii "a", IntentLog.sha256Hex (ascii "a")⟩] := by
  have hpayload : Domain.canonicalText
      (Domain.scrub (ascii "a") ++ provenanceBlock ⟨[], [], []⟩) = ascii "a" := by decide
  rw [oneEntry]
  simp [append, create, AppendIo.clean, nextEntry, hpayload, headHash, headOf, Digest.sha256]

theorem sample_verify (message signature : Bytes)
    (h : sampleEd.sign (List.replicate 32 1) message = .signed signature) :
    sampleEd.verify (List.replicate 32 2) message signature = .accepted := by
  obtain rfl : message = signature := SignVerdict.signed.inj h
  simp [sampleEd]

theorem sample_checkpoint {ledger : Ledger} (hhead : ledger.headHash ≠ []) :
    (ledger.writeCheckpoint sampleEd .clean (List.replicate 32 1) (List.replicate 32 2) none).1
      = .ok () :=
  writeCheckpoint_clean hhead rfl rfl _ _

theorem oneEntry_custody : Custody Json.reader .sha256 sampleEd (List.replicate 32 1)
    (List.replicate 32 2) oneEntry [oneEntry.entries] := by
  refine .checkpoint (.append (.fresh none) .clean _ _) .clean none (sample_checkpoint ?_)
  show oneEntry.headHash ≠ []
  rw [headHash, oneEntry_entries]
  exact IntentLog.sha256Hex_ne_nil _

theorem withstands_iff_one_entry :
    Custody Json.reader .sha256 sampleEd (List.replicate 32 1) (List.replicate 32 2) oneEntry
        [oneEntry.entries]
      ∧ ((∀ mark ∈ [oneEntry.entries],
          Withstands Json.reader .sha256 sampleEd (List.replicate 32 2) [oneEntry.entries] mark) ↔
        ∀ mark ∈ [oneEntry.entries], ∃ entry, mark = [entry] ∧ ¬ Splits .sha256 entry) := by
  refine ⟨oneEntry_custody, withstands_iff oneEntry_custody rfl sample_verify ?_⟩
  intro mark hmark
  rw [List.mem_singleton.mp hmark, oneEntry_entries]
  rintro p ⟨e, he, rfl⟩ q ⟨e', he', rfl⟩ -
  rw [List.mem_singleton.mp he, List.mem_singleton.mp he']

theorem twoEntries_entries : ∃ second : LedgerEntry,
    twoEntries.entries = oneEntry.entries ++ [second]
    ∧ second.preimage = IntentLog.sha256Hex (ascii "a") ++ ascii "b" := by
  have hpayload : Domain.canonicalText
      (Domain.scrub (ascii "b") ++ provenanceBlock ⟨[], [], []⟩) = ascii "b" := by decide
  have hboundary : ∀ line : Bytes, endsOnRecordBoundary true (terminated line) = true := by
    intro line
    simp [endsOnRecordBoundary, terminated]
  refine ⟨oneEntry.nextEntry .sha256 (ascii "b") ⟨[], [], []⟩, ?_, ?_⟩
  · rw [twoEntries]
    simp [append, oneEntry, create, AppendIo.clean, hboundary]
  · rw [LedgerEntry.preimage, nextEntry, hpayload, headHash, oneEntry_entries]
    rfl

/-- **The merged entry passes all three checks**: with SHA-256 itself, a ledger of two entries
that was checkpointed is replaced by one of one entry. -/
theorem merged_entry_passes :
    Custody Json.reader .sha256 sampleEd (List.replicate 32 1) (List.replicate 32 2) twoEntries
        [twoEntries.entries]
      ∧ Set.InjOn Digest.sha256.sha256Hex (preimages twoEntries.entries)
      ∧ ¬ Withstands Json.reader .sha256 sampleEd (List.replicate 32 2) [twoEntries.entries]
          twoEntries.entries := by
  have hdistinct : IntentLog.sha256Hex (ascii "a")
      ≠ IntentLog.sha256Hex (IntentLog.sha256Hex (ascii "a") ++ ascii "b") := by decide +kernel
  have hrun : Custody Json.reader .sha256 sampleEd (List.replicate 32 1) (List.replicate 32 2)
      twoEntries [] := .append (.append (.fresh none) .clean _ _) .clean _ _
  obtain ⟨second, hentries, hpreimage⟩ := twoEntries_entries
  have hhash := Kept.last_hash (Custody.kept hrun) hentries
  have hhead : twoEntries.headHash ≠ [] := by
    rw [headHash, hentries, headOf_concat, hhash]
    exact Digest.ne_nil _ _
  have hinj : Set.InjOn Digest.sha256.sha256Hex (preimages twoEntries.entries) := by
    have hcases : ∀ p ∈ preimages twoEntries.entries, p = ascii "a" ∨ p = second.preimage := by
      rintro p ⟨e, he, rfl⟩
      rw [hentries, oneEntry_entries] at he
      rcases List.mem_cons.mp he with rfl | he
      · exact .inl rfl
      · exact .inr (by rw [List.mem_singleton.mp he])
    rw [← hpreimage] at hdistinct
    intro p hp q hq hpq
    rcases hcases p hp with rfl | rfl
    · rcases hcases q hq with rfl | rfl
      · rfl
      · exact absurd hpq hdistinct
    · rcases hcases q hq with rfl | rfl
      · exact absurd hpq.symm hdistinct
      · rfl
  refine ⟨.checkpoint hrun .clean none (sample_checkpoint hhead), hinj, ?_⟩
  have htext : WellFormed second.preimage := by
    rw [hpreimage]
    exact (IntentLog.sha256Hex_wellFormed _).append (.of_ascii (by decide))
  rw [hentries] at hinj ⊢
  exact not_withstands_of_two (by simp [oneEntry_entries]) (by simp) rfl
    (sample_verify _ _ rfl) hhash htext hinj

end BrokerExec.Ledger
