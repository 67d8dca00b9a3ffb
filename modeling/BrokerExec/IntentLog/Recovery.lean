import BrokerExec.IntentLog.Log
import BrokerExec.Json.Reader

/-!
# Crash recovery of the intent log

`Intact log records` is the invariant between calls: the file is exactly the lines of a
verified chain and the append cursor stands behind its last record.

* **`append_intact`** — a successful append extends the chain by its record;
* **`replay_torn`** — with any front part of a further line behind an intact file, `replay`
  returns the chain, with the further record when its text is whole, and leaves the log
  intact;
* **`replay_after_crash`** — so a crash at any byte of an append loses nothing and a log
  goes on growing from there;
* **`replay_after_failed_appends`** — in one process, a failed append that left bytes behind
  is harmless as long as no later append writes anything.
-/

namespace BrokerExec.IntentLog

open BrokerExec.Domain (canonicalText_wellFormed)

/-! ## Verified chains -/

/-- Records that `replay` accepts from the cursor `(seq, prev)` on. -/
inductive Chained : Int64 → Bytes → List IntentRecord → Prop where
  | nil {seq : Int64} {prev : Bytes} : Chained seq prev []
  | cons {record : IntentRecord} {rest : List IntentRecord}
      (hhash : computeHash record = record.hash) (htext : record.Textual)
      (hrest : Chained (record.seq + 1) record.hash rest) :
      Chained record.seq record.prevHash (record :: rest)

/-- The cursor behind a chain. -/
def tip (seq : Int64) (prev : Bytes) : List IntentRecord → Int64 × Bytes
  | [] => (seq, prev)
  | record :: rest => tip (seq + 1) record.hash rest

/-- The file content of these records. -/
def linesOf (records : List IntentRecord) : Bytes := records.flatMap toJsonLine

theorem Chained.concat {seq : Int64} {prev : Bytes} {records : List IntentRecord}
    (h : Chained seq prev records) {record : IntentRecord}
    (htip : tip seq prev records = (record.seq, record.prevHash))
    (hhash : computeHash record = record.hash) (htext : record.Textual) :
    Chained seq prev (records ++ [record]) := by
  induction h with
  | nil =>
    obtain ⟨rfl, rfl⟩ := Prod.mk.inj htip
    exact .cons hhash htext .nil
  | cons hhash' htext' _ ih => exact .cons hhash' htext' (ih htip)

theorem tip_concat (seq : Int64) (prev : Bytes) (records : List IntentRecord)
    (record : IntentRecord) :
    tip seq prev (records ++ [record]) = ((tip seq prev records).1 + 1, record.hash) := by
  induction records generalizing seq prev with
  | nil => rfl
  | cons r rest ih => exact ih (seq + 1) r.hash

/-- The cursor behind a non-empty chain is read off its last record. -/
theorem Chained.tip_eq {seq : Int64} {prev : Bytes} {records : List IntentRecord}
    (h : Chained seq prev records) {last : IntentRecord} (hlast : records.getLast? = some last) :
    tip seq prev records = (last.seq + 1, last.hash) ∧ last.hash = computeHash last := by
  induction h with
  | nil => simp at hlast
  | @cons record rest hhash _ _ ih =>
    cases rest with
    | nil =>
      obtain rfl : record = last := by simpa using hlast
      exact ⟨rfl, hhash.symm⟩
    | cons r rest =>
      rw [List.getLast?_cons_cons] at hlast
      exact ih hlast

theorem linesOf_append (a b : List IntentRecord) : linesOf (a ++ b) = linesOf a ++ linesOf b :=
  List.flatMap_append

theorem linesOf_singleton (record : IntentRecord) :
    linesOf [record] = record.text ++ [newline] := by
  simp [linesOf, toJsonLine, terminated]

theorem chunks_linesOf (records : List IntentRecord) (rest : Bytes) :
    chunks (linesOf records ++ rest) = records.map (fun r => (r.text, false)) ++ chunks rest := by
  have hlines : linesOf records = (records.map IntentRecord.text).flatMap terminated := by
    rw [List.flatMap_map]
    rfl
  have hfree : ∀ l ∈ records.map IntentRecord.text, newline ∉ l := by
    intro l hl
    obtain ⟨r, -, rfl⟩ := List.mem_map.mp hl
    exact Json.newline_notMem_dump _
  rw [hlines, chunks_terminated hfree, List.map_map]
  rfl

/-! ## The replay loop over a chain -/

/-- The cursor once `records`, all terminated, are accepted. -/
def Cursor.past : Cursor → List IntentRecord → Cursor
  | cur, [] => cur
  | cur, record :: rest => Cursor.past (cur.accept record record.text.length false) rest

theorem Cursor.past_eq (cur : Cursor) (records : List IntentRecord) :
    (cur.past records).records = cur.records ++ records
      ∧ ((cur.past records).expectedSeq, (cur.past records).prevHash)
        = tip cur.expectedSeq cur.prevHash records
      ∧ (cur.past records).tailMissingNewline = cur.tailMissingNewline
      ∧ (cur.past records).pos = cur.pos + (linesOf records).length := by
  induction records generalizing cur with
  | nil => simp [Cursor.past, tip, linesOf]
  | cons record rest ih =>
    obtain ⟨hrecords, htip, htail, hpos⟩ := ih (cur.accept record record.text.length false)
    refine ⟨?_, htip, ?_, ?_⟩
    · rw [Cursor.past, hrecords]
      simp [Cursor.accept]
    · rw [Cursor.past, htail]
      simp [Cursor.accept]
    · rw [Cursor.past, hpos, show record :: rest = [record] ++ rest from rfl, linesOf_append,
        linesOf_singleton]
      simp only [Cursor.accept, List.length_append, List.length_singleton]
      omega

/-- A chunk that is the text of a record goes straight to the chain checks. -/
theorem Cursor.step_text (parser : Json.Parser) (cur : Cursor) {record : IntentRecord}
    (htext : record.Textual) (unterminated : Bool) :
    cur.step parser record.text unterminated
      = cur.verify record record.text.length unterminated := by
  have hne : record.text ≠ [] := Json.dump_ne_nil _
  have hparse : parser.parse record.text = some (.object record.toJson.members) :=
    parser.parse_dump _ (record.toJson_readable htext)
  obtain ⟨build, hread, hbuild⟩ := readRecord_toJson record
  rw [Cursor.step, if_neg hne, hparse]
  simp only [hread, intentOpFromString_toString, hbuild]

/-- The next record of the chain passes the checks. -/
theorem Cursor.verify_next {cur : Cursor} {record : IntentRecord}
    (hseq : record.seq = cur.expectedSeq) (hprev : record.prevHash = cur.prevHash)
    (hhash : computeHash record = record.hash) (size : Nat) (unterminated : Bool) :
    cur.verify record size unterminated = .next (cur.accept record size unterminated) := by
  rw [Cursor.verify, if_neg (by simp [hseq]), if_neg (by simp [hprev]), if_neg (by simp [hhash])]

theorem replayLoop_chained (parser : Json.Parser) {records : List IntentRecord} {seq : Int64}
    {prev : Bytes} (h : Chained seq prev records) {cur : Cursor} (hseq : cur.expectedSeq = seq)
    (hprev : cur.prevHash = prev) (rest : List (Bytes × Bool)) :
    replayLoop parser cur (records.map (fun r => (r.text, false)) ++ rest)
      = replayLoop parser (cur.past records) rest := by
  induction h generalizing cur with
  | nil => rfl
  | cons hhash htext _ ih =>
    rw [List.map_cons, List.cons_append, replayLoop, Cursor.step_text parser cur htext,
      Cursor.verify_next hseq.symm hprev.symm hhash]
    exact ih (by rw [← hseq]; rfl) rfl

/-! ## The invariant between calls -/

/-- The file is the lines of a verified chain and the append cursor stands behind it. -/
structure Intact (log : IntentLog) (records : List IntentRecord) : Prop where
  attached : log.attached = true
  file : log.file = linesOf records
  chained : Chained 1 kGenesis records
  tip : tip 1 kGenesis records = (log.nextSeq, log.prevHash)

theorem sha256Hex_prevHash {log : IntentLog} {data : Bytes} (h : log.lastHash = sha256Hex data) :
    log.prevHash = log.lastHash := by
  rw [prevHash, if_neg]
  rw [h]
  exact sha256Hex_ne_nil data

theorem openLog_intact (path : LogPath) :
    ∃ log, openLog .clean path [] = .ok log ∧ Intact log [] :=
  ⟨_, rfl, rfl, rfl, .nil, rfl⟩

theorem prevHash_wellFormed {log : IntentLog} {records : List IntentRecord}
    (h : Intact log records) : WellFormed log.prevHash := by
  have htip := h.tip
  cases hlast : records.getLast? with
  | none =>
    obtain rfl := List.getLast?_eq_none_iff.mp hlast
    rw [← (Prod.mk.inj htip).2]
    exact ascii_wellFormed (by decide)
  | some last =>
    obtain ⟨heq, hhash⟩ := h.chained.tip_eq hlast
    rw [heq] at htip
    rw [← (Prod.mk.inj htip).2, hhash]
    exact sha256Hex_wellFormed _

/-- The record an intact log would append continues its chain. -/
theorem Intact.nextRecord {log : IntentLog} {records : List IntentRecord}
    (h : Intact log records) (wallTsNs : Int64) (op : IntentOp) (clientRef payloadJson : Bytes) :
    let record := log.nextRecord wallTsNs op clientRef payloadJson
    IntentLog.tip 1 kGenesis records = (record.seq, record.prevHash)
      ∧ computeHash record = record.hash ∧ record.Textual :=
  ⟨h.tip, rfl, canonicalText_wellFormed _, canonicalText_wellFormed _, prevHash_wellFormed h,
    sha256Hex_wellFormed _⟩

/-- **A successful append extends the chain by the record it returns.** -/
theorem append_intact {log log' : IntentLog} {records : List IntentRecord}
    (h : Intact log records) {io : WriteIo} {wallTsNs : Int64} {op : IntentOp}
    {clientRef payloadJson : Bytes} {record : IntentRecord}
    (hok : log.append io wallTsNs op clientRef payloadJson = (.ok record, log')) :
    Intact log' (records ++ [record]) := by
  unfold append at hok
  rw [if_neg (by simp [h.attached])] at hok
  cases io with
  | shortWrite n => cases (Prod.mk.inj hok).1
  | syncFailed n => cases (Prod.mk.inj hok).1
  | done =>
    obtain ⟨hrecord, rfl⟩ := Prod.mk.inj hok
    obtain rfl := Except.ok.inj hrecord
    obtain ⟨htip, hhash, htext⟩ := h.nextRecord wallTsNs op clientRef payloadJson
    refine ⟨h.attached, ?_, h.chained.concat htip hhash htext, ?_⟩
    · rw [linesOf_append, ← h.file, linesOf_singleton]
      rfl
    · rw [tip_concat, htip, sha256Hex_prevHash rfl]

/-- A failed append moves nothing but the file, which gains a front part of the line. -/
theorem append_error {log log' : IntentLog} {io : WriteIo} {wallTsNs : Int64} {op : IntentOp}
    {clientRef payloadJson : Bytes} {error : Errors.Error} (hattached : log.attached = true)
    (herr : log.append io wallTsNs op clientRef payloadJson = (.error error, log')) :
    log' = { log with
      file := log.file ++ io.landed (toJsonLine (log.nextRecord wallTsNs op clientRef payloadJson)) }
      ∧ io ≠ .done := by
  unfold append at herr
  rw [if_neg (by simp [hattached])] at herr
  cases io with
  | shortWrite n => exact ⟨(Prod.mk.inj herr).2.symm, by simp⟩
  | syncFailed n => exact ⟨(Prod.mk.inj herr).2.symm, by simp⟩
  | done => cases (Prod.mk.inj herr).1

/-! ## Replaying an intact file with a torn line behind it -/

/-- `resume` after the loop has verified a chain leaves the log intact. -/
theorem resume_intact {log : IntentLog} {records : List IntentRecord} {cur : Cursor}
    (hattached : log.attached = true) (hfile : log.file = linesOf records)
    (hchained : Chained 1 kGenesis records) (hcur : cur.records = records) (torn : TornTail) :
    ∃ log', log.resume cur torn = (.returned (.ok records), log') ∧ Intact log' records := by
  unfold resume
  rw [hcur]
  cases hlast : records.getLast? with
  | none =>
    obtain rfl := List.getLast?_eq_none_iff.mp hlast
    exact ⟨_, rfl, hattached, hfile, hchained, rfl⟩
  | some last =>
    obtain ⟨htip, hhash⟩ := hchained.tip_eq hlast
    refine ⟨_, rfl, hattached, hfile, hchained, ?_⟩
    have hlastHash : last.hash = sha256Hex (canonicalBytes last) := hhash
    rw [sha256Hex_prevHash hlastHash]
    exact htip

/-- The loop over a chain and what follows it in the file. -/
theorem replay_chained (parser : Json.Parser) {log : IntentLog} {records : List IntentRecord}
    (hchained : Chained 1 kGenesis records) (rest : Bytes)
    (hfile : log.file = linesOf records ++ rest) :
    log.replay parser .clean = { log with tornTail := .none }.finish .clean
      (replayLoop parser ((Cursor.start log.index).past records) (chunks rest)) := by
  show { log with tornTail := .none }.finish .clean
    (replayLoop parser (.start log.index) (chunks log.file)) = _
  rw [hfile, chunks_linesOf, replayLoop_chained parser hchained rfl rfl]

/-- Replaying the lines of a chain gives the chain back. -/
theorem replay_linesOf (parser : Json.Parser) (log : IntentLog) {records : List IntentRecord}
    (hattached : log.attached = true) (hchained : Chained 1 kGenesis records)
    (hfile : log.file = linesOf records) :
    ∃ log', log.replay parser .clean = (.returned (.ok records), log') ∧ Intact log' records := by
  obtain ⟨hrecords, -, htail, -⟩ := (Cursor.start log.index).past_eq records
  rw [replay_chained parser hchained [] (by simp [hfile]), chunks_nil, replayLoop, finish,
    if_neg (by rw [htail]; exact Bool.false_ne_true)]
  exact resume_intact hattached hfile hchained hrecords _

/-- A proper front part of the next line's text is cut off again. -/
theorem replay_fragment (parser : Json.Parser) (log : IntentLog) {records : List IntentRecord}
    (hattached : log.attached = true) (hchained : Chained 1 kGenesis records)
    {record : IntentRecord} (htext : record.Textual) {p : Bytes} (hp : p <+: record.text)
    (hne : p ≠ record.text) (hfile : log.file = linesOf records ++ p) :
    ∃ log', log.replay parser .clean = (.returned (.ok records), log') ∧ Intact log' records := by
  by_cases hnil : p = []
  · exact replay_linesOf parser _ hattached hchained (by rw [hfile, hnil, List.append_nil])
  have hfree : newline ∉ p := fun h => Json.newline_notMem_dump _ (hp.subset h)
  have hparse : parser.parse p = none :=
    parser.parse_prefix _ (record.toJson_readable htext) p hp hne
  obtain ⟨hrecords, -, -, hpos⟩ := (Cursor.start log.index).past_eq records
  have hstep : ((Cursor.start log.index).past records).step parser p true = .torn := by
    rw [Cursor.step, if_neg hnil, hparse]
    rfl
  rw [replay_chained parser hchained _ hfile, chunks_fragment hfree hnil, replayLoop, hstep]
  simp only [finish, ReplayIo.clean, hattached, Bool.and_self, Bool.true_eq_false, if_false]
  refine resume_intact rfl ?_ hchained hrecords _
  show List.take _ log.file = _
  rw [hpos, hfile, show (Cursor.start log.index).pos = 0 from rfl, Nat.zero_add, List.take_left]

/-- A whole text, with or without its newline, is kept. -/
theorem replay_whole (parser : Json.Parser) (log : IntentLog) {records : List IntentRecord}
    (hattached : log.attached = true) (hchained : Chained 1 kGenesis records)
    {record : IntentRecord} (htip : tip 1 kGenesis records = (record.seq, record.prevHash))
    (hhash : computeHash record = record.hash) (htext : record.Textual) {p : Bytes}
    (hp : p = record.text ∨ p = toJsonLine record) (hfile : log.file = linesOf records ++ p) :
    ∃ log', log.replay parser .clean = (.returned (.ok (records ++ [record])), log')
      ∧ Intact log' (records ++ [record]) := by
  have hchained' := hchained.concat htip hhash htext
  rcases hp with rfl | rfl
  · -- the newline was lost: the record is verified, then `finish` writes the separator
    obtain ⟨hrecords, hcur, htail, -⟩ := (Cursor.start log.index).past_eq records
    obtain ⟨hseq, hprev⟩ := Prod.mk.inj (hcur.trans htip)
    rw [replay_chained parser hchained _ hfile,
      chunks_fragment (l := record.text) (Json.newline_notMem_dump _) (Json.dump_ne_nil _), replayLoop,
      Cursor.step_text parser _ htext, Cursor.verify_next hseq.symm hprev.symm hhash]
    generalize hcur' : Cursor.accept _ record record.text.length true = cur
    have htail' : cur.tailMissingNewline = true := by rw [← hcur', Cursor.accept, Bool.or_true]
    have hrecords' : cur.records = records ++ [record] := by
      rw [← hcur', Cursor.accept, hrecords]
      rfl
    simp only [replayLoop, finish, htail', if_true, hattached, ReplayIo.clean]
    rw [if_neg (by simp)]
    refine resume_intact rfl ?_ hchained' hrecords' _
    rw [linesOf_append, linesOf_singleton, ← List.append_assoc, ← hfile]
    rfl
  · refine replay_linesOf parser _ hattached hchained' ?_
    rw [hfile, linesOf_append, linesOf_singleton]
    rfl

/-- **Replaying an intact file with any front part of the next line behind it** gives the
chain, with the next record exactly when its text is whole, and leaves the log intact. -/
theorem replay_torn (parser : Json.Parser) (log : IntentLog) {records : List IntentRecord}
    (hattached : log.attached = true) (hchained : Chained 1 kGenesis records)
    {record : IntentRecord} (htip : tip 1 kGenesis records = (record.seq, record.prevHash))
    (hhash : computeHash record = record.hash) (htext : record.Textual) {p : Bytes}
    (hp : p <+: toJsonLine record) (hfile : log.file = linesOf records ++ p) :
    ∃ kept log', log.replay parser .clean = (.returned (.ok (records ++ kept)), log')
      ∧ Intact log' (records ++ kept)
      ∧ (p <+: record.text ∧ p ≠ record.text ∧ kept = []
        ∨ record.text <+: p ∧ kept = [record]) := by
  have hcases : (p <+: record.text ∧ p ≠ record.text)
      ∨ (p = record.text ∨ p = toJsonLine record) := by
    rcases List.prefix_concat_iff.mp hp with h | h
    · exact .inr (.inr h)
    · by_cases hne : p = record.text
      · exact .inr (.inl hne)
      · exact .inl ⟨h, hne⟩
  rcases hcases with ⟨hpre, hne⟩ | hwhole
  · obtain ⟨log', hreplay, hlog'⟩ := replay_fragment parser _ hattached hchained htext hpre hne hfile
    refine ⟨[], log', ?_, ?_, .inl ⟨hpre, hne, rfl⟩⟩
    · rw [List.append_nil, hreplay]
    · rwa [List.append_nil]
  · obtain ⟨log', hreplay, hlog'⟩ :=
      replay_whole parser _ hattached hchained htip hhash htext hwhole hfile
    refine ⟨[record], log', hreplay, hlog', .inr ⟨?_, rfl⟩⟩
    rcases hwhole with rfl | rfl
    · exact List.prefix_rfl
    · exact List.prefix_append _ _

/-! ## Whole runs -/

/-- `log'` is reached from `log` by successful appends that returned these records. -/
inductive Appended : IntentLog → List IntentRecord → IntentLog → Prop where
  | nil {log : IntentLog} : Appended log [] log
  | cons {log log' log'' : IntentLog} {record : IntentRecord} {records : List IntentRecord}
      {io : WriteIo} {wallTsNs : Int64} {op : IntentOp} {clientRef payloadJson : Bytes}
      (happend : log.append io wallTsNs op clientRef payloadJson = (.ok record, log'))
      (hrest : Appended log' records log'') : Appended log (record :: records) log''

theorem Appended.intact {log log' : IntentLog} {records more : List IntentRecord}
    (h : Appended log more log') (hlog : Intact log records) : Intact log' (records ++ more) := by
  induction h generalizing records with
  | nil => rwa [List.append_nil]
  | cons happend _ ih =>
    have := ih (append_intact hlog happend)
    rwa [List.append_assoc] at this

/-- **Crash recovery.** A fresh log takes any number of successful appends, then the process
dies with the front part `p` of a further record's line in the file. Opening and replaying
gives the appended records, and the further one exactly when `p` has its whole text; the file
is then the lines of what was returned, and replaying after any further successful appends, in
the same object or in a reopened one, gives all of them in order. -/
theorem replay_after_crash (parser : Json.Parser) (path : LogPath) {fresh log : IntentLog}
    {records : List IntentRecord} (hopen : openLog .clean path [] = .ok fresh)
    (happended : Appended fresh records log) (wallTsNs : Int64) (op : IntentOp)
    (clientRef payloadJson p : Bytes)
    (hp : p <+: toJsonLine (log.nextRecord wallTsNs op clientRef payloadJson)) :
    ∃ reopened recovered kept,
      openLog .clean path (log.file ++ p) = .ok reopened
      ∧ reopened.replay parser .clean = (.returned (.ok kept), recovered)
      ∧ (p <+: (log.nextRecord wallTsNs op clientRef payloadJson).text →
          p ≠ (log.nextRecord wallTsNs op clientRef payloadJson).text → kept = records)
      ∧ ((log.nextRecord wallTsNs op clientRef payloadJson).text <+: p →
          kept = records ++ [log.nextRecord wallTsNs op clientRef payloadJson])
      ∧ recovered.file = linesOf kept
      ∧ ∀ more later, Appended recovered more later →
          (∃ again, later.replay parser .clean = (.returned (.ok (kept ++ more)), again))
          ∧ ∃ restarted again, openLog .clean path later.file = .ok restarted
            ∧ restarted.replay parser .clean = (.returned (.ok (kept ++ more)), again) := by
  obtain ⟨fresh', hfresh', hintact⟩ := openLog_intact path
  obtain rfl : fresh' = fresh := Except.ok.inj (hfresh'.symm.trans hopen)
  have hlog : Intact log records := by simpa using happended.intact hintact
  obtain ⟨htip, hhash, htext⟩ := hlog.nextRecord wallTsNs op clientRef payloadJson
  obtain ⟨kept, recovered, hreplay, hrecovered, hkept⟩ := replay_torn parser
    ⟨true, path, log.file ++ p, 1, [], .none, fun _ => none⟩ rfl hlog.chained htip hhash
    htext hp (by rw [hlog.file])
  refine ⟨_, recovered, records ++ kept, rfl, hreplay, ?_, ?_, hrecovered.file, ?_⟩
  · intro hpre hne
    rcases hkept with ⟨-, -, rfl⟩ | ⟨hwhole, -⟩
    · exact List.append_nil _
    · exact absurd (hpre.eq_of_length_le hwhole.length_le) hne
  · intro hwhole
    rcases hkept with ⟨hpre, hne, -⟩ | ⟨-, rfl⟩
    · exact absurd (hpre.eq_of_length_le hwhole.length_le) hne
    · rfl
  · intro more later hlater
    have hgrown := hlater.intact hrecovered
    obtain ⟨again, hagain, -⟩ :=
      replay_linesOf parser _ hgrown.attached hgrown.chained hgrown.file
    obtain ⟨again', hagain', -⟩ := replay_linesOf parser
      ⟨true, path, later.file, 1, [], .none, fun _ => none⟩ rfl hgrown.chained hgrown.file
    exact ⟨⟨again, hagain⟩, _, again', rfl, hagain'⟩

def samplePath : LogPath := ⟨ascii "intent.log", []⟩

/-- A log just opened on an absent file. -/
def sampleLog : IntentLog := ⟨true, samplePath, [], 1, [], .none, fun _ => none⟩

/-- One record, then a crash after the first byte of the second. -/
theorem replay_after_crash_one_byte :
    ∃ reopened recovered,
      openLog .clean samplePath
        ((sampleLog.append .done 0 .placeOrder (ascii "a") []).2.file ++ [0x7B]) = .ok reopened
      ∧ reopened.replay Json.reader .clean
        = (.returned (.ok [sampleLog.nextRecord 0 .placeOrder (ascii "a") []]), recovered) := by
  have hfresh : openLog .clean samplePath [] = .ok sampleLog := rfl
  have happend : sampleLog.append .done 0 .placeOrder (ascii "a") []
    = (.ok (sampleLog.nextRecord 0 .placeOrder (ascii "a") []), _) := rfl
  obtain ⟨reopened, recovered, kept, hopen, hreplay, hkept, -⟩ :=
    replay_after_crash Json.reader samplePath hfresh (.cons happend .nil) 1 .placeOrder (ascii "b")
      [] [0x7B] ⟨_, rfl⟩
  rw [hkept ⟨_, rfl⟩ (by simp [IntentRecord.text, Json.dump])] at hreplay
  exact ⟨reopened, recovered, hopen, hreplay⟩

/-! ## Failed appends in one process -/

/-- One call of `append` and what its write met. -/
structure AppendCall where
  io : WriteIo
  wallTsNs : Int64
  op : IntentOp
  clientRef : Bytes
  payloadJson : Bytes

/-- The calls in order: the records of those that succeeded, and the log behind them. -/
def runAppends : IntentLog → List AppendCall → List IntentRecord × IntentLog
  | log, [] => ([], log)
  | log, call :: calls =>
    match log.append call.io call.wallTsNs call.op call.clientRef call.payloadJson with
    | (.ok record, log') => (record :: (runAppends log' calls).1, (runAppends log' calls).2)
    | (.error _, log') => runAppends log' calls

/-- Every replay of this file content succeeds and returns, in order, at least these
records. -/
def Undamaged (parser : Json.Parser) (file : Bytes) (succeeded : List IntentRecord) : Prop :=
  ∀ log : IntentLog, log.attached = true → log.file = file →
    ∃ records log', log.replay parser .clean = (.returned (.ok records), log')
      ∧ succeeded.Sublist records

/-- An append that lands nothing fails and changes nothing. -/
theorem append_of_not_lands {log : IntentLog} (hattached : log.attached = true)
    {call : AppendCall} (h : call.io.lands = false) : ∃ error,
    log.append call.io call.wallTsNs call.op call.clientRef call.payloadJson
      = (.error error, log) := by
  cases hres : log.append call.io call.wallTsNs call.op call.clientRef call.payloadJson with
  | mk res log' =>
  cases res with
  | ok record =>
    unfold append at hres
    rw [if_neg (by simp [hattached])] at hres
    cases hio : call.io with
    | done => rw [hio] at h; cases h
    | shortWrite n => rw [hio] at hres; cases (Prod.mk.inj hres).1
    | syncFailed n => rw [hio] at hres; cases (Prod.mk.inj hres).1
  | error error =>
    obtain ⟨rfl, -⟩ := append_error hattached hres
    rw [WriteIo.landed_eq_nil h, List.append_nil]
    exact ⟨error, rfl⟩

theorem runAppends_of_not_lands {log : IntentLog} (hattached : log.attached = true)
    {calls : List AppendCall} (h : ∀ call ∈ calls, call.io.lands = false) :
    runAppends log calls = ([], log) := by
  induction calls with
  | nil => rfl
  | cons call calls ih =>
    obtain ⟨error, herr⟩ := append_of_not_lands hattached (h call (by simp))
    rw [runAppends, herr]
    exact ih fun c hc => h c (by simp [hc])

/-- **Failed appends are harmless while nothing is written behind what they left.** From any
intact log, run any calls such that once a failed call has left bytes in the file no later
call lands a byte. Replaying the file then succeeds and gives every record whose append
succeeded, in order, behind those the log already had. -/
theorem replay_after_failed_appends (parser : Json.Parser) {log : IntentLog}
    {before : List IntentRecord} (hlog : Intact log before) {calls : List AppendCall}
    (hcalls : calls.Pairwise fun a b => a.io.leaves = true → b.io.lands = false) :
    Undamaged parser (runAppends log calls).2.file (before ++ (runAppends log calls).1) := by
  induction calls generalizing log before with
  | nil =>
    intro reader hattached hfile
    obtain ⟨reader', hreplay, -⟩ :=
      replay_linesOf parser _ hattached hlog.chained (hfile.trans hlog.file)
    exact ⟨before, reader', hreplay, by simp [runAppends]⟩
  | cons call calls ih =>
    obtain ⟨hhead, htail⟩ := List.pairwise_cons.mp hcalls
    cases hres : log.append call.io call.wallTsNs call.op call.clientRef call.payloadJson with
    | mk res log' =>
    cases res with
    | ok record =>
      have hrest := ih (append_intact hlog hres) htail
      rw [runAppends, hres]
      rwa [List.append_assoc] at hrest
    | error error =>
      rw [runAppends, hres]
      show Undamaged parser (runAppends log' calls).2.file (before ++ (runAppends log' calls).1)
      obtain ⟨hlog', hio⟩ := append_error hlog.attached hres
      cases hleaves : call.io.leaves with
      | false =>
        -- nothing landed, so the log is as it was
        have hlands : call.io.lands = false := by
          cases hc : call.io with
          | done => exact absurd hc hio
          | shortWrite n => rw [hc] at hleaves; exact hleaves
          | syncFailed n => rw [hc] at hleaves; exact hleaves
        rw [WriteIo.landed_eq_nil hlands, List.append_nil] at hlog'
        subst hlog'
        exact ih hlog htail
      | true =>
        -- a front part of the line is left, and the rest of the run writes nothing
        have hattached' : log'.attached = true := by rw [hlog']; exact hlog.attached
        rw [runAppends_of_not_lands hattached' fun c hc => hhead c hc hleaves]
        intro reader hattached hfile
        obtain ⟨htip, hhash, htext⟩ :=
          hlog.nextRecord call.wallTsNs call.op call.clientRef call.payloadJson
        obtain ⟨kept, reader', hreplay, -, -⟩ := replay_torn parser _ hattached hlog.chained htip
          hhash htext (call.io.landed_prefix _) (by rw [hfile, hlog', hlog.file])
        exact ⟨before ++ kept, reader', hreplay, by simp⟩

def sampleCall (io : WriteIo) : AppendCall := ⟨io, 0, .placeOrder, ascii "a", []⟩

/-- A success, a refused write and a short write that leaves 20 bytes. -/
theorem replay_after_failed_appends_sample :
    Undamaged Json.reader
      (runAppends sampleLog [sampleCall .done, sampleCall (.syncFailed 0),
        sampleCall (.shortWrite 20)]).2.file
      (runAppends sampleLog [sampleCall .done, sampleCall (.syncFailed 0),
        sampleCall (.shortWrite 20)]).1 :=
  replay_after_failed_appends Json.reader (show Intact sampleLog [] from ⟨rfl, rfl, .nil, rfl⟩)
    (by decide)

/-- A first line that stands twice in the file stops every replay at the second. -/
theorem replay_repeated_line (parser : Json.Parser) (log : IntentLog) {record : IntentRecord}
    (hseq : record.seq = 1) (hprev : record.prevHash = kGenesis)
    (hhash : computeHash record = record.hash) (htext : record.Textual)
    (hfile : log.file = linesOf [record] ++ toJsonLine record) :
    ∃ error log', log.replay parser .clean = (.returned (.error error), log') := by
  have hchained : Chained 1 kGenesis [record] := hseq ▸ hprev ▸ .cons hhash htext .nil
  obtain ⟨-, hcur, -, -⟩ := (Cursor.start log.index).past_eq [record]
  have hexpected : ((Cursor.start log.index).past [record]).expectedSeq = 1 + 1 :=
    (Prod.mk.inj hcur).1
  have hne : record.seq ≠ ((Cursor.start log.index).past [record]).expectedSeq := by
    rw [hexpected, hseq]
    decide
  rw [replay_chained parser hchained _ hfile, toJsonLine, terminated,
    chunks_append_newline (l := record.text) (Json.newline_notMem_dump _), replayLoop,
    Cursor.step_text _ _ htext, Cursor.verify, if_pos hne]
  exact ⟨_, _, rfl⟩

/-- **A failed append can brick the log.** The first call's whole line reaches the file but
its sync fails; the second call succeeds with the same sequence number, and no replay gets
past it. -/
theorem failed_append_bricks_log :
    ¬ Undamaged Json.reader
      (runAppends sampleLog [sampleCall (.syncFailed 4096), sampleCall .done]).2.file
      (runAppends sampleLog [sampleCall (.syncFailed 4096), sampleCall .done]).1 := by
  obtain ⟨record, hrecord⟩ :
      ∃ record, record = sampleLog.nextRecord 0 .placeOrder (ascii "a") [] := ⟨_, rfl⟩
  have hshort : (toJsonLine record).length ≤ 4096 := by
    rw [hrecord]
    decide +kernel
  obtain ⟨htip, hhash, htext⟩ :=
    (show Intact sampleLog [] from ⟨rfl, rfl, .nil, rfl⟩).nextRecord 0 .placeOrder (ascii "a") []
  rw [← hrecord] at htip hhash htext
  obtain ⟨hseq, hprev⟩ := Prod.mk.inj htip
  have hfile : (runAppends sampleLog [sampleCall (.syncFailed 4096), sampleCall .done]).2.file
      = linesOf [record] ++ toJsonLine record := by
    show ([] ++ (toJsonLine (sampleLog.nextRecord 0 .placeOrder (ascii "a") [])).take 4096)
      ++ toJsonLine (sampleLog.nextRecord 0 .placeOrder (ascii "a") []) = _
    rw [← hrecord, List.take_of_length_le hshort, linesOf_singleton]
    rfl
  intro hundamaged
  obtain ⟨records, log', hreplay, -⟩ :=
    hundamaged ⟨true, samplePath, _, 1, [], .none, fun _ => none⟩ rfl hfile.symm
  obtain ⟨error, log'', herror⟩ := replay_repeated_line Json.reader
    ⟨true, samplePath, _, 1, [], .none, fun _ => none⟩ hseq.symm hprev.symm hhash htext rfl
  rw [herror] at hreplay
  cases hreplay

end BrokerExec.IntentLog
