import BrokerExec.IntentLog.Recovery

/-!
# What `replay` accepts (`intentlog/intent_log.cpp`)

A log file is its newline-terminated lines and what stands behind the last newline. `Accepted` says
which files are a log, without the loop: the lines that are not blank are the records of a chain,
and the rest is nothing, the next record, or no JSON object.

The typed reads of a line throw on a field of the wrong type, so `replay` decides every file but
those in which such a line follows an accepted front.

* **`replayLoop_cases`** — how the loop ends, over any file;
* **`decides_iff`** — when `replay` decides a file.
-/

namespace BrokerExec.IntentLog

open BrokerExec.Errors (Error)

/-! ## Files of lines -/

/-- `lines`, each with its newline, and then `tail`, which has none. -/
structure Split (file : Bytes) (lines : List Bytes) (tail : Bytes) : Prop where
  file : file = lines.flatMap terminated ++ tail
  lines : ∀ line ∈ lines, newline ∉ line
  tail : newline ∉ tail

theorem exists_split (file : Bytes) : ∃ lines tail, Split file lines tail := by
  induction file with
  | nil => exact ⟨[], [], rfl, by simp, by simp⟩
  | cons b file ih =>
    obtain ⟨lines, tail, hfile, hlines, htail⟩ := ih
    by_cases hb : b = newline
    · refine ⟨[] :: lines, tail, by rw [hb, hfile]; rfl, fun line hline => ?_, htail⟩
      obtain rfl | hline := List.mem_cons.mp hline
      · simp
      · exact hlines line hline
    · cases lines with
      | nil =>
        refine ⟨[], b :: tail, by rw [hfile]; rfl, by simp, ?_⟩
        simpa [htail] using Ne.symm hb
      | cons line lines =>
        refine ⟨(b :: line) :: lines, tail, by rw [hfile]; rfl, fun other hother => ?_, htail⟩
        obtain rfl | hother := List.mem_cons.mp hother
        · simpa [hlines line List.mem_cons_self] using Ne.symm hb
        · exact hlines other (List.mem_cons_of_mem _ hother)

theorem Split.chunks_eq {file tail : Bytes} {lines : List Bytes} (h : Split file lines tail) :
    chunks file = lines.map (·, false) ++ chunks tail := by
  rw [h.file, chunks_terminated h.lines]

/-! ## Lines that are records -/

section Lines

variable (parser : Json.Parser)

def IsObject (line : Bytes) : Prop := ∃ members, parser.parse line = some (.object members)

/-- A JSON object with a field of the wrong type. -/
def Mistyped (line : Bytes) : Prop :=
  ∃ members, parser.parse line = some (.object members) ∧ readRecord members = none

/-- The record of a line. -/
def recordOf (line : Bytes) : Option IntentRecord :=
  match parser.parse line with
  | some (.object members) =>
    match readRecord members with
    | some (build, opName) => (intentOpFromString opName).map build
    | none => none
  | _ => none

/-- Sequence numbers from one, of 64 bits, each `prev_hash` the hash before it, each hash the
computed one. -/
structure Linked (records : List IntentRecord) : Prop where
  seq : records.map (·.seq) = (List.range records.length).map fun i : Nat => Int64.ofNat (i + 1)
  prevHash : records.map (·.prevHash) = (kGenesis :: records.map (·.hash)).dropLast
  hash : ∀ record ∈ records, computeHash record = record.hash

/-- The content of a log with these lines, blank ones apart, and these records. -/
def Accepted (file : Bytes) (accepted : List Bytes) (records : List IntentRecord) : Prop :=
  ∃ lines tail, Split file lines tail
    ∧ (accepted = lines.filter (· ≠ []) ∧ (tail = [] ∨ ¬ IsObject parser tail)
      ∨ accepted = lines.filter (· ≠ []) ++ [tail] ∧ tail ≠ [])
    ∧ accepted.map (recordOf parser) = records.map some ∧ Linked records

/-- An accepted front, and then a line, terminated or not, with a field of the wrong type. -/
def Unreadable (file : Bytes) : Prop :=
  ∃ (front : List Bytes) (line rest : Bytes) (records : List IntentRecord),
    file = front.flatMap terminated ++ (line ++ rest)
    ∧ (∀ line ∈ front, newline ∉ line) ∧ newline ∉ line
    ∧ (rest = [] ∨ ∃ rest', rest = newline :: rest')
    ∧ (front.filter (· ≠ [])).map (recordOf parser) = records.map some ∧ Linked records
    ∧ Mistyped parser line

/-- `replay` decides: it never throws; where the operating system does its part it answers `Ok`
exactly on a log, with its records; and behind every `Ok` the file is the accepted lines, each
terminated, and blank ones. -/
structure Decides (log : IntentLog) : Prop where
  returns : ∀ io, ∃ result, (log.replay parser io).1 = .returned result
  exactly : log.attached = true → ∀ records,
    (log.replay parser .clean).1 = .returned (.ok records)
      ↔ ∃ accepted, Accepted parser log.file accepted records
  leaves : ∀ io records, io.opening = .opened →
    (log.replay parser io).1 = .returned (.ok records) →
    ∃ accepted lines, Accepted parser log.file accepted records
      ∧ Split (log.replay parser io).2.file lines [] ∧ lines.filter (· ≠ []) = accepted

end Lines

/-! ## Chains -/

/-- `Linked`, from any cursor on. -/
theorem chained_iff {seq : Int64} {prev : Bytes} {records : List IntentRecord} :
    Chained seq prev records ↔
      (records.map (·.seq) = (List.range records.length).map fun i : Nat => seq + Int64.ofNat i)
        ∧ records.map (·.prevHash) = (prev :: records.map (·.hash)).dropLast
        ∧ (∀ record ∈ records, computeHash record = record.hash)
        ∧ ∀ record ∈ records, record.Textual := by
  induction records generalizing seq prev with
  | nil => exact iff_of_true .nil (by simp)
  | cons record rest ih =>
    have hrange : (List.range (record :: rest).length).map (fun i : Nat => seq + Int64.ofNat i)
        = seq :: (List.range rest.length).map fun i : Nat => seq + 1 + Int64.ofNat i := by
      rw [List.length_cons, List.range_succ_eq_map, List.map_cons, List.map_map]
      congr 1
      · simp
      · refine List.map_congr_left fun i _ => ?_
        show seq + Int64.ofNat (i + 1) = _
        rw [Int64.ofNat_add, Int64.add_assoc, Int64.add_comm (Int64.ofNat i)]
        rfl
    have hdrop : (prev :: (record :: rest).map (·.hash)).dropLast
        = prev :: (record.hash :: rest.map (·.hash)).dropLast := rfl
    rw [hrange, hdrop]
    constructor
    · intro h
      cases h with
      | cons hhash htext hrest =>
        obtain ⟨hseq, hprev, hhashes, htexts⟩ := ih.mp hrest
        refine ⟨by rw [List.map_cons, hseq], ?_, ?_, ?_⟩
        · rw [List.map_cons, hprev]
        · exact List.forall_mem_cons.mpr ⟨hhash, hhashes⟩
        · exact List.forall_mem_cons.mpr ⟨htext, htexts⟩
    · rintro ⟨hseq, hprev, hhashes, htexts⟩
      obtain ⟨rfl, hseqs⟩ := List.cons.inj hseq
      obtain ⟨rfl, hprevs⟩ := List.cons.inj hprev
      rw [List.forall_mem_cons] at hhashes htexts
      exact .cons hhashes.1 htexts.1 (ih.mpr ⟨hseqs, hprevs, hhashes.2, htexts.2⟩)

theorem linked_iff {records : List IntentRecord} (htext : ∀ record ∈ records, record.Textual) :
    Linked records ↔ Chained 1 kGenesis records := by
  have hseq : ((List.range records.length).map fun i : Nat => (1 : Int64) + Int64.ofNat i)
      = (List.range records.length).map fun i : Nat => Int64.ofNat (i + 1) := by
    refine List.map_congr_left fun i _ => ?_
    rw [Int64.ofNat_add, Int64.add_comm]
    rfl
  rw [chained_iff, hseq]
  constructor
  · rintro ⟨hseqs, hprev, hhash⟩
    exact ⟨hseqs, hprev, hhash, htext⟩
  · rintro ⟨hseqs, hprev, hhash, -⟩
    exact ⟨hseqs, hprev, hhash⟩

/-! ## One line -/

section

variable {parser : Json.Parser}

/-- The empty text is a front part of an object, so it is none itself. -/
theorem parse_nil : parser.parse [] = none :=
  parser.parse_prefix [] ⟨List.Pairwise.nil, by simp, by simp⟩ [] (List.nil_prefix) (by decide)

theorem Mistyped.ne_nil {line : Bytes} (h : Mistyped parser line) : line ≠ [] := by
  rintro rfl
  obtain ⟨members, hparse, -⟩ := h
  rw [parse_nil] at hparse
  cases hparse

theorem recordOf_eq_some_iff {line : Bytes} {record : IntentRecord} :
    recordOf parser line = some record ↔
      ∃ members build opName op, parser.parse line = some (.object members)
        ∧ readRecord members = some (build, opName) ∧ intentOpFromString opName = some op
        ∧ build op = record := by
  unfold recordOf
  split
  · next members hparse =>
    split
    · next build opName hread =>
      rw [Option.map_eq_some_iff]
      constructor
      · rintro ⟨op, hop, hrecord⟩
        exact ⟨members, build, opName, op, hparse, hread, hop, hrecord⟩
      · rintro ⟨members', build', opName', op, hparse', hread', hop, hrecord⟩
        obtain rfl := Json.Value.object.inj (Option.some.inj (hparse.symm.trans hparse'))
        obtain ⟨rfl, rfl⟩ := Prod.mk.inj (Option.some.inj (hread.symm.trans hread'))
        exact ⟨op, hop, hrecord⟩
    · next hread =>
      refine iff_of_false (by simp) ?_
      rintro ⟨members', build, opName, op, hparse', hread', -⟩
      obtain rfl := Json.Value.object.inj (Option.some.inj (hparse.symm.trans hparse'))
      rw [hread] at hread'
      cases hread'
  · next hother =>
    refine iff_of_false (by simp) ?_
    rintro ⟨members, build, opName, op, hparse, -⟩
    exact hother members hparse

theorem recordOf_nil : recordOf parser [] = none := by
  rw [recordOf, parse_nil]

/-- A string field that is read is well-formed: an absent one is empty. -/
theorem wellFormed_of_valueString {line : Bytes} {members : List (Bytes × Json.Value)}
    (hparse : parser.parse line = some (.object members)) {key value : Bytes}
    (h : Json.valueString members key = some value) : WellFormed value := by
  unfold Json.valueString at h
  split at h
  · obtain rfl := Option.some.inj h
    exact .of_ascii (by simp)
  · next s hlookup =>
    obtain rfl := Option.some.inj h
    exact parser.parse_strings line members hparse key s hlookup
  · cases h

theorem recordOf_textual {line : Bytes} {record : IntentRecord}
    (h : recordOf parser line = some record) : record.Textual := by
  obtain ⟨members, build, opName, op, hparse, hread, -, rfl⟩ := recordOf_eq_some_iff.mp h
  simp only [readRecord, Option.bind_eq_bind, Option.bind_eq_some_iff] at hread
  obtain ⟨schemaVersion, -, seq, -, clientRef, href, payload, hpayload, ts, -, prev, hprev, hash,
    hhash, name, -, hbuild⟩ := hread
  obtain ⟨rfl, -⟩ := Prod.mk.inj (Option.some.inj hbuild)
  exact ⟨wellFormed_of_valueString hparse href, wellFormed_of_valueString hparse hpayload,
    wellFormed_of_valueString hparse hprev, wellFormed_of_valueString hparse hhash⟩

/-- The record that the chain checks let pass at a cursor. -/
def Cursor.Continues (cur : Cursor) (record : IntentRecord) : Prop :=
  (record.seq = cur.expectedSeq ∧ record.prevHash = cur.prevHash) ∧ computeHash record = record.hash

theorem Cursor.step_of_recordOf {cur : Cursor} {line : Bytes} {record : IntentRecord}
    (hrecord : recordOf parser line = some record) (h : cur.Continues record)
    (unterminated : Bool) :
    cur.step parser line unterminated = .next (cur.accept record line.length unterminated) := by
  have hne : line ≠ [] := by
    rintro rfl
    rw [recordOf_nil] at hrecord
    cases hrecord
  obtain ⟨members, build, opName, op, hparse, hread, hop, rfl⟩ := recordOf_eq_some_iff.mp hrecord
  rw [Cursor.step, if_neg hne, hparse]
  dsimp only
  rw [hread]
  dsimp only
  rw [hop]
  exact Cursor.verify_next h.1.1 h.1.2 h.2 _ _

theorem Cursor.step_of_mistyped {line : Bytes} (h : Mistyped parser line) (cur : Cursor)
    (unterminated : Bool) : cur.step parser line unterminated = .threw := by
  obtain ⟨members, hparse, hread⟩ := id h
  rw [Cursor.step, if_neg h.ne_nil, hparse]
  dsimp only
  rw [hread]

theorem Cursor.step_of_not_isObject {line : Bytes} (hne : line ≠ [])
    (h : ¬ IsObject parser line) (cur : Cursor) : cur.step parser line true = .torn := by
  rw [Cursor.step, if_neg hne]
  split
  · next members hparse => exact absurd ⟨members, hparse⟩ h
  · rfl

/-- Whatever else a line is, it is an error. -/
theorem Cursor.step_cases (parser : Json.Parser) (cur : Cursor) {line : Bytes} (hne : line ≠ [])
    (unterminated : Bool) :
    (∃ record, recordOf parser line = some record ∧ cur.Continues record)
      ∨ Mistyped parser line
      ∨ (unterminated = true ∧ ¬ IsObject parser line)
      ∨ ∃ error, cur.step parser line unterminated = .failed error := by
  by_cases hobject : IsObject parser line
  · obtain ⟨members, hparse⟩ := hobject
    cases hread : readRecord members with
    | none => exact .inr (.inl ⟨members, hparse, hread⟩)
    | some fields =>
    obtain ⟨build, opName⟩ := fields
    cases hop : intentOpFromString opName with
    | none =>
      have hstep : cur.step parser line unterminated
          = .failed (chainError (ascii "intentlog: unknown op '" ++ opName ++ ascii "' at seq "
            ++ decimal (build .placeOrder).seq.toInt)) := by
        simp only [Cursor.step, if_neg hne, hparse, hread, hop]
      exact .inr (.inr (.inr ⟨_, hstep⟩))
    | some op =>
    have hstep : cur.step parser line unterminated
        = cur.verify (build op) line.length unterminated := by
      simp only [Cursor.step, if_neg hne, hparse, hread, hop]
    have hrecord : recordOf parser line = some (build op) :=
      recordOf_eq_some_iff.mpr ⟨members, build, opName, op, hparse, hread, hop, rfl⟩
    rw [hstep]
    unfold Cursor.verify
    split_ifs with hseq hprev hhash
    · exact .inr (.inr (.inr ⟨_, rfl⟩))
    · exact .inr (.inr (.inr ⟨_, rfl⟩))
    · exact .inr (.inr (.inr ⟨_, rfl⟩))
    · push Not at hseq hprev hhash
      exact .inl ⟨build op, hrecord, ⟨hseq, hprev⟩, hhash⟩
  · cases unterminated with
    | true => exact .inr (.inr (.inl ⟨rfl, hobject⟩))
    | false =>
      refine .inr (.inr (.inr ?_))
      rw [Cursor.step, if_neg hne]
      split
      · next members hparse => exact absurd ⟨members, hparse⟩ hobject
      · exact ⟨_, rfl⟩

/-! ## The loop over the lines -/

/-- These lines, blank ones apart, are the records of a chain from this cursor on. -/
def Reads (parser : Json.Parser) (seq : Int64) (prev : Bytes) (lines : List Bytes)
    (records : List IntentRecord) : Prop :=
  (lines.filter (· ≠ [])).map (recordOf parser) = records.map some ∧ Chained seq prev records

/-- The cursor behind lines that were read. -/
structure Cursor.Behind (cur : Cursor) (lines : List Bytes) (records : List IntentRecord)
    (cur' : Cursor) : Prop where
  records_eq : cur'.records = cur.records ++ records
  tip_eq : (cur'.expectedSeq, cur'.prevHash) = tip cur.expectedSeq cur.prevHash records
  tail_eq : cur'.tailMissingNewline = cur.tailMissingNewline
  pos_eq : cur'.pos = cur.pos + (lines.flatMap terminated).length

theorem reads_nil_iff {seq : Int64} {prev : Bytes} {records : List IntentRecord} :
    Reads parser seq prev [] records ↔ records = [] := by
  constructor
  · rintro ⟨hmap, -⟩
    simpa using hmap.symm
  · rintro rfl
    exact ⟨rfl, .nil⟩

theorem reads_cons_iff {seq : Int64} {prev line : Bytes} {lines : List Bytes}
    {records : List IntentRecord} (hne : line ≠ []) :
    Reads parser seq prev (line :: lines) records ↔
      ∃ record rest, records = record :: rest ∧ recordOf parser line = some record
        ∧ ((record.seq = seq ∧ record.prevHash = prev) ∧ computeHash record = record.hash)
        ∧ Reads parser (seq + 1) record.hash lines rest := by
  have hfilter : (line :: lines).filter (· ≠ []) = line :: lines.filter (· ≠ []) := by
    rw [List.filter_cons_of_pos (by simpa using hne)]
  unfold Reads
  rw [hfilter, List.map_cons]
  constructor
  · rintro ⟨hmap, hchained⟩
    cases records with
    | nil => cases hmap
    | cons record rest =>
      obtain ⟨hrecord, hrest⟩ := List.cons.inj hmap
      cases hchained with
      | cons hhash _ hchained =>
        exact ⟨record, rest, rfl, hrecord, ⟨⟨rfl, rfl⟩, hhash⟩, hrest, hchained⟩
  · rintro ⟨record, rest, rfl, hrecord, ⟨⟨rfl, rfl⟩, hhash⟩, hrest, hchained⟩
    exact ⟨by rw [hrecord, hrest, List.map_cons], .cons hhash (recordOf_textual hrecord) hchained⟩

/-- The loop goes through lines that read as a chain. -/
theorem replayLoop_reads {lines : List Bytes} {records : List IntentRecord} {cur : Cursor}
    (h : Reads parser cur.expectedSeq cur.prevHash lines records) (rest : List (Bytes × Bool)) :
    ∃ cur', cur.Behind lines records cur'
      ∧ replayLoop parser cur (lines.map (·, false) ++ rest) = replayLoop parser cur' rest := by
  induction lines generalizing records cur with
  | nil =>
    obtain rfl := reads_nil_iff.mp h
    exact ⟨cur, ⟨(List.append_nil _).symm, rfl, rfl, rfl⟩, rfl⟩
  | cons line lines ih =>
    by_cases hne : line = []
    · subst hne
      let next : Cursor := { cur with pos := cur.pos + 1 }
      have hnext : Reads parser next.expectedSeq next.prevHash lines records := h
      obtain ⟨cur', hbehind, hloop⟩ := ih hnext
      refine ⟨cur', ⟨hbehind.records_eq, hbehind.tip_eq, hbehind.tail_eq, ?_⟩, hloop⟩
      rw [hbehind.pos_eq, List.flatMap_cons, List.length_append]
      show cur.pos + 1 + _ = cur.pos + (1 + _)
      omega
    · obtain ⟨record, rest', rfl, hrecord, hcontinues, hrest⟩ := (reads_cons_iff hne).mp h
      have hcontinues : cur.Continues record := hcontinues
      have hstep := Cursor.step_of_recordOf hrecord hcontinues false
      let next := cur.accept record line.length false
      have hnext : Reads parser next.expectedSeq next.prevHash lines rest' := hrest
      obtain ⟨cur', hbehind, hloop⟩ := ih hnext
      refine ⟨cur', ⟨?_, hbehind.tip_eq, ?_, ?_⟩, ?_⟩
      · rw [hbehind.records_eq]
        show (cur.records ++ [record]) ++ rest' = _
        rw [List.append_assoc, List.singleton_append]
      · rw [hbehind.tail_eq]
        exact Bool.or_false _
      · rw [hbehind.pos_eq, List.flatMap_cons, List.length_append, terminated, List.length_append]
        show cur.pos + line.length + 1 + _ = cur.pos + (line.length + 1 + _)
        omega
      · rw [List.map_cons, List.cons_append, replayLoop, hstep]
        exact hloop

/-- Lines read as a chain, or a front of them does and the line behind it does not go on. -/
theorem exists_front (parser : Json.Parser) (seq : Int64) (prev : Bytes) (lines : List Bytes) :
    (∃ records, Reads parser seq prev lines records)
      ∨ ∃ front line back records, lines = front ++ line :: back
        ∧ Reads parser seq prev front records ∧ line ≠ []
        ∧ ∀ record, recordOf parser line = some record →
          ¬ ((record.seq, record.prevHash) = tip seq prev records
            ∧ computeHash record = record.hash) := by
  induction lines generalizing seq prev with
  | nil => exact .inl ⟨[], rfl, .nil⟩
  | cons line lines ih =>
    by_cases hne : line = []
    · subst hne
      obtain ⟨records, h⟩ | ⟨front, line, back, records, rfl, hfront, hline⟩ := ih seq prev
      · exact .inl ⟨records, h⟩
      · exact .inr ⟨[] :: front, line, back, records, rfl, hfront, hline⟩
    · by_cases hgoes : ∃ record, recordOf parser line = some record
          ∧ (record.seq, record.prevHash) = (seq, prev) ∧ computeHash record = record.hash
      · obtain ⟨record, hrecord, hlink, hhash⟩ := hgoes
        have hlink := Prod.mk.inj hlink
        obtain ⟨records, h⟩ | ⟨front, line', back, records, rfl, hfront, hline'⟩ :=
          ih (seq + 1) record.hash
        · exact .inl ⟨record :: records,
            (reads_cons_iff hne).mpr ⟨record, records, rfl, hrecord, ⟨hlink, hhash⟩, h⟩⟩
        · exact .inr ⟨line :: front, line', back, record :: records, rfl,
            (reads_cons_iff hne).mpr ⟨record, records, rfl, hrecord, ⟨hlink, hhash⟩, hfront⟩,
            hline'⟩
      · push Not at hgoes
        refine .inr ⟨[], line, lines, [], rfl, ⟨rfl, .nil⟩, hne, fun record hrecord h => ?_⟩
        exact hgoes record hrecord h.1 h.2

theorem reads_concat_iff {seq : Int64} {prev tail : Bytes} {lines : List Bytes}
    {records : List IntentRecord} (hne : tail ≠ []) :
    Reads parser seq prev (lines ++ [tail]) records ↔
      ∃ front record, records = front ++ [record] ∧ Reads parser seq prev lines front
        ∧ recordOf parser tail = some record
        ∧ (record.seq, record.prevHash) = tip seq prev front
        ∧ computeHash record = record.hash := by
  induction lines generalizing seq prev records with
  | nil =>
    rw [List.nil_append, reads_cons_iff hne]
    constructor
    · rintro ⟨record, rest, rfl, hrecord, ⟨hlink, hhash⟩, hrest⟩
      obtain rfl := reads_nil_iff.mp hrest
      exact ⟨[], record, rfl, reads_nil_iff.mpr rfl, hrecord, Prod.ext hlink.1 hlink.2, hhash⟩
    · rintro ⟨front, record, rfl, hfront, hrecord, hlink, hhash⟩
      obtain rfl := reads_nil_iff.mp hfront
      exact ⟨record, [], rfl, hrecord, ⟨Prod.mk.inj hlink, hhash⟩, reads_nil_iff.mpr rfl⟩
  | cons line lines ih =>
    by_cases hblank : line = []
    · subst hblank
      exact ih
    · rw [List.cons_append, reads_cons_iff hblank]
      constructor
      · rintro ⟨first, rest, rfl, hfirst, hlink, hrest⟩
        obtain ⟨front, record, rfl, hfront, hrecord⟩ := ih.mp hrest
        refine ⟨first :: front, record, rfl, ?_, hrecord⟩
        exact (reads_cons_iff hblank).mpr ⟨first, front, rfl, hfirst, hlink, hfront⟩
      · rintro ⟨front, record, rfl, hfront, hrecord⟩
        obtain ⟨first, rest, rfl, hfirst, hlink, hrest⟩ := (reads_cons_iff hblank).mp hfront
        exact ⟨first, rest ++ [record], rfl, hfirst, hlink,
          ih.mpr ⟨rest, record, rfl, hrest, hrecord⟩⟩

theorem reads_start_iff {lines : List Bytes} {records : List IntentRecord} :
    Reads parser 1 kGenesis lines records ↔
      (lines.filter (· ≠ [])).map (recordOf parser) = records.map some ∧ Linked records := by
  refine and_congr_right fun hmap => (linked_iff fun record hrecord => ?_).symm
  have hmem : some record ∈ (lines.filter (· ≠ [])).map (recordOf parser) := by
    rw [hmap]
    exact List.mem_map_of_mem hrecord
  obtain ⟨line, -, hline⟩ := List.mem_map.mp hmem
  exact recordOf_textual hline

/-! ## The loop over a file -/

theorem chunks_tail {tail : Bytes} (htail : newline ∉ tail) (hne : tail ≠ []) {file : Bytes}
    {lines : List Bytes} (h : Split file lines tail) :
    chunks file = lines.map (·, false) ++ [(tail, true)] := by
  rw [h.chunks_eq, chunks_fragment htail hne]

section File

variable {file tail : Bytes} {lines : List Bytes} {records : List IntentRecord}
variable (index : Bytes → Option IntentRecord)

/-- The loop from the start of a file. -/
theorem replayLoop_start (hreads : Reads parser 1 kGenesis lines records)
    (rest : List (Bytes × Bool)) :
    ∃ cur, (Cursor.start index).Behind lines records cur
      ∧ replayLoop parser (.start index) (lines.map (·, false) ++ rest)
        = replayLoop parser cur rest := by
  have hstart : Reads parser (Cursor.start index).expectedSeq (Cursor.start index).prevHash lines
    records := hreads
  exact replayLoop_reads hstart rest

/-- A record that goes on from there is linked to the records before it. -/
theorem Cursor.Behind.link {cur : Cursor} {record : IntentRecord}
    (hbehind : (Cursor.start index).Behind lines records cur) (h : cur.Continues record) :
    (record.seq, record.prevHash) = tip 1 kGenesis records :=
  (Prod.ext h.1.1 h.1.2).trans hbehind.tip_eq

theorem replayLoop_whole (h : Split file lines [])
    (hreads : Reads parser 1 kGenesis lines records) :
    ∃ cur, replayLoop parser (.start index) (chunks file) = .finished cur
      ∧ cur.records = records ∧ cur.tailMissingNewline = false := by
  obtain ⟨cur, hbehind, hloop⟩ := replayLoop_start index hreads []
  refine ⟨cur, ?_, hbehind.records_eq, hbehind.tail_eq⟩
  rw [h.chunks_eq, chunks_nil, hloop, replayLoop]

theorem replayLoop_record (h : Split file lines tail) (hne : tail ≠ [])
    (hreads : Reads parser 1 kGenesis (lines ++ [tail]) records) :
    ∃ cur, replayLoop parser (.start index) (chunks file) = .finished cur
      ∧ cur.records = records ∧ cur.tailMissingNewline = true := by
  obtain ⟨front, record, rfl, hfront, hrecord, hlink, hhash⟩ := (reads_concat_iff hne).mp hreads
  obtain ⟨cur, hbehind, hloop⟩ := replayLoop_start index hfront [(tail, true)]
  have hcontinues : cur.Continues record := by
    refine ⟨Prod.mk.inj (hlink.trans hbehind.tip_eq.symm), hhash⟩
  refine ⟨cur.accept record tail.length true, ?_, ?_, Bool.or_true _⟩
  · rw [chunks_tail h.tail hne h, hloop, replayLoop,
      Cursor.step_of_recordOf hrecord hcontinues true]
    rfl
  · show cur.records ++ [record] = front ++ [record]
    rw [hbehind.records_eq]
    rfl

theorem replayLoop_torn_tail (h : Split file lines tail) (hne : tail ≠ [])
    (hobject : ¬ IsObject parser tail) (hreads : Reads parser 1 kGenesis lines records) :
    ∃ cur, replayLoop parser (.start index) (chunks file) = .torn cur tail.length
      ∧ cur.records = records ∧ cur.pos = (lines.flatMap terminated).length := by
  obtain ⟨cur, hbehind, hloop⟩ := replayLoop_start index hreads [(tail, true)]
  refine ⟨cur, ?_, hbehind.records_eq, hbehind.pos_eq.trans (Nat.zero_add _)⟩
  rw [chunks_tail h.tail hne h, hloop, replayLoop, Cursor.step_of_not_isObject hne hobject]

theorem replayLoop_threw (h : Unreadable parser file) :
    ∃ cur, replayLoop parser (.start index) (chunks file) = .threw cur := by
  obtain ⟨front, line, rest, records, hfile, hfront, hline, hrest, hmap, hlinked, hmistyped⟩ := h
  have hreads : Reads parser 1 kGenesis front records := reads_start_iff.mpr ⟨hmap, hlinked⟩
  have hchunks : ∃ u more, chunks (line ++ rest) = (line, u) :: more := by
    obtain rfl | ⟨rest', rfl⟩ := hrest
    · rw [List.append_nil, chunks_fragment hline hmistyped.ne_nil]
      exact ⟨true, [], rfl⟩
    · exact ⟨false, _, chunks_append_newline hline rest'⟩
  obtain ⟨u, more, hchunks⟩ := hchunks
  obtain ⟨cur, -, hloop⟩ := replayLoop_start index hreads ((line, u) :: more)
  refine ⟨cur, ?_⟩
  rw [hfile, chunks_terminated hfront, hchunks, hloop, replayLoop,
    Cursor.step_of_mistyped hmistyped]

/-- How the loop ends over a file. -/
inductive EndsAs (parser : Json.Parser) (file : Bytes) : LoopEnd → Prop where
  | whole {lines : List Bytes} {cur : Cursor} (split : Split file lines [])
      (reads : Reads parser 1 kGenesis lines cur.records) (htail : cur.tailMissingNewline = false) :
      EndsAs parser file (.finished cur)
  | record {lines : List Bytes} {tail : Bytes} {cur : Cursor} (split : Split file lines tail)
      (ne_nil : tail ≠ []) (reads : Reads parser 1 kGenesis (lines ++ [tail]) cur.records)
      (htail : cur.tailMissingNewline = true) : EndsAs parser file (.finished cur)
  | torn {lines : List Bytes} {tail : Bytes} {cur : Cursor} (split : Split file lines tail)
      (object : ¬ IsObject parser tail) (reads : Reads parser 1 kGenesis lines cur.records)
      (pos : cur.pos = (lines.flatMap terminated).length) :
      EndsAs parser file (.torn cur tail.length)
  | threw {cur : Cursor} (unreadable : Unreadable parser file) : EndsAs parser file (.threw cur)
  | failed {cur : Cursor} {error : Error} : EndsAs parser file (.failed cur error)

theorem replayLoop_cases (parser : Json.Parser) (index : Bytes → Option IntentRecord)
    (file : Bytes) : EndsAs parser file (replayLoop parser (.start index) (chunks file)) := by
  obtain ⟨lines, tail, hsplit⟩ := exists_split file
  obtain ⟨records, hreads⟩ | ⟨front, line, back, records, rfl, hreads, hne, hstuck⟩ :=
    exists_front parser 1 kGenesis lines
  · by_cases hne : tail = []
    · subst hne
      obtain ⟨cur, hloop, rfl, htail⟩ := replayLoop_whole index hsplit hreads
      rw [hloop]
      exact .whole hsplit hreads htail
    -- every line reads, and the tail decides
    obtain ⟨cur, hbehind, hloop⟩ := replayLoop_start index hreads [(tail, true)]
    obtain ⟨record, hrecord, hcontinues⟩ | hmistyped | ⟨-, hobject⟩ | ⟨error, hfailed⟩ :=
      cur.step_cases parser hne true
    · have hlink := hbehind.link index hcontinues
      have hall : Reads parser 1 kGenesis (lines ++ [tail]) (records ++ [record]) :=
        (reads_concat_iff hne).mpr ⟨records, record, rfl, hreads, hrecord, hlink, hcontinues.2⟩
      obtain ⟨cur', hloop', hrecords, htail⟩ := replayLoop_record index hsplit hne hall
      rw [hloop']
      exact .record hsplit hne (hrecords ▸ hall) htail
    · have hunreadable : Unreadable parser file := by
        refine ⟨lines, tail, [], records, ?_, hsplit.lines, hsplit.tail, .inl rfl,
          (reads_start_iff.mp hreads).1, (reads_start_iff.mp hreads).2, hmistyped⟩
        rw [List.append_nil, hsplit.file]
      obtain ⟨cur', hloop'⟩ := replayLoop_threw index hunreadable
      rw [hloop']
      exact .threw hunreadable
    · obtain ⟨cur', hloop', rfl, hpos⟩ := replayLoop_torn_tail index hsplit hne hobject hreads
      rw [hloop']
      exact .torn hsplit hobject hreads hpos
    · rw [chunks_tail hsplit.tail hne hsplit, hloop, replayLoop, hfailed]
      exact .failed
  · -- a line in the middle decides, and it is terminated
    obtain ⟨cur, hbehind, hloop⟩ :=
      replayLoop_start index hreads ((line, false) :: (back.map (·, false) ++ chunks tail))
    obtain ⟨record, hrecord, hcontinues⟩ | hmistyped | ⟨hfalse, -⟩ | ⟨error, hfailed⟩ :=
      cur.step_cases parser hne false
    · have hlink := hbehind.link index hcontinues
      exact absurd ⟨hlink, hcontinues.2⟩ (hstuck record hrecord)
    · have hunreadable : Unreadable parser file := by
        refine ⟨front, line, newline :: (back.flatMap terminated ++ tail), records, ?_,
          fun other hother => hsplit.lines other (by simp [hother]),
          hsplit.lines line (by simp), .inr ⟨_, rfl⟩,
          (reads_start_iff.mp hreads).1, (reads_start_iff.mp hreads).2, hmistyped⟩
        rw [hsplit.file, List.flatMap_append, List.flatMap_cons]
        simp [terminated]
      obtain ⟨cur', hloop'⟩ := replayLoop_threw index hunreadable
      rw [hloop']
      exact .threw hunreadable
    · cases hfalse
    · rw [hsplit.chunks_eq, List.map_append, List.map_cons, List.append_assoc, List.cons_append,
        hloop, replayLoop, hfailed]
      exact .failed

end File

/-! ## What `replay` answers -/

theorem resume_fst (log : IntentLog) (cur : Cursor) (torn : TornTail) :
    (log.resume cur torn).1 = .returned (.ok cur.records)
      ∧ (log.resume cur torn).2.file = log.file := by
  unfold resume
  dsimp only
  split
  · exact ⟨rfl, rfl⟩
  · exact ⟨rfl, rfl⟩

/-- What follows a loop that went to the end: an error, or the records, and then the separator is
written where it was missing. -/
theorem finish_finished_cases (log : IntentLog) (io : ReplayIo) (cur : Cursor) :
    (∃ error log', log.finish io (.finished cur) = (.returned (.error error), log')
        ∧ (log.attached = false ∨ io.separator ≠ .done))
      ∨ ∃ (log' : IntentLog) (torn : TornTail), log.finish io (.finished cur) = log'.resume cur torn
        ∧ log'.file = log.file ++ if cur.tailMissingNewline then [newline] else [] := by
  unfold finish
  dsimp only
  by_cases hmissing : cur.tailMissingNewline
  · rw [if_pos hmissing, if_pos hmissing]
    by_cases hfailed : log.attached = false ∨ io.separator ≠ .done
    · rw [if_pos hfailed]
      exact .inl ⟨_, _, rfl, hfailed⟩
    · rw [if_neg hfailed]
      refine .inr ⟨_, _, rfl, ?_⟩
      push Not at hfailed
      show log.file ++ (if log.attached then io.separator.landed [newline] else []) = _
      rw [if_pos (by simpa using hfailed.1), hfailed.2]
      rfl
  · rw [if_neg hmissing, if_neg hmissing]
    exact .inr ⟨_, _, rfl, (List.append_nil _).symm⟩

/-- What follows a torn tail: an error, or the records, and then the tail is cut off. -/
theorem finish_torn_cases (log : IntentLog) (io : ReplayIo) (cur : Cursor) (discarded : Nat) :
    (∃ error log', log.finish io (.torn cur discarded) = (.returned (.error error), log')
        ∧ (io.resizeError ≠ none ∨ (log.attached && io.synced) = false))
      ∨ ∃ (log' : IntentLog) (torn : TornTail),
        log.finish io (.torn cur discarded) = log'.resume cur torn
        ∧ log'.file = log.file.take cur.pos := by
  unfold finish
  dsimp only
  cases hresize : io.resizeError with
  | some message => exact .inl ⟨_, _, rfl, .inl (by simp)⟩
  | none =>
    dsimp only
    by_cases hfailed : (log.attached && io.synced) = false
    · rw [if_pos hfailed]
      exact .inl ⟨_, _, rfl, .inr hfailed⟩
    · rw [if_neg hfailed]
      exact .inr ⟨_, _, rfl, rfl⟩

/-- Where the operating system does its part, a loop that does not fail gives the records. -/
theorem finish_clean {log : IntentLog} (hattached : log.attached = true) (cur : Cursor) :
    (log.finish .clean (.finished cur)).1 = .returned (.ok cur.records)
      ∧ ∀ discarded, (log.finish .clean (.torn cur discarded)).1 = .returned (.ok cur.records) := by
  constructor
  · obtain ⟨error, log', -, hfailed | hfailed⟩ | ⟨log', torn, hfinish, -⟩ :=
      finish_finished_cases log .clean cur
    · rw [hattached] at hfailed
      cases hfailed
    · exact absurd rfl hfailed
    · rw [hfinish]
      exact (resume_fst _ _ _).1
  · intro discarded
    obtain ⟨error, log', -, hfailed | hfailed⟩ | ⟨log', torn, hfinish, -⟩ :=
      finish_torn_cases log .clean cur discarded
    · exact absurd rfl hfailed
    · rw [hattached] at hfailed
      cases hfailed
    · rw [hfinish]
      exact (resume_fst _ _ _).1

/-- Unless the loop throws, `replay` returns. -/
theorem finish_returns (log : IntentLog) (io : ReplayIo) {ended : LoopEnd}
    (h : ∀ cur, ended ≠ .threw cur) : ∃ result, (log.finish io ended).1 = .returned result := by
  cases ended with
  | threw cur => exact absurd rfl (h cur)
  | failed cur error => exact ⟨_, rfl⟩
  | finished cur =>
    obtain ⟨error, log', hfinish, -⟩ | ⟨log', torn, hfinish, -⟩ := finish_finished_cases log io cur
    · rw [hfinish]
      exact ⟨_, rfl⟩
    · rw [hfinish]
      exact ⟨_, (resume_fst _ _ _).1⟩
  | torn cur discarded =>
    obtain ⟨error, log', hfinish, -⟩ | ⟨log', torn, hfinish, -⟩ :=
      finish_torn_cases log io cur discarded
    · rw [hfinish]
      exact ⟨_, rfl⟩
    · rw [hfinish]
      exact ⟨_, (resume_fst _ _ _).1⟩

/-- What an `Ok` behind the loop says of the loop, and of the file. -/
theorem finish_ok {log : IntentLog} {io : ReplayIo} {ended : LoopEnd}
    {records : List IntentRecord} (h : (log.finish io ended).1 = .returned (.ok records)) :
    ∃ cur, cur.records = records
      ∧ ((ended = .finished cur ∧ (log.finish io ended).2.file
            = log.file ++ if cur.tailMissingNewline then [newline] else [])
        ∨ ∃ discarded, ended = .torn cur discarded
          ∧ (log.finish io ended).2.file = log.file.take cur.pos) := by
  have hok {log : IntentLog} {cur : Cursor} {torn : TornTail}
      (hresume : (log.resume cur torn).1 = .returned (.ok records)) : cur.records = records := by
    rw [(resume_fst _ _ _).1] at hresume
    exact Except.ok.inj (ReplayEnd.returned.inj hresume)
  cases ended with
  | threw cur => cases h
  | failed cur error => cases h
  | finished cur =>
    obtain ⟨error, log', hfinish, -⟩ | ⟨log', torn, hfinish, hfile⟩ :=
      finish_finished_cases log io cur
    · rw [hfinish] at h
      cases h
    · rw [hfinish] at h ⊢
      exact ⟨cur, hok h, .inl ⟨rfl, (resume_fst _ _ _).2.trans hfile⟩⟩
  | torn cur discarded =>
    obtain ⟨error, log', hfinish, -⟩ | ⟨log', torn, hfinish, hfile⟩ :=
      finish_torn_cases log io cur discarded
    · rw [hfinish] at h
      cases h
    · rw [hfinish] at h ⊢
      exact ⟨cur, hok h, .inr ⟨discarded, rfl, (resume_fst _ _ _).2.trans hfile⟩⟩

theorem replay_opened (parser : Json.Parser) (log : IntentLog) {io : ReplayIo}
    (hopening : io.opening = .opened) :
    log.replay parser io = finish { log with tornTail := .none } io
      (replayLoop parser (.start log.index) (chunks log.file)) := by
  unfold replay
  rw [hopening]

theorem replay_returns {log : IntentLog} (h : ¬ Unreadable parser log.file) (io : ReplayIo) :
    ∃ result, (log.replay parser io).1 = .returned result := by
  cases hopening : io.opening with
  | absent =>
    unfold replay
    rw [hopening]
    exact ⟨_, rfl⟩
  | unreadable =>
    unfold replay
    rw [hopening]
    exact ⟨_, rfl⟩
  | opened =>
    rw [replay_opened parser log hopening]
    refine finish_returns _ io fun cur hthrew => h ?_
    have hcases := replayLoop_cases parser log.index log.file
    rw [hthrew] at hcases
    cases hcases with
    | threw hunreadable => exact hunreadable

/-- An `Ok` is about a log, and leaves its lines. -/
theorem replay_ok {log : IntentLog} {io : ReplayIo} (hopening : io.opening = .opened)
    {records : List IntentRecord} (h : (log.replay parser io).1 = .returned (.ok records)) :
    ∃ accepted lines, Accepted parser log.file accepted records
      ∧ Split (log.replay parser io).2.file lines [] ∧ lines.filter (· ≠ []) = accepted := by
  rw [replay_opened parser log hopening] at h ⊢
  obtain ⟨cur, rfl, hended⟩ := finish_ok h
  have hcases := replayLoop_cases parser log.index log.file
  obtain ⟨hloop, hfile⟩ | ⟨discarded, hloop, hfile⟩ := hended
  · rw [hfile]
    rw [hloop] at hcases
    cases hcases with
    | @whole lines _ hsplit hreads htail =>
      rw [htail, if_neg Bool.false_ne_true, List.append_nil]
      exact ⟨_, lines, ⟨lines, [], hsplit, .inl ⟨rfl, .inl rfl⟩, reads_start_iff.mp hreads⟩,
        hsplit, rfl⟩
    | @record lines tail _ hsplit hne hreads htail =>
      have haccepted : (lines ++ [tail]).filter (· ≠ []) = lines.filter (· ≠ []) ++ [tail] := by
        rw [List.filter_append, List.filter_cons_of_pos (by simpa using hne), List.filter_nil]
      rw [htail, if_pos rfl]
      refine ⟨_, lines ++ [tail], ⟨lines, tail, hsplit, .inr ⟨haccepted, hne⟩,
        reads_start_iff.mp hreads⟩, ⟨?_, fun line hline => ?_, by simp⟩, rfl⟩
      · show log.file ++ [newline] = _
        rw [hsplit.file, List.flatMap_append, List.append_nil, List.append_assoc]
        simp [terminated]
      · obtain hline | hline := List.mem_append.mp hline
        · exact hsplit.lines line hline
        · rw [List.mem_singleton.mp hline]
          exact hsplit.tail
  · rw [hfile]
    rw [hloop] at hcases
    cases hcases with
    | @torn lines tail _ hsplit hobject hreads hpos =>
      refine ⟨_, lines, ⟨lines, tail, hsplit, .inl ⟨rfl, .inr hobject⟩,
        reads_start_iff.mp hreads⟩, ⟨?_, hsplit.lines, by simp⟩, rfl⟩
      show log.file.take cur.pos = _
      rw [hpos, hsplit.file, List.take_left, List.append_nil]

/-- A log is replayed. -/
theorem replay_of_accepted {log : IntentLog} (hattached : log.attached = true)
    {accepted : List Bytes} {records : List IntentRecord}
    (h : Accepted parser log.file accepted records) :
    (log.replay parser .clean).1 = .returned (.ok records) := by
  obtain ⟨lines, tail, hsplit, haccepted, hmap, hlinked⟩ := h
  have hclean := @finish_clean { log with tornTail := .none } hattached
  rw [replay_opened parser log rfl]
  by_cases hne : tail = []
  · subst hne
    obtain ⟨rfl, -⟩ | ⟨-, hne⟩ := haccepted
    · obtain ⟨cur, hloop, rfl, -⟩ :=
        replayLoop_whole log.index hsplit (reads_start_iff.mpr ⟨hmap, hlinked⟩)
      rw [hloop]
      exact (hclean cur).1
    · exact absurd rfl hne
  · obtain ⟨rfl, hobject⟩ | ⟨rfl, -⟩ := haccepted
    · obtain ⟨cur, hloop, rfl, -⟩ := replayLoop_torn_tail log.index hsplit hne
        (hobject.resolve_left hne) (reads_start_iff.mpr ⟨hmap, hlinked⟩)
      rw [hloop]
      exact (hclean cur).2 _
    · have hfilter : lines.filter (· ≠ []) ++ [tail] = (lines ++ [tail]).filter (· ≠ []) := by
        rw [List.filter_append, List.filter_cons_of_pos (by simpa using hne), List.filter_nil]
      rw [hfilter] at hmap
      obtain ⟨cur, hloop, rfl, -⟩ :=
        replayLoop_record log.index hsplit hne (reads_start_iff.mpr ⟨hmap, hlinked⟩)
      rw [hloop]
      exact (hclean cur).1

/-- **When `replay` decides a file**: unless an accepted front is followed by a JSON object with a
field of the wrong type. -/
theorem decides_iff (parser : Json.Parser) (log : IntentLog) :
    Decides parser log ↔ ¬ Unreadable parser log.file := by
  constructor
  · intro hdecides hunreadable
    obtain ⟨result, hreturned⟩ := hdecides.returns .clean
    obtain ⟨cur, hthrew⟩ := replayLoop_threw log.index hunreadable
    rw [replay_opened parser log rfl, hthrew] at hreturned
    cases hreturned
  · intro h
    refine ⟨replay_returns h, fun hattached records => ⟨fun hok => ?_, ?_⟩,
      fun io records hopening => replay_ok hopening⟩
    · obtain ⟨accepted, -, haccepted, -⟩ := replay_ok rfl hok
      exact ⟨accepted, haccepted⟩
    · rintro ⟨accepted, haccepted⟩
      exact replay_of_accepted hattached haccepted

/-- An object that says its sequence number is a text. -/
def mistypedObject : Json.Flat := [(ascii "seq", .string (ascii "1"))]

theorem mistypedObject_readable : mistypedObject.Readable where
  sorted := List.pairwise_singleton _ _
  keys m hm := by
    rw [List.mem_singleton.mp hm]
    exact ascii_wellFormed (by decide)
  strings m hm s hs := by
    rw [List.mem_singleton.mp hm] at hs
    obtain rfl := Json.Scalar.string.inj hs
    exact ascii_wellFormed (by decide)

theorem readRecord_mistypedObject : readRecord mistypedObject.members = none := by
  have hseq : Json.valueInt64 mistypedObject.members (ascii "seq") = none := rfl
  unfold readRecord
  rw [hseq]
  cases Json.valueInt32 mistypedObject.members (ascii "schema_version") <;> rfl

/-- **A file that throws**: one whole line, a JSON object whose `seq` is a string. -/
theorem mistyped_seq_throws :
    let log := { sampleLog with file := ascii "\x7b\"seq\":\"1\"\x7d\n" }
    (log.replay Json.reader .clean).1 = .threw ∧ ¬ Decides Json.reader log := by
  have hfile : ascii "\x7b\"seq\":\"1\"\x7d\n" = Json.dump mistypedObject ++ [newline] := by decide
  have hmistyped : Mistyped Json.reader (Json.dump mistypedObject) :=
    ⟨_, Json.reader.parse_dump _ mistypedObject_readable, readRecord_mistypedObject⟩
  have hunreadable : Unreadable Json.reader (Json.dump mistypedObject ++ [newline]) :=
    ⟨[], Json.dump mistypedObject, [newline], [], rfl, by simp, Json.newline_notMem_dump _,
      .inr ⟨[], rfl⟩, rfl, ⟨rfl, rfl, by simp⟩, hmistyped⟩
  rw [hfile]
  intro log
  obtain ⟨cur, hthrew⟩ := replayLoop_threw sampleLog.index hunreadable
  refine ⟨?_, fun hdecides => (decides_iff _ _).mp hdecides hunreadable⟩
  have hreplay : log.replay Json.reader .clean = finish { log with tornTail := .none } .clean
      (.threw cur) := by
    rw [replay_opened Json.reader log rfl, ← hthrew]
  rw [hreplay]
  rfl

end

end BrokerExec.IntentLog
