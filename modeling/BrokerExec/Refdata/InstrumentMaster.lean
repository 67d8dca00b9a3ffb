import Mathlib.Logic.Function.Basic
import BrokerExec.Refdata.InstrumentCsv

/-!
# The instrument master (`refdata/instrument_master.cpp`)

The master keeps one instrument for each exchange and symbol, the last of its rows, and persists
the raw CSV by a plain write into the dated file. What a crash leaves there is a prefix.

* **`load_torn_iff`** — a prefix loads as the whole CSV or not at all exactly when the cut is
  harmless: the parser refuses what is left, or nothing is lost with the rest.
-/

namespace BrokerExec.Refdata

open BrokerExec.Domain (Instrument)
open BrokerExec.Errors (Error makeError)

/-! ## The master -/

/-- By exchange and symbol. -/
abbrev InstrumentIndex := Bytes × Bytes → Option Instrument

/-- `insert_or_assign`, row by row. -/
def indexOf (instruments : List Instrument) : InstrumentIndex :=
  instruments.foldl (fun index inst =>
    Function.update index (inst.exchange, inst.symbol) (some inst)) fun _ => none

structure InstrumentMaster where
  index : InstrumentIndex
  cacheDate : Bytes
  loaded : Bool

def InstrumentMaster.fresh : InstrumentMaster := ⟨fun _ => none, [], false⟩

/-- What a dated cache file is when it is opened. -/
inductive CacheFile where
  | missing
  | unreadable
  | content (csv : Bytes)

/-- How the write into the dated cache file went; a failed one or a crash leaves the front part. -/
inductive CacheWrite where
  | noDirectory
  | cannotOpen
  | failed (landed : Nat)
  | done

namespace InstrumentMaster

variable (master : InstrumentMaster)

def ingest (csv isoDate : Bytes) : Result Unit × InstrumentMaster :=
  match parseInstrumentsCsv csv with
  | .error e => (.error e, master)
  | .ok instruments => (.ok (), ⟨indexOf instruments, isoDate, true⟩)

/-- The file is truncated and written in place, before the master counts as fresh. -/
def refresh (fetched : Result Bytes) (today : Bytes) (cache : CacheFile) (write : CacheWrite) :
    Result Unit × InstrumentMaster × CacheFile :=
  let internal (message : String) : Error := makeError .internal (ascii message)
  match fetched with
  | .error e => (.error e, master, cache)
  | .ok csv =>
    match parseInstrumentsCsv csv with
    | .error e => (.error e, master, cache)
    | .ok instruments =>
      match write with
      | .noDirectory =>
        (.error (internal "instrument master: cannot create cache dir"), master, cache)
      | .cannotOpen =>
        (.error (internal "instrument master: cannot open cache file for write"), master, cache)
      | .failed landed =>
        (.error (internal "instrument master: cache file write failed"), master,
          .content (csv.take landed))
      | .done => (.ok (), ⟨indexOf instruments, today, true⟩, .content csv)

def loadCachedFor (file : CacheFile) (isoDate : Bytes) : Result Unit × InstrumentMaster :=
  match file with
  | .missing =>
    (.error (makeError .dataStale (ascii "instrument master: no cache for date " ++ isoDate)),
      master)
  | .unreadable =>
    (.error (makeError .dataStale
      (ascii "instrument master: cannot open cache for date " ++ isoDate)), master)
  | .content csv => master.ingest csv isoDate

end InstrumentMaster

/-! ## What the index holds -/

def keyOf (inst : Instrument) : Bytes × Bytes := (inst.exchange, inst.symbol)

/-- The last row of a key. -/
def finalOf (key : Bytes × Bytes) (instruments : List Instrument) : Option Instrument :=
  (instruments.filter fun inst => keyOf inst = key).getLast?

section

variable {key : Bytes × Bytes} {front back : List Instrument}

/-- A later row of the key hides the ones before it. -/
theorem finalOf_append_of_mem (h : ∃ inst ∈ back, keyOf inst = key) :
    finalOf key (front ++ back) = finalOf key back := by
  obtain ⟨inst, hinst, hkey⟩ := h
  have hne : (back.filter fun inst => keyOf inst = key) ≠ [] :=
    List.ne_nil_of_mem (List.mem_filter.mpr ⟨hinst, decide_eq_true hkey⟩)
  unfold finalOf
  rw [List.filter_append, List.getLast?_append, List.getLast?_eq_some_getLast hne]
  rfl

/-- Rows of other keys leave it alone. -/
theorem finalOf_append_of_ne (h : ¬ ∃ inst ∈ back, keyOf inst = key) :
    finalOf key (front ++ back) = finalOf key front := by
  have hnil : (back.filter fun inst => keyOf inst = key) = [] :=
    List.filter_eq_nil_iff.mpr fun inst hinst => by
      simpa using fun hkey => h ⟨inst, hinst, hkey⟩
  unfold finalOf
  rw [List.filter_append, hnil, List.append_nil]

theorem finalOf_concat_self (front : List Instrument) (inst : Instrument) :
    finalOf (keyOf inst) (front ++ [inst]) = some inst := by
  rw [finalOf_append_of_mem ⟨inst, by simp, rfl⟩]
  simp [finalOf]

theorem indexOf_eq (instruments : List Instrument) (key : Bytes × Bytes) :
    indexOf instruments key = finalOf key instruments := by
  induction instruments using List.reverseRecOn with
  | nil => rfl
  | append_singleton instruments inst ih =>
    have hupdate : indexOf (instruments ++ [inst])
        = Function.update (indexOf instruments) (keyOf inst) (some inst) := by
      unfold indexOf
      rw [List.foldl_append]
      rfl
    rw [hupdate]
    by_cases hkey : key = keyOf inst
    · rw [hkey, Function.update_self, finalOf_concat_self]
    · rw [Function.update_of_ne hkey, ih, finalOf_append_of_ne]
      simpa using Ne.symm hkey

end

/-! ## What a cut does -/

/-- The header and the lines behind it. -/
def sections (csv : Bytes) : Option (Bytes × List Bytes) :=
  match (splitLines csv).dropWhile isBlank with
  | [] => none
  | header :: body => some (header, body)

def rowsOf (lines : List Bytes) : List Bytes := lines.filter fun line => !isBlank line

theorem rowsOf_append (front back : List Bytes) :
    rowsOf (front ++ back) = rowsOf front ++ rowsOf back := List.filter_append ..

/-- The instrument of the line that the cut fell into, when it has one. -/
def readCut (columns : Columns) (body : List Bytes) : Except String (List Instrument) :=
  match body.getLast? with
  | none => .ok []
  | some line =>
    if isBlank line then .ok []
    else
      match readFields columns (splitCsvLine line) with
      | .error reason => .error reason
      | .ok inst => .ok [inst]

/-- The last rows of the keys are the same with the cut row for the lost ones. -/
structure NothingLost (whole cut lost : List Instrument) : Prop where
  kept : ∀ inst ∈ lost, finalOf (keyOf inst) (whole ++ cut) = finalOf (keyOf inst) lost
  cut : ∀ inst ∈ cut, finalOf (keyOf inst) (whole ++ lost) = some inst

/-- The header is gone or misses a column, or the cut row cannot be read, or nothing is lost. -/
def CutHarmless (accepted : List Instrument) (torn : Bytes) : Prop :=
  ∀ header body, sections torn = some (header, body) →
    ∀ columns, readHeader (splitCsvLine header) = .ok columns →
      ∀ cut, readCut columns body = .ok cut →
        NothingLost (accepted.take (rowsOf body.dropLast).length) cut
          (accepted.drop (rowsOf body.dropLast).length)

section

variable {csv torn header : Bytes} {body : List Bytes} {columns : Columns}
  {accepted loaded : List Instrument}

/-- **The index is the same when nothing is lost.** -/
theorem indexOf_eq_iff {whole cut lost : List Instrument} (hcut : cut.length ≤ 1) :
    indexOf (whole ++ cut) = indexOf (whole ++ lost) ↔ NothingLost whole cut lost := by
  have hown : ∀ inst ∈ cut, cut = [inst] := by
    intro inst hinst
    match cut, hcut with
    | [only], _ => rw [List.mem_singleton.mp hinst]
  rw [funext_iff]
  simp only [indexOf_eq]
  constructor
  · intro h
    refine ⟨fun inst hinst => ?_, fun inst hinst => ?_⟩
    · rw [h, finalOf_append_of_mem ⟨inst, hinst, rfl⟩]
    · rw [← h, hown inst hinst, finalOf_concat_self]
  · intro h key
    by_cases hlost : ∃ inst ∈ lost, keyOf inst = key
    · rw [finalOf_append_of_mem hlost]
      obtain ⟨inst, hinst, rfl⟩ := hlost
      exact h.kept inst hinst
    · by_cases hcutKey : ∃ inst ∈ cut, keyOf inst = key
      · obtain ⟨inst, hinst, rfl⟩ := hcutKey
        rw [h.cut inst hinst, hown inst hinst, finalOf_concat_self]
      · rw [finalOf_append_of_ne hlost, finalOf_append_of_ne hcutKey]

/-- The parser works on the sections. -/
theorem parse_eq_ok_iff : parseInstrumentsCsv csv = .ok accepted ↔ ∃ header body columns,
    sections csv = some (header, body) ∧ readHeader (splitCsvLine header) = .ok columns
      ∧ List.Forall₂ (ReadsAs columns) (rowsOf body) accepted := by
  have hparts : (splitLines csv).takeWhile isBlank ++ (splitLines csv).dropWhile isBlank
      = splitLines csv := List.takeWhile_append_dropWhile
  unfold sections
  cases hsections : (splitLines csv).dropWhile isBlank with
  | nil =>
    rw [hsections, List.append_nil] at hparts
    unfold parseInstrumentsCsv
    simp [hparts]
  | cons header body =>
    rw [hsections] at hparts
    have hheader : isBlank header = false := by
      have hhead := List.head_dropWhile_not isBlank (l := splitLines csv) (by simp [hsections])
      simpa [hsections] using hhead
    rw [parseInstrumentsCsv_eq_ok hparts.symm (fun line hline =>
      List.all_eq_true.mp List.all_takeWhile line hline) hheader]
    simp [rowsOf]

/-- The torn text ends inside the header, or has the lines behind it up to the cut. -/
theorem sections_torn (hcut : torn <+: csv) (hsections : sections torn = some (header, body)) :
    body = [] ∨ ∃ whole cut line rest, body = whole ++ [cut]
      ∧ sections csv = some (header, whole ++ line :: rest) := by
  obtain ⟨back, rfl⟩ := hcut
  obtain ⟨whole, cut, line, rest, htorn, hcsv⟩ := Csv.splitLines_append torn back
  unfold sections splitLines at hsections ⊢
  rw [htorn, List.dropWhile_append] at hsections
  rw [hcsv, List.dropWhile_append]
  cases hwhole : whole.dropWhile isBlank with
  | nil =>
    left
    by_cases hblank : isBlank cut = true
    · simp [hwhole, hblank] at hsections
    · simp only [hwhole, List.isEmpty_nil, if_true, List.dropWhile_cons_of_neg hblank,
        Option.some.injEq, Prod.mk.injEq] at hsections
      exact hsections.2.symm
  | cons first whole =>
    right
    simp only [hwhole, List.isEmpty_cons, Bool.false_eq_true, if_false, List.cons_append,
      Option.some.injEq, Prod.mk.injEq] at hsections ⊢
    obtain ⟨rfl, rfl⟩ := hsections
    exact ⟨whole, cut, line, rest, rfl, rfl, rfl⟩

theorem readsAs_rightUnique (columns : Columns) : Relator.RightUnique (ReadsAs columns) := by
  intro line inst inst' h h'
  unfold ReadsAs at h h'
  rw [h] at h'
  exact Except.ok.inj h'

/-- The cut row reads on its own. -/
theorem readCut_concat {whole : List Bytes} {line : Bytes} {cut : List Instrument} :
    readCut columns (whole ++ [line]) = .ok cut
      ↔ List.Forall₂ (ReadsAs columns) (rowsOf [line]) cut := by
  unfold readCut rowsOf
  rw [List.getLast?_append]
  by_cases hblank : isBlank line = true
  · simp [hblank, eq_comm]
  · cases hread : readFields columns (splitCsvLine line) with
    | error reason => simp [hblank, hread, ReadsAs, List.forall₂_cons_left_iff]
    | ok inst => simp [hblank, hread, ReadsAs, List.forall₂_cons_left_iff, eq_comm]

/-- **A torn text loads with the rows before the cut, and the cut row as it reads.** -/
theorem parse_torn (hcut : torn <+: csv) (h : parseInstrumentsCsv csv = .ok accepted)
    (hsections : sections torn = some (header, body))
    (hheader : readHeader (splitCsvLine header) = .ok columns) :
    parseInstrumentsCsv torn = .ok loaded ↔ ∃ cut, readCut columns body = .ok cut
      ∧ loaded = accepted.take (rowsOf body.dropLast).length ++ cut := by
  have htorn : parseInstrumentsCsv torn = .ok loaded
      ↔ List.Forall₂ (ReadsAs columns) (rowsOf body) loaded := by
    rw [parse_eq_ok_iff, hsections]
    simp [hheader]
  rw [htorn]
  rcases sections_torn hcut hsections with rfl | ⟨whole, line, full, rest, rfl, hcsv⟩
  · simp [rowsOf, readCut]
  · rw [parse_eq_ok_iff, hcsv] at h
    have hrows : List.Forall₂ (ReadsAs columns) (rowsOf (whole ++ full :: rest)) accepted := by
      simpa [hheader] using h
    -- the rows before the cut read alike in both texts
    have hfront : ∀ back instruments,
        List.Forall₂ (ReadsAs columns) (rowsOf whole ++ back) instruments →
          List.Forall₂ (ReadsAs columns) (rowsOf whole)
            (instruments.take (rowsOf whole).length) := by
      intro back instruments hread
      have htake := List.forall₂_take (rowsOf whole).length hread
      rwa [List.take_left] at htake
    have hwhole := hfront _ accepted (rowsOf_append .. ▸ hrows)
    simp only [readCut_concat, List.dropLast_concat]
    rw [rowsOf_append]
    constructor
    · intro hloaded
      have hline := List.forall₂_drop (rowsOf whole).length hloaded
      rw [List.drop_left] at hline
      refine ⟨_, hline, ?_⟩
      rw [← List.right_unique_forall₂' (readsAs_rightUnique columns) (hfront _ loaded hloaded)
        hwhole, List.take_append_drop]
    · rintro ⟨cut, hline, rfl⟩
      exact List.rel_append hwhole hline

theorem length_readCut {cut : List Instrument} (h : readCut columns body = .ok cut) :
    cut.length ≤ 1 := by
  unfold readCut at h
  split at h
  · cases h
    simp
  · split at h
    · cases h
      simp
    · split at h
      · cases h
      · cases h
        simp

/-- **A torn cache fails or has the whole index exactly when the cut is harmless.** -/
theorem load_torn_iff (h : parseInstrumentsCsv csv = .ok accepted)
    (writer reader : InstrumentMaster) (cache : CacheFile) (today : Bytes) (landed : Nat) :
    let torn := (writer.refresh (.ok csv) today cache (.failed landed)).2.2
    let full := (writer.refresh (.ok csv) today cache .done).2.1
    ((∃ e, reader.loadCachedFor torn today = (.error e, reader))
        ∨ ∃ loaded, reader.loadCachedFor torn today = (.ok (), loaded)
          ∧ loaded.index = full.index)
      ↔ CutHarmless accepted (csv.take landed) := by
  have htorn : (writer.refresh (.ok csv) today cache (.failed landed)).2.2
      = .content (csv.take landed) := by
    simp [InstrumentMaster.refresh, h]
  have hfull : (writer.refresh (.ok csv) today cache .done).2.1.index = indexOf accepted := by
    simp [InstrumentMaster.refresh, h]
  have hcontent : reader.loadCachedFor (.content (csv.take landed)) today
      = reader.ingest (csv.take landed) today := rfl
  have hload : ((∃ e, reader.ingest (csv.take landed) today = (.error e, reader))
        ∨ ∃ loaded, reader.ingest (csv.take landed) today = (.ok (), loaded)
          ∧ loaded.index = indexOf accepted)
      ↔ ∀ loaded, parseInstrumentsCsv (csv.take landed) = .ok loaded →
        indexOf loaded = indexOf accepted := by
    unfold InstrumentMaster.ingest
    cases parseInstrumentsCsv (csv.take landed) <;> simp
  dsimp only
  rw [htorn, hfull, hcontent, hload]
  constructor
  · intro hsame header body hsections columns hheader cut hcut
    have hread := hsame _
      ((parse_torn (List.take_prefix ..) h hsections hheader).mpr ⟨cut, hcut, rfl⟩)
    rwa [← indexOf_eq_iff (length_readCut hcut), List.take_append_drop]
  · intro hharmless loaded hread
    obtain ⟨header, body, columns, hsections, hheader, -⟩ := parse_eq_ok_iff.mp hread
    obtain ⟨cut, hcut, rfl⟩ := (parse_torn (List.take_prefix ..) h hsections hheader).mp hread
    have hlost := hharmless header body hsections columns hheader cut hcut
    rw [(indexOf_eq_iff (length_readCut hcut)).mpr hlost, List.take_append_drop]

end

/-- A cut inside the tick size leaves too few columns. -/
theorem cut_inside_row :
    let csv := ascii
      "instrument_token,tradingsymbol,exchange,expiry,tick_size,lot_size\n7,A,NFO,,0.05,75\n"
    let torn := (InstrumentMaster.fresh.refresh (.ok csv) (ascii "2026-07-01") .missing
      (.failed 77)).2.2
    ∃ e, InstrumentMaster.fresh.loadCachedFor torn (ascii "2026-07-01") = (.error e, .fresh) := by
  intro csv torn
  have hparse : parseInstrumentsCsv csv = .ok [⟨ascii "A", 7, ascii "NFO", 75, 5, 0, []⟩] := by
    decide +kernel
  have hsections : sections (csv.take 77) = some
      (ascii "instrument_token,tradingsymbol,exchange,expiry,tick_size,lot_size",
        [ascii "7,A,NFO,,0."]) := by
    decide +kernel
  have hharmless : CutHarmless [⟨ascii "A", 7, ascii "NFO", 75, 5, 0, []⟩] (csv.take 77) := by
    intro header body hcut columns hheader cut hread
    rw [hsections] at hcut
    cases hcut
    have hcolumns : readHeader (splitCsvLine
        (ascii "instrument_token,tradingsymbol,exchange,expiry,tick_size,lot_size"))
          = .ok ⟨0, 1, 2, 3, 4, 5⟩ := by
      decide +kernel
    rw [hcolumns] at hheader
    cases hheader
    have hfew : readCut ⟨0, 1, 2, 3, 4, 5⟩ [ascii "7,A,NFO,,0."] = .error "too few columns" := by
      decide +kernel
    rw [hfew] at hread
    cases hread
  have hloaded := (load_torn_iff hparse .fresh .fresh .missing (ascii "2026-07-01") 77).mpr
    hharmless
  rcases hloaded with hfailed | ⟨loaded, hloaded, -⟩
  · exact hfailed
  · have hresult : (InstrumentMaster.fresh.loadCachedFor torn (ascii "2026-07-01")).1
        ≠ .ok () := by
      decide +kernel
    exact absurd (congrArg Prod.fst hloaded) hresult

/-- A cut behind the first of two rows loads as a smaller master. -/
theorem cut_behind_row :
    let csv := ascii "instrument_token,tradingsymbol,exchange,expiry,tick_size,lot_size\n"
      ++ ascii "7,A,NFO,,0.05,75\n8,B,NFO,,0.05,25\n"
    let today := ascii "2026-07-01"
    let torn := (InstrumentMaster.fresh.refresh (.ok csv) today .missing (.failed 83)).2.2
    (InstrumentMaster.fresh.refresh (.ok csv) today .missing .done).1 = .ok ()
      ∧ (InstrumentMaster.fresh.refresh (.ok csv) today .missing .done).2.1.index
          (ascii "NFO", ascii "B") = some ⟨ascii "B", 8, ascii "NFO", 25, 5, 0, []⟩
      ∧ (InstrumentMaster.fresh.loadCachedFor torn today).1 = .ok ()
      ∧ (InstrumentMaster.fresh.loadCachedFor torn today).2.index (ascii "NFO", ascii "B")
          = none := by
  decide +kernel

end BrokerExec.Refdata
