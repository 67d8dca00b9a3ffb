import Mathlib.Data.List.Forall2
import Mathlib.Data.List.TakeWhile
import BrokerExec.Domain.DecimalPaise
import BrokerExec.Domain.Instrument
import BrokerExec.Lib.Csv
import BrokerExec.Lib.Except
import BrokerExec.Lib.FixedWidth

/-!
# The instrument CSV (`refdata/instrument_master.cpp`)

The parser maps the columns by their header names, skips blank lines and refuses the whole text
for one bad row.

* **`parseInstrumentsCsv_eq_ok`** — the instruments of a text are those of its rows, each read by
  itself.
-/

namespace BrokerExec.Refdata

open BrokerExec.Domain (Instrument isAsciiSpace parseDecimalPaise signed trimAscii)
open BrokerExec.Errors (Error makeError)

def comma : UInt8 := 0x2C

def doubleQuote : UInt8 := 0x22

def splitCsvLine (line : Bytes) : List Bytes := Csv.split comma doubleQuote line

def splitLines (csv : Bytes) : List Bytes := Csv.splitLines csv

/-- The sign that `std::from_chars` takes, and the digits behind it. -/
def readMinus : Bytes → Bool × Bytes
  | 0x2D :: digits => (true, digits)
  | digits => (false, digits)

/-- The file's own `parse_int64`: no leading plus. -/
def parseInt64 (text : Bytes) : Option Int64 :=
  let (negative, digits) := readMinus (trimAscii text)
  if digits = [] ∨ digits.all isDigit = false then none
  else
    let value := signed negative (digitsValue digits)
    if FitsInt64 value then some (Int64.ofInt value) else none

/-! ## Rows -/

/-- Where the header has the six columns. -/
structure Columns where
  token : Nat
  symbol : Nat
  exchange : Nat
  expiry : Nat
  tick : Nat
  lot : Nat
  deriving DecidableEq

def Columns.max (columns : Columns) : Nat :=
  Nat.max columns.token (Nat.max columns.symbol (Nat.max columns.exchange
    (Nat.max columns.expiry (Nat.max columns.tick columns.lot))))

/-- The fields of one row: its instrument, or what is wrong with it. -/
def readFields (columns : Columns) (fields : List Bytes) : Except String Instrument :=
  if fields.length ≤ columns.max then .error "too few columns"
  else
    match parseInt64 (fields.getD columns.token []), parseInt64 (fields.getD columns.lot []),
        parseDecimalPaise (fields.getD columns.tick []) with
    | none, _, _ => .error "unparseable instrument_token"
    | some _, none, _ => .error "unparseable lot_size"
    | some _, some _, none => .error "unparseable tick_size"
    | some token, some lot, some tickPaise =>
      if lot ≤ 0 then .error "non-positive lot_size"
      else if tickPaise ≤ 0 then .error "non-positive tick_size"
      else
        .ok { symbol := trimAscii (fields.getD columns.symbol [])
              token := token
              exchange := trimAscii (fields.getD columns.exchange [])
              lotSize := lot
              tickSize := Int64.ofInt tickPaise
              freezeQty := 0
              expiry := trimAscii (fields.getD columns.expiry []) }

def isBlank (line : Bytes) : Bool := trimAscii line = []

def masterError (message : Bytes) : Error :=
  makeError .validation (ascii "instrument master: " ++ message)

def rowError (lineNo : Nat) (reason : String) : Error :=
  masterError (ascii "row " ++ decimal lineNo ++ ascii ": " ++ ascii reason)

/-- The rows from a line number on. -/
def readRows (columns : Columns) : Nat → List Bytes → Result (List Instrument)
  | _, [] => .ok []
  | lineNo, line :: lines =>
    if isBlank line then readRows columns (lineNo + 1) lines
    else
      match readFields columns (splitCsvLine line) with
      | .error reason => .error (rowError lineNo reason)
      | .ok inst =>
        match readRows columns (lineNo + 1) lines with
        | .error e => .error e
        | .ok instruments => .ok (inst :: instruments)

/-! ## The header -/

/-- The first column of this name. -/
def columnOf (header : List Bytes) (name : String) : Option Nat :=
  header.findIdx? fun field => trimAscii field = ascii name

def missingColumn (name : String) : Error :=
  masterError (ascii "missing required column '" ++ ascii name ++ ascii "'")

/-- The six columns, or the first that is missing. -/
def readHeader (header : List Bytes) : Result Columns := do
  let column (name : String) : Result Nat :=
    match columnOf header name with
    | none => .error (missingColumn name)
    | some i => .ok i
  let token ← column "instrument_token"
  let symbol ← column "tradingsymbol"
  let exchange ← column "exchange"
  let expiry ← column "expiry"
  let tick ← column "tick_size"
  let lot ← column "lot_size"
  return ⟨token, symbol, exchange, expiry, tick, lot⟩

def parseInstrumentsCsv (csv : Bytes) : Result (List Instrument) :=
  let lines := splitLines csv
  let blanks := (lines.takeWhile isBlank).length
  match lines.drop blanks with
  | [] => .error (masterError (ascii "empty CSV (no header)"))
  | header :: body => do
    let columns ← readHeader (splitCsvLine header)
    -- 1-based, behind the header
    readRows columns (blanks + 2) body

/-! ## Row by row -/

variable {columns : Columns} {instruments : List Instrument}

/-- A line is blank when it has nothing but blanks. -/
theorem isBlank_iff (line : Bytes) : isBlank line = true ↔ ∀ c ∈ line, isAsciiSpace c = true := by
  unfold isBlank trimAscii
  rw [decide_eq_true_eq, List.reverse_eq_nil_iff, List.dropWhile_eq_nil_iff]
  constructor
  · intro h c hc
    by_contra hplain
    -- the first byte that is no blank is kept on the left, and stops the right
    have hmem : c ∈ line.dropWhile isAsciiSpace := by
      have hparts := List.takeWhile_append_dropWhile (p := isAsciiSpace) (l := line)
      rw [← hparts] at hc
      rcases List.mem_append.mp hc with hc | hc
      · exact absurd (List.all_eq_true.mp List.all_takeWhile c hc) hplain
      · exact hc
    exact hplain (h c (List.mem_reverse.mpr hmem))
  · intro h c hc
    exact h c ((List.dropWhile_sublist _).mem (List.mem_reverse.mp hc))

/-- The line reads as this instrument. -/
def ReadsAs (columns : Columns) (line : Bytes) (inst : Instrument) : Prop :=
  readFields columns (splitCsvLine line) = .ok inst

/-- The rows pass when each of them does. -/
theorem readRows_eq_ok {lineNo : Nat} {lines : List Bytes} :
    readRows columns lineNo lines = .ok instruments
      ↔ List.Forall₂ (ReadsAs columns) (lines.filter fun line => !isBlank line) instruments := by
  induction lines generalizing lineNo instruments with
  | nil =>
    rw [readRows, List.filter_nil, List.forall₂_nil_left_iff, Except.ok.injEq]
    exact eq_comm
  | cons line lines ih =>
    by_cases hblank : isBlank line = true
    · rw [readRows, if_pos hblank, ih, List.filter_cons_of_neg (by simp [hblank])]
    · rw [readRows, if_neg hblank, List.filter_cons_of_pos (by simp [hblank]),
        List.forall₂_cons_left_iff]
      constructor
      · intro h
        cases hfields : readFields columns (splitCsvLine line) with
        | error reason => simp [hfields] at h
        | ok inst =>
          cases hrest : readRows columns (lineNo + 1) lines with
          | error e => simp [hfields, hrest] at h
          | ok rest =>
            simp only [hfields, hrest, Except.ok.injEq] at h
            exact ⟨inst, rest, hfields, ih.mp hrest, h.symm⟩
      · rintro ⟨inst, rest, hfields, hrest, rfl⟩
        have hfields' : readFields columns (splitCsvLine line) = .ok inst := hfields
        simp only [hfields', ih.mpr hrest]

/-- **The instruments of a text are those of its rows.** -/
theorem parseInstrumentsCsv_eq_ok {csv header : Bytes} {front body : List Bytes}
    (hlines : splitLines csv = front ++ header :: body)
    (hfront : ∀ line ∈ front, isBlank line = true) (hheader : isBlank header = false) :
    parseInstrumentsCsv csv = .ok instruments ↔ ∃ columns,
      readHeader (splitCsvLine header) = .ok columns
        ∧ List.Forall₂ (ReadsAs columns) (body.filter fun line => !isBlank line) instruments := by
  have hblanks : (front ++ header :: body).takeWhile isBlank = front := by
    rw [List.takeWhile_append_of_pos hfront]
    simp [hheader]
  unfold parseInstrumentsCsv
  dsimp only
  rw [hlines, hblanks, List.drop_left]
  show readHeader (splitCsvLine header) >>= _ = _ ↔ _
  rw [Steps.bind_eq_ok]
  simp only [readRows_eq_ok]

end BrokerExec.Refdata
