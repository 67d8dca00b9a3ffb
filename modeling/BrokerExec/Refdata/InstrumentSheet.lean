import BrokerExec.Domain.DecimalGrammar
import BrokerExec.Refdata.InstrumentCsv

/-!
# Written instrument sheets (`refdata/instrument_master.cpp`)

A sheet is what a writer of the instrument CSV puts down: a layout with the six columns among
others, cells quoted or not, blank lines in between and either line ending.

* **`parse_sheet`** — the parser gives back exactly the instruments that were written, and refuses
  a sheet for one invalid row.
-/

namespace BrokerExec.Refdata

open BrokerExec.Csv (Cell Unbroken carriageReturn joinLines renderRow)
open BrokerExec.Domain (Instrument isAsciiSpace kInt64Max paiseToDecimal parseDecimalPaise
  trimAscii)

/-! ## Layouts -/

/-- The columns that the parser consumes. -/
inductive Required where
  | token
  | symbol
  | exchange
  | expiry
  | tick
  | lot
  deriving DecidableEq

def Required.name : Required → String
  | .token => "instrument_token"
  | .symbol => "tradingsymbol"
  | .exchange => "exchange"
  | .expiry => "expiry"
  | .tick => "tick_size"
  | .lot => "lot_size"

/-- What the writer puts into a consumed column. -/
def Required.value (inst : Instrument) : Required → Bytes
  | .token => decimal inst.token.toInt
  | .symbol => inst.symbol
  | .exchange => inst.exchange
  | .expiry => inst.expiry
  | .tick => paiseToDecimal inst.tickSize
  | .lot => decimal inst.lotSize.toInt

/-- One column of a sheet; the parser has no use for an extra one. -/
inductive SheetColumn where
  | required (column : Required)
  | extra (name : Bytes)
  deriving DecidableEq

def SheetColumn.name : SheetColumn → Bytes
  | .required column => ascii column.name
  | .extra name => name

/-- All six columns, among others that are named differently. -/
structure Complete (layout : List SheetColumn) : Prop where
  required : ∀ column, .required column ∈ layout
  extra : ∀ name, .extra name ∈ layout → ∀ column : Required, trimAscii name ≠ ascii column.name

/-! ## Sheets -/

/-- A cell on one line. -/
structure SheetCell extends Cell comma doubleQuote where
  oneLine : newline ∉ text ∧ carriageReturn ∉ text

/-- A line of spaces and tabs, or none of them. -/
structure BlankLine where
  text : Bytes
  blank : ∀ c ∈ text, c = 0x20 ∨ c = 0x09

inductive SheetLine where
  | blank (line : BlankLine)
  | row (cells : List SheetCell)

def SheetCell.value (cell : SheetCell) : Bytes := cell.text

def renderCells (cells : List SheetCell) : Bytes := renderRow (cells.map SheetCell.toCell)

def SheetLine.text : SheetLine → Bytes
  | .blank line => line.text
  | .row cells => renderCells cells

structure Sheet where
  front : List BlankLine
  header : List SheetCell
  lines : List SheetLine

def Sheet.rows (sheet : Sheet) : List (List SheetCell) :=
  sheet.lines.filterMap fun line => match line with
    | .blank _ => none
    | .row cells => some cells

/-- The text of a sheet, each line ended one way or the other. -/
def Sheet.render (sheet : Sheet) (crlf : Nat → Bool) : Bytes :=
  joinLines crlf (sheet.front.map BlankLine.text
    ++ renderCells sheet.header :: sheet.lines.map SheetLine.text)

/-- The header names the columns of the layout. -/
def Heads (layout : List SheetColumn) (header : List SheetCell) : Prop :=
  header.map SheetCell.value = layout.map SheetColumn.name

/-- The row has the instrument under the layout; an extra column holds anything. -/
def Writes (layout : List SheetColumn) (cells : List SheetCell) (inst : Instrument) : Prop :=
  List.Forall₂ (fun column cell => match column with
    | .required column => SheetCell.value cell = column.value inst
    | .extra _ => True) layout cells

/-- A text that starts and ends with no blank. -/
def Trimmed (text : Bytes) : Prop :=
  (∀ c ∈ text.head?, isAsciiSpace c = false) ∧ ∀ c ∈ text.getLast?, isAsciiSpace c = false

/-- The instruments a sheet can hold. -/
structure Writable (inst : Instrument) : Prop where
  symbol : Trimmed inst.symbol
  exchange : Trimmed inst.exchange
  expiry : Trimmed inst.expiry
  lot : 0 < inst.lotSize.toInt
  tick : 0 < inst.tickSize.toInt
  freeze : inst.freezeQty = 0

/-- A row without a consumed column, or with a number that cannot be read or is not positive. -/
structure Valid (layout : List SheetColumn) (cells : List SheetCell) : Prop where
  consumed : ∀ column, layout.idxOf (.required column) < cells.length
  token : ∀ cell ∈ cells[layout.idxOf (.required .token)]?, (parseInt64 cell.value).isSome
  lot : ∀ cell ∈ cells[layout.idxOf (.required .lot)]?, ∃ lot ∈ parseInt64 cell.value, 0 < lot
  tick : ∀ cell ∈ cells[layout.idxOf (.required .tick)]?,
    ∃ tick ∈ parseDecimalPaise cell.value, 0 < tick

/-! ## Trimming and numbers -/

section

variable {layout : List SheetColumn} {cells : List SheetCell} {inst : Instrument}

theorem trimAscii_of_trimmed {text : Bytes} (h : Trimmed text) : trimAscii text = text := by
  have hdrop : ∀ s : Bytes, (∀ c ∈ s.head?, isAsciiSpace c = false) →
      s.dropWhile isAsciiSpace = s := by
    intro s hs
    cases s with
    | nil => rfl
    | cons c s => rw [List.dropWhile_cons_of_neg (by simp [hs c rfl])]
  unfold trimAscii
  rw [hdrop text h.1, hdrop text.reverse (by simpa using h.2), List.reverse_reverse]

theorem not_isAsciiSpace_decimal (i : Int) : ∀ c ∈ decimal i, isAsciiSpace c = false := by
  intro c hc
  rcases mem_decimal hc with hdigit | rfl
  · exact Domain.not_isAsciiSpace (.inl hdigit)
  · decide

/-- The sign and the digits of a written count. -/
theorem readMinus_decimal (i : Int) :
    readMinus (decimal i) = (decide (i < 0), decimalNat i.natAbs) := by
  cases i with
  | negSucc n =>
    rw [decide_eq_true (Int.negSucc_lt_zero n)]
    rfl
  | ofNat n =>
    obtain ⟨c, digits, hdigits⟩ := List.exists_cons_of_ne_nil (decimalNat_ne_nil n)
    have hc : c ≠ 0x2D := by
      rintro rfl
      have hdigit : isDigit 0x2D = true := mem_decimalNat (n := n) (hdigits ▸ List.mem_cons_self)
      exact absurd hdigit (by decide)
    show readMinus (decimalNat n) = (decide ((n : Int) < 0), decimalNat n)
    rw [hdigits, readMinus]
    · simp
    · rintro rest h
      exact hc (List.cons.inj h).1

/-- A written count reads back. -/
theorem parseInt64_decimal (i : Int64) : parseInt64 (decimal i.toInt) = some i := by
  have hvalue : Domain.signed (decide (i.toInt < 0)) (digitsValue (decimalNat i.toInt.natAbs))
      = i.toInt := by
    rw [digitsValue_decimalNat, Domain.signed]
    split <;> rename_i h <;> rw [decide_eq_true_eq] at h <;> omega
  have hdigits : ¬ (decimalNat i.toInt.natAbs = []
      ∨ (decimalNat i.toInt.natAbs).all isDigit = false) := by
    rintro (hnil | hbad)
    · exact decimalNat_ne_nil _ hnil
    · rw [List.all_eq_true.mpr fun c hc => mem_decimalNat hc] at hbad
      cases hbad
  unfold parseInt64
  rw [Domain.trimAscii_eq_self (not_isAsciiSpace_decimal _), readMinus_decimal]
  dsimp only
  rw [if_neg hdigits, hvalue, if_pos (show FitsInt64 i.toInt from ⟨i.le_toInt, i.toInt_lt⟩),
      Int64.ofInt_toInt]

/-- A written price reads back. -/
theorem parseDecimalPaise_written {tick : Int64} (h : 0 < tick.toInt) :
    parseDecimalPaise (paiseToDecimal tick) = some tick.toInt := by
  obtain ⟨n, hn, hmagnitude, hpaise⟩ := Domain.exists_numeral_paiseToDecimal tick
  have hhigh := tick.toInt_lt
  rw [Domain.parseDecimalPaise_text hn, if_pos (by unfold kInt64Max; omega), hpaise]

/-! ## The header -/

/-- Where the layout has the six columns. -/
def columnsOf (layout : List SheetColumn) : Columns where
  token := layout.idxOf (.required .token)
  symbol := layout.idxOf (.required .symbol)
  exchange := layout.idxOf (.required .exchange)
  expiry := layout.idxOf (.required .expiry)
  tick := layout.idxOf (.required .tick)
  lot := layout.idxOf (.required .lot)

theorem ascii_name_inj {column column' : Required} (h : ascii column.name = ascii column'.name) :
    column = column' := by
  have hnames : ∀ column column' : Required,
      ascii column.name = ascii column'.name → column = column' := by
    intro column column'
    cases column <;> cases column' <;> decide
  exact hnames column column' h

theorem trimAscii_name (column : Required) :
    trimAscii (ascii column.name) = ascii column.name := by
  cases column <;> decide

/-- A column is found under its name, and nothing else is. -/
theorem columnOf_layout (h : Complete layout) (column : Required) :
    columnOf (layout.map SheetColumn.name) column.name
      = some (layout.idxOf (.required column)) := by
  have hsame : ∀ other ∈ layout,
      (decide (trimAscii other.name = ascii column.name)) = (other == .required column) := by
    intro other hother
    rw [Bool.eq_iff_iff, decide_eq_true_eq, beq_iff_eq]
    cases other with
    | required column' =>
      show trimAscii (ascii column'.name) = _ ↔ _
      rw [trimAscii_name, SheetColumn.required.injEq]
      exact ⟨ascii_name_inj, fun hc => by rw [hc]⟩
    | extra name => exact iff_of_false (h.extra name hother column) (by simp)
  have hcongr : ∀ l : List SheetColumn, (∀ other ∈ l, other ∈ layout) →
      l.findIdx? ((fun field => decide (trimAscii field = ascii column.name)) ∘ SheetColumn.name)
        = l.findIdx? (· == .required column) := by
    intro l hl
    induction l with
    | nil => rfl
    | cons other l ih =>
      rw [List.findIdx?_cons, List.findIdx?_cons, ih fun o ho => hl o (by simp [ho]),
        Function.comp_apply, hsame other (hl other (by simp))]
  unfold columnOf
  rw [List.findIdx?_map, hcongr layout fun _ h => h]
  exact List.findIdx?_eq_some_of_exists ⟨.required column, h.required column, by simp⟩

theorem readHeader_heads {header : List SheetCell} (h : Complete layout)
    (hheader : Heads layout header) :
    readHeader (header.map SheetCell.value) = .ok (columnsOf layout) := by
  have hcolumn := columnOf_layout h
  rw [hheader, readHeader]
  rw [show ("instrument_token" : String) = Required.token.name from rfl,
    show ("tradingsymbol" : String) = Required.symbol.name from rfl,
    show ("exchange" : String) = Required.exchange.name from rfl,
    show ("expiry" : String) = Required.expiry.name from rfl,
    show ("tick_size" : String) = Required.tick.name from rfl,
    show ("lot_size" : String) = Required.lot.name from rfl]
  simp only [hcolumn]
  rfl

/-! ## Rows -/

/-- The widest column is one of the six. -/
theorem max_columnsOf_lt {n : Nat} :
    (columnsOf layout).max < n ↔ ∀ column, layout.idxOf (.required column) < n := by
  unfold Columns.max
  simp only [Nat.max_eq_max, max_lt_iff]
  constructor
  · rintro ⟨htoken, hsymbol, hexchange, hexpiry, htick, hlot⟩ column
    cases column
    · exact htoken
    · exact hsymbol
    · exact hexchange
    · exact hexpiry
    · exact htick
    · exact hlot
  · intro h
    exact ⟨h .token, h .symbol, h .exchange, h .expiry, h .tick, h .lot⟩

/-- The field that the parser takes for a column is the cell under it. -/
theorem getD_of_writes (h : Complete layout) (hrow : Writes layout cells inst)
    (column : Required) :
    (cells.map SheetCell.value).getD (layout.idxOf (.required column)) [] = column.value inst := by
  have hindex := List.idxOf_lt_length_of_mem (h.required column)
  have hcell := hrow.get hindex (hrow.length_eq ▸ hindex)
  rw [List.get_eq_getElem, List.get_eq_getElem, List.getElem_idxOf hindex] at hcell
  rw [List.getD_eq_getElem?_getD, List.getElem?_map,
    List.getElem?_eq_getElem (hrow.length_eq ▸ hindex)]
  exact hcell

/-- **A written row reads back.** -/
theorem readFields_of_writes (h : Complete layout) (hrow : Writes layout cells inst)
    (hinst : Writable inst) :
    readFields (columnsOf layout) (cells.map SheetCell.value) = .ok inst := by
  have hlength : layout.length = cells.length := hrow.length_eq
  have hwide : ¬ (cells.map SheetCell.value).length ≤ (columnsOf layout).max := by
    rw [List.length_map, ← hlength, Nat.not_le, max_columnsOf_lt]
    exact fun column => List.idxOf_lt_length_of_mem (h.required column)
  have hfield := getD_of_writes h hrow
  have htoken : (cells.map SheetCell.value).getD (columnsOf layout).token []
      = decimal inst.token.toInt := hfield .token
  have hsymbol : (cells.map SheetCell.value).getD (columnsOf layout).symbol [] = inst.symbol :=
    hfield .symbol
  have hexchange : (cells.map SheetCell.value).getD (columnsOf layout).exchange []
      = inst.exchange := hfield .exchange
  have hexpiry : (cells.map SheetCell.value).getD (columnsOf layout).expiry [] = inst.expiry :=
    hfield .expiry
  have htick : (cells.map SheetCell.value).getD (columnsOf layout).tick []
      = paiseToDecimal inst.tickSize := hfield .tick
  have hlot : (cells.map SheetCell.value).getD (columnsOf layout).lot []
      = decimal inst.lotSize.toInt := hfield .lot
  have hlotPos : ¬ inst.lotSize ≤ 0 := by
    rw [Int64.le_iff_toInt_le, Int64.toInt_zero]
    exact Int.not_le.mpr hinst.lot
  have htickPos : ¬ inst.tickSize.toInt ≤ 0 := Int.not_le.mpr hinst.tick
  unfold readFields
  rw [if_neg hwide, htoken, hlot, htick, hsymbol, hexchange, hexpiry, parseInt64_decimal,
    parseInt64_decimal, parseDecimalPaise_written hinst.tick]
  simp only [hlotPos, htickPos, if_false, trimAscii_of_trimmed hinst.symbol,
    trimAscii_of_trimmed hinst.exchange, trimAscii_of_trimmed hinst.expiry, Int64.ofInt_toInt]
  rw [show (0 : Int64) = inst.freezeQty from hinst.freeze.symm]

/-- **Only a valid row reads.** -/
theorem valid_of_readFields
    (hread : readFields (columnsOf layout) (cells.map SheetCell.value) = .ok inst) :
    Valid layout cells := by
  have hfield : ∀ (i : Nat), ∀ cell ∈ cells[i]?, (cells.map SheetCell.value).getD i []
      = cell.value := by
    intro i cell hcell
    rw [List.getD_eq_getElem?_getD, List.getElem?_map, hcell]
    rfl
  unfold readFields at hread
  split at hread
  · cases hread
  next hwide =>
  rw [List.length_map, Nat.not_le, max_columnsOf_lt] at hwide
  split at hread
  · cases hread
  · cases hread
  · cases hread
  next token lot tick htoken hlot htick =>
  split at hread
  · cases hread
  next hlotPos =>
  split at hread
  · cases hread
  next htickPos =>
  refine ⟨hwide, fun cell hcell => ?_, fun cell hcell => ⟨lot, ?_, ?_⟩,
    fun cell hcell => ⟨tick, ?_, ?_⟩⟩
  · have hread : parseInt64 cell.value = some token := by
      rw [← hfield _ cell hcell]
      exact htoken
    rw [hread]
    rfl
  · rw [← hfield _ cell hcell]
    exact hlot
  · exact Int64.not_le.mp hlotPos
  · rw [← hfield _ cell hcell]
    exact htick
  · omega

/-! ## Lines -/

theorem splitCsvLine_renderCells (h : cells ≠ []) :
    splitCsvLine (renderCells cells) = cells.map SheetCell.value := by
  unfold splitCsvLine renderCells
  rw [Csv.split_renderRow (by decide) (by simpa using h), List.map_map]
  rfl

/-- A row of two cells is no blank line. -/
theorem isBlank_renderCells (h : 2 ≤ cells.length) : isBlank (renderCells cells) = false := by
  rw [← Bool.not_eq_true, isBlank_iff]
  intro hblank
  have hcomma : comma ∈ renderCells cells := by
    obtain ⟨cell, next, rest, rfl⟩ : ∃ cell next rest, cells = cell :: next :: rest := by
      match cells, h with
      | cell :: next :: rest, _ => exact ⟨cell, next, rest, rfl⟩
    simp [renderCells, renderRow, List.intercalate]
  exact absurd (hblank comma hcomma) (by decide)

/-- A row has the bytes of its cells, and those that set them apart. -/
theorem mem_renderCells {c : UInt8} (hc : c ∈ renderCells cells) :
    c = comma ∨ c = doubleQuote ∨ ∃ cell ∈ cells, c ∈ cell.text := by
  rcases Csv.mem_renderRow hc with hc | hc | ⟨cell, hcell, hc⟩
  · exact .inl hc
  · exact .inr (.inl hc)
  · obtain ⟨sheetCell, hmem, rfl⟩ := List.mem_map.mp hcell
    exact .inr (.inr ⟨sheetCell, hmem, hc⟩)

theorem unbroken_renderCells (cells : List SheetCell) : Unbroken (renderCells cells) := by
  have hnone : ∀ c, c = newline ∨ c = carriageReturn → c ∉ renderCells cells := by
    intro c hend hc
    rcases mem_renderCells hc with rfl | rfl | ⟨cell, -, hcell⟩
    · exact absurd hend (by decide)
    · exact absurd hend (by decide)
    · rcases hend with rfl | rfl
      · exact cell.oneLine.1 hcell
      · exact cell.oneLine.2 hcell
  exact ⟨hnone _ (.inl rfl), fun hlast => hnone _ (.inr rfl) (List.mem_of_getLast? hlast)⟩

theorem unbroken_blankLine (line : BlankLine) : Unbroken line.text := by
  have hnone : ∀ c, c = newline ∨ c = carriageReturn → c ∉ line.text := by
    intro c hend hc
    rcases line.blank c hc with rfl | rfl
    · exact absurd hend (by decide)
    · exact absurd hend (by decide)
  exact ⟨hnone _ (.inl rfl), fun hlast => hnone _ (.inr rfl) (List.mem_of_getLast? hlast)⟩

theorem isBlank_blankLine (line : BlankLine) : isBlank line.text = true := by
  rw [isBlank_iff]
  intro c hc
  rcases line.blank c hc with rfl | rfl
  · decide
  · decide

/-! ## The sheet -/

/-- The six columns are more than one. -/
theorem Complete.two_le_length (h : Complete layout) : 2 ≤ layout.length := by
  match layout, h with
  | [], h => exact absurd (h.required .token) (by simp)
  | [column], h =>
    have htoken := List.mem_singleton.mp (h.required .token)
    have hsymbol := List.mem_singleton.mp (h.required .symbol)
    rw [← htoken] at hsymbol
    cases hsymbol
  | _ :: _ :: _, _ => simp

theorem Heads.two_le_length {header : List SheetCell} (hheader : Heads layout header)
    (h : Complete layout) : 2 ≤ header.length := by
  have hlength := congrArg List.length hheader
  rw [List.length_map, List.length_map] at hlength
  exact hlength ▸ h.two_le_length

/-- Under a header of the layout the text reads row by row. -/
theorem parse_render {instruments : List Instrument} (h : Complete layout) {sheet : Sheet}
    (hheader : Heads layout sheet.header) (crlf : Nat → Bool) :
    parseInstrumentsCsv (sheet.render crlf) = .ok instruments
      ↔ List.Forall₂ (ReadsAs (columnsOf layout))
          ((sheet.lines.map SheetLine.text).filter fun line => !isBlank line) instruments := by
  have hwide := hheader.two_le_length h
  have hlines : splitLines (sheet.render crlf) = sheet.front.map BlankLine.text
      ++ renderCells sheet.header :: sheet.lines.map SheetLine.text := by
    refine Csv.splitLines_joinLines (by simp) ?_ crlf
    intro line hline
    rcases List.mem_append.mp hline with hline | hline
    · obtain ⟨blank, -, rfl⟩ := List.mem_map.mp hline
      exact unbroken_blankLine blank
    · rcases List.mem_cons.mp hline with rfl | hline
      · exact unbroken_renderCells sheet.header
      · obtain ⟨sheetLine, -, rfl⟩ := List.mem_map.mp hline
        cases sheetLine with
        | blank blank => exact unbroken_blankLine blank
        | row cells => exact unbroken_renderCells cells
  have hfront : ∀ line ∈ sheet.front.map BlankLine.text, isBlank line = true := by
    intro line hline
    obtain ⟨blank, -, rfl⟩ := List.mem_map.mp hline
    exact isBlank_blankLine blank
  have hne : sheet.header ≠ [] := by
    intro hnil
    simp [hnil] at hwide
  rw [parseInstrumentsCsv_eq_ok hlines hfront (isBlank_renderCells hwide),
    splitCsvLine_renderCells hne, readHeader_heads h hheader]
  simp

/-- The rows are the lines that are not blank. -/
theorem filter_lines {sheet : Sheet}
    (hrows : ∀ cells ∈ sheet.rows, isBlank (renderCells cells) = false) :
    (sheet.lines.map SheetLine.text).filter (fun line => !isBlank line)
      = sheet.rows.map renderCells := by
  unfold Sheet.rows at hrows ⊢
  generalize sheet.lines = lines at hrows
  induction lines with
  | nil => rfl
  | cons line lines ih =>
    cases line with
    | blank blank =>
      rw [List.map_cons, List.filter_cons_of_neg (by simp [SheetLine.text, isBlank_blankLine])]
      exact ih hrows
    | row cells =>
      have hcells : isBlank (renderCells cells) = false := hrows cells (by simp)
      rw [List.map_cons, List.filter_cons_of_pos (by simp [SheetLine.text, hcells]),
        ih fun other hother => hrows other (by simp [hother])]
      rfl

/-- **The parser inverts the writer, and one invalid row refuses the sheet.** -/
theorem parse_sheet {layout : List SheetColumn} (h : Complete layout) (sheet : Sheet)
    (hheader : Heads layout sheet.header) (crlf : Nat → Bool) :
    (∀ instruments, List.Forall₂ (Writes layout) sheet.rows instruments →
        (∀ inst ∈ instruments, Writable inst) →
          parseInstrumentsCsv (sheet.render crlf) = .ok instruments)
      ∧ ∀ cells ∈ sheet.rows, isBlank (renderCells cells) = false → ¬ Valid layout cells →
          ∃ e, parseInstrumentsCsv (sheet.render crlf) = .error e := by
  constructor
  · intro instruments hrows hinst
    have hwide : ∀ cells ∈ sheet.rows, 2 ≤ cells.length := by
      intro cells hcells
      obtain ⟨inst, -, hwrites⟩ := Steps.exists_of_forall₂ hrows cells hcells
      exact hwrites.length_eq ▸ h.two_le_length
    rw [parse_render h hheader, filter_lines fun cells hcells =>
      isBlank_renderCells (hwide cells hcells), List.forall₂_map_left_iff]
    generalize sheet.rows = rows at hrows hwide
    induction hrows with
    | nil => exact .nil
    | @cons cells inst rows instruments hwrites _ ih =>
      have hne : cells ≠ [] := by
        intro hnil
        have htwo := hwide cells (by simp)
        simp [hnil] at htwo
      refine .cons ?_ (ih (fun i hi => hinst i (by simp [hi])) fun c hc => hwide c (by simp [hc]))
      show readFields _ (splitCsvLine (renderCells cells)) = _
      rw [splitCsvLine_renderCells hne]
      exact readFields_of_writes h hwrites (hinst inst (by simp))
  · intro cells hcells hblank hinvalid
    cases hparse : parseInstrumentsCsv (sheet.render crlf) with
    | error e => exact ⟨e, rfl⟩
    | ok instruments =>
      have hline : renderCells cells
          ∈ (sheet.lines.map SheetLine.text).filter fun line => !isBlank line := by
        obtain ⟨line, hmem, hline⟩ := List.mem_filterMap.mp hcells
        cases line with
        | blank blank => cases hline
        | row cells' =>
          obtain rfl := Option.some.inj hline
          exact List.mem_filter.mpr ⟨List.mem_map_of_mem hmem, by simp [hblank]⟩
      have hne : cells ≠ [] := by
        rintro rfl
        exact absurd hblank (by decide)
      obtain ⟨inst, -, hreads⟩ :=
        Steps.exists_of_forall₂ ((parse_render h hheader crlf).mp hparse) _ hline
      rw [ReadsAs, splitCsvLine_renderCells hne] at hreads
      exact absurd (valid_of_readFields hreads) hinvalid

end

/-- A symbol with a comma behind an extra column, with a blank line before its row. -/
theorem parse_sheet_row :
    parseInstrumentsCsv (ascii
        "token_id,instrument_token,tradingsymbol,exchange,expiry,tick_size,lot_size\r\n\t\nx,7,\"A,B\",NFO,,0.05,75")
      = .ok [⟨ascii "A,B", 7, ascii "NFO", 75, 5, 0, []⟩] := by
  let cell (text : Bytes) (h : (comma ∉ text ∧ doubleQuote ∉ text) ∧ newline ∉ text
      ∧ carriageReturn ∉ text) : SheetCell := ⟨⟨text, false, fun _ => h.1⟩, h.2⟩
  let layout : List SheetColumn := [.extra (ascii "token_id"), .required .token,
    .required .symbol, .required .exchange, .required .expiry, .required .tick, .required .lot]
  let row : List SheetCell := [cell (ascii "x") (by decide), cell (ascii "7") (by decide),
    ⟨⟨ascii "A,B", true, by simp⟩, by decide⟩, cell (ascii "NFO") (by decide),
    cell [] (by decide), cell (ascii "0.05") (by decide), cell (ascii "75") (by decide)]
  let sheet : Sheet := ⟨[], [cell (ascii "token_id") (by decide),
    cell (ascii "instrument_token") (by decide), cell (ascii "tradingsymbol") (by decide),
    cell (ascii "exchange") (by decide), cell (ascii "expiry") (by decide),
    cell (ascii "tick_size") (by decide), cell (ascii "lot_size") (by decide)],
    [.blank ⟨ascii "\t", by decide⟩, .row row]⟩
  have hcomplete : Complete layout := by
    refine ⟨fun column => by cases column <;> simp [layout], ?_⟩
    intro name hname column
    obtain rfl : name = ascii "token_id" := by simpa [layout] using hname
    cases column <;> decide
  have hread := (parse_sheet hcomplete sheet rfl fun i => i = 0).1
    [⟨ascii "A,B", 7, ascii "NFO", 75, 5, 0, []⟩]
    (.cons (.cons trivial (.cons rfl (.cons rfl (.cons rfl (.cons rfl (.cons (by decide)
      (.cons rfl .nil))))))) .nil)
    (by
      intro inst hinst
      obtain rfl := List.mem_singleton.mp hinst
      have hsymbol : Trimmed (ascii "A,B") := ⟨by decide +kernel, by decide +kernel⟩
      have hexchange : Trimmed (ascii "NFO") := ⟨by decide +kernel, by decide +kernel⟩
      exact ⟨hsymbol, hexchange, ⟨by simp, by simp⟩, by decide, by decide, rfl⟩)
  rw [← hread]
  congr 1

end BrokerExec.Refdata
