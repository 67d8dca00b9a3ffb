import BrokerExec.Lib.Bytes

/-!
# Comma-separated lines

`splitFrom` is the usual splitter with a quote state: a quoted part may hold the separator, and a
doubled quote inside it stands for one. `Cell` is a field with the choice of quoting it, which a
field that holds a separator or a quote does not have.

* **`split_renderRow`** — a line written cell by cell is split back into the cells' texts.
* **`splitLines_joinLines`** — lines joined by either line ending are cut apart again.
* **`splitLines_append`** — a text that was cut off has the lines of the whole but for the last.
-/

namespace BrokerExec.Csv

/-! ## Fields of a line -/

section

variable (sep quote : UInt8)

/-- The fields from here on, with the one begun so far. -/
def splitFrom : Bool → Bytes → Bytes → List Bytes
  | _, current, [] => [current]
  | true, current, [c] => if c = quote then [current] else [current ++ [c]]
  | true, current, c :: d :: line =>
    if c = quote then
      if d = quote then splitFrom true (current ++ [quote]) line
      else splitFrom false current (d :: line)
    else splitFrom true (current ++ [c]) (d :: line)
  | false, current, c :: line =>
    if c = quote then splitFrom true current line
    else if c = sep then current :: splitFrom false [] line
    else splitFrom false (current ++ [c]) line

def split (line : Bytes) : List Bytes := splitFrom sep quote false [] line

/-- A field and whether it is written in quotes. -/
structure Cell where
  text : Bytes
  quoted : Bool
  plain : quoted = false → sep ∉ text ∧ quote ∉ text

variable {sep quote}

/-- Quotes inside are doubled. -/
def escape (quote : UInt8) (text : Bytes) : Bytes :=
  text.flatMap fun c => if c = quote then [quote, quote] else [c]

def Cell.render (cell : Cell sep quote) : Bytes :=
  if cell.quoted then quote :: (escape quote cell.text ++ [quote]) else cell.text

def renderRow (cells : List (Cell sep quote)) : Bytes :=
  [sep].intercalate (cells.map Cell.render)

theorem splitFrom_quoted {c : UInt8} (hc : c ≠ quote) (current line : Bytes) :
    splitFrom sep quote true current (c :: line)
      = splitFrom sep quote true (current ++ [c]) line := by
  cases line <;> simp [splitFrom, hc]

theorem splitFrom_doubled (current line : Bytes) :
    splitFrom sep quote true current (quote :: quote :: line)
      = splitFrom sep quote true (current ++ [quote]) line := by
  simp [splitFrom]

theorem splitFrom_closing {rest : Bytes} (hrest : rest.head? ≠ some quote) (current : Bytes) :
    splitFrom sep quote true current (quote :: rest)
      = splitFrom sep quote false current rest := by
  cases rest with
  | nil => simp [splitFrom]
  | cons d rest =>
    have hd : d ≠ quote := by simpa using hrest
    rw [splitFrom, if_pos rfl, if_neg hd]

/-- A text without separators and quotes runs into the field. -/
theorem splitFrom_plain {text : Bytes} (hsep : sep ∉ text) (hquote : quote ∉ text)
    (current rest : Bytes) :
    splitFrom sep quote false current (text ++ rest)
      = splitFrom sep quote false (current ++ text) rest := by
  induction text generalizing current with
  | nil => simp
  | cons c text ih =>
    have hc : c ≠ quote ∧ c ≠ sep := by
      constructor <;> rintro rfl <;> simp_all
    rw [List.cons_append, splitFrom, if_neg hc.1, if_neg hc.2,
      ih (fun h => hsep (by simp [h])) (fun h => hquote (by simp [h])), List.append_assoc]
    rfl

/-- A quoted text ends at its closing quote, when none follows. -/
theorem splitFrom_escape {rest : Bytes} (hrest : rest.head? ≠ some quote) (text current : Bytes) :
    splitFrom sep quote true current (escape quote text ++ quote :: rest)
      = splitFrom sep quote false (current ++ text) rest := by
  induction text generalizing current with
  | nil => simpa [escape] using splitFrom_closing hrest current
  | cons c text ih =>
    have hstep : escape quote (c :: text) ++ quote :: rest
        = (if c = quote then [quote, quote] else [c])
          ++ (escape quote text ++ quote :: rest) := by
      simp [escape]
    rw [hstep]
    by_cases hc : c = quote
    · subst hc
      rw [if_pos rfl]
      show splitFrom sep c true current (c :: c :: (escape c text ++ c :: rest)) = _
      rw [splitFrom_doubled, ih, List.append_assoc]
      rfl
    · rw [if_neg hc, List.singleton_append, splitFrom_quoted hc, ih, List.append_assoc]
      rfl

/-- A cell is read up to the separator behind it. -/
theorem splitFrom_cell (cell : Cell sep quote) {rest : Bytes}
    (hrest : rest.head? ≠ some quote) :
    splitFrom sep quote false [] (cell.render ++ rest)
      = splitFrom sep quote false cell.text rest := by
  unfold Cell.render
  cases hquoted : cell.quoted with
  | true =>
    rw [if_pos rfl, List.cons_append, splitFrom, if_pos rfl, List.append_assoc,
      List.singleton_append, splitFrom_escape hrest]
    rfl
  | false =>
    obtain ⟨hsep, hquote⟩ := cell.plain hquoted
    rw [if_neg (by simp), splitFrom_plain hsep hquote]
    rfl

/-- **A written line is split back into its fields.** -/
theorem split_renderRow (hne : sep ≠ quote) {cells : List (Cell sep quote)} (h : cells ≠ []) :
    split sep quote (renderRow cells) = cells.map Cell.text := by
  unfold split
  induction cells with
  | nil => exact absurd rfl h
  | cons cell cells ih =>
    cases cells with
    | nil =>
      have hread := splitFrom_cell cell (show ([] : Bytes).head? ≠ some quote by simp)
      rw [List.append_nil] at hread
      simpa [renderRow, splitFrom] using hread
    | cons next cells =>
      have hrow : renderRow (cell :: next :: cells)
          = cell.render ++ sep :: renderRow (next :: cells) := by
        simp [renderRow, List.intercalate]
      rw [hrow, splitFrom_cell cell (by simpa using hne), splitFrom, if_neg hne, if_pos rfl,
        ih (by simp)]
      rfl

/-- A line has the bytes of its cells, and those that set them apart. -/
theorem mem_renderRow {cells : List (Cell sep quote)} {c : UInt8} (hc : c ∈ renderRow cells) :
    c = sep ∨ c = quote ∨ ∃ cell ∈ cells, c ∈ cell.text := by
  have hescape : ∀ text : Bytes, c ∈ escape quote text → c ∈ text := by
    intro text h
    obtain ⟨d, hd, hcd⟩ := List.mem_flatMap.mp h
    split at hcd
    · next hquote =>
      have hcq : c = quote := by simpa using hcd
      rwa [hcq, ← hquote]
    · rwa [List.mem_singleton.mp hcd]
  have hcell : ∀ cell : Cell sep quote, c ∈ cell.render → c = quote ∨ c ∈ cell.text := by
    intro cell h
    unfold Cell.render at h
    split at h
    · rcases List.mem_cons.mp h with h | h
      · exact .inl h
      · rcases List.mem_append.mp h with h | h
        · exact .inr (hescape _ h)
        · exact .inl (List.mem_singleton.mp h)
    · exact .inr h
  induction cells with
  | nil => simp [renderRow] at hc
  | cons cell cells ih =>
    have hrow : renderRow (cell :: cells)
        = cell.render ++ if cells = [] then [] else sep :: renderRow cells := by
      cases cells <;> simp [renderRow, List.intercalate]
    rw [hrow] at hc
    rcases List.mem_append.mp hc with hc | hc
    · rcases hcell cell hc with hc | hc
      · exact .inr (.inl hc)
      · exact .inr (.inr ⟨cell, by simp, hc⟩)
    · split at hc
      · simp at hc
      · rcases List.mem_cons.mp hc with hc | hc
        · exact .inl hc
        · rcases ih hc with hc | hc | ⟨other, hother, hc⟩
          · exact .inl hc
          · exact .inr (.inl hc)
          · exact .inr (.inr ⟨other, by simp [hother], hc⟩)

end

/-! ## Lines of a text -/

/-- `'\r'`. -/
def carriageReturn : UInt8 := 13

/-- Half a line ending left at the end of a line. -/
def dropCr (line : Bytes) : Bytes :=
  if line.getLast? = some carriageReturn then line.dropLast else line

def splitLines (text : Bytes) : List Bytes := (text.splitOn newline).map dropCr

def ending (crlf : Bool) : Bytes := if crlf then [carriageReturn, newline] else [newline]

/-- The lines with an ending behind each but the last. -/
def joinLines : (Nat → Bool) → List Bytes → Bytes
  | _, [] => []
  | _, [line] => line
  | crlf, line :: next :: lines =>
    line ++ ending (crlf 0) ++ joinLines (fun i => crlf (i + 1)) (next :: lines)

/-- A line that is not cut and keeps its end. -/
def Unbroken (line : Bytes) : Prop := newline ∉ line ∧ line.getLast? ≠ some carriageReturn

theorem dropCr_ending {line : Bytes} (h : Unbroken line) (crlf : Bool) :
    dropCr (line ++ if crlf then [carriageReturn] else []) = line := by
  cases crlf with
  | true => simp [dropCr]
  | false => simp [dropCr, h.2]

/-- **Lines are cut apart whatever their endings.** -/
theorem splitLines_joinLines {lines : List Bytes} (h : lines ≠ [])
    (hlines : ∀ line ∈ lines, Unbroken line) (crlf : Nat → Bool) :
    splitLines (joinLines crlf lines) = lines := by
  induction lines generalizing crlf with
  | nil => exact absurd rfl h
  | cons line lines ih =>
    have hline := hlines line (by simp)
    cases lines with
    | nil =>
      have hkept := dropCr_ending hline false
      simpa [splitLines, joinLines, List.splitOn_eq_singleton hline.1] using hkept
    | cons next lines =>
      have htext : joinLines crlf (line :: next :: lines)
          = (line ++ if crlf 0 then [carriageReturn] else [])
            ++ newline :: joinLines (fun i => crlf (i + 1)) (next :: lines) := by
        cases hcrlf : crlf 0 <;> simp [joinLines, ending, hcrlf]
      have hfront : newline ∉ line ++ if crlf 0 then [carriageReturn] else [] := by
        have hcr : newline ≠ carriageReturn := by decide
        cases crlf 0 <;> simp [hline.1, hcr]
      have hrest := ih (by simp) (fun l hl => hlines l (by simp [hl])) fun i => crlf (i + 1)
      rw [htext, splitLines, List.splitOn_append_cons_self_of_not_mem hfront, List.map_cons,
        dropCr_ending hline]
      exact congrArg (line :: ·) hrest

/-- A text that goes on keeps its lines, all but the last. -/
theorem splitLines_append (front back : Bytes) : ∃ whole cut line rest,
    splitLines front = whole ++ [cut] ∧ splitLines (front ++ back) = whole ++ line :: rest := by
  have hcons : ∀ text : Bytes, ∃ line rest, splitLines text = line :: rest := by
    intro text
    exact List.exists_cons_of_ne_nil (by simp [splitLines, List.splitOn_ne_nil])
  by_cases hend : newline ∈ front.reverse
  · -- the last line of the front part starts behind its last newline
    obtain ⟨last, before, hfront, hlast⟩ := List.eq_append_cons_of_mem hend
    have hcut : front = before.reverse ++ newline :: last.reverse := by
      rw [← List.reverse_reverse front, hfront]
      simp
    obtain ⟨line, rest, hline⟩ := hcons (last.reverse ++ back)
    have hlast' : newline ∉ last.reverse := by simpa using hlast
    refine ⟨splitLines before.reverse, dropCr last.reverse, line, rest, ?_, ?_⟩
    · rw [hcut, splitLines, List.splitOn_append_cons_self, List.map_append,
        List.splitOn_eq_singleton hlast']
      rfl
    · rw [← hline, hcut, List.append_assoc, List.cons_append, splitLines,
        List.splitOn_append_cons_self, List.map_append]
      rfl
  · obtain ⟨line, rest, hline⟩ := hcons (front ++ back)
    refine ⟨[], dropCr front, line, rest, ?_, hline⟩
    rw [splitLines, List.splitOn_eq_singleton (by simpa using hend)]
    rfl

end BrokerExec.Csv
