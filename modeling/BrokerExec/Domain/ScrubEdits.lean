import BrokerExec.Domain.Redaction
import BrokerExec.Lib.Edits

/-!
# What the scrubber copies (`domain/redaction.cpp`)

`scrub` appends stretches of its input and markers to its output. The definitions here are its loop
and `try_key_value` once more, with the list of these appends for a result.

* **`shown_scrubEdits`** — what the script shows is the scrubbed text.
-/

namespace BrokerExec.Domain

/-- `key=value` with a sensitive key at the front of `s`: what is copied of it, and the value. -/
def keyValueSplit (s : Bytes) : Option (Bytes × Bytes) :=
  let key := s.takeWhile isTokenChar
  if key = [] ∨ keyIsSensitive key = false then none
  else
    let closing := ((s.drop key.length).take 1).takeWhile isQuote
    let blanks := (s.drop (key ++ closing).length).takeWhile isSpace
    match s.drop (key ++ closing ++ blanks).length with
    | [] => none
    | separator :: behind =>
      if separator ≠ 0x3A ∧ separator ≠ 0x3D then none
      else
        let padding := behind.takeWhile isSpace
        let front := key ++ closing ++ blanks ++ separator :: padding
        match behind.drop padding.length with
        | [] => some (front, [])
        | quote :: rest =>
          if isQuote quote then some (front ++ [quote], rest.takeWhile (· ≠ quote))
          else some (front, (quote :: rest).takeWhile fun c => !isValueDelim c)

theorem tryKeyValue_eq_split (s : Bytes) :
    tryKeyValue s = (keyValueSplit s).map fun (front, value) =>
      (front ++ redacted value, front.length + value.length) := by
  unfold tryKeyValue keyValueSplit
  dsimp only
  split_ifs with hkey
  · rfl
  generalize s.takeWhile isTokenChar = key
  generalize ((s.drop key.length).take 1).takeWhile isQuote = closing
  generalize (s.drop (key ++ closing).length).takeWhile isSpace = blanks
  cases s.drop (key ++ closing ++ blanks).length with
  | nil => rfl
  | cons separator behind =>
    dsimp only
    split_ifs with hseparator
    · rfl
    cases behind.drop (behind.takeWhile isSpace).length with
    | nil => rfl
    | cons quote rest =>
      dsimp only
      split_ifs with hquote
      · simp [Nat.add_assoc]
      · rfl

/-- What is done with a token run that is no sensitive key. -/
def runEdit (back run : Bytes) : Edit UInt8 :=
  if 20 ≤ run.length ∧ runHasLetterAndDigit run then .hide run
  else if 4 ≤ run.length ∧ run.length ≤ 8 ∧ runIsAllDigits run ∧ authContextBefore back then
    .hide run
  else .keep run

/-- The loop of `scrub`. -/
def scrubEdits : Nat → Bytes → Bytes → List (Edit UInt8)
  | 0, _, _ => []
  | _ + 1, _, [] => []
  | fuel + 1, back, c :: cs =>
    if isTokenChar c && !(back.head?.any isTokenChar) then
      match keyValueSplit (c :: cs) with
      | some (front, value) =>
        let size := front.length + value.length
        .keep front :: .hide value
          :: scrubEdits fuel (((c :: cs).take size).reverse ++ back) ((c :: cs).drop size)
      | none =>
        let run := (c :: cs).takeWhile isTokenChar
        runEdit back run :: scrubEdits fuel (run.reverse ++ back) ((c :: cs).drop run.length)
    else .keep [c] :: scrubEdits fuel (c :: back) cs

theorem runEdit_shown (back run : Bytes) (hne : run ≠ []) :
    (runEdit back run).apply kRedactionMarker (runEdit back run).chars = scrubRun back run := by
  unfold runEdit scrubRun
  split_ifs
  · exact if_neg hne
  · exact if_neg hne
  · rfl

/-- **What the script shows is the scrubbed text.** -/
theorem shown_scrubEdits (fuel : Nat) (back s : Bytes) :
    Edit.shown kRedactionMarker (scrubEdits fuel back s) = scrubLoop fuel back s := by
  induction fuel generalizing back s with
  | zero => rfl
  | succ fuel ih =>
    cases s with
    | nil => rfl
    | cons c cs =>
      rw [scrubEdits, scrubLoop]
      split_ifs with hstart
      · rw [tryKeyValue_eq_split]
        cases hsplit : keyValueSplit (c :: cs) with
        | some split =>
          obtain ⟨front, value⟩ := split
          dsimp only [Option.map_some]
          rw [Edit.shown_cons, Edit.shown_cons, ih, List.append_assoc]
          rfl
        | none =>
          dsimp only [Option.map_none]
          rw [Edit.shown_cons, ih, runEdit_shown]
          rw [List.takeWhile_cons_of_pos (Bool.and_eq_true _ _ ▸ hstart).1]
          exact List.cons_ne_nil _ _
      · rw [Edit.shown_cons, ih]
        rfl

end BrokerExec.Domain
