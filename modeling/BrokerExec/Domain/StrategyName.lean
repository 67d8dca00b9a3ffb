import BrokerExec.Domain.Redaction
import BrokerExec.Domain.Utf8
import BrokerExec.Lib.Munch

/-!
# Strategy names (`domain/redaction.cpp`)

A name is checked where it is configured, so that every reference minted from it has the shape of
an identifier and is printed whole.

* **`Segmented`** says of a text that each of its segments is all letters or all hex, and
  **`Shape`** what the shape rule counts in it.
* **`explainAt_depth`** — the explanation asks about its own suggestion once, and that call asks
  about none.
-/

namespace BrokerExec.Domain

def kMaxStrategyNameChars : Nat := 64

/-- The provenance characters but for `#`. -/
def isStrategyNameChar (c : UInt8) : Bool := isTokenChar c

/-- Neither all letters nor all hex. -/
def isMixed (segment : Bytes) : Bool := !segment.all isLetter && !segment.all isHexDigit

/-- The loop of `first_mixed_segment`; every round consumes a byte. -/
def firstMixedLoop : Nat → Bytes → Bytes
  | 0, _ => []
  | _ + 1, [] => []
  | fuel + 1, c :: cs =>
    if isAlnum c = false then firstMixedLoop fuel cs
    else
      let segment := (c :: cs).takeWhile isAlnum
      if isMixed segment then segment
      else firstMixedLoop fuel ((c :: cs).drop segment.length)

def firstMixedSegment (name : Bytes) : Bytes := firstMixedLoop name.length name

/-- A `-` between every letter and digit that stand side by side. -/
def hyphenate : Bytes → Bytes
  | [] => []
  | [c] => [c]
  | c :: d :: cs =>
    if isLetter d ≠ isLetter c then c :: 0x2D :: hyphenate (d :: cs) else c :: hyphenate (d :: cs)

/-- The loop of `split_mixed_segments`. -/
def splitMixedLoop : Nat → Bytes → Bytes
  | 0, _ => []
  | _ + 1, [] => []
  | fuel + 1, c :: cs =>
    if isAlnum c = false then c :: splitMixedLoop fuel cs
    else
      let segment := (c :: cs).takeWhile isAlnum
      (if firstMixedSegment segment = [] then segment else hyphenate segment)
        ++ splitMixedLoop fuel ((c :: cs).drop segment.length)

def splitMixedSegments (name : Bytes) : Bytes := splitMixedLoop name.length name

/-- Truncated, and `?` for every other byte. -/
def sanitizedForMessage (name : Bytes) : Bytes :=
  (name.take kMaxStrategyNameChars).map fun c => if isStrategyNameChar c then c else 0x3F

/-- `explain_invalid_strategy_name`, which asks `again` about its own suggestion. -/
def explainWith (again : Bytes → Bytes) (name : Bytes) : Bytes :=
  let shown := sanitizedForMessage name
  if name = [] then
    ascii "strategy name is EMPTY; it must be 1.." ++ decimalNat kMaxStrategyNameChars
      ++ ascii (" characters from [A-Za-z0-9_-], at least one of them a letter or digit, with "
        ++ "each '-'/'_'-separated segment all letters or all hex")
  else if kMaxStrategyNameChars < name.length then
    ascii "strategy name '" ++ shown ++ ascii "' (truncated here) is " ++ decimalNat name.length
      ++ ascii " bytes; the maximum is " ++ decimalNat kMaxStrategyNameChars
      ++ ascii " so that every client_ref it mints stays inside the "
      ++ decimalNat kMaxProvenanceIdChars ++ ascii "-char provenance-id bound"
  else if canonicalText name ≠ name then
    ascii "strategy name '" ++ shown
      ++ ascii ("' (bytes outside [A-Za-z0-9_-] shown as '?') is not valid UTF-8; an ill-formed "
        ++ "name travels raw through the store and the idempotency index and is normalised only "
        ++ "at the log writer, where the hash preimage and the stored bytes then disagree")
  else if name.all isStrategyNameChar = false then
    ascii "strategy name '" ++ shown
      ++ ascii ("' (bytes outside [A-Za-z0-9_-] shown as '?') contains a character that is not "
        ++ "in [A-Za-z0-9_-]; a space, '.', '/', ':' or '#' makes the strategy column and every "
        ++ "client_ref it mints unloggable (both are then wholly redacted)")
  else if name.any isAlnum = false then
    ascii "strategy name '" ++ shown
      ++ ascii ("' has no letter or digit; a name of only '-'/'_' separators renders a strategy "
        ++ "column that attributes an order to nothing at all, exactly as an empty name does")
  else
    -- from here on every byte is in the charset, so the name's own bytes may be shown
    let mixed := firstMixedSegment name
    if mixed ≠ [] then
      let suggestion := splitMixedSegments name
      ascii "strategy name '" ++ shown ++ ascii "': segment '" ++ mixed
        ++ ascii ("' mixes letters and digits (every segment of a client_ref must be all "
          ++ "letters or all hex, or the WHOLE ref stops being id-shaped and is redacted in "
          ++ "every alert and ledger entry)")
        ++ if suggestion ≠ name ∧ again suggestion = [] then
            ascii "; use '" ++ suggestion ++ ascii "'"
          else []
    else if scrubProvenanceColumn name ≠ name then
      ascii "strategy name '" ++ shown
        ++ ascii ("' is a single un-separated run that domain::scrub cannot distinguish from a "
          ++ "credential, so the strategy column itself would be redacted; separate it with a "
          ++ "'-' or '_' (a name with two or more segments is exempt as a whole typed column)")
    else []

def explainAt : Nat → Bytes → Bytes
  | 0, _ => []
  | depth + 1, name => explainWith (explainAt depth) name

def explainInvalidStrategyName (name : Bytes) : Bytes := explainAt 2 name

def isValidStrategyName (name : Bytes) : Bool := explainInvalidStrategyName name = []

/-! ## Segments -/

/-- Each segment is all letters or all hex. -/
inductive Segmented : Bytes → Prop where
  | nil : Segmented []
  | separator {c : UInt8} {rest : Bytes} (hc : isAlnum c = false) (hrest : Segmented rest) :
      Segmented (c :: rest)
  | segment {segment rest : Bytes} (hne : segment ≠ []) (halnum : ∀ c ∈ segment, isAlnum c = true)
      (hmixed : isMixed segment = false) (hhead : ∀ c ∈ rest.head?, isAlnum c = false)
      (hrest : Segmented rest) : Segmented (segment ++ rest)

theorem segmented_of_firstMixedLoop {fuel : Nat} {name : Bytes} (hfuel : name.length ≤ fuel)
    (h : firstMixedLoop fuel name = []) : Segmented name := by
  induction fuel generalizing name with
  | zero =>
    obtain rfl := List.length_eq_zero_iff.mp (Nat.le_zero.mp hfuel)
    exact .nil
  | succ fuel ih =>
    cases name with
    | nil => exact .nil
    | cons c cs =>
      rw [firstMixedLoop] at h
      rw [List.length_cons] at hfuel
      by_cases hc : isAlnum c = false
      · rw [if_pos hc] at h
        exact .separator hc (ih (by omega) h)
      · rw [if_neg hc] at h
        obtain ⟨hcut, hall, hhead⟩ := takeWhile_cut isAlnum (c :: cs)
        have hne : (c :: cs).takeWhile isAlnum ≠ [] := by
          rw [List.takeWhile_cons_of_pos (by simpa using hc)]
          exact List.cons_ne_nil _ _
        dsimp only at h
        split_ifs at h with hmixed
        · exact absurd h hne
        · rw [hcut]
          have hpos := List.length_pos_iff.mpr hne
          refine .segment hne hall (by simpa using hmixed) hhead (ih ?_ h)
          rw [List.length_drop, List.length_cons]
          omega

/-- Nothing is found in a text whose segments are uniform. -/
theorem firstMixedLoop_of_segmented {name : Bytes} (h : Segmented name) {fuel : Nat} :
    firstMixedLoop fuel name = [] := by
  induction h generalizing fuel with
  | nil => cases fuel <;> rfl
  | separator hc _ ih =>
    cases fuel with
    | zero => rfl
    | succ fuel =>
      rw [firstMixedLoop, if_pos hc]
      exact ih
  | @segment segment rest hne halnum hmixed hhead _ ih =>
    cases fuel with
    | zero => rfl
    | succ fuel =>
      obtain ⟨c, cs, rfl⟩ := List.exists_cons_of_ne_nil hne
      have htake : ((c :: cs) ++ rest).takeWhile isAlnum = c :: cs := by
        rw [List.takeWhile_append_of_pos halnum]
        cases rest with
        | nil => simp
        | cons d rest => simp [hhead d rfl]
      rw [List.cons_append] at htake ⊢
      rw [firstMixedLoop, if_neg (by simp [halnum c List.mem_cons_self]), htake]
      dsimp only
      rw [hmixed, if_neg Bool.false_ne_true, ← List.cons_append, List.drop_left]
      exact ih

theorem firstMixedSegment_eq_nil_iff {name : Bytes} :
    firstMixedSegment name = [] ↔ Segmented name :=
  ⟨segmented_of_firstMixedLoop (Nat.le_refl _), fun h => firstMixedLoop_of_segmented h⟩

/-! ## The suggestion is uniform -/

theorem isMixed_of_class {piece : Bytes} (hpiece : ∀ c ∈ piece, isAlnum c = true)
    {letter : Bool} (hclass : ∀ c ∈ piece, isLetter c = letter) : isMixed piece = false := by
  cases letter with
  | true => simp [isMixed, List.all_eq_true.mpr hclass]
  | false =>
    have hhex : piece.all isHexDigit = true := by
      rw [List.all_eq_true]
      intro c hc
      have hdigit : isDigit c = true := by
        have hc' := hpiece c hc
        rw [isAlnum, hclass c hc, Bool.false_or] at hc'
        exact hc'
      simp [isHexDigit, hdigit]
    simp [isMixed, hhex]

/-- A hyphenated segment is a piece of one class, and `-` before more such. -/
theorem segmented_hyphenate {rest : Bytes} (hhead : ∀ c ∈ rest.head?, isAlnum c = false)
    (hrest : Segmented rest) {c : UInt8} {cs : Bytes}
    (halnum : ∀ d ∈ c :: cs, isAlnum d = true) :
    ∃ piece tail, hyphenate (c :: cs) = piece ++ tail ∧ piece ≠ []
      ∧ (∀ d ∈ piece, isAlnum d = true) ∧ (∀ d ∈ piece, isLetter d = isLetter c)
      ∧ (∀ d ∈ (tail ++ rest).head?, isAlnum d = false) ∧ Segmented (tail ++ rest) := by
  induction cs generalizing c with
  | nil =>
    refine ⟨[c], [], rfl, by simp, halnum, by simp, hhead, hrest⟩
  | cons d cs ih =>
    obtain ⟨piece, tail, hsplit, hne, hpiece, hclass, htail, hsegmented⟩ :=
      ih fun e he => halnum e (List.mem_cons_of_mem _ he)
    have hc := halnum c List.mem_cons_self
    rw [hyphenate, hsplit]
    by_cases hsame : isLetter d = isLetter c
    · rw [if_neg (not_not.mpr hsame)]
      refine ⟨c :: piece, tail, rfl, by simp, ?_, ?_, htail, hsegmented⟩
      · intro e he
        rcases List.mem_cons.mp he with rfl | he
        · exact hc
        · exact hpiece e he
      · intro e he
        rcases List.mem_cons.mp he with rfl | he
        · rfl
        · exact (hclass e he).trans hsame
    · rw [if_pos hsame]
      refine ⟨[c], 0x2D :: (piece ++ tail), rfl, by simp, by simpa using hc, by simp,
        by simp [isAlnum, isLetter, isUpperLetter, isDigit], ?_⟩
      rw [List.cons_append, List.append_assoc]
      exact .separator (by decide)
        (.segment hne hpiece (isMixed_of_class hpiece hclass) htail hsegmented)

theorem isMixed_of_firstMixedSegment {segment : Bytes} (hall : ∀ c ∈ segment, isAlnum c = true)
    (h : firstMixedSegment segment = []) : isMixed segment = false := by
  cases segment with
  | nil => rfl
  | cons c cs =>
    have htake : (c :: cs).takeWhile isAlnum = c :: cs := by
      have happend : ((c :: cs) ++ []).takeWhile isAlnum = (c :: cs) ++ [].takeWhile isAlnum :=
        List.takeWhile_append_of_pos hall
      simpa using happend
    rw [firstMixedSegment, List.length_cons, firstMixedLoop,
      if_neg (by simp [hall c List.mem_cons_self]), htake] at h
    dsimp only at h
    split_ifs at h with hmixed
    simpa using hmixed

theorem segmented_splitMixedLoop {fuel : Nat} {name : Bytes} (hfuel : name.length ≤ fuel) :
    Segmented (splitMixedLoop fuel name)
      ∧ ((∀ c ∈ name.head?, isAlnum c = false) →
        ∀ c ∈ (splitMixedLoop fuel name).head?, isAlnum c = false) := by
  induction fuel generalizing name with
  | zero => exact ⟨.nil, fun _ => by simp [splitMixedLoop]⟩
  | succ fuel ih =>
    cases name with
    | nil => exact ⟨.nil, fun _ => by simp [splitMixedLoop]⟩
    | cons c cs =>
      rw [splitMixedLoop]
      rw [List.length_cons] at hfuel
      by_cases hc : isAlnum c = false
      · rw [if_pos hc]
        exact ⟨.separator hc (ih (by omega)).1, fun _ => by simpa using hc⟩
      · rw [if_neg hc]
        refine ⟨?_, fun hhead => absurd (hhead c rfl) hc⟩
        obtain ⟨hcut, hall, hhead⟩ := takeWhile_cut isAlnum (c :: cs)
        have hcons : (c :: cs).takeWhile isAlnum = c :: cs.takeWhile isAlnum :=
          List.takeWhile_cons_of_pos (by simpa using hc)
        have hlength : ((c :: cs).drop ((c :: cs).takeWhile isAlnum).length).length ≤ fuel := by
          rw [List.length_drop, List.length_cons, hcons, List.length_cons]
          omega
        obtain ⟨hloop, hloopHead⟩ := ih hlength
        dsimp only
        split_ifs with hmixed
        · exact .segment (by simp [hcons]) hall (isMixed_of_firstMixedSegment hall hmixed)
            (hloopHead hhead) hloop
        · rw [hcons] at hall hhead hloop hloopHead ⊢
          obtain ⟨piece, tail, hsplit, hne, hpiece, hclass, htail, hsegmented⟩ :=
            segmented_hyphenate (hloopHead hhead) hloop hall
          rw [hsplit, List.append_assoc]
          exact .segment hne hpiece (isMixed_of_class hpiece hclass) htail hsegmented

/-- **The explanation is done in two calls.** The suggestion has no mixed segment. -/
theorem explainAt_depth (depth : Nat) (name : Bytes) :
    explainAt (depth + 2) name = explainInvalidStrategyName name := by
  have hsuggestion : firstMixedSegment (splitMixedSegments name) = [] :=
    firstMixedSegment_eq_nil_iff.mpr (segmented_splitMixedLoop (Nat.le_refl _)).1
  have hinner : explainAt (depth + 1) (splitMixedSegments name)
      = explainAt 1 (splitMixedSegments name) := by
    show explainWith _ _ = explainWith _ _
    unfold explainWith
    simp only [hsuggestion, ne_eq, not_true_eq_false, if_false]
  show explainWith (explainAt (depth + 1)) name = explainWith (explainAt 1) name
  unfold explainWith
  simp only [hinner]

/-! ## What a valid name is -/

/-- The rules that a name without an explanation meets. -/
structure ValidName (name : Bytes) : Prop where
  length_le : name.length ≤ kMaxStrategyNameChars
  charset : ∀ c ∈ name, isTokenChar c = true
  alnum : ∃ c ∈ name, isAlnum c = true
  segmented : Segmented name
  column : scrubProvenanceColumn name = name

/-- **Nothing to explain.** A name without an explanation meets every rule. -/
theorem validName_of_isValidStrategyName {name : Bytes} (h : isValidStrategyName name = true) :
    ValidName name := by
  have hnothing : explainWith (explainAt 1) name = [] := of_decide_eq_true h
  unfold explainWith at hnothing
  dsimp only at hnothing
  -- a rule that is broken says so
  split_ifs at hnothing with hempty hlong hutf8 hcharset halnum hmixed hsuggestion hcolumn
  rotate_right
  · refine ⟨Nat.not_lt.mp hlong, ?_, ?_, ?_, not_not.mp hcolumn⟩
    · simpa [isStrategyNameChar] using hcharset
    · simpa using halnum
    · exact firstMixedSegment_eq_nil_iff.mp (not_not.mp hmixed)
  all_goals
    simp only [List.append_assoc] at hnothing
    exact absurd hnothing (List.append_ne_nil_of_left_ne_nil (by decide) _)

/-! ## The shape rule over segments -/

/-- The flags of the last segment do not matter behind it. -/
theorem idShapeLoop_flags (text : Bytes) (segments : Nat) (allLetters allHex : Bool) :
    idShapeLoop text segments false allLetters allHex
      = idShapeLoop text segments false false false := by
  induction text with
  | nil => rfl
  | cons c cs ih =>
    rw [idShapeLoop, idShapeLoop]
    by_cases halnum : isAlnum c = true
    · simp only [if_pos halnum, Bool.not_false, Bool.true_or]
    · rw [if_neg halnum, if_neg halnum, ih]

/-- Inside a segment, behind its first byte. -/
theorem idShapeLoop_segment {segment : Bytes} (halnum : ∀ c ∈ segment, isAlnum c = true)
    (rest : Bytes) (segments : Nat) {allLetters allHex : Bool}
    (huniform : (allLetters && segment.all isLetter || allHex && segment.all isHexDigit) = true) :
    idShapeLoop (segment ++ rest) segments true allLetters allHex
      = idShapeLoop rest segments true (allLetters && segment.all isLetter)
          (allHex && segment.all isHexDigit) := by
  induction segment generalizing allLetters allHex with
  | nil => simp
  | cons c cs ih =>
    have hc := halnum c List.mem_cons_self
    have hchar : isProvenanceIdChar c = true := by
      simp only [isAlnum, Bool.or_eq_true] at hc
      rcases hc with h | h <;> simp [isProvenanceIdChar, isTokenChar, h]
    rw [List.all_cons, List.all_cons, ← Bool.and_assoc, ← Bool.and_assoc] at huniform ⊢
    rw [List.cons_append, idShapeLoop, if_neg (by simp [hchar]), if_pos hc]
    simp only [Bool.not_true, Bool.false_or]
    rw [if_neg]
    · exact ih (fun d hd => halnum d (List.mem_cons_of_mem _ hd)) huniform
    · rintro ⟨hletters, hhex⟩
      rw [hletters, hhex] at huniform
      simp at huniform

/-- What the shape rule makes of a text in front of a separator or of the end: so many segments
more. -/
def Shape (text : Bytes) (count : Nat) : Prop :=
  ∀ (segments : Nat) (allLetters allHex : Bool) (rest : Bytes),
    (∀ c ∈ rest.head?, isAlnum c = false) →
    idShapeLoop (text ++ rest) segments false allLetters allHex
      = idShapeLoop rest (segments + count) false false false

theorem Shape.nil : Shape [] 0 := fun segments allLetters allHex rest _ =>
  idShapeLoop_flags rest segments allLetters allHex

/-- A separator closes the segment in front of it. -/
theorem idShapeLoop_separator {rest : Bytes} (hhead : ∀ c ∈ rest.head?, isAlnum c = false)
    (segments : Nat) (inSegment allLetters allHex : Bool) :
    idShapeLoop rest segments inSegment allLetters allHex
      = idShapeLoop rest segments false false false := by
  cases rest with
  | nil => rfl
  | cons c cs =>
    have hc : ¬ isAlnum c = true := by simp [hhead c rfl]
    rw [idShapeLoop, idShapeLoop, if_neg hc, if_neg hc, idShapeLoop_flags]

/-- A segment opens with its first byte. -/
theorem idShapeLoop_open {c : UInt8} (hc : isAlnum c = true) (cs : Bytes) (segments : Nat)
    (allLetters allHex : Bool) :
    idShapeLoop (c :: cs) segments false allLetters allHex
      = idShapeLoop (c :: cs) (segments + 1) true true true := by
  rw [idShapeLoop, idShapeLoop, if_pos hc, if_pos hc]
  simp only [Bool.not_false, Bool.true_or, Bool.not_true, Bool.false_or, Bool.true_and, if_true,
    Bool.false_eq_true, if_false]

theorem Shape.segment {segment : Bytes} (hne : segment ≠ [])
    (halnum : ∀ c ∈ segment, isAlnum c = true) (hmixed : isMixed segment = false) :
    Shape segment 1 := by
  intro segments allLetters allHex rest hhead
  have huniform : (true && segment.all isLetter || true && segment.all isHexDigit) = true := by
    rw [Bool.true_and, Bool.true_and, ← Bool.not_not (segment.all isLetter || _), Bool.not_or]
    exact congrArg (! ·) hmixed
  have hinside := idShapeLoop_segment halnum rest (segments + 1) huniform
  obtain ⟨c, cs, rfl⟩ := List.exists_cons_of_ne_nil hne
  rw [List.cons_append, idShapeLoop_open (halnum c List.mem_cons_self), ← List.cons_append, hinside]
  exact idShapeLoop_separator hhead _ _ _ _

theorem Shape.separator {c : UInt8} (hchar : isProvenanceIdChar c = true)
    (hc : isAlnum c = false) {text : Bytes} {count : Nat} (h : Shape text count) :
    Shape (c :: text) count := by
  intro segments allLetters allHex rest hhead
  rw [List.cons_append, idShapeLoop, if_neg (by simp [hchar]), if_neg (by simp [hc])]
  exact h _ _ _ _ hhead

theorem Shape.append {text text' : Bytes} {count count' : Nat} (h : Shape text count)
    (h' : Shape text' count') (hhead : ∀ c ∈ text'.head?, isAlnum c = false) :
    Shape (text ++ text') (count + count') := by
  intro segments allLetters allHex rest hrest
  have hfront : ∀ c ∈ (text' ++ rest).head?, isAlnum c = false := by
    cases text' with
    | nil => exact hrest
    | cons c cs => exact hhead
  rw [List.append_assoc, h _ _ _ _ hfront, h' _ _ _ _ hrest, Nat.add_assoc]

theorem Shape.append_separator {text text' : Bytes} {count count' : Nat} {c : UInt8}
    (hchar : isProvenanceIdChar c = true) (hc : isAlnum c = false) (h : Shape text count)
    (h' : Shape text' count') : Shape (text ++ c :: text') (count + count') :=
  h.append (h'.separator hchar hc) (by simpa using hc)

/-- A segmented text over the charset has a shape, with a segment for its first letter or digit. -/
theorem Segmented.shape {text : Bytes} (h : Segmented text)
    (hchars : ∀ c ∈ text, isProvenanceIdChar c = true) :
    ∃ count, Shape text count ∧ ((∃ c ∈ text, isAlnum c = true) → 1 ≤ count) := by
  induction h with
  | nil => exact ⟨0, .nil, by simp⟩
  | @separator c rest hc _ ih =>
    obtain ⟨count, hshape, hpos⟩ := ih fun d hd => hchars d (List.mem_cons_of_mem _ hd)
    refine ⟨count, hshape.separator (hchars c List.mem_cons_self) hc, ?_⟩
    rintro ⟨d, hd, hdAlnum⟩
    rcases List.mem_cons.mp hd with rfl | hd
    · rw [hc] at hdAlnum
      cases hdAlnum
    · exact hpos ⟨d, hd, hdAlnum⟩
  | @segment segment rest hne halnum hmixed hhead _ ih =>
    obtain ⟨count, hshape, -⟩ := ih fun d hd => hchars d (List.mem_append_right _ hd)
    exact ⟨1 + count, (Shape.segment hne halnum hmixed).append hshape hhead,
      fun _ => Nat.le_add_right 1 count⟩

theorem isProvenanceIdShape_of_shape {text : Bytes} {count : Nat} (h : Shape text count)
    (hcount : 2 ≤ count) (hlength : text.length ≤ kMaxProvenanceIdChars) :
    isProvenanceIdShape text = true := by
  have hloop : idShapeLoop text 0 false false false = true := by
    have hend := h 0 false false [] (by simp)
    rw [List.append_nil] at hend
    rw [hend]
    simpa [idShapeLoop] using hcount
  have hne : text ≠ [] := by
    rintro rfl
    cases hloop
  rw [isProvenanceIdShape, if_neg (not_or.mpr ⟨hne, Nat.not_lt.mpr hlength⟩)]
  exact hloop

end BrokerExec.Domain
