import BrokerExec.Adapters.Kite.Wire
import BrokerExec.Domain.DecimalGrammar

/-!
# Counts on Kite's wire (`adapters/kite/kite_broker_adapter.cpp`)

`json_int_opt` reads a count as an integer or else as an amount whose paise are nothing. The
amount keeps two digits of the fraction and drops the others, so a count with a fraction that
begins at its third digit passes as a whole number.

* **`countOfText_text`** — which numerals are read as counts, and as what;
* **`countIsWhole_iff`** — a field is a whole number or garbage exactly when no digit is dropped
  from it, and a digit stands in front of its point.
-/

namespace BrokerExec.Adapters.Kite

open BrokerExec.Domain (Numeral exists_numeral exists_numeral_int64
  fractionPaise fractionPaise_bound fractionPaise_eq_zero_iff kInt64Max magnitude_split
  parseDecimalPaise parseDecimalPaise_text parseInt64 parseInt64_text signed trimAscii)

/-! ## The property and the condition -/

/-- The text `numeric_text` hands to the parsers: a string that is not empty, or the dump of a
number. -/
def numericText : Json.Value → Option Bytes
  | .string text => if text = [] then none else some text
  | .int i => some (decimal i)
  | .float _ text => some text
  | .null | .bool _ | .array _ | .object _ => none

/-- The text, trimmed, is an optional sign, digits, and an optional point that only zeros
follow; and this is its value. -/
def WholeNumber (text : Bytes) (value : Int) : Prop :=
  ∃ n : Numeral, trimAscii text = n.text ∧ n.whole ≠ [] ∧ (∀ c ∈ n.fraction.getD [], c = 0x30)
    ∧ value = signed (n.sign = some true) (digitsValue n.whole)

/-- **A count is a whole number or it is garbage**: what is read is the value of a whole number,
and any other field that is there, not null and not empty is garbage. -/
structure CountIsWhole (members : List (Bytes × Json.Value)) (key : Bytes) : Prop where
  exact : ∀ value, jsonInt members key = .parsed value →
    ∃ field text, members.lookup key = some field ∧ numericText field = some text
      ∧ WholeNumber text value
  garbage : ∀ field, members.lookup key = some field → field ≠ .null → field ≠ .string [] →
    (¬ ∃ text value, numericText field = some text ∧ WholeNumber text value ∧ FitsInt64 value) →
    jsonInt members key = .garbage

/-- **The kind that fails**: an amount that fits, with zeros in the first two digits behind its
point, and another digit behind those or no digit in front. -/
def HidesFraction (text : Bytes) : Prop :=
  ∃ n : Numeral, trimAscii text = n.text ∧ (n.magnitude : Int) ≤ kInt64Max
    ∧ (∀ c ∈ (n.fraction.getD []).take 2, c = 0x30)
    ∧ (n.whole = [] ∨ ∃ c ∈ (n.fraction.getD []).drop 2, c ≠ 0x30)

/-! ## Reading a text -/

/-- What the two parsers admit as a count. -/
def AdmitsCount (n : Numeral) : Prop :=
  (n.fraction = none ∧ (digitsValue n.whole : Int) ≤ kInt64Max)
    ∨ ((n.magnitude : Int) ≤ kInt64Max ∧ ∀ c ∈ (n.fraction.getD []).take 2, c = 0x30)

/-- **The count a numeral is read as.** -/
theorem countOfText_text {text : Bytes} {n : Numeral} (h : trimAscii text = n.text) :
    (AdmitsCount n →
        countOfText text = .parsed (signed (n.sign = some true) (digitsValue n.whole)))
      ∧ (¬ AdmitsCount n → countOfText text = .garbage) := by
  have hmagnitude : (n.magnitude : Int)
      = digitsValue n.whole * 100 + fractionPaise (n.fraction.getD []) :=
    magnitude_split n.whole n.isDigit_fraction
  have hbound := fractionPaise_bound (List.all_eq_true.mpr n.isDigit_fraction)
  have hzero := fractionPaise_eq_zero_iff n.isDigit_fraction
  rw [countOfText, parseInt64_text h, parseDecimalPaise_text h]
  by_cases hplain : n.fraction = none ∧ (digitsValue n.whole : Int) ≤ kInt64Max
  · rw [if_pos hplain]
    exact ⟨fun _ => rfl, fun hnot => absurd (.inl hplain) hnot⟩
  · rw [if_neg hplain]
    dsimp only
    by_cases hfits : (n.magnitude : Int) ≤ kInt64Max
    · rw [if_pos hfits]
      dsimp only
      have hunits : n.paise % 100 = 0 ↔ fractionPaise (n.fraction.getD []) = 0 := by
        unfold Numeral.paise signed
        split_ifs <;> omega
      by_cases hpaise : fractionPaise (n.fraction.getD []) = 0
      · -- the paise are a whole number of units
        have hvalue : n.paise / 100 = signed (n.sign = some true) (digitsValue n.whole) := by
          unfold Numeral.paise signed
          split_ifs <;> omega
        rw [if_pos (hunits.mpr hpaise), hvalue]
        exact ⟨fun _ => rfl, fun hnot => absurd (.inr ⟨hfits, hzero.mp hpaise⟩) hnot⟩
      · rw [if_neg (fun h => hpaise (hunits.mp h))]
        refine ⟨?_, fun _ => rfl⟩
        rintro (hcount | ⟨-, hfraction⟩)
        · exact absurd hcount hplain
        · exact absurd (hzero.mpr hfraction) hpaise
    · rw [if_neg hfits]
      refine ⟨?_, fun _ => rfl⟩
      rintro (hcount | ⟨hcount, -⟩)
      · exact absurd hcount hplain
      · exact absurd hcount hfits

theorem exists_numeral_countOfText {text : Bytes} {value : Int}
    (h : countOfText text = .parsed value) : ∃ n : Numeral, trimAscii text = n.text := by
  rw [countOfText] at h
  cases hcount : parseInt64 text with
  | some count =>
    obtain ⟨n, hn, -⟩ := exists_numeral_int64 hcount
    exact ⟨n, hn⟩
  | none =>
    cases hpaise : parseDecimalPaise text with
    | some paise => exact exists_numeral hpaise
    | none => simp [hcount, hpaise] at h

/-- A text that is read is read as a whole number, unless it hides a fraction. -/
theorem wholeNumber_iff (text : Bytes) :
    (∀ value, countOfText text = .parsed value → WholeNumber text value)
      ↔ ¬ HidesFraction text := by
  constructor
  · rintro hexact ⟨n, hn, hfits, hzeros, hhides⟩
    have hread := (countOfText_text hn).1 (.inr ⟨hfits, hzeros⟩)
    obtain ⟨m, hm, hwhole, hfraction, -⟩ := hexact _ hread
    obtain ⟨-, hsame, hsame'⟩ := Numeral.text_inj (hm.symm.trans hn)
    rw [hsame] at hwhole
    rw [hsame'] at hfraction
    rcases hhides with hempty | ⟨c, hc, hne⟩
    · exact hwhole hempty
    · exact hne (hfraction c (List.mem_of_mem_drop hc))
  · intro hplain value hread
    obtain ⟨n, hn⟩ := exists_numeral_countOfText hread
    by_cases hadmits : AdmitsCount n
    · rw [(countOfText_text hn).1 hadmits] at hread
      refine ⟨n, hn, ?_, ?_, (Reading.parsed.inj hread).symm⟩
      · intro hempty
        rcases hadmits with ⟨hnone, -⟩ | ⟨hfits, hzeros⟩
        · exact n.some_digit (by rw [hempty, hnone]; rfl)
        · exact hplain ⟨n, hn, hfits, hzeros, .inl hempty⟩
      · intro c hc
        rcases hadmits with ⟨hnone, -⟩ | ⟨hfits, hzeros⟩
        · simp [hnone] at hc
        · rw [← List.take_append_drop 2 (n.fraction.getD [])] at hc
          rcases List.mem_append.mp hc with hc | hc
          · exact hzeros c hc
          · by_contra hne
            exact hplain ⟨n, hn, hfits, hzeros, .inr ⟨c, hc, hne⟩⟩
    · rw [(countOfText_text hn).2 hadmits] at hread
      cases hread

/-! ## Reading a field -/

/-- **Everything a field can be read as.** -/
theorem jsonInt_cases (members : List (Bytes × Json.Value)) (key : Bytes) :
    (∀ field text, members.lookup key = some field → numericText field = some text →
        jsonInt members key = countOfText text)
      ∧ (∀ field, members.lookup key = some field → numericText field = none → field ≠ .null →
        field ≠ .string [] → jsonInt members key = .garbage)
      ∧ ∀ value, jsonInt members key = .parsed value →
        ∃ field text, members.lookup key = some field ∧ numericText field = some text := by
  have hread : jsonInt members key = readNumber countOfText members key := rfl
  refine ⟨fun field text hfield htext => ?_, fun field hfield htext hnull hempty => ?_,
    fun value hvalue => ?_⟩
  · rw [hread, readNumber, hfield]
    cases field with
    | string contents =>
      rw [numericText] at htext
      split_ifs at htext with hne
      obtain rfl := Option.some.inj htext
      cases contents with
      | nil => exact absurd rfl hne
      | cons c cs => rfl
    | int i =>
      obtain rfl := Option.some.inj htext
      rfl
    | float number dumped =>
      obtain rfl := Option.some.inj htext
      rfl
    | null => cases htext
    | bool b => cases htext
    | array elements => cases htext
    | object fields => cases htext
  · rw [hread, readNumber, hfield]
    cases field with
    | string contents =>
      rw [numericText] at htext
      split_ifs at htext with hnil
      exact absurd (by rw [hnil]) hempty
    | int i => cases htext
    | float number dumped => cases htext
    | null => exact absurd rfl hnull
    | bool b => rfl
    | array elements => rfl
    | object fields => rfl
  · rw [hread, readNumber] at hvalue
    cases hfield : members.lookup key with
    | none => simp [hfield] at hvalue
    | some field =>
    rw [hfield] at hvalue
    cases field with
    | string contents =>
      cases contents with
      | nil => cases hvalue
      | cons c cs => exact ⟨_, c :: cs, rfl, rfl⟩
    | int i => exact ⟨_, decimal i, rfl, rfl⟩
    | float number dumped => exact ⟨_, dumped, rfl, rfl⟩
    | null => cases hvalue
    | bool b => cases hvalue
    | array elements => cases hvalue
    | object fields => cases hvalue

/-- What is read fits. -/
theorem fitsInt64_countOfText {text : Bytes} {value : Int}
    (h : countOfText text = .parsed value) : FitsInt64 value := by
  obtain ⟨n, hn⟩ := exists_numeral_countOfText h
  have hmagnitude : (n.magnitude : Int)
      = digitsValue n.whole * 100 + fractionPaise (n.fraction.getD []) :=
    magnitude_split n.whole n.isDigit_fraction
  have hbound := fractionPaise_bound (List.all_eq_true.mpr n.isDigit_fraction)
  by_cases hadmits : AdmitsCount n
  · rw [(countOfText_text hn).1 hadmits] at h
    obtain rfl := Reading.parsed.inj h
    have hfits : (digitsValue n.whole : Int) ≤ kInt64Max := by
      rcases hadmits with ⟨-, hfits⟩ | ⟨hfits, -⟩
      · exact hfits
      · omega
    unfold kInt64Max at hfits
    unfold FitsInt64 signed
    split_ifs <;> omega
  · rw [(countOfText_text hn).2 hadmits] at h
    cases h

theorem countOfText_ne_absent (text : Bytes) : countOfText text ≠ .absent := by
  unfold countOfText
  split
  · simp
  · split
    · split_ifs <;> simp
    · simp

/-- **When a count is a whole number or garbage**, for every object and key: exactly when the
text of the field does not hide a fraction. -/
theorem countIsWhole_iff (members : List (Bytes × Json.Value)) (key : Bytes) :
    CountIsWhole members key
      ↔ ∀ field text, members.lookup key = some field → numericText field = some text →
          ¬ HidesFraction text := by
  obtain ⟨htextual, hshapeless, hparsed⟩ := jsonInt_cases members key
  constructor
  · rintro ⟨hexact, -⟩ field text hfield htext
    rw [← wholeNumber_iff]
    intro value hread
    obtain ⟨field', text', hfield', htext', hwhole⟩ :=
      hexact value ((htextual field text hfield htext).trans hread)
    obtain rfl := Option.some.inj (hfield.symm.trans hfield')
    obtain rfl := Option.some.inj (htext.symm.trans htext')
    exact hwhole
  · intro hplain
    have hexact : ∀ value, jsonInt members key = .parsed value →
        ∃ field text, members.lookup key = some field ∧ numericText field = some text
          ∧ WholeNumber text value := by
      intro value hread
      obtain ⟨field, text, hfield, htext⟩ := hparsed value hread
      refine ⟨field, text, hfield, htext, ?_⟩
      exact (wholeNumber_iff text).mpr (hplain field text hfield htext) value
        ((htextual field text hfield htext).symm.trans hread)
    refine ⟨hexact, fun field hfield hnull hempty hother => ?_⟩
    cases htext : numericText field with
    | none => exact hshapeless field hfield htext hnull hempty
    | some text =>
      have hread := htextual field text hfield htext
      cases hcount : countOfText text with
      | garbage => rw [hread, hcount]
      | absent => exact absurd hcount (countOfText_ne_absent text)
      | parsed value =>
        have hwhole := (wholeNumber_iff text).mpr (hplain field text hfield htext) value hcount
        exact absurd ⟨text, value, htext, hwhole, fitsInt64_countOfText hcount⟩ hother

/-- **A fraction that passes**: `30.001` is read as 30. -/
theorem fraction_passes :
    jsonInt [(ascii "quantity", .string (ascii "30.001"))] (ascii "quantity") = .parsed 30
      ∧ ¬ CountIsWhole [(ascii "quantity", .string (ascii "30.001"))] (ascii "quantity") := by
  have hread : jsonInt [(ascii "quantity", .string (ascii "30.001"))] (ascii "quantity")
      = .parsed 30 := by decide
  refine ⟨hread, fun h => ?_⟩
  obtain ⟨field, text, hfield, htext, m, hm, -, hfraction, -⟩ := h.exact 30 hread
  obtain rfl : Json.Value.string (ascii "30.001") = field := Option.some.inj hfield
  obtain rfl : ascii "30.001" = text := Option.some.inj htext
  let n : Numeral :=
    { sign := none
      whole := ascii "30"
      fraction := some (ascii "001")
      isDigit_whole := by decide
      isDigit_fraction := by decide
      some_digit := by decide }
  have hn : trimAscii (ascii "30.001") = n.text := by decide
  rw [(Numeral.text_inj (hm.symm.trans hn)).2.2] at hfraction
  exact absurd (hfraction 0x31 (by decide)) (by decide)

end BrokerExec.Adapters.Kite
