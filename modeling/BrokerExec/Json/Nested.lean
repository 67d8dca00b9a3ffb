import BrokerExec.Domain.Redaction
import BrokerExec.Json.Text
import BrokerExec.Lib.Words

/-!
# Nested JSON values, as `nlohmann::json` writes them

`dumpValue` is `dump(-1, ' ', false, error_handler_t::replace)` of any value, in one line and
without blanks. A floating-point number is written as the text it carries.

* **`exists_text_of_infix`** — a word of capital letters in the text of a value comes from one of
  the texts in it.
-/

namespace BrokerExec.Json

open BrokerExec.Domain (canonicalText canonicalText_induction canonicalText_of_wellFormed
  isUpperLetter)

mutual

/-- `dump` of a value. -/
def dumpValue : Value → Bytes
  | .null => ascii "null"
  | .bool b => if b then ascii "true" else ascii "false"
  | .int i => decimal i
  | .float _ text => text
  | .string s => dumpString s
  | .array elements => 0x5B :: (dumpElements elements ++ [0x5D])
  | .object members => 0x7B :: (dumpEntries members ++ [0x7D])

def dumpElements : List Value → Bytes
  | [] => []
  | [v] => dumpValue v
  | v :: v' :: rest => dumpValue v ++ 0x2C :: dumpElements (v' :: rest)

def dumpEntry : Bytes × Value → Bytes
  | (key, v) => dumpString key ++ 0x3A :: dumpValue v

def dumpEntries : List (Bytes × Value) → Bytes
  | [] => []
  | [m] => dumpEntry m
  | m :: m' :: rest => dumpEntry m ++ 0x2C :: dumpEntries (m' :: rest)

end

example : dumpValue (.object [(ascii "a", .array [.int 1, .null]), (ascii "b", .object [])])
    = ascii "\x7b\"a\":[1,null],\"b\":\x7b\x7d\x7d" := by
  decide

/-! ## The members of a dumped object -/

theorem dumpEntries_cons (m : Bytes × Value) (back : List (Bytes × Value)) :
    dumpEntries (m :: back) = dumpEntry m ++ back.flatMap fun m => 0x2C :: dumpEntry m := by
  induction back generalizing m with
  | nil => simp [dumpEntries]
  | cons m' back ih =>
    rw [dumpEntries, ih, List.flatMap_cons]
    rfl

/-- Where a member stands in the text of its object. -/
theorem dumpEntries_split (front back : List (Bytes × Value)) (m : Bytes × Value) :
    dumpEntries (front ++ m :: back) = front.flatMap (fun m => dumpEntry m ++ [0x2C])
      ++ (dumpEntry m ++ back.flatMap fun m => 0x2C :: dumpEntry m) := by
  induction front with
  | nil => exact dumpEntries_cons m back
  | cons m' front ih =>
    have hrest : dumpEntries (m' :: (front ++ m :: back))
        = dumpEntry m' ++ 0x2C :: dumpEntries (front ++ m :: back) := by
      cases front <;> rfl
    rw [List.cons_append, hrest, ih, List.flatMap_cons]
    simp

/-- Printable ASCII that a string holds as it is. -/
def IsPlainText (text : Bytes) : Prop := ∀ c ∈ text, 0x20 ≤ c ∧ c < 0x80 ∧ c ≠ 0x22 ∧ c ≠ 0x5C

/-- A text of plain bytes is dumped as it is. -/
theorem dumpString_of_plain {s : Bytes} (h : IsPlainText s) :
    dumpString s = 0x22 :: (s ++ [0x22]) := by
  have hplain : ∀ c ∈ s, escapeByte c = [c] := by
    intro c hc
    obtain ⟨hlow, -, hquote, hbackslash⟩ := h c hc
    have hne : ∀ d : UInt8, d < 0x20 → c ≠ d := by
      rintro d hd rfl
      exact absurd hd (not_lt.mpr hlow)
    rw [escapeByte, if_neg (hne _ (by decide)), if_neg (hne _ (by decide)),
      if_neg (hne _ (by decide)), if_neg (hne _ (by decide)), if_neg (hne _ (by decide)),
      if_neg hquote, if_neg hbackslash, if_neg (not_lt.mpr hlow)]
  have hescape : ∀ t : Bytes, (∀ c ∈ t, escapeByte c = [c]) → escape t = t := by
    intro t ht
    induction t with
    | nil => rfl
    | cons c t ih =>
      rw [escape, List.flatMap_cons, ht c (by simp), ← escape, ih fun d hd => ht d (by simp [hd])]
      rfl
  rw [dumpString, canonicalText_of_wellFormed (WellFormed.of_ascii fun c hc => (h c hc).2.1),
    hescape s hplain]

/-! ## Words in a dumped value -/

mutual

/-- The strings and the keys in a value, and what its numbers are written as. -/
def Value.texts : Value → List Bytes
  | .float _ text => [text]
  | .string s => [s]
  | .array elements => textsOfElements elements
  | .object members => textsOfEntries members
  | _ => []

def textsOfElements : List Value → List Bytes
  | [] => []
  | v :: rest => v.texts ++ textsOfElements rest

def textsOfEntries : List (Bytes × Value) → List Bytes
  | [] => []
  | (key, v) :: rest => key :: (v.texts ++ textsOfEntries rest)

end

section

variable {w : Bytes} (hw : ∀ c ∈ w, isUpperLetter c = true)

include hw

theorem not_infix_of_no_capitals (hne : w ≠ []) {text : Bytes}
    (htext : ∀ c ∈ text, isUpperLetter c = false) : ¬ w <:+: text := by
  intro h
  obtain ⟨c, w, rfl⟩ := List.exists_cons_of_ne_nil hne
  have hupper := hw c (by simp)
  rw [htext c (h.subset (by simp))] at hupper
  cases hupper

/-- Behind some text, an escaped one has no capital word that it had not before. -/
theorem infix_of_escape (s front : Bytes) (h : w <:+: front ++ escape s) : w <:+: front ++ s := by
  have hhex : ∀ n < 16, isUpperLetter (hexDigit n) = false := by decide
  have hescape : ∀ b : UInt8, escapeByte b = [b]
      ∨ escapeByte b ≠ [] ∧ ∀ c ∈ escapeByte b, isUpperLetter c = false := by
    intro b
    unfold escapeByte
    split_ifs
    · right; decide
    · right; decide
    · right; decide
    · right; decide
    · right; decide
    · right; decide
    · right; decide
    · right
      have hdiv := hhex (b.toNat / 16) (Nat.div_lt_of_lt_mul b.toNat_lt)
      have hmod := hhex (b.toNat % 16) (Nat.mod_lt _ (by omega))
      have hpre : ∀ c ∈ ascii "\\u00", isUpperLetter c = false := by decide
      refine ⟨by simp, fun c hc => ?_⟩
      rcases List.mem_append.mp hc with hc | hc
      · exact hpre c hc
      · rcases List.mem_cons.mp hc with rfl | hc
        · exact hdiv
        · rw [List.mem_singleton.mp hc]
          exact hmod
    · exact .inl rfl
  induction s generalizing front with
  | nil => exact h
  | cons b s ih =>
    rw [escape, List.flatMap_cons, ← escape] at h
    rcases hescape b with hsame | ⟨hne, hplain⟩
    · rw [hsame] at h
      have hbehind := ih (front ++ [b]) (by simpa using h)
      simpa using hbehind
    · rcases infix_append_piece hw hne hplain h with h | h
      · exact h.trans ⟨[], b :: s, by simp⟩
      · have hbehind := ih [] h
        exact hbehind.trans ⟨front ++ [b], [], by simp⟩

/-- Normalising writes no capital letter that was not there. -/
theorem infix_of_canonicalText (text : Bytes) :
    ∀ front, w <:+: front ++ canonicalText text → w <:+: front ++ text := by
  have hother : ∀ {piece : Bytes}, (∀ b ∈ piece, 0x80 ≤ b) → ∀ b ∈ piece,
      isUpperLetter b = false := by
    intro piece hpiece b hb
    have hhigh := UInt8.le_iff_toNat_le.mp (hpiece b hb)
    rw [← Bool.not_eq_true, isUpperLetter, Bool.and_eq_true, decide_eq_true_eq, decide_eq_true_eq,
      UInt8.le_iff_toNat_le, UInt8.le_iff_toNat_le]
    simp at hhigh ⊢
    omega
  refine canonicalText_induction
    (P := fun text out => ∀ front, w <:+: front ++ out → w <:+: front ++ text) ?_ ?_ ?_ text
  · intro front h
    exact h
  · intro a rest _ ih front h
    have hbehind := ih (front ++ [a]) (by simpa using h)
    simpa using hbehind
  · intro piece out rest hne hlength hpiece hout ih front h
    have hout' : out ≠ [] := by
      rintro rfl
      exact hne (List.eq_nil_of_length_eq_zero (Nat.le_zero.mp hlength))
    rcases infix_append_piece hw hout' (hother hout) h with h | h
    · exact h.trans ⟨[], piece ++ rest, by simp⟩
    · have hbehind := ih [] h
      exact hbehind.trans ⟨front ++ piece, [], by simp⟩

theorem infix_of_dumpString {s : Bytes} (hne : w ≠ []) (h : w <:+: dumpString s) : w <:+: s := by
  have hquote : isUpperLetter 0x22 = false := by decide
  unfold dumpString at h
  rcases infix_append_cons hw hquote (show w <:+: [] ++ _ from h) with h | h
  · exact absurd (List.infix_nil.mp h) hne
  · rcases infix_append_cons hw hquote h with h | h
    · exact infix_of_canonicalText hw s [] (infix_of_escape hw _ [] h)
    · exact absurd (List.infix_nil.mp h) hne

theorem not_infix_decimal (hne : w ≠ []) (i : Int) : ¬ w <:+: decimal i := by
  refine not_infix_of_no_capitals hw hne fun c hc => ?_
  rcases mem_decimal hc with hdigit | rfl
  · have hlow : c ≤ 57 := by
      simp only [isDigit, Bool.and_eq_true, decide_eq_true_eq] at hdigit
      exact hdigit.2
    rw [← Bool.not_eq_true, isUpperLetter, Bool.and_eq_true, decide_eq_true_eq, decide_eq_true_eq]
    rintro ⟨hhigh, -⟩
    exact absurd (le_trans hhigh hlow) (by decide)
  · decide

mutual

/-- **A capital word in a dumped value comes from one of its texts.** -/
theorem exists_text_of_infix (hne : w ≠ []) :
    ∀ v : Value, w <:+: dumpValue v → ∃ text ∈ v.texts, w <:+: text
  | .null, h => absurd h (not_infix_of_no_capitals hw hne (by decide))
  | .bool b, h => absurd h (not_infix_of_no_capitals hw hne (by cases b <;> decide))
  | .int i, h => absurd h (not_infix_decimal hw hne i)
  | .float _ text, h => ⟨text, by simp [Value.texts], h⟩
  | .string s, h => ⟨s, by simp [Value.texts], infix_of_dumpString hw hne h⟩
  | .array elements, h => by
    rcases infix_append_cons hw (c := 0x5B) (by decide) (show w <:+: [] ++ _ from h) with h | h
    · exact absurd (List.infix_nil.mp h) hne
    · rcases infix_append_cons hw (c := 0x5D) (by decide) h with h | h
      · exact exists_text_of_elements hne elements h
      · exact absurd (List.infix_nil.mp h) hne
  | .object members, h => by
    rcases infix_append_cons hw (c := 0x7B) (by decide) (show w <:+: [] ++ _ from h) with h | h
    · exact absurd (List.infix_nil.mp h) hne
    · rcases infix_append_cons hw (c := 0x7D) (by decide) h with h | h
      · exact exists_text_of_entries hne members h
      · exact absurd (List.infix_nil.mp h) hne

theorem exists_text_of_elements (hne : w ≠ []) :
    ∀ elements : List Value, w <:+: dumpElements elements
      → ∃ text ∈ textsOfElements elements, w <:+: text
  | [], h => absurd (List.infix_nil.mp h) hne
  | [v], h => by
    obtain ⟨text, htext, hmet⟩ := exists_text_of_infix hne v h
    exact ⟨text, by simp [textsOfElements, htext], hmet⟩
  | v :: v' :: rest, h => by
    rcases infix_append_cons hw (c := 0x2C) (by decide) h with h | h
    · obtain ⟨text, htext, hmet⟩ := exists_text_of_infix hne v h
      exact ⟨text, by simp [textsOfElements, htext], hmet⟩
    · obtain ⟨text, htext, hmet⟩ := exists_text_of_elements hne (v' :: rest) h
      exact ⟨text, List.mem_append_right _ htext, hmet⟩

theorem exists_text_of_entry (hne : w ≠ []) :
    ∀ m : Bytes × Value, w <:+: dumpEntry m → ∃ text ∈ m.1 :: m.2.texts, w <:+: text
  | (key, v), h => by
    rcases infix_append_cons hw (c := 0x3A) (by decide) h with h | h
    · exact ⟨key, by simp, infix_of_dumpString hw hne h⟩
    · obtain ⟨text, htext, hmet⟩ := exists_text_of_infix hne v h
      exact ⟨text, by simp [htext], hmet⟩

theorem exists_text_of_entries (hne : w ≠ []) :
    ∀ members : List (Bytes × Value), w <:+: dumpEntries members
      → ∃ text ∈ textsOfEntries members, w <:+: text
  | [], h => absurd (List.infix_nil.mp h) hne
  | [m], h => by
    obtain ⟨text, htext, hmet⟩ := exists_text_of_entry hne m h
    exact ⟨text, by simpa [textsOfEntries] using htext, hmet⟩
  | m :: m' :: rest, h => by
    rcases infix_append_cons hw (c := 0x2C) (by decide) h with h | h
    · obtain ⟨text, htext, hmet⟩ := exists_text_of_entry hne m h
      refine ⟨text, ?_, hmet⟩
      rcases List.mem_cons.mp htext with rfl | htext
      · exact List.mem_cons_self
      · exact List.mem_cons_of_mem _ (List.mem_append_left _ htext)
    · obtain ⟨text, htext, hmet⟩ := exists_text_of_entries hne (m' :: rest) h
      exact ⟨text, List.mem_cons_of_mem _ (List.mem_append_right _ htext), hmet⟩

end

end

end BrokerExec.Json
