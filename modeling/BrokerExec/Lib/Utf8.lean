import BrokerExec.Lib.Bytes
import BrokerExec.Lib.Munch

/-!
# Well-formed UTF-8

RFC 3629 §4 as an inductive predicate on byte strings: `Utf8Char` is one encoded code
point, `WellFormed` a sequence of them. The four exceptional lead bytes (`0xE0`, `0xED`,
`0xF0`, `0xF4`) narrow their second byte; that is what excludes overlong forms, surrogates
and code points above U+10FFFF.
-/

namespace BrokerExec

/-- `UTF8-tail = %x80-BF`. -/
def IsTail (b : UInt8) : Prop := 0x80 ≤ b ∧ b ≤ 0xBF

/-- The second byte after the lead `a`: a tail byte, narrower after the exceptional leads. -/
def IsSecond (a b : UInt8) : Prop :=
  IsTail b ∧ (a = 0xE0 → 0xA0 ≤ b) ∧ (a = 0xED → b ≤ 0x9F)
    ∧ (a = 0xF0 → 0x90 ≤ b) ∧ (a = 0xF4 → b ≤ 0x8F)

/-- One encoded code point. -/
inductive Utf8Char : Bytes → Prop where
  | one {a : UInt8} (ha : a < 0x80) : Utf8Char [a]
  | two {a b : UInt8} (ha : 0xC2 ≤ a) (ha' : a < 0xE0) (hb : IsSecond a b) : Utf8Char [a, b]
  | three {a b c : UInt8} (ha : 0xE0 ≤ a) (ha' : a < 0xF0) (hb : IsSecond a b)
      (hc : IsTail c) : Utf8Char [a, b, c]
  | four {a b c d : UInt8} (ha : 0xF0 ≤ a) (ha' : a < 0xF5) (hb : IsSecond a b)
      (hc : IsTail c) (hd : IsTail d) : Utf8Char [a, b, c, d]

/-- A sequence of encoded code points. -/
inductive WellFormed : Bytes → Prop where
  | nil : WellFormed []
  | cons {c rest : Bytes} (hc : Utf8Char c) (hrest : WellFormed rest) : WellFormed (c ++ rest)

theorem WellFormed.append {s t : Bytes} (hs : WellFormed s) (ht : WellFormed t) :
    WellFormed (s ++ t) := by
  induction hs with
  | nil => exact ht
  | cons hc _ ih =>
    rw [List.append_assoc]
    exact .cons hc ih

/-- ASCII text is well formed. -/
theorem WellFormed.of_ascii {s : Bytes} (hs : ∀ b ∈ s, b < 0x80) : WellFormed s := by
  induction s with
  | nil => exact .nil
  | cons b s ih =>
    exact .cons (c := [b]) (.one (hs b (by simp))) (ih fun c hc => hs c (by simp [hc]))

theorem WellFormed.of_cons_ascii {b : UInt8} (hb : b < 0x80) {s : Bytes}
    (h : WellFormed (b :: s)) : WellFormed s := by
  -- an ASCII byte opens no longer sequence
  have hlead : ∀ {a : UInt8}, 0xC2 ≤ a → b ≠ a := by
    rintro a ha rfl
    exact absurd (lt_of_lt_of_le hb (by decide)) (not_lt.mpr ha)
  generalize htext : b :: s = text at h
  cases h with
  | nil => cases htext
  | cons hc hrest =>
    cases hc with
    | one ha =>
      obtain ⟨-, rfl⟩ := List.cons.inj htext
      exact hrest
    | two ha ha' hb' => exact absurd (List.cons.inj htext).1 (hlead ha)
    | three ha ha' hb' hc' =>
      exact absurd (List.cons.inj htext).1 (hlead (le_trans (by decide) ha))
    | four ha ha' hb' hc' hd' =>
      exact absurd (List.cons.inj htext).1 (hlead (le_trans (by decide) ha))

/-- What stands behind ASCII text in a well-formed text is well formed. -/
theorem WellFormed.of_ascii_append {s t : Bytes} (hs : ∀ b ∈ s, b < 0x80)
    (h : WellFormed (s ++ t)) : WellFormed t := by
  induction s with
  | nil => exact h
  | cons b s ih =>
    exact ih (fun c hc => hs c (by simp [hc])) (WellFormed.of_cons_ascii (hs b (by simp)) h)

/-- An ASCII byte is a code point of its own. -/
theorem Utf8Char.eq_singleton {c : Bytes} (h : Utf8Char c) {b : UInt8} (hb : b < 0x80)
    (hmem : b ∈ c) : c = [b] := by
  have hhigh : ∀ {a : UInt8}, 0x80 ≤ a → b ≠ a := by
    rintro a ha rfl
    exact absurd hb (not_lt.mpr ha)
  have htail : ∀ {a : UInt8}, IsTail a → b ≠ a := fun ha => hhigh ha.1
  cases h with
  | one ha => rw [List.mem_singleton.mp hmem]
  | two ha ha' hb' =>
    have hlead := hhigh (le_trans (by decide) ha)
    simp [hlead, htail hb'.1] at hmem
  | three ha ha' hb' hc' =>
    have hlead := hhigh (le_trans (by decide) ha)
    simp [hlead, htail hb'.1, htail hc'] at hmem
  | four ha ha' hb' hc' hd' =>
    have hlead := hhigh (le_trans (by decide) ha)
    simp [hlead, htail hb'.1, htail hc', htail hd'] at hmem

/-- **A well-formed text can be cut at an ASCII byte.** -/
theorem WellFormed.split_ascii {s t : Bytes} {b : UInt8} (hb : b < 0x80)
    (h : WellFormed (s ++ b :: t)) : WellFormed s ∧ WellFormed t := by
  generalize htext : s ++ b :: t = text at h
  induction h generalizing s with
  | nil => simp at htext
  | @cons c rest hc hrest ih =>
    rcases append_cases htext.symm with ⟨tail, rfl, hbehind⟩ | ⟨shared, hshared, rfl, hbehind⟩
    · obtain ⟨htail, ht⟩ := ih hbehind.symm
      exact ⟨.cons hc htail, ht⟩
    · obtain ⟨d, shared, rfl⟩ := List.exists_cons_of_ne_nil hshared
      obtain ⟨rfl, rfl⟩ := List.cons.inj hbehind
      have hsingle := hc.eq_singleton hb (by simp)
      obtain ⟨rfl, rfl⟩ : s = [] ∧ shared = [] := by
        have hlength := congrArg List.length hsingle
        simp only [List.length_append, List.length_cons, List.length_nil] at hlength
        exact ⟨List.eq_nil_of_length_eq_zero (by omega), List.eq_nil_of_length_eq_zero (by omega)⟩
      exact ⟨.nil, hrest⟩

end BrokerExec
