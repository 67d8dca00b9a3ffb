import BrokerExec.Lib.Utf8

/-!
# The UTF-8 normaliser (`domain/utf8.cpp`)

`canonicalText` copies every well-formed sequence and writes one U+FFFD for each maximal
ill-formed subpart. The intent log and the ledger pass all caller text through it once,
before the text becomes both the hash preimage and the stored bytes.

* **`canonicalText_wellFormed`** — the result is well-formed UTF-8;
* **`canonicalText_of_wellFormed`** — well-formed text is returned unchanged;
* **`canonicalText_append_ascii`** — an ASCII tail is neither changed nor swallowed;
* **`canonicalText_normaliser`** — beyond these, nothing shrinks and the ASCII bytes stay as they
  are, with the non-ASCII runs between them.
-/

namespace BrokerExec.Domain

/-- `kUtf8Replacement`: U+FFFD in UTF-8. -/
def kUtf8Replacement : Bytes := [0xEF, 0xBF, 0xBD]

/-- The bytes in a well-formed sequence introduced by `lead`, or 0 when `lead` can never
begin one. -/
def utf8SequenceLength (lead : UInt8) : Nat :=
  if lead < 0x80 then 1
  else if lead < 0xC2 then 0
  else if lead < 0xE0 then 2
  else if lead < 0xF0 then 3
  else if lead < 0xF5 then 4
  else 0

/-- The inclusive range `(lo, hi)` of the second byte of a sequence led by `lead`. -/
def utf8SecondByteRange (lead : UInt8) : UInt8 × UInt8 :=
  if lead = 0xE0 then (0xA0, 0xBF)
  else if lead = 0xED then (0x80, 0x9F)
  else if lead = 0xF0 then (0x90, 0xBF)
  else if lead = 0xF4 then (0x80, 0x8F)
  else (0x80, 0xBF)

/-- `in_range`: only the second byte (`got == 1`) has a range of its own. -/
def inRange (lo hi : UInt8) (got : Nat) (cont : UInt8) : Bool :=
  if got = 1 then lo ≤ cont && cont ≤ hi else 0x80 ≤ cont && cont ≤ 0xBF

/-- The inner `while`: `got` counts the bytes of the sequence consumed so far, the argument
list is what follows them. -/
def consumeSequence (lo hi : UInt8) (len : Nat) : Nat → Bytes → Nat
  | got, [] => got
  | got, cont :: rest =>
    if got < len ∧ inRange lo hi got cont then consumeSequence lo hi len (got + 1) rest else got

/-- `got` after the inner loop, for a sequence led by `lead`. -/
def consumed (lead : UInt8) (rest : Bytes) : Nat :=
  let (lo, hi) := utf8SecondByteRange lead
  consumeSequence lo hi (utf8SequenceLength lead) 1 rest

/-- The outer `while` of `canonical_text`. Every round consumes a byte, so `text.length`
rounds are enough. -/
def canonicalTextLoop : Nat → Bytes → Bytes
  | 0, _ => []
  | _ + 1, [] => []
  | fuel + 1, lead :: rest =>
    let len := utf8SequenceLength lead
    if len = 0 then kUtf8Replacement ++ canonicalTextLoop fuel rest
    else if len = 1 then lead :: canonicalTextLoop fuel rest
    else
      let got := consumed lead rest
      if got = len then
        (lead :: rest).take len ++ canonicalTextLoop fuel ((lead :: rest).drop len)
      else kUtf8Replacement ++ canonicalTextLoop fuel ((lead :: rest).drop got)

def canonicalText (text : Bytes) : Bytes := canonicalTextLoop text.length text

/-! ## The inner loop -/

theorem le_consumeSequence (lo hi : UInt8) (len got : Nat) (rest : Bytes) :
    got ≤ consumeSequence lo hi len got rest := by
  induction rest generalizing got with
  | nil => exact Nat.le_refl _
  | cons cont rest ih =>
    rw [consumeSequence]
    split
    · exact Nat.le_trans (Nat.le_succ got) (ih (got + 1))
    · exact Nat.le_refl _

theorem consumeSequence_le (lo hi : UInt8) (len got : Nat) (rest : Bytes) :
    consumeSequence lo hi len got rest ≤ got + rest.length := by
  induction rest generalizing got with
  | nil => simp [consumeSequence]
  | cons cont rest ih =>
    rw [consumeSequence, List.length_cons]
    split
    · have := ih (got + 1)
      omega
    · omega

/-- An ASCII byte stops the inner loop, so what follows one does not matter. -/
theorem consumeSequence_append {lo : UInt8} (hlo : 0x80 ≤ lo) (hi : UInt8)
    (len got : Nat) (rest : Bytes) {tail : Bytes} (htail : ∀ b ∈ tail.head?, b < 0x80) :
    consumeSequence lo hi len got (rest ++ tail) = consumeSequence lo hi len got rest := by
  induction rest generalizing got with
  | nil =>
    cases tail with
    | nil => rfl
    | cons b tail =>
      have hb : b < 0x80 := htail b rfl
      have hblo : ¬ lo ≤ b := fun h => absurd (UInt8.le_trans hlo h) (UInt8.not_le.mpr hb)
      simp [consumeSequence, inRange, hblo, UInt8.not_le.mpr hb]
  | cons cont rest ih =>
    simp only [List.cons_append, consumeSequence, ih]

theorem one_le_consumed (lead : UInt8) (rest : Bytes) : 1 ≤ consumed lead rest :=
  le_consumeSequence _ _ _ 1 rest

theorem le_utf8SecondByteRange_fst (lead : UInt8) : 0x80 ≤ (utf8SecondByteRange lead).1 := by
  unfold utf8SecondByteRange
  split_ifs <;> decide

/-! ## The outer loop does not depend on its fuel -/

theorem canonicalTextLoop_fuel (f g : Nat) (text : Bytes)
    (hf : text.length ≤ f) (hg : text.length ≤ g) :
    canonicalTextLoop f text = canonicalTextLoop g text := by
  induction f generalizing g text with
  | zero =>
    have : text = [] := List.length_eq_zero_iff.mp (Nat.le_zero.mp hf)
    subst this
    cases g <;> rfl
  | succ f ih =>
    cases text with
    | nil => cases g <;> rfl
    | cons lead rest =>
      cases g with
      | zero => simp at hg
      | succ g =>
        simp only [List.length_cons] at hf hg
        have hdrop : ∀ n, 1 ≤ n → canonicalTextLoop f ((lead :: rest).drop n)
            = canonicalTextLoop g ((lead :: rest).drop n) := by
          intro n hn
          apply ih <;> simp only [List.length_drop, List.length_cons] <;> omega
        have hrest := hdrop 1 (Nat.le_refl 1)
        rw [List.drop_one, List.tail_cons] at hrest
        have hgot := hdrop _ (one_le_consumed lead rest)
        by_cases h0 : utf8SequenceLength lead = 0
        · simp [canonicalTextLoop, h0, hrest]
        by_cases h1 : utf8SequenceLength lead = 1
        · simp [canonicalTextLoop, h1, hrest]
        · have hlen := hdrop (utf8SequenceLength lead) (by omega)
          simp only [canonicalTextLoop, h0, h1, if_false, hlen, hgot]

@[simp] theorem canonicalText_nil : canonicalText [] = [] := rfl

/-- One round of the outer loop, as an equation of `canonicalText` itself. -/
theorem canonicalText_cons (lead : UInt8) (rest : Bytes) :
    canonicalText (lead :: rest) =
      if utf8SequenceLength lead = 0 then kUtf8Replacement ++ canonicalText rest
      else if utf8SequenceLength lead = 1 then lead :: canonicalText rest
      else if consumed lead rest = utf8SequenceLength lead then
        (lead :: rest).take (consumed lead rest)
          ++ canonicalText ((lead :: rest).drop (consumed lead rest))
      else kUtf8Replacement ++ canonicalText ((lead :: rest).drop (consumed lead rest)) := by
  have hdrop : ∀ n, 1 ≤ n → canonicalTextLoop rest.length ((lead :: rest).drop n)
      = canonicalText ((lead :: rest).drop n) := by
    intro n hn
    apply canonicalTextLoop_fuel _ _ _ _ (Nat.le_refl _)
    simp only [List.length_drop, List.length_cons]
    omega
  have hgot := hdrop _ (one_le_consumed lead rest)
  show canonicalTextLoop (rest.length + 1) (lead :: rest) = _
  simp only [canonicalTextLoop]
  split_ifs with h0 h1 h2
  · rfl
  · rfl
  · rw [h2] at hgot
    rw [h2, hgot]
  · rw [hgot]

/-! ## Well-formedness -/

theorem inRange_second_iff (lead b : UInt8) :
    inRange (utf8SecondByteRange lead).1 (utf8SecondByteRange lead).2 1 b = true
      ↔ IsSecond lead b := by
  unfold utf8SecondByteRange inRange IsSecond IsTail
  split_ifs with h1 h2 h3 h4 <;>
    simp_all [UInt8.le_iff_toNat_le] <;> omega

theorem inRange_later_iff {lo hi : UInt8} {got : Nat} (hgot : got ≠ 1) (b : UInt8) :
    inRange lo hi got b = true ↔ IsTail b := by
  simp [inRange, IsTail, hgot]

/-- The lead byte classes behind the four positive lengths. -/
theorem utf8SequenceLength_cases (lead : UInt8) :
    (utf8SequenceLength lead = 0 ∧ 0x80 ≤ lead) ∨ (utf8SequenceLength lead = 1 ∧ lead < 0x80)
      ∨ (utf8SequenceLength lead = 2 ∧ 0xC2 ≤ lead ∧ lead < 0xE0)
      ∨ (utf8SequenceLength lead = 3 ∧ 0xE0 ≤ lead ∧ lead < 0xF0)
      ∨ (utf8SequenceLength lead = 4 ∧ 0xF0 ≤ lead ∧ lead < 0xF5) := by
  unfold utf8SequenceLength
  split_ifs with h1 h2 h3 h4 h5 <;> simp_all

/-- A step of the inner loop that gets past a byte found it in range. -/
theorem consumeSequence_cons_eq {lo hi : UInt8} {len got : Nat} {cont : UInt8} {rest : Bytes}
    (hlt : got < len) (h : consumeSequence lo hi len got (cont :: rest) = len) :
    inRange lo hi got cont = true ∧ consumeSequence lo hi len (got + 1) rest = len := by
  rw [consumeSequence] at h
  split at h
  · next hc => exact ⟨hc.2, h⟩
  · omega

/-- When the inner loop consumes a whole sequence, the bytes it ran over encode one code
point. -/
theorem utf8Char_of_consumed {lead : UInt8} {rest : Bytes}
    (h2 : 2 ≤ utf8SequenceLength lead)
    (h : consumed lead rest = utf8SequenceLength lead) :
    Utf8Char ((lead :: rest).take (consumed lead rest)) := by
  rw [h]
  unfold consumed at h
  rcases utf8SequenceLength_cases lead with ⟨hl, _⟩ | ⟨hl, _⟩ | ⟨hl, hlo, hhi⟩ | ⟨hl, hlo, hhi⟩ |
    ⟨hl, hlo, hhi⟩
  · omega
  · omega
  · rw [hl] at h ⊢
    rcases rest with _ | ⟨b, rest⟩
    · simp [consumeSequence] at h
    obtain ⟨hb, -⟩ := consumeSequence_cons_eq (by omega) h
    exact .two hlo hhi ((inRange_second_iff lead b).mp hb)
  · rw [hl] at h ⊢
    rcases rest with _ | ⟨b, _ | ⟨c, rest⟩⟩
    · simp [consumeSequence] at h
    · obtain ⟨-, h⟩ := consumeSequence_cons_eq (by omega) h
      simp [consumeSequence] at h
    obtain ⟨hb, h⟩ := consumeSequence_cons_eq (by omega) h
    obtain ⟨hc, -⟩ := consumeSequence_cons_eq (by omega) h
    exact .three hlo hhi ((inRange_second_iff lead b).mp hb)
      ((inRange_later_iff (by omega) c).mp hc)
  · rw [hl] at h ⊢
    rcases rest with _ | ⟨b, _ | ⟨c, _ | ⟨d, rest⟩⟩⟩
    · simp [consumeSequence] at h
    · obtain ⟨-, h⟩ := consumeSequence_cons_eq (by omega) h
      simp [consumeSequence] at h
    · obtain ⟨-, h⟩ := consumeSequence_cons_eq (by omega) h
      obtain ⟨-, h⟩ := consumeSequence_cons_eq (by omega) h
      simp [consumeSequence] at h
    obtain ⟨hb, h⟩ := consumeSequence_cons_eq (by omega) h
    obtain ⟨hc, h⟩ := consumeSequence_cons_eq (by omega) h
    obtain ⟨hd, -⟩ := consumeSequence_cons_eq (by omega) h
    exact .four hlo hhi ((inRange_second_iff lead b).mp hb)
      ((inRange_later_iff (by omega) c).mp hc) ((inRange_later_iff (by omega) d).mp hd)

/-- U+FFFD itself is one code point. -/
theorem utf8Char_kUtf8Replacement : Utf8Char kUtf8Replacement :=
  .three (by decide) (by decide) ⟨⟨by decide, by decide⟩, by decide, by decide, by decide,
    by decide⟩ ⟨by decide, by decide⟩

/-- **The normaliser's output is well-formed UTF-8**, whatever bytes it is given. -/
theorem canonicalText_wellFormed (text : Bytes) : WellFormed (canonicalText text) := by
  -- on the length: every round drops at least one byte
  induction hn : text.length using Nat.strong_induction_on generalizing text with
  | _ n ih =>
    cases text with
    | nil => exact .nil
    | cons lead rest =>
      have hdrop : ∀ k, 1 ≤ k → WellFormed (canonicalText ((lead :: rest).drop k)) := by
        intro k hk
        apply ih _ _ _ rfl
        simp only [List.length_drop, List.length_cons] at hn ⊢
        omega
      have hgot := one_le_consumed lead rest
      rw [canonicalText_cons]
      split_ifs with h0 h1 h2
      · exact .cons utf8Char_kUtf8Replacement (hdrop 1 (Nat.le_refl 1))
      · have hlead : lead < 0x80 := by
          rcases utf8SequenceLength_cases lead with h | h | h | h | h
          · omega
          · exact h.2
          · omega
          · omega
          · omega
        exact .cons (c := [lead]) (.one hlead) (hdrop 1 (Nat.le_refl 1))
      · exact .cons (utf8Char_of_consumed (by omega) h2) (hdrop _ hgot)
      · exact .cons utf8Char_kUtf8Replacement (hdrop _ hgot)

/-- The loop copies a leading code point and goes on behind it. -/
theorem canonicalText_utf8Char_append {c : Bytes} (hc : Utf8Char c) (rest : Bytes) :
    canonicalText (c ++ rest) = c ++ canonicalText rest := by
  have hlen : ∀ {lead : UInt8}, (0xC2 ≤ lead ∧ lead < 0xE0 → utf8SequenceLength lead = 2)
      ∧ (0xE0 ≤ lead ∧ lead < 0xF0 → utf8SequenceLength lead = 3)
      ∧ (0xF0 ≤ lead ∧ lead < 0xF5 → utf8SequenceLength lead = 4) := by
    intro lead
    unfold utf8SequenceLength
    split_ifs <;> simp_all [UInt8.le_iff_toNat_le, UInt8.lt_iff_toNat_lt] <;> omega
  have hfull : ∀ (lo hi : UInt8) (len : Nat), consumeSequence lo hi len len rest = len := by
    intro lo hi len
    cases rest <;> simp [consumeSequence]
  have htail : ∀ {lo hi b : UInt8} {got : Nat}, got ≠ 1 → IsTail b →
      inRange lo hi got b = true := fun hgot hb => (inRange_later_iff hgot _).mpr hb
  cases hc with
  | one ha => simp [canonicalText_cons, utf8SequenceLength, ha]
  | two ha ha' hb =>
    have hb' := (inRange_second_iff _ _).mpr hb
    simp [canonicalText_cons, hlen.1 ⟨ha, ha'⟩, consumed, consumeSequence, hb', hfull]
  | three ha ha' hb hc =>
    have hb' := (inRange_second_iff _ _).mpr hb
    simp [canonicalText_cons, hlen.2.1 ⟨ha, ha'⟩, consumed, consumeSequence, hb', hfull,
      htail (show 2 ≠ 1 by omega) hc]
  | four ha ha' hb hc hd =>
    have hb' := (inRange_second_iff _ _).mpr hb
    simp [canonicalText_cons, hlen.2.2 ⟨ha, ha'⟩, consumed, consumeSequence, hb', hfull,
      htail (show 2 ≠ 1 by omega) hc, htail (show 3 ≠ 1 by omega) hd]

/-- **Well-formed text is returned unchanged.** -/
theorem canonicalText_of_wellFormed {text : Bytes} (h : WellFormed text) :
    canonicalText text = text := by
  induction h with
  | nil => rfl
  | cons hc _ ih => rw [canonicalText_utf8Char_append hc, ih]

/-- No sequence reaches over an ASCII byte, so the text is cut there. -/
theorem canonicalText_append (text : Bytes) {tail : Bytes} (htail : ∀ b ∈ tail.head?, b < 0x80) :
    canonicalText (text ++ tail) = canonicalText text ++ canonicalText tail := by
  induction hn : text.length using Nat.strong_induction_on generalizing text with
  | _ n ih =>
    cases text with
    | nil => rfl
    | cons lead rest =>
      have hle : consumed lead rest ≤ (lead :: rest).length := by
        have := consumeSequence_le (utf8SecondByteRange lead).1 (utf8SecondByteRange lead).2
          (utf8SequenceLength lead) 1 rest
        simp only [List.length_cons, consumed]
        omega
      have hsame : consumed lead (rest ++ tail) = consumed lead rest :=
        consumeSequence_append (le_utf8SecondByteRange_fst lead) _ _ _ _ htail
      have hdrop : ∀ k, 1 ≤ k → k ≤ (lead :: rest).length →
          canonicalText ((lead :: (rest ++ tail)).drop k)
            = canonicalText ((lead :: rest).drop k) ++ canonicalText tail := by
        intro k hk hk'
        rw [← List.cons_append, List.drop_append_of_le_length hk']
        apply ih _ _ _ rfl
        simp only [List.length_drop, List.length_cons] at hn ⊢
        omega
      have hrest := hdrop 1 (Nat.le_refl 1) (by simp)
      have hgot := hdrop _ (one_le_consumed lead rest) hle
      rw [List.drop_one, List.drop_one, List.tail_cons, List.tail_cons] at hrest
      have htake : (lead :: (rest ++ tail)).take (consumed lead rest)
          = (lead :: rest).take (consumed lead rest) := by
        rw [← List.cons_append, List.take_append_of_le_length hle]
      rw [List.cons_append, canonicalText_cons, canonicalText_cons, hsame, hrest, hgot, htake]
      split_ifs <;> simp

/-- An ASCII tail is copied as it stands. -/
theorem canonicalText_append_ascii (text : Bytes) {tail : Bytes} (htail : ∀ b ∈ tail, b < 0x80) :
    canonicalText (text ++ tail) = canonicalText text ++ tail := by
  rw [canonicalText_append text fun b hb => htail b (List.mem_of_mem_head? hb),
    canonicalText_of_wellFormed (.of_ascii htail)]

@[simp] theorem canonicalText_idem (text : Bytes) :
    canonicalText (canonicalText text) = canonicalText text :=
  canonicalText_of_wellFormed (canonicalText_wellFormed text)

/-! ## Round by round -/

theorem consumeSequence_le_len (lo hi : UInt8) {len got : Nat} (hgot : got ≤ len) (rest : Bytes) :
    consumeSequence lo hi len got rest ≤ len := by
  induction rest generalizing got with
  | nil => exact hgot
  | cons cont rest ih =>
    rw [consumeSequence]
    split
    · next hc => exact ih hc.1
    · exact hgot

/-- The inner loop runs over no ASCII byte. -/
theorem not_ascii_of_consumeSequence {lo : UInt8} (hlo : 0x80 ≤ lo) (hi : UInt8)
    (len got : Nat) (rest : Bytes) :
    ∀ b ∈ rest.take (consumeSequence lo hi len got rest - got), 0x80 ≤ b := by
  induction rest generalizing got with
  | nil => simp
  | cons cont rest ih =>
    rw [consumeSequence]
    split
    · next hc =>
      have hcont : 0x80 ≤ cont := by
        have hrange := hc.2
        unfold inRange at hrange
        split_ifs at hrange
        · simp only [Bool.and_eq_true, decide_eq_true_eq] at hrange
          exact UInt8.le_trans hlo hrange.1
        · simp only [Bool.and_eq_true, decide_eq_true_eq] at hrange
          exact hrange.1
      have hle := le_consumeSequence lo hi len (got + 1) rest
      have hsub : consumeSequence lo hi len (got + 1) rest - got
          = (consumeSequence lo hi len (got + 1) rest - (got + 1)) + 1 := by omega
      rw [hsub, List.take_succ_cons]
      intro b hb
      rcases List.mem_cons.mp hb with rfl | hb
      · exact hcont
      · exact ih (got + 1) b hb
    · simp

theorem not_ascii_of_consumed {lead : UInt8} (hlead : 0x80 ≤ lead) (rest : Bytes) :
    ∀ b ∈ (lead :: rest).take (consumed lead rest), 0x80 ≤ b := by
  have hone := one_le_consumed lead rest
  have hsucc : consumed lead rest = (consumed lead rest - 1) + 1 := by omega
  rw [hsucc, List.take_succ_cons]
  intro b hb
  rcases List.mem_cons.mp hb with rfl | hb
  · exact hlead
  · exact not_ascii_of_consumeSequence (le_utf8SecondByteRange_fst lead) _ _ 1 rest b hb

/-- One round copies an ASCII byte, or writes non-ASCII text for non-ASCII text, not less of it. -/
theorem canonicalText_induction {P : Bytes → Bytes → Prop} (nil : P [] [])
    (ascii : ∀ a rest, a < 0x80 → P rest (canonicalText rest) →
      P (a :: rest) (a :: canonicalText rest))
    (other : ∀ piece out rest, piece ≠ [] → piece.length ≤ out.length →
      (∀ b ∈ piece, 0x80 ≤ b) → (∀ b ∈ out, 0x80 ≤ b) → P rest (canonicalText rest) →
      P (piece ++ rest) (out ++ canonicalText rest)) (text : Bytes) :
    P text (canonicalText text) := by
  have hreplacement : ∀ b ∈ kUtf8Replacement, 0x80 ≤ b := by decide
  induction hn : text.length using Nat.strong_induction_on generalizing text with
  | _ n ih =>
    cases text with
    | nil => exact nil
    | cons lead rest =>
      have hdrop : ∀ k, 1 ≤ k →
          P ((lead :: rest).drop k) (canonicalText ((lead :: rest).drop k)) := by
        intro k hk
        apply ih _ _ _ rfl
        simp only [List.length_drop, List.length_cons] at hn ⊢
        omega
      have hgot := one_le_consumed lead rest
      have hrest : P rest (canonicalText rest) := hdrop 1 (Nat.le_refl 1)
      have hpiece : (lead :: rest).take (consumed lead rest) ≠ [] := by
        rw [Ne, List.take_eq_nil_iff]
        simp only [reduceCtorEq, or_false]
        omega
      have hclass := utf8SequenceLength_cases lead
      rw [canonicalText_cons]
      split_ifs with h0 h1 h2
      · have hlead : 0x80 ≤ lead := by
          rcases hclass with h | h | h | h | h
          · exact h.2
          all_goals omega
        exact other [lead] kUtf8Replacement rest (by simp) (by simp [kUtf8Replacement])
          (by simpa using hlead) hreplacement hrest
      · have hlead : lead < 0x80 := by
          rcases hclass with h | h | h | h | h
          · omega
          · exact h.2
          all_goals omega
        exact ascii lead rest hlead hrest
      all_goals
        have hlead : 0x80 ≤ lead := by
          rcases hclass with h | h | h | h | h
          · exact h.2
          · omega
          · exact UInt8.le_trans (by decide) h.2.1
          · exact UInt8.le_trans (by decide) h.2.1
          · exact UInt8.le_trans (by decide) h.2.1
        have hother := not_ascii_of_consumed hlead rest
        conv => arg 1; rw [← List.take_append_drop (consumed lead rest) (lead :: rest)]
      · exact other _ _ _ hpiece (Nat.le_refl _) hother hother (hdrop _ hgot)
      · -- a truncated sequence has at most three bytes
        have hlen : utf8SequenceLength lead ≤ 4 := by
          rcases hclass with h | h | h | h | h <;> omega
        have hle := consumeSequence_le_len (utf8SecondByteRange lead).1
          (utf8SecondByteRange lead).2 (by omega : 1 ≤ utf8SequenceLength lead) rest
        have hgot : consumed lead rest ≤ 3 := by
          unfold consumed at h2 ⊢
          dsimp only at h2 ⊢
          omega
        refine other _ _ _ hpiece ?_ hother hreplacement (hdrop _ (one_le_consumed lead rest))
        exact Nat.le_trans (List.length_take_le _ _) hgot

theorem length_canonicalText (text : Bytes) : text.length ≤ (canonicalText text).length := by
  refine canonicalText_induction (P := fun text out => text.length ≤ out.length) (Nat.le_refl _)
    ?_ ?_ text
  · intro a rest _ ih
    exact Nat.succ_le_succ ih
  · intro piece out rest _ hle _ _ ih
    rw [List.length_append, List.length_append]
    exact Nat.add_le_add hle ih

/-- The bytes of ASCII. -/
def isAscii (b : UInt8) : Bool := b < 0x80

theorem filter_isAscii_eq_nil {text : Bytes} :
    text.filter isAscii = [] ↔ ∀ b ∈ text, 0x80 ≤ b := by
  simp [List.filter_eq_nil_iff, isAscii]

theorem filter_canonicalText (text : Bytes) :
    (canonicalText text).filter isAscii = text.filter isAscii := by
  refine canonicalText_induction
    (P := fun text out => out.filter isAscii = text.filter isAscii) rfl ?_ ?_ text
  · intro a rest ha ih
    rw [List.filter_cons, List.filter_cons, ih]
  · intro piece out rest _ _ hpiece hout ih
    rw [List.filter_append, List.filter_append, filter_isAscii_eq_nil.mpr hpiece,
      filter_isAscii_eq_nil.mpr hout, ih]

/-- A non-ASCII run stays one. -/
theorem canonicalText_run {run : Bytes} (hne : run ≠ []) (hrun : ∀ b ∈ run, 0x80 ≤ b) :
    canonicalText run ≠ [] ∧ ∀ b ∈ canonicalText run, 0x80 ≤ b := by
  refine ⟨fun hnil => ?_, ?_⟩
  · have hlength := length_canonicalText run
    rw [hnil] at hlength
    exact hne (List.length_eq_zero_iff.mp (Nat.le_zero.mp hlength))
  · rw [← filter_isAscii_eq_nil, filter_canonicalText, filter_isAscii_eq_nil]
    exact hrun

theorem canonicalText_ascii_cons {a : UInt8} (ha : a < 0x80) (rest : Bytes) :
    canonicalText (a :: rest) = a :: canonicalText rest :=
  canonicalText_utf8Char_append (.one ha) rest

/-- **The normaliser.** -/
theorem canonicalText_normaliser (text : Bytes) :
    WellFormed (canonicalText text)
      ∧ (WellFormed text → canonicalText text = text)
      ∧ canonicalText (canonicalText text) = canonicalText text
      ∧ text.length ≤ (canonicalText text).length
      ∧ (canonicalText text).filter isAscii = text.filter isAscii
      ∧ ∀ before a run b after, text = before ++ a :: run ++ b :: after →
        isAscii a = true → isAscii b = true → run ≠ [] → (∀ c ∈ run, isAscii c = false) →
        canonicalText text
            = canonicalText before ++ a :: canonicalText run ++ b :: canonicalText after
          ∧ canonicalText run ≠ [] ∧ ∀ c ∈ canonicalText run, isAscii c = false := by
  refine ⟨canonicalText_wellFormed text, canonicalText_of_wellFormed, canonicalText_idem text,
    length_canonicalText text, filter_canonicalText text, ?_⟩
  rintro before a run b after rfl ha hb hne hrun
  simp only [isAscii, decide_eq_true_eq, decide_eq_false_iff_not, UInt8.not_lt] at ha hb hrun ⊢
  refine ⟨?_, canonicalText_run hne hrun⟩
  rw [canonicalText_append _ (by simpa using hb), canonicalText_append _ (by simpa using ha),
    canonicalText_ascii_cons ha, canonicalText_ascii_cons hb]

end BrokerExec.Domain
