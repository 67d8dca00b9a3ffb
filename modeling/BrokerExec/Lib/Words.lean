import BrokerExec.Lib.Munch

/-!
# Words in a text

A word is a list whose elements all have a property. It does not reach over an element without it,
so it occurs in a text within one of the stretches that such elements set apart.

* **`infix_append_cons`** — a word occurs in front of a separator or behind it.
* **`replaceFirst_of_word`** — the first occurrence of a pattern is found where its word is not met
  before.
-/

namespace BrokerExec

variable {α : Type*} {p : α → Bool} {w a b : List α}

/-- **A word does not reach over a separator.** -/
theorem infix_append_cons (hw : ∀ x ∈ w, p x = true) {c : α} (hc : p c = false)
    (h : w <:+: a ++ c :: b) : w <:+: a ∨ w <:+: b := by
  obtain ⟨front, back, hcut⟩ := h
  rcases append_cases hcut with ⟨tail, rfl, -⟩ | ⟨shared, hshared, hfront, hback⟩
  · exact .inl ⟨front, tail, rfl⟩
  · right
    obtain ⟨d, shared, rfl⟩ := List.exists_cons_of_ne_nil hshared
    obtain ⟨rfl, rfl⟩ := List.cons.inj hback
    rcases append_cases hfront with ⟨tail, -, rfl⟩ | ⟨behind, hbehind, -, hword⟩
    · -- the separator would lie in the word
      rw [hw c (by simp)] at hc
      cases hc
    · obtain ⟨e, behind, rfl⟩ := List.exists_cons_of_ne_nil hbehind
      obtain ⟨-, rfl⟩ := List.cons.inj hword
      exact ⟨behind, back, rfl⟩

theorem infix_append_piece (hw : ∀ x ∈ w, p x = true) {piece : List α} (hne : piece ≠ [])
    (hpiece : ∀ c ∈ piece, p c = false) (h : w <:+: a ++ (piece ++ b)) : w <:+: a ∨ w <:+: b := by
  induction piece generalizing a with
  | nil => exact absurd rfl hne
  | cons c piece ih =>
    rcases infix_append_cons hw (hpiece c (by simp)) h with h | h
    · exact .inl h
    · cases piece with
      | nil => exact .inr h
      | cons d piece =>
        rcases ih (a := []) (by simp) (fun c hc => hpiece c (by simp [hc])) h with h | h
        · exact .inl (h.trans (List.nil_infix ..))
        · exact .inr h

/-- A word in parts with a separator in front of each. -/
theorem infix_flatMap_leading {β : Type*} (hw : ∀ x ∈ w, p x = true) {c : α} (hc : p c = false)
    {f : β → List α} {ms : List β} (h : w <:+: a ++ ms.flatMap fun m => c :: f m) :
    w <:+: a ∨ ∃ m ∈ ms, w <:+: f m := by
  induction ms generalizing a with
  | nil => exact .inl (by simpa using h)
  | cons m ms ih =>
    rw [List.flatMap_cons, List.cons_append] at h
    rcases infix_append_cons hw hc h with h | h
    · exact .inl h
    · rcases ih h with h | ⟨m', hm', h⟩
      · exact .inr ⟨m, by simp, h⟩
      · exact .inr ⟨m', by simp [hm'], h⟩

/-- A word in parts with a separator behind each. -/
theorem infix_flatMap_trailing {β : Type*} (hw : ∀ x ∈ w, p x = true) {c : α} (hc : p c = false)
    {f : β → List α} {ms : List β} (h : w <:+: (ms.flatMap fun m => f m ++ [c]) ++ b) :
    (∃ m ∈ ms, w <:+: f m) ∨ w <:+: b := by
  induction ms with
  | nil => exact .inr h
  | cons m ms ih =>
    rw [List.flatMap_cons, List.append_assoc, List.append_assoc, List.singleton_append] at h
    rcases infix_append_cons hw hc h with h | h
    · exact .inl ⟨m, by simp, h⟩
    · rcases ih h with ⟨m', hm', h⟩ | h
      · exact .inl ⟨m', by simp [hm'], h⟩
      · exact .inr h

variable [DecidableEq α]

/-! ## The first occurrence of a pattern -/

/-- `find` and `replace`: the text with its first occurrence of the pattern replaced. -/
def replaceFirst (pattern replacement : List α) : List α → Option (List α)
  | [] => if pattern = [] then some replacement else none
  | c :: cs =>
    if pattern <+: c :: cs then some (replacement ++ (c :: cs).drop pattern.length)
    else (replaceFirst pattern replacement cs).map (c :: ·)

variable {pattern replacement text : List α}

theorem replaceFirst_eq_some {out : List α} (h : replaceFirst pattern replacement text = some out) :
    ∃ a b, text = a ++ pattern ++ b ∧ out = a ++ replacement ++ b := by
  induction text generalizing out with
  | nil =>
    unfold replaceFirst at h
    split at h
    · next hpattern =>
      obtain rfl := Option.some.inj h
      exact ⟨[], [], by simp [hpattern], by simp⟩
    · cases h
  | cons c cs ih =>
    unfold replaceFirst at h
    split at h
    · next hfront =>
      obtain ⟨b, hb⟩ := hfront
      obtain rfl := Option.some.inj h
      exact ⟨[], b, by simp [hb], by simp [← hb]⟩
    · obtain ⟨out, hout, rfl⟩ := Option.map_eq_some_iff.mp h
      obtain ⟨a, b, rfl, rfl⟩ := ih hout
      exact ⟨c :: a, b, rfl, rfl⟩

theorem replaceFirst_of_first {a b : List α}
    (hfirst : ∀ a' b', a ++ (pattern ++ b) = a' ++ (pattern ++ b') → a.length ≤ a'.length) :
    replaceFirst pattern replacement (a ++ (pattern ++ b)) = some (a ++ (replacement ++ b)) := by
  induction a with
  | nil =>
    cases pattern with
    | nil => cases b <;> simp [replaceFirst]
    | cons c pattern => simp [replaceFirst]
  | cons c a ih =>
    have hlater : ¬ pattern <+: c :: (a ++ (pattern ++ b)) := by
      rintro ⟨b', hb'⟩
      exact absurd (hfirst [] b' hb'.symm) (by simp)
    rw [List.cons_append, replaceFirst, if_neg hlater, ih fun a' b' hcut => ?_]
    · rfl
    · have hlength := hfirst (c :: a') b' (congrArg (c :: ·) hcut)
      simpa using hlength

/-- **A pattern is first found where its word is not met before.** -/
theorem replaceFirst_of_word (hw : ∀ x ∈ w, p x = true) {q q' : α} {l r : List α}
    (hpattern : pattern = q :: (l ++ q' :: (w ++ r))) (hne : w ≠ []) (hq : p q = false)
    (hq' : p q' = false) (ha : ¬ w <:+: a) (hl : ¬ w <:+: l) :
    replaceFirst pattern replacement (a ++ (pattern ++ b)) = some (a ++ (replacement ++ b)) := by
  refine replaceFirst_of_first fun a' b' hcut => ?_
  by_contra hshort
  rw [Nat.not_le] at hshort
  -- the word of the earlier pattern ends properly in front of that of the later one
  have hfront : a' ++ (q :: (l ++ q' :: w)) <+: a ++ (q :: (l ++ q' :: w)) := by
    have hearlier : a' ++ (q :: (l ++ q' :: w)) <+: a ++ (pattern ++ b) := by
      rw [hcut, hpattern]
      exact ⟨r ++ b', by simp⟩
    have hlater : a ++ (q :: (l ++ q' :: w)) <+: a ++ (pattern ++ b) := by
      rw [hpattern]
      exact ⟨r ++ b, by simp⟩
    refine List.prefix_of_prefix_length_le hearlier hlater ?_
    simp only [List.length_append, List.length_cons]
    omega
  obtain ⟨tail, htail⟩ := hfront
  have htailNe : tail ≠ [] := by
    rintro rfl
    have hlength := congrArg List.length htail
    simp only [List.length_append, List.length_cons, List.length_nil] at hlength
    omega
  have hword : w <:+: a ++ q :: (l ++ q' :: w.dropLast) := by
    have hdrop := congrArg List.dropLast htail
    rw [List.dropLast_append_of_ne_nil htailNe,
      show a ++ (q :: (l ++ q' :: w)) = (a ++ q :: (l ++ [q'])) ++ w by simp,
      List.dropLast_append_of_ne_nil hne] at hdrop
    exact ⟨a' ++ (q :: (l ++ [q'])), tail.dropLast, by simpa using hdrop⟩
  rcases infix_append_cons hw hq hword with hword | hword
  · exact ha hword
  · rcases infix_append_cons hw hq' hword with hword | hword
    · exact hl hword
    · have hlength := hword.length_le
      rw [List.length_dropLast] at hlength
      have hpos := List.length_pos_of_ne_nil hne
      omega

end BrokerExec
