import BrokerExec.Adapters.Kotak.Labels
import BrokerExec.Domain.ScrubIdempotent

/-!
# A broker text scrubbed again (`adapters/kotak/kotak_errors.cpp`)

Neither pass leaves a label in front of a value it would take. A stretch that gives way to the
marker leaves no label waiting behind it, and between the markers a second reading knows no more
than the first did.

* **`allEchoed_shown`** — what the redaction shows has no value to redact.
* **`allEchoed_output`** — nor has what `scrub` shows of such a text.
* **`scrubBrokerText_again`** — so both passes leave the result as it is.
-/

namespace BrokerExec.Adapters.Kotak

open BrokerExec.Domain (isTokenChar kRedactionMarker scrub Piece Scanned textOf outputOf redacted
  exists_pieces exists_head_of_run)

/-! ## Texts with nothing to redact -/

/-- No token is taken for a value. -/
def AllEchoed (label : Option Bool) (ts : List (Token UInt8)) : Prop :=
  ∀ chars, .secret chars ∉ readLabels label ts

@[simp] theorem allEchoed_nil (label : Option Bool) : AllEchoed label [] :=
  fun _ hmem => by cases hmem

theorem allEchoed_other {label : Option Bool} {c : UInt8} {ts : List (Token UInt8)} :
    AllEchoed label (.other c :: ts) ↔ AllEchoed (labelBehind label c) ts := by
  simp [AllEchoed, readLabels]

theorem allEchoed_run {label : Option Bool} {chars : Bytes} {ts : List (Token UInt8)} :
    AllEchoed label (.run chars :: ts)
      ↔ takes label chars = false ∧ AllEchoed (labelOf chars) ts := by
  unfold AllEchoed
  cases htakes : takes label chars with
  | false => simp [readLabels, htakes]
  | true =>
    refine iff_of_false (fun h => h chars ?_) (by simp)
    rw [readLabels, if_pos htakes]
    exact List.mem_cons_self

theorem allEchoed_append {label : Option Bool} {ts us : List (Token UInt8)} :
    AllEchoed label (ts ++ us) ↔ AllEchoed label ts ∧ AllEchoed (labelAfter label ts) us := by
  simp only [AllEchoed, readLabels_append, List.mem_append, not_or, forall_and]

/-- The second reading knows what the first did, or of no label. -/
def Forgets (label' label : Option Bool) : Prop := label' = none ∨ label' = label

variable {label label' : Option Bool}

theorem Forgets.other (h : Forgets label' label) (c : UInt8) :
    Forgets (labelBehind label' c) (labelBehind label c) := by
  rcases h with rfl | rfl
  · left
    unfold labelBehind
    split_ifs <;> rfl
  · exact .inr rfl

theorem Forgets.takes (h : Forgets label' label) {chars : Bytes}
    (htakes : takes label chars = false) : takes label' chars = false := by
  rcases h with rfl | rfl
  · rfl
  · exact htakes

/-- A reading that knows less takes no more, and knows less behind the tokens. -/
theorem AllEchoed.forget {ts : List (Token UInt8)} (h : AllEchoed label ts)
    (hforgets : Forgets label' label) :
    AllEchoed label' ts ∧ Forgets (labelAfter label' ts) (labelAfter label ts) := by
  induction ts generalizing label label' with
  | nil => exact ⟨allEchoed_nil _, hforgets⟩
  | cons t ts ih =>
    cases t with
    | other c =>
      rw [allEchoed_other] at h ⊢
      exact ih h (hforgets.other c)
    | run chars =>
      rw [allEchoed_run] at h ⊢
      have htakes' := hforgets.takes h.1
      refine ⟨⟨htakes', h.2⟩, .inr ?_⟩
      rw [labelAfter, labelAfter, htakes', h.1]

/-- The marker holds no value and leaves no label. -/
theorem allEchoed_marker (label : Option Bool) (ts : List (Token UInt8)) :
    AllEchoed label (tokens isTokenChar kRedactionMarker ++ ts) ↔ AllEchoed none ts := by
  have htokens : tokens isTokenChar kRedactionMarker = [.other 0x2A, .other 0x2A, .other 0x2A,
      .run (ascii "REDACTED"), .other 0x2A, .other 0x2A, .other 0x2A] := by decide
  have hstar : ∀ label, labelBehind label 0x2A = none := fun _ => if_neg (by decide)
  have hword : labelOf (ascii "REDACTED") = none := if_neg (by decide)
  rw [htokens]
  simp only [List.cons_append, List.nil_append, allEchoed_other, allEchoed_run, hstar, hword, takes,
    true_and]

theorem tokens_marker_append (rest : Bytes) : tokens isTokenChar (kRedactionMarker ++ rest)
    = tokens isTokenChar kRedactionMarker ++ tokens isTokenChar rest := by
  refine tokens_append (.inl fun c hc => ?_)
  obtain rfl : 0x2A = c := Option.some.inj hc
  decide

/-! ## After the redaction -/

/-- The text that the parts are of, and what the redaction shows of it. -/
def Part.token : Part → Token UInt8
  | .other c => .other c
  | .word chars => .run chars
  | .secret chars => .run chars

def sourceOf (parts : List Part) : Bytes := Token.textOf (parts.map Part.token)

def shownOf (parts : List Part) : Bytes := Edit.shown kRedactionMarker (parts.map Part.edit)

@[simp] theorem sourceOf_cons (part : Part) (parts : List Part) :
    sourceOf (part :: parts) = part.token.text ++ sourceOf parts := rfl

@[simp] theorem sourceOf_append (ps qs : List Part) :
    sourceOf (ps ++ qs) = sourceOf ps ++ sourceOf qs := by
  rw [sourceOf, List.map_append, Token.textOf_append]
  rfl

@[simp] theorem shownOf_append (ps qs : List Part) :
    shownOf (ps ++ qs) = shownOf ps ++ shownOf qs := by
  rw [shownOf, List.map_append, Edit.shown, List.flatMap_append]
  rfl

theorem readLabels_token (label : Option Bool) (ts : List (Token UInt8)) :
    (readLabels label ts).map Part.token = ts := by
  induction ts generalizing label with
  | nil => rfl
  | cons t ts ih =>
    cases t with
    | other c => exact congrArg (_ :: ·) (ih _)
    | run chars =>
      rw [readLabels]
      split_ifs
      · exact congrArg (_ :: ·) (ih _)
      · exact congrArg (_ :: ·) (ih _)

@[simp] theorem sourceOf_partsOf (text : Bytes) : sourceOf (partsOf text) = text := by
  rw [sourceOf, partsOf, readLabels_token, textOf_tokens]

theorem redactKotakKeys_eq (text : Bytes) : redactKotakKeys text = shownOf (partsOf text) := by
  rw [redactKotakKeys, ← shown_redactEdits, redactEdits_text, shownOf]

/-- A text that starts with no run is shown with the same first byte. -/
theorem shownOf_head {parts : List Part} (hcut : Cut isTokenChar (parts.map Part.token))
    (hplain : ∀ c ∈ (sourceOf parts).head?, isTokenChar c = false) :
    (shownOf parts).head? = (sourceOf parts).head? := by
  cases parts with
  | nil => rfl
  | cons part parts =>
    have hrun : ∀ chars, part.token = .run chars → False := by
      intro chars hpart
      rw [List.map_cons, hpart] at hcut
      cases hcut with
      | run hne hrun hstop hrest =>
        obtain ⟨c, cs, hcs, hc⟩ := exists_head_of_run hne hrun (sourceOf parts)
        rw [hplain c (by rw [sourceOf_cons, hpart, Token.text, hcs]; rfl)] at hc
        cases hc
    cases part with
    | other c => rfl
    | word chars => exact (hrun chars rfl).elim
    | secret chars => exact (hrun chars rfl).elim

/-- **What the redaction shows has no value to redact.** -/
theorem allEchoed_shown {ts : List (Token UInt8)} (hcut : Cut isTokenChar ts)
    (hforgets : Forgets label' label) :
    AllEchoed label' (tokens isTokenChar (shownOf (readLabels label ts))) := by
  induction hcut generalizing label label' with
  | nil => exact allEchoed_nil _
  | @other c ts hc hrest ih =>
    show AllEchoed label' (tokens isTokenChar (c :: shownOf (readLabels _ ts)))
    rw [tokens_cons_other hc, allEchoed_other]
    exact ih (hforgets.other c)
  | @run chars ts hne hrun hstop hrest ih =>
    rw [readLabels]
    split_ifs with htakes
    · show AllEchoed label' (tokens isTokenChar ((if chars = [] then [] else kRedactionMarker)
        ++ shownOf (readLabels none ts)))
      -- behind the marker the second reading starts anew, as the first does behind the value
      rw [if_neg hne, tokens_marker_append, allEchoed_marker]
      exact ih (.inl rfl)
    · show AllEchoed label' (tokens isTokenChar (chars ++ shownOf (readLabels (labelOf chars) ts)))
      have hsource : sourceOf (readLabels (labelOf chars) ts) = Token.textOf ts := by
        rw [sourceOf, readLabels_token]
      have hcut : Cut isTokenChar ((readLabels (labelOf chars) ts).map Part.token) := by
        rwa [readLabels_token]
      have hhead := shownOf_head hcut (by rwa [hsource])
      rw [tokens_run_append hne hrun (by rwa [hhead, hsource]), allEchoed_run]
      exact ⟨hforgets.takes (Bool.eq_false_of_not_eq_true htakes), ih (.inr rfl)⟩

theorem shownOf_of_kept {parts : List Part} (h : ∀ chars, .secret chars ∉ parts) :
    shownOf parts = sourceOf parts := by
  induction parts with
  | nil => rfl
  | cons part parts ih =>
    have htail := ih fun chars hmem => h chars (List.mem_cons_of_mem part hmem)
    cases part with
    | other c => exact congrArg (c :: ·) htail
    | word chars => exact congrArg (chars ++ ·) htail
    | secret chars => exact absurd List.mem_cons_self (h chars)

/-- A text with no value to redact stays as it is. -/
theorem AllEchoed.redactKotakKeys {text : Bytes} (h : AllEchoed none (tokens isTokenChar text)) :
    redactKotakKeys text = text := by
  rw [redactKotakKeys_eq]
  exact (shownOf_of_kept h).trans (sourceOf_partsOf text)

/-! ## After `scrub` -/

/-- **What `scrub` shows of a text with no value to redact has none.** -/
theorem allEchoed_output {back : Bytes} {pieces : List Piece} (h : Scanned back pieces)
    (hforgets : Forgets label' label)
    (hechoed : AllEchoed label (tokens isTokenChar (textOf pieces))) :
    AllEchoed label' (tokens isTokenChar (outputOf pieces)) := by
  induction h generalizing label label' with
  | nil => exact allEchoed_nil _
  | @other back c pieces hc hrest ih =>
    change AllEchoed label (tokens isTokenChar (c :: textOf pieces)) at hechoed
    show AllEchoed label' (tokens isTokenChar (c :: outputOf pieces))
    rw [tokens_cons_other hc, allEchoed_other] at hechoed ⊢
    exact ih (hforgets.other c) hechoed
  | @run back run pieces hne hrun hback hstop hnone hrest ih =>
    change AllEchoed label (tokens isTokenChar (run ++ textOf pieces)) at hechoed
    rw [tokens_run_append hne hrun hstop, allEchoed_run] at hechoed
    show AllEchoed label' (tokens isTokenChar ((if Domain.isHidden back run then _ else _)
      ++ outputOf pieces))
    split_ifs
    · rw [tokens_marker_append, allEchoed_marker]
      exact ih (.inl rfl) hechoed.2
    · rw [tokens_run_append hne hrun (by rwa [hrest.outputOf_head hstop]), allEchoed_run]
      exact ⟨hforgets.takes hechoed.1, ih (.inr rfl) hechoed.2⟩
  | @pair back kv pieces hback hfits hrest ih =>
    have hfront : ∀ c ∈ kv.front.getLast?, isTokenChar c = false := by
      intro c hc
      rw [Domain.KeyValue.front, List.getLast?_append_of_ne_nil _ (by
        simp [Domain.KeyValue.gap, Domain.SensitiveKey.link])] at hc
      exact kv.gap_plain c (List.mem_of_mem_getLast? hc)
    change AllEchoed label (tokens isTokenChar ((kv.front ++ kv.value) ++ textOf pieces)) at hechoed
    show AllEchoed label' (tokens isTokenChar ((kv.front ++ redacted kv.value) ++ outputOf pieces))
    rw [tokens_append (.inr hfits.stop_plain), tokens_append (.inl hfront), allEchoed_append,
      allEchoed_append] at hechoed
    obtain ⟨⟨hkey, hvalue⟩, hbehind⟩ := hechoed
    obtain ⟨hkey', hforgets'⟩ := hkey.forget hforgets
    rw [List.append_assoc, tokens_append (.inl hfront), allEchoed_append]
    refine ⟨hkey', ?_⟩
    unfold redacted
    split_ifs with hnil
    · -- an empty value shows no marker, so the label may wait over it
      rw [List.nil_append]
      refine ih hforgets' ?_
      rwa [hnil, show tokens isTokenChar [] = [] from rfl, List.append_nil] at hbehind
    · rw [tokens_marker_append, allEchoed_marker]
      exact ih (.inl rfl) hbehind

/-- Both passes leave their result as it is. -/
theorem scrubBrokerText_again (text : Bytes) :
    scrubBrokerText (scrubBrokerText text) = scrubBrokerText text := by
  obtain ⟨pieces, htext, hpieces, hscrub⟩ := exists_pieces (redactKotakKeys text)
  have hredacted : AllEchoed none (tokens isTokenChar (textOf pieces)) := by
    rw [htext, redactKotakKeys_eq]
    exact allEchoed_shown (cut_tokens isTokenChar text) (.inr rfl)
  have hechoed := allEchoed_output hpieces (.inl rfl) hredacted
  show scrub (redactKotakKeys (scrub (redactKotakKeys text))) = scrub (redactKotakKeys text)
  rw [hscrub, hechoed.redactKotakKeys, hpieces.scrub_outputOf]

end BrokerExec.Adapters.Kotak
