import BrokerExec.Domain.ScrubPieces

/-!
# A scrubbed text scrubbed again (`domain/redaction.cpp`)

The second scan sees other bytes behind it and in front of it than the first: values have given way
to markers, so the ten-byte window and the ends of runs and values have moved.

* **`authContextBefore_of_follows`** — a window that reaches into a marker holds no keyword that the
  first scan did not see.
* **`Scanned.redact`** — the second scan cuts the output into the pieces of the first, each
  redacted.
-/

namespace BrokerExec.Domain

/-! ## The auth window -/

theorem standsAlone_iff {window needle : Bytes} {i : Nat}
    (hbound : i + needle.length ≤ window.length) :
    standsAlone window needle i = true
      ↔ ((window.drop i).take needle.length).map toLowerAscii = needle
        ∧ (∀ c ∈ (window.take i).getLast?, isLetter c = false)
        ∧ ∀ c ∈ (window.drop (i + needle.length)).head?, isLetter c = false := by
  have hleft : (i == 0 || !isLetter (window.getD (i - 1) 0)) = true
      ↔ ∀ c ∈ (window.take i).getLast?, isLetter c = false := by
    cases i with
    | zero => simp
    | succ i =>
      have hi : i < window.length := by omega
      simp [List.getLast?_take, List.getElem?_eq_getElem hi, List.getD_eq_getElem?_getD]
  have hright : (i + needle.length == window.length
      || !isLetter (window.getD (i + needle.length) 0)) = true
      ↔ ∀ c ∈ (window.drop (i + needle.length)).head?, isLetter c = false := by
    rw [List.head?_drop]
    rcases Nat.lt_or_eq_of_le hbound with hlt | heq
    · have hne : i + needle.length ≠ window.length := by omega
      simp [List.getElem?_eq_getElem hlt, List.getD_eq_getElem?_getD, hne]
    · simp [heq]
  rw [standsAlone, Bool.and_eq_true, Bool.and_eq_true, hleft, hright, beq_iff_eq, and_assoc]

/-- An auth keyword stands in the window, with no letter at its sides. -/
theorem authContextBefore_iff {back : Bytes} :
    authContextBefore back = true ↔ ∃ left word right,
      (back.take 10).reverse = left ++ word ++ right
      ∧ word.map toLowerAscii ∈ kAuthContextNeedles
      ∧ (∀ c ∈ left.getLast?, isLetter c = false) ∧ ∀ c ∈ right.head?, isLetter c = false := by
  unfold authContextBefore
  dsimp only
  generalize (back.take 10).reverse = window
  simp only [List.any_eq_true, Bool.and_eq_true, decide_eq_true_eq, List.mem_range]
  constructor
  · rintro ⟨needle, hneedle, hlength, i, hi, halone⟩
    obtain ⟨hword, hleft, hright⟩ := (standsAlone_iff (by omega)).mp halone
    refine ⟨window.take i, (window.drop i).take needle.length, window.drop (i + needle.length), ?_,
      hword.symm ▸ hneedle, hleft, hright⟩
    rw [List.append_assoc, ← List.drop_drop, List.take_append_drop, List.take_append_drop]
  · rintro ⟨left, word, right, rfl, hneedle, hleft, hright⟩
    have hbound : left.length + (word.map toLowerAscii).length
        ≤ (left ++ word ++ right).length := by
      rw [List.length_map, List.length_append, List.length_append]
      omega
    refine ⟨_, hneedle, by omega, left.length, by omega, (standsAlone_iff hbound).mpr ?_⟩
    rw [List.length_map]
    refine ⟨?_, ?_, ?_⟩
    · rw [List.append_assoc, List.drop_left, List.take_left]
    · rwa [List.append_assoc, List.take_left]
    · rwa [← List.length_append, List.drop_left]

theorem isTokenChar_of_mem_word {word : Bytes}
    (hword : word.map toLowerAscii ∈ kAuthContextNeedles) : ∀ c ∈ word, isTokenChar c = true := by
  have hneedles : ∀ needle ∈ kAuthContextNeedles, ∀ d ∈ needle, isLetter d = true := by decide
  intro c hc
  have hletter := hneedles _ hword _ (List.mem_map_of_mem hc)
  have hsame : isLetter c = true := by
    unfold toLowerAscii at hletter
    split_ifs at hletter with hupper
    · simp [isLetter, isUpperLetter, hupper.1, hupper.2]
    · exact hletter
  rw [isTokenChar, hsame, Bool.true_or, Bool.true_or, Bool.true_or]

theorem word_ne {word : Bytes} (hword : word.map toLowerAscii ∈ kAuthContextNeedles) :
    word ≠ [] := by
  rintro rfl
  exact absurd hword (by decide)

theorem word_not_in_marker {word : Bytes} (hword : word.map toLowerAscii ∈ kAuthContextNeedles) :
    ¬ word <:+: kRedactionMarker := by
  have hneedles : ∀ needle ∈ kAuthContextNeedles,
      ¬ needle <:+: kRedactionMarker.map toLowerAscii := by decide
  exact fun hinside => hneedles _ hword (hinside.map toLowerAscii)

/-- A keyword behind the end of a marker, in a text that starts with no run, stands clear of it. -/
theorem exists_left_of_marker {mark since left word right : Bytes}
    (hmark : mark <:+ kRedactionMarker) (hlast : mark.getLast? = some 0x2A)
    (hword : word.map toLowerAscii ∈ kAuthContextNeedles)
    (hplain : ∀ c ∈ since.head?, isTokenChar c = false)
    (h : mark ++ since = left ++ word ++ right) :
    ∃ clear, clear ≠ [] ∧ left = mark ++ clear ∧ since = clear ++ word ++ right := by
  have htoken := isTokenChar_of_mem_word hword
  have hnotFirst : ∀ behind, since ≠ word ++ behind := by
    rintro behind rfl
    obtain ⟨c, cs, hcs, hc⟩ := exists_head_of_run (word_ne hword) htoken behind
    rw [hplain c (by rw [hcs]; rfl)] at hc
    cases hc
  rcases List.append_eq_append_iff.mp h with ⟨shared, hcover, rfl⟩ | ⟨shared, rfl, -⟩
  · rcases List.append_eq_append_iff.mp hcover.symm with ⟨clear, rfl, rfl⟩ | ⟨straddle, rfl, rfl⟩
    · refine ⟨clear, ?_, rfl, rfl⟩
      rintro rfl
      exact hnotFirst right (by simp)
    · -- the marker's last byte would belong to the keyword
      cases straddle using List.reverseRecOn with
      | nil => exact absurd rfl (hnotFirst right)
      | append_singleton straddle c =>
        rw [← List.append_assoc, List.getLast?_concat, Option.some.injEq] at hlast
        exact absurd (htoken c (by simp)) (by rw [hlast]; decide)
  · refine absurd (List.IsInfix.trans ?_ hmark.isInfix) (word_not_in_marker hword)
    exact ⟨left, shared, rfl⟩

/-! ## What the second scan has behind it -/

/-- The second scan has the same bytes behind it as the first, or the same since a marker. No run
starts at that marker's end; `s` is what both scans read next. -/
def Follows (back back' s : Bytes) : Prop :=
  back = back' ∨ ∃ since old old', back = since ++ old
    ∧ back' = since ++ (kRedactionMarker.reverse ++ old')
    ∧ ∀ c ∈ (since.reverse ++ s).head?, isTokenChar c = false

theorem Follows.append {back back' piece s : Bytes} (h : Follows back back' (piece ++ s)) :
    Follows (piece.reverse ++ back) (piece.reverse ++ back') s := by
  rcases h with rfl | ⟨since, old, old', rfl, rfl, hplain⟩
  · exact .inl rfl
  · refine .inr ⟨piece.reverse ++ since, old, old', ?_, ?_, ?_⟩
    · rw [List.append_assoc]
    · rw [List.append_assoc]
    · rwa [List.reverse_append, List.reverse_reverse, List.append_assoc]

theorem Follows.head {back back' s : Bytes} (h : Follows back back' s)
    (hback : ∀ c ∈ back.head?, isTokenChar c = false) :
    ∀ c ∈ back'.head?, isTokenChar c = false := by
  rcases h with rfl | ⟨since, old, old', rfl, rfl, -⟩
  · exact hback
  · cases since with
    | nil =>
      intro c hc
      rw [List.nil_append] at hc
      obtain rfl : 0x2A = c := Option.some.inj hc
      decide
    | cons d since => exact hback

/-- A marker hides no keyword and makes none. -/
theorem authContextBefore_of_follows {back back' s : Bytes} (h : Follows back back' s)
    (hauth : authContextBefore back' = true) : authContextBefore back = true := by
  rcases h with rfl | ⟨since, old, old', rfl, rfl, hplain⟩
  · exact hauth
  · rw [authContextBefore_iff] at hauth ⊢
    obtain ⟨left, word, right, hwindow, hword, hleft, hright⟩ := hauth
    rcases Nat.lt_or_ge since.length 10 with hshort | hlong
    · have hk : 10 - since.length ≤ kRedactionMarker.reverse.length := by
        show _ ≤ 14
        omega
      rw [List.take_append, List.take_of_length_le (by omega), List.take_append_of_le_length hk,
        List.reverse_append] at hwindow
      rw [List.take_append, List.take_of_length_le (by omega), List.reverse_append]
      have hmark : (kRedactionMarker.reverse.take (10 - since.length)).reverse
          <:+ kRedactionMarker :=
        List.reverse_suffix.mpr (List.take_prefix _ kRedactionMarker.reverse)
      have hlast : (kRedactionMarker.reverse.take (10 - since.length)).reverse.getLast?
          = some 0x2A := by
        obtain ⟨n, hn⟩ : ∃ n, 10 - since.length = n + 1 := ⟨9 - since.length, by omega⟩
        rw [List.getLast?_reverse, hn]
        rfl
      have hsince : ∀ c ∈ since.reverse.head?, isTokenChar c = false := by
        intro c hc
        exact hplain c (by rw [List.head?_append, Option.mem_def.mp hc]; rfl)
      obtain ⟨clear, hclear, rfl, htext⟩ := exists_left_of_marker hmark hlast hword hsince hwindow
      refine ⟨(old.take (10 - since.length)).reverse ++ clear, word, right, ?_, hword, ?_, hright⟩
      · rw [htext, List.append_assoc, List.append_assoc, List.append_assoc]
      · rw [List.getLast?_append_of_ne_nil _ hclear] at hleft ⊢
        exact hleft
    · rw [List.take_append_of_le_length hlong] at hwindow ⊢
      exact ⟨left, word, right, hwindow, hword, hleft, hright⟩

/-! ## Redacted pieces -/

/-- How the marker itself is scanned. -/
def markerPieces : List Piece :=
  [.other 0x2A, .other 0x2A, .other 0x2A, .run (ascii "REDACTED") false, .other 0x2A, .other 0x2A,
    .other 0x2A]

/-- What the second scan finds in the place of a piece. -/
def Piece.redact : Piece → List Piece
  | .other c => [.other c]
  | .run chars hidden => if hidden then markerPieces else [.run chars false]
  | .pair kv => [.pair kv.redact]

def redactAll (pieces : List Piece) : List Piece := pieces.flatMap Piece.redact

theorem redactAll_cons (piece : Piece) (pieces : List Piece) :
    redactAll (piece :: pieces) = piece.redact ++ redactAll pieces := rfl

theorem redacted_redacted (value : Bytes) : redacted (redacted value) = redacted value := by
  cases value with
  | nil => rfl
  | cons c cs => rfl

@[simp] theorem KeyValue.redact_text (kv : KeyValue) : kv.redact.text = kv.output := rfl

@[simp] theorem KeyValue.redact_output (kv : KeyValue) : kv.redact.output = kv.output :=
  congrArg (kv.front ++ ·) (redacted_redacted kv.value)

theorem textOf_redactAll (pieces : List Piece) : textOf (redactAll pieces) = outputOf pieces := by
  induction pieces with
  | nil => rfl
  | cons piece pieces ih =>
    rw [redactAll_cons, textOf_append, outputOf_cons, ih]
    refine congrArg (· ++ outputOf pieces) ?_
    cases piece with
    | other c => rfl
    | run chars hidden =>
      cases hidden with
      | false => exact List.append_nil chars
      | true => rfl
    | pair kv => exact List.append_nil kv.output

theorem outputOf_redactAll (pieces : List Piece) :
    outputOf (redactAll pieces) = outputOf pieces := by
  induction pieces with
  | nil => rfl
  | cons piece pieces ih =>
    rw [redactAll_cons, outputOf_append, outputOf_cons, ih]
    refine congrArg (· ++ outputOf pieces) ?_
    cases piece with
    | other c => rfl
    | run chars hidden =>
      cases hidden with
      | false => exact List.append_nil chars
      | true => rfl
    | pair kv => exact (List.append_nil _).trans kv.redact_output

/-! ## The second scan -/

/-- A text that starts with no run is shown with the same first byte. -/
theorem Scanned.outputOf_head {back : Bytes} {pieces : List Piece} (h : Scanned back pieces)
    (hplain : ∀ c ∈ (textOf pieces).head?, isTokenChar c = false) :
    (outputOf pieces).head? = (textOf pieces).head? := by
  cases h with
  | nil => rfl
  | other hc hrest => rfl
  | @run _ run pieces hne hrun hback hstop hnone hrest =>
    obtain ⟨c, cs, hcs, hc⟩ := exists_head_of_run hne hrun (textOf pieces)
    rw [hplain c (by rw [textOf_cons, Piece.text, hcs]; rfl)] at hc
    cases hc
  | @pair _ kv pieces hback hfits hrest =>
    obtain ⟨c, cs, hcs, hc⟩ := kv.text_head (textOf pieces)
    rw [hplain c (by rw [textOf_cons, Piece.text, hcs]; rfl)] at hc
    cases hc

/-- Bytes in front of the output that belong to no run and to no marker stood in the text. -/
theorem Scanned.exists_behind {back : Bytes} {pieces : List Piece} (h : Scanned back pieces)
    {plain out : Bytes} (hplain : ∀ c ∈ plain, isTokenChar c = false ∧ c ≠ 0x2A)
    (hout : outputOf pieces = plain ++ out) : ∃ behind, textOf pieces = plain ++ behind := by
  induction plain generalizing back pieces with
  | nil => exact ⟨_, rfl⟩
  | cons c plain ih =>
    obtain ⟨htoken, hstar⟩ := hplain c List.mem_cons_self
    cases h with
    | nil => cases hout
    | other hc hrest =>
      obtain ⟨rfl, htail⟩ := List.cons.inj hout
      obtain ⟨behind, hbehind⟩ := ih hrest (fun d hd => hplain d (List.mem_cons_of_mem _ hd)) htail
      exact ⟨behind, congrArg (_ :: ·) hbehind⟩
    | @run _ run pieces hne hrun hback hstop hnone hrest =>
      rw [outputOf_cons, Piece.output] at hout
      split_ifs at hout
      · exact absurd (List.cons.inj hout).1.symm hstar
      · obtain ⟨d, ds, hds, hd⟩ := exists_head_of_run hne hrun (outputOf pieces)
        rw [hds] at hout
        rw [(List.cons.inj hout).1, htoken] at hd
        cases hd
    | @pair _ kv pieces hback hfits hrest =>
      obtain ⟨d, ds, hds, hd⟩ := kv.redact.text_head (outputOf pieces)
      rw [outputOf_cons, Piece.output, ← KeyValue.redact_text, hds] at hout
      rw [(List.cons.inj hout).1, htoken] at hd
      cases hd

/-- A run that is no sensitive key is none in front of another text either, if no more of that text
can be the rest of a key than of the first. -/
theorem tryKeyValue_eq_none_of_behind {run text text' : Bytes}
    (hrun : ∀ c ∈ run, isTokenChar c = true) (hstop : ∀ c ∈ text'.head?, isTokenChar c = false)
    (hbehind : ∀ plain out : Bytes, (∀ c ∈ plain, isTokenChar c = false ∧ c ≠ 0x2A) →
      text' = plain ++ out → ∃ behind, text = plain ++ behind)
    (hnone : tryKeyValue (run ++ text) = none) : tryKeyValue (run ++ text') = none := by
  by_contra hfound
  obtain ⟨k, out, htext⟩ := exists_sensitiveKey (Option.isSome_iff_ne_none.mpr hfound)
  rw [SensitiveKey.text, List.append_assoc] at htext
  obtain ⟨rfl, hout⟩ := append_inj_of_stop (P := (isTokenChar · = true)) hrun k.key_token
    (fun c hc => by simp [hstop c hc]) (fun c hc => by simp [k.link_head out c hc]) htext
  obtain ⟨behind, rfl⟩ := hbehind _ _ k.link_plain hout
  have hsome := k.tryKeyValue_isSome behind
  rw [SensitiveKey.text, List.append_assoc, hnone] at hsome
  cases hsome

/-- A run that is no sensitive key is none in front of the scrubbed text. -/
theorem Scanned.tryKeyValue_eq_none {back run : Bytes} {pieces : List Piece}
    (h : Scanned back pieces) (hrun : ∀ c ∈ run, isTokenChar c = true)
    (hstop : ∀ c ∈ (textOf pieces).head?, isTokenChar c = false)
    (hnone : tryKeyValue (run ++ textOf pieces) = none) :
    tryKeyValue (run ++ outputOf pieces) = none := by
  refine tryKeyValue_eq_none_of_behind hrun ?_ (fun plain out hplain hout => ?_) hnone
  · rwa [h.outputOf_head hstop]
  · exact h.exists_behind hplain hout

def KeyValue.withValue (kv : KeyValue) (value : Bytes) : KeyValue := { kv with value := value }

/-- Another value ends where the value ended, if it brings only the marker in. -/
theorem KeyValue.Fits.withValue {kv : KeyValue} {rest rest' value : Bytes} (h : kv.Fits rest)
    (hvalue : ∀ c ∈ value, c ∈ kv.value ∨ c ∈ kRedactionMarker)
    (hhead : rest'.head? = rest.head?)
    (hfirst : ∀ c ∈ (value ++ rest').head?,
      c ∈ (kv.value ++ rest).head? ∨ c ∈ kRedactionMarker) :
    (kv.withValue value).Fits rest' := by
  have hmarker : ∀ c ∈ kRedactionMarker,
      isValueDelim c = false ∧ isSpace c = false ∧ isQuote c = false := by decide
  refine ⟨fun c hc => ?_, fun c hc => ?_, fun hnone c hc => ?_⟩
  · rcases hvalue c hc with hsame | hmark
    · exact h.inside c hsame
    · have hc := hmarker c hmark
      show kv.ends c = false
      unfold KeyValue.ends
      cases hopening : kv.opening with
      | none => exact hc.1
      | some quote =>
        refine beq_eq_false_iff_ne.mpr ?_
        rintro rfl
        rw [kv.opening_quote c hopening] at hc
        cases hc.2.2
  · exact h.stop c (hhead ▸ hc)
  · rcases hfirst c hc with hsame | hmark
    · exact h.unquoted hnone c hsame
    · exact (hmarker c hmark).2

/-- A marker ends where the value ended. -/
theorem KeyValue.Fits.redact {kv : KeyValue} {rest rest' : Bytes} (h : kv.Fits rest)
    (hhead : rest'.head? = rest.head?) : kv.redact.Fits rest' := by
  have hcases : redacted kv.value = kv.value ∨ redacted kv.value = kRedactionMarker := by
    unfold redacted
    split_ifs with hvalue
    · exact .inl hvalue.symm
    · exact .inr rfl
  refine h.withValue (fun c hc => ?_) hhead fun c hc => ?_
  · rcases hcases with hsame | hmark
    · exact .inl (hsame ▸ hc)
    · exact .inr (hmark ▸ hc)
  · rcases hcases with hsame | hmark
    · left
      rw [List.head?_append, ← hhead, ← List.head?_append, ← hsame]
      exact hc
    · right
      rw [hmark, List.head?_append_of_ne_nil _ (by decide)] at hc
      exact List.mem_of_mem_head? hc

/-- A run that is shown stays so. -/
theorem isHidden_of_follows {back back' s run : Bytes} (h : Follows back back' s)
    (hshown : isHidden back run = false) : isHidden back' run = false := by
  cases hauth : authContextBefore back' with
  | false =>
    rw [isHidden, Bool.or_eq_false_iff] at hshown ⊢
    exact ⟨hshown.1, by rw [hauth, Bool.and_false]⟩
  | true =>
    rw [isHidden, authContextBefore_of_follows h hauth] at hshown
    rwa [isHidden, hauth]

theorem Scanned.run_shown {back run : Bytes} {pieces : List Piece} (hne : run ≠ [])
    (hrun : ∀ c ∈ run, isTokenChar c = true) (hback : ∀ c ∈ back.head?, isTokenChar c = false)
    (hstop : ∀ c ∈ (textOf pieces).head?, isTokenChar c = false)
    (hnone : tryKeyValue (run ++ textOf pieces) = none) (hshown : isHidden back run = false)
    (hrest : Scanned (run.reverse ++ back) pieces) : Scanned back (.run run false :: pieces) := by
  have hpieces := Scanned.run hne hrun hback hstop hnone hrest
  rwa [hshown] at hpieces

/-- The second scan reads a marker in rounds of its own. -/
theorem scanned_markerPieces {back : Bytes} {pieces : List Piece}
    (h : Scanned (kRedactionMarker.reverse ++ back) pieces) :
    Scanned back (markerPieces ++ pieces) := by
  have hclosing : Scanned ((ascii "REDACTED").reverse ++ 0x2A :: 0x2A :: 0x2A :: back)
      (.other 0x2A :: .other 0x2A :: .other 0x2A :: pieces) :=
    .other (by decide) (.other (by decide) (.other (by decide) h))
  have hword : Scanned (0x2A :: 0x2A :: 0x2A :: back) (.run (ascii "REDACTED") false
      :: .other 0x2A :: .other 0x2A :: .other 0x2A :: pieces) := by
    refine .run_shown (by decide) (by decide) ?_ ?_ ?_ ?_ hclosing
    · rintro c ⟨⟩
      decide
    · rintro c ⟨⟩
      decide
    · refine tryKeyValue_of_not_sensitive (by decide) ?_ (by decide)
      rintro c ⟨⟩
      decide
    · rfl
  exact .other (by decide) (.other (by decide) (.other (by decide) hword))

/-- What the second scan has behind it after a pair. -/
theorem Follows.pair {back back' rest : Bytes} {kv : KeyValue}
    (h : Follows back back' (kv.text ++ rest)) (hfits : kv.Fits rest) :
    Follows (kv.text.reverse ++ back) (kv.output.reverse ++ back') rest := by
  by_cases hvalue : kv.value = []
  · rw [KeyValue.output, hvalue, show redacted [] = kv.value from hvalue.symm]
    exact h.append
  · refine .inr ⟨[], kv.text.reverse ++ back, kv.front.reverse ++ back', rfl, ?_, hfits.stop_plain⟩
    rw [KeyValue.output, redacted, if_neg hvalue, List.reverse_append, List.append_assoc]
    rfl

/-- **The second scan cuts the output into the redacted pieces of the first.** -/
theorem Scanned.redact {back back' : Bytes} {pieces : List Piece} (h : Scanned back pieces)
    (hfollows : Follows back back' (textOf pieces)) : Scanned back' (redactAll pieces) := by
  induction h generalizing back' with
  | nil => exact .nil
  | other hc hrest ih =>
    exact .other hc (ih (Follows.append hfollows))
  | @run back run pieces hne hrun hback hstop hnone hrest ih =>
    rw [redactAll_cons, Piece.redact]
    split_ifs with hhidden
    · exact scanned_markerPieces (ih (.inr ⟨[], _, back', rfl, rfl, hstop⟩))
    · rw [List.singleton_append]
      refine .run_shown hne hrun (hfollows.head hback) ?_ ?_
        (isHidden_of_follows hfollows (Bool.eq_false_of_not_eq_true hhidden)) (ih hfollows.append)
      · rw [textOf_redactAll, hrest.outputOf_head hstop]
        exact hstop
      · rw [textOf_redactAll]
        exact hrest.tryKeyValue_eq_none hrun hstop hnone
  | @pair back kv pieces hback hfits hrest ih =>
    rw [redactAll_cons, Piece.redact, List.singleton_append]
    refine .pair (hfollows.head hback) (hfits.redact ?_) (ih (hfollows.pair hfits))
    rw [textOf_redactAll, hrest.outputOf_head hfits.stop_plain]

theorem Scanned.scrub_outputOf {pieces : List Piece} (h : Scanned [] pieces) :
    scrub (outputOf pieces) = outputOf pieces := by
  have hagain := (h.redact (.inl rfl)).scrub_textOf
  rwa [textOf_redactAll, outputOf_redactAll] at hagain

/-- **Scrubbing twice is scrubbing once.** -/
theorem scrub_idempotent (text : Bytes) : scrub (scrub text) = scrub text := by
  obtain ⟨pieces, rfl, hpieces, hscrub⟩ := exists_pieces text
  rw [hscrub, hpieces.scrub_outputOf]

end BrokerExec.Domain
