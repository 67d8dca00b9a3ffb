import BrokerExec.Observability.Sentinels

/-!
# Provenance in the rendered line (`observability/structured_logger.cpp`)

The scrub keeps a sentinel and its key as they are, unless a sensitive key somewhere in front of
them has a value in single quotes that is still open: such a value is hidden up to the next single
quote, with every column on the way.

* **`provenance_kept_iff`** — every preserved column is back in the line, without the fallback,
  exactly when no single-quoted value is open at any of them.
-/

namespace BrokerExec.Observability

open BrokerExec.Domain (LeftOpen Piece Scanned cut_iff exists_pieces exists_sensitiveKey
  infix_of_outputOf infix_around_marker isHidden isOpener isQuote isSpace isTokenChar isUpperLetter
  kRedactionMarker outputOf outputOf_append redacted runHasLetterAndDigit runIsAllDigits scrub
  singleQuote textOf textOf_append tryKeyValue tryKeyValue_of_not_sensitive)

variable {sentinels : Sentinels} {ev : AuditEvent} {column : ProvenanceColumn}

/-! ## The rounds over a preserved column -/

theorem renderedPair_eq (key : String) (value : Bytes) : renderedPair key value
    = 0x22 :: (ascii key ++ 0x22 :: 0x3A :: 0x22 :: (value ++ [0x22])) := by
  simp [renderedPair, show ascii "\":\"" = [0x22, 0x3A, 0x22] by decide]

theorem isTokenChar_of_isUpperLetter {c : UInt8} (h : isUpperLetter c = true) :
    isTokenChar c = true := by
  simp [isTokenChar, Domain.isLetter, h]

/-- A sentinel has no digit, so it is never hidden. -/
theorem not_isHidden_sentinel (back : Bytes) :
    isHidden back (sentinels.sentinel column) = false := by
  have hdigit : ∀ c ∈ sentinels.sentinel column, isDigit c = false := by
    intro c hc
    have hupper := isUpperLetter_sentinel sentinels column c hc
    simp only [isUpperLetter, Bool.and_eq_true, decide_eq_true_eq] at hupper
    refine Bool.eq_false_of_not_eq_true fun hdigit => ?_
    simp only [isDigit, Bool.and_eq_true, decide_eq_true_eq] at hdigit
    exact absurd (le_trans hupper.1 hdigit.2) (by decide)
  have hmixed : runHasLetterAndDigit (sentinels.sentinel column) = false := by
    rw [runHasLetterAndDigit, Bool.and_eq_false_iff]
    exact .inr (List.any_eq_false.mpr fun c hc => by simp [hdigit c hc])
  have hdigits : runIsAllDigits (sentinels.sentinel column) = false := by
    rw [runIsAllDigits, sentinel_eq]
    rfl
  simp [isHidden, hmixed, hdigits]

/-- **A round that starts at a preserved column copies it.** -/
theorem exists_pair_rounds {back : Bytes} {qs : List Piece} (h : Scanned back qs) {c : UInt8}
    {t : Bytes} (hc : isOpener c = true ∨ c = 0x7D)
    (htext : textOf qs = renderedPair column.key (sentinels.sentinel column) ++ c :: t) :
    ∃ bs qs', qs = bs ++ qs' ∧ textOf bs = renderedPair column.key (sentinels.sentinel column)
      ∧ outputOf bs = renderedPair column.key (sentinels.sentinel column)
      ∧ textOf qs' = c :: t := by
  have hkeyToken : ∀ c ∈ ascii column.key, isTokenChar c = true := by cases column <;> decide
  have hkeyNe : ascii column.key ≠ [] := by cases column <;> decide
  have hkeyPlain : Domain.keyIsSensitive (ascii column.key) = false := by
    cases column <;> decide +kernel
  have hkeyShown : ∀ back, isHidden back (ascii column.key) = false := by
    intro back
    have hmixed : runHasLetterAndDigit (ascii column.key) = false := by cases column <;> decide
    have hdigits : runIsAllDigits (ascii column.key) = false := by cases column <;> decide
    simp [isHidden, hmixed, hdigits]
  have hplain : isSpace c = false ∧ c ≠ 0x3A ∧ c ≠ 0x3D := by
    simp only [isOpener, Bool.or_eq_true, beq_iff_eq] at hc
    rcases hc with (rfl | rfl) | rfl <;> decide
  have hsentinelToken : ∀ c ∈ sentinels.sentinel column, isTokenChar c = true := fun c hc =>
    isTokenChar_of_isUpperLetter (isUpperLetter_sentinel sentinels column c hc)
  rw [renderedPair_eq] at htext
  -- the quote, the key, its quote, the colon, the quote, the sentinel, its quote
  obtain ⟨qs₁, rfl, htext, h⟩ := h.other_head htext (by decide)
  obtain ⟨qs₂, rfl, htext, h⟩ := h.run_head (t := 0x22 :: 0x3A :: 0x22
    :: (sentinels.sentinel column ++ 0x22 :: c :: t)) (by simpa using htext) hkeyNe hkeyToken
    (fun d hd => by
      obtain rfl := Option.some.inj hd
      decide)
    (tryKeyValue_of_not_sensitive hkeyToken
      (fun d hd => by
        obtain rfl := Option.some.inj hd
        decide) hkeyPlain)
  obtain ⟨qs₃, rfl, htext, h⟩ := h.other_head htext (by decide)
  obtain ⟨qs₄, rfl, htext, h⟩ := h.other_head htext (by decide)
  obtain ⟨qs₅, rfl, htext, h⟩ := h.other_head htext (by decide)
  obtain ⟨qs₆, rfl, htext, h⟩ := h.run_head htext (sentinel_ne sentinels column) hsentinelToken
    (fun d hd => by
      obtain rfl := Option.some.inj hd
      decide)
    (Domain.tryKeyValue_of_closed hsentinelToken hplain.1 hplain.2)
  obtain ⟨qs₇, rfl, htext, -⟩ := h.other_head htext (by decide)
  refine ⟨_ :: _ :: _ :: _ :: _ :: _ :: [_], qs₇, rfl, ?_, ?_, htext⟩
  · rw [renderedPair_eq]
    simp [Piece.text]
  · rw [renderedPair_eq]
    simp [Piece.output, hkeyShown, not_isHidden_sentinel]

/-! ## Lines with columns in them -/

/-- Texts with the pair of a column behind each, and a last text. -/
def weave (value : ProvenanceColumn → Bytes) : List (Bytes × ProvenanceColumn) → Bytes → Bytes
  | [], tail => tail
  | (text, column) :: parts, tail =>
    text ++ (renderedPair column.key (value column) ++ weave value parts tail)

section

variable {value value' : ProvenanceColumn → Bytes} {parts parts' : List (Bytes × ProvenanceColumn)}
  {tail text : Bytes}

theorem weave_split (column : ProvenanceColumn) :
    weave value (parts ++ (text, column) :: parts') tail = weave value parts text
      ++ (renderedPair column.key (value column) ++ weave value parts' tail) := by
  induction parts with
  | nil => rfl
  | cons part parts ih => simp [weave, ih]

theorem weave_congr (h : ∀ part ∈ parts, value part.2 = value' part.2) :
    weave value parts tail = weave value' parts tail := by
  induction parts with
  | nil => rfl
  | cons part parts ih =>
    rw [weave, weave, h part (by simp), ih fun p hp => h p (by simp [hp])]

/-- A sentinel in a pair stands in its value. -/
theorem infix_around_pair {key : String} (hkey : 0x50 ∉ ascii key) {a b v : Bytes}
    (h : sentinels.sentinel column <:+: a ++ (renderedPair key v ++ b)) :
    sentinels.sentinel column <:+: a ∨ sentinels.sentinel column <:+: v
      ∨ sentinels.sentinel column <:+: b := by
  have hw := isUpperLetter_sentinel sentinels column
  have hquote : isUpperLetter 0x22 = false := by decide
  rw [renderedPair_eq, List.cons_append] at h
  rcases infix_append_cons hw hquote h with h | h
  · exact .inl h
  rw [show ascii key ++ 0x22 :: 0x3A :: 0x22 :: (v ++ [0x22]) ++ b
    = (ascii key ++ [0x22, 0x3A]) ++ 0x22 :: (v ++ 0x22 :: b) by simp] at h
  rcases infix_append_cons hw hquote h with h | h
  · refine absurd h (not_infix_of_no_p ?_)
    simp [hkey]
  · exact .inr (infix_append_cons hw hquote h)

theorem not_p_of_key (column : ProvenanceColumn) : 0x50 ∉ ascii column.key := by
  cases column <;> decide

theorem not_infix_weave (hparts : ∀ part ∈ parts, ¬ sentinels.sentinel column <:+: part.1)
    (hvalues : ∀ part ∈ parts, ¬ sentinels.sentinel column <:+: value part.2)
    (htail : ¬ sentinels.sentinel column <:+: tail) :
    ¬ sentinels.sentinel column <:+: weave value parts tail := by
  induction parts with
  | nil => exact htail
  | cons part parts ih =>
    intro hmet
    rcases infix_around_pair (not_p_of_key part.2) hmet with hmet | hmet | hmet
    · exact hparts part (by simp) hmet
    · exact hvalues part (by simp) hmet
    · exact ih (fun p hp => hparts p (by simp [hp])) (fun p hp => hvalues p (by simp [hp])) hmet

/-- **The sentinel of a column is found in its own place.** -/
theorem replaceFirst_weave (hmem : column ∈ parts.map Prod.snd)
    (hnodup : (parts.map Prod.snd).Nodup)
    (hparts : ∀ part ∈ parts, ¬ sentinels.sentinel column <:+: part.1)
    (hvalue : value column = sentinels.sentinel column)
    (hothers : ∀ column', column' ≠ column → ¬ sentinels.sentinel column <:+: value column')
    (v : Bytes) :
    replaceFirst (renderedPair column.key (sentinels.sentinel column)) (renderedPair column.key v)
        (weave value parts tail)
      = some (weave (Function.update value column v) parts tail) := by
  obtain ⟨⟨text, column'⟩, hpart, rfl⟩ := List.mem_map.mp hmem
  obtain ⟨front, back, rfl⟩ := List.append_of_mem hpart
  rw [List.map_append, List.map_cons, List.nodup_append, List.nodup_cons] at hnodup
  obtain ⟨-, ⟨hback, -⟩, hfront⟩ := hnodup
  have hfrontNe : ∀ part ∈ front, part.2 ≠ column' := fun part hp =>
    hfront _ (List.mem_map_of_mem hp) _ List.mem_cons_self
  have hbackNe : ∀ part ∈ back, part.2 ≠ column' := by
    intro part hp hsame
    refine hback ?_
    show column' ∈ back.map Prod.snd
    rw [← hsame]
    exact List.mem_map_of_mem hp
  have hkeep : ∀ ps : List (Bytes × ProvenanceColumn), (∀ part ∈ ps, part.2 ≠ column') →
      ∀ tail, weave (Function.update value column' v) ps tail = weave value ps tail := by
    intro ps hps tail
    exact weave_congr fun part hp => Function.update_of_ne (hps part hp) ..
  rw [weave_split, weave_split, hkeep front hfrontNe, hkeep back hbackNe, Function.update_self,
    hvalue]
  have hpattern : renderedPair column'.key (sentinels.sentinel column')
      = 0x22 :: ((ascii column'.key ++ [0x22, 0x3A]) ++ 0x22 :: (sentinels.sentinel column'
        ++ [0x22])) := by
    rw [renderedPair_eq]
    simp
  refine replaceFirst_of_word (isUpperLetter_sentinel sentinels column') hpattern
    (sentinel_ne sentinels column') (by decide) (by decide) ?_ ?_
  · exact not_infix_weave (fun part hp => hparts part (List.mem_append_left _ hp))
      (fun part hp => hothers _ (hfrontNe part hp)) (hparts _ hpart)
  · refine not_infix_of_no_p ?_
    simp [not_p_of_key]

/-- **The columns are put back one by one.** -/
theorem spliceColumns_weave (hfree : SentinelFree sentinels ev)
    (hnodup : (parts.map Prod.snd).Nodup)
    (hparts : ∀ column, ∀ part ∈ parts, ¬ sentinels.sentinel column <:+: part.1)
    (columns : List ProvenanceColumn) (hcolumns : columns.Nodup)
    (hpreserved : ∀ column ∈ columns, isPreserved ev column = true →
      column ∈ parts.map Prod.snd ∧ value column = sentinels.sentinel column)
    (hshaped : ∀ part ∈ parts, isPreserved ev part.2 = true)
    (hvalues : ∀ column,
      value column = sentinels.sentinel column ∨ value column = column.member ev) :
    spliceColumns sentinels ev columns (weave value parts tail)
      = some (weave (fun column =>
          if column ∈ columns then column.member ev else value column) parts tail) := by
  induction columns generalizing value with
  | nil => simp [spliceColumns]
  | cons column columns ih =>
    obtain ⟨hfresh, hrest⟩ := List.nodup_cons.mp hcolumns
    unfold spliceColumns
    by_cases hcolumn : isPreserved ev column = true
    · obtain ⟨hmem, hvalue⟩ := hpreserved column (by simp) hcolumn
      have hothers : ∀ column', column' ≠ column →
          ¬ sentinels.sentinel column <:+: value column' := by
        intro column' hne
        rcases hvalues column' with hsentinel | hmember
        · rw [hsentinel]
          exact not_infix_sentinel (Ne.symm hne)
        · rw [hmember]
          exact hfree.member column column'
      rw [if_pos hcolumn, replaceFirst_weave hmem hnodup (hparts column) hvalue hothers]
      dsimp only
      rw [ih hrest]
      · refine congrArg some (weave_congr fun part _ => ?_)
        by_cases hlater : part.2 ∈ columns
        · rw [if_pos hlater, if_pos (List.mem_cons_of_mem _ hlater)]
        · by_cases hsame : part.2 = column
          · rw [if_neg hlater, if_pos (by simp [hsame]), hsame, Function.update_self]
          · rw [if_neg hlater, if_neg (by simp [hsame, hlater]), Function.update_of_ne hsame]
      · intro column' hmem' hpreserved'
        obtain ⟨hmem', hvalue'⟩ := hpreserved column' (by simp [hmem']) hpreserved'
        refine ⟨hmem', ?_⟩
        rw [Function.update_of_ne, hvalue']
        rintro rfl
        exact hfresh ‹_›
      · intro column'
        by_cases hsame : column' = column
        · rw [hsame, Function.update_self]
          exact .inr rfl
        · rw [Function.update_of_ne hsame]
          exact hvalues column'
    · rw [if_neg hcolumn, ih hrest (fun column' hmem' => hpreserved column' (by simp [hmem']))
        hvalues]
      refine congrArg some (weave_congr fun part hp => ?_)
      have hne : part.2 ≠ column := by
        rintro rfl
        exact hcolumn (hshaped part hp)
      simp [hne]

end

/-! ## The scrubbed line -/

theorem behindOf_eq (ev : AuditEvent) (column : ProvenanceColumn) :
    ∃ c t, behindOf ev column = c :: t ∧ (isOpener c = true ∨ c = 0x7D) := by
  unfold behindOf
  cases column.after ev with
  | nil => exact ⟨0x7D, [], rfl, .inr rfl⟩
  | cons m ms => exact ⟨0x2C, _, rfl, .inl (by decide)⟩

/-- **The scrub copies the columns at which no single-quoted value is open.** -/
theorem exists_weave (hfree : SentinelFree sentinels ev)
    (hclosed : ∀ column, isPreserved ev column = true →
      ¬ LeftOpen (frontOf (swap sentinels ev) column))
    (columns : List ProvenanceColumn) (hpreserved : ∀ column ∈ columns, isPreserved ev column = true)
    (horder : columns.Pairwise (Precedes (swap sentinels ev))) {first pieces : List Piece}
    (h : Scanned [] (first ++ pieces))
    (htext : textOf (first ++ pieces) = toJsonLine (swap sentinels ev))
    (hfirst : ∀ column ∈ columns, textOf first <+: frontOf (swap sentinels ev) column)
    (hdone : ∀ column, column ∉ columns → ¬ sentinels.sentinel column <:+: textOf pieces) :
    ∃ parts tail, outputOf pieces = weave sentinels.sentinel parts tail
      ∧ parts.map Prod.snd = columns
      ∧ (∀ column, ∀ part ∈ parts, ¬ sentinels.sentinel column <:+: part.1)
      ∧ ∀ column, ¬ sentinels.sentinel column <:+: tail := by
  have hscrub : ∀ (ps : List Piece) column, ¬ sentinels.sentinel column <:+: textOf ps →
      ¬ sentinels.sentinel column <:+: outputOf ps := by
    intro ps column hps hmet
    exact hps (infix_of_outputOf (isUpperLetter_sentinel sentinels column) not_infix_marker ps []
      hmet)
  induction columns generalizing first pieces with
  | nil =>
    exact ⟨[], outputOf pieces, rfl, rfl, by simp, fun column =>
      hscrub pieces column (hdone column (by simp))⟩
  | cons column columns ih =>
    have hcolumn := hpreserved column (by simp)
    obtain ⟨hprecedes, horder⟩ := List.pairwise_cons.mp horder
    obtain ⟨text, hfront⟩ := hfirst column (by simp)
    obtain ⟨c, t, hbehind, hc⟩ := behindOf_eq (swap sentinels ev) column
    have hline := htext.trans (toJsonLine_swap hcolumn)
    -- a round starts at the column
    have hquote : textOf (first ++ pieces) = frontOf (swap sentinels ev) column
        ++ 0x22 :: (ascii column.key ++ 0x22 :: 0x3A :: 0x22
          :: (sentinels.sentinel column ++ [0x22]) ++ behindOf (swap sentinels ev) column) := by
      rw [hline, renderedPair_eq]
      rfl
    obtain ⟨ps, qs, hcut, hps⟩ := (cut_iff h hquote getLast?_frontOf).mpr (hclosed column hcolumn)
    obtain ⟨ps, rfl, rfl⟩ := h.cut_behind hcut (hps.trans hfront.symm)
    have hbehindText : textOf qs = renderedPair column.key (sentinels.sentinel column)
        ++ behindOf (swap sentinels ev) column := by
      rwa [textOf_append, textOf_append, ← List.append_assoc, hfront, List.append_right_inj]
        at hline
    rw [← List.append_assoc] at h htext
    rw [hbehind] at hbehindText
    obtain ⟨bs, rest, rfl, hbsText, hbsOutput, hrest⟩ :=
      exists_pair_rounds h.of_append hc hbehindText
    rw [← hbehind] at hrest
    rw [← List.append_assoc] at h htext
    obtain ⟨parts, tail, hweave, hcolumns, hparts, htail⟩ := ih
      (fun column' hmem => hpreserved column' (by simp [hmem])) horder h htext
      (fun column' hmem => by
        rw [textOf_append, textOf_append, hfront, hbsText]
        exact prefix_frontOf_swap (hprecedes column' hmem) hcolumn)
      (fun column' hmem => by
        by_cases hsame : column' = column
        · rw [hsame, hrest]
          exact not_infix_behindOf hfree hcolumn
        · refine fun hmet => hdone column' (by simp [hsame, hmem]) (hmet.trans ?_)
          exact ⟨textOf ps ++ textOf bs, [], by simp⟩)
    refine ⟨(outputOf ps, column) :: parts, tail, ?_, by rw [List.map_cons, hcolumns], ?_, htail⟩
    · rw [outputOf_append, outputOf_append, hbsOutput, hweave]
      rfl
    · intro column' part hpart
      rcases List.mem_cons.mp hpart with rfl | hpart
      · refine hscrub ps column' fun hmet => ?_
        by_cases hmem : column' ∈ column :: columns
        · -- the text in front of the column is in front of the later ones too
          refine not_infix_frontOf hfree (hpreserved column' hmem) (hmet.trans ?_)
          have hsuffix : textOf ps <:+: frontOf (swap sentinels ev) column :=
            ⟨textOf first, [], by rw [List.append_nil, hfront]⟩
          rcases List.mem_cons.mp hmem with rfl | hlater
          · exact hsuffix
          · exact hsuffix.trans ((List.prefix_append ..).trans
              (prefix_frontOf_swap (hprecedes column' hlater) hcolumn)).isInfix
        · refine hdone column' hmem (hmet.trans ⟨[], textOf bs ++ textOf rest, by simp⟩)
      · exact hparts column' part hpart

/-- **A single-quoted value that is open at a column hides its sentinel.** -/
theorem not_infix_of_leftOpen (hfree : SentinelFree sentinels ev)
    (hcolumn : isPreserved ev column = true)
    (hopen : LeftOpen (frontOf (swap sentinels ev) column)) :
    ¬ sentinels.sentinel column <:+: scrubbedLine (swap sentinels ev) := by
  have hw := isUpperLetter_sentinel sentinels column
  obtain ⟨pieces, htext, h, hscrub⟩ := exists_pieces (toJsonLine (swap sentinels ev))
  rw [toJsonLine_swap hcolumn, renderedPair_eq] at htext
  rcases h.cut htext getLast?_frontOf with
    hround | ⟨ps, kv, qs, v, v', rfl, hopening, hfront, hvalue⟩
  · exact absurd hopen ((cut_iff h htext getLast?_frontOf).mp hround)
  rw [← renderedPair_eq] at htext
  have hfits : kv.Fits (textOf qs) := by
    cases h.of_append with
    | pair hback hfits hrest => exact hfits
  have hquote : singleQuote ∉ renderedPair column.key (sentinels.sentinel column) := by
    have hkey : singleQuote ∉ ascii column.key := by cases column <;> decide
    have hsentinel : singleQuote ∉ sentinels.sentinel column := fun hmem =>
      absurd (hw _ hmem) (by decide)
    rw [renderedPair_eq]
    simp [hkey, hsentinel, show singleQuote ≠ 0x22 by decide, show singleQuote ≠ 0x3A by decide]
  -- the value goes on behind the column
  have hreach : (v ++ renderedPair column.key (sentinels.sentinel column))
      ++ behindOf (swap sentinels ev) column = kv.value ++ textOf qs := by
    have hline : (textOf ps ++ kv.front) ++ (kv.value ++ textOf qs)
        = (textOf ps ++ kv.front) ++ (v ++ (renderedPair column.key (sentinels.sentinel column)
          ++ behindOf (swap sentinels ev) column)) := by
      rw [textOf_append, Domain.textOf_cons, Piece.text, Domain.KeyValue.text, hfront] at htext
      simpa only [List.append_assoc] using htext
    rw [List.append_assoc]
    exact (List.append_cancel_left hline).symm
  rw [scrubbedLine, hscrub]
  intro hmet
  have hbehind : textOf qs <:+: behindOf (swap sentinels ev) column := by
    rcases append_cases hreach with ⟨tail, -, hbehind⟩ | ⟨shared, hshared, hpair, hqs⟩
    · exact ⟨tail, [], by simp [hbehind]⟩
    · exfalso
      obtain ⟨d, shared, rfl⟩ := List.exists_cons_of_ne_nil hshared
      rw [hvalue, List.append_assoc, List.append_right_inj] at hpair
      have hstop := hfits.stop d (by rw [hqs]; rfl)
      rw [Domain.KeyValue.ends, hopening] at hstop
      obtain rfl := eq_of_beq hstop
      refine hquote ?_
      rw [hpair]
      simp
  have hvalueNe : kv.value ≠ [] := by
    rw [hvalue]
    simp
  rw [outputOf_append, Domain.outputOf_cons, Piece.output, Domain.KeyValue.output, redacted,
    if_neg hvalueNe, List.append_assoc, ← List.append_assoc] at hmet
  rcases infix_around_marker hw not_infix_marker hmet with hmet | hmet
  · have hshown : outputOf ps ++ kv.front = outputOf (ps ++ [.pair { kv with value := [] }]) := by
      simp [Piece.output, Domain.KeyValue.output, Domain.KeyValue.front, Domain.KeyValue.gap,
        redacted]
    rw [hshown] at hmet
    have hread := infix_of_outputOf hw not_infix_marker _ [] hmet
    refine not_infix_frontOf hfree hcolumn (hread.trans ⟨[], v, ?_⟩)
    simp [hfront, Piece.text, Domain.KeyValue.text, Domain.KeyValue.front, Domain.KeyValue.gap]
  · have hread := infix_of_outputOf hw not_infix_marker qs [] hmet
    exact not_infix_behindOf hfree hcolumn (hread.trans hbehind)

/-- A column is only put back where its sentinel was. -/
theorem infix_of_spliceColumns (hfree : SentinelFree sentinels ev)
    (hcolumn : isPreserved ev column = true) {columns : List ProvenanceColumn} {line out : Bytes}
    (hmem : column ∈ columns) (h : spliceColumns sentinels ev columns line = some out) :
    sentinels.sentinel column <:+: line := by
  induction columns generalizing line with
  | nil => cases hmem
  | cons column' columns ih =>
    unfold spliceColumns at h
    split at h
    · cases hreplaced : replaceFirst (renderedPair column'.key (sentinels.sentinel column'))
          (renderedPair column'.key (column'.member ev)) line with
      | none => simp [hreplaced] at h
      | some line' =>
        simp only [hreplaced] at h
        obtain ⟨a, b, rfl, rfl⟩ := replaceFirst_eq_some hreplaced
        rcases List.mem_cons.mp hmem with rfl | hlater
        · refine ⟨a ++ 0x22 :: (ascii column.key ++ [0x22, 0x3A, 0x22]), 0x22 :: b, ?_⟩
          rw [renderedPair_eq]
          simp
        · have hbefore := ih hlater h
          rw [List.append_assoc] at hbefore ⊢
          rcases infix_around_pair (not_p_of_key column') hbefore with hmet | hmet | hmet
          · exact hmet.trans (List.prefix_append ..).isInfix
          · exact absurd hmet (hfree.member column column')
          · exact hmet.trans ⟨a ++ renderedPair column'.key (sentinels.sentinel column'), [],
              by simp⟩
    · next hother =>
      rcases List.mem_cons.mp hmem with rfl | hlater
      · exact absurd hcolumn hother
      · exact ih hlater h

/-- The line with every preserved column back in its place. -/
theorem exists_spliced (hfree : SentinelFree sentinels ev)
    (hclosed : ∀ column, isPreserved ev column = true →
      ¬ LeftOpen (frontOf (swap sentinels ev) column)) :
    ∃ line, spliced sentinels ev = some line ∧ ∀ column, isPreserved ev column = true →
      renderedPair column.key (column.member ev) <:+: line := by
  obtain ⟨pieces, htext, h, hscrub⟩ := exists_pieces (toJsonLine (swap sentinels ev))
  have hdone : ∀ column, column ∉ lineOrder.filter (isPreserved ev) →
      ¬ sentinels.sentinel column <:+: textOf pieces := by
    intro column hmem
    rw [htext]
    refine not_infix_toJsonLine hfree (Bool.eq_false_of_not_eq_true fun hpreserved => hmem ?_)
    exact List.mem_filter.mpr ⟨mem_lineOrder column, hpreserved⟩
  obtain ⟨parts, tail, hweave, hcolumns, hparts, htail⟩ := @exists_weave sentinels ev hfree hclosed
    (lineOrder.filter (isPreserved ev)) (fun column hmem => (List.mem_filter.mp hmem).2)
    ((pairwise_lineOrder _).filter _) [] pieces h htext (fun _ _ => List.nil_prefix) hdone
  have hmem : ∀ column, column ∈ parts.map Prod.snd ↔ isPreserved ev column = true := by
    intro column
    rw [hcolumns, List.mem_filter]
    exact and_iff_right (mem_lineOrder column)
  have hnodup : (parts.map Prod.snd).Nodup := by
    rw [hcolumns]
    exact List.filter_sublist.nodup (by decide)
  have hall : ∀ column, column ∈ kProvenanceColumns := by
    intro column
    cases column <;> decide
  have hsplice : spliceColumns sentinels ev kProvenanceColumns (scrubbedLine (swap sentinels ev))
      = some (weave (fun column => column.member ev) parts tail) := by
    rw [scrubbedLine, hscrub, hweave, spliceColumns_weave hfree hnodup hparts _ (by decide)
      (fun column _ hpreserved => ⟨(hmem column).mpr hpreserved, rfl⟩)
      (fun part hpart => (hmem part.2).mp (List.mem_map_of_mem hpart)) fun _ => .inl rfl]
    exact congrArg some (weave_congr fun part _ => if_pos (hall part.2))
  have hclean : ∀ column, ¬ sentinels.sentinel column
      <:+: weave (fun column => column.member ev) parts tail := fun column =>
    not_infix_weave (hparts column) (fun part _ => hfree.member column part.2) (htail column)
  refine ⟨weave (fun column => column.member ev) parts tail, ?_, fun column hpreserved => ?_⟩
  · rw [spliced, hsplice]
    dsimp only
    rw [if_neg]
    simp [hclean]
  · obtain ⟨⟨text, column'⟩, hpart, rfl⟩ := List.mem_map.mp ((hmem column).mpr hpreserved)
    obtain ⟨front, back, rfl⟩ := List.append_of_mem hpart
    rw [weave_split]
    exact ⟨weave (fun column => column.member ev) front text,
      weave (fun column => column.member ev) back tail, List.append_assoc ..⟩

/-- **A preserved column is back in the line, without the fallback, exactly when no single-quoted
value is open at any of them.** -/
theorem provenance_kept_iff (hfree : SentinelFree sentinels ev) :
    (∀ column, isPreserved ev column = true → spliced sentinels ev = some (renderLine sentinels ev)
        ∧ renderedPair column.key (column.member ev) <:+: renderLine sentinels ev)
      ↔ ∀ column, isPreserved ev column = true →
        ¬ LeftOpen (frontOf (swap sentinels ev) column) := by
  constructor
  · intro hkept column hpreserved hopen
    have hspliced := (hkept column hpreserved).1
    unfold spliced at hspliced
    cases hcolumns : spliceColumns sentinels ev kProvenanceColumns
        (scrubbedLine (swap sentinels ev)) with
    | none => simp [hcolumns] at hspliced
    | some line =>
      have hmem : column ∈ kProvenanceColumns := by cases column <;> decide
      exact not_infix_of_leftOpen hfree hpreserved hopen
        (infix_of_spliceColumns hfree hpreserved hmem hcolumns)
  · intro hclosed column hpreserved
    obtain ⟨line, hspliced, hpairs⟩ := exists_spliced hfree hclosed
    have hrendered : renderLine sentinels ev = line := by
      have hany : kProvenanceColumns.any (isPreserved ev) = true :=
        List.any_eq_true.mpr ⟨column, by cases column <;> decide, hpreserved⟩
      rw [renderLine, if_neg (by simp [hany]), hspliced]
    rw [hrendered]
    exact ⟨hspliced, hpairs column hpreserved⟩

/-- The tails that a process could have drawn, all of one letter. -/
def Sentinels.constant : Sentinels where
  tail _ := List.replicate kSentinelRandomChars 0x41
  length_tail _ := List.length_replicate
  mem_alphabet _ c hc := by
    rw [List.eq_of_mem_replicate hc]
    decide

/-- A rejected order of the strategy `mom-1a`, with the broker's reason among the fields. -/
def rejected (reason : Bytes) : AuditEvent where
  type := .orderRejected
  ts := 0
  strategy := ascii "mom-1a"
  broker := []
  account := []
  clientRef := []
  brokerOrderId := []
  fields := .object [(ascii "reason", .string reason)]

theorem sentinelFree_rejected {reason : Bytes} (h : 0x50 ∉ reason) :
    SentinelFree .constant (rejected reason) := by
  have htexts : ∀ text ∈ (rejected reason).texts, 0x50 ∉ text := by
    intro text htext
    change text ∈ [ascii "mom-1a", [], [], [], [], ascii "reason", reason] at htext
    simp only [List.mem_cons, List.not_mem_nil, or_false] at htext
    rcases htext with rfl | rfl | rfl | rfl | rfl | rfl | rfl
    · decide
    · decide
    · decide
    · decide
    · decide
    · decide
    · exact h
  exact fun column text htext => not_infix_of_no_p (htexts text htext)

/-- No value is open at the strategy when the quote in the reason is closed. -/
theorem closed_value_keeps :
    isPreserved (rejected (ascii "token='expired'")) .strategy = true
      ∧ ¬ LeftOpen (frontOf (swap .constant (rejected (ascii "token='expired'"))) .strategy) := by
  have hpreserved : isPreserved (rejected (ascii "token='expired'")) .strategy = true := by
    decide +kernel
  have hfree : SentinelFree .constant (rejected (ascii "token='expired'")) :=
    sentinelFree_rejected (by decide)
  refine ⟨hpreserved, (provenance_kept_iff hfree).mp (fun column => ?_) .strategy hpreserved⟩
  cases column <;> decide +kernel

/-- A value left open takes the strategy with it, and the rest of the line. -/
theorem open_value_strips :
    SentinelFree .constant (rejected (ascii "token='expired"))
      ∧ isPreserved (rejected (ascii "token='expired")) .strategy = true
      ∧ spliced .constant (rejected (ascii "token='expired")) = none
      ∧ renderLine .constant (rejected (ascii "token='expired"))
          = ascii "\x7b\"fields\":\x7b\"reason\":\"token='***REDACTED***" :=
  ⟨sentinelFree_rejected (by decide), by decide +kernel, by decide +kernel, by decide +kernel⟩

end BrokerExec.Observability
