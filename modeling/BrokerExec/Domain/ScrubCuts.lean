import BrokerExec.Domain.ScrubPieces
import BrokerExec.Lib.Words

/-!
# Where a text can be cut for the scrubber (`domain/redaction.cpp`)

A value in single quotes is read up to the next single quote, whatever stands in between. In front
of a double quote that opens a JSON string, this is the only way in which the scanner can be in the
middle of a round.

* **`Scanned.unique`** — a text is scanned in one way.
* **`cut_iff`** — a round starts at such a double quote exactly when no single-quoted value is left
  open in front of it.
* **`infix_of_outputOf`** — a word that is not the marker's was in the text before the scrub.
-/

namespace BrokerExec.Domain

def singleQuote : UInt8 := 0x27

variable {back : Bytes} {ps qs : List Piece}

/-! ## One way to scan -/

theorem tryKeyValue_eq_none_of_front {run rest rest' : Bytes} (hrest : rest' <+: rest)
    (hnone : tryKeyValue (run ++ rest) = none) : tryKeyValue (run ++ rest') = none := by
  rw [← Option.not_isSome_iff_eq_none] at hnone ⊢
  intro hsome
  obtain ⟨k, behind, htext⟩ := exists_sensitiveKey hsome
  obtain ⟨more, rfl⟩ := hrest
  rw [← List.append_assoc, htext, List.append_assoc] at hnone
  exact hnone (k.tryKeyValue_isSome _)

theorem mem_head?_of_front {rest rest' : Bytes} (hrest : rest' <+: rest) :
    ∀ c ∈ rest'.head?, c ∈ rest.head? := by
  intro c hc
  obtain ⟨more, rfl⟩ := hrest
  cases rest' with
  | nil => cases hc
  | cons d rest' => exact hc

theorem KeyValue.Fits.of_prefix {kv : KeyValue} {rest rest' : Bytes} (h : kv.Fits rest)
    (hrest : rest' <+: rest) : kv.Fits rest' where
  inside := h.inside
  stop c hc := h.stop c (mem_head?_of_front hrest c hc)
  unquoted hopening c hc := h.unquoted hopening c
    (mem_head?_of_front ((List.prefix_append_right_inj kv.value).mpr hrest) c hc)

/-- The rounds in front of a cut are the same for any text that the rest starts with. -/
theorem Scanned.with_rest {qs' : List Piece} (h : Scanned back (ps ++ qs))
    (hrest : Scanned ((textOf ps).reverse ++ back) qs') (hshort : textOf qs' <+: textOf qs) :
    Scanned back (ps ++ qs') := by
  have hstarts : ∀ ps : List Piece, textOf (ps ++ qs') <+: textOf (ps ++ qs) := by
    intro ps
    rw [textOf_append, textOf_append, List.prefix_append_right_inj]
    exact hshort
  induction ps generalizing back with
  | nil => exact hrest
  | cons piece ps ih =>
    rw [textOf_cons, List.reverse_append, List.append_assoc] at hrest
    cases h with
    | other hc hbehind => exact .other hc (ih hbehind hrest)
    | run hne hrun hback hstop hnone hbehind =>
      exact .run hne hrun hback (fun c hc => hstop c (mem_head?_of_front (hstarts ps) c hc))
        (tryKeyValue_eq_none_of_front (hstarts ps) hnone) (ih hbehind hrest)
    | pair hback hfits hbehind =>
      exact .pair hback (hfits.of_prefix (hstarts ps)) (ih hbehind hrest)

theorem Scanned.front (h : Scanned back (ps ++ qs)) : Scanned back ps := by
  have hfront := h.with_rest .nil (List.nil_prefix ..)
  rwa [List.append_nil] at hfront

theorem Scanned.text_ne {piece : Piece} (h : Scanned back (piece :: ps)) : piece.text ≠ [] := by
  cases h with
  | other hc hrest => exact List.cons_ne_nil _ _
  | run hne hrun hback hstop hnone hrest => exact hne
  | pair hback hfits hrest => exact KeyValue.text_ne _

theorem Scanned.eq_nil (h : Scanned back ps) (htext : textOf ps = []) : ps = [] := by
  cases ps with
  | nil => rfl
  | cons piece ps => exact absurd (List.append_eq_nil_iff.mp htext).1 h.text_ne

/-- A cut behind some pieces is a cut of the others. -/
theorem Scanned.cut_behind {first ps qs pieces : List Piece} (h : Scanned back (first ++ pieces))
    (hcut : first ++ pieces = ps ++ qs) {text : Bytes} (htext : textOf ps = textOf first ++ text) :
    ∃ ps', pieces = ps' ++ qs ∧ textOf ps' = text := by
  rcases append_cases hcut with ⟨tail, rfl, hpieces⟩ | ⟨shared, hne, rfl, -⟩
  · rw [textOf_append, List.append_right_inj] at htext
    exact ⟨tail, hpieces, htext⟩
  · rw [textOf_append, List.append_assoc, List.self_eq_append_right, List.append_eq_nil_iff]
      at htext
    exact absurd (h.front.of_append.eq_nil htext.1) hne

/-- **A text is scanned in one way.** -/
theorem Scanned.unique (h : Scanned back ps) (h' : Scanned back qs)
    (htext : textOf ps = textOf qs) : ps = qs := by
  induction h generalizing qs with
  | nil => exact (h'.eq_nil htext.symm).symm
  | @other back c ps hc hrest ih =>
    cases h' with
    | nil => cases htext
    | other hc' hrest' =>
      obtain ⟨rfl, hbehind⟩ := List.cons.inj htext
      rw [ih hrest' hbehind]
    | run hne hrun hback hstop hnone hrest' =>
      obtain ⟨d, run, hd, hdToken⟩ := exists_head_of_run hne hrun (textOf _)
      rw [textOf_cons, Piece.text, List.singleton_append, textOf_cons, Piece.text, hd] at htext
      rw [(List.cons.inj htext).1, hdToken] at hc
      cases hc
    | pair hback hfits hrest' =>
      obtain ⟨d, text, hd, hdToken⟩ := KeyValue.text_head _ (textOf _)
      rw [textOf_cons, Piece.text, List.singleton_append, textOf_cons, Piece.text, hd] at htext
      rw [(List.cons.inj htext).1, hdToken] at hc
      cases hc
  | @run back run ps hne hrun hback hstop hnone hrest ih =>
    obtain ⟨d, cs, hd, hdToken⟩ := exists_head_of_run hne hrun (textOf ps)
    cases h' with
    | nil => exact absurd (List.append_eq_nil_iff.mp htext).1 hne
    | other hc' hrest' =>
      rw [textOf_cons, Piece.text, hd, textOf_cons, Piece.text, List.singleton_append] at htext
      rw [← (List.cons.inj htext).1, hdToken] at hc'
      cases hc'
    | @run _ run' qs hne' hrun' hback' hstop' hnone' hrest' =>
      obtain ⟨rfl, hbehind⟩ := append_inj_of_stop (P := (isTokenChar · = true)) hrun hrun'
        (fun c hc => by simp [hstop c hc]) (fun c hc => by simp [hstop' c hc]) htext
      rw [ih hrest' hbehind]
    | @pair _ kv qs hback' hfits' hrest' =>
      rw [textOf_cons, textOf_cons, Piece.text, Piece.text] at htext
      rw [htext, hfits'.tryKeyValue] at hnone
      cases hnone
  | @pair back kv ps hback hfits hrest ih =>
    obtain ⟨d, cs, hd, hdToken⟩ := KeyValue.text_head kv (textOf ps)
    cases h' with
    | nil => exact absurd (List.append_eq_nil_iff.mp htext).1 kv.text_ne
    | other hc' hrest' =>
      rw [textOf_cons, Piece.text, hd, textOf_cons, Piece.text, List.singleton_append] at htext
      rw [← (List.cons.inj htext).1, hdToken] at hc'
      cases hc'
    | @run _ run' qs hne' hrun' hback' hstop' hnone' hrest' =>
      rw [textOf_cons, textOf_cons, Piece.text, Piece.text] at htext
      rw [← htext, hfits.tryKeyValue] at hnone'
      cases hnone'
    | @pair _ kv' qs hback' hfits' hrest' =>
      obtain ⟨rfl, hbehind⟩ := hfits.unique hfits' htext
      rw [ih hrest' hbehind]

/-! ## Cuts in front of a double quote -/

/-- The text ends inside a value in single quotes. -/
def LeftOpen (text : Bytes) : Prop :=
  ∃ ps kv, Scanned [] (ps ++ [.pair kv]) ∧ textOf (ps ++ [.pair kv]) = text
    ∧ kv.opening = some singleQuote

/-- A byte in front of a JSON string that opens a container or sets two members apart. -/
def isOpener (c : UInt8) : Bool := c == 0x7B || c == 0x2C

/-- No such byte stands between the key of a pair and its value. -/
theorem KeyValue.not_opener_of_front {kv : KeyValue} : ∀ c ∈ kv.front, isOpener c = false := by
  intro c hc
  refine Bool.eq_false_of_not_eq_true fun hopener => ?_
  simp only [isOpener, Bool.or_eq_true, beq_iff_eq] at hopener
  have hnone : ∀ c ∈ ([0x7B, 0x2C] : Bytes), ¬ (isTokenChar c = true ∨ isQuote c = true
      ∨ isSpace c = true ∨ c = 0x3A ∨ c = 0x3D) := by decide
  exact hnone c (by simpa using hopener) (KeyValue.mem_front hc)

/-- A value that holds a double quote is opened by a single one. -/
theorem KeyValue.Fits.opening_single {kv : KeyValue} {rest : Bytes} (h : kv.Fits rest)
    (hmem : 0x22 ∈ kv.value) : kv.opening = some singleQuote := by
  have hinside := h.inside 0x22 hmem
  unfold ends at hinside
  cases hopening : kv.opening with
  | none =>
    rw [hopening] at hinside
    exact absurd hinside (by decide)
  | some quote =>
    rw [hopening] at hinside
    have hquote := kv.opening_quote quote hopening
    simp only [isQuote, Bool.or_eq_true, beq_iff_eq] at hquote
    rcases hquote with rfl | rfl
    · cases hinside
    · rfl

/-- **A round starts at the double quote, or a single-quoted value reaches over it.** -/
theorem Scanned.cut {pieces : List Piece} (h : Scanned back pieces) {pre post : Bytes}
    (htext : textOf pieces = pre ++ 0x22 :: post) (hpre : ∀ c ∈ pre.getLast?, isOpener c = true) :
    (∃ ps qs, pieces = ps ++ qs ∧ textOf ps = pre)
      ∨ ∃ ps kv qs v v', pieces = ps ++ .pair kv :: qs ∧ kv.opening = some singleQuote
        ∧ pre = textOf ps ++ kv.front ++ v ∧ kv.value = v ++ 0x22 :: v' := by
  induction pieces generalizing back pre with
  | nil => simp at htext
  | cons piece pieces ih =>
    by_cases hne : pre = []
    · exact .inl ⟨[], piece :: pieces, rfl, hne.symm⟩
    rw [textOf_cons] at htext
    rcases append_cases htext with ⟨tail, rfl, htail⟩ | ⟨shared, hshared, hpiece, hbehind⟩
    · -- the quote stands behind the piece
      have hlast : ∀ c ∈ tail.getLast?, isOpener c = true := by
        intro c hc
        refine hpre c ?_
        rw [List.getLast?_append, Option.mem_def.mp hc]
        rfl
      rcases ih (@Scanned.of_append back [piece] pieces h) htail hlast with
        ⟨ps, qs, rfl, rfl⟩ | ⟨ps, kv, qs, v, v', rfl, hopening, rfl, hvalue⟩
      · exact .inl ⟨piece :: ps, qs, rfl, rfl⟩
      · exact .inr ⟨piece :: ps, kv, qs, v, v', rfl, hopening, by simp, hvalue⟩
    · -- the quote stands inside the piece, and not at its front
      obtain ⟨d, shared, rfl⟩ := List.exists_cons_of_ne_nil hshared
      obtain ⟨rfl, -⟩ := List.cons.inj hbehind
      right
      cases h with
      | @other _ c _ hc hrest =>
        have hlength : [c].length = (pre ++ 0x22 :: shared).length := congrArg List.length hpiece
        have hpos := List.length_pos_of_ne_nil hne
        simp only [List.length_append, List.length_cons, List.length_nil] at hlength
        omega
      | @run _ run _ hnonempty hrun hback hstop hnone hrest =>
        have hmem : 0x22 ∈ run := by
          rw [show run = pre ++ 0x22 :: shared from hpiece]
          simp
        exact absurd (hrun 0x22 hmem) (by decide)
      | @pair _ kv _ hback hfits hrest =>
        rcases append_cases (show kv.front ++ kv.value = pre ++ 0x22 :: shared from hpiece) with
          ⟨v, rfl, hvalue⟩ | ⟨inner, hinner, hfront, hquote⟩
        · exact ⟨[], kv, pieces, v, shared, rfl, hfits.opening_single (by simp [hvalue]), by simp,
            hvalue⟩
        · have hlast := hpre _ (List.getLast?_eq_some_getLast hne)
          rw [kv.not_opener_of_front _ (by
            rw [hfront]
            exact List.mem_append_left _ (List.getLast_mem hne))] at hlast
          cases hlast

/-- **A round starts at the double quote exactly when no single-quoted value is open.** -/
theorem cut_iff {pieces : List Piece} (h : Scanned [] pieces) {pre post : Bytes}
    (htext : textOf pieces = pre ++ 0x22 :: post) (hpre : ∀ c ∈ pre.getLast?, isOpener c = true) :
    (∃ ps qs, pieces = ps ++ qs ∧ textOf ps = pre) ↔ ¬ LeftOpen pre := by
  constructor
  · rintro ⟨ps, qs, rfl, rfl⟩ ⟨ps', kv, hopen, htext', hopening⟩
    obtain rfl := hopen.unique h.front htext'
    rw [List.append_assoc] at h
    -- the quote behind the open value would end it
    have hend := h.of_append
    cases hend with
    | pair hback hfits hrest =>
      rw [textOf_append, List.append_right_inj] at htext
      have hstop := hfits.stop 0x22 (show 0x22 ∈ (textOf qs).head? by rw [htext]; rfl)
      rw [KeyValue.ends, hopening] at hstop
      exact absurd hstop (by decide)
  · intro hclosed
    rcases h.cut htext hpre with hround | ⟨ps, kv, qs, v, v', rfl, hopening, rfl, hvalue⟩
    · exact hround
    · exfalso
      refine hclosed ⟨ps, { kv with value := v }, h.with_rest ?_ ?_, ?_, hopening⟩
      · have hpair := h.of_append
        cases hpair with
        | pair hback hfits hrest =>
          refine .pair hback ⟨fun c hc => ?_, by simp, fun hnone => ?_⟩ .nil
          · exact hfits.inside c (by simp [hvalue, hc])
          · rw [hopening] at hnone
            cases hnone
      · refine ⟨0x22 :: v' ++ textOf qs, ?_⟩
        simp [Piece.text, KeyValue.text, KeyValue.front, KeyValue.gap, hvalue]
      · simp [Piece.text, KeyValue.text, KeyValue.front, KeyValue.gap]

/-! ## Rounds over a given text -/

theorem Scanned.other_head {back : Bytes} {qs : List Piece} (h : Scanned back qs) {c : UInt8}
    {t : Bytes} (htext : textOf qs = c :: t) (hc : isTokenChar c = false) :
    ∃ qs', qs = .other c :: qs' ∧ textOf qs' = t ∧ Scanned (c :: back) qs' := by
  cases h with
  | nil => cases htext
  | other hc' hrest =>
    obtain ⟨rfl, hbehind⟩ := List.cons.inj htext
    exact ⟨_, rfl, hbehind, hrest⟩
  | run hne hrun hback hstop hnone hrest =>
    obtain ⟨d, cs, hd, hdToken⟩ := exists_head_of_run hne hrun (textOf _)
    rw [textOf_cons, Piece.text, hd] at htext
    rw [← (List.cons.inj htext).1, hdToken] at hc
    cases hc
  | pair hback hfits hrest =>
    obtain ⟨d, cs, hd, hdToken⟩ := KeyValue.text_head _ (textOf _)
    rw [textOf_cons, Piece.text, hd] at htext
    rw [← (List.cons.inj htext).1, hdToken] at hc
    cases hc

theorem Scanned.run_head {back : Bytes} {qs : List Piece} (h : Scanned back qs) {run t : Bytes}
    (htext : textOf qs = run ++ t) (hne : run ≠ []) (hrun : ∀ c ∈ run, isTokenChar c = true)
    (hstop : ∀ c ∈ t.head?, isTokenChar c = false) (hnone : tryKeyValue (run ++ t) = none) :
    ∃ qs', qs = .run run (isHidden back run) :: qs' ∧ textOf qs' = t
      ∧ Scanned (run.reverse ++ back) qs' := by
  obtain ⟨d, cs, hd, hdToken⟩ := exists_head_of_run hne hrun t
  cases h with
  | nil =>
    rw [hd] at htext
    cases htext
  | other hc hrest =>
    rw [hd, textOf_cons, Piece.text, List.singleton_append] at htext
    rw [(List.cons.inj htext).1, hdToken] at hc
    cases hc
  | run hne' hrun' hback hstop' hnone' hrest =>
    obtain ⟨rfl, hbehind⟩ := append_inj_of_stop (P := (isTokenChar · = true)) hrun' hrun
      (fun c hc => by simp [hstop' c hc]) (fun c hc => by simp [hstop c hc]) htext
    exact ⟨_, rfl, hbehind, hrest⟩
  | pair hback hfits hrest =>
    rw [textOf_cons, Piece.text] at htext
    rw [← htext, hfits.tryKeyValue] at hnone
    cases hnone

/-- A run whose quote is followed by neither white space nor a separator is no key. -/
theorem tryKeyValue_of_closed {run t : Bytes} {c : UInt8}
    (hrun : ∀ c ∈ run, isTokenChar c = true) (hspace : isSpace c = false)
    (hseparator : c ≠ 0x3A ∧ c ≠ 0x3D) : tryKeyValue (run ++ 0x22 :: c :: t) = none := by
  rw [← Option.not_isSome_iff_eq_none]
  intro hsome
  obtain ⟨k, behind, htext⟩ := exists_sensitiveKey hsome
  rw [SensitiveKey.text, List.append_assoc] at htext
  obtain ⟨-, hlink⟩ := append_inj_of_stop (P := (isTokenChar · = true)) hrun k.key_token
    (fun c hc => by
      obtain rfl := Option.some.inj hc
      decide)
    (fun c hc => by simp [k.link_head behind c hc]) htext
  -- behind the closing quote comes white space or the separator
  have hblanks : ∀ d rest, k.blanks ++ [k.separator] ++ behind = d :: rest →
      isSpace d = true ∨ d = 0x3A ∨ d = 0x3D := by
    intro d rest hd
    cases hk : k.blanks with
    | nil =>
      rw [hk] at hd
      obtain rfl := (List.cons.inj hd).1
      exact .inr k.separator_eq
    | cons b blanks =>
      rw [hk] at hd
      obtain rfl := (List.cons.inj hd).1
      exact .inl (k.blanks_space _ (by simp [hk]))
  rw [SensitiveKey.link, List.append_assoc, List.append_assoc, ← List.append_assoc k.blanks]
    at hlink
  rcases k.closing_quote with hnil | ⟨quote, hquoted, -⟩
  · rw [hnil] at hlink
    rcases hblanks _ _ hlink.symm with hblank | heq | heq
    · exact absurd hblank (by decide)
    · exact absurd heq (by decide)
    · exact absurd heq (by decide)
  · rw [hquoted] at hlink
    rcases hblanks _ _ (List.cons.inj hlink).2.symm with hblank | heq | heq
    · rw [hspace] at hblank
      cases hblank
    · exact hseparator.1 heq
    · exact hseparator.2 heq

/-! ## Words behind the scrub -/

section

variable {w : Bytes} (hw : ∀ c ∈ w, isUpperLetter c = true) (hmarker : ¬ w <:+: kRedactionMarker)

include hw hmarker

theorem infix_around_marker {a b : Bytes} (h : w <:+: a ++ (kRedactionMarker ++ b)) :
    w <:+: a ∨ w <:+: b := by
  obtain ⟨inner, hinner⟩ : ∃ inner, kRedactionMarker = 0x2A :: (inner ++ [0x2A]) :=
    ⟨ascii "**REDACTED**", by decide⟩
  have hstar : isUpperLetter 0x2A = false := by decide
  rw [hinner, List.cons_append, List.append_assoc] at h
  rcases infix_append_cons hw hstar h with h | h
  · exact .inl h
  · rcases infix_append_cons hw hstar h with h | h
    · exact absurd (h.trans ⟨[0x2A], [0x2A], by rw [hinner]; simp⟩) hmarker
    · exact .inr h

/-- **The scrub writes no capital word but the marker's.** -/
theorem infix_of_outputOf (pieces : List Piece) (front : Bytes)
    (h : w <:+: front ++ outputOf pieces) : w <:+: front ++ textOf pieces := by
  induction pieces generalizing front with
  | nil => exact h
  | cons piece pieces ih =>
    -- behind a marker the word is looked for anew
    have hbehind : ∀ front middle, w <:+: front ++ (kRedactionMarker ++ outputOf pieces) →
        w <:+: front ++ (middle ++ textOf pieces) := by
      intro front middle h
      rcases infix_around_marker hw hmarker h with h | h
      · exact h.trans ⟨[], middle ++ textOf pieces, by simp⟩
      · exact (ih [] h).trans ⟨front ++ middle, [], by simp⟩
    rw [outputOf_cons] at h
    rw [textOf_cons]
    cases piece with
    | other c =>
      rw [← List.append_assoc] at h ⊢
      exact ih _ h
    | run chars hidden =>
      cases hidden with
      | true => exact hbehind front chars h
      | false =>
        rw [← List.append_assoc] at h ⊢
        exact ih _ h
    | pair kv =>
      show w <:+: front ++ (kv.front ++ kv.value ++ textOf pieces)
      change w <:+: front ++ (kv.front ++ redacted kv.value ++ outputOf pieces) at h
      rw [List.append_assoc, ← List.append_assoc] at h ⊢
      unfold redacted at h
      split at h
      · next hvalue =>
        rw [hvalue]
        exact ih _ h
      · exact hbehind _ kv.value h

end

end BrokerExec.Domain
