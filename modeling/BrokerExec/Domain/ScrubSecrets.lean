import BrokerExec.Domain.ScrubIdempotent

/-!
# What is left in a scrubbed text (`domain/redaction.cpp`)

* **`Scanned.runPlace`** — no run is jumped over: a maximal run of the text is a round of its own,
  the key of a pair that was read, or starts inside a value.
* **`scrub_hides`** — so every pair of the text is redacted, and a token-shaped run of the output is
  the key of a pair. The output is scanned into the redacted pieces, so one lemma serves the text
  and the output.
-/

namespace BrokerExec.Domain

/-! ## Where a run lies -/

/-- A token run between two bytes that belong to none. `back` is the text before it, nearest byte
first. -/
structure MaximalRun (back run post : Bytes) : Prop where
  ne : run ≠ []
  token : ∀ c ∈ run, isTokenChar c = true
  left : ∀ c ∈ back.head?, isTokenChar c = false
  right : ∀ c ∈ post.head?, isTokenChar c = false

/-- The text behind `pre` starts inside the value of a pair that was read. -/
def InsideValue (pieces : List Piece) (pre : Bytes) : Prop :=
  ∃ ps kv qs inner, pieces = ps ++ .pair kv :: qs ∧ pre = textOf ps ++ (kv.front ++ inner)
    ∧ inner.length < kv.value.length

/-- Where a run behind `pre` lies among the pieces. -/
inductive RunPlace (pieces : List Piece) (pre run : Bytes) : Prop where
  | run (ps : List Piece) (hidden : Bool) (qs : List Piece)
      (hpieces : pieces = ps ++ .run run hidden :: qs) (hpre : pre = textOf ps)
  | key (ps : List Piece) (kv : KeyValue) (qs : List Piece)
      (hpieces : pieces = ps ++ .pair kv :: qs) (hpre : pre = textOf ps) (hkey : run = kv.key)
  | value (hinside : InsideValue pieces pre)

theorem RunPlace.cons {pieces : List Piece} {pre run : Bytes} (h : RunPlace pieces pre run)
    (piece : Piece) : RunPlace (piece :: pieces) (piece.text ++ pre) run := by
  cases h with
  | run ps hidden qs hpieces hpre =>
    exact .run (piece :: ps) hidden qs (by simp [hpieces]) (by simp [hpre])
  | key ps kv qs hpieces hpre hkey =>
    exact .key (piece :: ps) kv qs (by simp [hpieces]) (by simp [hpre]) hkey
  | value hinside =>
    obtain ⟨ps, kv, qs, inner, hpieces, hpre, hinner⟩ := hinside
    exact .value ⟨piece :: ps, kv, qs, inner, by simp [hpieces], by simp [hpre], hinner⟩

/-- Token bytes right before a maximal run would belong to it. -/
theorem MaximalRun.eq_nil {back pre run post : Bytes}
    (h : MaximalRun (pre.reverse ++ back) run post) (hpre : ∀ c ∈ pre, isTokenChar c = true) :
    pre = [] := by
  cases pre using List.reverseRecOn with
  | nil => rfl
  | append_singleton pre c =>
    have hlast := h.left c (by simp)
    rw [hpre c (by simp)] at hlast
    cases hlast

theorem MaximalRun.head_shared {back run post shared rest : Bytes} (h : MaximalRun back run post)
    (hshared : shared ≠ []) (hrest : run ++ post = shared ++ rest) :
    ∃ c cs, shared = c :: cs ∧ isTokenChar c = true := by
  obtain ⟨c, cs, rfl⟩ := List.exists_cons_of_ne_nil hshared
  obtain ⟨d, ds, hds, hd⟩ := exists_head_of_run h.ne h.token post
  rw [hds] at hrest
  exact ⟨c, cs, rfl, (List.cons.inj hrest).1 ▸ hd⟩

/-- A maximal run and a run that starts with it are one. -/
theorem MaximalRun.eq_run {back run post run' rest : Bytes} (h : MaximalRun back run post)
    (hrun' : ∀ c ∈ run', isTokenChar c = true) (hrest : ∀ c ∈ rest.head?, isTokenChar c = false)
    (htext : run ++ post = run' ++ rest) : run = run' :=
  (append_inj_of_stop (P := (isTokenChar · = true)) h.token hrun'
    (fun c hc => by simp [h.right c hc]) (fun c hc => by simp [hrest c hc]) htext).1

/-- A run that starts in a pair is its key or starts in its value. -/
theorem MaximalRun.in_pair {back pre run post shared rest : Bytes} {kv : KeyValue}
    (h : MaximalRun (pre.reverse ++ back) run post) (htext : kv.text = pre ++ shared)
    (hshared : shared ≠ []) (hrest : run ++ post = shared ++ rest) :
    (pre = [] ∧ run = kv.key)
      ∨ ∃ inner, pre = kv.front ++ inner ∧ inner.length < kv.value.length := by
  obtain ⟨c, cs, hcs, hc⟩ := h.head_shared hshared hrest
  rw [KeyValue.text, KeyValue.front, List.append_assoc] at htext
  rcases append_cases htext with ⟨tail, rfl, htail⟩ | ⟨key, hkey, hpre, rfl⟩
  · right
    rcases append_cases htail with ⟨inner, rfl, hinner⟩ | ⟨gap, hgap, hsplit, hvalue⟩
    · refine ⟨inner, by rw [KeyValue.front, List.append_assoc], ?_⟩
      have hpos := List.length_pos_iff.mpr hshared
      rw [hinner, List.length_append]
      omega
    · -- no run starts in the gap
      obtain ⟨d, ds, rfl⟩ := List.exists_cons_of_ne_nil hgap
      have hd := kv.gap_plain d (by simp [hsplit])
      rw [hcs] at hvalue
      rw [(List.cons.inj hvalue).1, hd] at hc
      cases hc
  · left
    have hnil := h.eq_nil fun d hd => kv.key_token d (by simp [hpre, hd])
    rw [hnil, List.nil_append] at hpre
    subst hpre
    refine ⟨hnil, h.eq_run kv.key_token (kv.gap_head (kv.value ++ rest)) ?_⟩
    rw [hrest]
    simp

/-- **No run is jumped over.** -/
theorem Scanned.runPlace {back : Bytes} {pieces : List Piece} (h : Scanned back pieces)
    {pre run post : Bytes} (hrun : MaximalRun (pre.reverse ++ back) run post)
    (htext : textOf pieces = pre ++ (run ++ post)) : RunPlace pieces pre run := by
  induction h generalizing pre with
  | nil =>
    rw [textOf_nil, eq_comm, List.append_eq_nil_iff, List.append_eq_nil_iff] at htext
    exact absurd htext.2.1 hrun.ne
  | @other back c pieces hc hrest ih =>
    rcases append_cases htext with ⟨tail, rfl, htail⟩ | ⟨shared, hshared, hpiece, hrest⟩
    · exact (ih (by simpa [Piece.text] using hrun) htail).cons (.other c)
    · obtain ⟨d, ds, rfl, hd⟩ := hrun.head_shared hshared hrest
      have hmem : d ∈ [c] := by
        rw [show [c] = pre ++ d :: ds from hpiece]
        simp
      rw [List.mem_singleton.mp hmem, hc] at hd
      cases hd
  | @run back run' pieces hne hrun' hback hstop hnone hrest ih =>
    rcases append_cases htext with ⟨tail, rfl, htail⟩ | ⟨shared, hshared, hpiece, hrest⟩
    · exact (ih (by simpa [Piece.text] using hrun) htail).cons (.run run' _)
    · change run' = pre ++ shared at hpiece
      obtain rfl := hrun.eq_nil fun c hc => hrun' c (by simp [hpiece, hc])
      rw [List.nil_append] at hpiece
      subst hpiece
      obtain rfl := hrun.eq_run hrun' hstop hrest
      exact .run [] _ pieces rfl rfl
  | @pair back kv pieces hback hfits hrest ih =>
    rcases append_cases htext with ⟨tail, rfl, htail⟩ | ⟨shared, hshared, hpiece, hrest⟩
    · exact (ih (by simpa [Piece.text] using hrun) htail).cons (.pair kv)
    · rcases hrun.in_pair hpiece hshared hrest with ⟨rfl, hkey⟩ | ⟨inner, rfl, hinner⟩
      · exact .key [] kv pieces rfl rfl hkey
      · exact .value ⟨[], kv, pieces, inner, rfl, rfl, hinner⟩

/-! ## The output -/

theorem hidden_of_mem_redactAll {pieces : List Piece} {chars : Bytes} {hidden : Bool}
    (h : .run chars hidden ∈ redactAll pieces) : hidden = false := by
  obtain ⟨piece, -, hpiece⟩ := List.mem_flatMap.mp h
  cases piece with
  | other c => simp [Piece.redact] at hpiece
  | run chars' hidden' =>
    cases hidden' with
    | false => exact (Piece.run.inj (List.mem_singleton.mp hpiece)).2
    | true =>
      simp only [Piece.redact, if_true, markerPieces, List.mem_cons, reduceCtorEq, false_or,
        Piece.run.injEq, List.not_mem_nil, or_false] at hpiece
      exact hpiece.2
  | pair kv => simp [Piece.redact] at hpiece

theorem pair_of_mem_redact {piece : Piece} {kv : KeyValue} (h : .pair kv ∈ piece.redact) :
    ∃ kv', piece = .pair kv' ∧ kv = kv'.redact := by
  cases piece with
  | other c => simp [Piece.redact] at h
  | run chars hidden => cases hidden <;> simp [Piece.redact, markerPieces] at h
  | pair kv' => exact ⟨kv', rfl, Piece.pair.inj (List.mem_singleton.mp h)⟩

/-- A pair of the second scan is a redacted pair of the first, in the same place. -/
theorem exists_pair_of_redactAll {pieces ps qs : List Piece} {kv : KeyValue}
    (h : redactAll pieces = ps ++ .pair kv :: qs) :
    ∃ ps' kv' qs', pieces = ps' ++ .pair kv' :: qs' ∧ ps = redactAll ps' ∧ kv = kv'.redact := by
  induction pieces generalizing ps with
  | nil => simp [redactAll] at h
  | cons piece pieces ih =>
    rcases append_cases h with ⟨tail, rfl, htail⟩ | ⟨shared, hshared, hpiece, hrest⟩
    · obtain ⟨ps', kv', qs', rfl, rfl, hkv⟩ := ih htail
      exact ⟨piece :: ps', kv', qs', rfl, rfl, hkv⟩
    · obtain ⟨first, shared, rfl⟩ := List.exists_cons_of_ne_nil hshared
      obtain ⟨rfl, -⟩ := List.cons.inj hrest
      have hmem : .pair kv ∈ piece.redact := by simp [hpiece]
      obtain ⟨kv', rfl, rfl⟩ := pair_of_mem_redact hmem
      rcases List.singleton_eq_append_iff.mp hpiece with ⟨rfl, -⟩ | ⟨-, hnil⟩
      · exact ⟨[], kv', pieces, rfl, rfl, rfl⟩
      · cases hnil

/-- A run that starts in a marker ends there. -/
theorem length_lt_of_marker {inner run post rest : Bytes}
    (hrun : ∀ c ∈ run, isTokenChar c = true) (hinner : inner.length < kRedactionMarker.length)
    (h : kRedactionMarker ++ rest = inner ++ (run ++ post)) : run.length < 20 := by
  by_contra hlong
  have hlength : inner.length ≤ 13 := Nat.lt_succ_iff.mp hinner
  have hlast : (kRedactionMarker ++ rest)[13]? = some 0x2A := rfl
  rw [h, List.getElem?_append_right hlength, List.getElem?_append_left (by omega)] at hlast
  exact absurd (hrun _ (List.mem_of_getElem? hlast)) (by decide)

/-- **A token-shaped run of the output is the key of a pair.** -/
theorem Scanned.key_of_output {pieces : List Piece} (h : Scanned [] pieces) {pre run post : Bytes}
    (hrun : MaximalRun pre.reverse run post) (hlong : 20 ≤ run.length)
    (hmixed : runHasLetterAndDigit run = true) (hout : outputOf pieces = pre ++ (run ++ post)) :
    ∃ ps kv qs, pieces = ps ++ .pair kv :: qs ∧ pre = outputOf ps ∧ run = kv.key := by
  have hredact : Scanned [] (redactAll pieces) := h.redact (.inl rfl)
  rw [← textOf_redactAll] at hout
  cases hredact.runPlace (by rwa [List.append_nil]) hout with
  | run ps hidden qs hpieces hpre =>
    have hmem : .run run hidden ∈ redactAll pieces := by simp [hpieces]
    have hshown := hidden_of_mem_redactAll hmem
    rw [hpieces] at hredact
    cases hredact.of_append
    rw [isHidden, hmixed, decide_eq_true hlong] at hshown
    cases hshown
  | key ps kv qs hpieces hpre hkey =>
    obtain ⟨ps', kv', qs', hpieces', rfl, rfl⟩ := exists_pair_of_redactAll hpieces
    exact ⟨ps', kv', qs', hpieces', hpre.trans (textOf_redactAll ps'), hkey⟩
  | value hinside =>
    obtain ⟨ps, kv, qs, inner, hpieces, rfl, hinner⟩ := hinside
    obtain ⟨-, kv', -, -, -, rfl⟩ := exists_pair_of_redactAll hpieces
    have hvalue : kv'.redact.value = kRedactionMarker := by
      refine if_neg fun hnil => ?_
      change inner.length < (redacted kv'.value).length at hinner
      rw [hnil] at hinner
      exact Nat.not_lt_zero _ hinner
    rw [hpieces, textOf_append, textOf_cons, Piece.text, KeyValue.text, hvalue] at hout
    rw [hvalue] at hinner
    have hmarker : kRedactionMarker ++ textOf qs = inner ++ (run ++ post) := by
      simpa using hout
    exact absurd (length_lt_of_marker hrun.token hinner hmarker) (by omega)

/-! ## The text -/

/-- **A pair of the text is read, unless it starts inside a value.** -/
theorem Scanned.pair_read {pieces : List Piece} (h : Scanned [] pieces) {pre post : Bytes}
    {kv : KeyValue} (hback : ∀ c ∈ pre.getLast?, isTokenChar c = false) (hfits : kv.Fits post)
    (houtside : ¬ InsideValue pieces pre) (htext : textOf pieces = pre ++ (kv.text ++ post)) :
    ∃ ps qs, pieces = ps ++ .pair kv :: qs ∧ pre = textOf ps ∧ post = textOf qs := by
  have hrun : MaximalRun (pre.reverse ++ []) kv.key (kv.gap ++ (kv.value ++ post)) := by
    refine ⟨kv.key_ne, kv.key_token, ?_, kv.gap_head _⟩
    rwa [List.append_nil, List.head?_reverse]
  have hkey : textOf pieces = pre ++ (kv.key ++ (kv.gap ++ (kv.value ++ post))) := by
    rw [htext, KeyValue.text, KeyValue.front, List.append_assoc, List.append_assoc]
  cases h.runPlace hrun hkey with
  | run ps hidden qs hpieces hpre =>
    subst hpre
    rw [hpieces] at h htext
    cases h.of_append with
    | run hne hrun hback hstop hnone hrest =>
      have hsame : kv.key ++ textOf qs = kv.text ++ post := by
        simpa [Piece.text] using htext
      rw [hsame, hfits.tryKeyValue] at hnone
      cases hnone
  | key ps kv' qs hpieces hpre hkey =>
    subst hpre
    rw [hpieces] at h htext
    cases h.of_append with
    | pair hback hfits' hrest =>
      have hsame : kv.text ++ post = kv'.text ++ textOf qs := by
        simpa [Piece.text] using htext.symm
      obtain ⟨rfl, rfl⟩ := hfits.unique hfits' hsame
      exact ⟨ps, qs, hpieces, rfl, rfl⟩
  | value hinside => exact absurd hinside houtside

/-- **A scrubbed text has no token-shaped secret.** The scanner cuts the text into pieces; a long
run of letters and digits in the output is the key of one of its pairs, and a pair of the text that
starts in no other pair's value is shown with the marker for its value. -/
theorem scrub_hides (text : Bytes) :
    ∃ pieces, Scanned [] pieces ∧ textOf pieces = text ∧ scrub text = outputOf pieces
      ∧ (∀ pre run post, scrub text = pre ++ (run ++ post) → MaximalRun pre.reverse run post →
        20 ≤ run.length → runHasLetterAndDigit run = true →
        ∃ ps kv qs, pieces = ps ++ .pair kv :: qs ∧ pre = outputOf ps ∧ run = kv.key)
      ∧ ∀ pre kv post, text = pre ++ (KeyValue.text kv ++ post) →
        (∀ c ∈ pre.getLast?, isTokenChar c = false) → kv.Fits post → kv.value ≠ [] →
        ¬ InsideValue pieces pre →
        ∃ ps qs, pieces = ps ++ .pair kv :: qs ∧ pre = textOf ps ∧ post = textOf qs
          ∧ scrub text = outputOf ps ++ (kv.front ++ (kRedactionMarker ++ outputOf qs)) := by
  obtain ⟨pieces, rfl, hpieces, hscrub⟩ := exists_pieces text
  refine ⟨pieces, hpieces, rfl, hscrub, fun pre run post hout hrun hlong hmixed => ?_,
    fun pre kv post htext hback hfits hvalue houtside => ?_⟩
  · exact hpieces.key_of_output hrun hlong hmixed (hscrub.symm.trans hout)
  · obtain ⟨ps, qs, hsplit, hpre, hpost⟩ := hpieces.pair_read hback hfits houtside htext
    refine ⟨ps, qs, hsplit, hpre, hpost, ?_⟩
    rw [hscrub, hsplit, outputOf_append, outputOf_cons, Piece.output, KeyValue.output, redacted,
      if_neg hvalue, List.append_assoc]

example : scrub (ascii "'mpin' : '12 34' 0123456789abcdefghij")
    = ascii "'mpin' : '***REDACTED***' ***REDACTED***" := by decide

end BrokerExec.Domain
