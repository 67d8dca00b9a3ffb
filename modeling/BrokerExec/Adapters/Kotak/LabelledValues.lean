import BrokerExec.Adapters.Kotak.TwoPasses
import BrokerExec.Domain.ScrubSecrets

/-!
# What a labelled value leaves in the output (`adapters/kotak/kotak_errors.cpp`)

* **`trace`** — the output of `scrub_broker_text`, each byte with the place it is copied from.
* **`LabelledValue`** — a value behind a label and `:` or `=`, wherever it stands in the text.
* **`copied_iff`** — a value is copied only where its label is itself the value of a label in front:
  the redaction takes the label, and forgets it. Then `scrub` alone decides.
-/

namespace BrokerExec.Adapters.Kotak

open BrokerExec.Domain (isTokenChar kRedactionMarker tryKeyValue scrub scrubEdits MaximalRun Scanned
  Piece textOf editsOf exists_pieces authContextBefore runHasLetterAndDigit isHidden)

/-! ## Where the output comes from -/

/-- The bytes of a stretch that starts at place `n`, each with its place. -/
def tracked (n : Nat) (text : Bytes) : List (UInt8 × Option Nat) :=
  (text.zipIdx n).map fun (c, i) => (c, some i)

def trackedMarker : List (UInt8 × Option Nat) := kRedactionMarker.map fun c => (c, none)

/-- The output of `scrub_broker_text`, each byte with the place it is copied from. -/
def trace (text : Bytes) : List (UInt8 × Option Nat) :=
  let redacted := redactKotakKeys text
  Edit.carry trackedMarker (scrubEdits redacted.length [] redacted)
    (Edit.carry trackedMarker (redactEdits text.length false text) (tracked 0 text))

@[simp] theorem tracked_bytes (n : Nat) (text : Bytes) : (tracked n text).map Prod.fst = text := by
  rw [tracked, List.map_map]
  exact List.zipIdx_map_fst n text

theorem trackedMarker_bytes : trackedMarker.map Prod.fst = kRedactionMarker := by
  rw [trackedMarker, List.map_map]
  exact List.map_id kRedactionMarker

@[simp] theorem length_tracked (n : Nat) (text : Bytes) :
    (tracked n text).length = text.length := by
  rw [tracked, List.length_map, List.length_zipIdx]

theorem tracked_append (n : Nat) (a b : Bytes) :
    tracked n (a ++ b) = tracked n a ++ tracked (n + a.length) b := by
  rw [tracked, List.zipIdx_append, List.map_append]
  rfl

theorem source_edits (parts : List Part) : Edit.source (parts.map Part.edit) = sourceOf parts := by
  induction parts with
  | nil => rfl
  | cons part parts ih =>
    rw [List.map_cons, Edit.source_cons, sourceOf_cons, ih]
    cases part <;> rfl

theorem source_partsOf (text : Bytes) : Edit.source ((partsOf text).map Part.edit) = text := by
  rw [source_edits, sourceOf_partsOf]

/-- **The trace is the output.** -/
theorem trace_bytes (text : Bytes) : (trace text).map Prod.fst = scrubBrokerText text := by
  obtain ⟨pieces, htext, hpieces, hscrub⟩ := exists_pieces (redactKotakKeys text)
  have hredact : Edit.carry kRedactionMarker (redactEdits text.length false text) text
      = redactKotakKeys text := by
    have hcarry := Edit.carry_source kRedactionMarker ((partsOf text).map Part.edit)
    rwa [source_partsOf, ← redactEdits_text, shown_redactEdits] at hcarry
  have hscrubEdits : scrubEdits (redactKotakKeys text).length [] (redactKotakKeys text)
      = editsOf pieces := by
    rw [← htext]
    exact hpieces.scrubEdits le_rfl
  rw [trace, Edit.carry_map, Edit.carry_map, trackedMarker_bytes, tracked_bytes, hredact,
    hscrubEdits, scrubBrokerText, hscrub, ← hpieces.shown_editsOf, ← Edit.carry_source,
    Domain.source_editsOf, htext]

/-- **A byte of the output that has a place stands there in the text.** -/
theorem getElem?_of_mem_trace {text : Bytes} {c : UInt8} {i : Nat}
    (h : (c, some i) ∈ trace text) : text[i]? = some c := by
  have hmarker : (c, some i) ∉ trackedMarker := by simp [trackedMarker]
  have htracked : (c, some i) ∈ tracked 0 text :=
    ((Edit.mem_carry ((Edit.mem_carry h).resolve_left hmarker)).resolve_left hmarker)
  simpa [tracked, List.mem_zipIdx_iff_getElem?] using htracked

/-! ## Labelled values -/

/-- A value behind a label: the label and the value are maximal token runs, and between them stands
a run of quotes, blanks, `:` and `=`, with a `:` or `=` in it. -/
structure LabelledValue (text : Bytes) where
  pre : Bytes
  key : Bytes
  separators : Bytes
  value : Bytes
  post : Bytes
  text_eq : text = pre ++ (key ++ separators) ++ (value ++ post)
  key_run : MaximalRun pre.reverse key (separators ++ (value ++ post))
  key_secret : isKotakSecretKey key = true
  separators_all : ∀ c ∈ separators, isKeySeparator c = true
  separators_explicit : (separators.any fun c => c == 0x3A || c == 0x3D) = true
  value_run : MaximalRun (pre ++ (key ++ separators)).reverse value post

namespace LabelledValue

variable {text : Bytes}

/-- The text in front of the value. -/
def front (o : LabelledValue text) : Bytes := o.pre ++ (o.key ++ o.separators)

/-- A byte of the value is copied to the output. -/
def Copied (o : LabelledValue text) : Prop :=
  ∃ c i, (c, some i) ∈ trace text ∧ o.front.length ≤ i ∧ i < o.front.length + o.value.length

/-- The label is the value of a label in front of it. -/
def labelTaken (o : LabelledValue text) : Bool :=
  takes (labelAfter none (tokens isTokenChar o.pre)) o.key

/-- The value stands in the value of a sensitive pair. -/
def enclosed (o : LabelledValue text) : Bool :=
  openPair (o.value ++ o.post) 0 (partsOf o.front) ≠ 0

/-- The value has the shape of a token, and is no key of a sensitive pair. -/
def tokenShaped (o : LabelledValue text) : Bool :=
  20 ≤ o.value.length && runHasLetterAndDigit o.value && (tryKeyValue (o.value ++ o.post)).isNone

/-! ## The two passes over a labelled value -/

theorem separators_plain (o : LabelledValue text) : ∀ c ∈ o.separators, isTokenChar c = false :=
  fun c hc => not_token_of_isKeySeparator (o.separators_all c hc)

theorem key_last (o : LabelledValue text) : ∀ c ∈ o.pre.getLast?, isTokenChar c = false := by
  have hleft := o.key_run.left
  rwa [List.head?_reverse] at hleft

theorem front_last (o : LabelledValue text) : ∀ c ∈ o.front.getLast?, isTokenChar c = false := by
  have hleft := o.value_run.left
  rwa [List.head?_reverse] at hleft

theorem tokens_front (o : LabelledValue text) : tokens isTokenChar o.front
    = tokens isTokenChar o.pre ++ .run o.key :: o.separators.map .other := by
  have hhead : ∀ c ∈ o.separators.head?, isTokenChar c = false :=
    fun c hc => o.separators_plain c (List.mem_of_mem_head? hc)
  rw [front, tokens_append (.inl o.key_last),
    tokens_run_append o.key_run.ne o.key_run.token hhead, tokens_others o.separators_plain]

/-- Behind a label that was taken nothing waits; behind another, the label does. -/
theorem labelAfter_front (o : LabelledValue text) :
    labelAfter none (tokens isTokenChar o.front) = if o.labelTaken then none else some true := by
  rw [tokens_front, labelAfter_append, labelAfter]
  show labelAfter (if o.labelTaken then none else labelOf o.key) _ = _
  split_ifs
  · exact labelAfter_none_others o.separators
  · rw [labelOf, if_pos o.key_secret, labelAfter_separators o.separators_all,
      o.separators_explicit, Bool.false_or]

/-- What the redaction makes of the text around the value. -/
theorem partsOf_text (o : LabelledValue text) : ∃ qs, sourceOf qs = o.post
    ∧ partsOf text = partsOf o.front
      ++ (if o.labelTaken then .word o.value else .secret o.value) :: qs := by
  have hparts : partsOf text = partsOf o.front
      ++ readLabels (if o.labelTaken then none else some true)
        (.run o.value :: tokens isTokenChar o.post) := by
    rw [← o.labelAfter_front, ← tokens_run_append o.value_run.ne o.value_run.token
      o.value_run.right, partsOf, partsOf, ← readLabels_append, ← tokens_append (.inl o.front_last),
      front, ← o.text_eq]
  rw [hparts]
  have hsource (label : Option Bool) :
      sourceOf (readLabels label (tokens isTokenChar o.post)) = o.post := by
    rw [sourceOf, readLabels_token, textOf_tokens]
  split_ifs
  · exact ⟨_, hsource _, rfl⟩
  · exact ⟨_, hsource none, rfl⟩

/-- No byte of the value has its place in the list. -/
def Avoided (o : LabelledValue text) (along : List (UInt8 × Option Nat)) : Prop :=
  ∀ c i, (c, some i) ∈ along → i < o.front.length ∨ o.front.length + o.value.length ≤ i

theorem not_copied_iff (o : LabelledValue text) : ¬ o.Copied ↔ o.Avoided (trace text) := by
  constructor
  · intro hcopied c i hmem
    by_contra hinside
    rw [not_or, Nat.not_lt, Nat.not_le] at hinside
    exact hcopied ⟨c, i, hmem, hinside⟩
  · rintro havoided ⟨c, i, hmem, hfrom, hto⟩
    have hout := havoided c i hmem
    omega

theorem not_mem_trackedMarker (c : UInt8) (i : Nat) : (c, some i) ∉ trackedMarker := by
  simp [trackedMarker]

theorem Avoided.carry {o : LabelledValue text} {along : List (UInt8 × Option Nat)}
    (h : o.Avoided along) (es : List (Edit UInt8)) :
    o.Avoided (Edit.carry trackedMarker es along) := fun c i hmem =>
  h c i ((Edit.mem_carry hmem).resolve_left (not_mem_trackedMarker c i))

theorem Avoided.mono {o : LabelledValue text} {along along' : List (UInt8 × Option Nat)}
    (h : o.Avoided along) (hsub : along' ⊆ along) : o.Avoided along' := fun c i hmem =>
  h c i (hsub hmem)

/-- Nothing comes out of a value that stands in a hidden stretch. -/
theorem Avoided.hide {o : LabelledValue text} {along : List (UInt8 × Option Nat)}
    {es fs : List (Edit UInt8)} {chars : Bytes} (hlength : (Edit.source es).length ≤ along.length)
    (hbefore : o.Avoided (along.take (Edit.source es).length))
    (hbehind : o.Avoided (along.drop ((Edit.source es).length + chars.length))) :
    o.Avoided (Edit.carry trackedMarker (es ++ .hide chars :: fs) along) := by
  intro c i hmem
  rcases Edit.mem_carry_hide hlength hmem with hmarker | hmem | hmem
  · exact absurd hmarker (not_mem_trackedMarker c i)
  · exact hbefore c i hmem
  · exact hbehind c i hmem

theorem mem_tracked {n i : Nat} {s : Bytes} {c : UInt8} (h : (c, some i) ∈ tracked n s) :
    n ≤ i ∧ i < n + s.length := by
  obtain ⟨⟨d, j⟩, hmem, heq⟩ := List.mem_map.mp h
  obtain ⟨rfl, rfl⟩ : d = c ∧ j = i := by simpa using heq
  exact ⟨List.le_snd_of_mem_zipIdx hmem, List.snd_lt_add_of_mem_zipIdx hmem⟩

theorem avoided_front (o : LabelledValue text) : o.Avoided (tracked 0 o.front) := by
  intro c i hmem
  have hplace := mem_tracked hmem
  omega

theorem avoided_post (o : LabelledValue text) :
    o.Avoided (tracked (o.front.length + o.value.length) o.post) :=
  fun _ _ hmem => .inr (mem_tracked hmem).1

theorem tracked_text (o : LabelledValue text) : tracked 0 text = tracked 0 o.front
    ++ (tracked o.front.length o.value ++ tracked (o.front.length + o.value.length) o.post) := by
  have hsplit := tracked_append 0 o.front (o.value ++ o.post)
  rwa [Nat.zero_add, tracked_append o.front.length, front, ← o.text_eq] at hsplit

/-- A label that is read hides its value. -/
theorem avoided_of_label (o : LabelledValue text) (hlabel : o.labelTaken = false) :
    o.Avoided (trace text) := by
  obtain ⟨qs, -, hparts⟩ := o.partsOf_text
  rw [hlabel, if_neg Bool.false_ne_true] at hparts
  refine Avoided.carry ?_ _
  have hsource := source_partsOf o.front
  rw [redactEdits_text, hparts, List.map_append, List.map_cons, Part.edit, o.tracked_text]
  refine Avoided.hide ?_ ?_ ?_
  · rw [hsource, List.length_append, length_tracked]
    exact Nat.le_add_right _ _
  · rw [hsource, ← length_tracked 0 o.front, List.take_left]
    exact o.avoided_front
  · rw [hsource, ← List.append_assoc]
    have hlength : o.front.length + o.value.length
        = (tracked 0 o.front ++ tracked o.front.length o.value).length := by
      rw [List.length_append, length_tracked, length_tracked]
    rw [hlength, List.drop_left, ← hlength]
    exact o.avoided_post

/-- Behind a label that is taken the redaction echoes the value. -/
theorem exists_echoed (o : LabelledValue text) (hlabel : o.labelTaken = true) :
    ∃ qs before behind, sourceOf qs = o.post ∧ partsOf text = partsOf o.front ++ .word o.value :: qs
      ∧ Edit.carry trackedMarker (redactEdits text.length false text) (tracked 0 text)
        = before ++ (tracked o.front.length o.value ++ behind)
      ∧ before.length = (shownOf (partsOf o.front)).length ∧ o.Avoided before
      ∧ o.Avoided behind := by
  obtain ⟨qs, hpost, hparts⟩ := o.partsOf_text
  rw [hlabel, if_pos rfl] at hparts
  have hsource := source_partsOf o.front
  have hlength : (tracked 0 o.front).length
      = (Edit.source ((partsOf o.front).map Part.edit)).length := by
    rw [hsource, length_tracked]
  refine ⟨qs, _, _, hpost, hparts, ?_, ?_,
    o.avoided_front.carry ((partsOf o.front).map Part.edit),
    o.avoided_post.carry (qs.map Part.edit)⟩
  · have hvalue : (tracked o.front.length o.value).length
        = (Part.word o.value).edit.chars.length := length_tracked _ _
    rw [redactEdits_text, hparts, List.map_append, List.map_cons, o.tracked_text,
      Edit.carry_append hlength, Edit.carry_cons _ hvalue]
    rfl
  · exact Edit.length_carry (List.length_map _) hlength

/-- A label that is taken shows the marker in front of its separators, so no keyword stands in the
window in front of its value. -/
theorem no_context (o : LabelledValue text) (hlabel : o.labelTaken = true) :
    authContextBefore (shownOf (partsOf o.front)).reverse = false := by
  have hparts : partsOf o.front = partsOf o.pre ++ .secret o.key :: o.separators.map .other := by
    rw [partsOf, tokens_front, readLabels_append, readLabels]
    show _ ++ (if o.labelTaken then _ else _) = _
    rw [if_pos hlabel, readLabels_others]
    rfl
  have hshown : (shownOf (partsOf o.front)).reverse = o.separators.reverse
      ++ (kRedactionMarker.reverse ++ (shownOf (partsOf o.pre)).reverse) := by
    rw [hparts, shownOf_append]
    show (_ ++ ((if o.key = [] then [] else kRedactionMarker)
      ++ shownOf (o.separators.map .other))).reverse = _
    rw [if_neg o.key_run.ne, shownOf_others, List.reverse_append, List.reverse_append,
      List.append_assoc]
  have hfollows : Domain.Follows (o.separators.reverse ++ []) (shownOf (partsOf o.front)).reverse
      [] := by
    refine .inr ⟨o.separators.reverse, [], _, rfl, hshown, fun c hc => ?_⟩
    rw [List.reverse_reverse, List.append_nil] at hc
    exact o.separators_plain c (List.mem_of_mem_head? hc)
  -- a keyword in the window would stand among the separators
  by_contra hauth
  have hauth := Domain.authContextBefore_of_follows hfollows (Bool.eq_true_of_not_eq_false hauth)
  rw [Domain.authContextBefore_iff, List.append_nil] at hauth
  obtain ⟨left, word, right, hwindow, hword, -, -⟩ := hauth
  obtain ⟨c, cs, hcs, hc⟩ := Domain.exists_head_of_run (Domain.word_ne hword)
    (Domain.isTokenChar_of_mem_word hword) []
  rw [List.append_nil] at hcs
  have hmem : c ∈ (o.separators.reverse.take 10).reverse := by
    rw [hwindow, hcs]
    simp
  rw [o.separators_plain c (by
    simpa using List.mem_of_mem_take (List.mem_reverse.mp hmem))] at hc
  cases hc

/-- Behind a label that is taken only a token-shaped value is hidden by itself. -/
theorem isHidden_eq (o : LabelledValue text) (hlabel : o.labelTaken = true) :
    isHidden (shownOf (partsOf o.front)).reverse o.value
      = (decide (20 ≤ o.value.length) && runHasLetterAndDigit o.value) := by
  rw [isHidden, o.no_context hlabel, Bool.and_false, Bool.or_false]

section

variable {o : LabelledValue text} {before behind : List (UInt8 × Option Nat)}
  {es fs : List (Edit UInt8)} {chars : Bytes}

/-- A stretch that holds the value is hidden. -/
theorem Avoided.of_hide (hbefore : o.Avoided before) (hbehind : o.Avoided behind)
    (hle : (Edit.source es).length ≤ before.length)
    (hge : before.length + o.value.length ≤ (Edit.source es).length + chars.length) :
    o.Avoided (Edit.carry trackedMarker (es ++ .hide chars :: fs)
      (before ++ (tracked o.front.length o.value ++ behind))) := by
  refine Avoided.hide ?_ ?_ ?_
  · rw [List.length_append]
    omega
  · rw [List.take_append_of_le_length hle]
    exact hbefore.mono (List.take_subset _ _)
  · have hlength : (before ++ tracked o.front.length o.value).length
        ≤ (Edit.source es).length + chars.length := by
      rwa [List.length_append, length_tracked]
    rw [← List.append_assoc, List.drop_append, List.drop_eq_nil_of_le hlength, List.nil_append]
    exact hbehind.mono (List.drop_subset _ _)

/-- A stretch that starts with the value is kept. -/
theorem copied_of_keep (hsource : (Edit.source es).length = before.length) (hne : chars ≠ [])
    (hscrub : trace text = Edit.carry trackedMarker (es ++ .keep chars :: fs)
      (before ++ (tracked o.front.length o.value ++ behind))) : o.Copied := by
  obtain ⟨c, cs, hvalue⟩ := List.exists_cons_of_ne_nil o.value_run.ne
  refine ⟨c, o.front.length, ?_, le_rfl, ?_⟩
  · rw [hscrub]
    refine Edit.mem_carry_keep ?_ ?_
    · rw [hsource, List.length_append]
      exact Nat.le_add_right _ _
    · obtain ⟨d, ds, rfl⟩ := List.exists_cons_of_ne_nil hne
      rw [hsource, List.drop_left, hvalue]
      exact List.mem_cons_self
  · rw [hvalue, List.length_cons]
    omega

/-! ### One lemma a place -/

variable {ps qs : List Piece} {hidden : Bool} {kv : Domain.KeyValue}

theorem length_source (hlength : before.length = (shownOf (partsOf o.front)).length)
    (hpre : shownOf (partsOf o.front) = textOf ps) :
    (Edit.source (editsOf ps)).length = before.length := by
  rw [Domain.source_editsOf, ← hpre, hlength]

/-- By itself the value is hidden as a token, or copied. -/
theorem copied_of_run (hlength : before.length = (shownOf (partsOf o.front)).length)
    (hbefore : o.Avoided before) (hbehind : o.Avoided behind)
    (hpre : shownOf (partsOf o.front) = textOf ps)
    (hscrub : trace text = Edit.carry trackedMarker (editsOf (ps ++ .run o.value hidden :: qs))
      (before ++ (tracked o.front.length o.value ++ behind))) : o.Copied ↔ hidden = false := by
  have hsource := length_source hlength hpre
  rw [Domain.editsOf_append, Domain.editsOf_cons] at hscrub
  cases hidden with
  | true =>
    refine iff_of_false (o.not_copied_iff.mpr ?_) (by simp)
    rw [hscrub]
    exact hbefore.of_hide hbehind hsource.le (by rw [hsource])
  | false => exact iff_of_true (copied_of_keep hsource o.value_run.ne hscrub) rfl

/-- As the key of a pair it is copied. -/
theorem copied_of_key (hlength : before.length = (shownOf (partsOf o.front)).length)
    (hpre : shownOf (partsOf o.front) = textOf ps)
    (hscrub : trace text = Edit.carry trackedMarker (editsOf (ps ++ .pair kv :: qs))
      (before ++ (tracked o.front.length o.value ++ behind))) : o.Copied := by
  rw [Domain.editsOf_append, Domain.editsOf_cons] at hscrub
  have hne : kv.front ≠ [] := by simp [Domain.KeyValue.front, kv.key_ne]
  exact copied_of_keep (length_source hlength hpre) hne hscrub

/-- In the value of a pair it is not. -/
theorem avoided_of_value {inner more : Bytes}
    (hlength : before.length = (shownOf (partsOf o.front)).length)
    (hbefore : o.Avoided before) (hbehind : o.Avoided behind)
    (hpre : shownOf (partsOf o.front) = textOf ps ++ (kv.front ++ inner))
    (hvalue : kv.value = inner ++ (o.value ++ more))
    (hscrub : trace text = Edit.carry trackedMarker (editsOf (ps ++ .pair kv :: qs))
      (before ++ (tracked o.front.length o.value ++ behind))) : o.Avoided (trace text) := by
  have hedits : editsOf (ps ++ .pair kv :: qs)
      = (editsOf ps ++ [.keep kv.front]) ++ .hide kv.value :: editsOf qs := by
    rw [Domain.editsOf_append, Domain.editsOf_cons, List.append_assoc]
    rfl
  have hsource : Edit.source (editsOf ps ++ [.keep kv.front]) = textOf ps ++ kv.front := by
    rw [Edit.source_append, Domain.source_editsOf]
    exact congrArg (textOf ps ++ ·) (List.append_nil kv.front)
  have hshown := congrArg List.length hpre
  have hlengthValue := congrArg List.length hvalue
  simp only [List.length_append] at hshown hlengthValue
  rw [hscrub, hedits]
  refine hbefore.of_hide hbehind ?_ ?_
  · rw [hsource, List.length_append]
    omega
  · rw [hsource, List.length_append]
    omega

end

/-- **A value is copied exactly where its label is itself a value, no sensitive pair holds it, and
it has not the shape of a token.** -/
theorem copied_iff (o : LabelledValue text) :
    o.Copied ↔ o.labelTaken = true ∧ o.enclosed = false ∧ o.tokenShaped = false := by
  cases hlabel : o.labelTaken with
  | false => exact iff_of_false (o.not_copied_iff.mpr (o.avoided_of_label hlabel)) (by simp)
  | true =>
    obtain ⟨qs, before, behind, hpost, hparts, hcarry, hlength, hbefore, hbehind⟩ :=
      o.exists_echoed hlabel
    obtain ⟨pieces, htext, hpieces, hplaced⟩ := exists_places (partsOf text)
      (by rw [partsOf, readLabels_token]; exact cut_tokens isTokenChar text) [] (.inl (by simp))
    have hscrub : trace text = Edit.carry trackedMarker (editsOf pieces)
        (before ++ (tracked o.front.length o.value ++ behind)) := by
      rw [trace, redactKotakKeys_eq, ← htext, hpieces.scrubEdits le_rfl, hcarry]
    have hplace := hplaced (partsOf o.front) o.value qs hparts
    rw [List.append_nil, hpost] at hplace
    cases hplace with
    | run ps hidden qs hsplit hpre hnone hleft =>
      subst hsplit
      have henclosed : o.enclosed = false := decide_eq_false (not_not.mpr hleft)
      have hhidden : hidden = o.tokenShaped := by
        -- the scanner's own rule for a run, and the window in front of this one
        cases hpieces.of_append with
        | run hne hrun hback hstop hshown hrest =>
          rw [List.append_nil, ← hpre, o.isHidden_eq hlabel, tokenShaped, hnone,
            Option.isNone_none, Bool.and_true]
      rw [copied_of_run hlength hbefore hbehind hpre hscrub, hhidden, henclosed]
      simp
    | key ps kv qs hsplit hpre hkey hsome hleft =>
      subst hsplit
      have henclosed : o.enclosed = false := decide_eq_false (not_not.mpr hleft)
      have htoken : o.tokenShaped = false := by
        rw [tokenShaped, Option.isNone_eq_false_iff.mpr hsome, Bool.and_false]
      exact iff_of_true (copied_of_key hlength hpre hscrub) ⟨rfl, henclosed, htoken⟩
    | value ps kv qs inner more hsplit hpre hvalue hleft =>
      subst hsplit
      have henclosed : o.enclosed = true := decide_eq_true hleft
      have havoided := avoided_of_value hlength hbefore hbehind hpre hvalue hscrub
      exact iff_of_false (o.not_copied_iff.mpr havoided) (by simp [henclosed])

end LabelledValue

/-- **A broker text is redacted exactly where no forgotten label has a value to show.** Scrubbing
twice is scrubbing once, always. No labelled value is copied if and only if each one whose label is
itself the value of a label in front stands in the value of a sensitive pair or has the shape of a
token. -/
theorem broker_text_redacted_iff (text : Bytes) :
    (scrubBrokerText (scrubBrokerText text) = scrubBrokerText text
      ∧ ∀ o : LabelledValue text, ¬ o.Copied)
    ↔ ∀ o : LabelledValue text, o.labelTaken = true →
      o.enclosed = true ∨ o.tokenShaped = true := by
  constructor
  · rintro ⟨-, hcopied⟩ o hlabel
    by_contra hshown
    rw [not_or, Bool.not_eq_true, Bool.not_eq_true] at hshown
    exact hcopied o (o.copied_iff.mpr ⟨hlabel, hshown⟩)
  · intro hhidden
    refine ⟨scrubBrokerText_again text, fun o hcopied => ?_⟩
    obtain ⟨hlabel, henclosed, htoken⟩ := o.copied_iff.mp hcopied
    rcases hhidden o hlabel with h | h
    · rw [henclosed] at h
      cases h
    · rw [htoken] at h
      cases h

/-- `auth` is the value of `sid`, and a label too. -/
def authBehindSid : LabelledValue (ascii "sid=auth=secret") where
  pre := ascii "sid="
  key := ascii "auth"
  separators := ascii "="
  value := ascii "secret"
  post := []
  text_eq := by decide
  key_run := ⟨by decide, by decide, by rintro c ⟨⟩; decide, by rintro c ⟨⟩; decide⟩
  key_secret := by decide
  separators_all := by decide
  separators_explicit := by decide
  value_run := ⟨by decide, by decide, by rintro c ⟨⟩; decide, by rintro c ⟨⟩⟩

theorem authBehindSid_copied :
    ¬ (scrubBrokerText (scrubBrokerText (ascii "sid=auth=secret"))
        = scrubBrokerText (ascii "sid=auth=secret")
      ∧ ∀ o : LabelledValue (ascii "sid=auth=secret"), ¬ o.Copied) := by
  rintro ⟨-, hcopied⟩
  exact hcopied authBehindSid ⟨0x73, 9, by decide, by decide, by decide⟩

/-! Inside a sensitive pair the forgotten label shows nothing. -/

example : scrubBrokerText (ascii "token=sid=auth=x") = ascii "token=***REDACTED***" := by decide

end BrokerExec.Adapters.Kotak
