import BrokerExec.Adapters.Kotak.ScrubAgain

/-!
# What `scrub` finds behind the redaction (`adapters/kotak/kotak_errors.cpp`)

`scrub` reads what `redact_kotak_keys` shows. A sensitive pair of that text is one of the broker's
own text, with markers in its value; so the text itself tells how much of a pair is open where a run
stands.

* **`openPair`** — that count, from `try_key_value` on the broker's text.
* **`exists_places`** — an echoed run stands in the value of a pair exactly where one is open.
-/

namespace BrokerExec.Adapters.Kotak

open BrokerExec.Domain (isTokenChar kRedactionMarker tryKeyValue KeyValue SensitiveKey Piece Scanned
  textOf outputOf editsOf markerPieces exists_head_of_run)

/-! ## Open pairs -/

/-- How many bytes `try_key_value` takes at the front of the text. -/
def pairSize (s : Bytes) : Nat :=
  match tryKeyValue s with
  | some (_, size) => size
  | none => 0

/-- How much of a pair is to come behind a part: an echoed run starts one where none is open. -/
def openBehind (post : Bytes) (left : Nat) : Part → Nat
  | .word chars => (if left = 0 then pairSize (chars ++ post) else left) - chars.length
  | .other _ => left - 1
  | .secret chars => left - chars.length

/-- How much of a pair is to come behind the parts, in front of `post`. -/
def openPair (post : Bytes) : Nat → List Part → Nat
  | left, [] => left
  | left, part :: parts => openPair post (openBehind (sourceOf parts ++ post) left part) parts

theorem openPair_append (post : Bytes) (left : Nat) (ps qs : List Part) :
    openPair post left (ps ++ qs) = openPair post (openPair (sourceOf qs ++ post) left ps) qs := by
  induction ps generalizing left with
  | nil => rfl
  | cons part ps ih =>
    rw [List.cons_append, openPair, openPair, ih, sourceOf_append, List.append_assoc]

theorem Part.length_pos {part : Part} {parts : List Part}
    (hcut : Cut isTokenChar ((part :: parts).map Part.token)) : 0 < part.token.text.length := by
  rw [List.map_cons] at hcut
  cases part with
  | other c => exact Nat.one_pos
  | word chars =>
    cases hcut with
    | run hne hrun hstop hrest => exact List.length_pos_iff.mpr hne
  | secret chars =>
    cases hcut with
    | run hne hrun hstop hrest => exact List.length_pos_iff.mpr hne

/-- Inside a pair the count goes down with the text. -/
theorem openPair_inside {parts : List Part} (hcut : ∀ part ∈ parts, 0 < part.token.text.length)
    (post : Bytes) {left : Nat} (hleft : (sourceOf parts).length ≤ left) :
    openPair post left parts = left - (sourceOf parts).length := by
  induction parts generalizing left with
  | nil => rfl
  | cons part parts ih =>
    have hpos := hcut part List.mem_cons_self
    rw [sourceOf_cons, List.length_append] at hleft ⊢
    have hbehind : openBehind (sourceOf parts ++ post) left part
        = left - part.token.text.length := by
      cases part with
      | word chars => exact congrArg (· - chars.length) (if_neg (by omega))
      | other c => rfl
      | secret chars => rfl
    rw [openPair, hbehind, ih (fun p hp => hcut p (List.mem_cons_of_mem part hp)) (by omega)]
    omega

/-! ## Places -/

/-- Where `scrub` finds an echoed run, behind `pre`: by itself, as the key of a pair or in a pair's
value. `post` is the broker's text behind the run, `left` what is open in front of it. -/
inductive Place (pieces : List Piece) (pre run post : Bytes) (left : Nat) : Prop where
  | run (ps : List Piece) (hidden : Bool) (qs : List Piece)
      (hpieces : pieces = ps ++ .run run hidden :: qs) (hpre : pre = textOf ps)
      (hnone : tryKeyValue (run ++ post) = none) (hleft : left = 0)
  | key (ps : List Piece) (kv : KeyValue) (qs : List Piece)
      (hpieces : pieces = ps ++ .pair kv :: qs) (hpre : pre = textOf ps) (hkey : run = kv.key)
      (hsome : (tryKeyValue (run ++ post)).isSome) (hleft : left = 0)
  | value (ps : List Piece) (kv : KeyValue) (qs : List Piece) (inner more : Bytes)
      (hpieces : pieces = ps ++ .pair kv :: qs) (hpre : pre = textOf ps ++ (kv.front ++ inner))
      (hvalue : kv.value = inner ++ (run ++ more)) (hleft : left ≠ 0)

theorem Place.append {pieces : List Piece} {pre run post : Bytes} {left : Nat}
    (h : Place pieces pre run post left) (front : List Piece) :
    Place (front ++ pieces) (textOf front ++ pre) run post left := by
  cases h with
  | run ps hidden qs hpieces hpre hnone hleft =>
    exact .run (front ++ ps) hidden qs (by simp [hpieces]) (by simp [hpre]) hnone hleft
  | key ps kv qs hpieces hpre hkey hsome hleft =>
    exact .key (front ++ ps) kv qs (by simp [hpieces]) (by simp [hpre]) hkey hsome hleft
  | value ps kv qs inner more hpieces hpre hvalue hleft =>
    exact .value (front ++ ps) kv qs inner more (by simp [hpieces]) (by simp [hpre]) hvalue hleft

/-- The echoed runs of `parts`, in front of `post`, have their places among the pieces. -/
def Placed (pieces : List Piece) (post : Bytes) (parts : List Part) : Prop :=
  ∀ ps run qs, parts = ps ++ .word run :: qs →
    Place pieces (shownOf ps) run (sourceOf qs ++ post)
      (openPair (run ++ (sourceOf qs ++ post)) 0 ps)

/-- No pair is open behind the first parts. -/
theorem Placed.append (front : List Part) (fs : List Piece) {parts : List Part}
    {pieces : List Piece} {post : Bytes}
    (hfront : Placed (fs ++ pieces) (sourceOf parts ++ post) front)
    (htext : textOf fs = shownOf front)
    (hclosed : openPair (sourceOf parts ++ post) 0 front = 0) (h : Placed pieces post parts) :
    Placed (fs ++ pieces) post (front ++ parts) := by
  intro ps run qs hparts
  rcases append_cases hparts with ⟨tail, rfl, htail⟩ | ⟨shared, hshared, hsplit, hrest⟩
  · have hplace := (h tail run qs htail).append fs
    have hopen : openPair (run ++ (sourceOf qs ++ post)) 0 (front ++ tail)
        = openPair (run ++ (sourceOf qs ++ post)) 0 tail := by
      have hbehind : sourceOf parts ++ post
          = sourceOf tail ++ (run ++ (sourceOf qs ++ post)) := by
        rw [htail, sourceOf_append, sourceOf_cons]
        simp [Part.token, Token.text]
      rw [openPair_append, ← hbehind, hclosed]
    rwa [hopen, shownOf_append, ← htext]
  · obtain ⟨first, shared, rfl⟩ := List.exists_cons_of_ne_nil hshared
    obtain ⟨rfl, rfl⟩ := List.cons.inj hrest
    have hplace := hfront ps run shared hsplit
    rwa [← List.append_assoc, ← sourceOf_append] at hplace

/-! ## Markers in a value -/

/-- Bytes in front of what is shown that belong to no run and to no marker stood in the text. -/
theorem exists_source_behind {parts : List Part} (hcut : Cut isTokenChar (parts.map Part.token))
    {plain out : Bytes} (hplain : ∀ c ∈ plain, isTokenChar c = false ∧ c ≠ 0x2A)
    (hout : shownOf parts = plain ++ out) : ∃ behind, sourceOf parts = plain ++ behind := by
  induction plain generalizing parts with
  | nil => exact ⟨_, rfl⟩
  | cons c plain ih =>
    obtain ⟨htoken, hstar⟩ := hplain c List.mem_cons_self
    cases parts with
    | nil => cases hout
    | cons part parts =>
      cases part with
      | other d =>
        obtain ⟨rfl, htail⟩ := List.cons.inj hout
        obtain ⟨behind, hbehind⟩ := ih hcut.of_cons
          (fun e he => hplain e (List.mem_cons_of_mem _ he)) htail
        exact ⟨behind, congrArg (_ :: ·) hbehind⟩
      | word chars =>
        cases hcut with
        | run hne hrun hstop hrest =>
          obtain ⟨d, ds, hds, hd⟩ := exists_head_of_run hne hrun (shownOf parts)
          change chars ++ shownOf parts = _ at hout
          rw [hds] at hout
          rw [(List.cons.inj hout).1, htoken] at hd
          cases hd
      | secret chars =>
        cases hcut with
        | run hne hrun hstop hrest =>
          change (if chars = [] then [] else kRedactionMarker) ++ shownOf parts = _ at hout
          rw [if_neg hne] at hout
          exact absurd (List.cons.inj hout).1.symm hstar

theorem mem_shownOf {parts : List Part} {c : UInt8} (hc : c ∈ shownOf parts) :
    c ∈ sourceOf parts ∨ c ∈ kRedactionMarker := by
  induction parts with
  | nil => cases hc
  | cons part parts ih =>
    rcases List.mem_append.mp (show c ∈ part.edit.apply kRedactionMarker part.edit.chars
        ++ shownOf parts from hc) with hpart | hparts
    · cases part with
      | other d => exact .inl (List.mem_append_left _ hpart)
      | word chars => exact .inl (List.mem_append_left _ hpart)
      | secret chars =>
        change c ∈ if chars = [] then [] else kRedactionMarker at hpart
        split_ifs at hpart
        · cases hpart
        · exact .inr hpart
    · exact (ih hparts).imp_left (List.mem_append_right _)

/-- A text is shown with the same first byte, or with the marker's. -/
theorem mem_head_shownOf {parts : List Part} (hcut : Cut isTokenChar (parts.map Part.token))
    {c : UInt8} (hc : c ∈ (shownOf parts).head?) :
    c ∈ (sourceOf parts).head? ∨ c ∈ kRedactionMarker := by
  cases parts with
  | nil => cases hc
  | cons part parts =>
    cases part with
    | other d => exact .inl hc
    | word chars =>
      cases hcut with
      | run hne hrun hstop hrest =>
        change c ∈ (chars ++ shownOf parts).head? at hc
        rw [List.head?_append_of_ne_nil _ hne] at hc
        left
        show c ∈ (chars ++ sourceOf parts).head?
        rwa [List.head?_append_of_ne_nil _ hne]
    | secret chars =>
      cases hcut with
      | run hne hrun hstop hrest =>
        change c ∈ ((if chars = [] then [] else kRedactionMarker) ++ shownOf parts).head? at hc
        rw [if_neg hne, List.head?_append_of_ne_nil _ (by decide)] at hc
        exact .inr (List.mem_of_mem_head? hc)

/-- A pair of the broker's text is one of the redacted text, with what is shown of its value. -/
theorem fits_shown {kv : KeyValue} {inside behind : List Part}
    (hcut : Cut isTokenChar ((inside ++ behind).map Part.token))
    (hfits : kv.Fits (sourceOf behind)) (hvalue : sourceOf inside = kv.value) :
    (kv.withValue (shownOf inside)).Fits (shownOf behind) := by
  have hbehind : Cut isTokenChar (behind.map Part.token) := by
    rw [List.map_append] at hcut
    exact hcut.of_append
  refine hfits.withValue (fun c hc => ?_) (shownOf_head hbehind hfits.stop_plain) fun c hc => ?_
  · rw [← hvalue]
    exact mem_shownOf hc
  · rw [← shownOf_append] at hc
    rw [← hvalue, ← sourceOf_append]
    exact mem_head_shownOf hcut hc

theorem eq_others_of_token {parts : List Part} {s : Bytes}
    (h : parts.map Part.token = s.map .other) : parts = s.map .other := by
  induction parts generalizing s with
  | nil => exact (List.map_eq_nil_iff.mp h.symm) ▸ rfl
  | cons part parts ih =>
    cases s with
    | nil => cases h
    | cons c s =>
      obtain ⟨hpart, hparts⟩ := List.cons.inj h
      cases part with
      | other d =>
        obtain rfl := Token.other.inj hpart
        exact congrArg (_ :: ·) (ih hparts)
      | word chars => cases hpart
      | secret chars => cases hpart

/-- The tokens of a pair: its key, the bytes of its gap, and its value. -/
theorem exists_parts_of_pair {chars rest : Bytes} {parts : List Part} {kv : KeyValue}
    (hcut : Cut isTokenChar ((.word chars :: parts).map Part.token))
    (hfits : kv.Fits rest) (htext : chars ++ sourceOf parts = kv.text ++ rest) :
    chars = kv.key ∧ ∃ inside behind, parts = kv.gap.map .other ++ (inside ++ behind)
      ∧ sourceOf inside = kv.value ∧ sourceOf behind = rest := by
  cases hcut with
  | run hne hrun hstop hrest =>
    rw [KeyValue.text, KeyValue.front, List.append_assoc, List.append_assoc] at htext
    obtain ⟨hkey, hsource⟩ := append_inj_of_stop (P := (isTokenChar · = true)) hrun kv.key_token
      (fun c hc => by simp [hstop c hc]) (fun c hc => by simp [kv.gap_head _ c hc]) htext
    refine ⟨hkey, ?_⟩
    have hgap : ∀ c ∈ kv.gap.getLast?, isTokenChar c = false :=
      fun c hc => kv.gap_plain c (List.mem_of_mem_getLast? hc)
    have htokens := hrest.split hsource (.inl hgap)
    rw [tokens_others kv.gap_plain, tokens_append (.inr hfits.stop_plain)] at htokens
    obtain ⟨gap, tail, rfl, hgapTokens, htail⟩ := List.map_eq_append_iff.mp htokens
    obtain ⟨inside, behind, rfl, hinside, hbehind⟩ := List.map_eq_append_iff.mp htail
    refine ⟨inside, behind, ?_, ?_, ?_⟩
    · rw [eq_others_of_token hgapTokens]
    · rw [sourceOf, hinside, textOf_tokens]
    · rw [sourceOf, hbehind, textOf_tokens]

@[simp] theorem sourceOf_others (s : Bytes) : sourceOf (s.map .other) = s := by
  induction s with
  | nil => rfl
  | cons c s ih => exact congrArg (c :: ·) ih

@[simp] theorem shownOf_others (s : Bytes) : shownOf (s.map .other) = s := by
  induction s with
  | nil => rfl
  | cons c s ih => exact congrArg (c :: ·) ih

theorem length_pos_of_cut {parts : List Part} (hcut : Cut isTokenChar (parts.map Part.token)) :
    ∀ part ∈ parts, 0 < part.token.text.length := by
  induction parts with
  | nil => exact fun _ hmem => by cases hmem
  | cons part parts ih =>
    exact List.forall_mem_cons.mpr ⟨Part.length_pos hcut, ih hcut.of_cons⟩

/-! ## The pieces behind the redaction -/

section

variable {post : Bytes}

/-- A byte is a piece. -/
theorem Placed.other {pieces : List Piece} {parts : List Part} (c : UInt8)
    (h : Placed pieces post parts) : Placed (.other c :: pieces) post (.other c :: parts) := by
  refine Placed.append [.other c] [.other c] ?_ rfl rfl h
  intro ps run qs hsplit
  rcases List.singleton_eq_append_iff.mp hsplit with ⟨-, hword⟩ | ⟨-, hword⟩ <;> cases hword

/-- A value that is redacted is the marker's pieces. -/
theorem Placed.secret {pieces : List Piece} {parts : List Part} {chars : Bytes} (hne : chars ≠ [])
    (h : Placed pieces post parts) :
    Placed (markerPieces ++ pieces) post (.secret chars :: parts) := by
  refine Placed.append [.secret chars] markerPieces ?_ ?_ ?_ h
  · intro ps run qs hsplit
    rcases List.singleton_eq_append_iff.mp hsplit with ⟨-, hword⟩ | ⟨-, hword⟩ <;> cases hword
  · show kRedactionMarker = (if chars = [] then [] else kRedactionMarker) ++ []
    rw [if_neg hne, List.append_nil]
  · exact Nat.zero_sub chars.length

/-- An echoed run that starts no pair is a piece. -/
theorem Placed.word {pieces : List Piece} {parts : List Part} {chars : Bytes} (hidden : Bool)
    (hnone : tryKeyValue (chars ++ (sourceOf parts ++ post)) = none)
    (h : Placed pieces post parts) :
    Placed (.run chars hidden :: pieces) post (.word chars :: parts) := by
  refine Placed.append [.word chars] [.run chars hidden] ?_ ?_ ?_ h
  · intro ps run qs hsplit
    rcases List.singleton_eq_append_iff.mp hsplit with ⟨rfl, hword⟩ | ⟨-, hword⟩
    · obtain ⟨hrun, rfl⟩ := List.cons.inj hword
      obtain rfl := Part.word.inj hrun
      exact .run [] hidden pieces rfl rfl hnone rfl
    · cases hword
  · exact (List.append_nil chars).trans (List.append_nil chars).symm
  · have hsize : pairSize (chars ++ (sourceOf parts ++ post)) = 0 := by
      rw [pairSize, hnone]
    show (if 0 = 0 then pairSize (chars ++ ([] ++ (sourceOf parts ++ post))) else 0)
      - chars.length = 0
    rw [if_pos rfl, List.nil_append, hsize, Nat.zero_sub]

/-- A pair that is cut behind some of its tokens. -/
theorem text_of_split {inside tail more : List Part} {kv : KeyValue}
    (hvalue : sourceOf inside = kv.value) (hsplit : kv.gap.map .other ++ inside = tail ++ more)
    (rest : Bytes) : kv.key ++ (sourceOf tail ++ (sourceOf more ++ rest)) = kv.text ++ rest := by
  have hsource : sourceOf tail ++ sourceOf more = kv.gap ++ kv.value := by
    rw [← sourceOf_append, ← hsplit, sourceOf_append, sourceOf_others, hvalue]
  rw [← List.append_assoc (sourceOf tail), hsource, KeyValue.text, KeyValue.front]
  simp only [List.append_assoc]

/-- The rest of it is open there. -/
theorem openPair_of_split {inside tail more : List Part} {kv : KeyValue} {rest : Bytes}
    (hpos : ∀ part ∈ inside, 0 < part.token.text.length) (hfits : kv.Fits rest)
    (hvalue : sourceOf inside = kv.value) (hsplit : kv.gap.map .other ++ inside = tail ++ more) :
    openPair (sourceOf more ++ rest) 0 (.word kv.key :: tail)
      = kv.gap.length + kv.value.length - (sourceOf tail).length := by
  have hlength : kv.text.length = kv.key.length + (kv.gap.length + kv.value.length) := by
    rw [KeyValue.text, KeyValue.front, List.length_append, List.length_append, Nat.add_assoc]
  have hbound : (sourceOf tail).length ≤ kv.gap.length + kv.value.length := by
    have hsource := congrArg (fun parts => (sourceOf parts).length) hsplit
    simp only [sourceOf_append, sourceOf_others, hvalue, List.length_append] at hsource
    omega
  have htail : ∀ part ∈ tail, 0 < part.token.text.length := by
    intro part hpart
    have hmem : part ∈ kv.gap.map .other ++ inside := hsplit ▸ List.mem_append_left _ hpart
    rcases List.mem_append.mp hmem with hgap | hinside
    · obtain ⟨c, -, rfl⟩ := List.mem_map.mp hgap
      exact Nat.one_pos
    · exact hpos part hinside
  have hstart : openBehind (sourceOf tail ++ (sourceOf more ++ rest)) 0 (.word kv.key)
      = kv.gap.length + kv.value.length := by
    show (if 0 = 0 then pairSize (kv.key ++ (sourceOf tail ++ (sourceOf more ++ rest))) else 0)
      - kv.key.length = _
    rw [if_pos rfl, text_of_split hvalue hsplit, pairSize, hfits.tryKeyValue]
    show kv.text.length - kv.key.length = _
    omega
  rw [openPair, hstart, openPair_inside htail _ hbound]

/-- A pair of the broker's text is a piece, and the echoed runs of its value are in it. -/
theorem Placed.pair {pieces : List Piece} {inside behind : List Part} {kv : KeyValue}
    (hpos : ∀ part ∈ inside, 0 < part.token.text.length)
    (hfits : kv.Fits (sourceOf behind ++ post)) (hvalue : sourceOf inside = kv.value)
    (h : Placed pieces post behind) :
    Placed (.pair (kv.withValue (shownOf inside)) :: pieces) post
      (.word kv.key :: (kv.gap.map .other ++ (inside ++ behind))) := by
  have happend : Part.word kv.key :: (kv.gap.map .other ++ (inside ++ behind))
      = (.word kv.key :: (kv.gap.map .other ++ inside)) ++ behind := by simp
  rw [happend]
  refine Placed.append _ [.pair (kv.withValue (shownOf inside))] ?_ ?_ ?_ h
  · intro ps run qs hparts
    cases ps with
    | nil =>
      obtain ⟨hkey, rfl⟩ := List.cons.inj hparts
      obtain rfl := Part.word.inj hkey
      refine .key [] _ pieces rfl rfl rfl ?_ rfl
      have hwhole := text_of_split hvalue (List.append_nil _).symm
        (sourceOf behind ++ post)
      rw [show sourceOf [] = [] from rfl, List.nil_append] at hwhole
      rw [hwhole, hfits.tryKeyValue]
      rfl
    | cons part ps =>
      obtain ⟨rfl, hinside⟩ := List.cons.inj hparts
      rcases append_cases hinside with ⟨tail, rfl, htail⟩ | ⟨shared, hshared, hgap, hrest⟩
      · -- the run is in the value
        refine .value [] _ pieces (shownOf tail) (shownOf qs) rfl ?_ ?_ ?_
        · show kv.key ++ shownOf (kv.gap.map .other ++ tail) = kv.key ++ kv.gap ++ shownOf tail
          rw [shownOf_append, shownOf_others, List.append_assoc]
        · show shownOf inside = _
          rw [htail, shownOf_append]
          rfl
        · have hsplit : kv.gap.map .other ++ inside
              = (kv.gap.map .other ++ tail) ++ .word run :: qs := by
            rw [htail, List.append_assoc]
          have hleft := openPair_of_split hpos hfits hvalue hsplit
          have hrun : 0 < run.length := hpos (.word run) (by simp [htail])
          have hlength := congrArg (fun parts => (sourceOf parts).length) htail
          simp only [hvalue, sourceOf_append, sourceOf_cons, List.length_append] at hlength
          change kv.value.length = _ + (run.length + _) at hlength
          rw [sourceOf_append, sourceOf_others, List.length_append] at hleft
          change openPair ((run ++ sourceOf qs) ++ (sourceOf behind ++ post)) 0 _ = _ at hleft
          rw [List.append_assoc] at hleft
          rw [hleft]
          omega
      · -- no run stands in the gap
        obtain ⟨first, shared, rfl⟩ := List.exists_cons_of_ne_nil hshared
        obtain ⟨rfl, -⟩ := List.cons.inj hrest
        have hmem : Part.word run ∈ kv.gap.map .other := by simp [hgap]
        obtain ⟨c, -, hc⟩ := List.mem_map.mp hmem
        cases hc
  · show (kv.front ++ shownOf inside) ++ [] = kv.key ++ shownOf (kv.gap.map .other ++ inside)
    rw [List.append_nil, shownOf_append, shownOf_others, KeyValue.front, List.append_assoc]
  · have hleft := openPair_of_split hpos hfits hvalue (List.append_nil _).symm
    rw [sourceOf_append, sourceOf_others, hvalue, List.length_append, Nat.sub_self] at hleft
    exact hleft

end

/-- **An echoed run is found in the value of a pair exactly where one is open.** -/
theorem exists_places (parts : List Part) (hcut : Cut isTokenChar (parts.map Part.token))
    (back : Bytes) (hbetween : (∀ c ∈ back.head?, isTokenChar c = false)
      ∨ ∀ c ∈ (sourceOf parts).head?, isTokenChar c = false) :
    ∃ pieces, textOf pieces = shownOf parts ∧ Scanned back pieces ∧ Placed pieces [] parts := by
  induction hn : parts.length using Nat.strong_induction_on generalizing parts back with
  | _ n ih =>
    -- strong induction: a pair takes its whole region in one step
    subst hn
    cases parts with
    | nil => exact ⟨[], rfl, .nil, fun ps run qs hsplit => by simp at hsplit⟩
    | cons part parts =>
      have hshort : parts.length < (part :: parts).length := Nat.lt_succ_self _
      have hrest := hcut.of_cons
      cases part with
      | other c =>
        cases hcut with
        | other hc hrest =>
          obtain ⟨pieces, htext, hpieces, hplaced⟩ := ih _ hshort parts hrest (c :: back)
            (.inl (by simpa using hc)) rfl
          exact ⟨.other c :: pieces, congrArg (c :: ·) htext, .other hc hpieces, hplaced.other c⟩
      | secret chars =>
        cases hcut with
        | run hne hrun hstop hrest =>
          obtain ⟨pieces, htext, hpieces, hplaced⟩ := ih _ hshort parts hrest
            (kRedactionMarker.reverse ++ back) (.inl (by
              rintro c ⟨⟩
              decide)) rfl
          refine ⟨markerPieces ++ pieces, ?_, Domain.scanned_markerPieces hpieces,
            hplaced.secret hne⟩
          show kRedactionMarker ++ textOf pieces
            = (if chars = [] then [] else kRedactionMarker) ++ shownOf parts
          rw [if_neg hne, htext]
      | word chars =>
        have hword := hcut
        cases hcut with
        | run hne hrun hstop _ =>
          have hback : ∀ c ∈ back.head?, isTokenChar c = false :=
            hbetween.resolve_right fun hplain => by
              obtain ⟨c, cs, hcs, hc⟩ := exists_head_of_run hne hrun (sourceOf parts)
              rw [hplain c (by rw [sourceOf_cons]; exact hcs ▸ rfl)] at hc
              cases hc
          cases hfound : tryKeyValue (chars ++ sourceOf parts) with
          | some found =>
            -- the pair of the broker's text, with markers for the values inside its value
            obtain ⟨kv, rest, htext, hfits⟩ := Domain.tryKeyValue_isSome_iff.mp
              (by rw [hfound]; rfl)
            obtain ⟨rfl, inside, behind, rfl, hvalue, rfl⟩ :=
              exists_parts_of_pair hword hfits htext
            have hsuffix : Cut isTokenChar ((inside ++ behind).map Part.token) := by
              rw [List.map_append] at hrest
              exact hrest.of_append
            have hbehind : Cut isTokenChar (behind.map Part.token) := by
              rw [List.map_append] at hsuffix
              exact hsuffix.of_append
            obtain ⟨pieces, hpiecesText, hpieces, hplaced⟩ := ih behind.length (by
              simp only [List.length_cons, List.length_append]
              omega) behind hbehind
              ((kv.withValue (shownOf inside)).text.reverse ++ back)
              (.inr hfits.stop_plain) rfl
            have hpos : ∀ part ∈ inside, 0 < part.token.text.length := fun part hpart =>
              length_pos_of_cut hsuffix part (List.mem_append_left _ hpart)
            refine ⟨.pair (kv.withValue (shownOf inside)) :: pieces, ?_,
              .pair hback ?_ hpieces, hplaced.pair hpos (by rwa [List.append_nil]) hvalue⟩
            · show (kv.front ++ shownOf inside) ++ textOf pieces
                = kv.key ++ shownOf (kv.gap.map .other ++ (inside ++ behind))
              rw [hpiecesText, shownOf_append, shownOf_others, shownOf_append, KeyValue.front]
              simp only [List.append_assoc]
            · rw [hpiecesText]
              exact fits_shown hsuffix hfits hvalue
          | none =>
            obtain ⟨pieces, htext, hpieces, hplaced⟩ := ih _ hshort parts hrest
              (chars.reverse ++ back) (.inr hstop) rfl
            have hshown : ∀ c ∈ (textOf pieces).head?, isTokenChar c = false := by
              rw [htext, shownOf_head hrest hstop]
              exact hstop
            -- the redaction moves no byte of a link, so it makes no pair
            have hnone : tryKeyValue (chars ++ textOf pieces) = none := by
              refine Domain.tryKeyValue_eq_none_of_behind hrun hshown
                (fun plain out hplain hout => ?_) hfound
              exact exists_source_behind hrest hplain (htext.symm.trans hout)
            exact ⟨.run chars _ :: pieces, congrArg (chars ++ ·) htext,
              .run hne hrun hback hshown hnone hpieces,
              hplaced.word _ (by rwa [List.append_nil])⟩

end BrokerExec.Adapters.Kotak
