import BrokerExec.Domain.ScrubCuts
import BrokerExec.Json.Spot
import BrokerExec.Json.Text

/-!
# A scrubbed JSON text (`domain/redaction.cpp`)

The scrubber does not know strings from numbers or keys. A stretch that it hides may be hidden
within a JSON string when the reader is at the same spot in front of the stretch and behind it.

* **`read_scrub`** — a text whose hidden stretches are all of this kind is read as it was.
* **`flipped_outputOf`** — a reader that takes the text of the strings for what stands between them,
  and the other way round, never finds back.
* **`scrubsInside_of_reads`** — so no other text stays readable, when no hidden stretch holds a
  double quote.
-/

namespace BrokerExec.Json

open BrokerExec.Domain

/-- **Every stretch that the scrubber hides lies in the text of one string**, and not in a key of
the outermost object: the reader is where it was, with the same containers open. -/
def scrubsInside (text : Bytes) : Bool :=
  Automaton.hidesInside Spot.step Spot.inText .initial (scrubEdits text.length [] text)

/-- No hidden stretch holds a double quote: a value in single quotes ends in its string. -/
def hidesNoQuote (text : Bytes) : Bool :=
  (scrubEdits text.length [] text).all fun
    | .hide hidden => !hidden.contains 0x22
    | .keep _ => true

example : scrubsInside (ascii "\x7b\"reason\":\"pin=1234 token=abc\"\x7d") = true := by
  decide +kernel

/-- Neither a number nor the backslash of an escape. -/
example : scrubsInside (ascii "\x7b\"token\":123\x7d") = false
    ∧ scrubsInside (ascii "\x7b\"reason\":\"token=\\\"abc\\\"\"\x7d") = false := by
  decide +kernel

variable {s t u v : Spot} {c : UInt8}

/-! ## Hidden inside a string -/

theorem read_kRedactionMarker (h : s.inText = true) : s.read kRedactionMarker = some s :=
  Spot.read_of_inText h (by decide)

/-- **What is hidden inside strings does not change how a text is read.** -/
theorem read_scrub {text : Bytes} (h : scrubsInside text = true) :
    Spot.initial.read (scrub text) = Spot.initial.read text := by
  obtain ⟨pieces, rfl, hpieces⟩ := exists_scanned text [] (.inl (by simp))
  rw [scrubsInside, hpieces.scrubEdits le_rfl] at h
  rw [hpieces.scrub_textOf, ← hpieces.shown_editsOf, ← source_editsOf]
  exact Automaton.run_shown (fun _ => read_kRedactionMarker) h

/-! ## Outside of strings -/

/-- Outside of strings stands none of the letters that sensitive keys have. -/
theorem toLowerAscii_of_outsideByte (h : isOutsideByte c = true) :
    toLowerAscii c ∉ ascii "ocpb" := by
  rw [isOutsideByte, Bool.or_eq_true, Bool.or_eq_true] at h
  rcases h with (hdigit | hblank) | hmem
  · have hsame : toLowerAscii c = c := by
      rw [toLowerAscii, if_neg]
      rintro ⟨hletter, -⟩
      rw [isDigit, Bool.and_eq_true, decide_eq_true_eq, decide_eq_true_eq] at hdigit
      exact absurd (le_trans hletter hdigit.2) (by decide)
    have hletters : ∀ b ∈ ascii "ocpb", isDigit b = false := by decide
    rw [hsame]
    intro hmem
    rw [hletters c hmem] at hdigit
    cases hdigit
  · have hblanks : ∀ b ∈ ([0x20, 0x09, 0x0A, 0x0D] : Bytes), toLowerAscii b ∉ ascii "ocpb" := by
      decide
    exact hblanks c (List.contains_iff_mem.mp hblank)
  · have hbytes : ∀ b ∈ ascii "\"+,-.:E[]aeflnrstu\x7b\x7d", toLowerAscii b ∉ ascii "ocpb" := by
      decide
    exact hbytes c (List.contains_iff_mem.mp hmem)

theorem exists_not_outsideByte {key : Bytes} (h : keyIsSensitive key = true) :
    ∃ c ∈ key, isOutsideByte c = false := by
  have hneedles : ∀ needle ∈ kSensitiveKeyNeedles, ∃ b ∈ needle, b ∈ ascii "ocpb" := by decide
  obtain ⟨needle, hneedle, hmet⟩ := List.any_eq_true.mp h
  obtain ⟨b, hb, hletter⟩ := hneedles needle hneedle
  obtain ⟨c, hc, hlower⟩ := List.mem_map.mp ((of_decide_eq_true hmet).subset hb)
  refine ⟨c, hc, Bool.eq_false_of_not_eq_true fun hbyte => ?_⟩
  exact toLowerAscii_of_outsideByte hbyte (hlower ▸ hletter)

/-- Text without a double quote leaves the reader outside of strings. -/
theorem read_outside {text : Bytes} (hs : s.Outside) (htext : ∀ c ∈ text, c ≠ 0x22)
    (h : s.read text = some t) : t.Outside ∧ ∀ c ∈ text, isOutsideByte c = true := by
  induction text generalizing s with
  | nil => exact ⟨Option.some.inj h ▸ hs, by simp⟩
  | cons c text ih =>
    obtain ⟨s', hfirst, hrest⟩ := Automaton.run_cons_eq_some.mp h
    obtain ⟨hbyte, -, houtside⟩ := Spot.step_outside hs hfirst
    obtain ⟨ht, hbytes⟩ := ih (houtside (htext c (by simp))) (fun c hc => htext c (by simp [hc]))
      hrest
    refine ⟨ht, fun d hd => ?_⟩
    rcases List.mem_cons.mp hd with rfl | hd
    · exact hbyte
    · exact hbytes d hd

/-- Text without a quote or a backslash leaves the reader between two bytes of its string. -/
theorem read_plain {text : Bytes} (hs : s.Plain)
    (htext : ∀ c ∈ text, c ≠ 0x22 ∧ c ≠ 0x5C) (h : s.read text = some t) : t.Plain := by
  refine Automaton.run_keeps_invariant (I := Spot.Plain) ?_ hs h
  rintro c hc s t ⟨role, hplace⟩ hstep
  rcases Spot.plain_step hplace hstep with ⟨hquote, -⟩ | ⟨hbackslash, -⟩ | ⟨-, -, rfl⟩
  · exact absurd hquote (htext c hc).1
  · exact absurd hbackslash (htext c hc).2
  · exact ⟨role, rfl⟩

/-! ## Readers at odds -/

/-- One of the readers is in a string, the other one is not. -/
def Flipped (s t : Spot) : Prop := (s.Outside ∧ t.Plain) ∨ (s.Plain ∧ t.Outside)

theorem step_apart {s' t' : Spot} (hs : s.Outside) (ht : t.Plain) (hs' : s.step c = some s')
    (ht' : t.step c = some t') : (s'.Outside ∧ t'.Plain) ∨ (s'.Plain ∧ t'.Outside) := by
  obtain ⟨hbyte, hplain, houtside⟩ := Spot.step_outside hs hs'
  obtain ⟨role, hplace⟩ := ht
  rcases Spot.plain_step hplace ht' with ⟨hquote, hout⟩ | ⟨hbackslash, -⟩ | ⟨hquote, -, rfl⟩
  · exact .inr ⟨hplain hquote, hout⟩
  · rw [hbackslash] at hbyte
    exact absurd hbyte (by decide)
  · exact .inl ⟨houtside hquote, role, rfl⟩

theorem Flipped.symm (h : Flipped s t) : Flipped t s := by
  rcases h with ⟨hs, ht⟩ | ⟨hs, ht⟩
  · exact .inr ⟨ht, hs⟩
  · exact .inl ⟨ht, hs⟩

theorem Flipped.not_outside (h : Flipped s t) (hs : s.Outside) : ¬ t.Outside := by
  rintro ht
  rcases h with ⟨-, role, hplace⟩ | ⟨⟨role, hplace⟩, -⟩
  · rw [Spot.Outside, hplace] at ht
    cases ht
  · rw [Spot.Outside, hplace] at hs
    cases hs

theorem Flipped.step {s' t' : Spot} (h : Flipped s t) (hs : s.step c = some s')
    (ht : t.step c = some t') : Flipped s' t' := by
  rcases h with ⟨houtside, hplain⟩ | ⟨hplain, houtside⟩
  · exact step_apart houtside hplain hs ht
  · exact Flipped.symm (step_apart houtside hplain ht hs)

theorem Flipped.read {text : Bytes} (h : Flipped s t) (hs : s.read text = some u)
    (ht : t.read text = some v) : Flipped u v := by
  induction text generalizing s t with
  | nil =>
    obtain rfl := Option.some.inj hs
    obtain rfl := Option.some.inj ht
    exact h
  | cons c text ih =>
    obtain ⟨s', hs', hsrest⟩ := Automaton.run_cons_eq_some.mp hs
    obtain ⟨t', ht', htrest⟩ := Automaton.run_cons_eq_some.mp ht
    exact ih (h.step hs' ht') hsrest htrest

theorem token_plain {c : UInt8} (hc : isTokenChar c = true) :
    c ≠ 0x22 ∧ c ≠ 0x5C ∧ 0x20 ≤ c := by
  refine ⟨?_, ?_, ?_⟩
  · rintro rfl
    exact absurd hc (by decide)
  · rintro rfl
    exact absurd hc (by decide)
  · simp only [isTokenChar, isLetter, isUpperLetter, isDigit, Bool.or_eq_true, Bool.and_eq_true,
      decide_eq_true_eq, beq_iff_eq] at hc
    rcases hc with (((⟨hlow, -⟩ | ⟨hlow, -⟩) | ⟨hlow, -⟩) | rfl) | rfl
    · exact le_trans (by decide) hlow
    · exact le_trans (by decide) hlow
    · exact le_trans (by decide) hlow
    · decide
    · decide

/-- **A sensitive key is read by one of the two readers only.** -/
theorem Flipped.not_key {key : Bytes} (h : Flipped s t) (hkey : keyIsSensitive key = true)
    (htoken : ∀ c ∈ key, isTokenChar c = true) (hs : s.read key = some u)
    (ht : t.read key = some v) : False := by
  obtain ⟨c, hc, hbyte⟩ := exists_not_outsideByte hkey
  have hquote : ∀ c ∈ key, c ≠ 0x22 := fun c hc => (token_plain (htoken c hc)).1
  rcases h with ⟨houtside, -⟩ | ⟨-, houtside⟩
  · rw [(read_outside houtside hquote hs).2 c hc] at hbyte
    cases hbyte
  · rw [(read_outside houtside hquote ht).2 c hc] at hbyte
    cases hbyte

/-- A hidden run is a number to one of the readers and text to the other one. -/
theorem Flipped.hidden {run : Bytes} (h : Flipped s t) (hrun : ∀ c ∈ run, isTokenChar c = true)
    (hs : s.read run = some u) (ht : t.read kRedactionMarker = some v) : Flipped u v := by
  rcases h with ⟨houtside, hplain⟩ | ⟨-, houtside⟩
  · have hu := (read_outside houtside (fun c hc => (token_plain (hrun c hc)).1) hs).1
    exact .inl ⟨hu, read_plain hplain (by decide) ht⟩
  · have hstar := (read_outside houtside (by decide) ht).2 0x2A (by decide)
    exact absurd hstar (by decide)

/-- **Readers at odds stay at odds**, one over a text and the other one over what is shown of it. -/
theorem flipped_outputOf {back : Bytes} {pieces : List Piece} (h : Scanned back pieces)
    (hflip : Flipped s t) (hs : s.read (textOf pieces) = some u)
    (ht : t.read (outputOf pieces) = some v) : Flipped u v := by
  induction h generalizing s t with
  | nil => exact hflip.read hs ht
  | other hc hrest ih =>
    obtain ⟨s', hs', hsrest⟩ := Automaton.run_cons_eq_some.mp hs
    obtain ⟨t', ht', htrest⟩ := Automaton.run_cons_eq_some.mp ht
    exact ih (hflip.step hs' ht') hsrest htrest
  | @run back run pieces hne hrun hback hstop hnone hrest ih =>
    obtain ⟨s', hs', hsrest⟩ := Automaton.run_append_eq_some.mp hs
    obtain ⟨t', ht', htrest⟩ := Automaton.run_append_eq_some.mp ht
    refine ih ?_ hsrest htrest
    cases hhidden : isHidden back run with
    | true =>
      rw [Piece.output, hhidden] at ht'
      exact hflip.hidden hrun hs' ht'
    | false =>
      rw [Piece.output, hhidden] at ht'
      exact hflip.read hs' ht'
  | @pair back kv pieces hback hfits hrest ih =>
    -- outside of strings no sensitive key is read
    exfalso
    rw [textOf_cons, Piece.text, KeyValue.text, KeyValue.front, List.append_assoc,
      List.append_assoc] at hs
    rw [outputOf_cons, Piece.output, KeyValue.output, KeyValue.front, List.append_assoc,
      List.append_assoc] at ht
    obtain ⟨s', hs', -⟩ := Automaton.run_append_eq_some.mp hs
    obtain ⟨t', ht', -⟩ := Automaton.run_append_eq_some.mp ht
    exact hflip.not_key kv.key_sensitive kv.key_token hs' ht'

/-! ## Nothing else stays readable -/

/-- The marker is read only in a string; a key of the outermost object keeps it. -/
theorem inText_of_read_marker (h : s.read kRedactionMarker = some t)
    (hkeys : 0x2A ∉ t.keys.flatten) : s.inText = true := by
  obtain ⟨s', hs', hrest⟩ := Automaton.run_cons_eq_some.mp
    (show Automaton.run Spot.step s (0x2A :: ascii "**REDACTED***") = some t from h)
  cases hplace : s.place with
  | string role inside =>
    rw [Spot.step_string hplace] at hs'
    cases inside with
    | plain =>
      by_cases hrole : role = .topKey
      · subst hrole
        refine absurd (Spot.mem_keys_of_read ?_ hrest) hkeys
        rw [← Option.some.inj hs']
        simp [Spot.written]
      · exact Spot.inText_of_place hrole hplace
    | escape => cases hs'
    | hex left => cases hs'
  | _ =>
    have hstar := (Spot.step_outside (s := s) (by rw [Spot.Outside, hplace]; rfl) hs').1
    exact absurd hstar (by decide)

theorem isValueDelim_of_ends {kv : KeyValue} (h : kv.ends c = true) : isValueDelim c = true := by
  unfold KeyValue.ends at h
  split at h
  · next quote hopening =>
    obtain rfl := beq_iff_eq.mp h
    have hquote := kv.opening_quote c hopening
    rw [isQuote, Bool.or_eq_true, beq_iff_eq, beq_iff_eq] at hquote
    rcases hquote with rfl | rfl <;> decide
  · exact h

/-- **Behind a value that starts in a string, the reader is in the same string**, or behind the
backslash of a quote. -/
theorem inside_of_ends {kv : KeyValue} {role : Role} {inside : Inside} (hc : kv.ends c = true)
    (hs : s.place = .string role inside) (hstep : s.step c = some t) :
    inside = .plain ∨ inside = .escape ∧ c = 0x22 := by
  have hdelim : isHexDigit c = false
      ∧ (c = 0x75 ∨ (ascii "\"\\/bfnrt").contains c = true → c = 0x22) := by
    have hc := isValueDelim_of_ends hc
    simp only [isValueDelim, isSpace, Bool.or_eq_true, List.contains_iff_mem, List.mem_cons,
      List.not_mem_nil, or_false] at hc
    rcases hc with (rfl | rfl | rfl | rfl | rfl | rfl)
      | (rfl | rfl | rfl | rfl | rfl | rfl | rfl | rfl | rfl | rfl | rfl) <;> decide
  rw [Spot.step_string hs] at hstep
  cases inside with
  | plain => exact .inl rfl
  | escape =>
    rw [Spot.inString] at hstep
    split_ifs at hstep with hhex hshort
    · exact .inr ⟨rfl, hdelim.2 (.inl hhex)⟩
    · exact .inr ⟨rfl, hdelim.2 (.inr hshort)⟩
  | hex left =>
    rw [Spot.inString, hdelim.1] at hstep
    cases hstep

/-- A value that starts in a string ends in its text, or the two readers are at odds behind it. -/
theorem plain_behind_value {back : Bytes} {kv : KeyValue} {pieces : List Piece} {role : Role}
    {inside : Inside} (hfits : kv.Fits (textOf pieces)) (hrest : Scanned back pieces)
    (hrole : role ≠ .topKey) (hplace : s.place = .string role .plain)
    (hs : (s.goto (.string role inside)).read (textOf pieces) = some u) (hu : u.Outside)
    (ht : s.read (outputOf pieces) = some v) (hv : v.Outside) : inside = .plain := by
  cases htext : textOf pieces with
  | nil =>
    -- the text does not end in a string
    rw [htext] at hs
    obtain rfl := Option.some.inj hs
    cases hu
  | cons d rest =>
    rw [htext] at hs
    obtain ⟨s₂, hs₂, hsbehind⟩ := Automaton.run_cons_eq_some.mp hs
    have hends := hfits.stop d (by rw [htext]; rfl)
    rcases inside_of_ends hends rfl hs₂ with hplain | ⟨rfl, rfl⟩
    · exact hplain
    · -- the backslash is hidden and its quote is not: the string ends here for one reader only
      exfalso
      obtain ⟨pieces, rfl, rfl, hscanned⟩ := hrest.other_head htext (by decide)
      obtain ⟨t₂, ht₂, htbehind⟩ := Automaton.run_cons_eq_some.mp ht
      have hflip : Flipped s₂ t₂ := by
        refine .inr ⟨⟨role, ?_⟩, ?_⟩
        · rw [← Option.some.inj hs₂, Spot.written_of_ne hrole]
          rfl
        · rcases Spot.plain_step hplace ht₂ with ⟨-, houtside⟩ | ⟨hbad, -⟩ | ⟨hbad, -⟩
          · exact houtside
          · exact absurd hbad (by decide)
          · exact absurd rfl hbad
      exact (flipped_outputOf hscanned hflip hsbehind htbehind).not_outside hu hv

/-- **A text that stays readable has its hidden stretches inside strings**, when none of them holds
a double quote. -/
theorem hidesInside_of_reads {back : Bytes} {pieces : List Piece} (h : Scanned back pieces)
    (hquotes : ∀ hidden, .hide hidden ∈ editsOf pieces → 0x22 ∉ hidden)
    (hs : s.read (textOf pieces) = some u) (hu : u.Outside)
    (ht : s.read (outputOf pieces) = some v) (hv : v.Outside) (hkeys : 0x2A ∉ v.keys.flatten) :
    Automaton.hidesInside Spot.step Spot.inText s (editsOf pieces) = true := by
  induction h generalizing s with
  | nil => rfl
  | @other back c pieces hc hrest ih =>
    obtain ⟨s', hs', hsrest⟩ := Automaton.run_cons_eq_some.mp hs
    obtain ⟨t', ht', htrest⟩ := Automaton.run_cons_eq_some.mp ht
    obtain rfl := Option.some.inj (hs'.symm.trans ht')
    rw [editsOf_cons, Piece.edits, List.singleton_append, Automaton.hidesInside,
      Automaton.run_cons, hs']
    exact ih (fun hidden hmem => hquotes hidden (by simp [hmem])) hsrest htrest
  | @run back run pieces hne hrun hback hstop hnone hrest ih =>
    obtain ⟨s', hs', hsrest⟩ := Automaton.run_append_eq_some.mp hs
    obtain ⟨t', ht', htrest⟩ := Automaton.run_append_eq_some.mp ht
    have hbehind : ∀ hidden, .hide hidden ∈ editsOf pieces → 0x22 ∉ hidden :=
      fun hidden hmem => hquotes hidden (by simp [hmem])
    rw [editsOf_cons, Piece.edits, List.singleton_append]
    cases hhidden : isHidden back run with
    | false =>
      rw [Piece.output, hhidden] at ht'
      obtain rfl := Option.some.inj (hs'.symm.trans ht')
      rw [if_neg (by decide), Automaton.hidesInside]
      exact (Option.any_eq_true _ _).mpr ⟨s', hs', ih hbehind hsrest htrest⟩
    | true =>
      rw [Piece.output, hhidden] at ht'
      -- the marker was read, so the run stood in the text of a string
      have hinText := inText_of_read_marker ht' fun hmem =>
        hkeys (Spot.mem_keys_of_read hmem htrest)
      have hsame := Spot.read_of_inText hinText fun c hc => token_plain (hrun c hc)
      obtain rfl := Option.some.inj (hsame.symm.trans hs')
      obtain rfl := Option.some.inj ((read_kRedactionMarker hinText).symm.trans ht')
      rw [if_pos rfl, Automaton.hidesInside, hinText, Bool.true_and, Bool.and_eq_true,
        Bool.or_eq_true, decide_eq_true_eq]
      exact ⟨.inr hsame, ih hbehind hsrest htrest⟩
  | @pair back kv pieces hback hfits hrest ih =>
    rw [textOf_cons, Piece.text, KeyValue.text, List.append_assoc] at hs
    rw [outputOf_cons, Piece.output, KeyValue.output, List.append_assoc] at ht
    obtain ⟨s', hs', hsvalue⟩ := Automaton.run_append_eq_some.mp hs
    obtain ⟨t', ht', htvalue⟩ := Automaton.run_append_eq_some.mp ht
    obtain rfl := Option.some.inj (hs'.symm.trans ht')
    have hbehind : ∀ hidden, .hide hidden ∈ editsOf pieces → 0x22 ∉ hidden :=
      fun hidden hmem => hquotes hidden (by simp [hmem])
    rw [editsOf_cons, Piece.edits, List.cons_append, Automaton.hidesInside]
    refine (Option.any_eq_true _ _).mpr ⟨s', hs', ?_⟩
    rw [List.singleton_append, Automaton.hidesInside, Bool.and_eq_true, Bool.or_eq_true]
    -- nothing is shown for an empty value
    by_cases hempty : kv.value = []
    · rw [hempty, List.nil_append] at hsvalue
      rw [hempty, redacted, if_pos rfl, List.nil_append] at htvalue
      exact ⟨.inl (by rw [hempty]; rfl), ih hbehind hsvalue htvalue⟩
    rw [redacted, if_neg hempty] at htvalue
    obtain ⟨s₁, hs₁, hsrest⟩ := Automaton.run_append_eq_some.mp hsvalue
    obtain ⟨t₁, ht₁, htrest⟩ := Automaton.run_append_eq_some.mp htvalue
    have hinText := inText_of_read_marker ht₁ fun hmem =>
      hkeys (Spot.mem_keys_of_read hmem htrest)
    obtain rfl := Option.some.inj ((read_kRedactionMarker hinText).symm.trans ht₁)
    obtain ⟨role, hrole, hplace⟩ := Spot.exists_role_of_inText hinText
    have hvalue : ∀ c ∈ kv.value, c ≠ 0x22 := by
      rintro c hc rfl
      exact hquotes kv.value (by simp [Piece.edits]) hc
    obtain ⟨inside, rfl⟩ := Spot.read_inside hrole hplace hvalue hs₁
    obtain rfl := plain_behind_value hfits hrest hrole hplace hsrest hu htrest hv
    rw [Spot.goto_self hplace] at hs₁ hsrest
    exact ⟨.inr (by simp [hinText, hs₁]), ih hbehind hsrest htrest⟩

theorem not_quote_of_hidesNoQuote {text hidden : Bytes} (h : hidesNoQuote text = true)
    (hmem : .hide hidden ∈ scrubEdits text.length [] text) : 0x22 ∉ hidden := by
  have hnone := List.all_eq_true.mp h _ hmem
  simpa using hnone

theorem scrubsInside_of_reads {text : Bytes} (hquotes : hidesNoQuote text = true)
    (hs : Spot.initial.read text = some u) (hu : u.Outside)
    (ht : Spot.initial.read (scrub text) = some v) (hv : v.Outside)
    (hkeys : 0x2A ∉ v.keys.flatten) : scrubsInside text = true := by
  obtain ⟨pieces, rfl, hpieces⟩ := exists_scanned text [] (.inl (by simp))
  rw [hpieces.scrub_textOf] at ht
  rw [scrubsInside, hpieces.scrubEdits le_rfl]
  refine hidesInside_of_reads hpieces (fun hidden hmem => ?_) hs hu ht hv hkeys
  exact not_quote_of_hidesNoQuote hquotes (by rwa [hpieces.scrubEdits le_rfl])

/-! ## One line of UTF-8 -/

theorem ascii_of_token {c : UInt8} (hc : isTokenChar c = true) : c < 0x80 := by
  simp only [isTokenChar, isLetter, isUpperLetter, isDigit, Bool.or_eq_true, Bool.and_eq_true,
    decide_eq_true_eq, beq_iff_eq] at hc
  rcases hc with (((⟨-, hhigh⟩ | ⟨-, hhigh⟩) | ⟨-, hhigh⟩) | rfl) | rfl
  · exact lt_of_le_of_lt hhigh (by decide)
  · exact lt_of_le_of_lt hhigh (by decide)
  · exact lt_of_le_of_lt hhigh (by decide)
  · decide
  · decide

theorem ascii_of_isValueDelim (hc : isValueDelim c = true) : c < 0x80 := by
  simp only [isValueDelim, isSpace, Bool.or_eq_true, List.contains_iff_mem, List.mem_cons,
    List.not_mem_nil, or_false] at hc
  rcases hc with (rfl | rfl | rfl | rfl | rfl | rfl)
    | (rfl | rfl | rfl | rfl | rfl | rfl | rfl | rfl | rfl | rfl | rfl) <;> decide

theorem ascii_of_front {kv : KeyValue} : ∀ c ∈ kv.front, c < 0x80 := by
  intro c hc
  rcases KeyValue.mem_front hc with htoken | hquote | hspace | rfl | rfl
  · exact ascii_of_token htoken
  · rw [isQuote, Bool.or_eq_true, beq_iff_eq, beq_iff_eq] at hquote
    rcases hquote with rfl | rfl <;> decide
  · exact ascii_of_isValueDelim (isValueDelim_of_isSpace hspace)
  · decide
  · decide

/-- What stands behind some ASCII text, and in front of it. -/
theorem wellFormed_around {front middle behind : Bytes} (hne : middle ≠ [])
    (hascii : ∀ c ∈ middle, c < 0x80) (h : WellFormed (front ++ (middle ++ behind))) :
    WellFormed front ∧ WellFormed behind := by
  obtain ⟨c, middle, rfl⟩ := List.exists_cons_of_ne_nil hne
  obtain ⟨hfront, hrest⟩ := WellFormed.split_ascii (hascii c (by simp)) h
  exact ⟨hfront, hrest.of_ascii_append fun d hd => hascii d (by simp [hd])⟩

/-- **A hidden stretch starts and ends between two code points.** -/
theorem outputOf_wellFormed {back : Bytes} {pieces : List Piece} (h : Scanned back pieces)
    {front : Bytes} (hfront : WellFormed (front ++ textOf pieces)) :
    WellFormed (front ++ outputOf pieces) := by
  have hmarker : WellFormed kRedactionMarker := .of_ascii (by decide)
  induction h generalizing front with
  | nil => exact hfront
  | @other back c pieces hc hrest ih =>
    -- the byte may be one of several of a code point: it stays with what is in front
    have hbehind : WellFormed ((front ++ [c]) ++ outputOf pieces) :=
      ih (by simpa [Piece.text] using hfront)
    simpa [Piece.output] using hbehind
  | @run back run pieces hne hrun hback hstop hnone hrest ih =>
    rw [outputOf_cons, ← List.append_assoc]
    refine ih ?_
    rw [textOf_cons, Piece.text] at hfront
    cases hhidden : isHidden back run with
    | false =>
      rw [Piece.output, if_neg (by decide), List.append_assoc]
      exact hfront
    | true =>
      obtain ⟨hbefore, hbehind⟩ :=
        wellFormed_around hne (fun c hc => ascii_of_token (hrun c hc)) hfront
      rw [Piece.output, if_pos rfl]
      exact (hbefore.append hmarker).append hbehind
  | @pair back kv pieces hback hfits hrest ih =>
    rw [outputOf_cons, ← List.append_assoc]
    refine ih ?_
    rw [textOf_cons, Piece.text, KeyValue.text, List.append_assoc] at hfront
    have hne : kv.front ≠ [] := by simp [KeyValue.front, kv.key_ne]
    obtain ⟨hbefore, hbehind⟩ := wellFormed_around hne ascii_of_front hfront
    have hvalue : WellFormed kv.value ∧ WellFormed (textOf pieces) := by
      cases htext : textOf pieces with
      | nil =>
        rw [htext, List.append_nil] at hbehind
        exact ⟨hbehind, .nil⟩
      | cons d rest =>
        rw [htext] at hbehind
        have hends := hfits.stop d (by rw [htext]; rfl)
        have hd := ascii_of_isValueDelim (isValueDelim_of_ends hends)
        obtain ⟨hvalue, hrest⟩ := WellFormed.split_ascii hd hbehind
        exact ⟨hvalue, wellFormed_cons_ascii hd hrest⟩
    have hredacted : WellFormed (redacted kv.value) := by
      rw [redacted]
      split_ifs
      · exact .nil
      · exact hmarker
    rw [Piece.output, KeyValue.output]
    exact (hbefore.append ((WellFormed.of_ascii ascii_of_front).append hredacted)).append hvalue.2

theorem scrub_wellFormed {text : Bytes} (h : WellFormed text) : WellFormed (scrub text) := by
  obtain ⟨pieces, rfl, hpieces, hscrub⟩ := exists_pieces text
  rw [hscrub]
  have hfront := outputOf_wellFormed hpieces (List.nil_append (textOf pieces) |>.symm ▸ h)
  rwa [List.nil_append] at hfront

theorem newline_notMem_scrub {text : Bytes} (h : newline ∉ text) : newline ∉ scrub text := by
  obtain ⟨pieces, rfl, hpieces, hscrub⟩ := exists_pieces text
  rw [hscrub, ← hpieces.shown_editsOf, ← Edit.carry_source, source_editsOf]
  intro hmem
  rcases Edit.mem_carry hmem with hmem | hmem
  · exact absurd hmem (by decide)
  · exact h hmem

end BrokerExec.Json
