import BrokerExec.Domain.ScrubEdits
import BrokerExec.Lib.Munch

/-!
# The pieces of a scrubbed text (`domain/redaction.cpp`)

A round of the scanner takes one byte, one token run, or one sensitive `key=value` pair.

* **`KeyValue`** is a pair as `try_key_value` reads it, part by part; **`Fits`** says that its value
  ends where the text behind it begins.
* **`tryKeyValue_isSome_iff`** — a pair is found exactly at the front of a text that starts with
  one.
* **`Scanned`** — the rounds the scanner makes; `exists_scanned` and `Scanned.scrubEdits` connect it
  to the loop.
-/

namespace BrokerExec.Domain

/-! ## Character classes apart -/

theorem not_token_of_isQuote {c : UInt8} (hc : isQuote c = true) : isTokenChar c = false := by
  simp only [isQuote, Bool.or_eq_true, beq_iff_eq] at hc
  rcases hc with rfl | rfl <;> decide

theorem not_token_of_isValueDelim {c : UInt8} (hc : isValueDelim c = true) :
    isTokenChar c = false := by
  simp only [isValueDelim, isSpace, Bool.or_eq_true, List.contains_iff_mem, List.mem_cons,
    List.not_mem_nil, or_false] at hc
  rcases hc with (rfl | rfl | rfl | rfl | rfl | rfl)
    | (rfl | rfl | rfl | rfl | rfl | rfl | rfl | rfl | rfl | rfl | rfl) <;> decide

theorem isValueDelim_of_isSpace {c : UInt8} (hc : isSpace c = true) : isValueDelim c = true := by
  rw [isValueDelim, hc, Bool.true_or]

theorem not_quote_of_isSpace {c : UInt8} (hc : isSpace c = true) : isQuote c = false := by
  simp only [isSpace, List.contains_iff_mem, List.mem_cons, List.not_mem_nil, or_false] at hc
  rcases hc with rfl | rfl | rfl | rfl | rfl | rfl <;> decide

theorem not_space_of_isQuote {c : UInt8} (hc : isQuote c = true) : isSpace c = false := by
  simp only [isQuote, Bool.or_eq_true, beq_iff_eq] at hc
  rcases hc with rfl | rfl <;> decide

theorem plain_of_isSpace {c : UInt8} (hc : isSpace c = true) :
    isTokenChar c = false ∧ c ≠ 0x2A := by
  refine ⟨not_token_of_isValueDelim (isValueDelim_of_isSpace hc), ?_⟩
  rintro rfl
  exact absurd hc (by decide)

theorem plain_of_isQuote {c : UInt8} (hc : isQuote c = true) :
    isTokenChar c = false ∧ c ≠ 0x2A := by
  refine ⟨not_token_of_isQuote hc, ?_⟩
  rintro rfl
  exact absurd hc (by decide)

theorem exists_head_of_run {run : Bytes} (hne : run ≠ [])
    (hrun : ∀ c ∈ run, isTokenChar c = true) (behind : Bytes) :
    ∃ c cs, run ++ behind = c :: cs ∧ isTokenChar c = true := by
  obtain ⟨c, cs, rfl⟩ := List.exists_cons_of_ne_nil hne
  exact ⟨c, cs ++ behind, rfl, hrun c List.mem_cons_self⟩

/-! ## Sensitive pairs -/

/-- What a pair starts with: the key run, the quote that closes the key, white space, the
separator. -/
@[ext] structure SensitiveKey where
  key : Bytes
  closing : Bytes
  blanks : Bytes
  separator : UInt8
  key_ne : key ≠ []
  key_token : ∀ c ∈ key, isTokenChar c = true
  key_sensitive : keyIsSensitive key = true
  closing_quote : closing = [] ∨ ∃ quote, closing = [quote] ∧ isQuote quote = true
  blanks_space : ∀ c ∈ blanks, isSpace c = true
  separator_eq : separator = 0x3A ∨ separator = 0x3D

namespace SensitiveKey

/-- What stands between the key run and the end of the separator. -/
def link (k : SensitiveKey) : Bytes := k.closing ++ k.blanks ++ [k.separator]

def text (k : SensitiveKey) : Bytes := k.key ++ k.link

theorem separator_plain (k : SensitiveKey) : isTokenChar k.separator = false
    ∧ isSpace k.separator = false ∧ isQuote k.separator = false := by
  rcases k.separator_eq with heq | heq <;> rw [heq] <;> decide

theorem link_plain (k : SensitiveKey) : ∀ c ∈ k.link, isTokenChar c = false ∧ c ≠ 0x2A := by
  intro c hc
  simp only [link, List.mem_append, List.mem_singleton] at hc
  rcases hc with (hc | hc) | rfl
  · rcases k.closing_quote with hnil | ⟨quote, hquoted, hquote⟩
    · rw [hnil] at hc
      cases hc
    · rw [hquoted, List.mem_singleton] at hc
      exact hc ▸ plain_of_isQuote hquote
  · exact plain_of_isSpace (k.blanks_space c hc)
  · refine ⟨k.separator_plain.1, ?_⟩
    rcases k.separator_eq with heq | heq <;> rw [heq] <;> decide

/-- What follows the key run. -/
theorem link_head (k : SensitiveKey) (behind : Bytes) :
    ∀ c ∈ (k.link ++ behind).head?, isTokenChar c = false := by
  intro c hc
  rw [List.head?_append_of_ne_nil _ (by simp [link])] at hc
  exact (k.link_plain c (List.mem_of_mem_head? hc)).1

end SensitiveKey

/-- A `key=value` region as `try_key_value` reads it: behind the separator comes white space, the
quote that opens the value, and the value. -/
@[ext] structure KeyValue extends SensitiveKey where
  padding : Bytes
  opening : Option UInt8
  value : Bytes
  padding_space : ∀ c ∈ padding, isSpace c = true
  opening_quote : ∀ quote ∈ opening, isQuote quote = true

namespace KeyValue

/-- What stands between the key and the value. -/
def gap (kv : KeyValue) : Bytes := kv.link ++ kv.padding ++ kv.opening.toList

def front (kv : KeyValue) : Bytes := kv.key ++ kv.gap

def text (kv : KeyValue) : Bytes := kv.front ++ kv.value

def output (kv : KeyValue) : Bytes := kv.front ++ redacted kv.value

def redact (kv : KeyValue) : KeyValue := { kv with value := redacted kv.value }

/-- What ends the value: its own quote, or any delimiter. -/
def ends (kv : KeyValue) (c : UInt8) : Bool :=
  match kv.opening with
  | some quote => c == quote
  | none => isValueDelim c

/-- The value is read up to `rest`, and an unquoted one starts right behind the white space. -/
structure Fits (kv : KeyValue) (rest : Bytes) : Prop where
  inside : ∀ c ∈ kv.value, kv.ends c = false
  stop : ∀ c ∈ rest.head?, kv.ends c = true
  unquoted : kv.opening = none → ∀ c ∈ (kv.value ++ rest).head?,
    isSpace c = false ∧ isQuote c = false

variable {kv kv' : KeyValue} {rest rest' : Bytes}

/-- No byte of the gap belongs to a token run. -/
theorem gap_plain (kv : KeyValue) : ∀ c ∈ kv.gap, isTokenChar c = false := by
  intro c hc
  simp only [gap, List.mem_append] at hc
  rcases hc with (hc | hc) | hc
  · exact (kv.link_plain c hc).1
  · exact (plain_of_isSpace (kv.padding_space c hc)).1
  · exact not_token_of_isQuote (kv.opening_quote c (Option.mem_toList.mp hc))

/-- What follows the key run. -/
theorem gap_head (kv : KeyValue) (behind : Bytes) :
    ∀ c ∈ (kv.gap ++ behind).head?, isTokenChar c = false := by
  rw [gap, List.append_assoc, List.append_assoc]
  exact kv.link_head _

/-- What may stand between the key of a pair and its value, the key itself included. -/
theorem mem_front {c : UInt8} (hc : c ∈ kv.front) :
    isTokenChar c = true ∨ isQuote c = true ∨ isSpace c = true ∨ c = 0x3A ∨ c = 0x3D := by
  simp only [front, gap, SensitiveKey.link, List.mem_append, List.mem_singleton,
    Option.mem_toList] at hc
  rcases hc with hc | (((hc | hc) | rfl) | hc) | hc
  · exact .inl (kv.key_token c hc)
  · rcases kv.closing_quote with hnil | ⟨quote, hquoted, hquote⟩
    · rw [hnil] at hc
      cases hc
    · rw [hquoted, List.mem_singleton] at hc
      exact .inr (.inl (hc ▸ hquote))
  · exact .inr (.inr (.inl (kv.blanks_space c hc)))
  · exact .inr (.inr (.inr kv.separator_eq))
  · exact .inr (.inr (.inl (kv.padding_space c hc)))
  · exact .inr (.inl (kv.opening_quote c hc))

theorem text_ne (kv : KeyValue) : kv.text ≠ [] := by simp [text, front, kv.key_ne]

theorem text_head (kv : KeyValue) (behind : Bytes) :
    ∃ c cs, kv.text ++ behind = c :: cs ∧ isTokenChar c = true := by
  rw [text, front, List.append_assoc, List.append_assoc]
  exact exists_head_of_run kv.key_ne kv.key_token _

theorem blanks_head (kv : KeyValue) (behind : Bytes) :
    ∀ c ∈ (kv.blanks ++ kv.separator :: behind).head?, isQuote c = false := by
  intro c hc
  cases hblanks : kv.blanks with
  | nil =>
    rw [hblanks, List.nil_append, List.head?_cons, Option.mem_some_iff] at hc
    exact hc ▸ kv.separator_plain.2.2
  | cons d ds =>
    rw [hblanks, List.cons_append, List.head?_cons, Option.mem_some_iff] at hc
    exact not_quote_of_isSpace (kv.blanks_space c (by simp [hblanks, hc]))

/-- The quote behind the key is the closing one. -/
theorem take_closing (kv : KeyValue) (behind : Bytes) :
    ((kv.closing ++ (kv.blanks ++ kv.separator :: behind)).take 1).takeWhile isQuote
      = kv.closing := by
  rcases kv.closing_quote with hnil | ⟨quote, hquoted, hquote⟩
  · rw [hnil, List.nil_append]
    have hhead := kv.blanks_head behind
    cases htail : kv.blanks ++ kv.separator :: behind with
    | nil => rfl
    | cons c cs =>
      rw [htail] at hhead
      simp [hhead c rfl]
  · rw [hquoted]
    simp [hquote]

/-- A pair ends in front of no token run. -/
theorem Fits.stop_plain (h : kv.Fits rest) : ∀ c ∈ rest.head?, isTokenChar c = false := by
  intro c hc
  have hstop := h.stop c hc
  unfold ends at hstop
  cases hopening : kv.opening with
  | none =>
    rw [hopening] at hstop
    exact not_token_of_isValueDelim hstop
  | some quote =>
    rw [hopening] at hstop
    exact eq_of_beq hstop ▸ not_token_of_isQuote (kv.opening_quote quote hopening)

theorem Fits.padding_head (h : kv.Fits rest) :
    ∀ c ∈ (kv.opening.toList ++ (kv.value ++ rest)).head?, isSpace c = false := by
  intro c hc
  cases hopening : kv.opening with
  | none =>
    rw [hopening, Option.toList_none, List.nil_append] at hc
    exact (h.unquoted hopening c hc).1
  | some quote =>
    rw [hopening, Option.toList_some, List.singleton_append, List.head?_cons,
      Option.mem_some_iff] at hc
    exact hc ▸ not_space_of_isQuote (kv.opening_quote quote hopening)

/-- The quote behind the white space is the opening one. -/
theorem Fits.head_opening (h : kv.Fits rest) :
    (kv.opening.toList ++ (kv.value ++ rest)).head?.filter isQuote = kv.opening := by
  cases hopening : kv.opening with
  | none =>
    rw [Option.toList_none, List.nil_append]
    cases hhead : (kv.value ++ rest).head? with
    | none => rfl
    | some c => exact Option.filter_some_neg (by simp [(h.unquoted hopening c hhead).2])
  | some quote => exact Option.filter_some_pos (kv.opening_quote quote hopening)

theorem text_append (kv : KeyValue) (rest : Bytes) :
    kv.text ++ rest = kv.key ++ (kv.closing ++ (kv.blanks ++ kv.separator ::
      (kv.padding ++ (kv.opening.toList ++ (kv.value ++ rest))))) := by
  simp [text, front, gap, SensitiveKey.link]

theorem key_stop (kv : KeyValue) (behind : Bytes) :
    ∀ c ∈ (kv.closing ++ (kv.blanks ++ kv.separator :: behind)).head?, isTokenChar c = false := by
  have hhead := kv.link_head behind
  rwa [SensitiveKey.link, List.append_assoc, List.append_assoc, List.singleton_append] at hhead

/-- **A text starts with one pair at most.** -/
theorem Fits.unique (h : kv.Fits rest) (h' : kv'.Fits rest')
    (htext : kv.text ++ rest = kv'.text ++ rest') : kv = kv' ∧ rest = rest' := by
  rw [text_append, text_append] at htext
  obtain ⟨hkey, htext⟩ := append_inj_of_stop (P := (isTokenChar · = true)) kv.key_token
    kv'.key_token (fun c hc => by simp [kv.key_stop _ c hc])
    (fun c hc => by simp [kv'.key_stop _ c hc]) htext
  have hclosing : kv.closing = kv'.closing := by
    rw [← kv.take_closing, htext, kv'.take_closing]
  rw [hclosing, List.append_right_inj] at htext
  obtain ⟨hblanks, htext⟩ := append_inj_of_stop (P := (isSpace · = true)) kv.blanks_space
    kv'.blanks_space (by simp [kv.separator_plain.2.1]) (by simp [kv'.separator_plain.2.1]) htext
  obtain ⟨hseparator, htext⟩ := List.cons.inj htext
  obtain ⟨hpadding, htext⟩ := append_inj_of_stop (P := (isSpace · = true)) kv.padding_space
    kv'.padding_space (fun c hc => by simp [h.padding_head c hc])
    (fun c hc => by simp [h'.padding_head c hc]) htext
  have hopening : kv.opening = kv'.opening := by
    rw [← h.head_opening, htext, h'.head_opening]
  rw [hopening, List.append_right_inj] at htext
  have hends : kv.ends = kv'.ends := by
    funext c
    rw [ends, ends, hopening]
  obtain ⟨hvalue, hrest⟩ := append_inj_of_stop (P := (kv.ends · = false)) h.inside
    (fun c hc => hends ▸ h'.inside c hc) (fun c hc => by simp [h.stop c hc])
    (fun c hc => by simp [hends, h'.stop c hc]) htext
  exact ⟨KeyValue.ext hkey hclosing hblanks hseparator hpadding hopening hvalue, hrest⟩

/-- **A pair at the front of a text is found.** -/
theorem Fits.keyValueSplit (h : kv.Fits rest) :
    keyValueSplit (kv.text ++ rest) = some (kv.front, kv.value) := by
  have hkey : (kv.text ++ rest).takeWhile isTokenChar = kv.key := by
    rw [text_append]
    exact takeWhile_append_stop kv.key_token (kv.key_stop _)
  have hclosing : ∀ tail, (((kv.key ++ (kv.closing ++ (kv.blanks ++ kv.separator :: tail))).drop
      kv.key.length).take 1).takeWhile isQuote = kv.closing := fun tail => by
    rw [List.drop_left, take_closing]
  have hblanks : ∀ tail, ((kv.key ++ (kv.closing ++ (kv.blanks ++ kv.separator :: tail))).drop
      (kv.key ++ kv.closing).length).takeWhile isSpace = kv.blanks := fun tail => by
    rw [← List.append_assoc, List.drop_left]
    exact takeWhile_append_stop kv.blanks_space (by simp [kv.separator_plain.2.1])
  have hseparator : ∀ tail, (kv.key ++ (kv.closing ++ (kv.blanks ++ kv.separator :: tail))).drop
      (kv.key ++ kv.closing ++ kv.blanks).length = kv.separator :: tail := fun tail => by
    rw [← List.append_assoc, ← List.append_assoc, List.drop_left]
  have hpadding := takeWhile_append_stop kv.padding_space h.padding_head
  unfold Domain.keyValueSplit
  rw [hkey, text_append]
  dsimp only
  rw [if_neg (by simp [kv.key_ne, kv.key_sensitive]), hclosing, hblanks, hseparator]
  dsimp only
  rw [if_neg (by rcases kv.separator_eq with heq | heq <;> simp [heq]), hpadding, List.drop_left]
  cases hopening : kv.opening with
  | none =>
    have hends : ∀ c, kv.ends c = isValueDelim c := fun c => by rw [ends, hopening]
    have hvalue : (kv.value ++ rest).takeWhile (fun c => !isValueDelim c) = kv.value :=
      takeWhile_append_stop (fun c hc => by rw [← hends, h.inside c hc]; rfl)
        (fun c hc => by rw [← hends, h.stop c hc]; rfl)
    have hfront : kv.key ++ kv.closing ++ kv.blanks ++ kv.separator :: kv.padding = kv.front := by
      simp [front, gap, SensitiveKey.link, hopening]
    rw [Option.toList_none, List.nil_append, hfront]
    cases hvalueRest : kv.value ++ rest with
    | nil =>
      rw [(List.append_eq_nil_iff.mp hvalueRest).1]
    | cons c cs =>
      have hc : isQuote c = false := (h.unquoted hopening c (by rw [hvalueRest]; rfl)).2
      dsimp only
      rw [if_neg (by simp [hc]), ← hvalueRest, hvalue]
  | some quote =>
    have hends : ∀ c, kv.ends c = (c == quote) := fun c => by rw [ends, hopening]
    have hvalue : (kv.value ++ rest).takeWhile (· ≠ quote) = kv.value := by
      refine takeWhile_append_stop (fun c hc => ?_) fun c hc => ?_
      · have hinside := h.inside c hc
        rw [hends, beq_eq_false_iff_ne] at hinside
        exact decide_eq_true hinside
      · have hstop := h.stop c hc
        rw [hends, beq_iff_eq] at hstop
        simp [hstop]
    rw [Option.toList_some, List.singleton_append]
    dsimp only
    have hfront : kv.key ++ kv.closing ++ kv.blanks ++ kv.separator :: kv.padding ++ [quote]
        = kv.front := by
      simp [front, gap, SensitiveKey.link, hopening]
    rw [if_pos (kv.opening_quote quote hopening), hvalue, hfront]

theorem Fits.tryKeyValue (h : kv.Fits rest) :
    tryKeyValue (kv.text ++ rest) = some (kv.output, kv.text.length) := by
  rw [tryKeyValue_eq_split, h.keyValueSplit, text, List.length_append]
  rfl

end KeyValue

/-- Behind its key, a pair can be read whatever follows. -/
theorem SensitiveKey.exists_fits (k : SensitiveKey) (behind : Bytes) :
    ∃ kv rest, kv.toSensitiveKey = k ∧ k.text ++ behind = KeyValue.text kv ++ rest
      ∧ kv.Fits rest := by
  obtain ⟨padding, tail, rfl, hpadding, htail⟩ := exists_run isSpace behind
  by_cases hquoted : ∃ quote cs, tail = quote :: cs ∧ isQuote quote = true
  · obtain ⟨quote, cs, rfl, hquote⟩ := hquoted
    obtain ⟨value, rest, rfl, hvalue, hrest⟩ := exists_run (fun c => c != quote) cs
    refine ⟨⟨k, padding, some quote, value, hpadding, by simpa using hquote⟩, rest, rfl, ?_,
      fun c hc => ?_, fun c hc => ?_, fun hnone => by cases hnone⟩
    · simp [SensitiveKey.text, KeyValue.text, KeyValue.front, KeyValue.gap]
    · simpa [KeyValue.ends] using hvalue c hc
    · simpa [KeyValue.ends] using hrest c hc
  · obtain ⟨value, rest, rfl, hvalue, hrest⟩ := exists_run (fun c => !isValueDelim c) tail
    refine ⟨⟨k, padding, none, value, hpadding, by simp⟩, rest, rfl, ?_,
      fun c hc => ?_, fun c hc => ?_, fun _ c hc => ⟨htail c hc, ?_⟩⟩
    · simp [SensitiveKey.text, KeyValue.text, KeyValue.front, KeyValue.gap]
    · simpa [KeyValue.ends] using hvalue c hc
    · simpa [KeyValue.ends] using hrest c hc
    · obtain ⟨cs, hcs⟩ := List.head?_eq_some_iff.mp hc
      exact Bool.eq_false_of_not_eq_true fun hquote => hquoted ⟨c, cs, hcs, hquote⟩

/-- What `try_key_value` takes for the closing quote. -/
theorem exists_closing (tail : Bytes) : ∃ closing rest, tail = closing ++ rest
    ∧ (tail.take 1).takeWhile isQuote = closing
    ∧ (closing = [] ∨ ∃ quote, closing = [quote] ∧ isQuote quote = true) := by
  cases tail with
  | nil => exact ⟨[], [], rfl, rfl, .inl rfl⟩
  | cons c cs =>
    cases hc : isQuote c with
    | false => exact ⟨[], c :: cs, rfl, by simp [hc], .inl rfl⟩
    | true => exact ⟨[c], cs, rfl, by simp [hc], .inr ⟨c, rfl, hc⟩⟩

/-- A pair that is found starts with a sensitive key. -/
theorem exists_sensitiveKey {s : Bytes} (h : (tryKeyValue s).isSome) :
    ∃ (k : SensitiveKey) (behind : Bytes), s = k.text ++ behind := by
  obtain ⟨key, tail, rfl, htoken, hkeyStop⟩ := exists_run isTokenChar s
  unfold tryKeyValue at h
  rw [takeWhile_append_stop htoken hkeyStop] at h
  dsimp only at h
  split at h
  · cases h
  next hkey =>
  rw [not_or, Bool.not_eq_false] at hkey
  rw [List.drop_left] at h
  obtain ⟨closing, tail, rfl, hclosing, hquote⟩ := exists_closing tail
  rw [hclosing, ← List.append_assoc, List.drop_left] at h
  obtain ⟨blanks, tail, rfl, hblanks, hblanksStop⟩ := exists_run isSpace tail
  rw [takeWhile_append_stop hblanks hblanksStop, ← List.append_assoc, List.drop_left] at h
  cases tail with
  | nil => cases h
  | cons separator behind =>
    dsimp only at h
    split at h
    · cases h
    next hseparator =>
    refine ⟨⟨key, closing, blanks, separator, hkey.1, htoken, hkey.2, hquote, hblanks, ?_⟩,
      behind, by simp [SensitiveKey.text, SensitiveKey.link]⟩
    by_contra hother
    exact hseparator (not_or.mp hother)

/-- **A pair is found exactly at the front of a text that starts with one.** -/
theorem tryKeyValue_isSome_iff {s : Bytes} :
    (tryKeyValue s).isSome
      ↔ ∃ (kv : KeyValue) (rest : Bytes), s = kv.text ++ rest ∧ kv.Fits rest := by
  refine ⟨fun h => ?_, ?_⟩
  · obtain ⟨k, behind, rfl⟩ := exists_sensitiveKey h
    obtain ⟨kv, rest, -, htext, hfits⟩ := k.exists_fits behind
    exact ⟨kv, rest, htext, hfits⟩
  · rintro ⟨kv, rest, rfl, hfits⟩
    rw [hfits.tryKeyValue]
    rfl

theorem SensitiveKey.tryKeyValue_isSome (k : SensitiveKey) (behind : Bytes) :
    (tryKeyValue (k.text ++ behind)).isSome := by
  obtain ⟨kv, rest, -, htext, hfits⟩ := k.exists_fits behind
  exact tryKeyValue_isSome_iff.mpr ⟨kv, rest, htext, hfits⟩

theorem tryKeyValue_of_not_sensitive {run behind : Bytes}
    (hrun : ∀ c ∈ run, isTokenChar c = true) (hstop : ∀ c ∈ behind.head?, isTokenChar c = false)
    (hkey : keyIsSensitive run = false) : tryKeyValue (run ++ behind) = none := by
  rw [tryKeyValue, takeWhile_append_stop hrun hstop]
  exact if_pos (.inr hkey)

/-! ## The rounds of the scanner -/

/-- A token run that gives way to the marker. -/
def isHidden (back run : Bytes) : Bool :=
  (20 ≤ run.length && runHasLetterAndDigit run)
    || (4 ≤ run.length && run.length ≤ 8 && runIsAllDigits run && authContextBefore back)

theorem runEdit_eq (back run : Bytes) :
    runEdit back run = if isHidden back run then .hide run else .keep run := by
  by_cases hlong : 20 ≤ run.length ∧ runHasLetterAndDigit run
  · rw [runEdit, if_pos hlong, if_pos (by simp [isHidden, hlong])]
  · rw [runEdit, if_neg hlong]
    refine if_congr ?_ rfl rfl
    have hfalse : (decide (20 ≤ run.length) && runHasLetterAndDigit run) = false := by
      simpa using hlong
    rw [isHidden, hfalse]
    simp [and_assoc]

/-- What a round takes: a byte, a token run that is shown or hidden, or a pair. -/
inductive Piece where
  | other (c : UInt8)
  | run (chars : Bytes) (hidden : Bool)
  | pair (kv : KeyValue)

def Piece.text : Piece → Bytes
  | .other c => [c]
  | .run chars _ => chars
  | .pair kv => kv.text

def Piece.output : Piece → Bytes
  | .other c => [c]
  | .run chars hidden => if hidden then kRedactionMarker else chars
  | .pair kv => kv.output

/-- What the scanner does with a piece. -/
def Piece.edits : Piece → List (Edit UInt8)
  | .other c => [.keep [c]]
  | .run chars hidden => [if hidden then .hide chars else .keep chars]
  | .pair kv => [.keep kv.front, .hide kv.value]

def textOf (pieces : List Piece) : Bytes := pieces.flatMap Piece.text

def outputOf (pieces : List Piece) : Bytes := pieces.flatMap Piece.output

def editsOf (pieces : List Piece) : List (Edit UInt8) := pieces.flatMap Piece.edits

@[simp] theorem textOf_nil : textOf [] = [] := rfl

@[simp] theorem textOf_cons (piece : Piece) (pieces : List Piece) :
    textOf (piece :: pieces) = piece.text ++ textOf pieces := rfl

@[simp] theorem textOf_append (ps qs : List Piece) : textOf (ps ++ qs) = textOf ps ++ textOf qs :=
  List.flatMap_append

@[simp] theorem outputOf_nil : outputOf [] = [] := rfl

@[simp] theorem outputOf_cons (piece : Piece) (pieces : List Piece) :
    outputOf (piece :: pieces) = piece.output ++ outputOf pieces := rfl

@[simp] theorem outputOf_append (ps qs : List Piece) :
    outputOf (ps ++ qs) = outputOf ps ++ outputOf qs :=
  List.flatMap_append

@[simp] theorem editsOf_cons (piece : Piece) (pieces : List Piece) :
    editsOf (piece :: pieces) = piece.edits ++ editsOf pieces := rfl

@[simp] theorem editsOf_append (ps qs : List Piece) :
    editsOf (ps ++ qs) = editsOf ps ++ editsOf qs :=
  List.flatMap_append

theorem source_editsOf (pieces : List Piece) : Edit.source (editsOf pieces) = textOf pieces := by
  induction pieces with
  | nil => rfl
  | cons piece pieces ih =>
    rw [editsOf_cons, Edit.source_append, ih, textOf_cons]
    refine congrArg (· ++ textOf pieces) ?_
    cases piece with
    | other c => rfl
    | run chars hidden => cases hidden <;> exact List.append_nil chars
    | pair kv => exact congrArg (kv.front ++ ·) (List.append_nil kv.value)

/-- The rounds of the loop over the text of the pieces, behind the bytes in `back`. A token round
starts behind a byte that belongs to no run and takes the whole run. -/
inductive Scanned : Bytes → List Piece → Prop where
  | nil {back : Bytes} : Scanned back []
  | other {back : Bytes} {c : UInt8} {pieces : List Piece} (hc : isTokenChar c = false)
      (hrest : Scanned (c :: back) pieces) : Scanned back (.other c :: pieces)
  | run {back run : Bytes} {pieces : List Piece} (hne : run ≠ [])
      (hrun : ∀ c ∈ run, isTokenChar c = true) (hback : ∀ c ∈ back.head?, isTokenChar c = false)
      (hstop : ∀ c ∈ (textOf pieces).head?, isTokenChar c = false)
      (hnone : tryKeyValue (run ++ textOf pieces) = none)
      (hrest : Scanned (run.reverse ++ back) pieces) :
      Scanned back (.run run (isHidden back run) :: pieces)
  | pair {back : Bytes} {kv : KeyValue} {pieces : List Piece}
      (hback : ∀ c ∈ back.head?, isTokenChar c = false) (hfits : kv.Fits (textOf pieces))
      (hrest : Scanned (kv.text.reverse ++ back) pieces) : Scanned back (.pair kv :: pieces)

/-- Every text is scanned, from any place but the middle of a run. -/
theorem exists_scanned (s back : Bytes)
    (hbetween : (∀ c ∈ back.head?, isTokenChar c = false) ∨ ∀ c ∈ s.head?, isTokenChar c = false) :
    ∃ pieces, textOf pieces = s ∧ Scanned back pieces := by
  induction hn : s.length using Nat.strong_induction_on generalizing s back with
  | _ n ih =>
    subst hn
    cases s with
    | nil => exact ⟨[], rfl, .nil⟩
    | cons c cs =>
      cases hc : isTokenChar c with
      | false =>
        obtain ⟨pieces, rfl, hpieces⟩ := ih cs.length (by simp) cs (c :: back)
          (.inl (by simpa using hc)) rfl
        exact ⟨.other c :: pieces, rfl, .other hc hpieces⟩
      | true =>
        have hback : ∀ c ∈ back.head?, isTokenChar c = false :=
          hbetween.resolve_right fun hs => by
            rw [hs c rfl] at hc
            cases hc
        cases hfound : tryKeyValue (c :: cs) with
        | some found =>
          obtain ⟨kv, rest, htext, hfits⟩ := tryKeyValue_isSome_iff.mp (by rw [hfound]; rfl)
          have hshort : rest.length < (c :: cs).length := by
            have hpos := List.length_pos_iff.mpr kv.text_ne
            rw [htext, List.length_append]
            omega
          obtain ⟨pieces, rfl, hpieces⟩ := ih rest.length hshort rest (kv.text.reverse ++ back)
            (.inr hfits.stop_plain) rfl
          exact ⟨.pair kv :: pieces, htext.symm, .pair hback hfits hpieces⟩
        | none =>
          obtain ⟨run, rest, htext, hrun, hrest⟩ := exists_run isTokenChar (c :: cs)
          have hne : run ≠ [] := by
            rintro rfl
            rw [List.nil_append] at htext
            rw [hrest c (by rw [← htext]; rfl)] at hc
            cases hc
          have hshort : rest.length < (c :: cs).length := by
            have hpos := List.length_pos_iff.mpr hne
            rw [htext, List.length_append]
            omega
          obtain ⟨pieces, rfl, hpieces⟩ := ih rest.length hshort rest (run.reverse ++ back)
            (.inr hrest) rfl
          exact ⟨.run run (isHidden back run) :: pieces, htext.symm,
            .run hne hrun hback hrest (htext ▸ hfound) hpieces⟩

/-- A round at the start of a run. -/
theorem scrubEdits_token (fuel : Nat) {back s : Bytes}
    (hs : ∃ c cs, s = c :: cs ∧ isTokenChar c = true)
    (hback : ∀ c ∈ back.head?, isTokenChar c = false) :
    scrubEdits (fuel + 1) back s = match keyValueSplit s with
      | some (front, value) =>
        let size := front.length + value.length
        .keep front :: .hide value
          :: scrubEdits fuel ((s.take size).reverse ++ back) (s.drop size)
      | none =>
        let run := s.takeWhile isTokenChar
        runEdit back run :: scrubEdits fuel (run.reverse ++ back) (s.drop run.length) := by
  obtain ⟨c, cs, rfl, hc⟩ := hs
  have hany : back.head?.any isTokenChar = false := by
    cases hhead : back.head? with
    | none => rfl
    | some d => exact hback d hhead
  rw [scrubEdits, hc, hany]
  rfl

/-- The loop does what its rounds do. -/
theorem Scanned.scrubEdits {back : Bytes} {pieces : List Piece} (h : Scanned back pieces)
    {fuel : Nat} (hfuel : (textOf pieces).length ≤ fuel) :
    scrubEdits fuel back (textOf pieces) = editsOf pieces := by
  induction h generalizing fuel with
  | nil => cases fuel <;> rfl
  | @other back c pieces hc hrest ih =>
    cases fuel with
    | zero => simp [Piece.text] at hfuel
    | succ fuel =>
      rw [textOf_cons, Piece.text, List.singleton_append, Domain.scrubEdits, hc]
      rw [ih (by simpa [Piece.text] using hfuel)]
      rfl
  | @run back run pieces hne hrun hback hstop hnone hrest ih =>
    rw [textOf_cons, Piece.text] at hfuel ⊢
    have hpos := List.length_pos_iff.mpr hne
    rw [List.length_append] at hfuel
    obtain ⟨fuel, rfl⟩ : ∃ n, fuel = n + 1 := ⟨fuel - 1, by omega⟩
    have hsplit : keyValueSplit (run ++ textOf pieces) = none := by
      rw [tryKeyValue_eq_split] at hnone
      exact Option.map_eq_none_iff.mp hnone
    rw [scrubEdits_token fuel (exists_head_of_run hne hrun _) hback, hsplit]
    dsimp only
    rw [takeWhile_append_stop hrun hstop, List.drop_left, ih (by omega), runEdit_eq]
    rfl
  | @pair back kv pieces hback hfits hrest ih =>
    rw [textOf_cons, Piece.text] at hfuel ⊢
    have hpos := List.length_pos_iff.mpr kv.text_ne
    rw [List.length_append] at hfuel
    obtain ⟨fuel, rfl⟩ : ∃ n, fuel = n + 1 := ⟨fuel - 1, by omega⟩
    rw [scrubEdits_token fuel (kv.text_head _) hback, hfits.keyValueSplit]
    dsimp only
    have hsize : kv.front.length + kv.value.length = kv.text.length := by
      rw [KeyValue.text, List.length_append]
    rw [hsize, List.take_left, List.drop_left, ih (by omega)]
    rfl

theorem Scanned.shown_editsOf {back : Bytes} {pieces : List Piece} (h : Scanned back pieces) :
    Edit.shown kRedactionMarker (editsOf pieces) = outputOf pieces := by
  induction h with
  | nil => rfl
  | other hc hrest ih =>
    show _ :: Edit.shown kRedactionMarker (editsOf _) = _
    rw [ih]
    rfl
  | @run back run pieces hne hrun hback hstop hnone hrest ih =>
    show Edit.shown kRedactionMarker ((if isHidden back run then _ else _) :: editsOf pieces) = _
    rw [Edit.shown_cons, ih, outputOf_cons, Piece.output]
    split_ifs
    · exact congrArg (· ++ outputOf pieces) (if_neg hne)
    · rfl
  | @pair back kv pieces hback hfits hrest ih =>
    show Edit.shown kRedactionMarker (.keep kv.front :: .hide kv.value :: editsOf pieces) = _
    rw [Edit.shown_cons, Edit.shown_cons, ih, ← List.append_assoc]
    rfl

/-- The loop emits what its rounds emit. -/
theorem Scanned.scrubLoop {back : Bytes} {pieces : List Piece} (h : Scanned back pieces)
    {fuel : Nat} (hfuel : (textOf pieces).length ≤ fuel) :
    scrubLoop fuel back (textOf pieces) = outputOf pieces := by
  rw [← shown_scrubEdits, h.scrubEdits hfuel, h.shown_editsOf]

/-- **A text is scanned into pieces, and what is shown of them is the scrubbed text.** -/
theorem exists_pieces (text : Bytes) :
    ∃ pieces, textOf pieces = text ∧ Scanned [] pieces ∧ scrub text = outputOf pieces := by
  obtain ⟨pieces, rfl, hpieces⟩ := exists_scanned text [] (.inl (by simp))
  exact ⟨pieces, rfl, hpieces, hpieces.scrubLoop le_rfl⟩

theorem Scanned.scrub_textOf {pieces : List Piece} (h : Scanned [] pieces) :
    scrub (textOf pieces) = outputOf pieces :=
  h.scrubLoop le_rfl

/-- The rounds behind the first few. -/
theorem Scanned.of_append {back : Bytes} {ps qs : List Piece} (h : Scanned back (ps ++ qs)) :
    Scanned ((textOf ps).reverse ++ back) qs := by
  induction ps generalizing back with
  | nil => exact h
  | cons piece ps ih =>
    rw [textOf_cons, List.reverse_append, List.append_assoc]
    cases h with
    | other hc hrest => exact ih hrest
    | run hne hrun hback hstop hnone hrest => exact ih hrest
    | pair hback hfits hrest => exact ih hrest

end BrokerExec.Domain
