import BrokerExec.Adapters.Kotak.Errors
import BrokerExec.Domain.ScrubPieces
import BrokerExec.Lib.Tokens

/-!
# The labels of a broker text (`adapters/kotak/kotak_errors.cpp`)

Between two tokens `redact_kotak_keys` knows of the text behind it only whether a label waits for
its value, and whether `:` or `=` has been read since. Its loop, which looks ahead for the value, is
that automaton.

* **`redactEdits`** — the loop with what it appends for a result.
* **`redactEdits_eq`** — what it does with each token is what **`readLabels`** says of it.
-/

namespace BrokerExec.Adapters.Kotak

open BrokerExec.Domain (isTokenChar kRedactionMarker)
open BrokerExec.Token (textOf)

/-! ## What the redaction copies -/

/-- The loop of `redact_kotak_keys`. -/
def redactEdits : Nat → (inRun : Bool) → Bytes → List (Edit UInt8)
  | 0, _, _ => []
  | _ + 1, _, [] => []
  | fuel + 1, inRun, c :: cs =>
    if isTokenChar c = false ∨ inRun then .keep [c] :: redactEdits fuel (isTokenChar c) cs
    else
      let key := (c :: cs).takeWhile isTokenChar
      let rest := (c :: cs).drop key.length
      if isKotakSecretKey key = false then .keep key :: redactEdits fuel true rest
      else
        let separators := rest.takeWhile isKeySeparator
        let behind := rest.drop separators.length
        let value := behind.takeWhile isTokenChar
        let explicitSeparator := separators.any fun c => c == 0x3A || c == 0x3D
        let valueShaped := 3 ≤ value.length && (12 ≤ value.length || value.any isDigit)
        let echoed := .keep key :: separators.map fun c => .keep [c]
        if value ≠ [] ∧ (explicitSeparator || valueShaped) then
          echoed ++ .hide value :: redactEdits fuel true (behind.drop value.length)
        else echoed ++ redactEdits fuel (separators = []) behind

theorem shown_echoed (separators : Bytes) (es : List (Edit UInt8)) :
    Edit.shown kRedactionMarker ((separators.map fun c => .keep [c]) ++ es)
      = separators ++ Edit.shown kRedactionMarker es := by
  induction separators with
  | nil => rfl
  | cons c separators ih => exact congrArg (c :: ·) ih

/-- **What the script shows is the redacted text.** -/
theorem shown_redactEdits (fuel : Nat) (inRun : Bool) (text : Bytes) :
    Edit.shown kRedactionMarker (redactEdits fuel inRun text) = redactLoop fuel inRun text := by
  induction fuel generalizing inRun text with
  | zero => rfl
  | succ fuel ih =>
    cases text with
    | nil => rfl
    | cons c cs =>
      rw [redactEdits, redactLoop]
      dsimp only
      split_ifs with hskip hkey hvalue
      · rw [Edit.shown_cons, ih]
        rfl
      · rw [Edit.shown_cons, ih]
        rfl
      · rw [List.cons_append, Edit.shown_cons, shown_echoed, Edit.shown_cons, ih, List.append_assoc,
          List.append_assoc]
        exact congrArg (fun marker => _ ++ (_ ++ (marker ++ _))) (if_neg hvalue.1)
      · rw [List.cons_append, Edit.shown_cons, shown_echoed, ih, List.append_assoc]
        rfl

/-! ## The automaton -/

def valueShaped (value : Bytes) : Bool :=
  3 ≤ value.length && (12 ≤ value.length || value.any isDigit)

/-- A run is the value of the label that waits, if one does: of any shape behind `:` or `=`. -/
def takes : Option Bool → Bytes → Bool
  | none, _ => false
  | some explicitSeparator, value => explicitSeparator || valueShaped value

/-- What waits behind a run that is nobody's value. -/
def labelOf (run : Bytes) : Option Bool := if isKotakSecretKey run then some false else none

/-- What waits behind a byte between two runs. -/
def labelBehind (label : Option Bool) (c : UInt8) : Option Bool :=
  if isKeySeparator c then label.map (· || (c == 0x3A || c == 0x3D)) else none

/-- What `redact_kotak_keys` makes of a token: a byte, a run that is echoed, a label's value. -/
inductive Part where
  | other (c : UInt8)
  | word (chars : Bytes)
  | secret (chars : Bytes)
  deriving DecidableEq

def readLabels : Option Bool → List (Token UInt8) → List Part
  | _, [] => []
  | label, .other c :: ts => .other c :: readLabels (labelBehind label c) ts
  | label, .run chars :: ts =>
    if takes label chars then .secret chars :: readLabels none ts
    else .word chars :: readLabels (labelOf chars) ts

/-- What waits behind the tokens. -/
def labelAfter : Option Bool → List (Token UInt8) → Option Bool
  | label, [] => label
  | label, .other c :: ts => labelAfter (labelBehind label c) ts
  | label, .run chars :: ts => labelAfter (if takes label chars then none else labelOf chars) ts

theorem readLabels_append (label : Option Bool) (ts us : List (Token UInt8)) :
    readLabels label (ts ++ us) = readLabels label ts ++ readLabels (labelAfter label ts) us := by
  induction ts generalizing label with
  | nil => rfl
  | cons t ts ih =>
    cases t with
    | other c => exact congrArg (.other c :: ·) (ih _)
    | run chars =>
      rw [List.cons_append, readLabels, readLabels, labelAfter]
      split_ifs
      · exact congrArg (.secret chars :: ·) (ih _)
      · exact congrArg (.word chars :: ·) (ih _)

theorem labelAfter_append (label : Option Bool) (ts us : List (Token UInt8)) :
    labelAfter label (ts ++ us) = labelAfter (labelAfter label ts) us := by
  induction ts generalizing label with
  | nil => rfl
  | cons t ts ih => cases t <;> exact ih _

/-! ## Separators -/

theorem not_token_of_isKeySeparator {c : UInt8} (hc : isKeySeparator c = true) :
    isTokenChar c = false := by
  simp only [isKeySeparator, List.contains_iff_mem, List.mem_cons, List.not_mem_nil,
    or_false] at hc
  rcases hc with rfl | rfl | rfl | rfl | rfl | rfl <;> decide

/-- A label waits over its separators. -/
theorem readLabels_separators {separators : Bytes}
    (hall : ∀ c ∈ separators, isKeySeparator c = true) (explicitSeparator : Bool)
    (ts : List (Token UInt8)) :
    readLabels (some explicitSeparator) (separators.map .other ++ ts) = separators.map .other
      ++ readLabels (some (explicitSeparator || separators.any fun c => c == 0x3A || c == 0x3D))
        ts := by
  induction separators generalizing explicitSeparator with
  | nil => rw [List.any_nil, Bool.or_false]; rfl
  | cons c separators ih =>
    have hc := hall c List.mem_cons_self
    rw [List.map_cons, List.cons_append, readLabels, labelBehind, if_pos hc, Option.map_some,
      ih fun d hd => hall d (List.mem_cons_of_mem c hd), List.any_cons, Bool.or_assoc]
    rfl

theorem labelAfter_separators {separators : Bytes}
    (hall : ∀ c ∈ separators, isKeySeparator c = true) (explicitSeparator : Bool) :
    labelAfter (some explicitSeparator) (separators.map .other)
      = some (explicitSeparator || separators.any fun c => c == 0x3A || c == 0x3D) := by
  induction separators generalizing explicitSeparator with
  | nil => rw [List.any_nil, Bool.or_false]; rfl
  | cons c separators ih =>
    have hc := hall c List.mem_cons_self
    rw [List.map_cons, labelAfter, labelBehind, if_pos hc, Option.map_some,
      ih fun d hd => hall d (List.mem_cons_of_mem c hd), List.any_cons, Bool.or_assoc]

theorem readLabels_others (label : Option Bool) (s : Bytes) :
    readLabels label (s.map .other) = s.map .other := by
  induction s generalizing label with
  | nil => rfl
  | cons c s ih => exact congrArg (_ :: ·) (ih _)

theorem labelAfter_none_others (s : Bytes) : labelAfter none (s.map .other) = none := by
  induction s with
  | nil => rfl
  | cons c s ih =>
    rw [List.map_cons, labelAfter, labelBehind]
    split_ifs <;> exact ih

/-! ## The loop is the automaton -/

def Part.edit : Part → Edit UInt8
  | .other c => .keep [c]
  | .word chars => .keep chars
  | .secret chars => .hide chars

/-- What the redaction makes of a text. -/
def partsOf (text : Bytes) : List Part := readLabels none (tokens isTokenChar text)

/-- A round at the start of a run. -/
theorem redactEdits_token (fuel : Nat) {s : Bytes}
    (hs : ∃ c cs, s = c :: cs ∧ isTokenChar c = true) :
    redactEdits (fuel + 1) false s =
      let key := s.takeWhile isTokenChar
      let rest := s.drop key.length
      if isKotakSecretKey key = false then .keep key :: redactEdits fuel true rest
      else
        let separators := rest.takeWhile isKeySeparator
        let behind := rest.drop separators.length
        let value := behind.takeWhile isTokenChar
        let explicitSeparator := separators.any fun c => c == 0x3A || c == 0x3D
        let echoed := .keep key :: separators.map fun c => .keep [c]
        if value ≠ [] ∧ takes (some explicitSeparator) value then
          echoed ++ .hide value :: redactEdits fuel true (behind.drop value.length)
        else echoed ++ redactEdits fuel (separators = []) behind := by
  obtain ⟨c, cs, rfl, hc⟩ := hs
  rw [redactEdits, if_neg (by simp [hc])]
  rfl

/-- A label that takes no value is forgotten. -/
theorem readLabels_untaken {label : Option Bool} {value tail : Bytes}
    (hvalue : ∀ c ∈ value, isTokenChar c = true) (htail : ∀ c ∈ tail.head?, isTokenChar c = false)
    (hseparator : ∀ c ∈ (value ++ tail).head?, isKeySeparator c = false)
    (htakes : ¬ (value ≠ [] ∧ takes label value = true)) :
    readLabels label (tokens isTokenChar (value ++ tail))
      = readLabels none (tokens isTokenChar (value ++ tail)) := by
  by_cases hne : value = []
  · subst hne
    rw [List.nil_append] at hseparator ⊢
    cases tail with
    | nil => rfl
    | cons c tail =>
      rw [tokens_cons_other (htail c rfl), readLabels, readLabels, labelBehind, labelBehind,
        if_neg (by simp [hseparator c rfl]), if_neg (by simp [hseparator c rfl])]
  · have htakes : takes label value = false := by simpa [hne] using htakes
    rw [tokens_run_append hne hvalue htail, readLabels, readLabels, htakes]
    rfl

/-- **What the loop does with each token is what the automaton says of it.** -/
theorem redactEdits_eq {fuel : Nat} {inRun : Bool} {text : Bytes} (hfuel : text.length ≤ fuel)
    (hseam : inRun = true → ∀ c ∈ text.head?, isTokenChar c = false) :
    redactEdits fuel inRun text = (partsOf text).map Part.edit := by
  induction fuel generalizing inRun text with
  | zero =>
    rw [List.eq_nil_of_length_eq_zero (Nat.le_zero.mp hfuel)]
    rfl
  | succ fuel ih =>
    cases text with
    | nil => rfl
    | cons c cs =>
      cases hc : isTokenChar c with
      | false =>
        rw [redactEdits, if_pos (.inl hc), hc,
          ih (Nat.le_of_succ_le_succ hfuel) (fun h => by cases h), partsOf, partsOf,
          tokens_cons_other hc, readLabels, labelBehind]
        split_ifs <;> rfl
      | true =>
        obtain rfl : inRun = false := by
          by_contra hinRun
          rw [hseam (Bool.eq_true_of_not_eq_false hinRun) c rfl] at hc
          cases hc
        -- the key is a whole run, and the separators and the value behind it are runs of their own
        obtain ⟨key, rest, htext, hkey, hrest⟩ := exists_run isTokenChar (c :: cs)
        have hne : key ≠ [] := by
          rintro rfl
          rw [hrest c (by rw [← List.nil_append rest, ← htext]; rfl)] at hc
          cases hc
        have hpos := List.length_pos_iff.mpr hne
        rw [redactEdits_token fuel ⟨c, cs, rfl, hc⟩, htext, partsOf,
          tokens_run_append hne hkey hrest, readLabels, takes, if_neg Bool.false_ne_true, labelOf]
        rw [htext, List.length_append] at hfuel
        dsimp only
        rw [takeWhile_append_stop hkey hrest, List.drop_left]
        cases hsecret : isKotakSecretKey key with
        | false =>
          rw [if_pos rfl, if_neg Bool.false_ne_true, ih (by omega) fun _ => hrest]
          rfl
        | true =>
          rw [if_neg (Bool.noConfusion ·), if_pos rfl]
          obtain ⟨separators, behind, rfl, hseparators, hbehind⟩ := exists_run isKeySeparator rest
          obtain ⟨value, tail, rfl, hvalue, htail⟩ := exists_run isTokenChar behind
          rw [takeWhile_append_stop hseparators hbehind, List.drop_left,
            takeWhile_append_stop hvalue htail, List.drop_left]
          rw [List.length_append, List.length_append] at hfuel
          rw [tokens_others_append fun c hc => not_token_of_isKeySeparator (hseparators c hc),
            readLabels_separators hseparators, Bool.false_or]
          generalize (separators.any fun c => c == 0x3A || c == 0x3D) = explicitSeparator
          split_ifs with htakes
          · -- the label takes the run behind its separators
            rw [ih (by omega) fun _ => htail, tokens_run_append htakes.1 hvalue htail, readLabels,
              if_pos htakes.2]
            simp [Part.edit, partsOf]
          · -- the round ends behind the separators, and the next one starts with no label
            rw [readLabels_untaken hvalue htail hbehind htakes,
              ih (by rw [List.length_append]; omega)]
            · simp [Part.edit, partsOf]
            · -- with no separators, what follows the key starts no run
              intro hnone
              obtain rfl := of_decide_eq_true hnone
              exact hrest

theorem redactEdits_text (text : Bytes) :
    redactEdits text.length false text = (partsOf text).map Part.edit :=
  redactEdits_eq le_rfl fun h => by cases h

end BrokerExec.Adapters.Kotak
