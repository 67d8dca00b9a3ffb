import Mathlib.Data.List.Basic

/-!
# Edit scripts

A scrubber goes over a text and either copies a stretch of it or puts a marker in its place. A
script is the list of what it did.

* **`carry`** — the script done again to a list that runs along the text: bytes, origins, or both.
* **`carry_source`** — on the text itself it gives what the scrubber shows.
* **`mem_carry`** — what comes out is the marker's or was copied.
-/

namespace BrokerExec

/-- What a scrubber does with the next stretch of its text. Nothing stands for an empty stretch. -/
inductive Edit (α : Type*) where
  | keep (chars : List α)
  | hide (chars : List α)

namespace Edit

variable {α β γ : Type*}

def chars : Edit α → List α
  | .keep chars => chars
  | .hide chars => chars

/-- What comes out for a stretch of a list that runs along the text. -/
def apply (marker : List β) : Edit α → List β → List β
  | .keep _, stretch => stretch
  | .hide chars, _ => if chars = [] then [] else marker

/-- The text a script is about. -/
def source (es : List (Edit α)) : List α := es.flatMap chars

/-- The text that a script leaves. -/
def shown (marker : List α) (es : List (Edit α)) : List α :=
  es.flatMap fun e => e.apply marker e.chars

/-- The script done to a list that runs along its text. -/
def carry (marker : List β) : List (Edit α) → List β → List β
  | [], _ => []
  | e :: es, along =>
    e.apply marker (along.take e.chars.length) ++ carry marker es (along.drop e.chars.length)

section

variable {marker : List β} {es fs : List (Edit α)} {along along' : List β}

@[simp] theorem source_nil : source ([] : List (Edit α)) = [] := rfl

@[simp] theorem source_cons (e : Edit α) (es : List (Edit α)) :
    source (e :: es) = e.chars ++ source es := rfl

@[simp] theorem source_append (es fs : List (Edit α)) :
    source (es ++ fs) = source es ++ source fs :=
  List.flatMap_append

@[simp] theorem shown_nil (marker : List α) : shown marker [] = [] := rfl

@[simp] theorem shown_cons (marker : List α) (e : Edit α) (es : List (Edit α)) :
    shown marker (e :: es) = e.apply marker e.chars ++ shown marker es := rfl

@[simp] theorem carry_nil (marker along : List β) : carry marker ([] : List (Edit α)) along = [] :=
  rfl

/-- A script is done stretch by stretch. -/
theorem carry_append (hlength : along.length = (source es).length) :
    carry marker (es ++ fs) (along ++ along')
      = carry marker es along ++ carry marker fs along' := by
  induction es generalizing along with
  | nil =>
    obtain rfl := List.eq_nil_of_length_eq_zero hlength
    rfl
  | cons e es ih =>
    rw [source_cons, List.length_append] at hlength
    have hfront : e.chars.length ≤ along.length := by omega
    rw [List.cons_append, carry, carry, List.take_append_of_le_length hfront,
      List.drop_append_of_le_length hfront, ih, List.append_assoc]
    rw [List.length_drop]
    omega

/-- A script whose first edits were done to the first of two stretches. -/
theorem carry_cons (e : Edit α) (hlength : along.length = e.chars.length) :
    carry marker (e :: es) (along ++ along') = e.apply marker along ++ carry marker es along' := by
  rw [carry, ← hlength, List.take_left, List.drop_left]

/-- **On its own text a script gives what it shows.** -/
theorem carry_source (marker : List α) (es : List (Edit α)) :
    carry marker es (source es) = shown marker es := by
  induction es with
  | nil => rfl
  | cons e es ih => rw [source_cons, carry_cons e rfl, ih, shown_cons]

theorem apply_map (f : β → γ) (e : Edit α) (stretch : List β) :
    (e.apply marker stretch).map f = e.apply (marker.map f) (stretch.map f) := by
  cases e with
  | keep chars => rfl
  | hide chars =>
    show (if chars = [] then [] else marker).map f = if chars = [] then [] else marker.map f
    split_ifs <;> rfl

/-- A script does not look at what it carries. -/
theorem carry_map (f : β → γ) (es : List (Edit α)) (along : List β) :
    (carry marker es along).map f = carry (marker.map f) es (along.map f) := by
  induction es generalizing along with
  | nil => rfl
  | cons e es ih => rw [carry, carry, List.map_append, apply_map, ih, List.map_take, List.map_drop]

/-- **What comes out is the marker's or was copied.** -/
theorem mem_carry {b : β} (hb : b ∈ carry marker es along) : b ∈ marker ∨ b ∈ along := by
  induction es generalizing along with
  | nil => cases hb
  | cons e es ih =>
    rw [carry, List.mem_append] at hb
    rcases hb with hb | hb
    · cases e with
      | keep chars => exact .inr (List.mem_of_mem_take hb)
      | hide chars =>
        change b ∈ if chars = [] then [] else marker at hb
        split_ifs at hb
        · cases hb
        · exact .inl hb
    · exact (ih hb).imp_right List.mem_of_mem_drop

/-- Of a stretch that is hidden nothing comes out. -/
theorem mem_carry_hide {b : β} {chars : List α} (hlength : (source es).length ≤ along.length)
    (hb : b ∈ carry marker (es ++ .hide chars :: fs) along) :
    b ∈ marker ∨ b ∈ along.take (source es).length
      ∨ b ∈ along.drop ((source es).length + chars.length) := by
  rw [← List.take_append_drop (source es).length along,
    carry_append (List.length_take_of_le hlength), List.mem_append] at hb
  rcases hb with hb | hb
  · exact (mem_carry hb).imp_right .inl
  · rw [carry, List.mem_append, List.drop_drop] at hb
    rcases hb with hb | hb
    · change b ∈ if chars = [] then [] else marker at hb
      split_ifs at hb
      · cases hb
      · exact .inl hb
    · exact (mem_carry hb).imp_right .inr

/-- A stretch that is kept comes out. -/
theorem mem_carry_keep {b : β} {chars : List α} (hlength : (source es).length ≤ along.length)
    (hb : b ∈ (along.drop (source es).length).take chars.length) :
    b ∈ carry marker (es ++ .keep chars :: fs) along := by
  rw [← List.take_append_drop (source es).length along,
    carry_append (List.length_take_of_le hlength), List.mem_append]
  exact .inr (List.mem_append_left _ hb)

/-- What is carried stays as long as what is shown. -/
theorem length_carry {shownMarker : List α} (hmarker : marker.length = shownMarker.length)
    (hlength : along.length = (source es).length) :
    (carry marker es along).length = (shown shownMarker es).length := by
  induction es generalizing along with
  | nil => rfl
  | cons e es ih =>
    rw [source_cons, List.length_append] at hlength
    have htail : (along.drop e.chars.length).length = (source es).length := by
      rw [List.length_drop]
      omega
    rw [carry, shown_cons, List.length_append, List.length_append, ih htail]
    refine congrArg (· + _) ?_
    cases e with
    | keep chars =>
      show (along.take chars.length).length = chars.length
      rw [List.length_take]
      exact Nat.min_eq_left (hlength ▸ Nat.le_add_right _ _)
    | hide chars =>
      show (if chars = [] then [] else marker).length
        = (if chars = [] then [] else shownMarker).length
      split_ifs
      · rfl
      · exact hmarker

end

end Edit

end BrokerExec
