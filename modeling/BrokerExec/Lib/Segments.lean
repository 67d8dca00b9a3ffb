import BrokerExec.Lib.Bytes

/-!
# Segments behind a separator

`joined sep segments` puts the separator in front of each segment.

* **`append_joined_inj`** — behind any text, as many segments without the separator are cut off in
  one way.
* **`joined_inj`** — with nothing in front, whatever their number.
-/

namespace BrokerExec

def joined (sep : UInt8) (segments : List Bytes) : Bytes := segments.flatMap (sep :: ·)

@[simp] theorem joined_nil (sep : UInt8) : joined sep [] = [] := rfl

@[simp] theorem joined_cons (sep : UInt8) (segment : Bytes) (segments : List Bytes) :
    joined sep (segment :: segments) = sep :: (segment ++ joined sep segments) := rfl

theorem joined_append (sep : UInt8) (segments segments' : List Bytes) :
    joined sep (segments ++ segments') = joined sep segments ++ joined sep segments' :=
  List.flatMap_append

variable {sep : UInt8} {text text' : Bytes} {segments segments' : List Bytes}

/-- The last segment is found behind the last separator. -/
theorem append_joined_concat (text : Bytes) (segments : List Bytes) (last : Bytes) :
    text ++ joined sep (segments ++ [last]) = (text ++ joined sep segments) ++ sep :: last := by
  rw [joined_append, ← List.append_assoc, joined_cons, joined_nil, List.append_nil]

theorem append_joined_inj (hlength : segments.length = segments'.length)
    (hsegments : ∀ segment ∈ segments, sep ∉ segment)
    (hsegments' : ∀ segment ∈ segments', sep ∉ segment)
    (h : text ++ joined sep segments = text' ++ joined sep segments') :
    text = text' ∧ segments = segments' := by
  induction segments using List.reverseRecOn generalizing segments' with
  | nil =>
    obtain rfl := List.length_eq_zero_iff.mp hlength.symm
    exact ⟨by simpa using h, rfl⟩
  | append_singleton segments last ih =>
    rcases List.eq_nil_or_concat' segments' with rfl | ⟨segments', last', rfl⟩
    · simp at hlength
    · rw [append_joined_concat, append_joined_concat] at h
      obtain ⟨hrest, rfl⟩ := append_inj_of_last (hsegments last (by simp))
        (hsegments' last' (by simp)) h
      obtain ⟨rfl, rfl⟩ := ih (by simpa using hlength)
        (fun segment hsegment => hsegments segment (by simp [hsegment]))
        (fun segment hsegment => hsegments' segment (by simp [hsegment])) hrest
      exact ⟨rfl, rfl⟩

theorem count_joined (hsegments : ∀ segment ∈ segments, sep ∉ segment) :
    (joined sep segments).count sep = segments.length := by
  induction segments with
  | nil => rfl
  | cons segment segments ih =>
    rw [joined_cons, List.count_cons_self, List.count_append,
      List.count_eq_zero.mpr (hsegments segment List.mem_cons_self),
      ih fun s hs => hsegments s (List.mem_cons_of_mem _ hs), List.length_cons, Nat.zero_add]

theorem joined_inj (hsegments : ∀ segment ∈ segments, sep ∉ segment)
    (hsegments' : ∀ segment ∈ segments', sep ∉ segment)
    (h : joined sep segments = joined sep segments') : segments = segments' := by
  have hlength : segments.length = segments'.length := by
    rw [← count_joined hsegments, h, count_joined hsegments']
  have happend : [] ++ joined sep segments = [] ++ joined sep segments' := h
  exact (append_joined_inj hlength hsegments hsegments' happend).2

end BrokerExec
