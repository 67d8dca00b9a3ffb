import BrokerExec.Lib.Run

/-!
# Since

`Since P ok events` looks back over a run: an event with `P` came, and every event behind it is
`ok`. `P` sees the events in front of its own too.

* **`since_concat`** — what one more event makes of it. With it every fact about the past is
  carried along a run by induction.
-/

namespace BrokerExec

variable {ε : Type}

def Since (P : List ε → ε → Prop) (ok : ε → Prop) (events : List ε) : Prop :=
  ∃ front e back, events = front ++ e :: back ∧ P front e ∧ ∀ later ∈ back, ok later

variable {P Q : List ε → ε → Prop} {ok ok' : ε → Prop} {events : List ε} {e : ε}

theorem not_since_nil : ¬ Since P ok [] := by
  rintro ⟨front, e, back, h, -⟩
  simp at h

/-- **One more event**: it starts the stretch, or the stretch goes on. -/
theorem since_concat : Since P ok (events ++ [e]) ↔ P events e ∨ (ok e ∧ Since P ok events) := by
  constructor
  · rintro ⟨front, first, back, h, hfirst, hback⟩
    rcases List.eq_nil_or_concat' back with rfl | ⟨back, last, rfl⟩
    · obtain ⟨rfl, rfl⟩ : events = front ∧ e = first := by simpa using h
      exact .inl hfirst
    · have hsplit : events ++ [e] = (front ++ first :: back) ++ [last] := by
        rw [h, List.append_assoc, List.cons_append]
      obtain ⟨hevents, hlast⟩ := List.append_inj' hsplit rfl
      obtain rfl : e = last := by simpa using hlast
      refine .inr ⟨hback e (by simp), front, first, back, hevents, hfirst, ?_⟩
      exact fun later hlater => hback later (by simp [hlater])
  · rintro (hfirst | ⟨hok, front, first, back, rfl, hfirst, hback⟩)
    · exact ⟨events, e, [], rfl, hfirst, by simp⟩
    · refine ⟨front, first, back ++ [e], by simp, hfirst, fun later hlater => ?_⟩
      rcases List.mem_append.mp hlater with hlater | hlater
      · exact hback later hlater
      · rw [List.mem_singleton.mp hlater]
        exact hok

theorem Since.mono (h : Since P ok events) (hP : ∀ front e, P front e → Q front e)
    (hok : ∀ e, ok e → ok' e) : Since Q ok' events := by
  obtain ⟨front, e, back, rfl, hfirst, hback⟩ := h
  exact ⟨front, e, back, rfl, hP front e hfirst, fun later hlater => hok later (hback later hlater)⟩

/-- A stretch goes on over whatever is `ok`. -/
theorem Since.append (h : Since P ok events) {more : List ε} (hmore : ∀ e ∈ more, ok e) :
    Since P ok (events ++ more) := by
  obtain ⟨front, e, back, rfl, hfirst, hback⟩ := h
  refine ⟨front, e, back ++ more, by simp, hfirst, fun later hlater => ?_⟩
  exact (List.mem_append.mp hlater).elim (hback later) (hmore later)

end BrokerExec
