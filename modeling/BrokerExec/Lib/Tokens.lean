import Mathlib.Data.List.Basic

/-!
# Runs of a text

A text cut into the maximal runs of a character class and the single characters between them.

* **`tokens_append`** — a text is cut part by part, where no run goes over the seam.
* **`Cut.tokens_textOf`** — a list of tokens with no two runs side by side is the cut of its text.
-/

namespace BrokerExec

variable {α : Type*} {p : α → Bool}

inductive Token (α : Type*) where
  | other (c : α)
  | run (chars : List α)
  deriving DecidableEq

namespace Token

def text : Token α → List α
  | .other c => [c]
  | .run chars => chars

def textOf (ts : List (Token α)) : List α := ts.flatMap text

@[simp] theorem textOf_nil : textOf ([] : List (Token α)) = [] := rfl

@[simp] theorem textOf_cons (t : Token α) (ts : List (Token α)) :
    textOf (t :: ts) = t.text ++ textOf ts := rfl

@[simp] theorem textOf_append (ts us : List (Token α)) :
    textOf (ts ++ us) = textOf ts ++ textOf us :=
  List.flatMap_append

end Token

open Token

/-- One more character of the class in front. -/
def consRun (c : α) : List (Token α) → List (Token α)
  | .run chars :: ts => .run (c :: chars) :: ts
  | ts => .run [c] :: ts

def tokens (p : α → Bool) : List α → List (Token α)
  | [] => []
  | c :: cs => if p c then consRun c (tokens p cs) else .other c :: tokens p cs

theorem consRun_append (c : α) {ts us : List (Token α)}
    (h : ts ≠ [] ∨ ∀ chars, .run chars ∉ us.head?) :
    consRun c (ts ++ us) = consRun c ts ++ us := by
  cases ts with
  | nil =>
    cases us with
    | nil => rfl
    | cons u us =>
      cases u with
      | other d => rfl
      | run chars => exact absurd rfl ((h.resolve_left fun h => h rfl) chars)
  | cons t ts => cases t <;> rfl

theorem consRun_ne (c : α) (ts : List (Token α)) : consRun c ts ≠ [] := by
  unfold consRun
  split <;> exact List.cons_ne_nil _ _

@[simp] theorem tokens_eq_nil {s : List α} : tokens p s = [] ↔ s = [] := by
  refine ⟨fun h => ?_, fun h => h ▸ rfl⟩
  cases s with
  | nil => rfl
  | cons c cs =>
    rw [tokens] at h
    split_ifs at h
    exact absurd h (consRun_ne c _)

theorem tokens_cons_other {c : α} (hc : p c = false) (cs : List α) :
    tokens p (c :: cs) = .other c :: tokens p cs := by
  rw [tokens, hc]
  rfl

theorem run_not_mem_head {s : List α} (hs : ∀ c ∈ s.head?, p c = false) :
    ∀ chars, .run chars ∉ (tokens p s).head? := by
  intro chars hrun
  cases s with
  | nil => cases hrun
  | cons c cs =>
    rw [tokens_cons_other (hs c rfl)] at hrun
    cases hrun

/-- **A text is cut part by part, where no run goes over the seam.** -/
theorem tokens_append {a b : List α}
    (h : (∀ c ∈ a.getLast?, p c = false) ∨ ∀ c ∈ b.head?, p c = false) :
    tokens p (a ++ b) = tokens p a ++ tokens p b := by
  induction a with
  | nil => rfl
  | cons c cs ih =>
    have htail : tokens p (cs ++ b) = tokens p cs ++ tokens p b := by
      cases cs with
      | nil => rfl
      | cons d cs => exact ih h
    rw [List.cons_append, tokens, tokens, htail]
    split_ifs with hc
    · refine consRun_append c ?_
      cases cs with
      | nil =>
        refine .inr (run_not_mem_head (h.resolve_left fun hlast => ?_))
        rw [hlast c rfl] at hc
        cases hc
      | cons d cs => exact .inl fun hnil => List.cons_ne_nil d cs (tokens_eq_nil.mp hnil)
    · rfl

theorem tokens_run {run : List α} (hne : run ≠ []) (hrun : ∀ c ∈ run, p c = true) :
    tokens p run = [.run run] := by
  induction run with
  | nil => exact absurd rfl hne
  | cons c cs ih =>
    rw [tokens, if_pos (hrun c List.mem_cons_self)]
    cases cs with
    | nil => rfl
    | cons d cs =>
      rw [ih (List.cons_ne_nil d cs) fun e he => hrun e (List.mem_cons_of_mem c he)]
      rfl

theorem tokens_others {s : List α} (hs : ∀ c ∈ s, p c = false) : tokens p s = s.map .other := by
  induction s with
  | nil => rfl
  | cons c cs ih =>
    rw [tokens_cons_other (hs c List.mem_cons_self), List.map_cons,
      ih fun d hd => hs d (List.mem_cons_of_mem c hd)]

theorem tokens_run_append {run rest : List α} (hne : run ≠ []) (hrun : ∀ c ∈ run, p c = true)
    (hrest : ∀ c ∈ rest.head?, p c = false) :
    tokens p (run ++ rest) = .run run :: tokens p rest := by
  rw [tokens_append (.inr hrest), tokens_run hne hrun, List.singleton_append]

theorem tokens_others_append {s rest : List α} (hs : ∀ c ∈ s, p c = false) :
    tokens p (s ++ rest) = s.map .other ++ tokens p rest := by
  rw [tokens_append (.inl fun c hc => hs c (List.mem_of_mem_getLast? hc)), tokens_others hs]

/-! ## Cuts -/

/-- Maximal runs and single characters outside the class. -/
inductive Cut (p : α → Bool) : List (Token α) → Prop where
  | nil : Cut p []
  | other {c : α} {ts : List (Token α)} (hc : p c = false) (hrest : Cut p ts) :
      Cut p (.other c :: ts)
  | run {chars : List α} {ts : List (Token α)} (hne : chars ≠ []) (hrun : ∀ c ∈ chars, p c = true)
      (hstop : ∀ c ∈ (textOf ts).head?, p c = false) (hrest : Cut p ts) : Cut p (.run chars :: ts)

/-- A list of tokens with no two runs side by side is the cut of its text. -/
theorem Cut.tokens_textOf {ts : List (Token α)} (h : Cut p ts) : tokens p (textOf ts) = ts := by
  induction h with
  | nil => rfl
  | @other c ts hc hrest ih =>
    show tokens p (c :: textOf ts) = _
    rw [tokens_cons_other hc, ih]
  | @run chars ts hne hrun hstop hrest ih =>
    show tokens p (chars ++ textOf ts) = _
    rw [tokens_run_append hne hrun hstop, ih]

theorem textOf_consRun (c : α) (ts : List (Token α)) : textOf (consRun c ts) = c :: textOf ts := by
  unfold consRun
  split <;> rfl

@[simp] theorem textOf_tokens (p : α → Bool) (s : List α) : textOf (tokens p s) = s := by
  induction s with
  | nil => rfl
  | cons c cs ih =>
    rw [tokens]
    split_ifs with hc
    · rw [textOf_consRun, ih]
    · rw [textOf_cons, ih]
      rfl

theorem Cut.cons_run {c : α} {ts : List (Token α)} (h : Cut p ts) (hc : p c = true) :
    Cut p (consRun c ts) := by
  cases h with
  | nil => exact .run (List.cons_ne_nil c []) (by simpa using hc) (by simp) .nil
  | @other d ts hd hrest =>
    refine .run (List.cons_ne_nil c []) (by simpa using hc) ?_ (.other hd hrest)
    intro e he
    obtain rfl : d = e := Option.some.inj he
    exact hd
  | run hne hrun hstop hrest =>
    exact .run (List.cons_ne_nil c _) (List.forall_mem_cons.mpr ⟨hc, hrun⟩) hstop hrest

theorem cut_tokens (p : α → Bool) (s : List α) : Cut p (tokens p s) := by
  induction s with
  | nil => exact .nil
  | cons c cs ih =>
    rw [tokens]
    split_ifs with hc
    · exact ih.cons_run hc
    · exact .other (by simpa using hc) ih

/-- A cut is cut wherever its text is cut between runs. -/
theorem Cut.split {ts : List (Token α)} {a b : List α} (h : Cut p ts) (htext : textOf ts = a ++ b)
    (hseam : (∀ c ∈ a.getLast?, p c = false) ∨ ∀ c ∈ b.head?, p c = false) :
    ts = tokens p a ++ tokens p b := by
  rw [← tokens_append hseam, ← htext, h.tokens_textOf]

theorem Cut.of_cons {t : Token α} {ts : List (Token α)} (h : Cut p (t :: ts)) : Cut p ts := by
  cases h with
  | other hc hrest => exact hrest
  | run hne hrun hstop hrest => exact hrest

theorem Cut.of_append {ts us : List (Token α)} (h : Cut p (ts ++ us)) : Cut p us := by
  induction ts with
  | nil => exact h
  | cons t ts ih => exact ih h.of_cons

end BrokerExec
