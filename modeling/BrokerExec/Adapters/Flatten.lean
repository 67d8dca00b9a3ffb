import BrokerExec.Adapters.SquareOffExit

/-!
# The order of a flatten

Both adapters flatten in one order: read the book, refuse what the book decides, cancel what is
left of the order, then settle the exit. `flatten` is that order, over what an adapter makes of a
book (`assess`) and how it settles.

* **`flatten_cases`** — a flatten refuses without a place, or it is `Cleared` and settles;
* **`flatten_cancelless_iff`** — behind the assessment it cancels exactly what is not terminal.
-/

namespace BrokerExec.Adapters

open BrokerExec.Errors (Error)

/-- A call on the REST client: `γ` are the parameters of a cancel, `π` those of a place. -/
inductive RestCall (γ π : Type) where
  | orders
  | cancelOrder (params : γ)
  | placeOrder (params : π)

/-- What the REST client answers; each call is made at most once. -/
structure Answers where
  orders : Result Json.Value
  cancelOrder : Result Json.Value
  placeOrder : Result Json.Value

/-- What a flatten answers, the calls it made and the adapter it leaves. -/
structure Flattened (σ γ π : Type) where
  result : Result Unit
  calls : List (RestCall γ π)
  adapter : σ

/-- The cancel's error, unless the order was gone already. -/
def cancelFailure : Result Json.Value → Option Error
  | .ok _ => none
  | .error error => if error.category = .orderNotFound then none else some error

/-- The cancel was acked, or the order was gone. -/
theorem cancelFailure_eq_none_iff {cancelled : Result Json.Value} :
    cancelFailure cancelled = none ↔
      (∃ data, cancelled = .ok data)
        ∨ ∃ error, cancelled = .error error ∧ error.category = .orderNotFound := by
  cases cancelled with
  | ok data => simp [cancelFailure]
  | error error => simp [cancelFailure]

variable {σ γ π α : Type}

/-- The calls ahead of the exit. -/
def clearing (π : Type) (cancel : γ) (terminal : Bool) : List (RestCall γ π) :=
  .orders :: if terminal then [] else [.cancelOrder cancel]

/-- The order of a flatten. `noId` is the error of a missing id. -/
def flatten (st : σ) (noId : Error) (brokerOrderId : Bytes) (cancel : γ)
    (assess : Json.Value → Result α) (terminal : α → Bool)
    (settle : α → List (RestCall γ π) → Flattened σ γ π) (answers : Answers) :
    Flattened σ γ π :=
  if brokerOrderId = [] then ⟨.error noId, [], st⟩
  else
    match answers.orders with
    | .error error => ⟨.error error, [.orders], st⟩
    | .ok book =>
      match assess book with
      | .error error => ⟨.error error, [.orders], st⟩
      | .ok seen =>
        -- a terminal order is not cancelled
        match if terminal seen then none else cancelFailure answers.cancelOrder with
        | some error => ⟨.error error, clearing π cancel (terminal seen), st⟩
        | none => settle seen (clearing π cancel (terminal seen))

/-- The book is assessed and nothing of the order is left to cancel. -/
structure Cleared (brokerOrderId : Bytes) (assess : Json.Value → Result α) (terminal : α → Bool)
    (answers : Answers) (seen : α) : Prop where
  named : brokerOrderId ≠ []
  assessed : ∃ book, answers.orders = .ok book ∧ assess book = .ok seen
  cancelled : terminal seen = true ∨ cancelFailure answers.cancelOrder = none

variable {st : σ} {noId : Error} {brokerOrderId : Bytes} {cancel : γ}
  {assess : Json.Value → Result α} {terminal : α → Bool}
  {settle : α → List (RestCall γ π) → Flattened σ γ π} {answers : Answers} {seen : α}

/-- A cleared flatten settles. -/
theorem flatten_of_cleared (h : Cleared brokerOrderId assess terminal answers seen) :
    flatten st noId brokerOrderId cancel assess terminal settle answers
      = settle seen (clearing π cancel (terminal seen)) := by
  obtain ⟨book, hread, hassess⟩ := h.assessed
  have hcancel : (if terminal seen then none else cancelFailure answers.cancelOrder) = none := by
    split_ifs with hterminal
    · rfl
    · exact h.cancelled.resolve_left hterminal
  simp only [flatten, h.named, hread, hassess, hcancel, if_false]

/-- The calls place nothing. -/
def Placeless (calls : List (RestCall γ π)) : Prop := ∀ params, .placeOrder params ∉ calls

theorem clearing_placeless (cancel : γ) (terminal : Bool) :
    Placeless (clearing π cancel terminal) := by
  intro params
  unfold clearing
  split_ifs <;> simp

/-- The orders that a list of calls places. -/
def placedOrders (calls : List (RestCall γ π)) : List π :=
  calls.filterMap fun
    | .placeOrder params => some params
    | _ => none

theorem mem_placedOrders {calls : List (RestCall γ π)} {params : π} :
    params ∈ placedOrders calls ↔ .placeOrder params ∈ calls := by
  unfold placedOrders
  constructor
  · intro h
    obtain ⟨call, hcall, hparams⟩ := List.mem_filterMap.mp h
    cases call with
    | placeOrder params' => exact Option.some.inj hparams ▸ hcall
    | _ => cases hparams
  · exact fun h => List.mem_filterMap.mpr ⟨_, h, rfl⟩

theorem placedOrders_of_placeless {calls : List (RestCall γ π)} (h : Placeless calls) :
    placedOrders calls = [] :=
  List.eq_nil_iff_forall_not_mem.mpr fun params hparams => h params (mem_placedOrders.mp hparams)

theorem placedOrders_concat {calls : List (RestCall γ π)} (h : Placeless calls) (params : π) :
    placedOrders (calls ++ [.placeOrder params]) = [params] := by
  rw [placedOrders, List.filterMap_append, ← placedOrders, placedOrders_of_placeless h]
  rfl

/-- The calls cancel nothing. -/
def Cancelless (calls : List (RestCall γ π)) : Prop := ∀ params, .cancelOrder params ∉ calls

theorem cancelless_append {front back : List (RestCall γ π)} :
    Cancelless (front ++ back) ↔ Cancelless front ∧ Cancelless back := by
  simp only [Cancelless, List.mem_append, not_or, forall_and]

theorem clearing_cancelless_iff (cancel : γ) (terminal : Bool) :
    Cancelless (clearing π cancel terminal) ↔ terminal = true := by
  cases terminal <;> simp [Cancelless, clearing]

/-- **Terminal means no cancel**, when settling cancels nothing of its own. -/
theorem flatten_cancelless_iff {book : Json.Value} (hnamed : brokerOrderId ≠ [])
    (hread : answers.orders = .ok book) (hassess : assess book = .ok seen)
    (hsettle : ∀ calls, ∃ more, (settle seen calls).calls = calls ++ more ∧ Cancelless more) :
    Cancelless (flatten st noId brokerOrderId cancel assess terminal settle answers).calls
      ↔ terminal seen = true := by
  simp only [flatten, hnamed, hread, hassess, if_false]
  cases hcancel : if terminal seen then none else cancelFailure answers.cancelOrder with
  | some error => exact clearing_cancelless_iff cancel _
  | none =>
    obtain ⟨more, hcalls, hmore⟩ := hsettle (clearing π cancel (terminal seen))
    dsimp only
    rw [hcalls, cancelless_append, clearing_cancelless_iff]
    exact and_iff_left hmore

variable (st noId brokerOrderId cancel assess terminal settle answers)

/-- **A flatten refuses without a place, or it is cleared and settles.** -/
theorem flatten_cases :
    (∃ error calls, flatten st noId brokerOrderId cancel assess terminal settle answers
        = ⟨.error error, calls, st⟩ ∧ Placeless calls)
      ∨ ∃ seen, Cleared brokerOrderId assess terminal answers seen
        ∧ flatten st noId brokerOrderId cancel assess terminal settle answers
          = settle seen (clearing π cancel (terminal seen)) := by
  by_cases hnamed : brokerOrderId = []
  · exact .inl ⟨noId, [], by rw [flatten, if_pos hnamed], fun _ => List.not_mem_nil⟩
  -- the four ways out, in the order of `flatten`
  cases hread : answers.orders with
  | error error =>
    refine .inl ⟨error, [.orders], ?_, clearing_placeless cancel true⟩
    simp only [flatten, hnamed, hread, if_false]
  | ok book =>
    cases hassess : assess book with
    | error error =>
      refine .inl ⟨error, [.orders], ?_, clearing_placeless cancel true⟩
      simp only [flatten, hnamed, hread, hassess, if_false]
    | ok seen =>
      by_cases hcancel : terminal seen = true ∨ cancelFailure answers.cancelOrder = none
      · have hcleared : Cleared brokerOrderId assess terminal answers seen :=
          ⟨hnamed, ⟨book, hread, hassess⟩, hcancel⟩
        exact .inr ⟨seen, hcleared, flatten_of_cleared hcleared⟩
      · obtain ⟨hterminal, hfailure⟩ := not_or.mp hcancel
        obtain ⟨error, herror⟩ := Option.ne_none_iff_exists'.mp hfailure
        refine .inl ⟨error, clearing π cancel (terminal seen), ?_, clearing_placeless cancel _⟩
        simp only [flatten, hnamed, hread, hassess, hterminal, herror, Bool.false_eq_true,
          if_false]

end BrokerExec.Adapters
