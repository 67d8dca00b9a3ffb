import BrokerExec.Adapters.Flatten
import BrokerExec.Lifecycle

/-!
# A row, read twice

`fetch_orders` publishes every row of the book as a `domain::Order`, and the flatten reads the same
rows for itself. This is what both adapters publish into, and what the two readings of one row owe
each other: `ReadersAgree`.
-/

namespace BrokerExec.Adapters

open BrokerExec.Domain (OrderIntent OrderState OrderType)
open BrokerExec.Lifecycle (isTerminal)

/-! ## What is published -/

/-- A default-constructed `OrderIntent`. -/
def blankIntent : OrderIntent where
  clientRef := []
  symbol := []
  side := .buy
  quantity := 0
  price := 0
  triggerPrice := none
  orderType := .market
  product := .intraday
  strategy := []

/-- `is_stop`: only a stop is published with a trigger. -/
def isStop : Domain.OrderType → Bool
  | .stopLoss | .stopLossMarket => true
  | .market | .limit => false

/-! ## What is stated -/

/-- The fill and the total that a row states. -/
structure Stated where
  filled : Option Int
  total : Option Int

def stated (filled total : Reading) : Stated := ⟨filled.value?, total.value?⟩

/-- A positive fill is stated, and it is the whole of a total that is stated. -/
def Stated.Complete (row : Stated) : Prop :=
  ∃ filled, row.filled = some filled ∧ 0 < filled ∧ ∀ total, row.total = some total → total ≤ filled

theorem clampFill_le_of_pos {total : Option Int} {filled : Int} (h : 0 < clampFill total filled) :
    0 < filled ∧ clampFill total filled ≤ filled := by
  by_cases hnegative : filled < 0
  · have hzero : clampFill total filled ≤ 0 := by
      have hclamped : clampFill total filled = clampFill total 0 := by
        simp only [clampFill, hnegative, if_true, lt_irrefl, if_false]
      rw [hclamped]
      exact clampFill_le le_rfl total le_rfl
    omega
  · have hle := clampFill_le (not_lt.mp hnegative) total (le_refl filled)
    omega

/-- The clamp neither makes a fill complete nor unmakes one. -/
theorem clampFill_covers_iff (total filled : Int) :
    0 < clampFill (some total) filled ∧ total ≤ clampFill (some total) filled
      ↔ 0 < filled ∧ total ≤ filled := by
  unfold clampFill
  dsimp only
  split_ifs <;> omega

theorem complete_stated_iff {filled quantity : Reading} {total : Int}
    (h : readTotal quantity = some total) :
    (stated filled quantity).Complete
      ↔ 0 < clampFill (some total) (filled.value?.getD 0)
        ∧ total ≤ clampFill (some total) (filled.value?.getD 0) := by
  have htotal : quantity.value? = some total := (Option.filter_eq_some_iff.mp h).1
  rw [clampFill_covers_iff]
  constructor
  · rintro ⟨value, hvalue, hpositive, hcovers⟩
    rw [show filled.value? = some value from hvalue]
    exact ⟨hpositive, hcovers total htotal⟩
  · rintro ⟨hpositive, hcovers⟩
    cases hvalue : filled.value? with
    | none => simp [hvalue] at hpositive
    | some value =>
      rw [hvalue] at hpositive hcovers
      refine ⟨value, hvalue, hpositive, fun total' htotal' => ?_⟩
      rw [show (stated filled quantity).total = some total from htotal] at htotal'
      exact Option.some.inj htotal' ▸ hcovers

/-! ## What the readers owe each other -/

/-- Filled is published on evidence; and of a row that the flatten accepts as its parent, a known
state is terminal exactly when the flatten cancels nothing. -/
structure ReadersAgree {γ π : Type} (row : Stated) (published : OrderState) (accepted : Prop)
    (calls : List (RestCall γ π)) : Prop where
  evidence : published = .filled → row.Complete
  terminal : accepted → published ≠ .unknown → (isTerminal published = true ↔ Cancelless calls)

end BrokerExec.Adapters
