import Mathlib.Algebra.Ring.Int.Defs
import Mathlib.Data.Int.Order.Basic

/-!
# Signed arithmetic without wrapping

A signed operation whose exact result does not fit in 64 bits has no meaning. `checked` gives the
exact result, and stops where there is none to give.
-/

namespace BrokerExec

/-- What fits in 64 bits. -/
def FitsInt64 (m : Int) : Prop := -2 ^ 63 ≤ m ∧ m < 2 ^ 63

instance (m : Int) : Decidable (FitsInt64 m) := inferInstanceAs (Decidable (_ ∧ _))

inductive Overflow
  | int64
deriving Repr, DecidableEq

/-- An operation with the exact result `m`. -/
def checked (m : Int) : Except Overflow Int := if FitsInt64 m then .ok m else .error .int64

theorem checked_eq_ok {m : Int} (h : FitsInt64 m) : checked m = .ok m := if_pos h

/-- An operation that fits passes its result on. -/
theorem checked_bind {α : Type} {m : Int} (h : FitsInt64 m) (f : Int → Except Overflow α) :
    checked m >>= f = f m := by
  rw [checked_eq_ok h]
  rfl

end BrokerExec
