import BrokerExec.Adapters.Http
import BrokerExec.FillNorm
import BrokerExec.Domain.DecimalPaise

/-!
# What the two flattens share (`adapters/square_off_exit.hpp`)

The name of an exit, the errors both adapters answer with, and the text both read off a JSON
field.
-/

namespace BrokerExec.Adapters

open BrokerExec.Domain (Price Side kInt64Max)
open BrokerExec.Errors (Error ErrorCategory SuggestedAction makeError)

/-! ## The name of an exit -/

def kExitRefSuffix : Bytes := ascii "#X"

/-- `exit_client_ref`: `<anchor>#X`, and nothing for an empty anchor. -/
def exitClientRef (parentAnchor : Bytes) : Bytes :=
  if parentAnchor = [] then [] else parentAnchor ++ kExitRefSuffix

def isExitRef (clientRef : Bytes) : Bool :=
  kExitRefSuffix.length < clientRef.length && kExitRefSuffix.isSuffixOf clientRef

/-- **Exit names are recognised.** -/
theorem isExitRef_exitClientRef {parentAnchor : Bytes} (h : parentAnchor ≠ []) :
    isExitRef (exitClientRef parentAnchor) = true := by
  have hlen : 0 < parentAnchor.length := List.length_pos_iff.mpr h
  rw [exitClientRef, if_neg h, isExitRef, Bool.and_eq_true, decide_eq_true_eq,
    List.isSuffixOf_iff_suffix, List.length_append]
  exact ⟨by omega, List.suffix_append _ _⟩

theorem exitClientRef_ne_nil {parentAnchor : Bytes} (h : parentAnchor ≠ []) :
    exitClientRef parentAnchor ≠ [] := by
  rw [exitClientRef, if_neg h]
  simp [h]

/-! ## Errors -/

def codedError (category : ErrorCategory) (message code : Bytes) : Error :=
  { makeError category message with brokerCode := code }

/-- `reconcile_first_error`: what could not be read is not acted upon. -/
def reconcileFirstError (message code : Bytes) : Error :=
  { codedError .unknown message code with action := .reconcileFirst }

/-- `unreadable_payload_error`: the broker answered, and the answer could not be read. -/
def unreadablePayloadError (message code : Bytes) : Error :=
  { codedError .dataStale message code with action := .reconcileFirst }

/-- An error that needs an operator. -/
def alertError (category : ErrorCategory) (message code : Bytes) : Error :=
  { codedError category message code with action := .raiseAlert }

/-! ## Fields -/

/-- `json_str`: the text of a string or a number, nothing for any other shape. -/
def jsonStr (members : List (Bytes × Json.Value)) (key : Bytes) : Bytes :=
  match members.lookup key with
  | some (.string s) => s
  | some (.int i) => decimal i
  | some (.float _ text) => text
  | _ => []

/-- The three outcomes of reading a number off a field. -/
inductive Reading where
  | absent
  | garbage
  | parsed (value : Int)
  deriving DecidableEq

def Reading.value? : Reading → Option Int
  | .parsed value => some value
  | _ => none

def Reading.malformed : Reading → Bool
  | .garbage => true
  | _ => false

/-- The objects among the elements of a book; any other element is passed over. -/
def objectRows (elements : List Json.Value) : List (List (Bytes × Json.Value)) :=
  elements.filterMap fun
    | .object members => some members
    | _ => none

/-- A negative total is no total. -/
def readTotal (quantity : Reading) : Option Int := quantity.value?.filter (0 ≤ ·)

theorem readTotal_parsed {total : Int} (h : 0 ≤ total) :
    readTotal (.parsed total) = some total := by
  simp [readTotal, Reading.value?, Option.filter, h]

/-- The fill within 0 and a positive total. -/
def clampFill (total : Option Int) (filled : Int) : Int :=
  let filled := if filled < 0 then 0 else filled
  match total with
  | some total => if 0 < total ∧ total < filled then total else filled
  | none => filled

theorem clampFill_nonneg (total : Option Int) (filled : Int) : 0 ≤ clampFill total filled := by
  unfold clampFill
  cases total with
  | none =>
    dsimp only
    split_ifs <;> omega
  | some total =>
    dsimp only
    split_ifs <;> omega

theorem clampFill_le {bound : Int} (hbound : 0 ≤ bound) (total : Option Int) {filled : Int}
    (hfilled : filled ≤ bound) : clampFill total filled ≤ bound := by
  unfold clampFill
  cases total with
  | none =>
    dsimp only
    split_ifs <;> omega
  | some total =>
    dsimp only
    split_ifs <;> omega

/-- A fill that was stated within its total is kept. -/
theorem clampFill_of_within {total : Option Int} {filled : Int} (hnonneg : 0 ≤ filled)
    (hwithin : ∀ t, total = some t → 0 < t → filled ≤ t) : clampFill total filled = filled := by
  unfold clampFill
  rw [if_neg (not_lt.mpr hnonneg)]
  cases total with
  | none => rfl
  | some t => exact if_neg fun h => absurd (hwithin t rfl h.1) (not_le.mpr h.2)

/-- An order carries the quantity of a fill exactly. -/
theorem toInt_ofInt_fill {filled : Int} (hnonneg : 0 ≤ filled) (hbound : filled ≤ kInt64Max) :
    (Int64.ofInt filled).toInt = filled := by
  unfold kInt64Max at hbound
  exact Int64.toInt_ofInt_of_le (by omega) (by omega)

/-! ## The exit's price -/

/-- A well-formed band prices the exit at the edge it has to cross; without one it is a market
order. -/
def bandPrice (lower upper : Option Price) (side : Side) : Option Price :=
  match lower, upper with
  | some lower, some upper =>
    if lower ≤ upper then some (if side = .buy then upper else lower) else none
  | _, _ => none

end BrokerExec.Adapters
