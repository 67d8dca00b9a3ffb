import BrokerExec.Domain.Types
import Mathlib.Order.Basic

/-!
# Degradation postures (`modes/posture.cpp`)

Detector signals ask for a posture each; the severest of them and the operator's floor wins.

* **`evaluate_le_iff`** — the posture of a set of signals is the least one above the floor and
  above what every signal asks for.
-/

namespace BrokerExec.Modes

open BrokerExec.Errors (Error SuggestedAction makeError)

inductive Posture where
  | normal
  | blockEntries
  | exitOnly
  | softKill
  | panic
  deriving DecidableEq

/-- A posture's integer severity, which orders the postures. -/
def Posture.severity : Posture → Nat
  | .normal => 0
  | .blockEntries => 1
  | .exitOnly => 2
  | .softKill => 3
  | .panic => 4

theorem severity_injective : Function.Injective Posture.severity := by
  intro p q h
  cases p <;> cases q <;> first | rfl | (simp [Posture.severity] at h)

instance : LinearOrder Posture := LinearOrder.lift' Posture.severity severity_injective

theorem Posture.le_def {p q : Posture} : p ≤ q ↔ p.severity ≤ q.severity := Iff.rfl

theorem Posture.lt_def {p q : Posture} : p < q ↔ p.severity < q.severity := Iff.rfl

theorem normal_le (p : Posture) : Posture.normal ≤ p := Nat.zero_le _

theorem le_panic (p : Posture) : p ≤ Posture.panic := by
  cases p <;> decide

def Posture.toString : Posture → Bytes
  | .normal => ascii "Normal"
  | .blockEntries => ascii "BlockEntries"
  | .exitOnly => ascii "ExitOnly"
  | .softKill => ascii "SoftKill"
  | .panic => ascii "Panic"

inductive DetectorSignal where
  | staleData
  | muteFeed
  | unknown
  | mismatch
  | sessionExpiry
  | brokerDown
  | clockSkew
  | clockStall
  | resourcePressure
  | riskBreach
  deriving DecidableEq

/-- `posture_for`. -/
def postureFor : DetectorSignal → Posture
  | .staleData | .muteFeed | .unknown | .mismatch | .sessionExpiry => .blockEntries
  | .brokerDown | .clockSkew | .clockStall | .resourcePressure => .exitOnly
  | .riskBreach => .softKill

/-- No detector escalates to a panic. -/
theorem postureFor_lt_panic (s : DetectorSignal) : postureFor s < Posture.panic := by
  cases s <;> decide

/-- `PostureCoordinator::evaluate`. -/
def evaluate (active : List DetectorSignal) (operatorFloor : Posture) : Posture :=
  active.foldl
    (fun result s =>
      let candidate := postureFor s
      if candidate.severity > result.severity then candidate else result)
    operatorFloor

def allowsEntries (p : Posture) : Bool := p = .normal

def allowsRiskReducingExits (p : Posture) : Bool := p ≠ .panic

def requireEntryAllowed (p : Posture) : Result Unit :=
  if p = .normal then .ok ()
  else .error { makeError .riskRejected (ascii "posture " ++ p.toString ++ ascii " blocks new entries")
    with action := .blockStrategy }

theorem requireEntryAllowed_isOk (p : Posture) :
    (requireEntryAllowed p).isOk = allowsEntries p := by
  cases p <;> rfl

/-! ## Severest wins -/

theorem evaluate_nil (floor : Posture) : evaluate [] floor = floor := rfl

theorem evaluate_cons (s : DetectorSignal) (active : List DetectorSignal) (floor : Posture) :
    evaluate (s :: active) floor = evaluate active (max floor (postureFor s)) := by
  unfold evaluate
  rw [List.foldl_cons]
  congr 1
  show (if floor.severity < (postureFor s).severity then postureFor s else floor) = _
  split_ifs with h
  · exact (max_eq_right (Posture.lt_def.mpr h).le).symm
  · exact (max_eq_left (Posture.le_def.mpr (by omega))).symm

/-- **The severest of the floor and the signals' postures.** -/
theorem evaluate_le_iff {active : List DetectorSignal} {floor p : Posture} :
    evaluate active floor ≤ p ↔ floor ≤ p ∧ ∀ s ∈ active, postureFor s ≤ p := by
  induction active generalizing floor with
  | nil => simp [evaluate_nil]
  | cons s active ih =>
    rw [evaluate_cons, ih, max_le_iff, List.forall_mem_cons, and_assoc]

/-- More signals and a higher floor never make the posture less severe. -/
theorem evaluate_mono {active active' : List DetectorSignal} {floor floor' : Posture}
    (hactive : ∀ s ∈ active, s ∈ active') (hfloor : floor ≤ floor') :
    evaluate active floor ≤ evaluate active' floor' := by
  obtain ⟨hfloor', hsignals⟩ := evaluate_le_iff.mp (le_refl (evaluate active' floor'))
  exact evaluate_le_iff.mpr ⟨hfloor.trans hfloor', fun s hs => hsignals s (hactive s hs)⟩

/-- Only the operator's floor reaches a panic. -/
theorem evaluate_eq_panic_iff {active : List DetectorSignal} {floor : Posture} :
    evaluate active floor = .panic ↔ floor = .panic := by
  constructor
  · intro h
    by_contra hfloor
    have hbelow : evaluate active floor ≤ .softKill := by
      refine evaluate_le_iff.mpr ⟨?_, fun s _ => ?_⟩
      · cases floor with
        | panic => exact absurd rfl hfloor
        | _ => decide
      · cases s <;> decide
    rw [h] at hbelow
    exact absurd hbelow (by decide)
  · intro h
    refine le_antisymm (le_panic _) ?_
    rw [← h]
    exact (evaluate_le_iff.mp (le_refl (evaluate active floor))).1

end BrokerExec.Modes
