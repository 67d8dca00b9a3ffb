import BrokerExec.Domain.Instrument

/-!
# The margin buffer (`marginsafety/margin_buffer.cpp`)

The broker's margin figure, or the worst case of a basket whose netting is not trusted, plus a
flat and a proportional cushion, against the available funds.

* **`evaluateMargin_blocked_iff`** — blocked exactly when the funds do not cover it.
-/

namespace BrokerExec.MarginSafety

open BrokerExec.Domain (Money formatPaise)
open BrokerExec.Errors (makeError)

structure MarginSafetyConfig where
  bufferBps : Int32
  flatBuffer : Money
  deriving DecidableEq

structure MarginInputs where
  apiRequired : Money
  summedLegMargin : Money
  available : Money
  isMultiLeg : Bool
  benefitTrusted : Bool
  deriving DecidableEq

inductive MarginVerdict where
  | sufficient
  | insufficientBlocked
  deriving DecidableEq

def MarginVerdict.toString : MarginVerdict → Bytes
  | .sufficient => ascii "Sufficient"
  | .insufficientBlocked => ascii "InsufficientBlocked"

structure MarginSafetyResult where
  verdict : MarginVerdict
  blocked : Bool
  baseRequired : Money
  effectiveRequired : Money
  usedWorstCase : Bool
  boundaryFlagged : Bool
  detail : Bytes
  deriving DecidableEq

/-- The fail-closed defaults. -/
def MarginSafetyResult.initial : MarginSafetyResult :=
  ⟨.insufficientBlocked, true, 0, 0, false, false, []⟩

def isBlocking (verdict : MarginVerdict) : Bool := verdict = .insufficientBlocked

def maxMoney (a b : Money) : Money := if a ≥ b then a else b

/-- `INT64_MAX`. -/
def int64Max : Int64 := Int64.maxValue

def satAdd (a b : Int64) : Int64 :=
  if b > 0 ∧ a > int64Max - b then int64Max else a + b

def bpsCushion (basePaise bps : Int64) : Int64 :=
  if basePaise ≤ 0 ∨ bps ≤ 0 then 0
  else if basePaise > (int64Max - 9999) / bps then int64Max
  else (basePaise * bps + 9999) / 10000

/-- The worst case is taken for a basket whose netting benefit is not trusted. -/
def usesWorstCase (input : MarginInputs) : Bool := input.isMultiLeg && !input.benefitTrusted

def baseRequired (input : MarginInputs) : Money :=
  let base :=
    if usesWorstCase input then maxMoney input.summedLegMargin input.apiRequired
    else input.apiRequired
  maxMoney base input.apiRequired

def effectiveRequired (input : MarginInputs) (cfg : MarginSafetyConfig) : Money :=
  let base := baseRequired input
  let bps := if cfg.bufferBps > 0 then cfg.bufferBps.toInt64 else 0
  let flat := if cfg.flatBuffer > 0 then cfg.flatBuffer else 0
  satAdd (satAdd base flat) (bpsCushion base bps)

def boolText (b : Bool) : Bytes := if b then ascii "true" else ascii "false"

def evaluateMargin (input : MarginInputs) (cfg : MarginSafetyConfig) : MarginSafetyResult :=
  let effective := effectiveRequired input cfg
  let verdict : MarginVerdict :=
    if input.available ≥ effective then .sufficient else .insufficientBlocked
  { verdict := verdict
    blocked := isBlocking verdict
    baseRequired := baseRequired input
    effectiveRequired := effective
    usedWorstCase := usesWorstCase input
    boundaryFlagged := !input.benefitTrusted
    detail := verdict.toString ++ ascii ": effective_required " ++ formatPaise effective
      ++ ascii " (base " ++ formatPaise (baseRequired input) ++ ascii ") vs available "
      ++ formatPaise input.available ++ ascii " [worst_case=" ++ boolText (usesWorstCase input)
      ++ ascii ", boundary_flagged=" ++ boolText (!input.benefitTrusted) ++ ascii "]" }

def requireMarginOk (r : MarginSafetyResult) : Result Unit :=
  if !r.blocked then .ok ()
  else
    .error
      { makeError .riskRejected (ascii "margin safety: " ++ r.verdict.toString
          ++ ascii " - effective_required " ++ formatPaise r.effectiveRequired
          ++ ascii " exceeds available funds (buffered requirement)") with
        action := .blockStrategy }

/-- **Blocked exactly when the funds fall short.** -/
theorem evaluateMargin_blocked_iff (input : MarginInputs) (cfg : MarginSafetyConfig) :
    (evaluateMargin input cfg).blocked = true
      ↔ ¬ input.available ≥ effectiveRequired input cfg := by
  unfold evaluateMargin isBlocking
  dsimp only
  split_ifs with hcovered
  · exact iff_of_false (by decide) (not_not_intro hcovered)
  · exact iff_of_true (by decide) hcovered

end BrokerExec.MarginSafety
