import BrokerExec.Domain.Instrument

/-!
# The price band (`priceband/band_check.cpp`)

An entry outside the exchange's band is blocked, an exit is clamped into it, and an unusable
band lets both through unvalidated.

* **`checkPriceBand_exit`** — an exit is never blocked.
-/

namespace BrokerExec.PriceBand

open BrokerExec.Domain (Money OrderIntent OrderType Side)
open BrokerExec.Errors (makeError)

inductive BandVerdict where
  | withinBand
  | outsideBandBlocked
  | outsideBandExitClamped
  | marketUnchecked
  | bandUnknown
  deriving DecidableEq

def BandVerdict.toString : BandVerdict → Bytes
  | .withinBand => ascii "within_band"
  | .outsideBandBlocked => ascii "outside_band_blocked"
  | .outsideBandExitClamped => ascii "outside_band_exit_clamped"
  | .marketUnchecked => ascii "market_unchecked"
  | .bandUnknown => ascii "band_unknown"

/-- `PriceBand`. -/
structure Band where
  lower : Money
  upper : Money
  known : Bool
  deriving DecidableEq

structure BandCheckResult where
  verdict : BandVerdict
  blocked : Bool
  suggestedLimit : Money
  hasSuggestion : Bool
  suggestedTrigger : Money
  hasTriggerSuggestion : Bool
  detail : Bytes
  deriving DecidableEq

/-- The defaults: nothing decided. -/
def BandCheckResult.initial : BandCheckResult := ⟨.bandUnknown, false, 0, false, 0, false, []⟩

/-- `—`, which the source's texts hold in UTF-8. -/
def emDash : Bytes := [0xE2, 0x80, 0x94]

def clamp (price lower upper : Money) : Money :=
  if price < lower then lower else if price > upper then upper else price

def inBand (price : Money) (band : Band) : Bool := band.lower ≤ price && price ≤ band.upper

def hasLimitToCheck (t : Domain.OrderType) : Bool := t = .limit || t = .stopLoss

def hasTriggerToCheck (t : Domain.OrderType) : Bool := t = .stopLoss || t = .stopLossMarket

/-- The result outside the band, before the verdict: a suggestion for each price in use. -/
def suggest (orderType : Domain.OrderType) (limitPrice triggerPrice : Money) (band : Band) :
    BandCheckResult :=
  let result := BandCheckResult.initial
  let result :=
    if hasLimitToCheck orderType then
      { result with suggestedLimit := clamp limitPrice band.lower band.upper, hasSuggestion := true }
    else result
  if hasTriggerToCheck orderType then
    { result with suggestedTrigger := clamp triggerPrice band.lower band.upper,
                  hasTriggerSuggestion := true }
  else result

theorem suggest_blocked (orderType : Domain.OrderType) (limitPrice triggerPrice : Money)
    (band : Band) : (suggest orderType limitPrice triggerPrice band).blocked = false := by
  unfold suggest
  dsimp only
  split_ifs <;> rfl

/-- `check_price_band`, of the two prices; the side is only carried. -/
def checkPrices (_side : Side) (orderType : Domain.OrderType) (limitPrice triggerPrice : Money)
    (band : Band) (isExit : Bool) : BandCheckResult :=
  let initial := BandCheckResult.initial
  if !(band.known && band.lower ≤ band.upper) then
    { initial with detail := ascii "band unavailable " ++ emDash ++ ascii " price not validated" }
  else if !hasLimitToCheck orderType && !hasTriggerToCheck orderType then
    { initial with verdict := .marketUnchecked
                   detail := ascii "market order " ++ emDash ++ ascii " band not price-enforceable" }
  else if (!hasLimitToCheck orderType || inBand limitPrice band)
      && (!hasTriggerToCheck orderType || inBand triggerPrice band) then
    { initial with verdict := .withinBand, detail := ascii "within circuit/LPP band" }
  else if isExit then
    { suggest orderType limitPrice triggerPrice band with
      verdict := .outsideBandExitClamped
      detail := ascii "exit priced outside band " ++ emDash
        ++ ascii " clamped to band edge so it is not rejected" }
  else
    { suggest orderType limitPrice triggerPrice band with
      verdict := .outsideBandBlocked
      blocked := true
      detail := ascii "entry priced outside circuit/LPP band " ++ emDash
        ++ ascii " blocked pre-submission (would be exchange-rejected)" }

/-- `check_price_band`, of the intent's own prices; an absent trigger is zero. -/
def checkPriceBand (intent : OrderIntent) (band : Band) (isExit : Bool) : BandCheckResult :=
  checkPrices intent.side intent.orderType intent.price (intent.triggerPrice.getD 0) band isExit

def requireBandOk (intent : OrderIntent) (band : Band) (isExit : Bool) : Result Unit :=
  let result := checkPriceBand intent band isExit
  if !result.blocked then .ok ()
  else
    .error
      { makeError .validation (ascii "price band: " ++ result.verdict.toString ++ ascii " ("
          ++ intent.side.toString ++ ascii ") " ++ emDash
          ++ ascii " entry outside circuit/LPP band") with
        action := .blockStrategy }

/-! ## Clamping -/

section

variable {price price' lower upper : Money}

theorem toInt_clamp : (clamp price lower upper).toInt
    = if price.toInt < lower.toInt then lower.toInt
      else if upper.toInt < price.toInt then upper.toInt else price.toInt := by
  unfold clamp
  simp only [gt_iff_lt, Int64.lt_iff_toInt_lt]
  split_ifs <;> rfl

theorem clamp_mem (hedges : lower ≤ upper) :
    lower ≤ clamp price lower upper ∧ clamp price lower upper ≤ upper := by
  simp only [Int64.le_iff_toInt_le, toInt_clamp] at hedges ⊢
  split_ifs <;> omega

theorem clamp_mono (hedges : lower ≤ upper) (h : price ≤ price') :
    clamp price lower upper ≤ clamp price' lower upper := by
  simp only [Int64.le_iff_toInt_le, toInt_clamp] at hedges h ⊢
  split_ifs <;> omega

/-- A price in the band stands. -/
theorem clamp_of_mem (h : lower ≤ price ∧ price ≤ upper) : clamp price lower upper = price := by
  simp only [Int64.le_iff_toInt_le] at h
  rw [← Int64.toInt_inj, toInt_clamp]
  split_ifs <;> omega

end

/-- **An exit is never blocked.** -/
theorem checkPriceBand_exit (intent : OrderIntent) (band : Band) :
    (checkPriceBand intent band true).blocked = false := by
  unfold checkPriceBand checkPrices
  dsimp only
  rw [if_pos rfl]
  split_ifs
  · rfl
  · rfl
  · rfl
  · exact suggest_blocked intent.orderType _ _ band

/-- An entry is blocked exactly by the verdict that says so. -/
theorem checkPriceBand_entry_blocked (intent : OrderIntent) (band : Band) :
    (checkPriceBand intent band false).blocked = true
      ↔ (checkPriceBand intent band false).verdict = .outsideBandBlocked := by
  unfold checkPriceBand checkPrices
  dsimp only
  rw [if_neg Bool.false_ne_true]
  split_ifs <;> simp [BandCheckResult.initial]

end BrokerExec.PriceBand
