import BrokerExec.Composition.ModifyBypass

/-!
# What a clamped exit still is (`composition/engine_assembly.cpp`, `priceband/band_check.cpp`)

The band stage rewrites the prices that the gate has approved. A clamped price is in the band, and
a stop-loss keeps the order of its two prices; but it stands on an edge of the band, and nothing
asks whether that edge is a price of the instrument.

* **`clamped_sendable_iff`** — the clamped exit is sendable exactly where the edges it stands on
  are positive and aligned.
-/

namespace BrokerExec.Composition

open BrokerExec.Domain (OrderIntent Price)
open BrokerExec.PriceBand (Band checkPriceBand clamp clamp_mem clamp_mono clamp_of_mem)
open BrokerExec.Risk (GateContext orderShapeFailure pricesOrdered tickFailure tickViolation
  usesLimitPrice usesTriggerPrice)

/-! ## The two checks of the gate -/

/-- The prices that the order type uses. -/
def usedPrices (intent : OrderIntent) : List Price :=
  (if usesLimitPrice intent.orderType then [intent.price] else [])
    ++ if usesTriggerPrice intent.orderType then intent.triggerPrice.toList else []

/-- A price of the instrument. -/
def FitsTick (tick price : Price) : Prop := 0 < price ∧ 0 < tick ∧ price % tick = 0

section

variable {ctx : GateContext} {tick price : Price}

theorem tickViolation_eq_none {label : String} :
    tickViolation price tick label = none ↔ FitsTick tick price := by
  unfold tickViolation FitsTick
  simp only [Int64.le_iff_toInt_le, Int64.lt_iff_toInt_lt]
  split_ifs with hprice htick haligned
  · exact iff_of_false (by intro h; cases h) fun h => absurd h.1 (not_lt.mpr hprice)
  · exact iff_of_false (by intro h; cases h) fun h => absurd h.2.1 (not_lt.mpr htick)
  · exact iff_of_false (by intro h; cases h) fun h => haligned h.2.2
  · exact iff_of_true rfl ⟨not_le.mp hprice, not_le.mp htick, not_not.mp haligned⟩

/-- **The tick check** looks at every price in use. -/
theorem tickFailure_eq_none : tickFailure ctx = none
    ↔ ∀ price ∈ usedPrices ctx.intent, FitsTick ctx.instrument.tickSize price := by
  have hlimit : (if usesLimitPrice ctx.intent.orderType then
        tickViolation ctx.intent.price ctx.instrument.tickSize "price" else none) = none
      ↔ (usesLimitPrice ctx.intent.orderType = true →
          FitsTick ctx.instrument.tickSize ctx.intent.price) := by
    rw [← tickViolation_eq_none]
    exact ite_eq_right_iff
  unfold tickFailure
  dsimp only
  split
  next e hrefused =>
    -- the limit is refused, and the trigger not looked at
    rw [hrefused] at hlimit
    refine iff_of_false (by intro h; cases h) fun h => ?_
    exact absurd (hlimit.mpr fun huses => h _ (by simp [usedPrices, huses])) (by intro h; cases h)
  next hpassed =>
    have hfits := hlimit.mp hpassed
    constructor
    · intro h price hprice
      unfold usedPrices at hprice
      rcases List.mem_append.mp hprice with hprice | hprice <;> split_ifs at hprice with huses
      · rw [List.mem_singleton.mp hprice]
        exact hfits huses
      · cases hprice
      · rw [if_pos huses, Option.bind_eq_none_iff] at h
        exact tickViolation_eq_none.mp (h price (Option.mem_toList.mp hprice))
      · cases hprice
    · intro h
      split_ifs with huses
      · refine Option.bind_eq_none_iff.mpr fun trigger htrigger => ?_
        exact tickViolation_eq_none.mpr (h trigger (by simp [usedPrices, huses, htrigger]))
      · rfl

/-- **The shape check**: a trigger where one is used, on the near side of the limit. -/
theorem orderShapeFailure_eq_none : orderShapeFailure ctx = none
    ↔ (usesTriggerPrice ctx.intent.orderType = ctx.intent.triggerPrice.isSome)
      ∧ (ctx.intent.orderType = .stopLoss → ∀ trigger ∈ ctx.intent.triggerPrice,
          pricesOrdered ctx.intent trigger = true) := by
  unfold orderShapeFailure
  dsimp only
  split
  next huses hnone =>
    exact iff_of_false (by intro h; cases h) fun h => by simp [huses, hnone] at h
  next trigger hunused hsome =>
    exact iff_of_false (by intro h; cases h) fun h => by simp [hunused, hsome] at h
  next hunused hnone => exact iff_of_true rfl (by simp [hunused, hnone])
  next trigger huses hsome =>
    rw [huses, hsome]
    split_ifs with hcrossed
    · refine iff_of_false (by intro h; cases h) fun h => ?_
      exact absurd (h.2 hcrossed.1 trigger rfl) (Bool.eq_false_iff.mp hcrossed.2)
    · refine iff_of_true rfl ⟨rfl, fun htype trigger' htrigger => ?_⟩
      cases htrigger
      by_contra hwrong
      exact hcrossed ⟨htype, Bool.eq_false_iff.mpr hwrong⟩

end

/-! ## The clamped intent -/

/-- Each price in use, moved to the nearest edge of the band. -/
def clampedTo (band : Band) (intent : OrderIntent) : OrderIntent :=
  { intent with
    price :=
      if usesLimitPrice intent.orderType then clamp intent.price band.lower band.upper
      else intent.price
    triggerPrice :=
      if usesTriggerPrice intent.orderType then
        intent.triggerPrice.map fun trigger => clamp trigger band.lower band.upper
      else intent.triggerPrice }

/-- A band that the check can apply. -/
def Usable (band : Band) : Prop := band.known = true ∧ band.lower ≤ band.upper

instance (band : Band) : Decidable (Usable band) := inferInstanceAs (Decidable (_ ∧ _))

section

variable {intent : OrderIntent} {band : Band} {outcome : PreflightOutcome}

theorem mem_usedPrices {price : Price} : price ∈ usedPrices intent
    ↔ (usesLimitPrice intent.orderType = true ∧ price = intent.price)
      ∨ (usesTriggerPrice intent.orderType = true ∧ intent.triggerPrice = some price) := by
  unfold usedPrices
  cases usesLimitPrice intent.orderType <;> cases usesTriggerPrice intent.orderType <;> simp

theorem usedPrices_clampedTo : usedPrices (clampedTo band intent)
    = (usedPrices intent).map fun price => clamp price band.lower band.upper := by
  unfold usedPrices clampedTo
  cases usesLimitPrice intent.orderType <;> cases usesTriggerPrice intent.orderType <;>
    cases intent.triggerPrice <;> simp

/-- In the band, and so left alone. -/
theorem clampedTo_of_mem
    (h : ∀ price ∈ usedPrices intent, band.lower ≤ price ∧ price ≤ band.upper) :
    clampedTo band intent = intent := by
  have hlimit : (if usesLimitPrice intent.orderType then
      clamp intent.price band.lower band.upper else intent.price) = intent.price := by
    split_ifs with huses
    · exact clamp_of_mem (h _ (mem_usedPrices.mpr (.inl ⟨huses, rfl⟩)))
    · rfl
  have htrigger : (if usesTriggerPrice intent.orderType then
      intent.triggerPrice.map fun trigger => clamp trigger band.lower band.upper
      else intent.triggerPrice) = intent.triggerPrice := by
    split_ifs with huses
    · cases hsome : intent.triggerPrice with
      | none => rfl
      | some trigger =>
        exact congrArg some (clamp_of_mem (h _ (mem_usedPrices.mpr (.inr ⟨huses, hsome⟩))))
    · rfl
  unfold clampedTo
  rw [hlimit, htrigger]

theorem inBand_iff {price : Price} :
    PriceBand.inBand price band = true ↔ band.lower ≤ price ∧ price ≤ band.upper := by
  simp [PriceBand.inBand]

/-- The band check and the gate agree on the prices that an order type uses. -/
theorem hasLimitToCheck_eq (type : Domain.OrderType) :
    PriceBand.hasLimitToCheck type = usesLimitPrice type := rfl

theorem hasTriggerToCheck_eq (type : Domain.OrderType) :
    PriceBand.hasTriggerToCheck type = usesTriggerPrice type := rfl

/-- The band check asks each price in use. -/
theorem allIn_iff (hshape : usesTriggerPrice intent.orderType = intent.triggerPrice.isSome) :
    ((!PriceBand.hasLimitToCheck intent.orderType || PriceBand.inBand intent.price band)
        && (!PriceBand.hasTriggerToCheck intent.orderType
          || PriceBand.inBand (intent.triggerPrice.getD 0) band)) = true
      ↔ ∀ price ∈ usedPrices intent, band.lower ≤ price ∧ price ≤ band.upper := by
  rw [hasLimitToCheck_eq, hasTriggerToCheck_eq, hshape, Bool.and_eq_true]
  unfold usedPrices
  rw [hshape]
  cases usesLimitPrice intent.orderType <;> cases intent.triggerPrice <;> simp [inBand_iff]

/-- In the band, nothing is suggested. -/
theorem checkPriceBand_settled
    (hshape : usesTriggerPrice intent.orderType = intent.triggerPrice.isSome)
    (hin : ∀ price ∈ usedPrices intent, band.lower ≤ price ∧ price ≤ band.upper) :
    (checkPriceBand intent band true).hasSuggestion = false
      ∧ (checkPriceBand intent band true).hasTriggerSuggestion = false := by
  have hall := (allIn_iff hshape).mpr hin
  unfold checkPriceBand PriceBand.checkPrices
  dsimp only
  rw [if_pos hall]
  split_ifs <;> exact ⟨rfl, rfl⟩

/-- Out of it, each price in use is suggested at its edge. -/
theorem checkPriceBand_clamps (husable : Usable band)
    (hshape : usesTriggerPrice intent.orderType = intent.triggerPrice.isSome)
    (hout : ¬ ∀ price ∈ usedPrices intent, band.lower ≤ price ∧ price ≤ band.upper) :
    ∃ verdict detail, checkPriceBand intent band true
      = { PriceBand.suggest intent.orderType intent.price (intent.triggerPrice.getD 0) band with
          verdict := verdict
          detail := detail } := by
  have hall := mt (allIn_iff hshape).mp hout
  have hpriced : (!PriceBand.hasLimitToCheck intent.orderType
      && !PriceBand.hasTriggerToCheck intent.orderType) = false := by
    refine Bool.eq_false_iff.mpr fun hnone => hall ?_
    rw [Bool.and_eq_true] at hnone ⊢
    simp [hnone.1, hnone.2]
  have hknown : (!(band.known && decide (band.lower ≤ band.upper))) = false := by
    simp [husable.1, husable.2]
  unfold checkPriceBand PriceBand.checkPrices
  dsimp only
  rw [hknown, hpriced, if_neg Bool.false_ne_true, if_neg Bool.false_ne_true, if_neg hall,
    if_pos rfl]
  exact ⟨_, _, rfl⟩

/-- **What `apply_clamp` makes of an exit** whose shape the gate has approved. -/
theorem applyClamp_exit (husable : Usable band)
    (hshape : usesTriggerPrice intent.orderType = intent.triggerPrice.isSome)
    (hchecked : outcome.bandChecked = true)
    (hband : outcome.band = checkPriceBand intent band true) :
    (applyClamp intent outcome).1 = clampedTo band intent := by
  unfold applyClamp
  rw [hchecked, hband, Bool.not_true, if_neg Bool.false_ne_true]
  by_cases hin : ∀ price ∈ usedPrices intent, band.lower ≤ price ∧ price ≤ band.upper
  · obtain ⟨hlimit, htrigger⟩ := checkPriceBand_settled hshape hin
    -- in the band there is nothing to write
    rw [clampedTo_of_mem hin, hlimit, htrigger, if_neg Bool.false_ne_true,
      if_neg Bool.false_ne_true]
  · obtain ⟨verdict, detail, hsuggest⟩ := checkPriceBand_clamps husable hshape hin
    rw [hsuggest]
    unfold clampedTo PriceBand.suggest
    rw [hasLimitToCheck_eq, hasTriggerToCheck_eq, hshape]
    cases usesLimitPrice intent.orderType <;> cases intent.triggerPrice <;> rfl

/-- **A clamped stop-loss keeps the order of its prices.** -/
theorem ordered_clampedTo {trigger : Price} (hedges : band.lower ≤ band.upper)
    (htype : intent.orderType = .stopLoss) (hordered : pricesOrdered intent trigger = true) :
    pricesOrdered (clampedTo band intent) (clamp trigger band.lower band.upper) = true := by
  have huses : usesLimitPrice intent.orderType = true := by
    rw [htype]
    rfl
  have hprice : (clampedTo band intent).price = clamp intent.price band.lower band.upper :=
    if_pos huses
  have hside : (clampedTo band intent).side = intent.side := rfl
  unfold pricesOrdered at hordered ⊢
  rw [hprice, hside]
  by_cases hsell : intent.side = .sell
  · rw [if_pos hsell, decide_eq_true_eq] at hordered ⊢
    exact clamp_mono hedges hordered
  · rw [if_neg hsell, decide_eq_true_eq] at hordered ⊢
    exact clamp_mono hedges hordered

end

/-! ## Sendable again -/

/-- An exit that the gate's two checks on prices and the exchange's band accept, and that a further
clamp leaves alone. -/
structure Sendable (engine : EngineAssembly) (ctx : PreflightInputs) (intent : OrderIntent) :
    Prop where
  inBand : ∀ price ∈ usedPrices intent, ctx.band.lower ≤ price ∧ price ≤ ctx.band.upper
  ordered : intent.orderType = .stopLoss → ∀ trigger ∈ intent.triggerPrice,
    pricesOrdered intent trigger = true
  shape : orderShapeFailure (engine.exitContext intent ctx) = none
  tick : tickFailure (engine.exitContext intent ctx) = none
  aligned : ∀ price ∈ usedPrices intent, 0 < price ∧ price % ctx.instrument.tickSize = 0
  settled : ∀ outcome, outcome.band = checkPriceBand intent ctx.band true →
    applyClamp intent outcome = (intent, false)

/-- Each edge that a price in use is moved to is a price of the instrument. A price below the band
is positive itself, and so is the edge above it. -/
def EdgesFit (ctx : PreflightInputs) (intent : OrderIntent) : Prop :=
  ∀ price ∈ usedPrices intent,
    (price < ctx.band.lower → ctx.band.lower % ctx.instrument.tickSize = 0)
      ∧ (ctx.band.upper < price →
        0 < ctx.band.upper ∧ ctx.band.upper % ctx.instrument.tickSize = 0)

instance (ctx : PreflightInputs) (intent : OrderIntent) : Decidable (EdgesFit ctx intent) :=
  List.decidableBAll _ _

section

variable {engine : EngineAssembly} {intent : OrderIntent} {ctx : PreflightInputs}
  {outcome : PreflightOutcome}

/-- What a passed exit has met, and what its outcome says of the band. -/
theorem preflightExit_passed (h : (engine.preflightExit intent ctx).result = .ok outcome) :
    EngineAssembly.ExitPassed engine intent ctx ∧ outcome.bandChecked = true
      ∧ outcome.band = checkPriceBand intent ctx.band true := by
  unfold EngineAssembly.preflightExit at h
  split at h
  · cases h
  · unfold EngineAssembly.exitChain stageResult at h
    split at h
    next outcome' hstages =>
      cases h
      exact ⟨EngineAssembly.exitPassed hstages,
        (EngineAssembly.exitStages_eq_ok hstages).2.2.2⟩
    · cases h

theorem exitShape (h : EngineAssembly.ExitPassed engine intent ctx) :
    orderShapeFailure (engine.exitContext intent ctx) = none :=
  (Risk.fails_common rfl).symm.trans (h.gate .orderShape)

theorem exitTick (h : EngineAssembly.ExitPassed engine intent ctx) :
    ∀ price ∈ usedPrices intent, FitsTick ctx.instrument.tickSize price :=
  tickFailure_eq_none.mp ((Risk.fails_common rfl).symm.trans (h.gate .tick))

/-- One price: what it becomes is a price of the instrument where the edge it meets is. -/
theorem fitsTick_clamp {tick price lower upper : Price} (hedges : lower ≤ upper)
    (h : FitsTick tick price) : FitsTick tick (clamp price lower upper)
      ↔ (price < lower → lower % tick = 0) ∧ (upper < price → 0 < upper ∧ upper % tick = 0) := by
  obtain ⟨hpositive, htick, haligned⟩ := h
  unfold clamp FitsTick
  simp only [Int64.lt_iff_toInt_lt, Int64.le_iff_toInt_le, gt_iff_lt] at *
  split_ifs with hbelow habove
  · -- the lower edge is above a positive price
    refine ⟨fun h => ⟨fun _ => h.2.2, ?_⟩, fun h => ⟨?_, htick, h.1 hbelow⟩⟩ <;> omega
  · refine ⟨fun h => ⟨?_, fun _ => ⟨h.1, h.2.2⟩⟩, fun h => ⟨(h.2 habove).1, htick, (h.2 habove).2⟩⟩
    omega
  · exact iff_of_true ⟨hpositive, htick, haligned⟩
      ⟨fun h => absurd h hbelow, fun h => absurd h habove⟩

theorem applyClamp_passed (husable : Usable ctx.band)
    (h : (engine.preflightExit intent ctx).result = .ok outcome) :
    (applyClamp intent outcome).1 = clampedTo ctx.band intent := by
  obtain ⟨hpassed, hchecked, hband⟩ := preflightExit_passed h
  exact applyClamp_exit husable (orderShapeFailure_eq_none.mp (exitShape hpassed)).1 hchecked hband

theorem inBand_clampedTo (husable : Usable ctx.band) :
    ∀ price ∈ usedPrices (clampedTo ctx.band intent),
      ctx.band.lower ≤ price ∧ price ≤ ctx.band.upper := by
  intro price hprice
  rw [usedPrices_clampedTo] at hprice
  obtain ⟨price', -, rfl⟩ := List.mem_map.mp hprice
  exact clamp_mem husable.2

/-- **The shape survives.** -/
theorem shape_clampedTo (husable : Usable ctx.band)
    (h : orderShapeFailure (engine.exitContext intent ctx) = none) :
    orderShapeFailure (engine.exitContext (clampedTo ctx.band intent) ctx) = none := by
  rw [orderShapeFailure_eq_none] at h ⊢
  obtain ⟨hused, hordered⟩ := h
  have hisSome : (clampedTo ctx.band intent).triggerPrice.isSome = intent.triggerPrice.isSome := by
    unfold clampedTo
    dsimp only
    split_ifs
    · exact Option.isSome_map
    · rfl
  refine ⟨hused.trans hisSome.symm, fun htype trigger' htrigger' => ?_⟩
  have huses : usesTriggerPrice intent.orderType = true := by
    rw [show intent.orderType = .stopLoss from htype]
    rfl
  have hclamped : (clampedTo ctx.band intent).triggerPrice = some trigger' := htrigger'
  unfold clampedTo at hclamped
  dsimp only at hclamped
  rw [if_pos huses] at hclamped
  obtain ⟨trigger, htrigger, rfl⟩ := Option.map_eq_some_iff.mp hclamped
  exact ordered_clampedTo husable.2 htype (hordered htype trigger htrigger)

/-- **The ticks survive where the edges are ticks.** -/
theorem tick_clampedTo (husable : Usable ctx.band)
    (h : ∀ price ∈ usedPrices intent, FitsTick ctx.instrument.tickSize price) :
    tickFailure (engine.exitContext (clampedTo ctx.band intent) ctx) = none
      ↔ EdgesFit ctx intent := by
  have hused : (engine.exitContext (clampedTo ctx.band intent) ctx).intent
      = clampedTo ctx.band intent := rfl
  rw [tickFailure_eq_none, hused, usedPrices_clampedTo, List.forall_mem_map]
  exact forall₂_congr fun price hprice => fitsTick_clamp husable.2 (h price hprice)

/-- **A price in the band is left alone**, by this clamp and by the next. -/
theorem applyClamp_settled
    (hshape : orderShapeFailure (engine.exitContext intent ctx) = none)
    (hin : ∀ price ∈ usedPrices intent, ctx.band.lower ≤ price ∧ price ≤ ctx.band.upper)
    (hband : outcome.band = checkPriceBand intent ctx.band true) :
    applyClamp intent outcome = (intent, false) := by
  have hused : usesTriggerPrice intent.orderType = intent.triggerPrice.isSome :=
    (orderShapeFailure_eq_none.mp hshape).1
  obtain ⟨hlimit, htrigger⟩ := checkPriceBand_settled hused hin
  unfold applyClamp
  rw [hband, hlimit, htrigger]
  cases outcome.bandChecked <;> rfl

end

/-- **A clamped exit is sendable again** exactly where the edges it is moved to are prices of the
instrument. -/
theorem clamped_sendable_iff (engine : EngineAssembly) (intent : OrderIntent)
    (ctx : PreflightInputs) (outcome : PreflightOutcome) (husable : Usable ctx.band)
    (hpass : (engine.preflightExit intent ctx).result = .ok outcome) :
    Sendable engine ctx (applyClamp intent outcome).1 ↔ EdgesFit ctx intent := by
  have hpassed := (preflightExit_passed hpass).1
  have hticks : tickFailure (engine.exitContext (clampedTo ctx.band intent) ctx) = none
      ↔ EdgesFit ctx intent := tick_clampedTo husable (exitTick hpassed)
  rw [applyClamp_passed husable hpass]
  constructor
  · intro h
    exact hticks.mp h.tick
  · intro hedges
    have hshape := shape_clampedTo husable (exitShape hpassed)
    have htick := hticks.mpr hedges
    exact
      { inBand := inBand_clampedTo husable
        ordered := (orderShapeFailure_eq_none.mp hshape).2
        shape := hshape
        tick := htick
        aligned := fun price hprice =>
          have hfits := tickFailure_eq_none.mp htick price hprice
          ⟨hfits.1, hfits.2.2⟩
        settled := fun _ hband => applyClamp_settled hshape (inBand_clampedTo husable) hband }

/-- A sell far above the band and one below it, and a band of which the lower edge is no price. -/
def highExit : OrderIntent := { sampleIntent with side := .sell, price := 300 }

def lowExit : OrderIntent := { sampleIntent with side := .sell, price := 50 }

def unevenInputs : PreflightInputs := { sampleInputs with band := ⟨52, 200, true⟩ }

/-- Above the uneven band the exit is clamped to the even edge. -/
theorem clamped_sendable_above :
    ∃ outcome, (calmEngine.preflightExit highExit unevenInputs).result = .ok outcome
      ∧ (applyClamp highExit outcome).1.price = 200
      ∧ Sendable calmEngine unevenInputs (applyClamp highExit outcome).1 := by
  obtain ⟨outcome, hpass⟩ :
      ∃ outcome, (calmEngine.preflightExit highExit unevenInputs).result = .ok outcome := ⟨_, rfl⟩
  have hsendable := (clamped_sendable_iff calmEngine highExit unevenInputs outcome (by decide)
    hpass).mpr (by decide)
  refine ⟨outcome, hpass, ?_, hsendable⟩
  rw [applyClamp_passed (by decide) hpass]
  decide

/-- Below it, to the uneven one: 52 paise at a tick of 5, which the gate's own check refuses. -/
theorem clamped_off_tick :
    ∃ outcome, (calmEngine.preflightExit lowExit unevenInputs).result = .ok outcome
      ∧ (applyClamp lowExit outcome).1.price = 52
      ∧ ¬ Sendable calmEngine unevenInputs (applyClamp lowExit outcome).1 := by
  obtain ⟨outcome, hpass⟩ :
      ∃ outcome, (calmEngine.preflightExit lowExit unevenInputs).result = .ok outcome := ⟨_, rfl⟩
  have hclamped := applyClamp_passed (show Usable unevenInputs.band by decide) hpass
  refine ⟨outcome, hpass, ?_, fun h => ?_⟩
  · rw [hclamped]
    decide
  · rw [hclamped] at h
    exact absurd (h.aligned 52 (by decide)).2 (by decide)

end BrokerExec.Composition
