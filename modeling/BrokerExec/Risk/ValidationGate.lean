import BrokerExec.Domain.Instrument
import Mathlib.Data.List.Basic

/-!
# The validation gate (`risk/validation_gate.cpp`)

Thirteen checks in a fixed order; the first that fails is the answer, under its name. The
entry-only ones are skipped for a risk-reducing operation. An order over the freeze ceiling is
sliced or refused, as the caller says.

* **`validate_ok_iff`** — the gate passes exactly when every check does.
* **`validate_error_iff`** — what it answers otherwise is what the refusing check says.
* **`fails_entryOnly`** — a risk-reducing operation meets no entry-only check.
-/

namespace BrokerExec.Risk

open BrokerExec.Domain (Instrument OrderIntent OrderType Product Side)
open BrokerExec.Errors (Error ErrorCategory makeError)

inductive GateOutcome where
  | allow
  | allowWithSlicing
  deriving DecidableEq

/-- An absent check passes. The checks are what they answer when they are called; `calendar` is
the answer of `require_entry_allowed`. -/
structure GateContext where
  intent : OrderIntent
  instrument : Instrument
  isRiskReducing : Bool
  killEntryBlock : Bool
  unknownPauseActive : Bool
  isDuplicate : Option Bool
  calendar : Option (Result Unit)
  fundsCheck : Option (Result Unit)
  riskCheck : Option (Result Unit)
  hedgeCheck : Option (Result Unit)
  allowedExchanges : List Bytes
  allowedProducts : List Product
  sliceMode : Bool

/-- The checks, in the order in which they run. -/
inductive GateCheck where
  | killSwitch
  | unknownPause
  | duplicate
  | exchange
  | product
  | lot
  | orderShape
  | tick
  | freeze
  | timeWindow
  | funds
  | risk
  | hedge
  deriving DecidableEq

def GateCheck.name : GateCheck → Bytes
  | .killSwitch => ascii "kill-switch"
  | .unknownPause => ascii "UNKNOWN-pause"
  | .duplicate => ascii "duplicate"
  | .exchange => ascii "exchange"
  | .product => ascii "product"
  | .lot => ascii "lot"
  | .orderShape => ascii "order-shape"
  | .tick => ascii "tick"
  | .freeze => ascii "freeze"
  | .timeWindow => ascii "time-window"
  | .funds => ascii "funds"
  | .risk => ascii "risk"
  | .hedge => ascii "hedge"

def GateCheck.all : List GateCheck :=
  [.killSwitch, .unknownPause, .duplicate, .exchange, .product, .lot, .orderShape, .tick, .freeze,
    .timeWindow, .funds, .risk, .hedge]

theorem GateCheck.mem_all (check : GateCheck) : check ∈ GateCheck.all := by
  cases check <;> decide

/-- The checks that a risk-reducing operation does not meet. -/
def GateCheck.isEntryOnly : GateCheck → Bool
  | .killSwitch | .unknownPause | .duplicate | .timeWindow | .funds => true
  | _ => false

/-! ## Texts -/

def named (check : GateCheck) (detail : Bytes) : Bytes :=
  ascii "gate: " ++ check.name ++ ascii " check failed: " ++ detail

def gateError (category : ErrorCategory) (check : GateCheck) (detail : Bytes) : Error :=
  makeError category (named check detail)

def wrapError (check : GateCheck) (inner : Error) : Error :=
  { inner with message := named check inner.message }

/-! ## The checks -/

def usesLimitPrice (type : Domain.OrderType) : Bool := type = .limit || type = .stopLoss

def usesTriggerPrice (type : Domain.OrderType) : Bool := type = .stopLoss || type = .stopLossMarket

/-- A kill and the pause answer `BlockStrategy`, not the category's own action. -/
def blocked (check : GateCheck) (detail : Bytes) : Error :=
  { gateError .riskRejected check detail with action := .blockStrategy }

/-- What an injected check answers, under the check's name; an absent one passes. -/
def injected (check : GateCheck) : Option (Result Unit) → Option Error
  | none | some (.ok ()) => none
  | some (.error e) => some (wrapError check e)

def exchangeFailure (ctx : GateContext) : Option Error :=
  if ctx.instrument.exchange = [] then
    some (gateError .validation .exchange (ascii "instrument has no exchange"))
  else if ctx.allowedExchanges ≠ [] ∧ ctx.instrument.exchange ∉ ctx.allowedExchanges then
    some (gateError .validation .exchange
      (ascii "exchange '" ++ ctx.instrument.exchange ++ ascii "' is not allowed"))
  else none

def productFailure (ctx : GateContext) : Option Error :=
  if ctx.allowedProducts ≠ [] ∧ ctx.intent.product ∉ ctx.allowedProducts then
    some (gateError .validation .product
      (ascii "product '" ++ ctx.intent.product.toString
        ++ ascii "' is not allowed for this instrument"))
  else none

def lotFailure (ctx : GateContext) : Option Error :=
  let qty := ctx.intent.quantity
  let lot := ctx.instrument.lotSize
  if qty ≤ 0 then
    some (gateError .validation .lot
      (ascii "quantity " ++ decimal qty.toInt ++ ascii " must be positive"))
  else if lot ≤ 0 then
    some (gateError .validation .lot
      (ascii "instrument lot size " ++ decimal lot.toInt ++ ascii " is invalid"))
  else if qty < lot ∨ qty % lot ≠ 0 then
    some (gateError .validation .lot
      (ascii "quantity " ++ decimal qty.toInt ++ ascii " is not a multiple of lot size "
        ++ decimal lot.toInt))
  else none

/-- A stop-loss' limit stands on the far side of its trigger, or on it. -/
def pricesOrdered (intent : OrderIntent) (trigger : Domain.Price) : Bool :=
  if intent.side = .sell then intent.price ≤ trigger else intent.price ≥ trigger

def orderShapeFailure (ctx : GateContext) : Option Error :=
  let intent := ctx.intent
  match usesTriggerPrice intent.orderType, intent.triggerPrice with
  | true, none =>
    some (gateError .validation .orderShape
      (ascii "order type '" ++ intent.orderType.toString ++ ascii "' requires a trigger price"))
  | false, some _ =>
    some (gateError .validation .orderShape
      (ascii "order type '" ++ intent.orderType.toString
        ++ ascii "' must not carry a trigger price"))
  | false, none => none
  | true, some trigger =>
    if intent.orderType = .stopLoss ∧ pricesOrdered intent trigger = false then
      some (gateError .validation .orderShape
        (ascii "a " ++ intent.side.toString ++ ascii " stop-loss limit price "
          ++ decimal intent.price.toInt ++ ascii " paise is on the wrong side of its trigger "
          ++ decimal trigger.toInt
          ++ ascii " paise (SELL requires limit <= trigger, BUY requires limit >= trigger); "
          ++ ascii "the order would arm and then never fill"))
    else none

def tickViolation (price tick : Int64) (label : String) : Option Error :=
  if price ≤ 0 then
    some (gateError .validation .tick
      (ascii label ++ ascii " " ++ decimal price.toInt ++ ascii " paise must be positive"))
  else if tick ≤ 0 then
    some (gateError .validation .tick
      (ascii "instrument tick size " ++ decimal tick.toInt ++ ascii " is invalid"))
  else if price % tick ≠ 0 then
    some (gateError .validation .tick
      (ascii label ++ ascii " " ++ decimal price.toInt ++ ascii " paise is not aligned to tick size "
        ++ decimal tick.toInt ++ ascii " paise"))
  else none

/-- The limit first, then the trigger, as far as the order type uses them. -/
def tickFailure (ctx : GateContext) : Option Error :=
  let tick := ctx.instrument.tickSize
  let limit :=
    if usesLimitPrice ctx.intent.orderType then tickViolation ctx.intent.price tick "price"
    else none
  match limit with
  | some e => some e
  | none =>
    if usesTriggerPrice ctx.intent.orderType then
      -- the shape check has refused an absent trigger already
      ctx.intent.triggerPrice.bind fun trigger => tickViolation trigger tick "trigger price"
    else none

def freezeFailure (ctx : GateContext) : Option Error :=
  let qty := ctx.intent.quantity
  let freeze := ctx.instrument.freezeQty
  if freeze ≤ 0 then
    some (gateError .validation .freeze
      (ascii "instrument freeze ceiling " ++ decimal freeze.toInt
        ++ ascii " is unknown or invalid"))
  else if qty > freeze ∧ ctx.sliceMode = false then
    some (gateError .validation .freeze
      (ascii "quantity " ++ decimal qty.toInt ++ ascii " exceeds the freeze ceiling "
        ++ decimal freeze.toInt ++ ascii " and slicing is disabled"))
  else none

/-- What a check says of the context if it runs. -/
def GateContext.failure (ctx : GateContext) : GateCheck → Option Error
  | .killSwitch =>
    if ctx.killEntryBlock then
      some (blocked .killSwitch (ascii "entries are blocked by an active kill-switch"))
    else none
  | .unknownPause =>
    if ctx.unknownPauseActive then
      some (blocked .unknownPause
        (ascii "entries are paused while UNKNOWN orders are unresolved"))
    else none
  | .duplicate =>
    if ctx.isDuplicate = some true then
      some (gateError .duplicateOrder .duplicate
        (ascii "client_ref '" ++ ctx.intent.clientRef ++ ascii "' has already been seen"))
    else none
  | .exchange => exchangeFailure ctx
  | .product => productFailure ctx
  | .lot => lotFailure ctx
  | .orderShape => orderShapeFailure ctx
  | .tick => tickFailure ctx
  | .freeze => freezeFailure ctx
  | .timeWindow => injected .timeWindow ctx.calendar
  | .funds => injected .funds ctx.fundsCheck
  | .risk => injected .risk ctx.riskCheck
  | .hedge => injected .hedge ctx.hedgeCheck

def GateContext.fails (ctx : GateContext) (check : GateCheck) : Option Error :=
  if check.isEntryOnly ∧ ctx.isRiskReducing then none else ctx.failure check

def GateContext.needsSlicing (ctx : GateContext) : Bool :=
  ctx.intent.quantity > ctx.instrument.freezeQty && ctx.sliceMode

/-- `ValidationGate::validate`. -/
def validate (ctx : GateContext) : Result GateOutcome :=
  match GateCheck.all.findSome? ctx.fails with
  | some e => .error e
  | none => .ok (if ctx.needsSlicing then .allowWithSlicing else .allow)

/-- The check that refuses the context, if one does. -/
def GateContext.refusedBy (ctx : GateContext) : Option GateCheck :=
  GateCheck.all.find? fun check => (ctx.fails check).isSome

/-! ## The verdict -/

section

variable {ctx ctx' : GateContext} {check : GateCheck}

/-- **It passes exactly when every check does.** -/
theorem validate_ok_iff {outcome : GateOutcome} :
    validate ctx = .ok outcome ↔
      (∀ check, ctx.fails check = none)
        ∧ outcome = if ctx.needsSlicing then .allowWithSlicing else .allow := by
  unfold validate
  cases hall : GateCheck.all.findSome? ctx.fails with
  | some e =>
    obtain ⟨check, -, hfails⟩ := List.exists_of_findSome?_eq_some hall
    refine iff_of_false (by intro h; cases h) fun h => ?_
    rw [h.1 check] at hfails
    cases hfails
  | none =>
    have hpass := List.findSome?_eq_none_iff.mp hall
    refine ⟨fun h => ⟨fun check => hpass check check.mem_all, (Except.ok.inj h).symm⟩, ?_⟩
    rintro ⟨-, rfl⟩
    rfl

theorem validate_error_iff {e : Error} :
    validate ctx = .error e ↔
      ∃ check, ctx.refusedBy = some check ∧ ctx.fails check = some e := by
  unfold validate GateContext.refusedBy
  generalize GateCheck.all = checks
  induction checks with
  | nil => simp
  | cons first rest ih =>
    rw [List.findSome?_cons, List.find?_cons]
    cases hfirst : ctx.fails first with
    | none => simpa using ih
    | some refusal => simp [hfirst]

theorem refusedBy_fails (h : ctx.refusedBy = some check) : (ctx.fails check).isSome = true :=
  List.find?_some (p := fun check => (ctx.fails check).isSome) h

/-- A check that passes is not the one that refuses. -/
theorem refusedBy_ne (h : ctx.fails check = none) : ctx.refusedBy ≠ some check := by
  intro hrefused
  have hfails := refusedBy_fails hrefused
  rw [h] at hfails
  cases hfails

/-- A risk-reducing operation meets no entry-only check. -/
theorem fails_entryOnly (hreducing : ctx.isRiskReducing = true)
    (hcheck : check.isEntryOnly = true) : ctx.fails check = none :=
  if_pos ⟨hcheck, hreducing⟩

/-- Any other check is the same for both. -/
theorem fails_common (hcheck : check.isEntryOnly = false) : ctx.fails check = ctx.failure check :=
  if_neg fun h => by rw [hcheck] at h; exact Bool.false_ne_true h.1

theorem fails_of_entry (hentry : ctx.isRiskReducing = false) :
    ctx.fails check = ctx.failure check :=
  if_neg fun h => by rw [hentry] at h; exact Bool.false_ne_true h.2

end

end BrokerExec.Risk
