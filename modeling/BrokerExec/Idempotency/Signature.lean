import BrokerExec.Idempotency
import BrokerExec.Lib.Segments

/-!
# The text under a signal's signature (`idempotency/idempotency.cpp`)

A symbol may hold the separator too, so the text is cut from its end: behind the symbol there are
a fixed number of segments, and the trigger, which only some orders have, is known by its tag.

* **`canonicalSignatureInput_inj`** — orders with one text agree in every order-defining field.
-/

namespace BrokerExec.Idempotency

open BrokerExec.Domain (OrderIntent OrderType Side Product)

def sep : UInt8 := 0x1F

variable {a b : OrderIntent}

/-- The segments behind the symbol that every order has, but for the last. -/
def fixedSegments (intent : OrderIntent) : List Bytes :=
  [ascii "side=" ++ intent.side.toString,
    ascii "qty=" ++ decimal intent.quantity.toInt,
    ascii "price=" ++ decimal (definingPricePaise intent).toInt,
    ascii "order_type=" ++ intent.orderType.toString]

def productSegment (intent : OrderIntent) : Bytes := ascii "product=" ++ intent.product.toString

def triggerSegments (intent : OrderIntent) : List Bytes :=
  (intent.triggerPrice.map fun trigger => ascii "trigger=" ++ decimal trigger.toInt).toList

def strategyAndSymbol (intent : OrderIntent) : Bytes :=
  ascii "strategy=" ++ intent.strategy ++ sep :: (ascii "symbol=" ++ intent.symbol)

theorem canonicalSignatureInput_eq (intent : OrderIntent) :
    canonicalSignatureInput intent
      = strategyAndSymbol intent ++ joined sep (fixedSegments intent ++ [productSegment intent]
          ++ triggerSegments intent) := by
  unfold canonicalSignatureInput strategyAndSymbol fixedSegments productSegment triggerSegments kSep
  cases intent.triggerPrice <;> simp [sep]

/-! ## No segment holds the separator -/

theorem sep_not_mem_decimal (i : Int) : sep ∉ decimal i := by
  intro h
  rcases mem_decimal h with hdigit | hminus
  · exact absurd hdigit (by decide)
  · exact absurd hminus (by decide)

theorem sep_not_mem_append {tag value : Bytes} (htag : sep ∉ tag) (hvalue : sep ∉ value) :
    sep ∉ tag ++ value := by
  rw [List.mem_append, not_or]
  exact ⟨htag, hvalue⟩

theorem sep_not_mem_fixedSegments (intent : OrderIntent) :
    ∀ segment ∈ fixedSegments intent, sep ∉ segment := by
  simp only [fixedSegments, List.forall_mem_cons]
  refine ⟨sep_not_mem_append (by decide) ?_, sep_not_mem_append (by decide) (sep_not_mem_decimal _),
    sep_not_mem_append (by decide) (sep_not_mem_decimal _), sep_not_mem_append (by decide) ?_,
    by simp⟩
  · cases intent.side <;> decide
  · cases intent.orderType <;> decide

theorem sep_not_mem_productSegment (intent : OrderIntent) : sep ∉ productSegment intent := by
  refine sep_not_mem_append (by decide) ?_
  cases intent.product <;> decide

theorem sep_not_mem_triggerSegments (intent : OrderIntent) :
    ∀ segment ∈ triggerSegments intent, sep ∉ segment := by
  intro segment hsegment
  obtain ⟨trigger, -, rfl⟩ := Option.map_eq_some_iff.mp (Option.mem_toList.mp hsegment)
  exact sep_not_mem_append (by decide) (sep_not_mem_decimal _)

/-! ## Each segment determines its field -/

theorem fixedSegments_inj (h : fixedSegments a = fixedSegments b) :
    a.side = b.side ∧ a.quantity = b.quantity ∧ definingPricePaise a = definingPricePaise b
      ∧ a.orderType = b.orderType := by
  simp only [fixedSegments, List.cons.injEq, List.append_cancel_left_eq, and_true] at h
  obtain ⟨hside, hquantity, hprice, horderType⟩ := h
  refine ⟨?_, Int64.toInt_inj.mp (decimal_inj hquantity),
    Int64.toInt_inj.mp (decimal_inj hprice), ?_⟩
  · revert hside
    cases a.side <;> cases b.side <;> decide
  · revert horderType
    cases a.orderType <;> cases b.orderType <;> decide

theorem productSegment_inj (h : productSegment a = productSegment b) : a.product = b.product := by
  have hproduct := List.append_cancel_left h
  revert hproduct
  cases a.product <;> cases b.product <;> decide

theorem triggerSegments_inj (h : triggerSegments a = triggerSegments b) :
    a.triggerPrice = b.triggerPrice := by
  unfold triggerSegments at h
  cases ha : a.triggerPrice with
  | none =>
    cases hb : b.triggerPrice with
    | none => rfl
    | some trigger => simp [ha, hb] at h
  | some trigger =>
    cases hb : b.triggerPrice with
    | none => simp [ha, hb] at h
    | some trigger' =>
      rw [ha, hb] at h
      have htag := List.append_cancel_left (List.cons.inj h).1
      rw [Int64.toInt_inj.mp (decimal_inj htag)]

/-- The trigger's segment is told from the product's by its first byte. -/
theorem ne_of_trigger (ha : a.triggerPrice = none) {trigger : Domain.Price}
    (hb : b.triggerPrice = some trigger) :
    canonicalSignatureInput a ≠ canonicalSignatureInput b := by
  intro h
  have hnone : triggerSegments a = [] := by
    rw [triggerSegments, ha]
    rfl
  have hsome : triggerSegments b = [ascii "trigger=" ++ decimal trigger.toInt] := by
    rw [triggerSegments, hb]
    rfl
  rw [canonicalSignatureInput_eq, canonicalSignatureInput_eq, hnone, hsome, List.append_nil,
    append_joined_concat, append_joined_concat] at h
  obtain ⟨-, hlast⟩ := append_inj_of_last (sep_not_mem_productSegment a)
    (sep_not_mem_append (by decide) (sep_not_mem_decimal _)) h
  obtain ⟨htag, -⟩ := List.append_inj hlast (by decide)
  exact absurd htag (by decide)

theorem triggerSegments_length (h : canonicalSignatureInput a = canonicalSignatureInput b) :
    (triggerSegments a).length = (triggerSegments b).length := by
  unfold triggerSegments
  cases ha : a.triggerPrice with
  | none =>
    cases hb : b.triggerPrice with
    | none => rfl
    | some trigger => exact absurd h (ne_of_trigger ha hb)
  | some trigger =>
    cases hb : b.triggerPrice with
    | none => exact absurd h.symm (ne_of_trigger hb ha)
    | some trigger' => simp

theorem strategyAndSymbol_inj (ha : sep ∉ a.strategy) (hb : sep ∉ b.strategy)
    (h : strategyAndSymbol a = strategyAndSymbol b) :
    a.strategy = b.strategy ∧ a.symbol = b.symbol := by
  have hnot : ∀ strategy : Bytes, sep ∉ strategy →
      ∀ c ∈ ascii "strategy=" ++ strategy, c ≠ sep := by
    intro strategy hstrategy c hc
    exact ne_of_mem_of_not_mem hc (sep_not_mem_append (by decide) hstrategy)
  obtain ⟨hstrategy, hsymbol⟩ := append_inj_of_stop (P := (· ≠ sep)) (hnot _ ha) (hnot _ hb)
    (by simp) (by simp) h
  exact ⟨List.append_cancel_left hstrategy, List.append_cancel_left (List.cons.inj hsymbol).2⟩

/-- **Signal signatures are collision-free before hashing.** -/
theorem canonicalSignatureInput_inj (ha : 0x1F ∉ a.strategy) (hb : 0x1F ∉ b.strategy) :
    canonicalSignatureInput a = canonicalSignatureInput b ↔
      a.strategy = b.strategy ∧ a.symbol = b.symbol ∧ a.side = b.side ∧ a.quantity = b.quantity
        ∧ a.orderType = b.orderType ∧ a.product = b.product ∧ a.triggerPrice = b.triggerPrice
        ∧ (a.orderType ≠ .stopLossMarket → a.price = b.price) := by
  constructor
  · intro h
    have htriggers := triggerSegments_length h
    rw [canonicalSignatureInput_eq, canonicalSignatureInput_eq] at h
    have hplain : ∀ intent : OrderIntent,
        ∀ segment ∈ fixedSegments intent ++ [productSegment intent] ++ triggerSegments intent,
          sep ∉ segment := by
      intro intent segment hsegment
      simp only [List.mem_append, List.mem_singleton] at hsegment
      rcases hsegment with (hfixed | rfl) | htrigger
      · exact sep_not_mem_fixedSegments intent segment hfixed
      · exact sep_not_mem_productSegment intent
      · exact sep_not_mem_triggerSegments intent segment htrigger
    obtain ⟨htext, hsegments⟩ := append_joined_inj (by simpa [fixedSegments] using htriggers)
      (hplain a) (hplain b) h
    obtain ⟨hall, htrigger⟩ := List.append_inj' hsegments htriggers
    obtain ⟨hfixed, hproduct⟩ := List.append_inj' hall rfl
    obtain ⟨hstrategy, hsymbol⟩ := strategyAndSymbol_inj ha hb htext
    obtain ⟨hside, hquantity, hprice, horderType⟩ := fixedSegments_inj hfixed
    refine ⟨hstrategy, hsymbol, hside, hquantity, horderType,
      productSegment_inj (List.cons.inj hproduct).1, triggerSegments_inj htrigger, fun hlimit => ?_⟩
    rwa [definingPricePaise, definingPricePaise, if_neg hlimit, if_neg (horderType ▸ hlimit)]
      at hprice
  · rintro ⟨hstrategy, hsymbol, hside, hquantity, horderType, hproduct, htrigger, hprice⟩
    have hdefining : definingPricePaise a = definingPricePaise b := by
      unfold definingPricePaise
      rw [← horderType]
      split_ifs with hmarket
      · rfl
      · exact hprice hmarket
    unfold canonicalSignatureInput
    rw [hstrategy, hsymbol, hside, hquantity, hdefining, horderType, hproduct, htrigger]

theorem canonicalSignatureInput_inj_stop :
    ∃ a b : OrderIntent, a.orderType = .stopLossMarket ∧ a.price ≠ b.price
      ∧ canonicalSignatureInput a = canonicalSignatureInput b := by
  let stop : OrderIntent :=
    { clientRef := [], symbol := ascii "NSE:SBIN" ++ [0x1F], side := .sell, quantity := 10
      price := 80000, triggerPrice := some 79000, orderType := .stopLossMarket
      product := .intraday, strategy := ascii "breakout" }
  refine ⟨stop, { stop with price := 81000 }, rfl, by decide, ?_⟩
  rw [canonicalSignatureInput_inj (by decide) (by decide)]
  exact ⟨rfl, rfl, rfl, rfl, rfl, rfl, rfl, fun h => absurd rfl h⟩

end BrokerExec.Idempotency
