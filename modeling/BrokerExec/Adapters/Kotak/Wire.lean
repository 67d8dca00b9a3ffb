import BrokerExec.Adapters.SquareOffExit

/-!
# Kotak's wire (`adapters/kotak/kotak_broker_adapter.cpp`)

The fields the Kotak adapter reads under several spellings, its status vocabulary, its rows and
the parameters it sends.

* **`filled_mapOrderState`** — a row is mapped to Filled on a fill, and on the whole of a known
  total.
-/

namespace BrokerExec.Adapters.Kotak

open BrokerExec.BrokerReason (contains)
open BrokerExec.Domain (OrderIntent OrderState OrderType Product Side kInt64Max paiseToDecimal
  parseDecimalPaise parseInt64 parseInt64_bound toLowerAscii toLowerAscii_not_upper)
open BrokerExec.FillNorm (canonicalState_neutral neutralStatus normalizeFill)

/-! ## Fields -/

/-- The texts of a field, over its spellings; an empty text counts as an absent field. -/
def spellings (row : List (Bytes × Json.Value)) (keys : List String) : List Bytes :=
  (keys.map fun key => jsonStr row (ascii key)).filter (· ≠ [])

/-- `first_str`. -/
def firstStr (row : List (Bytes × Json.Value)) (keys : List String) : Bytes :=
  (spellings row keys).headD []

/-- The first text that can be parsed; texts of which none can are garbage. -/
def firstParsed (parse : Bytes → Option Int) (row : List (Bytes × Json.Value))
    (keys : List String) : Reading :=
  match (spellings row keys).findSome? parse with
  | some value => .parsed value
  | none => if spellings row keys = [] then .absent else .garbage

/-- `first_number`. -/
def firstNumber (row : List (Bytes × Json.Value)) (keys : List String) : Reading :=
  firstParsed parseInt64 row keys

/-- `first_paise`. -/
def firstPaise (row : List (Bytes × Json.Value)) (keys : List String) : Reading :=
  firstParsed parseDecimalPaise row keys

theorem firstNumber_le {row : List (Bytes × Json.Value)} {keys : List String} {value : Int}
    (h : (firstNumber row keys).value? = some value) : value ≤ kInt64Max := by
  unfold firstNumber firstParsed at h
  split at h
  next parsed hparsed =>
    obtain rfl := Option.some.inj h
    obtain ⟨text, -, htext⟩ := List.exists_of_findSome?_eq_some hparsed
    exact (parseInt64_bound htext).2
  next => split_ifs at h <;> cases h

/-! ## Statuses -/

def isSeparator (c : UInt8) : Bool := c == 0x20 || c == 0x09 || c == 0x5F || c == 0x2D

/-- The loop of `fold_status`: `pending` is a separator that is still owed. -/
def foldStatusFrom (out : Bytes) (pending : Bool) : Bytes → Bytes
  | [] => out
  | c :: raw =>
    let lowered := toLowerAscii c
    if isSeparator lowered then foldStatusFrom out (out ≠ []) raw
    else foldStatusFrom (if pending then out ++ [0x20, lowered] else out ++ [lowered]) false raw

/-- `fold_status`: lower case, runs of separators as one space, none at the ends. -/
def foldStatus (raw : Bytes) : Bytes := foldStatusFrom [] false raw

inductive StatusClass where
  | unrecognized
  | working
  | complete
  | rejected
  | cancelled
  deriving DecidableEq

def kWorking : List Bytes :=
  ["open", "open pending", "trigger pending", "validation pending", "modify pending",
    "modify validation pending", "modified", "not modified", "not cancelled", "not canceled",
    "cancel pending", "put order req received", "after market order req received",
    "amo submitted"].map ascii

def classifyKotakStatus (raw : Bytes) : StatusClass :=
  let s := foldStatus raw
  if s = [] then .unrecognized
  else if s = ascii "complete" then .complete
  else if s = ascii "rejected" then .rejected
  else if s ∈ ["cancelled", "canceled", "amo cancelled", "amo canceled"].map ascii then .cancelled
  else if s ∈ kWorking then .working
  else .unrecognized

/-- `map_order_state`: the status fails closed, then a known total leaves it to the quantities;
without one a working status is never terminal. -/
def mapOrderState (rawStatus : Bytes) (filled : Int) (total : Option Int) : OrderState :=
  match classifyKotakStatus rawStatus, total with
  | .unrecognized, _ => .unknown
  | .rejected, _ => .rejected
  | .cancelled, _ => .cancelled
  -- a complete row with nothing filled says two things at once
  | .complete, none => if 0 < filled then .filled else .unknown
  | .complete, some total => (normalizeFill (neutralStatus true) filled total true).canonicalState
  | .working, none => if 0 < filled then .partiallyFilled else .acknowledged
  | .working, some total => (normalizeFill (neutralStatus false) filled total true).canonicalState

/-- The states with a known total. -/
theorem mapOrderState_total (rawStatus : Bytes) {filled : Int} (hfilled : 0 ≤ filled)
    (total : Int) :
    mapOrderState rawStatus filled (some total) =
      match classifyKotakStatus rawStatus with
      | .unrecognized => .unknown
      | .rejected => .rejected
      | .cancelled => .cancelled
      | .complete =>
        if 0 < filled then (if filled < total then .partiallyFilled else .filled)
        else if 0 < total then .acknowledged else .unknown
      | .working =>
        if 0 < filled then (if filled < total then .partiallyFilled else .filled)
        else .acknowledged := by
  unfold mapOrderState
  cases classifyKotakStatus rawStatus <;> simp [canonicalState_neutral, hfilled]

/-- **Filled on evidence**: there is a fill, and it is the whole of a total that is known. -/
theorem filled_mapOrderState {rawStatus : Bytes} {filled : Int} (hfilled : 0 ≤ filled)
    {total : Option Int} (h : mapOrderState rawStatus filled total = .filled) :
    0 < filled ∧ ∀ t, total = some t → t ≤ filled := by
  cases total with
  | none =>
    unfold mapOrderState at h
    cases hclass : classifyKotakStatus rawStatus with
    | complete =>
      simp only [hclass] at h
      split_ifs at h with hpositive
      exact ⟨hpositive, by simp⟩
    | working =>
      simp only [hclass] at h
      split_ifs at h
    | _ => simp [hclass] at h
  | some t =>
    rw [mapOrderState_total rawStatus hfilled] at h
    cases hclass : classifyKotakStatus rawStatus with
    -- the quantities decide alike for both
    | complete | working =>
      simp only [hclass] at h
      split_ifs at h with hpositive hpartial
      exact ⟨hpositive, fun t' ht => Option.some.inj ht ▸ not_lt.mp hpartial⟩
    | _ => simp [hclass] at h

/-! ## Codes -/

def sideCode : Side → Bytes
  | .sell => ascii "S"
  | .buy => ascii "B"

/-- `fold_side_code`: a code that is neither is passed through in lower case, which is no code. -/
def foldSideCode (raw : Bytes) : Bytes :=
  if raw.head?.map toLowerAscii = some 0x62 then ascii "B"
  else if raw.head?.map toLowerAscii = some 0x73 then ascii "S"
  else raw.map toLowerAscii

def kotakPriceType : Domain.OrderType → Bytes
  | .market => ascii "MKT"
  | .limit => ascii "L"
  | .stopLoss => ascii "SL"
  | .stopLossMarket => ascii "SL-M"

def kotakProduct : Product → Bytes
  | .intraday => ascii "MIS"
  | .delivery => ascii "CNC"
  | .margin | .normal => ascii "NRML"

/-- The segment guessed from the symbol. -/
def inferSegment (symbol : Bytes) : Bytes :=
  if contains symbol (ascii "FUT") || contains symbol (ascii "CE") || contains symbol (ascii "PE")
  then ascii "nse_fo" else ascii "nse_cm"

def isPriced : Domain.OrderType → Bool
  | .limit | .stopLoss => true
  | .market | .stopLossMarket => false

def isTriggered : Domain.OrderType → Bool
  | .stopLoss | .stopLossMarket => true
  | .market | .limit => false

/-- `trigger_field`: a stop without a trigger sends "0". -/
def triggerField (intent : OrderIntent) : Bytes :=
  match isTriggered intent.orderType, intent.triggerPrice with
  | true, some trigger => paiseToDecimal trigger
  | _, _ => ascii "0"

/-- An unlisted price type falls back to a market order. -/
def parsePriceType (raw : Bytes) : Domain.OrderType :=
  let s := foldStatus raw
  if s ∈ ["l", "lmt", "limit"].map ascii then .limit
  else if s ∈ ["sl m", "slm", "sl mkt"].map ascii then .stopLossMarket
  else if s ∈ ["sl", "sll", "stoploss"].map ascii then .stopLoss
  else .market

/-! ## The parameters -/

/-- The `jData` of a place. Every value goes out as text, the quantity in decimal. -/
structure PlaceParams where
  am : Bytes
  dq : Bytes
  es : Bytes
  mp : Bytes
  pc : Bytes
  pf : Bytes
  pr : Bytes
  pt : Bytes
  qt : Int64
  rt : Bytes
  tp : Bytes
  ts : Bytes
  tt : Bytes

def buildPlaceParams (intent : OrderIntent) : PlaceParams where
  am := ascii "NO"
  dq := ascii "0"
  es := inferSegment intent.symbol
  mp := ascii "0"
  pc := kotakProduct intent.product
  pf := ascii "N"
  pr := if isPriced intent.orderType then paiseToDecimal intent.price else ascii "0"
  pt := kotakPriceType intent.orderType
  qt := intent.quantity
  rt := ascii "DAY"
  tp := triggerField intent
  ts := intent.symbol
  tt := sideCode intent.side

/-- The `jData` of a modify. -/
structure ModifyParams where
  am : Bytes
  dd : Bytes
  dq : Bytes
  es : Bytes
  mp : Bytes
  no : Bytes
  pc : Bytes
  pr : Bytes
  pt : Bytes
  qt : Int64
  tp : Bytes
  ts : Bytes
  vd : Bytes

def buildModifyParams (brokerOrderId : Bytes) (intent : OrderIntent) : ModifyParams where
  am := ascii "NO"
  dd := ascii "NA"
  dq := ascii "0"
  es := inferSegment intent.symbol
  mp := ascii "0"
  no := brokerOrderId
  pc := kotakProduct intent.product
  pr := if isPriced intent.orderType then paiseToDecimal intent.price else ascii "0"
  pt := kotakPriceType intent.orderType
  qt := intent.quantity
  tp := triggerField intent
  ts := intent.symbol
  vd := ascii "DAY"

/-- The `jData` of a cancel. -/
structure CancelParams where
  am : Bytes
  on : Bytes

def buildCancelParams (brokerOrderId : Bytes) : CancelParams := ⟨ascii "NO", brokerOrderId⟩

/-- `extract_order_id`: the id in the answer to a mutation. -/
def extractOrderId : Json.Value → Bytes
  | .object members => firstStr members ["nOrdNo", "nstOrdNo", "ordNo", "orderId", "result"]
  | _ => []

/-! ## Rows -/

/-- `attribute_key`: the economic shape of an order; an unread quantity makes a key that no intent
has. -/
def attributeKey (symbol side : Bytes) (quantity : Option Int) : Bytes :=
  symbol ++ ascii "|" ++ side ++ ascii "|" ++ match quantity with
    | some quantity => decimal quantity
    | none => ascii "?"

/-- A side that is neither code has none of the letters of the codes. -/
theorem foldSideCode_cases (raw : Bytes) :
    (∃ side, foldSideCode raw = sideCode side)
      ∨ ∀ side, ∀ c ∈ foldSideCode raw, c ∉ sideCode side := by
  unfold foldSideCode
  split_ifs
  · exact .inl ⟨.buy, rfl⟩
  · exact .inl ⟨.sell, rfl⟩
  · refine .inr fun side c hc => ?_
    obtain ⟨d, -, rfl⟩ := List.mem_map.mp hc
    intro hcode
    refine toLowerAscii_not_upper d ?_
    cases side with
    | buy =>
      rw [List.mem_singleton.mp (show _ ∈ [(0x42 : UInt8)] from hcode)]
      decide
    | sell =>
      rw [List.mem_singleton.mp (show _ ∈ [(0x53 : UInt8)] from hcode)]
      decide

/-- The symbol and the side can be read back when the side is a code. -/
theorem append_sideCode_inj {symbol symbol' raw : Bytes} {side : Side}
    (h : symbol ++ 0x7C :: sideCode side = symbol' ++ 0x7C :: foldSideCode raw) :
    symbol = symbol' ∧ sideCode side = foldSideCode raw := by
  rcases foldSideCode_cases raw with ⟨side', hside⟩ | hlower
  · -- both codes are one letter
    rw [hside] at h ⊢
    have hlength : (0x7C :: sideCode side).length = (0x7C :: sideCode side').length := by
      cases side <;> cases side' <;> rfl
    obtain ⟨hsymbol, hcode⟩ := List.append_inj' h hlength
    exact ⟨hsymbol, (List.cons.inj hcode).2⟩
  · -- the last letters differ
    exfalso
    obtain ⟨c, hcode, hbar⟩ : ∃ c, sideCode side = [c] ∧ c ≠ 0x7C := by
      cases side <;> exact ⟨_, rfl, by decide⟩
    have hlast := congrArg List.getLast? h
    rw [hcode, List.getLast?_append_of_ne_nil _ (by simp),
      List.getLast?_append_of_ne_nil _ (by simp)] at hlast
    have hmem : c ∈ 0x7C :: foldSideCode raw := List.mem_of_getLast? hlast.symm
    rcases List.mem_cons.mp hmem with hc | hc
    · exact hbar hc
    · exact hlower side c hc (hcode ▸ List.mem_singleton_self c)

/-- **A row with the key of an intent has its symbol, its side and its quantity.** -/
theorem attributeKey_inj {symbol symbol' raw : Bytes} {side : Side} {quantity : Int}
    {quantity' : Option Int}
    (h : attributeKey symbol (sideCode side) (some quantity)
      = attributeKey symbol' (foldSideCode raw) quantity') :
    symbol = symbol' ∧ sideCode side = foldSideCode raw ∧ some quantity = quantity' := by
  -- no quantity has the separator in it
  have hbar : ∀ q, (0x7C : UInt8) ∉ decimal q := by
    intro q hq
    rcases mem_decimal hq with hdigit | hminus
    · exact absurd hdigit (by decide)
    · exact absurd hminus (by decide)
  have hkey : ∀ s t q, attributeKey s t q = (s ++ 0x7C :: t) ++ 0x7C :: (match q with
      | some q => decimal q
      | none => ascii "?") := by
    intro s t q
    simp [attributeKey, ascii]
  rw [hkey, hkey] at h
  cases quantity' with
  | none =>
    obtain ⟨-, hquantity⟩ := append_inj_of_last (hbar quantity) (by decide) h
    -- a question mark is no digit
    have hmark : (0x3F : UInt8) ∈ decimal quantity := hquantity ▸ List.mem_singleton_self _
    rcases mem_decimal hmark with hdigit | hminus
    · exact absurd hdigit (by decide)
    · exact absurd hminus (by decide)
  | some q =>
    obtain ⟨hfront, hquantity⟩ := append_inj_of_last (hbar quantity) (hbar q) h
    obtain ⟨hsymbol, hside⟩ := append_sideCode_inj hfront
    exact ⟨hsymbol, hside, congrArg some (decimal_inj hquantity)⟩

/-- A row; a number that was absent or garbage is none. -/
structure RawOrder where
  orderId : Bytes
  symbol : Bytes
  side : Bytes
  quantity : Option Int
  filled : Option Int
  pricePaise : Option Int
  avgPaise : Option Int
  triggerPaise : Option Int
  orderType : Domain.OrderType
  status : Bytes
  product : Bytes
  segment : Bytes
  malformed : Bool

def quantityOf (row : List (Bytes × Json.Value)) : Reading :=
  firstNumber row ["qty", "qt", "ordQty", "totQty"]

def fillOf (row : List (Bytes × Json.Value)) : Reading :=
  firstNumber row ["fldQty", "flQty", "fillQty", "filledQty"]

def priceOf (row : List (Bytes × Json.Value)) : Reading := firstPaise row ["prc", "pr", "ordPrc"]

def averageOf (row : List (Bytes × Json.Value)) : Reading :=
  firstPaise row ["avgPrc", "avgPrice", "fldPrc", "flPrc"]

def triggerOf (row : List (Bytes × Json.Value)) : Reading :=
  firstPaise row ["trgPrc", "trigPrc", "triggerPrice"]

def readOrderRow (row : List (Bytes × Json.Value)) : RawOrder where
  orderId := firstStr row ["nOrdNo", "nstOrdNo", "ordNo", "orderId"]
  symbol := firstStr row ["trdSym", "tsym", "sym", "trdSymbol"]
  side := foldSideCode (firstStr row ["trnsTp", "trnsTyp", "tt"])
  quantity := readTotal (quantityOf row)
  filled := (fillOf row).value?.map (clampFill (readTotal (quantityOf row)))
  pricePaise := (priceOf row).value?
  avgPaise := (averageOf row).value?
  triggerPaise := (triggerOf row).value?.filter (0 < ·)
  orderType := parsePriceType (firstStr row ["prcTp", "prcType", "pt"])
  status := firstStr row ["ordSt", "status", "ordStatus"]
  product := firstStr row ["prod", "pc", "pCode", "prcCode"]
  segment := firstStr row ["exSeg", "es", "exchSeg", "exch"]
  malformed := (quantityOf row).malformed || (fillOf row).malformed || (priceOf row).malformed
    || (averageOf row).malformed || (triggerOf row).malformed
    -- a negative total is as bad as one that could not be read
    || (quantityOf row).value?.any (· < 0)

theorem readOrderRow_filled_bound {row : List (Bytes × Json.Value)} {filled : Int}
    (h : (readOrderRow row).filled = some filled) : 0 ≤ filled ∧ filled ≤ kInt64Max := by
  obtain ⟨value, hvalue, rfl⟩ := Option.map_eq_some_iff.mp h
  exact ⟨clampFill_nonneg _ value, clampFill_le (by decide) _ (firstNumber_le hvalue)⟩

end BrokerExec.Adapters.Kotak
