import BrokerExec.Adapters.SquareOffExit

/-!
# Kite's wire (`adapters/kite/kite_broker_adapter.cpp`)

The numbers, tags, statuses and rows the Kite adapter reads, and the parameters it sends. A
number is absent, garbage or read exactly; a row with garbage in it is marked malformed.

* **`isExitTag_exitTagFor`**, **`isExitTag_shortTag`** — a tag alone tells an exit from an order.
-/

namespace BrokerExec.Adapters.Kite

open BrokerExec.Domain (OrderIntent OrderState OrderType Price Product Side kInt64Max
  paiseToDecimal parseDecimalPaise parseDecimalPaise_bound parseInt64 parseInt64_bound)

/-! ## Numbers -/

/-- A money text, in paise. -/
def paiseOfText (text : Bytes) : Reading :=
  match parseDecimalPaise text with
  | some paise => .parsed paise
  | none => .garbage

/-- A count; a fraction is accepted only when it is zero. -/
def countOfText (text : Bytes) : Reading :=
  match parseInt64 text with
  | some value => .parsed value
  | none =>
    match parseDecimalPaise text with
    | some paise => if paise % 100 = 0 then .parsed (paise / 100) else .garbage
    | none => .garbage

/-- A number field, through `numeric_text`: a missing or null field and an empty string are
absent, a boolean, an array or an object is garbage. -/
def readNumber (ofText : Bytes → Reading) (members : List (Bytes × Json.Value)) (key : Bytes) :
    Reading :=
  match members.lookup key with
  | none | some .null | some (.string []) => .absent
  | some (.string text) => ofText text
  | some (.int i) => ofText (decimal i)
  | some (.float _ text) => ofText text
  | some (.bool _) | some (.array _) | some (.object _) => .garbage

/-- `json_paise_opt`. -/
def jsonPaise (members : List (Bytes × Json.Value)) (key : Bytes) : Reading :=
  readNumber paiseOfText members key

/-- `json_int_opt`. -/
def jsonInt (members : List (Bytes × Json.Value)) (key : Bytes) : Reading :=
  readNumber countOfText members key

theorem countOfText_le {text : Bytes} {value : Int} (h : (countOfText text).value? = some value) :
    value ≤ kInt64Max := by
  unfold countOfText at h
  split at h
  next count hcount =>
    obtain rfl := Option.some.inj h
    exact (parseInt64_bound hcount).2
  next =>
    split at h
    next paise hpaise =>
      have hbound := (parseDecimalPaise_bound hpaise).2
      split_ifs at h with hwhole
      · obtain rfl := Option.some.inj h
        unfold kInt64Max at *
        omega
      · cases h
    next => cases h

theorem jsonInt_le {members : List (Bytes × Json.Value)} {key : Bytes} {value : Int}
    (h : (jsonInt members key).value? = some value) : value ≤ kInt64Max := by
  unfold jsonInt readNumber at h
  split at h <;> first | exact countOfText_le h | cases h

/-! ## Tags -/

def kOrderTagPrefix : Bytes := ascii "be"

def kExitTagPrefix : Bytes := ascii "bx"

def kHashedTagLength : Nat := 18

/-- FNV-1a. -/
def fnv1a (material : Bytes) : UInt64 :=
  material.foldl (fun h c => (h ^^^ c.toUInt64) * 1099511628211) 1469598103934665603

def hashedTag (tagPrefix material : Bytes) : Bytes :=
  tagPrefix ++ (List.range 16).map fun i =>
    Json.hexDigit ((fnv1a material).toNat / 16 ^ (15 - i) % 16)

def shortTag (clientRef : Bytes) : Bytes := hashedTag kOrderTagPrefix clientRef

/-- The tag of a parent's exit, a function of the broker's own id. -/
def exitTagFor (parentBrokerOrderId : Bytes) : Bytes :=
  hashedTag kExitTagPrefix (ascii "square-off-exit:" ++ parentBrokerOrderId)

def isExitTag (tag : Bytes) : Bool :=
  tag.length == kHashedTagLength && tag.take kExitTagPrefix.length == kExitTagPrefix

theorem isExitTag_exitTagFor (parentBrokerOrderId : Bytes) :
    isExitTag (exitTagFor parentBrokerOrderId) = true := by
  simp [isExitTag, exitTagFor, hashedTag, kExitTagPrefix, kHashedTagLength, ascii]

theorem isExitTag_shortTag (clientRef : Bytes) : isExitTag (shortTag clientRef) = false := by
  simp [isExitTag, shortTag, hashedTag, kOrderTagPrefix, kExitTagPrefix, kHashedTagLength, ascii]

theorem exitTagFor_ne_nil (parentBrokerOrderId : Bytes) : exitTagFor parentBrokerOrderId ≠ [] := by
  simp [exitTagFor, hashedTag, kExitTagPrefix, ascii]

/-! ## Statuses and codes -/

def kiteTransactionType : Side → Bytes
  | .sell => ascii "SELL"
  | .buy => ascii "BUY"

def kiteOrderType : Domain.OrderType → Bytes
  | .market => ascii "MARKET"
  | .limit => ascii "LIMIT"
  | .stopLoss => ascii "SL"
  | .stopLossMarket => ascii "SL-M"

/-- An unlisted order type falls back to a market order. -/
def parseOrderType (text : Bytes) : Domain.OrderType :=
  if text = ascii "LIMIT" then .limit
  else if text = ascii "SL" then .stopLoss
  else if text = ascii "SL-M" then .stopLossMarket
  else .market

def kiteProduct : Product → Bytes
  | .intraday => ascii "MIS"
  | .delivery => ascii "CNC"
  | .margin | .normal => ascii "NRML"

/-- The exchange guessed from the symbol: a derivative ends in its token and has its expiry. -/
def inferExchange (symbol : Bytes) : Bytes :=
  let derivativeSuffix := (ascii "FUT").isSuffixOf symbol || (ascii "CE").isSuffixOf symbol
    || (ascii "PE").isSuffixOf symbol
  if derivativeSuffix && symbol.any isDigit then ascii "NFO" else ascii "NSE"

/-- `map_status`: an unlisted status is Unknown, every working one is Sent. -/
def mapStatus (status : Bytes) : OrderState :=
  if status = ascii "COMPLETE" then .filled
  else if status = ascii "REJECTED" then .rejected
  else if status = ascii "CANCELLED" ∨ status = ascii "CANCELLED AMO" then .cancelled
  else if status ∈ ["OPEN", "TRIGGER PENDING", "OPEN PENDING", "VALIDATION PENDING",
      "PUT ORDER REQ RECEIVED", "MODIFY PENDING", "MODIFY VALIDATION PENDING"].map ascii then .sent
  else .unknown

theorem mapStatus_cases (status : Bytes) :
    mapStatus status = .filled ∨ mapStatus status = .sent ∨ mapStatus status = .rejected
      ∨ mapStatus status = .cancelled ∨ mapStatus status = .unknown := by
  unfold mapStatus
  split_ifs <;> simp

def exitSideFor (parentSide : Bytes) : Option Side :=
  if parentSide = ascii "SELL" then some .buy
  else if parentSide = ascii "BUY" then some .sell
  else none

/-! ## The parameters of a place -/

structure OrderParams where
  tradingsymbol : Bytes
  exchange : Bytes
  transactionType : Bytes
  orderType : Bytes
  product : Bytes
  quantity : Int64
  validity : Bytes
  tag : Bytes
  price : Option Bytes
  triggerPrice : Option Bytes

def buildPlaceParams (intent : OrderIntent) (tag exchange : Bytes) : OrderParams where
  tradingsymbol := intent.symbol
  exchange := exchange
  transactionType := kiteTransactionType intent.side
  orderType := kiteOrderType intent.orderType
  product := kiteProduct intent.product
  quantity := intent.quantity
  validity := ascii "DAY"
  tag := tag
  price :=
    match intent.orderType with
    | .limit | .stopLoss => some (paiseToDecimal intent.price)
    | .market | .stopLossMarket => none
  triggerPrice :=
    match intent.orderType with
    | .stopLoss | .stopLossMarket => intent.triggerPrice.map paiseToDecimal
    | .market | .limit => none

/-- `extract_order_id`. -/
def extractOrderId : Json.Value → Bytes
  | .object members => jsonStr members (ascii "order_id")
  | _ => []

/-! ## Rows -/

/-- A row as the flatten reads it. A total that is absent is none, a fill that is absent is 0. -/
structure BrokerRow where
  orderId : Bytes
  tag : Bytes
  symbol : Bytes
  side : Bytes
  status : Bytes
  product : Bytes
  exchange : Bytes
  quantity : Option Int
  filled : Int
  malformed : Bool

def readBrokerRow (row : List (Bytes × Json.Value)) : BrokerRow :=
  let quantity := jsonInt row (ascii "quantity")
  let filled := jsonInt row (ascii "filled_quantity")
  { orderId := jsonStr row (ascii "order_id")
    tag := jsonStr row (ascii "tag")
    symbol := jsonStr row (ascii "tradingsymbol")
    side := jsonStr row (ascii "transaction_type")
    status := jsonStr row (ascii "status")
    product := jsonStr row (ascii "product")
    exchange := jsonStr row (ascii "exchange")
    quantity := readTotal quantity
    filled := clampFill (readTotal quantity) (filled.value?.getD 0)
    malformed := quantity.malformed || filled.malformed || quantity.value?.any (· < 0) }

end BrokerExec.Adapters.Kite
