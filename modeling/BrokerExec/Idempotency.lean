import BrokerExec.IntentLog.Record
import Mathlib.Logic.Function.Basic

/-!
# Signal signatures, client refs and the idempotency index (`idempotency/idempotency.cpp`)

A signal's signature hashes its order-defining fields; the index maps a signature to the
client ref reserved for it and is rebuilt from the intent log at boot.

* **`readSignature_place`** — the record `place` writes is read back to its signal's
  signature;
* **`rebuildFromLog_isSome`** — so every recorded signal is in the rebuilt index;
* **`rebuildFromLog_mem`** — and every entry of it is a record's client ref.
-/

namespace BrokerExec.Idempotency

open BrokerExec.Domain (OrderIntent OrderType canonicalText canonicalText_of_wellFormed)
open BrokerExec.IntentLog (IntentRecord sha256Hex)

def kPayloadSchema : Int32 := 1

def kSep : Bytes := [0x1F]

/-- `defining_price_paise`: a stop-loss-market order has no price on the wire. -/
def definingPricePaise (intent : OrderIntent) : Int64 :=
  if intent.orderType = .stopLossMarket then 0 else intent.price

def canonicalSignatureInput (intent : OrderIntent) : Bytes :=
  ascii "strategy=" ++ intent.strategy ++ kSep
    ++ ascii "symbol=" ++ intent.symbol ++ kSep
    ++ ascii "side=" ++ intent.side.toString ++ kSep
    ++ ascii "qty=" ++ decimal intent.quantity.toInt ++ kSep
    ++ ascii "price=" ++ decimal (definingPricePaise intent).toInt ++ kSep
    ++ ascii "order_type=" ++ intent.orderType.toString ++ kSep
    ++ ascii "product=" ++ intent.product.toString
    ++ match intent.triggerPrice with
      | some trigger => kSep ++ ascii "trigger=" ++ decimal trigger.toInt
      | none => []

def signalSignature (intent : OrderIntent) : Bytes := sha256Hex (canonicalSignatureInput intent)

/-- `sig8_of`. -/
def sig8Of (signatureHex : Bytes) : Bytes := signatureHex.take 8

/-- The object of `intent_payload_json`. -/
def intentPayload (intent : OrderIntent) : Json.Flat :=
  [(ascii "client_ref", .string intent.clientRef),
    (ascii "order_type", .string intent.orderType.toString),
    (ascii "price_paise", .int intent.price),
    (ascii "product", .string intent.product.toString),
    (ascii "qty", .int intent.quantity),
    (ascii "schema", .int kPayloadSchema.toInt64),
    (ascii "side", .string intent.side.toString),
    (ascii "sig", .string (signalSignature intent)),
    (ascii "strategy", .string intent.strategy),
    (ascii "symbol", .string intent.symbol)]
    ++ match intent.triggerPrice with
      | some trigger => [(ascii "trigger_price_paise", .int trigger)]
      | none => []

def intentPayloadJson (intent : OrderIntent) : Bytes := Json.dump (intentPayload intent)

def makeClientRef (strategy signatureHex uuid : Bytes) : Bytes :=
  strategy ++ ascii "-" ++ sig8Of signatureHex ++ ascii "-" ++ uuid

/-- `UuidGenerator`: the `n`-th call gives `next n`, a 36-character RFC 4122 string. -/
structure UuidGenerator where
  next : Nat → Bytes
  length_next : ∀ n, (next n).length = 36
  ascii_next : ∀ n, ∀ b ∈ next n, b < 0x80

/-- The first `calls` identifiers are pairwise distinct. -/
def UuidGenerator.Distinct (uuids : UuidGenerator) (calls : Nat) : Prop :=
  ∀ m < calls, ∀ n < calls, uuids.next m = uuids.next n → m = n

/-- A generator whose identifiers differ in their last digit. -/
def UuidGenerator.numbered : UuidGenerator where
  next n := ascii "00000000-0000-4000-8000-00000000000" ++ [UInt8.ofNat (48 + n % 10)]
  length_next _ := rfl
  ascii_next n b hb := by
    have hdigit : ∀ k < 10, UInt8.ofNat (48 + k) < 0x80 := by decide
    have hfixed : ∀ c ∈ ascii "00000000-0000-4000-8000-00000000000", c < 0x80 := by decide
    rcases List.mem_append.mp hb with hb | hb
    · exact hfixed b hb
    · rw [List.mem_singleton.mp hb]
      exact hdigit _ (Nat.mod_lt n (by omega))

/-! ## The index -/

/-- `by_signature_`. -/
abbrev IdempotencyIndex := Bytes → Option Bytes

/-- `register_signature`: the first writer wins. -/
def IdempotencyIndex.registerSignature (index : IdempotencyIndex) (signature clientRef : Bytes) :
    IdempotencyIndex :=
  if (index signature).isSome then index else Function.update index signature (some clientRef)

/-- The signature `rebuild_from_log` reads from one record; `none` where it continues. -/
def readSignature (parser : Json.Parser) (record : IntentRecord) : Option Bytes :=
  if record.op ≠ .placeOrder then none
  else
    match parser.parse record.payloadJson with
    | some (.object members) =>
      match members.lookup (ascii "schema"), members.lookup (ascii "sig") with
      | some (.int schema), some (.string signature) =>
        if Int32.ofInt schema ≠ kPayloadSchema then none
        else if signature = [] ∨ record.clientRef = [] then none
        else some signature
      | _, _ => none
    | _ => none

/-- One round of the loop of `rebuild_from_log`. -/
def IdempotencyIndex.readRecord (parser : Json.Parser) (index : IdempotencyIndex)
    (record : IntentRecord) : IdempotencyIndex :=
  match readSignature parser record with
  | some signature => index.registerSignature signature record.clientRef
  | none => index

def rebuildFromLog (parser : Json.Parser) (records : List IntentRecord) : IdempotencyIndex :=
  records.foldl (IdempotencyIndex.readRecord parser) fun _ => none

/-! ## Reading back what `place` recorded -/

theorem sorted_intentPayload (intent : OrderIntent) :
    ((intentPayload intent).map Prod.fst).Pairwise (· < ·) := by
  cases h : intent.triggerPrice with
  | none =>
    simp only [intentPayload, h, List.append_nil, List.map_cons, List.map_nil]
    decide
  | some trigger =>
    simp only [intentPayload, h, List.cons_append, List.nil_append, List.map_cons, List.map_nil]
    decide

theorem ascii_keys_intentPayload (intent : OrderIntent) :
    ∀ m ∈ intentPayload intent, WellFormed m.1 := by
  have hkeys : ((intentPayload intent).map Prod.fst).all (·.all (· < 0x80)) = true := by
    cases h : intent.triggerPrice with
    | none =>
      simp only [intentPayload, h, List.append_nil, List.map_cons, List.map_nil]
      decide
    | some trigger =>
      simp only [intentPayload, h, List.cons_append, List.nil_append, List.map_cons, List.map_nil]
      decide
  intro m hm
  have hkey := List.all_eq_true.mp hkeys m.1 (List.mem_map_of_mem hm)
  exact .of_ascii fun b hb => by simpa using List.all_eq_true.mp hkey b hb

theorem lookup_sig_intentPayload (intent : OrderIntent) :
    (intentPayload intent).canonical.lookup (ascii "sig")
      = some (.string (signalSignature intent)) := by
  have hsig : canonicalText (signalSignature intent) = signalSignature intent :=
    canonicalText_of_wellFormed (IntentLog.sha256Hex_wellFormed _)
  show some (Json.Scalar.string (canonicalText (signalSignature intent))) = _
  rw [hsig]

/-- **A `place` record is read back to its signal's signature.** -/
theorem readSignature_place (parser : Json.Parser) {record : IntentRecord} {intent : OrderIntent}
    (hop : record.op = .placeOrder) (href : record.clientRef ≠ [])
    (hpayload : record.payloadJson = canonicalText (intentPayloadJson intent)) :
    readSignature parser record = some (signalSignature intent) := by
  have hpayload' : record.payloadJson = Json.dump (intentPayload intent) :=
    hpayload.trans (canonicalText_of_wellFormed (Json.dump_wellFormed _))
  have hschema : (intentPayload intent).canonical.members.lookup (ascii "schema")
      = some (.int kPayloadSchema.toInt64.toInt) :=
    Json.Flat.lookup_members (show _ = some (Json.Scalar.int kPayloadSchema.toInt64) from rfl)
  have hsig := Json.Flat.lookup_members (lookup_sig_intentPayload intent)
  have hne : ¬ (signalSignature intent = [] ∨ record.clientRef = []) := by
    simp [href, signalSignature, IntentLog.sha256Hex_ne_nil]
  rw [readSignature, if_neg (by simp [hop]), hpayload',
    parser.parse_dump_canonical (sorted_intentPayload intent) (ascii_keys_intentPayload intent)]
  simp only [hschema, hsig, Json.Scalar.toValue]
  rw [if_neg (by decide), if_neg hne]

/-! ## The rebuilt index -/

theorem registerSignature_isSome {index : IdempotencyIndex} {signature clientRef key : Bytes}
    (h : (index key).isSome = true ∨ key = signature) :
    ((index.registerSignature signature clientRef) key).isSome = true := by
  unfold IdempotencyIndex.registerSignature
  split_ifs with hsome
  · rcases h with h | rfl
    · exact h
    · exact hsome
  · by_cases hkey : key = signature
    · simp [hkey]
    · rw [Function.update_of_ne hkey]
      exact h.resolve_right hkey

theorem registerSignature_eq_some {index : IdempotencyIndex}
    {signature clientRef key ref : Bytes}
    (h : (index.registerSignature signature clientRef) key = some ref) :
    index key = some ref ∨ (key = signature ∧ ref = clientRef) := by
  unfold IdempotencyIndex.registerSignature at h
  split_ifs at h with hsome
  · exact .inl h
  · by_cases hkey : key = signature
    · rw [hkey, Function.update_self] at h
      exact .inr ⟨hkey, (Option.some.inj h).symm⟩
    · rw [Function.update_of_ne hkey] at h
      exact .inl h

/-- A fresh registration, with what every other signature had. -/
theorem registerSignature_of_none {index : IdempotencyIndex} {signature : Bytes}
    (h : index signature = none) (clientRef : Bytes) :
    index.registerSignature signature clientRef
      = Function.update index signature (some clientRef) := by
  rw [IdempotencyIndex.registerSignature, if_neg (by simp [h])]

/-- **Every signature the log's records carry is in the rebuilt index.** -/
theorem rebuildFromLog_isSome {parser : Json.Parser} {records : List IntentRecord}
    {record : IntentRecord} (hmem : record ∈ records) {signature : Bytes}
    (h : readSignature parser record = some signature) :
    (rebuildFromLog parser records signature).isSome = true := by
  -- an entry, once there, survives every later round
  have hkeep : ∀ (rs : List IntentRecord) (index : IdempotencyIndex),
      (index signature).isSome = true →
      ((rs.foldl (IdempotencyIndex.readRecord parser) index) signature).isSome = true := by
    intro rs
    induction rs with
    | nil => exact fun _ h => h
    | cons r rs ih =>
      intro index hindex
      rw [List.foldl_cons]
      apply ih
      rw [IdempotencyIndex.readRecord]
      cases readSignature parser r with
      | none => exact hindex
      | some signature' => exact registerSignature_isSome (.inl hindex)
  obtain ⟨before, behind, rfl⟩ := List.append_of_mem hmem
  rw [rebuildFromLog, List.foldl_append, List.foldl_cons]
  apply hkeep
  simp only [IdempotencyIndex.readRecord, h]
  exact registerSignature_isSome (.inr rfl)

/-- **Every entry of the rebuilt index is the client ref of a `PlaceOrder` record.** -/
theorem rebuildFromLog_mem {parser : Json.Parser} {records : List IntentRecord}
    {signature ref : Bytes} (h : rebuildFromLog parser records signature = some ref) :
    ∃ record ∈ records, record.op = .placeOrder ∧ record.clientRef = ref := by
  have hinv : ∀ (rs : List IntentRecord) (index : IdempotencyIndex),
      (rs.foldl (IdempotencyIndex.readRecord parser) index) signature = some ref →
      index signature = some ref
        ∨ ∃ record ∈ rs, record.op = .placeOrder ∧ record.clientRef = ref := by
    intro rs
    induction rs with
    | nil => exact fun _ h => .inl h
    | cons r rs ih =>
      intro index hindex
      rcases ih _ hindex with hprev | ⟨record, hrecord, hop⟩
      · rw [IdempotencyIndex.readRecord] at hprev
        cases hread : readSignature parser r with
        | none =>
          rw [hread] at hprev
          exact .inl hprev
        | some signature' =>
          rw [hread] at hprev
          rcases registerSignature_eq_some hprev with h | ⟨-, rfl⟩
          · exact .inl h
          · refine .inr ⟨r, by simp, ?_, rfl⟩
            by_contra hop
            simp [readSignature, hop] at hread
      · exact .inr ⟨record, by simp [hrecord], hop⟩
  rcases hinv records _ h with h | h
  · cases h
  · exact h

end BrokerExec.Idempotency
