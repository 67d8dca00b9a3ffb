import BrokerExec.Domain.Types
import BrokerExec.IntentLog.Sha256
import BrokerExec.Json.Text

/-!
# Intent records (`intentlog/intent_log.cpp`)

One record, its canonical hash preimage, its JSON line and the way back.

* **`readRecord_toJson`** — the typed reads of `replay` give back exactly the record whose
  line was written.
-/

namespace BrokerExec.IntentLog

open BrokerExec.Errors (Error ErrorCategory makeError)

inductive IntentOp where
  | placeOrder
  | modifyOrder
  | cancelOrder
  | squareOff
  | result
  | childSlice
  deriving DecidableEq, Repr

def IntentOp.toString : IntentOp → Bytes
  | .placeOrder => ascii "place_order"
  | .modifyOrder => ascii "modify_order"
  | .cancelOrder => ascii "cancel_order"
  | .squareOff => ascii "square_off"
  | .result => ascii "result"
  | .childSlice => ascii "child_slice"

def intentOpFromString (name : Bytes) : Option IntentOp :=
  if name = ascii "place_order" then some .placeOrder
  else if name = ascii "modify_order" then some .modifyOrder
  else if name = ascii "cancel_order" then some .cancelOrder
  else if name = ascii "square_off" then some .squareOff
  else if name = ascii "result" then some .result
  else if name = ascii "child_slice" then some .childSlice
  else none

def kSchemaVersion : Int32 := 1

structure IntentRecord where
  schemaVersion : Int32
  seq : Int64
  clientRef : Bytes
  op : IntentOp
  payloadJson : Bytes
  wallTsNs : Int64
  prevHash : Bytes
  hash : Bytes
  deriving DecidableEq

def kGenesis : Bytes := ascii "GENESIS"

def chainError (message : Bytes) : Error := makeError .internal message

/-! ## The hash preimage -/

/-- `append_framed`: `<len>:<value>`. -/
def framed (value : Bytes) : Bytes := decimal value.length ++ ascii ":" ++ value

/-- `canonical_bytes`: every field but `hash`, in the frozen order. -/
def canonicalBytes (record : IntentRecord) : Bytes :=
  ascii "v" ++ decimal record.schemaVersion.toInt ++ [newline]
    ++ ascii "s" ++ decimal record.seq.toInt ++ [newline]
    ++ ascii "o" ++ record.op.toString ++ [newline]
    ++ ascii "t" ++ decimal record.wallTsNs.toInt ++ [newline]
    ++ ascii "c" ++ framed record.clientRef ++ [newline]
    ++ ascii "p" ++ framed record.payloadJson ++ [newline]
    ++ ascii "h" ++ framed record.prevHash ++ [newline]

def computeHash (record : IntentRecord) : Bytes := sha256Hex (canonicalBytes record)

/-! ## The JSON line -/

/-- The object of `to_json_line`, its members in the byte order `nlohmann::json` keeps. -/
def IntentRecord.toJson (record : IntentRecord) : Json.Flat := [
  (ascii "client_ref", .string record.clientRef),
  (ascii "hash", .string record.hash),
  (ascii "op", .string record.op.toString),
  (ascii "payload", .string record.payloadJson),
  (ascii "prev_hash", .string record.prevHash),
  (ascii "schema_version", .int record.schemaVersion.toInt64),
  (ascii "seq", .int record.seq),
  (ascii "wall_ts_ns", .int record.wallTsNs)]

/-- The JSON text of a record, without its newline. -/
def IntentRecord.text (record : IntentRecord) : Bytes := Json.dump record.toJson

def toJsonLine (record : IntentRecord) : Bytes := terminated record.text

/-- The `value` reads of one parsed line, with the op's name; `none` when a field of the
wrong type throws. -/
def readRecord (members : List (Bytes × Json.Value)) :
    Option ((IntentOp → IntentRecord) × Bytes) := do
  let schemaVersion ← Json.valueInt32 members (ascii "schema_version")
  let seq ← Json.valueInt64 members (ascii "seq")
  let clientRef ← Json.valueString members (ascii "client_ref")
  let payloadJson ← Json.valueString members (ascii "payload")
  let wallTsNs ← Json.valueInt64 members (ascii "wall_ts_ns")
  let prevHash ← Json.valueString members (ascii "prev_hash")
  let hash ← Json.valueString members (ascii "hash")
  let opName ← Json.valueString members (ascii "op")
  return (fun op =>
    ⟨schemaVersion, seq, clientRef, op, payloadJson, wallTsNs, prevHash, hash⟩, opName)

/-! ## Round trip -/

/-- The strings of a record that came through `append` or `replay`. -/
structure IntentRecord.Textual (record : IntentRecord) : Prop where
  clientRef : WellFormed record.clientRef
  payloadJson : WellFormed record.payloadJson
  prevHash : WellFormed record.prevHash
  hash : WellFormed record.hash

theorem ascii_wellFormed {s : String} (hs : (ascii s).all (· < 0x80) = true) :
    WellFormed (ascii s) :=
  .of_ascii fun b hb => by simpa using List.all_eq_true.mp hs b hb

theorem IntentOp.toString_wellFormed (op : IntentOp) : WellFormed op.toString := by
  cases op <;> exact ascii_wellFormed (by decide)

theorem intentOpFromString_toString (op : IntentOp) :
    intentOpFromString op.toString = some op := by
  cases op <;> decide

theorem IntentRecord.toJson_readable {record : IntentRecord} (h : record.Textual) :
    record.toJson.Readable where
  sorted := by
    show List.Pairwise (· < ·) [ascii "client_ref", ascii "hash", ascii "op", ascii "payload",
      ascii "prev_hash", ascii "schema_version", ascii "seq", ascii "wall_ts_ns"]
    decide
  keys := by
    intro m hm
    have hkey : m.1 ∈ record.toJson.map Prod.fst := List.mem_map_of_mem hm
    have hall : (record.toJson.map Prod.fst).all (·.all (· < 0x80)) = true := by
      show List.all [ascii "client_ref", ascii "hash", ascii "op", ascii "payload",
        ascii "prev_hash", ascii "schema_version", ascii "seq", ascii "wall_ts_ns"] _ = true
      decide
    have hkey' := List.all_eq_true.mp hall _ hkey
    exact .of_ascii fun b hb => by simpa using List.all_eq_true.mp hkey' b hb
  strings := by
    intro m hm s hs
    simp only [IntentRecord.toJson, List.mem_cons, List.not_mem_nil, or_false] at hm
    rcases hm with rfl | rfl | rfl | rfl | rfl | rfl | rfl | rfl
    · exact Json.Scalar.string.inj hs ▸ h.clientRef
    · exact Json.Scalar.string.inj hs ▸ h.hash
    · exact Json.Scalar.string.inj hs ▸ record.op.toString_wellFormed
    · exact Json.Scalar.string.inj hs ▸ h.payloadJson
    · exact Json.Scalar.string.inj hs ▸ h.prevHash
    · cases hs
    · cases hs
    · cases hs

/-- **The reads of `replay` give the written record back.** -/
theorem readRecord_toJson (record : IntentRecord) :
    ∃ build, readRecord record.toJson.members = some (build, record.op.toString)
      ∧ build record.op = record := by
  let o := record.toJson
  have hver : Json.valueInt32 o.members (ascii "schema_version") = some record.schemaVersion :=
    Json.Flat.valueInt32_members rfl
  have hseq : Json.valueInt64 o.members (ascii "seq") = some record.seq :=
    Json.Flat.valueInt64_members rfl
  have href : Json.valueString o.members (ascii "client_ref") = some record.clientRef :=
    Json.Flat.valueString_members rfl
  have hpayload : Json.valueString o.members (ascii "payload") = some record.payloadJson :=
    Json.Flat.valueString_members rfl
  have hts : Json.valueInt64 o.members (ascii "wall_ts_ns") = some record.wallTsNs :=
    Json.Flat.valueInt64_members rfl
  have hprev : Json.valueString o.members (ascii "prev_hash") = some record.prevHash :=
    Json.Flat.valueString_members rfl
  have hhash : Json.valueString o.members (ascii "hash") = some record.hash :=
    Json.Flat.valueString_members rfl
  have hop : Json.valueString o.members (ascii "op") = some record.op.toString :=
    Json.Flat.valueString_members rfl
  refine ⟨fun op => ⟨record.schemaVersion, record.seq, record.clientRef, op, record.payloadJson,
    record.wallTsNs, record.prevHash, record.hash⟩, ?_, rfl⟩
  unfold readRecord
  rw [hver, hseq, href, hpayload, hts, hprev, hhash, hop]
  rfl

end BrokerExec.IntentLog
