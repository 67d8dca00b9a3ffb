import BrokerExec.IntentLog.Record
import Mathlib.Logic.Function.Basic

/-!
# The write-ahead intent log (`intentlog/intent_log.cpp`)

`open`, `append` and `replay` over the bytes of the log file. What the operating system
answers is an argument of each call: how far a write got, whether a sync succeeded, whether
the file could be read.

`append` writes one line and commits to memory only after the sync; `replay` cuts the file
at its newlines, verifies the chain record by record and repairs the tail.
-/

namespace BrokerExec

open BrokerExec.Errors (Error)
open BrokerExec.Domain (canonicalText)

namespace IntentLog

/-! ## What the operating system answers -/

/-- `fopen(path, "rb")`, and `exists` when it fails. -/
inductive ReadOpen where
  | opened
  | absent
  | unreadable
  deriving DecidableEq

/-- The answers during one `replay`: the open, the message of a failing `resize_file`, the
sync after it, and the write of a missing separator. -/
structure ReplayIo where
  opening : ReadOpen
  resizeError : Option Bytes
  synced : Bool
  separator : WriteIo

/-- Nothing fails. -/
def ReplayIo.clean : ReplayIo := ⟨.opened, none, true, .done⟩

/-- The answers during `open`. -/
structure OpenIo where
  opened : Bool
  directorySynced : Bool

def OpenIo.clean : OpenIo := ⟨true, true⟩

/-- `path_`: its `string()` and the `string()` of its `parent_path()`. -/
structure LogPath where
  string : Bytes
  parent : Bytes

/-! ## The log object -/

structure TornTail where
  repaired : Bool
  discardedBytes : Nat
  truncatedTo : Nat
  recordsKept : Nat
  deriving DecidableEq

def TornTail.none : TornTail := ⟨false, 0, 0, 0⟩

end IntentLog

/-- An `IntentLog` and the content of its file. `attached` is `file_ != nullptr` (and
`clock_ != nullptr`): it is lost only when the object is moved from. -/
structure IntentLog where
  attached : Bool
  path : IntentLog.LogPath
  file : Bytes
  nextSeq : Int64
  lastHash : Bytes
  tornTail : IntentLog.TornTail
  index : Bytes → Option IntentLog.IntentRecord

namespace IntentLog

/-- `IntentLog::open` on a file with this content (an absent file is created empty). -/
def openLog (io : OpenIo) (path : LogPath) (file : Bytes) : Result IntentLog :=
  if io.opened = false then
    .error (chainError (ascii "intentlog: failed to open log file for append: " ++ path.string))
  else
    let dir := if path.parent = [] then ascii "." else path.parent
    if io.directorySynced = false then
      .error (chainError
        (ascii "intentlog: durable_sync_directory failed for the log's directory: " ++ dir))
    else .ok ⟨true, path, file, 1, [], .none, fun _ => none⟩

/-! ## Appending -/

/-- The `prev_hash` of the next record. -/
def prevHash (log : IntentLog) : Bytes :=
  if log.lastHash = [] then kGenesis else log.lastHash

/-- The record `append` builds before it writes. -/
def nextRecord (log : IntentLog) (wallTsNs : Int64) (op : IntentOp)
    (clientRef payloadJson : Bytes) : IntentRecord :=
  let record : IntentRecord :=
    { schemaVersion := kSchemaVersion
      seq := log.nextSeq
      clientRef := canonicalText clientRef
      op := op
      payloadJson := canonicalText payloadJson
      wallTsNs := wallTsNs
      prevHash := log.prevHash
      hash := [] }
  { record with hash := computeHash record }

def append (log : IntentLog) (io : WriteIo) (wallTsNs : Int64) (op : IntentOp)
    (clientRef payloadJson : Bytes) : Result IntentRecord × IntentLog :=
  if log.attached = false then
    (.error (chainError (ascii "intentlog: append on a moved-from / closed log")), log)
  else
    let record := log.nextRecord wallTsNs op clientRef payloadJson
    let written := { log with file := log.file ++ io.landed (toJsonLine record) }
    match io with
    | .shortWrite _ =>
      (.error (chainError
        (ascii "intentlog: short write appending record seq " ++ decimal record.seq.toInt)),
        written)
    | .syncFailed _ =>
      (.error (chainError
        (ascii "intentlog: durable_sync failed for record seq " ++ decimal record.seq.toInt)),
        written)
    | .done =>
      (.ok record,
        { written with
          lastHash := record.hash
          nextSeq := record.seq + 1
          index := Function.update log.index record.clientRef (some record) })

/-! ## Replaying -/

/-- The locals of the `while` loop. -/
structure Cursor where
  records : List IntentRecord
  expectedSeq : Int64
  prevHash : Bytes
  tailMissingNewline : Bool
  pos : Nat
  index : Bytes → Option IntentRecord

/-- What the loop does with one chunk. -/
inductive ChunkEnd where
  /-- go on behind it -/
  | next (cur : Cursor)
  /-- an unparseable unterminated chunk -/
  | torn
  | failed (error : Error)
  /-- a `json::type_error` leaves `replay` -/
  | threw

/-- The commit of a verified record whose chunk is `size` bytes long. -/
def Cursor.accept (cur : Cursor) (record : IntentRecord) (size : Nat) (unterminated : Bool) :
    Cursor :=
  { records := cur.records ++ [record]
    expectedSeq := cur.expectedSeq + 1
    prevHash := record.hash
    tailMissingNewline := cur.tailMissingNewline || unterminated
    pos := cur.pos + size + 1
    index := Function.update cur.index record.clientRef (some record) }

/-- The chain checks of one parsed record. -/
def Cursor.verify (cur : Cursor) (record : IntentRecord) (size : Nat) (unterminated : Bool) :
    ChunkEnd :=
  if record.seq ≠ cur.expectedSeq then
    .failed (chainError (ascii "intentlog: broken chain at seq " ++ decimal record.seq.toInt
      ++ ascii " (expected seq " ++ decimal cur.expectedSeq.toInt ++ ascii ")"))
  else if record.prevHash ≠ cur.prevHash then
    .failed (chainError (ascii "intentlog: broken chain at seq " ++ decimal record.seq.toInt
      ++ ascii " (prev_hash mismatch)"))
  else if computeHash record ≠ record.hash then
    .failed (chainError (ascii "intentlog: broken chain at seq " ++ decimal record.seq.toInt
      ++ ascii " (hash mismatch " ++ [0xE2, 0x80, 0x94] ++ ascii " record tampered)"))
  else .next (cur.accept record size unterminated)

/-- One round of the loop over the chunk `line`. -/
def Cursor.step (parser : Json.Parser) (cur : Cursor) (line : Bytes) (unterminated : Bool) :
    ChunkEnd :=
  if line = [] then .next { cur with pos := cur.pos + 1 }
  else
    match parser.parse line with
    | some (.object members) =>
      match readRecord members with
      | none => .threw
      | some (build, opName) =>
        match intentOpFromString opName with
        | none =>
          .failed (chainError (ascii "intentlog: unknown op '" ++ opName ++ ascii "' at seq "
            ++ decimal (build .placeOrder).seq.toInt))
        | some op => cur.verify (build op) line.length unterminated
    | _ =>
      if unterminated then .torn
      else .failed (chainError
        (ascii "intentlog: malformed JSON at record index " ++ decimal cur.records.length))

/-- How the loop ends, with the locals at that point. -/
inductive LoopEnd where
  | finished (cur : Cursor)
  /-- at `line_start = cur.pos`, over `discarded` bytes -/
  | torn (cur : Cursor) (discarded : Nat)
  | failed (cur : Cursor) (error : Error)
  | threw (cur : Cursor)

def replayLoop (parser : Json.Parser) : Cursor → List (Bytes × Bool) → LoopEnd
  | cur, [] => .finished cur
  | cur, (line, unterminated) :: rest =>
    match cur.step parser line unterminated with
    | .next cur' => replayLoop parser cur' rest
    | .torn => .torn cur line.length
    | .failed error => .failed cur error
    | .threw => .threw cur

/-- How `replay` ends: it returns, or a `json::type_error` escapes it. -/
inductive ReplayEnd where
  | returned (result : Result (List IntentRecord))
  | threw

/-- The append cursor rebuilt from the verified tail. -/
def resume (log : IntentLog) (cur : Cursor) (torn : TornTail) :
    ReplayEnd × IntentLog :=
  let log' := { log with index := cur.index, tornTail := { torn with
    recordsKept := cur.records.length } }
  match cur.records.getLast? with
  | some record =>
    (.returned (.ok cur.records),
      { log' with lastHash := record.hash, nextSeq := record.seq + 1 })
  | none => (.returned (.ok cur.records), { log' with lastHash := [], nextSeq := 1 })

/-- What follows the loop. -/
def finish (log : IntentLog) (io : ReplayIo) : LoopEnd → ReplayEnd × IntentLog
  | .threw cur => (.threw, { log with index := cur.index })
  | .failed cur error => (.returned (.error error), { log with index := cur.index })
  | .torn cur discarded =>
    let log := { log with index := cur.index }
    match io.resizeError with
    | some message =>
      (.returned (.error (chainError
        (ascii "intentlog: could not truncate a torn trailing record at byte "
          ++ decimal cur.pos ++ ascii ": " ++ message))), log)
    | none =>
      let log := { log with file := log.file.take cur.pos }
      if (log.attached && io.synced) = false then
        (.returned (.error (chainError (ascii ("intentlog: durable_sync failed after truncating "
          ++ "a torn trailing record at byte ") ++ decimal cur.pos))), log)
      else log.resume cur ⟨true, discarded, cur.pos, 0⟩
  | .finished cur =>
    if cur.tailMissingNewline then
      let written := { log with
        index := cur.index
        file := log.file ++ if log.attached then io.separator.landed [newline] else [] }
      if log.attached = false ∨ io.separator ≠ .done then
        (.returned (.error (chainError (ascii ("intentlog: could not restore the missing record "
          ++ "separator on the final line of ") ++ log.path.string))), written)
      else written.resume cur ⟨true, 0, log.file.length + 1, 0⟩
    else log.resume cur .none

def Cursor.start (index : Bytes → Option IntentRecord) : Cursor :=
  ⟨[], 1, kGenesis, false, 0, index⟩

def replay (parser : Json.Parser) (io : ReplayIo) (log : IntentLog) :
    ReplayEnd × IntentLog :=
  let log := { log with tornTail := .none }
  match io.opening with
  | .absent => (.returned (.ok []), log)
  | .unreadable =>
    (.returned (.error (chainError
      (ascii "intentlog: log file exists but could not be opened for replay: "
        ++ log.path.string))), log)
  | .opened => log.finish io (replayLoop parser (.start log.index) (chunks log.file))

/-- `last_for`: the query is canonicalised as the stored refs are. -/
def lastFor (log : IntentLog) (clientRef : Bytes) : Option IntentRecord :=
  log.index (canonicalText clientRef)

end IntentLog

end BrokerExec
