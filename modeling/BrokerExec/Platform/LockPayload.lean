import BrokerExec.Lib.Bytes
import Mathlib.Data.List.TakeWhile

/-!
# The payload of a lock file (`platform/file_lock.cpp`)

A lock file names the process that took it, when, and the nonce of the acquisition.

* **`parseLockPayload_text`** — what an acquisition writes reads back as its payload.
-/

namespace BrokerExec.Platform

structure LockPayload where
  pid : Int
  acquiredAt : Bytes
  nonce : Bytes
  deriving DecidableEq

/-! ## Writing -/

def payloadLines (payload : LockPayload) : List Bytes :=
  [ascii "broker-exec-lock v1", ascii "pid=" ++ decimal payload.pid,
    ascii "acquired_at=" ++ payload.acquiredAt, ascii "nonce=" ++ payload.nonce]

def formatLockPayload (payload : LockPayload) : Bytes := (payloadLines payload).flatMap terminated

/-- Zero-pads on the left. -/
def pad (value : Int) (width : Nat) : Bytes :=
  List.replicate (width - (decimal value).length) 48 ++ decimal value

/-- The calendar fields of a wall-clock reading. -/
structure IsoStamp where
  year : Int
  month : Int
  day : Int
  hour : Int
  minute : Int
  second : Int

/-- `iso_utc_now`. -/
def IsoStamp.text (stamp : IsoStamp) : Bytes :=
  pad stamp.year 4 ++ ascii "-" ++ pad stamp.month 2 ++ ascii "-" ++ pad stamp.day 2 ++ ascii "T"
    ++ pad stamp.hour 2 ++ ascii ":" ++ pad stamp.minute 2 ++ ascii ":" ++ pad stamp.second 2
    ++ ascii "Z"

/-- What one call of `try_acquire_file_lock` reads of its process and the clocks. -/
structure Acquirer where
  pid : Int64
  stamp : IsoStamp
  epochNs : Int
  counter : Nat

namespace Acquirer

variable (a : Acquirer)

/-- `make_nonce`. -/
def nonce : Bytes :=
  decimal a.pid.toInt ++ ascii "-" ++ decimal a.epochNs ++ ascii "-" ++ decimalNat a.counter

def payload : LockPayload := ⟨a.pid.toInt, a.stamp.text, a.nonce⟩

def text : Bytes := formatLockPayload a.payload

end Acquirer

/-! ## Reading -/

def readMinus : Bytes → Bool × Bytes
  | 0x2D :: rest => (true, rest)
  | digits => (false, digits)

/-- `std::from_chars` over the whole of `value`, in the range of `long long`. -/
def parseLongLong (value : Bytes) : Option Int :=
  let (negative, digits) := readMinus value
  if digits = [] ∨ digits.all isDigit = false then none
  else
    let magnitude : Int := digitsValue digits
    let parsed := if negative then -magnitude else magnitude
    if -2 ^ 63 ≤ parsed ∧ parsed < 2 ^ 63 then some parsed else none

/-- One trailing `\r` is tolerated. -/
def stripCr (line : Bytes) : Bytes := if line.getLast? = some 0x0D then line.dropLast else line

/-- The key and the value around the first `=`. -/
def splitField (line : Bytes) : Option (Bytes × Bytes) :=
  let key := line.takeWhile (· ≠ 0x3D)
  if 0x3D ∈ line then some (key, line.drop (key.length + 1)) else none

/-- The fields read so far; an empty text is one that is missing. -/
structure ParsedFields where
  pid : Option Int
  acquiredAt : Bytes
  nonce : Bytes

/-- One line; `none` for a corrupt pid. -/
def parseField (fields : ParsedFields) (line : Bytes) : Option ParsedFields :=
  match splitField (stripCr line) with
  | none => some fields
  | some (key, value) =>
    if key = ascii "pid" then
      (parseLongLong value).map fun pid => { fields with pid := some pid }
    else if key = ascii "acquired_at" then some { fields with acquiredAt := value }
    else if key = ascii "nonce" then some { fields with nonce := value }
    else some fields

def parseFields (lines : List Bytes) : Option ParsedFields :=
  lines.foldlM parseField ⟨none, [], []⟩

def parseLockPayload (text : Bytes) : Option LockPayload :=
  match parseFields ((chunks text).map Prod.fst) with
  | none => none
  | some fields =>
    match fields.pid with
    | none => none
    | some pid =>
      if fields.acquiredAt = [] ∨ fields.nonce = [] then none
      else some ⟨pid, fields.acquiredAt, fields.nonce⟩

/-! ## The round trip -/

/-- The bytes of stamps and nonces. -/
def isStampByte (c : UInt8) : Bool := isDigit c || c == 45 || c == 58 || c == 84 || c == 90

theorem isStampByte_decimal {i : Int} {c : UInt8} (hc : c ∈ decimal i) : isStampByte c = true := by
  rcases mem_decimal hc with h | h
  · simp [isStampByte, h]
  · simp [isStampByte, h]

theorem isStampByte_pad {i : Int} {width : Nat} {c : UInt8} (hc : c ∈ pad i width) :
    isStampByte c = true := by
  rcases List.mem_append.mp hc with h | h
  · rw [List.eq_of_mem_replicate h]
    decide
  · exact isStampByte_decimal h

theorem isStampByte_stamp {stamp : IsoStamp} : ∀ c ∈ stamp.text, isStampByte c = true := by
  intro c hc
  simp only [IsoStamp.text, List.mem_append] at hc
  have hmark : ∀ s ∈ [ascii "-", ascii "T", ascii ":", ascii "Z"], ∀ c ∈ s,
      isStampByte c = true := by decide
  rcases hc with (((((((((((h | h) | h) | h) | h) | h) | h) | h) | h) | h) | h) | h)
  all_goals first | exact isStampByte_pad h | exact hmark _ (by decide) c h

theorem isStampByte_nonce {a : Acquirer} : ∀ c ∈ a.nonce, isStampByte c = true := by
  intro c hc
  have hdash : ∀ c ∈ ascii "-", isStampByte c = true := by decide
  simp only [Acquirer.nonce, List.mem_append] at hc
  rcases hc with (((h | h) | h) | h) | h
  · exact isStampByte_decimal h
  · exact hdash c h
  · exact isStampByte_decimal h
  · exact hdash c h
  · simp [isStampByte, mem_decimalNat h]

theorem ne_nil_of_stamp (stamp : IsoStamp) : stamp.text ≠ [] := by
  simp [IsoStamp.text, show ascii "Z" = [90] from rfl]

theorem nonce_ne_nil (a : Acquirer) : a.nonce ≠ [] := by
  simp [Acquirer.nonce, show ascii "-" = [45] from rfl]

/-- The integers that `long long` holds read back from their decimal text. -/
theorem parseLongLong_decimal (i : Int64) : parseLongLong (decimal i.toInt) = some i.toInt := by
  have hlow : -2 ^ 63 ≤ i.toInt := i.minValue_le_toInt
  have hhigh : i.toInt < 2 ^ 63 := i.toInt_lt
  generalize i.toInt = value at hlow hhigh
  cases value with
  | ofNat n =>
    have hdigits : ∀ c ∈ decimalNat n, isDigit c = true := fun c hc => mem_decimalNat hc
    have hsign : readMinus (decimalNat n) = (false, decimalNat n) := by
      unfold readMinus
      split
      next rest h =>
        have hdash := hdigits 0x2D (by rw [h]; exact .head _)
        cases hdash
      next => rfl
    show parseLongLong (decimalNat n) = _
    unfold parseLongLong
    rw [hsign]
    dsimp only
    rw [if_neg (by simpa [decimalNat_ne_nil] using hdigits), digitsValue_decimalNat]
    exact if_pos ⟨hlow, hhigh⟩
  | negSucc n =>
    have hdigits : ∀ c ∈ decimalNat (n + 1), isDigit c = true := fun c hc => mem_decimalNat hc
    show parseLongLong (45 :: decimalNat (n + 1)) = _
    unfold parseLongLong
    rw [show readMinus (45 :: decimalNat (n + 1)) = (true, decimalNat (n + 1)) from rfl]
    dsimp only
    rw [if_neg (by simpa [decimalNat_ne_nil] using hdigits), digitsValue_decimalNat]
    exact if_pos ⟨hlow, hhigh⟩

theorem stripCr_of_stampBytes {front value : Bytes} (hne : value ≠ [])
    (hvalue : ∀ c ∈ value, isStampByte c = true) : stripCr (front ++ value) = front ++ value := by
  refine if_neg fun h => ?_
  rw [List.getLast?_append, List.getLast?_eq_some_getLast hne, Option.some_or] at h
  have hcr := hvalue _ (List.getLast_mem hne)
  rw [Option.some_inj.mp h] at hcr
  cases hcr

/-- A key without `=`, the `=` and the value. -/
theorem splitField_append {key value : Bytes} (hkey : ∀ c ∈ key, c ≠ 0x3D) :
    splitField (key ++ 0x3D :: value) = some (key, value) := by
  have htake : (key ++ 0x3D :: value).takeWhile (· ≠ 0x3D) = key := by
    rw [List.takeWhile_append_of_pos (by simpa using hkey)]
    simp
  unfold splitField
  dsimp only
  rw [htake, if_pos (by simp)]
  simp

section

variable {a : Acquirer}

theorem parseField_pid (fields : ParsedFields) :
    parseField fields (ascii "pid=" ++ decimal a.pid.toInt)
      = some { fields with pid := some a.pid.toInt } := by
  have hne : decimal a.pid.toInt ≠ [] := by
    cases a.pid.toInt with
    | ofNat n => exact decimalNat_ne_nil n
    | negSucc n => simp [decimal]
  unfold parseField
  rw [stripCr_of_stampBytes hne fun c hc => isStampByte_decimal hc,
    show ascii "pid=" ++ decimal a.pid.toInt = ascii "pid" ++ 0x3D :: decimal a.pid.toInt by
      simp [ascii],
    splitField_append (by decide)]
  dsimp only
  rw [if_pos rfl, parseLongLong_decimal]
  rfl

theorem parseField_acquiredAt (fields : ParsedFields) :
    parseField fields (ascii "acquired_at=" ++ a.stamp.text)
      = some { fields with acquiredAt := a.stamp.text } := by
  unfold parseField
  rw [stripCr_of_stampBytes (ne_nil_of_stamp _) isStampByte_stamp,
    show ascii "acquired_at=" ++ a.stamp.text = ascii "acquired_at" ++ 0x3D :: a.stamp.text by
      simp [ascii],
    splitField_append (by decide)]
  dsimp only
  rw [if_neg (by decide), if_pos rfl]

theorem parseField_nonce (fields : ParsedFields) :
    parseField fields (ascii "nonce=" ++ a.nonce) = some { fields with nonce := a.nonce } := by
  unfold parseField
  rw [stripCr_of_stampBytes (nonce_ne_nil a) isStampByte_nonce,
    show ascii "nonce=" ++ a.nonce = ascii "nonce" ++ 0x3D :: a.nonce by simp [ascii],
    splitField_append (by decide)]
  dsimp only
  rw [if_neg (by decide), if_neg (by decide), if_pos rfl]

end

theorem newline_notMem_payloadLines (a : Acquirer) :
    ∀ line ∈ payloadLines a.payload, newline ∉ line := by
  have hstamp {key value : Bytes} (hkey : newline ∉ key)
      (hvalue : ∀ c ∈ value, isStampByte c = true) : newline ∉ key ++ value := by
    intro h
    rcases List.mem_append.mp h with h | h
    · exact hkey h
    · cases hvalue _ h
  intro line hline
  simp only [payloadLines, Acquirer.payload, List.mem_cons, List.not_mem_nil, or_false] at hline
  rcases hline with rfl | rfl | rfl | rfl
  · decide
  · exact hstamp (by decide) fun c hc => isStampByte_decimal hc
  · exact hstamp (by decide) isStampByte_stamp
  · exact hstamp (by decide) isStampByte_nonce

/-- **What an acquisition writes reads back.** -/
theorem parseLockPayload_text (a : Acquirer) : parseLockPayload a.text = some a.payload := by
  have hlines : (chunks a.text).map Prod.fst = payloadLines a.payload := by
    have hchunks := chunks_terminated (newline_notMem_payloadLines a) []
    rw [List.append_nil, chunks_nil, List.append_nil] at hchunks
    unfold Acquirer.text formatLockPayload
    rw [hchunks, List.map_map]
    exact List.map_id _
  have hfields : parseFields (payloadLines a.payload)
      = some ⟨some a.pid.toInt, a.stamp.text, a.nonce⟩ := by
    have hheader : parseField ⟨none, [], []⟩ (ascii "broker-exec-lock v1") = some ⟨none, [], []⟩ :=
      rfl
    unfold parseFields payloadLines Acquirer.payload
    dsimp only
    rw [List.foldlM_cons, hheader, Option.bind_eq_bind, Option.bind_some,
      List.foldlM_cons, parseField_pid, Option.bind_eq_bind, Option.bind_some,
      List.foldlM_cons, parseField_acquiredAt, Option.bind_eq_bind, Option.bind_some,
      List.foldlM_cons, parseField_nonce]
    rfl
  unfold parseLockPayload
  rw [hlines, hfields]
  exact if_neg fun h => h.elim (ne_nil_of_stamp _) (nonce_ne_nil a)

end BrokerExec.Platform
