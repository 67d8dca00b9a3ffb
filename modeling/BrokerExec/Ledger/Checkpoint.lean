import BrokerExec.Ledger.Chain

/-!
# The signed checkpoint (`ledger/ledger.cpp`)

`write_checkpoint` signs the head hash and publishes `{entry_count, head_hash, public_key,
signature}` beside the ledger; `verify_against_checkpoint` holds the live chain against it
under a pinned key. Ed25519 comes from OpenSSL and is a parameter.

* **`verifyAgainstCheckpoint_ok`** — what an accepted checkpoint says about the chain;
* **`verifyAgainstCheckpoint_report`** — a published report under the pinned key is accepted
  by every chain that carries its head at its size.
-/

namespace BrokerExec.Ledger

open BrokerExec.Errors (Error makeError)

/-! ## Hexadecimal -/

def toHex (bytes : Bytes) : Bytes := bytes.flatMap IntentLog.hexByte

def nibble (c : UInt8) : Option Nat :=
  if 48 ≤ c ∧ c ≤ 57 then some (c.toNat - 48)
  else if 97 ≤ c ∧ c ≤ 102 then some (c.toNat - 97 + 10)
  else if 65 ≤ c ∧ c ≤ 70 then some (c.toNat - 65 + 10)
  else none

/-- `none` on an odd length or a non-hex digit. -/
def fromHex : Bytes → Option Bytes
  | [] => some []
  | [_] => none
  | h :: l :: hex => do
    let hi ← nibble h
    let lo ← nibble l
    let bytes ← fromHex hex
    return UInt8.ofNat (16 * hi + lo) :: bytes

theorem fromHex_toHex (bytes : Bytes) : fromHex (toHex bytes) = some bytes := by
  have hnibble : ∀ n < 16, nibble (IntentLog.kHexDigits n) = some n := by decide
  induction bytes with
  | nil => rfl
  | cons b bytes ih =>
    have hdiv := hnibble (b.toNat / 16) (Nat.div_lt_of_lt_mul b.toNat_lt)
    have hmod := hnibble (b.toNat % 16) (Nat.mod_lt _ (by omega))
    have hsum : 16 * (b.toNat / 16) + b.toNat % 16 = b.toNat := Nat.div_add_mod _ _
    show fromHex (IntentLog.kHexDigits (b.toNat / 16) :: IntentLog.kHexDigits (b.toNat % 16)
      :: toHex bytes) = _
    rw [fromHex, hdiv, hmod, ih]
    show some (UInt8.ofNat (16 * (b.toNat / 16) + b.toNat % 16) :: bytes) = _
    rw [hsum, UInt8.ofNat_toNat]

theorem length_of_fromHex {hex bytes : Bytes} (h : fromHex hex = some bytes) :
    hex.length = 2 * bytes.length := by
  induction hex using fromHex.induct generalizing bytes with
  | case1 =>
    cases h
    rfl
  | case2 c => cases h
  | case3 hi lo hex ih =>
    rw [fromHex] at h
    simp only [Option.bind_eq_bind, Option.bind_eq_some_iff, Option.pure_def,
      Option.some.injEq] at h
    obtain ⟨_, -, _, -, rest, hrest, rfl⟩ := h
    have := ih hrest
    simp only [List.length_cons]
    omega

theorem toHex_wellFormed (bytes : Bytes) : WellFormed (toHex bytes) := by
  apply WellFormed.of_ascii
  intro c hc
  obtain ⟨b, -, hb⟩ := List.mem_flatMap.mp hc
  have hdigit : ∀ n < 16, IntentLog.kHexDigits n < 0x80 := by decide
  simp only [IntentLog.hexByte, List.mem_cons, List.not_mem_nil, or_false] at hb
  rcases hb with rfl | rfl
  · exact hdigit _ (Nat.div_lt_of_lt_mul b.toNat_lt)
  · exact hdigit _ (Nat.mod_lt _ (by omega))

/-! ## Ed25519 -/

/-- How an EVP signing went. -/
inductive SignVerdict where
  | keyImportFailed
  | contextFailed
  | initFailed
  | probeFailed
  | signFailed
  | signed (signature : Bytes)

/-- How an EVP verification went. -/
inductive VerifyVerdict where
  | keyImportFailed
  | contextFailed
  | initFailed
  | rejected
  | accepted
  deriving DecidableEq

/-- OpenSSL's Ed25519: `sign privateKey message` and `verify publicKey message signature`. -/
structure Ed25519 where
  sign : Bytes → Bytes → SignVerdict
  verify : Bytes → Bytes → Bytes → VerifyVerdict

def kEd25519KeyBytes : Nat := 32

def cryptoError (message : Bytes) : Error := makeError .internal message

def signHead (ed : Ed25519) (ledger : Ledger) (privateKey : Bytes) : Result Bytes :=
  if ledger.headHash = [] then
    .error (makeError .validation (ascii "ledger empty, nothing to sign"))
  else if privateKey.length ≠ kEd25519KeyBytes then
    .error (makeError .validation (ascii "ledger: Ed25519 private key must be 32 bytes"))
  else
    match ed.sign privateKey ledger.headHash with
    | .keyImportFailed => .error (cryptoError (ascii "ledger: Ed25519 private key import failed"))
    | .contextFailed => .error (cryptoError (ascii "ledger: sign context allocation failed"))
    | .initFailed => .error (cryptoError (ascii "ledger: sign init failed"))
    | .probeFailed => .error (cryptoError (ascii "ledger: signature length probe failed"))
    | .signFailed => .error (cryptoError (ascii "ledger: signing failed"))
    | .signed signature => .ok signature

def verifyHead (ed : Ed25519) (headHash signature publicKey : Bytes) : Result Unit :=
  if publicKey.length ≠ kEd25519KeyBytes then
    .error (makeError .validation (ascii "ledger: Ed25519 public key must be 32 bytes"))
  else
    match ed.verify publicKey headHash signature with
    | .keyImportFailed => .error (cryptoError (ascii "ledger: Ed25519 public key import failed"))
    | .contextFailed => .error (cryptoError (ascii "ledger: verify context allocation failed"))
    | .initFailed => .error (cryptoError (ascii "ledger: verify init failed"))
    | .rejected =>
      .error (makeError .validation
        (ascii "ledger: signature verification failed (wrong key or tampered head)"))
    | .accepted => .ok ()

def requireKeyMatch (expected actual : Bytes) : Result Unit :=
  if expected ≠ actual then .error (makeError .auth (ascii "ledger signing key mismatch"))
  else .ok ()

theorem verifyHead_ok_iff {ed : Ed25519} {headHash signature publicKey : Bytes} :
    verifyHead ed headHash signature publicKey = .ok () ↔
      publicKey.length = kEd25519KeyBytes
        ∧ ed.verify publicKey headHash signature = .accepted := by
  unfold verifyHead
  split_ifs with hlength
  · exact iff_of_false (fun h => nomatch h) fun h => hlength h.1
  · rw [not_not] at hlength
    cases hverdict : ed.verify publicKey headHash signature with
    | accepted => simp [hlength]
    | _ => simp

/-! ## The report and its file -/

structure EodReport where
  entryCount : Int64
  headHash : Bytes
  signature : Bytes
  publicKey : Bytes

/-- The object of `EodReport::to_json`, in key order. -/
def EodReport.toJson (report : EodReport) : Json.Flat := [
  (ascii "entry_count", .int report.entryCount),
  (ascii "head_hash", .string report.headHash),
  (ascii "public_key", .string (toHex report.publicKey)),
  (ascii "signature", .string (toHex report.signature))]

def eodReport (ed : Ed25519) (ledger : Ledger) (privateKey publicKey : Bytes) :
    Result EodReport := do
  let signature ← ledger.signHead ed privateKey
  return ⟨Int64.ofNat ledger.entries.length, ledger.headHash, signature, publicKey⟩

/-- The answers during `write_checkpoint`. -/
structure CheckpointIo where
  opened : Bool
  write : WriteIo
  renamed : Bool

/-- `write_checkpoint`, with the content of the checkpoint file behind it. The bundle goes to
a temporary file first, so a failure leaves the published one alone. -/
def writeCheckpoint (ed : Ed25519) (ledger : Ledger) (io : CheckpointIo)
    (privateKey publicKey : Bytes) (checkpoint : Option Bytes) : Result Unit × Option Bytes :=
  if ledger.headHash = [] then
    (.error (makeError .validation (ascii "ledger empty, nothing to checkpoint")), checkpoint)
  else
    match ledger.eodReport ed privateKey publicKey with
    | .error error => (.error error, checkpoint)
    | .ok report =>
      if io.opened = false then
        (.error (makeError .internal (ascii "ledger: failed to open checkpoint temp file")),
          checkpoint)
      else
        match io.write with
        | .shortWrite _ =>
          (.error (makeError .internal (ascii "ledger: failed to write checkpoint")), checkpoint)
        | .syncFailed _ =>
          (.error (makeError .internal (ascii "ledger: failed to durably sync checkpoint")),
            checkpoint)
        | .done =>
          if io.renamed = false then
            (.error (makeError .internal
              (ascii "ledger: failed to atomically publish checkpoint")), checkpoint)
          else (.ok (), some (Json.dump report.toJson))

def CheckpointIo.clean : CheckpointIo := ⟨true, .done, true⟩

theorem writeCheckpoint_clean {ed : Ed25519} {ledger : Ledger} {privateKey signature : Bytes}
    (hempty : ledger.headHash ≠ []) (hkey : privateKey.length = kEd25519KeyBytes)
    (hsign : ed.sign privateKey ledger.headHash = .signed signature) (publicKey : Bytes)
    (published : Option Bytes) :
    (ledger.writeCheckpoint ed .clean privateKey publicKey published).1 = .ok () := by
  have hreport : ledger.signHead ed privateKey = .ok signature := by
    rw [signHead, if_neg hempty, if_neg (not_not.mpr hkey), hsign]
  rw [writeCheckpoint, if_neg hempty, eodReport, hreport]
  rfl

/-! ## `verify_against_checkpoint` -/

/-- The answers while the checkpoint is read. -/
structure CheckpointReadIo where
  statOk : Bool
  opened : Bool
  readOk : Bool

def CheckpointReadIo.clean : CheckpointReadIo := ⟨true, true, true⟩

/-- The type-checked reads of the checkpoint text; `none` is a malformed file. -/
def readReport (parser : Json.Parser) (text : Bytes) : Option EodReport :=
  match parser.parse text with
  | some (.object members) => do
    let entryCount ← fieldInt64 members (ascii "entry_count")
    let headHash ← fieldString members (ascii "head_hash")
    let signature ← fieldString members (ascii "signature") >>= fromHex
    let publicKey ← fieldString members (ascii "public_key") >>= fromHex
    return ⟨entryCount, headHash, signature, publicKey⟩
  | _ => none

/-- The checks of a checkpoint that could be read. The index is in range where it is used: the
size is at least `entryCount`, which is at least one. -/
def checkReport (ed : Ed25519) (ledger : Ledger) (pinned : Bytes) (report : EodReport) :
    Result Unit :=
  if report.entryCount < 1 then
    .error (makeError .validation (ascii "ledger: checkpoint records a non-positive size"))
  else if requireKeyMatch pinned report.publicKey ≠ .ok () then
    .error (makeError .validation
      (ascii "checkpoint public key does not match the pinned key (substitution)"))
  else if verifyHead ed report.headHash report.signature pinned ≠ .ok () then
    .error (makeError .validation (ascii "checkpoint signature invalid"))
  else if Int64.ofNat ledger.entries.length < report.entryCount then
    .error (makeError .validation
      (ascii "ledger TRUNCATED: have " ++ decimal ledger.entries.length
        ++ ascii " entries, checkpoint signed " ++ decimal report.entryCount.toInt))
  else if (ledger.entries[report.entryCount.toInt.toNat - 1]?).map LedgerEntry.hash
      ≠ some report.headHash then
    .error (makeError .validation
      (ascii "ledger ROLLED BACK/SUBSTITUTED: entry " ++ decimal (report.entryCount.toInt - 1)
        ++ ascii " hash diverges from the signed checkpoint"))
  else .ok ()

def verifyAgainstCheckpoint (parser : Json.Parser) (ed : Ed25519) (ledger : Ledger)
    (io : CheckpointReadIo) (pinned : Bytes) (checkpoint : Option Bytes) : Result Unit :=
  if io.statOk = false then
    .error (makeError .internal (ascii "ledger: failed to stat checkpoint file"))
  else
    match checkpoint with
    | none => .ok ()
    | some text =>
      if io.opened = false then
        .error (makeError .internal (ascii "ledger: failed to open checkpoint file"))
      else if io.readOk = false then
        .error (makeError .internal (ascii "ledger: failed to read checkpoint file"))
      else
        match readReport parser text with
        | none =>
          .error (makeError .validation
            (ascii "ledger: checkpoint file malformed or unparseable"))
        | some report => ledger.checkReport ed pinned report

/-- **What an accepted checkpoint says**: its signature verifies under the pinned key, and some
entry of the chain carries the head hash that it covers. -/
theorem verifyAgainstCheckpoint_ok {parser : Json.Parser} {ed : Ed25519} {ledger : Ledger}
    {io : CheckpointReadIo} {pinned text : Bytes}
    (h : ledger.verifyAgainstCheckpoint parser ed io pinned (some text) = .ok ()) :
    ∃ (report : EodReport) (mark : Nat) (entry : LedgerEntry),
      readReport parser text = some report
        ∧ ed.verify pinned report.headHash report.signature = .accepted
        ∧ ledger.entries[mark]? = some entry ∧ entry.hash = report.headHash := by
  unfold verifyAgainstCheckpoint at h
  split_ifs at h with hstat hopened hread
  dsimp only at h
  cases hreport : readReport parser text with
  | none =>
    rw [hreport] at h
    cases h
  | some report =>
    rw [hreport] at h
    dsimp only [checkReport] at h
    split_ifs at h with hcount hkey hhead hsize hmark
    rw [not_not] at hhead hmark
    obtain ⟨entry, hentry, hhash⟩ := Option.map_eq_some_iff.mp hmark
    exact ⟨report, _, entry, rfl, (verifyHead_ok_iff.mp hhead).2, hentry, hhash⟩

theorem EodReport.toJson_readable {report : EodReport} (h : WellFormed report.headHash) :
    report.toJson.Readable where
  sorted := by
    show List.Pairwise (· < ·) [ascii "entry_count", ascii "head_hash", ascii "public_key",
      ascii "signature"]
    decide
  keys := by
    intro m hm
    have hall : (report.toJson.map Prod.fst).all (·.all (· < 0x80)) = true := by
      show List.all [ascii "entry_count", ascii "head_hash", ascii "public_key",
        ascii "signature"] _ = true
      decide
    have hkey := List.all_eq_true.mp hall m.1 (List.mem_map_of_mem hm)
    exact .of_ascii fun b hb => by simpa using List.all_eq_true.mp hkey b hb
  strings := by
    intro m hm s hs
    simp only [EodReport.toJson, List.mem_cons, List.not_mem_nil, or_false] at hm
    rcases hm with rfl | rfl | rfl | rfl
    · cases hs
    · exact Json.Scalar.string.inj hs ▸ h
    · exact Json.Scalar.string.inj hs ▸ toHex_wellFormed _
    · exact Json.Scalar.string.inj hs ▸ toHex_wellFormed _

theorem readReport_dump (parser : Json.Parser) {report : EodReport}
    (h : WellFormed report.headHash) :
    readReport parser (Json.dump report.toJson) = some report := by
  let o := report.toJson
  have hcount : fieldInt64 o.members (ascii "entry_count") = some report.entryCount :=
    fieldInt64_members rfl
  have hhead : fieldString o.members (ascii "head_hash") = some report.headHash :=
    fieldString_members rfl
  have hsignature : fieldString o.members (ascii "signature") = some (toHex report.signature) :=
    fieldString_members rfl
  have hkey : fieldString o.members (ascii "public_key") = some (toHex report.publicKey) :=
    fieldString_members rfl
  unfold readReport
  rw [parser.parse_dump _ (report.toJson_readable h)]
  show (do
    let entryCount ← fieldInt64 o.members (ascii "entry_count")
    let headHash ← fieldString o.members (ascii "head_hash")
    let signature ← fieldString o.members (ascii "signature") >>= fromHex
    let publicKey ← fieldString o.members (ascii "public_key") >>= fromHex
    return (⟨entryCount, headHash, signature, publicKey⟩ : EodReport)) = some report
  rw [hcount, hhead, hsignature, hkey]
  show (do
    let signature ← fromHex (toHex report.signature)
    let publicKey ← fromHex (toHex report.publicKey)
    return (⟨report.entryCount, report.headHash, signature, publicKey⟩ : EodReport)) = some report
  rw [fromHex_toHex, fromHex_toHex]
  rfl

/-- **A published report is accepted** by every chain that carries its head at its size. -/
theorem verifyAgainstCheckpoint_report (parser : Json.Parser) {ed : Ed25519} {ledger : Ledger}
    {pinned signature : Bytes} (hpinned : pinned.length = kEd25519KeyBytes) {mark : Nat}
    {entry : LedgerEntry} (hsize : ledger.entries.length < 2 ^ 63)
    (hentry : ledger.entries[mark]? = some entry) (htext : WellFormed entry.hash)
    (hverify : ed.verify pinned entry.hash signature = .accepted) :
    ledger.verifyAgainstCheckpoint parser ed .clean pinned
      (some (Json.dump
        (EodReport.mk (Int64.ofNat (mark + 1)) entry.hash signature pinned).toJson)) = .ok () := by
  have hmark : mark < ledger.entries.length := (List.getElem?_eq_some_iff.mp hentry).1
  have hcount : (Int64.ofNat (mark + 1)).toInt = (mark + 1 : Nat) :=
    Int64.toInt_ofNat_of_lt (by omega)
  have hlength : (Int64.ofNat ledger.entries.length).toInt = ledger.entries.length :=
    Int64.toInt_ofNat_of_lt hsize
  have hone : (1 : Int64).toInt = 1 := rfl
  have hpositive : ¬ Int64.ofNat (mark + 1) < 1 := by
    rw [Int64.lt_iff_toInt_lt, hcount, hone]
    omega
  have hreaches : ¬ Int64.ofNat ledger.entries.length < Int64.ofNat (mark + 1) := by
    rw [Int64.lt_iff_toInt_lt, hcount, hlength]
    omega
  have hkey : requireKeyMatch pinned pinned = .ok () := by simp [requireKeyMatch]
  have hhead := verifyHead_ok_iff.mpr ⟨hpinned, hverify⟩
  have hindex : (Int64.ofNat (mark + 1)).toInt.toNat - 1 = mark := by
    rw [hcount]
    omega
  rw [verifyAgainstCheckpoint, if_neg (by decide)]
  show (if _ then _ else _) = _
  rw [if_neg (by decide), if_neg (by decide), readReport_dump parser htext]
  dsimp only [checkReport]
  rw [if_neg hpositive, if_neg (not_not.mpr hkey), if_neg (not_not.mpr hhead), if_neg hreaches,
    hindex, hentry]
  simp

end BrokerExec.Ledger
