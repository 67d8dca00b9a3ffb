import BrokerExec.Domain.Types
import Mathlib.Data.List.Infix

/-!
# The names of the shared reference-data cache (`accounts/shared_refdata_cache.cpp`)

A key of the cache becomes the name of its artifact, and with a suffix the names of its temporary
files and its lock.

* **`artifactName_append_inj`** — of keys that validate, the key and the suffix can be read back
  from the name.
* **`not_isDebris_artifactName`** — the sweep never takes an artifact for debris.
-/

namespace BrokerExec.Accounts

open BrokerExec.Errors (Error makeError)

structure RefdataKey where
  broker : Bytes
  segment : Bytes
  tradingDate : Bytes
  /-- The artifact suffix. -/
  extension : Bytes
  deriving DecidableEq

/-! ## What a key may be -/

def isLower (c : UInt8) : Bool := 97 ≤ c && c ≤ 122

def isUpper (c : UInt8) : Bool := 65 ≤ c && c ≤ 90

def isTokenByte (c : UInt8) : Bool := isLower c || isDigit c || c == 0x2D

def isSafeToken (token : Bytes) : Bool :=
  token ≠ [] && token.length ≤ 64 && token.all isTokenByte

/-- Digits, with dashes at the places 4 and 7. -/
def isIsoDate (date : Bytes) : Bool :=
  date.length = 10 &&
    date.zipIdx.all fun (c, i) => if i = 4 ∨ i = 7 then c == 0x2D else isDigit c

def isExtensionByte (c : UInt8) : Bool := isUpper c || isLower c || isDigit c

def isSafeExtension (ext : Bytes) : Bool :=
  2 ≤ ext.length && ext.length ≤ 16 && ext.head? = some 0x2E && ext.tail.all isExtensionByte

def validation (message : String) : Error := makeError .validation (ascii message)

def validateRefdataKey (key : RefdataKey) : Result Unit :=
  if !isSafeToken key.broker then
    .error (validation ("shared refdata key: broker must be [a-z0-9-]\x7b1,64\x7d ('_' is reserved "
      ++ "as the filename separator; lowercase only)"))
  else if !isSafeToken key.segment then
    .error (validation ("shared refdata key: segment must be [a-z0-9-]\x7b1,64\x7d ('_' is reserved "
      ++ "as the filename separator; lowercase only)"))
  else if !isIsoDate key.tradingDate then
    .error (validation "shared refdata key: trading_date must be ISO YYYY-MM-DD")
  else if !isSafeExtension key.extension then
    .error (validation "shared refdata key: extension must look like '.csv'")
  else .ok ()

/-- A key that validates. -/
structure RefdataKey.Safe (key : RefdataKey) : Prop where
  broker : isSafeToken key.broker = true
  segment : isSafeToken key.segment = true
  tradingDate : isIsoDate key.tradingDate = true
  extension : isSafeExtension key.extension = true

theorem validateRefdataKey_ok {key : RefdataKey} (h : validateRefdataKey key = .ok ()) :
    key.Safe := by
  unfold validateRefdataKey at h
  split_ifs at h with hbroker hsegment hdate hext
  simp only [Bool.not_eq_true, Bool.not_eq_false'] at hbroker hsegment hdate hext
  exact ⟨by simpa using hbroker, by simpa using hsegment, by simpa using hdate, by simpa using hext⟩

/-! ## Where the cache may be -/

/-- One component of a path after the ones before it, lexically normalised. -/
def normalStep (absolute : Bool) (names : List Bytes) (name : Bytes) : List Bytes :=
  if name = [] ∨ name = ascii "." then names
  else if name ≠ ascii ".." then names ++ [name]
  else
    match names.getLast? with
    | none => if absolute then [] else [name]
    | some last => if last = ascii ".." then names ++ [name] else names.dropLast

/-- `canonical_form`: the components of the lexically normal path, less an empty file name. -/
def canonicalForm (path : Bytes) : List Bytes :=
  let absolute : Bool := path.head? = some 0x2F
  let names := (path.splitOn 0x2F).foldl (normalStep absolute) []
  if absolute then ascii "/" :: names else if names = [] then [ascii "."] else names

def requireOutsideAccountTree (sharedRoot accountDataRoot : Bytes) : Result Unit :=
  if sharedRoot = [] ∨ accountDataRoot = [] then
    .error (validation "shared refdata cache: empty shared root or account data root")
  else
    let shared := canonicalForm sharedRoot
    let accountTree := canonicalForm accountDataRoot
    if accountTree <+: shared ∨ shared <+: accountTree then
      .error (validation
        "shared refdata cache: the shared root must live OUTSIDE the per-account data tree")
    else .ok ()

/-- A trailing slash does not get a root past the guard. -/
example : requireOutsideAccountTree (ascii "/srv/accounts/shared/") (ascii "/srv/accounts")
    = .error (validation
      "shared refdata cache: the shared root must live OUTSIDE the per-account data tree") := by
  decide +kernel

/-! ## Names -/

/-- The file name of `artifact_path`. -/
def artifactName (key : RefdataKey) : Bytes :=
  key.broker ++ ascii "_" ++ key.segment ++ ascii "_" ++ key.tradingDate ++ key.extension

/-- The file name of `lock_path`. -/
def lockName (key : RefdataKey) : Bytes := artifactName key ++ ascii ".lock"

/-- The temporary sibling of `write_atomically`. -/
def tempName (key : RefdataKey) (nonce : Bytes) : Bytes :=
  artifactName key ++ (ascii ".tmp-" ++ nonce)

/-- What `sweep_debris` takes for debris. -/
def IsDebris (name : Bytes) : Prop := ascii ".tmp-" <:+: name ∨ ascii ".stale-" <:+: name

instance (name : Bytes) : Decidable (IsDebris name) := inferInstanceAs (Decidable (_ ∨ _))

theorem isTokenByte_of_mem {token : Bytes} (h : isSafeToken token = true) {c : UInt8}
    (hc : c ∈ token) : isTokenByte c = true := by
  unfold isSafeToken at h
  simp only [Bool.and_eq_true, List.all_eq_true] at h
  exact h.2 c hc

theorem isIsoDate_byte {date : Bytes} (h : isIsoDate date = true) {c : UInt8} (hc : c ∈ date) :
    isTokenByte c = true := by
  unfold isIsoDate at h
  simp only [Bool.and_eq_true, List.all_eq_true, decide_eq_true_eq] at h
  obtain ⟨i, hi, rfl⟩ := List.getElem_of_mem hc
  have hplace := h.2 (date[i], i) (List.mk_mem_zipIdx_iff_getElem?.mpr (List.getElem?_eq_getElem hi))
  unfold isTokenByte
  by_cases hdash : i = 4 ∨ i = 7
  · simp only [if_pos hdash] at hplace
    simp [hplace]
  · simp only [if_neg hdash] at hplace
    simp [hplace]

/-- An extension is a dot and letters or digits. -/
theorem isSafeExtension_eq {ext : Bytes} (h : isSafeExtension ext = true) :
    ∃ letters : Bytes, ext = 0x2E :: letters ∧ ∀ c ∈ letters, isExtensionByte c = true := by
  unfold isSafeExtension at h
  simp only [Bool.and_eq_true, List.all_eq_true, decide_eq_true_eq] at h
  cases ext with
  | nil => simp at h
  | cons dot letters =>
    obtain ⟨⟨-, hdot⟩, hletters⟩ := h
    exact ⟨letters, by rw [Option.some.inj hdot], hletters⟩

theorem not_underscore_of_token {c : UInt8} (h : isTokenByte c = true) : c ≠ 0x5F := by
  rintro rfl
  revert h
  decide

theorem not_dot_of_token {c : UInt8} (h : isTokenByte c = true) : c ≠ 0x2E := by
  rintro rfl
  revert h
  decide

theorem not_dot_of_extension {c : UInt8} (h : isExtensionByte c = true) : c ≠ 0x2E := by
  rintro rfl
  revert h
  decide

theorem artifactName_eq (key : RefdataKey) (suffix : Bytes) :
    artifactName key ++ suffix
      = key.broker ++ (0x5F :: (key.segment ++ (0x5F :: (key.tradingDate
        ++ (key.extension ++ suffix))))) := by
  simp [artifactName, ascii]

/-- **The key and the suffix can be read back from the name.** -/
theorem artifactName_append_inj {key key' : RefdataKey} {suffix suffix' : Bytes} (hkey : key.Safe)
    (hkey' : key'.Safe) (hsuffix : ∀ c ∈ suffix.head?, c = 0x2E)
    (hsuffix' : ∀ c ∈ suffix'.head?, c = 0x2E)
    (h : artifactName key ++ suffix = artifactName key' ++ suffix') :
    key = key' ∧ suffix = suffix' := by
  rw [artifactName_eq, artifactName_eq] at h
  have hstop : ∀ rest : Bytes, ∀ c ∈ (0x5F :: rest : Bytes).head?, ¬ c ≠ 0x5F := by
    intro rest c hc
    simpa using hc.symm
  obtain ⟨hbroker, h⟩ := append_inj_of_stop (P := (· ≠ 0x5F))
    (fun c hc => not_underscore_of_token (isTokenByte_of_mem hkey.broker hc))
    (fun c hc => not_underscore_of_token (isTokenByte_of_mem hkey'.broker hc)) (hstop _) (hstop _) h
  obtain ⟨hsegment, h⟩ := append_inj_of_stop (P := (· ≠ 0x5F))
    (fun c hc => not_underscore_of_token (isTokenByte_of_mem hkey.segment hc))
    (fun c hc => not_underscore_of_token (isTokenByte_of_mem hkey'.segment hc)) (hstop _) (hstop _)
    (List.cons.inj h).2
  obtain ⟨letters, hext, hletters⟩ := isSafeExtension_eq hkey.extension
  obtain ⟨letters', hext', hletters'⟩ := isSafeExtension_eq hkey'.extension
  have h := (List.cons.inj h).2
  rw [hext, hext'] at h
  -- the dot of the extension ends the date
  have hdot : ∀ rest : Bytes, ∀ c ∈ (0x2E :: rest : Bytes).head?, ¬ c ≠ 0x2E := by
    intro rest c hc
    simpa using hc.symm
  obtain ⟨hdate, h⟩ := append_inj_of_stop (P := (· ≠ 0x2E))
    (fun c hc => not_dot_of_token (isIsoDate_byte hkey.tradingDate hc))
    (fun c hc => not_dot_of_token (isIsoDate_byte hkey'.tradingDate hc)) (hdot _) (hdot _) h
  -- and the dot of the suffix, if there is one, the extension
  obtain ⟨hsame, hrest⟩ := append_inj_of_stop (P := (· ≠ 0x2E))
    (fun c hc => not_dot_of_extension (hletters c hc))
    (fun c hc => not_dot_of_extension (hletters' c hc))
    (fun c hc hne => hne (hsuffix c hc)) (fun c hc hne => hne (hsuffix' c hc))
    (List.cons.inj h).2
  refine ⟨?_, hrest⟩
  cases key
  cases key'
  simp_all

theorem artifactName_inj {key key' : RefdataKey} (hkey : key.Safe) (hkey' : key'.Safe)
    (h : artifactName key = artifactName key') : key = key' := by
  have hnone : ∀ c ∈ ([] : Bytes).head?, c = 0x2E := by simp
  refine (artifactName_append_inj hkey hkey' hnone hnone ?_).1
  rw [h]

theorem tempName_inj {key key' : RefdataKey} {nonce nonce' : Bytes} (hkey : key.Safe)
    (hkey' : key'.Safe) (h : tempName key nonce = tempName key' nonce') : nonce = nonce' :=
  List.append_cancel_left
    (artifactName_append_inj hkey hkey' (by simp [ascii]) (by simp [ascii]) h).2

theorem tempName_ne_artifactName {key key' : RefdataKey} {nonce : Bytes} (hkey : key.Safe)
    (hkey' : key'.Safe) : tempName key nonce ≠ artifactName key' := by
  intro h
  have hempty : ascii ".tmp-" ++ nonce = [] := by
    refine (artifactName_append_inj hkey hkey' ?_ ?_ ?_).2
    · simp [ascii]
    · simp
    · rw [List.append_nil]
      exact h
  simp [ascii] at hempty

/-- The locks of two keys are two files, and no lock is an artifact. -/
theorem lockName_inj {key key' : RefdataKey} (hkey : key.Safe) (hkey' : key'.Safe)
    (h : lockName key = lockName key') : key = key' :=
  artifactName_inj hkey hkey' (List.append_cancel_right h)

/-- A dot and a dash behind it are in no artifact's name. -/
theorem not_infix_artifactName {key : RefdataKey} (hkey : key.Safe) (mark : Bytes)
    (hmark : 0x2D ∈ mark) : ¬ (0x2E :: mark) <:+: artifactName key := by
  rintro ⟨front, back, h⟩
  obtain ⟨letters, hext, hletters⟩ := isSafeExtension_eq hkey.extension
  have hname : artifactName key
      = (key.broker ++ 0x5F :: (key.segment ++ 0x5F :: key.tradingDate)) ++ 0x2E :: letters := by
    have heq := artifactName_eq key []
    rw [List.append_nil, List.append_nil, hext] at heq
    simpa using heq
  have hstem : (0x2E : UInt8) ∉ key.broker ++ 0x5F :: (key.segment ++ 0x5F :: key.tradingDate) := by
    simp only [List.mem_append, List.mem_cons, not_or]
    refine ⟨?_, by decide, ?_, by decide, ?_⟩
    · exact fun hc => not_dot_of_token (isTokenByte_of_mem hkey.broker hc) rfl
    · exact fun hc => not_dot_of_token (isTokenByte_of_mem hkey.segment hc) rfl
    · exact fun hc => not_dot_of_token (isIsoDate_byte hkey.tradingDate hc) rfl
  have hno : (0x2E : UInt8) ∉ letters := fun hc => not_dot_of_extension (hletters _ hc) rfl
  rw [hname, List.append_assoc] at h
  obtain ⟨-, -, hrest⟩ := (List.append_cons_inj_of_notMem hstem hno).mp h.symm
  have hdash : (0x2D : UInt8) ∈ letters := by
    rw [hrest]
    exact List.mem_append_left _ hmark
  exact absurd (hletters _ hdash) (by decide)

/-- **The sweep never takes an artifact for debris.** -/
theorem not_isDebris_artifactName {key : RefdataKey} (hkey : key.Safe) :
    ¬ IsDebris (artifactName key) := by
  rintro (h | h)
  · exact not_infix_artifactName hkey (ascii "tmp-") (by decide) h
  · exact not_infix_artifactName hkey (ascii "stale-") (by decide) h

end BrokerExec.Accounts
