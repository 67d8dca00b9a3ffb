import BrokerExec.Domain.Redaction
import BrokerExec.Domain.Types

/-!
# The configuration file's tree, and the secrets that may not be in it (`config/config.cpp`)

A TOML document after `toml++` parsed it, the members of a table in key order. What no reader asks of
a value is left out.

* **`scanSecrets_eq`** — the scan stops at the first key, in the order of the document, that looks
  like a secret, however deep it stands.
-/

namespace BrokerExec.Config

open BrokerExec.Domain (toLowerAscii)
open BrokerExec.Errors (Error makeError)

inductive Node where
  | table (members : List (Bytes × Node))
  | array (elements : List Node)
  | string (s : Bytes)
  | integer (i : Int64)
  | floatingPoint
  | boolean
  | date
  | time
  | dateTime

abbrev Table := List (Bytes × Node)

/-- `toml_type_name`. -/
def Node.typeName : Node → Bytes
  | .table _ => ascii "a table"
  | .array _ => ascii "an array"
  | .string _ => ascii "a string"
  | .integer _ => ascii "an integer"
  | .floatingPoint => ascii "a floating-point value"
  | .boolean => ascii "a boolean"
  | .date => ascii "a date"
  | .time => ascii "a time"
  | .dateTime => ascii "a date-time"

/-! ## The scan -/

def kSecretNeedles : List Bytes :=
  [ascii "token", ascii "secret", ascii "password", ascii "passwd", ascii "pwd", ascii "api_key",
    ascii "api-key", ascii "apikey", ascii "mpin", ascii "totp", ascii "bearer",
    ascii "credential"]

/-- `contains_ci`: only the haystack is folded. -/
def containsCi (haystack needle : Bytes) : Bool :=
  decide (needle <:+: haystack.map toLowerAscii)

def isSecretKey (key : Bytes) : Bool := kSecretNeedles.any (containsCi key)

def secretError (keyPath : Bytes) : Error :=
  makeError .validation (ascii "config: secret-shaped key '" ++ keyPath
    ++ ascii ("' is forbidden in the TOML; provide secrets via the env seam / SecretProvider, "
      ++ "never the config file"))

def joinKey (before key : Bytes) : Bytes := if before = [] then key else before ++ ascii "." ++ key

mutual

def scanNode (path : Bytes) : Node → Option Error
  | .table members => scanSecrets path members
  | .array elements => scanElements path elements
  | _ => none

def scanElements (path : Bytes) : List Node → Option Error
  | [] => none
  | element :: rest =>
    match scanNode path element with
    | some error => some error
    | none => scanElements path rest

def scanSecrets (before : Bytes) : List (Bytes × Node) → Option Error
  | [] => none
  | (key, node) :: rest =>
    if isSecretKey key then some (secretError (joinKey before key))
    else
      match scanNode (joinKey before key) node with
      | some error => some error
      | none => scanSecrets before rest

end

/-! ## Every key of a document -/

mutual

/-- The keys below a value with their paths, in the order of the document. -/
def Node.keys (path : Bytes) : Node → List (Bytes × Bytes)
  | .table members => keysOf path members
  | .array elements => keysOfElements path elements
  | _ => []

def keysOfElements (path : Bytes) : List Node → List (Bytes × Bytes)
  | [] => []
  | element :: rest => element.keys path ++ keysOfElements path rest

def keysOf (before : Bytes) : List (Bytes × Node) → List (Bytes × Bytes)
  | [] => []
  | (key, node) :: rest =>
    (key, joinKey before key) :: (node.keys (joinKey before key) ++ keysOf before rest)

end

/-- The path of the first secret among some keys. -/
def firstSecret (keys : List (Bytes × Bytes)) : Option Bytes :=
  (keys.find? fun k => isSecretKey k.1).map Prod.snd

theorem firstSecret_append (front back : List (Bytes × Bytes)) :
    (firstSecret (front ++ back)).map secretError =
      match (firstSecret front).map secretError with
      | some error => some error
      | none => (firstSecret back).map secretError := by
  unfold firstSecret
  rw [List.find?_append]
  cases front.find? fun k => isSecretKey k.1 <;> rfl

mutual

theorem scanNode_eq (path : Bytes) :
    ∀ node : Node, scanNode path node = (firstSecret (node.keys path)).map secretError
  | .table members => scanSecrets_eq path members
  | .array elements => scanElements_eq path elements
  | .string _ | .integer _ | .floatingPoint | .boolean | .date | .time | .dateTime => rfl

theorem scanElements_eq (path : Bytes) :
    ∀ elements : List Node,
      scanElements path elements = (firstSecret (keysOfElements path elements)).map secretError
  | [] => rfl
  | element :: rest => by
    rw [scanElements, keysOfElements, firstSecret_append, scanNode_eq path element,
      scanElements_eq path rest]

/-- **The scan stops at the first key of the document that looks like a secret.** -/
theorem scanSecrets_eq (before : Bytes) :
    ∀ members : List (Bytes × Node),
      scanSecrets before members = (firstSecret (keysOf before members)).map secretError
  | [] => rfl
  | (key, node) :: rest => by
    rw [scanSecrets, keysOf]
    split_ifs with hsecret
    · simp [firstSecret, hsecret]
    · have hskip : firstSecret ((key, joinKey before key)
          :: (node.keys (joinKey before key) ++ keysOf before rest))
          = firstSecret (node.keys (joinKey before key) ++ keysOf before rest) := by
        simp [firstSecret, hsecret]
      rw [hskip, firstSecret_append, scanNode_eq, scanSecrets_eq before rest]

end

theorem firstSecret_eq_none_iff {keys : List (Bytes × Bytes)} :
    firstSecret keys = none ↔ ∀ k ∈ keys, isSecretKey k.1 = false := by
  simp [firstSecret]

/-- A table in an array is searched too, and case does not hide a key. -/
example : scanSecrets [] [(ascii "broker", .table [(ascii "hosts",
      .array [.integer 1, .table [(ascii "Api_Key", .string (ascii "x"))]])])]
    = some (secretError (ascii "broker.hosts.Api_Key")) := by
  decide +kernel

end BrokerExec.Config
