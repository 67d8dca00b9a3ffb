import BrokerExec.Domain.Redaction
import BrokerExec.Domain.Types
import BrokerExec.Json.Text

/-!
# HTTP responses (`adapters/kite/http_client.hpp`)

What both REST clients read of an answer, and how they write a path segment. The JSON library is
a parameter: any function from a body to a value or to nothing.
-/

namespace BrokerExec.Adapters

open BrokerExec.Domain (isAlnum toLowerAscii)

/-- `json::parse(body, nullptr, false)`: nothing for a discarded text. -/
abbrev ParseJson := Bytes → Option Json.Value

structure HttpResponse where
  statusCode : Int
  headers : List (Bytes × Bytes)
  body : Bytes

/-- `find_header`: the first header of that name, whatever the case of its letters. -/
def HttpResponse.findHeader (r : HttpResponse) (name : Bytes) : Option Bytes :=
  (r.headers.find? fun kv => kv.1.map toLowerAscii == name.map toLowerAscii).map (·.2)

def HttpResponse.isSuccess (r : HttpResponse) : Bool :=
  200 ≤ r.statusCode && r.statusCode < 300

/-- `"HTTP " + std::to_string(status)`. -/
def HttpResponse.codeText (r : HttpResponse) : Bytes := ascii "HTTP " ++ decimal r.statusCode

/-! ## Percent encoding -/

/-- An uppercase hexadecimal digit. -/
def upperHexDigit (n : Nat) : UInt8 := UInt8.ofNat (if n < 10 then 48 + n else 55 + n)

/-- The bytes that need no encoding. -/
def isUnreserved (c : UInt8) : Bool :=
  isAlnum c || c == 0x2D || c == 0x5F || c == 0x2E || c == 0x7E

def urlEncode (s : Bytes) : Bytes :=
  s.flatMap fun c =>
    if isUnreserved c then [c]
    else [0x25, upperHexDigit (c.toNat / 16), upperHexDigit (c.toNat % 16)]

theorem urlEncode_of_unreserved {s : Bytes} (h : ∀ c ∈ s, isUnreserved c = true) :
    urlEncode s = s := by
  induction s with
  | nil => rfl
  | cons c s ih =>
    rw [urlEncode, List.flatMap_cons, if_pos (h c (by simp))]
    show c :: urlEncode s = c :: s
    rw [ih fun d hd => h d (List.mem_cons_of_mem c hd)]

end BrokerExec.Adapters
