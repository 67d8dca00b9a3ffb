import BrokerExec.Lib.Bytes

/-!
# Redaction (`domain/redaction.cpp`)

`scrub` replaces token-shaped runs and the values of sensitive keys by a fixed marker. A
provenance column is exempt when the whole column has the shape of an identifier, and
`renderProvenanceBlock` prints the columns behind a body as ` [key=value …]`.

The scanner of `scrub` carries what it has read, nearest byte first, because two of its
rules look back: a run starts only behind a non-token byte, and a short digit run is a
secret only when an auth keyword stands in the ten bytes before it.
-/

namespace BrokerExec.Domain

def kRedactionMarker : Bytes := ascii "***REDACTED***"

/-! ## Character classes -/

def toLowerAscii (c : UInt8) : UInt8 := if 65 ≤ c ∧ c ≤ 90 then c - 65 + 97 else c

theorem toLowerAscii_not_upper (c : UInt8) : ¬ (65 ≤ toLowerAscii c ∧ toLowerAscii c ≤ 90) := by
  unfold toLowerAscii
  split_ifs with h
  · rw [UInt8.le_iff_toNat_le, UInt8.le_iff_toNat_le, UInt8.toNat_add,
      UInt8.toNat_sub_of_le _ _ h.1]
    have hupper := UInt8.le_iff_toNat_le.mp h.2
    have hlower := UInt8.le_iff_toNat_le.mp h.1
    simp at hupper hlower ⊢
    omega
  · exact h

def isUpperLetter (c : UInt8) : Bool := 65 ≤ c && c ≤ 90

def isLetter (c : UInt8) : Bool := isUpperLetter c || (97 ≤ c && c ≤ 122)

def isHexDigit (c : UInt8) : Bool :=
  isDigit c || (97 ≤ c && c ≤ 102) || (65 ≤ c && c ≤ 70)

def isAlnum (c : UInt8) : Bool := isLetter c || isDigit c

/-- `[A-Za-z0-9_-]`. -/
def isTokenChar (c : UInt8) : Bool := isLetter c || isDigit c || c == 0x5F || c == 0x2D

/-- The token characters and `#`. -/
def isProvenanceIdChar (c : UInt8) : Bool := isTokenChar c || c == 0x23

/-- Space, `\t`, `\r`, `\n`, `\f`, `\v`. -/
def isSpace (c : UInt8) : Bool := [0x20, 0x09, 0x0D, 0x0A, 0x0C, 0x0B].contains c

/-- What ends an unquoted value: white space and punctuation. -/
def isValueDelim (c : UInt8) : Bool :=
  isSpace c ||
    [0x26, 0x2C, 0x3B, 0x22, 0x27, 0x7D, 0x5D, 0x29, 0x3C, 0x3E, 0x7C].contains c

def isQuote (c : UInt8) : Bool := c == 0x22 || c == 0x27

/-! ## Keys and contexts -/

def kSensitiveKeyNeedles : List Bytes :=
  ["token", "secret", "password", "api_key", "api-key", "apikey", "mpin", "totp",
    "bearer"].map ascii

def keyIsSensitive (key : Bytes) : Bool :=
  kSensitiveKeyNeedles.any fun needle => decide (needle <:+: key.map toLowerAscii)

def kAuthContextNeedles : List Bytes := ["mpin", "totp", "otp", "pin"].map ascii

/-- `needle` stands at offset `i` of the window, with no letter right before or behind it. -/
def standsAlone (window needle : Bytes) (i : Nat) : Bool :=
  ((window.drop i).take needle.length).map toLowerAscii == needle
    && (i == 0 || !isLetter (window.getD (i - 1) 0))
    && (i + needle.length == window.length || !isLetter (window.getD (i + needle.length) 0))

/-- An auth keyword among the ten bytes read last; `back` holds them nearest first. -/
def authContextBefore (back : Bytes) : Bool :=
  let window := (back.take 10).reverse
  kAuthContextNeedles.any fun needle =>
    decide (needle.length ≤ window.length)
      && (List.range (window.length - needle.length + 1)).any (standsAlone window needle)

def runHasLetterAndDigit (run : Bytes) : Bool := run.any isLetter && run.any isDigit

def runIsAllDigits (run : Bytes) : Bool := run.all isDigit && !run.isEmpty

/-! ## The scanner -/

/-- The marker in place of a non-empty value. -/
def redacted (value : Bytes) : Bytes := if value = [] then [] else kRedactionMarker

/-- `key=value` with a sensitive key at the front of `s`: what is emitted for it and how many
bytes it takes. A quoted value ends before its closing quote. -/
def tryKeyValue (s : Bytes) : Option (Bytes × Nat) :=
  let key := s.takeWhile isTokenChar
  if key = [] ∨ keyIsSensitive key = false then none
  else
    let closing := ((s.drop key.length).take 1).takeWhile isQuote
    let blanks := (s.drop (key ++ closing).length).takeWhile isSpace
    match s.drop (key ++ closing ++ blanks).length with
    | [] => none
    | separator :: behind =>
      if separator ≠ 0x3A ∧ separator ≠ 0x3D then none
      else
        let padding := behind.takeWhile isSpace
        let front := key ++ closing ++ blanks ++ separator :: padding
        let unquoted :=
          let value := (behind.drop padding.length).takeWhile fun c => !isValueDelim c
          some (front ++ redacted value, front.length + value.length)
        match behind.drop padding.length with
        | [] => unquoted
        | quote :: rest =>
          if isQuote quote then
            let value := rest.takeWhile (· ≠ quote)
            some (front ++ quote :: redacted value, front.length + 1 + value.length)
          else unquoted

/-- What a token run that is no sensitive key becomes. -/
def scrubRun (back run : Bytes) : Bytes :=
  if 20 ≤ run.length ∧ runHasLetterAndDigit run then kRedactionMarker
  else if 4 ≤ run.length ∧ run.length ≤ 8 ∧ runIsAllDigits run ∧ authContextBefore back then
    kRedactionMarker
  else run

/-- The loop of `scrub`. `back` is the text already read, nearest byte first. -/
def scrubLoop : Nat → Bytes → Bytes → Bytes
  | 0, _, _ => []
  | _ + 1, _, [] => []
  | fuel + 1, back, c :: cs =>
    if isTokenChar c && !(back.head?.any isTokenChar) then
      match tryKeyValue (c :: cs) with
      | some (emitted, size) =>
        emitted ++ scrubLoop fuel (((c :: cs).take size).reverse ++ back) ((c :: cs).drop size)
      | none =>
        let run := (c :: cs).takeWhile isTokenChar
        scrubRun back run ++ scrubLoop fuel (run.reverse ++ back) ((c :: cs).drop run.length)
    else c :: scrubLoop fuel (c :: back) cs

def scrub (text : Bytes) : Bytes := scrubLoop text.length [] text

example : scrub (ascii "mpin=1234 order 42") = ascii "mpin=***REDACTED*** order 42" := by decide

/-! ## Provenance columns -/

def kMaxProvenanceIdChars : Nat := 128

def kMaxInstrumentSymbolChars : Nat := 32

/-- The loop of `is_provenance_id_shape`. -/
def idShapeLoop : Bytes → Nat → (inSegment allLetters allHex : Bool) → Bool
  | [], segments, _, _, _ => 2 ≤ segments
  | c :: cs, segments, inSegment, allLetters, allHex =>
    if isProvenanceIdChar c = false then false
    else if isAlnum c then
      let letters := (!inSegment || allLetters) && isLetter c
      let hex := (!inSegment || allHex) && isHexDigit c
      if letters = false ∧ hex = false then false
      else idShapeLoop cs (if inSegment then segments else segments + 1) true letters hex
    else idShapeLoop cs segments false allLetters allHex

def isProvenanceIdShape (value : Bytes) : Bool :=
  if value = [] ∨ kMaxProvenanceIdChars < value.length then false
  else idShapeLoop value 0 false false false

def scrubProvenanceColumn (value : Bytes) : Bytes :=
  if isProvenanceIdShape value then value else scrub value

def isInstrumentSymbolShape (value : Bytes) : Bool :=
  if value = [] ∨ kMaxInstrumentSymbolChars < value.length then false
  else value.all fun c => isUpperLetter c || isDigit c

def scrubSymbolColumn (value : Bytes) : Bytes :=
  if isInstrumentSymbolShape value then value else scrub value

/-! ## The provenance block -/

inductive ProvenanceKind where
  | id
  | symbol
  deriving DecidableEq

structure ProvenanceField where
  key : Bytes
  value : Bytes
  kind : ProvenanceKind

/-- No byte that could end the block, forge a field or break the line. -/
def isBlockSafe (rendered : Bytes) : Bool :=
  rendered.all fun c => isProvenanceIdChar c || c == 0x2A

def isBlockSafeKey (key : Bytes) : Bool := !key.isEmpty && key.all isProvenanceIdChar

def renderColumn (field : ProvenanceField) : Bytes :=
  match field.kind with
  | .symbol => scrubSymbolColumn field.value
  | .id => scrubProvenanceColumn field.value

/-- `key=value` of one column; an oversized or unsafe rendering gives way to the marker. -/
def renderField (field : ProvenanceField) : Bytes :=
  let rendered := renderColumn field
  field.key ++ ascii "=" ++
    (if kMaxProvenanceIdChars < rendered.length ∨ isBlockSafe rendered = false then
      kRedactionMarker
    else rendered)

/-- The loop of `render_provenance_block`: an empty column or an unsafe key is left out. -/
def renderFields : List ProvenanceField → Bytes → Bytes
  | [], block => block
  | field :: fields, block =>
    if field.value = [] ∨ isBlockSafeKey field.key = false then renderFields fields block
    else
      renderFields fields
        (block ++ (if block = [] then ascii " [" else ascii " ") ++ renderField field)

def renderProvenanceBlock (fields : List ProvenanceField) : Bytes :=
  let block := renderFields fields []
  if block = [] then [] else block ++ ascii "]"

end BrokerExec.Domain
