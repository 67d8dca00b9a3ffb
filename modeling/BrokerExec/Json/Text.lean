import BrokerExec.Domain.Utf8

/-!
# JSON text, as `nlohmann::json` writes and reads it

The stores of this library write flat JSON objects whose values are strings and 64-bit
integers, always through `dump(-1, ' ', false, error_handler_t::replace)`. `dump` is that
writer: members in `std::map` (byte) order, no blanks, the short escapes, `\u00xx` for the
other control bytes, and U+FFFD for ill-formed UTF-8, which is what `canonicalText` does.

Reading is a parameter. A **`Parser`** is any `json::parse(…, nullptr, false)`: it gives a
value or discards the text, it reads back every dumped object with well-formed strings, it
discards every proper prefix of one, and the strings it gives are well-formed UTF-8.
`BrokerExec.Json.Reader` has a concrete parser.

* **`newline_notMem_dump`** — a dumped object is one line;
* **`dump_wellFormed`** — it is well-formed UTF-8;
* **`Parser.parse_dump_canonical`** — parsing it gives the object with its strings normalised.
-/

namespace BrokerExec.Json

open BrokerExec.Domain (canonicalText canonicalText_of_wellFormed canonicalText_wellFormed)

/-- A parsed value. A floating-point number carries what `static_cast<std::int64_t>` makes
of it and the text `dump` gives for it, the only things the readers ever ask of one. -/
inductive Value where
  | null
  | bool (b : Bool)
  | int (i : Int)
  | float (truncated : Int) (text : Bytes)
  | string (s : Bytes)
  | array (elements : List Value)
  | object (members : List (Bytes × Value))

/-- The values this library writes. -/
inductive Scalar where
  | string (s : Bytes)
  | int (i : Int64)
  deriving DecidableEq

/-- A flat object, its members in key order. -/
abbrev Flat := List (Bytes × Scalar)

def Scalar.toValue : Scalar → Value
  | .string s => .string s
  | .int i => .int i.toInt

def Flat.members (o : Flat) : List (Bytes × Value) := o.map fun m => (m.1, m.2.toValue)

/-! ## The writer -/

/-- A lowercase hexadecimal digit. -/
def hexDigit (n : Nat) : UInt8 := UInt8.ofNat (if n < 10 then 48 + n else 87 + n)

/-- One byte of a string body: the short escapes, `\u00xx` below `0x20`, else itself. -/
def escapeByte (b : UInt8) : Bytes :=
  if b = 0x08 then ascii "\\b"
  else if b = 0x09 then ascii "\\t"
  else if b = 0x0A then ascii "\\n"
  else if b = 0x0C then ascii "\\f"
  else if b = 0x0D then ascii "\\r"
  else if b = 0x22 then ascii "\\\""
  else if b = 0x5C then ascii "\\\\"
  else if b < 0x20 then ascii "\\u00" ++ [hexDigit (b.toNat / 16), hexDigit (b.toNat % 16)]
  else [b]

def escape (s : Bytes) : Bytes := s.flatMap escapeByte

/-- A string with its quotes; ill-formed UTF-8 goes through the `replace` handler. -/
def dumpString (s : Bytes) : Bytes := 0x22 :: (escape (canonicalText s) ++ [0x22])

def dumpScalar : Scalar → Bytes
  | .string s => dumpString s
  | .int i => decimal i.toInt

def dumpMember (m : Bytes × Scalar) : Bytes := dumpString m.1 ++ 0x3A :: dumpScalar m.2

/-- The members with a comma between each two. -/
def dumpMembers : Flat → Bytes
  | [] => []
  | [m] => dumpMember m
  | m :: m' :: rest => dumpMember m ++ 0x2C :: dumpMembers (m' :: rest)

/-- `dump` of a flat object. -/
def dump (o : Flat) : Bytes := 0x7B :: (dumpMembers o ++ [0x7D])

/-! ## A dumped object is one line -/

theorem newline_notMem_escapeByte (b : UInt8) : newline ∉ escapeByte b := by
  have hhex : ∀ n < 16, newline ≠ hexDigit n := by decide
  unfold escapeByte
  split_ifs with h1 h2 h3 h4 h5 h6 h7 h8
  · decide
  · decide
  · decide
  · decide
  · decide
  · decide
  · decide
  · have hdiv : b.toNat / 16 < 16 := Nat.div_lt_of_lt_mul b.toNat_lt
    have hmod : b.toNat % 16 < 16 := Nat.mod_lt _ (by omega)
    have hpre : newline ∉ ascii "\\u00" := by decide
    simp [hpre, hhex _ hdiv, hhex _ hmod]
  · simpa [newline] using Ne.symm h3

theorem newline_notMem_dumpString (s : Bytes) : newline ∉ dumpString s := by
  have hbody : newline ∉ escape (canonicalText s) := by
    intro h
    obtain ⟨b, -, hb⟩ := List.mem_flatMap.mp h
    exact newline_notMem_escapeByte b hb
  have hquote : newline ≠ 0x22 := by decide
  simp [dumpString, hbody, hquote]

theorem newline_notMem_dumpMember (m : Bytes × Scalar) : newline ∉ dumpMember m := by
  have hcolon : newline ≠ 0x3A := by decide
  have hvalue : newline ∉ dumpScalar m.2 := by
    cases m.2 with
    | string s => exact newline_notMem_dumpString s
    | int i =>
      intro h
      rcases mem_decimal h with h | h
      · exact absurd h (by decide)
      · exact absurd h (by decide)
  simp [dumpMember, newline_notMem_dumpString, hcolon, hvalue]

/-- **A dumped object is one line**: its text has no newline byte. -/
theorem newline_notMem_dump (o : Flat) : newline ∉ dump o := by
  have hcomma : newline ≠ 0x2C := by decide
  have hbraces : newline ≠ 0x7B ∧ newline ≠ 0x7D := by decide
  have hmembers : newline ∉ dumpMembers o := by
    induction o using dumpMembers.induct with
    | case1 => simp [dumpMembers]
    | case2 m => exact newline_notMem_dumpMember m
    | case3 m m' rest ih => simp [dumpMembers, newline_notMem_dumpMember, hcomma, ih]
  simp [dump, hbraces, hmembers]

theorem dump_ne_nil (o : Flat) : dump o ≠ [] := by simp [dump]

/-! ## A dumped object is well-formed UTF-8 -/

theorem escapeByte_wellFormed {b : UInt8} (hb : b < 0x80) : WellFormed (escapeByte b) := by
  have hhex : ∀ n < 16, hexDigit n < 0x80 := by decide
  apply WellFormed.of_ascii
  unfold escapeByte
  split_ifs with h1 h2 h3 h4 h5 h6 h7 h8
  · decide
  · decide
  · decide
  · decide
  · decide
  · decide
  · decide
  · have hdiv := hhex (b.toNat / 16) (Nat.div_lt_of_lt_mul b.toNat_lt)
    have hmod := hhex _ (Nat.mod_lt b.toNat (by omega))
    have hpre : ∀ c ∈ ascii "\\u00", c < 0x80 := by decide
    intro c hc
    rcases List.mem_append.mp hc with hc | hc
    · exact hpre c hc
    · rcases List.mem_cons.mp hc with rfl | hc
      · exact hdiv
      · rw [List.mem_singleton.mp hc]
        exact hmod
  · simpa using hb

/-- A byte of a multi-byte sequence is copied. -/
theorem escapeByte_of_le {b : UInt8} (hb : 0x80 ≤ b) : escapeByte b = [b] := by
  have hne : ∀ {c : UInt8}, c < 0x80 → b ≠ c := fun hc h => absurd (h ▸ hb) (not_le.mpr hc)
  have hlt : ¬ b < 0x20 := fun h => absurd (lt_trans h (by decide)) (not_lt.mpr hb)
  rw [escapeByte, if_neg (hne (by decide)), if_neg (hne (by decide)), if_neg (hne (by decide)),
    if_neg (hne (by decide)), if_neg (hne (by decide)), if_neg (hne (by decide)),
    if_neg (hne (by decide)), if_neg hlt]

theorem escape_wellFormed {s : Bytes} (hs : WellFormed s) : WellFormed (escape s) := by
  induction hs with
  | nil => exact .nil
  | @cons c rest hc _ ih =>
    rw [escape, List.flatMap_append]
    refine WellFormed.append ?_ ih
    have hlead : ∀ {a : UInt8}, 0xC2 ≤ a → 0x80 ≤ a := fun h => le_trans (by decide) h
    have hlead' : ∀ {a : UInt8}, 0xE0 ≤ a → 0x80 ≤ a := fun h => le_trans (by decide) h
    have hlead'' : ∀ {a : UInt8}, 0xF0 ≤ a → 0x80 ≤ a := fun h => le_trans (by decide) h
    cases hc with
    | one ha => simpa using escapeByte_wellFormed ha
    | two ha ha' hb =>
      have hchar := WellFormed.cons (.two ha ha' hb) .nil
      simpa [escapeByte_of_le (hlead ha), escapeByte_of_le hb.1.1] using hchar
    | three ha ha' hb hc =>
      have hchar := WellFormed.cons (.three ha ha' hb hc) .nil
      simpa [escapeByte_of_le (hlead' ha), escapeByte_of_le hb.1.1, escapeByte_of_le hc.1]
        using hchar
    | four ha ha' hb hc hd =>
      have hchar := WellFormed.cons (.four ha ha' hb hc hd) .nil
      simpa [escapeByte_of_le (hlead'' ha), escapeByte_of_le hb.1.1, escapeByte_of_le hc.1,
        escapeByte_of_le hd.1] using hchar

/-- ASCII punctuation around well-formed text. -/
theorem wellFormed_cons_ascii {b : UInt8} (hb : b < 0x80) {s : Bytes} (hs : WellFormed s) :
    WellFormed (b :: s) :=
  WellFormed.cons (c := [b]) (.one hb) hs

theorem dumpString_wellFormed (s : Bytes) : WellFormed (dumpString s) :=
  wellFormed_cons_ascii (by decide)
    ((escape_wellFormed (canonicalText_wellFormed s)).append
      (wellFormed_cons_ascii (by decide) .nil))

theorem dumpScalar_wellFormed (v : Scalar) : WellFormed (dumpScalar v) := by
  cases v with
  | string s => exact dumpString_wellFormed s
  | int i =>
    apply WellFormed.of_ascii
    intro b hb
    rcases mem_decimal hb with h | rfl
    · simp only [isDigit, Bool.and_eq_true, decide_eq_true_eq] at h
      exact lt_of_le_of_lt h.2 (by decide)
    · decide

theorem dumpMember_wellFormed (m : Bytes × Scalar) : WellFormed (dumpMember m) :=
  (dumpString_wellFormed m.1).append (wellFormed_cons_ascii (by decide) (dumpScalar_wellFormed m.2))

/-- **A dumped object is well-formed UTF-8**, whatever bytes its strings hold. -/
theorem dump_wellFormed (o : Flat) : WellFormed (dump o) := by
  have hmembers : WellFormed (dumpMembers o) := by
    induction o using dumpMembers.induct with
    | case1 => exact .nil
    | case2 m => exact dumpMember_wellFormed m
    | case3 m m' rest ih =>
      exact (dumpMember_wellFormed m).append (wellFormed_cons_ascii (by decide) ih)
  exact wellFormed_cons_ascii (by decide)
    (hmembers.append (wellFormed_cons_ascii (by decide) .nil))

/-! ## Dumping normalises -/

def Scalar.canonical : Scalar → Scalar
  | .string s => .string (canonicalText s)
  | .int i => .int i

/-- The object with its string values normalised; keys are literals of the source. -/
def Flat.canonical (o : Flat) : Flat := o.map fun m => (m.1, m.2.canonical)

theorem dumpScalar_canonical (v : Scalar) : dumpScalar v.canonical = dumpScalar v := by
  cases v with
  | string s => simp [Scalar.canonical, dumpScalar, dumpString]
  | int i => rfl

theorem dump_canonical (o : Flat) : dump o.canonical = dump o := by
  have hmembers : dumpMembers o.canonical = dumpMembers o := by
    induction o using dumpMembers.induct with
    | case1 => rfl
    | case2 m => simp [Flat.canonical, dumpMembers, dumpMember, dumpScalar_canonical]
    | case3 m m' rest ih =>
      simp only [Flat.canonical, List.map_cons, dumpMembers, dumpMember, dumpScalar_canonical]
        at ih ⊢
      rw [ih]
  rw [dump, dump, hmembers]

/-! ## The reader, as a parameter -/

/-- The objects a parser must read back: keys strictly increasing as in a `std::map`, every
string well-formed UTF-8. -/
structure Flat.Readable (o : Flat) : Prop where
  sorted : (o.map Prod.fst).Pairwise (· < ·)
  keys : ∀ m ∈ o, WellFormed m.1
  strings : ∀ m ∈ o, ∀ s, m.2 = .string s → WellFormed s

/-- What this library relies on of `json::parse(…, nullptr, false)`. `none` is a discarded
parse. -/
structure Parser where
  parse : Bytes → Option Value
  /-- Dumping and parsing round-trips well-formed strings and 64-bit integers. -/
  parse_dump : ∀ o : Flat, o.Readable → parse (dump o) = some (.object o.members)
  /-- A proper prefix of a dumped object does not parse. -/
  parse_prefix : ∀ o : Flat, o.Readable → ∀ p, p <+: dump o → p ≠ dump o → parse p = none
  /-- A text with ill-formed UTF-8 in a string is discarded. -/
  parse_strings : ∀ text members, parse text = some (.object members) →
    ∀ key s, members.lookup key = some (.string s) → WellFormed s

/-- Parsing a dumped object gives the object with its strings normalised. -/
theorem Parser.parse_dump_canonical (parser : Parser) {o : Flat}
    (hsorted : (o.map Prod.fst).Pairwise (· < ·)) (hkeys : ∀ m ∈ o, WellFormed m.1) :
    parser.parse (dump o) = some (.object o.canonical.members) := by
  rw [← dump_canonical]
  refine parser.parse_dump _ ⟨?_, ?_, ?_⟩
  · rw [Flat.canonical, List.map_map]
    exact hsorted
  · intro m hm
    obtain ⟨n, hn, rfl⟩ := List.mem_map.mp hm
    exact hkeys n hn
  · intro m hm s hs
    obtain ⟨n, hn, rfl⟩ := List.mem_map.mp hm
    cases hv : n.2 with
    | string t =>
      rw [hv] at hs
      obtain rfl := Scalar.string.inj hs
      exact canonicalText_wellFormed t
    | int i =>
      rw [hv] at hs
      cases hs

/-! ## Typed access, as `value(key, default)`

`value` throws `type_error.302` on a present field of the wrong type. `none` is that throw. -/

/-- `value(key, std::string{})`. -/
def valueString (members : List (Bytes × Value)) (key : Bytes) : Option Bytes :=
  match members.lookup key with
  | none => some []
  | some (.string s) => some s
  | some _ => none

/-- `value(key, std::int64_t{0})`: any number converts, with `static_cast`'s wrap-around. -/
def valueInt64 (members : List (Bytes × Value)) (key : Bytes) : Option Int64 :=
  match members.lookup key with
  | none => some 0
  | some (.int i) => some (Int64.ofInt i)
  | some (.float i _) => some (Int64.ofInt i)
  | some _ => none

/-- `value(key, 0)`: as above for `int`, which also takes a boolean. -/
def valueInt32 (members : List (Bytes × Value)) (key : Bytes) : Option Int32 :=
  match members.lookup key with
  | none => some 0
  | some (.int i) => some (Int32.ofInt i)
  | some (.float i _) => some (Int32.ofInt i)
  | some (.bool b) => some (if b then 1 else 0)
  | some _ => none

/-! A field that was written is read back, whatever its place in the object. -/

theorem Flat.lookup_members {o : Flat} {key : Bytes} {v : Scalar} (h : o.lookup key = some v) :
    o.members.lookup key = some v.toValue := by
  induction o with
  | nil => simp at h
  | cons m o ih =>
    rw [List.lookup_cons] at h
    show List.lookup key ((m.1, m.2.toValue) :: Flat.members o) = _
    rw [List.lookup_cons]
    cases hk : key == m.1 with
    | true =>
      simp only [hk] at h ⊢
      rw [Option.some.inj h]
    | false =>
      simp only [hk] at h ⊢
      exact ih h

theorem Flat.valueString_members {o : Flat} {key s : Bytes}
    (h : o.lookup key = some (.string s)) : valueString o.members key = some s := by
  rw [valueString, Flat.lookup_members h]
  rfl

theorem Flat.valueInt64_members {o : Flat} {key : Bytes} {i : Int64}
    (h : o.lookup key = some (.int i)) : valueInt64 o.members key = some i := by
  rw [valueInt64, Flat.lookup_members h]
  simp [Scalar.toValue]

theorem Flat.valueInt32_members {o : Flat} {key : Bytes} {i : Int32}
    (h : o.lookup key = some (.int i.toInt64)) : valueInt32 o.members key = some i := by
  rw [valueInt32, Flat.lookup_members h]
  simp [Scalar.toValue]

end BrokerExec.Json
