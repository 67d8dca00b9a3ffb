import BrokerExec.Lib.Bytes

/-!
# Decimal text and paise (`domain/decimal_paise.hpp`)

Counts and rupee amounts on a broker's wire are text. A text that cannot be read exactly,
an overflow included, is no number.

* **`parseInt64_bound`**, **`parseDecimalPaise_bound`** — what is read fits in 64 bits.
-/

namespace BrokerExec.Domain

/-- `std::numeric_limits<std::int64_t>::max()`. -/
def kInt64Max : Int := 2 ^ 63 - 1

def isAsciiSpace (c : UInt8) : Bool := c == 0x20 || c == 0x09 || c == 0x0D || c == 0x0A

def trimAscii (s : Bytes) : Bytes :=
  ((s.dropWhile isAsciiSpace).reverse.dropWhile isAsciiSpace).reverse

/-- `push_digit`: one digit more, unless the value would leave the range. -/
def pushDigit (value : Int) (digit : UInt8) : Option Int :=
  let d : Int := digit.toNat - 48
  if (kInt64Max - d) / 10 < value then none else some (value * 10 + d)

/-- The digits behind an accumulator; any other byte is a failure. -/
def pushDigits : Int → Bytes → Option Int
  | value, [] => some value
  | value, c :: cs =>
    if isDigit c = false then none
    else
      match pushDigit value c with
      | none => none
      | some value => pushDigits value cs

/-- The sign, if there is one, and the text behind it. -/
def readSign : Bytes → Bool × Bytes
  | 0x2B :: body => (false, body)
  | 0x2D :: body => (true, body)
  | body => (false, body)

def signed (negative : Bool) (value : Int) : Int := if negative then -value else value

def parseInt64 (text : Bytes) : Option Int :=
  let (negative, body) := readSign (trimAscii text)
  if body = [] then none else (pushDigits 0 body).map (signed negative)

/-- Up to two digits of the fraction, padded to two. -/
def fractionPaise (fraction : Bytes) : Int := digitsValue ((fraction ++ [0x30, 0x30]).take 2)

def parseDecimalPaise (text : Bytes) : Option Int :=
  let (negative, body) := readSign (trimAscii text)
  let whole := body.takeWhile (· ≠ 0x2E)
  let fraction := (body.drop whole.length).drop 1
  match pushDigits 0 whole with
  | none => none
  | some rupees =>
    if fraction.all isDigit = false ∨ whole = [] ∧ fraction = [] then none
    else if (kInt64Max - fractionPaise fraction) / 100 < rupees then none
    else some (signed negative (rupees * 100 + fractionPaise fraction))

/-- `paise_to_decimal`. -/
def paiseToDecimal (paise : Int64) : Bytes :=
  let magnitude := paise.toInt.natAbs
  (if paise < 0 then [0x2D] else []) ++ decimalNat (magnitude / 100) ++ [0x2E]
    ++ (if magnitude % 100 < 10 then [0x30] else []) ++ decimalNat (magnitude % 100)

example : parseDecimalPaise (ascii " -1450.5 ") = some (-145050) := by decide

/-! ## What is read fits -/

theorem pushDigits_bound {value result : Int} {digits : Bytes}
    (hvalue : 0 ≤ value ∧ value ≤ kInt64Max)
    (h : pushDigits value digits = some result) : 0 ≤ result ∧ result ≤ kInt64Max := by
  induction digits generalizing value with
  | nil =>
    obtain rfl := Option.some.inj h
    exact hvalue
  | cons c digits ih =>
    rw [pushDigits] at h
    split_ifs at h with hdigit
    cases hpush : pushDigit value c with
    | none =>
      rw [hpush] at h
      cases h
    | some next =>
      rw [hpush] at h
      refine ih ?_ h
      have hdigit : isDigit c = true := by simpa using hdigit
      simp only [isDigit, Bool.and_eq_true, decide_eq_true_eq, UInt8.le_iff_toNat_le] at hdigit
      have hlow : 48 ≤ c.toNat := hdigit.1
      rw [pushDigit] at hpush
      split_ifs at hpush with hfits
      have hnext := Option.some.inj hpush
      omega

theorem signed_bound {value : Int} (h : 0 ≤ value ∧ value ≤ kInt64Max) (negative : Bool) :
    -kInt64Max ≤ signed negative value ∧ signed negative value ≤ kInt64Max := by
  unfold signed
  split <;> omega

theorem parseInt64_bound {text : Bytes} {value : Int} (h : parseInt64 text = some value) :
    -kInt64Max ≤ value ∧ value ≤ kInt64Max := by
  unfold parseInt64 at h
  dsimp only at h
  split_ifs at h
  obtain ⟨magnitude, hdigits, rfl⟩ := Option.map_eq_some_iff.mp h
  exact signed_bound (pushDigits_bound ⟨Int.le_refl 0, by decide⟩ hdigits) _

theorem digitsValue_nonneg (digits : Bytes) : (0 : Int) ≤ digitsValue digits :=
  Int.natCast_nonneg _

theorem parseDecimalPaise_bound {text : Bytes} {value : Int}
    (h : parseDecimalPaise text = some value) : -kInt64Max ≤ value ∧ value ≤ kInt64Max := by
  unfold parseDecimalPaise at h
  dsimp only at h
  split at h
  · cases h
  · rename_i rupees hwhole
    split_ifs at h with hfraction hfits
    obtain rfl := Option.some.inj h
    have hrupees := pushDigits_bound ⟨Int.le_refl 0, by decide⟩ hwhole
    refine signed_bound ⟨?_, by omega⟩ _
    have hpaise : 0 ≤ fractionPaise ((readSign (trimAscii text)).2.drop
        ((readSign (trimAscii text)).2.takeWhile (· ≠ 0x2E)).length |>.drop 1) :=
      digitsValue_nonneg _
    omega

end BrokerExec.Domain
