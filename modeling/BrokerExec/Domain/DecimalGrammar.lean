import BrokerExec.Domain.DecimalPaise
import BrokerExec.Lib.Checked

/-!
# The texts that are amounts (`domain/decimal_paise.hpp`)

* **`Numeral`** is the grammar: an optional sign, and digits with at most one point among them;
  its value is the number truncated to paise.
* **`parseDecimalPaiseChecked`** is the same parse with every arithmetic operation checked.
* **`parseDecimalPaise_exact`** — no operation overflows, the texts that are read are the
  numerals that fit, with their value, and a rendered amount reads back.
-/

namespace BrokerExec.Domain

/-! ## The grammar -/

structure Numeral where
  /-- `some true` is a minus. -/
  sign : Option Bool
  whole : Bytes
  /-- What stands behind the point, where there is one. -/
  fraction : Option Bytes
  isDigit_whole : ∀ c ∈ whole, isDigit c = true
  isDigit_fraction : ∀ c ∈ fraction.getD [], isDigit c = true
  some_digit : whole ++ fraction.getD [] ≠ []

namespace Numeral

def signText : Option Bool → Bytes
  | none => []
  | some false => [0x2B]
  | some true => [0x2D]

def text (n : Numeral) : Bytes :=
  signText n.sign ++ n.whole ++ (n.fraction.map fun digits => 0x2E :: digits).getD []

/-- The number `digits / 10 ^ decimals`, a hundred times, and truncated. -/
def magnitude (n : Numeral) : Nat :=
  digitsValue (n.whole ++ n.fraction.getD []) * 100 / 10 ^ (n.fraction.getD []).length

def paise (n : Numeral) : Int := signed (n.sign = some true) n.magnitude

end Numeral

/-! ## The arithmetic, operation by operation -/

/-- `push_digit`. -/
def pushDigitChecked (value : Int) (digit : UInt8) : Except Overflow (Option Int) := do
  let d ← checked (digit.toNat - 48)
  let room ← checked (kInt64Max - d)
  if room / 10 < value then return none
  else
    let scaled ← checked (value * 10)
    let next ← checked (scaled + d)
    return some next

/-- The loop up to the point: the rupees, whether a digit was met, and the text from the point. -/
def readWhole : Int → Bool → Bytes → Except Overflow (Option (Int × Bool × Bytes))
  | rupees, anyDigit, [] => return some (rupees, anyDigit, [])
  | rupees, anyDigit, c :: cs =>
    if c = 0x2E then return some (rupees, anyDigit, c :: cs)
    else if isDigit c = false then return none
    else do
      match ← pushDigitChecked rupees c with
      | none => return none
      | some rupees => readWhole rupees true cs

/-- The loop behind the point; digits beyond the second are read and dropped. -/
def readFraction : Int → Nat → Bool → Bytes → Except Overflow (Option (Int × Nat × Bool))
  | frac, fracDigits, anyDigit, [] => return some (frac, fracDigits, anyDigit)
  | frac, fracDigits, _, c :: cs =>
    if isDigit c = false then return none
    else if fracDigits < 2 then do
      let scaled ← checked (frac * 10)
      let next ← checked (scaled + (c.toNat - 48))
      readFraction next (fracDigits + 1) true cs
    else readFraction frac fracDigits true cs

/-- `while (frac_digits < 2)`, for the digits that are missing. -/
def padFraction : Int → Nat → Except Overflow Int
  | frac, 0 => return frac
  | frac, missing + 1 => do
    let scaled ← checked (frac * 10)
    padFraction scaled missing

/-- `parse_decimal_paise`, every operation checked. -/
def parseDecimalPaiseChecked (text : Bytes) : Except Overflow (Option Int) := do
  let s := trimAscii text
  if s = [] then return none
  else
    let (negative, body) := readSign s
    match ← readWhole 0 false body with
    | none => return none
    | some (rupees, anyDigit, rest) =>
      match ← readFraction 0 0 anyDigit (rest.drop 1) with
      | none => return none
      | some (frac, fracDigits, anyDigit) =>
        if anyDigit = false then return none
        else
          let frac ← padFraction frac (2 - fracDigits)
          let room ← checked (kInt64Max - frac)
          if room / 100 < rupees then return none
          else
            let scaled ← checked (rupees * 100)
            let paise ← checked (scaled + frac)
            if negative then
              let negated ← checked (-paise)
              return some negated
            else return some paise

example : parseDecimalPaiseChecked (ascii "-92233720368547758.079")
    = .ok (some (-(2 ^ 63 - 1))) := by decide

/-! ## No operation overflows -/

theorem digit_toNat {c : UInt8} (h : isDigit c = true) : 48 ≤ c.toNat ∧ c.toNat ≤ 57 := by
  simp only [isDigit, Bool.and_eq_true, decide_eq_true_eq, UInt8.le_iff_toNat_le] at h
  exact h

theorem pushDigitChecked_eq {value : Int} (hvalue : 0 ≤ value ∧ value ≤ kInt64Max) {c : UInt8}
    (hc : isDigit c = true) : pushDigitChecked value c = .ok (pushDigit value c) := by
  have hdigit := digit_toNat hc
  unfold pushDigitChecked pushDigit
  unfold kInt64Max at *
  rw [checked_bind (by unfold FitsInt64; omega), checked_bind (by unfold FitsInt64; omega)]
  dsimp only
  split_ifs with hroom
  · rfl
  · rw [checked_bind (by unfold FitsInt64; omega), checked_bind (by unfold FitsInt64; omega)]
    rfl

theorem pushDigit_bound {value next : Int} (hvalue : 0 ≤ value ∧ value ≤ kInt64Max) {c : UInt8}
    (hc : isDigit c = true) (h : pushDigit value c = some next) : 0 ≤ next ∧ next ≤ kInt64Max := by
  have hone : pushDigits value [c] = some next := by
    rw [pushDigits, if_neg (by simp [hc]), h]
    rfl
  exact pushDigits_bound hvalue hone

theorem readWhole_eq {rupees : Int} (hrupees : 0 ≤ rupees ∧ rupees ≤ kInt64Max) (anyDigit : Bool)
    (body : Bytes) :
    readWhole rupees anyDigit body
      = .ok ((pushDigits rupees (body.takeWhile (· ≠ 0x2E))).map fun value =>
          (value, anyDigit || !(body.takeWhile (· ≠ 0x2E)).isEmpty,
            body.drop (body.takeWhile (· ≠ 0x2E)).length)) := by
  induction body generalizing rupees anyDigit with
  | nil => simp [readWhole, pushDigits, pure, Except.pure]
  | cons c cs ih =>
    rw [readWhole]
    by_cases hpoint : c = 0x2E
    · simp [hpoint, pushDigits, pure, Except.pure]
    · rw [if_neg hpoint, List.takeWhile_cons_of_pos (by simpa using hpoint), pushDigits]
      by_cases hc : isDigit c = false
      · rw [if_pos hc, if_pos hc]
        rfl
      · rw [if_neg hc, if_neg hc, pushDigitChecked_eq hrupees (by simpa using hc)]
        cases hpush : pushDigit rupees c with
        | none => rfl
        | some value =>
          refine (ih (pushDigit_bound hrupees (by simpa using hc) hpush) true).trans ?_
          simp

/-- Past the second digit only the shape is read. -/
theorem readFraction_two (frac : Int) (anyDigit : Bool) (digits : Bytes) :
    readFraction frac 2 anyDigit digits
      = .ok (if digits.all isDigit then some (frac, 2, anyDigit || !digits.isEmpty) else none) := by
  induction digits generalizing anyDigit with
  | nil => simp [readFraction, pure, Except.pure]
  | cons c cs ih =>
    rw [readFraction]
    by_cases hc : isDigit c = false
    · simp [hc, pure, Except.pure]
    · rw [if_neg hc, if_neg (by omega), ih]
      simp [by simpa using hc]

/-- One of the first two digits. -/
theorem readFraction_cons {frac : Int} {fracDigits : Nat} (hfrac : 0 ≤ frac ∧ frac < 10)
    (hcount : fracDigits < 2) (anyDigit : Bool) {c : UInt8} (hc : isDigit c = true) (cs : Bytes) :
    readFraction frac fracDigits anyDigit (c :: cs)
      = readFraction (frac * 10 + (c.toNat - 48)) (fracDigits + 1) true cs := by
  have hdigit := digit_toNat hc
  rw [readFraction, if_neg (by simp [hc]), if_pos hcount,
    checked_bind (by unfold FitsInt64; omega), checked_bind (by unfold FitsInt64; omega)]

theorem fractionPaise_one {a : UInt8} (ha : 48 ≤ a.toNat) :
    fractionPaise [a] = (a.toNat - 48) * 10 := by
  simp only [fractionPaise, digitsValue, List.cons_append, List.nil_append, List.take_succ_cons,
    List.take_zero, List.foldl_cons, List.foldl_nil]
  have hzero : (0x30 : UInt8).toNat = 48 := rfl
  omega

theorem fractionPaise_two {a b : UInt8} (ha : 48 ≤ a.toNat) (hb : 48 ≤ b.toNat) (rest : Bytes) :
    fractionPaise (a :: b :: rest) = (a.toNat - 48) * 10 + (b.toNat - 48) := by
  simp only [fractionPaise, digitsValue, List.cons_append, List.take_succ_cons,
    List.take_zero, List.foldl_cons, List.foldl_nil]
  omega

theorem readFraction_eq (anyDigit : Bool) {digits : Bytes} (h : digits.all isDigit = true) :
    ∃ frac fracDigits,
      readFraction 0 0 anyDigit digits
          = .ok (some (frac, fracDigits, anyDigit || !digits.isEmpty))
        ∧ padFraction frac (2 - fracDigits) = .ok (fractionPaise digits) := by
  rw [List.all_eq_true] at h
  match digits, h with
  | [], _ =>
    refine ⟨0, 0, ?_, rfl⟩
    rw [List.isEmpty_nil, Bool.not_true, Bool.or_false]
    rfl
  | [a], h =>
    have ha := digit_toNat (h a (by simp))
    refine ⟨a.toNat - 48, 1, ?_, ?_⟩
    · rw [readFraction_cons (by omega) (by omega) _ (h a (by simp))]
      simp [readFraction, pure, Except.pure]
    · rw [fractionPaise_one ha.1, padFraction, checked_bind (by unfold FitsInt64; omega)]
      rfl
  | a :: b :: rest, h =>
    have ha := digit_toNat (h a (by simp))
    have hb := digit_toNat (h b (by simp))
    refine ⟨(a.toNat - 48) * 10 + (b.toNat - 48), 2, ?_, ?_⟩
    · rw [readFraction_cons (by omega) (by omega) _ (h a (by simp)),
        readFraction_cons (by omega) (by omega) _ (h b (by simp)), readFraction_two,
        if_pos (List.all_eq_true.mpr fun c hc => h c (by simp [hc]))]
      simp
    · rw [fractionPaise_two ha.1 hb.1]
      rfl

theorem readFraction_none {frac : Int} {fracDigits : Nat}
    (hfrac : 0 ≤ frac ∧ frac < 10 ^ fracDigits) (hcount : fracDigits ≤ 2) (anyDigit : Bool)
    {digits : Bytes} (h : digits.all isDigit = false) :
    readFraction frac fracDigits anyDigit digits = .ok none := by
  induction digits generalizing frac fracDigits anyDigit with
  | nil => cases h
  | cons c cs ih =>
    by_cases hc : isDigit c = true
    · have hcs : cs.all isDigit = false := by simpa [hc] using h
      have hdigit := digit_toNat hc
      rcases Nat.lt_or_ge fracDigits 2 with hlt | hge
      · have hsmall : frac < 10 ∧ frac * 10 + (c.toNat - 48) < 10 ^ (fracDigits + 1) := by
          rcases (by omega : fracDigits = 0 ∨ fracDigits = 1) with rfl | rfl <;> omega
        rw [readFraction_cons ⟨hfrac.1, hsmall.1⟩ hlt _ hc]
        exact ih ⟨by omega, hsmall.2⟩ hlt true hcs
      · obtain rfl : fracDigits = 2 := by omega
        rw [readFraction_two, h]
        rfl
    · rw [readFraction, if_pos (by simpa using hc)]
      rfl

theorem fractionPaise_bound {digits : Bytes} (h : digits.all isDigit = true) :
    0 ≤ fractionPaise digits ∧ fractionPaise digits < 100 := by
  refine ⟨digitsValue_nonneg _, ?_⟩
  have hdigits : ∀ c ∈ (digits ++ [0x30, 0x30]).take 2, isDigit c = true := by
    intro c hc
    rcases List.mem_append.mp (List.mem_of_mem_take hc) with hc | hc
    · exact List.all_eq_true.mp h c hc
    · have hzero : c = 0x30 := by simpa using hc
      rw [hzero]
      decide
  have hlt := digitsValue_lt hdigits
  have hlength : ((digits ++ [0x30, 0x30]).take 2).length = 2 := by simp
  rw [hlength] at hlt
  unfold fractionPaise
  omega

/-- **No operation overflows.** -/
theorem parseDecimalPaiseChecked_eq (text : Bytes) :
    parseDecimalPaiseChecked text = .ok (parseDecimalPaise text) := by
  unfold parseDecimalPaiseChecked parseDecimalPaise
  dsimp only
  by_cases hempty : trimAscii text = []
  · rw [hempty]
    rfl
  · rw [if_neg hempty]
    obtain ⟨negative, body⟩ := readSign (trimAscii text)
    dsimp only
    rw [readWhole_eq ⟨Int.le_refl 0, by decide⟩]
    generalize body.takeWhile (· ≠ 0x2E) = whole
    cases hrupees : pushDigits 0 whole with
    | none => rfl
    | some rupees =>
      have hbound := pushDigits_bound ⟨Int.le_refl 0, by decide⟩ hrupees
      simp only [Option.map_some, Except.bind, bind]
      generalize (body.drop whole.length).drop 1 = fraction
      cases hfraction : fraction.all isDigit with
      | false =>
        rw [readFraction_none ⟨Int.le_refl 0, by decide⟩ (by omega) _ hfraction]
        simp [pure, Except.pure]
      | true =>
        have hpaise := fractionPaise_bound hfraction
        obtain ⟨frac, fracDigits, hread, hpad⟩ :=
          readFraction_eq (false || !whole.isEmpty) hfraction
        rw [hread]
        by_cases hnone : whole = [] ∧ fraction = []
        · rw [hnone.1, hnone.2]
          rfl
        · have hany : (false || !whole.isEmpty || !fraction.isEmpty) = true := by
            simpa [or_iff_not_imp_left] using hnone
          have hroom : FitsInt64 (kInt64Max - fractionPaise fraction) := by
            unfold FitsInt64 kInt64Max
            omega
          rw [if_neg (by simpa using hnone)]
          simp only [hany, Bool.true_eq_false, if_false, hpad, checked_eq_ok hroom]
          by_cases hover : (kInt64Max - fractionPaise fraction) / 100 < rupees
          · rw [if_pos hover, if_pos hover]
            rfl
          · rw [if_neg hover, if_neg hover]
            unfold kInt64Max at hover hbound
            simp only [checked_eq_ok (m := rupees * 100) (by unfold FitsInt64; omega),
              checked_eq_ok (m := rupees * 100 + fractionPaise fraction)
                (by unfold FitsInt64; omega),
              checked_eq_ok (m := -(rupees * 100 + fractionPaise fraction))
                (by unfold FitsInt64; omega)]
            cases negative <;> rfl

/-! ## What is read -/

/-- Digits are read when their number fits. -/
theorem pushDigits_eq (value : Nat) (hvalue : (value : Int) ≤ kInt64Max) (digits : Bytes) :
    pushDigits value digits
      = if digits.all isDigit ∧ ((value * 10 ^ digits.length + digitsValue digits : Nat) : Int)
          ≤ kInt64Max then
        some ((value * 10 ^ digits.length + digitsValue digits : Nat) : Int)
      else none := by
  induction digits generalizing value with
  | nil => simp [pushDigits, digitsValue, hvalue]
  | cons c cs ih =>
    rw [pushDigits]
    by_cases hc : isDigit c = false
    · simp [hc]
    · rw [if_neg hc]
      have hdigit := digit_toNat (by simpa using hc)
      have hsum : value * 10 ^ (c :: cs).length + digitsValue (c :: cs)
          = (value * 10 + (c.toNat - 48)) * 10 ^ cs.length + digitsValue cs := by
        rw [digitsValue_cons, List.length_cons, Nat.pow_succ]
        ring
      have hall : (c :: cs).all isDigit = cs.all isDigit := by simp [by simpa using hc]
      rw [hsum, hall, pushDigit]
      unfold kInt64Max at *
      split_ifs with hroom hfits hfits
      · -- the number only grows
        have hgrows := Nat.le_mul_of_pos_right (value * 10 + (c.toNat - 48))
          (Nat.pow_pos (n := cs.length) (by omega : 0 < 10))
        omega
      · rfl
      · have hnext : (value : Int) * 10 + (c.toNat - 48) = (value * 10 + (c.toNat - 48) : Nat) := by
          omega
        dsimp only
        rw [hnext, ih _ (by omega), if_pos hfits]
      · have hnext : (value : Int) * 10 + (c.toNat - 48) = (value * 10 + (c.toNat - 48) : Nat) := by
          omega
        dsimp only
        rw [hnext, ih _ (by omega), if_neg hfits]

/-- Truncated to paise, the number is its rupees and the first two digits behind the point. -/
theorem magnitude_split (whole : Bytes) {fraction : Bytes}
    (h : ∀ c ∈ fraction, isDigit c = true) :
    ((digitsValue (whole ++ fraction) * 100 / 10 ^ fraction.length : Nat) : Int)
      = digitsValue whole * 100 + fractionPaise fraction := by
  have hpow : 0 < 10 ^ fraction.length := Nat.pow_pos (by omega)
  have hpaise : ((digitsValue fraction * 100 / 10 ^ fraction.length : Nat) : Int)
      = fractionPaise fraction := by
    match fraction, h with
    | [], _ => rfl
    | [a], h =>
      have ha := digit_toNat (h a (by simp))
      rw [fractionPaise_one ha.1]
      simp only [digitsValue, List.foldl_cons, List.foldl_nil, List.length_singleton]
      omega
    | a :: b :: rest, h =>
      have ha := digit_toNat (h a (by simp))
      have hb := digit_toNat (h b (by simp))
      have hrest : digitsValue rest < 10 ^ rest.length :=
        digitsValue_lt fun c hc => h c (by simp [hc])
      have hvalue : digitsValue (a :: b :: rest) * 100
          = ((a.toNat - 48) * 10 + (b.toNat - 48)) * 10 ^ (a :: b :: rest).length
            + digitsValue rest * 100 := by
        simp only [digitsValue_cons, List.length_cons, Nat.pow_succ]
        ring
      have hsmall : digitsValue rest * 100 < 10 ^ (a :: b :: rest).length := by
        rw [List.length_cons, List.length_cons, Nat.pow_succ, Nat.pow_succ]
        omega
      rw [fractionPaise_two ha.1 hb.1, hvalue, Nat.add_comm, Nat.add_mul_div_right _ _ hpow,
        Nat.div_eq_of_lt hsmall]
      omega
  have hvalue : digitsValue (whole ++ fraction) * 100
      = digitsValue fraction * 100 + digitsValue whole * 100 * 10 ^ fraction.length := by
    rw [digitsValue_append]
    ring
  rw [hvalue, Nat.add_mul_div_right _ _ hpow, Nat.cast_add, hpaise, Nat.cast_mul]
  exact Int.add_comm _ _

/-- The text of a numeral behind its sign. -/
def Numeral.body (n : Numeral) : Bytes :=
  n.whole ++ (n.fraction.map fun digits => 0x2E :: digits).getD []

theorem not_isDigit_point : ¬ isDigit 0x2E = true := by decide

/-- What follows the digits of the rupees is no digit. -/
theorem Numeral.body_cut (n : Numeral) :
    n.body.takeWhile (· ≠ 0x2E) = n.whole
      ∧ (n.body.drop n.whole.length).drop 1 = n.fraction.getD [] := by
  have hwhole : ∀ c ∈ n.whole, decide (c ≠ 0x2E) = true := by
    intro c hc
    have hdigit := n.isDigit_whole c hc
    rw [decide_eq_true_eq]
    rintro rfl
    exact not_isDigit_point hdigit
  unfold Numeral.body
  refine ⟨?_, ?_⟩
  · rw [List.takeWhile_append_of_pos hwhole]
    cases n.fraction <;> simp
  · rw [List.drop_left]
    cases n.fraction <;> simp

theorem Numeral.readSign_text (n : Numeral) :
    readSign n.text = (decide (n.sign = some true), n.body) := by
  have htext : n.text = signText n.sign ++ n.body := List.append_assoc _ _ _
  rw [htext]
  cases hsign : n.sign with
  | some minus => cases minus <;> rfl
  | none =>
    -- an unsigned numeral begins with a digit or the point
    have hhead : ∀ c ∈ n.body.head?, isDigit c = true ∨ c = 0x2E := by
      intro c hc
      unfold Numeral.body at hc
      cases hwhole : n.whole with
      | nil =>
        rw [hwhole, List.nil_append] at hc
        cases hfraction : n.fraction with
        | none =>
          rw [hfraction] at hc
          cases hc
        | some digits =>
          rw [hfraction] at hc
          exact .inr (Option.some.inj hc).symm
      | cons d ds =>
        rw [hwhole] at hc
        obtain rfl := Option.some.inj hc
        exact .inl (n.isDigit_whole _ (by rw [hwhole]; exact List.mem_cons_self))
    show readSign n.body = _
    rcases hbody : n.body with _ | ⟨c, cs⟩
    · rfl
    · rw [hbody] at hhead
      have hc := hhead c rfl
      unfold readSign
      split
      · rename_i heq
        obtain ⟨rfl, -⟩ := List.cons.inj heq
        exact absurd hc (by decide)
      · rename_i heq
        obtain ⟨rfl, -⟩ := List.cons.inj heq
        exact absurd hc (by decide)
      · rfl

/-- A numeral is read when its magnitude fits. -/
theorem parseDecimalPaise_text {text : Bytes} {n : Numeral} (h : trimAscii text = n.text) :
    parseDecimalPaise text
      = if (n.magnitude : Int) ≤ kInt64Max then some n.paise else none := by
  have hfraction : (n.fraction.getD []).all isDigit = true :=
    List.all_eq_true.mpr n.isDigit_fraction
  have hsome : ¬ ((n.fraction.getD []).all isDigit = false
      ∨ n.whole = [] ∧ n.fraction.getD [] = []) := by
    rintro (hbad | ⟨hwhole, hnone⟩)
    · rw [hfraction] at hbad
      cases hbad
    · exact n.some_digit (by rw [hwhole, hnone]; rfl)
  have hmagnitude : (n.magnitude : Int)
      = digitsValue n.whole * 100 + fractionPaise (n.fraction.getD []) :=
    magnitude_split n.whole n.isDigit_fraction
  have hpaise := fractionPaise_bound hfraction
  have hdigits := pushDigits_eq 0 (by decide) n.whole
  rw [Nat.zero_mul, Nat.zero_add, List.all_eq_true.mpr n.isDigit_whole, Nat.cast_zero] at hdigits
  unfold parseDecimalPaise
  rw [h, n.readSign_text]
  dsimp only
  rw [n.body_cut.1, n.body_cut.2, hdigits]
  unfold Numeral.paise
  rw [hmagnitude]
  by_cases hrupees : (digitsValue n.whole : Int) ≤ kInt64Max
  · rw [if_pos ⟨rfl, hrupees⟩]
    dsimp only
    rw [if_neg hsome]
    unfold kInt64Max
    split_ifs with hroom hfits hfits
    · omega
    · rfl
    · rfl
    · omega
  · rw [if_neg (by simpa using hrupees)]
    unfold kInt64Max at *
    rw [if_neg (by omega)]

/-- A numeral without a point is read as a count when its digits fit. -/
theorem parseInt64_text {text : Bytes} {n : Numeral} (h : trimAscii text = n.text) :
    parseInt64 text
      = if n.fraction = none ∧ (digitsValue n.whole : Int) ≤ kInt64Max then
          some (signed (n.sign = some true) (digitsValue n.whole))
        else none := by
  have hdigits := pushDigits_eq 0 (by decide) n.body
  rw [Nat.zero_mul, Nat.zero_add, Nat.cast_zero] at hdigits
  unfold parseInt64
  rw [h, n.readSign_text]
  dsimp only
  rw [hdigits]
  cases hfraction : n.fraction with
  | none =>
    have hbody : n.body = n.whole := by simp [Numeral.body, hfraction]
    have hne : n.whole ≠ [] := by simpa [hfraction] using n.some_digit
    rw [hbody, if_neg hne, List.all_eq_true.mpr n.isDigit_whole]
    simp only [true_and]
    split_ifs
    · rfl
    · rfl
  | some fraction =>
    -- the point is no digit
    have hall : n.body.all isDigit = false := by simp [Numeral.body, hfraction, isDigit]
    rw [hall]
    simp

theorem readSign_cut (text : Bytes) :
    ∃ sign, text = Numeral.signText sign ++ (readSign text).2 := by
  unfold readSign
  split
  · exact ⟨some false, rfl⟩
  · exact ⟨some true, rfl⟩
  · exact ⟨none, rfl⟩

/-- Only numerals are read. -/
theorem exists_numeral {text : Bytes} {value : Int} (h : parseDecimalPaise text = some value) :
    ∃ n : Numeral, trimAscii text = n.text := by
  obtain ⟨sign, hsign⟩ := readSign_cut (trimAscii text)
  unfold parseDecimalPaise at h
  dsimp only at h
  generalize (readSign (trimAscii text)).2 = body at h hsign
  have hcut := List.takeWhile_append_dropWhile (p := (· ≠ 0x2E)) (l := body)
  have hpoint := List.head?_dropWhile_not (· ≠ (0x2E : UInt8)) body
  have hdrop : body.drop (body.takeWhile (· ≠ 0x2E)).length = body.dropWhile (· ≠ 0x2E) := by
    have hleft : (body.takeWhile (· ≠ 0x2E) ++ body.dropWhile (· ≠ 0x2E)).drop
        (body.takeWhile (· ≠ 0x2E)).length = body.dropWhile (· ≠ 0x2E) := List.drop_left
    rwa [hcut] at hleft
  rw [hdrop] at h
  generalize body.takeWhile (· ≠ 0x2E) = whole at h hcut
  generalize body.dropWhile (· ≠ 0x2E) = rest at h hcut hpoint
  have hdigits := pushDigits_eq 0 (by decide) whole
  rw [Nat.cast_zero] at hdigits
  rw [hdigits] at h
  split_ifs at h with hwhole hbad
  rw [not_or, Bool.not_eq_false, List.all_eq_true] at hbad
  rw [List.all_eq_true] at hwhole
  rw [hsign, ← hcut]
  cases rest with
  | nil =>
    refine ⟨⟨sign, whole, none, hwhole.1, ?_, ?_⟩, ?_⟩
    · simp
    · simpa using hbad.2
    · simp [Numeral.text]
  | cons c fraction =>
    obtain rfl : c = 0x2E := by simpa using hpoint
    refine ⟨⟨sign, whole, some fraction, hwhole.1, hbad.1, ?_⟩, ?_⟩
    · simpa using hbad.2
    · simp [Numeral.text]

/-- A count that is read is a numeral without a point. -/
theorem exists_numeral_int64 {text : Bytes} {value : Int} (h : parseInt64 text = some value) :
    ∃ n : Numeral, trimAscii text = n.text ∧ n.fraction = none := by
  obtain ⟨sign, hsign⟩ := readSign_cut (trimAscii text)
  unfold parseInt64 at h
  dsimp only at h
  generalize (readSign (trimAscii text)).2 = body at h hsign
  have hdigits := pushDigits_eq 0 (by decide) body
  rw [Nat.cast_zero] at hdigits
  rw [hdigits] at h
  split_ifs at h with hempty hread
  · refine ⟨⟨sign, body, none, List.all_eq_true.mp hread.1, ?_, ?_⟩, ?_, rfl⟩
    · simp
    · simpa using hempty
    · simp [Numeral.text, hsign]
  · cases h

/-- A text is one numeral at most, up to a sign that says nothing. -/
theorem Numeral.text_inj {m n : Numeral} (h : m.text = n.text) :
    decide (m.sign = some true) = decide (n.sign = some true) ∧ m.whole = n.whole
      ∧ m.fraction.getD [] = n.fraction.getD [] := by
  have hread := m.readSign_text
  rw [h, n.readSign_text] at hread
  obtain ⟨hsign, hbody⟩ := Prod.mk.inj hread
  have hwhole : m.whole = n.whole := by rw [← m.body_cut.1, ← hbody, n.body_cut.1]
  refine ⟨hsign.symm, hwhole, ?_⟩
  rw [← m.body_cut.2, hwhole, ← hbody, n.body_cut.2]

theorem toNat_eq_zero_digit {c : UInt8} : c.toNat = 48 ↔ c = 0x30 :=
  ⟨fun h => UInt8.toNat_inj.mp h, fun h => by rw [h]; rfl⟩

/-- A fraction is worth no paise when its first two digits are zeros. -/
theorem fractionPaise_eq_zero_iff {fraction : Bytes} (h : ∀ c ∈ fraction, isDigit c = true) :
    fractionPaise fraction = 0 ↔ ∀ c ∈ fraction.take 2, c = 0x30 := by
  match fraction, h with
  | [], _ => simp [fractionPaise, digitsValue]
  | [a], h =>
    have ha := digit_toNat (h a (by simp))
    rw [fractionPaise_one ha.1]
    simp only [List.take_succ_cons, List.take_nil, List.mem_singleton, forall_eq,
      ← toNat_eq_zero_digit]
    omega
  | a :: b :: rest, h =>
    have ha := digit_toNat (h a (by simp))
    have hb := digit_toNat (h b (by simp))
    rw [fractionPaise_two ha.1 hb.1]
    simp only [List.take_succ_cons, List.take_zero, List.forall_mem_cons, List.not_mem_nil,
      false_imp_iff, implies_true, and_true, ← toNat_eq_zero_digit]
    omega

theorem isDigit_pad {m : Nat} {c : UInt8}
    (hc : c ∈ (if m < 10 then [0x30] else []) ++ decimalNat m) : isDigit c = true := by
  rcases List.mem_append.mp hc with hc | hc
  · split_ifs at hc
    · obtain rfl := List.mem_singleton.mp hc
      decide
    · cases hc
  · exact mem_decimalNat hc

theorem digitsValue_pad (m : Nat) :
    digitsValue ((if m < 10 then [0x30] else []) ++ decimalNat m) = m := by
  rw [digitsValue_append, digitsValue_decimalNat]
  split_ifs <;> simp [digitsValue]

/-- Two digits are written. -/
theorem length_pad {m : Nat} (h : m < 100) :
    ((if m < 10 then [0x30] else []) ++ decimalNat m).length = 2 := by
  rw [List.length_append, decimalNat, List.length_map]
  split_ifs with hsmall
  · rw [Nat.toDigits_of_lt_base hsmall]
    rfl
  · rw [Nat.toDigits_of_base_le (by omega) (by omega), Nat.toDigits_of_lt_base (by omega)]
    rfl

theorem not_isAsciiSpace {c : UInt8} (h : isDigit c = true ∨ c = 0x2D ∨ c = 0x2E) :
    isAsciiSpace c = false := by
  rcases h with hdigit | rfl | rfl
  · have hrange := digit_toNat hdigit
    simp only [isAsciiSpace, Bool.or_eq_false_iff, beq_eq_false_iff_ne, ne_eq, ← UInt8.toNat_inj]
    refine ⟨⟨⟨?_, ?_⟩, ?_⟩, ?_⟩
    all_goals
      intro heq
      rw [heq] at hrange
      exact absurd hrange (by decide)
  · decide
  · decide

theorem trimAscii_eq_self {text : Bytes} (h : ∀ c ∈ text, isAsciiSpace c = false) :
    trimAscii text = text := by
  have hdrop : ∀ s : Bytes, (∀ c ∈ s, isAsciiSpace c = false) → s.dropWhile isAsciiSpace = s := by
    intro s hs
    cases s with
    | nil => rfl
    | cons c cs => rw [List.dropWhile_cons_of_neg (by simp [hs c List.mem_cons_self])]
  unfold trimAscii
  rw [hdrop text h, hdrop text.reverse fun c hc => h c (List.mem_reverse.mp hc),
    List.reverse_reverse]

/-- A rendered amount is a numeral, and its value is the amount. -/
theorem exists_numeral_paiseToDecimal (paise : Int64) :
    ∃ n : Numeral, trimAscii (paiseToDecimal paise) = n.text
      ∧ n.magnitude = paise.toInt.natAbs ∧ n.paise = paise.toInt := by
  have hsign : paise < 0 ↔ paise.toInt < 0 := Int64.lt_iff_toInt_lt
  have hplain : ∀ c ∈ paiseToDecimal paise, isAsciiSpace c = false := by
    intro c hc
    have hchar : isDigit c = true ∨ c = 0x2D ∨ c = 0x2E := by
      unfold paiseToDecimal at hc
      dsimp only at hc
      rw [List.append_assoc, List.mem_append, List.mem_append, List.mem_append] at hc
      rcases hc with ((hc | hc) | hc) | hc
      · split_ifs at hc
        · exact .inr (.inl (List.mem_singleton.mp hc))
        · cases hc
      · exact .inl (mem_decimalNat hc)
      · exact .inr (.inr (List.mem_singleton.mp hc))
      · exact .inl (isDigit_pad hc)
    exact not_isAsciiSpace hchar
  let n : Numeral :=
    { sign := if paise < 0 then some true else none
      whole := decimalNat (paise.toInt.natAbs / 100)
      fraction := some ((if paise.toInt.natAbs % 100 < 10 then [0x30] else [])
        ++ decimalNat (paise.toInt.natAbs % 100))
      isDigit_whole := fun c hc => mem_decimalNat hc
      isDigit_fraction := fun c hc => isDigit_pad hc
      some_digit := by simp [decimalNat_ne_nil] }
  have hmagnitude : n.magnitude = paise.toInt.natAbs := by
    show digitsValue (decimalNat _ ++ (_ ++ decimalNat _)) * 100 / 10 ^ List.length (_ ++ _) = _
    rw [digitsValue_append, length_pad (by omega), digitsValue_pad, digitsValue_decimalNat]
    omega
  refine ⟨n, ?_, hmagnitude, ?_⟩
  · rw [trimAscii_eq_self hplain]
    unfold paiseToDecimal
    dsimp only [n, Numeral.text]
    by_cases hneg : paise < 0 <;> simp [hneg, Numeral.signText]
  · unfold Numeral.paise
    rw [hmagnitude]
    by_cases hneg : paise < 0
    · have hbelow := hsign.mp hneg
      simp only [n, if_pos hneg, signed, decide_true, if_true]
      omega
    · have habove := mt hsign.mpr hneg
      simp only [n, if_neg hneg, signed, reduceCtorEq, decide_false, Bool.false_eq_true, if_false]
      omega

/-- **Money is read exactly.** -/
theorem parseDecimalPaise_exact :
    (∀ text, parseDecimalPaiseChecked text = .ok (parseDecimalPaise text))
      ∧ (∀ text value, parseDecimalPaise text = some value ↔
        ∃ n : Numeral, trimAscii text = n.text ∧ (n.magnitude : Int) ≤ kInt64Max
          ∧ value = n.paise)
      ∧ ∀ paise : Int64, paise ≠ Int64.minValue →
        parseDecimalPaise (paiseToDecimal paise) = some paise.toInt := by
  refine ⟨parseDecimalPaiseChecked_eq, fun text value => ⟨fun h => ?_, ?_⟩, fun paise hmin => ?_⟩
  · obtain ⟨n, hn⟩ := exists_numeral h
    rw [parseDecimalPaise_text hn] at h
    split_ifs at h with hfits
    exact ⟨n, hn, hfits, (Option.some.inj h).symm⟩
  · rintro ⟨n, hn, hfits, rfl⟩
    rw [parseDecimalPaise_text hn, if_pos hfits]
  · obtain ⟨n, hn, hmagnitude, hpaise⟩ := exists_numeral_paiseToDecimal paise
    have hlow := paise.le_toInt
    have hhigh := paise.toInt_lt
    have hne : paise.toInt ≠ -2 ^ 63 := fun h => hmin (Int64.toInt_inj.mp h)
    rw [parseDecimalPaise_text hn, if_pos (by unfold kInt64Max; omega), hpaise]

end BrokerExec.Domain
