import BrokerExec.Json.Text

/-!
# A concrete parser for flat JSON objects

`reader` is a `Parser`: an executable reader of flat objects with string and integer
members, enough for every text this library writes. It shows that what the development
assumes of `json::parse` is satisfiable, and the concrete runs of the other modules read
through it.

The argument for the prefix law is **locality**: a reader that succeeds on a text does the
same, with more left over, on every extension of that text (`Local`). A proper prefix of a
dumped object that parsed would therefore leave the missing bytes unread in the whole text.
-/

namespace BrokerExec.Json

open BrokerExec.Domain (canonicalText canonicalText_of_wellFormed canonicalText_wellFormed)

/-! ## Readers and locality -/

/-- A reader consumes a front part of its input. -/
abbrev Reader (α : Type) := Bytes → Option (α × Bytes)

/-- Run one reader after another. -/
def Reader.andThen {α β : Type} (p : Reader α) (f : α → Reader β) : Reader β := fun s =>
  match p s with
  | none => none
  | some (a, rest) => f a rest

/-- A successful read does not look behind what it consumed. -/
def Local {α : Type} (p : Reader α) : Prop :=
  ∀ s a rest, p s = some (a, rest) → ∀ t, p (s ++ t) = some (a, rest ++ t)

theorem Local.andThen {α β : Type} {p : Reader α} {f : α → Reader β}
    (hp : Local p) (hf : ∀ a, Local (f a)) : Local (p.andThen f) := by
  intro s b rest h t
  unfold Reader.andThen at h ⊢
  cases hps : p s with
  | none => simp [hps] at h
  | some r =>
    obtain ⟨a, mid⟩ := r
    simp only [hps] at h
    rw [hp s a mid hps t]
    exact hf a mid b rest h t

/-- Read exactly the byte `b`. -/
def expect (b : UInt8) : Reader Unit
  | [] => none
  | c :: rest => if c = b then some ((), rest) else none

/-- Read any byte. -/
def anyByte : Reader UInt8
  | [] => none
  | c :: rest => some (c, rest)

/-- Read nothing. -/
def done {α : Type} (a : α) : Reader α := fun s => some (a, s)

/-- Refuse. -/
def refuse {α : Type} : Reader α := fun _ => none

theorem local_expect (b : UInt8) : Local (expect b) := by
  intro s a rest h t
  cases s with
  | nil => simp [expect] at h
  | cons c s =>
    simp only [expect, List.cons_append] at h ⊢
    split at h
    · next hc =>
      obtain ⟨-, rfl⟩ := Prod.mk.inj (Option.some.inj h)
      rw [if_pos hc]
    · simp at h

theorem local_anyByte : Local anyByte := by
  intro s a rest h t
  cases s with
  | nil => simp [anyByte] at h
  | cons c s =>
    obtain ⟨rfl, rfl⟩ := Prod.mk.inj (Option.some.inj h)
    rfl

theorem local_done {α : Type} (a : α) : Local (done a) := by
  intro s b rest h t
  obtain ⟨rfl, rfl⟩ := Prod.mk.inj (Option.some.inj h)
  rfl

theorem local_refuse {α : Type} : Local (refuse : Reader α) := by
  intro s a rest h
  simp [refuse] at h

/-! ## Strings -/

/-- The value of a hexadecimal digit. -/
def hexValue (b : UInt8) : Option Nat :=
  if 48 ≤ b ∧ b ≤ 57 then some (b.toNat - 48)
  else if 97 ≤ b ∧ b ≤ 102 then some (b.toNat - 87)
  else none

/-- The byte behind a short escape. -/
def unescape (b : UInt8) : Option UInt8 :=
  if b = 98 then some 0x08
  else if b = 116 then some 0x09
  else if b = 110 then some 0x0A
  else if b = 102 then some 0x0C
  else if b = 114 then some 0x0D
  else if b = 34 then some 0x22
  else if b = 92 then some 0x5C
  else none

/-- The two hexadecimal digits after `\u00`. -/
def readHexPair : Reader UInt8 :=
  (expect 48).andThen fun _ => (expect 48).andThen fun _ =>
    anyByte.andThen fun h => anyByte.andThen fun l =>
      match hexValue h, hexValue l with
      | some m, some n => done (UInt8.ofNat (16 * m + n))
      | _, _ => refuse

/-- What follows a backslash. -/
def readEscape : Reader UInt8 :=
  anyByte.andThen fun e =>
    if e = 117 then readHexPair
    else
      match unescape e with
      | some c => done c
      | none => refuse

/-- One byte of a string body; `none` inside is the closing quote. -/
def readStringByte : Reader (Option UInt8) :=
  anyByte.andThen fun b =>
    if b = 0x22 then done none
    else if b = 0x5C then readEscape.andThen fun c => done (some c)
    else if b < 0x20 then refuse
    else done (some b)

/-- A string body up to and with its closing quote, at most `fuel` bytes. -/
def readBody : Nat → Reader Bytes
  | 0 => refuse
  | fuel + 1 =>
    readStringByte.andThen fun
      | none => done []
      | some b => (readBody fuel).andThen fun s => done (b :: s)

theorem local_readHexPair : Local readHexPair := by
  refine (local_expect 48).andThen fun _ => (local_expect 48).andThen fun _ =>
    local_anyByte.andThen fun h => local_anyByte.andThen fun l => ?_
  split
  · exact local_done _
  · exact local_refuse

theorem local_readEscape : Local readEscape := by
  refine local_anyByte.andThen fun e => ?_
  split
  · exact local_readHexPair
  · split
    · exact local_done _
    · exact local_refuse

theorem local_readStringByte : Local readStringByte := by
  refine local_anyByte.andThen fun b => ?_
  split_ifs
  · exact local_done _
  · exact local_readEscape.andThen fun _ => local_done _
  · exact local_refuse
  · exact local_done _

theorem local_readBody (fuel : Nat) : Local (readBody fuel) := by
  induction fuel with
  | zero => exact local_refuse
  | succ fuel ih =>
    refine local_readStringByte.andThen fun b => ?_
    cases b with
    | none => exact local_done _
    | some b => exact ih.andThen fun _ => local_done _

/-- Reading one escaped byte gives the byte back. -/
theorem readStringByte_escapeByte (b : UInt8) (t : Bytes) :
    readStringByte (escapeByte b ++ t) = some (some b, t) := by
  have hcontrol : ∀ n < 32, (n ≠ 8 ∧ n ≠ 9 ∧ n ≠ 10 ∧ n ≠ 12 ∧ n ≠ 13) →
      (hexValue (hexDigit (n / 16))).bind (fun m =>
        (hexValue (hexDigit (n % 16))).map fun k => 16 * m + k) = some n := by decide
  unfold escapeByte
  split_ifs with h1 h2 h3 h4 h5 h6 h7 h8
  · subst h1; rfl
  · subst h2; rfl
  · subst h3; rfl
  · subst h4; rfl
  · subst h5; rfl
  · subst h6; rfl
  · subst h7; rfl
  · have hlt : b.toNat < 32 := UInt8.lt_iff_toNat_lt.mp h8
    have hne : ∀ {k : UInt8}, ¬ b = k → b.toNat ≠ k.toNat :=
      fun h hk => h (UInt8.toNat_inj.mp hk)
    have h := hcontrol b.toNat hlt ⟨hne h1, hne h2, hne h3, hne h4, hne h5⟩
    obtain ⟨m, hm, h⟩ := Option.bind_eq_some_iff.mp h
    obtain ⟨k, hk, hmk⟩ := Option.map_eq_some_iff.mp h
    have hpre : ascii "\\u00" = [0x5C, 117, 48, 48] := by decide
    simp [hpre, readStringByte, readEscape, readHexPair, Reader.andThen, anyByte, expect, hm, hk,
      done, hmk]
  · simp [readStringByte, Reader.andThen, anyByte, h6, h7, h8, done]

/-- Reading an escaped string gives the string back, and stops behind its quote. -/
theorem readBody_escape (s t : Bytes) (fuel : Nat) (hfuel : s.length < fuel) :
    readBody fuel (escape s ++ 0x22 :: t) = some (s, t) := by
  induction s generalizing fuel with
  | nil =>
    cases fuel with
    | zero => simp at hfuel
    | succ fuel => rfl
  | cons b s ih =>
    cases fuel with
    | zero => simp at hfuel
    | succ fuel =>
      simp only [List.length_cons] at hfuel
      have hrest := ih fuel (by omega)
      simp only [escape, List.flatMap_cons, List.append_assoc] at hrest ⊢
      simp only [readBody, Reader.andThen, readStringByte_escapeByte, hrest]
      rfl

/-! ## Integers and members -/

/-- Look at the next byte. -/
def peek : Reader UInt8
  | [] => none
  | c :: rest => some (c, c :: rest)

/-- A run of digits. Another byte must follow it: at the end of a text the run could go on. -/
def readDigits : Reader Nat := fun s =>
  if s.takeWhile isDigit = [] ∨ s.dropWhile isDigit = [] then none
  else some (digitsValue (s.takeWhile isDigit), s.dropWhile isDigit)

def readValue (fuel : Nat) : Reader Value :=
  peek.andThen fun b =>
    if b = 0x22 then
      (expect 0x22).andThen fun _ => (readBody fuel).andThen fun s => done (.string s)
    else if b = 45 then
      (expect 45).andThen fun _ => readDigits.andThen fun n => done (.int (-n))
    else readDigits.andThen fun n => done (.int n)

def readMember (fuel : Nat) : Reader (Bytes × Value) :=
  (expect 0x22).andThen fun _ => (readBody fuel).andThen fun k =>
    (expect 0x3A).andThen fun _ => (readValue fuel).andThen fun v => done (k, v)

/-- Members with commas between them, up to and with the closing brace. -/
def readMembers : Nat → Reader (List (Bytes × Value))
  | 0 => refuse
  | fuel + 1 =>
    (readMember fuel).andThen fun m =>
      anyByte.andThen fun b =>
        if b = 0x7D then done [m]
        else if b = 0x2C then (readMembers fuel).andThen fun ms => done (m :: ms)
        else refuse

def readObject (fuel : Nat) : Reader (List (Bytes × Value)) :=
  (expect 0x7B).andThen fun _ => peek.andThen fun b =>
    if b = 0x7D then (expect 0x7D).andThen fun _ => done [] else readMembers fuel

/-- Strings are valid UTF-8. -/
def validValue : Value → Bool
  | .string s => decide (canonicalText s = s)
  | _ => true

/-- One object of valid values and nothing behind it. -/
def readText (text : Bytes) : Option Value :=
  match readObject text.length text with
  | some (ms, []) => if ms.all fun m => validValue m.2 then some (.object ms) else none
  | _ => none

theorem wellFormed_of_validValue {s : Bytes} (h : validValue (.string s) = true) :
    WellFormed s := by
  rw [← of_decide_eq_true h]
  exact canonicalText_wellFormed s

theorem Flat.Readable.all_validValue {o : Flat} (ho : o.Readable) :
    (o.members.all fun m => validValue m.2) = true := by
  rw [List.all_eq_true]
  intro m hm
  obtain ⟨n, hn, rfl⟩ := List.mem_map.mp hm
  cases hv : n.2 with
  | string s => exact decide_eq_true (canonicalText_of_wellFormed (ho.strings n hn s hv))
  | int i => rfl

/-- What `readText` accepts. -/
theorem readText_eq_some {text : Bytes} {v : Value} (h : readText text = some v) :
    ∃ ms, v = .object ms ∧ readObject text.length text = some (ms, [])
      ∧ (ms.all fun m => validValue m.2) = true := by
  unfold readText at h
  split at h
  · rename_i ms hms
    split_ifs at h with hvalid
    exact ⟨ms, (Option.some.inj h).symm, hms, hvalid⟩
  · cases h

theorem local_peek : Local peek := by
  intro s a rest h t
  cases s with
  | nil => simp [peek] at h
  | cons c s =>
    obtain ⟨rfl, rfl⟩ := Prod.mk.inj (Option.some.inj h)
    rfl

theorem local_readDigits : Local readDigits := by
  intro s n rest h t
  unfold readDigits at h ⊢
  split at h
  · simp at h
  next hs =>
  rw [not_or] at hs
  obtain ⟨rfl, rfl⟩ := Prod.mk.inj (Option.some.inj h)
  -- the run ends inside `s`, so `t` changes neither half of the cut
  have htake : (s ++ t).takeWhile isDigit = s.takeWhile isDigit := by
    have hlt : (s.takeWhile isDigit).length ≠ s.length := by
      intro hlen
      have hall := List.takeWhile_append_dropWhile (p := isDigit) (l := s)
      have := congrArg List.length hall
      rw [List.length_append] at this
      exact hs.2 (List.length_eq_zero_iff.mp (by omega))
    rw [List.takeWhile_append, if_neg hlt]
  have hdrop : (s ++ t).dropWhile isDigit = s.dropWhile isDigit ++ t := by
    rw [List.dropWhile_append, if_neg (by simpa using hs.2)]
  rw [htake, hdrop, if_neg (by simp [hs.1, hs.2])]

theorem local_readValue (fuel : Nat) : Local (readValue fuel) := by
  refine local_peek.andThen fun b => ?_
  split_ifs
  · exact (local_expect _).andThen fun _ => (local_readBody fuel).andThen fun _ => local_done _
  · exact (local_expect _).andThen fun _ => local_readDigits.andThen fun _ => local_done _
  · exact local_readDigits.andThen fun _ => local_done _

theorem local_readMember (fuel : Nat) : Local (readMember fuel) :=
  (local_expect _).andThen fun _ => (local_readBody fuel).andThen fun _ =>
    (local_expect _).andThen fun _ => (local_readValue fuel).andThen fun _ => local_done _

theorem local_readMembers (fuel : Nat) : Local (readMembers fuel) := by
  induction fuel with
  | zero => exact local_refuse
  | succ fuel ih =>
    refine (local_readMember fuel).andThen fun m => local_anyByte.andThen fun b => ?_
    split_ifs
    · exact local_done _
    · exact ih.andThen fun _ => local_done _
    · exact local_refuse

theorem local_readObject (fuel : Nat) : Local (readObject fuel) := by
  refine (local_expect _).andThen fun _ => local_peek.andThen fun b => ?_
  split_ifs
  · exact (local_expect _).andThen fun _ => local_done _
  · exact local_readMembers fuel

/-! ## More fuel changes no answer -/

/-- What is read with some fuel is read with more. -/
def Extends {α : Type} (p q : Reader α) : Prop := ∀ s r, p s = some r → q s = some r

theorem Extends.andThen {α β : Type} {p q : Reader α} {f g : α → Reader β}
    (hp : Extends p q) (hf : ∀ a, Extends (f a) (g a)) : Extends (p.andThen f) (q.andThen g) := by
  intro s r h
  unfold Reader.andThen at h ⊢
  cases hps : p s with
  | none => simp [hps] at h
  | some m =>
    rw [hp s m hps]
    simp only [hps] at h
    exact hf m.1 m.2 r h

theorem Extends.refl {α : Type} (p : Reader α) : Extends p p := fun _ _ h => h

theorem refuse_extends {α : Type} (p : Reader α) : Extends refuse p := by
  intro s r h
  simp [refuse] at h

theorem readBody_extends {f g : Nat} (h : f ≤ g) : Extends (readBody f) (readBody g) := by
  induction f generalizing g with
  | zero => exact refuse_extends _
  | succ f ih =>
    obtain ⟨g, rfl⟩ : ∃ g', g = g' + 1 := ⟨g - 1, by omega⟩
    refine (Extends.refl _).andThen fun b => ?_
    cases b with
    | none => exact Extends.refl _
    | some b => exact (ih (by omega)).andThen fun _ => Extends.refl _

theorem readValue_extends {f g : Nat} (h : f ≤ g) : Extends (readValue f) (readValue g) := by
  refine (Extends.refl _).andThen fun b => ?_
  split_ifs
  · exact (Extends.refl _).andThen fun _ => (readBody_extends h).andThen fun _ => Extends.refl _
  · exact Extends.refl _
  · exact Extends.refl _

theorem readMember_extends {f g : Nat} (h : f ≤ g) : Extends (readMember f) (readMember g) :=
  (Extends.refl _).andThen fun _ => (readBody_extends h).andThen fun _ =>
    (Extends.refl _).andThen fun _ => (readValue_extends h).andThen fun _ => Extends.refl _

theorem readMembers_extends {f g : Nat} (h : f ≤ g) :
    Extends (readMembers f) (readMembers g) := by
  induction f generalizing g with
  | zero => exact refuse_extends _
  | succ f ih =>
    obtain ⟨g, rfl⟩ : ∃ g', g = g' + 1 := ⟨g - 1, by omega⟩
    refine (readMember_extends (by omega)).andThen fun m => (Extends.refl _).andThen fun b => ?_
    split_ifs
    · exact Extends.refl _
    · exact (ih (by omega)).andThen fun _ => Extends.refl _
    · exact Extends.refl _

theorem readObject_extends {f g : Nat} (h : f ≤ g) : Extends (readObject f) (readObject g) := by
  refine (Extends.refl _).andThen fun _ => (Extends.refl _).andThen fun b => ?_
  split_ifs
  · exact Extends.refl _
  · exact readMembers_extends h

/-! ## Reading back what `dump` wrote -/

theorem length_le_escape (s : Bytes) : s.length ≤ (escape s).length := by
  induction s with
  | nil => exact Nat.le_refl _
  | cons b s ih =>
    have hb : 1 ≤ (escapeByte b).length := by
      unfold escapeByte
      split_ifs <;> simp [ascii]
    rw [escape, List.flatMap_cons, List.length_append, List.length_cons]
    exact Nat.add_comm s.length 1 ▸ Nat.add_le_add hb ih

theorem readDigits_decimalNat (n : Nat) {c : UInt8} (hc : isDigit c = false) (t : Bytes) :
    readDigits (decimalNat n ++ c :: t) = some (n, c :: t) := by
  have hall : ∀ b ∈ decimalNat n, isDigit b = true := fun b hb => mem_decimalNat hb
  have htake : (decimalNat n ++ c :: t).takeWhile isDigit = decimalNat n := by
    rw [List.takeWhile_append_of_pos hall, List.takeWhile_cons_of_neg (by simp [hc]),
      List.append_nil]
  have hdrop : (decimalNat n ++ c :: t).dropWhile isDigit = c :: t := by
    rw [List.dropWhile_append_of_pos hall, List.dropWhile_cons_of_neg (by simp [hc])]
  rw [readDigits, htake, hdrop, if_neg (by simp [decimalNat_ne_nil]), digitsValue_decimalNat]

/-- A value is read back when a byte that is not a digit follows it. -/
theorem readValue_dumpScalar {v : Scalar} (hv : ∀ s, v = .string s → WellFormed s)
    {c : UInt8} (hc : isDigit c = false) (t : Bytes) (fuel : Nat)
    (hfuel : (dumpScalar v).length ≤ fuel) :
    readValue fuel (dumpScalar v ++ c :: t) = some (v.toValue, c :: t) := by
  cases v with
  | string s =>
    have hs : canonicalText s = s := canonicalText_of_wellFormed (hv s rfl)
    have hlen := length_le_escape s
    simp only [dumpScalar, dumpString, hs, List.length_cons, List.length_append] at hfuel ⊢
    have hbody := readBody_escape s (c :: t) fuel (by omega)
    simp [readValue, Reader.andThen, peek, expect, hbody, done, Scalar.toValue]
  | int i =>
    cases hi : i.toInt with
    | ofNat n =>
      obtain ⟨b, ds, hds⟩ := List.exists_cons_of_ne_nil (decimalNat_ne_nil n)
      have hb : isDigit b = true := mem_decimalNat (n := n) (by simp [hds])
      have hquote : b ≠ 0x22 := by rintro rfl; exact absurd hb (by decide)
      have hminus : b ≠ 45 := by rintro rfl; exact absurd hb (by decide)
      have hread := readDigits_decimalNat n hc t
      rw [hds, List.cons_append] at hread
      simp [dumpScalar, hi, decimal, hds, readValue, Reader.andThen, peek, hquote, hminus, hread,
        done, Scalar.toValue]
    | negSucc n =>
      have hread := readDigits_decimalNat (n + 1) hc t
      have htext : dumpScalar (.int i) = 45 :: decimalNat (n + 1) := by rw [dumpScalar, hi]; rfl
      have hval : Scalar.toValue (.int i) = .int (-((n + 1 : Nat) : Int)) := by
        rw [Scalar.toValue, hi]
        rfl
      rw [htext, hval, List.cons_append]
      simp [readValue, Reader.andThen, peek, expect, hread, done]

theorem readMember_dumpMember {m : Bytes × Scalar} (hk : WellFormed m.1)
    (hv : ∀ s, m.2 = .string s → WellFormed s) {c : UInt8} (hc : isDigit c = false) (t : Bytes)
    (fuel : Nat) (hfuel : (dumpMember m).length ≤ fuel) :
    readMember fuel (dumpMember m ++ c :: t) = some ((m.1, m.2.toValue), c :: t) := by
  have hkey : canonicalText m.1 = m.1 := canonicalText_of_wellFormed hk
  have hlen := length_le_escape m.1
  simp only [dumpMember, dumpString, hkey, List.length_cons, List.length_append] at hfuel
  have hbody := readBody_escape m.1 (0x3A :: (dumpScalar m.2 ++ c :: t)) fuel (by omega)
  have hvalue := readValue_dumpScalar hv hc t fuel (by omega)
  simp [dumpMember, dumpString, hkey, readMember, Reader.andThen, expect, hbody, hvalue, done]

theorem readMembers_dumpMembers {o : Flat} (hne : o ≠ []) (hk : ∀ m ∈ o, WellFormed m.1)
    (hv : ∀ m ∈ o, ∀ s, m.2 = .string s → WellFormed s) (fuel : Nat)
    (hfuel : (dumpMembers o).length < fuel) :
    readMembers fuel (dumpMembers o ++ [0x7D]) = some (o.members, []) := by
  induction o using dumpMembers.induct generalizing fuel with
  | case1 => exact absurd rfl hne
  | case2 m =>
    obtain ⟨fuel, rfl⟩ : ∃ f, fuel = f + 1 := ⟨fuel - 1, by omega⟩
    simp only [dumpMembers] at hfuel ⊢
    have hm := readMember_dumpMember (hk m (by simp)) (hv m (by simp)) (c := 0x7D) (by decide) []
      fuel (by omega)
    simp [readMembers, Reader.andThen, hm, anyByte, done, Flat.members]
  | case3 m m' rest ih =>
    obtain ⟨fuel, rfl⟩ : ∃ f, fuel = f + 1 := ⟨fuel - 1, by omega⟩
    simp only [dumpMembers, List.length_append, List.length_cons] at hfuel
    have hrest := ih (by simp) (fun n hn => hk n (List.mem_cons_of_mem m hn))
      (fun n hn => hv n (List.mem_cons_of_mem m hn)) fuel (by omega)
    have hm := readMember_dumpMember (hk m (by simp)) (hv m (by simp)) (c := 0x2C) (by decide)
      (dumpMembers (m' :: rest) ++ [0x7D]) fuel (by omega)
    rw [dumpMembers, List.append_assoc, List.cons_append]
    simp [readMembers, Reader.andThen, hm, anyByte, hrest, done, Flat.members]

theorem readObject_dump {o : Flat} (ho : o.Readable) {fuel : Nat}
    (hfuel : (dump o).length ≤ fuel) : readObject fuel (dump o) = some (o.members, []) := by
  cases o with
  | nil => rfl
  | cons m rest =>
    simp only [dump, List.length_cons, List.length_append] at hfuel
    have hms := readMembers_dumpMembers (by simp) ho.keys ho.strings fuel (by omega)
    -- a member starts with a quote, not with the closing brace
    obtain ⟨text, htext⟩ : ∃ text, dumpMembers (m :: rest) ++ [0x7D] = 0x22 :: text := by
      cases rest <;> exact ⟨_, rfl⟩
    rw [dump, htext]
    rw [htext] at hms
    simp [readObject, Reader.andThen, expect, peek, hms]

/-- **A parser of flat objects**, with the laws the stores rely on. -/
def reader : Parser where
  parse := readText
  parse_dump := by
    intro o ho
    simp only [readText, readObject_dump ho (Nat.le_refl _), ho.all_validValue, if_true]
  parse_prefix := by
    rintro o ho p ⟨t, hpt⟩ hne
    by_contra hsome
    obtain ⟨v, hv⟩ := Option.ne_none_iff_exists'.mp hsome
    obtain ⟨ms, -, hp, -⟩ := readText_eq_some hv
    -- with the whole text's fuel the prefix reads the same, and leaves `t` behind it
    have hle : p.length ≤ (dump o).length := by
      rw [← hpt, List.length_append]
      omega
    have hwhole := local_readObject _ p ms [] (readObject_extends hle _ _ hp) t
    rw [hpt, readObject_dump ho (Nat.le_refl _)] at hwhole
    obtain ⟨-, hnil⟩ := Prod.mk.inj (Option.some.inj hwhole)
    rw [← List.nil_append t, ← hnil, List.append_nil] at hpt
    exact hne hpt
  parse_strings := by
    intro text members h key s hs
    obtain ⟨ms, hms, -, hvalid⟩ := readText_eq_some h
    obtain rfl := Value.object.inj hms
    obtain ⟨front, back, rfl, -⟩ := List.lookup_eq_some_iff.mp hs
    exact wellFormed_of_validValue (List.all_eq_true.mp hvalid (key, .string s) (by simp))

end BrokerExec.Json
