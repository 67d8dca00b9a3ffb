import BrokerExec.Json.Nested
import BrokerExec.Json.Spot

/-!
# A dumped value is read

* **`read_dumpValue`** — the text that `dump` gives for a value is read as one.
* **`topKeys_dumpValue`** — the text for an object has the keys of the object.
-/

namespace BrokerExec.Json

open BrokerExec.Domain (canonicalText isHexDigit)

variable {s t : Spot} {c : UInt8}

/-! ## Numbers -/

/-- The text is a JSON number. -/
def isNumberText : Bytes → Bool
  | [] => false
  | c :: cs =>
    ((Numeral.start c).bind fun part => Automaton.run Numeral.step part cs).any Numeral.complete

mutual

/-- Every floating-point number in the value is written as a JSON number. -/
def Value.numeric : Value → Bool
  | .float _ text => isNumberText text
  | .array elements => numericElements elements
  | .object members => numericEntries members
  | _ => true

def numericElements : List Value → Bool
  | [] => true
  | v :: rest => v.numeric && numericElements rest

def numericEntries : List (Bytes × Value) → Bool
  | [] => true
  | (_, v) :: rest => v.numeric && numericEntries rest

end

theorem numericEntries_iff {members : List (Bytes × Value)} :
    numericEntries members = true ↔ ∀ m ∈ members, m.2.numeric = true := by
  induction members with
  | nil => simp [numericEntries]
  | cons m members ih => rw [numericEntries, Bool.and_eq_true, ih, List.forall_mem_cons]

theorem run_numeral_digits {cs : Bytes} (h : ∀ c ∈ cs, isDigit c = true) :
    Automaton.run Numeral.step .digits cs = some .digits :=
  Automaton.run_eq_self fun c hc => by rw [Numeral.step, if_pos (h c hc)]

theorem start_of_isDigit (h : isDigit c = true) (hzero : c ≠ 0x30) :
    Numeral.start c = some .digits ∧ Numeral.minus.step c = some .digits := by
  have hminus : c ≠ 0x2D := by
    rintro rfl
    exact absurd h (by decide)
  rw [Numeral.start, Numeral.step, if_neg hminus, if_neg hzero, if_pos h]
  exact ⟨rfl, rfl⟩

/-- A rendered natural number does not start with a zero. -/
theorem decimalNat_eq_cons {n : Nat} (hn : 0 < n) :
    ∃ c cs, decimalNat n = c :: cs ∧ isDigit c = true ∧ c ≠ 0x30 ∧ ∀ d ∈ cs, isDigit d = true := by
  induction n using Nat.strong_induction_on with
  | _ n ih =>
    by_cases hsmall : n < 10
    · have hdigits : ∀ n < 10, 0 < n → isDigit (UInt8.ofNat (Nat.digitChar n).toNat) = true
          ∧ UInt8.ofNat (Nat.digitChar n).toNat ≠ 0x30 := by decide
      refine ⟨_, [], by rw [decimalNat, Nat.toDigits_of_lt_base hsmall]; rfl, ?_, ?_, by simp⟩
      · exact (hdigits n hsmall hn).1
      · exact (hdigits n hsmall hn).2
    · obtain ⟨c, cs, hfront, hdigit, hzero, hcs⟩ := ih (n / 10) (by omega) (by omega)
      have hsplit : decimalNat n
          = decimalNat (n / 10) ++ [UInt8.ofNat (Nat.digitChar (n % 10)).toNat] := by
        rw [decimalNat, Nat.toDigits_of_base_le (by omega) (by omega), List.map_append]
        rfl
      -- the last digit is put behind the digits of the tenth part
      refine ⟨c, cs ++ [_], by rw [hsplit, hfront, List.cons_append], hdigit, hzero,
        fun d hd => ?_⟩
      rcases List.mem_append.mp hd with hd | hd
      · exact hcs d hd
      · refine mem_decimalNat (n := n) ?_
        rw [hsplit]
        exact List.mem_append_right _ hd

theorem isNumberText_decimal (i : Int) : isNumberText (decimal i) = true := by
  cases i with
  | ofNat n =>
    cases Nat.eq_zero_or_pos n with
    | inl hzero => rw [hzero]; decide
    | inr hpos =>
      obtain ⟨c, cs, hdecimal, hdigit, hzero, hcs⟩ := decimalNat_eq_cons hpos
      rw [decimal, hdecimal, isNumberText, (start_of_isDigit hdigit hzero).1, Option.bind_some,
        run_numeral_digits hcs]
      rfl
  | negSucc n =>
    obtain ⟨c, cs, hdecimal, hdigit, hzero, hcs⟩ := decimalNat_eq_cons n.succ_pos
    rw [decimal, hdecimal, isNumberText, show Numeral.start 45 = some .minus from rfl,
      Option.bind_some, Automaton.run_cons_of (start_of_isDigit hdigit hzero).2,
      run_numeral_digits hcs]
    rfl

/-! ## Behind a value -/

/-- A value has been read; a number may still go on. -/
def Spot.Ended (t : Spot) : Prop :=
  t.place = .behind ∨ ∃ part, t.place = .number part ∧ part.complete = true

/-- A value has been read since. -/
def Done (s t : Spot) : Prop := t.goto .behind = s.goto .behind ∧ t.Ended

/-- What may stand behind a value. -/
def isStop (c : UInt8) : Bool := c == 0x2C || c == 0x5D || c == 0x7D

theorem numeral_step_of_isStop {part : Numeral} (hc : isStop c = true) : part.step c = none := by
  rw [isStop, Bool.or_eq_true, Bool.or_eq_true, beq_iff_eq, beq_iff_eq, beq_iff_eq] at hc
  rcases hc with (rfl | rfl) | rfl <;> cases part <;> rfl

theorem Done.step (h : Done s t) (hc : isStop c = true) :
    t.step c = (s.goto .behind).behindValue c := by
  have hbetween : ∀ u : Spot, (u.goto .behind).between c = (u.goto .behind).behindValue c := by
    intro u
    rw [Spot.between, if_neg]
    · rfl
    · rw [isStop, Bool.or_eq_true, Bool.or_eq_true, beq_iff_eq, beq_iff_eq, beq_iff_eq] at hc
      rcases hc with (rfl | rfl) | rfl <;> decide
  obtain ⟨hsame, hplace | ⟨part, hplace, hcomplete⟩⟩ := h
  · rw [← hsame, ← hbetween, Spot.step, hplace]
    exact congrArg (Spot.between · c) (Spot.goto_self hplace).symm
  · rw [← hsame, ← hbetween, Spot.step, hplace]
    simp only [numeral_step_of_isStop hc, hcomplete, if_true]

/-- A value is expected. -/
def Spot.Begins (s : Spot) : Prop := s.place = .value ∨ s.place = .firstElement

theorem Spot.Begins.step (h : s.Begins) (hblank : isBlankByte c = false) (hc : c ≠ 0x5D) :
    s.step c = s.beginValue c := by
  rcases h with h | h <;>
    simp only [Spot.step, Spot.between, h, hblank, Bool.false_eq_true, if_false, if_neg hc]

theorem done_of_goto (s : Spot) : Done s (s.goto .behind) := ⟨rfl, .inl rfl⟩

theorem step_of_start {part : Numeral} (hs : s.Begins) (h : Numeral.start c = some part) :
    s.step c = some (s.goto (.number part)) := by
  have hne : ∀ d, Numeral.start d = none → c ≠ d := by
    rintro d hd rfl
    rw [hd] at h
    cases h
  have hblank : isBlankByte c = false := by
    have hblanks : ∀ d ∈ ([0x20, 0x09, 0x0A, 0x0D] : Bytes), Numeral.start d = none := by decide
    refine Bool.eq_false_of_not_eq_true fun hmem => ?_
    exact hne c (hblanks c (List.contains_iff_mem.mp hmem)) rfl
  rw [hs.step hblank (hne _ (by decide)), Spot.beginValue, if_neg (hne _ (by decide)),
    if_neg (hne _ (by decide)), if_neg (hne _ (by decide)), if_neg (hne _ (by decide)),
    if_neg (hne _ (by decide)), if_neg (hne _ (by decide)), h]
  rfl

theorem read_numeral {cs : Bytes} {part last : Numeral}
    (h : Automaton.run Numeral.step part cs = some last) :
    (s.goto (.number part)).read cs = some (s.goto (.number last)) := by
  induction cs generalizing part with
  | nil =>
    obtain rfl := Option.some.inj h
    rfl
  | cons c cs ih =>
    obtain ⟨next, hnext, hrest⟩ := Automaton.run_cons_eq_some.mp h
    have hstep : (s.goto (.number part)).step c = some (s.goto (.number next)) := by
      simp only [Spot.step, Spot.goto, hnext]
    rw [Spot.read, Automaton.run_cons_of hstep]
    exact ih hrest

theorem read_numberText {text : Bytes} (hs : s.Begins) (h : isNumberText text = true) :
    ∃ t, s.read text = some t ∧ Done s t := by
  cases text with
  | nil => cases h
  | cons c cs =>
    obtain ⟨last, hlast, hcomplete⟩ := (Option.any_eq_true _ _).mp h
    obtain ⟨part, hpart, hrun⟩ := Option.bind_eq_some_iff.mp hlast
    refine ⟨s.goto (.number last), ?_, rfl, .inr ⟨last, rfl, hcomplete⟩⟩
    rw [Spot.read, Automaton.run_cons_of (step_of_start hs hpart)]
    exact read_numeral hrun

/-! ## Strings -/

/-- Behind some bytes of a string. -/
def Spot.writes (s : Spot) (role : Role) (text : Bytes) : Spot where
  place := .string role .plain
  containers := s.containers
  keys :=
    match role with
    | .topKey => (s.keys.headD [] ++ text) :: s.keys.tail
    | .value | .key => s.keys

theorem writes_writes (s : Spot) (role : Role) (a b : Bytes) :
    (s.writes role a).writes role b = s.writes role (a ++ b) := by
  cases role with
  | value => rfl
  | key => rfl
  | topKey => simp [Spot.writes]

theorem read_short {role : Role} (hs : s.place = .string role .plain)
    (hc : (ascii "\"\\/bfnrt").contains c = true) :
    s.read [0x5C, c] = some (s.writes role [0x5C, c]) := by
  have hne : c ≠ 0x75 := by
    rintro rfl
    exact absurd hc (by decide)
  have hbackslash : s.step 0x5C = some (s.written role .escape 0x5C) := by
    rw [Spot.step_string hs]
    rfl
  rw [Spot.read, Automaton.run_cons_of hbackslash, Automaton.run_cons, Spot.step_string rfl,
    Spot.inString, if_neg hne, if_pos hc, Option.bind_some, Automaton.run_nil]
  cases role with
  | value => rfl
  | key => rfl
  | topKey => simp [Spot.writes, Spot.written]

/-- `\u00` and two more digits. -/
theorem read_hex {role : Role} {d d' : UInt8} (hs : s.place = .string role .plain)
    (hd : isHexDigit d = true) (hd' : isHexDigit d' = true) :
    s.read (ascii "\\u00" ++ [d, d']) = some (s.writes role (ascii "\\u00" ++ [d, d'])) := by
  have hstep : ∀ {s : Spot} {left : Nat} {d : UInt8}, s.place = .string role (.hex left) →
      isHexDigit d = true → s.step d = some (s.written role (.behindHex left) d) := by
    intro s left d hs hd
    rw [Spot.step_string hs, Spot.inString, if_pos hd]
  have hbackslash : s.step 0x5C = some (s.written role .escape 0x5C) := by
    rw [Spot.step_string hs]
    rfl
  have hu : (s.written role .escape 0x5C).step 0x75
      = some ((s.written role .escape 0x5C).written role (.hex 3) 0x75) := rfl
  rw [Spot.read, show ascii "\\u00" ++ [d, d'] = [0x5C, 0x75, 0x30, 0x30, d, d'] from rfl,
    Automaton.run_cons_of hbackslash, Automaton.run_cons_of hu,
    Automaton.run_cons_of (hstep rfl (by decide)), Automaton.run_cons_of (hstep rfl (by decide)),
    Automaton.run_cons_of (hstep rfl hd), Automaton.run_cons_of (hstep rfl hd'),
    Automaton.run_nil]
  cases role with
  | value => rfl
  | key => rfl
  | topKey => simp [Spot.writes, Spot.written, Inside.behindHex]

theorem read_escapeByte {role : Role} (hs : s.place = .string role .plain) (b : UInt8) :
    s.read (escapeByte b) = some (s.writes role (escapeByte b)) := by
  have hhex : ∀ n < 16, isHexDigit (hexDigit n) = true := by decide
  unfold escapeByte
  split_ifs with h1 h2 h3 h4 h5 hquote hbackslash hcontrol
  · exact read_short hs (by decide)
  · exact read_short hs (by decide)
  · exact read_short hs (by decide)
  · exact read_short hs (by decide)
  · exact read_short hs (by decide)
  · exact read_short hs (by decide)
  · exact read_short hs (by decide)
  · exact read_hex hs (hhex _ (Nat.div_lt_of_lt_mul b.toNat_lt)) (hhex _ (Nat.mod_lt _ (by omega)))
  · rw [Spot.read, Automaton.run_cons, Spot.step_string hs, Spot.inString, if_neg hquote,
      if_neg hbackslash, if_neg hcontrol, Option.bind_some, Automaton.run_nil]
    cases role <;> rfl

theorem read_escape (s : Spot) (role : Role) (front text : Bytes) :
    (s.writes role front).read (escape text) = some (s.writes role (front ++ escape text)) := by
  induction text generalizing front with
  | nil => rw [escape, List.flatMap_nil, List.append_nil]; rfl
  | cons b text ih =>
    rw [escape, List.flatMap_cons, ← escape, Spot.read,
      Automaton.run_append_of (read_escapeByte rfl b), writes_writes, ← List.append_assoc]
    exact ih _

/-- The rest of a string whose first quote has been read. -/
theorem read_behindQuote (s : Spot) (role : Role) (text : Bytes) :
    (s.writes role []).read (escape text ++ [0x22])
      = some ((s.writes role (escape text)).goto role.behind) := by
  rw [Spot.read, Automaton.run_append_of (read_escape s role [] text), List.nil_append]
  rfl

/-- A string for a value. -/
theorem read_dumpString (hs : s.Begins) (text : Bytes) :
    s.read (dumpString text) = some (s.goto .behind) := by
  have hquote : s.step 0x22 = some (s.writes .value []) := by
    rw [hs.step (by decide) (by decide)]
    rfl
  rw [Spot.read, dumpString, Automaton.run_cons_of hquote]
  exact read_behindQuote s .value _

/-- A key is expected. -/
def Spot.BeginsKey (s : Spot) : Prop := s.place = .key ∨ s.place = .firstKey

def keyText (key : Bytes) : Bytes := escape (canonicalText key)

/-- Behind some keys. -/
def Spot.withKeys (s : Spot) (keys : List Bytes) : Spot :=
  if s.containers = [.object] then { s with keys := (keys.map keyText).reverse ++ s.keys } else s

theorem withKeys_withKeys (s : Spot) (a b : List Bytes) :
    (s.withKeys a).withKeys b = s.withKeys (a ++ b) := by
  unfold Spot.withKeys
  by_cases h : s.containers = [.object]
  · simp [h]
  · rw [if_neg h, if_neg h, if_neg h]

theorem withKeys_nil (s : Spot) : s.withKeys [] = s := by
  unfold Spot.withKeys
  split_ifs <;> rfl

@[simp] theorem withKeys_containers (s : Spot) (keys : List Bytes) :
    (s.withKeys keys).containers = s.containers := by
  unfold Spot.withKeys
  split_ifs <;> rfl

theorem goto_withKeys (s : Spot) (place : Place) (keys : List Bytes) :
    (s.goto place).withKeys keys = (s.withKeys keys).goto place := by
  unfold Spot.withKeys
  by_cases h : s.containers = [.object]
  · rw [if_pos h, if_pos (show (s.goto place).containers = [.object] from h)]
    rfl
  · rw [if_neg h, if_neg (show ¬ (s.goto place).containers = [.object] from h)]

theorem Spot.BeginsKey.step (h : s.BeginsKey) : s.step 0x22 = some s.beginKey := by
  rcases h with h | h <;> rw [Spot.step, h] <;> simp only [Spot.between, h] <;> rfl

theorem read_key (hs : s.BeginsKey) (key : Bytes) :
    s.read (dumpString key) = some ((s.withKeys [key]).goto .colon) := by
  rw [Spot.read, dumpString, Automaton.run_cons_of hs.step]
  by_cases h : s.containers = [.object]
  · have hbegin : s.beginKey = Spot.writes { s with keys := [] :: s.keys } .topKey [] := by
      rw [Spot.beginKey, if_pos h]
      rfl
    rw [hbegin, Spot.withKeys, if_pos h]
    exact read_behindQuote _ _ _
  · have hbegin : s.beginKey = s.writes .key [] := by
      rw [Spot.beginKey, if_neg h]
      rfl
    rw [hbegin, Spot.withKeys, if_neg h]
    exact read_behindQuote _ _ _

/-! ## Values -/

theorem closed_goto (s : Spot) (place : Place) : (s.goto place).closed = s.closed := rfl

theorem Done.step_array (h : Done s t) (hs : ∃ rest, s.containers = .array :: rest) :
    t.step 0x2C = some (s.goto .value) ∧ t.step 0x5D = some s.closed := by
  obtain ⟨rest, hcontainers⟩ := hs
  rw [h.step (by decide), h.step (by decide)]
  simp only [Spot.behindValue, show (s.goto .behind).containers = .array :: rest from hcontainers]
  exact ⟨rfl, rfl⟩

theorem Done.step_object (h : Done s t) (hs : ∃ rest, s.containers = .object :: rest) :
    t.step 0x2C = some (s.goto .key) ∧ t.step 0x7D = some s.closed := by
  obtain ⟨rest, hcontainers⟩ := hs
  rw [h.step (by decide), h.step (by decide)]
  simp only [Spot.behindValue, show (s.goto .behind).containers = .object :: rest from hcontainers]
  exact ⟨rfl, rfl⟩

mutual

/-- **The text of a value is read as one.** -/
theorem read_dumpValue : ∀ (v : Value) {s : Spot}, v.numeric = true → s.Begins →
    s.containers ≠ [] → ∃ t, s.read (dumpValue v) = some t ∧ Done s t
  | .null, s, _, hs, _ => by
    have hfirst : s.step 0x6E = some (s.goto (.literal .ull)) := by
      rw [hs.step (by decide) (by decide)]
      rfl
    exact ⟨_, Automaton.run_cons_of hfirst (ascii "ull"), done_of_goto s⟩
  | .bool true, s, _, hs, _ => by
    have hfirst : s.step 0x74 = some (s.goto (.literal .rue)) := by
      rw [hs.step (by decide) (by decide)]
      rfl
    exact ⟨_, Automaton.run_cons_of hfirst (ascii "rue"), done_of_goto s⟩
  | .bool false, s, _, hs, _ => by
    have hfirst : s.step 0x66 = some (s.goto (.literal .alse)) := by
      rw [hs.step (by decide) (by decide)]
      rfl
    exact ⟨_, Automaton.run_cons_of hfirst (ascii "alse"), done_of_goto s⟩
  | .int i, _, _, hs, _ => read_numberText hs (isNumberText_decimal i)
  | .float _ _, _, hnumeric, hs, _ => read_numberText hs hnumeric
  | .string text, s, _, hs, _ => ⟨s.goto .behind, read_dumpString hs text, done_of_goto s⟩
  | .array elements, s, hnumeric, hs, _ => by
    have hfirst : s.step 0x5B = some (s.opened .array) := by
      rw [hs.step (by decide) (by decide)]
      rfl
    refine ⟨s.goto .behind, ?_, done_of_goto s⟩
    rw [dumpValue, Spot.read, Automaton.run_cons_of hfirst]
    exact read_dumpElements elements hnumeric (.inl rfl) ⟨_, rfl⟩
  | .object members, s, hnumeric, hs, hnested => by
    have hfirst : s.step 0x7B = some (s.opened .object) := by
      rw [hs.step (by decide) (by decide)]
      rfl
    -- this object is not the outermost one, so its keys are not written down
    have hinner : (s.opened .object).containers ≠ [.object] := by
      intro h
      exact hnested (List.cons.inj h).2
    refine ⟨s.goto .behind, ?_, done_of_goto s⟩
    rw [dumpValue, Spot.read, Automaton.run_cons_of hfirst]
    refine (read_dumpEntries members hnumeric (.inl rfl) ⟨_, rfl⟩).trans ?_
    rw [Spot.withKeys, if_neg hinner]
    rfl

theorem read_dumpElements : ∀ (elements : List Value) {s : Spot}, numericElements elements = true →
    (s.place = .firstElement ∨ s.place = .value ∧ elements ≠ []) →
    (∃ rest, s.containers = .array :: rest) →
    s.read (dumpElements elements ++ [0x5D]) = some s.closed
  | [], s, _, hplace, _ => by
    rcases hplace with hplace | ⟨-, hne⟩
    · rw [dumpElements, List.nil_append, Spot.read, Automaton.run_cons, Spot.step, hplace]
      simp only [Spot.between, hplace]
      rfl
    · exact absurd rfl hne
  | [v], s, hnumeric, hplace, hs => by
    have hbegins : s.Begins := hplace.elim .inr fun h => .inl h.1
    rw [numericElements, Bool.and_eq_true] at hnumeric
    obtain ⟨rest, hcontainers⟩ := hs
    obtain ⟨t, ht, hdone⟩ := read_dumpValue v hnumeric.1 hbegins (by simp [hcontainers])
    rw [dumpElements, Spot.read, Automaton.run_append_of ht,
      Automaton.run_cons_of (hdone.step_array ⟨rest, hcontainers⟩).2]
    rfl
  | v :: v' :: more, s, hnumeric, hplace, hs => by
    have hbegins : s.Begins := hplace.elim .inr fun h => .inl h.1
    rw [numericElements, Bool.and_eq_true] at hnumeric
    obtain ⟨rest, hcontainers⟩ := hs
    obtain ⟨t, ht, hdone⟩ := read_dumpValue v hnumeric.1 hbegins (by simp [hcontainers])
    rw [dumpElements, List.append_assoc, Spot.read, Automaton.run_append_of ht, List.cons_append,
      Automaton.run_cons_of (hdone.step_array ⟨rest, hcontainers⟩).1]
    exact read_dumpElements (v' :: more) (s := s.goto .value) hnumeric.2
      (.inr ⟨rfl, List.cons_ne_nil _ _⟩) ⟨rest, hcontainers⟩

theorem read_dumpEntry : ∀ (m : Bytes × Value) {s : Spot}, m.2.numeric = true → s.BeginsKey →
    s.containers ≠ [] →
    ∃ t, s.read (dumpEntry m) = some t ∧ Done (s.withKeys [m.1]) t
  | (key, v), s, hnumeric, hs, hnested => by
    obtain ⟨t, ht, hdone⟩ := read_dumpValue v (s := (s.withKeys [key]).goto .value) hnumeric
      (.inl rfl) (by rwa [show ((s.withKeys [key]).goto .value).containers
        = (s.withKeys [key]).containers from rfl, withKeys_containers])
    refine ⟨t, ?_, hdone.1, hdone.2⟩
    rw [dumpEntry, Spot.read, Automaton.run_append_of (read_key hs key)]
    exact ht

theorem read_dumpEntries : ∀ (ms : List (Bytes × Value)) {s : Spot}, numericEntries ms = true →
    (s.place = .firstKey ∨ s.place = .key ∧ ms ≠ []) →
    (∃ rest, s.containers = .object :: rest) →
    s.read (dumpEntries ms ++ [0x7D]) = some (s.withKeys (ms.map Prod.fst)).closed
  | [], s, _, hplace, _ => by
    rcases hplace with hplace | ⟨-, hne⟩
    · rw [dumpEntries, List.nil_append, Spot.read, Automaton.run_cons, Spot.step, hplace]
      simp only [Spot.between, hplace]
      rw [List.map_nil, withKeys_nil]
      rfl
    · exact absurd rfl hne
  | [(key, v)], s, hnumeric, hplace, hs => by
    have hbegins : s.BeginsKey := hplace.elim .inr fun h => .inl h.1
    rw [numericEntries, Bool.and_eq_true] at hnumeric
    obtain ⟨rest, hcontainers⟩ := hs
    obtain ⟨t, ht, hdone⟩ := read_dumpEntry (key, v) hnumeric.1 hbegins (by simp [hcontainers])
    rw [dumpEntries, Spot.read, Automaton.run_append_of ht, Automaton.run_cons_of
      (hdone.step_object ⟨rest, (withKeys_containers s [key]).trans hcontainers⟩).2]
    rfl
  | (key, v) :: m :: more, s, hnumeric, hplace, hs => by
    have hbegins : s.BeginsKey := hplace.elim .inr fun h => .inl h.1
    rw [numericEntries, Bool.and_eq_true] at hnumeric
    obtain ⟨rest, hcontainers⟩ := hs
    obtain ⟨t, ht, hdone⟩ := read_dumpEntry (key, v) hnumeric.1 hbegins (by simp [hcontainers])
    have hkeyed : (s.withKeys [key]).containers = .object :: rest :=
      (withKeys_containers s [key]).trans hcontainers
    rw [dumpEntries, List.append_assoc, Spot.read, Automaton.run_append_of ht, List.cons_append,
      Automaton.run_cons_of (hdone.step_object ⟨rest, hkeyed⟩).1]
    refine (read_dumpEntries (m :: more) (s := (s.withKeys [key]).goto .key) hnumeric.2
      (.inr ⟨rfl, List.cons_ne_nil _ _⟩) ⟨rest, hkeyed⟩).trans ?_
    rw [goto_withKeys, closed_goto, withKeys_withKeys]
    rfl

end

/-! ## The outermost object -/

variable {members : List (Bytes × Value)}

theorem read_object (h : numericEntries members = true) :
    Spot.initial.read (dumpValue (.object members))
      = some ⟨.behind, [], ((members.map Prod.fst).map keyText).reverse⟩ := by
  have hbrace : Spot.initial.step 0x7B = some (Spot.initial.opened .object) := rfl
  rw [dumpValue, Spot.read, Automaton.run_cons_of hbrace]
  refine (read_dumpEntries members h (.inl rfl) ⟨_, rfl⟩).trans ?_
  rw [Spot.withKeys, if_pos (show (Spot.initial.opened .object).containers = [.object] from rfl)]
  exact congrArg some (congrArg (Spot.mk _ _) (List.append_nil _))

/-- **The text for an object has its keys.** -/
theorem topKeys_dumpValue (h : numericEntries members = true) :
    topKeys (dumpValue (.object members)) = some (members.map fun m => keyText m.1) := by
  rw [topKeys, read_object h]
  simp only [List.reverse_reverse, List.map_map]
  rfl

/-- In front of a member of the outermost object. -/
theorem read_members {s : Spot} (h : numericEntries members = true) (hs : s.BeginsKey)
    (hcontainers : s.containers = [.object]) :
    ∃ t, s.read (members.flatMap fun m => dumpEntry m ++ [0x2C]) = some t ∧ t.BeginsKey
      ∧ t.containers = [.object] := by
  induction members generalizing s with
  | nil => exact ⟨s, rfl, hs, hcontainers⟩
  | cons m members ih =>
    rw [numericEntries, Bool.and_eq_true] at h
    obtain ⟨t, ht, hdone⟩ := read_dumpEntry m h.1 hs (by simp [hcontainers])
    have hkeyed : (s.withKeys [m.1]).containers = [.object] :=
      (withKeys_containers s [m.1]).trans hcontainers
    rw [List.flatMap_cons, List.append_assoc, Spot.read, Automaton.run_append_of ht,
      List.singleton_append, Automaton.run_cons_of (hdone.step_object ⟨_, hkeyed⟩).1]
    exact ih (s := (s.withKeys [m.1]).goto .key) h.2 (.inl rfl) hkeyed

/-! ## One line of UTF-8 -/

/-- What printable ASCII has and a string has, and what both have put together. -/
structure Dumpable (P : Bytes → Prop) : Prop where
  append : ∀ a b, P a → P b → P (a ++ b)
  bytes : ∀ text : Bytes, (∀ c ∈ text, 0x20 ≤ c ∧ c < 0x80) → P text
  string : ∀ text, P (dumpString text)

theorem printable_of_isNumberText {text : Bytes} (h : isNumberText text = true) :
    ∀ c ∈ text, 0x20 ≤ c ∧ c < 0x80 := by
  cases text with
  | nil => cases h
  | cons c cs =>
    obtain ⟨last, hlast, -⟩ := (Option.any_eq_true _ _).mp h
    obtain ⟨part, hpart, hrun⟩ := Option.bind_eq_some_iff.mp hlast
    have hbehind : ∀ cs : Bytes, ∀ {part : Numeral},
        Automaton.run Numeral.step part cs = some last → ∀ d ∈ cs, Spot.isNumeralByte d = true := by
      intro cs
      induction cs with
      | nil => simp
      | cons d cs ih =>
        intro part hrun
        obtain ⟨next, hnext, hrest⟩ := Automaton.run_cons_eq_some.mp hrun
        exact List.forall_mem_cons.mpr ⟨Spot.numeral_step hnext, ih hrest⟩
    intro d hd
    refine (Spot.of_isNumeralByte ?_).2.2
    rcases List.mem_cons.mp hd with rfl | hd
    · exact Spot.numeral_start hpart
    · exact hbehind cs hrun d hd

section

variable {P : Bytes → Prop} (hP : Dumpable P)

include hP

mutual

/-- **What printable ASCII has, and a string, and what is put together of them, a value has.** -/
theorem dumpValue_induction : ∀ v : Value, v.numeric = true → P (dumpValue v)
  | .null, _ => hP.bytes _ (by decide)
  | .bool true, _ => hP.bytes _ (by decide)
  | .bool false, _ => hP.bytes _ (by decide)
  | .int i, _ => hP.bytes _ (printable_of_isNumberText (isNumberText_decimal i))
  | .float _ _, h => hP.bytes _ (printable_of_isNumberText h)
  | .string text, _ => hP.string text
  | .array elements, h => hP.append [0x5B] _ (hP.bytes _ (by decide))
      (hP.append _ _ (dumpElements_induction elements h) (hP.bytes _ (by decide)))
  | .object members, h => hP.append [0x7B] _ (hP.bytes _ (by decide))
      (hP.append _ _ (dumpEntries_induction members h) (hP.bytes _ (by decide)))

theorem dumpElements_induction : ∀ elements : List Value, numericElements elements = true →
    P (dumpElements elements)
  | [], _ => hP.bytes _ (by decide)
  | [v], h => dumpValue_induction v (Bool.and_eq_true _ _ ▸ h).1
  | v :: v' :: rest, h => hP.append _ _ (dumpValue_induction v (Bool.and_eq_true _ _ ▸ h).1)
      (hP.append [0x2C] _ (hP.bytes _ (by decide))
        (dumpElements_induction (v' :: rest) (Bool.and_eq_true _ _ ▸ h).2))

theorem dumpEntry_induction : ∀ m : Bytes × Value, m.2.numeric = true → P (dumpEntry m)
  | (key, v), h => hP.append _ _ (hP.string key)
      (hP.append [0x3A] _ (hP.bytes _ (by decide)) (dumpValue_induction v h))

theorem dumpEntries_induction : ∀ ms : List (Bytes × Value), numericEntries ms = true →
    P (dumpEntries ms)
  | [], _ => hP.bytes _ (by decide)
  | [(key, v)], h => dumpEntry_induction (key, v) (Bool.and_eq_true _ _ ▸ h).1
  | (key, v) :: m :: rest, h =>
    hP.append _ _ (dumpEntry_induction (key, v) (Bool.and_eq_true _ _ ▸ h).1)
      (hP.append [0x2C] _ (hP.bytes _ (by decide))
        (dumpEntries_induction (m :: rest) (Bool.and_eq_true _ _ ▸ h).2))

end

end

theorem dumpValue_wellFormed {v : Value} (h : v.numeric = true) : WellFormed (dumpValue v) :=
  dumpValue_induction ⟨fun _ _ => WellFormed.append, fun _ h => .of_ascii fun c hc => (h c hc).2,
    dumpString_wellFormed⟩ v h

theorem newline_notMem_dumpValue {v : Value} (h : v.numeric = true) : newline ∉ dumpValue v :=
  dumpValue_induction (P := (newline ∉ ·)) ⟨
    fun _ _ ha hb hmem => (List.mem_append.mp hmem).elim ha hb,
    fun _ h hmem => absurd (h newline hmem).1 (by decide), newline_notMem_dumpString⟩ v h

end BrokerExec.Json
