import BrokerExec.Domain.Redaction
import BrokerExec.Lib.Automaton

/-!
# Reading JSON byte by byte

`Spot` is where a reader of a JSON text is: what it expects next, the containers that are open, and
the keys of the outermost object so far. The text is an object with these keys when the reader ends
behind its closing bracket.

* **`step_outside`** — outside strings only a few bytes are read, and a double quote opens a string.
* **`step_inside`** — a string is left by a double quote that no backslash stands in front of.
-/

namespace BrokerExec.Json

open BrokerExec.Domain (isHexDigit)

/-! ## The reader -/

inductive Container where
  | array
  | object
  deriving DecidableEq, Repr

/-- How much of a number has been read. -/
inductive Numeral where
  | minus
  | zero
  | digits
  | point
  | fraction
  | mark
  | sign
  | exponent
  deriving DecidableEq, Repr

namespace Numeral

def start (c : UInt8) : Option Numeral :=
  if c = 0x2D then some .minus
  else if c = 0x30 then some .zero
  else if isDigit c then some .digits
  else none

/-- The number may end here. -/
def complete : Numeral → Bool
  | .zero | .digits | .fraction | .exponent => true
  | .minus | .point | .mark | .sign => false

/-- `e` or `E`. -/
def isMark (c : UInt8) : Bool := c == 0x65 || c == 0x45

def isSign (c : UInt8) : Bool := c == 0x2B || c == 0x2D

def step : Numeral → UInt8 → Option Numeral
  | .minus, c => if c = 0x30 then some .zero else if isDigit c then some .digits else none
  | .zero, c => if c = 0x2E then some .point else if isMark c then some .mark else none
  | .digits, c =>
    if isDigit c then some .digits
    else if c = 0x2E then some .point
    else if isMark c then some .mark
    else none
  | .point, c => if isDigit c then some .fraction else none
  | .fraction, c => if isDigit c then some .fraction else if isMark c then some .mark else none
  | .mark, c => if isDigit c then some .exponent else if isSign c then some .sign else none
  | .sign, c => if isDigit c then some .exponent else none
  | .exponent, c => if isDigit c then some .exponent else none

end Numeral

/-- What is still to come of `true`, `false` or `null`. -/
inductive Literal where
  | rue
  | ue
  | e
  | alse
  | lse
  | se
  | ull
  | ll
  | l
  deriving DecidableEq, Repr

def Literal.next : Literal → UInt8 × Option Literal
  | .rue => (0x72, some .ue)
  | .ue => (0x75, some .e)
  | .e => (0x65, none)
  | .alse => (0x61, some .lse)
  | .lse => (0x6C, some .se)
  | .se => (0x73, some .e)
  | .ull => (0x75, some .ll)
  | .ll => (0x6C, some .l)
  | .l => (0x6C, none)

/-- What a string is read for. The keys of the outermost object are written down. -/
inductive Role where
  | value
  | key
  | topKey
  deriving DecidableEq, Repr

/-- Where the reader is inside a string; `hex` counts the digits behind the next one. -/
inductive Inside where
  | plain
  | escape
  | hex (left : Nat)
  deriving DecidableEq, Repr

inductive Place where
  | start
  | value
  | firstElement
  | firstKey
  | key
  | colon
  | behind
  | literal (rest : Literal)
  | number (part : Numeral)
  | string (role : Role) (inside : Inside)
  deriving DecidableEq, Repr

/-- What follows a string. -/
def Role.behind : Role → Place
  | .value => .behind
  | .key | .topKey => .colon

/-- Behind a digit of `\u00xx`. -/
def Inside.behindHex : Nat → Inside
  | 0 => .plain
  | left + 1 => .hex left

def Place.inString : Place → Bool
  | .string _ _ => true
  | _ => false

/-- The keys are in reverse; the one that is read comes first. -/
structure Spot where
  place : Place
  containers : List Container
  keys : List Bytes
  deriving DecidableEq, Repr

/-- Space, `\t`, `\n`, `\r`. -/
def isBlankByte (c : UInt8) : Bool := [0x20, 0x09, 0x0A, 0x0D].contains c

namespace Spot

def initial : Spot := ⟨.start, [], []⟩

def goto (s : Spot) (place : Place) : Spot := { s with place }

def opened (s : Spot) (container : Container) : Spot :=
  match container with
  | .array => { s with place := .firstElement, containers := .array :: s.containers }
  | .object => { s with place := .firstKey, containers := .object :: s.containers }

def closed (s : Spot) : Spot := { s with place := .behind, containers := s.containers.tail }

def beginKey (s : Spot) : Spot :=
  -- only the outermost object is open
  if s.containers = [.object] then
    { s with place := .string .topKey .plain, keys := [] :: s.keys }
  else s.goto (.string .key .plain)

def beginValue (s : Spot) (c : UInt8) : Option Spot :=
  if c = 0x22 then some (s.goto (.string .value .plain))
  else if c = 0x7B then some (s.opened .object)
  else if c = 0x5B then some (s.opened .array)
  else if c = 0x74 then some (s.goto (.literal .rue))
  else if c = 0x66 then some (s.goto (.literal .alse))
  else if c = 0x6E then some (s.goto (.literal .ull))
  else (Numeral.start c).map fun part => s.goto (.number part)

/-- Behind a value: a comma, or the bracket that closes the innermost container. -/
def behindValue (s : Spot) (c : UInt8) : Option Spot :=
  match s.containers with
  | [] => none
  | .object :: _ =>
    if c = 0x2C then some (s.goto .key) else if c = 0x7D then some s.closed else none
  | .array :: _ =>
    if c = 0x2C then some (s.goto .value) else if c = 0x5D then some s.closed else none

/-- Between the tokens. -/
def between (s : Spot) (c : UInt8) : Option Spot :=
  if isBlankByte c then some s
  else
    match s.place with
    | .start => if c = 0x7B then some (s.opened .object) else none
    | .value => s.beginValue c
    | .firstElement => if c = 0x5D then some s.closed else s.beginValue c
    | .firstKey => if c = 0x7D then some s.closed else if c = 0x22 then some s.beginKey else none
    | .key => if c = 0x22 then some s.beginKey else none
    | .colon => if c = 0x3A then some (s.goto .value) else none
    | .behind => s.behindValue c
    | .literal _ | .number _ | .string _ _ => none

/-- One more byte of a string. -/
def written (s : Spot) (role : Role) (inside : Inside) (c : UInt8) : Spot where
  place := .string role inside
  containers := s.containers
  keys :=
    match role with
    | .topKey => (s.keys.headD [] ++ [c]) :: s.keys.tail
    | .value | .key => s.keys

def inString (s : Spot) (role : Role) (inside : Inside) (c : UInt8) : Option Spot :=
  match inside with
  | .plain =>
    if c = 0x22 then some (s.goto role.behind)
    else if c = 0x5C then some (s.written role .escape c)
    else if c < 0x20 then none
    else some (s.written role .plain c)
  | .escape =>
    if c = 0x75 then some (s.written role (.hex 3) c)
    else if (ascii "\"\\/bfnrt").contains c then some (s.written role .plain c)
    else none
  | .hex left =>
    if isHexDigit c then some (s.written role (.behindHex left) c) else none

def step (s : Spot) (c : UInt8) : Option Spot :=
  match s.place with
  | .string role inside => s.inString role inside c
  | .literal rest =>
    if c = rest.next.1 then
      some (s.goto (match rest.next.2 with | some rest => .literal rest | none => .behind))
    else none
  | .number part =>
    match part.step c with
    | some part => some (s.goto (.number part))
    -- a number has no last byte of its own: it ends in front of this one
    | none => if part.complete then (s.goto .behind).between c else none
  | _ => s.between c

def read (s : Spot) (text : Bytes) : Option Spot := Automaton.run step s text

end Spot

/-- The keys of a text that is one JSON object, in their order and as they are written. -/
def topKeys (text : Bytes) : Option (List Bytes) :=
  match Spot.initial.read text with
  | some ⟨.behind, [], keys⟩ => some keys.reverse
  | _ => none

example : topKeys (ascii "\x7b\"a\": [1, -2.5e3, \x7b\"c\":null\x7d], \"b\":\"\\u0007\\\"\"\x7d")
    = some [ascii "a", ascii "b"] := by
  decide +kernel

example : topKeys (ascii "\x7b\"token\":***REDACTED***\x7d") = none := by decide +kernel

/-! ## Outside and inside strings -/

/-- A byte that stands in a JSON text outside its strings, or opens one. -/
def isOutsideByte (c : UInt8) : Bool :=
  isDigit c || isBlankByte c || (ascii "\"+,-.:E[]aeflnrstu\x7b\x7d").contains c

namespace Spot

variable {s t : Spot} {c : UInt8}

def Outside (s : Spot) : Prop := s.place.inString = false

/-- Between two bytes of a string. -/
def Plain (s : Spot) : Prop := ∃ role, s.place = .string role .plain

/-- Where the reader is behind a byte that is none of a string. -/
def Entered (t : Spot) (c : UInt8) : Prop :=
  isOutsideByte c = true ∧ (c = 0x22 → t.Plain) ∧ (c ≠ 0x22 → t.Outside)

theorem Entered.of_outside (hbyte : isOutsideByte c = true) (hquote : c ≠ 0x22)
    (ht : t.Outside) : t.Entered c :=
  ⟨hbyte, fun h => absurd h hquote, fun _ => ht⟩

theorem Entered.of_plain (hc : c = 0x22) (ht : t.Plain) : t.Entered c :=
  ⟨by rw [hc]; decide, fun _ => ht, fun h => absurd hc h⟩

/-- Any byte of a number. -/
def isNumeralByte (c : UInt8) : Bool := isDigit c || (ascii "+-.eE").contains c

theorem of_isNumeralByte (h : isNumeralByte c = true) :
    isOutsideByte c = true ∧ c ≠ 0x22 ∧ 0x20 ≤ c ∧ c < 0x80 := by
  rw [isNumeralByte, Bool.or_eq_true] at h
  rcases h with hdigit | hmem
  · refine ⟨by rw [isOutsideByte, hdigit]; rfl, ?_, ?_⟩
    · rintro rfl
      exact absurd hdigit (by decide)
    · rw [isDigit, Bool.and_eq_true, decide_eq_true_eq, decide_eq_true_eq] at hdigit
      exact ⟨le_trans (by decide) hdigit.1, lt_of_le_of_lt hdigit.2 (by decide)⟩
  · have hbytes : ∀ b ∈ ascii "+-.eE", isOutsideByte b = true ∧ b ≠ 0x22 ∧ 0x20 ≤ b ∧ b < 0x80 := by
      decide
    exact hbytes c (List.contains_iff_mem.mp hmem)

theorem numeral_start {part : Numeral} (h : Numeral.start c = some part) :
    isNumeralByte c = true := by
  unfold Numeral.start at h
  split_ifs at h with hminus hzero hdigit
  · subst hminus; decide
  · subst hzero; decide
  · rw [isNumeralByte, hdigit, Bool.true_or]

theorem numeral_step {part part' : Numeral} (h : part.step c = some part') :
    isNumeralByte c = true := by
  have hdigit : isDigit c = true → isNumeralByte c = true := by
    intro h
    rw [isNumeralByte, h, Bool.true_or]
  have hmark : Numeral.isMark c = true → isNumeralByte c = true := by
    intro h
    rw [Numeral.isMark, Bool.or_eq_true, beq_iff_eq, beq_iff_eq] at h
    rcases h with rfl | rfl <;> decide
  have hsign : Numeral.isSign c = true → isNumeralByte c = true := by
    intro h
    rw [Numeral.isSign, Bool.or_eq_true, beq_iff_eq, beq_iff_eq] at h
    rcases h with rfl | rfl <;> decide
  have hpoint : c = 0x2E → isNumeralByte c = true := by
    rintro rfl
    decide
  have hzero : c = 0x30 → isNumeralByte c = true := by
    rintro rfl
    decide
  cases part <;> simp only [Numeral.step] at h <;> split_ifs at h <;> tauto

/-- What a byte between the tokens can do. -/
inductive Turn (s : Spot) (c : UInt8) : Spot → Prop
  | blank (hc : isBlankByte c = true) : Turn s c s
  | opened (container : Container) (hc : c = 0x7B ∨ c = 0x5B) : Turn s c (s.opened container)
  | closed (hc : c = 0x7D ∨ c = 0x5D) : Turn s c s.closed
  | key (hc : c = 0x22) : Turn s c s.beginKey
  | string (hc : c = 0x22) : Turn s c (s.goto (.string .value .plain))
  | literal (rest : Literal) (hc : c = 0x74 ∨ c = 0x66 ∨ c = 0x6E) :
      Turn s c (s.goto (.literal rest))
  | number (part : Numeral) (hc : Numeral.start c = some part) : Turn s c (s.goto (.number part))
  | next (place : Place) (hplace : place.inString = false) (hc : c = 0x2C ∨ c = 0x3A) :
      Turn s c (s.goto place)

theorem turn_of_beginValue (h : s.beginValue c = some t) : Turn s c t := by
  unfold beginValue at h
  split_ifs at h with hquote hbrace hbracket htrue hfalse hnull
  · exact Option.some.inj h ▸ .string hquote
  · exact Option.some.inj h ▸ .opened .object (.inl hbrace)
  · exact Option.some.inj h ▸ .opened .array (.inr hbracket)
  · exact Option.some.inj h ▸ .literal .rue (.inl htrue)
  · exact Option.some.inj h ▸ .literal .alse (.inr (.inl hfalse))
  · exact Option.some.inj h ▸ .literal .ull (.inr (.inr hnull))
  · obtain ⟨part, hpart, rfl⟩ := Option.map_eq_some_iff.mp h
    exact .number part hpart

theorem turn_of_behindValue (h : s.behindValue c = some t) : Turn s c t := by
  unfold behindValue at h
  split at h
  · cases h
  · split_ifs at h with hcomma hclose
    · exact Option.some.inj h ▸ .next .key rfl (.inl hcomma)
    · exact Option.some.inj h ▸ .closed (.inl hclose)
  · split_ifs at h with hcomma hclose
    · exact Option.some.inj h ▸ .next .value rfl (.inl hcomma)
    · exact Option.some.inj h ▸ .closed (.inr hclose)

/-- **Every byte between the tokens is one of these.** -/
theorem turn_of_between (h : s.between c = some t) : Turn s c t := by
  unfold between at h
  by_cases hblank : isBlankByte c = true
  · rw [if_pos hblank] at h
    exact Option.some.inj h ▸ .blank hblank
  rw [if_neg hblank] at h
  cases hplace : s.place with
  | start =>
    simp only [hplace] at h
    split_ifs at h with hbrace
    exact Option.some.inj h ▸ .opened .object (.inl hbrace)
  | value =>
    simp only [hplace] at h
    exact turn_of_beginValue h
  | firstElement =>
    simp only [hplace] at h
    split_ifs at h with hclose
    · exact Option.some.inj h ▸ .closed (.inr hclose)
    · exact turn_of_beginValue h
  | firstKey =>
    simp only [hplace] at h
    split_ifs at h with hclose hquote
    · exact Option.some.inj h ▸ .closed (.inl hclose)
    · exact Option.some.inj h ▸ .key hquote
  | key =>
    simp only [hplace] at h
    split_ifs at h with hquote
    exact Option.some.inj h ▸ .key hquote
  | colon =>
    simp only [hplace] at h
    split_ifs at h with hcolon
    exact Option.some.inj h ▸ .next .value rfl (.inr hcolon)
  | behind =>
    simp only [hplace] at h
    exact turn_of_behindValue h
  | literal rest => simp only [hplace, reduceCtorEq] at h
  | number part => simp only [hplace, reduceCtorEq] at h
  | string role inside => simp only [hplace, reduceCtorEq] at h

theorem beginKey_plain (s : Spot) : s.beginKey.Plain := by
  unfold beginKey
  split_ifs
  · exact ⟨.topKey, rfl⟩
  · exact ⟨.key, rfl⟩

theorem Turn.entered (hs : s.Outside) (h : Turn s c t) : t.Entered c := by
  cases h with
  | blank hc =>
    refine .of_outside ?_ ?_ hs
    · rw [isOutsideByte, hc, Bool.or_true, Bool.true_or]
    · rintro rfl
      exact absurd hc (by decide)
  | opened container hc =>
    have hplace : (s.opened container).Outside := by cases container <;> rfl
    rcases hc with rfl | rfl <;> exact .of_outside (by decide) (by decide) hplace
  | closed hc => rcases hc with rfl | rfl <;> exact .of_outside (by decide) (by decide) rfl
  | key hc => exact .of_plain hc (beginKey_plain s)
  | string hc => exact .of_plain hc ⟨.value, rfl⟩
  | literal rest hc =>
    rcases hc with rfl | rfl | rfl <;> exact .of_outside (by decide) (by decide) rfl
  | number part hc =>
    obtain ⟨hbyte, hne, -⟩ := of_isNumeralByte (numeral_start hc)
    exact .of_outside hbyte hne rfl
  | next place hplace hc =>
    rcases hc with rfl | rfl <;> exact .of_outside (by decide) (by decide) hplace

/-- **Outside strings only a few bytes are read, and a double quote opens a string.** -/
theorem step_outside (hs : s.Outside) (h : s.step c = some t) : t.Entered c := by
  unfold step at h
  split at h
  · next role inside hplace => 
    rw [Outside, hplace] at hs
    cases hs
  · next rest hplace =>
    split_ifs at h with hbyte
    obtain rfl := Option.some.inj h
    rw [hbyte]
    cases rest <;> exact .of_outside (by decide) (by decide) rfl
  · next part hplace =>
    split at h
    · next part' hpart =>
      obtain rfl := Option.some.inj h
      obtain ⟨hbyte, hne, -⟩ := of_isNumeralByte (numeral_step hpart)
      exact .of_outside hbyte hne rfl
    · split_ifs at h
      have hturn : Turn (s.goto .behind) c t := turn_of_between h
      exact hturn.entered (show (s.goto .behind).Outside from rfl)
  · exact (turn_of_between h).entered hs

/-! ## Strings -/

/-- In the text of a string that is no key of the outermost object. -/
def inText (s : Spot) : Bool :=
  match s.place with
  | .string .value .plain | .string .key .plain => true
  | _ => false

theorem exists_role_of_inText (h : s.inText = true) :
    ∃ role, role ≠ .topKey ∧ s.place = .string role .plain := by
  unfold inText at h
  split at h
  · next hplace => exact ⟨.value, by decide, hplace⟩
  · next hplace => exact ⟨.key, by decide, hplace⟩
  · cases h

theorem inText_of_place {role : Role} (hrole : role ≠ .topKey)
    (hplace : s.place = .string role .plain) : s.inText = true := by
  unfold inText
  rw [hplace]
  cases role with
  | value => rfl
  | key => rfl
  | topKey => exact absurd rfl hrole

/-- Only the keys of the outermost object are written down. -/
theorem written_of_ne {role : Role} (hrole : role ≠ .topKey) (inside : Inside) (c : UInt8) :
    s.written role inside c = s.goto (.string role inside) := by
  cases role with
  | value => rfl
  | key => rfl
  | topKey => exact absurd rfl hrole

theorem goto_self {place : Place} (h : s.place = place) : s.goto place = s := by
  rw [← h]
  rfl

theorem step_string {role : Role} {inside : Inside} (h : s.place = .string role inside)
    (c : UInt8) : s.step c = s.inString role inside c := by
  rw [step, h]

theorem plain_step {role : Role} (hs : s.place = .string role .plain) (h : s.step c = some t) :
    (c = 0x22 ∧ t.Outside) ∨ (c = 0x5C ∧ t = s.written role .escape c)
      ∨ (c ≠ 0x22 ∧ c ≠ 0x5C ∧ t = s.written role .plain c) := by
  rw [step_string hs, inString] at h
  split_ifs at h with hquote hbackslash hcontrol
  · obtain rfl := Option.some.inj h
    refine .inl ⟨hquote, ?_⟩
    cases role <;> rfl
  · exact .inr (.inl ⟨hbackslash, (Option.some.inj h).symm⟩)
  · exact .inr (.inr ⟨hquote, hbackslash, (Option.some.inj h).symm⟩)

/-- **A byte without a meaning of its own leaves the reader where it is.** -/
theorem step_of_inText (hs : s.inText = true) (hquote : c ≠ 0x22) (hbackslash : c ≠ 0x5C)
    (hcontrol : 0x20 ≤ c) : s.step c = some s := by
  obtain ⟨role, hrole, hplace⟩ := exists_role_of_inText hs
  rw [step_string hplace, inString, if_neg hquote, if_neg hbackslash,
    if_neg (not_lt.mpr hcontrol), written_of_ne hrole, goto_self hplace]

theorem read_of_inText {text : Bytes} (hs : s.inText = true)
    (h : ∀ c ∈ text, c ≠ 0x22 ∧ c ≠ 0x5C ∧ 0x20 ≤ c) : s.read text = some s :=
  Automaton.run_eq_self fun c hc => step_of_inText hs (h c hc).1 (h c hc).2.1 (h c hc).2.2

/-- **A string is left only by a double quote behind a plain byte.** -/
theorem string_step {role : Role} {inside : Inside} (hs : s.place = .string role inside)
    (h : s.step c = some t) : (inside = .plain ∧ c = 0x22 ∧ t = s.goto role.behind)
      ∨ ∃ inside', t = s.written role inside' c := by
  rw [step_string hs] at h
  cases inside with
  | plain =>
    rw [inString] at h
    split_ifs at h with hquote
    · exact .inl ⟨rfl, hquote, (Option.some.inj h).symm⟩
    · exact .inr ⟨_, (Option.some.inj h).symm⟩
    · exact .inr ⟨_, (Option.some.inj h).symm⟩
  | escape =>
    rw [inString] at h
    split_ifs at h
    · exact .inr ⟨_, (Option.some.inj h).symm⟩
    · exact .inr ⟨_, (Option.some.inj h).symm⟩
  | hex left =>
    rw [inString] at h
    split_ifs at h
    exact .inr ⟨_, (Option.some.inj h).symm⟩

theorem step_inside {role : Role} {inside : Inside} (hrole : role ≠ .topKey)
    (hs : s.place = .string role inside) (hc : c ≠ 0x22) (h : s.step c = some t) :
    ∃ inside', t = s.goto (.string role inside') := by
  rcases string_step hs h with ⟨-, hquote, -⟩ | ⟨inside', rfl⟩
  · exact absurd hquote hc
  · exact ⟨inside', written_of_ne hrole inside' c⟩

/-- Text without a double quote is read within a string. -/
theorem read_inside {text : Bytes} {role : Role} {inside : Inside} (hrole : role ≠ .topKey)
    (hs : s.place = .string role inside) (htext : ∀ c ∈ text, c ≠ 0x22)
    (h : s.read text = some t) : ∃ inside', t = s.goto (.string role inside') := by
  refine Automaton.run_keeps_invariant
    (I := fun t => ∃ inside', t = s.goto (.string role inside')) ?_ ⟨inside, ?_⟩ h
  · rintro c hc _ t ⟨inside', rfl⟩ hstep
    exact step_inside (s := s.goto (.string role inside')) hrole rfl (htext c hc) hstep
  · exact (goto_self hs).symm

/-! ## Keys -/

theorem Turn.keys (h : Turn s c t) : t.keys = s.keys ∨ t.keys = [] :: s.keys := by
  cases h with
  | opened container hc => exact .inl (by cases container <;> rfl)
  | key hc =>
    unfold beginKey
    split_ifs
    · exact .inr rfl
    · exact .inl rfl
  | _ => exact .inl rfl

theorem written_keys (s : Spot) (role : Role) (inside : Inside) (c : UInt8) :
    (s.written role inside c).keys = s.keys
      ∨ (s.written role inside c).keys = (s.keys.headD [] ++ [c]) :: s.keys.tail := by
  cases role with
  | value => exact .inl rfl
  | key => exact .inl rfl
  | topKey => exact .inr rfl

/-- What a step does to the keys. -/
theorem step_keys (h : s.step c = some t) :
    (t.keys = s.keys ∨ t.keys = [] :: s.keys)
      ∨ t.keys = (s.keys.headD [] ++ [c]) :: s.keys.tail := by
  unfold step at h
  split at h
  · next role inside hplace =>
    rcases string_step hplace (by rw [step_string hplace, h]) with ⟨-, -, rfl⟩ | ⟨inside', rfl⟩
    · exact .inl (.inl rfl)
    · exact (written_keys s role inside' c).imp_left .inl
  · split_ifs at h
    exact .inl (.inl (by rw [← Option.some.inj h]; rfl))
  · split at h
    · exact .inl (.inl (by rw [← Option.some.inj h]; rfl))
    · split_ifs at h
      exact .inl (turn_of_between h).keys
  · exact .inl (turn_of_between h).keys

/-- No byte of a key is lost again. -/
theorem mem_keys_of_step {b : UInt8} (hb : b ∈ s.keys.flatten) (h : s.step c = some t) :
    b ∈ t.keys.flatten := by
  rcases step_keys h with (hkeys | hkeys) | hkeys
  · rwa [hkeys]
  · rwa [hkeys, List.flatten_cons, List.nil_append]
  · cases hs : s.keys with
    | nil =>
      rw [hs] at hb
      cases hb
    | cons key keys =>
      rw [hs, List.flatten_cons, List.mem_append] at hb
      rw [hkeys, hs, List.flatten_cons, List.mem_append, List.headD_cons, List.mem_append]
      exact hb.imp_left .inl

theorem mem_keys_of_read {b : UInt8} {text : Bytes} (hb : b ∈ s.keys.flatten)
    (h : s.read text = some t) : b ∈ t.keys.flatten :=
  Automaton.run_keeps_invariant (I := fun t => b ∈ t.keys.flatten)
    (fun _ _ _ _ hb h => mem_keys_of_step hb h) hb h

theorem length_keys_step (h : s.step c = some t) : s.keys.length ≤ t.keys.length := by
  rcases step_keys h with (hkeys | hkeys) | hkeys
  · rw [hkeys]
  · rw [hkeys]
    exact Nat.le_succ _
  · rw [hkeys, List.length_cons, List.length_tail]
    omega

/-- No key is given up again. -/
theorem length_keys_read {text : Bytes} (h : s.read text = some t) :
    s.keys.length ≤ t.keys.length :=
  Automaton.run_keeps_invariant (I := fun t => s.keys.length ≤ t.keys.length)
    (fun _ _ _ _ hs h => le_trans hs (length_keys_step h)) le_rfl h

end Spot

end BrokerExec.Json
