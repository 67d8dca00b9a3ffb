import Mathlib.Data.List.Infix
import Mathlib.Data.List.Lex
import Mathlib.Data.Nat.Digits.Defs

/-!
# Byte strings and newline-framed files

A `std::string` is a list of bytes. This module has what any line-oriented, append-only
text file needs:

* **`ascii`** turns a literal of the source into its bytes, **`decimal`** is
  `std::to_string` of a signed integer;
* **`chunks`** cuts file content at every newline, keeping for each piece whether its
  newline was missing. It is the `find('\n')` loop and, forgetting the flag, `std::getline`;
* **`chunks_terminated`** — a file made of whole lines, then a remainder, is cut into those
  lines, then the pieces of the remainder.
-/

namespace BrokerExec

/-- The bytes of a `std::string`. -/
abbrev Bytes := List UInt8

/-- Byte order; `std::string` and `BINARY` collation compare by it, lexicographically. -/
instance byteOrder : LinearOrder UInt8 where
  le_refl := UInt8.le_refl
  le_trans _ _ _ := UInt8.le_trans
  le_antisymm _ _ := UInt8.le_antisymm
  le_total := UInt8.le_total
  lt_iff_le_not_ge a b := by
    rw [UInt8.lt_iff_toNat_lt, UInt8.le_iff_toNat_le, UInt8.le_iff_toNat_le]
    omega
  toDecidableLE := inferInstance

/-- The bytes of a literal; every literal of the source is ASCII. -/
def ascii (s : String) : Bytes := s.toList.map fun c => UInt8.ofNat c.toNat

instance bytesLawfulBEq : LawfulBEq Bytes := inferInstance

/-- What holds of every byte of a text is decided along the text, not over all bytes. -/
instance (priority := 1100) decidableForallMem (text : Bytes) (P : UInt8 → Prop) [DecidablePred P] :
    Decidable (∀ c ∈ text, P c) :=
  List.decidableBAll P text

/-- `'\n'`. -/
def newline : UInt8 := 10

/-! ## Decimal rendering -/

/-- The decimal digits of a natural number, most significant first. -/
def decimalNat (n : Nat) : Bytes := (Nat.toDigits 10 n).map fun c => UInt8.ofNat c.toNat

/-- `std::to_string` of a signed integer. -/
def decimal : Int → Bytes
  | .ofNat n => decimalNat n
  | .negSucc n => 45 :: decimalNat (n + 1)

/-- A decimal digit. -/
def isDigit (b : UInt8) : Bool := 48 ≤ b && b ≤ 57

theorem toNat_of_mem_toDigits {n : Nat} {c : Char} (hc : c ∈ Nat.toDigits 10 n) :
    48 ≤ c.toNat ∧ c.toNat ≤ 57 :=
  Char.isDigit_iff_toNat.mp (Nat.isDigit_of_mem_toDigits (by omega) (Nat.le_refl 10) hc)

theorem mem_decimalNat {n : Nat} {b : UInt8} (hb : b ∈ decimalNat n) : isDigit b = true := by
  obtain ⟨c, hc, rfl⟩ := List.mem_map.mp hb
  have hdigit := toNat_of_mem_toDigits hc
  have hbyte : (UInt8.ofNat c.toNat).toNat = c.toNat :=
    UInt8.toNat_ofNat_of_lt' (by show c.toNat < 256; omega)
  simp only [isDigit, Bool.and_eq_true, decide_eq_true_eq, UInt8.le_iff_toNat_le, hbyte]
  exact hdigit

/-- A rendered integer has only digits and at most a leading minus. -/
theorem mem_decimal {i : Int} {b : UInt8} (hb : b ∈ decimal i) : isDigit b = true ∨ b = 45 := by
  cases i with
  | ofNat n => exact .inl (mem_decimalNat hb)
  | negSucc n =>
    rcases List.mem_cons.mp hb with rfl | hb
    · exact .inr rfl
    · exact .inl (mem_decimalNat hb)

theorem decimalNat_ne_nil (n : Nat) : decimalNat n ≠ [] := by
  simp [decimalNat, Nat.toDigits_ne_nil]

/-- The number a run of digits denotes. -/
def digitsValue (ds : Bytes) : Nat := ds.foldl (fun acc b => 10 * acc + (b.toNat - 48)) 0

theorem foldl_digits (ds : Bytes) (acc : Nat) :
    ds.foldl (fun acc b => 10 * acc + (b.toNat - 48)) acc
      = acc * 10 ^ ds.length + digitsValue ds := by
  induction ds generalizing acc with
  | nil => simp [digitsValue]
  | cons d ds ih =>
    rw [digitsValue, List.foldl_cons, List.foldl_cons, ih, ih (10 * 0 + _), List.length_cons,
      Nat.pow_succ]
    ring

theorem digitsValue_append (ds es : Bytes) :
    digitsValue (ds ++ es) = digitsValue ds * 10 ^ es.length + digitsValue es := by
  rw [digitsValue, List.foldl_append, foldl_digits]
  rfl

theorem digitsValue_cons (d : UInt8) (ds : Bytes) :
    digitsValue (d :: ds) = (d.toNat - 48) * 10 ^ ds.length + digitsValue ds := by
  rw [← List.singleton_append, digitsValue_append]
  simp [digitsValue]

theorem digitsValue_lt {ds : Bytes} (hds : ∀ d ∈ ds, isDigit d = true) :
    digitsValue ds < 10 ^ ds.length := by
  induction ds with
  | nil => simp [digitsValue]
  | cons d ds ih =>
    have hd := hds d List.mem_cons_self
    simp only [isDigit, Bool.and_eq_true, decide_eq_true_eq, UInt8.le_iff_toNat_le] at hd
    have hhigh : d.toNat - 48 ≤ 9 := by
      have : d.toNat ≤ 57 := hd.2
      omega
    have htail := ih fun c hc => hds c (List.mem_cons_of_mem _ hc)
    have hhead := Nat.mul_le_mul_right (10 ^ ds.length) hhigh
    rw [digitsValue_cons, List.length_cons, Nat.pow_succ]
    omega

theorem digitsValue_decimalNat (n : Nat) : digitsValue (decimalNat n) = n := by
  -- each character's code fits in a byte, so the byte fold is the character fold
  have hfold : ∀ (cs : List Char), (∀ c ∈ cs, c.toNat < 256) → ∀ acc,
      (cs.map fun c => UInt8.ofNat c.toNat).foldl (fun acc b => 10 * acc + (b.toNat - 48)) acc
        = Nat.ofDigitChars 10 cs acc := by
    intro cs
    induction cs with
    | nil => simp
    | cons c cs ih =>
      intro hcs acc
      have hc : c.toNat < 256 := hcs c (by simp)
      rw [List.map_cons, List.foldl_cons, Nat.ofDigitChars_cons,
        ih fun d hd => hcs d (by simp [hd])]
      simp [Nat.mod_eq_of_lt hc]
  have hsmall : ∀ c ∈ Nat.toDigits 10 n, c.toNat < 256 := by
    intro c hc
    have hdigit := toNat_of_mem_toDigits hc
    omega
  rw [digitsValue, decimalNat, hfold _ hsmall, Nat.ofDigitChars_ten_toDigits]

theorem decimalNat_inj {m n : Nat} (h : decimalNat m = decimalNat n) : m = n := by
  rw [← digitsValue_decimalNat m, h, digitsValue_decimalNat]

/-- Integers are rendered apart. -/
theorem decimal_inj {i j : Int} (h : decimal i = decimal j) : i = j := by
  -- a minus is no digit, so it tells the signs apart
  have hminus : ∀ n rest, decimalNat n ≠ 45 :: rest := by
    intro n rest hn
    have hdigit : isDigit 45 = true := mem_decimalNat (n := n) (hn ▸ List.mem_cons_self)
    exact absurd hdigit (by decide)
  cases i with
  | ofNat m =>
    cases j with
    | ofNat n => exact congrArg Int.ofNat (decimalNat_inj h)
    | negSucc n => exact absurd h (hminus m _)
  | negSucc m =>
    cases j with
    | ofNat n => exact absurd h.symm (hminus n _)
    | negSucc n =>
      have hsucc : m + 1 = n + 1 := decimalNat_inj (List.cons.inj h).2
      rw [Nat.succ.inj hsucc]

/-! ## Cutting a text at a byte -/

/-- Two texts with one stopping byte behind each. -/
theorem append_inj_of_stop {P : UInt8 → Prop} {a b r s : Bytes} (ha : ∀ c ∈ a, P c)
    (hb : ∀ c ∈ b, P c) (hr : ∀ c ∈ r.head?, ¬ P c) (hs : ∀ c ∈ s.head?, ¬ P c)
    (h : a ++ r = b ++ s) : a = b ∧ r = s := by
  induction a generalizing b with
  | nil =>
    cases b with
    | nil => exact ⟨rfl, h⟩
    | cons c b =>
      refine absurd (hb c List.mem_cons_self) (hr c ?_)
      rw [show r = c :: (b ++ s) from h]
      rfl
  | cons d a ih =>
    cases b with
    | nil =>
      refine absurd (ha d List.mem_cons_self) (hs d ?_)
      rw [show s = d :: (a ++ r) from h.symm]
      rfl
    | cons c b =>
      obtain ⟨rfl, htail⟩ := List.cons.inj h
      obtain ⟨rfl, hrest⟩ := ih (fun e he => ha e (List.mem_cons_of_mem _ he))
        (fun e he => hb e (List.mem_cons_of_mem _ he)) htail
      exact ⟨rfl, hrest⟩

/-- A separator that is not behind itself again cuts a text in one way. -/
theorem append_inj_of_last {sep : UInt8} {a b r s : Bytes} (hr : sep ∉ r) (hs : sep ∉ s)
    (h : a ++ sep :: r = b ++ sep :: s) : a = b ∧ r = s := by
  have hreversed : r.reverse ++ sep :: a.reverse = s.reverse ++ sep :: b.reverse := by
    simpa using congrArg List.reverse h
  have hcut : r.reverse = s.reverse ∧ sep :: a.reverse = sep :: b.reverse :=
    append_inj_of_stop (P := (· ≠ sep))
      (fun c hc => ne_of_mem_of_not_mem (List.mem_reverse.mp hc) hr)
      (fun c hc => ne_of_mem_of_not_mem (List.mem_reverse.mp hc) hs) (by simp) (by simp) hreversed
  exact ⟨List.reverse_injective (List.cons.inj hcut.2).2, List.reverse_injective hcut.1⟩

/-! ## Cutting a file at its newlines -/

/-- The pieces between newlines, each with a flag that is `true` when no newline ends it.
Only the last piece can carry the flag, and the empty remainder after a final newline is
not a piece. -/
def chunks : Bytes → List (Bytes × Bool)
  | [] => []
  | b :: bs =>
    if b = newline then ([], false) :: chunks bs
    else
      match chunks bs with
      | [] => [([b], true)]
      | (l, u) :: rest => (b :: l, u) :: rest

/-- A line as it stands in a file: its text and the newline that ends it. -/
def terminated (l : Bytes) : Bytes := l ++ [newline]

@[simp] theorem chunks_nil : chunks [] = [] := rfl

@[simp] theorem chunks_newline (bs : Bytes) :
    chunks (newline :: bs) = ([], false) :: chunks bs := by
  simp [chunks]

/-- A newline-free text followed by a newline is one terminated piece. -/
theorem chunks_append_newline {l : Bytes} (hl : newline ∉ l) (rest : Bytes) :
    chunks (l ++ newline :: rest) = (l, false) :: chunks rest := by
  induction l with
  | nil => simp
  | cons b l ih =>
    have hb : b ≠ newline := fun h => hl (by simp [h])
    have hl' : newline ∉ l := fun h => hl (by simp [h])
    simp [chunks, hb, ih hl']

/-- A non-empty newline-free text alone is one unterminated piece. -/
theorem chunks_fragment {l : Bytes} (hl : newline ∉ l) (hne : l ≠ []) :
    chunks l = [(l, true)] := by
  induction l with
  | nil => exact absurd rfl hne
  | cons b l ih =>
    have hb : b ≠ newline := fun h => hl (by simp [h])
    have hl' : newline ∉ l := fun h => hl (by simp [h])
    cases l with
    | nil => simp [chunks, hb]
    | cons c l =>
      rw [chunks, if_neg hb, ih hl' (by simp)]

/-- Whole lines at the front of a file are cut off one by one. -/
theorem chunks_terminated {ls : List Bytes} (hls : ∀ l ∈ ls, newline ∉ l) (rest : Bytes) :
    chunks (ls.flatMap terminated ++ rest) = ls.map (·, false) ++ chunks rest := by
  induction ls with
  | nil => rfl
  | cons l ls ih =>
    have hl : newline ∉ l := hls l (by simp)
    have hrest : ∀ l ∈ ls, newline ∉ l := fun m hm => hls m (by simp [hm])
    rw [List.flatMap_cons, terminated, List.append_assoc, List.append_assoc,
      List.singleton_append, chunks_append_newline hl, ih hrest]
    rfl

/-- No piece holds a newline. -/
theorem newline_notMem_chunks (file : Bytes) : ∀ piece ∈ chunks file, newline ∉ piece.1 := by
  induction file with
  | nil => simp
  | cons b bs ih =>
    by_cases hb : b = newline
    · rw [hb, chunks_newline]
      intro piece hpiece
      rcases List.mem_cons.mp hpiece with rfl | hpiece
      · simp
      · exact ih piece hpiece
    · rw [chunks, if_neg hb]
      cases hbs : chunks bs with
      | nil =>
        intro piece hpiece
        rw [List.mem_singleton.mp hpiece]
        simpa using Ne.symm hb
      | cons head rest =>
        obtain ⟨l, u⟩ := head
        rw [hbs] at ih
        intro piece hpiece
        rcases List.mem_cons.mp hpiece with rfl | hpiece
        · have hl : newline ∉ l := ih (l, u) (by simp)
          simpa [hl] using Ne.symm hb
        · exact ih piece (by simp [hpiece])

/-- A file that ends on a newline is its lines, each terminated. -/
theorem flatMap_terminated_chunks {file : Bytes}
    (h : file = [] ∨ file.getLast? = some newline) :
    ((chunks file).map Prod.fst).flatMap terminated = file := by
  induction file with
  | nil => rfl
  | cons b bs ih =>
    have hbs : bs = [] ∨ bs.getLast? = some newline := by
      rcases h with h | h
      · cases h
      · cases bs with
        | nil => exact .inl rfl
        | cons c cs => exact .inr (by simpa using h)
    by_cases hb : b = newline
    · rw [hb, chunks_newline, List.map_cons, List.flatMap_cons, ih hbs]
      rfl
    · have hlines := ih hbs
      rw [chunks, if_neg hb]
      cases hchunks : chunks bs with
      | nil =>
        -- then `b` itself would be the last byte
        obtain rfl : bs = [] := by simpa [hchunks] using hlines.symm
        have hlast : b = newline := by simpa using h
        exact absurd hlast hb
      | cons head rest =>
        obtain ⟨l, u⟩ := head
        rw [hchunks] at hlines
        show (b :: l ++ [newline]) ++ (rest.map Prod.fst).flatMap terminated = b :: bs
        rw [← hlines]
        rfl

/-! ## Appending to a file -/

/-- How one appended line fared: all of it is written and synced, the write was short, or the
bytes were handed over and a later flush, sync or close failed. A failure leaves some front
part of the line in the file. -/
inductive WriteIo where
  | done
  | shortWrite (landed : Nat)
  | syncFailed (landed : Nat)
  deriving DecidableEq

/-- The bytes of `line` that reach the file. -/
def WriteIo.landed : WriteIo → Bytes → Bytes
  | .done, line => line
  | .shortWrite n, line => line.take n
  | .syncFailed n, line => line.take n

/-- Some byte of the line reaches the file. -/
def WriteIo.lands : WriteIo → Bool
  | .done => true
  | .shortWrite n => 0 < n
  | .syncFailed n => 0 < n

/-- The write fails and some byte of the line reaches the file. -/
def WriteIo.leaves : WriteIo → Bool
  | .done => false
  | .shortWrite n => 0 < n
  | .syncFailed n => 0 < n

theorem WriteIo.landed_prefix (io : WriteIo) (line : Bytes) : io.landed line <+: line := by
  cases io with
  | done => exact List.prefix_rfl
  | shortWrite n => exact List.take_prefix n line
  | syncFailed n => exact List.take_prefix n line

theorem WriteIo.landed_eq_nil {io : WriteIo} (h : io.lands = false) (line : Bytes) :
    io.landed line = [] := by
  cases io with
  | done => simp [WriteIo.lands] at h
  | shortWrite n =>
    obtain rfl : n = 0 := by simpa [WriteIo.lands] using h
    rfl
  | syncFailed n =>
    obtain rfl : n = 0 := by simpa [WriteIo.lands] using h
    rfl

end BrokerExec
