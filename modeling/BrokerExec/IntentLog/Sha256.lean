import BrokerExec.Lib.Utf8

/-!
# SHA-256 (`intentlog/sha256.cpp`)

The vendored hash both chains are built on, byte for byte: `update` fills a 64-byte buffer
and transforms it when it is full, `hex` pads and prints the digest. The development uses
only what the digest looks like:

* **`length_sha256Hex`** — 64 bytes;
* **`mem_sha256Hex`** — each a lowercase hexadecimal digit, so ASCII.
-/

namespace BrokerExec.IntentLog

def kRoundConstants : List UInt32 := [
  0x428a2f98, 0x71374491, 0xb5c0fbcf, 0xe9b5dba5, 0x3956c25b, 0x59f111f1, 0x923f82a4,
  0xab1c5ed5, 0xd807aa98, 0x12835b01, 0x243185be, 0x550c7dc3, 0x72be5d74, 0x80deb1fe,
  0x9bdc06a7, 0xc19bf174, 0xe49b69c1, 0xefbe4786, 0x0fc19dc6, 0x240ca1cc, 0x2de92c6f,
  0x4a7484aa, 0x5cb0a9dc, 0x76f988da, 0x983e5152, 0xa831c66d, 0xb00327c8, 0xbf597fc7,
  0xc6e00bf3, 0xd5a79147, 0x06ca6351, 0x14292967, 0x27b70a85, 0x2e1b2138, 0x4d2c6dfc,
  0x53380d13, 0x650a7354, 0x766a0abb, 0x81c2c92e, 0x92722c85, 0xa2bfe8a1, 0xa81a664b,
  0xc24b8b70, 0xc76c51a3, 0xd192e819, 0xd6990624, 0xf40e3585, 0x106aa070, 0x19a4c116,
  0x1e376c08, 0x2748774c, 0x34b0bcb5, 0x391c0cb3, 0x4ed8aa4a, 0x5b9cca4f, 0x682e6ff3,
  0x748f82ee, 0x78a5636f, 0x84c87814, 0x8cc70208, 0x90befffa, 0xa4506ceb, 0xbef9a3f7,
  0xc67178f2]

def rotr (x n : UInt32) : UInt32 := (x >>> n) ||| (x <<< (32 - n))

/-- The eight words `state_`, and the working variables `a … h` of one transform. -/
structure Words where
  a : UInt32
  b : UInt32
  c : UInt32
  d : UInt32
  e : UInt32
  f : UInt32
  g : UInt32
  h : UInt32

/-- A hasher; `buffer` holds the first `buffer_len_` bytes of `buffer_`. -/
structure Sha256 where
  state : Words
  buffer : Bytes
  bitLen : UInt64

def Sha256.init : Sha256 where
  state := ⟨0x6a09e667, 0xbb67ae85, 0x3c6ef372, 0xa54ff53a,
    0x510e527f, 0x9b05688c, 0x1f83d9ab, 0x5be0cd19⟩
  buffer := []
  bitLen := 0

/-! ## The transform -/

/-- `w[0..16]`: the block as big-endian words. -/
def blockWords : Bytes → List UInt32
  | b0 :: b1 :: b2 :: b3 :: rest =>
    ((b0.toUInt32 <<< 24) ||| (b1.toUInt32 <<< 16) ||| (b2.toUInt32 <<< 8) ||| b3.toUInt32)
      :: blockWords rest
  | _ => []

/-- `w[i]` for one `i ≥ 16`, from the words before it. -/
def scheduleWord (w : List UInt32) (i : Nat) : UInt32 :=
  let w15 := w.getD (i - 15) 0
  let w2 := w.getD (i - 2) 0
  let s0 := rotr w15 7 ^^^ rotr w15 18 ^^^ (w15 >>> 3)
  let s1 := rotr w2 17 ^^^ rotr w2 19 ^^^ (w2 >>> 10)
  w.getD (i - 16) 0 + s0 + w.getD (i - 7) 0 + s1

def schedule (block : Bytes) : List UInt32 :=
  (List.range' 16 48).foldl (fun w i => w ++ [scheduleWord w i]) (blockWords block)

/-- One of the 64 rounds. -/
def round (s : Words) (kw : UInt32 × UInt32) : Words :=
  let s1 := rotr s.e 6 ^^^ rotr s.e 11 ^^^ rotr s.e 25
  let ch := (s.e &&& s.f) ^^^ (~~~ s.e &&& s.g)
  let temp1 := s.h + s1 + ch + kw.1 + kw.2
  let s0 := rotr s.a 2 ^^^ rotr s.a 13 ^^^ rotr s.a 22
  let maj := (s.a &&& s.b) ^^^ (s.a &&& s.c) ^^^ (s.b &&& s.c)
  let temp2 := s0 + maj
  { a := temp1 + temp2, b := s.a, c := s.b, d := s.c, e := s.d + temp1, f := s.e, g := s.f,
    h := s.g }

def transform (s : Words) (block : Bytes) : Words :=
  let t := (kRoundConstants.zip (schedule block)).foldl round s
  ⟨s.a + t.a, s.b + t.b, s.c + t.c, s.d + t.d, s.e + t.e, s.f + t.f, s.g + t.g, s.h + t.h⟩

/-! ## Absorbing and finishing -/

/-- One byte of `update`. -/
def Sha256.updateByte (s : Sha256) (b : UInt8) : Sha256 :=
  let buffer := s.buffer ++ [b]
  if buffer.length = 64 then
    { state := transform s.state buffer, buffer := [], bitLen := s.bitLen + 8 }
  else { s with buffer := buffer, bitLen := s.bitLen + 8 }

def Sha256.update (s : Sha256) (data : Bytes) : Sha256 := data.foldl Sha256.updateByte s

/-- The zero padding: at most 64 zeros bring the buffer to 56 bytes. -/
def Sha256.padTo56 : Nat → Sha256 → Sha256
  | 0, s => s
  | fuel + 1, s => if s.buffer.length ≠ 56 then padTo56 fuel (s.update [0x00]) else s

def lengthBytes (totalBits : UInt64) : Bytes :=
  (List.range 8).map fun i => (totalBits >>> (56 - UInt64.ofNat i * 8)).toUInt8

def kHexDigits (n : Nat) : UInt8 := UInt8.ofNat (if n < 10 then 48 + n else 87 + n)

def hexByte (b : UInt8) : Bytes := [kHexDigits (b.toNat / 16), kHexDigits (b.toNat % 16)]

def hexWord (word : UInt32) : Bytes :=
  ([24, 16, 8, 0] : List UInt32).flatMap fun shift => hexByte (word >>> shift).toUInt8

def Words.hex (s : Words) : Bytes :=
  [s.a, s.b, s.c, s.d, s.e, s.f, s.g, s.h].flatMap hexWord

def Sha256.hex (s : Sha256) : Bytes :=
  let totalBits := s.bitLen
  let padded := padTo56 64 (s.update [0x80])
  (transform padded.state (padded.buffer ++ lengthBytes totalBits)).hex

def sha256Hex (data : Bytes) : Bytes := (Sha256.init.update data).hex

/-! ## What a digest looks like -/

/-- `0-9a-f`. -/
def isHexDigit (b : UInt8) : Bool := (48 ≤ b && b ≤ 57) || (97 ≤ b && b ≤ 102)

theorem isHexDigit_kHexDigits {n : Nat} (hn : n < 16) : isHexDigit (kHexDigits n) = true := by
  revert n
  decide

theorem mem_hexWord {word : UInt32} {b : UInt8} (hb : b ∈ hexWord word) :
    isHexDigit b = true := by
  obtain ⟨shift, -, hb⟩ := List.mem_flatMap.mp hb
  have hdiv := Nat.div_lt_of_lt_mul (word >>> shift).toUInt8.toNat_lt (n := 16) (k := 16)
  have hmod : (word >>> shift).toUInt8.toNat % 16 < 16 := Nat.mod_lt _ (by omega)
  rcases List.mem_cons.mp hb with rfl | hb
  · exact isHexDigit_kHexDigits hdiv
  · rw [List.mem_singleton.mp hb]
    exact isHexDigit_kHexDigits hmod

/-- **A digest is 64 bytes.** -/
theorem length_sha256Hex (data : Bytes) : (sha256Hex data).length = 64 := rfl

/-- **A digest is lowercase hexadecimal.** -/
theorem mem_sha256Hex {data : Bytes} {b : UInt8} (hb : b ∈ sha256Hex data) :
    isHexDigit b = true := by
  obtain ⟨word, -, hb⟩ := List.mem_flatMap.mp hb
  exact mem_hexWord hb

theorem isHexDigit_lt {b : UInt8} (hb : isHexDigit b = true) : b < 0x80 := by
  simp only [isHexDigit, Bool.or_eq_true, Bool.and_eq_true, decide_eq_true_eq,
    UInt8.le_iff_toNat_le] at hb
  rw [UInt8.lt_iff_toNat_lt]
  rcases hb with hb | hb
  · exact lt_of_le_of_lt hb.2 (by decide)
  · exact lt_of_le_of_lt hb.2 (by decide)

theorem sha256Hex_wellFormed (data : Bytes) : WellFormed (sha256Hex data) :=
  .of_ascii fun _ hb => isHexDigit_lt (mem_sha256Hex hb)

theorem sha256Hex_ne_nil (data : Bytes) : sha256Hex data ≠ [] := by
  intro h
  have := length_sha256Hex data
  rw [h] at this
  simp at this


/-- The known answer for `"abc"` that `sha256_test.cpp` pins. -/
example : sha256Hex (ascii "abc")
    = ascii "ba7816bf8f01cfea414140de5dae2223b00361a396177a9cb410ff61f20015ad" := by
  decide +kernel

end BrokerExec.IntentLog
