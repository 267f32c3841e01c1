import HyBBX.Lib.Blocks
import HyBBX.Lib.Bytes
import HyBBX.Lib.SineTable

/-! The MD5 message digest as RFC 1321 defines it, on whole bytes. -/

namespace HyBBX.Lib.Md5

open Bytes Blocks SineTable

/-- The four words of the MD buffer. -/
structure MdBuffer where
  a : UInt32
  b : UInt32
  c : UInt32
  d : UInt32
  deriving DecidableEq

def auxF (x y z : UInt32) : UInt32 := x &&& y ||| ~~~x &&& z
def auxG (x y z : UInt32) : UInt32 := x &&& z ||| y &&& ~~~z
def auxH (x y z : UInt32) : UInt32 := x ^^^ y ^^^ z
def auxI (x y z : UInt32) : UInt32 := y ^^^ (x ||| ~~~z)

/-- What the four rounds differ in: the function, the order of the words and the shifts. -/
def auxOf (i : ℕ) : UInt32 → UInt32 → UInt32 → UInt32 :=
  if i < 16 then auxF else if i < 32 then auxG else if i < 48 then auxH else auxI

def wordOf (i : ℕ) : ℕ :=
  if i < 16 then i else if i < 32 then (5 * i + 1) % 16 else if i < 48 then (3 * i + 5) % 16 else 7 * i % 16

def shiftOf (i : ℕ) : ℕ :=
  (if i < 16 then [7, 12, 17, 22] else if i < 32 then [5, 9, 14, 20] else if i < 48 then [4, 11, 16, 23]
    else [6, 10, 15, 21]).getD (i % 4) 0

def rotateLeft (x : UInt32) (s : ℕ) : UInt32 := ⟨x.toBitVec.rotateLeft s⟩

/-- The integer part of 4294967296 times the sine of `i` radians, without its sign. -/
noncomputable def sineWord (i : ℕ) : UInt32 := UInt32.ofNat ⌊2 ^ 32 * |Real.sin i|⌋₊

/-- Bytes as a number and back, the low-order byte first. -/
def leValue (bytes : Bytes) : ℕ := Nat.ofDigits 256 (bytes.map UInt8.toNat)

def leBytes (n v : ℕ) : Bytes := (List.range n).map fun j => byteAt v (8 * j)

def wordsOf (block : Bytes) : List UInt32 := (blocks 4 block).map fun bytes => UInt32.ofNat (leValue bytes)

lemma byteAt_mod {v k n : ℕ} (h : k + 8 ≤ n) : byteAt (v % 2 ^ n) k = byteAt v k := by
  have hpow : 2 ^ n = 2 ^ k * 2 ^ (n - k) := by rw [← pow_add, Nat.add_sub_cancel' (Nat.le_of_add_right_le h)]
  have hdvd : 256 ∣ 2 ^ (n - k) := Nat.pow_dvd_pow 2 (by omega : 8 ≤ n - k)
  rw [byteAt, byteAt, hpow, Nat.mod_mul_right_div_self, Nat.mod_mod_of_dvd _ hdvd]

lemma byteAt_div (v n k : ℕ) : byteAt (v / 2 ^ n) k = byteAt v (n + k) := by
  rw [byteAt, byteAt, Nat.div_div_eq_div_mul, pow_add]

section Table

variable (table : ℕ → UInt32)

def step (words : List UInt32) (md : MdBuffer) (i : ℕ) : MdBuffer :=
  ⟨md.d, md.b + rotateLeft (md.a + auxOf i md.b md.c md.d + words.getD (wordOf i) 0 + table (i + 1)) (shiftOf i),
    md.b, md.c⟩

def compress (md : MdBuffer) (block : Bytes) : MdBuffer :=
  let r := (List.range 64).foldl (step table (wordsOf block)) md
  ⟨md.a + r.a, md.b + r.b, md.c + r.c, md.d + r.d⟩

def start : MdBuffer := ⟨0x67452301, 0xefcdab89, 0x98badcfe, 0x10325476⟩

/-- A one bit, and zeros up to 448 bits modulo 512. -/
def padding (n : ℕ) : Bytes := 0x80 :: List.replicate ((119 - n % 64) % 64) 0

def padded (message : Bytes) : Bytes := message ++ padding message.length ++ leBytes 8 (8 * message.length)

def digestWith (message : Bytes) : MdBuffer := (blocks 64 (padded message)).foldl (compress table) start

end Table

def MdBuffer.bytes (md : MdBuffer) : Bytes := [md.a, md.b, md.c, md.d].flatMap fun w => leBytes 4 w.toNat

noncomputable def digest (message : Bytes) : Bytes := (digestWith sineWord message).bytes

def hexByte (b : UInt8) : Bytes := [b.toNat / 16, b.toNat % 16].map fun v =>
    UInt8.ofNat (if v < 10 then 0x30 + v else 0x57 + v)

/-- Bytes in lower-case hexadecimal digits. -/
def hex (bytes : Bytes) : Bytes := bytes.flatMap hexByte

/-- The table, as it can be computed. -/
def tableWord (i : ℕ) : UInt32 := UInt32.ofNat (sineBits 32 i)

lemma sineWord_eq {i : ℕ} (hi : i < 64) : sineWord (i + 1) = tableWord (i + 1) := by
  have hclear : ∀ k ∈ Finset.range 64, Clear 32 (k + 1) := by decide +kernel
  rw [sineWord, tableWord,
    sineBits_eq ((by omega : i + 1 ≤ 64).trans (by norm_num)) (hclear i (Finset.mem_range.mpr hi))]

lemma compress_sine : compress sineWord = compress tableWord := by
  have hstep : ∀ words md, ∀ i ∈ List.range 64, step sineWord words md i = step tableWord words md i := by
    intro words md i hi
    rw [step, step, sineWord_eq (List.mem_range.mp hi)]
  funext md block
  rw [compress, compress, List.foldl_ext _ _ md fun md' i hi => hstep (wordsOf block) md' i hi]

lemma digest_eq (message : Bytes) : digest message = (digestWith tableWord message).bytes := by
  rw [digest, digestWith, compress_sine, digestWith]

example : hex (digestWith tableWord (ofString "abc")).bytes = ofString "900150983cd24fb0d6963f7d28e17f72" := by
  decide +kernel

example : hex (digestWith tableWord (ofString
    "12345678901234567890123456789012345678901234567890123456789012345678901234567890")).bytes =
      ofString "57edf4a22be3c955ac49da2e2107b67a" := by
  decide +kernel

end HyBBX.Lib.Md5
