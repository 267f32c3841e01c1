import HyBBX.Lib.Md5
import Mathlib.Analysis.SpecialFunctions.Pow.Real
import Mathlib.NumberTheory.PrimeCounting

/-! The message digests SHA-1 and SHA-256 as FIPS 180-4 defines them, on whole bytes. -/

namespace HyBBX.Lib.Sha

open Bytes Blocks
open Md5 (leValue leBytes rotateLeft padding)

/-- Bytes as a number and back, the high-order byte first. -/
def beValue (bytes : Bytes) : ℕ := leValue bytes.reverse

def beBytes (n v : ℕ) : Bytes := (leBytes n v).reverse

def wordsOf (block : Bytes) : List UInt32 := (blocks 4 block).map fun bytes => UInt32.ofNat (beValue bytes)

def padded (message : Bytes) : Bytes := message ++ padding message.length ++ beBytes 8 (8 * message.length)

def rotateRight (x : UInt32) (s : ℕ) : UInt32 := ⟨x.toBitVec.rotateRight s⟩

def ch (x y z : UInt32) : UInt32 := x &&& y ^^^ ~~~x &&& z
def parity (x y z : UInt32) : UInt32 := x ^^^ y ^^^ z
def maj (x y z : UInt32) : UInt32 := x &&& y ^^^ x &&& z ^^^ y &&& z

section Sha1

structure Sha1State where
  a : UInt32
  b : UInt32
  c : UInt32
  d : UInt32
  e : UInt32
  deriving DecidableEq

def sha1Function (t : ℕ) : UInt32 → UInt32 → UInt32 → UInt32 :=
  if t < 20 then ch else if t < 40 then parity else if t < 60 then maj else parity

def sha1Constant (t : ℕ) : UInt32 :=
  if t < 20 then 0x5a827999 else if t < 40 then 0x6ed9eba1 else if t < 60 then 0x8f1bbcdc else 0xca62c1d6

/-- The message schedule. -/
def sha1Word (m : List UInt32) (t : ℕ) : UInt32 :=
  if t < 16 then m.getD t 0
  else rotateLeft (sha1Word m (t - 3) ^^^ sha1Word m (t - 8) ^^^ sha1Word m (t - 14) ^^^ sha1Word m (t - 16)) 1

def sha1Step (w : ℕ → UInt32) (s : Sha1State) (t : ℕ) : Sha1State :=
  ⟨rotateLeft s.a 5 + sha1Function t s.b s.c s.d + s.e + sha1Constant t + w t, s.a, rotateLeft s.b 30, s.c, s.d⟩

def sha1Compress (s : Sha1State) (block : Bytes) : Sha1State :=
  let r := (List.range 80).foldl (sha1Step (sha1Word (wordsOf block))) s
  ⟨r.a + s.a, r.b + s.b, r.c + s.c, r.d + s.d, r.e + s.e⟩

def sha1Start : Sha1State := ⟨0x67452301, 0xefcdab89, 0x98badcfe, 0x10325476, 0xc3d2e1f0⟩

def Sha1State.bytes (s : Sha1State) : Bytes := [s.a, s.b, s.c, s.d, s.e].flatMap fun w => beBytes 4 w.toNat

def sha1 (message : Bytes) : Bytes := ((blocks 64 (padded message)).foldl sha1Compress sha1Start).bytes

end Sha1

section Sha256

structure Sha256State where
  a : UInt32
  b : UInt32
  c : UInt32
  d : UInt32
  e : UInt32
  f : UInt32
  g : UInt32
  h : UInt32
  deriving DecidableEq

def bigSigma0 (x : UInt32) : UInt32 := rotateRight x 2 ^^^ rotateRight x 13 ^^^ rotateRight x 22
def bigSigma1 (x : UInt32) : UInt32 := rotateRight x 6 ^^^ rotateRight x 11 ^^^ rotateRight x 25
def sigma0 (x : UInt32) : UInt32 := rotateRight x 7 ^^^ rotateRight x 18 ^^^ x >>> 3
def sigma1 (x : UInt32) : UInt32 := rotateRight x 17 ^^^ rotateRight x 19 ^^^ x >>> 10

/-- The first 32 bits of the fractional part of a root. -/
noncomputable def rootWord (n p : ℕ) : UInt32 := UInt32.ofNat ⌊(2 ^ 32 : ℕ) * (p : ℝ) ^ (1 / n : ℝ)⌋₊

/-- The constants come from the cube roots of the first sixty-four primes. -/
noncomputable def sha256Constant (t : ℕ) : UInt32 := rootWord 3 (Nat.nth Nat.Prime t)

def sha256Word (m : List UInt32) (t : ℕ) : UInt32 :=
  if t < 16 then m.getD t 0
  else sigma1 (sha256Word m (t - 2)) + sha256Word m (t - 7) + sigma0 (sha256Word m (t - 15)) + sha256Word m (t - 16)

def sha256Step (k w : ℕ → UInt32) (s : Sha256State) (t : ℕ) : Sha256State :=
  let t1 := s.h + bigSigma1 s.e + ch s.e s.f s.g + k t + w t
  let t2 := bigSigma0 s.a + maj s.a s.b s.c
  ⟨t1 + t2, s.a, s.b, s.c, s.d + t1, s.e, s.f, s.g⟩

def sha256Compress (k : ℕ → UInt32) (s : Sha256State) (block : Bytes) : Sha256State :=
  let r := (List.range 64).foldl (sha256Step k (sha256Word (wordsOf block))) s
  ⟨r.a + s.a, r.b + s.b, r.c + s.c, r.d + s.d, r.e + s.e, r.f + s.f, r.g + s.g, r.h + s.h⟩

/-- The state begins with the square roots of the first eight primes. -/
noncomputable def sha256Start : Sha256State :=
  let word (t : ℕ) := rootWord 2 (Nat.nth Nat.Prime t)
  ⟨word 0, word 1, word 2, word 3, word 4, word 5, word 6, word 7⟩

def Sha256State.bytes (s : Sha256State) : Bytes :=
  [s.a, s.b, s.c, s.d, s.e, s.f, s.g, s.h].flatMap fun w => beBytes 4 w.toNat

noncomputable def sha256 (message : Bytes) : Bytes :=
  ((blocks 64 (padded message)).foldl (sha256Compress sha256Constant) sha256Start).bytes

end Sha256

section Roots

lemma rootWord_eq {n p r : ℕ} (hn : 0 < n) (hlow : r ^ n ≤ p * 2 ^ (32 * n)) (hhigh : p * 2 ^ (32 * n) < (r + 1) ^ n) :
    rootWord n p = UInt32.ofNat r := by
  have hroot : ((p : ℝ) ^ (1 / n : ℝ)) ^ n = p := by
    rw [one_div]
    exact Real.rpow_inv_natCast_pow (Nat.cast_nonneg p) hn.ne'
  have hpow : (2 ^ 32 * (p : ℝ) ^ (1 / n : ℝ)) ^ n = p * 2 ^ (32 * n) := by
    rw [mul_pow, hroot, ← pow_mul, mul_comm]
  have hpos : (0 : ℝ) ≤ 2 ^ 32 * (p : ℝ) ^ (1 / n : ℝ) := by positivity
  have hfloor : ⌊2 ^ 32 * (p : ℝ) ^ (1 / n : ℝ)⌋₊ = r := by
    rw [Nat.floor_eq_iff hpos]
    constructor
    · apply le_of_pow_le_pow_left₀ hn.ne' hpos
      rw [hpow]
      exact_mod_cast hlow
    · apply lt_of_pow_lt_pow_left₀ n (by positivity)
      rw [hpow]
      exact_mod_cast hhigh
  rw [rootWord, Nat.cast_pow, Nat.cast_ofNat, hfloor]

/-- Division by every smaller number decides. -/
def isPrime (n : ℕ) : Bool := decide (2 ≤ n) && (List.range n).all fun m => decide (m < 2) || n % m != 0

lemma isPrime_iff (n : ℕ) : isPrime n = true ↔ n.Prime := by
  rw [Nat.prime_def_lt', isPrime, Bool.and_eq_true, decide_eq_true_eq, List.all_eq_true]
  apply and_congr_right
  intro _
  constructor
  · intro h m hm hlt hdvd
    have hone := h m (List.mem_range.mpr hlt)
    rw [Nat.mod_eq_zero_of_dvd hdvd] at hone
    simp at hone
    omega
  · intro h m hm
    by_cases hsmall : m < 2
    · simp [hsmall]
    · have hnot := h m (not_lt.mp hsmall) (List.mem_range.mp hm)
      rw [Nat.dvd_iff_mod_eq_zero] at hnot
      simp [hnot]

/-- A table of numbers, each the next one with a property. -/
lemma nth_table {p : ℕ → Prop} [DecidablePred p] {l : List ℕ} (hzero : Nat.count p (l.getD 0 0) = 0)
    (hp : ∀ t < l.length, p (l.getD t 0))
    (hnext : ∀ t, t + 1 < l.length → l.getD t 0 ≤ l.getD (t + 1) 0 ∧
      Nat.count (fun k => p (l.getD t 0 + k)) (l.getD (t + 1) 0 - l.getD t 0) = 1) {t : ℕ} (ht : t < l.length) :
    Nat.nth p t = l.getD t 0 := by
  have hcount : ∀ t < l.length, Nat.count p (l.getD t 0) = t := by
    intro t
    induction t with
    | zero => exact fun _ => hzero
    | succ t ih =>
      intro hlt
      obtain ⟨hle, hone⟩ := hnext t hlt
      rw [← Nat.add_sub_cancel' hle, Nat.count_add, hone, ih (Nat.lt_of_succ_lt hlt)]
  have hnth := Nat.nth_count (hp t ht)
  rwa [hcount t ht] at hnth

def primes : List ℕ :=
    [2, 3, 5, 7, 11, 13, 17, 19, 23, 29, 31, 37, 41, 43, 47, 53, 59, 61, 67, 71, 73, 79, 83, 89, 97, 101, 103, 107, 109,
     113, 127, 131, 137, 139, 149, 151, 157, 163, 167, 173, 179, 181, 191, 193, 197, 199, 211, 223, 227, 229, 233, 239,
     241, 251, 257, 263, 269, 271, 277, 281, 283, 293, 307, 311]

lemma nth_prime {t : ℕ} (ht : t < 64) : Nat.nth Nat.Prime t = primes.getD t 0 := by
  have hsame : Nat.Prime = fun n => isPrime n = true := funext fun n => propext (isPrime_iff n).symm
  have hnext : ∀ t < 63, primes.getD t 0 ≤ primes.getD (t + 1) 0 ∧
      Nat.count (fun k => isPrime (primes.getD t 0 + k) = true) (primes.getD (t + 1) 0 - primes.getD t 0) = 1 := by
    decide +kernel
  rw [hsame]
  exact @nth_table _ _ primes (by decide +kernel) (by decide +kernel)
    (fun t ht => hnext t (Nat.lt_of_succ_lt_succ ht)) t ht

end Roots

end HyBBX.Lib.Sha
