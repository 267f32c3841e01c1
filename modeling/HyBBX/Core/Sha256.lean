import HyBBX.Core.Md5
import HyBBX.Lib.Sha

/-! The SHA-256 of stored passwords: a context that takes one byte after the other. -/

namespace HyBBX.Core

open Lib Lib.Bytes Lib.Text Lib.Blocks Lib.Sha
open Lib.Md5 (hex)

structure Tinysha256Ctx where
  state : Sha256State
  buffer : Bytes
  nBits : UInt64
  bufferCounter : ℕ

def tinysha256Rotr (x : UInt32) (n : ℕ) : UInt32 := x >>> UInt32.ofNat n ||| x <<< UInt32.ofNat (32 - n)

def tinysha256Step1 (e f g : UInt32) : UInt32 :=
  (tinysha256Rotr e 6 ^^^ tinysha256Rotr e 11 ^^^ tinysha256Rotr e 25) + (e &&& f ^^^ ~~~e &&& g)

def tinysha256Step2 (a b c : UInt32) : UInt32 :=
  (tinysha256Rotr a 2 ^^^ tinysha256Rotr a 13 ^^^ tinysha256Rotr a 22) + (a &&& b ^^^ a &&& c ^^^ b &&& c)

/-- Four bytes, the high-order one first, as the shifts put them together. -/
def loadBe32 (bytes : Bytes) : UInt32 :=
  (bytes.getD 0 0).toUInt32 <<< 24 ||| (bytes.getD 1 0).toUInt32 <<< 16 ||| (bytes.getD 2 0).toUInt32 <<< 8 |||
    (bytes.getD 3 0).toUInt32

/-- A word of the window, which the words behind it have already replaced. -/
def tinysha256Next (w : List UInt32) (j : ℕ) : UInt32 :=
  let a := w.getD (j + 1 &&& 15) 0
  let b := w.getD (j + 14 &&& 15) 0
  let s0 := tinysha256Rotr a 7 ^^^ tinysha256Rotr a 18 ^^^ a >>> 3
  let s1 := tinysha256Rotr b 17 ^^^ tinysha256Rotr b 19 ^^^ b >>> 10
  w.getD j 0 + (w.getD (j + 9 &&& 15) 0 + s0 + s1)

def tinysha256UpdateW (w : List UInt32) (i : ℕ) (buffer : Bytes) : List UInt32 :=
  (List.range 16).foldl (fun w j => w.set j (if i < 16 then loadBe32 (buffer.drop (4 * j)) else tinysha256Next w j)) w

def tinysha256K : List UInt32 :=
    [0x428a2f98, 0x71374491, 0xb5c0fbcf, 0xe9b5dba5, 0x3956c25b, 0x59f111f1, 0x923f82a4, 0xab1c5ed5,
     0xd807aa98, 0x12835b01, 0x243185be, 0x550c7dc3, 0x72be5d74, 0x80deb1fe, 0x9bdc06a7, 0xc19bf174,
     0xe49b69c1, 0xefbe4786, 0x0fc19dc6, 0x240ca1cc, 0x2de92c6f, 0x4a7484aa, 0x5cb0a9dc, 0x76f988da,
     0x983e5152, 0xa831c66d, 0xb00327c8, 0xbf597fc7, 0xc6e00bf3, 0xd5a79147, 0x06ca6351, 0x14292967,
     0x27b70a85, 0x2e1b2138, 0x4d2c6dfc, 0x53380d13, 0x650a7354, 0x766a0abb, 0x81c2c92e, 0x92722c85,
     0xa2bfe8a1, 0xa81a664b, 0xc24b8b70, 0xc76c51a3, 0xd192e819, 0xd6990624, 0xf40e3585, 0x106aa070,
     0x19a4c116, 0x1e376c08, 0x2748774c, 0x34b0bcb5, 0x391c0cb3, 0x4ed8aa4a, 0x5b9cca4f, 0x682e6ff3,
     0x748f82ee, 0x78a5636f, 0x84c87814, 0x8cc70208, 0x90befffa, 0xa4506ceb, 0xbef9a3f7, 0xc67178f2]

/-- The four rounds that the body of the inner loop writes out; after them each register is in its place again. -/
def tinysha256Rounds (w : List UInt32) (i : ℕ) (s : Sha256State) (j : ℕ) : Sha256State :=
  let ⟨a, b, c, d, e, f, g, h⟩ := s
  let temp := h + tinysha256Step1 e f g + tinysha256K.getD (i + j + 0) 0 + w.getD (j + 0) 0
  let h := temp + d
  let d := temp + tinysha256Step2 a b c
  let temp := g + tinysha256Step1 h e f + tinysha256K.getD (i + j + 1) 0 + w.getD (j + 1) 0
  let g := temp + c
  let c := temp + tinysha256Step2 d a b
  let temp := f + tinysha256Step1 g h e + tinysha256K.getD (i + j + 2) 0 + w.getD (j + 2) 0
  let f := temp + b
  let b := temp + tinysha256Step2 c d a
  let temp := e + tinysha256Step1 f g h + tinysha256K.getD (i + j + 3) 0 + w.getD (j + 3) 0
  let e := temp + a
  let a := temp + tinysha256Step2 b c d
  ⟨a, b, c, d, e, f, g, h⟩

/-- One pass of the outer loop. -/
def tinysha256Pass (buffer : Bytes) (ws : List UInt32 × Sha256State) (i : ℕ) : List UInt32 × Sha256State :=
  let w := tinysha256UpdateW ws.1 i buffer
  (w, [0, 4, 8, 12].foldl (tinysha256Rounds w i) ws.2)

/-- Every word of the window is written before it is read, so what it begins with does not matter. -/
def tinysha256Block (s : Sha256State) (buffer : Bytes) : Sha256State :=
  let r := ([0, 16, 32, 48].foldl (tinysha256Pass buffer) (List.replicate 16 0, s)).2
  ⟨s.a + r.a, s.b + r.b, s.c + r.c, s.d + r.d, s.e + r.e, s.f + r.f, s.g + r.g, s.h + r.h⟩

def tinysha256Init (stack : Vector UInt8 64) : Tinysha256Ctx :=
  ⟨⟨0x6a09e667, 0xbb67ae85, 0x3c6ef372, 0xa54ff53a, 0x510e527f, 0x9b05688c, 0x1f83d9ab, 0x5be0cd19⟩,
    stack.toList, 0, 0⟩

def tinysha256AppendByte (ctx : Tinysha256Ctx) (byte : UInt8) : Tinysha256Ctx :=
  let buffer := ctx.buffer.set ctx.bufferCounter byte
  let counter := ctx.bufferCounter + 1
  if counter = 64 then ⟨tinysha256Block ctx.state buffer, buffer, ctx.nBits + 8, 0⟩
  else ⟨ctx.state, buffer, ctx.nBits + 8, counter⟩

def tinysha256Append (ctx : Tinysha256Ctx) (src : Bytes) : Tinysha256Ctx := src.foldl tinysha256AppendByte ctx

/-- The loop that fills up with zeros. -/
def tinysha256Fill : ℕ → Tinysha256Ctx → Tinysha256Ctx
  | 0, ctx => ctx
  | fuel + 1, ctx => if ctx.bufferCounter ≠ 56 then tinysha256Fill fuel (tinysha256AppendByte ctx 0) else ctx

def tinysha256Finalize (ctx : Tinysha256Ctx) : Tinysha256Ctx :=
  let filled := tinysha256Fill 64 (tinysha256AppendByte ctx 0x80)
  [7, 6, 5, 4, 3, 2, 1, 0].foldl
    (fun c i => tinysha256AppendByte c (ctx.nBits >>> UInt64.ofNat (8 * i) &&& 0xff).toUInt8) filled

def hexDigits : Bytes := ofString "0123456789abcdef"

def tinysha256FinalizeHex (ctx : Tinysha256Ctx) : Bytes :=
  let s := (tinysha256Finalize ctx).state
  [s.a, s.b, s.c, s.d, s.e, s.f, s.g, s.h].flatMap fun v => [7, 6, 5, 4, 3, 2, 1, 0].map fun j =>
    hexDigits.getD (v >>> UInt32.ofNat (j * 4) &&& 0xf).toNat 0

def tinysha256Hex (stack : Vector UInt8 64) (src : Bytes) : Bytes :=
  tinysha256FinalizeHex (tinysha256Append (tinysha256Init stack) src)

example : tinysha256Hex (Vector.replicate 64 0x5a) (ofString "abc") =
    ofString "ba7816bf8f01cfea414140de5dae2223b00361a396177a9cb410ff61f20015ad" := by
  rw [ofString_ofList]
  decide +kernel

section Block

lemma tinysha256Rotr_eq (x : UInt32) {n : ℕ} (hpos : 0 < n) (hn : n < 32) : tinysha256Rotr x n = rotateRight x n := by
  have hword : ∀ m < 32, ((UInt32.ofNat m).toBitVec % 32).toNat = m := by
    intro m hm
    have hmod : m % 2 ^ 32 % 32 = m := by omega
    simpa using hmod
  apply UInt32.toBitVec_inj.mp
  rw [tinysha256Rotr, rotateRight, UInt32.toBitVec_or, UInt32.toBitVec_shiftLeft, UInt32.toBitVec_shiftRight,
    BitVec.rotateRight_def, BitVec.shiftLeft_eq', BitVec.ushiftRight_eq', hword n hn, hword (32 - n) (by omega),
    Nat.mod_eq_of_lt hn]

lemma tinysha256Step1_eq (e f g : UInt32) : tinysha256Step1 e f g = bigSigma1 e + ch e f g := by
  rw [tinysha256Step1, tinysha256Rotr_eq e (by decide) (by decide), tinysha256Rotr_eq e (by decide) (by decide),
    tinysha256Rotr_eq e (by decide) (by decide), bigSigma1, ch]

lemma tinysha256Step2_eq (a b c : UInt32) : tinysha256Step2 a b c = bigSigma0 a + maj a b c := by
  rw [tinysha256Step2, tinysha256Rotr_eq a (by decide) (by decide), tinysha256Rotr_eq a (by decide) (by decide),
    tinysha256Rotr_eq a (by decide) (by decide), bigSigma0, maj]

/-- A round of the standard, with the sum as the code takes it. -/
lemma sha256Step_eq (k w : ℕ → UInt32) (a b c d e f g h : UInt32) (t : ℕ) :
    sha256Step k w ⟨a, b, c, d, e, f, g, h⟩ t =
      ⟨h + tinysha256Step1 e f g + k t + w t + tinysha256Step2 a b c, a, b, c,
        h + tinysha256Step1 e f g + k t + w t + d, e, f, g⟩ := by
  rw [sha256Step, tinysha256Step1_eq, tinysha256Step2_eq]
  dsimp only
  rw [← UInt32.add_assoc h, UInt32.add_comm d]

/-- A root of a prime, cut to its first 32 bits behind the point: some whole part makes it the right one. -/
lemma rootWord_prime {n t : ℕ} {word : UInt32} (ht : t < 64) (hn : 0 < n)
    (h : ∃ q < 32, (q * 2 ^ 32 + word.toNat) ^ n ≤ primes.getD t 0 * 2 ^ (32 * n) ∧
      primes.getD t 0 * 2 ^ (32 * n) < (q * 2 ^ 32 + word.toNat + 1) ^ n) :
    rootWord n (Nat.nth Nat.Prime t) = word := by
  obtain ⟨q, -, hlow, hhigh⟩ := h
  rw [nth_prime ht, rootWord_eq hn hlow hhigh]
  apply UInt32.toNat_inj.mp
  rw [UInt32.toNat_ofNat', Nat.mul_add_mod_self_right, Nat.mod_eq_of_lt word.toNat_lt]

lemma tinysha256K_eq {t : ℕ} (ht : t < 64) : tinysha256K.getD t 0 = sha256Constant t := by
  have hroots : ∀ t < 64, ∃ q < 32, (q * 2 ^ 32 + (tinysha256K.getD t 0).toNat) ^ 3 ≤ primes.getD t 0 * 2 ^ (32 * 3) ∧
      primes.getD t 0 * 2 ^ (32 * 3) < (q * 2 ^ 32 + (tinysha256K.getD t 0).toNat + 1) ^ 3 := by
    decide +kernel
  exact (rootWord_prime ht (by decide) (hroots t ht)).symm

lemma tinysha256Init_state (stack : Vector UInt8 64) : (tinysha256Init stack).state = sha256Start := by
  have hroot : ∀ t < 8, ∀ word : UInt32, (∃ q < 32, (q * 2 ^ 32 + word.toNat) ^ 2 ≤ primes.getD t 0 * 2 ^ (32 * 2) ∧
      primes.getD t 0 * 2 ^ (32 * 2) < (q * 2 ^ 32 + word.toNat + 1) ^ 2) →
      rootWord 2 (Nat.nth Nat.Prime t) = word :=
    fun t ht word h => rootWord_prime (ht.trans (by decide)) (by decide) h
  rw [sha256Start]
  dsimp only
  rw [hroot 0 (by decide) 0x6a09e667 (by decide +kernel), hroot 1 (by decide) 0xbb67ae85 (by decide +kernel),
    hroot 2 (by decide) 0x3c6ef372 (by decide +kernel), hroot 3 (by decide) 0xa54ff53a (by decide +kernel),
    hroot 4 (by decide) 0x510e527f (by decide +kernel), hroot 5 (by decide) 0x9b05688c (by decide +kernel),
    hroot 6 (by decide) 0x1f83d9ab (by decide +kernel), hroot 7 (by decide) 0x5be0cd19 (by decide +kernel),
    tinysha256Init]

/-- The four rounds written out are four of the standard's. -/
lemma tinysha256Rounds_eq {word : ℕ → UInt32} {w : List UInt32} {i j : ℕ} (hij : i + j + 3 < 64)
    (hw : ∀ m < 4, w.getD (j + m) 0 = word (i + j + m)) (s : Sha256State) :
    tinysha256Rounds w i s j = (List.range' (i + j) 4).foldl (sha256Step sha256Constant word) s := by
  have hk : ∀ m < 4, tinysha256K.getD (i + j + m) 0 = sha256Constant (i + j + m) :=
    fun m hm => tinysha256K_eq (by omega)
  obtain ⟨a, b, c, d, e, f, g, h⟩ := s
  rw [tinysha256Rounds]
  rw [hk 0 (by decide), hk 1 (by decide), hk 2 (by decide), hk 3 (by decide), hw 0 (by decide), hw 1 (by decide),
    hw 2 (by decide), hw 3 (by decide)]
  rw [show List.range' (i + j) 4 = [i + j + 0, i + j + 1, i + j + 2, i + j + 3] from rfl]
  rw [List.foldl_cons, List.foldl_cons, List.foldl_cons, List.foldl_cons, List.foldl_nil, sha256Step_eq, sha256Step_eq,
    sha256Step_eq, sha256Step_eq]

lemma sha256Word_next (m : List UInt32) (t : ℕ) :
    sha256Word m (t + 16) =
      sigma1 (sha256Word m (t + 14)) + sha256Word m (t + 9) + sigma0 (sha256Word m (t + 1)) + sha256Word m t := by
  rw [sha256Word, if_neg (by omega)]
  rfl

/-- The window in the middle of a pass: of its words, those before `j` are already the new ones. -/
def Tinysha256Window (word : ℕ → UInt32) (base j : ℕ) (w : List UInt32) : Prop :=
  w.length = 16 ∧ ∀ m < 16, w.getD m 0 = word (if m < j then base + 16 + m else base + m)

lemma Tinysha256Window.set {word : ℕ → UInt32} {base j : ℕ} {w : List UInt32}
    (h : Tinysha256Window word base j w) (hj : j < 16)
    {v : UInt32} (hv : v = word (base + 16 + j)) : Tinysha256Window word base (j + 1) (w.set j v) := by
  refine ⟨by rw [List.length_set, h.1], fun m hm => ?_⟩
  rw [List.getD_eq_getElem?_getD, List.getElem?_set]
  by_cases heq : j = m
  · rw [if_pos heq, if_pos (by rw [h.1]; omega), if_pos (by omega), Option.getD_some, hv, heq]
  · rw [if_neg heq, ← List.getD_eq_getElem?_getD, h.2 m hm]
    by_cases hlt : m < j
    · rw [if_pos hlt, if_pos (by omega)]
    · rw [if_neg hlt, if_neg (by omega)]

/-- The words that the window is asked for are those of the recurrence, whether they are new or not. -/
lemma tinysha256Next_eq {m : List UInt32} {base j : ℕ} {w : List UInt32} (h : Tinysha256Window (sha256Word m) base j w)
    (hj : j < 16) : tinysha256Next w j = sha256Word m (base + 16 + j) := by
  have hmask : ∀ n, n &&& 15 = n % 16 := fun n => Nat.and_two_pow_sub_one_eq_mod n 4
  have hword : ∀ n < 16, w.getD (j + n &&& 15) 0 = sha256Word m (base + j + n) := by
    intro n hn
    rw [hmask, h.2 _ (Nat.mod_lt _ (by decide))]
    congr 1
    split_ifs <;> omega
  have hown := hword 0 (by decide)
  rw [Nat.add_zero, hmask, Nat.mod_eq_of_lt hj, Nat.add_zero] at hown
  rw [tinysha256Next]
  rw [hown, hword 1 (by decide), hword 9 (by decide), hword 14 (by decide), Nat.add_right_comm base 16 j,
    sha256Word_next, tinysha256Rotr_eq _ (by decide) (by decide), tinysha256Rotr_eq _ (by decide) (by decide),
    tinysha256Rotr_eq _ (by decide) (by decide), tinysha256Rotr_eq _ (by decide) (by decide), ← sigma0, ← sigma1]
  rw [UInt32.add_comm (sha256Word m (base + j)), UInt32.add_assoc (sha256Word m (base + j + 9)),
    UInt32.add_comm (sigma0 _), ← UInt32.add_assoc (sha256Word m (base + j + 9)),
    UInt32.add_comm (sha256Word m (base + j + 9))]

lemma loadBe32_eq {bytes : Bytes} (h : 4 ≤ bytes.length) : loadBe32 bytes = UInt32.ofNat (beValue (bytes.take 4)) := by
  obtain _ | ⟨a, _ | ⟨b, _ | ⟨c, _ | ⟨d, rest⟩⟩⟩⟩ := bytes
  · simp at h
  · simp at h
  · simp at h
  · simp at h
  · have hword := word_of_bytes d c b a
    rw [beValue, show ((a :: b :: c :: d :: rest).take 4).reverse = [d, c, b, a] from rfl, ← hword, loadBe32]
    have hturn : ∀ w x y z : UInt32, w ||| x ||| y ||| z = z ||| y ||| x ||| w := by
      intro w x y z
      rw [UInt32.or_comm _ z, UInt32.or_comm _ y, UInt32.or_comm w x, ← UInt32.or_assoc, ← UInt32.or_assoc]
    exact hturn _ _ _ _

lemma wordsOf_getD {block : Bytes} (h : block.length = 64) {i : ℕ} (hi : i < 16) :
    (wordsOf block).getD i 0 = loadBe32 (block.drop (4 * i)) := by
  rw [loadBe32_eq (by rw [List.length_drop]; omega), wordsOf, blocks, List.map_map, h]
  rw [List.getD_eq_getElem?_getD, List.getElem?_map, List.getElem?_range (by omega : i < 64 / 4)]
  rfl

lemma tinysha256UpdateW_first {buffer : Bytes} (h : buffer.length = 64) {w : List UInt32} (hw : w.length = 16) :
    Tinysha256Window (sha256Word (wordsOf buffer)) 0 0 (tinysha256UpdateW w 0 buffer) := by
  have hloop : ∀ n ≤ 16, ((List.range n).foldl
      (fun w j => w.set j (if 0 < 16 then loadBe32 (buffer.drop (4 * j)) else tinysha256Next w j)) w).length = 16 ∧
        ∀ m < n, ((List.range n).foldl
          (fun w j => w.set j (if 0 < 16 then loadBe32 (buffer.drop (4 * j)) else tinysha256Next w j)) w).getD m 0 =
            (wordsOf buffer).getD m 0 := by
    intro n hn
    induction n with
    | zero => exact ⟨hw, fun m hm => absurd hm (Nat.not_lt_zero m)⟩
    | succ n ih =>
      obtain ⟨hlen, hall⟩ := ih (by omega)
      rw [List.range_succ, List.foldl_append, List.foldl_cons, List.foldl_nil]
      refine ⟨by rw [List.length_set, hlen], fun m hm => ?_⟩
      rw [List.getD_eq_getElem?_getD, List.getElem?_set]
      by_cases heq : n = m
      · rw [if_pos heq, if_pos (by rw [hlen]; omega), if_pos (by decide), Option.getD_some, ← heq,
          wordsOf_getD h (by omega)]
      · rw [if_neg heq, ← List.getD_eq_getElem?_getD, hall m (by omega)]
  obtain ⟨hlen, hall⟩ := hloop 16 le_rfl
  refine ⟨hlen, fun m hm => ?_⟩
  rw [tinysha256UpdateW, hall m hm, if_neg (Nat.not_lt_zero m), Nat.zero_add, sha256Word, if_pos hm]

lemma tinysha256UpdateW_next {m : List UInt32} {base : ℕ} {w : List UInt32}
    (h : Tinysha256Window (sha256Word m) base 0 w)
    (buffer : Bytes) : Tinysha256Window (sha256Word m) (base + 16) 0 (tinysha256UpdateW w (base + 16) buffer) := by
  have hloop : ∀ n ≤ 16, Tinysha256Window (sha256Word m) base n ((List.range n).foldl
      (fun w j => w.set j (if base + 16 < 16 then loadBe32 (buffer.drop (4 * j)) else tinysha256Next w j)) w) := by
    intro n hn
    induction n with
    | zero => exact h
    | succ n ih =>
      rw [List.range_succ, List.foldl_append, List.foldl_cons, List.foldl_nil, if_neg (by omega)]
      exact (ih (by omega)).set hn (tinysha256Next_eq (ih (by omega)) hn)
  obtain ⟨hlen, hall⟩ := hloop 16 le_rfl
  refine ⟨hlen, fun m hm => ?_⟩
  rw [tinysha256UpdateW, hall m hm, if_pos hm, if_neg (Nat.not_lt_zero m)]

/-- One pass of the outer loop, with its new window. -/
lemma tinysha256Pass_eq {word : ℕ → UInt32} {buffer : Bytes} {w : List UInt32} {i : ℕ}
    (hw : Tinysha256Window word i 0 (tinysha256UpdateW w i buffer)) (hi : i ≤ 48) (s : Sha256State) :
    tinysha256Pass buffer (w, s) i =
      (tinysha256UpdateW w i buffer, (List.range' i 16).foldl (sha256Step sha256Constant word) s) := by
  have hword : ∀ j m, j + m < 16 → (tinysha256UpdateW w i buffer).getD (j + m) 0 = word (i + j + m) := by
    intro j m hm
    rw [hw.2 _ hm, if_neg (Nat.not_lt_zero _), Nat.add_assoc]
  have hrange : List.range' i 16 =
      List.range' (i + 0) 4 ++ List.range' (i + 4) 4 ++ List.range' (i + 8) 4 ++ List.range' (i + 12) 4 := rfl
  rw [tinysha256Pass]
  dsimp only
  rw [List.foldl_cons, List.foldl_cons, List.foldl_cons, List.foldl_cons, List.foldl_nil,
    tinysha256Rounds_eq (by omega) (fun m hm => hword 0 m (by omega)),
    tinysha256Rounds_eq (by omega) (fun m hm => hword 4 m (by omega)),
    tinysha256Rounds_eq (by omega) (fun m hm => hword 8 m (by omega)),
    tinysha256Rounds_eq (by omega) (fun m hm => hword 12 m (by omega)),
    ← List.foldl_append, ← List.foldl_append, ← List.foldl_append, hrange, List.append_assoc, List.append_assoc]

/-- The loops over windows and rounds compute the compression function of the standard. -/
lemma tinysha256Block_eq (s : Sha256State) {buffer : Bytes} (h : buffer.length = 64) :
    tinysha256Block s buffer = sha256Compress sha256Constant s buffer := by
  have hfirst := tinysha256UpdateW_first h (List.length_replicate (n := 16) (a := (0 : UInt32)))
  have hsecond := tinysha256UpdateW_next hfirst buffer
  have hthird := tinysha256UpdateW_next hsecond buffer
  have hfourth := tinysha256UpdateW_next hthird buffer
  have hrange : List.range 64 = List.range' 0 16 ++ List.range' 16 16 ++ List.range' 32 16 ++ List.range' 48 16 := by
    decide
  rw [tinysha256Block, sha256Compress, hrange, List.foldl_append, List.foldl_append, List.foldl_append,
    List.foldl_cons, List.foldl_cons, List.foldl_cons, List.foldl_cons, List.foldl_nil,
    tinysha256Pass_eq hfirst (by decide), tinysha256Pass_eq hsecond (by decide), tinysha256Pass_eq hthird (by decide),
    tinysha256Pass_eq hfourth (by decide)]
  dsimp only
  rw [UInt32.add_comm s.a, UInt32.add_comm s.b, UInt32.add_comm s.c, UInt32.add_comm s.d, UInt32.add_comm s.e,
    UInt32.add_comm s.f, UInt32.add_comm s.g, UInt32.add_comm s.h]

end Block

section Stream

variable {ctx : Tinysha256Ctx} {message : Bytes}

/-- The context of a message: its whole blocks are in the state, what is left of it stands in front of the counter. -/
structure Tinysha256Ctx.Holds (ctx : Tinysha256Ctx) (message : Bytes) : Prop where
  folded : Folded (sha256Compress sha256Constant) sha256Start 64 message ctx.state (ctx.buffer.take ctx.bufferCounter)
  sized : ctx.buffer.length = 64
  counter : ctx.bufferCounter < 64
  bits : ctx.nBits = UInt64.ofNat (8 * message.length)

lemma tinysha256Init_holds (stack : Vector UInt8 64) : (tinysha256Init stack).Holds [] where
  folded := by
    rw [tinysha256Init_state, tinysha256Init, List.take_zero]
    exact folded_nil _ _ (by decide)
  sized := by simp [tinysha256Init]
  counter := Nat.zero_lt_succ _
  bits := rfl

lemma Tinysha256Ctx.Holds.counter_eq (h : ctx.Holds message) : ctx.bufferCounter = message.length % 64 := by
  have hlen := h.folded.length_left
  rwa [List.length_take, h.sized, min_eq_left h.counter.le] at hlen

lemma Tinysha256Ctx.Holds.appendByte (h : ctx.Holds message) (byte : UInt8) :
    (tinysha256AppendByte ctx byte).Holds (message ++ [byte]) := by
  have hcounter := h.counter
  have hlt : ctx.bufferCounter < ctx.buffer.length := by rw [h.sized]; exact hcounter
  have hleft : (ctx.buffer.take ctx.bufferCounter).length = ctx.bufferCounter := by
    rw [List.length_take]
    exact min_eq_left hlt.le
  have hset : (ctx.buffer.set ctx.bufferCounter byte).take (ctx.bufferCounter + 1) =
      ctx.buffer.take ctx.bufferCounter ++ [byte] := by
    rw [List.take_succ_eq_append_getElem (by rwa [List.length_set]), List.getElem_set_self,
      List.take_set_of_le le_rfl]
  have hsized : (ctx.buffer.set ctx.bufferCounter byte).length = 64 := by rw [List.length_set, h.sized]
  have hbits : ctx.nBits + 8 = UInt64.ofNat (8 * (message ++ [byte]).length) := by
    rw [h.bits, List.length_append, List.length_singleton, Nat.mul_add, UInt64.ofNat_add]
    rfl
  rw [tinysha256AppendByte]
  by_cases hfull : ctx.bufferCounter + 1 = 64
  · have hblock := h.folded.full (by decide) [byte] (by rw [hleft]; exact hfull)
    rw [← hset, List.take_of_length_le (by rw [hsized, hfull]), ← tinysha256Block_eq _ hsized] at hblock
    rw [if_pos hfull]
    exact ⟨hblock, hsized, Nat.zero_lt_succ _, hbits⟩
  · have hshort := h.folded.short (by decide) [byte] (by rw [hleft, List.length_singleton]; omega)
    rw [← hset] at hshort
    rw [if_neg hfull]
    exact ⟨hshort, hsized, by dsimp only; omega, hbits⟩

lemma Tinysha256Ctx.Holds.append (h : ctx.Holds message) (src : Bytes) :
    (tinysha256Append ctx src).Holds (message ++ src) := by
  induction src generalizing ctx message with
  | nil => rwa [List.append_nil]
  | cons b src ih =>
    have hall := ih (h.appendByte b)
    rwa [List.append_assoc] at hall

/-- Zeros are put in until the length has room at the end of a block. -/
lemma Tinysha256Ctx.Holds.fill (h : ctx.Holds message) (fuel : ℕ) (hfuel : (120 - message.length % 64) % 64 ≤ fuel) :
    (tinysha256Fill fuel ctx).Holds (message ++ List.replicate ((120 - message.length % 64) % 64) 0) := by
  induction fuel generalizing ctx message with
  | zero =>
    rw [Nat.le_zero.mp hfuel]
    rwa [List.replicate_zero, List.append_nil]
  | succ fuel ih =>
    rw [tinysha256Fill, h.counter_eq]
    by_cases hdone : message.length % 64 = 56
    · rw [if_neg (not_not.mpr hdone), hdone]
      rwa [show (120 - 56) % 64 = 0 from rfl, List.replicate_zero, List.append_nil]
    · have hnext : (120 - message.length % 64) % 64 = (120 - (message ++ [0]).length % 64) % 64 + 1 := by
        rw [List.length_append, List.length_singleton]
        omega
      have hall := ih (h.appendByte 0) (by omega)
      rwa [if_pos hdone, hnext, List.replicate_succ, List.append_cons]

lemma toUInt8_shiftRight (n : ℕ) {k : ℕ} (hk : k + 8 ≤ 64) :
    (UInt64.ofNat n >>> UInt64.ofNat k).toUInt8 = byteAt n k := by
  apply UInt8.toNat_inj.mp
  rw [byteAt_toNat, UInt64.toNat_toUInt8, UInt64.toNat_shiftRight, UInt64.toNat_ofNat', UInt64.toNat_ofNat',
    Nat.mod_eq_of_lt (by omega : k < 2 ^ 64), Nat.mod_eq_of_lt (by omega : k < 64), Nat.shiftRight_eq_div_pow,
    ← byteAt_toNat, Md5.byteAt_mod hk, byteAt_toNat]

lemma toUInt8_and (x : UInt64) : (x &&& 0xff).toUInt8 = x.toUInt8 := by
  apply UInt8.toNat_inj.mp
  have hmask : (0xff : UInt64).toNat = 2 ^ 8 - 1 := rfl
  rw [UInt64.toNat_toUInt8, UInt64.toNat_toUInt8, UInt64.toNat_and, hmask, Nat.and_two_pow_sub_one_eq_mod, Nat.mod_mod]

/-- The padding and the length close the last block. -/
lemma tinysha256Finalize_state (h : ctx.Holds message) :
    (tinysha256Finalize ctx).state =
      (blocks 64 (padded message)).foldl (sha256Compress sha256Constant) sha256Start := by
  have hfill : (120 - (message ++ [0x80]).length % 64) % 64 = (119 - message.length % 64) % 64 := by
    rw [List.length_append, List.length_singleton]
    omega
  have hfilled := (h.appendByte 0x80).fill 64 (Nat.mod_lt _ (by decide)).le
  have hbytes : ([7, 6, 5, 4, 3, 2, 1, 0].map fun i => (ctx.nBits >>> UInt64.ofNat (8 * i) &&& 0xff).toUInt8) =
      beBytes 8 (8 * message.length) := by
    have hbyte : ∀ i ≤ 7,
        (ctx.nBits >>> UInt64.ofNat (8 * i) &&& 0xff).toUInt8 = byteAt (8 * message.length) (8 * i) := by
      intro i hi
      rw [toUInt8_and, h.bits, toUInt8_shiftRight _ (by omega)]
    exact List.map_congr_left fun i hi => hbyte i (by revert i; decide)
  have hlast := hfilled.append (beBytes 8 (8 * message.length))
  rw [hfill, List.append_assoc message, List.singleton_append] at hlast
  rw [tinysha256Finalize, ← List.foldl_map, hbytes]
  exact hlast.folded.state

end Stream

section Digest

lemma hexDigits_nibble (w : UInt32) {k : ℕ} (hk : k < 32) :
    hexDigits.getD (w >>> UInt32.ofNat k &&& 0xf).toNat 0 =
      UInt8.ofNat (if w.toNat / 2 ^ k % 16 < 10 then 0x30 + w.toNat / 2 ^ k % 16 else 0x57 + w.toNat / 2 ^ k % 16) := by
  have hdigit : ∀ v < 16, hexDigits.getD v 0 = UInt8.ofNat (if v < 10 then 0x30 + v else 0x57 + v) := by decide +kernel
  have hmask : (0xf : UInt32).toNat = 2 ^ 4 - 1 := rfl
  have hnibble : (w >>> UInt32.ofNat k &&& 0xf).toNat = w.toNat / 2 ^ k % 16 := by
    rw [UInt32.toNat_and, UInt32.toNat_shiftRight, hmask, Nat.and_two_pow_sub_one_eq_mod, UInt32.toNat_ofNat',
      Nat.mod_eq_of_lt (by omega : k < 2 ^ 32), Nat.mod_eq_of_lt hk, Nat.shiftRight_eq_div_pow]
  rw [hnibble, hdigit _ (Nat.mod_lt _ (by decide))]

/-- The nibbles of a word are the hexadecimal digits of its bytes. -/
lemma nibbles_eq (w : UInt32) :
    ([7, 6, 5, 4, 3, 2, 1, 0].map fun j => hexDigits.getD (w >>> UInt32.ofNat (j * 4) &&& 0xf).toNat 0) =
      hex (beBytes 4 w.toNat) := by
  have hdigits : ∀ k, Md5.hexByte (byteAt w.toNat k) =
      [w.toNat / 2 ^ (k + 4) % 16, w.toNat / 2 ^ k % 16].map fun v =>
        UInt8.ofNat (if v < 10 then 0x30 + v else 0x57 + v) := by
    intro k
    have hhigh : w.toNat / 2 ^ k % 256 / 16 = w.toNat / 2 ^ (k + 4) % 16 := by
      rw [pow_add, ← Nat.div_div_eq_div_mul]
      omega
    rw [Md5.hexByte, byteAt_toNat, hhigh, Nat.mod_mod_of_dvd _ (by decide : 16 ∣ 256)]
  have hbytes : beBytes 4 w.toNat = [byteAt w.toNat 24, byteAt w.toNat 16, byteAt w.toNat 8, byteAt w.toNat 0] := rfl
  have hnibble : ∀ j ∈ [7, 6, 5, 4, 3, 2, 1, 0], hexDigits.getD (w >>> UInt32.ofNat (j * 4) &&& 0xf).toNat 0 =
      UInt8.ofNat (if w.toNat / 2 ^ (j * 4) % 16 < 10 then 0x30 + w.toNat / 2 ^ (j * 4) % 16
        else 0x57 + w.toNat / 2 ^ (j * 4) % 16) :=
    fun j hj => hexDigits_nibble w (by revert j; decide)
  rw [hbytes, hex, List.flatMap_cons, List.flatMap_cons, List.flatMap_cons, List.flatMap_cons, List.flatMap_nil,
    hdigits, hdigits, hdigits, hdigits, List.map_congr_left hnibble]
  rfl

lemma tinysha256Hex_eq (stack : Vector UInt8 64) (src : Bytes) : tinysha256Hex stack src = hex (sha256 src) := by
  have hdone := tinysha256Finalize_state ((tinysha256Init_holds stack).append src)
  rw [tinysha256Hex, tinysha256FinalizeHex, hdone, sha256, Sha256State.bytes, hex, List.flatMap_assoc]
  exact List.flatMap_congr fun w _ => nibbles_eq w

lemma length_sha256 (message : Bytes) : (sha256 message).length = 32 := by
  rw [sha256, Sha256State.bytes]
  rfl

lemma hexByte_injective {a b : UInt8} (h : Md5.hexByte a = Md5.hexByte b) : a = b := by
  have hdigit : ∀ v < 16, ∀ v' < 16, UInt8.ofNat (if v < 10 then 0x30 + v else 0x57 + v) =
      UInt8.ofNat (if v' < 10 then 0x30 + v' else 0x57 + v') → v = v' := by decide
  have ha := a.toNat_lt
  have hb := b.toNat_lt
  have hhigh := hdigit (a.toNat / 16) (by omega) (b.toNat / 16) (by omega) (congrArg (List.getD · 0 0) h)
  have hlow := hdigit (a.toNat % 16) (by omega) (b.toNat % 16) (by omega) (congrArg (List.getD · 1 0) h)
  apply UInt8.toNat_inj.mp
  omega

lemma hex_injective {as bs : Bytes} (h : hex as = hex bs) : as = bs := by
  induction as generalizing bs with
  | nil =>
    cases bs with
    | nil => rfl
    | cons b bs => cases h
  | cons a as ih =>
    cases bs with
    | nil => cases h
    | cons b bs =>
      rw [hex, List.flatMap_cons, hex, List.flatMap_cons] at h
      obtain ⟨hfirst, hmore⟩ := List.append_inj h rfl
      rw [hexByte_injective hfirst, ih hmore]

end Digest

variable (stack : Vector UInt8 64) (md5Hex : Bytes → Bytes)

/-- SHA-256 is that of the standard for every string, whatever the stack holds; a stored one lets in the strings that
have it, and one that was stored for a password those with the same digest. -/
theorem sha256_is_fips180 :
    (∀ plain, tinysha256Hex stack plain = hex (sha256 plain)) ∧
    (∀ digits provided, hexStringValid digits 64 = true → provided ≠ [] →
      (passwordMatch ⟨tinysha256Hex stack, md5Hex⟩ (passwordSha256Prefix ++ digits) provided = true ↔
        digits.map lower = hex (sha256 provided))) ∧
    ∀ plain provided, provided ≠ [] →
      (passwordMatch ⟨tinysha256Hex stack, md5Hex⟩ (passwordHash ⟨tinysha256Hex stack, md5Hex⟩ plain) provided = true ↔
        sha256 provided = sha256 plain) := by
  have hstored : ∀ digits provided, digits.length = 64 → provided ≠ [] →
      (passwordMatch ⟨tinysha256Hex stack, md5Hex⟩ (passwordSha256Prefix ++ digits) provided = true ↔
        digits.map lower = hex (sha256 provided)) := by
    intro digits provided hlen hne
    have hmarker : passwordSha256Prefix = [0x7b, 0x73, 0x68, 0x61, 0x32, 0x35, 0x36, 0x7d] := by decide
    have hdrop : (passwordSha256Prefix ++ digits).drop 8 = digits := List.drop_left' (by rw [hmarker]; rfl)
    rw [passwordMatch, if_neg (by simp [hne, hmarker]), if_pos (List.prefix_append _ _), hdrop, hexStringEq,
      decide_eq_true_eq]
    dsimp only
    rw [List.take_of_length_le hlen.le, tinysha256Hex_eq,
      List.take_of_length_le (by rw [length_hex, length_sha256]), hex_lower]
  refine ⟨tinysha256Hex_eq stack, ?_, ?_⟩
  · intro digits provided hdigits
    rw [hexStringValid, Bool.and_eq_true, decide_eq_true_eq] at hdigits
    exact hstored digits provided hdigits.1
  · intro plain provided hne
    have hlen : (hex (sha256 plain)).length = 64 := by rw [length_hex, length_sha256]
    rw [passwordHash]
    dsimp only
    rw [tinysha256Hex_eq, hstored _ provided hlen hne, hex_lower]
    exact ⟨fun h => (hex_injective h).symm, fun h => by rw [h]⟩

theorem sha256_is_fips180_abc :
    passwordMatch ⟨tinysha256Hex (Vector.replicate 64 0), fun _ => []⟩
      (passwordHash ⟨tinysha256Hex (Vector.replicate 64 0), fun _ => []⟩ (ofString "abc")) (ofString "abc") = true :=
  ((sha256_is_fips180 (Vector.replicate 64 0) fun _ => []).2.2 (ofString "abc") (ofString "abc") (by decide)).mpr rfl

end HyBBX.Core
