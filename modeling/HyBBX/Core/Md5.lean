import HyBBX.Core.Password
import HyBBX.Lib.Md5

/-! The MD5 of stored passwords: the context that takes a string piece by piece, and its digest. -/

namespace HyBBX.Core

open Lib Lib.Bytes Lib.Text Lib.Blocks Lib.Md5

/-- The registers of `md5_transform`. -/
inductive Md5Reg
  | a
  | b
  | c
  | d
  deriving DecidableEq

inductive Md5Round
  | ff
  | gg
  | hh
  | ii
  deriving DecidableEq

/-- A use of `MD5_FF` to `MD5_II`, with its arguments. -/
structure Md5Op where
  round : Md5Round
  a : Md5Reg
  b : Md5Reg
  c : Md5Reg
  d : Md5Reg
  x : ℕ
  s : ℕ
  ac : UInt32
  deriving DecidableEq

structure Md5Ctx where
  state : MdBuffer
  count0 : UInt32
  count1 : UInt32
  buffer : Bytes

def md5Reg (regs : MdBuffer) : Md5Reg → UInt32
  | .a => regs.a
  | .b => regs.b
  | .c => regs.c
  | .d => regs.d

def md5SetReg (regs : MdBuffer) (r : Md5Reg) (v : UInt32) : MdBuffer :=
  match r with
  | .a => { regs with a := v }
  | .b => { regs with b := v }
  | .c => { regs with c := v }
  | .d => { regs with d := v }

def md5Function (round : Md5Round) (x y z : UInt32) : UInt32 :=
  match round with
  | .ff => x &&& y ||| ~~~x &&& z
  | .gg => x &&& z ||| y &&& ~~~z
  | .hh => x ^^^ y ^^^ z
  | .ii => y ^^^ (x ||| ~~~z)

def md5RotateLeft (x : UInt32) (n : ℕ) : UInt32 := x <<< UInt32.ofNat n ||| x >>> UInt32.ofNat (32 - n)

def md5Run (x : List UInt32) (regs : MdBuffer) (op : Md5Op) : MdBuffer :=
  let sum := md5Reg regs op.a +
    (md5Function op.round (md5Reg regs op.b) (md5Reg regs op.c) (md5Reg regs op.d) + x.getD op.x 0 + op.ac)
  md5SetReg regs op.a (md5RotateLeft sum op.s + md5Reg regs op.b)

def md5Ops : List Md5Op :=
    [⟨.ff, .a, .b, .c, .d, 0, 7, 0xd76aa478⟩, ⟨.ff, .d, .a, .b, .c, 1, 12, 0xe8c7b756⟩,
     ⟨.ff, .c, .d, .a, .b, 2, 17, 0x242070db⟩, ⟨.ff, .b, .c, .d, .a, 3, 22, 0xc1bdceee⟩,
     ⟨.ff, .a, .b, .c, .d, 4, 7, 0xf57c0faf⟩, ⟨.ff, .d, .a, .b, .c, 5, 12, 0x4787c62a⟩,
     ⟨.ff, .c, .d, .a, .b, 6, 17, 0xa8304613⟩, ⟨.ff, .b, .c, .d, .a, 7, 22, 0xfd469501⟩,
     ⟨.ff, .a, .b, .c, .d, 8, 7, 0x698098d8⟩, ⟨.ff, .d, .a, .b, .c, 9, 12, 0x8b44f7af⟩,
     ⟨.ff, .c, .d, .a, .b, 10, 17, 0xffff5bb1⟩, ⟨.ff, .b, .c, .d, .a, 11, 22, 0x895cd7be⟩,
     ⟨.ff, .a, .b, .c, .d, 12, 7, 0x6b901122⟩, ⟨.ff, .d, .a, .b, .c, 13, 12, 0xfd987193⟩,
     ⟨.ff, .c, .d, .a, .b, 14, 17, 0xa679438e⟩, ⟨.ff, .b, .c, .d, .a, 15, 22, 0x49b40821⟩,
     ⟨.gg, .a, .b, .c, .d, 1, 5, 0xf61e2562⟩, ⟨.gg, .d, .a, .b, .c, 6, 9, 0xc040b340⟩,
     ⟨.gg, .c, .d, .a, .b, 11, 14, 0x265e5a51⟩, ⟨.gg, .b, .c, .d, .a, 0, 20, 0xe9b6c7aa⟩,
     ⟨.gg, .a, .b, .c, .d, 5, 5, 0xd62f105d⟩, ⟨.gg, .d, .a, .b, .c, 10, 9, 0x02441453⟩,
     ⟨.gg, .c, .d, .a, .b, 15, 14, 0xd8a1e681⟩, ⟨.gg, .b, .c, .d, .a, 4, 20, 0xe7d3fbc8⟩,
     ⟨.gg, .a, .b, .c, .d, 9, 5, 0x21e1cde6⟩, ⟨.gg, .d, .a, .b, .c, 14, 9, 0xc33707d6⟩,
     ⟨.gg, .c, .d, .a, .b, 3, 14, 0xf4d50d87⟩, ⟨.gg, .b, .c, .d, .a, 8, 20, 0x455a14ed⟩,
     ⟨.gg, .a, .b, .c, .d, 13, 5, 0xa9e3e905⟩, ⟨.gg, .d, .a, .b, .c, 2, 9, 0xfcefa3f8⟩,
     ⟨.gg, .c, .d, .a, .b, 7, 14, 0x676f02d9⟩, ⟨.gg, .b, .c, .d, .a, 12, 20, 0x8d2a4c8a⟩,
     ⟨.hh, .a, .b, .c, .d, 5, 4, 0xfffa3942⟩, ⟨.hh, .d, .a, .b, .c, 8, 11, 0x8771f681⟩,
     ⟨.hh, .c, .d, .a, .b, 11, 16, 0x6d9d6122⟩, ⟨.hh, .b, .c, .d, .a, 14, 23, 0xfde5380c⟩,
     ⟨.hh, .a, .b, .c, .d, 1, 4, 0xa4beea44⟩, ⟨.hh, .d, .a, .b, .c, 4, 11, 0x4bdecfa9⟩,
     ⟨.hh, .c, .d, .a, .b, 7, 16, 0xf6bb4b60⟩, ⟨.hh, .b, .c, .d, .a, 10, 23, 0xbebfbc70⟩,
     ⟨.hh, .a, .b, .c, .d, 13, 4, 0x289b7ec6⟩, ⟨.hh, .d, .a, .b, .c, 0, 11, 0xeaa127fa⟩,
     ⟨.hh, .c, .d, .a, .b, 3, 16, 0xd4ef3085⟩, ⟨.hh, .b, .c, .d, .a, 6, 23, 0x04881d05⟩,
     ⟨.hh, .a, .b, .c, .d, 9, 4, 0xd9d4d039⟩, ⟨.hh, .d, .a, .b, .c, 12, 11, 0xe6db99e5⟩,
     ⟨.hh, .c, .d, .a, .b, 15, 16, 0x1fa27cf8⟩, ⟨.hh, .b, .c, .d, .a, 2, 23, 0xc4ac5665⟩,
     ⟨.ii, .a, .b, .c, .d, 0, 6, 0xf4292244⟩, ⟨.ii, .d, .a, .b, .c, 7, 10, 0x432aff97⟩,
     ⟨.ii, .c, .d, .a, .b, 14, 15, 0xab9423a7⟩, ⟨.ii, .b, .c, .d, .a, 5, 21, 0xfc93a039⟩,
     ⟨.ii, .a, .b, .c, .d, 12, 6, 0x655b59c3⟩, ⟨.ii, .d, .a, .b, .c, 3, 10, 0x8f0ccc92⟩,
     ⟨.ii, .c, .d, .a, .b, 10, 15, 0xffeff47d⟩, ⟨.ii, .b, .c, .d, .a, 1, 21, 0x85845dd1⟩,
     ⟨.ii, .a, .b, .c, .d, 8, 6, 0x6fa87e4f⟩, ⟨.ii, .d, .a, .b, .c, 15, 10, 0xfe2ce6e0⟩,
     ⟨.ii, .c, .d, .a, .b, 6, 15, 0xa3014314⟩, ⟨.ii, .b, .c, .d, .a, 13, 21, 0x4e0811a1⟩,
     ⟨.ii, .a, .b, .c, .d, 4, 6, 0xf7537e82⟩, ⟨.ii, .d, .a, .b, .c, 11, 10, 0xbd3af235⟩,
     ⟨.ii, .c, .d, .a, .b, 2, 15, 0x2ad7d2bb⟩, ⟨.ii, .b, .c, .d, .a, 9, 21, 0xeb86d391⟩]

def md5Encode (words : List UInt32) : Bytes := words.flatMap fun w : UInt32 =>
  [(w &&& 0xff).toUInt8, (w >>> 8 &&& 0xff).toUInt8, (w >>> 16 &&& 0xff).toUInt8, (w >>> 24 &&& 0xff).toUInt8]

def md5Decode (block : Bytes) : List UInt32 := (List.range 16).map fun i =>
  (block.getD (i * 4) 0).toUInt32 ||| (block.getD (i * 4 + 1) 0).toUInt32 <<< 8 |||
    (block.getD (i * 4 + 2) 0).toUInt32 <<< 16 ||| (block.getD (i * 4 + 3) 0).toUInt32 <<< 24

def md5Transform (state : MdBuffer) (block : Bytes) : MdBuffer :=
  let r := md5Ops.foldl (md5Run (md5Decode block)) state
  ⟨state.a + r.a, state.b + r.b, state.c + r.c, state.d + r.d⟩

/-- The context of a string not begun; what is in the buffer is left from the stack. -/
def md5Init (stack : Vector UInt8 64) : Md5Ctx := ⟨⟨0x67452301, 0xefcdab89, 0x98badcfe, 0x10325476⟩, 0, 0, stack.toList⟩

/-- `memcpy` into a buffer; one that goes beyond its end would make it longer. -/
def memcpyAt (buffer : Bytes) (index : ℕ) (data : Bytes) : Bytes :=
  buffer.take index ++ data ++ buffer.drop (index + data.length)

/-- The loop over whole blocks: state, buffer, and the data that is left. -/
def md5Blocks : ℕ → MdBuffer → Bytes → Bytes → MdBuffer × Bytes × Bytes
  | 0, state, buffer, data => (state, buffer, data)
  | fuel + 1, state, buffer, data =>
    if 63 < data.length then
      let buffer := memcpyAt buffer 0 (data.take 64)
      md5Blocks fuel (md5Transform state buffer) buffer (data.drop 64)
    else (state, buffer, data)

def md5Index (ctx : Md5Ctx) : ℕ := (ctx.count0 >>> 3 &&& 0x3f).toNat

def md5Update (ctx : Md5Ctx) (data : Bytes) : Md5Ctx :=
  let index := md5Index ctx
  let bits := UInt32.ofNat (data.length <<< 3)
  let count0 := ctx.count0 + bits
  let carried := if count0 < bits then ctx.count1 + 1 else ctx.count1
  let count1 := carried + UInt32.ofNat (data.length >>> 29)
  let partLen := 64 - index
  if partLen ≤ data.length then
    let buffer := memcpyAt ctx.buffer index (data.take partLen)
    let r := md5Blocks data.length (md5Transform ctx.state buffer) buffer (data.drop partLen)
    ⟨r.1, count0, count1, memcpyAt r.2.1 0 r.2.2⟩
  else ⟨ctx.state, count0, count1, memcpyAt ctx.buffer index data⟩

def md5Padding : Bytes := 0x80 :: List.replicate 63 0

def md5FinalizeHex (ctx : Md5Ctx) : Bytes :=
  let bits := md5Encode [ctx.count0, ctx.count1]
  let index := md5Index ctx
  let padLen := if index < 56 then 56 - index else 120 - index
  let done := md5Update (md5Update ctx (md5Padding.take padLen)) bits
  hex (md5Encode [done.state.a, done.state.b, done.state.c, done.state.d])

def md5Hex (stack : Vector UInt8 64) (plain : Bytes) : Bytes := md5FinalizeHex (md5Update (md5Init stack) plain)

example : md5Hex (Vector.replicate 64 0x5a) (ofString "message digest") =
    ofString "f96b697d7cb7938d525a2f31aaf161d0" := by
  decide +kernel

section Transform

def Md5Reg.next : Md5Reg → Md5Reg
  | .a => .b
  | .b => .c
  | .c => .d
  | .d => .a

/-- The register that the operations go to in turn. -/
def regAt : ℕ → Md5Reg
  | 0 => .a
  | i + 1 => (regAt i).next.next.next

def roundAt (i : ℕ) : Md5Round := if i < 16 then .ff else if i < 32 then .gg else if i < 48 then .hh else .ii

def opAt (i : ℕ) : Md5Op :=
  let r := regAt i
  ⟨roundAt i, r, r.next, r.next.next, r.next.next.next, wordOf i, shiftOf i, tableWord (i + 1)⟩

lemma md5Ops_eq : md5Ops = (List.range 64).map opAt := by decide +kernel

/-- The registers in the order in which an operation takes them. -/
def view (regs : MdBuffer) (r : Md5Reg) : MdBuffer :=
  ⟨md5Reg regs r, md5Reg regs r.next, md5Reg regs r.next.next, md5Reg regs r.next.next.next⟩

lemma md5Function_roundAt (i : ℕ) : md5Function (roundAt i) = auxOf i := by
  rw [roundAt, auxOf]
  split_ifs <;> rfl

lemma md5RotateLeft_eq (x : UInt32) {n : ℕ} (hpos : 0 < n) (hn : n < 32) : md5RotateLeft x n = rotateLeft x n := by
  have hword : ∀ m < 32, ((UInt32.ofNat m).toBitVec % 32).toNat = m := by
    intro m hm
    have hmod : m % 2 ^ 32 % 32 = m := by omega
    simpa using hmod
  apply UInt32.toBitVec_inj.mp
  rw [md5RotateLeft, rotateLeft, UInt32.toBitVec_or, UInt32.toBitVec_shiftLeft, UInt32.toBitVec_shiftRight,
    BitVec.rotateLeft_def, BitVec.shiftLeft_eq', BitVec.ushiftRight_eq', hword n hn, hword (32 - n) (by omega),
    Nat.mod_eq_of_lt hn]

/-- What an operation makes of the registers as it takes them. -/
lemma view_op (x : List UInt32) (regs : MdBuffer) (r : Md5Reg) (round : Md5Round) (k : ℕ) (ac : UInt32) {s : ℕ}
    (hpos : 0 < s)
    (hs : s < 32) :
    view (md5Run x regs ⟨round, r, r.next, r.next.next, r.next.next.next, k, s, ac⟩) r.next.next.next =
      ⟨(view regs r).d, (view regs r).b + rotateLeft ((view regs r).a +
        md5Function round (view regs r).b (view regs r).c (view regs r).d + x.getD k 0 + ac) s,
        (view regs r).b, (view regs r).c⟩ := by
  rw [md5Run]
  dsimp only
  rw [md5RotateLeft_eq _ hpos hs, UInt32.add_comm (rotateLeft _ s), ← UInt32.add_assoc, ← UInt32.add_assoc]
  cases r <;> rfl

lemma view_run (x : List UInt32) (regs : MdBuffer) {i : ℕ} (hi : i < 64) :
    view (md5Run x regs (opAt i)) (regAt (i + 1)) = step tableWord x (view regs (regAt i)) i := by
  have hshift : ∀ j < 64, 0 < shiftOf j ∧ shiftOf j < 32 := by decide
  obtain ⟨hpos, hlt⟩ := hshift i hi
  rw [step, ← md5Function_roundAt]
  exact view_op x regs (regAt i) (roundAt i) (wordOf i) (tableWord (i + 1)) hpos hlt

lemma view_foldl (x : List UInt32) (regs : MdBuffer) {n : ℕ} (hn : n ≤ 64) :
    view (((List.range n).map opAt).foldl (md5Run x) regs) (regAt n) =
      (List.range n).foldl (step tableWord x) regs := by
  induction n with
  | zero => rfl
  | succ n ih =>
    rw [List.range_succ, List.map_append, List.foldl_append, List.foldl_append, ← ih (Nat.le_of_succ_le hn)]
    exact view_run x _ hn

lemma word_of_bytes (a b c d : UInt8) :
    a.toUInt32 ||| b.toUInt32 <<< 8 ||| c.toUInt32 <<< 16 ||| d.toUInt32 <<< 24 =
      UInt32.ofNat (leValue [a, b, c, d]) := by
  have ha := a.toNat_lt
  have hb := b.toNat_lt
  have hc := c.toNat_lt
  have hd := d.toNat_lt
  apply UInt32.toNat_inj.mp
  have hor : ∀ x y k : ℕ, x < 2 ^ k → x ||| y * 2 ^ k = x + y * 2 ^ k := by
    intro x y k hx
    have h := Nat.shiftLeft_add_eq_or_of_lt hx y
    rw [Nat.shiftLeft_eq] at h
    rw [Nat.or_comm, ← h, Nat.add_comm]
  have hvalue : leValue [a, b, c, d] = a.toNat + b.toNat * 2 ^ 8 + c.toNat * 2 ^ 16 + d.toNat * 2 ^ 24 := by
    simp [leValue, Nat.ofDigits_cons]
    ring
  have hshift : ∀ (x : UInt8) (k : ℕ), x.toNat * 2 ^ k < 2 ^ 32 → k < 32 →
      (x.toUInt32 <<< UInt32.ofNat k).toNat = x.toNat * 2 ^ k := by
    intro x k hx hk
    rw [UInt32.toNat_shiftLeft, UInt8.toNat_toUInt32, UInt32.toNat_ofNat', Nat.mod_eq_of_lt (by omega : k < 2 ^ 32),
      Nat.mod_eq_of_lt hk, Nat.shiftLeft_eq, Nat.mod_eq_of_lt hx]
  have h8 : (b.toUInt32 <<< 8).toNat = b.toNat * 2 ^ 8 := hshift b 8 (by omega) (by omega)
  have h16 : (c.toUInt32 <<< 16).toNat = c.toNat * 2 ^ 16 := hshift c 16 (by omega) (by omega)
  have h24 : (d.toUInt32 <<< 24).toNat = d.toNat * 2 ^ 24 := hshift d 24 (by omega) (by omega)
  rw [UInt32.toNat_or, UInt32.toNat_or, UInt32.toNat_or, h8, h16, h24, UInt8.toNat_toUInt32, hor _ _ 8 (by omega),
    hor _ _ 16 (by omega), hor _ _ 24 (by omega), ← hvalue, UInt32.toNat_ofNat', Nat.mod_eq_of_lt (by omega)]

lemma md5Decode_eq {block : Bytes} (h : block.length = 64) : md5Decode block = wordsOf block := by
  rw [md5Decode, wordsOf, blocks, List.map_map, h]
  apply List.map_congr_left
  intro i hi
  have hi' : i < 16 := List.mem_range.mp hi
  have hpiece : (block.drop (4 * i)).take 4 =
      [block.getD (i * 4) 0, block.getD (i * 4 + 1) 0, block.getD (i * 4 + 2) 0, block.getD (i * 4 + 3) 0] := by
    apply List.ext_getElem
    · rw [List.length_take, List.length_drop, h]
      simp only [List.length_cons, List.length_nil]
      omega
    · intro j hj hj'
      rw [List.getElem_take, List.getElem_drop]
      have hj4 : j < 4 := hj'
      have hcases : j = 0 ∨ j = 1 ∨ j = 2 ∨ j = 3 := by omega
      rcases hcases with rfl | rfl | rfl | rfl
      all_goals simp [Nat.mul_comm i 4, h, show 4 * i + 3 < 64 by omega, show 4 * i + 2 < 64 by omega,
        show 4 * i + 1 < 64 by omega, show 4 * i < 64 by omega]
  rw [Function.comp_apply, hpiece, word_of_bytes]

lemma md5Transform_eq (state : MdBuffer) {block : Bytes} (h : block.length = 64) :
    md5Transform state block = compress tableWord state block := by
  have hview := view_foldl (wordsOf block) state (le_refl 64)
  have hlast : regAt 64 = .a := by decide +kernel
  have hstart : ∀ regs, view regs .a = regs := fun _ => rfl
  rw [hlast, hstart] at hview
  rw [md5Transform, md5Ops_eq, md5Decode_eq h, hview, compress]

/-- The four bytes of a word, the low-order one first. -/
lemma md5Encode_eq (words : List UInt32) : md5Encode words = words.flatMap fun w => leBytes 4 w.toNat := by
  have hbyte : ∀ (w : UInt32) (k : ℕ), k < 32 → (w >>> UInt32.ofNat k &&& 0xff).toUInt8 = byteAt w.toNat k := by
    intro w k hk
    apply UInt8.toNat_inj.mp
    have hmask : (0xff : UInt32).toNat = 2 ^ 8 - 1 := rfl
    rw [byteAt_toNat, UInt32.toNat_toUInt8, UInt32.toNat_and, UInt32.toNat_shiftRight, hmask,
      Nat.and_two_pow_sub_one_eq_mod, Nat.mod_mod, UInt32.toNat_ofNat', Nat.mod_eq_of_lt (by omega : k < 2 ^ 32),
      Nat.mod_eq_of_lt hk, Nat.shiftRight_eq_div_pow]
  rw [md5Encode]
  apply List.flatMap_congr
  intro w _
  have hzero := hbyte w 0 (by omega)
  rw [show w >>> UInt32.ofNat 0 = w from by simp] at hzero
  have h8 : (w >>> 8 &&& 0xff).toUInt8 = byteAt w.toNat 8 := hbyte w 8 (by omega)
  have h16 : (w >>> 16 &&& 0xff).toUInt8 = byteAt w.toNat 16 := hbyte w 16 (by omega)
  have h24 : (w >>> 24 &&& 0xff).toUInt8 = byteAt w.toNat 24 := hbyte w 24 (by omega)
  rw [hzero, h8, h16, h24]
  rfl

end Transform

section Stream

variable {ctx : Md5Ctx} {message : Bytes}

/-- The number of bits, in the two words of the context. -/
def bitCount (ctx : Md5Ctx) : ℕ := ctx.count1.toNat * 2 ^ 32 + ctx.count0.toNat

/-- The context of a string: its whole blocks are in the state, what is left of it stands at the front of the buffer. -/
structure Absorbed (ctx : Md5Ctx) (message : Bytes) : Prop where
  state : ctx.state = (blocks 64 message).foldl (compress tableWord) start
  sized : ctx.buffer.length = 64
  left : ctx.buffer.take (message.length % 64) = rest 64 message
  count : bitCount ctx = 8 * message.length % 2 ^ 64

lemma md5Index_eq (n : ℕ) (h : bitCount ctx = 8 * n % 2 ^ 64) : md5Index ctx = n % 64 := by
  have hlt := ctx.count0.toNat_lt
  have hmask : (0x3f : UInt32).toNat = 2 ^ 6 - 1 := rfl
  have hshift : (ctx.count0 >>> 3).toNat = ctx.count0.toNat / 2 ^ 3 := by
    rw [UInt32.toNat_shiftRight, Nat.shiftRight_eq_div_pow]
    rfl
  rw [md5Index, UInt32.toNat_and, hshift, hmask, Nat.and_two_pow_sub_one_eq_mod]
  rw [bitCount] at h
  omega

lemma md5Update_count0 (ctx : Md5Ctx) (data : Bytes) :
    (md5Update ctx data).count0 = ctx.count0 + UInt32.ofNat (data.length <<< 3) := by
  rw [md5Update]
  split_ifs <;> rfl

lemma md5Update_count1 (ctx : Md5Ctx) (data : Bytes) :
    (md5Update ctx data).count1 = (if (md5Update ctx data).count0 < UInt32.ofNat (data.length <<< 3) then ctx.count1 + 1
      else ctx.count1) + UInt32.ofNat (data.length >>> 29) := by
  rw [md5Update_count0, md5Update]
  split_ifs <;> rfl

/-- Two words and their carry count on as one number of 64 bits. -/
lemma words_add {a b n k c : ℕ} (h : a * 2 ^ 32 + b = n % 2 ^ 64)
    (hc : b + k % 2 ^ 32 = c * 2 ^ 32 + (b + k % 2 ^ 32) % 2 ^ 32) :
    (a + c + k / 2 ^ 32) % 2 ^ 32 * 2 ^ 32 + (b + k % 2 ^ 32) % 2 ^ 32 = (n + k) % 2 ^ 64 := by
  have hn := Nat.mod_add_div n (2 ^ 64)
  have hk := Nat.mod_add_div k (2 ^ 32)
  have hu := Nat.mod_add_div (a + c + k / 2 ^ 32) (2 ^ 32)
  have hv : (b + k % 2 ^ 32) % 2 ^ 32 < 2 ^ 32 := Nat.mod_lt _ (by norm_num)
  have hw : (a + c + k / 2 ^ 32) % 2 ^ 32 < 2 ^ 32 := Nat.mod_lt _ (by norm_num)
  generalize (b + k % 2 ^ 32) % 2 ^ 32 = v at *
  generalize (a + c + k / 2 ^ 32) % 2 ^ 32 = u at *
  generalize (a + c + k / 2 ^ 32) / 2 ^ 32 = s at *
  generalize k / 2 ^ 32 = q at *
  generalize k % 2 ^ 32 = r at *
  generalize n / 2 ^ 64 = t at *
  generalize n % 2 ^ 64 = m at *
  norm_num at *
  have htotal : n + k = u * 4294967296 + v + 18446744073709551616 * (t + s) := by omega
  rw [htotal, Nat.add_mul_mod_self_left, Nat.mod_eq_of_lt]
  omega

lemma bitCount_update (n : ℕ) (h : bitCount ctx = 8 * n % 2 ^ 64) (data : Bytes) :
    bitCount (md5Update ctx data) = 8 * (n + data.length) % 2 ^ 64 := by
  have hlt := ctx.count0.toNat_lt
  have hlt' := ctx.count1.toNat_lt
  have hlow : (UInt32.ofNat (data.length <<< 3)).toNat = 8 * data.length % 2 ^ 32 := by
    rw [UInt32.toNat_ofNat', Nat.shiftLeft_eq, Nat.mul_comm]
  have hhigh : (UInt32.ofNat (data.length >>> 29)).toNat = 8 * data.length / 2 ^ 32 % 2 ^ 32 := by
    rw [UInt32.toNat_ofNat', Nat.shiftRight_eq_div_pow]
    omega
  have hcount0 : (md5Update ctx data).count0.toNat = (ctx.count0.toNat + 8 * data.length % 2 ^ 32) % 2 ^ 32 := by
    rw [md5Update_count0, UInt32.toNat_add, hlow]
  have hcarry : ((md5Update ctx data).count0 < UInt32.ofNat (data.length <<< 3)) ↔
      2 ^ 32 ≤ ctx.count0.toNat + 8 * data.length % 2 ^ 32 := by
    rw [UInt32.lt_iff_toNat_lt, hcount0, hlow]
    omega
  rw [bitCount] at h ⊢
  rw [md5Update_count1]
  by_cases hover : 2 ^ 32 ≤ ctx.count0.toNat + 8 * data.length % 2 ^ 32
  · rw [if_pos (hcarry.mpr hover), UInt32.toNat_add, UInt32.toNat_add, hhigh, hcount0, UInt32.toNat_one]
    rw [Nat.mod_add_mod, Nat.add_mod_mod, Nat.mul_add]
    exact words_add h (by omega)
  · rw [if_neg (hover ∘ hcarry.mp), UInt32.toNat_add, hhigh, hcount0]
    rw [Nat.add_mod_mod, Nat.mul_add]
    exact @words_add _ _ _ _ 0 h (by omega)

lemma memcpyAt_whole {buffer data : Bytes} (h : buffer.length = data.length) : memcpyAt buffer 0 data = data := by
  rw [memcpyAt, List.take_zero, List.nil_append, Nat.zero_add, List.drop_of_length_le (le_of_eq h), List.append_nil]

lemma length_memcpyAt {buffer data : Bytes} {index : ℕ} (h : index + data.length ≤ buffer.length) :
    (memcpyAt buffer index data).length = buffer.length := by
  rw [memcpyAt, List.length_append, List.length_append, List.length_take, List.length_drop]
  omega

lemma md5Blocks_eq {fuel : ℕ} {state : MdBuffer} {buffer data : Bytes} (hbuffer : buffer.length = 64)
    (hfuel : data.length ≤ fuel) :
    ∃ buffer', buffer'.length = 64 ∧
      md5Blocks fuel state buffer data = ((blocks 64 data).foldl (compress tableWord) state, buffer',
          rest 64 data) := by
  induction fuel generalizing state buffer data with
  | zero =>
    have hnil : data = [] := List.length_eq_zero_iff.mp (Nat.le_zero.mp hfuel)
    exact ⟨buffer, hbuffer, by rw [hnil, md5Blocks, blocks_of_lt (by decide), rest_of_lt (by decide)]; rfl⟩
  | succ fuel ih =>
    rw [md5Blocks]
    by_cases hmore : 63 < data.length
    · have htake : (data.take 64).length = 64 := by
        rw [List.length_take]
        omega
      rw [if_pos hmore]
      dsimp only
      rw [memcpyAt_whole (by rw [hbuffer, htake]), md5Transform_eq state htake, blocks_of_le (by decide) hmore,
        rest_of_le (by decide) hmore, List.foldl_cons]
      exact ih htake (by rw [List.length_drop]; omega)
    · have hlt : data.length < 64 := by omega
      exact ⟨buffer, hbuffer, by rw [if_neg hmore, blocks_of_lt hlt, rest_of_lt hlt]; rfl⟩

lemma absorbed_init (stack : Vector UInt8 64) : Absorbed (md5Init stack) [] where
  state := by
    rw [blocks_of_lt (by decide)]
    rfl
  sized := by simp [md5Init]
  left := by rw [rest_of_lt (by decide), List.length_nil, Nat.zero_mod, List.take_zero]
  count := by simp [bitCount, md5Init]

lemma md5Update_few {data : Bytes} (hfew : ¬64 - md5Index ctx ≤ data.length) :
    (md5Update ctx data).state = ctx.state ∧ (md5Update ctx data).buffer = memcpyAt ctx.buffer (md5Index ctx) data := by
  rw [md5Update, if_neg hfew]
  exact ⟨rfl, rfl⟩

lemma md5Update_many {data block : Bytes} (hmany : 64 - md5Index ctx ≤ data.length)
    (hblock : memcpyAt ctx.buffer (md5Index ctx) (data.take (64 - md5Index ctx)) = block) (hsized : block.length = 64) :
    (md5Update ctx data).state =
        (block :: blocks 64 (data.drop (64 - md5Index ctx))).foldl (compress tableWord) ctx.state ∧
      ∃ buffer : Bytes, buffer.length = 64 ∧
        (md5Update ctx data).buffer = memcpyAt buffer 0 (rest 64 (data.drop (64 - md5Index ctx))) := by
  obtain ⟨buffer, hbuffer, hloop⟩ := @md5Blocks_eq data.length (md5Transform ctx.state block) block
    (data.drop (64 - md5Index ctx)) hsized (by rw [List.length_drop]; omega)
  rw [md5Update, if_pos hmany]
  dsimp only
  rw [hblock, hloop, md5Transform_eq ctx.state hsized]
  exact ⟨rfl, buffer, hbuffer, rfl⟩

/-- What comes next is taken in behind what was there. -/
lemma Absorbed.update (h : Absorbed ctx message) (data : Bytes) : Absorbed (md5Update ctx data) (message ++ data) := by
  have hindex := md5Index_eq message.length h.count
  have hrest := length_rest 64 message
  have hcount := bitCount_update message.length h.count data
  have hblocks := blocks_append (by decide : 0 < 64) message data
  have hleft := rest_append (by decide : 0 < 64) message data
  have hmod : md5Index ctx < 64 := hindex ▸ Nat.mod_lt _ (by decide)
  rw [← List.length_append] at hcount
  rw [← hindex] at hrest
  have hcopy : ∀ piece : Bytes, memcpyAt ctx.buffer (md5Index ctx) piece =
      rest 64 message ++ piece ++ ctx.buffer.drop (md5Index ctx + piece.length) := by
    intro piece
    rw [memcpyAt, ← h.left, hindex]
  by_cases hmany : 64 - md5Index ctx ≤ data.length
  · -- the buffer is filled up to a block, and the whole blocks of the data follow
    have hpart : (data.take (64 - md5Index ctx)).length = 64 - md5Index ctx := by
      rw [List.length_take]
      exact min_eq_left hmany
    have hsized : (rest 64 message ++ data.take (64 - md5Index ctx)).length = 64 := by
      rw [List.length_append, hpart, hrest]
      omega
    have hfilled : memcpyAt ctx.buffer (md5Index ctx) (data.take (64 - md5Index ctx)) =
        rest 64 message ++ data.take (64 - md5Index ctx) := by
      rw [hcopy, hpart, List.drop_of_length_le (by rw [h.sized]; omega), List.append_nil]
    have hsplit : rest 64 message ++ data =
        rest 64 message ++ data.take (64 - md5Index ctx) ++ data.drop (64 - md5Index ctx) := by
      rw [List.append_assoc, List.take_append_drop]
    have hlong : 64 ≤ (rest 64 message ++ data).length := by
      rw [List.length_append, hrest]
      omega
    obtain ⟨hstate, buffer, hbuffer, hupdated⟩ := md5Update_many hmany hfilled hsized
    rw [blocks_of_le (by decide) hlong, hsplit, List.take_left' hsized, List.drop_left' hsized] at hblocks
    rw [rest_of_le (by decide) hlong, hsplit, List.drop_left' hsized] at hleft
    have hshort : (rest 64 (data.drop (64 - md5Index ctx))).length ≤ 64 := by
      rw [length_rest]
      exact (Nat.mod_lt _ (by decide)).le
    refine ⟨?_, ?_, ?_, hcount⟩
    · rw [hstate, hblocks, List.foldl_append, h.state]
    · rw [hupdated, length_memcpyAt (by omega), hbuffer]
    · rw [hupdated, ← length_rest, hleft, memcpyAt, List.take_zero, List.nil_append, List.take_left]
  · obtain ⟨hstate, hupdated⟩ := md5Update_few hmany
    have hshort : (rest 64 message ++ data).length < 64 := by
      rw [List.length_append, hrest]
      omega
    rw [blocks_of_lt hshort, List.append_nil] at hblocks
    rw [rest_of_lt hshort] at hleft
    refine ⟨?_, ?_, ?_, hcount⟩
    · rw [hstate, hblocks, h.state]
    · rw [hupdated, length_memcpyAt (by rw [h.sized]; omega), h.sized]
    · rw [hupdated, ← length_rest, hleft, hcopy, List.take_left]

/-- The padding and the length close the last block. -/
lemma md5FinalizeHex_eq (h : Absorbed ctx message) : md5FinalizeHex ctx = hex (digest message) := by
  have hindex := md5Index_eq message.length h.count
  have hpad : md5Padding.take (if md5Index ctx < 56 then 56 - md5Index ctx else 120 - md5Index ctx) =
      padding message.length := by
    have hlen : (if md5Index ctx < 56 then 56 - md5Index ctx else 120 - md5Index ctx) =
        (119 - message.length % 64) % 64 + 1 := by
      rw [hindex]
      split_ifs <;> omega
    have hlt : (119 - message.length % 64) % 64 < 64 := Nat.mod_lt _ (by decide)
    rw [hlen, md5Padding, padding, List.take_succ_cons, List.take_replicate, min_eq_left (Nat.le_of_lt_succ hlt)]
  have hbits : md5Encode [ctx.count0, ctx.count1] = leBytes 8 (8 * message.length) := by
    have hcount := h.count
    have hlow := ctx.count0.toNat_lt
    rw [bitCount] at hcount
    have hfirst : ∀ k ≤ 24, byteAt ctx.count0.toNat k = byteAt (8 * message.length) k := by
      intro k hk
      have hword : ctx.count0.toNat = 8 * message.length % 2 ^ 64 % 2 ^ 32 := by
        rw [← hcount, Nat.mul_add_mod_self_right, Nat.mod_eq_of_lt hlow]
      rw [hword, byteAt_mod (by omega), byteAt_mod (by omega)]
    have hsecond : ∀ k ≤ 24, byteAt ctx.count1.toNat k = byteAt (8 * message.length) (32 + k) := by
      intro k hk
      have hword : ctx.count1.toNat = 8 * message.length % 2 ^ 64 / 2 ^ 32 := by
        rw [← hcount, Nat.mul_comm, Nat.mul_add_div (by decide), Nat.div_eq_of_lt hlow, Nat.add_zero]
      rw [hword, byteAt_div, byteAt_mod (by omega)]
    have hfour : ∀ w : UInt32, leBytes 4 w.toNat =
      [byteAt w.toNat 0, byteAt w.toNat 8, byteAt w.toNat 16, byteAt w.toNat 24] := fun _ => rfl
    rw [md5Encode_eq, List.flatMap_cons, List.flatMap_cons, List.flatMap_nil, List.append_nil, hfour, hfour]
    rw [hfirst 0 (by omega), hfirst 8 (by omega), hfirst 16 (by omega), hfirst 24 (by omega), hsecond 0 (by omega),
      hsecond 8 (by omega), hsecond 16 (by omega), hsecond 24 (by omega)]
    rfl
  rw [md5FinalizeHex]
  rw [hpad, hbits, ((h.update _).update _).state, md5Encode_eq, digest_eq, digestWith, padded, MdBuffer.bytes]

end Stream

section Match

lemma md5Hex_eq (stack : Vector UInt8 64) (plain : Bytes) : md5Hex stack plain = hex (digest plain) := by
  rw [md5Hex, md5FinalizeHex_eq ((absorbed_init stack).update plain), List.nil_append]

lemma hexByte_lower (b : UInt8) : (hexByte b).map lower = hexByte b :=
  forall_byte (p := fun b => (hexByte b).map lower = hexByte b) (by decide +kernel) b

lemma hex_lower (bytes : Bytes) : (hex bytes).map lower = hex bytes := by
  rw [hex, List.map_flatMap]
  exact List.flatMap_congr fun b _ => hexByte_lower b

lemma length_hex (bytes : Bytes) : (hex bytes).length = 2 * bytes.length := by
  rw [hex, List.length_flatMap]
  simp [hexByte, Nat.mul_comm]

lemma length_digest (plain : Bytes) : (digest plain).length = 16 := by
  rw [digest, MdBuffer.bytes]
  rfl

end Match

variable (sha256Hex : Bytes → Bytes) (stack : Vector UInt8 64)

/-- MD5 is that of the RFC for every string, whatever the stack holds, and a stored MD5 lets in the strings that have
it. -/
theorem md5_is_rfc1321 :
    (∀ plain, md5Hex stack plain = hex (digest plain)) ∧
    ∀ digits provided, hexStringValid digits 32 = true → provided ≠ [] →
      (passwordMatch ⟨sha256Hex, md5Hex stack⟩ (passwordMd5Prefix ++ digits) provided = true ↔
        digits.map lower = hex (digest provided)) := by
  refine ⟨md5Hex_eq stack, ?_⟩
  intro digits provided hdigits hne
  have hlen : digits.length = 32 := by
    rw [hexStringValid, Bool.and_eq_true, decide_eq_true_eq] at hdigits
    exact hdigits.1
  have hmarker : passwordMd5Prefix = [0x7b, 0x6d, 0x64, 0x35, 0x7d] := by decide
  have hsha : ¬passwordSha256Prefix <+: passwordMd5Prefix ++ digits := by
    have hother : passwordSha256Prefix = [0x7b, 0x73, 0x68, 0x61, 0x32, 0x35, 0x36, 0x7d] := by decide
    rw [hmarker, hother]
    simp
  have hdrop : (passwordMd5Prefix ++ digits).drop 5 = digits := List.drop_left' (by rw [hmarker]; rfl)
  rw [passwordMatch, if_neg (by simp [hne, hmarker]), if_neg hsha, if_pos (List.prefix_append _ _), hdrop, hexStringEq,
    decide_eq_true_eq]
  dsimp only
  rw [List.take_of_length_le hlen.le, md5Hex_eq, List.take_of_length_le (by rw [length_hex, length_digest]), hex_lower]

theorem md5_is_rfc1321_abc :
    passwordMatch ⟨fun _ => [], md5Hex (Vector.replicate 64 0)⟩
      (ofString "\x7bmd5\x7d900150983CD24FB0D6963F7D28E17F72") (ofString "abc") = true := by
  have hdigits : hexStringValid (ofString "900150983CD24FB0D6963F7D28E17F72") 32 = true := by decide
  refine ((md5_is_rfc1321 (fun _ => []) _).2 (ofString "900150983CD24FB0D6963F7D28E17F72") (ofString "abc") hdigits
    (by decide)).mpr ?_
  rw [digest_eq]
  decide +kernel

end HyBBX.Core
