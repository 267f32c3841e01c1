import HyBBX.Core.Sha256

/-! The SHA-1 of the WebSocket handshake. -/

namespace HyBBX.Websocket

open HyBBX.Core Lib Lib.Bytes Lib.Blocks Lib.Sha

/-- The bits are counted in `uint64_t`. -/
structure WsSha1Ctx where
  state : Sha1State
  count : UInt64
  buffer : Bytes

def rol (v : UInt32) (bits : ℕ) : UInt32 := v <<< UInt32.ofNat bits ||| v >>> UInt32.ofNat (32 - bits)

/-- The array of the words: those of the block, and the loop that works out the others. -/
def wsSha1Words (block : Bytes) : List UInt32 :=
  (List.range' 16 64).foldl
    (fun w i => w ++ [rol (w.getD (i - 3) 0 ^^^ w.getD (i - 8) 0 ^^^ w.getD (i - 14) 0 ^^^ w.getD (i - 16) 0) 1])
    ((List.range 16).map fun i => loadBe32 (block.drop (i * 4)))

def wsSha1Round (w : List UInt32) (s : Sha1State) (i : ℕ) : Sha1State :=
  let ⟨a, b, c, d, e⟩ := s
  let (f, k) : UInt32 × UInt32 :=
    if i < 20 then (b &&& c ||| ~~~b &&& d, 0x5A827999)
    else if i < 40 then (b ^^^ c ^^^ d, 0x6ED9EBA1)
    else if i < 60 then (b &&& c ||| b &&& d ||| c &&& d, 0x8F1BBCDC)
    else (b ^^^ c ^^^ d, 0xCA62C1D6)
  let t := rol a 5 + f + e + k + w.getD i 0
  ⟨t, a, rol b 30, c, d⟩

def wsSha1Transform (s : Sha1State) (block : Bytes) : Sha1State :=
  let r := (List.range 80).foldl (wsSha1Round (wsSha1Words block)) s
  ⟨s.a + r.a, s.b + r.b, s.c + r.c, s.d + r.d, s.e + r.e⟩

def wsSha1Init (stack : Vector UInt8 64) : WsSha1Ctx :=
  ⟨⟨0x67452301, 0xEFCDAB89, 0x98BADCFE, 0x10325476, 0xC3D2E1F0⟩, 0, stack.toList⟩

/-- The loop over whole blocks, on the data from its index on. -/
def wsSha1Blocks : ℕ → Sha1State → Bytes → Sha1State × Bytes
  | 0, state, data => (state, data)
  | fuel + 1, state, data =>
    if 63 < data.length then wsSha1Blocks fuel (wsSha1Transform state data) (data.drop 64) else (state, data)

def wsSha1Index (ctx : WsSha1Ctx) : ℕ := (ctx.count >>> 3 &&& 63).toNat

def wsSha1Update (ctx : WsSha1Ctx) (data : Bytes) : WsSha1Ctx :=
  let idx := wsSha1Index ctx
  let count := ctx.count + UInt64.ofNat data.length * 8
  if 63 < idx + data.length then
    let buffer := memcpyAt ctx.buffer idx (data.take (64 - idx))
    let r := wsSha1Blocks data.length (wsSha1Transform ctx.state buffer) (data.drop (64 - idx))
    ⟨r.1, count, memcpyAt buffer 0 r.2⟩
  else ⟨ctx.state, count, memcpyAt ctx.buffer idx data⟩

def wsSha1Final (ctx : WsSha1Ctx) : Bytes :=
  let front := ctx.buffer.take (wsSha1Index ctx) ++ [0x80]
  let r : Sha1State × Bytes :=
    if 56 < front.length then (wsSha1Transform ctx.state (front ++ List.replicate (64 - front.length) 0), [])
    else (ctx.state, front)
  let bits := [0, 1, 2, 3, 4, 5, 6, 7].map fun i => (ctx.count >>> UInt64.ofNat (56 - i * 8)).toUInt8
  let s := wsSha1Transform r.1 (r.2 ++ List.replicate (56 - r.2.length) 0 ++ bits)
  [s.a, s.b, s.c, s.d, s.e].flatMap fun v : UInt32 =>
    [(v >>> 24).toUInt8, (v >>> 16).toUInt8, (v >>> 8).toUInt8, v.toUInt8]

def hybbxWsSha1 (stack : Vector UInt8 64) (data : Bytes) : Bytes := wsSha1Final (wsSha1Update (wsSha1Init stack) data)

example : hybbxWsSha1 (Vector.replicate 64 0x5a) (ofString "abc") =
    [0xa9, 0x99, 0x3e, 0x36, 0x47, 0x06, 0x81, 0x6a, 0xba, 0x3e, 0x25, 0x71, 0x78, 0x50, 0xc2, 0x6c, 0x9c, 0xd0, 0xd8,
      0x9d] := by
  decide +kernel

section Transform

lemma rol_eq (v : UInt32) {bits : ℕ} (hpos : 0 < bits) (hlt : bits < 32) : rol v bits = Md5.rotateLeft v bits :=
  md5RotateLeft_eq v hpos hlt

lemma or_eq_ch (x y z : UInt32) : x &&& y ||| ~~~x &&& z = ch x y z := by
  apply UInt32.toBitVec_inj.mp
  apply BitVec.eq_of_getLsbD_eq
  intro i hi
  rw [ch]
  simp only [UInt32.toBitVec_or, UInt32.toBitVec_and, UInt32.toBitVec_not, UInt32.toBitVec_xor, BitVec.getLsbD_or,
    BitVec.getLsbD_and, BitVec.getLsbD_not, BitVec.getLsbD_xor, hi]
  cases x.toBitVec.getLsbD i <;> simp

lemma or_eq_maj (x y z : UInt32) : x &&& y ||| x &&& z ||| y &&& z = maj x y z := by
  apply UInt32.toBitVec_inj.mp
  apply BitVec.eq_of_getLsbD_eq
  intro i hi
  rw [maj]
  simp only [UInt32.toBitVec_or, UInt32.toBitVec_and, UInt32.toBitVec_xor, BitVec.getLsbD_or, BitVec.getLsbD_and,
    BitVec.getLsbD_xor]
  cases x.toBitVec.getLsbD i <;> cases y.toBitVec.getLsbD i <;> simp

lemma wsSha1Round_eq (w : List UInt32) (s : Sha1State) (i : ℕ) :
    wsSha1Round w s i = sha1Step (fun t => w.getD t 0) s i := by
  obtain ⟨a, b, c, d, e⟩ := s
  have hfive : rol a 5 = Md5.rotateLeft a 5 := rol_eq a (by decide) (by decide)
  have hthirty : rol b 30 = Md5.rotateLeft b 30 := rol_eq b (by decide) (by decide)
  rw [wsSha1Round, sha1Step, sha1Function, sha1Constant]
  split_ifs
  · rw [or_eq_ch, hfive, hthirty]
  · rw [hfive, hthirty, parity]
  · rw [or_eq_maj, hfive, hthirty]
  · rw [hfive, hthirty, parity]

lemma sha1Word_next {m : List UInt32} {t : ℕ} (h : 16 ≤ t) :
    sha1Word m t = Md5.rotateLeft
      (sha1Word m (t - 3) ^^^ sha1Word m (t - 8) ^^^ sha1Word m (t - 14) ^^^ sha1Word m (t - 16)) 1 := by
  rw [sha1Word, if_neg (by omega)]

/-- The array is filled with the words of the schedule. -/
lemma wsSha1Words_eq {data : Bytes} (h : 64 ≤ data.length) {t : ℕ} (ht : t < 80) :
    (wsSha1Words data).getD t 0 = sha1Word (wordsOf (data.take 64)) t := by
  have hblock : (data.take 64).length = 64 := by rw [List.length_take, min_eq_left h]
  have hfirst : ∀ i < 16, loadBe32 (data.drop (i * 4)) = sha1Word (wordsOf (data.take 64)) i := by
    intro i hi
    rw [sha1Word, if_pos hi, wordsOf_getD hblock hi, loadBe32_eq (by rw [List.length_drop]; omega),
      loadBe32_eq (by rw [List.length_drop, hblock]; omega), List.drop_take, List.take_take, min_eq_left (by omega),
      Nat.mul_comm]
  have hloop : ∀ n, ((List.range' 16 n).foldl
      (fun w i => w ++ [rol (w.getD (i - 3) 0 ^^^ w.getD (i - 8) 0 ^^^ w.getD (i - 14) 0 ^^^ w.getD (i - 16) 0) 1])
      ((List.range 16).map fun i => loadBe32 (data.drop (i * 4)))) =
        (List.range (16 + n)).map (sha1Word (wordsOf (data.take 64))) := by
    intro n
    induction n with
    | zero => exact List.map_congr_left fun i hi => hfirst i (List.mem_range.mp hi)
    | succ n ih =>
      have hword : ∀ k < 16 + n, ((List.range (16 + n)).map (sha1Word (wordsOf (data.take 64)))).getD k 0 =
          sha1Word (wordsOf (data.take 64)) k := by
        intro k hk
        rw [List.getD_eq_getElem?_getD, List.getElem?_map, List.getElem?_range hk]
        rfl
      rw [List.range'_1_concat, List.foldl_append, ih, List.foldl_cons, List.foldl_nil, hword _ (by omega),
        hword _ (by omega), hword _ (by omega), hword _ (by omega), rol_eq _ (by decide) (by decide),
        ← sha1Word_next (by omega), ← Nat.add_assoc, List.range_succ, List.map_append, List.map_singleton]
  rw [wsSha1Words, hloop, List.getD_eq_getElem?_getD, List.getElem?_map, List.getElem?_range ht]
  rfl

lemma wsSha1Transform_eq (s : Sha1State) {data : Bytes} (h : 64 ≤ data.length) :
    wsSha1Transform s data = sha1Compress s (data.take 64) := by
  have hstep : ∀ s, ∀ i ∈ List.range 80, wsSha1Round (wsSha1Words data) s i =
      sha1Step (sha1Word (wordsOf (data.take 64))) s i := by
    intro s i hi
    rw [wsSha1Round_eq, sha1Step, sha1Step, wsSha1Words_eq h (List.mem_range.mp hi)]
  rw [wsSha1Transform, sha1Compress, List.foldl_ext _ _ s fun s i hi => hstep s i hi, UInt32.add_comm s.a,
    UInt32.add_comm s.b, UInt32.add_comm s.c, UInt32.add_comm s.d, UInt32.add_comm s.e]

end Transform

section Stream

variable {ctx : WsSha1Ctx} {message : Bytes}

/-- The context of a message: what is left behind its whole blocks stands at the front of the buffer. -/
structure WsSha1Ctx.Holds (ctx : WsSha1Ctx) (message : Bytes) : Prop where
  folded : Folded sha1Compress sha1Start 64 message ctx.state (ctx.buffer.take (message.length % 64))
  sized : ctx.buffer.length = 64
  count : ctx.count = UInt64.ofNat (8 * message.length)

lemma wsSha1Init_holds (stack : Vector UInt8 64) : (wsSha1Init stack).Holds [] where
  folded := folded_nil _ _ (by decide)
  sized := by simp [wsSha1Init]
  count := rfl

lemma wsSha1Index_eq (h : ctx.count = UInt64.ofNat (8 * message.length)) : wsSha1Index ctx = message.length % 64 := by
  have hmask : (63 : UInt64).toNat = 2 ^ 6 - 1 := rfl
  have hshift : (ctx.count >>> 3).toNat = ctx.count.toNat / 2 ^ 3 := by
    rw [UInt64.toNat_shiftRight, Nat.shiftRight_eq_div_pow]
    rfl
  rw [wsSha1Index, UInt64.toNat_and, hshift, hmask, Nat.and_two_pow_sub_one_eq_mod, h, UInt64.toNat_ofNat']
  omega

lemma wsSha1Blocks_eq {fuel : ℕ} {state : Sha1State} {data : Bytes} (hfuel : data.length ≤ fuel) :
    wsSha1Blocks fuel state data = ((blocks 64 data).foldl sha1Compress state, rest 64 data) := by
  induction fuel generalizing state data with
  | zero =>
    rw [List.length_eq_zero_iff.mp (Nat.le_zero.mp hfuel), wsSha1Blocks, blocks_of_lt (by decide),
      rest_of_lt (by decide), List.foldl_nil]
  | succ fuel ih =>
    rw [wsSha1Blocks]
    by_cases hmore : 63 < data.length
    · rw [if_pos hmore, ih (by rw [List.length_drop]; omega), wsSha1Transform_eq state hmore,
        blocks_of_le (by decide) hmore, rest_of_le (by decide) hmore, List.foldl_cons]
    · have hlt : data.length < 64 := by omega
      rw [if_neg hmore, blocks_of_lt hlt, rest_of_lt hlt, List.foldl_nil]

/-- What comes next is taken in behind what was there. -/
lemma WsSha1Ctx.Holds.update (h : ctx.Holds message) (data : Bytes) :
    (wsSha1Update ctx data).Holds (message ++ data) := by
  have hindex := wsSha1Index_eq h.count
  have hmod : message.length % 64 < 64 := Nat.mod_lt _ (by decide)
  have hleft : (ctx.buffer.take (message.length % 64)).length = message.length % 64 := by
    rw [List.length_take, h.sized]
    exact min_eq_left hmod.le
  have hcount : ctx.count + UInt64.ofNat data.length * 8 = UInt64.ofNat (8 * (message ++ data).length) := by
    have hmore : UInt64.ofNat (8 * data.length) = UInt64.ofNat data.length * 8 := by
      rw [UInt64.ofNat_mul, UInt64.mul_comm]
      rfl
    rw [h.count, List.length_append, Nat.mul_add, UInt64.ofNat_add, hmore]
  rw [wsSha1Update, hindex]
  by_cases hmany : 63 < message.length % 64 + data.length
  · -- the buffer is filled up to a block, and the whole blocks of the data follow
    have hpart : (data.take (64 - message.length % 64)).length = 64 - message.length % 64 := by
      rw [List.length_take]
      exact min_eq_left (by omega)
    have hfilled : memcpyAt ctx.buffer (message.length % 64) (data.take (64 - message.length % 64)) =
        ctx.buffer.take (message.length % 64) ++ data.take (64 - message.length % 64) := by
      rw [memcpyAt, hpart, List.drop_of_length_le (by rw [h.sized]; omega), List.append_nil]
    have hsized : (ctx.buffer.take (message.length % 64) ++ data.take (64 - message.length % 64)).length = 64 := by
      rw [List.length_append, hleft, hpart]
      omega
    have hfull := h.folded.full (by decide) (data.take (64 - message.length % 64)) (by rw [hleft, hpart]; omega)
    have hall := hfull.append (by decide) (data.drop (64 - message.length % 64))
    rw [List.append_assoc, List.take_append_drop, List.nil_append] at hall
    have hrest := hall.length_left
    rw [if_pos hmany]
    dsimp only
    rw [hfilled, wsSha1Transform_eq _ hsized.ge, List.take_of_length_le hsized.le,
      wsSha1Blocks_eq (by rw [List.length_drop]; omega)]
    refine ⟨?_, ?_, hcount⟩
    · dsimp only
      rwa [memcpyAt, List.take_zero, List.nil_append, ← hrest, List.take_left]
    · dsimp only
      rw [length_memcpyAt (by rw [hrest, hsized]; omega), hsized]
  · have hshort := h.folded.short (by decide) data (by rw [hleft]; omega)
    have hlen : (message ++ data).length % 64 = message.length % 64 + data.length := by
      rw [List.length_append]
      omega
    rw [if_neg hmany]
    refine ⟨?_, ?_, hcount⟩
    · dsimp only
      rwa [memcpyAt, hlen, List.take_left' (by rw [List.length_append, hleft])]
    · dsimp only
      rw [length_memcpyAt (by rw [h.sized]; omega), h.sized]

lemma toUInt8_eq (w : UInt32) {k : ℕ} (hk : k < 32) : (w >>> UInt32.ofNat k).toUInt8 = byteAt w.toNat k := by
  apply UInt8.toNat_inj.mp
  rw [byteAt_toNat, UInt32.toNat_toUInt8, UInt32.toNat_shiftRight, UInt32.toNat_ofNat',
    Nat.mod_eq_of_lt (by omega : k < 2 ^ 32), Nat.mod_eq_of_lt hk, Nat.shiftRight_eq_div_pow]

/-- The Md5.padding and the length close the last block. -/
lemma wsSha1Final_eq (h : ctx.Holds message) : wsSha1Final ctx = sha1 message := by
  have hmod : message.length % 64 < 64 := Nat.mod_lt _ (by decide)
  have hbits : ([0, 1, 2, 3, 4, 5, 6, 7].map fun i => (ctx.count >>> UInt64.ofNat (56 - i * 8)).toUInt8) =
      beBytes 8 (8 * message.length) := by
    rw [h.count]
    exact List.map_congr_left fun i _ => toUInt8_shiftRight _ (by omega)
  have hwords : ∀ s : Sha1State, ([s.a, s.b, s.c, s.d, s.e].flatMap fun v : UInt32 =>
      [(v >>> 24).toUInt8, (v >>> 16).toUInt8, (v >>> 8).toUInt8, v.toUInt8]) = s.bytes := by
    intro s
    apply List.flatMap_congr
    intro v _
    have hzero := toUInt8_eq v (k := 0) (by decide)
    rw [show v >>> UInt32.ofNat 0 = v from by simp] at hzero
    have h8 : (v >>> 8).toUInt8 = byteAt v.toNat 8 := toUInt8_eq v (by decide)
    have h16 : (v >>> 16).toUInt8 = byteAt v.toNat 16 := toUInt8_eq v (by decide)
    have h24 : (v >>> 24).toUInt8 = byteAt v.toNat 24 := toUInt8_eq v (by decide)
    rw [hzero, h8, h16, h24]
    rfl
  have hleft : (ctx.buffer.take (message.length % 64)).length = message.length % 64 := by
    rw [List.length_take, h.sized]
    exact min_eq_left hmod.le
  have hlen : (beBytes 8 (8 * message.length)).length = 8 := rfl
  rw [wsSha1Final, wsSha1Index_eq h.count, hbits, hwords, sha1, List.length_append, hleft, List.length_singleton]
  by_cases hover : 56 < message.length % 64 + 1
  · -- the length has no room behind the one bit, and stands alone in a block of zeros
    have hzeros : Md5.padding message.length =
        [0x80] ++ List.replicate (64 - (message.length % 64 + 1)) 0 ++ List.replicate 56 0 := by
      rw [Md5.padding, List.append_assoc, List.replicate_append_replicate, List.singleton_append]
      congr 2
      omega
    have hfirst := h.folded.full (by decide) ([0x80] ++ List.replicate (64 - (message.length % 64 + 1)) 0)
      (by rw [hleft, List.length_append, List.length_singleton, List.length_replicate]; omega)
    have hsecond := hfirst.full (by decide) (List.replicate 56 0 ++ beBytes 8 (8 * message.length))
      (by rw [List.length_append, hlen, List.length_replicate]; rfl)
    have hone : (ctx.buffer.take (message.length % 64) ++ [0x80] ++
        List.replicate (64 - (message.length % 64 + 1)) 0).length = 64 := by
      rw [List.length_append, List.length_append, hleft, List.length_singleton, List.length_replicate]
      omega
    have htwo : ([] ++ List.replicate (56 - 0) 0 ++ beBytes 8 (8 * message.length) : Bytes).length = 64 := by
      rw [List.length_append, hlen, List.nil_append, List.length_replicate]
    have hpadded : padded message = message ++ ([0x80] ++ List.replicate (64 - (message.length % 64 + 1)) 0) ++
        (List.replicate 56 0 ++ beBytes 8 (8 * message.length)) := by
      rw [padded, hzeros]
      simp only [List.append_assoc]
    rw [if_pos hover, List.length_nil, wsSha1Transform_eq _ hone.ge, wsSha1Transform_eq _ htwo.ge,
      List.take_of_length_le hone.le, List.take_of_length_le htwo.le, hpadded, ← hsecond.state, List.nil_append,
      List.nil_append, List.append_assoc (ctx.buffer.take _)]
  · have hzeros : Md5.padding message.length = [0x80] ++ List.replicate (56 - (message.length % 64 + 1)) 0 := by
      rw [Md5.padding, List.singleton_append]
      congr 2
      omega
    have hlast := h.folded.full (by decide) (Md5.padding message.length ++ beBytes 8 (8 * message.length)) (by
      rw [hleft, hzeros, List.length_append, List.length_append, hlen, List.length_singleton, List.length_replicate]
      omega)
    have hone : (ctx.buffer.take (message.length % 64) ++ [0x80] ++
        List.replicate (56 - (message.length % 64 + 1)) 0 ++ beBytes 8 (8 * message.length)).length = 64 := by
      rw [List.length_append, List.length_append, List.length_append, hleft, hlen, List.length_singleton,
        List.length_replicate]
      omega
    rw [if_neg hover, List.length_append, hleft, List.length_singleton, wsSha1Transform_eq _ hone.ge,
      List.take_of_length_le hone.le, padded, List.append_assoc message, ← hlast.state, hzeros]
    simp only [List.append_assoc]

lemma hybbxWsSha1_eq (stack : Vector UInt8 64) (data : Bytes) : hybbxWsSha1 stack data = sha1 data :=
  wsSha1Final_eq ((wsSha1Init_holds stack).update data)

end Stream

end HyBBX.Websocket
