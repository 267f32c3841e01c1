import HyBBX.Lib.Crc
import HyBBX.Radio.Ax25

/-! What the checksum of the packets on the air finds. It is that of polynomials only when its two bytes are read the
other way round from how a frame holds them, so the border between the two is where it misses what a burst does. -/

namespace HyBBX.Radio

open HyBBX.Core Lib Lib.Bytes Lib.Crc Polynomial

def fcsGenerator : BitVec 16 := 0x1021#16

lemma fcsGenerator_eq : generator fcsGenerator = X ^ 16 + X ^ 12 + X ^ 5 + 1 := by
  have hbits : regBits fcsGenerator =
      [false, false, false, true, false, false, false, false,
        false, false, true, false, false, false, false, true] := by
    decide
  rw [generator, hbits]
  simp only [ofBits, List.length_cons, List.length_nil, if_true, Bool.false_eq_true, if_false]
  ring

lemma fcsGenerator_coeff : (generator fcsGenerator).coeff 0 ≠ 0 := by
  rw [fcsGenerator_eq]
  simp

section Bits

lemma ax25CrcBit_eq (r : UInt16) : (ax25CrcBit r).toBitVec = shiftIn fcsGenerator r.toBitVec false := by
  have hshift : (r <<< 1).toBitVec = r.toBitVec.shiftConcat false := by
    rw [← shiftConcat_eq, if_neg Bool.false_ne_true]
    exact (BitVec.add_zero _).symm
  rw [ax25CrcBit, shiftIn, if_congr (msb_iff r) rfl rfl, ← hshift]
  split_ifs <;> rfl

lemma ax25CrcBits_eq (n : ℕ) (r : UInt16) :
    (ax25CrcBit^[n] r).toBitVec = (List.replicate n false).foldl (shiftIn fcsGenerator) r.toBitVec := by
  induction n generalizing r with
  | zero => rfl
  | succ n ih => rw [Function.iterate_succ_apply, ih, ax25CrcBit_eq, List.replicate_succ, List.foldl_cons]

lemma regBits_high (b : UInt8) :
    regBits (b.toUInt16 <<< 8).toBitVec = regBits b.toBitVec ++ List.replicate 8 false := by
  revert b
  exact forall_byte (by decide +kernel)

lemma residue_crcByte (r : UInt16) (b : UInt8) : residue fcsGenerator (ofBits (regBits (ax25CrcByte r b).toBitVec)) =
    residue fcsGenerator X ^ 8 * residue fcsGenerator (ofBits (regBits r.toBitVec)) +
      residue fcsGenerator (X ^ 16 * ofBits (regBits b.toBitVec)) := by
  have hxor : ofBits (regBits (r ^^^ (b.toUInt16 <<< 8)).toBitVec) =
      ofBits (regBits r.toBitVec) + ofBits (regBits b.toBitVec) * X ^ 8 := by
    have hbits : (r ^^^ (b.toUInt16 <<< 8)).toBitVec = r.toBitVec ^^^ (b.toUInt16 <<< 8).toBitVec := rfl
    rw [hbits, regBits_xor, ofBits_flips (by simp), regBits_high, ofBits_append, ofBits_replicate, add_zero,
      List.length_replicate]
  rw [ax25CrcByte, ax25CrcBits_eq, residue_run, hxor, ofBits_replicate, map_zero, add_zero, List.length_replicate,
    map_add, map_mul, map_mul, map_pow, map_pow]
  ring

/-- The register after some bytes: what it began with, shifted, and the bytes in front of sixteen zero bits. -/
lemma residue_ax25Crc (data : Bytes) : residue fcsGenerator (ofBits (regBits (ax25Crc data).toBitVec)) =
    residue fcsGenerator X ^ (8 * data.length) * residue fcsGenerator (ofBits (regBits 0xFFFF#16)) +
      residue fcsGenerator (X ^ 16 * ofBits (bitsOf data)) := by
  have hrun : ∀ r : UInt16, residue fcsGenerator (ofBits (regBits (data.foldl ax25CrcByte r).toBitVec)) =
      residue fcsGenerator X ^ (8 * data.length) * residue fcsGenerator (ofBits (regBits r.toBitVec)) +
        residue fcsGenerator (X ^ 16 * ofBits (bitsOf data)) := by
    induction data with
    | nil =>
      intro r
      have hnone : ofBits (bitsOf []) = 0 := rfl
      rw [List.foldl_nil, List.length_nil, mul_zero, pow_zero, one_mul, hnone, mul_zero, map_zero, add_zero]
    | cons b data ih =>
      intro r
      have hbits : ofBits (bitsOf (b :: data)) = ofBits (regBits b.toBitVec) * X ^ (8 * data.length) +
          ofBits (bitsOf data) := by
        have hcons : bitsOf (b :: data) = regBits b.toBitVec ++ bitsOf data := List.flatMap_cons
        rw [hcons, ofBits_append, length_bitsOf]
      rw [List.foldl_cons, ih, residue_crcByte, hbits, List.length_cons, mul_add 8, mul_one, pow_add]
      simp only [map_add, map_mul, map_pow]
      ring
  exact hrun 0xFFFF

end Bits

section Frames

variable {frame frame' : Bytes}

/-- The flipped bits in the order of the polynomial: those of the body, and those of the sum, its high byte first. -/
def bodyFlips (frame frame' : Bytes) : List Bool :=
  flipped (frame.take (frame.length - 2)) (frame'.take (frame'.length - 2))

def fcsFlips (frame frame' : Bytes) : List Bool :=
  flips (regBits (frameFcs frame).toBitVec) (regBits (frameFcs frame').toBitVec)

/-- A frame in the place of a valid one is valid when the generator divides what was flipped. -/
lemma fcsOk_iff_dvd (hok : FcsOk frame) (hlen : frame'.length = frame.length) :
    FcsOk frame' ↔ generator fcsGenerator ∣ ofBits (bodyFlips frame frame' ++ fcsFlips frame frame') := by
  have hbits : (bitsOf (frame.take (frame.length - 2))).length = (bitsOf (frame'.take (frame'.length - 2))).length := by
    rw [length_bitsOf, length_bitsOf, List.length_take, List.length_take, hlen]
  have hbytes : (frame'.take (frame'.length - 2)).length = (frame.take (frame.length - 2)).length := by
    rw [List.length_take, List.length_take, hlen]
  have hrun := residue_ax25Crc (frame.take (frame.length - 2))
  have hrun' := residue_ax25Crc (frame'.take (frame'.length - 2))
  rw [FcsOk] at hok
  rw [← hok] at hrun
  rw [hbytes] at hrun'
  have hsixteen : (fcsFlips frame frame').length = 16 := by simp [fcsFlips, flips]
  rw [FcsOk, ← UInt16.toBitVec_inj, accepted_iff fcsGenerator hbits hrun hrun', ofBits_append, hsixteen, mul_comm]
  rfl

lemma ax25ParseUi_eq_none (h : ¬FcsOk frame) (payloadCap : ℕ) : ax25ParseUi frame payloadCap = none := by
  rw [ax25ParseUi]
  split_ifs
  · rfl
  · cases hparse : parseAddresses 0 .zero frame with
    | none => rfl
    | some found =>
      dsimp only
      split_ifs
      · rfl
      · rfl
      · rfl

lemma eq_append_two (h : 2 ≤ frame.length) : ∃ body lo hi, frame = body ++ [lo, hi] := by
  have htwo : (frame.drop (frame.length - 2)).length = 2 := by
    rw [List.length_drop]
    omega
  obtain ⟨lo, hi, heq⟩ := List.length_eq_two.mp htwo
  exact ⟨frame.take (frame.length - 2), lo, hi, by rw [← heq, List.take_append_drop]⟩

section Split

variable (body body' : Bytes) (lo hi lo' hi' : UInt8)

lemma take_append_two : (body ++ [lo, hi]).take ((body ++ [lo, hi]).length - 2) = body := by
  have htwo : (body ++ [lo, hi]).length - 2 = body.length := by simp
  rw [htwo, List.take_left]

lemma regBits_frameFcs :
    regBits (frameFcs (body ++ [lo, hi])).toBitVec = regBits hi.toBitVec ++ regBits lo.toBitVec := by
  have hlen : (body ++ [lo, hi]).length = body.length + 2 := by simp
  have hlo : (body ++ [lo, hi]).getD body.length 0 = lo := by simp
  have hhi : (body ++ [lo, hi]).getD (body.length + 1) 0 = hi := by simp
  have hreg : (readBe16 hi lo).toBitVec = hi.toBitVec ++ lo.toBitVec := by
    apply BitVec.eq_of_toNat_eq
    have hhiLt := hi.toNat_lt
    have hloLt := lo.toNat_lt
    rw [BitVec.toNat_append, UInt8.toNat_toBitVec, UInt8.toNat_toBitVec,
      ← Nat.shiftLeft_add_eq_or_of_lt hloLt, Nat.shiftLeft_eq, UInt16.toNat_toBitVec, readBe16, UInt16.toNat_ofNat',
      Nat.mod_eq_of_lt (by omega)]
  rw [frameFcs, hlen, show body.length + 2 - 1 = body.length + 1 by omega, Nat.add_sub_cancel, hlo, hhi, hreg,
    regBits_append]

lemma fcsFlips_append : fcsFlips (body ++ [lo, hi]) (body' ++ [lo', hi']) =
    flips (regBits hi.toBitVec) (regBits hi'.toBitVec) ++ flips (regBits lo.toBitVec) (regBits lo'.toBitVec) := by
  rw [fcsFlips, regBits_frameFcs, regBits_frameFcs, flips_append (by simp)]

lemma bodyFlips_append : bodyFlips (body ++ [lo, hi]) (body' ++ [lo', hi']) = flipped body body' := by
  rw [bodyFlips, take_append_two, take_append_two]

lemma flipped_append_two (h : body'.length = body.length) : flipped (body ++ [lo, hi]) (body' ++ [lo', hi']) =
    flipped body body' ++
      (flips (regBits lo.toBitVec) (regBits lo'.toBitVec) ++ flips (regBits hi.toBitVec) (regBits hi'.toBitVec)) := by
  have hpair (lo hi : UInt8) : bitsOf [lo, hi] = regBits lo.toBitVec ++ regBits hi.toBitVec := by
    rw [bitsOf, List.flatMap_cons, List.flatMap_singleton]
  rw [flipped, bitsOf_append, bitsOf_append, flips_append (by rw [length_bitsOf, length_bitsOf, h]), hpair, hpair,
    flips_append (by simp), flipped]

end Split

lemma count_rowFlips (htwo : 2 ≤ frame.length) (hlen : frame'.length = frame.length) :
    (bodyFlips frame frame' ++ fcsFlips frame frame').count true = (flipped frame frame').count true := by
  obtain ⟨body, lo, hi, rfl⟩ := eq_append_two htwo
  obtain ⟨body', lo', hi', rfl⟩ := eq_append_two (htwo.trans_eq hlen.symm)
  rw [bodyFlips_append, fcsFlips_append, flipped_append_two _ _ _ _ _ _ (by simpa using hlen)]
  simp only [List.count_append]
  omega

lemma length_rowFlips (htwo : 2 ≤ frame.length) (hlen : frame'.length = frame.length) :
    (bodyFlips frame frame' ++ fcsFlips frame frame').length = 8 * frame.length := by
  rw [bodyFlips, fcsFlips, flipped, flips, flips]
  simp only [List.length_append, List.length_zipWith, length_bitsOf, length_regBits, List.length_take, hlen]
  omega

lemma aperiodic_fcs : ∀ d < 32767, 0 < d → (shiftIn fcsGenerator · false)^[d] 1#16 ≠ 1#16 := by
  have hfirst : aperiodic 15 fcsGenerator.toNat 32766 (shiftIn fcsGenerator 1#16 false).toNat = true := by
    decide +kernel
  intro d hlt hpos
  obtain ⟨e, rfl⟩ := Nat.exists_eq_add_of_lt hpos
  rw [zero_add, Function.iterate_succ_apply]
  exact iterate_ne_one hfirst e (by omega)

lemma not_fcsOk_of_odd (hok : FcsOk frame) (htwo : 2 ≤ frame.length) (hlen : frame'.length = frame.length)
    (hodd : Odd ((flipped frame frame').count true)) : ¬FcsOk frame' := by
  rw [fcsOk_iff_dvd hok hlen]
  apply odd_not_dvd
  · rw [fcsGenerator_eq]
    simp only [eval_add, eval_pow, eval_X, one_pow, eval_one]
    decide
  · rw [eval_ofBits, count_rowFlips htwo hlen, (ZMod.natCast_eq_one_iff_odd).mpr hodd]
    exact one_ne_zero

lemma not_fcsOk_of_two (hok : FcsOk frame) (htwo : 2 ≤ frame.length) (hlen : frame'.length = frame.length)
    (hcount : (flipped frame frame').count true = 2) (hmax : 8 * frame.length ≤ 32767) : ¬FcsOk frame' := by
  rw [← count_rowFlips htwo hlen] at hcount
  obtain ⟨i, d, hd, hlt, heq⟩ := ofBits_of_count_two hcount
  rw [length_rowFlips htwo hlen] at hlt
  rw [fcsOk_iff_dvd hok hlen, heq]
  exact two_not_dvd fcsGenerator_coeff aperiodic_fcs hd (by omega)

/-- A burst in front of an untouched sum. -/
lemma not_fcsOk_of_burst (hok : FcsOk frame) (htwo : 2 ≤ frame.length) (hlen : frame'.length = frame.length)
    (hburst : Burst 16 (bodyFlips frame frame')) (hfcs : frame'.drop (frame.length - 2) = frame.drop (frame.length - 2))
    (hne : frame' ≠ frame) : ¬FcsOk frame' := by
  rw [fcsOk_iff_dvd hok hlen]
  intro h
  obtain ⟨body, lo, hi, rfl⟩ := eq_append_two htwo
  obtain ⟨body', lo', hi', rfl⟩ := eq_append_two (htwo.trans_eq hlen.symm)
  have hbody : body'.length = body.length := by simpa using hlen
  have hsame : (body ++ [lo, hi]).length - 2 = body.length := by simp
  rw [hsame, List.drop_left, ← hbody, List.drop_left] at hfcs
  obtain ⟨rfl, hrest⟩ := List.cons.inj hfcs
  obtain rfl := List.head_eq_of_cons_eq hrest
  obtain ⟨i, j, bs, hflips, hsixteen⟩ := hburst
  rw [bodyFlips_append] at h hflips
  rw [fcsFlips_append, flips_self, flips_self, List.replicate_append_replicate, hflips, List.append_assoc,
    List.replicate_append_replicate, ofBits_append, ofBits_append, ofBits_replicate, ofBits_replicate, zero_mul,
    zero_add, add_zero, List.length_replicate, mul_comm] at h
  have hzero := burst_zero fcsGenerator_coeff ((degree_generator fcsGenerator).symm ▸ by exact_mod_cast hsixteen) h
  rw [hzero, List.replicate_append_replicate, List.replicate_append_replicate] at hflips
  have hbits : (bitsOf body).length = (bitsOf body').length := by rw [length_bitsOf, length_bitsOf, hbody]
  exact hne (by rw [bitsOf_injective (eq_of_flips hbits hflips)])

/-- The generator laid over the border, as a frame holds it. -/
def missed (body : Bytes) (b lo hi : UInt8) : Bytes := body ++ [b ^^^ 0x01] ++ [lo ^^^ 0x21, hi ^^^ 0x10]

section Missed

variable (body : Bytes) (b lo hi : UInt8)

lemma flips_byte (m : UInt8) : flips (regBits b.toBitVec) (regBits (b ^^^ m).toBitVec) = regBits m.toBitVec :=
  flips_xor b.toBitVec m.toBitVec

lemma flipped_last : flipped (body ++ [b]) (body ++ [b ^^^ 0x01]) =
    List.replicate (8 * body.length + 7) false ++ [true] := by
  have hbyte (b : UInt8) : bitsOf [b] = regBits b.toBitVec := by rw [bitsOf, List.flatMap_singleton]
  have hone : regBits (0x01 : UInt8).toBitVec = List.replicate 7 false ++ [true] := by decide
  rw [flipped, bitsOf_append, bitsOf_append, flips_append rfl, flips_self, hbyte, hbyte, flips_byte, hone,
    ← List.append_assoc, List.replicate_append_replicate, length_bitsOf]

lemma burst_missed : Burst 13 (flipped (body ++ [b] ++ [lo, hi]) (missed body b lo hi)) := by
  have hlo : regBits (0x21 : UInt8).toBitVec = [false, false, true, false, false, false, false, true] := by decide
  have hhi : regBits (0x10 : UInt8).toBitVec = [false, false, false, true] ++ List.replicate 4 false := by decide
  refine ⟨8 * body.length + 7, 4, [true] ++ [false, false, true, false, false, false, false, true] ++
    [false, false, false, true], ?_, le_rfl⟩
  rw [missed, flipped_append_two _ _ _ _ _ _ (by simp), flipped_last, flips_byte, flips_byte, hlo, hhi]
  simp only [List.append_assoc]

lemma fcsOk_missed (hok : FcsOk (body ++ [b] ++ [lo, hi])) : FcsOk (missed body b lo hi) := by
  have hfcs : regBits (0x10 : UInt8).toBitVec ++ regBits (0x21 : UInt8).toBitVec = regBits fcsGenerator := by decide
  rw [fcsOk_iff_dvd hok (by simp [missed]), missed, bodyFlips_append, fcsFlips_append, flipped_last, flips_byte,
    flips_byte, hfcs, List.append_assoc, ofBits_append, ofBits_replicate, zero_mul, zero_add, List.singleton_append,
    ofBits, if_pos rfl, length_regBits]
  exact dvd_refl _

lemma missed_ne : missed body b lo hi ≠ body ++ [b] ++ [lo, hi] := by
  have hbyte : ∀ b : UInt8, b ^^^ 0x01 ≠ b := forall_byte (by decide +kernel)
  intro h
  rw [missed, List.append_assoc, List.append_assoc] at h
  exact hbyte b (List.cons.inj (List.append_cancel_left h)).1

end Missed

/-- A call to everybody. -/
def cqBody (text : Bytes) : Bytes :=
  ax25EncodeAddress ⟨ofString "CQ", 0, by decide⟩ false ++ ax25EncodeAddress ⟨ofString "DL1ABC", 0, by decide⟩ true ++
    ax25CtrlUi :: ax25PidNol3 :: text

end Frames

end HyBBX.Radio
