import HyBBX.Ardop.Host
import HyBBX.Lib.Crc

/-! What the checksum of the modem's frames finds: a polynomial that the generator has to divide. -/

namespace HyBBX.Ardop

open Lib Lib.Bytes Lib.Crc Polynomial

def crcGenerator : BitVec 16 := 0x8810#16

/-- The part of the generator that is no power of the variable. -/
noncomputable def crcCore : (ZMod 2)[X] := X ^ 12 + X ^ 11 + X ^ 7 + 1

lemma generator_eq : generator crcGenerator = X ^ 16 + X ^ 15 + X ^ 11 + X ^ 4 := by
  have hbits : regBits crcGenerator =
      [true, false, false, false, true, false, false, false,
        false, false, false, true, false, false, false, false] := by
    decide
  rw [generator, hbits]
  simp only [ofBits, List.length_cons, List.length_nil, if_true, Bool.false_eq_true, if_false]
  ring

lemma generator_core : generator crcGenerator = X ^ 4 * crcCore := by
  rw [generator_eq, crcCore]
  ring

lemma crcCore_coeff : crcCore.coeff 0 ≠ 0 := by
  rw [crcCore]
  simp

lemma degree_crcCore : crcCore.degree = 12 := by
  rw [crcCore]
  compute_degree!

section Bits

lemma crcBit_eq (r : UInt16) (b : Bool) : (crcBit r b).toBitVec = shiftIn crcGenerator r.toBitVec b := by
  rw [crcBit, shiftIn]
  rw [if_congr (msb_iff r) rfl rfl, ← shiftConcat_eq]
  split_ifs <;> rfl

lemma foldl_crcBit (bs : List Bool) (r : UInt16) :
    (bs.foldl crcBit r).toBitVec = bs.foldl (shiftIn crcGenerator) r.toBitVec := by
  induction bs generalizing r with
  | nil => rfl
  | cons b bs ih => rw [List.foldl_cons, List.foldl_cons, ih, crcBit_eq]

lemma crcByte_eq (r : UInt16) (b : UInt8) :
    (crcByte r b).toBitVec = (regBits b.toBitVec).foldl (shiftIn crcGenerator) r.toBitVec := by
  have hbits : ∀ b : UInt8, regBits b.toBitVec =
      [0x80, 0x40, 0x20, 0x10, 0x08, 0x04, 0x02, 0x01].map fun mask => decide (b &&& mask ≠ 0) :=
    forall_byte (by decide +kernel)
  rw [crcByte, ← foldl_crcBit, hbits, List.foldl_map]

lemma ardopCrc16_eq (data : Bytes) :
    (ardopCrc16 data).toBitVec = (bitsOf data).foldl (shiftIn crcGenerator) 0xFFFF#16 := by
  have hfold : ∀ r : UInt16,
      (data.foldl crcByte r).toBitVec = (bitsOf data).foldl (shiftIn crcGenerator) r.toBitVec := by
    induction data with
    | nil => exact fun _ => rfl
    | cons b data ih =>
      intro r
      have hbits : bitsOf (b :: data) = regBits b.toBitVec ++ bitsOf data := List.flatMap_cons
      rw [List.foldl_cons, ih, crcByte_eq, hbits, List.foldl_append]
  exact hfold 0xFFFF

/-- Two bytes as a register. -/
def registerOf (sum : Bytes) : BitVec 16 := (sum.getD 0 0).toBitVec ++ (sum.getD 1 0).toBitVec

lemma regBits_registerOf {sum : Bytes} (h : sum.length = 2) : regBits (registerOf sum) = bitsOf sum := by
  obtain ⟨a, b, rfl⟩ := List.length_eq_two.mp h
  rw [registerOf, regBits_append]
  simp [bitsOf]

lemma registerOf_crcBytes (data : Bytes) : registerOf (crcBytes data) = (ardopCrc16 data).toBitVec := by
  apply BitVec.eq_of_getLsbD_eq
  intro i hi
  have hhigh : ((ardopCrc16 data >>> 8).toUInt8).toBitVec = ((ardopCrc16 data).toBitVec >>> 8).setWidth 8 := rfl
  have hlow : ((ardopCrc16 data).toUInt8).toBitVec = (ardopCrc16 data).toBitVec.setWidth 8 := rfl
  rw [registerOf, crcBytes, List.getD_cons_zero, List.getD_cons_succ, List.getD_cons_zero, hhigh, hlow,
    BitVec.getLsbD_append]
  by_cases hlt : i < 8
  · rw [if_pos hlt, BitVec.getLsbD_setWidth, decide_eq_true hlt, Bool.true_and]
  · rw [if_neg hlt, BitVec.getLsbD_setWidth, BitVec.getLsbD_ushiftRight, decide_eq_true (by omega), Bool.true_and,
      Nat.add_sub_cancel' (not_lt.mp hlt)]

lemma eq_crcBytes_iff {sum : Bytes} (h : sum.length = 2) (data : Bytes) :
    sum = crcBytes data ↔ registerOf sum = (ardopCrc16 data).toBitVec := by
  rw [← registerOf_crcBytes]
  constructor
  · rintro rfl
    rfl
  · intro hsame
    have htwo : (crcBytes data).length = 2 := rfl
    apply bitsOf_injective
    rw [← regBits_registerOf h, ← regBits_registerOf htwo, hsame]

end Bits

section Frames

variable {frame frame' : Bytes}

lemma valid_iff (hlen : 3 ≤ frame.length) : ardopCrc16Valid frame = true ↔
    registerOf (frame.drop (frame.length - 2)) = (ardopCrc16 (frame.take (frame.length - 2))).toBitVec := by
  rw [← eq_crcBytes_iff (by rw [List.length_drop]; omega), ardopCrc16Valid, decide_eq_true hlen, Bool.true_and,
    decide_eq_true_eq]

lemma length_of_valid (h : ardopCrc16Valid frame = true) : 3 ≤ frame.length := by
  rw [ardopCrc16Valid, Bool.and_eq_true, decide_eq_true_eq] at h
  exact h.1

/-- The flipped bits of a frame: of its data, and of its sum. -/
def dataFlips (frame frame' : Bytes) : List Bool :=
  flipped (frame.take (frame.length - 2)) (frame'.take (frame'.length - 2))

def sumFlips (frame frame' : Bytes) : List Bool :=
  flipped (frame.drop (frame.length - 2)) (frame'.drop (frame'.length - 2))

lemma flipped_eq (hlen : frame'.length = frame.length) :
    flipped frame frame' = dataFlips frame frame' ++ sumFlips frame frame' := by
  conv_lhs => rw [← List.take_append_drop (frame.length - 2) frame]
  conv_lhs => rw [← List.take_append_drop (frame'.length - 2) frame']
  rw [flipped, bitsOf_append, bitsOf_append, flips_append, dataFlips, sumFlips, flipped, flipped]
  rw [length_bitsOf, length_bitsOf, List.length_take, List.length_take, hlen]

/-- A frame in the place of a valid one is valid when the generator divides what was flipped. -/
lemma valid_iff_dvd (hvalid : ardopCrc16Valid frame = true) (hlen : frame'.length = frame.length) :
    ardopCrc16Valid frame' = true ↔
      generator crcGenerator ∣ ofBits (dataFlips frame frame') + ofBits (sumFlips frame frame') := by
  have hthree := length_of_valid hvalid
  have hsame := (valid_iff hthree).mp hvalid
  have hbits : (bitsOf (frame.take (frame.length - 2))).length = (bitsOf (frame'.take (frame'.length - 2))).length := by
    rw [length_bitsOf, length_bitsOf, List.length_take, List.length_take, hlen]
  have hrun := residue_run crcGenerator 0xFFFF#16 (bitsOf (frame.take (frame.length - 2)))
  have hrun' := residue_run crcGenerator 0xFFFF#16 (bitsOf (frame'.take (frame'.length - 2)))
  rw [← ardopCrc16_eq, ← hsame] at hrun
  rw [← ardopCrc16_eq, ← hbits] at hrun'
  rw [← one_mul (ofBits (bitsOf (frame.take _))), ← pow_zero X] at hrun
  rw [← one_mul (ofBits (bitsOf (frame'.take _))), ← pow_zero X] at hrun'
  rw [valid_iff (by omega), accepted_iff crcGenerator hbits hrun hrun', pow_zero, one_mul,
    regBits_registerOf (by rw [List.length_drop]; omega), regBits_registerOf (by rw [List.length_drop]; omega)]
  rfl

lemma eq_of_no_flips (hlen : frame'.length = frame.length) (hdata : ofBits (dataFlips frame frame') = 0)
    (hsum : ofBits (sumFlips frame frame') = 0) : frame' = frame := by
  have hbits : (bitsOf frame).length = (bitsOf frame').length := by rw [length_bitsOf, length_bitsOf, hlen]
  have hall : flips (bitsOf frame) (bitsOf frame') =
      List.replicate ((dataFlips frame frame').length + (sumFlips frame frame').length) false := by
    have hflipped := flipped_eq hlen
    rw [flipped, ofBits_eq_zero hdata, ofBits_eq_zero hsum, List.replicate_append_replicate] at hflipped
    exact hflipped
  exact (bitsOf_injective (eq_of_flips hbits hall)).symm

lemma length_sumFlips (hthree : 3 ≤ frame.length) (hlen : frame'.length = frame.length) :
    (sumFlips frame frame').length = 16 := by
  rw [sumFlips, flipped, flips, List.length_zipWith, length_bitsOf, length_bitsOf, List.length_drop, List.length_drop]
  omega

/-- The bits of a burst that lie in the sum and those that lie in the data do not meet, whatever its place. -/
lemma no_flips_of_burst (hthree : 3 ≤ frame.length) (hlen : frame'.length = frame.length)
    (hburst : Burst 12 (flipped frame frame'))
    (h : generator crcGenerator ∣ ofBits (dataFlips frame frame') + ofBits (sumFlips frame frame')) :
    ofBits (dataFlips frame frame') = 0 ∧ ofBits (sumFlips frame frame') = 0 := by
  obtain ⟨i, j, bs, hflipped, htwelve⟩ := hburst
  have hsixteen := length_sumFlips hthree hlen
  rw [flipped_eq hlen] at hflipped
  rcases le_or_gt 16 j with hj | hj
  · obtain ⟨hdata, hsum⟩ := burst_before hflipped (hsixteen.trans_le hj)
    have hcore : crcCore ∣ generator crcGenerator := by
      rw [generator_core]
      exact dvd_mul_left _ _
    rw [hsum, add_zero, hdata] at h
    have hzero := burst_zero crcCore_coeff (degree_crcCore ▸ by exact_mod_cast htwelve) (hcore.trans h)
    rw [hdata, hsum, hzero, ofBits_replicate, mul_zero]
    exact ⟨rfl, rfl⟩
  · obtain ⟨first, rest, hdata, hsum, hfirst⟩ := burst_across hflipped (by omega)
    have hdegree : (ofBits (dataFlips frame frame')).degree < j := by
      rw [hdata]
      exact (degree_ofBits first).trans_le (by exact_mod_cast (by omega))
    have hsumDegree := degree_ofBits (sumFlips frame frame')
    rw [hsixteen] at hsumDegree
    have hboth : ofBits (dataFlips frame frame') + ofBits (sumFlips frame frame') = 0 := by
      apply eq_zero_of_dvd_of_degree_lt h
      rw [degree_generator]
      refine (degree_add_le _ _).trans_lt (max_lt (hdegree.trans ?_) hsumDegree)
      exact_mod_cast hj
    have hsame := eq_neg_of_add_eq_zero_left hboth
    rw [neg_eq] at hsame
    have hzero : ofBits (dataFlips frame frame') = 0 := by
      apply eq_zero_of_dvd_of_degree_lt (p := X ^ j)
      · rw [hsame, hsum]
        exact dvd_mul_right _ _
      · rwa [degree_X_pow]
    exact ⟨hzero, hsame ▸ hzero⟩

/-- What the sum of a frame finds: all that the generator does not divide, which is every odd number of flipped bits
and every burst of twelve, wherever it stands. -/
theorem ardop_crc_detects (hvalid : ardopCrc16Valid frame = true) (hlen : frame'.length = frame.length) :
    (ardopCrc16Valid frame' = true ↔
      X ^ 16 + X ^ 15 + X ^ 11 + X ^ 4 ∣ ofBits (dataFlips frame frame') + ofBits (sumFlips frame frame')) ∧
    (Odd ((flipped frame frame').count true) → ardopCrc16Valid frame' = false) ∧
    (Burst 12 (flipped frame frame') → frame' ≠ frame → ardopCrc16Valid frame' = false) := by
  have hdvd := valid_iff_dvd hvalid hlen
  refine ⟨generator_eq ▸ hdvd, fun hodd => ?_, fun hburst hne => ?_⟩
  · rw [Bool.eq_false_iff, ne_eq, hdvd]
    apply odd_not_dvd
    · rw [generator_eq]
      simp only [eval_add, eval_pow, eval_X, one_pow]
      decide
    · rw [flipped_eq hlen, List.count_append] at hodd
      rw [eval_add, eval_ofBits, eval_ofBits, ← Nat.cast_add, (ZMod.natCast_eq_one_iff_odd).mpr hodd]
      exact one_ne_zero
  · rw [Bool.eq_false_iff, ne_eq, hdvd]
    intro h
    obtain ⟨hdata, hsum⟩ := no_flips_of_burst (length_of_valid hvalid) hlen hburst h
    exact hne (eq_of_no_flips hlen hdata hsum)

theorem ardop_crc_detects_rdx :
    ardopCrc16Valid (ofString "RDX\r" ++ crcBytes (ofString "RDY\r")) = false := by
  have hvalid : ardopCrc16Valid (ofString "RDY\r" ++ crcBytes (ofString "RDY\r")) = true := by decide +kernel
  have hlen : (ofString "RDX\r" ++ crcBytes (ofString "RDY\r")).length =
      (ofString "RDY\r" ++ crcBytes (ofString "RDY\r")).length := by decide +kernel
  exact (ardop_crc_detects hvalid hlen).2.1 (by decide +kernel)

end Frames

end HyBBX.Ardop
