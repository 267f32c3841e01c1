import HyBBX.Lib.Bytes
import Mathlib.Algebra.Polynomial.Div
import Mathlib.Algebra.Polynomial.Monic
import Mathlib.Data.Nat.Bitwise
import Mathlib.Data.ZMod.Basic
import Mathlib.RingTheory.AdjoinRoot
import Mathlib.Tactic

/-! Cyclic redundancy checks: a register as a remainder of polynomials over the field of two elements, and the errors
that a remainder tells apart. -/

namespace HyBBX.Lib.Crc

open Polynomial

/-- Bits as the coefficients of a polynomial, the highest power first. -/
noncomputable def ofBits : List Bool → (ZMod 2)[X]
  | [] => 0
  | b :: bs => (if b then X ^ bs.length else 0) + ofBits bs

/-- The places in which two rows of bits differ. -/
def flips (as bs : List Bool) : List Bool := List.zipWith xor as bs

/-- The flipped bits lie within so many places. -/
def Burst (k : ℕ) (es : List Bool) : Prop :=
  ∃ i j bs, es = List.replicate i false ++ bs ++ List.replicate j false ∧ bs.length ≤ k

lemma ofBits_append (as bs : List Bool) : ofBits (as ++ bs) = ofBits as * X ^ bs.length + ofBits bs := by
  induction as with
  | nil => rw [List.nil_append, ofBits, zero_mul, zero_add]
  | cons a as ih =>
    rw [List.cons_append, ofBits, ih, ofBits, List.length_append, add_mul, ← add_assoc, ite_mul, zero_mul,
      ← pow_add]

lemma ofBits_replicate (n : ℕ) : ofBits (List.replicate n false) = 0 := by
  induction n with
  | zero => rfl
  | succ n ih => rw [List.replicate_succ, ofBits, ih, if_neg Bool.false_ne_true, zero_add]

lemma degree_ofBits (bs : List Bool) : (ofBits bs).degree < bs.length := by
  induction bs with
  | nil =>
    rw [ofBits, degree_zero]
    exact WithBot.bot_lt_coe _
  | cons b bs ih =>
    rw [ofBits, List.length_cons]
    refine lt_of_le_of_lt (degree_add_le _ _) (max_lt ?_ (ih.trans ?_))
    · split_ifs
      · rw [degree_X_pow]
        exact_mod_cast Nat.lt_succ_self _
      · rw [degree_zero]
        exact WithBot.bot_lt_coe _
    · exact_mod_cast Nat.lt_succ_self _

lemma two_eq_zero : (2 : (ZMod 2)[X]) = 0 := by
  have h : ((2 : ZMod 2) : ZMod 2) = 0 := rfl
  rw [← C_ofNat, h, C_0]

lemma add_self_zero (p : (ZMod 2)[X]) : p + p = 0 := by
  rw [← two_mul, two_eq_zero, zero_mul]

lemma neg_eq (p : (ZMod 2)[X]) : -p = p := neg_eq_of_add_eq_zero_left (add_self_zero p)

lemma ofBits_flips {as bs : List Bool} (h : as.length = bs.length) :
    ofBits (flips as bs) = ofBits as + ofBits bs := by
  induction as generalizing bs with
  | nil =>
    rw [List.length_eq_zero_iff.mp h.symm]
    exact (add_zero 0).symm
  | cons a as ih =>
    cases bs with
    | nil => exact absurd h (Nat.succ_ne_zero _)
    | cons b bs =>
      have hlen : as.length = bs.length := Nat.succ.inj h
      have hflips : (flips as bs).length = bs.length := by rw [flips, List.length_zipWith, hlen, min_self]
      rw [flips, List.zipWith_cons_cons, ofBits, ← flips, ih hlen, hflips, ofBits, ofBits, hlen]
      cases a <;> cases b
      · simp
      · simp only [Bool.false_xor, if_true, Bool.false_eq_true, if_false]
        ring
      · simp only [Bool.true_xor, Bool.not_false, if_true, Bool.false_eq_true, if_false]
        ring
      · have hzero := add_self_zero (X ^ bs.length)
        simp only [Bool.xor_self, Bool.false_eq_true, if_false, if_true]
        linear_combination -hzero

lemma ofBits_eq_zero {bs : List Bool} (h : ofBits bs = 0) : bs = List.replicate bs.length false := by
  induction bs with
  | nil => rfl
  | cons b bs ih =>
    cases b with
    | false =>
      rw [ofBits, if_neg Bool.false_ne_true, zero_add] at h
      rw [List.length_cons, List.replicate_succ, ← ih h]
    | true =>
      rw [ofBits, if_pos rfl] at h
      have hdeg := degree_add_eq_left_of_degree_lt (p := X ^ bs.length) (q := ofBits bs) (by
        rw [degree_X_pow]
        exact degree_ofBits bs)
      rw [h, degree_zero, degree_X_pow] at hdeg
      exact absurd hdeg.symm (WithBot.coe_ne_bot)

/-- A polynomial takes the number of its terms at one. -/
lemma eval_ofBits (bs : List Bool) : (ofBits bs).eval 1 = (bs.count true : ZMod 2) := by
  induction bs with
  | nil => simp [ofBits]
  | cons b bs ih =>
    rw [ofBits, eval_add, ih]
    cases b
    · simp
    · simp [add_comm]

section Register

variable {w : ℕ}

/-- The bits of a register, the high-order one first. -/
def regBits (r : BitVec w) : List Bool := (List.range w).map fun i => r.getLsbD (w - 1 - i)

/-- The generator, of which the register holds all terms but the first. -/
noncomputable def generator (g : BitVec w) : (ZMod 2)[X] := X ^ w + ofBits (regBits g)

/-- A bit is shifted in, and the generator is taken off when a one is shifted out. -/
def shiftIn (g r : BitVec w) (b : Bool) : BitVec w := if r.msb then r.shiftConcat b ^^^ g else r.shiftConcat b

@[simp] lemma length_regBits (r : BitVec w) : (regBits r).length = w := by
  rw [regBits, List.length_map, List.length_range]

lemma regBits_injective {r s : BitVec w} (h : regBits r = regBits s) : r = s := by
  apply BitVec.eq_of_getLsbD_eq
  intro i hi
  have hat := congrArg (fun l => l[w - 1 - i]?) h
  beta_reduce at hat
  rw [regBits, regBits, List.getElem?_map, List.getElem?_map, List.getElem?_range (by omega), Option.map_some,
    Option.map_some, Option.some_inj, show w - 1 - (w - 1 - i) = i by omega] at hat
  exact hat

lemma regBits_xor (r s : BitVec w) : regBits (r ^^^ s) = flips (regBits r) (regBits s) := by
  rw [flips, regBits, regBits, regBits, List.zipWith_map, List.zipWith_self]
  exact List.map_congr_left fun i _ => BitVec.getLsbD_xor

lemma regBits_head (r : BitVec (w + 1)) : regBits r = r.msb :: (regBits r).tail := by
  rw [regBits, List.range_succ_eq_map, List.map_cons, List.tail_cons, BitVec.msb_eq_getLsbD_last]
  rfl

lemma regBits_shiftConcat (r : BitVec (w + 1)) (b : Bool) : regBits (r.shiftConcat b) = (regBits r).tail ++ [b] := by
  have htail : (regBits r).tail = (List.range w).map fun i => r.getLsbD (w - (i + 1)) := by
    rw [regBits, List.range_succ_eq_map, List.map_cons, List.tail_cons, List.map_map]
    rfl
  rw [htail, regBits, List.range_succ, List.map_append, List.map_singleton]
  congr 1
  · apply List.map_congr_left
    intro i hi
    have hlt := List.mem_range.mp hi
    rw [BitVec.getLsbD_shiftConcat, Nat.add_sub_cancel, if_neg (by omega), decide_eq_true (by omega), Bool.true_and,
      Nat.sub_sub]
  · rw [BitVec.getLsbD_shiftConcat]
    simp

lemma ofBits_shiftIn (g r : BitVec (w + 1)) (b : Bool) : ofBits (regBits (shiftIn g r b)) =
    X * ofBits (regBits r) + (if b then 1 else 0) + if r.msb then generator g else 0 := by
  have hshift : ofBits (regBits (r.shiftConcat b)) =
      X * ofBits (regBits r).tail + if b then 1 else 0 := by
    rw [regBits_shiftConcat, ofBits_append, List.length_singleton, pow_one, mul_comm, ofBits, ofBits, add_zero,
      List.length_nil, pow_zero]
  have htail : ofBits (regBits r) = (if r.msb then X ^ w else 0) + ofBits (regBits r).tail := by
    conv_lhs => rw [regBits_head]
    rw [ofBits, List.length_tail, length_regBits, Nat.add_sub_cancel]
  have htwice := add_self_zero (X ^ (w + 1))
  rw [shiftIn, htail]
  cases r.msb
  · rw [if_neg Bool.false_ne_true, if_neg Bool.false_ne_true, if_neg Bool.false_ne_true, hshift]
    ring
  · rw [if_pos rfl, if_pos rfl, if_pos rfl, regBits_xor, ofBits_flips (by simp), hshift, generator]
    linear_combination -htwice

lemma degree_generator (g : BitVec w) : (generator g).degree = w := by
  have hdeg := degree_ofBits (regBits g)
  rw [length_regBits] at hdeg
  rw [generator, degree_add_eq_left_of_degree_lt (by rwa [degree_X_pow]), degree_X_pow]

/-- A register is the remainder of its own bits: no two are alike. -/
lemma eq_of_dvd {g r s : BitVec w} (h : generator g ∣ ofBits (regBits r) + ofBits (regBits s)) : r = s := by
  rw [← ofBits_flips (by simp)] at h
  have hlen : (flips (regBits r) (regBits s)).length = w := by simp [flips]
  have hdeg := degree_ofBits (flips (regBits r) (regBits s))
  rw [hlen, ← degree_generator g] at hdeg
  have hzero := ofBits_eq_zero (eq_zero_of_dvd_of_degree_lt h hdeg)
  rw [← regBits_xor, length_regBits] at hzero
  have hxor : r ^^^ s = 0#w := by
    apply regBits_injective
    rw [hzero, regBits, List.map_congr_left (g := fun _ => false) fun i _ => BitVec.getLsbD_zero, List.map_const',
      List.length_range]
  exact BitVec.xor_eq_zero_iff.mp hxor

end Register

section Run

variable {w : ℕ} (g : BitVec (w + 1))

/-- The class of a polynomial modulo the generator. -/
noncomputable abbrev residue : (ZMod 2)[X] →+* AdjoinRoot (generator g) := AdjoinRoot.mk (generator g)

lemma residue_generator : residue g (generator g) = 0 := AdjoinRoot.mk_self

lemma residue_eq_zero {p : (ZMod 2)[X]} : residue g p = 0 ↔ generator g ∣ p := AdjoinRoot.mk_eq_zero

lemma residue_shiftIn (r : BitVec (w + 1)) (b : Bool) : residue g (ofBits (regBits (shiftIn g r b))) =
    residue g X * residue g (ofBits (regBits r)) + residue g (if b then 1 else 0) := by
  have hgen : residue g (if r.msb then generator g else 0) = 0 := by
    split_ifs
    · exact residue_generator g
    · exact map_zero _
  rw [ofBits_shiftIn, map_add, map_add, map_mul, hgen, add_zero]

/-- The register after a run of bits, as a remainder. -/
lemma residue_run (r : BitVec (w + 1)) (bs : List Bool) : residue g (ofBits (regBits (bs.foldl (shiftIn g) r))) =
    residue g X ^ bs.length * residue g (ofBits (regBits r)) + residue g (ofBits bs) := by
  induction bs generalizing r with
  | nil => rw [List.foldl_nil, List.length_nil, pow_zero, one_mul, ofBits, map_zero, add_zero]
  | cons b bs ih =>
    have hbit : residue g (if b then X ^ bs.length else 0) =
        residue g X ^ bs.length * residue g (if b then 1 else 0) := by
      cases b
      · rw [if_neg Bool.false_ne_true, if_neg Bool.false_ne_true, map_zero, mul_zero]
      · rw [if_pos rfl, if_pos rfl, map_one, mul_one, map_pow]
    rw [List.foldl_cons, ih, residue_shiftIn, ofBits, map_add, hbit, List.length_cons, pow_succ]
    ring

/-- Two messages of one length, the remainders of which differ as the messages do: what is taken for the remainder of
the second one is it exactly when the generator divides all that was flipped. -/
lemma accepted_iff {as bs : List Bool} (hlen : as.length = bs.length) {k : ℕ} {z : AdjoinRoot (generator g)}
    {r s t : BitVec (w + 1)} (hr : residue g (ofBits (regBits r)) = z + residue g (X ^ k * ofBits as))
    (hs : residue g (ofBits (regBits s)) = z + residue g (X ^ k * ofBits bs)) :
    t = s ↔ generator g ∣ X ^ k * ofBits (flips as bs) + ofBits (flips (regBits r) (regBits t)) := by
  rw [← residue_eq_zero, ofBits_flips hlen, ofBits_flips (by simp), map_add, map_add, mul_add, map_add, hr]
  have hcancel : residue g (X ^ k * ofBits as) + residue g (X ^ k * ofBits bs) +
      (z + residue g (X ^ k * ofBits as) + residue g (ofBits (regBits t))) =
        residue g (ofBits (regBits s) + ofBits (regBits t)) := by
    have htwice := congrArg (residue g) (add_self_zero (X ^ k * ofBits as))
    rw [map_add, map_zero] at htwice
    rw [map_add, hs]
    linear_combination htwice
  rw [hcancel, residue_eq_zero]
  constructor
  · rintro rfl
    rw [add_self_zero]
    exact dvd_zero _
  · exact fun h => (eq_of_dvd h).symm

end Run

lemma foldl_replicate {w : ℕ} (g : BitVec w) (n : ℕ) (r : BitVec w) :
    (List.replicate n false).foldl (shiftIn g) r = (shiftIn g · false)^[n] r := by
  induction n generalizing r with
  | zero => rfl
  | succ n ih => rw [List.replicate_succ, List.foldl_cons, ih, Function.iterate_succ_apply]

section Errors

variable {p q : (ZMod 2)[X]}

lemma dvd_of_dvd_shift (h0 : q.coeff 0 ≠ 0) {j : ℕ} (h : q ∣ X ^ j * p) : q ∣ p := by
  have hcoprime : IsCoprime q (X ^ j) := by
    apply IsCoprime.pow_right
    rw [isCoprime_comm, irreducible_X.coprime_iff_not_dvd, X_dvd_iff]
    exact h0
  exact hcoprime.dvd_of_dvd_mul_left h

/-- A burst that is no longer than the degree leaves a remainder. -/
lemma burst_zero (h0 : q.coeff 0 ≠ 0) {j : ℕ} {bs : List Bool} (hlen : (bs.length : WithBot ℕ) ≤ q.degree)
    (h : q ∣ X ^ j * ofBits bs) : bs = List.replicate bs.length false :=
  ofBits_eq_zero (eq_zero_of_dvd_of_degree_lt (dvd_of_dvd_shift h0 h) ((degree_ofBits bs).trans_le hlen))

lemma burst_before {ds ss bs : List Bool} {i j : ℕ}
    (h : ds ++ ss = List.replicate i false ++ bs ++ List.replicate j false) (hj : ss.length ≤ j) :
    ofBits ds = X ^ (j - ss.length) * ofBits bs ∧ ofBits ss = 0 := by
  have hsplit : List.replicate j false = List.replicate (j - ss.length) false ++ List.replicate ss.length false := by
    rw [List.replicate_append_replicate, Nat.sub_add_cancel hj]
  rw [hsplit, ← List.append_assoc] at h
  obtain ⟨hds, hss⟩ := List.append_inj' h List.length_replicate.symm
  rw [hss, hds, ofBits_replicate, ofBits_append, ofBits_append, ofBits_replicate, ofBits_replicate, zero_mul, zero_add,
    add_zero, List.length_replicate, mul_comm]
  exact ⟨by rw [List.length_replicate], rfl⟩

lemma burst_across {ds ss bs : List Bool} {i j : ℕ}
    (h : ds ++ ss = List.replicate i false ++ bs ++ List.replicate j false) (hj : j ≤ ss.length) :
    ∃ before after, ofBits ds = ofBits before ∧ ofBits ss = X ^ j * ofBits after ∧
      before.length ≤ bs.length + j - ss.length := by
  have hlen := congrArg List.length h
  simp only [List.length_append, List.length_replicate] at hlen
  have hds : ds = List.replicate (min ds.length i) false ++ bs.take (ds.length - i) := by
    have htake := congrArg (List.take ds.length) h
    rw [List.take_left, List.take_append_of_le_length (by simp; omega), List.take_append, List.take_replicate,
      List.length_replicate] at htake
    exact htake
  have hss : ss = (List.replicate i false ++ bs).drop ds.length ++ List.replicate j false := by
    have hdrop := congrArg (List.drop ds.length) h
    rw [List.drop_left, List.drop_append_of_le_length (by simp; omega)] at hdrop
    exact hdrop
  refine ⟨bs.take (ds.length - i), (List.replicate i false ++ bs).drop ds.length, ?_, ?_, ?_⟩
  · conv_lhs => rw [hds]
    rw [ofBits_append, ofBits_replicate, zero_mul, zero_add]
  · conv_lhs => rw [hss]
    rw [ofBits_append, ofBits_replicate, add_zero, List.length_replicate, mul_comm]
  · rw [List.length_take]
    omega

/-- With an even number of terms in the generator, an odd number of flipped bits leaves a remainder. -/
lemma odd_not_dvd (hq : q.eval 1 = 0) (hp : p.eval 1 ≠ 0) : ¬q ∣ p := by
  rintro ⟨m, rfl⟩
  rw [eval_mul, hq, zero_mul] at hp
  exact hp rfl

/-- Two flipped bits leave a remainder when no power of so little comes round to one. -/
lemma two_not_dvd {w : ℕ} {g : BitVec (w + 1)} (h0 : (generator g).coeff 0 ≠ 0) {n : ℕ}
    (hpower : ∀ d < n, 0 < d → (shiftIn g · false)^[d] 1#(w + 1) ≠ 1#(w + 1)) {i d : ℕ} (hd : 0 < d) (hn : d < n) :
    ¬generator g ∣ X ^ i * (X ^ d + 1) := by
  intro h
  have hone : residue g X ^ d = 1 := by
    have hzero := (residue_eq_zero g).mpr (dvd_of_dvd_shift h0 h)
    rw [map_add, map_one, map_pow] at hzero
    have htwice := congrArg (residue g) (add_self_zero 1)
    rw [map_add, map_one, map_zero] at htwice
    linear_combination hzero - htwice
  have hrun := residue_run g 1#(w + 1) (List.replicate d false)
  rw [foldl_replicate, List.length_replicate, hone, one_mul, ofBits_replicate, map_zero, add_zero] at hrun
  have hsame := sub_eq_zero.mpr hrun
  rw [← map_sub, sub_eq_add_neg, neg_eq, residue_eq_zero] at hsame
  exact hpower d hn hd (eq_of_dvd hsame)

lemma ofBits_of_count_zero {bs : List Bool} (h : bs.count true = 0) : ofBits bs = 0 := by
  induction bs with
  | nil => rfl
  | cons b bs ih =>
    cases b with
    | false => rw [ofBits, if_neg Bool.false_ne_true, zero_add, ih (by simpa using h)]
    | true => simp at h

lemma ofBits_of_count_one {bs : List Bool} (h : bs.count true = 1) : ∃ i < bs.length, ofBits bs = X ^ i := by
  induction bs with
  | nil => simp at h
  | cons b bs ih =>
    cases b with
    | false =>
      obtain ⟨i, hi, heq⟩ := ih (by simpa using h)
      exact ⟨i, hi.trans (Nat.lt_succ_self _), by rw [ofBits, if_neg Bool.false_ne_true, zero_add, heq]⟩
    | true =>
      have hrest : bs.count true = 0 := by simpa using h
      exact ⟨bs.length, Nat.lt_succ_self _, by rw [ofBits, if_pos rfl, ofBits_of_count_zero hrest, add_zero]⟩

lemma ofBits_of_count_two {bs : List Bool} (h : bs.count true = 2) :
    ∃ i d, 0 < d ∧ i + d < bs.length ∧ ofBits bs = X ^ i * (X ^ d + 1) := by
  induction bs with
  | nil => simp at h
  | cons b bs ih =>
    cases b with
    | false =>
      obtain ⟨i, d, hd, hlen, heq⟩ := ih (by simpa using h)
      refine ⟨i, d, hd, hlen.trans (Nat.lt_succ_self _), ?_⟩
      rw [ofBits, if_neg Bool.false_ne_true, zero_add, heq]
    | true =>
      have hrest : bs.count true = 1 := by simpa using h
      obtain ⟨i, hi, heq⟩ := ofBits_of_count_one hrest
      refine ⟨i, bs.length - i, Nat.sub_pos_of_lt hi, ?_, ?_⟩
      · rw [List.length_cons]
        omega
      · rw [ofBits, if_pos rfl, heq, mul_add, mul_one, ← pow_add, Nat.add_sub_cancel' hi.le]

/-- The powers of the variable do not come round to one within so many steps; each step is a comparison, by which the
register is known before it is shifted again. -/
def aperiodic (w g : ℕ) : ℕ → ℕ → Bool
  | 0, _ => true
  | n + 1, r => if r = 1 then false else aperiodic w g n (if r < 2 ^ w then 2 * r else (2 * r - 2 ^ (w + 1)) ^^^ g)

lemma toNat_shiftIn {w : ℕ} (g r : BitVec (w + 1)) : (shiftIn g r false).toNat =
    if r.toNat < 2 ^ w then 2 * r.toNat else (2 * r.toNat - 2 ^ (w + 1)) ^^^ g.toNat := by
  have hlt := r.isLt
  have hshift : (r.shiftConcat false).toNat = 2 * r.toNat % 2 ^ (w + 1) := by
    simp [BitVec.toNat_shiftConcat, Nat.shiftLeft_eq, Nat.mul_comm]
  have hpow : 2 ^ (w + 1) = 2 * 2 ^ w := pow_succ' 2 w
  rw [shiftIn, BitVec.msb_eq_decide, Nat.add_sub_cancel]
  by_cases h : r.toNat < 2 ^ w
  · rw [if_pos h, if_neg (by simpa using h), hshift, Nat.mod_eq_of_lt (by omega)]
  · rw [if_neg h, if_pos (by simpa using h), BitVec.toNat_xor, hshift, Nat.mod_eq_sub_mod (by omega),
      Nat.mod_eq_of_lt (by omega)]

lemma iterate_ne_one {w : ℕ} {g : BitVec (w + 1)} {n : ℕ} {r : BitVec (w + 1)}
    (h : aperiodic w g.toNat n r.toNat = true) : ∀ d < n, (shiftIn g · false)^[d] r ≠ 1#(w + 1) := by
  induction n generalizing r with
  | zero => exact fun d hd => absurd hd (Nat.not_lt_zero d)
  | succ n ih =>
    rw [aperiodic] at h
    have hone : r.toNat ≠ 1 := by
      intro hr
      rw [if_pos hr] at h
      exact Bool.false_ne_true h
    rw [if_neg hone, ← toNat_shiftIn] at h
    intro d hd
    cases d with
    | zero =>
      intro hr
      apply hone
      have hsame : r = 1#(w + 1) := hr
      rw [hsame, BitVec.toNat_ofNat, Nat.mod_eq_of_lt (Nat.one_lt_two_pow (Nat.succ_ne_zero w))]
    | succ d =>
      rw [Function.iterate_succ_apply]
      exact ih h d (Nat.lt_of_succ_lt_succ hd)

end Errors

section Bytes

def bitsOf (bytes : Bytes) : List Bool := bytes.flatMap fun b => regBits b.toBitVec

/-- The places in which two texts of bytes differ. -/
def flipped (as bs : Bytes) : List Bool := flips (bitsOf as) (bitsOf bs)

lemma length_bitsOf (bytes : Bytes) : (bitsOf bytes).length = 8 * bytes.length := by
  rw [bitsOf, List.length_flatMap]
  simp [Nat.mul_comm]

lemma bitsOf_append (as bs : Bytes) : bitsOf (as ++ bs) = bitsOf as ++ bitsOf bs := List.flatMap_append

lemma bitsOf_injective {as bs : Bytes} (h : bitsOf as = bitsOf bs) : as = bs := by
  induction as generalizing bs with
  | nil =>
    have hlen := congrArg List.length h
    rw [length_bitsOf, length_bitsOf, List.length_nil] at hlen
    exact (List.length_eq_zero_iff.mp (by omega)).symm
  | cons a as ih =>
    cases bs with
    | nil =>
      have hlen := congrArg List.length h
      rw [length_bitsOf, length_bitsOf, List.length_nil, List.length_cons] at hlen
      omega
    | cons b bs =>
      rw [bitsOf, List.flatMap_cons, bitsOf, List.flatMap_cons] at h
      obtain ⟨hfirst, hmore⟩ := List.append_inj h (by simp)
      rw [UInt8.toBitVec_inj.mp (regBits_injective hfirst), ih hmore]

lemma regBits_append {m n : ℕ} (r : BitVec m) (s : BitVec n) : regBits (r ++ s) = regBits r ++ regBits s := by
  apply List.ext_getElem
  · simp
  · intro i hi hi'
    rw [length_regBits] at hi
    simp only [regBits, List.getElem_map, List.getElem_range, BitVec.getLsbD_append, List.getElem_append,
      List.length_map, List.length_range]
    split_ifs with h1 h2 h2
    · omega
    · congr 1
      omega
    · congr 1
      omega
    · omega

lemma flips_append {as as' bs bs' : List Bool} (h : as.length = bs.length) :
    flips (as ++ as') (bs ++ bs') = flips as bs ++ flips as' bs' := List.zipWith_append h

lemma flips_self (as : List Bool) : flips as as = List.replicate as.length false := by
  induction as with
  | nil => rfl
  | cons a as ih =>
    rw [flips] at ih
    rw [flips, List.zipWith_cons_cons, ih, Bool.xor_self, List.length_cons, List.replicate_succ]

lemma flips_xor {w : ℕ} (r m : BitVec w) : flips (regBits r) (regBits (r ^^^ m)) = regBits m := by
  rw [← regBits_xor, ← BitVec.xor_assoc, BitVec.xor_self, BitVec.zero_xor]

lemma eq_of_flips {as bs : List Bool} (hlen : as.length = bs.length) {n : ℕ}
    (h : flips as bs = List.replicate n false) : as = bs := by
  induction as generalizing bs n with
  | nil => exact (List.length_eq_zero_iff.mp hlen.symm).symm
  | cons a as ih =>
    cases bs with
    | nil => exact absurd hlen (Nat.succ_ne_zero _)
    | cons b bs =>
      obtain _ | n := n
      · exact absurd h (by simp [flips])
      · rw [flips, List.zipWith_cons_cons, List.replicate_succ, List.cons.injEq] at h
        have hab : a = b := by simpa using h.1
        rw [ih (Nat.succ.inj hlen) h.2, hab]

lemma msb_iff (r : UInt16) : r &&& 0x8000 ≠ 0 ↔ r.toBitVec.msb = true := by
  have hmask : (0x8000 : UInt16).toNat = 2 ^ 15 := rfl
  rw [ne_eq, ← UInt16.toNat_inj, UInt16.toNat_and, hmask, Nat.and_two_pow, BitVec.msb_eq_getLsbD_last,
    BitVec.getLsbD, UInt16.toNat_toBitVec]
  cases r.toNat.testBit 15 <;> simp

lemma shiftConcat_eq (r : UInt16) (b : Bool) :
    ((r <<< 1) + if b then 1 else 0).toBitVec = r.toBitVec.shiftConcat b := by
  have hshift : (r <<< 1).toBitVec = r.toBitVec <<< 1 := rfl
  have hdouble : r.toBitVec <<< 1 = r.toBitVec.shiftConcat false := by
    apply BitVec.eq_of_getLsbD_eq
    intro i hi
    rw [BitVec.getLsbD_shiftConcat, BitVec.getLsbD_shiftLeft]
    cases i <;> simp
  have hone : r.toBitVec <<< 1 + 1#16 = r.toBitVec.shiftConcat true := by
    rw [BitVec.add_eq_or_of_and_eq_zero]
    · apply BitVec.eq_of_getLsbD_eq
      intro i hi
      rw [BitVec.getLsbD_shiftConcat, BitVec.getLsbD_or, BitVec.getLsbD_shiftLeft, BitVec.getLsbD_one]
      cases i <;> simp
    · apply BitVec.eq_of_getLsbD_eq
      intro i hi
      rw [BitVec.getLsbD_and, BitVec.getLsbD_shiftLeft, BitVec.getLsbD_one]
      cases i <;> simp
  rw [UInt16.toBitVec_add, hshift]
  cases b
  · rw [← hdouble]
    exact BitVec.add_zero _
  · exact hone

end Bytes

end HyBBX.Lib.Crc
