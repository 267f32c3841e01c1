import Mathlib.Analysis.Complex.Trigonometric
import Mathlib.Tactic

/-! The sines of the first whole numbers, to so many bits. -/

namespace HyBBX.Lib.SineTable

open Complex Finset

/-- What stands for one. -/
def scale : ℤ := 2 ^ 80
def cosOne : ℤ := 653185407961314874212934
def sinOne : ℤ := 1017275999990815458903786

/-- A turn by one, rounded down. -/
def turn (w : ℤ × ℤ) : ℤ × ℤ := ((w.1 * cosOne - w.2 * sinOne) / scale, (w.1 * sinOne + w.2 * cosOne) / scale)

/-- Cosine and sine of a whole number. -/
def rotor : ℕ → ℤ × ℤ
  | 0 => (scale, 0)
  | k + 1 => turn (rotor k)

/-- So many bits of the sine, without its sign. -/
def sineBits (bits k : ℕ) : ℕ := (rotor k).2.natAbs * 2 ^ bits / 2 ^ 80

/-- The error of the rotor does not reach another whole number. -/
def Clear (bits k : ℕ) : Prop :=
  sineBits bits k * 2 ^ 80 + 6 * k * 2 ^ bits ≤ (rotor k).2.natAbs * 2 ^ bits ∧
    (rotor k).2.natAbs * 2 ^ bits + 6 * k * 2 ^ bits < (sineBits bits k + 1) * 2 ^ 80

instance (bits k : ℕ) : Decidable (Clear bits k) := inferInstanceAs (Decidable (_ ∧ _))

/-- The summands of the exponential series at the imaginary unit. -/
def term : ℕ → ℚ × ℚ
  | 0 => (1, 0)
  | m + 1 => (-(term m).2 / (m + 1), (term m).1 / (m + 1))

/-- A pair as a complex number. -/
noncomputable def gauss (w : ℤ × ℤ) : ℂ := w.1 + w.2 * I

lemma term_eq (m : ℕ) : I ^ m / m.factorial = ((term m).1 : ℂ) + (term m).2 * I := by
  induction m with
  | zero => simp [term]
  | succ m ih =>
    have hne : ((m : ℂ) + 1) ≠ 0 := Nat.cast_add_one_ne_zero m
    have hstep : I ^ (m + 1) / (m + 1).factorial = I * (I ^ m / m.factorial) / (m + 1) := by
      rw [Nat.factorial_succ, pow_succ]
      push_cast
      field_simp
    have hI : I * I = -1 := I_mul_I
    rw [hstep, ih, term]
    push_cast
    field_simp
    linear_combination ((term m).2 : ℂ) * hI

lemma norm_scale : ‖(scale : ℂ)‖ = 2 ^ 80 := by norm_num [scale]

/-- One radian, to the unit. -/
lemma exp_one : ‖(scale : ℂ) * exp I - gauss (cosOne, sinOne)‖ ≤ 2 := by
  have hbound := exp_bound (n := 28) (show ‖I‖ ≤ 1 by rw [norm_I]) (by norm_num)
  have hsum : ∑ m ∈ range 28, I ^ m / m.factorial =
      ((∑ m ∈ range 28, (term m).1 : ℚ) : ℂ) + (∑ m ∈ range 28, (term m).2 : ℚ) * I := by
    push_cast
    rw [sum_mul, ← sum_add_distrib]
    exact sum_congr rfl fun m _ => term_eq m
  have hcos : |(scale : ℚ) * (∑ m ∈ range 28, (term m).1) - cosOne| ≤ 3 / 4 := by decide +kernel
  have hsin : |(scale : ℚ) * (∑ m ∈ range 28, (term m).2) - sinOne| ≤ 3 / 4 := by decide +kernel
  generalize (∑ m ∈ range 28, (term m).1) = c at hsum hcos
  generalize (∑ m ∈ range 28, (term m).2) = s at hsum hsin
  rw [hsum, norm_I, one_pow, one_mul] at hbound
  have hround : ‖(scale : ℂ) * (c + s * I) - gauss (cosOne, sinOne)‖ ≤ 3 / 2 := by
    have hsplit : (scale : ℂ) * (c + s * I) - gauss (cosOne, sinOne) =
        ((scale * c - cosOne : ℚ) : ℝ) + ((scale * s - sinOne : ℚ) : ℝ) * I := by
      rw [gauss]
      push_cast
      ring
    rw [hsplit]
    refine (norm_add_le _ _).trans ?_
    rw [norm_mul, norm_I, mul_one, norm_real, norm_real, Real.norm_eq_abs, Real.norm_eq_abs]
    have hcast : ∀ q : ℚ, |q| ≤ 3 / 4 → |(q : ℝ)| ≤ 3 / 4 := by
      intro q hq
      have hreal : ((|q| : ℚ) : ℝ) ≤ ((3 / 4 : ℚ) : ℝ) := Rat.cast_le.mpr hq
      rw [Rat.cast_abs] at hreal
      norm_num at hreal ⊢
      exact hreal
    linarith [hcast _ hcos, hcast _ hsin]
  have hsplit : (scale : ℂ) * exp I - gauss (cosOne, sinOne) =
      scale * (exp I - (c + s * I)) + ((scale : ℂ) * (c + s * I) - gauss (cosOne, sinOne)) := by ring
  rw [hsplit]
  refine (norm_add_le _ _).trans ?_
  have hscaled : ‖(scale : ℂ) * (exp I - (c + s * I))‖ ≤ 1 / 2 := by
    rw [norm_mul, norm_scale]
    refine (mul_le_mul_of_nonneg_left hbound (by positivity)).trans ?_
    norm_num [Nat.factorial]
  linarith

/-- What rounding down takes from a turn. -/
lemma turn_error (w : ℤ × ℤ) : ‖gauss w * gauss (cosOne, sinOne) - scale * gauss (turn w)‖ ≤ 2 * 2 ^ 80 := by
  have hrest : ∀ n : ℤ, |((n % scale : ℤ) : ℝ)| ≤ 2 ^ 80 := by
    intro n
    have hlow : (0 : ℝ) ≤ ((n % scale : ℤ) : ℝ) := by exact_mod_cast Int.emod_nonneg n (by decide)
    have hhigh : ((n % scale : ℤ) : ℝ) ≤ 2 ^ 80 := by exact_mod_cast (Int.emod_lt_of_pos n (by decide)).le
    rwa [abs_of_nonneg hlow]
  have hsplit : gauss w * gauss (cosOne, sinOne) - scale * gauss (turn w) =
      (((w.1 * cosOne - w.2 * sinOne) % scale : ℤ) : ℝ) + (((w.1 * sinOne + w.2 * cosOne) % scale : ℤ) : ℝ) * I := by
    have hcos := congrArg (fun n : ℤ => (n : ℂ)) (Int.emod_add_mul_ediv (w.1 * cosOne - w.2 * sinOne) scale)
    have hsin := congrArg (fun n : ℤ => (n : ℂ)) (Int.emod_add_mul_ediv (w.1 * sinOne + w.2 * cosOne) scale)
    have hI : I * I = -1 := I_mul_I
    simp only [gauss, turn]
    push_cast at hcos hsin ⊢
    linear_combination hI * (w.2 * sinOne : ℂ) - hcos - hsin * I
  rw [hsplit]
  refine (norm_add_le _ _).trans ?_
  rw [norm_mul, norm_I, mul_one, norm_real, norm_real, Real.norm_eq_abs, Real.norm_eq_abs]
  linarith [hrest (w.1 * cosOne - w.2 * sinOne), hrest (w.1 * sinOne + w.2 * cosOne)]

/-- Every turn adds six to the error at most. -/
lemma rotor_error {k : ℕ} (hk : k ≤ 2 ^ 64) : ‖(scale : ℂ) * exp (k * I) - gauss (rotor k)‖ ≤ 6 * k := by
  induction k with
  | zero => simp [rotor, gauss]
  | succ k ih =>
    have hprev := ih (by omega)
    have hunit : ‖exp I‖ = 1 := by simpa using norm_exp_ofReal_mul_I 1
    have hexp : exp ((k + 1 : ℕ) * I) = exp (k * I) * exp I := by
      rw [← exp_add]
      congr 1
      push_cast
      ring
    have hlarge : ‖gauss (rotor k)‖ ≤ 2 * 2 ^ 80 := by
      have hscaled : ‖(scale : ℂ) * exp (k * I)‖ = 2 ^ 80 := by
        have hone : ‖exp ((k : ℂ) * I)‖ = 1 := by exact_mod_cast norm_exp_ofReal_mul_I k
        rw [norm_mul, norm_scale, hone, mul_one]
      have hdiff := norm_sub_norm_le (gauss (rotor k)) ((scale : ℂ) * exp (k * I))
      rw [norm_sub_rev, hscaled] at hdiff
      have hkreal : (k : ℝ) ≤ 2 ^ 64 := by exact_mod_cast (Nat.le_of_succ_le hk)
      linarith
    have hsplit : scale * (scale * exp ((k + 1 : ℕ) * I) - gauss (rotor (k + 1))) =
        scale * exp I * (scale * exp (k * I) - gauss (rotor k)) +
          gauss (rotor k) * (scale * exp I - gauss (cosOne, sinOne)) +
          (gauss (rotor k) * gauss (cosOne, sinOne) - scale * gauss (turn (rotor k))) := by
      rw [hexp, rotor]
      ring
    have hscaled := norm_mul (scale : ℂ) (scale * exp ((k + 1 : ℕ) * I) - gauss (rotor (k + 1)))
    have hfirst : ‖scale * exp I * (scale * exp (k * I) - gauss (rotor k))‖ ≤ 2 ^ 80 * (6 * k) := by
      rw [norm_mul, norm_mul, norm_scale, hunit, mul_one]
      exact mul_le_mul_of_nonneg_left hprev (by positivity)
    have hsecond : ‖gauss (rotor k) * (scale * exp I - gauss (cosOne, sinOne))‖ ≤ 2 * 2 ^ 80 * 2 := by
      rw [norm_mul]
      exact mul_le_mul hlarge exp_one (norm_nonneg _) (by positivity)
    have htotal := (norm_add_le _ _).trans (add_le_add ((norm_add_le _ _).trans (add_le_add hfirst hsecond))
      (turn_error (rotor k)))
    rw [← hsplit, hscaled, norm_scale] at htotal
    push_cast at htotal ⊢
    linarith

/-- Where the error does not matter, the bits are those of the sine. -/
theorem sineBits_eq {bits k : ℕ} (hk : k ≤ 2 ^ 64) (hclear : Clear bits k) :
    ⌊2 ^ bits * |Real.sin k|⌋₊ = sineBits bits k := by
  have herror : |(2 : ℝ) ^ 80 * Real.sin k - (rotor k).2| ≤ 6 * (k : ℝ) := by
    have him := (abs_im_le_norm _).trans (rotor_error hk)
    have hsin : ((scale : ℂ) * exp (k * I) - gauss (rotor k)).im = 2 ^ 80 * Real.sin k - (rotor k).2 := by
      have hexp : (exp ((k : ℂ) * I)).im = Real.sin k := by exact_mod_cast exp_ofReal_mul_I_im k
      have hreal : (scale : ℂ) = ((2 ^ 80 : ℝ) : ℂ) := by norm_num [scale]
      rw [sub_im, hreal, im_ofReal_mul, hexp]
      simp [gauss]
    rwa [hsin] at him
  have hbits : |(2 : ℝ) ^ 80 * |Real.sin k| - ((rotor k).2.natAbs : ℝ)| ≤ 6 * k := by
    have habs := (abs_abs_sub_abs_le ((2 : ℝ) ^ 80 * Real.sin k) (rotor k).2).trans herror
    rwa [abs_mul, abs_of_pos (by positivity : (0 : ℝ) < 2 ^ 80), ← Int.cast_abs, ← Nat.cast_natAbs] at habs
  obtain ⟨hlow, hhigh⟩ := abs_le.mp hbits
  obtain ⟨hbelow, habove⟩ := hclear
  have hbelow' : (sineBits bits k : ℝ) * 2 ^ 80 + 6 * k * 2 ^ bits ≤ (rotor k).2.natAbs * 2 ^ bits := by
    exact_mod_cast hbelow
  have habove' : ((rotor k).2.natAbs : ℝ) * 2 ^ bits + 6 * k * 2 ^ bits < (sineBits bits k + 1) * 2 ^ 80 := by
    exact_mod_cast habove
  have hpos : (0 : ℝ) < 2 ^ bits := by positivity
  rw [Nat.floor_eq_iff (by positivity)]
  constructor
  · nlinarith
  · nlinarith

end HyBBX.Lib.SineTable
