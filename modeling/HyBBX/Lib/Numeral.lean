import HyBBX.Lib.Text
import Mathlib.Data.Nat.Digits.Lemmas

/-! Decimal numerals as `printf` writes them and `strtoul` reads them. -/

namespace HyBBX.Lib.Numeral

open Bytes Text

def isSpace (b : UInt8) : Bool := b = 0x20 || (0x09 ≤ b && b ≤ 0x0D)

def isDigit (b : UInt8) : Bool := 0x30 ≤ b && b ≤ 0x39

def digitByte (d : ℕ) : UInt8 := UInt8.ofNat (0x30 + d)

def digitValue (b : UInt8) : ℕ := b.toNat - 0x30

/-- `%u`, and `%ld` of a non-negative number. -/
def decimal (n : ℕ) : Bytes :=
  if n = 0 then [0x30] else ((Nat.digits 10 n).map digitByte).reverse

def digitsValue (ds : Bytes) : ℕ := Nat.ofDigits 10 (ds.reverse.map digitValue)

def ulongMax : ℕ := 2 ^ 64 - 1

instance neZeroWord : NeZero (2 ^ 64) := ⟨by decide⟩

/-- The value and the text after it; without a digit the text is returned as it came. -/
def strtoul (s : Bytes) : ℕ × Bytes :=
  let t := s.dropWhile isSpace
  let negative := t.head? = some 0x2D
  let d := if t.head? = some 0x2D ∨ t.head? = some 0x2B then t.tail else t
  let ds := d.takeWhile isDigit
  if ds = [] then (0, s)
  else
    let n := digitsValue ds
    (if ulongMax < n then ulongMax else if negative then (2 ^ 64 - n) % 2 ^ 64 else n,
      d.dropWhile isDigit)

def longMax : ℕ := 2 ^ 63 - 1

def strtol (s : Bytes) : ℤ :=
  let t := s.dropWhile isSpace
  let d := if t.head? = some 0x2D ∨ t.head? = some 0x2B then t.tail else t
  let n := digitsValue (d.takeWhile isDigit)
  if t.head? = some 0x2D then -(min n (longMax + 1) : ℕ) else (min n longMax : ℕ)

lemma digitByte_toNat {d : ℕ} (h : d < 10) : (digitByte d).toNat = 0x30 + d := by
  simp only [digitByte, UInt8.toNat_ofNat']
  omega

lemma digitValue_digitByte {d : ℕ} (h : d < 10) : digitValue (digitByte d) = d := by
  rw [digitValue, digitByte_toNat h]
  omega

lemma isDigit_digitByte {d : ℕ} (h : d < 10) : isDigit (digitByte d) = true := by
  have ht := digitByte_toNat h
  simp only [isDigit, Bool.and_eq_true, decide_eq_true_eq, UInt8.le_iff_toNat_le, ht]
  exact ⟨by simp, by simp; omega⟩

lemma isDigit_of_mem_decimal {n : ℕ} {b : UInt8} (h : b ∈ decimal n) : isDigit b = true := by
  unfold decimal at h
  split at h
  · obtain rfl : b = 0x30 := by simpa using h
    decide
  · simp only [List.mem_reverse, List.mem_map] at h
    obtain ⟨d, hd, rfl⟩ := h
    exact isDigit_digitByte (Nat.digits_lt_base (by omega) hd)

lemma decimal_ne_nil (n : ℕ) : decimal n ≠ [] := by
  unfold decimal
  split
  · simp
  · rename_i h
    simpa [Nat.digits_ne_nil_iff_ne_zero] using h

lemma digitsValue_decimal (n : ℕ) : digitsValue (decimal n) = n := by
  unfold decimal
  split
  · rename_i h
    subst h
    decide
  · have hid : ∀ l : List ℕ, (∀ d ∈ l, d < 10) → (l.map digitByte).map digitValue = l := by
      intro l hl
      rw [List.map_map]
      conv_rhs => rw [← List.map_id l]
      exact List.map_congr_left fun d hd => digitValue_digitByte (hl d hd)
    rw [digitsValue, List.reverse_reverse, hid _ fun d hd => Nat.digits_lt_base (by omega) hd,
      Nat.ofDigits_digits]

lemma digitsValue_zeros (k : ℕ) (ds : Bytes) : digitsValue (List.replicate k 0x30 ++ ds) = digitsValue ds := by
  have hzero : Nat.ofDigits 10 (List.replicate k 0) = 0 := by
    induction k with
    | zero => rfl
    | succ k ih => rw [List.replicate_succ, Nat.ofDigits_cons, ih]
  have hd : digitValue 0x30 = 0 := by decide
  rw [digitsValue, List.reverse_append, List.map_append, Nat.ofDigits_append, List.reverse_replicate,
    List.map_replicate, hd, hzero, Nat.mul_zero, Nat.add_zero, digitsValue]

lemma head_of_digits {ds : Bytes} (hne : ds ≠ []) (hd : ∀ b ∈ ds, isDigit b = true) (rest : Bytes) :
    ∃ b, (ds ++ rest).head? = some b ∧ isSpace b = false ∧ b ≠ 0x2D ∧ b ≠ 0x2B := by
  cases ds with
  | nil => exact absurd rfl hne
  | cons b ds =>
    have hb := hd b List.mem_cons_self
    simp only [isDigit, Bool.and_eq_true, decide_eq_true_eq, UInt8.le_iff_toNat_le] at hb
    have h30 : (0x30 : UInt8).toNat = 48 := rfl
    refine ⟨b, rfl, ?_, ?_, ?_⟩
    · simp only [isSpace, Bool.or_eq_false_iff, Bool.and_eq_false_iff, decide_eq_false_iff_not, UInt8.le_iff_toNat_le]
      refine ⟨?_, .inr ?_⟩
      · rintro rfl
        exact absurd hb.1 (by decide)
      · have h0d : (0x0D : UInt8).toNat = 13 := rfl
        omega
    · rintro rfl
      exact absurd hb.1 (by decide)
    · rintro rfl
      exact absurd hb.1 (by decide)

lemma takeWhile_digits {ds rest : Bytes} (hd : ∀ b ∈ ds, isDigit b = true) (hr : ∀ b ∈ rest.head?, isDigit b = false) :
    (ds ++ rest).takeWhile isDigit = ds ∧ (ds ++ rest).dropWhile isDigit = rest := by
  have hr' : rest.takeWhile isDigit = [] ∧ rest.dropWhile isDigit = rest := by
    cases rest with
    | nil => exact ⟨rfl, rfl⟩
    | cons b rest =>
      have hb : ¬isDigit b = true := by simpa using hr b rfl
      exact ⟨List.takeWhile_cons_of_neg hb, List.dropWhile_cons_of_neg hb⟩
  rw [List.takeWhile_append_of_pos hd, List.dropWhile_append_of_pos hd, hr'.1, hr'.2, List.append_nil]
  exact ⟨rfl, rfl⟩

lemma strtoul_digits {ds rest : Bytes} (hne : ds ≠ []) (hd : ∀ b ∈ ds, isDigit b = true)
    (hr : ∀ b ∈ rest.head?, isDigit b = false) (hmax : digitsValue ds ≤ ulongMax) :
    strtoul (ds ++ rest) = (digitsValue ds, rest) := by
  obtain ⟨b, hb, hsp, hminus, hplus⟩ := head_of_digits hne hd rest
  have hdrop : (ds ++ rest).dropWhile isSpace = ds ++ rest := by
    apply dropWhile_of_head
    intro c hc
    rw [hb] at hc
    obtain rfl := Option.some.inj hc
    exact hsp
  obtain ⟨htake, hrest⟩ := takeWhile_digits hd hr
  simp only [strtoul, hdrop, hb, Option.some.injEq, hminus, hplus, or_self, if_false, htake, hrest, hne,
    if_neg (not_lt.mpr hmax)]

lemma strtol_digits {ds rest : Bytes} (hne : ds ≠ []) (hd : ∀ b ∈ ds, isDigit b = true)
    (hr : ∀ b ∈ rest.head?, isDigit b = false) (hmax : digitsValue ds ≤ longMax) :
    strtol (ds ++ rest) = digitsValue ds := by
  obtain ⟨b, hb, hsp, hminus, hplus⟩ := head_of_digits hne hd rest
  have hdrop : (ds ++ rest).dropWhile isSpace = ds ++ rest := by
    apply dropWhile_of_head
    intro c hc
    rw [hb] at hc
    obtain rfl := Option.some.inj hc
    exact hsp
  simp only [strtol, hdrop, hb, Option.some.injEq, hminus, hplus, or_self, if_false, (takeWhile_digits hd hr).1,
    min_eq_left hmax]

lemma decimal_injective : Function.Injective decimal := Function.LeftInverse.injective digitsValue_decimal

lemma decimal_length_le {n k : ℕ} (hk : 0 < k) (h : n < 10 ^ k) : (decimal n).length ≤ k := by
  rw [decimal]
  split_ifs
  · exact hk
  · rw [List.length_reverse, List.length_map]
    exact (Nat.digits_length_le_iff (by decide) n).mpr h

lemma strtoul_lt (s : Bytes) : (strtoul s).1 < 2 ^ 64 := by
  rw [strtoul]
  dsimp only
  generalize (if (s.dropWhile isSpace).head? = some 0x2D ∨ (s.dropWhile isSpace).head? = some 0x2B
    then (s.dropWhile isSpace).tail else s.dropWhile isSpace) = d
  split
  · exact Nat.two_pow_pos 64
  · dsimp only
    split_ifs with hmax
    · rw [ulongMax]
      omega
    · exact Nat.mod_lt _ (Nat.two_pow_pos 64)
    · rw [ulongMax] at hmax
      omega

/-- Either nothing is read, or the text gets shorter. -/
lemma strtoul_rest (s : Bytes) : strtoul s = (0, s) ∨ (strtoul s).2.length < s.length := by
  rw [strtoul]
  dsimp only
  generalize hd : (if (s.dropWhile isSpace).head? = some 0x2D ∨ (s.dropWhile isSpace).head? = some 0x2B
    then (s.dropWhile isSpace).tail else s.dropWhile isSpace) = d
  by_cases hds : d.takeWhile isDigit = []
  · exact .inl (if_pos hds)
  · right
    rw [if_neg hds]
    have hle : d.length ≤ s.length := by
      have hspace := (List.dropWhile_suffix isSpace (l := s)).length_le
      rw [← hd]
      split_ifs
      · rw [List.length_tail]
        omega
      · exact hspace
    have hpos := List.length_pos_iff.mpr hds
    have hsplit := congrArg List.length (List.takeWhile_append_dropWhile (p := isDigit) (l := d))
    rw [List.length_append] at hsplit
    dsimp only
    omega

lemma strtoul_decimal {n : ℕ} (h : n < 2 ^ 64) (rest : Bytes) (hr : ∀ b ∈ rest.head?, isDigit b = false) :
    strtoul (decimal n ++ rest) = (n, rest) := by
  have hv := digitsValue_decimal n
  rw [strtoul_digits (decimal_ne_nil n) (fun b hb => isDigit_of_mem_decimal hb) hr (by rw [hv, ulongMax]; omega), hv]

/-- `%lld`. -/
def decimalInt (n : ℤ) : Bytes := if n < 0 then 0x2D :: decimal n.natAbs else decimal n.natAbs

section Signed

variable {n : ℤ} (hlo : -2 ^ 63 ≤ n) (hhi : n < 2 ^ 63) {rest : Bytes} (hr : ∀ b ∈ rest.head?, isDigit b = false)

include hlo hhi hr

lemma strtol_decimalInt_append : strtol (decimalInt n ++ rest) = n := by
  have hd : ∀ b ∈ decimal n.natAbs, isDigit b = true := fun b hb => isDigit_of_mem_decimal hb
  have hv := digitsValue_decimal n.natAbs
  by_cases hn : n < 0
  · rw [decimalInt, if_pos hn, strtol, List.cons_append, List.dropWhile_cons_of_neg (by decide)]
    simp only [List.head?_cons, if_true, true_or, List.tail_cons, (takeWhile_digits hd hr).1, hv, longMax]
    omega
  · rw [decimalInt, if_neg hn, strtol_digits (decimal_ne_nil n.natAbs) hd hr (by rw [hv, longMax]; omega), hv]
    omega

/-- What `strtoul` leaves of a signed numeral. -/
lemma strtoul_decimalInt : (strtoul (decimalInt n ++ rest)).2 = rest := by
  have hd : ∀ b ∈ decimal n.natAbs, isDigit b = true := fun b hb => isDigit_of_mem_decimal hb
  by_cases hn : n < 0
  · rw [decimalInt, if_pos hn, strtoul, List.cons_append, List.dropWhile_cons_of_neg (by decide)]
    simp only [List.head?_cons, true_or, if_true, List.tail_cons, (takeWhile_digits hd hr).1,
      (takeWhile_digits hd hr).2, if_neg (decimal_ne_nil n.natAbs)]
  · rw [decimalInt, if_neg hn, strtoul_decimal (by omega) rest hr]

end Signed

lemma strtol_decimalInt {n : ℤ} (hlo : -2 ^ 63 ≤ n) (hhi : n < 2 ^ 63) : strtol (decimalInt n) = n := by
  simpa using @strtol_decimalInt_append n hlo hhi [] (by simp)

end HyBBX.Lib.Numeral
