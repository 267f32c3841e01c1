import HyBBX.Lib.Numeral

/-! The message range of `/mail list` and `/mail delete`: nothing, one number, or two numbers and a dash. -/

namespace HyBBX.Mail

open Lib Lib.Bytes Lib.Text Lib.Numeral

def rangeDash : UInt8 := 0x2D

/-- The bounds `from` and `to`, each narrowed to `unsigned`; NULL is the empty string. -/
def mailParseListRange (spec : Bytes) : Option (ℕ × ℕ) :=
  if spec = [] then some (1, 0)
  else if rangeDash ∉ spec then
    let start := strtoul spec
    if start.2 = spec ∨ start.2 ≠ [] ∨ start.1 = 0 then none
    else some (start.1 % 2 ^ 32, start.1 % 2 ^ 32)
  else
    let fromDash := spec.dropWhile (· ≠ rangeDash)
    let start := strtoul spec
    if start.2 ≠ fromDash ∨ start.1 = 0 then none
    else
      let last := strtoul fromDash.tail
      if last.2 = fromDash.tail ∨ last.2 ≠ [] ∨ last.1 = 0 then none
      else if last.1 < start.1 then none
      else some (start.1 % 2 ^ 32, last.1 % 2 ^ 32)

/-- A text is a positive number in digits that an `unsigned` can hold. -/
structure MessageNumber (text : Bytes) (n : ℕ) : Prop where
  nonempty : text ≠ []
  digits : ∀ b ∈ text, isDigit b = true
  value : digitsValue text = n
  pos : 1 ≤ n
  fits : n < 2 ^ 32

/-- What a range is meant to say. -/
inductive IsRange : Bytes → ℕ → ℕ → Prop
  | all : IsRange [] 1 0
  | one {text : Bytes} {n : ℕ} (h : MessageNumber text n) : IsRange text n n
  | span {a b : Bytes} {n m : ℕ} (ha : MessageNumber a n) (hb : MessageNumber b m) (hle : n ≤ m) :
      IsRange (a ++ rangeDash :: b) n m

/-- Digits and nothing else, of a value below `2 ^ 32`. -/
def PlainNumber (text : Bytes) : Prop := (∀ b ∈ text, isDigit b = true) ∧ digitsValue text < 2 ^ 32

instance (text : Bytes) : Decidable (PlainNumber text) :=
  inferInstanceAs (Decidable ((∀ b ∈ text, isDigit b = true) ∧ digitsValue text < 2 ^ 32))

/-- The whole text in front of `rest` is read as a number other than zero. -/
def ReadAsNumber (text rest : Bytes) : Prop := (strtoul (text ++ rest)).2 = rest ∧ (strtoul (text ++ rest)).1 ≠ 0

instance (text rest : Bytes) : Decidable (ReadAsNumber text rest) :=
  inferInstanceAs (Decidable ((strtoul (text ++ rest)).2 = rest ∧ (strtoul (text ++ rest)).1 ≠ 0))

lemma dash_not_digit : isDigit rangeDash = false := by decide

lemma not_digit_dash (b : Bytes) : ∀ c ∈ (rangeDash :: b).head?, isDigit c = false := by
  intro c hc
  obtain rfl := Option.some.inj hc
  exact dash_not_digit

lemma dash_notMem_digits {text : Bytes} (h : ∀ b ∈ text, isDigit b = true) : rangeDash ∉ text := by
  intro hd
  have := h _ hd
  rw [dash_not_digit] at this
  exact nomatch this

section Number

variable {text rest : Bytes} (hr : ∀ c ∈ rest.head?, isDigit c = false)

include hr

lemma MessageNumber.strtoul {n : ℕ} (h : MessageNumber text n) : Numeral.strtoul (text ++ rest) = (n, rest) := by
  have hfits := h.fits
  rw [strtoul_digits h.nonempty h.digits hr (by rw [h.value, ulongMax]; omega), h.value]

lemma MessageNumber.read {n : ℕ} (h : MessageNumber text n) : ReadAsNumber text rest := by
  have hpos := h.pos
  rw [ReadAsNumber, h.strtoul hr]
  exact ⟨rfl, by omega⟩

/-- A number that is read and written plainly is the number the text says. -/
lemma PlainNumber.message (hp : PlainNumber text) (h : ReadAsNumber text rest) :
    MessageNumber text (Numeral.strtoul (text ++ rest)).1 := by
  have hne : text ≠ [] := by
    rintro rfl
    rw [ReadAsNumber, List.nil_append] at h
    rcases strtoul_rest rest with hnone | hshort
    · exact h.2 (congrArg Prod.fst hnone)
    · rw [h.1] at hshort
      exact absurd hshort (lt_irrefl _)
  have hfits := hp.2
  have hread := strtoul_digits hne hp.1 hr (by rw [ulongMax]; omega)
  rw [ReadAsNumber, hread] at h
  rw [hread]
  exact ⟨hne, hp.1, rfl, Nat.one_le_iff_ne_zero.mpr h.2, hfits⟩

end Number

/-- The range is written in plain numbers, or it is not taken at all. -/
def RangeWrittenPlainly (spec : Bytes) : Prop :=
  if rangeDash ∉ spec then spec ≠ [] → ReadAsNumber spec [] → PlainNumber spec
  else
    let a := spec.takeWhile (· ≠ rangeDash)
    let b := (spec.dropWhile (· ≠ rangeDash)).tail
    ReadAsNumber a (rangeDash :: b) → ReadAsNumber b [] → (strtoul spec).1 ≤ (strtoul b).1 → PlainNumber a ∧
      PlainNumber b

instance : DecidablePred RangeWrittenPlainly := fun spec =>
  inferInstanceAs (Decidable (if rangeDash ∉ spec then spec ≠ [] → ReadAsNumber spec [] → PlainNumber spec
    else ReadAsNumber (spec.takeWhile (· ≠ rangeDash)) (rangeDash :: (spec.dropWhile (· ≠ rangeDash)).tail) →
      ReadAsNumber (spec.dropWhile (· ≠ rangeDash)).tail [] →
        (strtoul spec).1 ≤ (strtoul (spec.dropWhile (· ≠ rangeDash)).tail).1 →
          PlainNumber (spec.takeWhile (· ≠ rangeDash)) ∧ PlainNumber (spec.dropWhile (· ≠ rangeDash)).tail))

lemma MessageNumber.unique {text : Bytes} {n m : ℕ} (h : MessageNumber text n) (h' : MessageNumber text m) : n = m :=
  h.value.symm.trans h'.value

lemma MessageNumber.plain {text : Bytes} {n : ℕ} (h : MessageNumber text n) : PlainNumber text :=
  ⟨h.digits, by rw [h.value]; exact h.fits⟩

/-- A spec without a dash can only be one number. -/
lemma isRange_one {spec : Bytes} (hd : rangeDash ∉ spec) (hne : spec ≠ []) {n m : ℕ} :
    IsRange spec n m ↔ MessageNumber spec n ∧ m = n := by
  constructor
  · intro h
    cases h with
    | all => exact absurd rfl hne
    | one h => exact ⟨h, rfl⟩
    | span => exact absurd (by simp) hd
  · rintro ⟨h, rfl⟩
    exact .one h

lemma dash_split_unique {a b c d : Bytes} (ha : rangeDash ∉ a) (hc : rangeDash ∉ c)
    (h : a ++ rangeDash :: b = c ++ rangeDash :: d) : a = c ∧ b = d := by
  have htake : ∀ {x : Bytes} (y : Bytes), rangeDash ∉ x → (x ++ rangeDash :: y).takeWhile (· ≠ rangeDash) = x := by
    intro x y hx
    rw [List.takeWhile_append_of_pos fun e he => by simpa using fun h0 : e = rangeDash => hx (h0 ▸ he)]
    simp
  have hac : a = c := by rw [← htake b ha, h, htake d hc]
  subst hac
  exact ⟨rfl, (List.cons.inj (List.append_cancel_left h)).2⟩

/-- With a dash it can only be the two numbers around the first one. -/
lemma isRange_span {a b : Bytes} (ha : rangeDash ∉ a) {n m : ℕ} :
    IsRange (a ++ rangeDash :: b) n m ↔ MessageNumber a n ∧ MessageNumber b m ∧ n ≤ m := by
  constructor
  · generalize hs : a ++ rangeDash :: b = spec
    intro h
    cases h with
    | all => simp at hs
    | one h => exact absurd (by rw [← hs]; simp) (dash_notMem_digits h.digits)
    | span hn hm hle =>
      obtain ⟨rfl, rfl⟩ := dash_split_unique ha (dash_notMem_digits hn.digits) hs
      exact ⟨hn, hm, hle⟩
  · rintro ⟨hn, hm, hle⟩
    exact .span hn hm hle

/-- What is returned is what the range says, and nothing is returned that is no range. -/
def RangeExact (spec : Bytes) : Prop := ∀ n m, mailParseListRange spec = some (n, m) ↔ IsRange spec n m

lemma parse_one {spec : Bytes} (hd : rangeDash ∉ spec) (hne : spec ≠ []) :
    mailParseListRange spec =
      if ReadAsNumber spec [] then some ((strtoul spec).1 % 2 ^ 32, (strtoul spec).1 % 2 ^ 32) else none := by
  rw [mailParseListRange, if_neg hne, if_pos hd]
  dsimp only
  by_cases hr : ReadAsNumber spec []
  · rw [if_pos hr]
    rw [ReadAsNumber, List.append_nil] at hr
    refine if_neg ?_
    rintro (h | h | h)
    · exact hne (h.symm.trans hr.1)
    · exact h hr.1
    · exact hr.2 h
  · rw [if_neg hr]
    rw [ReadAsNumber, List.append_nil, not_and_or, not_not] at hr
    exact if_pos (.inr hr)

lemma parse_span {a b : Bytes} (ha : rangeDash ∉ a) :
    mailParseListRange (a ++ rangeDash :: b) =
      if ReadAsNumber a (rangeDash :: b) ∧ ReadAsNumber b [] ∧ (strtoul (a ++ rangeDash :: b)).1 ≤ (strtoul b).1 then
        some ((strtoul (a ++ rangeDash :: b)).1 % 2 ^ 32, (strtoul b).1 % 2 ^ 32)
      else none := by
  have hdrop : (a ++ rangeDash :: b).dropWhile (· ≠ rangeDash) = rangeDash :: b := by
    rw [List.dropWhile_append_of_pos fun e he => by simpa using fun h0 : e = rangeDash => ha (h0 ▸ he)]
    simp
  rw [mailParseListRange, if_neg (by simp), if_neg (by simp)]
  dsimp only
  rw [hdrop, List.tail_cons]
  by_cases hfirst : ReadAsNumber a (rangeDash :: b)
  · have hnot : ¬((strtoul (a ++ rangeDash :: b)).2 ≠ rangeDash :: b ∨ (strtoul (a ++ rangeDash :: b)).1 = 0) := by
      rintro (h | h)
      · exact h hfirst.1
      · exact hfirst.2 h
    rw [if_neg hnot]
    have hlast : ReadAsNumber b [] ↔ (strtoul b).2 = [] ∧ (strtoul b).1 ≠ 0 := by
      rw [ReadAsNumber, List.append_nil]
    by_cases hl : ReadAsNumber b []
    · obtain ⟨hnil, hzero⟩ := hlast.mp hl
      have hnot' : ¬((strtoul b).2 = b ∨ (strtoul b).2 ≠ [] ∨ (strtoul b).1 = 0) := by
        rintro (h | h | h)
        · rw [← h, hnil] at hzero
          exact hzero (by decide)
        · exact h hnil
        · exact hzero h
      rw [if_neg hnot']
      by_cases hle : (strtoul (a ++ rangeDash :: b)).1 ≤ (strtoul b).1
      · rw [if_neg (not_lt.mpr hle), if_pos ⟨hfirst, hl, hle⟩]
      · rw [if_pos (not_le.mp hle), if_neg fun h => hle h.2.2]
    · have hbad : (strtoul b).2 = b ∨ (strtoul b).2 ≠ [] ∨ (strtoul b).1 = 0 := by
        rw [hlast, not_and_or, not_not] at hl
        exact .inr hl
      rw [if_pos hbad, if_neg fun h => hl h.2.1]
  · have hbad : (strtoul (a ++ rangeDash :: b)).2 ≠ rangeDash :: b ∨ (strtoul (a ++ rangeDash :: b)).1 = 0 := by
      rwa [ReadAsNumber, not_and_or, not_not] at hfirst
    rw [if_pos hbad, if_neg fun h => hfirst h.1]

lemma rangeExact_one {spec : Bytes} (hd : rangeDash ∉ spec) (hne : spec ≠ []) :
    RangeExact spec ↔ (ReadAsNumber spec [] → PlainNumber spec) := by
  rw [RangeExact, parse_one hd hne]
  by_cases hr : ReadAsNumber spec []
  · rw [if_pos hr]
    constructor
    · intro h _
      exact ((isRange_one hd hne).mp ((h _ _).mp rfl)).1.plain
    · intro hp n m
      have hmsg := (hp hr).message (by simp) hr
      rw [List.append_nil] at hmsg
      rw [isRange_one hd hne, Nat.mod_eq_of_lt hmsg.fits, Option.some.injEq, Prod.mk.injEq]
      constructor
      · rintro ⟨rfl, rfl⟩
        exact ⟨hmsg, rfl⟩
      · rintro ⟨hn, rfl⟩
        exact ⟨hmsg.unique hn, hmsg.unique hn⟩
  · rw [if_neg hr]
    refine iff_of_true (fun n m => iff_of_false nofun ?_) fun h => absurd h hr
    intro h
    exact hr (((isRange_one hd hne).mp h).1.read (by simp))

lemma rangeExact_span {a b : Bytes} (ha : rangeDash ∉ a) :
    RangeExact (a ++ rangeDash :: b) ↔ (ReadAsNumber a (rangeDash :: b) → ReadAsNumber b [] →
      (strtoul (a ++ rangeDash :: b)).1 ≤ (strtoul b).1 → PlainNumber a ∧ PlainNumber b) := by
  rw [RangeExact, parse_span ha]
  by_cases hr : ReadAsNumber a (rangeDash :: b) ∧ ReadAsNumber b [] ∧
      (strtoul (a ++ rangeDash :: b)).1 ≤ (strtoul b).1
  · rw [if_pos hr]
    obtain ⟨hfirst, hlast, hle⟩ := hr
    constructor
    · intro h _ _ _
      obtain ⟨hn, hm, -⟩ := (isRange_span ha).mp ((h _ _).mp rfl)
      exact ⟨hn.plain, hm.plain⟩
    · intro hp n m
      obtain ⟨hpa, hpb⟩ := hp hfirst hlast hle
      have hn := hpa.message (not_digit_dash b) hfirst
      have hm := hpb.message (by simp) hlast
      rw [List.append_nil] at hm
      rw [isRange_span ha, Nat.mod_eq_of_lt hn.fits, Nat.mod_eq_of_lt hm.fits, Option.some.injEq, Prod.mk.injEq]
      constructor
      · rintro ⟨rfl, rfl⟩
        exact ⟨hn, hm, hle⟩
      · rintro ⟨hn', hm', -⟩
        exact ⟨hn.unique hn', hm.unique hm'⟩
  · rw [if_neg hr]
    refine iff_of_true (fun n m => iff_of_false nofun ?_) fun hf hl hle => absurd ⟨hf, hl, hle⟩ hr
    intro h
    obtain ⟨hn, hm, hle⟩ := (isRange_span ha).mp h
    have hfirst := hn.strtoul (not_digit_dash b)
    have hlast : strtoul b = (m, []) := by
      have h := @MessageNumber.strtoul b [] (by simp) m hm
      rwa [List.append_nil] at h
    exact hr ⟨hn.read (not_digit_dash b), hm.read (by simp), by rw [hfirst, hlast]; exact hle⟩

/-- The parser is exact on a text unless it takes a number that is not written in digits alone or is too large. -/
theorem mailParseListRange_exact_iff (spec : Bytes) : RangeExact spec ↔ RangeWrittenPlainly spec := by
  by_cases hne : spec = []
  · subst hne
    refine iff_of_true (fun n m => ?_) fun h => absurd rfl h
    rw [mailParseListRange, if_pos rfl, Option.some.injEq, Prod.mk.injEq]
    constructor
    · rintro ⟨rfl, rfl⟩
      exact .all
    · generalize hs : ([] : Bytes) = spec
      intro h
      cases h with
      | all => exact ⟨rfl, rfl⟩
      | one h => exact absurd hs.symm h.nonempty
      | span => simp at hs
  · rw [RangeWrittenPlainly]
    by_cases hd : rangeDash ∈ spec
    · obtain ⟨a, b, rfl, ha⟩ := List.eq_append_cons_of_mem hd
      have htake : (a ++ rangeDash :: b).takeWhile (· ≠ rangeDash) = a ∧
          (a ++ rangeDash :: b).dropWhile (· ≠ rangeDash) = rangeDash :: b := by
        have hpos : ∀ e ∈ a, decide (e ≠ rangeDash) = true := fun e he => by
          simpa using fun h0 : e = rangeDash => ha (h0 ▸ he)
        rw [List.takeWhile_append_of_pos hpos, List.dropWhile_append_of_pos hpos]
        simp
      rw [if_neg (not_not.mpr hd), htake.1, htake.2]
      exact rangeExact_span ha
    · rw [if_pos hd, rangeExact_one hd hne]
      exact ⟨fun h _ => h, fun h => h hne⟩

/-- A number too large for `unsigned` names the first message, and a negative end is a very large one. -/
theorem mailParseListRange_wraps :
    mailParseListRange (ofString "4294967297") = some (1, 1) ∧ ¬IsRange (ofString "4294967297") 1 1 ∧
      mailParseListRange (ofString "5--3") = some (5, 4294967293) := by
  refine ⟨by decide +kernel, fun h => ?_, by decide +kernel⟩
  have hn := ((isRange_one (by decide) (by decide)).mp h).1.value
  revert hn
  decide +kernel

end HyBBX.Mail
