import HyBBX.Session.Lifecycle

/-! The names of guests: how a slot is written as a name, and which names are read as a slot. -/

namespace HyBBX.Session.GuestNames

open HyBBX.Core HyBBX.Storage Lib Lib.Bytes Lib.Text Lib.Numeral
open HyBBX.Command (guestNumberMax guestUserId)

abbrev plus : UInt8 := 0x2B

def guestPrefixOr (guestPrefix : Bytes) : Bytes := if guestPrefix = [] then authDefaultGuestPrefix else guestPrefix

def guestSlotFromUsername (guestPrefix username : Bytes) : Option ℕ :=
  let pre := guestPrefixOr guestPrefix
  if username.length ≤ pre.length then none
  else if (username.take pre.length).map lower ≠ pre.map lower then none
  else
    let number := username.drop pre.length
    let r := strtoul number
    if r.2 = number ∨ r.2 ≠ [] ∨ r.1 < 1 ∨ guestNumberMax < r.1 then none else some r.1

lemma guestUserId_fits (slot : Command.GuestSlot) : guestUserId slot < 2 ^ 64 := by
  have hmax := slot.issued.2
  rw [guestNumberMax] at hmax
  rw [guestUserId]
  omega

def guestFillRecord (guestPrefix : Bytes) (slot : ℕ) (now : Int64) (out : UserRecord) : UserRecord :=
  if h : 1 ≤ slot ∧ slot ≤ guestNumberMax then
    let username : CText userNameMax := .copy (guestPrefixOr guestPrefix ++ decimal slot)
    { UserRecord.zero with
      id := guestUserId ⟨slot, h⟩
      username := username
      nickname := .copy username.text
      level := .guest
      active := true
      createdAt := now
      idFits := guestUserId_fits ⟨slot, h⟩ }
  else out

/-- The login refuses the names that are read as a slot. -/
lemma isSome_guestSlotFromUsername (guestPrefix username : Bytes) :
    (guestSlotFromUsername guestPrefix username).isSome = Command.guestSlotFromUsername guestPrefix username := by
  rw [guestSlotFromUsername, guestPrefixOr, Command.guestSlotFromUsername]
  dsimp only
  generalize (if guestPrefix = [] then authDefaultGuestPrefix else guestPrefix) = pre
  by_cases hlen : username.length ≤ pre.length
  · rw [if_pos hlen, if_pos (Or.inl hlen)]
    rfl
  · by_cases hpre : (username.take pre.length).map lower ≠ pre.map lower
    · rw [if_neg hlen, if_pos hpre, if_pos (Or.inr hpre)]
      rfl
    · rw [if_neg hlen, if_neg hpre, if_neg (not_or.mpr ⟨hlen, hpre⟩), apply_ite Option.isSome]
      rw [Bool.eq_iff_iff]
      simp [and_assoc, Nat.one_le_iff_ne_zero]

/-- The record of a guest session is filled in from the prefix of the configuration. -/
lemma guestFillRecord_text (guestPrefix : CText authGuestPrefixMax) :
    guestFillRecord guestPrefix.text = Session.guestFillRecord guestPrefix := rfl

/-- The number of the slot fits behind the prefix. -/
def RoomFor (guestPrefix : Bytes) (slot : ℕ) : Prop := (guestPrefixOr guestPrefix ++ decimal slot).length < userNameMax

instance (guestPrefix : Bytes) (slot : ℕ) : Decidable (RoomFor guestPrefix slot) := Nat.decLt _ _

/-- A name that some slot is given, up to the letter case of the prefix. -/
def IsGuestName (guestPrefix username : Bytes) : Prop :=
  ∃ slot now out pre, 1 ≤ slot ∧ slot ≤ guestNumberMax ∧
    pre.map lower = (guestPrefixOr guestPrefix).map lower ∧ pre.length = (guestPrefixOr guestPrefix).length ∧
    username = pre ++ (guestFillRecord guestPrefix slot now out).username.text.drop pre.length

/-- What `strtoul` makes of a sign and digits. -/
def signedValue (sign digits : Bytes) : ℕ :=
  if ulongMax < digitsValue digits then ulongMax
  else if sign = [hyphen] then (2 ^ 64 - digitsValue digits) % 2 ^ 64
  else digitsValue digits

/-- White space, a sign and digits. -/
structure SpelledNumber (number spaces sign digits : Bytes) : Prop where
  text : number = spaces ++ sign ++ digits
  blanks : ∀ b ∈ spaces, isSpace b = true
  signed : sign = [] ∨ sign = [plus] ∨ sign = [hyphen]
  numeric : ∀ b ∈ digits, isDigit b = true
  nonempty : digits ≠ []

/-- Behind the prefix there is the number of a slot, in a spelling that no guest name has: with white space, with a sign
(a negative number wraps around) or with a leading zero. -/
def Disguised (guestPrefix username : Bytes) : Prop :=
  ∃ pre number spaces sign digits, username = pre ++ number ∧
    pre.map lower = (guestPrefixOr guestPrefix).map lower ∧ SpelledNumber number spaces sign digits ∧
    1 ≤ signedValue sign digits ∧ signedValue sign digits ≤ guestNumberMax ∧
    (spaces ≠ [] ∨ sign ≠ [] ∨ digits.head? = some 0x30)

section Numbers

lemma digits_head {digits : Bytes} (hne : digits ≠ []) (hdigits : ∀ b ∈ digits, isDigit b = true) :
    ∀ b ∈ digits.head?, isSpace b = false ∧ b ≠ hyphen ∧ b ≠ plus := by
  intro b hb
  obtain ⟨c, hc, hspace, hminus, hplus⟩ := head_of_digits hne hdigits []
  rw [List.append_nil, hb] at hc
  cases hc
  exact ⟨hspace, hminus, hplus⟩

/-- A number in any spelling is read to its end. -/
lemma SpelledNumber.strtoul {number spaces sign digits : Bytes} (h : SpelledNumber number spaces sign digits) :
    strtoul number = (signedValue sign digits, []) := by
  have hhead := digits_head h.nonempty h.numeric
  have hdrop : number.dropWhile isSpace = sign ++ digits := by
    rw [h.text, List.append_assoc, List.dropWhile_append_of_pos h.blanks]
    apply dropWhile_of_head
    rcases h.signed with rfl | rfl | rfl
    · exact fun b hb => (hhead b hb).1
    · rintro b ⟨⟩
      decide
    · rintro b ⟨⟩
      decide
  have htake : (digits ++ []).takeWhile isDigit = digits ∧ (digits ++ []).dropWhile isDigit = [] :=
    takeWhile_digits h.numeric (by simp)
  rw [List.append_nil] at htake
  rw [Numeral.strtoul, hdrop, signedValue]
  rcases h.signed with rfl | rfl | rfl
  · have hsign : ¬(([] ++ digits).head? = some 0x2D ∨ ([] ++ digits).head? = some 0x2B) := by
      rintro (hb | hb)
      · exact (hhead _ hb).2.1 rfl
      · exact (hhead _ hb).2.2 rfl
    rw [if_neg hsign]
    rw [not_or] at hsign
    simp only [List.nil_append] at hsign ⊢
    simp [htake.1, htake.2, h.nonempty, hsign.1]
  · simp [htake.1, htake.2, h.nonempty]
  · simp [htake.1, htake.2, h.nonempty]

/-- What is read to its end is a number in some spelling. -/
lemma spelled_of_strtoul {number : Bytes} (hne : (strtoul number).2 ≠ number) (hend : (strtoul number).2 = []) :
    ∃ spaces sign digits, SpelledNumber number spaces sign digits := by
  have hsplit := List.takeWhile_append_dropWhile (p := isSpace) (l := number)
  rw [strtoul] at hne hend
  generalize number.dropWhile isSpace = t at hne hend hsplit
  obtain ⟨sign, d, hd, hsign, hif⟩ : ∃ sign d, t = sign ++ d ∧ (sign = [] ∨ sign = [plus] ∨ sign = [hyphen]) ∧
      (if t.head? = some 0x2D ∨ t.head? = some 0x2B then t.tail else t) = d := by
    by_cases hs : t.head? = some 0x2D ∨ t.head? = some 0x2B
    · rw [if_pos hs]
      obtain ⟨b, t', rfl⟩ : ∃ b t', t = b :: t' := by
        cases t with
        | nil => simp at hs
        | cons b t' => exact ⟨b, t', rfl⟩
      refine ⟨[b], t', rfl, ?_, rfl⟩
      rcases hs with hs | hs
      · cases hs
        exact .inr (.inr rfl)
      · cases hs
        exact .inr (.inl rfl)
    · exact ⟨[], t, rfl, .inl rfl, if_neg hs⟩
  simp only [hif] at hne hend
  by_cases hdigits : d.takeWhile isDigit = []
  · rw [if_pos hdigits] at hne
    exact absurd rfl hne
  · rw [if_neg hdigits] at hend
    dsimp only at hend
    have hall := List.takeWhile_append_dropWhile (p := isDigit) (l := d)
    rw [hend, List.append_nil] at hall
    refine ⟨number.takeWhile isSpace, sign, d, ?_, fun b hb => List.mem_takeWhile_imp hb, hsign, ?_, ?_⟩
    · rw [List.append_assoc, ← hd, hsplit]
    · intro b hb
      rw [← hall] at hb
      exact List.mem_takeWhile_imp hb
    · rintro rfl
      exact hdigits rfl

lemma notSpace_of_digit {b : UInt8} (h : isDigit b = true) : isSpace b = false := by
  revert b
  apply forall_byte
  decide +kernel

lemma digitByte_digitValue {b : UInt8} (h : isDigit b = true) : digitByte (digitValue b) = b ∧ digitValue b < 10 := by
  revert b
  apply forall_byte
  decide +kernel

/-- Digits without a leading zero are how their value is written. -/
lemma decimal_digitsValue {digits : Bytes} (hne : digits ≠ []) (hdigits : ∀ b ∈ digits, isDigit b = true)
    (hzero : digits.head? ≠ some 0x30) : decimal (digitsValue digits) = digits := by
  obtain ⟨b, more, rfl⟩ := List.exists_cons_of_ne_nil hne
  have hb := digitByte_digitValue (hdigits b List.mem_cons_self)
  have hb0 : digitValue b ≠ 0 := by
    intro h0
    rw [h0] at hb
    exact hzero (congrArg some hb.1.symm)
  have hds : Nat.digits 10 (digitsValue (b :: more)) = ((b :: more).reverse.map digitValue) := by
    apply Nat.digits_ofDigits 10 (by decide)
    · intro d hd
      obtain ⟨c, hc, rfl⟩ := List.mem_map.mp hd
      exact (digitByte_digitValue (hdigits c (List.mem_reverse.mp hc))).2
    · intro hlast
      simpa using hb0
  have hpos : digitsValue (b :: more) ≠ 0 := by
    intro h0
    rw [h0, Nat.digits_zero] at hds
    simp at hds
  rw [decimal, if_neg hpos, hds, List.map_map, ← List.map_reverse, List.reverse_reverse]
  conv_rhs => rw [← List.map_id (b :: more)]
  exact List.map_congr_left fun c hc => (digitByte_digitValue (hdigits c hc)).1

lemma decimal_head {n : ℕ} (hn : n ≠ 0) : (decimal n).head? ≠ some 0x30 := by
  rw [decimal, if_neg hn, List.head?_reverse, List.getLast?_map]
  intro h
  obtain ⟨d, hd, hbyte⟩ := Option.map_eq_some_iff.mp h
  have hmem := List.mem_of_getLast? hd
  have hd10 : d < 10 := Nat.digits_lt_base (by decide) hmem
  have hd0 : d = 0 := by
    have hval := congrArg digitValue hbyte
    rwa [digitValue_digitByte hd10] at hval
  have hne : Nat.digits 10 n ≠ [] := Nat.digits_ne_nil_iff_ne_zero.mpr hn
  have hlast := Nat.getLast_digit_ne_zero 10 hn
  rw [List.getLast?_eq_some_getLast hne] at hd
  exact hlast ((Option.some.inj hd).trans hd0)

lemma spelled_decimal (n : ℕ) : SpelledNumber (decimal n) [] [] (decimal n) :=
  ⟨rfl, by simp, .inl rfl, fun _ hb => isDigit_of_mem_decimal hb, decimal_ne_nil n⟩

/-- A number has white space and a sign in none but its other spellings. -/
lemma SpelledNumber.of_decimal {n : ℕ} {spaces sign digits : Bytes} (h : SpelledNumber (decimal n) spaces sign digits) :
    spaces = [] ∧ sign = [] ∧ digits = decimal n := by
  have hdigit : ∀ b ∈ spaces ++ sign ++ digits, isDigit b = true := fun b hb => isDigit_of_mem_decimal (h.text ▸ hb)
  have hspaces : spaces = [] := by
    cases hs : spaces with
    | nil => rfl
    | cons b more =>
      have hspace := h.blanks b (hs ▸ List.mem_cons_self)
      have hb := hdigit b (by simp [hs])
      rw [notSpace_of_digit hb] at hspace
      cases hspace
  have hsign : sign = [] := by
    rcases h.signed with hs | hs | hs
    · exact hs
    · exact absurd (hdigit plus (by simp [hs])) (by decide)
    · exact absurd (hdigit hyphen (by simp [hs])) (by decide)
  refine ⟨hspaces, hsign, ?_⟩
  rw [h.text, hspaces, hsign]
  rfl

lemma signedValue_small {digits : Bytes} (h : signedValue [] digits ≤ guestNumberMax) :
    signedValue [] digits = digitsValue digits := by
  rw [signedValue] at h ⊢
  split_ifs at h ⊢ with hmax hsign
  · rw [ulongMax, guestNumberMax] at h
    omega
  · cases hsign
  · rfl

lemma signedValue_digits {digits : Bytes} (h : digitsValue digits ≤ ulongMax) : signedValue [] digits =
    digitsValue digits := by
  rw [signedValue, if_neg (not_lt.mpr h), if_neg (by simp)]

end Numbers

section Slots

variable {guestPrefix : Bytes}

lemma length_of_map_lower {u v : Bytes} (h : u.map lower = v.map lower) : u.length = v.length := by
  simpa using congrArg List.length h

/-- A slot is reported exactly if its number stands behind the prefix, in any spelling. -/
lemma slot_iff (guestPrefix username : Bytes) (slot : ℕ) : guestSlotFromUsername guestPrefix username = some slot ↔
    ∃ pre number spaces sign digits, username = pre ++ number ∧
      pre.map lower = (guestPrefixOr guestPrefix).map lower ∧ SpelledNumber number spaces sign digits ∧
      1 ≤ slot ∧ slot ≤ guestNumberMax ∧ slot = signedValue sign digits := by
  constructor
  · intro h
    rw [guestSlotFromUsername] at h
    dsimp only at h
    split_ifs at h with hlen hpre hnumber
    simp only [not_or, not_not, not_lt] at hnumber hpre
    obtain ⟨hne, hend, hlow, hhigh⟩ := hnumber
    obtain ⟨spaces, sign, digits, hspelled⟩ := spelled_of_strtoul hne hend
    cases h
    refine ⟨_, _, spaces, sign, digits, (List.take_append_drop (guestPrefixOr guestPrefix).length username).symm, hpre,
      hspelled, hlow, hhigh, ?_⟩
    rw [hspelled.strtoul]
  · rintro ⟨pre, number, spaces, sign, digits, rfl, hpre, hspelled, hlow, hhigh, hslot⟩
    have hlen := length_of_map_lower hpre
    have hne : number ≠ [] := by
      rw [hspelled.text]
      simp [hspelled.nonempty]
    have hpos := List.length_pos_iff.mpr hne
    rw [guestSlotFromUsername, ← hlen]
    dsimp only
    rw [if_neg (by rw [List.length_append]; omega), List.take_left, List.drop_left, if_neg (not_not.mpr hpre),
      hspelled.strtoul, ← hslot, if_neg]
    rintro (h | h | h | h)
    · exact hne h.symm
    · exact h rfl
    · exact absurd h (not_lt.mpr hlow)
    · exact absurd h (not_lt.mpr hhigh)

variable {slot : ℕ} (hlow : 1 ≤ slot) (hhigh : slot ≤ guestNumberMax)

include hlow hhigh

lemma fillRecord_username (hstring : 0 ∉ guestPrefix) (hroom : RoomFor guestPrefix slot) (now : Int64)
    (out : UserRecord) :
    (guestFillRecord guestPrefix slot now out).username.text = guestPrefixOr guestPrefix ++ decimal slot := by
  rw [guestFillRecord, dif_pos ⟨hlow, hhigh⟩]
  refine CText.copy_text ?_ hroom
  intro h0
  rcases List.mem_append.mp h0 with h0 | h0
  · rw [guestPrefixOr] at h0
    split_ifs at h0
    · revert h0
      decide
    · exact hstring h0
  · exact absurd (isDigit_of_mem_decimal h0) (by decide)

lemma slot_decimal {pre : Bytes} (hpre : pre.map lower = (guestPrefixOr guestPrefix).map lower) :
    guestSlotFromUsername guestPrefix (pre ++ decimal slot) = some slot := by
  have hvalue : slot = signedValue [] (decimal slot) := by
    rw [signedValue_digits, digitsValue_decimal]
    rw [digitsValue_decimal, ulongMax]
    rw [guestNumberMax] at hhigh
    omega
  exact (slot_iff _ _ _).mpr ⟨pre, _, [], [], _, rfl, hpre, spelled_decimal slot, hlow, hhigh, hvalue⟩

end Slots

lemma roomFor_of_fits {guestPrefix : Bytes} (hroom : RoomFor guestPrefix guestNumberMax) {slot : ℕ}
    (hhigh : slot ≤ guestNumberMax) : RoomFor guestPrefix slot := by
  rw [RoomFor, List.length_append] at hroom ⊢
  have hlen : (decimal slot).length ≤ 2 := decimal_length_le (by decide) (by rw [guestNumberMax] at hhigh; omega)
  have hmax : (decimal guestNumberMax).length = 2 := by decide
  omega

lemma isGuestName_iff {guestPrefix : Bytes} (hstring : 0 ∉ guestPrefix) (hroom : RoomFor guestPrefix guestNumberMax)
    (username : Bytes) : IsGuestName guestPrefix username ↔ ∃ slot pre, 1 ≤ slot ∧ slot ≤ guestNumberMax ∧
      pre.map lower = (guestPrefixOr guestPrefix).map lower ∧ username = pre ++ decimal slot := by
  constructor
  · rintro ⟨slot, now, out, pre, hlow, hhigh, hpre, hlen, rfl⟩
    refine ⟨slot, pre, hlow, hhigh, hpre, ?_⟩
    rw [fillRecord_username hlow hhigh hstring (roomFor_of_fits hroom hhigh), hlen, List.drop_left]
  · rintro ⟨slot, pre, hlow, hhigh, hpre, rfl⟩
    have hlen := length_of_map_lower hpre
    refine ⟨slot, 0, .zero, pre, hlow, hhigh, hpre, hlen, ?_⟩
    rw [fillRecord_username hlow hhigh hstring (roomFor_of_fits hroom hhigh), hlen, List.drop_left]

/-- Every slot is read back from the name that it is given. A name that is no guest's is taken for none exactly if it does
not spell the number of a slot in another way. -/
theorem guest_slot_exact_iff (guestPrefix username : Bytes) (hstring : 0 ∉ guestPrefix) :
    (∀ slot now out, 1 ≤ slot → slot ≤ guestNumberMax → RoomFor guestPrefix slot →
      guestSlotFromUsername guestPrefix (guestFillRecord guestPrefix slot now out).username.text = some slot) ∧
    (RoomFor guestPrefix guestNumberMax →
      ((¬IsGuestName guestPrefix username → guestSlotFromUsername guestPrefix username = none) ↔
        ¬Disguised guestPrefix username)) := by
  constructor
  · intro slot now out hlow hhigh hroom
    rw [fillRecord_username hlow hhigh hstring hroom]
    exact slot_decimal hlow hhigh rfl
  · intro hroom
    rw [isGuestName_iff hstring hroom]
    constructor
    · rintro h ⟨pre, number, spaces, sign, digits, rfl, hpre, hspelled, hlow, hhigh, hother⟩
      have hslot := (slot_iff guestPrefix (pre ++ number) (signedValue sign digits)).mpr
        ⟨pre, number, spaces, sign, digits, rfl, hpre, hspelled, hlow, hhigh, rfl⟩
      have hname := not_imp_comm.mp h (by rw [hslot]; simp)
      obtain ⟨slot, pre', hlow', -, hpre', heq⟩ := hname
      have hlen : pre.length = pre'.length := (length_of_map_lower hpre).trans (length_of_map_lower hpre').symm
      obtain ⟨-, rfl⟩ := List.append_inj heq hlen
      obtain ⟨hspaces, hsign, rfl⟩ := hspelled.of_decimal
      rcases hother with hother | hother | hzero
      · exact hother hspaces
      · exact hother hsign
      · exact decimal_head (by omega) hzero
    · intro h hno
      cases hslot : guestSlotFromUsername guestPrefix username with
      | none => rfl
      | some slot =>
        obtain ⟨pre, number, spaces, sign, digits, rfl, hpre, hspelled, hlow, hhigh, rfl⟩ := (slot_iff _ _ _).mp hslot
        exfalso
        by_cases hplain : spaces ≠ [] ∨ sign ≠ [] ∨ digits.head? = some 0x30
        · exact h ⟨pre, number, spaces, sign, digits, rfl, hpre, hspelled, hlow, hhigh, hplain⟩
        · simp only [not_or, not_not] at hplain
          obtain ⟨rfl, rfl, hzero⟩ := hplain
          have hvalue := signedValue_small hhigh
          refine hno ⟨digitsValue digits, pre, hvalue ▸ hlow, hvalue ▸ hhigh, hpre, ?_⟩
          rw [decimal_digitsValue hspelled.nonempty hspelled.numeric hzero, hspelled.text]
          rfl

/-- With the prefix `Guest` and room for every number. -/
theorem guest_slot_exact_guest :
    guestSlotFromUsername (ofString "Guest") (guestFillRecord (ofString "Guest") 7 0 .zero).username.text = some 7 :=
  (guest_slot_exact_iff (ofString "Guest") (ofString "Guest7") (by decide)).1 7 0 .zero (by decide) (by decide)
    (by decide)

/-- `Guest01`, `Guest+1` and `Guest-18446744073709551615` are no names of guests, and all are taken for the first slot. -/
theorem guest_slot_disguised :
    (∀ name ∈ ["Guest01", "Guest+1", "Guest 1", "Guest-18446744073709551615"],
      guestSlotFromUsername (ofString "Guest") (ofString name) = some 1) ∧
    ¬IsGuestName (ofString "Guest") (ofString "Guest01") ∧ RoomFor (ofString "Guest") guestNumberMax ∧
    ¬(¬IsGuestName (ofString "Guest") (ofString "Guest01") →
      guestSlotFromUsername (ofString "Guest") (ofString "Guest01") = none) := by
  have hroom : RoomFor (ofString "Guest") guestNumberMax := by decide
  have hno : ¬IsGuestName (ofString "Guest") (ofString "Guest01") := by
    rw [isGuestName_iff (by decide) hroom]
    rintro ⟨slot, pre, hlow, -, hpre, heq⟩
    have hlen : pre.length = (ofString "Guest").length := length_of_map_lower hpre
    have hnumber : decimal slot = ofString "01" := by
      have hdrop := congrArg (List.drop pre.length) heq
      rw [List.drop_left, hlen] at hdrop
      exact hdrop.symm
    apply decimal_head (n := slot) (by omega)
    rw [hnumber]
    rfl
  have hslot : ∀ name ∈ ["Guest01", "Guest+1", "Guest 1", "Guest-18446744073709551615"],
      guestSlotFromUsername (ofString "Guest") (ofString name) = some 1 := by decide +kernel
  refine ⟨hslot, hno, hroom, fun h => ?_⟩
  have hnone := h hno
  rw [hslot "Guest01" (by simp)] at hnone
  cases hnone

end HyBBX.Session.GuestNames
