import HyBBX.Circuit.LinkAuth

/-! What the parser reads from a formatted LINK_AUTH payload. -/

namespace HyBBX.Circuit

open HyBBX.Core Lib Lib.Bytes Lib.Text Lib.Numeral

/-- A string on one line that fits an array of `size` bytes. -/
def FieldText (size : ℕ) (s : Bytes) : Prop := cr ∉ s ∧ nl ∉ s ∧ 0 ∉ s ∧ s.length < size

instance (size : ℕ) (s : Bytes) : Decidable (FieldText size s) :=
  inferInstanceAs (Decidable (cr ∉ s ∧ nl ∉ s ∧ 0 ∉ s ∧ s.length < size))

namespace LinkAuth

/-- Every field holds what its C type can, on one line, and the three that are always sent are not empty. -/
structure Fits (auth : LinkAuth) : Prop where
  password : FieldText 128 auth.password ∧ auth.password ≠ []
  role : FieldText linkRoleMax auth.role ∧ auth.role ≠ []
  id : FieldText linkIdMax auth.id ∧ auth.id ≠ []
  baud : auth.baud < 2 ^ 32
  duplex : auth.duplex ≤ 2
  bandwidth : FieldText 16 auth.bandwidth
  frequencyMhz : FieldText 16 auth.frequencyMhz

def trimBlanks (s : Bytes) : Bytes := s.rdropWhile (· = blank)

/-- The record without the blanks at the end of its texts. -/
def trimmed (auth : LinkAuth) : LinkAuth := { auth with
  password := trimBlanks auth.password
  role := trimBlanks auth.role
  id := trimBlanks auth.id
  bandwidth := trimBlanks auth.bandwidth
  frequencyMhz := trimBlanks auth.frequencyMhz }

def optionalField (sent : Prop) [Decidable sent] (field : String × Bytes) : List (String × Bytes) :=
  if sent then [field] else []

/-- The lines of a payload, in the order in which the formatter writes them. -/
def fields (auth : LinkAuth) : List (String × Bytes) :=
  [("password", auth.password), ("role", auth.role), ("id", auth.id)] ++
    (optionalField (0 < auth.baud) ("baud", decimal auth.baud) ++
    (optionalField (auth.duplex ≠ 0) ("duplex", ofString (if auth.duplex = 1 then "half" else "full")) ++
    (optionalField (auth.bandwidth ≠ []) ("bandwidth", auth.bandwidth) ++
    optionalField (auth.frequencyMhz ≠ []) ("frequency_mhz", auth.frequencyMhz))))

end LinkAuth

open LinkAuth

section Lines

lemma FieldText.mono {size size' : ℕ} {s : Bytes} (h : FieldText size s) (hsize : size ≤ size') : FieldText size' s :=
  ⟨h.1, h.2.1, h.2.2.1, h.2.2.2.trans_le hsize⟩

lemma rdropWhile_isTrailing {size : ℕ} {s : Bytes} (h : FieldText size s) : s.rdropWhile isTrailing = trimBlanks s := by
  obtain ⟨hcr, hnl, -, -⟩ := h
  induction s using List.reverseRecOn with
  | nil => rfl
  | append_singleton s b ih =>
    have hb : isTrailing b = decide (b = blank) := by
      have h1 : b ≠ cr := fun hb => hcr (hb ▸ List.mem_append_right s List.mem_cons_self)
      have h2 : b ≠ nl := fun hb => hnl (hb ▸ List.mem_append_right s List.mem_cons_self)
      simp [isTrailing, h1, h2]
    rw [trimBlanks, List.rdropWhile_concat, List.rdropWhile_concat, hb]
    rw [ih (fun h => hcr (List.mem_append_left _ h)) (fun h => hnl (List.mem_append_left _ h)), trimBlanks]

lemma trimBlanks_le (s : Bytes) : trimBlanks s <+: s := List.rdropWhile_prefix _ s

lemma strlcpy_trimBlanks {size : ℕ} {s : Bytes} (h : s.length < size) : strlcpy size (trimBlanks s) = trimBlanks s :=
  strlcpy_of_fits ((trimBlanks_le s).length_le.trans_lt h)

lemma kvLine_text {key s : Bytes} (hk : equals ∉ key) (h : FieldText linkAuthScratch s) :
    kvLine key linkAuthScratch (key ++ equals :: s) = some (trimBlanks s) := by
  have hlen := (trimBlanks_le s).length_le.trans_lt h.2.2.2
  have hzero : 0 ∉ trimBlanks s := fun hmem => h.2.2.1 ((trimBlanks_le s).subset hmem)
  rw [kvLine, if_pos ⟨by simp, takeWhile_equals hk s⟩, dropWhile_equals hk, List.tail_cons, rdropWhile_isTrailing h]
  rw [List.take_of_length_le (by omega), cstr_of_notMem hzero]

def PlainKey (key : String) : Prop := equals ∉ ofString key ∧ nl ∉ ofString key

instance (key : String) : Decidable (PlainKey key) :=
  inferInstanceAs (Decidable (equals ∉ ofString key ∧ nl ∉ ofString key))

/-- Of the lines with a key, the first one counts. -/
def fieldValue (fs : List (String × Bytes)) (key : String) : Option Bytes :=
  (fs.find? fun f => ofString f.1 = ofString key).map fun f => trimBlanks f.2

lemma findKvLine_fields (fs : List (String × Bytes)) (h : ∀ f ∈ fs, PlainKey f.1 ∧ FieldText linkAuthScratch f.2)
    (key : String) :
    findKvLine (fs.flatMap fun f => kv f.1 f.2) (ofString key) linkAuthScratch = fieldValue fs key := by
  simp only [fieldValue]
  induction fs with
  | nil => rfl
  | cons f fs ih =>
    obtain ⟨hkey, htext⟩ := h f List.mem_cons_self
    have hline : kv f.1 f.2 ++ fs.flatMap (fun f => kv f.1 f.2) =
        (ofString f.1 ++ equals :: f.2) ++ nl :: fs.flatMap (fun f => kv f.1 f.2) := by
      rw [kv, List.append_assoc _ [nl]]
      rfl
    rw [List.flatMap_cons, hline, findKvLine, lines_append_nl (nl_notMem_kv hkey.2 htext.2.1), List.findSome?_cons]
    by_cases heq : ofString f.1 = ofString key
    · rw [List.find?_cons_of_pos (by simpa using heq), ← heq, kvLine_text hkey.1 htext]
      rfl
    · rw [List.find?_cons_of_neg (by simpa using heq), kvLine_skip hkey.1 heq]
      exact ih fun g hg => h g (List.mem_cons_of_mem f hg)

end Lines

section Format

lemma snappend_some {cap : ℕ} {acc piece out : Bytes} (h : snappend cap acc piece = some out) : out = acc ++ piece := by
  rw [snappend] at h
  split_ifs at h
  exact (Option.some.inj h).symm

lemma snappend_optional {sent : Prop} [Decidable sent] {cap : ℕ} {acc out : Bytes} {field : String × Bytes}
    (h : (if sent then snappend cap acc (kv field.1 field.2) else some acc) = some out) :
    out = acc ++ (optionalField sent field).flatMap fun f => kv f.1 f.2 := by
  rw [optionalField]
  split_ifs at h ⊢ with hsent
  · rw [snappend_some h, List.flatMap_singleton]
  · rw [← Option.some.inj h, List.flatMap_nil, List.append_nil]

lemma bind_ite {sent : Prop} [Decidable sent] (a b : Option Bytes) (f : Bytes → Option Bytes) :
    (if sent then a.bind f else b.bind f) = (if sent then a else b).bind f := by
  split_ifs <;> rfl

lemma linkAuthFormat_fields {auth : LinkAuth} (h : auth.Fits) {cap : ℕ} {out : Bytes}
    (hout : linkAuthFormat auth cap = some out) :
    out = auth.fields.flatMap fun f => kv f.1 f.2 := by
  rw [linkAuthFormat] at hout
  by_cases hno : cap = 0 ∨ auth.password = [] ∨ auth.id = []
  · rw [if_pos hno] at hout
    cases hout
  rw [if_neg hno] at hout
  obtain ⟨head, hhead, hout⟩ := Option.bind_eq_some_iff.mp hout
  obtain ⟨withBaud, hbaud, hout⟩ := Option.bind_eq_some_iff.mp ((bind_ite _ _ _).symm.trans hout)
  dsimp only at hout
  simp only [Option.bind_eq_bind, bind_ite] at hout
  obtain ⟨withDuplex, hduplex, hout⟩ := Option.bind_eq_some_iff.mp hout
  obtain ⟨withBandwidth, hbandwidth, hfrequency⟩ := Option.bind_eq_some_iff.mp hout
  have hline : (if auth.duplex ≠ 0 then
      snappend cap withBaud (kv "duplex" (ofString (if auth.duplex = 1 then "half" else "full"))) else some withBaud) =
        some withDuplex := by
    have hcases : auth.duplex = 0 ∨ auth.duplex = 1 ∨ auth.duplex = 2 := by
      have := h.duplex
      omega
    rcases hcases with h0 | h1 | h2
    · rw [h0] at hduplex ⊢
      exact hduplex
    · rw [h1] at hduplex ⊢
      exact hduplex
    · rw [h2] at hduplex ⊢
      exact hduplex
  rw [@snappend_optional _ _ cap _ _ ("frequency_mhz", auth.frequencyMhz) hfrequency]
  rw [@snappend_optional _ _ cap _ _ ("bandwidth", auth.bandwidth) hbandwidth]
  rw [@snappend_optional _ _ cap _ _ ("duplex", ofString (if auth.duplex = 1 then "half" else "full")) hline]
  rw [@snappend_optional _ _ cap _ _ ("baud", decimal auth.baud) hbaud]
  rw [snappend_some hhead, if_pos h.role.2, fields]
  simp only [List.flatMap_append, List.flatMap_cons, List.flatMap_nil, List.nil_append, List.append_nil,
    List.append_assoc]

end Format

section Parse

lemma decimal_text {n : ℕ} (h : n < 2 ^ 32) : FieldText linkAuthScratch (decimal n) := by
  have hmem : ∀ b : UInt8, isDigit b = false → b ∉ decimal n := by
    intro b hb hmem
    exact absurd (hb.symm.trans (isDigit_of_mem_decimal hmem)) Bool.false_ne_true
  have hlen := @decimal_length_le n 10 (by decide) (by omega)
  refine ⟨hmem cr (by decide), hmem nl (by decide), hmem 0 (by decide), ?_⟩
  rw [linkAuthScratch]
  omega

lemma optionalField_mem {sent : Prop} [Decidable sent] {field f : String × Bytes}
    (h : f ∈ optionalField sent field) : f = field := by
  rw [optionalField] at h
  split_ifs at h
  · exact List.mem_singleton.mp h
  · cases h

lemma plainKey_sent (key : String)
    (h : key ∈ ["password", "role", "id", "baud", "duplex", "bandwidth", "frequency_mhz"]) : PlainKey key := by
  revert key
  decide

lemma fields_text {auth : LinkAuth} (h : auth.Fits) : ∀ f ∈ auth.fields, PlainKey f.1 ∧
    FieldText linkAuthScratch f.2 := by
  intro f hf
  simp only [fields, List.mem_append, List.mem_cons, List.not_mem_nil, or_false] at hf
  rcases hf with (rfl | rfl | rfl) | hf | hf | hf | hf
  · exact ⟨plainKey_sent "password" (by decide), h.password.1⟩
  · exact ⟨plainKey_sent "role" (by decide), h.role.1.mono (by decide)⟩
  · exact ⟨plainKey_sent "id" (by decide), h.id.1.mono (by decide)⟩
  · rw [optionalField_mem hf]
    exact ⟨plainKey_sent "baud" (by decide), decimal_text h.baud⟩
  · rw [optionalField_mem hf]
    refine ⟨plainKey_sent "duplex" (by decide), ?_⟩
    dsimp only
    split_ifs <;> decide
  · rw [optionalField_mem hf]
    exact ⟨plainKey_sent "bandwidth" (by decide), h.bandwidth.mono (by decide)⟩
  · rw [optionalField_mem hf]
    exact ⟨plainKey_sent "frequency_mhz" (by decide), h.frequencyMhz.mono (by decide)⟩

lemma fieldValue_optional (sent : Prop) [Decidable sent] (field : String × Bytes) (key : String) :
    fieldValue (optionalField sent field) key =
      if sent ∧ ofString field.1 = ofString key then some (trimBlanks field.2) else none := by
  rw [optionalField]
  by_cases hsent : sent
  · by_cases hkey : ofString field.1 = ofString key <;> simp [fieldValue, hsent, hkey]
  · simp [fieldValue, hsent]

lemma fieldValue_append (fs gs : List (String × Bytes)) (key : String) :
    fieldValue (fs ++ gs) key = (fieldValue fs key).or (fieldValue gs key) := by
  rw [fieldValue, List.find?_append, fieldValue, fieldValue, Option.map_or]

lemma fieldValue_cons (field : String × Bytes) (fs : List (String × Bytes)) (key : String) :
    fieldValue (field :: fs) key =
      if ofString field.1 = ofString key then some (trimBlanks field.2) else fieldValue fs key := by
  by_cases hkey : ofString field.1 = ofString key <;> simp [fieldValue, hkey]

lemma fieldValue_sent (auth : LinkAuth) : fieldValue auth.fields "password" = some (trimBlanks auth.password) ∧
    fieldValue auth.fields "role" = some (trimBlanks auth.role) ∧
      fieldValue auth.fields "id" = some (trimBlanks auth.id) := by
  simp [fields, fieldValue_cons, ofString]

lemma fieldValue_unsent (auth : LinkAuth) :
    fieldValue auth.fields "baud" = (if 0 < auth.baud then some (trimBlanks (decimal auth.baud)) else none) ∧
      fieldValue auth.fields "bandwidth" = (if auth.bandwidth ≠ [] then some (trimBlanks auth.bandwidth) else none) ∧
      fieldValue auth.fields "frequency_mhz" =
        (if auth.frequencyMhz ≠ [] then some (trimBlanks auth.frequencyMhz) else none) ∧
      fieldValue auth.fields "frequency" = none := by
  simp [fields, fieldValue_cons, fieldValue_append, fieldValue_optional, ofString]

lemma fieldValue_duplex (auth : LinkAuth) : fieldValue auth.fields "duplex" =
    if auth.duplex ≠ 0 then some (trimBlanks (ofString (if auth.duplex = 1 then "half" else "full"))) else none := by
  simp [fields, fieldValue_cons, fieldValue_append, fieldValue_optional, ofString]

lemma baud_read {n : ℕ} (h : n < 2 ^ 32) :
    (match (if 0 < n then some (trimBlanks (decimal n)) else none) with
      | some s => (strtoul s).1 % 2 ^ 32
      | none => 0) = n := by
  by_cases hpos : 0 < n
  · have hlast : ∀ b ∈ (decimal n).getLast?, (b = blank : Bool) = false := by
      intro b hb
      have hdigit := isDigit_of_mem_decimal (List.mem_of_getLast? hb)
      refine decide_eq_false ?_
      rintro rfl
      exact absurd hdigit (by decide)
    have hread := strtoul_decimal (h.trans (by decide)) [] (by simp)
    rw [List.append_nil] at hread
    rw [if_pos hpos, trimBlanks, rdropWhile_of_last hlast]
    dsimp only
    rw [hread]
    exact Nat.mod_eq_of_lt h
  · rw [if_neg hpos]
    exact (Nat.eq_zero_of_not_pos hpos).symm

lemma duplex_read {n : ℕ} (h : n ≤ 2) :
    (match (if n ≠ 0 then some (trimBlanks (ofString (if n = 1 then "half" else "full"))) else none) with
      | some s => duplexOf s
      | none => 0) = n := by
  have hcases : n = 0 ∨ n = 1 ∨ n = 2 := by omega
  rcases hcases with rfl | rfl | rfl <;> decide

lemma optional_read {size : ℕ} {s : Bytes} (h : s.length < size) :
    strlcpy size ((if s ≠ [] then some (trimBlanks s) else none).getD []) = trimBlanks s := by
  by_cases hs : s = []
  · rw [if_neg (not_not.mpr hs), hs]
    exact List.take_nil
  · rw [if_pos hs]
    exact strlcpy_trimBlanks h

lemma linkAuthParse_fields {auth : LinkAuth} (h : auth.Fits) :
    linkAuthParse (auth.fields.flatMap fun f => kv f.1 f.2) = some auth.trimmed := by
  have hfind := findKvLine_fields auth.fields (fields_text h)
  obtain ⟨hpassword, hrole, hid⟩ := fieldValue_sent auth
  obtain ⟨hbaud, hbandwidth, hfrequency, hold⟩ := fieldValue_unsent auth
  simp only [linkAuthParse, hfind, hpassword, hrole, hid, hbaud, hbandwidth, hfrequency, hold,
    fieldValue_duplex, trimmed,
    Option.bind_eq_bind, Option.bind_some, Option.or_none, Option.getD_some, Option.some.injEq, LinkAuth.mk.injEq]
  exact ⟨strlcpy_trimBlanks h.password.1.2.2.2, strlcpy_trimBlanks h.role.1.2.2.2, strlcpy_trimBlanks h.id.1.2.2.2,
    baud_read h.baud, duplex_read h.duplex, optional_read h.bandwidth.2.2.2, optional_read h.frequencyMhz.2.2.2⟩

end Parse

/-- What the formatter writes is read back, but for the blanks at the end of a text. -/
theorem link_auth_round_trip (auth : LinkAuth) (outCap : ℕ) (h : auth.Fits) :
    linkAuthFormat auth outCap = none ∨
      ∃ out, linkAuthFormat auth outCap = some out ∧ linkAuthParse out = some auth.trimmed := by
  cases hout : linkAuthFormat auth outCap with
  | none => exact .inl rfl
  | some out =>
    refine .inr ⟨out, rfl, ?_⟩
    rw [linkAuthFormat_fields h hout]
    exact linkAuthParse_fields h

def paddedAuth : LinkAuth := ⟨ofString " id=secret ", ofString "link", ofString "hub", 9600, 1, ofString "low", []⟩

lemma paddedAuth_fits : paddedAuth.Fits :=
  ⟨by decide, by decide, by decide, by decide, by decide, by decide, by decide⟩

theorem link_auth_round_trip_padded : linkAuthFormat paddedAuth 128 = none ∨
    ∃ out, linkAuthFormat paddedAuth 128 = some out ∧ linkAuthParse out = some paddedAuth.trimmed :=
  link_auth_round_trip paddedAuth 128 paddedAuth_fits

/-- The blank behind the password is lost. -/
theorem link_auth_trailing_blank : ¬∀ (auth : LinkAuth) (outCap : ℕ), auth.Fits →
    linkAuthFormat auth outCap = none ∨ ∃ out, linkAuthFormat auth outCap = some out ∧
      linkAuthParse out = some auth := by
  intro hall
  have hlost : (linkAuthFormat paddedAuth 128).bind linkAuthParse =
      some { paddedAuth with password := ofString " id=secret" } := by
    decide +kernel
  rcases hall paddedAuth 128 paddedAuth_fits with hnone | ⟨out, hout, hparse⟩
  · rw [hnone] at hlost
    cases hlost
  · rw [hout, Option.bind_some, hparse] at hlost
    exact absurd hlost (by decide)

end HyBBX.Circuit
