import HyBBX.Lib.Bytes

/-! Text in UTF-8: the bytes of a character, and where a text may be cut. -/

namespace HyBBX.Lib.Utf8

open Bytes

def encode (cs : List Char) : Bytes := cs.flatMap String.utf8EncodeChar

def IsContinuation (b : UInt8) : Prop := b &&& 0xC0 = 0x80

/-- How long a character is that begins with the byte; zero for a byte that begins none. -/
def leadSize (b : UInt8) : ℕ :=
  if b < 0x80 then 1 else if b &&& 0xE0 = 0xC0 then 2 else if b &&& 0xF0 = 0xE0 then 3
  else if b &&& 0xF8 = 0xF0 then 4 else 0

lemma encode_append (cs ds : List Char) : encode (cs ++ ds) = encode cs ++ encode ds := List.flatMap_append

lemma isContinuation_ofNat (n : ℕ) : IsContinuation (UInt8.ofNat (n % 0x40 + 0x80)) := by
  have hall : ∀ m < 0x40, UInt8.ofNat (m + 0x80) &&& 0xC0 = 0x80 := by decide +kernel
  exact hall _ (Nat.mod_lt _ (by decide))

/-- The first byte says how many others follow. -/
lemma utf8EncodeChar_shape (c : Char) : ∃ lead more, String.utf8EncodeChar c = lead :: more ∧
    leadSize lead = more.length + 1 ∧ ∀ b ∈ more, IsContinuation b := by
  have hone : ∀ m < 0x80, leadSize (UInt8.ofNat m) = 1 := by decide +kernel
  have htwo : ∀ m < 0x20, leadSize (UInt8.ofNat (m + 0xC0)) = 2 := by decide +kernel
  have hthree : ∀ m < 0x10, leadSize (UInt8.ofNat (m + 0xE0)) = 3 := by decide +kernel
  have hfour : ∀ m < 0x08, leadSize (UInt8.ofNat (m + 0xF0)) = 4 := by decide +kernel
  have hmore : ∀ ns : List ℕ, ∀ b ∈ ns.map fun n => UInt8.ofNat (n % 0x40 + 0x80), IsContinuation b := by
    intro ns b hb
    obtain ⟨n, -, rfl⟩ := List.mem_map.mp hb
    exact isContinuation_ofNat n
  rw [String.utf8EncodeChar]
  split_ifs with h1 h2 h3
  · exact ⟨_, _, rfl, hone _ (Nat.lt_succ_of_le h1), hmore []⟩
  · exact ⟨_, _, rfl, htwo _ (Nat.mod_lt _ (by decide)), hmore [_]⟩
  · exact ⟨_, _, rfl, hthree _ (Nat.mod_lt _ (by decide)), hmore [_, _]⟩
  · exact ⟨_, _, rfl, hfour _ (Nat.mod_lt _ (by decide)), hmore [_, _, _]⟩

/-- The start of a character that is not all of it. -/
def Partial (part : Bytes) : Prop := part ≠ [] ∧ ∃ c more, more ≠ [] ∧ String.utf8EncodeChar c = part ++ more

/-- The start of a text is whole characters, and perhaps the start of the next one. -/
lemma cut_encode {cs : List Char} {text : Bytes} (h : text <+: encode cs) :
    ∃ ds es part, cs = ds ++ es ∧ text = encode ds ++ part ∧ (part = [] ∨ Partial part) := by
  induction cs generalizing text with
  | nil =>
    obtain rfl : text = [] := List.prefix_nil.mp h
    exact ⟨[], [], [], rfl, rfl, Or.inl rfl⟩
  | cons c cs ih =>
    rw [encode, List.flatMap_cons] at h
    by_cases hshort : text.length < (String.utf8EncodeChar c).length
    · obtain ⟨more, hmore⟩ := List.prefix_of_prefix_length_le h (List.prefix_append _ _) hshort.le
      refine ⟨[], c :: cs, text, rfl, rfl, ?_⟩
      by_cases hnil : text = []
      · exact Or.inl hnil
      · refine Or.inr ⟨hnil, c, more, fun he => ?_, hmore.symm⟩
        rw [← hmore, he, List.append_nil] at hshort
        exact lt_irrefl _ hshort
    · obtain ⟨rest, rfl⟩ := List.prefix_of_prefix_length_le (List.prefix_append _ _) h (not_lt.mp hshort)
      obtain ⟨ds, es, part, rfl, rfl, hpart⟩ := ih ((List.prefix_append_right_inj _).mp h)
      refine ⟨c :: ds, es, part, rfl, ?_, hpart⟩
      rw [encode, encode, List.flatMap_cons, List.append_assoc]

end HyBBX.Lib.Utf8
