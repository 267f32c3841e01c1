import Mathlib.Data.List.DropRight
import Mathlib.Data.List.TakeWhile
import Mathlib.Tactic

/-! Bytes, NUL-terminated strings and the big-endian integers of wire headers. -/

namespace HyBBX.Lib

abbrev Bytes := List UInt8

instance lawfulBytes : LawfulBEq Bytes := inferInstance

namespace Bytes

/-- The bytes of an ASCII literal. -/
def ofString (s : String) : Bytes := s.toList.map fun c => c.toNat.toUInt8

/-- A literal goes over to its characters; evaluating it directly takes longer with every one of them. -/
lemma ofString_ofList (cs : List Char) : ofString (String.ofList cs) = cs.map fun c => c.toNat.toUInt8 := by
  rw [ofString, String.toList_ofList]

lemma ofString_append (s t : String) : ofString (s ++ t) = ofString s ++ ofString t := by
  rw [ofString, String.toList_append, List.map_append, ofString, ofString]

/-- What a reader of a NUL-terminated string sees of a buffer. -/
def cstr (b : Bytes) : Bytes := b.takeWhile (· ≠ 0)

def readBe16 (a b : UInt8) : UInt16 := UInt16.ofNat (a.toNat * 2 ^ 8 + b.toNat)

def readBe32 (a b c d : UInt8) : ℕ :=
  a.toNat * 2 ^ 24 + b.toNat * 2 ^ 16 + c.toNat * 2 ^ 8 + d.toNat

def byteAt (v k : ℕ) : UInt8 := UInt8.ofNat (v / 2 ^ k % 256)

lemma byteAt_toNat (v k : ℕ) : (byteAt v k).toNat = v / 2 ^ k % 256 := by
  simp [byteAt]

lemma readBe16_byteAt (v : UInt16) : readBe16 (byteAt v.toNat 8) (byteAt v.toNat 0) = v := by
  have hv := v.toNat_lt
  have hh : v.toNat / 2 ^ 8 % 256 * 2 ^ 8 + v.toNat / 2 ^ 0 % 256 = v.toNat := by omega
  rw [readBe16, byteAt_toNat, byteAt_toNat, hh]
  exact UInt16.ofNat_toNat

lemma readBe32_byteAt (v : ℕ) (hv : v < 2 ^ 32) :
    readBe32 (byteAt v 24) (byteAt v 16) (byteAt v 8) (byteAt v 0) = v := by
  simp only [readBe32, byteAt_toNat]
  omega

/-- A property of bytes that all 256 have. -/
lemma forall_byte {p : UInt8 → Prop} (h : ∀ n : Fin 256, p (UInt8.ofFin n)) (b : UInt8) : p b := h b.toFin

lemma cstr_of_notMem {b : Bytes} (h : 0 ∉ b) : cstr b = b := by
  rw [cstr, List.takeWhile_eq_self_iff]
  intro x hx
  simpa using fun h0 : x = 0 => h (h0 ▸ hx)

lemma zero_notMem_cstr (b : Bytes) : 0 ∉ cstr b := by
  intro h
  simpa using (List.mem_takeWhile_imp h)

end Bytes

end HyBBX.Lib
