import HyBBX.Lib.Bytes

/-! The base 64 encoding of RFC 4648, with padding. -/

namespace HyBBX.Lib.Base64

open Bytes

def alphabet : Bytes := ofString "ABCDEFGHIJKLMNOPQRSTUVWXYZabcdefghijklmnopqrstuvwxyz0123456789+/"

abbrev pad : UInt8 := 0x3D

def digit (v : ℕ) : UInt8 := alphabet.getD v 0

def value (c : UInt8) : Option ℕ := alphabet.idxOf? c

def encode : Bytes → Bytes
  | [] => []
  | [a] => [digit (a.toNat / 4), digit (a.toNat % 4 * 16), pad, pad]
  | [a, b] => [digit (a.toNat / 4), digit (a.toNat % 4 * 16 + b.toNat / 16), digit (b.toNat % 16 * 4), pad]
  | a :: b :: c :: rest =>
    digit (a.toNat / 4) :: digit (a.toNat % 4 * 16 + b.toNat / 16) :: digit (b.toNat % 16 * 4 + c.toNat / 64) ::
      digit (c.toNat % 64) :: encode rest

/-- The three bytes of four digits. -/
def bytesOf (w x y z : ℕ) : Bytes :=
  [UInt8.ofNat (w * 4 + x / 16), UInt8.ofNat (x % 16 * 16 + y / 4), UInt8.ofNat (y % 4 * 64 + z)]

/-- Padding ends the text, and the bits that it stands for are zeros. -/
def decode : Bytes → Option Bytes
  | [] => some []
  | a :: b :: c :: d :: rest => do
    let w ← value a
    let x ← value b
    if c = pad ∧ d = pad ∧ rest = [] then
      if x % 16 = 0 then some ((bytesOf w x 0 0).take 1) else none
    else
      let y ← value c
      if d = pad ∧ rest = [] then
        if y % 4 = 0 then some ((bytesOf w x y 0).take 2) else none
      else
        let z ← value d
        let more ← decode rest
        some (bytesOf w x y z ++ more)
  | _ => none

lemma value_digit {v : ℕ} (hv : v < 64) : value (digit v) = some v := by
  have hall : ∀ v < 64, value (digit v) = some v := by decide +kernel
  exact hall v hv

lemma digit_ne_pad {v : ℕ} (hv : v < 64) : digit v ≠ pad := by
  have hall : ∀ v < 64, digit v ≠ pad := by decide +kernel
  exact hall v hv

lemma ofNat_bits {b : UInt8} {n : ℕ} (h : n = b.toNat) : UInt8.ofNat n = b := by
  rw [h, UInt8.ofNat_toNat]

/-- The four digits of three bytes give the bytes back. -/
lemma bytesOf_digits (a b c : UInt8) : bytesOf (a.toNat / 4) (a.toNat % 4 * 16 + b.toNat / 16)
    (b.toNat % 16 * 4 + c.toNat / 64) (c.toNat % 64) = [a, b, c] := by
  have hb := b.toNat_lt
  have hc := c.toNat_lt
  have hfirst : UInt8.ofNat (a.toNat / 4 * 4 + (a.toNat % 4 * 16 + b.toNat / 16) / 16) = a := ofNat_bits (by omega)
  have hsecond :
      UInt8.ofNat ((a.toNat % 4 * 16 + b.toNat / 16) % 16 * 16 + (b.toNat % 16 * 4 + c.toNat / 64) / 4) = b :=
    ofNat_bits (by omega)
  have hthird : UInt8.ofNat ((b.toNat % 16 * 4 + c.toNat / 64) % 4 * 64 + c.toNat % 64) = c := ofNat_bits (by omega)
  rw [bytesOf, hfirst, hsecond, hthird]

lemma decode_encode (bytes : Bytes) : decode (encode bytes) = some bytes := by
  induction bytes using encode.induct with
  | case1 => rfl
  | case2 a =>
    have ha := a.toNat_lt
    have hbytes := bytesOf_digits a 0 0
    rw [show (0 : UInt8).toNat = 0 from rfl, Nat.zero_div, Nat.zero_mod, Nat.zero_mul, Nat.add_zero,
      Nat.add_zero] at hbytes
    rw [encode, decode, value_digit (by omega), value_digit (by omega), Option.bind_eq_bind, Option.bind_some,
      Option.bind_eq_bind, Option.bind_some, if_pos ⟨rfl, rfl, rfl⟩, if_pos (by omega), hbytes]
    rfl
  | case3 a b =>
    have ha := a.toNat_lt
    have hb := b.toNat_lt
    have hbytes := bytesOf_digits a b 0
    rw [show (0 : UInt8).toNat = 0 from rfl, Nat.zero_div, Nat.zero_mod, Nat.add_zero] at hbytes
    rw [encode, decode, value_digit (by omega), value_digit (by omega), Option.bind_eq_bind, Option.bind_some,
      Option.bind_eq_bind, Option.bind_some, if_neg (fun h => digit_ne_pad (by omega) h.1), value_digit (by omega),
      Option.bind_some, if_pos ⟨rfl, rfl⟩, if_pos (by omega), hbytes]
    rfl
  | case4 a b c rest ih =>
    have ha := a.toNat_lt
    have hb := b.toNat_lt
    have hc := c.toNat_lt
    rw [encode, decode, value_digit (by omega), value_digit (by omega), Option.bind_eq_bind, Option.bind_some,
      Option.bind_eq_bind, Option.bind_some, if_neg (fun h => digit_ne_pad (by omega) h.1), value_digit (by omega),
      Option.bind_some, if_neg (fun h => digit_ne_pad (by omega) h.1), value_digit (by omega),
      Option.bind_some, ih, Option.bind_some, bytesOf_digits]
    rfl

end HyBBX.Lib.Base64
