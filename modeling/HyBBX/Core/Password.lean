import HyBBX.Lib.Text

/-! Stored passwords: plain or hashed. The digests themselves come from the crypto backend. -/

namespace HyBBX.Core

open Lib Lib.Bytes Lib.Text

/-- The digests of a plain password, in hexadecimal digits. -/
structure HashBackend where
  sha256Hex : Bytes → Bytes
  md5Hex : Bytes → Bytes

def passwordSha256Prefix : Bytes := ofString "\x7bsha256\x7d"
def passwordMd5Prefix : Bytes := ofString "\x7bmd5\x7d"

def hexStringEq (a b : Bytes) (hexLen : ℕ) : Bool := (a.take hexLen).map lower = (b.take hexLen).map lower

def hexDigit (ch : UInt8) : Bool :=
  (0x30 ≤ ch && ch ≤ 0x39) || (0x61 ≤ ch && ch ≤ 0x66) || (0x41 ≤ ch && ch ≤ 0x46)

def hexStringValid (s : Bytes) (hexLen : ℕ) : Bool := s.length = hexLen && s.all hexDigit

def passwordIsHashed (stored : Bytes) : Bool :=
  if passwordSha256Prefix <+: stored then hexStringValid (stored.drop 8) 64
  else if passwordMd5Prefix <+: stored then hexStringValid (stored.drop 5) 32
  else false

def passwordIsPlain (stored : Bytes) : Bool := stored ≠ [] && !passwordIsHashed stored

def passwordHash (backend : HashBackend) (plain : Bytes) : Bytes := passwordSha256Prefix ++ backend.sha256Hex plain

def passwordMatch (backend : HashBackend) (stored provided : Bytes) : Bool :=
  if provided = [] ∨ stored = [] then false
  else if passwordSha256Prefix <+: stored then hexStringEq (stored.drop 8) (backend.sha256Hex provided) 64
  else if passwordMd5Prefix <+: stored then hexStringEq (stored.drop 5) (backend.md5Hex provided) 32
  else strIeq stored provided

end HyBBX.Core
