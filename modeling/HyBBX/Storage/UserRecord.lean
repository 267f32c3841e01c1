import HyBBX.Core.Password
import HyBBX.Lib.Text
import HyBBX.Lib.Numeral

/-! User records and what the store accepts in a registration. -/

namespace HyBBX.Storage

open HyBBX.Core Lib Lib.Bytes Lib.Text Lib.Numeral

abbrev userNameMax : ℕ := 64
abbrev userNicknameMax : ℕ := 64
abbrev userFullNameMax : ℕ := 128
abbrev userCountryMax : ℕ := 64
abbrev userLocationMax : ℕ := 128
abbrev userEmailMax : ℕ := 128
abbrev userPasswordMax : ℕ := 96

def usersPerFile : ℕ := 50

def usernameMinLen : ℕ := 4
def usernameMaxLen : ℕ := 12
def usernameMaxDigits : ℕ := 4
def passwordMinLen : ℕ := 8
def passwordMaxLen : ℕ := 24

inductive UserLevel
  | sysop
  | admin
  | mod
  | user
  | guest
  deriving DecidableEq, Repr

def userLevelName : UserLevel → Bytes
  | .sysop => ofString "sysop"
  | .admin => ofString "admin"
  | .mod => ofString "mod"
  | .user => ofString "user"
  | .guest => ofString "guest"

def userLevelParse (name : Bytes) : UserLevel :=
  if name = [] then .user
  else if strIeq name (ofString "sysop") then .sysop
  else if strIeq name (ofString "admin") then .admin
  else if strIeq name (ofString "mod") || strIeq name (ofString "moderator") then .mod
  else if strIeq name (ofString "guest") then .guest
  else .user

lemma userLevelParse_name (level : UserLevel) : userLevelParse (userLevelName level) = level := by
  cases level <;> decide

structure UserRecord where
  id : ℕ
  username : CText userNameMax
  nickname : CText userNicknameMax
  level : UserLevel
  active : Bool
  createdAt : Int64
  fullName : CText userFullNameMax
  country : CText userCountryMax
  location : CText userLocationMax
  email : CText userEmailMax
  password : CText userPasswordMax
  lastLoginAt : Int64
  idFits : id < 2 ^ 64
  deriving DecidableEq

lemma word_fits (id : Fin (2 ^ 64)) : id.val < 2 ^ 64 := id.isLt

/-- The record after `memset`. -/
def UserRecord.zero : UserRecord :=
  ⟨0, .empty, .empty, .user, false, 0, .empty, .empty, .empty, .empty, .empty, 0, by decide⟩

/-- `hybbx_username_normalize` on the record. -/
def UserRecord.normalize (u : UserRecord) : UserRecord := { u with username := u.username.lower }

structure UserRegistration where
  username : CText userNameMax
  nickname : CText userNicknameMax
  fullName : CText userFullNameMax
  country : CText userCountryMax
  location : CText userLocationMax
  email : CText userEmailMax
  password : CText userPasswordMax

def isLetter (b : UInt8) : Bool := (0x61 ≤ b && b ≤ 0x7A) || (0x41 ≤ b && b ≤ 0x5A)

abbrev underscore : UInt8 := 0x5F
abbrev hyphen : UInt8 := 0x2D

def nameHasPrefix (username pre : Bytes) : Bool := pre ≠ [] && (username.take pre.length).map lower = pre.map lower

def usernameCharOk (b : UInt8) : Bool := isLetter b || isDigit b || b = underscore || b = hyphen

def authDefaultGuestPrefix : Bytes := ofString "Guest"

def usernameValid (username guestPrefix : Bytes) : Bool :=
  let underscores := username.count underscore
  let hyphens := username.count hyphen
  if username.length < usernameMinLen ∨ usernameMaxLen < username.length then false
  else if ¬username.all usernameCharOk then false
  else if usernameMaxDigits < username.countP isDigit then false
  else if 1 < underscores ∨ 1 < hyphens ∨ 0 < underscores ∧ 0 < hyphens then false
  else if nameHasPrefix username (if guestPrefix = [] then authDefaultGuestPrefix else guestPrefix) then false
  else !([ofString "sysop", ofString "admin", ofString "mod", ofString "guest"].any (strIeq username))

def passwordPlainValid (password : Bytes) : Bool :=
  if password = [] then false
  else if strIeq password (ofString "-") then false
  else passwordMinLen ≤ password.length && password.length ≤ passwordMaxLen

def profileTextCharOk (b : UInt8) : Bool :=
  isLetter b || isDigit b || b = blank || b = hyphen || b = 0x27 || b = 0x2E || b = 0x2C

def profileTextValid (text : Bytes) (minLen maxLen : ℕ) : Bool :=
  minLen ≤ text.length && text.length < maxLen && text.all profileTextCharOk

def emailCharOk (b : UInt8) : Bool :=
  isLetter b || isDigit b || b = 0x40 || b = 0x2E || b = hyphen || b = underscore || b = 0x2B

/-- Something in front of the first `@`, something behind it, and in there a `.` with something behind it. -/
def emailValid (email : Bytes) : Bool :=
  let domain := (email.dropWhile (· ≠ 0x40)).tail
  if email.length < 5 ∨ userEmailMax ≤ email.length then false
  else if 0x40 ∉ email ∨ email.head? = some 0x40 ∨ domain = [] then false
  else if 0x2E ∉ domain ∨ (domain.dropWhile (· ≠ 0x2E)).tail = [] then false
  else email.all emailCharOk

def profileValid (fullName country location email : Bytes) : Bool :=
  profileTextValid fullName 2 userFullNameMax && profileTextValid country 2 userCountryMax &&
    profileTextValid location 2 userLocationMax && emailValid email

def userProfileValid (reg : UserRegistration) : Bool :=
  profileValid reg.fullName.text reg.country.text reg.location.text reg.email.text

def registrationValid (reg : UserRegistration) (guestPrefix : Bytes) : Bool :=
  usernameValid reg.username.text guestPrefix && usernameValid reg.nickname.text guestPrefix && userProfileValid reg

end HyBBX.Storage
