import HyBBX.Config.SaveLoad
import HyBBX.Config.Values
import HyBBX.Storage.UserRecord

/-! A file of user accounts: how a shard is written and loaded. -/

namespace HyBBX.Storage

open HyBBX.Core HyBBX.Config Lib Lib.Bytes Lib.Text Lib.Numeral Lib.LineReader

def userIniSectionPrefix : Bytes := ofString "user."

def userSection (id : ℕ) : Bytes := userIniSectionPrefix ++ decimal id

structure UserShard where
  users : List UserRecord
  fits : users.length ≤ usersPerFile

lemma append_fits {s : UserShard} (u : UserRecord) (room : s.users.length < usersPerFile) :
    (s.users ++ [u]).length ≤ usersPerFile := by
  rw [List.length_append]
  exact room

def UserShard.empty : UserShard := ⟨[], by decide⟩

inductive UserField
  | id
  | username
  | nickname
  | level
  | active
  | created
  | fullname
  | country
  | location
  | email
  | password
  | lastLogin
  deriving DecidableEq

def UserField.key : UserField → Bytes
  | .id => ofString "id"
  | .username => ofString "username"
  | .nickname => ofString "nickname"
  | .level => ofString "level"
  | .active => ofString "active"
  | .created => ofString "created"
  | .fullname => ofString "fullname"
  | .country => ofString "country"
  | .location => ofString "location"
  | .email => ofString "email"
  | .password => ofString "password"
  | .lastLogin => ofString "last_login"

def boolToString (value : Bool) : Bytes := if value then ofString "yes" else ofString "no"

def UserField.value (u : UserRecord) : UserField → Bytes
  | .id => decimal u.id
  | .username => u.username.text
  | .nickname => u.nickname.text
  | .level => userLevelName u.level
  | .active => boolToString u.active
  | .created => decimalInt u.createdAt.toInt
  | .fullname => u.fullName.text
  | .country => u.country.text
  | .location => u.location.text
  | .email => u.email.text
  | .password => u.password.text
  | .lastLogin => decimalInt u.lastLoginAt.toInt

/-- The order of the lines of a user. -/
def userFields : List UserField :=
  [.id, .username, .nickname, .level, .active, .created, .fullname, .country, .location, .email, .password, .lastLogin]

/-- What one `fprintf` writes. -/
inductive ShardPiece
  | title
  | number (shardIndex : ℕ)
  | header (id : ℕ)
  | field (key value : Bytes)

def ShardPiece.text : ShardPiece → Bytes
  | .title => ofString "; HyBBX user file (max 50 users)\n"
  | .number shardIndex => ofString "; shard " ++ decimal shardIndex ++ [nl, nl]
  | .header id => headerLine (userSection id) ++ [nl]
  | .field key value => entryLine ⟨[], key, value⟩ ++ [nl]

def userPieces (u : UserRecord) : List ShardPiece :=
  .header u.id :: userFields.map fun f => .field f.key (f.value u)

def shardPieces (shardIndex : ℕ) (users : List UserRecord) : List ShardPiece :=
  .title :: .number shardIndex :: users.flatMap userPieces

def piecesText (pieces : List ShardPiece) : Bytes := pieces.flatMap ShardPiece.text

/-- The record made of the values of a section. -/
def userOf (value : UserField → Option Bytes) : Option UserRecord :=
  let text := fun f => (value f).getD []
  if text .id = [] then none
  else if (strtoul (text .id)).1 = 0 then none
  else if text .username = [] then none
  else some
    { id := (strtoul (text .id)).1
      username := (CText.copy (text .username)).lower
      nickname := CText.copy (text .nickname)
      level := userLevelParse ((value .level).getD (ofString "user"))
      active := parseBool (text .active) false
      createdAt := if text .created = [] then 0 else Int64.ofInt (strtol (text .created))
      fullName := CText.copy (text .fullname)
      country := CText.copy (text .country)
      location := CText.copy (text .location)
      email := CText.copy (text .email)
      password := CText.copy (text .password)
      lastLoginAt := if text .lastLogin = [] then 0 else Int64.ofInt (strtol (text .lastLogin))
      idFits := strtoul_lt _ }

def parseUserSection (config : HybbxConfig) (sectionName : Bytes) : Option UserRecord :=
  if userIniSectionPrefix <+: sectionName then userOf fun f => configGet config sectionName f.key else none

def sectionListCollect (names : List Bytes) (sectionName : Bytes) : List Bytes :=
  if ¬userIniSectionPrefix <+: sectionName then names
  else if sectionName ∈ names then names
  else if usersPerFile ≤ names.length then names
  else names ++ [strlcpy configSectionMax sectionName]

def sectionList (config : HybbxConfig) : List Bytes :=
  (config.map ConfigEntry.sectionName).foldl sectionListCollect []

def loadUserShard (file : Bytes) : Except HybbxResult UserShard :=
  match configLoad file with
  | .error rc => .error rc
  | .ok config =>
    let users := (sectionList config).filterMap (parseUserSection config)
    if fits : users.length ≤ usersPerFile then .ok ⟨users, fits⟩ else .error .errIo

end HyBBX.Storage
