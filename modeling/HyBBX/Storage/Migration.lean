import HyBBX.Lib.Scan
import HyBBX.Storage.UserRecord
import HyBBX.Core.Password
import HyBBX.Storage.FlatFile

/-! A line of the old `users.dat`: how it was written and how it is parsed. -/

namespace HyBBX.Storage

open HyBBX.Core Lib Lib.Bytes Lib.Text Lib.Numeral

abbrev bar : UInt8 := 0x7C

def levelNameMax : ℕ := 32

/-- An account as a line of the file lists it. -/
structure LegacyUser where
  id : ℕ
  username : CText userNameMax
  levelName : CText levelNameMax
  active : Bool
  created : Int64
  fullName : CText userFullNameMax
  country : CText userCountryMax
  location : CText userLocationMax
  email : CText userEmailMax
  password : CText userPasswordMax
  idFits : id < 2 ^ 64
  idGiven : id ≠ 0
  nameGiven : username.text ≠ []
  levelGiven : levelName.text ≠ []
  separable : ∀ text ∈ [username.text, levelName.text, fullName.text, country.text, location.text, email.text,
    password.text], bar ∉ text ∧ nl ∉ text

namespace LegacyUser

variable (l : LegacyUser)

/-- The fields that may be empty. -/
def details : List Bytes := [l.fullName.text, l.country.text, l.location.text, l.email.text, l.password.text]

def line : Bytes :=
  decimal l.id ++ bar :: (l.username.text ++ bar :: (l.levelName.text ++ bar :: (decimal l.active.toNat ++
    bar :: (decimalInt l.created.toInt ++ l.details.flatMap (bar :: ·)))))

def Complete : Prop := l.fullName.text ≠ [] ∧ l.country.text ≠ [] ∧ l.location.text ≠ [] ∧ l.email.text ≠ []

instance : Decidable l.Complete :=
  inferInstanceAs (Decidable (l.fullName.text ≠ [] ∧ l.country.text ≠ [] ∧ l.location.text ≠ [] ∧ l.email.text ≠ []))

end LegacyUser

/-- The text behind the fifth field that a field of the record gets, if `needed` fields are read in all. -/
def legacyText (texts : List Bytes) (needed i : ℕ) : Bytes := if needed ≤ 5 + texts.length then texts.getD i [] else []

def parseLegacyUserLine (line : Bytes) : Option UserRecord := do
  let (id, s) ← Scan.ulong line
  let s ← Scan.literal bar s
  let (username, s) ← Scan.upTo bar 63 s
  let s ← Scan.literal bar s
  let (levelName, s) ← Scan.upTo bar 31 s
  let s ← Scan.literal bar s
  let (active, s) ← Scan.ulong s
  let s ← Scan.literal bar s
  let (created, s) ← Scan.long s
  -- five fields have been read; the others only count when enough of them are
  let texts := Scan.fields bar [127, 63, 127, 127, 95] s
  return {
    id := Fin.ofNat (2 ^ 64) id
    username := CText.copy username
    nickname := .empty
    level := userLevelParse levelName
    active := active % 2 ^ 32 ≠ 0
    createdAt := Int64.ofInt created
    fullName := CText.copy (legacyText texts 9 0)
    country := CText.copy (legacyText texts 9 1)
    location := CText.copy (legacyText texts 9 2)
    email := CText.copy (legacyText texts 9 3)
    password := CText.copy (legacyText texts 10 4)
    lastLoginAt := 0
    idFits := (Fin.ofNat (2 ^ 64) id).isLt }

/-- The record the parser makes of a line: with a gap in the profile, the profile and the password are not read. -/
def LegacyUser.record (l : LegacyUser) : UserRecord where
  id := l.id
  username := l.username
  nickname := .empty
  level := userLevelParse l.levelName.text
  active := l.active
  createdAt := l.created
  fullName := if l.Complete then l.fullName else .empty
  country := if l.Complete then l.country else .empty
  location := if l.Complete then l.location else .empty
  email := if l.Complete then l.email else .empty
  password := if l.Complete then l.password else .empty
  lastLoginAt := 0
  idFits := l.idFits

namespace LegacyUser

variable (l : LegacyUser)

/-- The fields in front of the first empty one. -/
def given : List Bytes := l.details.takeWhile (· ≠ [])

lemma scan_details : Scan.fields bar [127, 63, 127, 127, 95] (l.details.flatMap (bar :: ·)) = l.given := by
  have hsep := l.separable
  simp only [List.mem_cons, List.not_mem_nil, or_false, forall_eq_or_imp, forall_eq] at hsep
  obtain ⟨-, -, hf, hc, hl, he, hp⟩ := hsep
  apply Scan.fields_flatMap
  refine .cons ⟨hf.1, ?_⟩ (.cons ⟨hc.1, ?_⟩ (.cons ⟨hl.1, ?_⟩ (.cons ⟨he.1, ?_⟩ (.cons ⟨hp.1, ?_⟩ .nil))))
  · exact Nat.le_of_lt_succ l.fullName.fits
  · exact Nat.le_of_lt_succ l.country.fits
  · exact Nat.le_of_lt_succ l.location.fits
  · exact Nat.le_of_lt_succ l.email.fits
  · exact Nat.le_of_lt_succ l.password.fits

lemma details_gap (h : ¬l.Complete) : l.given.length < 4 := by
  simp only [Complete, not_and_or, not_not] at h
  simp only [given, details, List.takeWhile_cons, List.takeWhile_nil]
  split_ifs <;> simp_all

lemma legacyText_profile {i : ℕ} (hi : i < 4) :
    legacyText l.given 9 i = if l.Complete then l.details.getD i [] else [] := by
  rw [legacyText]
  split_ifs with h9 hc hc
  · obtain ⟨hf, hy, hl, he⟩ := hc
    by_cases hp : l.password.text = []
    · interval_cases i <;> simp [given, details, hf, hy, hl, he, hp]
    · simp [given, details, hf, hy, hl, he, hp]
  · have hgap := l.details_gap hc
    omega
  · obtain ⟨hf, hy, hl, he⟩ := hc
    by_cases hp : l.password.text = []
    · simp [given, details, hf, hy, hl, he, hp] at h9
    · simp [given, details, hf, hy, hl, he, hp] at h9
  · rfl

lemma legacyText_password :
    legacyText l.given 10 4 = if l.Complete then l.password.text else [] := by
  by_cases hc : l.Complete
  · obtain ⟨hf, hy, hl, he⟩ := hc
    by_cases hp : l.password.text = []
    · simp [legacyText, given, details, hf, hy, hl, he, hp]
    · simp [legacyText, given, details, Complete, hf, hy, hl, he, hp]
  · have hgap := l.details_gap hc
    rw [legacyText, if_neg (by omega), if_neg hc]

lemma head_bar_not_digit (s : Bytes) : ∀ b ∈ (bar :: s).head?, isDigit b = false := by
  intro b hb
  obtain rfl := Option.some.inj hb
  decide

lemma head_details_not_digit : ∀ b ∈ (l.details.flatMap (bar :: ·)).head?, isDigit b = false := by
  intro b hb
  obtain rfl := Scan.ends_fields bar l.details b hb
  decide

lemma ends_bar (s : Bytes) : Scan.Ends bar (bar :: s) := fun _ hb => (Option.some.inj hb).symm

lemma CText.copy_empty {size : ℕ} [NeZero size] : (CText.copy [] : CText size) = .empty :=
  CText.ext (CText.copy_text (by simp) (NeZero.pos size))

lemma parse_line : parseLegacyUserLine l.line = some l.record := by
  have hsep := l.separable
  simp only [List.mem_cons, List.not_mem_nil, or_false, forall_eq_or_imp, forall_eq] at hsep
  have hactive : decide (l.active.toNat % 2 ^ 32 ≠ 0) = l.active := by
    cases l.active <;> rfl
  have hname := Scan.upTo_text hsep.1.1 (Nat.le_of_lt_succ l.username.fits) (ends_bar (l.levelName.text ++
    bar :: (decimal l.active.toNat ++ bar :: (decimalInt l.created.toInt ++ l.details.flatMap (bar :: ·)))))
  have hlevel := Scan.upTo_text hsep.2.1.1 (Nat.le_of_lt_succ l.levelName.fits) (ends_bar (decimal l.active.toNat ++
    bar :: (decimalInt l.created.toInt ++ l.details.flatMap (bar :: ·))))
  rw [if_neg l.nameGiven] at hname
  rw [if_neg l.levelGiven] at hlevel
  have hid : ((Fin.ofNat (2 ^ 64) l.id : Fin (2 ^ 64)) : ℕ) = l.id := Nat.mod_eq_of_lt l.idFits
  have htoNat : l.active.toNat < 2 ^ 64 := lt_of_le_of_lt l.active.toNat_le (by decide)
  have hcreated := Scan.long_decimalInt l.created.le_toInt l.created.toInt_lt l.head_details_not_digit
  simp only [parseLegacyUserLine, line, Scan.ulong_decimal l.idFits (head_bar_not_digit _), Scan.literal_cons, hname,
    hlevel, Scan.ulong_decimal htoNat (head_bar_not_digit _), hcreated, l.scan_details, Option.bind_eq_bind,
    Option.bind_some, Option.pure_def, hid, hactive, Int64.ofInt_toInt, CText.copy_self]
  rw [l.legacyText_profile (by decide), l.legacyText_profile (by decide), l.legacyText_profile (by decide),
    l.legacyText_profile (by decide), l.legacyText_password, record]
  by_cases hc : l.Complete
  · simp [hc, details, CText.copy_self]
  · simp only [if_neg hc, CText.copy_empty]

end LegacyUser

end HyBBX.Storage

/-! Opening the store: an old `users.dat` is taken over, there is a Sysop, nicknames and passwords are up to date. -/

namespace HyBBX.Storage

open HyBBX.Core HyBBX.Config Lib Lib.Bytes Lib.Text Lib.LineReader

/-- The file `users.dat`. -/
inductive LegacyFile
  | missing
  | unreadable
  | holds (text : Bytes)

section Rewrites

variable (io : ShardIo)

def migrateLegacyLines (dir : UsersDir) (shardIndex : ℕ) (shard : UserShard) : List Bytes → HybbxResult × UsersDir
  | [] => if shard.users = [] then (.ok, dir) else saveUserShard io dir shardIndex shard
  | piece :: pieces =>
    match parseLegacyUserLine ((cstr piece).takeWhile (· ≠ nl)) with
    | none => migrateLegacyLines dir shardIndex shard pieces
    | some u =>
      if room : shard.users.length < usersPerFile then
        migrateLegacyLines dir shardIndex ⟨shard.users ++ [u], by rw [List.length_append]; exact room⟩ pieces
      else
        match saveUserShard io dir shardIndex shard with
        | (.ok, dir) => migrateLegacyLines dir (shardIndex + 1) ⟨[u], by rw [List.length_singleton]; decide⟩ pieces
        | out => out

-- the file is renamed in the end; a failure of that is ignored, and the shards keep it from being read again
def migrateLegacyUsersDat (dir : UsersDir) (legacy : LegacyFile) : HybbxResult × UsersDir :=
  match legacy with
  | .missing => (.ok, dir)
  | .unreadable => if 0 < lastUserShardIndex dir then (.ok, dir) else (.errIo, dir)
  | .holds file =>
    if 0 < lastUserShardIndex dir then (.ok, dir)
    else migrateLegacyLines io dir 1 .empty (fgets configLineMax file)

def defaultSysopUsername : Bytes := ofString "Sysop"

def defaultSysop (now : Int64) (id : Fin (2 ^ 64)) (password : CText userPasswordMax) : UserRecord where
  id := id
  username := CText.copy (ofString "sysop")
  nickname := CText.copy defaultSysopUsername
  level := .sysop
  active := true
  createdAt := now
  fullName := CText.copy (ofString "System Operator")
  country := .empty
  location := .empty
  email := .empty
  password := password
  lastLoginAt := 0
  idFits := word_fits id

/-- `generated` is the random password, if there is one. -/
def ensureDefaultSysop (backend : HashBackend) (now : Int64) (generated : Option Bytes) (dir : UsersDir) :
    HybbxResult × UsersDir :=
  match countLevel dir .sysop with
  | .error rc => (rc, dir)
  | .ok count =>
    if 0 < count then (.ok, dir)
    else
      match bumpCounter dir with
      | .error rc => (rc, dir)
      | .ok (id, bumped) =>
        match generated with
        | none => (.errIo, bumped)
        | some plain => appendUserRecord io bumped (defaultSysop now id (CText.copy (passwordHash backend plain)))

def readNicknameFile (nickFile : Bytes → Option Bytes) (username : Bytes) : Option (CText userNicknameMax) :=
  if username = [] then none
  else
    match nickFile username with
    | none => none
    | some file =>
      match fgets userNicknameMax file with
      | [] => none
      | piece :: _ =>
        let line := ((cstr piece).takeWhile (· ≠ nl)).takeWhile (· ≠ cr)
        if line = [] then none else some (CText.copy line)

def nicknameInfer (storedUsername : Bytes) : CText userNicknameMax :=
  if strIeq storedUsername defaultSysopUsername || strIeq storedUsername (ofString "sysop") then
    CText.copy defaultSysopUsername
  else
    match storedUsername with
    | [] => .empty
    | b :: rest => if 0x61 ≤ b ∧ b ≤ 0x7A then CText.copy ((b - 32) :: rest) else CText.copy (b :: rest)

/-- The nickname a user has after the migration. -/
def migratedNickname (nickFile : Bytes → Option Bytes) (u : UserRecord) : CText userNicknameMax :=
  if u.nickname.text = [] then
    (readNicknameFile nickFile u.normalize.username.text).getD (nicknameInfer u.username.text)
  else u.nickname

def migrateIdentitiesCb (dir : UsersDir) (u : UserRecord) : HybbxResult × UsersDir :=
  let updated := { u.normalize with nickname := migratedNickname dir.nickFile u }
  if strIeq u.username.text updated.username.text = false ∨ u.nickname.text = [] then updateUser io dir updated
  else (.ok, { dir with nickFile := writeNicknameFile dir.nickFile updated })

def migratePasswordsCb (backend : HashBackend) (dir : UsersDir) (u : UserRecord) : HybbxResult × UsersDir :=
  if passwordIsPlain u.password.text = false then (.ok, dir)
  else updateUser io dir { u with password := CText.copy (passwordHash backend u.password.text) }

def flatfileOpen (backend : HashBackend) (now : Int64) (generated : Option Bytes) (legacy : LegacyFile)
    (dir : UsersDir) : HybbxResult × UsersDir :=
  match migrateLegacyUsersDat io dir legacy with
  | (.ok, dir) =>
    match ensureDefaultSysop io backend now generated dir with
    | (.ok, dir) =>
      match foreachUser id (migrateIdentitiesCb io) dir with
      | (.ok, dir) => foreachUser id (migratePasswordsCb io backend) dir
      | out => out
    | out => out
  | out => out

end Rewrites

end HyBBX.Storage
