import HyBBX.Storage.UserShard
import Mathlib.Logic.Function.Basic

/-! The flat-file backend: user shards, nickname files and the counter of user ids. -/

namespace HyBBX.Storage

open HyBBX.Core HyBBX.Config Lib Lib.Bytes Lib.Text Lib.Numeral Lib.LineReader

/-- The files of the store: `users.ini` is shard 1, `users2.ini` shard 2, and so on. -/
structure UsersDir where
  shards : ℕ → Option Bytes
  nickFile : Bytes → Option Bytes
  counter : Option Bytes

def UsersDir.fresh : UsersDir := ⟨fun _ => none, fun _ => none, none⟩

/-- `fscanf` with `%llu`. -/
def scanUlong (s : Bytes) : Option ℕ := if (strtoul s).2 = s then none else some (strtoul s).1

lemma scanUlong_decimal {n : ℕ} (h : n < 2 ^ 64) : scanUlong (decimal n ++ [nl]) = some n := by
  have hread := strtoul_decimal h [nl] (by decide +kernel)
  rw [scanUlong, hread, if_neg]
  intro he
  have hlen := congrArg List.length he
  have hpos := List.length_pos_iff.mpr (decimal_ne_nil n)
  rw [List.length_append, List.length_singleton] at hlen
  omega

def readCounter (dir : UsersDir) : Except HybbxResult ℕ :=
  match dir.counter with
  | none => .ok 0
  | some file =>
    match scanUlong file with
    | none => .error .errIo
    | some n => .ok n

def bumpCounter (dir : UsersDir) : Except HybbxResult (Fin (2 ^ 64) × UsersDir) :=
  match readCounter dir with
  | .error rc => .error rc
  | .ok n =>
    let value := Fin.ofNat (2 ^ 64) (n + 1)
    .ok (value, { dir with counter := some (decimal value ++ [nl]) })

def writeNicknameFile (nickFile : Bytes → Option Bytes) (u : UserRecord) : Bytes → Option Bytes :=
  if u.nickname.text = [] ∨ u.username.text = [] then nickFile
  else Function.update nickFile u.username.text (some (u.nickname.text ++ [nl]))

def removeNicknameFile (nickFile : Bytes → Option Bytes) (username : Bytes) : Bytes → Option Bytes :=
  if username = [] then nickFile else Function.update nickFile username none

def userShardIndexEnd : ℕ := 10000

-- the loop ends at the first file that is missing
def lastUserShardIndex (dir : UsersDir) : ℕ :=
  ((List.range' 1 (userShardIndexEnd - 1)).takeWhile fun index => (dir.shards index).isSome).length

def userShardIndexes (dir : UsersDir) : List ℕ := List.range' 1 (lastUserShardIndex dir)

/-- How the file operations of one rewrite go. The result of an `fprintf` is ignored: its text is in the file in
the end or it is not, be it that the write failed or that the text was lost in a failing flush. -/
structure ShardIo where
  openOk : Bool
  writeOk : ℕ → Bool
  flushOk : Bool
  closeOk : Bool

def ShardIo.sound : ShardIo := ⟨true, fun _ => true, true, true⟩

/-- What `fclose` returns. -/
def ShardIo.closed (io : ShardIo) : Bool := io.flushOk && io.closeOk

/-- The texts that get into the file, the first of them being the `k`-th that is written. -/
def ShardIo.arrived (io : ShardIo) : ℕ → List ShardPiece → List ShardPiece
  | _, [] => []
  | k, p :: ps => if io.writeOk k then p :: io.arrived (k + 1) ps else io.arrived (k + 1) ps

def saveUserShard (io : ShardIo) (dir : UsersDir) (shardIndex : ℕ) (shard : UserShard) : HybbxResult × UsersDir :=
  if io.openOk = false then (.errIo, dir)
  else
    let file := piecesText (io.arrived 0 (shardPieces shardIndex shard.users))
    let dir := { dir with
      shards := Function.update dir.shards shardIndex (some file)
      nickFile := shard.users.foldl writeNicknameFile dir.nickFile }
    if io.closed then (.ok, dir) else (.errIo, dir)

def loadShardAt (dir : UsersDir) (shardIndex : ℕ) : Except HybbxResult UserShard :=
  match dir.shards shardIndex with
  | none => .error .errIo
  | some file => loadUserShard file

def findUserShardIn (dir : UsersDir) (userId : ℕ) : List ℕ → Except HybbxResult (ℕ × ℕ)
  | [] => .error .errNotFound
  | shard :: rest =>
    if (dir.shards shard).isNone then findUserShardIn dir userId rest
    else match loadShardAt dir shard with
      | .error rc => .error rc
      | .ok loaded =>
        match loaded.users.findIdx? fun u => u.id = userId with
        | some slot => .ok (shard, slot)
        | none => findUserShardIn dir userId rest

def findUserShard (dir : UsersDir) (userId : ℕ) : Except HybbxResult (ℕ × ℕ) :=
  if userId = 0 then .error .errInvalid else findUserShardIn dir userId (userShardIndexes dir)

/-- The shard a new user goes to, with its users. -/
def appendTarget (dir : UsersDir) : Except HybbxResult (ℕ × UserShard) :=
  let last := lastUserShardIndex dir
  if last = 0 then .ok (1, .empty)
  else match loadShardAt dir last with
    | .error rc => .error rc
    | .ok loaded => if usersPerFile ≤ loaded.users.length then .ok (last + 1, .empty) else .ok (last, loaded)

def appendUserRecord (io : ShardIo) (dir : UsersDir) (u : UserRecord) : HybbxResult × UsersDir :=
  match appendTarget dir with
  | .error rc => (rc, dir)
  | .ok (shard, loaded) =>
    if room : loaded.users.length < usersPerFile then
      saveUserShard io dir shard ⟨loaded.users ++ [u], append_fits u room⟩
    else (.errBusy, dir)

section Visit

variable {σ : Type}

/-- The callback over the users of one shard, until it returns something else than OK. -/
def visitUsers (fn : σ → UserRecord → HybbxResult × σ) (ctx : σ) : List UserRecord → HybbxResult × σ
  | [] => (.ok, ctx)
  | u :: us =>
    match fn ctx u with
    | (.ok, ctx') => visitUsers fn ctx' us
    | out => out

-- a callback may change the files, so each shard is loaded when the loop gets to it
def foreachUserIn (dirOf : σ → UsersDir) (fn : σ → UserRecord → HybbxResult × σ) (ctx : σ) :
    List ℕ → HybbxResult × σ
  | [] => (.ok, ctx)
  | shard :: rest =>
    match loadShardAt (dirOf ctx) shard with
    | .error rc => (rc, ctx)
    | .ok loaded =>
      match visitUsers fn ctx loaded.users with
      | (.ok, ctx') => foreachUserIn dirOf fn ctx' rest
      | out => out

def foreachUser (dirOf : σ → UsersDir) (fn : σ → UserRecord → HybbxResult × σ) (ctx : σ) : HybbxResult × σ :=
  foreachUserIn dirOf fn ctx (userShardIndexes (dirOf ctx))

end Visit

def findUserCb (username : Bytes) (out u : UserRecord) : HybbxResult × UserRecord :=
  if strIeq u.username.text username then (.errBusy, u) else (.ok, out)

def findNicknameCb (nickname : Bytes) (out u : UserRecord) : HybbxResult × UserRecord :=
  if u.nickname.text ≠ [] ∧ strIeq u.nickname.text nickname then (.errBusy, u) else (.ok, out)

/-- A stored user has one of the two names. -/
def identityTaken (username nickname : Bytes) (u : UserRecord) : Bool :=
  strIeq u.username.text username || strIeq u.username.text nickname ||
    (u.nickname.text ≠ [] && (strIeq u.nickname.text nickname || strIeq u.nickname.text username))

def identityTakenCb (username nickname : Bytes) (taken : Bool) (u : UserRecord) : HybbxResult × Bool :=
  if identityTaken username nickname u then (.errBusy, true) else (.ok, taken)

def countLevelCb (level : UserLevel) (count : ℕ) (u : UserRecord) : HybbxResult × ℕ :=
  (.ok, if u.level = level then count + 1 else count)

def foundBy (visited : HybbxResult × UserRecord) : Except HybbxResult UserRecord :=
  match visited with
  | (.errBusy, u) => .ok u
  | (.ok, _) => .error .errNotFound
  | (rc, _) => .error rc

def findUser (dir : UsersDir) (username : Bytes) : Except HybbxResult UserRecord :=
  foundBy (foreachUser (fun _ => dir) (findUserCb username) UserRecord.zero)

def resolveUser (dir : UsersDir) (name : Bytes) : Except HybbxResult UserRecord :=
  if name = [] then .error .errInvalid
  else
    match findUser dir ((strlcpy userNameMax name).map lower) with
    | .error .errNotFound => foundBy (foreachUser (fun _ => dir) (findNicknameCb name) UserRecord.zero)
    | out => out

def countLevel (dir : UsersDir) (level : UserLevel) : Except HybbxResult ℕ :=
  match foreachUser (fun _ => dir) (countLevelCb level) 0 with
  | (.ok, count) => .ok count
  | (rc, _) => .error rc

/-- The record of a new user, without its password. -/
def newUser (reg : UserRegistration) (now : Int64) (id : Fin (2 ^ 64)) : UserRecord where
  id := id
  username := reg.username.lower
  nickname := reg.nickname
  level := .user
  active := false
  createdAt := now
  fullName := reg.fullName
  country := reg.country
  location := reg.location
  email := reg.email
  password := .empty
  lastLoginAt := 0
  idFits := word_fits id

/-- The password a registration stores; none when it is refused. -/
def registeredPassword (backend : HashBackend) (password : Bytes) : Option (CText userPasswordMax) :=
  if password = [] then some .empty
  else if passwordPlainValid password then some (CText.copy (passwordHash backend password))
  else none

section Register

variable (io : ShardIo) (backend : HashBackend) (guestPrefix : Bytes)

/-- The checks of a registration and the record they end with. -/
def newRegistration (now : Int64) (dir : UsersDir) (reg : UserRegistration) :
    Except HybbxResult UserRecord × UsersDir :=
  if registrationValid reg guestPrefix = false then (.error .errInvalid, dir)
  else match findUser dir reg.username.text with
    | .ok _ => (.error .errBusy, dir)
    | .error .errNotFound =>
      match foreachUser (fun _ => dir) (identityTakenCb reg.username.text reg.nickname.text) false with
      | (.ok, false) =>
        match bumpCounter dir with
        | .error rc => (.error rc, dir)
        | .ok (id, bumped) =>
          match registeredPassword backend reg.password.text with
          | none => (.error .errInvalid, bumped)
          | some password => (.ok { newUser reg now id with password := password }, bumped)
      | (.errBusy, _) => (.error .errBusy, dir)
      | (_, true) => (.error .errBusy, dir)
      | (rc, false) => (.error rc, dir)
    | .error rc => (.error rc, dir)

def registerUser (now : Int64) (dir : UsersDir) (reg : UserRegistration) : Except HybbxResult UserRecord × UsersDir :=
  match newRegistration backend guestPrefix now dir reg with
  | (.error rc, dir) => (.error rc, dir)
  | (.ok u, dir) =>
    match appendUserRecord io dir u with
    | (.ok, dir) => (.ok u, dir)
    | (rc, dir) => (.error rc, dir)

end Register

/-- The users of a shard with the one in a slot replaced. -/
def UserShard.set (shard : UserShard) (slot : ℕ) (u : UserRecord) : UserShard :=
  ⟨shard.users.set slot u, by rw [List.length_set]; exact shard.fits⟩

def UserShard.erase (shard : UserShard) (slot : ℕ) : UserShard :=
  ⟨shard.users.eraseIdx slot, le_trans (List.length_eraseIdx_le _ _) shard.fits⟩

/-- A user found by id, in the shard as it was loaded again. -/
structure UserPlace where
  shardIndex : ℕ
  shard : UserShard
  slot : ℕ
  inShard : slot < shard.users.length

def UserPlace.user (place : UserPlace) : UserRecord := place.shard.users.get ⟨place.slot, place.inShard⟩

def locateUser (dir : UsersDir) (userId : ℕ) : Except HybbxResult UserPlace :=
  if userId = 0 then .error .errInvalid
  else match findUserShard dir userId with
    | .error rc => .error rc
    | .ok (shardIndex, slot) =>
      match loadShardAt dir shardIndex with
      | .error rc => .error rc
      | .ok shard => if inShard : slot < shard.users.length then .ok ⟨shardIndex, shard, slot, inShard⟩ else .error .errNotFound

def updateUser (io : ShardIo) (dir : UsersDir) (u : UserRecord) : HybbxResult × UsersDir :=
  match locateUser dir u.id with
  | .error rc => (rc, dir)
  | .ok place => saveUserShard io dir place.shardIndex (place.shard.set place.slot u.normalize)

def deleteUser (io : ShardIo) (dir : UsersDir) (userId : ℕ) : HybbxResult × UsersDir :=
  match locateUser dir userId with
  | .error rc => (rc, dir)
  | .ok place =>
    saveUserShard io { dir with nickFile := removeNicknameFile dir.nickFile place.user.username.text } place.shardIndex
      (place.shard.erase place.slot)

end HyBBX.Storage
