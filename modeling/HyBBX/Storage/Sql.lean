import HyBBX.Lib.Transducer
import HyBBX.Storage.UserMap

/-! The users in the tables of a database: the statements of the store, what the database may make of each, and the
operations over them. -/

namespace HyBBX.Storage

open HyBBX.Core Lib Lib.Bytes Lib.Text

/-- The columns of `users`. -/
structure UserRow where
  id : Int64
  username : Bytes
  nickname : Bytes
  level : UserLevel
  active : Bool
  createdAt : Int64
  fullName : Bytes
  country : Bytes
  location : Bytes
  email : Bytes
  password : Bytes
  lastLoginAt : Int64
  deriving DecidableEq

def rowId (id : ℕ) : Int64 := (UInt64.ofNat id).toInt64

/-- The values that a statement binds. -/
def bindUser (u : UserRecord) : UserRow where
  id := rowId u.id
  username := u.username.text
  nickname := u.nickname.text
  level := u.level
  active := u.active
  createdAt := u.createdAt
  fullName := u.fullName.text
  country := u.country.text
  location := u.location.text
  email := u.email.text
  password := u.password.text
  lastLoginAt := u.lastLoginAt

def sqlRowToUser (row : UserRow) : UserRecord where
  id := row.id.toUInt64.toNat
  username := CText.copy row.username
  nickname := CText.copy row.nickname
  level := row.level
  active := row.active
  createdAt := row.createdAt
  fullName := CText.copy row.fullName
  country := CText.copy row.country
  location := CText.copy row.location
  email := CText.copy row.email
  password := CText.copy row.password
  lastLoginAt := row.lastLoginAt
  idFits := row.id.toUInt64.toNat_lt

structure UsersTable where
  rows : List UserRow
  primaryKey : (rows.map UserRow.id).Nodup
  unique : (rows.map UserRow.username).Nodup

namespace UsersTable

def find (t : UsersTable) (id : Int64) : Option UserRow := t.rows.find? fun row => row.id = id

/-- Nothing when a constraint of the table is in the way. -/
def insert (t : UsersTable) (row : UserRow) : Option UsersTable :=
  if h : row.id ∉ t.rows.map UserRow.id ∧ row.username ∉ t.rows.map UserRow.username then
    some ⟨row :: t.rows, List.nodup_cons.mpr ⟨h.1, t.primaryKey⟩, List.nodup_cons.mpr ⟨h.2, t.unique⟩⟩
  else none

def replaceRow (row old : UserRow) : UserRow := if old.id = row.id then row else old

lemma replaceRow_id (row old : UserRow) : (replaceRow row old).id = old.id := by
  rw [replaceRow]
  split_ifs with h
  · exact h.symm
  · rfl

lemma map_replaceRow_id (row : UserRow) (rows : List UserRow) :
    (rows.map (replaceRow row)).map UserRow.id = rows.map UserRow.id := by
  rw [List.map_map]
  exact List.map_congr_left fun old _ => replaceRow_id row old

def update (t : UsersTable) (row : UserRow) : Option UsersTable :=
  if h : ((t.rows.map (replaceRow row)).map UserRow.username).Nodup then
    some ⟨t.rows.map (replaceRow row), by rw [map_replaceRow_id]; exact t.primaryKey, h⟩
  else none

def delete (t : UsersTable) (id : Int64) : UsersTable where
  rows := t.rows.filter fun row => row.id ≠ id
  primaryKey := t.primaryKey.sublist (List.filter_sublist.map _)
  unique := t.unique.sublist (List.filter_sublist.map _)

end UsersTable

structure UsersDb where
  users : UsersTable
  metaTable : Bytes → Option Int64

/-- The tables as they are created. -/
def UsersDb.created : UsersDb := ⟨⟨[], List.nodup_nil, List.nodup_nil⟩, fun _ => none⟩

inductive Statement
  | selectMeta
  | setMeta
  | selectUsername
  | selectNickname
  | selectAll
  | selectCount
  | insertUser
  | updateUser
  | deleteUser

/-- What becomes of a statement: it is not prepared, a step of it fails behind so many rows, or it is run. -/
inductive Fate
  | unprepared
  | broken (rows : ℕ)
  | run

abbrev SqlIo := Statement → Fate

def SqlIo.sound : SqlIo := fun _ => .run

/-- The row that `LIMIT 1` leaves of those that match. -/
structure RowChoice where
  pick : List UserRow → Option UserRow
  mem : ∀ rows row, pick rows = some row → row ∈ rows
  any : ∀ rows, pick rows = none → rows = []

def RowChoice.first : RowChoice where
  pick := List.head?
  mem _ _ := List.mem_of_mem_head?
  any _ := List.head?_eq_none_iff.mp

section Operations

variable (io : SqlIo) (choice : RowChoice) (db : UsersDb)

def sqlMetaGet (key : Bytes) : Except HybbxResult UInt64 :=
  match io .selectMeta with
  | .unprepared => .error .errIo
  | .broken _ => .ok 0
  | .run => .ok ((db.metaTable key).elim 0 Int64.toUInt64)

def sqlMetaSet (key : Bytes) (value : UInt64) : HybbxResult × UsersDb :=
  match io .setMeta with
  | .run => (.ok, { db with metaTable := Function.update db.metaTable key (some value.toInt64) })
  | _ => (.errIo, db)

def sqlMetaBump (key : Bytes) : Except HybbxResult UInt64 × UsersDb :=
  match sqlMetaGet io db key with
  | .error rc => (.error rc, db)
  | .ok value =>
    match sqlMetaSet io db key (value + 1) with
    | (.ok, db) => (.ok (value + 1), db)
    | (rc, db) => (.error rc, db)

-- a step that fails is taken for no row
def sqlFindUserByColumn (fate : Fate) (column : UserRow → Bytes) (name : Bytes) : Except HybbxResult UserRecord :=
  match fate with
  | .unprepared => .error .errIo
  | .broken _ => .error .errNotFound
  | .run =>
    match choice.pick (db.users.rows.filter fun row => strIeq (column row) name) with
    | some row => .ok (sqlRowToUser row)
    | none => .error .errNotFound

def sqlFindUser (username : Bytes) : Except HybbxResult UserRecord :=
  sqlFindUserByColumn choice db (io .selectUsername) UserRow.username ((strlcpy userNameMax username).map lower)

def sqlResolveUser (name : Bytes) : Except HybbxResult UserRecord :=
  if name = [] then .error .errInvalid
  else
    match sqlFindUser io choice db name with
    | .error .errNotFound => sqlFindUserByColumn choice db (io .selectNickname) UserRow.nickname name
    | out => out

def sortedRows : List UserRow := db.users.rows.mergeSort fun a b => a.id ≤ b.id

/-- A callback that does not return OK ends the statement, which the caller gets as `errBusy`. -/
def sqlForeachUser {σ : Type} (fn : σ → UserRecord → HybbxResult × σ) (ctx : σ) : HybbxResult × σ :=
  match io .selectAll with
  | .unprepared => (.errIo, ctx)
  | .broken rows =>
    match visitUsers fn ctx (((sortedRows db).take rows).map sqlRowToUser) with
    | (.ok, ctx) => (.errIo, ctx)
    | (_, ctx) => (.errBusy, ctx)
  | .run =>
    match visitUsers fn ctx ((sortedRows db).map sqlRowToUser) with
    | (.ok, ctx) => (.ok, ctx)
    | (_, ctx) => (.errBusy, ctx)

def sqlCountLevel (level : UserLevel) : Except HybbxResult ℕ :=
  match io .selectCount with
  | .unprepared => .error .errIo
  | .broken _ => .ok 0
  | .run => .ok (db.users.rows.countP fun row => row.level = level)

def userNext : Bytes := ofString "user_next"

/-- The statement that ends a registration. -/
def sqlInsertUser (u : UserRecord) : Except HybbxResult UserRecord × UsersDb :=
  match io .insertUser, db.users.insert (bindUser u) with
  | .run, some users => (.ok u, { db with users := users })
  | _, _ => (.error .errIo, db)

def sqlRegisterUser (backend : HashBackend) (guestPrefix : Bytes) (now : Int64) (reg : UserRegistration) :
    Except HybbxResult UserRecord × UsersDb :=
  if registrationValid reg guestPrefix = false then (.error .errInvalid, db)
  else match sqlFindUser io choice db reg.username.text with
    | .ok _ => (.error .errBusy, db)
    | .error .errNotFound =>
      match sqlForeachUser io db (identityTakenCb reg.username.text reg.nickname.text) false with
      | (.errBusy, _) => (.error .errBusy, db)
      | (_, true) => (.error .errBusy, db)
      | (.ok, false) =>
        match sqlMetaBump io db userNext with
        | (.error rc, db) => (.error rc, db)
        | (.ok id, db) =>
          match registeredPassword backend reg.password.text with
          | none => (.error .errInvalid, db)
          | some password => sqlInsertUser io db { newUser reg now ⟨id.toNat, id.toNat_lt⟩ with password := password }
      | (rc, false) => (.error rc, db)
    | .error rc => (.error rc, db)

def sqlUpdateUser (u : UserRecord) : HybbxResult × UsersDb :=
  if u.id = 0 then (.errInvalid, db)
  else
    match io .updateUser, db.users.update (bindUser u) with
    | .run, some users =>
      (if (db.users.find (rowId u.id)).isSome then .ok else .errNotFound, { db with users := users })
    | _, _ => (.errIo, db)

def sqlDeleteUser (userId : ℕ) : HybbxResult × UsersDb :=
  if userId = 0 then (.errInvalid, db)
  else
    match io .deleteUser with
    | .run => (if (db.users.find (rowId userId)).isSome then .ok else .errNotFound,
        { db with users := db.users.delete (rowId userId) })
    | _ => (.errIo, db)

end Operations

/-- An operation, while the database makes of the statements what it does. -/
structure SqlCall where
  op : StoreOp
  io : SqlIo

def sqlStep (choice : RowChoice) (backend : HashBackend) (guestPrefix : Bytes) (db : UsersDb) (call : SqlCall) :
    UsersDb × List Outcome :=
  match call.op with
  | .register now reg =>
    let out := sqlRegisterUser call.io choice db backend guestPrefix now reg
    (out.2, [.registered out.1])
  | .update u =>
    let out := sqlUpdateUser call.io db u
    (out.2, [.updated out.1])
  | .delete id =>
    let out := sqlDeleteUser call.io db id
    (out.2, [.deleted out.1])
  | .find name => (db, [.found (sqlFindUser call.io choice db name)])

end HyBBX.Storage
