import HyBBX.Storage.Sql

/-! The tables hold what the store has said it did, and nothing else, whatever the database makes of the statements. -/

namespace HyBBX.Storage

open HyBBX.Core Lib Lib.Bytes Lib.Text

def UsersDb.record (db : UsersDb) (id : Int64) : Option UserRecord := (db.users.find id).map sqlRowToUser

/-- The users after an answer: a refused operation leaves all of them. -/
def acknowledge (records : Int64 → Option UserRecord) : StoreOp × Outcome → Int64 → Option UserRecord
  | (.register _ _, .registered (.ok u)) => Function.update records (rowId u.id) (some u)
  | (.update u, .updated .ok) => Function.update records (rowId u.id) (some u)
  | (.delete id, .deleted .ok) => Function.update records (rowId id) none
  | _ => records

def acknowledged (ops : List StoreOp) (outs : List Outcome) : Int64 → Option UserRecord :=
  (ops.zip outs).foldl acknowledge fun _ => none

lemma rowId_toNat {id : ℕ} (h : id < 2 ^ 64) : (rowId id).toUInt64.toNat = id := by
  have hback : (rowId id).toUInt64 = UInt64.ofNat id := rfl
  rw [hback, UInt64.toNat_ofNat', Nat.mod_eq_of_lt h]

@[simp] lemma sqlRowToUser_bindUser (u : UserRecord) : sqlRowToUser (bindUser u) = u := by
  have hid := rowId_toNat u.idFits
  cases u
  simp only [sqlRowToUser, bindUser, CText.copy_self]
  congr 1

namespace UsersTable

variable {t t' : UsersTable} {row : UserRow} {id : Int64}

lemma mem_of_find (h : t.find id = some row) : row ∈ t.rows ∧ row.id = id := by
  rw [find] at h
  exact ⟨List.mem_of_find?_eq_some h, by simpa using List.find?_some h⟩

lemma find_eq_none : t.find id = none ↔ id ∉ t.rows.map UserRow.id := by
  rw [find, List.find?_eq_none, List.mem_map]
  simp

lemma find_of_mem (h : row ∈ t.rows) : t.find row.id = some row := by
  cases hfind : t.find row.id with
  | none => exact absurd (List.mem_map_of_mem h) (find_eq_none.mp hfind)
  | some other =>
    obtain ⟨hother, hid⟩ := mem_of_find hfind
    rw [List.inj_on_of_nodup_map t.primaryKey hother h hid]

lemma find_insert (h : t.insert row = some t') : t.find row.id = none ∧
    ∀ id, t'.find id = if id = row.id then some row else t.find id := by
  rw [insert] at h
  split_ifs at h with hfree
  obtain rfl := Option.some.inj h
  refine ⟨find_eq_none.mpr hfree.1, fun id => ?_⟩
  rw [find, List.find?_cons]
  split_ifs with hid
  · rw [decide_eq_true hid.symm]
  · rw [decide_eq_false (Ne.symm hid)]
    rfl

lemma find_update (h : t.update row = some t') : ∀ id, t'.find id =
    if id = row.id ∧ (t.find id).isSome then some row else t.find id := by
  rw [update] at h
  split_ifs at h
  obtain rfl := Option.some.inj h
  intro id
  have hfound : ∀ old, (replaceRow row old).id = id ↔ old.id = id := by
    intro old
    rw [replaceRow_id]
  rw [find, List.find?_map]
  have hsame : (fun old => decide (old.id = id)) ∘ replaceRow row = fun old => decide (old.id = id) := by
    funext old
    exact decide_eq_decide.mpr (hfound old)
  rw [hsame]
  change Option.map (replaceRow row) (t.find id) = _
  cases hold : t.find id with
  | none => simp
  | some old =>
    have hid := (mem_of_find hold).2
    rw [Option.map_some, replaceRow, hid]
    split_ifs with h1 h2 h2
    · rfl
    · exact absurd ⟨h1, rfl⟩ h2
    · exact absurd h2.1 h1
    · rfl

lemma find_delete (gone id : Int64) : (t.delete gone).find id = if id = gone then none else t.find id := by
  rw [find, delete, List.find?_filter]
  split_ifs with hid
  · rw [List.find?_eq_none]
    intro old _
    subst hid
    simp
  · rw [find]
    congr 1
    funext old
    by_cases hold : old.id = id
    · simp [hold, hid]
    · simp [hold]

end UsersTable

section Step

variable {db db' : UsersDb} {u : UserRecord} {id : Int64}

lemma record_insert {users : UsersTable} (h : db.users.insert (bindUser u) = some users) :
    db.record (rowId u.id) = none ∧
      ({ db with users := users } : UsersDb).record = Function.update db.record (rowId u.id) (some u) := by
  obtain ⟨hfree, hfind⟩ := UsersTable.find_insert h
  have hnone : db.users.find (rowId u.id) = none := hfree
  refine ⟨by rw [UsersDb.record, hnone, Option.map_none], ?_⟩
  funext id
  rw [UsersDb.record, hfind, Function.update_apply, UsersDb.record]
  have hrow : (bindUser u).id = rowId u.id := rfl
  rw [hrow]
  split_ifs
  · rw [Option.map_some, sqlRowToUser_bindUser]
  · rfl

lemma record_update {users : UsersTable} (h : db.users.update (bindUser u) = some users) :
    ({ db with users := users } : UsersDb).record =
      if (db.users.find (rowId u.id)).isSome then Function.update db.record (rowId u.id) (some u) else db.record := by
  have hrow : (bindUser u).id = rowId u.id := rfl
  funext id
  rw [UsersDb.record, UsersTable.find_update h, hrow]
  by_cases hid : id = rowId u.id
  · subst hid
    cases hold : db.users.find (rowId u.id) with
    | none => simp [UsersDb.record, hold]
    | some old => simp
  · rw [if_neg fun h => hid h.1]
    split_ifs
    · rw [Function.update_of_ne hid, UsersDb.record]
    · rfl

lemma record_delete (gone : Int64) : ({ db with users := db.users.delete gone } : UsersDb).record =
    Function.update db.record gone none := by
  funext id
  rw [UsersDb.record, UsersTable.find_delete, Function.update_apply, UsersDb.record]
  split_ifs
  · rfl
  · rfl

lemma users_sqlMetaBump (io : SqlIo) (key : Bytes) : (sqlMetaBump io db key).2.users = db.users := by
  rw [sqlMetaBump]
  cases sqlMetaGet io db key with
  | error rc => rfl
  | ok value =>
    dsimp only
    rw [sqlMetaSet]
    cases io .setMeta with
    | run => rfl
    | unprepared => rfl
    | broken rows => rfl

/-- The statement that ends a registration stores a new user, or the registration is refused. -/
lemma record_sqlInsertUser {io : SqlIo} {out : Except HybbxResult UserRecord} (h : sqlInsertUser io db u = (out, db')) :
    (out = .error .errIo ∧ db' = db) ∨
      (out = .ok u ∧ db.record (rowId u.id) = none ∧ db'.record = Function.update db.record (rowId u.id) (some u)) := by
  rw [sqlInsertUser] at h
  split at h
  · rename_i users hio hinsert
    obtain ⟨rfl, rfl⟩ := Prod.ext_iff.mp h
    exact .inr ⟨rfl, record_insert hinsert⟩
  · obtain ⟨rfl, rfl⟩ := Prod.ext_iff.mp h
    exact .inl ⟨rfl, rfl⟩

lemma record_sqlRegisterUser {io : SqlIo} {choice : RowChoice} {backend : HashBackend} {guestPrefix : Bytes}
    {now : Int64} {reg : UserRegistration} {out : Except HybbxResult UserRecord}
    (h : sqlRegisterUser io choice db backend guestPrefix now reg = (out, db')) :
    ((∃ rc, out = .error rc) ∧ db'.record = db.record) ∨
      ∃ u, out = .ok u ∧ db.record (rowId u.id) = none ∧
        db'.record = Function.update db.record (rowId u.id) (some u) := by
  have hrefused : ∀ {rc : HybbxResult} {last : UsersDb}, last.users = db.users → (Except.error rc, last) = (out, db') →
      ((∃ rc, out = .error rc) ∧ db'.record = db.record) ∨
        ∃ u, out = .ok u ∧ db.record (rowId u.id) = none ∧
          db'.record = Function.update db.record (rowId u.id) (some u) := by
    intro rc last husers hpair
    obtain ⟨rfl, rfl⟩ := Prod.ext_iff.mp hpair
    refine .inl ⟨⟨rc, rfl⟩, ?_⟩
    funext id
    rw [UsersDb.record, husers, UsersDb.record]
  rw [sqlRegisterUser] at h
  split at h
  · exact hrefused rfl h
  split at h
  · exact hrefused rfl h
  · split at h
    · exact hrefused rfl h
    · exact hrefused rfl h
    · have hbump := @users_sqlMetaBump db io userNext
      split at h
      · rename_i hout
        rw [hout] at hbump
        exact hrefused hbump h
      · rename_i bumped hout
        rw [hout] at hbump
        have hsame : bumped.record = db.record := by
          funext id
          rw [UsersDb.record, hbump, UsersDb.record]
        split at h
        · exact hrefused hbump h
        · rcases record_sqlInsertUser h with ⟨rfl, rfl⟩ | ⟨rfl, hfree, hrecord⟩
          · exact .inl ⟨⟨_, rfl⟩, hsame⟩
          · rw [hsame] at hfree hrecord
            exact .inr ⟨_, rfl, hfree, hrecord⟩
    · exact hrefused rfl h
  · exact hrefused rfl h

lemma record_sqlUpdateUser (io : SqlIo) : (sqlUpdateUser io db u).2.record =
    if (sqlUpdateUser io db u).1 = .ok then Function.update db.record (rowId u.id) (some u) else db.record := by
  rw [sqlUpdateUser]
  by_cases hzero : u.id = 0
  · rw [if_pos hzero]
    rfl
  · rw [if_neg hzero]
    split
    · rename_i users hio hupdate
      rw [record_update hupdate]
      by_cases hfound : (db.users.find (rowId u.id)).isSome = true
      · rw [if_pos hfound, if_pos hfound, if_pos rfl]
      · rw [if_neg hfound, if_neg hfound, if_neg (by simp)]
    · rfl

lemma record_sqlDeleteUser (io : SqlIo) (userId : ℕ) : (sqlDeleteUser io db userId).2.record =
    if (sqlDeleteUser io db userId).1 = .ok then Function.update db.record (rowId userId) none else db.record := by
  rw [sqlDeleteUser]
  by_cases hzero : userId = 0
  · rw [if_pos hzero]
    rfl
  · rw [if_neg hzero]
    split
    · rw [record_delete]
      cases hfind : db.users.find (rowId userId) with
      | none =>
        rw [if_neg (by simp)]
        have hnone : db.record (rowId userId) = none := by rw [UsersDb.record, hfind, Option.map_none]
        rw [← hnone, Function.update_eq_self]
      | some old => rfl
    · rfl

/-- What is found is a stored user. -/
lemma record_of_sqlFindUser {io : SqlIo} {choice : RowChoice} {name : Bytes}
    (h : sqlFindUser io choice db name = .ok u) : ∃ id, db.record id = some u := by
  rw [sqlFindUser] at h
  cases hio : io .selectUsername with
  | unprepared =>
    rw [hio] at h
    cases h
  | broken rows =>
    rw [hio] at h
    cases h
  | run =>
    rw [hio, sqlFindUserByColumn] at h
    split at h
    · rename_i row hpick
      obtain rfl := Except.ok.inj h
      have hrow := List.mem_of_mem_filter (choice.mem _ _ hpick)
      exact ⟨row.id, by rw [UsersDb.record, UsersTable.find_of_mem hrow, Option.map_some]⟩
    · cases h

end Step

section Run

variable (choice : RowChoice) (backend : HashBackend) (guestPrefix : Bytes)

def sqlRun (calls : List SqlCall) : UsersDb × List Outcome :=
  Transducer.run (sqlStep choice backend guestPrefix) .created calls

lemma sqlStep_acknowledges (db : UsersDb) (call : SqlCall) : ∃ out,
    (sqlStep choice backend guestPrefix db call).2 = [out] ∧
      (sqlStep choice backend guestPrefix db call).1.record = acknowledge db.record (call.op, out) := by
  obtain ⟨op, io⟩ := call
  cases op with
  | register now reg =>
    refine ⟨_, rfl, ?_⟩
    rw [sqlStep]
    dsimp only
    cases hout : sqlRegisterUser io choice db backend guestPrefix now reg with
    | mk out next =>
      rcases record_sqlRegisterUser hout with ⟨⟨rc, rfl⟩, hsame⟩ | ⟨u, rfl, -, hnext⟩
      · exact hsame
      · exact hnext
  | update u =>
    refine ⟨_, rfl, ?_⟩
    rw [sqlStep]
    dsimp only
    rw [record_sqlUpdateUser]
    cases (sqlUpdateUser io db u).1 with
    | ok => rfl
    | _ => rfl
  | delete id =>
    refine ⟨_, rfl, ?_⟩
    rw [sqlStep]
    dsimp only
    rw [record_sqlDeleteUser]
    cases (sqlDeleteUser io db id).1 with
    | ok => rfl
    | _ => rfl
  | find name => exact ⟨_, rfl, rfl⟩

lemma record_run (db : UsersDb) (calls : List SqlCall) :
    (Transducer.run (sqlStep choice backend guestPrefix) db calls).1.record =
      ((calls.map SqlCall.op).zip (Transducer.run (sqlStep choice backend guestPrefix) db calls).2).foldl acknowledge
        db.record := by
  induction calls generalizing db with
  | nil => rfl
  | cons call calls ih =>
    obtain ⟨out, hout, hrecord⟩ := sqlStep_acknowledges choice backend guestPrefix db call
    rw [Transducer.run_cons, ih, hout, List.map_cons, List.singleton_append, List.zip_cons_cons, List.foldl_cons,
      hrecord]

end Run

end HyBBX.Storage
