import HyBBX.Storage.SqlHistory
import HyBBX.Storage.StoreRun

/-! A database that runs every statement answers as the map does, and so as the files do. -/

namespace HyBBX.Storage

open HyBBX.Core HyBBX.Config Lib Lib.Bytes Lib.Text Lib.Numeral Lib.LineReader

variable {db : UsersDb} {m : UserMap}

def UsersDb.lastId (db : UsersDb) : ℕ := ((db.metaTable userNext).elim 0 Int64.toUInt64).toNat

/-- The tables hold the users of the map, as the store writes them. -/
structure SqlHolds (db : UsersDb) (m : UserMap) : Prop where
  records : ∀ id, m.records id = if id < 2 ^ 64 then db.record (rowId id) else none
  written : ∀ row ∈ db.users.rows, bindUser (sqlRowToUser row) = row
  counter : db.lastId = m.lastId
  known : ∀ u, m.Stored u → 0 < u.id ∧ u.id ≤ m.lastId
  lowered : ∀ u, m.Stored u → u.normalize = u
  names : NamesApart m

lemma sqlHolds_created : SqlHolds .created .empty where
  records id := by
    split_ifs
    · rfl
    · rfl
  written row h := by cases h
  counter := rfl
  known := by
    rintro u ⟨id, hu⟩
    cases hu
  lowered := by
    rintro u ⟨id, hu⟩
    cases hu
  names := by
    rintro u v ⟨id, hu⟩
    cases hu

namespace SqlHolds

variable (h : SqlHolds db m)

include h

lemma stored_iff (u : UserRecord) : m.Stored u ↔ bindUser u ∈ db.users.rows := by
  constructor
  · rintro ⟨id, hu⟩
    rw [h.records] at hu
    split_ifs at hu
    rw [UsersDb.record, Option.map_eq_some_iff] at hu
    obtain ⟨row, hrow, rfl⟩ := hu
    have hmem := (UsersTable.mem_of_find hrow).1
    rwa [h.written row hmem]
  · intro hrow
    refine ⟨u.id, ?_⟩
    have hid : (bindUser u).id = rowId u.id := rfl
    rw [h.records, if_pos u.idFits, UsersDb.record, ← hid, UsersTable.find_of_mem hrow, Option.map_some,
      sqlRowToUser_bindUser]

lemma stored_row {row : UserRow} (hrow : row ∈ db.users.rows) : m.Stored (sqlRowToUser row) := by
  rw [h.stored_iff, h.written row hrow]
  exact hrow

lemma records_stored {u : UserRecord} (hu : m.Stored u) : m.records u.id = some u := by
  have hrow := (h.stored_iff u).mp hu
  have hid : (bindUser u).id = rowId u.id := rfl
  rw [h.records, if_pos u.idFits, UsersDb.record, ← hid, UsersTable.find_of_mem hrow, Option.map_some,
    sqlRowToUser_bindUser]

lemma eq_of_id {u v : UserRecord} (hu : m.Stored u) (hv : m.Stored v) (hid : u.id = v.id) : u = v := by
  have hsame := h.records_stored hu
  rw [hid, h.records_stored hv] at hsame
  exact (Option.some.inj hsame).symm

lemma eq_of_shareName {u v : UserRecord} (hu : m.Stored u) (hv : m.Stored v) (hs : ShareName u v) : u = v := by
  apply h.eq_of_id hu hv
  by_contra hid
  exact h.names u v hu hv hid hs

lemma find_isSome {id : ℕ} (hid : id < 2 ^ 64) : (db.users.find (rowId id)).isSome = (m.records id).isSome := by
  rw [h.records, if_pos hid, UsersDb.record, Option.isSome_map]

/-- The row that matches a column is that of the stored user with this name. -/
lemma find_column (choice : RowChoice) {column : UserRow → Bytes} {text : UserRecord → Bytes} {name : Bytes}
    (htext : ∀ u, column (bindUser u) = text u)
    (hone : ∀ u v, m.Stored u → m.Stored v → strIeq (text u) name = true → strIeq (text v) name = true → u = v) :
    (∀ u, sqlFindUserByColumn choice db .run column name = .ok u ↔ m.Stored u ∧ strIeq (text u) name = true) ∧
      (sqlFindUserByColumn choice db .run column name = .error .errNotFound ↔
        ∀ u, m.Stored u → strIeq (text u) name = false) := by
  have hrow : ∀ row ∈ db.users.rows, column row = text (sqlRowToUser row) := by
    intro row hmem
    rw [← htext, h.written row hmem]
  rw [sqlFindUserByColumn]
  cases hpick : choice.pick (db.users.rows.filter fun row => strIeq (column row) name) with
  | some row =>
    obtain ⟨hmem, hname⟩ := List.mem_filter.mp (choice.mem _ _ hpick)
    rw [hrow row hmem] at hname
    have hstored := h.stored_row hmem
    refine ⟨fun u => ?_, ?_⟩
    · constructor
      · intro hu
        obtain rfl := Except.ok.inj hu
        exact ⟨hstored, hname⟩
      · rintro ⟨hu, huname⟩
        rw [hone u _ hu hstored huname hname]
    · refine iff_of_false (by simp) fun hall => ?_
      rw [hall _ hstored] at hname
      exact Bool.false_ne_true hname
  | none =>
    have hnone : ∀ u, m.Stored u → strIeq (text u) name = false := by
      intro u hu
      have hbind := (h.stored_iff u).mp hu
      have hempty := List.filter_eq_nil_iff.mp (choice.any _ hpick) _ hbind
      rw [htext] at hempty
      exact Bool.eq_false_iff.mpr hempty
    refine ⟨fun u => iff_of_false (by simp) ?_, iff_of_true rfl hnone⟩
    rintro ⟨hu, hname⟩
    rw [hnone u hu] at hname
    exact Bool.false_ne_true hname

lemma find_eq (choice : RowChoice) {name given : Bytes} (hsame : ∀ a, strIeq a given = strIeq a name) :
    sqlFindUserByColumn choice db .run UserRow.username given = m.find name := by
  have htext : ∀ u, UserRow.username (bindUser u) = u.username.text := fun _ => rfl
  have hone : ∀ u v, m.Stored u → m.Stored v → strIeq u.username.text given = true →
      strIeq v.username.text given = true → u = v :=
    fun u v hu hv hun hvn => h.eq_of_shareName hu hv (shareName_of_username hun hvn)
  obtain ⟨hok, hnone⟩ := h.find_column choice htext hone
  rw [UserMap.find]
  split_ifs with hex
  · rw [hok, hsame]
    exact hex.choose_spec
  · rw [hnone]
    intro u hu
    rw [hsame]
    exact Bool.eq_false_iff.mpr fun hname => hex ⟨u, hu, hname⟩

end SqlHolds

lemma strIeq_map_lower (a b : Bytes) : strIeq a (b.map lower) = strIeq a b := by
  have hlower : (b.map lower).map lower = b.map lower := by
    rw [List.map_map]
    exact List.map_congr_left fun c _ => lower_lower c
  rw [strIeq, strIeq, hlower]

lemma rowId_injective {a b : ℕ} (ha : a < 2 ^ 64) (hb : b < 2 ^ 64) (h : rowId a = rowId b) : a = b := by
  rw [← rowId_toNat ha, h, rowId_toNat hb]

lemma sqlForeachUser_taken (db : UsersDb) (username nickname : Bytes) :
    sqlForeachUser .sound db (identityTakenCb username nickname) false =
      if ((sortedRows db).map sqlRowToUser).any (identityTaken username nickname) then (.errBusy, true)
      else (.ok, false) := by
  rw [sqlForeachUser, SqlIo.sound]
  dsimp only
  rw [visit_taken]
  split_ifs
  · rfl
  · rfl

lemma UserMap.stored_insert {u v : UserRecord} (h : (m.insert u).Stored v) : v = u ∨ m.Stored v ∧ ∃ id, id ≠ u.id ∧
    m.records id = some v := by
  obtain ⟨id, hv⟩ := h
  rw [UserMap.insert] at hv
  dsimp only at hv
  rcases eq_or_ne id u.id with rfl | hne
  · rw [Function.update_self] at hv
    exact .inl (Option.some.inj hv).symm
  · rw [Function.update_of_ne hne] at hv
    exact .inr ⟨⟨id, hv⟩, id, hne, hv⟩

namespace SqlHolds

variable (h : SqlHolds db m)

include h

lemma id_of_records {id : ℕ} {v : UserRecord} (hv : m.records id = some v) : v.id = id := by
  rw [h.records] at hv
  split_ifs at hv with hid
  rw [UsersDb.record, Option.map_eq_some_iff] at hv
  obtain ⟨row, hrow, rfl⟩ := hv
  have hback : (sqlRowToUser row).id = row.id.toUInt64.toNat := rfl
  rw [hback, (UsersTable.mem_of_find hrow).2, rowId_toNat hid]

/-- The tables with one user written, in a new row or in the one that was his. -/
lemma write {db' : UsersDb} {u : UserRecord} (hrecord : db'.record = Function.update db.record (rowId u.id) (some u))
    (hrows : ∀ row ∈ db'.users.rows, row = bindUser u ∨ row ∈ db.users.rows) (hlast : db'.lastId = db.lastId)
    (hknown : 0 < u.id ∧ u.id ≤ m.lastId) (hlower : u.normalize = u)
    (hnames : ∀ v, m.Stored v → v.id ≠ u.id → ¬ShareName u v) : SqlHolds db' (m.insert u) := by
  have hcases : ∀ v, (m.insert u).Stored v → v = u ∨ m.Stored v ∧ v.id ≠ u.id := by
    intro v hv
    refine (UserMap.stored_insert hv).imp_right ?_
    rintro ⟨hstored, id, hne, hid⟩
    exact ⟨hstored, by rwa [h.id_of_records hid]⟩
  refine ⟨?_, ?_, hlast.trans h.counter, ?_, ?_, ?_⟩
  · intro id
    rw [UserMap.insert, hrecord]
    dsimp only
    rcases eq_or_ne id u.id with rfl | hne
    · rw [Function.update_self, if_pos u.idFits, Function.update_self]
    · rw [Function.update_of_ne hne, h.records]
      split_ifs with hid
      · rw [Function.update_of_ne fun hrow => hne (rowId_injective hid u.idFits hrow)]
      · rfl
  · intro row hrow
    rcases hrows row hrow with rfl | hold
    · rw [sqlRowToUser_bindUser]
    · exact h.written row hold
  · intro v hv
    rcases hcases v hv with rfl | ⟨hold, -⟩
    · exact hknown
    · exact h.known v hold
  · intro v hv
    rcases hcases v hv with rfl | ⟨hold, -⟩
    · exact hlower
    · exact h.lowered v hold
  · intro v w hv hw hid
    rcases hcases v hv with rfl | ⟨hvold, hvid⟩
    · rcases hcases w hw with rfl | ⟨hwold, hwid⟩
      · exact absurd rfl hid
      · exact hnames w hwold hwid
    · rcases hcases w hw with rfl | ⟨hwold, -⟩
      · exact fun hs => hnames v hvold hvid (shareName_comm hs)
      · exact h.names v w hvold hwold hid

/-- A user with an id and names of his own gets past the constraints of the table. -/
lemma insert_new {u : UserRecord} (hfresh : ∀ v, m.Stored v → v.id ≠ u.id) (hnames : ∀ v, m.Stored v → ¬ShareName u v) :
    ∃ users, db.users.insert (bindUser u) = some users ∧
      ∀ row ∈ users.rows, row = bindUser u ∨ row ∈ db.users.rows := by
  have hid : (bindUser u).id ∉ db.users.rows.map UserRow.id := by
    intro hmem
    obtain ⟨row, hrow, hsame⟩ := List.mem_map.mp hmem
    rw [← h.written row hrow] at hsame
    exact hfresh _ (h.stored_row hrow) (rowId_injective (sqlRowToUser row).idFits u.idFits hsame)
  have hname : (bindUser u).username ∉ db.users.rows.map UserRow.username := by
    intro hmem
    obtain ⟨row, hrow, hsame⟩ := List.mem_map.mp hmem
    rw [← h.written row hrow] at hsame
    refine hnames _ (h.stored_row hrow) ⟨u.username.text, by simp, (sqlRowToUser row).username.text, by simp, ?_⟩
    rw [strIeq_iff]
    exact congrArg (List.map lower) hsame.symm
  refine ⟨_, by rw [UsersTable.insert, dif_pos ⟨hid, hname⟩], fun row hrow => ?_⟩
  exact List.mem_cons.mp hrow

lemma insertUser {u : UserRecord} (hpos : 0 < u.id) (hlast : u.id ≤ m.lastId)
    (hfresh : ∀ v, m.Stored v → v.id ≠ u.id) (hnames : ∀ v, m.Stored v → ¬ShareName u v) (hlower : u.normalize = u) :
    (sqlInsertUser .sound db u).1 = .ok u ∧ SqlHolds (sqlInsertUser .sound db u).2 (m.insert u) := by
  obtain ⟨users, hinsert, hrows⟩ := h.insert_new hfresh hnames
  rw [sqlInsertUser, hinsert]
  exact ⟨rfl, h.write (record_insert hinsert).2 hrows rfl ⟨hpos, hlast⟩ hlower fun v hv _ => hnames v hv⟩

lemma remove {id : ℕ} (hid : id < 2 ^ 64) :
    SqlHolds { db with users := db.users.delete (rowId id) } (m.remove id) := by
  have hback : ∀ v, (m.remove id).Stored v → m.Stored v := by
    rintro v ⟨other, hv⟩
    rw [UserMap.remove] at hv
    dsimp only at hv
    rcases eq_or_ne other id with rfl | hne
    · rw [Function.update_self] at hv
      cases hv
    · rw [Function.update_of_ne hne] at hv
      exact ⟨other, hv⟩
  refine ⟨?_, ?_, h.counter, fun v hv => h.known v (hback v hv), fun v hv => h.lowered v (hback v hv),
    fun v w hv hw => h.names v w (hback v hv) (hback w hw)⟩
  · intro other
    rw [UserMap.remove, record_delete]
    dsimp only
    rcases eq_or_ne other id with rfl | hne
    · rw [Function.update_self, Function.update_self, if_pos hid]
    · rw [Function.update_of_ne hne, h.records]
      split_ifs with hother
      · rw [Function.update_of_ne fun hrow => hne (rowId_injective hother hid hrow)]
      · rfl
  · exact fun row hrow => h.written row (List.mem_of_mem_filter hrow)

lemma mem_sorted_iff (u : UserRecord) : u ∈ (sortedRows db).map sqlRowToUser ↔ m.Stored u := by
  have hperm : (sortedRows db).Perm db.users.rows := List.mergeSort_perm _ _
  constructor
  · intro hu
    obtain ⟨row, hrow, rfl⟩ := List.mem_map.mp hu
    exact h.stored_row (hperm.mem_iff.mp hrow)
  · intro hu
    refine List.mem_map.mpr ⟨bindUser u, hperm.mem_iff.mpr ((h.stored_iff u).mp hu), sqlRowToUser_bindUser u⟩

lemma taken_iff (username nickname : Bytes) : (∃ u, m.Stored u ∧ identityTaken username nickname u = true) ↔
    ((sortedRows db).map sqlRowToUser).any (identityTaken username nickname) = true := by
  rw [List.any_eq_true]
  exact exists_congr fun u => and_congr_left fun _ => (h.mem_sorted_iff u).symm

lemma find_user (choice : RowChoice) {name : Bytes} (hfits : strlcpy userNameMax name = name) :
    sqlFindUser .sound choice db name = m.find name := by
  apply h.find_eq choice
  intro a
  rw [hfits, strIeq_map_lower]

lemma bumped (hlt : m.lastId + 1 < 2 ^ 64) : ∃ id next, sqlMetaBump .sound db userNext = (.ok id, next) ∧
    (⟨id.toNat, id.toNat_lt⟩ : Fin (2 ^ 64)) = Fin.ofNat (2 ^ 64) (m.lastId + 1) ∧
      SqlHolds next { m with lastId := m.lastId + 1 } := by
  have hcounter := h.counter
  rw [UsersDb.lastId] at hcounter
  have hnext : ((db.metaTable userNext).elim 0 Int64.toUInt64 + 1).toNat = m.lastId + 1 := by
    rw [UInt64.toNat_add, hcounter]
    exact Nat.mod_eq_of_lt hlt
  refine ⟨_, _, rfl, ?_, h.records, h.written, ?_, ?_, h.lowered, h.names⟩
  · apply Fin.ext
    rw [Fin.val_ofNat, Nat.mod_eq_of_lt hlt]
    exact hnext
  · rw [UsersDb.lastId]
    dsimp only
    rw [Function.update_self, Option.elim_some]
    exact hnext
  · exact fun u hu => ⟨(h.known u hu).1, Nat.le_succ_of_le (h.known u hu).2⟩

end SqlHolds

lemma lower_newUser {reg : UserRegistration} {guestPrefix : Bytes} (hv : registrationValid reg guestPrefix = true)
    (now : Int64) (id : Fin (2 ^ 64)) (password : CText userPasswordMax) :
    ({ newUser reg now id with password := password } : UserRecord).normalize =
      { newUser reg now id with password := password } := by
  have hchars := (username_chars (registration_parts hv).1).2
  have hidem : reg.username.lower.lower = reg.username.lower := CText.ext (lower_idem hchars)
  rw [UserRecord.normalize, newUser]
  dsimp only
  rw [hidem]

/-- Words where the store takes words, names that fit, an id to give out, and updates that bring the names the user
has. -/
def StoreOp.Plain (guestPrefix : Bytes) (m : UserMap) : StoreOp → Prop
  | .register _ reg => registrationValid reg guestPrefix = true → m.lastId + 1 < 2 ^ 64
  | .update u => ∀ v, m.Stored v → v.id = u.id → u.username = v.username ∧ u.nickname = v.nickname
  | .delete id => id < 2 ^ 64
  | .find name => strlcpy userNameMax name = name

section Step

variable (choice : RowChoice) (backend : HashBackend) (guestPrefix : Bytes)

lemma SqlHolds.step_register (h : SqlHolds db m) {now : Int64} {reg : UserRegistration}
    (hplain : (StoreOp.register now reg).Plain guestPrefix m) :
    SqlHolds (sqlStep choice backend guestPrefix db ⟨.register now reg, .sound⟩).1
        (m.step backend guestPrefix (.register now reg)).1 ∧
      (sqlStep choice backend guestPrefix db ⟨.register now reg, .sound⟩).2 =
        (m.step backend guestPrefix (.register now reg)).2 := by
  rw [sqlStep, UserMap.step]
  dsimp only
  rw [sqlRegisterUser, UserMap.register]
  by_cases hv : registrationValid reg guestPrefix = true
  · rw [hv, if_neg (by simp), if_neg (by simp), h.find_user choice (strlcpy_of_fits reg.username.fits),
      sqlForeachUser_taken]
    by_cases htaken : ((sortedRows db).map sqlRowToUser).any (identityTaken reg.username.text reg.nickname.text) = true
    · rw [if_pos ((h.taken_iff _ _).mpr htaken), if_pos htaken]
      cases hfind : m.find reg.username.text with
      | ok u => exact ⟨h, rfl⟩
      | error rc =>
        rw [UserMap.find] at hfind
        split_ifs at hfind
        obtain rfl := Except.error.inj hfind
        exact ⟨h, rfl⟩
    · rw [if_neg fun hex => htaken ((h.taken_iff _ _).mp hex), if_neg htaken]
      have hfree : ∀ u, m.Stored u → identityTaken reg.username.text reg.nickname.text u = false :=
        fun u hu => Bool.eq_false_iff.mpr fun ht => htaken ((h.taken_iff _ _).mp ⟨u, hu, ht⟩)
      have hnone : m.find reg.username.text = .error .errNotFound := by
        rw [UserMap.find, dif_neg]
        rintro ⟨u, hu, hname⟩
        have hfreeu := hfree u hu
        simp only [identityTaken, Bool.or_eq_false_iff] at hfreeu
        rw [hname] at hfreeu
        exact absurd hfreeu.1.1 (by simp)
      obtain ⟨id, next, hbump, hid, hnext⟩ := h.bumped (hplain hv)
      rw [hnone, hbump]
      dsimp only
      rw [hid]
      cases hpassword : registeredPassword backend reg.password.text with
      | none => exact ⟨hnext, rfl⟩
      | some password =>
        have hapart : ∀ v, m.Stored v →
            ¬ShareName { newUser reg now (Fin.ofNat (2 ^ 64) (m.lastId + 1)) with password := password } v :=
          fun v hv' => apart_new hv (hfree v hv') now _ _
        have hlower := lower_newUser hv now (Fin.ofNat (2 ^ 64) (m.lastId + 1)) password
        have hval : ({ newUser reg now (Fin.ofNat (2 ^ 64) (m.lastId + 1)) with password := password } :
            UserRecord).id = m.lastId + 1 := Nat.mod_eq_of_lt (hplain hv)
        have hfresh : ∀ v, m.Stored v →
            v.id ≠ ({ newUser reg now (Fin.ofNat (2 ^ 64) (m.lastId + 1)) with password := password } :
              UserRecord).id := by
          intro v hv'
          have hle := (h.known v hv').2
          rw [hval]
          omega
        have hpos := (Nat.succ_pos m.lastId).trans_eq hval.symm
        obtain ⟨hout, hholds⟩ := hnext.insertUser hpos hval.le hfresh hapart hlower
        exact ⟨hholds, congrArg (fun out => [Outcome.registered out]) hout⟩
  · rw [Bool.not_eq_true] at hv
    rw [hv, if_pos rfl, if_pos rfl]
    exact ⟨h, rfl⟩

lemma SqlHolds.step_delete (h : SqlHolds db m) {id : ℕ} (hid : id < 2 ^ 64) :
    SqlHolds (sqlStep choice backend guestPrefix db ⟨.delete id, .sound⟩).1
        (m.step backend guestPrefix (.delete id)).1 ∧
      (sqlStep choice backend guestPrefix db ⟨.delete id, .sound⟩).2 =
        (m.step backend guestPrefix (.delete id)).2 := by
  rw [sqlStep, UserMap.step]
  dsimp only
  rw [sqlDeleteUser, UserMap.delete]
  by_cases hzero : id = 0
  · rw [if_pos hzero, if_pos hzero]
    exact ⟨h, rfl⟩
  · have hsome := h.find_isSome hid
    have hremoved := h.remove hid
    rw [if_neg hzero, if_neg hzero, SqlIo.sound]
    dsimp only
    rw [hsome]
    cases hrecord : m.records id with
    | some u => exact ⟨hremoved, rfl⟩
    | none =>
      have hsame : m.remove id = m := by
        rw [UserMap.remove, ← hrecord, Function.update_eq_self]
      rw [hsame] at hremoved
      exact ⟨hremoved, rfl⟩

/-- An update that brings the names the user has breaks no constraint. -/
lemma SqlHolds.update_same (h : SqlHolds db m) {u : UserRecord}
    (hnames : ∀ v, m.Stored v → v.id = u.id → u.username = v.username ∧ u.nickname = v.nickname) :
    ∃ users, db.users.update (bindUser u) = some users ∧
      users.rows = db.users.rows.map (UsersTable.replaceRow (bindUser u)) := by
  have hrows : (db.users.rows.map (UsersTable.replaceRow (bindUser u))).map UserRow.username =
      db.users.rows.map UserRow.username := by
    rw [List.map_map]
    apply List.map_congr_left
    intro row hrow
    rw [Function.comp_apply, UsersTable.replaceRow]
    split_ifs with hid
    · have hstored := h.stored_row hrow
      have hback : bindUser (sqlRowToUser row) = row := h.written row hrow
      rw [← hback] at hid
      obtain ⟨huser, -⟩ := hnames _ hstored (rowId_injective (sqlRowToUser row).idFits u.idFits hid)
      rw [← hback]
      exact congrArg CText.text huser
    · rfl
  refine ⟨_, by rw [UsersTable.update, dif_pos (hrows ▸ db.users.unique)], rfl⟩

lemma SqlHolds.step_update (h : SqlHolds db m) {u : UserRecord} (hplain : (StoreOp.update u).Plain guestPrefix m) :
    SqlHolds (sqlStep choice backend guestPrefix db ⟨.update u, .sound⟩).1
        (m.step backend guestPrefix (.update u)).1 ∧
      (sqlStep choice backend guestPrefix db ⟨.update u, .sound⟩).2 =
        (m.step backend guestPrefix (.update u)).2 := by
  rw [sqlStep, UserMap.step]
  dsimp only
  rw [sqlUpdateUser, UserMap.update]
  by_cases hzero : u.id = 0
  · rw [if_pos hzero, if_pos hzero]
    exact ⟨h, rfl⟩
  · obtain ⟨users, hupdate, hrows⟩ := h.update_same hplain
    have hrecord := record_update hupdate
    have hsome := h.find_isSome u.idFits
    rw [if_neg hzero, if_neg hzero, SqlIo.sound, hupdate]
    dsimp only
    rw [hsome]
    cases hold : m.records u.id with
    | none =>
      rw [hsome, hold, if_neg (by simp)] at hrecord
      have hsame : users.rows = db.users.rows := by
        rw [hrows]
        conv_rhs => rw [← List.map_id db.users.rows]
        apply List.map_congr_left
        intro row hrow
        rw [UsersTable.replaceRow, if_neg]
        · rfl
        · intro hid
          have hstored := h.stored_row hrow
          have hback : bindUser (sqlRowToUser row) = row := h.written row hrow
          rw [← hback] at hid
          have heq := h.records_stored hstored
          rw [rowId_injective (sqlRowToUser row).idFits u.idFits hid, hold] at heq
          cases heq
      refine ⟨⟨?_, ?_, h.counter, h.known, h.lowered, h.names⟩, rfl⟩
      · rw [hrecord]
        exact h.records
      · dsimp only
        rw [hsame]
        exact h.written
    | some v =>
      have hv : m.Stored v := ⟨u.id, hold⟩
      have hid : v.id = u.id := h.id_of_records hold
      obtain ⟨huser, hnick⟩ := hplain v hv hid
      have hlower : u.normalize = u := by
        have hvlower : v.username.lower = v.username := congrArg UserRecord.username (h.lowered v hv)
        rw [UserRecord.normalize, huser, hvlower, ← huser]
      rw [hsome, hold, if_pos (by simp)] at hrecord
      have hwritten : ∀ row ∈ users.rows, row = bindUser u ∨ row ∈ db.users.rows := by
        intro row hrow
        rw [hrows] at hrow
        obtain ⟨old, hmem, rfl⟩ := List.mem_map.mp hrow
        rw [UsersTable.replaceRow]
        split_ifs
        · exact .inl rfl
        · exact .inr hmem
      have hnames : ∀ w, m.Stored w → w.id ≠ u.id → ¬ShareName u w := by
        intro w hw hwid hshare
        have hshare' : ShareName v w := by rwa [ShareName, huser, hnick] at hshare
        exact h.names v w hv hw (by rw [hid]; exact hwid.symm) hshare'
      have hknown := h.known v hv
      rw [hid] at hknown
      rw [hlower]
      exact ⟨h.write hrecord hwritten rfl hknown hlower hnames, rfl⟩

lemma SqlHolds.step (h : SqlHolds db m) {op : StoreOp} (hop : op.Plain guestPrefix m) :
    SqlHolds (sqlStep choice backend guestPrefix db ⟨op, .sound⟩).1 (m.step backend guestPrefix op).1 ∧
      (sqlStep choice backend guestPrefix db ⟨op, .sound⟩).2 = (m.step backend guestPrefix op).2 := by
  cases op with
  | register now reg => exact h.step_register choice backend guestPrefix hop
  | update u => exact h.step_update choice backend guestPrefix hop
  | delete id => exact h.step_delete choice backend guestPrefix hop
  | find name =>
    rw [sqlStep, UserMap.step]
    dsimp only
    rw [h.find_user choice hop]
    exact ⟨h, rfl⟩

end Step

lemma sqlResolveUser_sound (choice : RowChoice) (db : UsersDb) {name : Bytes} (hne : name ≠ []) :
    sqlResolveUser .sound choice db name =
    match sqlFindUser .sound choice db name with
    | .error .errNotFound => sqlFindUserByColumn choice db .run UserRow.nickname name
    | out => out := by
  rw [sqlResolveUser, if_neg hne]
  rfl

lemma sqlForeachUser_sound (db : UsersDb) {σ : Type} (fn : σ → UserRecord → HybbxResult × σ) (ctx : σ) :
    sqlForeachUser .sound db fn ctx =
      (if (visitUsers fn ctx ((sortedRows db).map sqlRowToUser)).1 = .ok then .ok else .errBusy,
        (visitUsers fn ctx ((sortedRows db).map sqlRowToUser)).2) := by
  rw [sqlForeachUser, SqlIo.sound]
  dsimp only
  split
  · rename_i hout
    rw [hout, if_pos rfl]
  · rename_i hnot hout
    rw [hout, if_neg hnot]

lemma sqlFindUserByColumn_cases (choice : RowChoice) (db : UsersDb) (column : UserRow → Bytes) (name : Bytes) :
    (∃ u, sqlFindUserByColumn choice db .run column name = .ok u) ∨
      sqlFindUserByColumn choice db .run column name = .error .errNotFound := by
  rw [sqlFindUserByColumn]
  split
  · exact .inl ⟨_, rfl⟩
  · exact .inr rfl

lemma sqlFindUser_cases (choice : RowChoice) (db : UsersDb) (name : Bytes) :
    (∃ u, sqlFindUser .sound choice db name = .ok u) ∨ sqlFindUser .sound choice db name = .error .errNotFound :=
  sqlFindUserByColumn_cases choice db UserRow.username _

lemma sqlResolveUser_cases (choice : RowChoice) (db : UsersDb) {name : Bytes} (hne : name ≠ []) :
    (∃ u, sqlResolveUser .sound choice db name = .ok u) ∨
      sqlResolveUser .sound choice db name = .error .errNotFound := by
  rw [sqlResolveUser_sound choice db hne]
  rcases sqlFindUser_cases choice db name with ⟨u, hu⟩ | hu
  · rw [hu]
    exact .inl ⟨u, rfl⟩
  · rw [hu]
    exact sqlFindUserByColumn_cases choice db UserRow.nickname name

/-- The tables answer every question as the map does; a name is cut before it is looked for. -/
structure SqlAnswersAs (choice : RowChoice) (db : UsersDb) (m : UserMap) : Prop where
  find : ∀ name, sqlFindUser .sound choice db name = m.find (strlcpy userNameMax name)
  resolve_ok : ∀ name u, name ≠ [] → (sqlResolveUser .sound choice db name = .ok u ↔ m.Stored u ∧
    (strIeq u.username.text ((strlcpy userNameMax name).map lower) = true ∨
      (∀ v, m.Stored v → strIeq v.username.text ((strlcpy userNameMax name).map lower) = false) ∧
        strIeq u.nickname.text name = true))
  resolve_none : ∀ name, name ≠ [] → (sqlResolveUser .sound choice db name = .error .errNotFound ↔
    ∀ u, m.Stored u → strIeq u.username.text ((strlcpy userNameMax name).map lower) = false ∧
      strIeq u.nickname.text name = false)
  foreach : ∃ us : List UserRecord, us.Nodup ∧ (∀ u, u ∈ us ↔ m.Stored u) ∧
    ∀ (σ : Type) (fn : σ → UserRecord → HybbxResult × σ) (ctx : σ), sqlForeachUser .sound db fn ctx =
      (if (visitUsers fn ctx us).1 = .ok then .ok else .errBusy, (visitUsers fn ctx us).2)
  count : ∀ level, sqlCountLevel .sound db level = .ok (Set.ncard {u | m.Stored u ∧ u.level = level})

namespace SqlHolds

variable (h : SqlHolds db m) (choice : RowChoice)

include h

lemma find_username (name : Bytes) : (∀ u, sqlFindUser .sound choice db name = .ok u ↔
    m.Stored u ∧ strIeq u.username.text ((strlcpy userNameMax name).map lower) = true) ∧
      (sqlFindUser .sound choice db name = .error .errNotFound ↔
        ∀ u, m.Stored u → strIeq u.username.text ((strlcpy userNameMax name).map lower) = false) := by
  have htext : ∀ u, UserRow.username (bindUser u) = u.username.text := fun _ => rfl
  exact h.find_column choice htext
    fun u v hu hv hun hvn => h.eq_of_shareName hu hv (shareName_of_username hun hvn)

lemma find_nickname (name : Bytes) : (∀ u, sqlFindUserByColumn choice db .run UserRow.nickname name = .ok u ↔
    m.Stored u ∧ strIeq u.nickname.text name = true) ∧
      (sqlFindUserByColumn choice db .run UserRow.nickname name = .error .errNotFound ↔
        ∀ u, m.Stored u → strIeq u.nickname.text name = false) := by
  have htext : ∀ u, UserRow.nickname (bindUser u) = u.nickname.text := fun _ => rfl
  have hone : ∀ u v, m.Stored u → m.Stored v → strIeq u.nickname.text name = true →
      strIeq v.nickname.text name = true → u = v := by
    intro u v hu hv hun hvn
    rw [strIeq_iff] at hun hvn
    refine h.eq_of_shareName hu hv ⟨u.nickname.text, by simp, v.nickname.text, by simp, ?_⟩
    rw [strIeq_iff, hun, hvn]
  exact h.find_column choice htext hone

lemma nodup_sorted : ((sortedRows db).map sqlRowToUser).Nodup := by
  have hperm : (sortedRows db).Perm db.users.rows := List.mergeSort_perm _ _
  have hrows : (sortedRows db).Nodup := hperm.nodup_iff.mpr (List.Nodup.of_map _ db.users.primaryKey)
  refine hrows.map_on fun row hrow other hother hsame => ?_
  rw [← h.written row (hperm.mem_iff.mp hrow), ← h.written other (hperm.mem_iff.mp hother), hsame]

lemma level_count (level : UserLevel) : (db.users.rows.countP fun row => row.level = level) =
    Set.ncard {u | m.Stored u ∧ u.level = level} := by
  have hset : {u | m.Stored u ∧ u.level = level} =
      ((((sortedRows db).map sqlRowToUser).filter fun u => u.level = level).toFinset : Set UserRecord) := by
    ext u
    rw [List.coe_toFinset, Set.mem_ofPred_eq, Set.mem_ofPred_eq, List.mem_filter, h.mem_sorted_iff, decide_eq_true_eq]
  have hperm : (sortedRows db).Perm db.users.rows := List.mergeSort_perm _ _
  rw [hset, Set.ncard_coe_finset, List.toFinset_card_of_nodup (h.nodup_sorted.filter _), ← List.countP_eq_length_filter,
    List.countP_map, ← hperm.countP_eq]
  rfl

lemma find_cut (name : Bytes) : sqlFindUser .sound choice db name = m.find (strlcpy userNameMax name) :=
  h.find_eq choice fun a => strIeq_map_lower a _

lemma answers : SqlAnswersAs choice db m where
  find := h.find_cut choice
  resolve_ok name u hne := by
    obtain ⟨hok, hnone⟩ := h.find_username choice name
    obtain ⟨hnick, -⟩ := h.find_nickname choice name
    rw [sqlResolveUser_sound choice db hne]
    rcases sqlFindUser_cases choice db name with ⟨v, hfind⟩ | hfind
    · obtain ⟨hv, hname⟩ := (hok v).mp hfind
      rw [hfind]
      constructor
      · intro hu
        obtain rfl := Except.ok.inj hu
        exact ⟨hv, .inl hname⟩
      · rintro ⟨hu, huname | ⟨hfree, -⟩⟩
        · rw [h.eq_of_shareName hu hv (shareName_of_username huname hname)]
        · rw [hfree v hv] at hname
          exact absurd hname Bool.false_ne_true
    · have hfree := hnone.mp hfind
      rw [hfind]
      dsimp only
      rw [hnick]
      constructor
      · exact fun hu => ⟨hu.1, .inr ⟨hfree, hu.2⟩⟩
      · rintro ⟨hu, huname | ⟨-, hname⟩⟩
        · rw [hfree u hu] at huname
          exact absurd huname Bool.false_ne_true
        · exact ⟨hu, hname⟩
  resolve_none name hne := by
    obtain ⟨hok, hnone⟩ := h.find_username choice name
    obtain ⟨-, hnick⟩ := h.find_nickname choice name
    rw [sqlResolveUser_sound choice db hne]
    rcases sqlFindUser_cases choice db name with ⟨v, hfind⟩ | hfind
    · obtain ⟨hv, hname⟩ := (hok v).mp hfind
      rw [hfind]
      refine iff_of_false (by simp) fun hall => ?_
      rw [(hall v hv).1] at hname
      exact absurd hname Bool.false_ne_true
    · rw [hfind]
      dsimp only
      rw [hnick]
      exact ⟨fun hall u hu => ⟨hnone.mp hfind u hu, hall u hu⟩, fun hall u hu => (hall u hu).2⟩
  foreach := ⟨_, h.nodup_sorted, h.mem_sorted_iff, fun _ fn ctx => sqlForeachUser_sound db fn ctx⟩
  count level := by
    rw [sqlCountLevel, SqlIo.sound]
    dsimp only
    rw [h.level_count]

end SqlHolds

section Run

variable (choice : RowChoice) (backend : HashBackend) (guestPrefix : Bytes)

/-- The calls of a database that runs every statement. -/
def soundCalls (ops : List StoreOp) : List SqlCall := ops.map fun op => ⟨op, .sound⟩

lemma sqlRun_sound (ops : List StoreOp) : sqlRun choice backend guestPrefix (soundCalls ops) =
    Transducer.run (fun db op => sqlStep choice backend guestPrefix db ⟨op, .sound⟩) .created ops := by
  have hrun : ∀ db, Transducer.run (sqlStep choice backend guestPrefix) db (soundCalls ops) =
      Transducer.run (fun db op => sqlStep choice backend guestPrefix db ⟨op, .sound⟩) db ops := by
    induction ops with
    | nil => exact fun _ => rfl
    | cons op ops ih =>
      intro db
      have hcons : soundCalls (op :: ops) = ⟨op, .sound⟩ :: soundCalls ops := rfl
      rw [hcons, Transducer.run_cons, Transducer.run_cons, ih]
  exact hrun .created

/-- The run on the tables and the run on the map agree, in what each operation returned and in every answer after
the last one. -/
structure SqlRefinesMap (ops : List StoreOp) : Prop where
  outcomes : (sqlRun choice backend guestPrefix (soundCalls ops)).2 = (UserMap.run backend guestPrefix ops).2
  answers : SqlAnswersAs choice (sqlRun choice backend guestPrefix (soundCalls ops)).1
    (UserMap.run backend guestPrefix ops).1
  namesApart : NamesApart (UserMap.run backend guestPrefix ops).1

/-- What an operation may bring to either backend: ids are words, names fit their buffer. -/
def StoreOp.Fits : StoreOp → Prop
  | .delete id => id < 2 ^ 64
  | .find name => strlcpy userNameMax name = name
  | _ => True

lemma StoreOp.Fine.plain {dir : UsersDir} {uss : List (List UserRecord)} (hr : Represents dir uss m) {op : StoreOp}
    (hfine : op.Fine guestPrefix dir) (hfits : op.Fits) : op.Plain guestPrefix m := by
  cases op with
  | register now reg => exact fun hv => (registerClear guestPrefix hfine.2 hv).2.2 _ hr.counter
  | update u =>
    intro v hv hid
    obtain ⟨-, -, -, -, hnames⟩ := hfine.1
    exact hnames v ((hr.layout.held_iff v).mpr ((hr.stands.mem_iff v).mpr hv)) hid
  | delete id => exact hfits
  | find name => exact hfits

lemma resolve_agrees {dir : UsersDir} (htables : SqlAnswersAs choice db m) (hfiles : AnswersAs dir m) (name : Bytes) :
    sqlResolveUser .sound choice db name = resolveUser dir name := by
  by_cases hname : name = []
  · rw [sqlResolveUser, if_pos hname, resolveUser, if_pos hname]
  · have hnick : ∀ u : UserRecord, strIeq u.nickname.text name = true ↔
        u.nickname.text ≠ [] ∧ strIeq u.nickname.text name = true := by
      intro u
      refine (and_iff_right_of_imp fun hsame hempty => hname ?_).symm
      rw [strIeq_iff, hempty, List.map_nil] at hsame
      exact List.map_eq_nil_iff.mp hsame.symm
    have hok : ∀ u, sqlResolveUser .sound choice db name = .ok u ↔ resolveUser dir name = .ok u := by
      intro u
      rw [htables.resolve_ok name u hname, hfiles.resolve_ok name u hname]
      exact and_congr_right fun _ => or_congr_right (and_congr_right fun _ => hnick u)
    have hnone : sqlResolveUser .sound choice db name = .error .errNotFound ↔
        resolveUser dir name = .error .errNotFound := by
      rw [htables.resolve_none name hname, hfiles.resolve_none name hname]
      refine forall₂_congr fun u _ => and_congr_right fun _ => ?_
      rw [← hnick, Bool.not_eq_true]
    rcases sqlResolveUser_cases choice db hname with ⟨u, hu⟩ | hu
    · rw [hu, (hok u).mp hu]
    · rw [hu, hnone.mp hu]

end Run

end HyBBX.Storage
