import HyBBX.Storage.Represents

/-! One operation on the files does what it does on the map. -/

namespace HyBBX.Storage

open HyBBX.Core HyBBX.Config Lib Lib.Bytes Lib.Text Lib.Numeral Lib.LineReader

variable {dir : UsersDir} {uss : List (List UserRecord)} {m : UserMap}

/-- The user whose record an operation replaces or removes. -/
def StoreOp.changes : StoreOp → Option ℕ
  | .register _ _ => none
  | .update u => some u.id
  | .delete id => some id
  | .find _ => none

def givenIds (outs : List Outcome) : List ℕ :=
  outs.filterMap fun out =>
    match out with
    | .registered (.ok u) => some u.id
    | _ => none

/-- After an operation the files stand for the next map, with every user it was not about as before. -/
structure StepSpec (uss : List (List UserRecord)) (m : UserMap) (op : StoreOp) (next : UsersDir × List Outcome)
    (spec : UserMap × List Outcome) : Prop where
  represents : ∃ uss', Represents next.1 uss' spec.1
  others : ∀ u ∈ uss.flatten, op.changes ≠ some u.id → spec.1.Stored u
  outcome : next.2 = spec.2
  grows : m.lastId ≤ spec.1.lastId
  fresh : (givenIds next.2).Pairwise (· < ·) ∧ ∀ id ∈ givenIds next.2, m.lastId < id ∧ id ≤ spec.1.lastId

lemma StepSpec.same (h : Represents dir uss m) (op : StoreOp) {out : Outcome} (hout : givenIds [out] = []) :
    StepSpec uss m op (dir, [out]) (m, [out]) where
  represents := ⟨uss, h⟩
  others u hu _ := (h.stands.mem_iff u).mp hu
  outcome := rfl
  grows := le_refl _
  fresh := by rw [hout]; exact ⟨List.Pairwise.nil, by simp⟩

lemma Represents.find_eq (h : Represents dir uss m) (name : Bytes) : findUser dir name = m.find name := by
  rw [UserMap.find]
  split_ifs with hex
  · exact (h.answers.find_ok name _).mpr hex.choose_spec
  · refine (h.answers.find_none name).mpr fun u hu => Bool.eq_false_iff.mpr fun hname => hex ⟨u, hu, hname⟩

section Change

variable {before behind : List UserRecord} {u : UserRecord}

/-- The other users have other ids. -/
lemma Stands.id_ne (h : Stands (before ++ u :: behind) m) : ∀ v ∈ before ++ behind, v.id ≠ u.id := by
  have hids := h.ids
  rw [List.map_append, List.map_cons] at hids
  have hnot := (List.nodup_middle.mp hids).notMem
  intro v hv hid
  apply hnot
  rw [← hid, ← List.map_append]
  exact List.mem_map_of_mem hv

lemma Stands.remove (h : Stands (before ++ u :: behind) m) : Stands (before ++ behind) (m.remove u.id) := by
  have hsub : ∀ v ∈ before ++ behind, v ∈ before ++ u :: behind := fun v hv =>
    List.mem_append.mpr ((List.mem_append.mp hv).imp_right (List.mem_cons_of_mem u))
  have hids := h.ids
  rw [List.map_append, List.map_cons] at hids
  have hstored : ∀ id v, (m.remove u.id).records id = some v ↔ v ∈ before ++ behind ∧ v.id = id := by
    intro id v
    rw [UserMap.remove]
    dsimp only
    rcases eq_or_ne id u.id with rfl | hne
    · rw [Function.update_self]
      exact iff_of_false (by simp) fun hv => h.id_ne v hv.1 hv.2
    · rw [Function.update_of_ne hne, h.stored]
      refine and_congr_left fun hid => ⟨fun hv => ?_, hsub v⟩
      rcases List.mem_append.mp hv with hv | hv
      · exact List.mem_append_left _ hv
      · rcases List.mem_cons.mp hv with rfl | hv
        · exact absurd hid.symm hne
        · exact List.mem_append_right _ hv
  have hback : ∀ v, (m.remove u.id).Stored v → m.Stored v := by
    rintro v ⟨id, hv⟩
    exact (h.mem_iff v).mp (hsub v ((hstored id v).mp hv).1)
  refine ⟨hstored, ?_, fun v hv => h.settled v (hsub v hv), fun v hv => h.known v (hsub v hv), ?_⟩
  · rw [List.map_append]
    exact (List.nodup_middle.mp hids).of_cons
  · exact fun v w hv hw => h.names v w (hback v hv) (hback w hw)

lemma shareName_comm {u v : UserRecord} (h : ShareName u v) : ShareName v u := by
  obtain ⟨a, ha, b, hb, hab⟩ := h
  refine ⟨b, hb, a, ha, ?_⟩
  rw [strIeq_iff] at hab ⊢
  exact hab.symm

lemma Stands.insert (h : Stands (before ++ behind) m) (hfree : ∀ v ∈ before ++ behind, v.id ≠ u.id) (hu : Settled u)
    (hknown : u.id ≤ m.lastId) (hnames : ∀ v ∈ before ++ behind, ¬ShareName u v) :
    Stands (before ++ u :: behind) (m.insert u) := by
  have hmem : ∀ v, v ∈ before ++ u :: behind ↔ v = u ∨ v ∈ before ++ behind := by
    intro v
    simp only [List.mem_append, List.mem_cons]
    exact or_left_comm
  have hstored : ∀ id v, (m.insert u).records id = some v ↔ v ∈ before ++ u :: behind ∧ v.id = id := by
    intro id v
    rw [UserMap.insert, hmem]
    dsimp only
    rcases eq_or_ne id u.id with rfl | hne
    · rw [Function.update_self, Option.some.injEq]
      constructor
      · rintro rfl
        exact ⟨.inl rfl, rfl⟩
      · rintro ⟨rfl | hv, hid⟩
        · rfl
        · exact absurd hid (hfree v hv)
    · rw [Function.update_of_ne hne, h.stored]
      refine and_congr_left fun hid => ⟨.inr, ?_⟩
      rintro (rfl | hv)
      · exact absurd hid.symm hne
      · exact hv
  have hcases : ∀ v, (m.insert u).Stored v → v = u ∨ v ∈ before ++ behind := by
    rintro v ⟨id, hv⟩
    exact (hmem v).mp ((hstored id v).mp hv).1
  refine ⟨hstored, ?_, ?_, ?_, ?_⟩
  · rw [List.map_append, List.map_cons, List.nodup_middle, ← List.map_append, List.nodup_cons]
    refine ⟨fun hm => ?_, h.ids⟩
    obtain ⟨v, hv, hid⟩ := List.mem_map.mp hm
    exact hfree v hv hid
  · intro v hv
    rcases (hmem v).mp hv with rfl | hv
    · exact hu
    · exact h.settled v hv
  · intro v hv
    rcases (hmem v).mp hv with rfl | hv
    · exact hknown
    · exact h.known v hv
  · intro v w hv hw hid
    rcases hcases v hv with rfl | hvold
    · rcases hcases w hw with rfl | hwold
      · exact absurd rfl hid
      · exact hnames w hwold
    · rcases hcases w hw with rfl | hwold
      · exact fun hs => hnames v hvold (shareName_comm hs)
      · exact h.names v w ((h.mem_iff v).mp hvold) ((h.mem_iff w).mp hwold) hid

lemma insert_remove {v : UserRecord} (hid : v.id = u.id) : (m.remove u.id).insert v = m.insert v := by
  rw [UserMap.insert, UserMap.insert, UserMap.remove, hid]
  dsimp only
  rw [Function.update_idem]

lemma Stands.replace (h : Stands (before ++ u :: behind) m) {v : UserRecord} (hid : v.id = u.id) (hv : Settled v)
    (huser : v.username = u.username) (hnick : v.nickname = u.nickname) :
    Stands (before ++ v :: behind) (m.insert v) := by
  have hu : u ∈ before ++ u :: behind := by simp
  rw [← insert_remove hid]
  refine h.remove.insert ?_ hv (by rw [hid]; exact h.known u hu) ?_
  · rw [hid]
    exact h.id_ne
  · intro w hw hshare
    have hshare' : ShareName u w := by rwa [ShareName, huser, hnick] at hshare
    have hne := h.id_ne w hw
    have hwu : w ∈ before ++ u :: behind :=
      List.mem_append.mpr ((List.mem_append.mp hw).imp_right (List.mem_cons_of_mem u))
    exact hne (congrArg UserRecord.id (h.eq_of_shareName hu hwu hshare')).symm

end Change

/-- One shard is rewritten without failures. -/
lemma Layout.rewrite (h : Layout dir uss) {pre post : List (List UserRecord)} (ha : Around uss pre post)
    (hfew : pre.length + 1 < userShardIndexEnd) (s : UserShard) (hcount : readCounter dir = .ok m.lastId)
    (hm : Stands (pre ++ s.users :: post).flatten m) :
    (saveUserShard .sound dir (pre.length + 1) s).1 = .ok ∧
      Represents (saveUserShard .sound dir (pre.length + 1) s).2 (pre ++ s.users :: post) m := by
  have hsub : List.Sublist s.users (pre ++ s.users :: post).flatten := List.sublist_flatten_of_mem (by simp)
  have hids : (s.users.map UserRecord.id).Nodup := hm.ids.sublist (hsub.map _)
  have hend : userShardIndexEnd = 10000 := rfl
  have hload := @loadUserShard_settled (pre.length + 1) (by omega) s (fun u hu => hm.settled u (hsub.subset hu)) hids
  exact ⟨rfl, h.save ha hfew hload, hcount, hm⟩

lemma flatten_at (pre post : List (List UserRecord)) (us vs : List UserRecord) (u : UserRecord) :
    (pre ++ (us ++ u :: vs) :: post).flatten = (pre.flatten ++ us) ++ u :: (vs ++ post.flatten) := by
  simp

lemma Layout.place {pre post : List (List UserRecord)} {us vs : List UserRecord} {u : UserRecord}
    (h : Layout dir (pre ++ (us ++ u :: vs) :: post)) {id : ℕ} (hid : id ≠ 0)
    (hfind : Storage.findUserShard dir id = .ok (pre.length + 1, us.length)) :
    ∃ place, locateUser dir id = .ok place ∧ place.shardIndex = pre.length + 1 ∧ place.slot = us.length ∧
      place.shard.users = us ++ u :: vs := by
  obtain ⟨s, hs, husers⟩ := h.file pre.length (us ++ u :: vs) (by simp)
  have hslot : us.length < s.users.length := by simp [husers]
  refine ⟨⟨pre.length + 1, s, us.length, hslot⟩, ?_, rfl, rfl, husers⟩
  rw [locateUser, if_neg hid, hfind]
  dsimp only
  rw [hs]
  dsimp only
  rw [dif_pos hslot]

section Found

variable {pre post : List (List UserRecord)} {us vs : List UserRecord} {u : UserRecord}
  (h : Represents dir (pre ++ (us ++ u :: vs) :: post) m)

include h

lemma Represents.isSome : (m.records u.id).isNone = false := by
  rw [(h.stands.stored u.id u).mpr ⟨by rw [flatten_at]; simp, rfl⟩]
  rfl

/-- The place of a user, as it is found and loaded. -/
lemma Represents.place (hid : u.id ≠ 0) (hfind : findUserShard dir u.id = .ok (pre.length + 1, us.length)) :
    ∃ place, locateUser dir u.id = .ok place ∧ place.shardIndex = pre.length + 1 ∧ place.slot = us.length ∧
      place.shard.users = us ++ u :: vs :=
  h.layout.place hid hfind

lemma Represents.few : pre.length + 1 < userShardIndexEnd := by
  have := h.layout.few
  rw [List.length_append, List.length_cons] at this
  omega

lemma Represents.deleted {place : UserPlace} (hindex : place.shardIndex = pre.length + 1)
    (hslot : place.slot = us.length) (husers : place.shard.users = us ++ u :: vs) (nick : Bytes → Option Bytes) :
    (saveUserShard .sound { dir with nickFile := nick } place.shardIndex (place.shard.erase place.slot)).1 = .ok ∧
      Represents (saveUserShard .sound { dir with nickFile := nick } place.shardIndex (place.shard.erase place.slot)).2
        (pre ++ (us ++ vs) :: post) (m.remove u.id) := by
  have herase : (place.shard.erase place.slot).users = us ++ vs := by
    have hcut : (us ++ u :: vs).eraseIdx us.length = us ++ vs := by
      rw [List.eraseIdx_append_of_length_le (le_refl _), Nat.sub_self]
      rfl
    simp [UserShard.erase, husers, hslot, hcut]
  have hm := h.stands
  rw [flatten_at] at hm
  have hlayout : Layout { dir with nickFile := nick } (pre ++ (us ++ u :: vs) :: post) :=
    ⟨h.layout.few, h.layout.file, h.layout.rest⟩
  have hcount : readCounter { dir with nickFile := nick } = .ok (m.remove u.id).lastId := h.counter
  rw [hindex, ← herase]
  apply hlayout.rewrite (.inl ⟨_, rfl⟩) h.few _ hcount
  rw [herase]
  have hflat : (pre ++ (us ++ vs) :: post).flatten = (pre.flatten ++ us) ++ (vs ++ post.flatten) := by simp
  rw [hflat]
  exact hm.remove

lemma Represents.updated {place : UserPlace} (hindex : place.shardIndex = pre.length + 1)
    (hslot : place.slot = us.length) (husers : place.shard.users = us ++ u :: vs) {v : UserRecord} (hid : v.id = u.id)
    (hv : Settled v) (huser : v.username = u.username) (hnick : v.nickname = u.nickname) :
    (saveUserShard .sound dir place.shardIndex (place.shard.set place.slot v)).1 = .ok ∧
      Represents (saveUserShard .sound dir place.shardIndex (place.shard.set place.slot v)).2
        (pre ++ (us ++ v :: vs) :: post) (m.insert v) := by
  have hset : (place.shard.set place.slot v).users = us ++ v :: vs := by
    simp [UserShard.set, husers, hslot]
  have hm := h.stands
  rw [flatten_at] at hm
  have hcount : readCounter dir = .ok (m.insert v).lastId := h.counter
  rw [hindex, ← hset]
  apply h.layout.rewrite (.inl ⟨_, rfl⟩) h.few _ hcount
  rw [hset, flatten_at]
  exact hm.replace hid hv huser hnick

end Found

lemma locateUser_zero (dir : UsersDir) {id : ℕ} (h : id = 0) : locateUser dir id = .error .errInvalid := by
  rw [locateUser, if_pos h]

lemma locateUser_missing {id : ℕ} (h : id ≠ 0) (hfind : findUserShard dir id = .error .errNotFound) :
    locateUser dir id = .error .errNotFound := by
  rw [locateUser, if_neg h, hfind]

/-- Removing and replacing leave the records of other ids. -/
lemma stored_of_ne {us : List UserRecord} (hm : Stands us m) {id : ℕ} (value : Option UserRecord) {u : UserRecord}
    (hu : u ∈ us) (hne : some id ≠ some u.id) :
    UserMap.Stored { m with records := Function.update m.records id value } u := by
  refine ⟨u.id, ?_⟩
  dsimp only
  rw [Function.update_of_ne (fun h => hne (congrArg some h.symm))]
  exact (hm.stored u.id u).mpr ⟨hu, rfl⟩

variable (backend : HashBackend) (guestPrefix : Bytes)

lemma Represents.step_delete (h : Represents dir uss m) (id : ℕ) :
    StepSpec uss m (.delete id) (storeStep .sound backend guestPrefix dir (.delete id))
      (m.step backend guestPrefix (.delete id)) := by
  rw [storeStep, UserMap.step, deleteUser, UserMap.delete]
  by_cases hzero : id = 0
  · rw [locateUser_zero dir hzero, if_pos hzero]
    exact .same h _ rfl
  · rw [if_neg hzero]
    rcases h.layout.findUserShard hzero with ⟨hno, hfind⟩ | ⟨pre, us, u, vs, post, rfl, rfl, -, hfind⟩
    · rw [locateUser_missing hzero hfind, h.stands.isNone hno]
      exact .same h _ rfl
    · obtain ⟨place, hplace, hindex, hslot, husers⟩ := h.place hzero hfind
      obtain ⟨hok, hnext⟩ := h.deleted hindex hslot husers (removeNicknameFile dir.nickFile place.user.username.text)
      rw [hplace, h.isSome]
      dsimp only
      rw [hok]
      exact ⟨⟨_, hnext⟩, fun v hv hne => stored_of_ne h.stands none hv hne, rfl, le_refl _, List.Pairwise.nil,
        by simp [givenIds]⟩

/-- A valid profile without quotes and outer blanks is read back. -/
lemma safe_profile {fullName country location email : Bytes} (h : profileValid fullName country location email = true)
    (hq : NoQuotes fullName ∧ NoQuotes country ∧ NoQuotes location)
    (ht : Trimmed fullName ∧ Trimmed country ∧ Trimmed location) :
    ∀ text ∈ [fullName, country, location, email], SafeValue text ∧ nl ∉ text := by
  simp only [profileValid, Bool.and_eq_true] at h
  obtain ⟨⟨⟨hname, hcountry⟩, hlocation⟩, hemail⟩ := h
  intro text hm
  simp only [List.mem_cons, List.not_mem_nil, or_false] at hm
  rcases hm with rfl | rfl | rfl | rfl
  · exact safe_profileText hname hq.1 ht.1
  · exact safe_profileText hcountry hq.2.1 ht.2.1
  · exact safe_profileText hlocation hq.2.2 ht.2.2
  · exact ⟨safeValue_of_plain (plain_email hemail), nl_notMem_of_plain (plain_email hemail)⟩

lemma settled_update {u v : UserRecord} (hv : Settled v) (hid : u.id = v.id) (huser : u.username = v.username)
    (hnick : u.nickname = v.nickname)
    (hp : profileValid u.fullName.text u.country.text u.location.text u.email.text = true)
    (hq : NoQuotes u.fullName.text ∧ NoQuotes u.country.text ∧ NoQuotes u.location.text)
    (ht : Trimmed u.fullName.text ∧ Trimmed u.country.text ∧ Trimmed u.location.text)
    (hpass : SafeValue u.password.text ∧ nl ∉ u.password.text) : Settled u := by
  have hprofile := safe_profile hp hq ht
  have hlower : v.username.lower = v.username := congrArg UserRecord.username hv.lower
  apply settled_of_texts (hid ▸ hv.id_ne) (huser ▸ hv.name_ne)
  · rw [UserRecord.normalize, huser, hlower, ← huser]
  · intro f hf
    simp only [List.mem_cons, List.not_mem_nil, or_false] at hf
    rcases hf with rfl | rfl | rfl | rfl | rfl | rfl | rfl
    · simp only [UserField.value, huser]
      exact ⟨hv.safe .username, hv.oneLine .username⟩
    · simp only [UserField.value, hnick]
      exact ⟨hv.safe .nickname, hv.oneLine .nickname⟩
    · exact hprofile _ (by simp [UserField.value])
    · exact hprofile _ (by simp [UserField.value])
    · exact hprofile _ (by simp [UserField.value])
    · exact hprofile _ (by simp [UserField.value])
    · exact hpass

/-- What an update that was asked for stores, beside the user it replaces. -/
lemma Represents.settled_asked (h : Represents dir uss m) {u v : UserRecord} (hmem : v ∈ uss.flatten)
    (hid : v.id = u.id)
    (hasked : (StoreOp.update u).Asked dir) {guestPrefix : Bytes} (hclear : (StoreOp.update u).Clear guestPrefix dir) :
    Settled u ∧ u.username = v.username ∧ u.nickname = v.nickname := by
  have hheld : Held dir v := (h.layout.held_iff v).mpr hmem
  obtain ⟨hp, hq1, hq2, hq3, hnames⟩ := hasked
  obtain ⟨huser, hnick⟩ := hnames v hheld hid
  obtain ⟨ht1, ht2, ht3, hpass⟩ := hclear ⟨v, hheld, hid⟩
  exact ⟨settled_update (h.stands.settled v hmem) hid.symm huser hnick hp ⟨hq1, hq2, hq3⟩ ⟨ht1, ht2, ht3⟩ hpass,
    huser, hnick⟩

lemma Represents.step_update (h : Represents dir uss m) {u : UserRecord} (hasked : (StoreOp.update u).Asked dir)
    (hclear : (StoreOp.update u).Clear guestPrefix dir) :
    StepSpec uss m (.update u) (storeStep .sound backend guestPrefix dir (.update u))
      (m.step backend guestPrefix (.update u)) := by
  rw [storeStep, UserMap.step, updateUser, UserMap.update]
  by_cases hzero : u.id = 0
  · rw [locateUser_zero dir hzero, if_pos hzero]
    exact .same h _ rfl
  · rw [if_neg hzero]
    rcases h.layout.findUserShard hzero with ⟨hno, hfind⟩ | ⟨pre, us, v, vs, post, rfl, hid, -, hfind⟩
    · rw [locateUser_missing hzero hfind, h.stands.isNone hno]
      exact .same h _ rfl
    · have hmem : v ∈ (pre ++ (us ++ v :: vs) :: post).flatten := by rw [flatten_at]; simp
      obtain ⟨hsettled, huser, hnick⟩ := h.settled_asked hmem hid hasked hclear
      rw [← hid] at hzero hfind
      obtain ⟨place, hplace, hindex, hslot, husers⟩ := h.place hzero hfind
      obtain ⟨hok, hnext⟩ := h.updated hindex hslot husers hid.symm hsettled huser hnick
      rw [← hid, hplace, h.isSome, hsettled.lower]
      dsimp only
      rw [hok]
      exact ⟨⟨_, hnext⟩, fun w hw hne => stored_of_ne h.stands (some u) hw hne, rfl, le_refl _, List.Pairwise.nil,
        by simp [givenIds]⟩

end HyBBX.Storage
