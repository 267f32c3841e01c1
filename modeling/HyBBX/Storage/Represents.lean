import HyBBX.Storage.Layout
import HyBBX.Storage.UserMap

/-! When the files stand for a map, and that they then answer as it does. -/

namespace HyBBX.Storage

open HyBBX.Core HyBBX.Config Lib Lib.Bytes Lib.Text Lib.Numeral Lib.LineReader

/-- The records of the map are these users, each of which a shard can hold. -/
structure Stands (us : List UserRecord) (m : UserMap) : Prop where
  stored : ∀ id u, m.records id = some u ↔ u ∈ us ∧ u.id = id
  ids : (us.map UserRecord.id).Nodup
  settled : ∀ u ∈ us, Settled u
  known : ∀ u ∈ us, u.id ≤ m.lastId
  names : NamesApart m

/-- The files hold the users of the map. -/
structure Represents (dir : UsersDir) (uss : List (List UserRecord)) (m : UserMap) : Prop where
  layout : Layout dir uss
  counter : readCounter dir = .ok m.lastId
  stands : Stands uss.flatten m

section Users

variable {us : List UserRecord} {m : UserMap} (h : Stands us m)

include h

lemma Stands.mem_iff (u : UserRecord) : u ∈ us ↔ m.Stored u := by
  constructor
  · exact fun hu => ⟨u.id, (h.stored u.id u).mpr ⟨hu, rfl⟩⟩
  · rintro ⟨id, hu⟩
    exact ((h.stored id u).mp hu).1

lemma Stands.isNone {id : ℕ} (hno : ∀ u ∈ us, u.id ≠ id) : m.records id = none := by
  rw [Option.eq_none_iff_forall_ne_some]
  intro u hu
  obtain ⟨hmem, hid⟩ := (h.stored id u).mp hu
  exact hno u hmem hid

/-- Stored users that share a name are the same user. -/
lemma Stands.eq_of_shareName {u v : UserRecord} (hu : u ∈ us) (hv : v ∈ us) (hs : ShareName u v) : u = v := by
  apply List.inj_on_of_nodup_map h.ids hu hv
  by_contra hid
  exact h.names u v ((h.mem_iff u).mp hu) ((h.mem_iff v).mp hv) hid hs

end Users

lemma strIeq_iff (a b : Bytes) : strIeq a b = true ↔ a.map lower = b.map lower := by
  rw [strIeq, decide_eq_true_eq]

lemma shareName_of_username {u v : UserRecord} {name : Bytes} (hu : strIeq u.username.text name = true)
    (hv : strIeq v.username.text name = true) : ShareName u v := by
  refine ⟨u.username.text, by simp, v.username.text, by simp, ?_⟩
  rw [strIeq_iff] at hu hv ⊢
  rw [hu, hv]

lemma shareName_of_nickname {u v : UserRecord} {name : Bytes} (hu : strIeq u.nickname.text name = true)
    (hv : strIeq v.nickname.text name = true) : ShareName u v := by
  refine ⟨u.nickname.text, by simp, v.nickname.text, by simp, ?_⟩
  rw [strIeq_iff] at hu hv ⊢
  rw [hu, hv]

/-- A scan for a property that at most one user has. -/
lemma find?_unique {p : UserRecord → Bool} {us : List UserRecord}
    (hp : ∀ u ∈ us, ∀ v ∈ us, p u = true → p v = true → u = v) (u : UserRecord) :
    us.find? p = some u ↔ u ∈ us ∧ p u = true := by
  constructor
  · exact fun h => ⟨List.mem_of_find?_eq_some h, List.find?_some h⟩
  · rintro ⟨hu, hpu⟩
    cases hf : us.find? p with
    | none => exact absurd hpu (List.find?_eq_none.mp hf u hu)
    | some v => rw [hp v (List.mem_of_find?_eq_some hf) u hu (List.find?_some hf) hpu]

section Scans

variable {us : List UserRecord} {m : UserMap} (h : Stands us m)

include h

lemma Stands.find_username (name : Bytes) (u : UserRecord) :
    (us.find? fun u => strIeq u.username.text name) = some u ↔
      m.Stored u ∧ strIeq u.username.text name = true := by
  rw [find?_unique, h.mem_iff]
  exact fun u hu v hv hpu hpv => h.eq_of_shareName hu hv (shareName_of_username hpu hpv)

lemma Stands.find_nickname (name : Bytes) (u : UserRecord) :
    (us.find? fun u => u.nickname.text ≠ [] ∧ strIeq u.nickname.text name) = some u ↔
      m.Stored u ∧ u.nickname.text ≠ [] ∧ strIeq u.nickname.text name = true := by
  rw [find?_unique, h.mem_iff, decide_eq_true_eq]
  intro u hu v hv hpu hpv
  exact h.eq_of_shareName hu hv (shareName_of_nickname (decide_eq_true_eq.mp hpu).2 (decide_eq_true_eq.mp hpv).2)

lemma Stands.username_free (name : Bytes) :
    (us.find? fun u => strIeq u.username.text name) = none ↔
      ∀ u, m.Stored u → strIeq u.username.text name = false := by
  rw [List.find?_eq_none]
  constructor
  · exact fun hn u hu => Bool.eq_false_iff.mpr (hn u ((h.mem_iff u).mpr hu))
  · exact fun hn u hu => Bool.eq_false_iff.mp (hn u ((h.mem_iff u).mp hu))

lemma Stands.count (level : UserLevel) :
    (us.countP fun u => u.level = level) = Set.ncard {u | m.Stored u ∧ u.level = level} := by
  have hset : {u | m.Stored u ∧ u.level = level} =
      ((us.filter fun u => u.level = level).toFinset : Set UserRecord) := by
    ext u
    rw [List.coe_toFinset, Set.mem_ofPred_eq, Set.mem_ofPred_eq, List.mem_filter, h.mem_iff, decide_eq_true_eq]
  rw [hset, Set.ncard_coe_finset, List.toFinset_card_of_nodup ((List.Nodup.of_map _ h.ids).filter _),
    List.countP_eq_length_filter]

end Scans

variable {dir : UsersDir} {uss : List (List UserRecord)} {m : UserMap}

lemma Represents.answers (h : Represents dir uss m) : AnswersAs dir m where
  find_ok name u := by
    rw [h.layout.findUser, ← h.stands.find_username]
    split
    · rename_i v hv
      rw [hv, Option.some.injEq, Except.ok.injEq]
    · rename_i hn
      rw [hn]
      simp
  find_none name := by
    rw [h.layout.findUser, ← h.stands.username_free]
    split
    · rename_i v hv
      rw [hv]
      simp
    · rename_i hn
      rw [hn]
      simp
  resolve_ok name u hne := by
    rw [h.layout.resolveUser hne]
    split
    · rename_i v hv
      have hstored := (h.stands.find_username _ v).mp hv
      constructor
      · intro hu
        obtain rfl := Except.ok.inj hu
        exact ⟨hstored.1, .inl hstored.2⟩
      · rintro ⟨hu, hname | ⟨hfree, -⟩⟩
        · rw [(Option.some.inj (hv.symm.trans ((h.stands.find_username _ u).mpr ⟨hu, hname⟩)))]
        · rw [hfree v hstored.1] at hstored
          exact absurd hstored.2 (by simp)
    · rename_i hn
      have hfree := (h.stands.username_free _).mp hn
      split
      · rename_i v hv
        have hstored := (h.stands.find_nickname _ v).mp hv
        constructor
        · intro hu
          obtain rfl := Except.ok.inj hu
          exact ⟨hstored.1, .inr ⟨hfree, hstored.2⟩⟩
        · rintro ⟨hu, hname | ⟨-, hnick⟩⟩
          · rw [hfree u hu] at hname
            exact absurd hname (by simp)
          · rw [(Option.some.inj (hv.symm.trans ((h.stands.find_nickname _ u).mpr ⟨hu, hnick⟩)))]
      · rename_i hv
        refine ⟨fun hu => (by cases hu), ?_⟩
        rintro ⟨hu, hname | ⟨-, hnick⟩⟩
        · rw [hfree u hu] at hname
          exact absurd hname (by simp)
        · rw [(h.stands.find_nickname _ u).mpr ⟨hu, hnick⟩] at hv
          cases hv
  resolve_none name hne := by
    rw [h.layout.resolveUser hne]
    split
    · rename_i v hv
      have hstored := (h.stands.find_username _ v).mp hv
      refine iff_of_false (by simp) fun hall => ?_
      rw [(hall v hstored.1).1] at hstored
      exact absurd hstored.2 (by simp)
    · rename_i hn
      have hfree := (h.stands.username_free _).mp hn
      split
      · rename_i v hv
        have hstored := (h.stands.find_nickname _ v).mp hv
        exact iff_of_false (by simp) fun hall => (hall v hstored.1).2 hstored.2
      · rename_i hv
        refine iff_of_true rfl fun u hu => ⟨hfree u hu, fun hnick => ?_⟩
        rw [(h.stands.find_nickname _ u).mpr ⟨hu, hnick⟩] at hv
        cases hv
  foreach := ⟨uss.flatten, List.Nodup.of_map _ h.stands.ids, h.stands.mem_iff, fun _ fn ctx => h.layout.foreach fn ctx⟩
  count level := by rw [h.layout.countLevel, h.stands.count]

/-! Which operations the store is asked, and which records it can hold. -/

def NoQuotes (text : Bytes) : Prop := single ∉ text ∧ double ∉ text

/-- A user in one of the shard files that the scans reach. -/
def Held (dir : UsersDir) (u : UserRecord) : Prop :=
  ∃ i s, 0 < i ∧ i < userShardIndexEnd ∧ loadShardAt dir i = .ok s ∧ u ∈ s.users

/-- Profile fields come without quotes, and an update brings a valid profile and the names the user has. -/
def StoreOp.Asked (dir : UsersDir) : StoreOp → Prop
  | .register _ reg => NoQuotes reg.fullName.text ∧ NoQuotes reg.country.text ∧ NoQuotes reg.location.text
  | .update u =>
    profileValid u.fullName.text u.country.text u.location.text u.email.text = true ∧
      NoQuotes u.fullName.text ∧ NoQuotes u.country.text ∧ NoQuotes u.location.text ∧
      ∀ v, Held dir v → v.id = u.id → u.username = v.username ∧ u.nickname = v.nickname
  | .delete _ => True
  | .find _ => True

/-- No blank at an end of a profile field, a password that reads back, a shard with room, an id to give out. -/
def StoreOp.Clear (guestPrefix : Bytes) (dir : UsersDir) : StoreOp → Prop
  | .register _ reg => registrationValid reg guestPrefix = true →
    Trimmed reg.fullName.text ∧ Trimmed reg.country.text ∧ Trimmed reg.location.text ∧ HasRoom dir ∧
      ∀ n, readCounter dir = .ok n → n + 1 < 2 ^ 64
  | .update u => (∃ v, Held dir v ∧ v.id = u.id) →
    Trimmed u.fullName.text ∧ Trimmed u.country.text ∧ Trimmed u.location.text ∧
      SafeValue u.password.text ∧ nl ∉ u.password.text
  | .delete _ => True
  | .find _ => True

variable {dir : UsersDir} {uss : List (List UserRecord)}

lemma Layout.held_iff (h : Layout dir uss) (u : UserRecord) : Held dir u ↔ u ∈ uss.flatten := by
  constructor
  · rintro ⟨i, s, hpos, hend, hs, hu⟩
    obtain ⟨k, rfl⟩ := Nat.exists_eq_add_of_lt hpos
    rw [Nat.zero_add] at hs
    by_cases hk : k < uss.length
    · obtain ⟨t, ht, htu⟩ := h.file k _ (List.getElem?_eq_getElem hk)
      obtain rfl : s = t := Except.ok.inj (hs.symm.trans ht)
      exact List.mem_flatten.mpr ⟨uss[k], List.getElem_mem hk, htu ▸ hu⟩
    · rw [loadShardAt, h.rest (k + 1) (by omega) (by omega)] at hs
      cases hs
  · intro hu
    obtain ⟨us, hus, hu⟩ := List.mem_flatten.mp hu
    obtain ⟨k, hk⟩ := List.mem_iff_getElem?.mp hus
    obtain ⟨s, hs, rfl⟩ := h.file k us hk
    have hlt := (List.getElem?_eq_some_iff.mp hk).1
    have hfew := h.few
    exact ⟨k + 1, s, Nat.succ_pos k, by omega, hs, hu⟩

lemma plainByte_username {b : UInt8} (h : usernameCharOk b = true) :
    plainByte b = true ∧ plainByte (lower b) = true ∧ lower (lower b) = lower b := by
  revert h
  revert b
  apply forall_byte
  decide +kernel

lemma plainByte_email {b : UInt8} (h : emailCharOk b = true) : plainByte b = true := by
  revert h
  revert b
  apply forall_byte
  decide +kernel

lemma profileByte {b : UInt8} (h : profileTextCharOk b = true) :
    startsComment b = false ∧ b ≠ double ∧ b ≠ nl := by
  revert h
  revert b
  apply forall_byte
  decide +kernel

lemma safe_profileText {text : Bytes} {lo hi : ℕ} (h : profileTextValid text lo hi = true) (hq : NoQuotes text)
    (ht : Trimmed text) : SafeValue text ∧ nl ∉ text := by
  simp only [profileTextValid, Bool.and_eq_true, List.all_eq_true] at h
  refine ⟨safeValue_of_trimmed ht fun b hb => ?_, fun hn => (profileByte (h.2 nl hn)).2.2 rfl⟩
  obtain ⟨hc, hd, -⟩ := profileByte (h.2 b hb)
  exact ⟨hc, fun hs => hq.1 (hs ▸ hb), hd⟩

lemma plain_email {email : Bytes} (h : emailValid email = true) : ∀ b ∈ email, plainByte b = true := by
  rw [emailValid] at h
  split_ifs at h
  exact fun b hb => plainByte_email (List.all_eq_true.mp h b hb)

lemma username_chars {username guestPrefix : Bytes} (h : usernameValid username guestPrefix = true) :
    usernameMinLen ≤ username.length ∧ ∀ b ∈ username, usernameCharOk b = true := by
  rw [usernameValid] at h
  split_ifs at h with hlen hchars
  all_goals
    rw [not_or, not_lt] at hlen
    exact ⟨hlen.1, List.all_eq_true.mp (by simpa using hchars)⟩

lemma lower_idem {username : Bytes} (h : ∀ b ∈ username, usernameCharOk b = true) :
    (username.map lower).map lower = username.map lower := by
  rw [List.map_map]
  exact List.map_congr_left fun b hb => (plainByte_username (h b hb)).2.2

/-- What is left to show of a record whose numbers and switches are written by the store itself. -/
lemma safe_of_texts {u : UserRecord}
    (h : ∀ f ∈ [UserField.username, .nickname, .fullname, .country, .location, .email, .password],
      SafeValue (f.value u) ∧ nl ∉ f.value u) (f : UserField) : SafeValue (f.value u) ∧ nl ∉ f.value u := by
  cases f with
  | id => exact ⟨safeValue_of_plain (plain_decimal _), nl_notMem_of_plain (plain_decimal _)⟩
  | level =>
    have hplain : ∀ b ∈ userLevelName u.level, plainByte b = true := by
      cases u.level <;> decide +kernel
    exact ⟨safeValue_of_plain hplain, nl_notMem_of_plain hplain⟩
  | active =>
    have hplain : ∀ b ∈ boolToString u.active, plainByte b = true := by
      cases u.active <;> decide +kernel
    exact ⟨safeValue_of_plain hplain, nl_notMem_of_plain hplain⟩
  | created => exact ⟨safeValue_of_plain (plain_decimalInt _), nl_notMem_of_plain (plain_decimalInt _)⟩
  | lastLogin => exact ⟨safeValue_of_plain (plain_decimalInt _), nl_notMem_of_plain (plain_decimalInt _)⟩
  | _ => exact h _ (by simp)

lemma readsBack_of_texts {u : UserRecord} (hid : u.id ≠ 0) (hne : u.username.text ≠ [])
    (h : ∀ f ∈ [UserField.username, .nickname, .fullname, .country, .location, .email, .password],
      SafeValue (f.value u) ∧ nl ∉ f.value u) : ReadsBack u :=
  ⟨hid, hne, fun f => (safe_of_texts h f).2, fun f => (safe_of_texts h f).1⟩

lemma settled_of_texts {u : UserRecord} (hid : u.id ≠ 0) (hne : u.username.text ≠ []) (hlower : u.normalize = u)
    (h : ∀ f ∈ [UserField.username, .nickname, .fullname, .country, .location, .email, .password],
      SafeValue (f.value u) ∧ nl ∉ f.value u) : Settled u :=
  ⟨readsBack_of_texts hid hne h, hlower⟩

end HyBBX.Storage
