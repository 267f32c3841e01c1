import HyBBX.Storage.Layout

/-! What a record becomes when it is written and loaded, whatever its texts are. -/

namespace HyBBX.Storage

open HyBBX.Core HyBBX.Config Lib Lib.Bytes Lib.Text Lib.Numeral Lib.LineReader

/-- A text as the loader reads it. -/
def CText.reread {size : ℕ} [NeZero size] (t : CText size) : CText size := CText.copy (readValue t.text)

lemma readValue_subset (v : Bytes) : readValue v ⊆ v :=
  List.Subset.trans (readValue_sublist v).subset (trim_subset v)

lemma CText.reread_text {size : ℕ} [NeZero size] (t : CText size) : (CText.reread t).text = readValue t.text :=
  CText.copy_text (fun h => t.string (readValue_subset _ h)) (lt_of_le_of_lt (readValue_length_le _) t.fits)

def UserRecord.reread (u : UserRecord) : UserRecord := { u with
  username := CText.reread u.username
  nickname := CText.reread u.nickname
  fullName := CText.reread u.fullName
  country := CText.reread u.country
  location := CText.reread u.location
  email := CText.reread u.email
  password := CText.reread u.password }

lemma readValue_plain {v : Bytes} (h : ∀ b ∈ v, plainByte b = true) : readValue v = v :=
  (readValue_eq_self_iff v).mpr (safeValue_of_plain h)

lemma UserField.value_reread (f : UserField) (u : UserRecord) : f.value u.reread = readValue (f.value u) := by
  cases f with
  | id => exact (readValue_plain (plain_decimal _)).symm
  | level =>
    have hplain : ∀ b ∈ userLevelName u.level, plainByte b = true := by cases u.level <;> decide +kernel
    exact (readValue_plain hplain).symm
  | active =>
    have hplain : ∀ b ∈ boolToString u.active, plainByte b = true := by cases u.active <;> decide +kernel
    exact (readValue_plain hplain).symm
  | created => exact (readValue_plain (plain_decimalInt _)).symm
  | lastLogin => exact (readValue_plain (plain_decimalInt _)).symm
  | _ => exact CText.reread_text _

/-- The record a written user is loaded as; without an id or a name it is left out. -/
lemma Block.read_whole (u : UserRecord) : (Block.whole u).read =
    if u.id = 0 ∨ u.reread.username.text = [] then none else some u.reread.normalize := by
  have hvalue : (fun f => if (Block.whole u).keep f = true then some (readValue (f.value (Block.whole u).user)) else none) =
      fun f => some (UserField.value u.reread f) := by
    funext f
    rw [f.value_reread]
    rfl
  rw [Block.read, hvalue]
  split_ifs with h
  · have hdec : strtoul (decimal u.id) = (u.id, []) := by
      simpa using strtoul_decimal u.idFits [] (by simp)
    have hid : UserField.value u.reread .id = decimal u.id := rfl
    have hname : UserField.value u.reread .username = u.reread.username.text := rfl
    simp only [userOf, Option.getD_some, hid, hname, hdec, decimal_ne_nil, if_false]
    rcases h with h | h
    · rw [if_pos h]
    · rw [if_pos h, ite_self]
  · rw [not_or] at h
    exact userOf_values h.1 h.2 fun f => .inl rfl

lemma CText.reread_of_safe {size : ℕ} [NeZero size] {t : CText size} (h : SafeValue t.text) : CText.reread t = t := by
  rw [CText.reread, (readValue_eq_self_iff _).mpr h, CText.copy_self]

/-- A record that is not lost, and loses nothing but parts of its nickname. -/
structure Lasting (u : UserRecord) : Prop where
  id_ne : u.id ≠ 0
  name_ne : u.username.text ≠ []
  oneLine : OneLine u
  safe : ∀ f : UserField, f ≠ .nickname → SafeValue (f.value u)

lemma Lasting.reread {u : UserRecord} (h : Lasting u) :
    u.reread = { u with nickname := CText.reread u.nickname } := by
  rw [UserRecord.reread, CText.reread_of_safe (h.safe .username (by decide)),
    CText.reread_of_safe (h.safe .fullname (by decide)), CText.reread_of_safe (h.safe .country (by decide)),
    CText.reread_of_safe (h.safe .location (by decide)), CText.reread_of_safe (h.safe .email (by decide)),
    CText.reread_of_safe (h.safe .password (by decide))]

lemma Lasting.read {u : UserRecord} (h : Lasting u) : (Block.whole u).read = some u.reread.normalize := by
  have hname : u.reread.username.text ≠ [] := by
    rw [h.reread]
    exact h.name_ne
  rw [Block.read_whole, if_neg (not_or.mpr ⟨h.id_ne, hname⟩)]

lemma loadUserShard_lasting {shardIndex : ℕ} (hi : shardIndex < 2 ^ 64) (s : UserShard)
    (h : ∀ u ∈ s.users, Lasting u) (hids : (s.users.map UserRecord.id).Nodup) :
    ∃ t, loadUserShard (piecesText (shardPieces shardIndex s.users)) = .ok t ∧
      t.users = s.users.map fun u => u.reread.normalize := by
  obtain ⟨fits, hload⟩ := loadUserShard_whole hi s (fun u hu => (h u hu).oneLine) hids
  exact ⟨_, hload, filterMap_whole fun u hu => (h u hu).read⟩

section Repeated

variable {us : List UserRecord} {u : UserRecord} (hids : (us.map UserRecord.id).Nodup)

include hids

lemma get_repeated {v : UserRecord} (hv : v ∈ us) (f : UserField) :
    configGet ((us.map Block.whole).flatMap Block.entries ++ (Block.whole u).entries) (Block.whole v).section f.key =
      some (readValue (f.value v)) := by
  rw [configGet_append, get_blocks (apart_whole hids) (List.mem_map_of_mem hv) f]
  rfl

lemma sectionList_repeated (hroom : us.length ≤ usersPerFile) (hu : u.id ∈ us.map UserRecord.id) :
    sectionList ((us.map Block.whole).flatMap Block.entries ++ (Block.whole u).entries) =
      us.map fun v => (Block.whole v).section := by
  have hwhole : ∀ v : UserRecord, (Block.whole v).fields = userFields := fun v => List.filter_true _
  have hall : (us.map Block.whole).filter (fun b => b.fields ≠ []) = us.map Block.whole := by
    rw [List.filter_eq_self]
    intro b hb
    obtain ⟨v, -, rfl⟩ := List.mem_map.mp hb
    rw [hwhole]
    rfl
  have hknown : (Block.whole u).section ∈ (us.map Block.whole).map Block.section := by
    obtain ⟨v, hv, hid⟩ := List.mem_map.mp hu
    exact List.mem_map.mpr ⟨Block.whole v, List.mem_map_of_mem hv, congrArg userSection hid⟩
  have hlist := collect_blocks (apart_whole hids) (fun b _ => List.not_mem_nil) (by simpa using hroom)
  rw [hall, List.nil_append] at hlist
  rw [sectionList, List.map_append, List.foldl_append, hlist, Block.entries, collect_fields _ _ hknown, List.map_map]
  rfl

/-- A second section of a user is not read: the first one counts. -/
lemma loadUserShard_repeated {shardIndex : ℕ} (hi : shardIndex < 2 ^ 64) (s : UserShard) (hs : s.users = us ++ [u])
    (hline : ∀ v ∈ s.users, OneLine v) (hu : u.id ∈ us.map UserRecord.id) :
    ∃ t, loadUserShard (piecesText (shardPieces shardIndex s.users)) = .ok t ∧
      t.users = us.filterMap fun v => (Block.whole v).read := by
  have hroom : us.length ≤ usersPerFile := by
    have := s.fits
    rw [hs, List.length_append] at this
    omega
  have hblocks : ∀ b ∈ (us ++ [u]).map Block.whole, OneLine b.user := by
    intro b hb
    obtain ⟨v, hv, rfl⟩ := List.mem_map.mp hb
    exact hline v (hs ▸ hv)
  have hload : configLoad (blocksText true true shardIndex ((us ++ [u]).map Block.whole)) =
      .ok ((us.map Block.whole).flatMap Block.entries ++ (Block.whole u).entries) := by
    rw [blocksText, configLoad_blocks hi hblocks, List.map_append, List.flatMap_append]
    simp
  have husers : (sectionList ((us.map Block.whole).flatMap Block.entries ++ (Block.whole u).entries)).filterMap
      (parseUserSection ((us.map Block.whole).flatMap Block.entries ++ (Block.whole u).entries)) =
        us.filterMap fun v => (Block.whole v).read := by
    rw [sectionList_repeated hids hroom hu, List.filterMap_map]
    apply List.filterMap_congr
    intro v hv
    have hstart : userIniSectionPrefix <+: (Block.whole v).section := userSection_starts v.id
    rw [Function.comp_apply, parseUserSection, if_pos hstart, Block.read]
    congr 1
    funext f
    exact get_repeated hids hv f
  have hfits : (us.filterMap fun v => (Block.whole v).read).length ≤ usersPerFile :=
    le_trans (List.length_filterMap_le _ _) hroom
  refine ⟨⟨_, hfits⟩, ?_, rfl⟩
  rw [shardPieces_blocks, hs, loadUserShard, hload]
  dsimp only
  rw [dif_pos (by rw [husers]; exact hfits)]
  congr 1
  congr 1

end Repeated

end HyBBX.Storage
