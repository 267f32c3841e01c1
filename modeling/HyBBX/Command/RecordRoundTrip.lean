import HyBBX.Command.AccountCommands
import HyBBX.Storage.DefaultSysop
import HyBBX.Storage.RegisterStep
import HyBBX.Storage.Reread

/-! Which accounts that the commands let through are loaded from a shard as they were saved. -/

namespace HyBBX.Command

open HyBBX.Core HyBBX.Config HyBBX.Storage Lib Lib.Bytes Lib.Text Lib.Numeral Lib.LineReader

/-- An account that a command has made or changed. -/
structure AcceptedRecord (u : UserRecord) : Prop where
  id_ne : u.id ≠ 0
  username : ∃ name guestPrefix, usernameValid name guestPrefix = true ∧ u.username.text = name.map lower
  nickname : ∃ guestPrefix, usernameValid u.nickname.text guestPrefix = true
  profile : profileValid u.fullName.text u.country.text u.location.text u.email.text = true
  password : u.password.text = [] ∨ passwordIsHashed u.password.text = true

/-- No blank at an end, and no apostrophe at both. -/
def ReadsPlain (text : Bytes) : Prop := Trimmed text ∧ ¬(text.head? = some single ∧ text.getLast? = some single)

def profileTexts (u : UserRecord) : List Bytes := [u.fullName.text, u.country.text, u.location.text]

section Records

variable {u : UserRecord}

lemma plain_hashed {stored : Bytes} (h : passwordIsHashed stored = true) : ∀ b ∈ stored, plainByte b = true := by
  have hplain : ∀ pre : Bytes, ∀ n, (∀ b ∈ pre, plainByte b = true) → pre <+: stored →
    hexStringValid (stored.drop pre.length) n = true →
      ∀ b ∈ stored, plainByte b = true := by
    intro pre n hpre hstarts hhex b hb
    obtain ⟨digits, rfl⟩ := hstarts
    rw [List.drop_left, hexStringValid, Bool.and_eq_true, List.all_eq_true] at hhex
    rcases List.mem_append.mp hb with hb | hb
    · exact hpre b hb
    · exact plainByte_hex (hhex.2 b hb)
  rw [passwordIsHashed] at h
  split_ifs at h with hsha hmd5
  · exact hplain _ 64 (by decide +kernel) hsha h
  · exact hplain _ 32 (by decide +kernel) hmd5 h

lemma hashed_hash {backend : HashBackend} (hb : HexDigests backend) (plain : Bytes) :
    passwordIsHashed (CText.copy (passwordHash backend plain) : CText userPasswordMax).text = true := by
  have hstarts : passwordSha256Prefix <+: passwordHash backend plain := List.prefix_append _ _
  rw [copy_hash_text hb, passwordIsHashed, if_pos hstarts]
  exact hb plain

/-- The accounts of registrations are such accounts. -/
lemma accepted_new {reg : UserRegistration} {guestPrefix : Bytes} (hv : registrationValid reg guestPrefix = true)
    {backend : HashBackend} (hb : HexDigests backend) {password : CText userPasswordMax}
    (hp : registeredPassword backend reg.password.text = some password) (now : Int64) {id : Fin (2 ^ 64)}
    (hid : (id : ℕ) ≠ 0) :
    AcceptedRecord { newUser reg now id with password := password } := by
  obtain ⟨huser, hnick, hprofile⟩ := registration_parts hv
  refine ⟨hid, ⟨_, guestPrefix, huser, rfl⟩, ⟨guestPrefix, hnick⟩, hprofile, ?_⟩
  rw [registeredPassword] at hp
  split_ifs at hp
  · obtain rfl := Option.some.inj hp
    exact .inl rfl
  · obtain rfl := Option.some.inj hp
    exact .inr (hashed_hash hb _)

/-- So are the accounts that `changeme` and `userchange` hand to the store. -/
lemma AcceptedRecord.changed (hu : AcceptedRecord u) (env : CommandEnv) (hb : HexDigests env.backend)
    {p : ProfileFields}
    (hp : p.valid = true) (newPassword : Bytes) : AcceptedRecord (changedUser env p newPassword u) :=
  ⟨hu.id_ne, hu.username, hu.nickname, hp, .inr (hashed_hash hb newPassword)⟩

lemma commentFree_of_uncommented {v : Bytes} (h : ∀ b ∈ v, startsComment b = false) (inSingle inDouble : Bool) :
    commentFree inSingle inDouble v = true := by
  induction v generalizing inSingle inDouble with
  | nil => rfl
  | cons b v ih =>
    have hrest := ih fun c hc => h c (List.mem_cons_of_mem b hc)
    rw [commentFree, if_neg (by simp [h b List.mem_cons_self])]
    split_ifs
    · exact hrest _ _
    · exact hrest _ _
    · exact hrest _ _

lemma profile_chars {text : Bytes} {lo hi : ℕ} (h : profileTextValid text lo hi = true) :
    lo ≤ text.length ∧ ∀ b ∈ text, startsComment b = false ∧ b ≠ double ∧ b ≠ nl := by
  simp only [profileTextValid, Bool.and_eq_true, List.all_eq_true, decide_eq_true_eq] at h
  exact ⟨h.1.1, fun b hb => profileByte (h.2 b hb)⟩

/-- The loader leaves a profile text alone if it has nothing to trim and nothing to unquote. -/
lemma safeValue_profile_iff {text : Bytes} {hi : ℕ} (h : profileTextValid text 2 hi = true) : SafeValue text ↔
    ReadsPlain text := by
  obtain ⟨hlen, hchars⟩ := profile_chars h
  constructor
  · exact fun hsafe => ⟨hsafe.trimmed, fun hquoted => hsafe.unquoted ⟨hlen, .inr hquoted⟩⟩
  · rintro ⟨htrim, hquoted⟩
    refine ⟨htrim, commentFree_of_uncommented (fun b hb => (hchars b hb).1) _ _, ?_⟩
    rintro ⟨-, hdouble | hsingle⟩
    · exact (hchars double (List.mem_of_mem_head? hdouble.1)).2.1 rfl
    · exact hquoted hsingle

lemma AcceptedRecord.profileTexts_valid (hu : AcceptedRecord u) :
    ∀ text ∈ profileTexts u, ∃ hi, profileTextValid text 2 hi = true := by
  have hprofile := hu.profile
  simp only [profileValid, Bool.and_eq_true] at hprofile
  intro text htext
  simp only [profileTexts, List.mem_cons, List.not_mem_nil, or_false] at htext
  rcases htext with rfl | rfl | rfl
  · exact ⟨_, hprofile.1.1.1⟩
  · exact ⟨_, hprofile.1.1.2⟩
  · exact ⟨_, hprofile.1.2⟩

/-- The texts of an account besides its profile are never touched. -/
lemma AcceptedRecord.plain (hu : AcceptedRecord u) {f : UserField}
    (hf : f ∈ [UserField.username, .nickname, .email, .password]) :
    ∀ b ∈ f.value u, plainByte b = true := by
  simp only [List.mem_cons, List.not_mem_nil, or_false] at hf
  rcases hf with rfl | rfl | rfl | rfl
  · obtain ⟨name, guestPrefix, hvalid, hname⟩ := hu.username
    intro b hb
    rw [UserField.value, hname] at hb
    obtain ⟨c, hc, rfl⟩ := List.mem_map.mp hb
    exact (plainByte_username ((username_chars hvalid).2 c hc)).2.1
  · obtain ⟨guestPrefix, hvalid⟩ := hu.nickname
    exact fun b hb => (plainByte_username ((username_chars hvalid).2 b hb)).1
  · have hprofile := hu.profile
    rw [profileValid, Bool.and_eq_true] at hprofile
    exact plain_email hprofile.2
  · rcases hu.password with hempty | hhashed
    · intro b hb
      rw [UserField.value, hempty] at hb
      cases hb
    · exact plain_hashed hhashed

lemma AcceptedRecord.texts (hu : AcceptedRecord u) {P : Bytes → Prop}
    (hplain : ∀ v : Bytes, (∀ b ∈ v, plainByte b = true) → P v)
    (hprofile : ∀ text ∈ profileTexts u, P text) :
    ∀ f ∈ [UserField.username, .nickname, .fullname, .country, .location, .email, .password], P (f.value u) := by
  intro f hf
  simp only [List.mem_cons, List.not_mem_nil, or_false] at hf
  rcases hf with rfl | rfl | rfl | rfl | rfl | rfl | rfl
  · exact hplain _ (hu.plain (by decide))
  · exact hplain _ (hu.plain (by decide))
  · exact hprofile _ (by simp [profileTexts, UserField.value])
  · exact hprofile _ (by simp [profileTexts, UserField.value])
  · exact hprofile _ (by simp [profileTexts, UserField.value])
  · exact hplain _ (hu.plain (by decide))
  · exact hplain _ (hu.plain (by decide))

lemma AcceptedRecord.oneLine (hu : AcceptedRecord u) : OneLine u := by
  have htexts := hu.texts (P := fun v => nl ∉ v) (fun v => nl_notMem_of_plain) fun text htext => by
    obtain ⟨hi, hvalid⟩ := hu.profileTexts_valid text htext
    exact fun hn => ((profile_chars hvalid).2 nl hn).2.2 rfl
  intro f
  cases f with
  | id => exact nl_notMem_of_plain (plain_decimal _)
  | created | lastLogin => exact nl_notMem_of_plain (plain_decimalInt _)
  | level => cases hl : u.level <;> simp only [UserField.value, hl] <;> decide
  | active => cases ha : u.active <;> simp only [UserField.value, ha] <;> decide
  | _ => exact htexts _ (by simp)

lemma AcceptedRecord.settled (hu : AcceptedRecord u) (hplain : ∀ text ∈ profileTexts u, ReadsPlain text) :
    Settled u := by
  obtain ⟨name, guestPrefix, hvalid, hname⟩ := hu.username
  obtain ⟨hlen, hchars⟩ := username_chars hvalid
  apply settled_of_texts hu.id_ne
  · rw [hname]
    exact List.ne_nil_of_length_pos (by rw [List.length_map]; exact lt_of_lt_of_le (by decide) hlen)
  · have htext : u.username.text.map lower = u.username.text := by rw [hname, lower_idem hchars]
    have hlower : u.username.lower = u.username := CText.ext htext
    rw [UserRecord.normalize, hlower]
  · apply hu.texts (P := fun v => SafeValue v ∧ nl ∉ v)
    · exact fun v hv => ⟨safeValue_of_plain hv, nl_notMem_of_plain hv⟩
    · intro text htext
      obtain ⟨hi, hvalid⟩ := hu.profileTexts_valid text htext
      exact ⟨(safeValue_profile_iff hvalid).mpr (hplain text htext), fun hn => ((profile_chars hvalid).2 nl hn).2.2 rfl⟩

/-- An account that is read as it is has plain texts. -/
lemma AcceptedRecord.plain_of_read (hu : AcceptedRecord u) (hread : (Block.whole u).read = some u) :
    ∀ text ∈ profileTexts u, ReadsPlain text := by
  rw [Block.read_whole] at hread
  split_ifs at hread
  have hsame := Option.some.inj hread
  have hfull : CText.reread u.fullName = u.fullName := congrArg UserRecord.fullName hsame
  have hcountry : CText.reread u.country = u.country := congrArg UserRecord.country hsame
  have hlocation : CText.reread u.location = u.location := congrArg UserRecord.location hsame
  intro text htext
  obtain ⟨hi, hvalid⟩ := hu.profileTexts_valid text htext
  rw [← safeValue_profile_iff hvalid, ← readValue_eq_self_iff]
  simp only [profileTexts, List.mem_cons, List.not_mem_nil, or_false] at htext
  rcases htext with rfl | rfl | rfl
  · rw [← CText.reread_text, hfull]
  · rw [← CText.reread_text, hcountry]
  · rw [← CText.reread_text, hlocation]

end Records

section Shards

lemma filterMap_self {α : Type} {f : α → Option α} {l : List α} (h : l.filterMap f = l) : ∀ a ∈ l, f a = some a := by
  induction l with
  | nil => exact nofun
  | cons b l ih =>
    have hb : f b = some b := by
      cases hfb : f b with
      | none =>
        rw [List.filterMap_cons_none hfb] at h
        have hlen := List.length_filterMap_le f l
        rw [h, List.length_cons] at hlen
        exact absurd hlen (Nat.not_succ_le_self _)
      | some c =>
        rw [List.filterMap_cons_some hfb] at h
        rw [(List.cons.inj h).1]
    rw [List.filterMap_cons_some hb] at h
    intro a ha
    rcases List.mem_cons.mp ha with rfl | ha
    · exact hb
    · exact ih (List.cons.inj h).2 a ha

/-- Every section is listed once. -/
lemma collect_nodup {sections names : List Bytes} (hfits : ∀ t ∈ sections, t.length < configSectionMax)
    (hnames : names.Nodup) :
    (sections.foldl sectionListCollect names).Nodup ∧ sections.foldl sectionListCollect names ⊆ names ++ sections := by
  induction sections generalizing names with
  | nil => exact ⟨hnames, by simp⟩
  | cons t sections ih =>
    have hrest : ∀ r ∈ sections, r.length < configSectionMax := fun r hr => hfits r (List.mem_cons_of_mem t hr)
    have hcollect : (sectionListCollect names t).Nodup ∧ sectionListCollect names t ⊆ names ++ [t] := by
      have hstays : names.Nodup ∧ names ⊆ names ++ [t] := ⟨hnames, List.subset_append_left _ _⟩
      have hgrows : t ∉ names → (names ++ [t]).Nodup ∧ names ++ [t] ⊆ names ++ [t] :=
        fun hnew => ⟨hnames.append (List.nodup_singleton t) (List.disjoint_singleton.mpr hnew), List.Subset.refl _⟩
      rw [sectionListCollect, strlcpy_of_fits (hfits t List.mem_cons_self)]
      split_ifs with _ hknown _ <;> first | exact hstays | exact hgrows hknown
    obtain ⟨hnodup, hsub⟩ := ih hrest hcollect.1
    refine ⟨hnodup, fun r hr => ?_⟩
    have hmem := hsub hr
    rw [List.mem_append] at hmem
    rcases hmem with hmem | hmem
    · have := hcollect.2 hmem
      simp only [List.mem_append, List.mem_cons] at this ⊢
      tauto
    · exact List.mem_append_right _ (List.mem_cons_of_mem t hmem)

/-- A shard that is loaded as it was saved has no id twice. -/
lemma nodup_of_loaded {shardIndex : ℕ} (hi : shardIndex < 2 ^ 64) (s : UserShard) (h : ∀ u ∈ s.users, OneLine u)
    (hload : loadUserShard (piecesText (shardPieces shardIndex s.users)) = .ok s) :
    (s.users.map UserRecord.id).Nodup := by
  have hblocks : ∀ b ∈ s.users.map Block.whole, OneLine b.user := by
    intro b hb
    obtain ⟨u, hu, rfl⟩ := List.mem_map.mp hb
    exact h u hu
  have hconfig := configLoad_blocks hi hblocks true true
  rw [shardPieces_blocks, blocksText, loadUserShard, hconfig] at hload
  dsimp only at hload
  split_ifs at hload with hfits
  have husers : (sectionList ((s.users.map Block.whole).flatMap Block.entries)).filterMap
      (parseUserSection ((s.users.map Block.whole).flatMap Block.entries)) = s.users :=
        congrArg UserShard.users (Except.ok.inj hload)
  generalize hentries : (s.users.map Block.whole).flatMap Block.entries = config at husers
  have hsections : ∀ t ∈ config.map ConfigEntry.sectionName, t ∈ s.users.map fun u => userSection u.id := by
    intro t ht
    obtain ⟨e, he, rfl⟩ := List.mem_map.mp ht
    rw [← hentries] at he
    obtain ⟨b, hb, he⟩ := List.mem_flatMap.mp he
    obtain ⟨u, hu, rfl⟩ := List.mem_map.mp hb
    obtain ⟨f, -, rfl⟩ := List.mem_map.mp he
    exact List.mem_map_of_mem hu
  have hlong : ∀ t ∈ config.map ConfigEntry.sectionName, t.length < configSectionMax := by
    intro t ht
    obtain ⟨u, hu, rfl⟩ := List.mem_map.mp (hsections t ht)
    exact (sectionOk_user u.idFits).fits
  obtain ⟨hnodup, hsub⟩ := collect_nodup hlong List.nodup_nil
  have hlisted : sectionList config ⊆ (s.users.map fun u => userSection u.id).dedup := by
    intro t ht
    have := hsub ht
    rw [List.nil_append] at this
    exact List.mem_dedup.mpr (hsections t this)
  have hcount : s.users.length ≤ (s.users.map fun u => userSection u.id).dedup.length := by
    calc s.users.length = ((sectionList config).filterMap (parseUserSection config)).length := by rw [husers]
      _ ≤ (sectionList config).length := List.length_filterMap_le _ _
      _ ≤ _ := (hnodup.subperm hlisted).length_le
  have hall : (s.users.map fun u => userSection u.id).dedup = s.users.map fun u => userSection u.id :=
    (List.dedup_sublist _).eq_of_length_le (by rw [List.length_map]; exact hcount)
  have hdistinct : (s.users.map fun u => userSection u.id).Nodup := List.dedup_eq_self.mp hall
  have hsplit : (s.users.map fun u => userSection u.id) = (s.users.map UserRecord.id).map userSection :=
    by rw [List.map_map]; rfl
  rw [hsplit] at hdistinct
  exact List.Nodup.of_map _ hdistinct

/-- Accounts that the commands let through are loaded from a shard as they were saved exactly if no id stands twice and no
profile text has a blank at an end or an apostrophe at both. -/
theorem accepted_round_trip_iff {shardIndex : ℕ} (hi : shardIndex < 2 ^ 64) (s : UserShard)
    (h : ∀ u ∈ s.users, AcceptedRecord u) :
    loadUserShard (piecesText (shardPieces shardIndex s.users)) = .ok s ↔
      (s.users.map UserRecord.id).Nodup ∧ ∀ u ∈ s.users, ∀ text ∈ profileTexts u, ReadsPlain text := by
  have hline : ∀ u ∈ s.users, OneLine u := fun u hu => (h u hu).oneLine
  constructor
  · intro hload
    have hids := nodup_of_loaded hi s hline hload
    obtain ⟨fits, hwhole⟩ := loadUserShard_whole hi s hline hids
    have hsame : (s.users.filterMap fun u => (Block.whole u).read) = s.users :=
      congrArg UserShard.users (Except.ok.inj (hwhole.symm.trans hload))
    exact ⟨hids, fun u hu => (h u hu).plain_of_read (filterMap_self hsame u hu)⟩
  · rintro ⟨hids, hplain⟩
    exact loadUserShard_settled hi s (fun u hu => (h u hu).settled (hplain u hu)) hids

end Shards

section Example

/-- The account of a registration of Gerda, from a country. -/
def gerdaFrom (country : String) : UserRecord :=
  newUser ⟨CText.copy (ofString "gerda"), CText.copy (ofString "gerda"), CText.copy (ofString "Gerda O'Brien"),
    CText.copy (ofString country), CText.copy (ofString "Cork"), CText.copy (ofString "gerda@example.org"), .empty⟩ 0 7

def gerdaShard (country : String) : UserShard := ⟨[gerdaFrom country], Nat.succ_le_succ (Nat.zero_le 49)⟩

theorem accepted_round_trip_gerda : loadUserShard (piecesText (shardPieces 1 (gerdaShard "Ireland").users)) =
    .ok (gerdaShard "Ireland") ↔
    ((gerdaShard "Ireland").users.map UserRecord.id).Nodup ∧
      ∀ u ∈ (gerdaShard "Ireland").users, ∀ text ∈ profileTexts u, ReadsPlain text :=
  accepted_round_trip_iff (by decide) _ (List.forall_mem_singleton.mpr
    ⟨by decide, ⟨ofString "gerda", [], by decide +kernel, by decide +kernel⟩, ⟨[], by decide +kernel⟩, by decide +kernel, .inl rfl⟩)

/-- A country in apostrophes is accepted, and loaded without them. -/
theorem apostrophes_are_stripped : ¬∀ s : UserShard, (∀ u ∈ s.users, AcceptedRecord u) →
    (s.users.map UserRecord.id).Nodup →
    loadUserShard (piecesText (shardPieces 1 s.users)) = .ok s := by
  intro h
  have haccepted : ∀ u ∈ (gerdaShard "'Eire'").users, AcceptedRecord u := List.forall_mem_singleton.mpr
    ⟨by decide, ⟨ofString "gerda", [], by decide +kernel, by decide +kernel⟩, ⟨[], by decide +kernel⟩, by decide +kernel, .inl rfl⟩
  have hload := h _ haccepted (List.nodup_singleton _)
  have hcountry : ((loadUserShard (piecesText (shardPieces 1 (gerdaShard "'Eire'").users))).toOption.map
      fun s => s.users.map fun u => u.country.text) = some [ofString "Eire"] := by decide +kernel
  rw [hload] at hcountry
  revert hcountry
  decide +kernel

end Example

end HyBBX.Command
