import HyBBX.Storage.AccountVisits

/-! The old `users.dat` is taken over into shards. -/

namespace HyBBX.Storage

open HyBBX.Core HyBBX.Config Lib Lib.Bytes Lib.Text Lib.Numeral Lib.LineReader

def usersDat (ls : List LegacyUser) : Bytes := ls.flatMap fun l => l.line ++ [nl]

lemma mem_decimalInt {b : UInt8} {n : ℤ} (h : b ∈ decimalInt n) : b = 0x2D ∨ isDigit b = true := by
  rw [decimalInt] at h
  split_ifs at h
  · rcases List.mem_cons.mp h with rfl | h
    · exact .inl rfl
    · exact .inr (isDigit_of_mem_decimal h)
  · exact .inr (isDigit_of_mem_decimal h)

namespace LegacyUser

variable (l : LegacyUser)

def texts : List Bytes := l.username.text :: l.levelName.text :: l.details

lemma notMem_line {c : UInt8} (hdigit : isDigit c = false) (hminus : c ≠ 0x2D) (hbar : c ≠ bar)
    (h : ∀ text ∈ l.texts, c ∉ text) : c ∉ l.line := by
  have hnumber : ∀ n, c ∉ decimal n := by
    intro n hm
    rw [isDigit_of_mem_decimal hm] at hdigit
    cases hdigit
  have hcreated : c ∉ decimalInt l.created.toInt := by
    intro hm
    rcases mem_decimalInt hm with rfl | hm
    · exact hminus rfl
    · rw [hm] at hdigit
      cases hdigit
  have hdetails : c ∉ l.details.flatMap (bar :: ·) := by
    intro hm
    obtain ⟨text, ht, hm⟩ := List.mem_flatMap.mp hm
    rcases List.mem_cons.mp hm with rfl | hm
    · exact hbar rfl
    · exact h text (List.mem_cons_of_mem _ (List.mem_cons_of_mem _ ht)) hm
  simp only [line, List.mem_append, List.mem_cons, not_or]
  exact ⟨hnumber _, hbar, h _ (by simp [texts]), hbar, h _ (by simp [texts]), hbar, hnumber _, hbar, hcreated, hdetails⟩

lemma nl_notMem_line : nl ∉ l.line :=
  l.notMem_line (by decide) (by decide) (by decide) fun text ht => (l.separable text ht).2

lemma zero_notMem_line : 0 ∉ l.line := by
  apply l.notMem_line (by decide) (by decide) (by decide)
  intro text ht
  simp only [texts, details, List.mem_cons, List.not_mem_nil, or_false] at ht
  rcases ht with rfl | rfl | rfl | rfl | rfl | rfl | rfl
  · exact l.username.string
  · exact l.levelName.string
  · exact l.fullName.string
  · exact l.country.string
  · exact l.location.string
  · exact l.email.string
  · exact l.password.string

lemma parse_piece : parseLegacyUserLine ((cstr (l.line ++ [nl])).takeWhile (· ≠ nl)) = some l.record := by
  have hstring : 0 ∉ l.line ++ [nl] := by
    rw [List.mem_append, not_or]
    exact ⟨l.zero_notMem_line, by decide⟩
  have hall : ∀ b ∈ l.line, decide (b ≠ nl) = true := by
    intro b hb
    rw [decide_eq_true_eq]
    rintro rfl
    exact l.nl_notMem_line hb
  rw [cstr_of_notMem hstring, List.takeWhile_append_of_pos hall, List.takeWhile_cons_of_neg (by simp), List.append_nil,
    l.parse_line]

def profile : List Bytes := [l.fullName.text, l.country.text, l.location.text, l.email.text]

/-- Nothing of the account gets lost: where the profile has a gap there is nothing to lose, and the texts are the same
when they are read back. -/
structure Lossless : Prop where
  noGap : l.Complete ∨ (∀ text ∈ l.profile, text = []) ∧ passwordIsPlain l.password.text = false
  safe : ∀ text ∈ l.username.text :: l.details, SafeValue text

variable {l}

lemma Lossless.record_profile (h : l.Lossless) : l.record.fullName = l.fullName ∧ l.record.country = l.country ∧
    l.record.location = l.location ∧ l.record.email = l.email := by
  have hkept : ∀ {size : ℕ} [NeZero size] (t : CText size), t.text ∈ l.profile →
      (if l.Complete then t else .empty) = t := by
    intro size _ t ht
    split_ifs with hc
    · rfl
    · exact CText.ext ((h.noGap.resolve_left hc).1 _ ht).symm
  exact ⟨hkept _ (by simp [profile]), hkept _ (by simp [profile]), hkept _ (by simp [profile]),
    hkept _ (by simp [profile])⟩

lemma Lossless.record_password (h : l.Lossless) (hplain : passwordIsPlain l.password.text = true) :
    l.record.password = l.password := by
  have hcomplete : l.Complete := h.noGap.resolve_right fun hgap => by
    rw [hgap.2] at hplain
    cases hplain
  exact if_pos hcomplete

lemma Lossless.readsBack (h : l.Lossless) : ReadsBack l.record := by
  obtain ⟨hf, hc, hl, he⟩ := h.record_profile
  have hown : ∀ text ∈ l.username.text :: l.details, SafeValue text ∧ nl ∉ text := by
    intro text ht
    refine ⟨h.safe text ht, (l.separable text ?_).2⟩
    rcases List.mem_cons.mp ht with rfl | ht
    · exact List.mem_cons_self
    · exact List.mem_cons_of_mem _ (List.mem_cons_of_mem _ ht)
  have hnone : SafeValue [] ∧ nl ∉ ([] : Bytes) := ⟨safeValue_of_plain (by simp), List.not_mem_nil⟩
  apply readsBack_of_texts l.idGiven l.nameGiven
  intro f hmem
  simp only [List.mem_cons, List.not_mem_nil, or_false] at hmem
  rcases hmem with rfl | rfl | rfl | rfl | rfl | rfl | rfl
  · exact hown _ List.mem_cons_self
  · exact hnone
  · rw [UserField.value, hf]
    exact hown _ (by simp [details])
  · rw [UserField.value, hc]
    exact hown _ (by simp [details])
  · rw [UserField.value, hl]
    exact hown _ (by simp [details])
  · rw [UserField.value, he]
    exact hown _ (by simp [details])
  · rw [UserField.value, record]
    dsimp only
    split_ifs
    · exact hown _ (by simp [details])
    · exact hnone

end LegacyUser

lemma fgets_usersDat {ls : List LegacyUser} (h : ∀ l ∈ ls, l.line.length + 1 < configLineMax) :
    fgets configLineMax (usersDat ls) = ls.map fun l => l.line ++ [nl] := by
  induction ls with
  | nil => rfl
  | cons l ls ih =>
    obtain ⟨hl, hrest⟩ := List.forall_mem_cons.mp h
    rw [usersDat, List.flatMap_cons, List.append_assoc, List.singleton_append, fgets_line l.nl_notMem_line hl,
      List.map_cons]
    exact congrArg _ (ih hrest)

section Takeover

variable {backend : HashBackend} {dir : UsersDir} {pre : List (List Account)}

lemma Carries.parsed {r : UserRecord} (h : ReadsBack r) : Carries r r.password r.normalize :=
  ⟨r.nickname, h.oneLine .nickname, rfl⟩

/-- The next shard is written with records as they were parsed. -/
lemma Holds.save_listed (h : Holds backend dir pre []) (hfew : pre.length + 1 < userShardIndexEnd) {s : UserShard}
    (hr : ∀ r ∈ s.users, ReadsBack r) (hids : (s.users.map UserRecord.id).Nodup) :
    ∃ dir', saveUserShard .sound dir (pre.length + 1) s = (.ok, dir') ∧ dir'.counter = dir.counter ∧
      Holds backend dir' (pre ++ [s.users.map .listed]) [] := by
  have hend : userShardIndexEnd = 10000 := rfl
  obtain ⟨uss, hlayout, hstored⟩ := h
  rw [hstored.length_eq] at hfew ⊢
  obtain ⟨fits, hload⟩ := @loadUserShard_saved (uss.length + 1) (by omega) s hr hids
  refine ⟨_, rfl, rfl, _, hlayout.save (.inr ⟨rfl, rfl⟩) hfew hload, List.rel_append hstored (.cons ?_ .nil)⟩
  rw [List.forall₂_map_left_iff, List.forall₂_map_right_iff, List.forall₂_same]
  intro r hmem
  rw [Account.StoredAs, if_neg List.not_mem_nil]
  exact Carries.parsed (hr r hmem)

/-- All shards in front of the last are full. -/
def Filled (accounts : List (List Account)) : Prop :=
  ∀ front bs, accounts = front ++ [bs] → ∀ cs ∈ front, cs.length = usersPerFile

lemma flatten_full (h : ∀ cs ∈ pre, cs.length = usersPerFile) : pre.flatten.length = pre.length * usersPerFile := by
  rw [List.length_flatten, List.map_congr_left h, List.map_const', List.sum_replicate, smul_eq_mul]

/-- The lines fill one shard after the other. -/
lemma migrateLegacyLines_holds {ls : List LegacyUser} {s : UserShard} (h : Holds backend dir pre [])
    (hfull : ∀ cs ∈ pre, cs.length = usersPerFile) (hpre : ∀ bs ∈ pre, (bs.map Account.id).Nodup)
    (hr : ∀ r ∈ s.users, ReadsBack r) (hls : ∀ l ∈ ls, l.Lossless)
    (hids : ((s.users ++ ls.map LegacyUser.record).map UserRecord.id).Nodup)
    (hfew : pre.length * usersPerFile + s.users.length + ls.length ≤ usersPerFile * (userShardIndexEnd - 1)) :
    ∃ dir' accounts, migrateLegacyLines .sound dir (pre.length + 1) s (ls.map fun l => l.line ++ [nl]) = (.ok, dir') ∧
      dir'.counter = dir.counter ∧ Holds backend dir' accounts [] ∧ Filled accounts ∧
      (∀ bs ∈ accounts, (bs.map Account.id).Nodup) ∧
      accounts.flatten = pre.flatten ++ (s.users ++ ls.map LegacyUser.record).map .listed := by
  have hend : userShardIndexEnd = 10000 := rfl
  have hfile : usersPerFile = 50 := rfl
  rw [hend, hfile] at hfew
  induction ls generalizing dir pre s with
  | nil =>
    rw [List.map_nil, List.append_nil] at hids
    rw [List.map_nil, List.map_nil, List.append_nil, migrateLegacyLines]
    by_cases hempty : s.users = []
    · rw [if_pos hempty]
      refine ⟨dir, pre, rfl, rfl, h, ?_, hpre, by simp [hempty]⟩
      rintro front bs rfl cs hcs
      exact hfull cs (List.mem_append_left _ hcs)
    · have hpos := List.length_pos_of_ne_nil hempty
      have hnext : pre.length + 1 < userShardIndexEnd := by
        rw [List.length_nil] at hfew
        omega
      obtain ⟨dir', hsave, hcounter, hholds⟩ := h.save_listed hnext hr hids
      rw [if_neg hempty, hsave]
      refine ⟨dir', _, rfl, hcounter, hholds, ?_, ?_, by simp⟩
      · intro front bs he cs hcs
        obtain ⟨rfl, -⟩ := List.append_inj' he rfl
        exact hfull cs hcs
      · rw [List.forall_mem_append]
        refine ⟨hpre, List.forall_mem_singleton.mpr ?_⟩
        rwa [List.map_map]
  | cons l ls ih =>
    obtain ⟨hl, hrest⟩ := List.forall_mem_cons.mp hls
    rw [List.length_cons] at hfew
    have hids' : (((s.users ++ [l.record]) ++ ls.map LegacyUser.record).map UserRecord.id).Nodup := by
      simpa using hids
    rw [List.map_cons, migrateLegacyLines, l.parse_piece]
    dsimp only
    by_cases room : s.users.length < usersPerFile
    · rw [dif_pos room]
      obtain ⟨dir', accounts, hrun, hcounter, hholds, hfilled, hnodup, hflat⟩ :=
        @ih dir pre ⟨s.users ++ [l.record], append_fits _ room⟩ h hfull hpre
          (by
            rw [List.forall_mem_append]
            exact ⟨hr, List.forall_mem_singleton.mpr hl.readsBack⟩)
          hrest hids' (by simp only [List.length_append, List.length_singleton]; omega)
      exact ⟨dir', accounts, hrun, hcounter, hholds, hfilled, hnodup, by simpa using hflat⟩
    · have hfits := s.fits
      have hnext : pre.length + 1 < userShardIndexEnd := by omega
      have hown : (s.users.map UserRecord.id).Nodup := by
        rw [List.map_append] at hids
        exact (List.nodup_append.mp hids).1
      obtain ⟨mid, hsave, hmid, hholds⟩ := h.save_listed hnext hr hown
      rw [dif_neg room, hsave]
      dsimp only
      obtain ⟨dir', accounts, hrun, hcounter, hholds, hfilled, hnodup, hflat⟩ :=
        @ih mid (pre ++ [s.users.map .listed]) ⟨[l.record], Nat.le_of_ble_eq_true rfl⟩ hholds
          (by
            rw [List.forall_mem_append]
            refine ⟨hfull, List.forall_mem_singleton.mpr ?_⟩
            rw [List.length_map]
            omega)
          (by
            rw [List.forall_mem_append]
            refine ⟨hpre, List.forall_mem_singleton.mpr ?_⟩
            rwa [List.map_map])
          (List.forall_mem_singleton.mpr hl.readsBack) hrest
          (by
            rw [List.map_append] at hids
            simpa using (List.nodup_append.mp hids).2.1)
          (by simp only [List.length_append, List.length_singleton]; omega)
      rw [List.length_append, List.length_singleton] at hrun
      exact ⟨dir', accounts, hrun, hcounter.trans hmid, hholds, hfilled, hnodup, by simpa using hflat⟩

/-- A directory without shards takes over the whole file. -/
lemma migrateLegacyUsersDat_holds {ls : List LegacyUser} (hnone : ∀ i, dir.shards i = none) (hls : ∀ l ∈ ls, l.Lossless)
    (hids : (ls.map LegacyUser.id).Nodup) (hlines : ∀ l ∈ ls, l.line.length + 1 < configLineMax)
    (hfew : ls.length ≤ usersPerFile * (userShardIndexEnd - 1)) :
    ∃ dir' accounts, migrateLegacyUsersDat .sound dir (.holds (usersDat ls)) = (.ok, dir') ∧
      dir'.counter = dir.counter ∧
      Holds backend dir' accounts [] ∧ Filled accounts ∧ Takeover (ls.map LegacyUser.record) accounts ∧
      accounts.flatten = (ls.map LegacyUser.record).map .listed := by
  have hlayout : Layout dir [] := ⟨by decide, fun i us hi => (nomatch hi), fun i _ _ => hnone i⟩
  have hrecords : ((ls.map LegacyUser.record).map UserRecord.id).Nodup := by
    rw [List.map_map]
    exact hids
  obtain ⟨dir', accounts, hrun, hcounter, hholds, hfilled, hnodup, hflat⟩ :=
    @migrateLegacyLines_holds backend dir [] ls .empty ⟨[], hlayout, .nil⟩ nofun nofun nofun hls hrecords
      (by simpa [UserShard.empty] using hfew)
  refine ⟨dir', accounts, ?_, hcounter, hholds, hfilled, ⟨⟨[], Nat.zero_le _, by simpa [UserShard.empty] using hflat⟩,
    hnodup, ?_, hrecords⟩, hflat⟩
  · rw [migrateLegacyUsersDat, hlayout.last, List.length_nil, if_neg (lt_irrefl _), fgets_usersDat hlines]
    exact hrun
  · intro b hb
    rw [hflat] at hb
    obtain ⟨r, hr, rfl⟩ := List.mem_map.mp hb
    obtain ⟨l, hl, rfl⟩ := List.mem_map.mp hr
    exact (hls l hl).readsBack

end Takeover

/-! The Sysop that a store without one gets when it is opened. -/

variable {backend : HashBackend} {dir : UsersDir}

lemma safe_of_read {v : Bytes} (h : readValue v = v ∧ nl ∉ v) : SafeValue v ∧ nl ∉ v :=
  ⟨(readValue_eq_self_iff v).mp h.1, h.2⟩

section Hashes

variable (hb : HexDigests backend)

include hb

lemma hex_sha256 (plain : Bytes) : (backend.sha256Hex plain).length = 64 ∧ ∀ b ∈ backend.sha256Hex plain,
    hexDigit b = true := by
  have hvalid := hb plain
  rw [hexStringValid, Bool.and_eq_true, decide_eq_true_eq, List.all_eq_true] at hvalid
  exact hvalid

/-- The stored form of a password fits its field. -/
lemma copy_hash_text (plain : Bytes) :
    (CText.copy (passwordHash backend plain) : CText userPasswordMax).text = passwordHash backend plain := by
  obtain ⟨hlen, hhex⟩ := hex_sha256 hb plain
  apply CText.copy_text
  · rw [passwordHash, List.mem_append, not_or]
    exact ⟨by decide, fun hm => absurd (hhex 0 hm) (by decide)⟩
  · rw [passwordHash, List.length_append, hlen]
    decide

lemma hash_not_plain (plain : Bytes) : passwordIsPlain (passwordHash backend plain) = false := by
  have hhashed : passwordIsHashed (passwordHash backend plain) = true := by
    have hpre : passwordSha256Prefix <+: passwordHash backend plain := List.prefix_append _ _
    have hdrop : (passwordHash backend plain).drop 8 = backend.sha256Hex plain := List.drop_left' rfl
    rw [passwordIsHashed, if_pos hpre, hdrop]
    exact hb plain
  rw [passwordIsPlain, hhashed]
  simp

lemma safe_defaultSysop (now : Int64) (id : Fin (2 ^ 64)) (plain : Bytes) (f : UserField) :
    SafeValue (f.value (defaultSysop now id (CText.copy (passwordHash backend plain)))) ∧
      nl ∉ f.value (defaultSysop now id (CText.copy (passwordHash backend plain))) := by
  apply safe_of_texts
  intro f hf
  simp only [List.mem_cons, List.not_mem_nil, or_false] at hf
  rcases hf with rfl | rfl | rfl | rfl | rfl | rfl | rfl
  · exact safe_of_read (v := (CText.copy (ofString "sysop") : CText userNameMax).text) (by decide +kernel)
  · exact safe_of_read (v := (CText.copy defaultSysopUsername : CText userNicknameMax).text) (by decide +kernel)
  · exact safe_of_read (v := (CText.copy (ofString "System Operator") : CText userFullNameMax).text) (by decide +kernel)
  · exact safe_of_read (v := []) (by decide +kernel)
  · exact safe_of_read (v := []) (by decide +kernel)
  · exact safe_of_read (v := []) (by decide +kernel)
  · exact ⟨safeValue_of_plain (plain_copy_hash hb plain), nl_notMem_of_plain (plain_copy_hash hb plain)⟩

lemma sound_defaultSysop (now : Int64) {id : Fin (2 ^ 64)} (hid : (id : ℕ) ≠ 0) (plain : Bytes) :
    (Account.sysop (defaultSysop now id (CText.copy (passwordHash backend plain)))).Sound := by
  have hsafe := safe_defaultSysop hb now id plain
  have hname : (CText.copy (ofString "sysop") : CText userNameMax).text ≠ [] := by decide
  have hnick : (CText.copy defaultSysopUsername : CText userNicknameMax).text ≠ [] := by decide
  refine ⟨⟨⟨hid, hname, fun f => (hsafe f).2, fun f => (hsafe f).1⟩, ?_⟩, hnick, ?_⟩
  · rw [UserRecord.normalize, defaultSysop]
    congr 1
  · have htext : (defaultSysop now id (CText.copy (passwordHash backend plain))).password.text =
        passwordHash backend plain := copy_hash_text hb plain
    rw [htext]
    exact hash_not_plain hb plain

end Hashes

/-- What a shard reads as with one more record behind its own. -/
lemma loadUserShard_extended {shardIndex : ℕ} (hi : shardIndex < 2 ^ 64) {s : UserShard} {us : List UserRecord}
    {u : UserRecord} (hs : s.users = us ++ [u]) (hlast : ∀ v ∈ us, Lasting v) (hline : OneLine u)
    (hids : (us.map UserRecord.id).Nodup) :
    ∃ t, loadUserShard (piecesText (shardPieces shardIndex s.users)) = .ok t ∧
      t.users = us.map (fun v => v.reread.normalize) ++
        if u.id = 0 ∨ u.id ∈ us.map UserRecord.id then [] else (Block.whole u).read.toList := by
  have hlines : ∀ v ∈ s.users, OneLine v := by
    rw [hs, List.forall_mem_append]
    exact ⟨fun v hv => (hlast v hv).oneLine, List.forall_mem_singleton.mpr hline⟩
  have hread : (us.filterMap fun v => (Block.whole v).read) = us.map fun v => v.reread.normalize :=
    filterMap_whole fun v hv => (hlast v hv).read
  by_cases hu : u.id ∈ us.map UserRecord.id
  · obtain ⟨t, hload, ht⟩ := loadUserShard_repeated hids hi s hs hlines hu
    exact ⟨t, hload, by rw [ht, hread, if_pos (.inr hu), List.append_nil]⟩
  · have hnodup : (s.users.map UserRecord.id).Nodup := by
      rw [hs, List.map_append, List.nodup_append]
      refine ⟨hids, List.nodup_singleton _, ?_⟩
      rintro _ ha b hb rfl
      exact hu (List.mem_singleton.mp hb ▸ ha)
    obtain ⟨fits, hload⟩ := loadUserShard_whole hi s hlines hnodup
    refine ⟨_, hload, ?_⟩
    dsimp only
    rw [hs, List.filterMap_append, hread]
    congr 1
    by_cases h0 : u.id = 0
    · rw [if_pos (.inl h0), List.filterMap_cons_none (by rw [Block.read_whole, if_pos (.inl h0)]), List.filterMap_nil]
    · rw [if_neg (not_or.mpr ⟨h0, hu⟩)]
      cases hr : (Block.whole u).read <;> simp [hr]

section Sysop

variable {accounts : List (List Account)} {ready : List Account} {rs : List UserRecord}

/-- As long as not all shards are full there is room for one more account. -/
lemma Holds.hasRoom (h : Holds backend dir accounts ready) (hfilled : Filled accounts)
    (hroom : accounts.flatten.length < usersPerFile * (userShardIndexEnd - 1)) : HasRoom dir := by
  have hend : userShardIndexEnd = 10000 := rfl
  have hfile : usersPerFile = 50 := rfl
  obtain ⟨uss, hlayout, hstored⟩ := h
  intro file s hshard hload
  rw [hend] at hshard
  have hfew := hlayout.few
  have hlength : uss.length = 9999 := by
    by_contra hne
    have hnone := hlayout.rest 9999 (by omega) (by omega)
    rw [hnone] at hshard
    cases hshard
  obtain rfl | ⟨front, bs, rfl⟩ := List.eq_nil_or_concat accounts
  · rw [← hstored.length_eq] at hlength
    cases hlength
  rw [List.concat_eq_append] at hstored hroom hfilled
  obtain ⟨pre, post, rfl, hpre, hpost⟩ := Pairs.split_append hstored.flip
  obtain ⟨us, _, rfl, hus, ⟨⟩⟩ := Pairs.split_cons hpost
  have hfront : front.length = 9998 := by
    rw [List.length_append, List.length_singleton, hpre.length_eq] at hlength
    omega
  have hbs : bs.length < usersPerFile := by
    rw [List.flatten_append, List.flatten_singleton, List.length_append, flatten_full (hfilled front bs rfl),
      hfront, hend,
      hfile] at hroom
    omega
  obtain ⟨t, ht, htus⟩ := hlayout.file pre.length us (by simp)
  rw [hpre.length_eq, hfront, loadShardAt] at ht
  rw [hshard] at ht
  dsimp only at ht
  rw [hload] at ht
  obtain rfl := Except.ok.inj ht
  rw [htus]
  exact lt_of_eq_of_lt (List.Forall₂.length_eq hus).symm hbs

lemma Carries.level_eq {r c : UserRecord} {password : CText userPasswordMax} (h : Carries r password c) :
    c.level = r.level := by
  obtain ⟨nickname, -, rfl⟩ := h
  rfl

/-- A listed Sysop is counted. -/
lemma Holds.sysop_counted {uss : List (List UserRecord)}
    (hstored : List.Forall₂ (List.Forall₂ (Account.StoredAs backend ready)) accounts uss)
    (hflat : accounts.flatten = rs.map .listed) (h : ∃ r ∈ rs, r.level = .sysop) :
    0 < uss.flatten.countP fun u => u.level = .sysop := by
  obtain ⟨r, hr, hlevel⟩ := h
  have hmem : Account.listed r ∈ accounts.flatten := by
    rw [hflat]
    exact List.mem_map_of_mem hr
  obtain ⟨c, hc, hrc⟩ := Pairs.mem_left (List.rel_flatten hstored) hmem
  rw [List.countP_pos_iff]
  exact ⟨c, hc, by rw [Carries.level_eq hrc, hlevel]; rfl⟩

/-- The Sysop's account is written behind the others; if another account of the shard has its id, it is lost. -/
lemma Holds.append_sysop (hb : HexDigests backend) (ht : Takeover rs accounts)
    (hflat : accounts.flatten = rs.map .listed)
    (h : Holds backend dir accounts []) (hroom : HasRoom dir) (now : Int64) (id : Fin (2 ^ 64)) (plain : Bytes) :
    ∃ dir' accounts', appendUserRecord .sound dir (defaultSysop now id (CText.copy (passwordHash backend plain))) =
      (.ok, dir') ∧ Takeover rs accounts' ∧ Holds backend dir' accounts' [] := by
  obtain ⟨uss, hlayout, hstored⟩ := h
  obtain ⟨pre, s, htarget, hlen, hfew, hshape⟩ := hlayout.appendTarget hroom
  have hend : userShardIndexEnd = 10000 := rfl
  obtain ⟨bpre, bs, hpre, hbs, hown, hbpre, hids⟩ : ∃ bpre bs,
      List.Forall₂ (List.Forall₂ (Account.StoredAs backend [])) bpre pre ∧
        List.Forall₂ (Account.StoredAs backend []) bs s.users ∧ bpre.flatten ++ bs = accounts.flatten ∧
          bpre ⊆ accounts ∧ (bs.map Account.id).Nodup := by
    rcases hshape with rfl | ⟨rfl, hempty⟩
    · obtain ⟨bpre, post, rfl, hpre, hpost⟩ := Pairs.split_append hstored
      obtain ⟨bs, _, rfl, hbs, ⟨⟩⟩ := Pairs.split_cons hpost
      exact ⟨bpre, bs, hpre, hbs, by simp, List.subset_append_left _ _, ht.ids bs (by simp)⟩
    · exact ⟨accounts, [], hstored, hempty ▸ .nil, by simp, List.Subset.refl _, List.nodup_nil⟩
  have hsound : ∀ b ∈ bs, b.Sound := fun b hb => ht.sound b (hown ▸ List.mem_append_right _ hb)
  have hlasting : ∀ c ∈ s.users, Lasting c := by
    intro c hc
    obtain ⟨b, hb', hbc⟩ := Pairs.mem_right hbs hc
    exact hbc.lasting hb (hsound b hb')
  generalize hu : defaultSysop now id (CText.copy (passwordHash backend plain)) = u
  have hline : OneLine u := fun f => hu ▸ (safe_defaultSysop hb now id plain f).2
  obtain ⟨t, hload, htusers⟩ := @loadUserShard_extended (pre.length + 1) (by omega) ⟨s.users ++ [u], append_fits u hlen⟩
    s.users u rfl hlasting hline (stored_ids hbs ▸ hids)
  have hsaved := hlayout.save (hshape.imp (fun he => ⟨s.users, he⟩) fun he => ⟨he.1, rfl⟩) hfew hload
  have hloaded : List.Forall₂ (Account.StoredAs backend []) bs (s.users.map fun v => v.reread.normalize) := by
    rw [List.forall₂_map_right_iff]
    exact ((List.forall₂_and_left ..).mpr ⟨hsound, hbs⟩).imp fun b c hbc => hbc.2.loaded hb hbc.1
  have hrun : appendUserRecord .sound dir u = (.ok, (saveUserShard .sound dir (pre.length + 1)
      ⟨s.users ++ [u], append_fits u hlen⟩).2) := by
    rw [appendUserRecord, htarget]
    dsimp only
    rw [dif_pos hlen]
    rfl
  split_ifs at htusers with hlost
  · rw [List.append_nil] at htusers
    refine ⟨_, bpre ++ [bs], hrun, ⟨⟨[], Nat.zero_le _, ?_⟩, ?_, ?_, ht.listedIds⟩, _, hsaved, ?_⟩
    · simpa [hown] using hflat
    · rw [List.forall_mem_append]
      exact ⟨fun cs hcs => ht.ids cs (hbpre hcs), List.forall_mem_singleton.mpr hids⟩
    · rw [List.flatten_append, List.flatten_singleton, hown]
      exact ht.sound
    · exact List.rel_append hpre (.cons (htusers ▸ hloaded) .nil)
  · rw [not_or] at hlost
    have hs : (Account.sysop u).Sound := by
      rw [← hu] at hlost ⊢
      exact sound_defaultSysop hb now hlost.1 plain
    have hstored : (Account.sysop u).StoredAs backend [] u.reread.normalize :=
      Account.StoredAs.loaded hb hs (rfl : (Account.sysop u).StoredAs backend [] u)
    rw [hs.1.toReadsBack.lasting.read, Option.toList_some] at htusers
    refine ⟨_, bpre ++ [bs ++ [.sysop u]], hrun, ⟨⟨[u], le_refl _, ?_⟩, ?_, ?_, ht.listedIds⟩, _, hsaved, ?_⟩
    · rw [List.flatten_append, List.flatten_singleton, ← List.append_assoc, hown, hflat]
      rfl
    · rw [List.forall_mem_append]
      refine ⟨fun cs hcs => ht.ids cs (hbpre hcs), List.forall_mem_singleton.mpr ?_⟩
      rw [List.map_append, List.nodup_append]
      refine ⟨hids, List.nodup_singleton _, ?_⟩
      rintro _ ha k hk rfl
      rw [stored_ids hbs, List.mem_singleton.mp hk] at ha
      exact hlost.2 ha
    · rw [List.flatten_append, List.flatten_singleton, ← List.append_assoc, hown, List.forall_mem_append]
      exact ⟨ht.sound, List.forall_mem_singleton.mpr hs⟩
    · rw [htusers]
      exact List.rel_append hpre (.cons (List.rel_append hloaded (.cons hstored .nil)) .nil)

/-- The files of the store stay as they are when the counter is raised. -/
lemma Holds.bumped (h : Holds backend dir accounts ready) (counter : Option Bytes) :
    Holds backend { dir with counter := counter } accounts ready := by
  obtain ⟨uss, hlayout, hstored⟩ := h
  exact ⟨uss, ⟨hlayout.few, hlayout.file, hlayout.rest⟩, hstored⟩

lemma ensureDefaultSysop_holds (hb : HexDigests backend) (ht : Takeover rs accounts)
    (hflat : accounts.flatten = rs.map .listed) (h : Holds backend dir accounts []) (now : Int64)
    {generated : Option Bytes}
    (hsysop : (∃ r ∈ rs, r.level = .sysop) ∨
      HasRoom dir ∧ (∃ n, readCounter dir = .ok n) ∧ ∃ plain, generated = some plain) :
    ∃ dir' accounts', ensureDefaultSysop .sound backend now generated dir = (.ok, dir') ∧ Takeover rs accounts' ∧
      Holds backend dir' accounts' [] := by
  obtain ⟨uss, hlayout, hstored⟩ := id h
  rw [ensureDefaultSysop, hlayout.countLevel]
  dsimp only
  by_cases hcount : 0 < uss.flatten.countP fun u => u.level = .sysop
  · rw [if_pos hcount]
    exact ⟨dir, accounts, rfl, ht, h⟩
  · obtain ⟨hroom, ⟨n, hn⟩, plain, rfl⟩ := hsysop.resolve_left fun hs => hcount (Holds.sysop_counted hstored hflat hs)
    rw [if_neg hcount, bumpCounter, hn]
    dsimp only
    exact Holds.append_sysop hb ht hflat (h.bumped (some (decimal (Fin.ofNat (2 ^ 64) (n + 1)) ++ [nl]))) hroom now _ plain

end Sysop

end HyBBX.Storage
