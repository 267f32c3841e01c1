import HyBBX.Storage.Account

/-! Which accounts the shards hold, and that an update keeps them. -/

namespace HyBBX.Storage

open HyBBX.Core HyBBX.Config Lib Lib.Bytes Lib.Text Lib.Numeral Lib.LineReader

variable {backend : HashBackend} {dir : UsersDir} {accounts : List (List Account)} {ready : List Account}

/-- The shards hold these accounts. -/
def Holds (backend : HashBackend) (dir : UsersDir) (accounts : List (List Account)) (ready : List Account) : Prop :=
  ∃ uss, Layout dir uss ∧ List.Forall₂ (List.Forall₂ (Account.StoredAs backend ready)) accounts uss

/-- The listed accounts, and behind them the Sysop's if one was made. -/
structure Takeover (rs : List UserRecord) (accounts : List (List Account)) : Prop where
  shape : ∃ extra : List UserRecord, extra.length ≤ 1 ∧
    accounts.flatten = rs.map Account.listed ++ extra.map Account.sysop
  ids : ∀ bs ∈ accounts, (bs.map Account.id).Nodup
  sound : ∀ b ∈ accounts.flatten, b.Sound
  listedIds : (rs.map UserRecord.id).Nodup

lemma stored_congr {ready' bs : List Account} {cs : List UserRecord}
    (h : List.Forall₂ (Account.StoredAs backend ready) bs cs) (hr : ∀ b ∈ bs, b ∈ ready' ↔ b ∈ ready) :
    List.Forall₂ (Account.StoredAs backend ready') bs cs :=
  ((List.forall₂_and_left ..).mpr ⟨hr, h⟩).imp fun _ _ hs => hs.2.congr hs.1

lemma storedAll_congr {ready' : List Account} {bss : List (List Account)} {css : List (List UserRecord)}
    (h : List.Forall₂ (List.Forall₂ (Account.StoredAs backend ready)) bss css)
    (hr : ∀ b ∈ bss.flatten, b ∈ ready' ↔ b ∈ ready) :
    List.Forall₂ (List.Forall₂ (Account.StoredAs backend ready')) bss css := by
  apply ((List.forall₂_and_left ..).mpr ⟨?_, h⟩).imp fun _ _ hs => stored_congr hs.2 hs.1
  exact fun bs hbs b hb => hr b (List.mem_flatten.mpr ⟨bs, hbs, hb⟩)

lemma stored_ids {bs : List Account} {cs : List UserRecord} (h : List.Forall₂ (Account.StoredAs backend ready) bs cs) :
    bs.map Account.id = cs.map UserRecord.id :=
  Pairs.map_eq (fun _ _ hs => hs.id_eq.symm) h

/-- A shard that is written with records of sound accounts. -/
lemma Layout.save_stored {uss pre post : List (List UserRecord)} (h : Layout dir uss) (hb : HexDigests backend)
    (ha : Around uss pre post) (hfew : pre.length + 1 < userShardIndexEnd) {bs : List Account} {s : UserShard}
    (hs : List.Forall₂ (Account.StoredAs backend ready) bs s.users) (hsound : ∀ b ∈ bs, b.Sound)
    (hids : (bs.map Account.id).Nodup) :
    ∃ us, Layout (saveUserShard .sound dir (pre.length + 1) s).2 (pre ++ us :: post) ∧
      List.Forall₂ (Account.StoredAs backend ready) bs us := by
  have hend : userShardIndexEnd = 10000 := rfl
  have hlasting : ∀ c ∈ s.users, Lasting c := by
    intro c hc
    obtain ⟨b, hbs, hbc⟩ := Pairs.mem_right hs hc
    exact hbc.lasting hb (hsound b hbs)
  obtain ⟨t, hload, ht⟩ := @loadUserShard_lasting (pre.length + 1) (by omega) s hlasting (stored_ids hs ▸ hids)
  refine ⟨t.users, h.save ha hfew hload, ?_⟩
  rw [ht, List.forall₂_map_right_iff]
  apply (List.forall₂_and_left ..).mpr ⟨hsound, hs⟩ |>.imp
  exact fun b c hbc => hbc.2.loaded hb hbc.1

section Update

variable {rs : List UserRecord} (ht : Takeover rs accounts)

include ht

lemma Takeover.nodup : accounts.flatten.Nodup := by
  obtain ⟨extra, hlen, hflat⟩ := ht.shape
  have hlisted : (rs.map Account.listed).Nodup :=
    (List.Nodup.of_map _ ht.listedIds).map fun _ _ => Account.listed.inj
  rw [hflat, List.nodup_append]
  refine ⟨hlisted, ?_, ?_⟩
  · match extra, hlen with
    | [], _ => exact List.nodup_nil
    | [u], _ => exact List.nodup_singleton _
  · rintro a ha b hb rfl
    obtain ⟨r, -, rfl⟩ := List.mem_map.mp ha
    obtain ⟨u, -, hu⟩ := List.mem_map.mp hb
    cases hu

/-- An account that a listed one does not precede, and that is no other listed one, is the listed one. -/
lemma Takeover.eq_listed {before behind : List Account} {b : Account} (hflat : accounts.flatten = before ++ b :: behind)
    {r : UserRecord} (hr : r ∈ rs) (hbefore : Account.listed r ∉ before) (hown : ∀ q ∈ rs, b = .listed q → q = r) :
    b = .listed r := by
  obtain ⟨extra, -, hshape⟩ := ht.shape
  rw [hshape] at hflat
  rcases List.append_eq_append_iff.mp hflat with ⟨us, rfl, -⟩ | ⟨us, hlisted, hrest⟩
  · exact absurd (List.mem_append_left _ (List.mem_map_of_mem hr)) hbefore
  · cases us with
    | nil =>
      rw [List.append_nil] at hlisted
      exact absurd (hlisted ▸ List.mem_map_of_mem hr) hbefore
    | cons a us =>
      obtain ⟨rfl, -⟩ := List.cons.inj hrest
      have hb : b ∈ rs.map Account.listed := by
        rw [hlisted]
        simp
      obtain ⟨q, hq, rfl⟩ := List.mem_map.mp hb
      rw [hown q hq rfl]

/-- The first account with the id of a listed one is the listed one. -/
lemma Takeover.first {before behind : List Account} {b : Account} (hflat : accounts.flatten = before ++ b :: behind)
    {r : UserRecord} (hr : r ∈ rs) (hid : b.id = r.id) (hfirst : ∀ a ∈ before, a.id ≠ r.id) : b = .listed r := by
  apply ht.eq_listed hflat hr
  · exact fun hm => hfirst _ hm rfl
  · rintro q hq rfl
    exact List.inj_on_of_nodup_map ht.listedIds hq hr hid

/-- A listed account is rewritten in its place. -/
lemma Takeover.update (hb : HexDigests backend) (h : Holds backend dir accounts ready) {r : UserRecord} (hr : r ∈ rs)
    {ready' : List Account} (hsame : ∀ b, b ≠ .listed r → (b ∈ ready' ↔ b ∈ ready)) {v : UserRecord}
    (hv : (Account.listed r).StoredAs backend ready' v) :
    ∃ dir', updateUser .sound dir v = (.ok, dir') ∧ Holds backend dir' accounts ready' := by
  have hvid : v.id = r.id := hv.id_eq
  obtain ⟨uss, hlayout, hstored⟩ := h
  have hlisted : Account.listed r ∈ accounts.flatten := by
    obtain ⟨extra, -, hflat⟩ := ht.shape
    rw [hflat]
    exact List.mem_append_left _ (List.mem_map_of_mem hr)
  have hid : v.id ≠ 0 := by
    rw [hvid]
    exact (ht.sound _ hlisted).id_ne
  rcases hlayout.findUserShard hid with ⟨hno, -⟩ | ⟨pre, us, u, vs, post, rfl, huid, hfirst, hfind⟩
  · obtain ⟨c, hc, hbc⟩ := Pairs.mem_left (List.rel_flatten hstored) hlisted
    exact absurd (hbc.id_eq.trans hvid.symm) (hno c hc)
  · obtain ⟨bpre, bs, bpost, rfl, hpre, hbs, hpost⟩ := Pairs.split_middle hstored
    obtain ⟨bus, b, bvs, rfl, hus, hbu, hvs⟩ := Pairs.split_middle hbs
    obtain ⟨place, hplace, hindex, hslot, husers⟩ := hlayout.place hid hfind
    have hflat : (bpre ++ (bus ++ b :: bvs) :: bpost).flatten = (bpre.flatten ++ bus) ++
        b :: (bvs ++ bpost.flatten) := by
      simp
    have hbefore := List.rel_append (List.rel_flatten hpre) hus
    obtain rfl : b = .listed r := by
      apply ht.first hflat hr
      · rw [← hbu.id_eq, huid, hvid]
      · intro a ha
        obtain ⟨c, hc, hac⟩ := Pairs.mem_left hbefore ha
        rw [← hac.id_eq, ← hvid]
        exact hfirst c hc
    -- every other account is as ready as before
    have hother : ∀ a ∈ (bpre.flatten ++ bus) ++ (bvs ++ bpost.flatten), a ∈ ready' ↔ a ∈ ready := by
      intro a ha
      apply hsame
      rintro rfl
      have hnodup := ht.nodup
      rw [hflat, List.nodup_middle] at hnodup
      exact hnodup.notMem ha
    have hset : (place.shard.set place.slot v.normalize).users = us ++ v.normalize :: vs := by
      simp [UserShard.set, husers, hslot]
    have hnew : List.Forall₂ (Account.StoredAs backend ready') (bus ++ Account.listed r :: bvs)
        (place.shard.set place.slot v.normalize).users := by
      rw [hset]
      apply List.rel_append (stored_congr hus fun a ha => hother a (by simp [ha]))
      exact .cons (Carries.normalize hv) (stored_congr hvs fun a ha => hother a (by simp [ha]))
    have hbsmem : bus ++ Account.listed r :: bvs ∈ bpre ++ (bus ++ Account.listed r :: bvs) :: bpost := by simp
    have hfew : pre.length + 1 < userShardIndexEnd := by
      have := hlayout.few
      rw [List.length_append, List.length_cons] at this
      omega
    obtain ⟨new, hlayout', hnew'⟩ := hlayout.save_stored hb (.inl ⟨_, rfl⟩) hfew hnew
      (fun a ha => ht.sound a (List.mem_flatten.mpr ⟨_, hbsmem, ha⟩)) (ht.ids _ hbsmem)
    refine ⟨_, ?_, _, hlayout', List.rel_append (storedAll_congr hpre fun a ha => hother a ?_)
      (.cons hnew' (storedAll_congr hpost fun a ha => hother a ?_))⟩
    · rw [updateUser, hplace]
      dsimp only
      rw [hindex]
      rfl
    · rw [List.append_assoc]
      exact List.mem_append_left _ ha
    · exact List.mem_append_right _ (List.mem_append_right _ ha)

end Update

end HyBBX.Storage

/-! The migrations of nicknames and of passwords visit every account and keep it. -/

namespace HyBBX.Storage

open HyBBX.Core HyBBX.Config Lib Lib.Bytes Lib.Text Lib.Numeral Lib.LineReader

variable {backend : HashBackend} {dir : UsersDir} {accounts : List (List Account)} {ready : List Account}
  {rs : List UserRecord}

lemma nl_notMem_readNicknameFile {nickFile : Bytes → Option Bytes} {username : Bytes} {nickname : CText userNicknameMax}
    (h : readNicknameFile nickFile username = some nickname) : nl ∉ nickname.text := by
  rw [readNicknameFile] at h
  split at h
  · cases h
  · split at h
    · cases h
    · split at h
      · cases h
      · dsimp only at h
        split at h
        · cases h
        · obtain rfl := Option.some.inj h
          intro hm
          have hline := List.takeWhile_subset _ (CText.copy_subset _ hm)
          have := List.mem_takeWhile_imp hline
          simp at this

lemma nl_notMem_nicknameInfer {username : Bytes} (h : nl ∉ username) : nl ∉ (nicknameInfer username).text := by
  unfold nicknameInfer
  split
  · decide
  · cases username with
    | nil => exact List.not_mem_nil
    | cons b rest =>
      rw [List.mem_cons, not_or] at h
      dsimp only
      split_ifs with hb
      · intro hm
        rcases List.mem_cons.mp (CText.copy_subset _ hm) with hn | hm
        · have hall : ∀ c : UInt8, 0x61 ≤ c ∧ c ≤ 0x7A → nl ≠ c - 32 := by
            apply forall_byte
            decide +kernel
          exact hall b hb hn
        · exact h.2 hm
      · intro hm
        rcases List.mem_cons.mp (CText.copy_subset _ hm) with hn | hm
        · exact h.1 hn
        · exact h.2 hm

lemma nl_notMem_migratedNickname (nickFile : Bytes → Option Bytes) {u : UserRecord} (hu : nl ∉ u.username.text)
    (hn : nl ∉ u.nickname.text) : nl ∉ (migratedNickname nickFile u).text := by
  rw [migratedNickname]
  split
  · cases hread : readNicknameFile nickFile u.normalize.username.text with
    | none => exact nl_notMem_nicknameInfer hu
    | some nickname => exact nl_notMem_readNicknameFile hread
  · exact hn

lemma strIeq_normalize (u : UserRecord) : strIeq u.username.text u.normalize.username.text = true := by
  rw [strIeq_iff]
  exact (congrArg CText.text (CText.lower_lower u.username)).symm

/-- Only the nickname files change. -/
lemma Holds.nickFile (h : Holds backend dir accounts ready) (nick : Bytes → Option Bytes) :
    Holds backend { dir with nickFile := nick } accounts ready := by
  obtain ⟨uss, hlayout, hstored⟩ := h
  exact ⟨uss, ⟨hlayout.few, hlayout.file, hlayout.rest⟩, hstored⟩

lemma Holds.imp {ready' : List Account} (h : Holds backend dir accounts ready)
    (himp : ∀ (b : Account) (c : UserRecord), b.StoredAs backend ready c → b.StoredAs backend ready' c) :
    Holds backend dir accounts ready' := by
  obtain ⟨uss, hlayout, hstored⟩ := h
  exact ⟨uss, hlayout, hstored.imp fun _ _ hs => hs.imp himp⟩

lemma Carries.password_eq {r c : UserRecord} {password : CText userPasswordMax} (h : Carries r password c) :
    c.password = password := by
  obtain ⟨nickname, -, rfl⟩ := h
  rfl

lemma Carries.withPassword {r c : UserRecord} {password : CText userPasswordMax} (h : Carries r password c)
    (given : CText userPasswordMax) : Carries r given { c with password := given } := by
  obtain ⟨nickname, hn, rfl⟩ := h
  exact ⟨nickname, hn, rfl⟩

section Callbacks

variable (ht : Takeover rs accounts) (hb : HexDigests backend)

include ht

lemma Takeover.mem_listed {r : UserRecord} (h : Account.listed r ∈ accounts.flatten) : r ∈ rs := by
  obtain ⟨extra, -, hflat⟩ := ht.shape
  rw [hflat, List.mem_append] at h
  rcases h with h | h
  · obtain ⟨q, hq, he⟩ := List.mem_map.mp h
    cases he
    exact hq
  · obtain ⟨u, -, he⟩ := List.mem_map.mp h
    cases he

include hb

lemma Takeover.identities (h : Holds backend dir accounts []) {b : Account} (hmem : b ∈ accounts.flatten)
    {u : UserRecord} (hu : b.StoredAs backend [] u) :
    ∃ dir', migrateIdentitiesCb .sound dir u = (.ok, dir') ∧ Holds backend dir' accounts [] := by
  have hsound := ht.sound b hmem
  have hline := (hu.lasting hb hsound).oneLine
  rw [migrateIdentitiesCb]
  dsimp only
  split_ifs with hchange
  · have hempty : u.nickname.text = [] := by
      rcases hchange with hname | hempty
      · rw [strIeq_normalize] at hname
        cases hname
      · exact hempty
    cases b with
    | listed r =>
      have hnick := nl_notMem_migratedNickname dir.nickFile (hline .username) (hline .nickname)
      exact ht.update hb h (ht.mem_listed hmem) (fun _ _ => Iff.rfl) (Carries.withNickname (Carries.normalize hu) hnick)
    | sysop v =>
      obtain rfl : u = v := hu
      exact absurd hempty hsound.2.1
  · exact ⟨_, rfl, h.nickFile _⟩

lemma Takeover.passwords (h : Holds backend dir accounts ready) {b : Account} (hmem : b ∈ accounts.flatten)
    {u : UserRecord} (hu : b.StoredAs backend [] u) :
    ∃ dir', migratePasswordsCb .sound backend dir u = (.ok, dir') ∧ Holds backend dir' accounts (ready ++ [b]) := by
  have hsame : ∀ a, a ≠ b → (a ∈ ready ++ [b] ↔ a ∈ ready) := by
    intro a ha
    rw [List.mem_append, List.mem_singleton, or_iff_left ha]
  have hkeep : (∀ c, b.StoredAs backend ready c → b.StoredAs backend (ready ++ [b]) c) →
      Holds backend dir accounts (ready ++ [b]) := by
    intro hown
    refine h.imp fun a c hac => ?_
    by_cases ha : a = b
    · subst ha
      exact hown c hac
    · exact hac.congr (hsame a ha)
  cases b with
  | listed r =>
    have hcarries : Carries r r.password u := by
      rw [Account.StoredAs, if_neg List.not_mem_nil] at hu
      exact hu
    rw [migratePasswordsCb, hcarries.password_eq]
    by_cases hplain : passwordIsPlain r.password.text = false
    · rw [if_pos hplain]
      refine ⟨dir, rfl, hkeep fun c hc => ?_⟩
      -- there was nothing to migrate, so both passwords are the listed one
      have hkept : migratedPassword backend r.password = r.password := by
        rw [migratedPassword, if_neg (by simp [hplain])]
      rw [Account.StoredAs, hkept, ite_self] at hc ⊢
      exact hc
    · rw [if_neg hplain]
      refine ht.update hb h (ht.mem_listed hmem) hsame ?_
      rw [Account.StoredAs, if_pos (by simp), migratedPassword, if_pos (by simpa using hplain)]
      exact hcarries.withPassword _
  | sysop v =>
    obtain rfl : u = v := hu
    rw [migratePasswordsCb, if_pos (ht.sound _ hmem).2.2]
    exact ⟨dir, rfl, hkeep fun _ hc => hc⟩

end Callbacks

section Visits

variable {fn : UsersDir → UserRecord → HybbxResult × UsersDir} {I : List Account → UsersDir → Prop}
  (hload : ∀ seen dir, I seen dir → ∃ ready, Holds backend dir accounts ready ∧ ∀ b ∈ ready, b ∈ seen)
  (hstep : ∀ seen dir b u, I seen dir → b ∈ accounts.flatten → b ∉ seen → b.StoredAs backend [] u →
    ∃ dir', fn dir u = (.ok, dir') ∧ I (seen ++ [b]) dir')

include hstep in
lemma visit_accounts {bs : List Account} {us : List UserRecord}
    (h : List.Forall₂ (Account.StoredAs backend []) bs us) {seen : List Account} (hseen : (seen ++ bs).Nodup)
    (hsub : bs ⊆ accounts.flatten) (hI : I seen dir) :
    ∃ dir', visitUsers fn dir us = (.ok, dir') ∧ I (seen ++ bs) dir' := by
  induction h generalizing seen dir with
  | nil => exact ⟨dir, rfl, by simpa using hI⟩
  | @cons b u bs us hbu hrest ih =>
    have hnew : b ∉ seen := fun hm => (List.nodup_append.mp hseen).2.2 b hm b List.mem_cons_self rfl
    obtain ⟨next, hfn, hI⟩ := hstep seen dir b u hI (hsub List.mem_cons_self) hnew hbu
    have hsplit : seen ++ b :: bs = (seen ++ [b]) ++ bs := by simp
    rw [hsplit] at hseen ⊢
    obtain ⟨last, hvisit, hI⟩ := ih hseen (fun a ha => hsub (List.mem_cons_of_mem b ha)) hI
    refine ⟨last, ?_, hI⟩
    rw [visitUsers, hfn]
    exact hvisit

include hload hstep in
/-- The callback gets to see each account once, and as it was before. -/
lemma foreach_accounts (hnodup : accounts.flatten.Nodup) (hI : I [] dir) :
    ∃ dir', foreachUser id fn dir = (.ok, dir') ∧ I accounts.flatten dir' := by
  have hloop : ∀ (bss ass : List (List Account)) (dir : UsersDir), accounts = bss ++ ass → I bss.flatten dir →
      ∃ dir', foreachUserIn id fn dir (List.range' (bss.length + 1) ass.length) = (.ok, dir') ∧
        I accounts.flatten dir' := by
    intro bss ass
    induction ass generalizing bss with
    | nil =>
      rintro dir rfl hI
      exact ⟨dir, rfl, by simpa using hI⟩
    | cons bs ass ih =>
      intro dir hsplit hI
      obtain ⟨ready, ⟨uss, hlayout, hstored⟩, hready⟩ := hload _ dir hI
      have hflat : accounts.flatten = (bss.flatten ++ bs) ++ ass.flatten := by simp [hsplit]
      rw [hsplit] at hstored
      obtain ⟨pre, us, post, rfl, hpre, hus, -⟩ := Pairs.split_middle hstored.flip
      obtain ⟨s, hs, rfl⟩ := hlayout.file pre.length us (by simp)
      have hnodup' := hnodup
      rw [hflat] at hnodup'
      -- what has been seen has nothing to do with this shard
      have hown : List.Forall₂ (Account.StoredAs backend []) bs s.users := by
        refine stored_congr hus fun b hb => iff_of_false List.not_mem_nil fun hm => ?_
        exact (List.nodup_append.mp (List.nodup_append.mp hnodup').1).2.2 b (hready b hm) b hb rfl
      have hsub : bs ⊆ accounts.flatten := by
        intro b hb
        rw [hflat]
        simp [hb]
      obtain ⟨next, hvisit, hI⟩ := visit_accounts hstep hown (List.nodup_append.mp hnodup').1 hsub hI
      obtain ⟨last, hloop, hI⟩ := ih (bss ++ [bs]) next (by simp [hsplit]) (by simpa using hI)
      refine ⟨last, ?_, hI⟩
      rw [hpre.length_eq] at hs
      rw [List.length_cons, List.range'_succ, foreachUserIn]
      simp only [id_eq]
      rw [hs]
      dsimp only
      rw [hvisit]
      rw [List.length_append, List.length_singleton] at hloop
      exact hloop
  obtain ⟨ready, ⟨uss, hlayout, hstored⟩, -⟩ := hload _ dir hI
  obtain ⟨last, hloop, hI⟩ := hloop [] accounts dir rfl hI
  refine ⟨last, ?_, hI⟩
  rw [foreachUser, userShardIndexes, id_eq, hlayout.last, ← hstored.length_eq]
  exact hloop

end Visits

end HyBBX.Storage
