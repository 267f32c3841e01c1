import HyBBX.Storage.DefaultSysop

/-! What becomes of the accounts of an old `users.dat` when the store is opened. -/

namespace HyBBX.Storage

open HyBBX.Core HyBBX.Config Lib Lib.Bytes Lib.Text Lib.Numeral Lib.LineReader

variable {backend : HashBackend} {dir : UsersDir} {accounts : List (List Account)} {rs : List UserRecord}

/-- The store has a Sysop, or can make one: there is room, the counter can be read and a password drawn. -/
def SysopReady (dir : UsersDir) (generated : Option Bytes) (ls : List LegacyUser) : Prop :=
  (∃ l ∈ ls, userLevelParse l.levelName.text = .sysop) ∨
    ls.length < usersPerFile * (userShardIndexEnd - 1) ∧ (∃ n, readCounter dir = .ok n) ∧
      ∃ plain, generated = some plain

/-- Opening the store keeps every account of the file, and migrates every password. -/
lemma flatfileOpen_holds (hb : HexDigests backend) (hnone : ∀ i, dir.shards i = none) {ls : List LegacyUser}
    (hls : ∀ l ∈ ls, l.Lossless) (hids : (ls.map LegacyUser.id).Nodup)
    (hlines : ∀ l ∈ ls, l.line.length + 1 < configLineMax)
    (hfew : ls.length ≤ usersPerFile * (userShardIndexEnd - 1)) (now : Int64) {generated : Option Bytes}
    (hsysop : SysopReady dir generated ls) :
    ∃ dir' accounts, flatfileOpen .sound backend now generated (.holds (usersDat ls)) dir = (.ok, dir') ∧
      Takeover (ls.map LegacyUser.record) accounts ∧ Holds backend dir' accounts accounts.flatten := by
  obtain ⟨dir1, before, hmigrate, hcounter, hholds, hfilled, ht, hflat⟩ :=
    @migrateLegacyUsersDat_holds backend dir ls hnone hls hids hlines hfew
  have hready : (∃ r ∈ ls.map LegacyUser.record, r.level = .sysop) ∨
      HasRoom dir1 ∧ (∃ n, readCounter dir1 = .ok n) ∧ ∃ plain, generated = some plain := by
    rcases hsysop with ⟨l, hl, hlevel⟩ | ⟨hroom, hcount, hdrawn⟩
    · exact .inl ⟨l.record, List.mem_map_of_mem hl, hlevel⟩
    · refine .inr ⟨hholds.hasRoom hfilled ?_, ?_, hdrawn⟩
      · rwa [hflat, List.length_map, List.length_map]
      · rwa [readCounter, hcounter]
  obtain ⟨dir2, accounts, hensure, ht, hholds⟩ := ensureDefaultSysop_holds hb ht hflat hholds now hready
  obtain ⟨dir3, hnames, hholds⟩ := @foreach_accounts backend dir2 accounts (migrateIdentitiesCb .sound)
    (fun _ dir => Holds backend dir accounts []) (fun _ _ h => ⟨[], h, fun _ hb => absurd hb List.not_mem_nil⟩)
    (fun _ _ _ _ h hmem _ hu => ht.identities hb h hmem hu) ht.nodup hholds
  obtain ⟨dir4, hpasswords, hholds⟩ := @foreach_accounts backend dir3 accounts (migratePasswordsCb .sound backend)
    (fun seen dir => Holds backend dir accounts seen) (fun seen _ h => ⟨seen, h, fun _ hb => hb⟩)
    (fun _ _ _ _ h hmem _ hu => ht.passwords hb h hmem hu) ht.nodup hholds
  refine ⟨dir4, accounts, ?_, ht, hholds⟩
  rw [flatfileOpen, hmigrate]
  dsimp only
  rw [hensure]
  dsimp only
  rw [hnames]
  exact hpasswords

/-- The search by name finds the listed account, not one behind it. -/
lemma Holds.find (ht : Takeover rs accounts) (h : Holds backend dir accounts accounts.flatten)
    (hnames : (rs.map fun r => r.username.text.map lower).Nodup) {r : UserRecord} (hr : r ∈ rs) :
    ∃ u, findUser dir r.username.text = .ok u ∧ Carries r (migratedPassword backend r.password) u := by
  obtain ⟨uss, hlayout, hstored⟩ := h
  have hflat := List.rel_flatten hstored
  have hmem : Account.listed r ∈ accounts.flatten := by
    obtain ⟨extra, -, hshape⟩ := ht.shape
    rw [hshape]
    exact List.mem_append_left _ (List.mem_map_of_mem hr)
  have hname : ∀ {q c : UserRecord}, (Account.listed q).StoredAs backend accounts.flatten c →
      (strIeq c.username.text r.username.text = true ↔ q.username.text.map lower = r.username.text.map lower) := by
    rintro q c ⟨nickname, -, rfl⟩
    have hlower := congrArg CText.text (CText.lower_lower q.username)
    rw [strIeq_iff]
    exact Eq.congr_left hlower
  rw [hlayout.findUser]
  cases hf : uss.flatten.find? fun u => strIeq u.username.text r.username.text with
  | none =>
    obtain ⟨c, hc, hrc⟩ := Pairs.mem_left hflat hmem
    exact absurd ((hname hrc).mpr rfl) (List.find?_eq_none.mp hf c hc)
  | some u =>
    obtain ⟨hu, us, vs, husers, hfirst⟩ := List.find?_eq_some_iff_append.mp hf
    rw [husers] at hflat
    obtain ⟨before, b, behind, haccounts, hbefore, hbu, -⟩ := Pairs.split_middle hflat
    obtain rfl : b = .listed r := by
      apply ht.eq_listed haccounts hr
      · intro hm
        obtain ⟨c, hc, hrc⟩ := Pairs.mem_left hbefore hm
        have hno := hfirst c hc
        rw [(hname hrc).mpr rfl] at hno
        cases hno
      · rintro q hq rfl
        exact List.inj_on_of_nodup_map hnames hq hr ((hname hbu).mp hu)
    rw [Account.StoredAs, if_pos hmem] at hbu
    exact ⟨u, rfl, hbu⟩

/-- No other password has the digest of this one. -/
def Separates (backend : HashBackend) (password : Bytes) : Prop :=
  ∀ provided, strIeq (backend.sha256Hex password) (backend.sha256Hex provided) = true → provided = password

lemma passwordMatch_migrated (hb : HexDigests backend) {password : CText userPasswordMax}
    (hplain : passwordIsPlain password.text = true) (hsep : Separates backend password.text) (provided : Bytes) :
    passwordMatch backend (migratedPassword backend password).text provided = true ↔ provided = password.text := by
  have hne : password.text ≠ [] := by
    rw [passwordIsPlain, Bool.and_eq_true, decide_eq_true_eq] at hplain
    exact hplain.1
  have hpre : passwordSha256Prefix <+: passwordHash backend password.text := List.prefix_append _ _
  have hdrop : (passwordHash backend password.text).drop 8 = backend.sha256Hex password.text := List.drop_left' rfl
  have hfull : ∀ plain, (backend.sha256Hex plain).take 64 = backend.sha256Hex plain :=
    fun plain => List.take_of_length_le (hex_sha256 hb plain).1.le
  rw [migratedPassword, if_pos hplain, copy_hash_text hb, passwordMatch]
  by_cases hempty : provided = []
  · rw [if_pos (.inl hempty), hempty]
    exact iff_of_false Bool.false_ne_true hne.symm
  · have hstored : passwordHash backend password.text ≠ [] := List.append_ne_nil_of_left_ne_nil (by decide) _
    rw [if_neg (not_or.mpr ⟨hempty, hstored⟩), if_pos hpre, hdrop, hexStringEq, hfull, hfull]
    constructor
    · exact hsep provided
    · rintro rfl
      exact decide_eq_true rfl

/-- The store finds the account as the old file listed it. -/
structure Preserved (backend : HashBackend) (l : LegacyUser) (u : UserRecord) : Prop where
  id : u.id = l.id
  username : u.username = l.username.lower
  level : u.level = userLevelParse l.levelName.text
  active : u.active = l.active
  created : u.createdAt = l.created
  fullName : u.fullName = l.fullName
  country : u.country = l.country
  location : u.location = l.location
  email : u.email = l.email
  password : passwordIsPlain l.password.text = true →
    ∀ provided, passwordMatch backend u.password.text provided = true ↔ provided = l.password.text

/-- Accounts whose texts read back, and whose profiles are whole or empty, come through the migration. -/
theorem legacy_accounts_preserved (hb : HexDigests backend) (hnone : ∀ i, dir.shards i = none) {ls : List LegacyUser}
    (hids : (ls.map LegacyUser.id).Nodup) (hnames : (ls.map fun l => l.username.text.map lower).Nodup)
    (hlines : ∀ l ∈ ls, l.line.length + 1 < configLineMax)
    (hsep : ∀ l ∈ ls, passwordIsPlain l.password.text = true → Separates backend l.password.text) {now : Int64}
    {generated : Option Bytes} (hfew : ls.length ≤ usersPerFile * (userShardIndexEnd - 1))
    (hsysop : SysopReady dir generated ls) (hls : ∀ l ∈ ls, l.Lossless) :
    ∀ l ∈ ls, ∃ u, Preserved backend l u ∧
      findUser (flatfileOpen .sound backend now generated (.holds (usersDat ls)) dir).2 l.username.text = .ok u := by
  intro l hl
  obtain ⟨dir', accounts, hopen, ht, hholds⟩ := flatfileOpen_holds hb hnone hls hids hlines hfew now hsysop
  have hrecords : ((ls.map LegacyUser.record).map fun r => r.username.text.map lower).Nodup := by
    rw [List.map_map]
    exact hnames
  obtain ⟨u, hfind, nickname, -, rfl⟩ := hholds.find ht hrecords (List.mem_map_of_mem hl)
  obtain ⟨hf, hc, hlo, he⟩ := (hls l hl).record_profile
  refine ⟨l.record.carried nickname (migratedPassword backend l.record.password),
    ⟨rfl, rfl, rfl, rfl, rfl, hf, hc, hlo, he, ?_⟩, ?_⟩
  · intro hplain provided
    have hmatch := passwordMatch_migrated hb hplain (hsep l hl hplain) provided
    rw [← (hls l hl).record_password hplain] at hmatch ⊢
    exact hmatch
  · rw [hopen]
    exact hfind

def poniesDigest : Bytes := ofString "ebe85ca5dd0d48cd1fb0f96853830536283aba62425dd864660a9a50ac2416fb"

def poniesBackend : HashBackend :=
  ⟨fun plain => if plain = ofString "ponies" then poniesDigest else List.replicate 64 0x30,
    fun _ => List.replicate 32 0x30⟩

def gaston (country : CText userCountryMax) (h : bar ∉ country.text ∧ nl ∉ country.text) : LegacyUser where
  id := 41
  username := CText.copy (ofString "Gaston")
  levelName := ⟨ofString "sysop", by decide, by decide⟩
  active := true
  created := 86400
  fullName := CText.copy (ofString "Gaston L.")
  country := country
  location := CText.copy (ofString "Lille")
  email := CText.copy (ofString "gaston@home")
  password := CText.copy (ofString "ponies")
  idFits := by decide
  idGiven := by decide
  nameGiven := by decide
  levelGiven := by decide
  separable := by
    simp only [List.forall_mem_cons]
    exact ⟨by decide, by decide, by decide, h, by decide, by decide, by decide, nofun⟩

def gastonFr : LegacyUser := gaston (CText.copy (ofString "FR")) (by decide)

/-- The same account without a country. -/
def gastonNowhere : LegacyUser := gaston .empty (by decide)

def openedWith (l : LegacyUser) : UsersDir :=
  (flatfileOpen .sound poniesBackend 0 none (.holds (usersDat [l])) .fresh).2

lemma hexDigests_ponies : HexDigests poniesBackend := by
  intro plain
  rw [poniesBackend]
  dsimp only
  split_ifs
  · decide +kernel
  · decide +kernel

lemma separates_ponies : Separates poniesBackend (ofString "ponies") := by
  intro provided h
  by_contra hne
  rw [poniesBackend] at h
  dsimp only at h
  rw [if_pos rfl, if_neg hne] at h
  revert h
  decide +kernel

theorem legacy_gastonFr_preserved : ∃ u, Preserved poniesBackend gastonFr u ∧
    findUser (openedWith gastonFr) gastonFr.username.text = .ok u := by
  have hread : ∀ text ∈ gastonFr.username.text :: gastonFr.details, readValue text = text := by decide +kernel
  have hlossless : gastonFr.Lossless := ⟨.inl (by decide),
    fun text ht => (readValue_eq_self_iff text).mp (hread text ht)⟩
  refine @legacy_accounts_preserved _ _ hexDigests_ponies (fun _ => rfl) [gastonFr] (List.nodup_singleton _)
    (List.nodup_singleton _) ?_ ?_ _ _ ?_ ?_ ?_ gastonFr (List.mem_singleton_self _)
  · exact List.forall_mem_singleton.mpr (by decide +kernel)
  · exact List.forall_mem_singleton.mpr fun _ => separates_ponies
  · decide
  · exact .inl ⟨gastonFr, List.mem_singleton_self _, by decide⟩
  · exact List.forall_mem_singleton.mpr hlossless

/-- Without the country the other details and the password are gone, too. -/
theorem legacy_profile_lost : gastonNowhere.line.length + 1 < configLineMax ∧
    ¬∃ u, Preserved poniesBackend gastonNowhere u ∧
      findUser (openedWith gastonNowhere) gastonNowhere.username.text = .ok u := by
  refine ⟨by decide +kernel, ?_⟩
  rintro ⟨u, hpreserved, hfind⟩
  have hlost : (findUser (openedWith gastonNowhere) gastonNowhere.username.text).toOption.map
      (fun v => v.fullName.text) = some [] := by decide +kernel
  rw [hfind] at hlost
  have hempty : u.fullName.text = [] := Option.some.inj hlost
  rw [hpreserved.fullName] at hempty
  revert hempty
  decide

end HyBBX.Storage
