import HyBBX.Command.Session
import HyBBX.Config.Values

/-! The commands that look up, create, change and remove accounts. -/

namespace HyBBX.Command

open HyBBX.Core HyBBX.Storage HyBBX.Config Lib Lib.Bytes Lib.Text

structure ParsedCommand where
  verb : Bytes
  argv : List Bytes
  deriving DecidableEq, Repr

/-- What the commands are configured with; the clock is read once for each command. -/
structure CommandEnv where
  registry : Registry
  auth : AuthConfig
  backend : HashBackend

/-- What a command leaves behind; the lines it prints are left out. -/
structure CmdResult where
  rc : HybbxResult
  accounts : Accounts
  session : Session

section Parse

/-- The full name is the arguments in the middle, with a blank between them. -/
def joinName : Bytes → List Bytes → Option Bytes
  | name, [] => some name
  | name, part :: parts =>
    if name ≠ [] ∧ userFullNameMax ≤ name.length + 1 then none
    else
      let spaced := if name = [] then [] else name ++ [blank]
      if userFullNameMax ≤ spaced.length + part.length then none else joinName (spaced ++ part) parts

structure ProfileFields where
  fullName : CText userFullNameMax
  country : CText userCountryMax
  location : CText userLocationMax
  email : CText userEmailMax

def parseProfileFields (argv : List Bytes) (nameStart tailExtra : ℕ) : Option ProfileFields :=
  let argc := argv.length
  if argc < nameStart + 3 + tailExtra then none
  else (joinName [] ((argv.take (argc - 3 - tailExtra)).drop nameStart)).map fun name =>
    { fullName := CText.copy name
      country := CText.copy (argv.getD (argc - 3 - tailExtra) [])
      location := CText.copy (argv.getD (argc - 2 - tailExtra) [])
      email := CText.copy (argv.getD (argc - 1 - tailExtra) []) }

def ProfileFields.registration (p : ProfileFields) (username nickname : CText userNameMax)
    (password : CText userPasswordMax) : UserRegistration :=
  ⟨username, nickname, p.fullName, p.country, p.location, p.email, password⟩

def parseRegistration (argv : List Bytes) (withPassword : Bool) : Option UserRegistration :=
  if argv.length < (if withPassword then 6 else 5) then none
  else (parseProfileFields argv 1 (if withPassword then 1 else 0)).map fun p =>
    p.registration (CText.copy (argv.getD 0 [])).lower (CText.copy (argv.getD 0 []))
      (if withPassword then CText.copy (argv.getD (argv.length - 1) []) else .empty)

end Parse

section Stages

/-- A record that a command has found, and the one it is about to hand to the store. -/
structure Staged where
  found : UserRecord
  written : UserRecord
  deriving DecidableEq

/-- How a command goes on with a search for its target. -/
def withUser {α : Type} (found : Except HybbxResult UserRecord) (k : UserRecord → Except HybbxResult α) :
    Except HybbxResult α :=
  match found with
  | .ok u => k u
  | .error .errNotFound => .error .ok
  | .error rc => .error rc

/-- The last call of a command that changes a record. -/
def commit (acc : Accounts) : Except HybbxResult Staged → HybbxResult × Accounts
  | .ok st => acc.updateUser st.written
  | .error rc => (rc, acc)

/-- The last call of a command that removes a record. -/
def commitDelete (acc : Accounts) : Except HybbxResult UserRecord → HybbxResult × Accounts
  | .ok target => acc.deleteUser target.id
  | .error rc => (rc, acc)

end Stages

section Commands

variable (env : CommandEnv) (now : Int64) (acc : Accounts) (s : Session) (argv : List Bytes)

def argOf (k : ℕ) : Bytes := argv.getD k []

def activateUser : Except HybbxResult Staged :=
  if argOf argv 0 = [] then .error .ok
  else if env.registry.verbAllowed s.level (ofString "activate") = false then .error .errDenied
  else withUser (acc.resolveUser (argOf argv 0)) fun target =>
    if target.level ≠ .user then .error .ok
    else if target.active then .error .ok
    else .ok ⟨target, { target with active := true }⟩

def cmdActivate : HybbxResult × Accounts := commit acc (activateUser env acc s argv)

def promoteUser : Except HybbxResult Staged :=
  let newLevel := userLevelParse (argOf argv 1)
  if argOf argv 0 = [] ∨ argOf argv 1 = [] then .error .ok
  else if newLevel ≠ .admin ∧ newLevel ≠ .mod then .error .ok
  else withUser (acc.resolveUser (argOf argv 0)) fun target =>
    if env.registry.mayPromote s.level target.level target.active newLevel = false then .error .errDenied
    else if target.level = newLevel then .error .ok
    else .ok ⟨target, { target with level := newLevel }⟩

def cmdPromote : HybbxResult × Accounts := commit acc (promoteUser env acc s argv)

def demoteUser : Except HybbxResult Staged :=
  if argOf argv 0 = [] then .error .ok
  else withUser (acc.resolveUser (argOf argv 0)) fun target =>
    if strIeq target.username.text s.username then .error .ok
    else if env.registry.mayDemote s.level target.level = false then .error .errDenied
    else .ok ⟨target, { target with level := .user }⟩

def cmdDemote : HybbxResult × Accounts := commit acc (demoteUser env acc s argv)

def deleteTarget : Except HybbxResult UserRecord :=
  if argOf argv 0 = [] then .error .ok
  else withUser (acc.resolveUser (argOf argv 0)) fun target =>
    if strIeq target.username.text s.username then .error .ok
    else if target.level = .sysop then .error .ok
    else if env.registry.mayDelete s.level target.level = false then .error .errDenied
    else .ok target

def cmdDelete : HybbxResult × Accounts := commitDelete acc (deleteTarget env acc s argv)

def cmdDeleteme : HybbxResult × Accounts :=
  if s.level = some .sysop then (.ok, acc)
  else if boolIsFalse (argOf argv 0) then (.ok, acc)
  else if boolIsTrue (argOf argv 0) = false then (.ok, acc)
  else if s.userId = 0 then (.errInvalid, acc)
  else match acc.deleteUser s.userId with
    | (.errNotFound, acc) => (.ok, acc)
    | (.ok, acc) => (.sessionEnd, acc)
    | (rc, acc) => (rc, acc)

def cmdRegisterUser (staffCreated : Bool) : HybbxResult × Accounts :=
  if argv.length < (if staffCreated then 5 else 6) then (.ok, acc)
  else match parseRegistration argv (!staffCreated) with
    | none => (.ok, acc)
    | some reg =>
      if staffCreated = false ∧ passwordPlainValid reg.password.text = false then (.ok, acc)
      else match acc.registerUser env.backend env.auth.guestPrefix now reg with
        | (.error .errBusy, acc) => (.ok, acc)
        | (.error .errInvalid, acc) => (.ok, acc)
        | (.error rc, acc) => (rc, acc)
        | (.ok _, acc) => (.ok, acc)

def cmdRegister : HybbxResult × Accounts :=
  if env.registry.verbAllowed s.level (ofString "register") = false ∧ ¬(s.loginPrompt ∧ ¬s.loggedIn) then (.errDenied, acc)
  else cmdRegisterUser env now acc argv false

def cmdCreateuser : HybbxResult × Accounts := cmdRegisterUser env now acc argv true

/-- The record with the profile and the password that were asked for. -/
def changedUser (p : ProfileFields) (newPassword : Bytes) (u : UserRecord) : UserRecord :=
  { u with
    fullName := p.fullName
    country := p.country
    location := p.location
    email := p.email
    password := CText.copy (passwordHash env.backend newPassword) }

def ProfileFields.valid (p : ProfileFields) : Bool :=
  profileValid p.fullName.text p.country.text p.location.text p.email.text

def changemeUser : Except HybbxResult Staged :=
  if s.isGuest then .error .errDenied
  else if argv.length < 6 then .error .ok
  else if s.username = [] then .error .errInvalid
  else match parseProfileFields argv 2 0 with
    | none => .error .ok
    | some p =>
      if passwordPlainValid (argOf argv 1) = false then .error .ok
      else withUser (acc.findUser (CText.copy s.username : CText userNameMax).lower.text) fun u =>
        if u.id ≠ s.userId then .error .ok
        else if p.valid = false then .error .ok
        else if u.password.text = [] then .error .ok
        else if passwordMatch env.backend u.password.text (argOf argv 0) = false then .error .ok
        else .ok ⟨u, changedUser env p (argOf argv 1) u⟩

def cmdChangeme : HybbxResult × Accounts := commit acc (changemeUser env acc s argv)

def userchangeUser : Except HybbxResult Staged :=
  if s.level ≠ some .sysop ∧ s.level ≠ some .admin then .error .errDenied
  else if argv.length < 7 then .error .ok
  else match parseProfileFields argv 2 0 with
    | none => .error .ok
    | some p =>
      if passwordPlainValid (argOf argv 1) = false then .error .ok
      else if p.valid = false then .error .ok
      else withUser (acc.findUser (CText.copy (argOf argv 0) : CText userNameMax).lower.text) fun u =>
        if strIeq u.username.text s.username then .error .ok
        else if u.level = .sysop then .error .ok
        else if env.registry.mayUserchange s.level u.level = false then .error .errDenied
        else .ok ⟨u, changedUser env p (argOf argv 1) u⟩

def cmdUserchange : HybbxResult × Accounts := commit acc (userchangeUser env acc s argv)

def userdeleteTarget : Except HybbxResult UserRecord :=
  if s.level ≠ some .sysop then .error .errDenied
  else if argOf argv 0 = [] then .error .ok
  else withUser (acc.resolveUser (argOf argv 0)) fun target =>
    if strIeq target.username.text s.username then .error .ok
    else if env.registry.mayUserdelete s.level target.level = false then .error .ok
    else .ok target

def cmdUserdelete : HybbxResult × Accounts := commitDelete acc (userdeleteTarget env acc s argv)

end Commands

section Login

variable (env : CommandEnv) (svc : Service) (handle : ℕ) (s : Session) (argv : List Bytes)

/-- A login up to the search for another session of the account. -/
def loginUser : Except HybbxResult UserRecord :=
  let username := (CText.copy (argOf argv 0) : CText userNameMax).lower.text
  if argOf argv 0 = [] then .error .ok
  else if guestSlotFromUsername env.auth.guestPrefix username then .error .ok
  else if argOf argv 1 = [] then .error .ok
  else withUser (svc.accounts.findUser username) fun u =>
    if u.level = .guest then .error .ok
    else if u.active = false then .error .ok
    else if u.password.text = [] then .error .ok
    else if passwordMatch env.backend u.password.text (argOf argv 1) = false then .error .ok
    else if svc.findRegisteredSession u.id handle then .error .ok
    else .ok u

/-- The time of the login is written back with the record that was found. -/
def loginStaged (now : Int64) (u : UserRecord) : Staged := ⟨u, { u with lastLoginAt := now }⟩

def cmdLogin (now : Int64) : CmdResult :=
  match loginUser env svc handle argv with
  | .error rc => ⟨rc, svc.accounts, s⟩
  | .ok u => ⟨.ok, (commit svc.accounts (.ok (loginStaged now u))).2, switchUser u⟩

end Login

/-! `/users`: how the accounts are divided among the levels, in whole percents. -/

section Users

structure UsersStats where
  byLevel : UserLevel → ℕ
  total : ℕ

def UsersStats.zero : UsersStats := ⟨fun _ => 0, 0⟩

def usersStatsCb (stats : UsersStats) (user : UserRecord) : UsersStats :=
  if user.level = .guest then stats
  else ⟨Function.update stats.byLevel user.level (stats.byLevel user.level + 1), stats.total + 1⟩

def statLevels : List UserLevel := [.sysop, .admin, .mod, .user]

/-- What the loop over the levels carries. -/
structure PercentScan where
  percents : UserLevel → ℕ
  sum : ℕ
  maxRemainder : ℕ
  adjustLevel : UserLevel

/-- A share in tenths of a percent, in the machine's numbers. -/
def scaledShare (count total : ℕ) : ℕ := count * 1000 % 2 ^ 64 / total % 2 ^ 32

def percentStep (counts : UserLevel → ℕ) (total : ℕ) (scan : PercentScan) (level : UserLevel) : PercentScan :=
  let scaled := scaledShare (counts level) total
  let larger := scan.maxRemainder < scaled % 10
  { percents := Function.update scan.percents level (scaled / 10)
    sum := scan.sum + scaled / 10
    maxRemainder := if larger then scaled % 10 else scan.maxRemainder
    adjustLevel := if larger then level else scan.adjustLevel }

def usersComputePercents (counts : UserLevel → ℕ) (total : ℕ) : UserLevel → ℕ :=
  if total = 0 then fun _ => 0
  else
    let scan := statLevels.foldl (percentStep counts total) ⟨fun _ => 0, 0, 0, .sysop⟩
    if scan.sum < 100 then
      Function.update scan.percents scan.adjustLevel (scan.percents scan.adjustLevel + (100 - scan.sum))
    else scan.percents

/-- The lines of the answer: the levels that somebody has, each with its percents. -/
def usersLines (stats : UsersStats) : List (UserLevel × ℕ) :=
  (statLevels.filter fun level => stats.byLevel level ≠ 0).map fun level =>
    (level, usersComputePercents stats.byLevel stats.total level)

lemma usersStats_total (users : List UserRecord) :
    let stats := users.foldl usersStatsCb .zero
    (statLevels.map stats.byLevel).sum = stats.total ∧
      stats.total = (users.filter fun user => user.level ≠ .guest).length := by
  have hfold : ∀ (users : List UserRecord) (stats : UsersStats), (statLevels.map stats.byLevel).sum = stats.total →
      let last := users.foldl usersStatsCb stats
      (statLevels.map last.byLevel).sum = last.total ∧
        last.total = stats.total + (users.filter fun user => user.level ≠ .guest).length := by
    intro users
    induction users with
    | nil => exact fun _ h => ⟨h, rfl⟩
    | cons user users ih =>
      intro stats h
      have hnext : (statLevels.map (usersStatsCb stats user).byLevel).sum = (usersStatsCb stats user).total := by
        rw [usersStatsCb]
        cases hlevel : user.level <;> simp [statLevels] at h ⊢ <;> omega
      obtain ⟨hlast, htotal⟩ := ih (usersStatsCb stats user) hnext
      refine ⟨hlast, htotal.trans ?_⟩
      rw [usersStatsCb, List.filter_cons]
      by_cases hguest : user.level = .guest
      · simp [hguest]
      · simp [hguest]
        omega
  have hall := hfold users .zero rfl
  exact ⟨hall.1, by simpa [UsersStats.zero] using hall.2⟩

/-- The loop over some levels: the percents are rounded down, and the level to adjust has the largest remainder. -/
structure ScanOf (counts : UserLevel → ℕ) (total : ℕ) (levels : List UserLevel) (scan : PercentScan) : Prop where
  percents : ∀ level ∈ levels, scan.percents level = scaledShare (counts level) total / 10
  sum : scan.sum = (levels.map fun level => scaledShare (counts level) total / 10).sum
  largest : ∀ level ∈ levels, scaledShare (counts level) total % 10 ≤ scan.maxRemainder
  adjust : 0 < scan.maxRemainder →
    scan.adjustLevel ∈ levels ∧ scaledShare (counts scan.adjustLevel) total % 10 = scan.maxRemainder

lemma ScanOf.step {counts : UserLevel → ℕ} {total : ℕ} {levels : List UserLevel} {scan : PercentScan}
    (h : ScanOf counts total levels scan) {level : UserLevel} (hnew : level ∉ levels) :
    ScanOf counts total (levels ++ [level]) (percentStep counts total scan level) where
  percents other hother := by
    rw [percentStep]
    rcases List.mem_append.mp hother with hmem | hmem
    · have hne : other ≠ level := fun heq => hnew (heq ▸ hmem)
      simpa [hne] using h.percents other hmem
    · obtain rfl := List.mem_singleton.mp hmem
      simp
  sum := by
    rw [percentStep, List.map_append, List.sum_append, ← h.sum]
    simp
  largest other hother := by
    rw [percentStep]
    dsimp only
    rcases List.mem_append.mp hother with hmem | hmem
    · have hle := h.largest other hmem
      split_ifs <;> omega
    · obtain rfl := List.mem_singleton.mp hmem
      split_ifs <;> omega
  adjust hpos := by
    rw [percentStep] at hpos ⊢
    dsimp only at hpos ⊢
    split_ifs at hpos ⊢ with hlarger
    · exact ⟨by simp, rfl⟩
    · obtain ⟨hmem, heq⟩ := h.adjust hpos
      exact ⟨List.mem_append_left _ hmem, heq⟩

lemma scanOf_all (counts : UserLevel → ℕ) (total : ℕ) :
    ScanOf counts total statLevels (statLevels.foldl (percentStep counts total) ⟨fun _ => 0, 0, 0, .sysop⟩) := by
  have hnil : ScanOf counts total [] ⟨fun _ => 0, 0, 0, .sysop⟩ := ⟨nofun, rfl, nofun, nofun⟩
  exact (((hnil.step (by decide)).step (by decide)).step (by decide)).step (by decide)

/-- A share is rounded down, as long as the numbers fit. -/
lemma scaledShare_bounds {count total : ℕ} (hle : count ≤ total) (hpos : 0 < total) (hfits : total < 2 ^ 54) :
    scaledShare count total * total ≤ 1000 * count ∧ 1000 * count < (scaledShare count total + 1) * total := by
  have hshare : scaledShare count total = 1000 * count / total := by
    rw [scaledShare, Nat.mod_eq_of_lt (show count * 1000 < 2 ^ 64 by omega), Nat.mul_comm count, Nat.mod_eq_of_lt]
    have hdiv : 1000 * count / total ≤ 1000 := by
      refine Nat.div_le_of_le_mul ?_
      rw [Nat.mul_comm]
      exact Nat.mul_le_mul_right _ hle
    omega
  rw [hshare]
  exact ⟨Nat.div_mul_le_self _ _, Nat.lt_mul_of_div_lt (Nat.lt_succ_self _) hpos⟩

/-- Four shares that are rounded down miss less than one tenth of a percent each. -/
lemma sum_scaledShare {counts : UserLevel → ℕ} {total : ℕ} (hsum : (statLevels.map counts).sum = total)
    (hpos : 0 < total) (hfits : total < 2 ^ 54) :
    (statLevels.map fun level => scaledShare (counts level) total).sum ≤ 1000 ∧
      1000 < (statLevels.map fun level => scaledShare (counts level) total).sum + 4 := by
  simp only [statLevels, List.map_cons, List.map_nil, List.sum_cons, List.sum_nil] at hsum ⊢
  have hsysop := @scaledShare_bounds (counts .sysop) total (by omega) hpos hfits
  have hadmin := @scaledShare_bounds (counts .admin) total (by omega) hpos hfits
  have hmod := @scaledShare_bounds (counts .mod) total (by omega) hpos hfits
  have huser := @scaledShare_bounds (counts .user) total (by omega) hpos hfits
  constructor
  · refine Nat.le_of_mul_le_mul_right ?_ hpos
    linarith
  · refine Nat.lt_of_mul_lt_mul_right (a := total) ?_
    linarith

lemma scaledShare_zero (total : ℕ) : scaledShare 0 total = 0 := by simp [scaledShare]

/-- What the adjustment adds, and where: to a level that somebody has. -/
lemma usersComputePercents_spec {counts : UserLevel → ℕ} {total : ℕ} (hsum : (statLevels.map counts).sum = total)
    (hpos : 0 < total) (hfits : total < 2 ^ 54) :
    ∃ extra : UserLevel → ℕ,
      (∀ level ∈ statLevels,
        usersComputePercents counts total level = scaledShare (counts level) total / 10 + extra level) ∧
      (∀ level, extra level ≤ 3) ∧ (∀ level, counts level = 0 → extra level = 0) ∧
      (statLevels.map (usersComputePercents counts total)).sum = 100 := by
  have hscan := scanOf_all counts total
  have hshares := sum_scaledShare hsum hpos hfits
  rw [usersComputePercents, if_neg hpos.ne']
  generalize statLevels.foldl (percentStep counts total) ⟨fun _ => 0, 0, 0, .sysop⟩ = scan at hscan
  obtain ⟨hpercents, hscanned, hlargest, hadjust⟩ := hscan
  simp only [statLevels, List.map_cons, List.map_nil, List.sum_cons, List.sum_nil, List.forall_mem_cons,
    List.not_mem_nil, false_imp_iff, implies_true, and_true] at hpercents hscanned hlargest hshares ⊢
  by_cases hless : scan.sum < 100
  · have hrem : 0 < scan.maxRemainder := by omega
    obtain ⟨hmem, heq⟩ := hadjust hrem
    have hcount : counts scan.adjustLevel ≠ 0 := fun h0 => by
      rw [h0, scaledShare_zero] at heq
      omega
    have hfinal : ∀ level, Function.update scan.percents scan.adjustLevel
        (scan.percents scan.adjustLevel + (100 - scan.sum)) level =
          scan.percents level + if level = scan.adjustLevel then 100 - scan.sum else 0 := by
      intro level
      by_cases hlevel : level = scan.adjustLevel
      · rw [hlevel, Function.update_self, if_pos rfl]
      · rw [Function.update_of_ne hlevel, if_neg hlevel, Nat.add_zero]
    have hextra : (statLevels.map fun level => if level = scan.adjustLevel then 100 - scan.sum else 0).sum =
        100 - scan.sum := by
      generalize scan.adjustLevel = adjust at hmem ⊢
      cases adjust with
      | guest => simp [statLevels] at hmem
      | _ => simp [statLevels]
    refine ⟨fun level => if level = scan.adjustLevel then 100 - scan.sum else 0, ?_, ?_, ?_, ?_⟩
    · simpa only [if_pos hless, hfinal, Nat.add_right_cancel_iff] using hpercents
    · intro level
      dsimp only
      split_ifs <;> omega
    · exact fun level h0 => if_neg fun hlevel => hcount (by rw [← hlevel, h0])
    · simp only [statLevels, List.map_cons, List.map_nil, List.sum_cons, List.sum_nil] at hextra
      simp only [if_pos hless, hfinal]
      omega
  · refine ⟨fun _ => 0, ?_, fun _ => Nat.zero_le 3, fun _ _ => rfl, ?_⟩
    · simpa only [if_neg hless, Nat.add_zero] using hpercents
    · simp only [if_neg hless]
      omega

/-- The answer to `/users` shows the levels that somebody has; their percents sum up to a hundred, and each is right to
within three. -/
theorem usersLines_whole {users : List UserRecord} (hsome : ∃ user ∈ users, user.level ≠ .guest)
    (hfits : users.length < 2 ^ 54) :
    let stats := users.foldl usersStatsCb .zero
    ((usersLines stats).map Prod.snd).sum = 100 ∧
      ∀ line ∈ usersLines stats, 100 * stats.byLevel line.1 < (line.2 + 1) * stats.total ∧
        line.2 * stats.total ≤ (100 * stats.byLevel line.1) + 3 * stats.total := by
  intro stats
  obtain ⟨hsum, htotal⟩ := usersStats_total users
  have hpos : 0 < stats.total := by
    obtain ⟨user, hmem, hlevel⟩ := hsome
    rw [htotal]
    exact List.length_pos_of_mem (List.mem_filter.mpr ⟨hmem, by simpa using hlevel⟩)
  have hless : stats.total < 2 ^ 54 := by
    rw [htotal]
    exact (List.length_filter_le _ _).trans_lt hfits
  obtain ⟨extra, hfinal, hextra, hnobody, hhundred⟩ := usersComputePercents_spec hsum hpos hless
  constructor
  · have hshown : ∀ levels : List UserLevel, levels ⊆ statLevels →
        ((levels.filter fun level => stats.byLevel level ≠ 0).map
          (usersComputePercents stats.byLevel stats.total)).sum =
          (levels.map (usersComputePercents stats.byLevel stats.total)).sum := by
      intro levels
      induction levels with
      | nil => exact fun _ => rfl
      | cons level levels ih =>
        intro hsub
        obtain ⟨hmem, hrest⟩ := List.cons_subset.mp hsub
        by_cases h0 : stats.byLevel level = 0
        · have hnone : usersComputePercents stats.byLevel stats.total level = 0 := by
            rw [hfinal level hmem, hnobody level h0, h0, scaledShare_zero]
          rw [List.filter_cons_of_neg (by simpa using h0), List.map_cons, List.sum_cons, hnone, Nat.zero_add]
          exact ih hrest
        · rw [List.filter_cons_of_pos (by simpa using h0), List.map_cons, List.map_cons, List.sum_cons, List.sum_cons,
            ih hrest]
    have hall := hshown statLevels (List.Subset.refl _)
    rw [hhundred] at hall
    simpa [usersLines, List.map_map, Function.comp_def] using hall
  · intro line hline
    obtain ⟨level, hlevel, rfl⟩ := List.mem_map.mp hline
    have hmem := List.mem_of_mem_filter hlevel
    have hle : stats.byLevel level ≤ stats.total := by
      rw [← hsum]
      exact List.single_le_sum (fun _ _ => Nat.zero_le _) _ (List.mem_map_of_mem hmem)
    obtain ⟨hlow, hhigh⟩ := scaledShare_bounds hle hpos hless
    have hthree := hextra level
    dsimp only
    rw [hfinal level hmem]
    generalize scaledShare (stats.byLevel level) stats.total = share at hlow hhigh ⊢
    have hup := Nat.mul_le_mul_right stats.total (show share + 1 ≤ 10 * (share / 10 + extra level + 1) by omega)
    have hdown := Nat.mul_le_mul_right stats.total (show 10 * (share / 10) ≤ share by omega)
    have hadded := Nat.mul_le_mul_right stats.total hthree
    constructor <;> linarith

/-- One account of each of three levels. -/
def oneOfEach : List UserRecord :=
  [{ UserRecord.zero with level := .sysop }, { UserRecord.zero with level := .mod }, .zero]

theorem usersLines_whole_oneOfEach : ((usersLines (oneOfEach.foldl usersStatsCb .zero)).map Prod.snd).sum = 100 :=
  (usersLines_whole ⟨.zero, by simp [oneOfEach], by decide⟩ (by simp [oneOfEach])).1

example : usersLines (oneOfEach.foldl usersStatsCb .zero) = [(.sysop, 34), (.mod, 33), (.user, 33)] := by
  decide +kernel

end Users

end HyBBX.Command
