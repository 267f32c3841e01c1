import HyBBX.Command.CommandEffects
import HyBBX.Command.RegistryYaml

/-! The account of the Sysop over the runs of all sessions. -/

namespace HyBBX.Command

open HyBBX.Core HyBBX.Storage HyBBX.Config Lib Lib.Bytes Lib.Text

/-- One record in the store has the level of the Sysop: it has this id and is active. -/
def OneSysop (id : ℕ) (acc : Accounts) : Prop :=
  ∃ u, acc.users.filter (fun v => v.level = .sysop) = [u] ∧ u.id = id ∧ u.active = true

/-- The commands of a session that reach the one account without a guard: a demotion that the registry allows. -/
def demotesSysop (env : CommandEnv) (id : ℕ) (acc : Accounts) (s : Session) (cmd : ParsedCommand) : Bool :=
  accountVerb cmd = some .demote && match acc.resolveUser (argOf cmd.argv 0) with
    | .ok target => target.id = id && !strIeq target.username.text s.username && env.registry.mayDemote s.level target.level
    | .error _ => false

/-- A registration is handed the id of the Sysop. -/
def reusesId (id : ℕ) (acc : Accounts) (cmd : ParsedCommand) : Bool :=
  (accountVerb cmd = some .register || accountVerb cmd = some .createuser) && acc.nextId.val = id

/-- A step that neither demotes the Sysop nor hands out its id. -/
def sparesSysop (env : CommandEnv) (id : ℕ) (svc : Service) : ServiceEvent → Bool
  | .command handle cmd _ =>
    match svc.session handle with
    | some s =>
      if s.acceptsInput && checkAccess env.registry s cmd.verb then
        !demotesSysop env id svc.accounts s cmd && !reusesId id svc.accounts cmd
      else true
    | none => true
  | _ => true

lemma filter_replaced {p : UserRecord → Bool} {pre post : List UserRecord} {old new u : UserRecord} (hp : p new = p old)
    (h : (pre ++ old :: post).filter p = [u]) :
    (pre ++ new :: post).filter p = if p old then [new] else [u] := by
  rw [List.filter_append, List.filter_cons] at h ⊢
  rw [hp]
  cases hold : p old with
  | false => simpa [hold] using h
  | true =>
    rw [hold, if_pos rfl, List.append_eq_singleton_iff] at h
    rcases h with ⟨hpre, hpost⟩ | ⟨-, hpost⟩
    · rw [if_pos rfl, if_pos rfl, hpre, (List.cons_eq_cons.mp hpost).2]
      rfl
    · cases hpost

section Step

variable {env : CommandEnv} {id : ℕ} {acc : Accounts} {s : Session} {cmd : ParsedCommand} {old new u : UserRecord}

/-- Nobody becomes Sysop. -/
lemma Change.no_sysop (h : Change env acc s cmd old new) (hold : old.level ≠ .sysop) : new.level ≠ .sysop := by
  cases h with
  | promote newLevel hverb htarget hnew hsysop hright => exact hsysop
  | demote => exact UserLevel.noConfusion
  | activate | changeme | userchange | login => exact hold

lemma Change.stays_sysop (h : Change env acc s cmd old new) (hold : old.level = .sysop) (hid : old.id = id)
    (hspare : demotesSysop env id acc s cmd = false) :
    new.level = .sysop ∧ (old.active = true → new.active = true) := by
  cases h with
  | activate hverb htarget hright hlevel =>
    rw [hold] at hlevel
    cases hlevel
  | promote newLevel hverb htarget hnew hsysop hright =>
    rw [hold, (env.registry.sysop_guarded s.level old.active newLevel).2.2.2] at hright
    cases hright
  | demote hverb htarget hself hright => simp [demotesSysop, hverb, htarget, hid, hself, hright] at hspare
  | userchange p newPassword hverb htarget hsysop => exact absurd hold hsysop
  | changeme | login => exact ⟨hold, fun h => h⟩

lemma Removal.spares (h : Removal env acc s cmd old) : old.level ≠ .sysop := by
  have hguard := env.registry.sysop_guarded s.level true .user
  intro hold
  cases h with
  | delete hverb htarget hright =>
    rw [hold, hguard.2.2.1] at hright
    cases hright
  | userdelete hverb htarget hstaff hright =>
    rw [hold, hguard.2.1] at hright
    cases hright

def Reserved (id : ℕ) (v : UserRecord) : Bool := v.level = .sysop ∨ v.id = id

lemma reserved_iff {v : UserRecord} : Reserved id v = true ↔ v.level = .sysop ∨ v.id = id := by
  simp [Reserved]

lemma reserved_filter {users : List UserRecord} (h : ∀ v ∈ users, v.id = id → v.level = .sysop) :
    users.filter (Reserved id) = users.filter fun v => v.level = .sysop := by
  apply List.filter_congr
  intro v hv
  rw [Reserved, decide_eq_decide]
  exact ⟨fun hres => hres.elim (fun hlevel => hlevel) (h v hv), .inl⟩

/-- The record of the Sysop is the only one with its level or its id. -/
structure Only (id : ℕ) (users : List UserRecord) (u : UserRecord) : Prop where
  filter : users.filter (Reserved id) = [u]
  level : u.level = .sysop
  id_eq : u.id = id
  active : u.active = true

lemma Only.unique {users : List UserRecord} (h : Only id users u) {v : UserRecord} (hv : v ∈ users)
    (hres : v.level = .sysop ∨ v.id = id) : v = u := by
  have hmem : v ∈ users.filter (Reserved id) := List.mem_filter.mpr ⟨hv, reserved_iff.mpr hres⟩
  rw [h.filter] at hmem
  exact List.mem_singleton.mp hmem

lemma Only.plain {users : List UserRecord} (h : Only id users u) {v : UserRecord} (hv : v ∈ users) (hid : v.id ≠ id) :
    v.level ≠ .sysop := by
  intro hlevel
  rw [h.unique hv (.inl hlevel)] at hid
  exact hid h.id_eq

lemma Only.updated (h : Only id acc.users u) (hmem : old ∈ acc.users) (hc : Change env acc s cmd old new)
    (hspare : demotesSysop env id acc s cmd = false) : ∃ u', Only id (acc.updateUser new).2.users u' := by
  rcases updateUser_cases acc new with hsame | ⟨pre, first, post, husers, -, hfirst, hnew⟩
  · rw [hsame]
    exact ⟨u, h⟩
  · have hin : first ∈ acc.users := by simp [husers]
    have hids : first.id = old.id := hfirst.trans hc.id_kept
    have hfilter := h.filter
    rw [husers] at hfilter
    rw [hnew]
    by_cases hid : old.id = id
    · -- the record found is the one that is replaced
      obtain rfl := h.unique hmem (.inr hid)
      obtain rfl := h.unique hin (.inr (hids.trans hid))
      obtain ⟨hlevel, hactive⟩ := hc.stays_sysop h.level hid hspare
      have hfirstIs : Reserved id first = true := reserved_iff.mpr (.inl h.level)
      have hnewIs : Reserved id new.normalize = true := reserved_iff.mpr (.inl hlevel)
      refine ⟨new.normalize, ?_, hlevel, hfirst.symm.trans hid, hactive h.active⟩
      rw [filter_replaced (hnewIs.trans hfirstIs.symm) hfilter, hfirstIs, if_pos rfl]
    · have hfirstNot : Reserved id first = false := by
        rw [Bool.eq_false_iff, Ne, reserved_iff, not_or]
        exact ⟨h.plain hin (hids ▸ hid), hids ▸ hid⟩
      have hnewNot : Reserved id new.normalize = false := by
        rw [Bool.eq_false_iff, Ne, reserved_iff, not_or]
        exact ⟨hc.no_sysop (h.plain hmem hid), fun hn => hid (hc.id_kept ▸ hn)⟩
      refine ⟨u, ?_, h.level, h.id_eq, h.active⟩
      rw [filter_replaced (hnewNot.trans hfirstNot.symm) hfilter, hfirstNot]
      rfl

lemma Only.deleted (h : Only id acc.users u) {n : ℕ} (hn : n = id → id = 0) : Only id (acc.deleteUser n).2.users u := by
  rcases deleteUser_cases acc n with hsame | ⟨hzero, pre, first, post, husers, -, hfirst, hnew⟩
  · rw [hsame]
    exact h
  · have hid : first.id ≠ id := fun heq => hzero ((hfirst ▸ heq).trans (hn (hfirst ▸ heq)))
    have hnot : Reserved id first = false := by
      rw [Bool.eq_false_iff, Ne, reserved_iff, not_or]
      exact ⟨h.plain (by simp [husers]) hid, hid⟩
    have hfilter := h.filter
    rw [husers, List.filter_append, List.filter_cons, hnot] at hfilter
    refine ⟨?_, h.level, h.id_eq, h.active⟩
    rw [hnew, List.filter_append]
    exact hfilter

lemma Only.registered (h : Only id acc.users u) (hid : acc.nextId.val ≠ id) (now : Int64) (reg : UserRegistration) :
    Only id (acc.registerUser env.backend env.auth.guestPrefix now reg).2.users u := by
  rcases registerUser_cases acc env.backend env.auth.guestPrefix now reg with hr | hr | ⟨password, hr⟩
  · rw [hr]
    exact h
  · rw [hr]
    exact h
  · have hnot : Reserved id { newUser reg now acc.nextId with password := password } = false := by
      rw [Bool.eq_false_iff, Ne, reserved_iff, not_or]
      exact ⟨UserLevel.noConfusion, hid⟩
    refine ⟨?_, h.level, h.id_eq, h.active⟩
    rw [hr, List.filter_append, List.filter_singleton, hnot, h.filter]
    rfl

lemma Only.effect (h : Only id acc.users u) (hsession : s.userId = id → id ≠ 0 → s.level = some .sysop)
    {acc' : Accounts}
    (he : Effect env acc s cmd acc') (hdemote : demotesSysop env id acc s cmd = false)
    (hreuse : reusesId id acc cmd = false) : ∃ u', Only id acc'.users u' := by
  cases he with
  | same => exact ⟨u, h⟩
  | registered now reg hverb =>
    refine ⟨u, h.registered (fun hid => ?_) now reg⟩
    rcases hverb with hverb | hverb <;> simp [reusesId, hverb, hid] at hreuse
  | changed hmem hc => exact h.updated hmem hc hdemote
  | removed hmem hr =>
    refine ⟨u, h.deleted fun hid => absurd ?_ hr.spares⟩
    rw [h.unique hmem (.inr hid), h.level]
  | left hverb hlevel =>
    refine ⟨u, h.deleted fun hid => ?_⟩
    by_contra hzero
    exact hlevel (hsession hid hzero)

end Step

section Run

variable {env : CommandEnv} {id : ℕ}

/-- What a run keeps: a session that is logged in to the account acts at its level. -/
structure SysopStands (id : ℕ) (svc : Service) : Prop where
  only : ∃ u, Only id svc.accounts.users u
  sessions : ∀ p ∈ svc.sessions, p.2.userId = id → id ≠ 0 → p.2.level = some .sysop

lemma SysopStands.step (hguest : ∀ slot, guestUserId slot ≠ id) {svc : Service} (h : SysopStands id svc)
    {ev : ServiceEvent} (hspare : sparesSysop env id svc ev = true) : SysopStands id (serviceStep env svc ev).1 := by
  obtain ⟨u, hu⟩ := h.only
  constructor
  · rcases serviceStep_accounts env svc ev with hsame | ⟨handle, cmd, now, s, rfl, hs, haccepts, haccess, he⟩
    · rw [hsame]
      exact ⟨u, hu⟩
    · have hboth : demotesSysop env id svc.accounts s cmd = false ∧ reusesId id svc.accounts cmd = false := by
        simpa [sparesSysop, hs, haccepts, haccess] using hspare
      exact hu.effect (h.sessions _ (mem_of_session svc hs)) he hboth.1 hboth.2
  · intro p hp hid hzero
    rcases serviceStep_session env svc hp with hp | ⟨slot, -, hopen⟩ | ⟨cmd, now, s, -, hs, hafter, -⟩
    · exact h.sessions p hp hid hzero
    · rw [hopen, sessionOpen] at hid
      split_ifs at hid
      · exact absurd hid (hguest slot)
      · exact absurd hid.symm hzero
    · rw [hafter] at hid ⊢
      rw [sessionAfter_userId] at hid
      rw [sessionAfter_level]
      rcases commandDispatch_session env svc p.1 s cmd now with hkeep | ⟨-, v, hv, -, -, hswitch⟩
      · rw [hkeep] at hid ⊢
        exact h.sessions _ hs hid hzero
      · rw [hswitch] at hid ⊢
        have hvu := hu.unique hv (.inr hid)
        rw [switchUser, hvu, hu.level]

/-- The Sysop survives every run in which no demotion that the registry allows names it, and no registration is
handed its id; no other record has the id at the start. -/
theorem sysop_kept (env : CommandEnv) {acc : Accounts} (hone : OneSysop id acc)
    (hids : ∀ u ∈ acc.users, u.id = id → u.level = .sysop) (hguest : ∀ slot, guestUserId slot ≠ id)
    {evs : List ServiceEvent}
    (hrun : Transducer.Along (serviceStep env) (fun svc ev => sparesSysop env id svc ev = true) (.start acc) evs) :
    OneSysop id (serviceRun env acc evs).accounts := by
  have hstart : SysopStands id (.start acc) := by
    obtain ⟨u, hfilter, hid, hactive⟩ := hone
    have hmem : u ∈ acc.users.filter fun v => v.level = .sysop := by simp [hfilter]
    have hlevel : u.level = .sysop := by simpa using (List.mem_filter.mp hmem).2
    exact ⟨⟨u, (reserved_filter hids).trans hfilter, hlevel, hid, hactive⟩, fun p hp => by cases hp⟩
  have hstands := Transducer.along_invariant (serviceStep env) (fun _ _ h hspare => h.step hguest hspare) hstart hrun
  obtain ⟨u, hu⟩ := hstands.only
  refine ⟨u, ?_, hu.id_eq, hu.active⟩
  rw [← hu.filter, reserved_filter fun v hv hid => by rw [hu.unique hv (.inr hid), hu.level]]
  rfl

end Run

section Demoted

/-- A registry that lets an Admin demote the Sysop. -/
def openRegistryFile : Bytes := ofString "rights:\n  demote:\n    -\n      actor: Admin\n      from: [Sysop, Mod]\n" ++
  ofString "commands:\n  login:\n    min: Guest\n  demote:\n    min: Admin\n"

def openRegistry : Registry := (parseCommandsYaml openRegistryFile).getD .empty

def openEnv : CommandEnv := ⟨openRegistry, ⟨true, ofString "guest"⟩, ⟨id, id⟩⟩

def staffRecord (id : Fin (2 ^ 64)) (name : String) (level : UserLevel) : UserRecord :=
  { UserRecord.zero with
    id := id
    username := CText.copy (ofString name)
    level := level
    active := true
    password := CText.copy (ofString "password")
    idFits := word_fits id }

def staffAccounts : Accounts :=
  ⟨[staffRecord 1 "sysop" .sysop, staffRecord 2 "anna" .admin, staffRecord 3 "bert" .mod], 3⟩

def commandOf (verb : String) (args : List String) : ParsedCommand := ⟨ofString verb, args.map ofString⟩

def annaDemotes (name : String) : List ServiceEvent :=
  [.opened 0 ⟨1, first_issued⟩, .command 0 (commandOf "login" ["anna", "password"]) 0,
    .command 0 (commandOf "demote" [name]) 0]

lemma staff_oneSysop : OneSysop 1 staffAccounts := ⟨staffRecord 1 "sysop" .sysop, by decide +kernel, rfl, rfl⟩

theorem sysop_kept_bert : OneSysop 1 (serviceRun openEnv staffAccounts (annaDemotes "bert")).accounts := by
  have hguest : ∀ slot, guestUserId slot ≠ 1 := fun slot => by
    rw [guestUserId]
    omega
  exact sysop_kept openEnv staff_oneSysop (by decide +kernel) hguest (by decide +kernel)

theorem sysop_demoted : ¬∀ (file : Bytes) (registry : Registry) (auth : AuthConfig) (backend : HashBackend) (id : ℕ)
    (acc : Accounts) (evs : List ServiceEvent), parseCommandsYaml file = some registry → OneSysop id acc →
      OneSysop id (serviceRun ⟨registry, auth, backend⟩ acc evs).accounts := by
  intro h
  have hparse : parseCommandsYaml openRegistryFile = some openRegistry := by decide +kernel
  obtain ⟨u, hfilter, -⟩ :=
    h _ _ openEnv.auth openEnv.backend 1 staffAccounts (annaDemotes "sysop") hparse staff_oneSysop
  have hnone : (serviceRun openEnv staffAccounts (annaDemotes "sysop")).accounts.users.filter
      (fun v => v.level = .sysop) = [] := by decide +kernel
  exact List.cons_ne_nil u [] (hfilter.symm.trans hnone)

end Demoted

end HyBBX.Command
