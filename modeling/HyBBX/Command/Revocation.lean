import HyBBX.Command.SysopKept

/-! The level a session acts at, and the records of the store it is drawn from. -/

namespace HyBBX.Command

open HyBBX.Core HyBBX.Storage HyBBX.Config Lib Lib.Bytes Lib.Text

/-- The commands by which one user reaches the record of another. -/
def AccountVerb.isStaff : AccountVerb → Bool
  | .promote | .demote | .delete | .activate | .userchange | .createuser | .userdelete => true
  | .login | .register | .changeme | .deleteme => false

/-- The record a command names. -/
def targetOf (acc : Accounts) (cmd : ParsedCommand) : AccountVerb → Except HybbxResult UserRecord
  | .userchange => acc.findUser (CText.copy (argOf cmd.argv 0) : CText userNameMax).lower.text
  | _ => acc.resolveUser (argOf cmd.argv 0)

/-- The rule of the registry for the target of a command, at a level. -/
def targetRule (reg : Registry) (level : Level) (cmd : ParsedCommand) (target : UserRecord) : AccountVerb → Bool
  | .promote => reg.mayPromote level target.level target.active (userLevelParse (argOf cmd.argv 1))
  | .demote => reg.mayDemote level target.level
  | .delete => reg.mayDelete level target.level
  | .userdelete => level = some .sysop && reg.mayUserdelete level target.level
  | .userchange => (level = some .sysop || level = some .admin) && reg.mayUserchange level target.level
  | .activate => reg.verbAllowed level (ofString "activate")
  | _ => true

/-- The rules of the registry under which a command is allowed at a level. -/
def staffRule (reg : Registry) (level : Level) (acc : Accounts) (cmd : ParsedCommand) (verb : AccountVerb) : Bool :=
  verb = .createuser || match targetOf acc cmd verb with
    | .ok target => targetRule reg level cmd target verb
    | .error _ => false

/-- The store holds an active record with this id and level. -/
def Stands (id : ℕ) (level : Level) (acc : Accounts) : Prop :=
  ∃ r ∈ acc.users, r.id = id ∧ r.active = true ∧ level = some r.level

/-- A command that takes the level or the record away from an account. -/
def revokes (id : ℕ) (svc : Service) : ServiceEvent → Bool
  | .command handle cmd _ =>
    match accountVerb cmd with
    | some .promote | some .demote | some .delete | some .userdelete =>
      match svc.accounts.resolveUser (argOf cmd.argv 0) with
      | .ok target => target.id = id
      | .error _ => false
    | some .deleteme => (svc.session handle).any fun s => s.userId = id
    | _ => false
  | _ => false

/-- A step after which an account need not be as it was: a revocation, or any step where two records share an id. -/
def Unsettles (id : ℕ) (svc : Service) (ev : ServiceEvent) : Prop :=
  revokes id svc ev = true ∨ ¬(svc.accounts.users.map UserRecord.id).Nodup

section Effects

variable {env : CommandEnv} {acc acc' : Accounts} {s : Session} {cmd : ParsedCommand} {verb : AccountVerb}
  {old new : UserRecord} {id : ℕ} {level : Level}

lemma Change.rule (h : Change env acc s cmd old new) (hverb : accountVerb cmd = some verb)
    (hstaff : verb.isStaff = true) :
    targetOf acc cmd verb = .ok old ∧ targetRule env.registry s.level cmd old verb = true := by
  cases h with
  | activate hv htarget hright hlevel =>
    obtain rfl := Option.some.inj (hverb.symm.trans hv)
    exact ⟨htarget, hright⟩
  | promote newLevel hv htarget hnew hsysop hright =>
    obtain rfl := Option.some.inj (hverb.symm.trans hv)
    exact ⟨htarget, by rw [targetRule, ← hnew, hright]⟩
  | demote hv htarget hself hright =>
    obtain rfl := Option.some.inj (hverb.symm.trans hv)
    exact ⟨htarget, hright⟩
  | userchange p newPassword hv htarget hsysop hright hlevel =>
    obtain rfl := Option.some.inj (hverb.symm.trans hv)
    exact ⟨htarget, by simpa [targetRule, hright] using hlevel⟩
  | changeme p newPassword hv | login now hv =>
    obtain rfl := Option.some.inj (hverb.symm.trans hv)
    cases hstaff

lemma Removal.rule (h : Removal env acc s cmd old) (hverb : accountVerb cmd = some verb) :
    targetOf acc cmd verb = .ok old ∧ targetRule env.registry s.level cmd old verb = true := by
  cases h with
  | delete hv htarget hright =>
    obtain rfl := Option.some.inj (hverb.symm.trans hv)
    exact ⟨htarget, hright⟩
  | userdelete hv htarget hstaff hright =>
    obtain rfl := Option.some.inj (hverb.symm.trans hv)
    exact ⟨htarget, by simp [targetRule, hstaff ▸ hright, hstaff]⟩

/-- A command of the staff that touches the store satisfies the rule at the level of its session. -/
lemma Effect.rule (h : Effect env acc s cmd acc') (hchange : acc' ≠ acc) (hverb : accountVerb cmd = some verb)
    (hstaff : verb.isStaff = true) : staffRule env.registry s.level acc cmd verb = true := by
  cases h with
  | same => exact absurd rfl hchange
  | registered now reg hv =>
    rcases hv with hv | hv
    · obtain rfl := Option.some.inj (hverb.symm.trans hv)
      cases hstaff
    · obtain rfl := Option.some.inj (hverb.symm.trans hv)
      rfl
  | changed hmem hc =>
    obtain ⟨htarget, hrule⟩ := hc.rule hverb hstaff
    simp [staffRule, htarget, hrule]
  | removed hmem hr =>
    obtain ⟨htarget, hrule⟩ := hr.rule hverb
    simp [staffRule, htarget, hrule]
  | left hv hlevel =>
    obtain rfl := Option.some.inj (hverb.symm.trans hv)
    cases hstaff

lemma Change.normal_stands (h : Change env acc s cmd old new) (hold : old.id = id)
    (hkeep : ∀ verb, accountVerb cmd = some verb → verb ≠ .promote ∧ verb ≠ .demote) (hactive : old.active = true)
    (hlevel : level = some old.level) :
    new.normalize.id = id ∧ new.normalize.active = true ∧ level = some new.normalize.level := by
  cases h with
  | activate => exact ⟨hold, rfl, hlevel⟩
  | promote newLevel hv => exact absurd rfl (hkeep _ hv).1
  | demote hv => exact absurd rfl (hkeep _ hv).2
  | changeme | userchange | login => exact ⟨hold, hactive, hlevel⟩

lemma id_injective (hids : (acc.users.map UserRecord.id).Nodup) {u v : UserRecord} (hu : u ∈ acc.users)
    (hv : v ∈ acc.users) (huv : u.id = v.id) : u = v := List.inj_on_of_nodup_map hids hu hv huv

lemma Stands.appended (h : Stands id level acc) (u : UserRecord) (counter : ℕ) :
    Stands id level ⟨acc.users ++ [u], counter⟩ := by
  obtain ⟨r, hr, hrest⟩ := h
  exact ⟨r, List.mem_append_left _ hr, hrest⟩

lemma Stands.registered (h : Stands id level acc) (now : Int64) (reg : UserRegistration) :
    Stands id level (acc.registerUser env.backend env.auth.guestPrefix now reg).2 := by
  rcases registerUser_cases acc env.backend env.auth.guestPrefix now reg with hr | hr | ⟨password, hr⟩
  · rw [hr]
    exact h
  · rw [hr]
    exact h
  · rw [hr]
    exact h.appended _ _

lemma Stands.deleted (h : Stands id level acc) {n : ℕ} (hn : n ≠ id) : Stands id level (acc.deleteUser n).2 := by
  obtain ⟨r, hr, hid, hrest⟩ := h
  rcases deleteUser_cases acc n with hsame | ⟨-, pre, first, post, husers, -, hfirst, hnew⟩
  · rw [hsame]
    exact ⟨r, hr, hid, hrest⟩
  · rw [husers, List.mem_append, List.mem_cons] at hr
    rw [hnew]
    refine ⟨r, ?_, hid, hrest⟩
    rcases hr with hr | rfl | hr
    · exact List.mem_append_left _ hr
    · exact absurd (hfirst.symm.trans hid) hn
    · exact List.mem_append_right _ hr

/-- A record that replaces the one the store finds first leaves the others. -/
lemma Stands.updated (h : Stands id level acc) (hnew : ∀ r ∈ acc.users, r.id = new.id → r.id = id → r.active = true →
    level = some r.level → new.normalize.id = id ∧ new.normalize.active = true ∧ level = some new.normalize.level) :
    Stands id level (acc.updateUser new).2 := by
  obtain ⟨r, hr, hid, hactive, hlevel⟩ := h
  rcases updateUser_cases acc new with hsame | ⟨pre, first, post, husers, -, hfirst, hresult⟩
  · rw [hsame]
    exact ⟨r, hr, hid, hactive, hlevel⟩
  · rw [hresult]
    have hsplit := hr
    rw [husers, List.mem_append, List.mem_cons] at hsplit
    rcases hsplit with hpre | rfl | hpost
    · exact ⟨r, List.mem_append_left _ hpre, hid, hactive, hlevel⟩
    · exact ⟨new.normalize, List.mem_append_right _ List.mem_cons_self, hnew r hr hfirst hid hactive hlevel⟩
    · exact ⟨r, List.mem_append_right _ (List.mem_cons_of_mem _ hpost), hid, hactive, hlevel⟩

end Effects

section Steps

variable {env : CommandEnv} {svc : Service} {id : ℕ} {level : Level}

lemma revokes_named {handle : ℕ} {cmd : ParsedCommand} {now : Int64} {verb : AccountVerb} {target : UserRecord}
    (hverb : accountVerb cmd = some verb)
    (hkind : verb = .promote ∨ verb = .demote ∨ verb = .delete ∨ verb = .userdelete)
    (htarget : svc.accounts.resolveUser (argOf cmd.argv 0) = .ok target) (hid : target.id = id) :
    revokes id svc (.command handle cmd now) = true := by
  rcases hkind with rfl | rfl | rfl | rfl <;> simp [revokes, hverb, htarget, hid]

lemma Stands.step (h : Stands id level svc.accounts) (ev : ServiceEvent) (hev : ¬Unsettles id svc ev) :
    Stands id level (serviceStep env svc ev).1.accounts := by
  rw [Unsettles, not_or, not_not, Bool.not_eq_true] at hev
  obtain ⟨hkeep, hids⟩ := hev
  rcases serviceStep_accounts env svc ev with hsame | ⟨handle, cmd, now, s, rfl, hs, -, -, he⟩
  · rw [hsame]
    exact h
  · revert he
    generalize (serviceStep env svc (.command handle cmd now)).1.accounts = acc'
    intro he
    cases he with
    | same => exact h
    | registered now reg => exact h.registered now reg
    | @changed old new hmem hc =>
      refine h.updated fun r hr hfirst hid hactive hlevel => ?_
      have hrold : r = old := id_injective hids hr hmem (hfirst.trans hc.id_kept)
      subst hrold
      refine hc.normal_stands hid (fun verb hverb => ⟨?_, ?_⟩) hactive hlevel
      · rintro rfl
        rw [revokes_named hverb (.inl rfl) (hc.rule hverb rfl).1 hid] at hkeep
        cases hkeep
      · rintro rfl
        rw [revokes_named hverb (.inr (.inl rfl)) (hc.rule hverb rfl).1 hid] at hkeep
        cases hkeep
    | removed hmem hr =>
      refine h.deleted fun hid => ?_
      cases hr with
      | delete hverb htarget =>
        rw [revokes_named hverb (.inr (.inr (.inl rfl))) htarget hid] at hkeep
        cases hkeep
      | userdelete hverb htarget =>
        rw [revokes_named hverb (.inr (.inr (.inr rfl))) htarget hid] at hkeep
        cases hkeep
    | left hverb =>
      refine h.deleted fun hid => ?_
      simp [revokes, hverb, hs, hid] at hkeep

end Steps

section Run

variable (env : CommandEnv) (acc : Accounts)

lemma serviceRun_concat (evs : List ServiceEvent) (ev : ServiceEvent) :
    serviceRun env acc (evs ++ [ev]) = (serviceStep env (serviceRun env acc evs) ev).1 := by
  rw [serviceRun, Transducer.run_append, Transducer.run_singleton]
  rfl

/-- A session without an account, or one that logged in under a record of the store with its level; that record is
as it was then, or a step since may have taken it away. -/
def Granted (evs : List ServiceEvent) (handle : ℕ) (s : Session) : Prop :=
  (s.level = none ∨ s.level = some .guest) ∨
    ∃ start login now since, evs = start ++ .command handle login now :: since ∧ accountVerb login = some .login ∧
      Stands s.userId s.level (serviceRun env acc start).accounts ∧
      (Stands s.userId s.level (serviceRun env acc evs).accounts ∨
        ∃ mid ev rest, since = mid ++ ev :: rest ∧
          Unsettles s.userId (serviceRun env acc (start ++ .command handle login now :: mid)) ev)

variable {env acc}

lemma Granted.congr {evs : List ServiceEvent} {handle : ℕ} {s s' : Session} (h : Granted env acc evs handle s)
    (hlevel : s'.level = s.level) (hid : s'.userId = s.userId) : Granted env acc evs handle s' := by
  rw [Granted, hlevel, hid]
  exact h

lemma Granted.later {evs : List ServiceEvent} {handle : ℕ} {s : Session} (h : Granted env acc evs handle s)
    (ev : ServiceEvent) : Granted env acc (evs ++ [ev]) handle s := by
  rcases h with hnone | ⟨start, login, now, since, rfl, hverb, hlogin, hsince⟩
  · exact .inl hnone
  · refine .inr ⟨start, login, now, since ++ [ev], by simp, hverb, hlogin, ?_⟩
    rcases hsince with hstands | ⟨mid, ev', rest, rfl, hunsettles⟩
    · by_cases hev : Unsettles s.userId (serviceRun env acc (start ++ .command handle login now :: since)) ev
      · exact .inr ⟨since, ev, [], rfl, hev⟩
      · rw [serviceRun_concat]
        exact .inl (hstands.step ev hev)
    · exact .inr ⟨mid, ev', rest ++ [ev], by simp, hunsettles⟩

lemma granted_run (evs : List ServiceEvent) : ∀ p ∈ (serviceRun env acc evs).sessions, Granted env acc evs p.1 p.2 := by
  induction evs using List.reverseRecOn with
  | nil =>
    intro p hp
    cases hp
  | append_singleton evs ev ih =>
    intro p hp
    rw [serviceRun_concat] at hp
    rcases serviceStep_session env _ hp with hp | ⟨slot, -, hopen⟩ | ⟨cmd, now, s, rfl, hs, hafter, hacc⟩
    · exact (ih p hp).later ev
    · rw [hopen, sessionOpen]
      split_ifs
      · exact .inl (.inr rfl)
      · exact .inl (.inl rfl)
    · have hlevel : p.2.level = _ := (congrArg Session.level hafter).trans (sessionAfter_level _)
      have hid : p.2.userId = _ := (congrArg Session.userId hafter).trans (sessionAfter_userId _)
      rcases commandDispatch_session env (serviceRun env acc evs) p.1 s cmd now with
        hkeep | ⟨hverb, u, hu, hactive, hstored, hswitch⟩
      · rw [hkeep] at hlevel hid
        exact ((ih _ hs).later _).congr hlevel hid
      · rw [hswitch] at hlevel hid
        have hlogin : Stands p.2.userId p.2.level (serviceRun env acc evs).accounts :=
          ⟨u, hu, hid.symm, hactive, hlevel⟩
        refine .inr ⟨evs, cmd, now, [], rfl, hverb, hlogin, .inl ?_⟩
        rw [serviceRun_concat, hacc, hstored]
        exact hlogin.updated fun r hr hfirst hrid hractive hrlevel => ⟨hid.symm, hactive, hlevel⟩

end Run

section Demoted

/-- The rules for demotions that the commands come with. -/
def demoteRegistryFile : Bytes :=
  ofString "rights:\n  demote:\n    -\n      actor: Sysop\n      from: [Admin, Mod]\n" ++
    ofString "    -\n      actor: Admin\n      from: [Mod]\n" ++
    ofString "commands:\n  login:\n    min: Guest\n  demote:\n    min: Admin\n"

def demoteEnv : CommandEnv := { openEnv with registry := (parseCommandsYaml demoteRegistryFile).getD .empty }

def annaLogsIn : List ServiceEvent := [.opened 0 ⟨1, first_issued⟩,
    .command 0 (commandOf "login" ["anna", "password"]) 0]

def annaDemoted : List ServiceEvent :=
  annaLogsIn ++ [.opened 1 ⟨2, second_issued⟩, .command 1 (commandOf "login" ["sysop", "password"]) 0,
    .command 1 (commandOf "demote" ["anna"]) 0]

def annaSession : Session := switchUser (staffRecord 2 "anna" .admin)

def bertLevel (svc : Service) : List UserLevel := (svc.accounts.users.filter fun u => u.id = 3).map UserRecord.level

/-- Her session still stands, her record has the level of a user, and she demotes Bert. -/
lemma annaDemoted_session :
    (serviceRun demoteEnv staffAccounts annaDemoted).session 0 = some annaSession ∧
      ((serviceRun demoteEnv staffAccounts annaDemoted).accounts.byId annaSession.userId).map UserRecord.level =
        some .user ∧
      bertLevel ⟨(serviceStep demoteEnv (serviceRun demoteEnv staffAccounts annaDemoted)
          (.command 0 (commandOf "demote" ["bert"]) 0)).1.accounts, []⟩ ≠
        bertLevel ⟨(serviceRun demoteEnv staffAccounts annaDemoted).accounts, []⟩ := by
  decide +kernel

end Demoted

end HyBBX.Command
