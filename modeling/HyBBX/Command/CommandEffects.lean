import HyBBX.Command.Dispatch

/-! What each command can do to the accounts, and under which right. -/

namespace HyBBX.Command

open HyBBX.Core HyBBX.Storage HyBBX.Config Lib Lib.Bytes Lib.Text

lemma mem_of_findUser {acc : Accounts} {username : Bytes} {u : UserRecord} (h : acc.findUser username = .ok u) :
    u ∈ acc.users ∧ strIeq u.username.text username = true := by
  rw [Accounts.findUser] at h
  split at h
  · rename_i v hv
    obtain rfl := Except.ok.inj h
    exact ⟨List.mem_of_find?_eq_some hv, by simpa using List.find?_some hv⟩
  · cases h

lemma mem_of_resolveUser {acc : Accounts} {name : Bytes} {u : UserRecord} (h : acc.resolveUser name = .ok u) :
    u ∈ acc.users := by
  rw [Accounts.resolveUser] at h
  split_ifs at h
  split at h
  · rename_i hf
    obtain rfl := Except.ok.inj h
    exact (mem_of_findUser hf).1
  · split at h
    · rename_i hv
      obtain rfl := Except.ok.inj h
      exact List.mem_of_find?_eq_some hv
    · cases h

section Store

variable (acc : Accounts)

lemma updateUser_cases (u : UserRecord) : (acc.updateUser u).2 = acc ∨
    ∃ pre old post, acc.users = pre ++ old :: post ∧ (∀ v ∈ pre, v.id ≠ old.id) ∧ old.id = u.id ∧
      (acc.updateUser u).2 = { acc with users := pre ++ u.normalize :: post } := by
  rw [Accounts.updateUser]
  split_ifs with hzero hnone
  · exact .inl rfl
  · exact .inl rfl
  · obtain ⟨old, hold⟩ := Option.ne_none_iff_exists'.mp (by simpa using hnone : acc.byId u.id ≠ none)
    obtain ⟨pre, post, hsplit, hid, hpre⟩ := find_id_split hold
    refine .inr ⟨pre, old, post, hsplit, hid ▸ hpre, hid, ?_⟩
    dsimp only
    rw [hsplit, replaceF_split hid hpre]

lemma deleteUser_cases (id : ℕ) : (acc.deleteUser id).2 = acc ∨
    id ≠ 0 ∧ ∃ pre old post, acc.users = pre ++ old :: post ∧ (∀ v ∈ pre, v.id ≠ old.id) ∧ old.id = id ∧
      (acc.deleteUser id).2 = { acc with users := pre ++ post } := by
  rw [Accounts.deleteUser]
  split_ifs with hzero hnone
  · exact .inl rfl
  · exact .inl rfl
  · obtain ⟨old, hold⟩ := Option.ne_none_iff_exists'.mp (by simpa using hnone : acc.byId id ≠ none)
    obtain ⟨pre, post, hsplit, hid, hpre⟩ := find_id_split hold
    refine .inr ⟨hzero, pre, old, post, hsplit, hid ▸ hpre, hid, ?_⟩
    dsimp only
    rw [hsplit, eraseP_split hid hpre]

lemma registerUser_cases (backend : HashBackend) (guestPrefix : Bytes) (now : Int64) (reg : UserRegistration) :
    (acc.registerUser backend guestPrefix now reg).2 = acc ∨
      (acc.registerUser backend guestPrefix now reg).2 = { acc with counter := acc.nextId } ∨
      ∃ password, (acc.registerUser backend guestPrefix now reg).2 =
        { users := acc.users ++ [{ newUser reg now acc.nextId with password := password }],
            counter := acc.nextId } := by
  rw [Accounts.registerUser]
  split_ifs
  · exact .inl rfl
  · exact .inl rfl
  · dsimp only
    cases registeredPassword backend reg.password.text with
    | none => exact .inr (.inl rfl)
    | some password => exact .inr (.inr ⟨password, rfl⟩)

end Store

section Effect

variable (env : CommandEnv) (acc : Accounts) (s : Session) (cmd : ParsedCommand)

/-- A change of a record that a command found, with the right the command has to it. -/
inductive Change (old : UserRecord) : UserRecord → Prop
  | activate (hverb : accountVerb cmd = some .activate) (htarget : acc.resolveUser (argOf cmd.argv 0) = .ok old)
      (hright : env.registry.verbAllowed s.level (ofString "activate") = true) (hlevel : old.level = .user) :
      Change old { old with active := true }
  | promote (newLevel : UserLevel) (hverb : accountVerb cmd = some .promote)
      (htarget : acc.resolveUser (argOf cmd.argv 0) = .ok old) (hnew : newLevel = userLevelParse (argOf cmd.argv 1))
      (hsysop : newLevel ≠ .sysop) (hright : env.registry.mayPromote s.level old.level old.active newLevel = true) :
      Change old { old with level := newLevel }
  | demote (hverb : accountVerb cmd = some .demote) (htarget : acc.resolveUser (argOf cmd.argv 0) = .ok old)
      (hself : strIeq old.username.text s.username = false)
      (hright : env.registry.mayDemote s.level old.level = true) : Change old { old with level := .user }
  | changeme (p : ProfileFields) (newPassword : Bytes) (hverb : accountVerb cmd = some .changeme)
      (hid : old.id = s.userId) : Change old (changedUser env p newPassword old)
  | userchange (p : ProfileFields) (newPassword : Bytes) (hverb : accountVerb cmd = some .userchange)
      (htarget : acc.findUser (CText.copy (argOf cmd.argv 0) : CText userNameMax).lower.text = .ok old)
      (hsysop : old.level ≠ .sysop) (hright : env.registry.mayUserchange s.level old.level = true)
      (hstaff : s.level = some .sysop ∨ s.level = some .admin) : Change old (changedUser env p newPassword old)
  | login (now : Int64) (hverb : accountVerb cmd = some .login) (hactive : old.active = true) :
      Change old { old with lastLoginAt := now }

lemma Change.id_kept {old new : UserRecord} (h : Change env acc s cmd old new) : new.id = old.id := by
  cases h <;> rfl

/-- A record that a command removes, with its right to that. -/
inductive Removal (old : UserRecord) : Prop
  | delete (hverb : accountVerb cmd = some .delete) (htarget : acc.resolveUser (argOf cmd.argv 0) = .ok old)
      (hright : env.registry.mayDelete s.level old.level = true)
  | userdelete (hverb : accountVerb cmd = some .userdelete) (htarget : acc.resolveUser (argOf cmd.argv 0) = .ok old)
      (hstaff : s.level = some .sysop) (hright : env.registry.mayUserdelete s.level old.level = true)

inductive Effect : Accounts → Prop
  | same : Effect acc
  | registered (now : Int64) (reg : UserRegistration)
      (hverb : accountVerb cmd = some .register ∨ accountVerb cmd = some .createuser) :
      Effect (acc.registerUser env.backend env.auth.guestPrefix now reg).2
  | changed {old new : UserRecord} (hmem : old ∈ acc.users) (h : Change env acc s cmd old new) :
      Effect (acc.updateUser new).2
  | removed {old : UserRecord} (hmem : old ∈ acc.users) (h : Removal env acc s cmd old) :
      Effect (acc.deleteUser old.id).2
  | left (hverb : accountVerb cmd = some .deleteme) (hlevel : s.level ≠ some .sysop) :
      Effect (acc.deleteUser s.userId).2

lemma Effect.idle {acc' : Accounts} (h : acc' = acc) : Effect env acc s cmd acc' := h ▸ .same

end Effect

section Stages

variable {env : CommandEnv} {acc : Accounts} {s : Session} {cmd : ParsedCommand} {st : Staged}

lemma withUser_ok {α : Type} {found : Except HybbxResult UserRecord} {k : UserRecord → Except HybbxResult α} {a : α}
    (h : withUser found k = .ok a) : ∃ u, found = .ok u ∧ k u = .ok a := by
  unfold withUser at h
  split at h
  · exact ⟨_, rfl, h⟩
  · cases h
  · cases h

lemma activateUser_ok (hverb : accountVerb cmd = some .activate) (h : activateUser env acc s cmd.argv = .ok st) :
    st.found ∈ acc.users ∧ Change env acc s cmd st.found st.written := by
  rw [activateUser] at h
  split_ifs at h with hname hright
  obtain ⟨target, htarget, h⟩ := withUser_ok h
  split_ifs at h with hlevel hactive
  obtain rfl := Except.ok.inj h
  exact ⟨mem_of_resolveUser htarget, .activate hverb htarget (by simpa using hright) (not_not.mp hlevel)⟩

lemma promoteUser_ok (hverb : accountVerb cmd = some .promote) (h : promoteUser env acc s cmd.argv = .ok st) :
    st.found ∈ acc.users ∧ Change env acc s cmd st.found st.written := by
  rw [promoteUser] at h
  split_ifs at h with hname hlevel
  obtain ⟨target, htarget, h⟩ := withUser_ok h
  split_ifs at h with hright hsame
  obtain rfl := Except.ok.inj h
  have hsysop : userLevelParse (argOf cmd.argv 1) ≠ .sysop := fun heq => by
    rw [heq] at hlevel
    exact hlevel ⟨UserLevel.noConfusion, UserLevel.noConfusion⟩
  exact ⟨mem_of_resolveUser htarget, .promote _ hverb htarget rfl hsysop (by simpa using hright)⟩

lemma demoteUser_ok (hverb : accountVerb cmd = some .demote) (h : demoteUser env acc s cmd.argv = .ok st) :
    st.found ∈ acc.users ∧ Change env acc s cmd st.found st.written := by
  rw [demoteUser] at h
  split_ifs at h with hname
  obtain ⟨target, htarget, h⟩ := withUser_ok h
  split_ifs at h with hself hright
  obtain rfl := Except.ok.inj h
  exact ⟨mem_of_resolveUser htarget, .demote hverb htarget (by simpa using hself) (by simpa using hright)⟩

lemma changemeUser_ok (hverb : accountVerb cmd = some .changeme) (h : changemeUser env acc s cmd.argv = .ok st) :
    st.found ∈ acc.users ∧ Change env acc s cmd st.found st.written := by
  rw [changemeUser] at h
  cases hp : parseProfileFields cmd.argv 2 0 with
  | none =>
    rw [hp] at h
    split_ifs at h
  | some p =>
    rw [hp] at h
    split_ifs at h
    obtain ⟨u, hu, h⟩ := withUser_ok h
    split_ifs at h with hid hvalid hempty hmatch
    obtain rfl := Except.ok.inj h
    exact ⟨(mem_of_findUser hu).1, .changeme _ _ hverb (not_not.mp hid)⟩

lemma userchangeUser_ok (hverb : accountVerb cmd = some .userchange) (h : userchangeUser env acc s cmd.argv = .ok st) :
    st.found ∈ acc.users ∧ Change env acc s cmd st.found st.written := by
  rw [userchangeUser] at h
  cases hp : parseProfileFields cmd.argv 2 0 with
  | none =>
    rw [hp] at h
    split_ifs at h
  | some p =>
    rw [hp] at h
    dsimp only at h
    split_ifs at h with hstaff
    obtain ⟨u, hu, h⟩ := withUser_ok h
    split_ifs at h with hself hsysop hright
    obtain rfl := Except.ok.inj h
    exact ⟨(mem_of_findUser hu).1, .userchange _ _ hverb hu hsysop (by simpa using hright) (by tauto)⟩

lemma deleteTarget_ok {old : UserRecord} (hverb : accountVerb cmd = some .delete)
    (h : deleteTarget env acc s cmd.argv = .ok old) : old ∈ acc.users ∧ Removal env acc s cmd old := by
  rw [deleteTarget] at h
  split_ifs at h with hname
  obtain ⟨target, htarget, h⟩ := withUser_ok h
  split_ifs at h with hself hsysop hright
  obtain rfl := Except.ok.inj h
  exact ⟨mem_of_resolveUser htarget, .delete hverb htarget (by simpa using hright)⟩

lemma userdeleteTarget_ok {old : UserRecord} (hverb : accountVerb cmd = some .userdelete)
    (h : userdeleteTarget env acc s cmd.argv = .ok old) : old ∈ acc.users ∧ Removal env acc s cmd old := by
  rw [userdeleteTarget] at h
  split_ifs at h with hstaff hname
  obtain ⟨target, htarget, h⟩ := withUser_ok h
  split_ifs at h with hself hright
  obtain rfl := Except.ok.inj h
  exact ⟨mem_of_resolveUser htarget, .userdelete hverb htarget (not_not.mp hstaff) (by simpa using hright)⟩

lemma loginUser_ok {svc : Service} {handle : ℕ} {argv : List Bytes} {u : UserRecord}
    (h : loginUser env svc handle argv = .ok u) : u ∈ svc.accounts.users ∧ u.active = true ∧ u.level ≠ .guest ∧
      svc.findRegisteredSession u.id handle = false := by
  rw [loginUser] at h
  split_ifs at h
  obtain ⟨v, hv, h⟩ := withUser_ok h
  split_ifs at h with hguest hactive hempty hmatch hbusy
  obtain rfl := Except.ok.inj h
  exact ⟨(mem_of_findUser hv).1, by simpa using hactive, hguest, by simpa using hbusy⟩

lemma commit_effect {r : Except HybbxResult Staged}
    (h : ∀ st, r = .ok st → st.found ∈ acc.users ∧ Change env acc s cmd st.found st.written) :
    Effect env acc s cmd (commit acc r).2 := by
  cases r with
  | error rc => exact .same
  | ok st =>
    obtain ⟨hmem, hchange⟩ := h st rfl
    exact .changed hmem hchange

lemma commitDelete_effect {r : Except HybbxResult UserRecord}
    (h : ∀ old, r = .ok old → old ∈ acc.users ∧ Removal env acc s cmd old) :
    Effect env acc s cmd (commitDelete acc r).2 := by
  cases r with
  | error rc => exact .same
  | ok old =>
    obtain ⟨hmem, hremoval⟩ := h old rfl
    exact .removed hmem hremoval

lemma cmdDeleteme_effect (hverb : accountVerb cmd = some .deleteme) :
    Effect env acc s cmd (cmdDeleteme acc s cmd.argv).2 := by
  rw [cmdDeleteme]
  split_ifs with hsysop hno hyes hzero
  · exact .same
  · exact .same
  · exact .same
  · exact .same
  · have hleft : Effect env acc s cmd (acc.deleteUser s.userId).2 := .left hverb hsysop
    split <;> rename_i hd <;> rw [hd] at hleft <;> exact hleft

lemma cmdRegisterUser_effect (now : Int64) (staffCreated : Bool)
    (hverb : accountVerb cmd = some .register ∨ accountVerb cmd = some .createuser) :
    Effect env acc s cmd (cmdRegisterUser env now acc cmd.argv staffCreated).2 := by
  rw [cmdRegisterUser]
  generalize (if staffCreated then 5 else 6) = least
  by_cases hargs : cmd.argv.length < least
  · rw [if_pos hargs]
    exact .same
  · rw [if_neg hargs]
    cases parseRegistration cmd.argv (!staffCreated) with
    | none => exact .same
    | some reg =>
      dsimp only
      split_ifs with hpass
      · exact .same
      · have hreg : Effect env acc s cmd (acc.registerUser env.backend env.auth.guestPrefix now reg).2 :=
          .registered now reg hverb
        split <;> rename_i hr <;> rw [hr] at hreg <;> exact hreg

end Stages

section Dispatch

variable (env : CommandEnv) (svc : Service) (handle : ℕ) (s : Session) (cmd : ParsedCommand) (now : Int64)

/-- A login leaves the accounts and the session alone, or moves the session to the account. -/
lemma cmdLogin_cases (argv : List Bytes) : ((cmdLogin env svc handle s argv now).accounts = svc.accounts ∧
    (cmdLogin env svc handle s argv now).session = s) ∨
    ∃ u, u ∈ svc.accounts.users ∧ u.active = true ∧
      (cmdLogin env svc handle s argv now).accounts = (svc.accounts.updateUser { u with lastLoginAt := now }).2 ∧
      (cmdLogin env svc handle s argv now).session = switchUser u := by
  rw [cmdLogin]
  cases hu : loginUser env svc handle argv with
  | error rc => exact .inl ⟨rfl, rfl⟩
  | ok u =>
    obtain ⟨hmem, hactive, -, -⟩ := loginUser_ok hu
    exact .inr ⟨u, hmem, hactive, rfl, rfl⟩

lemma runVerb_effect {verb : AccountVerb} (hverb : accountVerb cmd = some verb) :
    Effect env svc.accounts s cmd (runVerb env svc handle s cmd now verb).accounts := by
  cases verb with
  | login =>
    rcases cmdLogin_cases env svc handle s now cmd.argv with ⟨h, -⟩ | ⟨u, hmem, hactive, h, -⟩
    · exact .idle env _ s cmd h
    · rw [runVerb, h]
      exact .changed hmem (.login now hverb hactive)
  | register =>
    rw [runVerb, cmdRegister]
    split_ifs
    · exact .same
    · exact cmdRegisterUser_effect now false (.inl hverb)
  | createuser => exact cmdRegisterUser_effect now true (.inr hverb)
  | changeme => exact commit_effect fun st => changemeUser_ok hverb
  | userchange => exact commit_effect fun st => userchangeUser_ok hverb
  | userdelete => exact commitDelete_effect fun old => userdeleteTarget_ok hverb
  | activate => exact commit_effect fun st => activateUser_ok hverb
  | promote => exact commit_effect fun st => promoteUser_ok hverb
  | demote => exact commit_effect fun st => demoteUser_ok hverb
  | delete => exact commitDelete_effect fun old => deleteTarget_ok hverb
  | deleteme => exact cmdDeleteme_effect hverb

lemma commandDispatch_effect : (commandDispatch env svc handle s cmd now).accounts = svc.accounts ∨
    checkAccess env.registry s cmd.verb = true ∧
      Effect env svc.accounts s cmd (commandDispatch env svc handle s cmd now).accounts := by
  rw [commandDispatch]
  cases hverb : accountVerb cmd with
  | none => split_ifs <;> exact .inl rfl
  | some verb =>
    dsimp only
    split_ifs with hhelp haccess
    · exact .inl rfl
    · exact .inl rfl
    · exact .inr ⟨by simpa using haccess, runVerb_effect env svc handle s cmd now hverb⟩

/-- Only a login moves a session to another account. -/
lemma commandDispatch_session : (commandDispatch env svc handle s cmd now).session = s ∨
    accountVerb cmd = some .login ∧ ∃ u, u ∈ svc.accounts.users ∧ u.active = true ∧
      (commandDispatch env svc handle s cmd now).accounts = (svc.accounts.updateUser { u with lastLoginAt := now }).2 ∧
      (commandDispatch env svc handle s cmd now).session = switchUser u := by
  rw [commandDispatch]
  cases hverb : accountVerb cmd with
  | none => split_ifs <;> exact .inl rfl
  | some verb =>
    dsimp only
    split_ifs with hhelp haccess
    · exact .inl rfl
    · exact .inl rfl
    · cases verb with
      | login =>
        rcases cmdLogin_cases env svc handle s now cmd.argv with ⟨-, h⟩ | ⟨u, hu⟩
        · exact .inl h
        · exact .inr ⟨rfl, u, hu⟩
      | register | changeme | userchange | userdelete | createuser | activate | promote | demote | delete | deleteme =>
        exact .inl rfl

end Dispatch

section Steps

variable (env : CommandEnv) (svc : Service)

lemma mem_of_session {handle : ℕ} {s : Session} (h : svc.session handle = some s) : (handle, s) ∈ svc.sessions := by
  obtain ⟨pre, post, hsplit, -⟩ := List.lookup_eq_some_iff.mp h
  rw [hsplit]
  simp

lemma mem_setSession {handle : ℕ} {s : Session} {p : ℕ × Session} (h : p ∈ (svc.setSession handle s).sessions) :
    p ∈ svc.sessions ∨ p = (handle, s) := by
  obtain ⟨q, hq, rfl⟩ := List.mem_map.mp h
  split_ifs
  · exact .inr rfl
  · exact .inl hq

lemma processLine_cases (handle : ℕ) (cmd : ParsedCommand) (now : Int64) : processLine env svc handle cmd now = svc ∨
    ∃ s, svc.session handle = some s ∧ s.acceptsInput = true ∧ processLine env svc handle cmd now =
      { svc with accounts := (commandDispatch env svc handle s cmd now).accounts }.setSession handle
        (sessionAfter (commandDispatch env svc handle s cmd now)) := by
  unfold processLine
  cases hs : svc.session handle with
  | none => exact .inl rfl
  | some s =>
    dsimp only
    split_ifs with haccepts
    · exact .inl rfl
    · exact .inr ⟨s, rfl, by simpa using haccepts, rfl⟩

/-- The accounts change by commands of attached sessions alone. -/
lemma serviceStep_accounts (ev : ServiceEvent) : (serviceStep env svc ev).1.accounts = svc.accounts ∨
    ∃ handle cmd now s, ev = .command handle cmd now ∧ svc.session handle = some s ∧ s.acceptsInput = true ∧
      checkAccess env.registry s cmd.verb = true ∧
      Effect env svc.accounts s cmd (serviceStep env svc ev).1.accounts := by
  cases ev with
  | opened handle slot =>
    rw [serviceStep]
    split_ifs <;> exact .inl rfl
  | closed handle => exact .inl rfl
  | command handle cmd now =>
    rw [serviceStep]
    rcases processLine_cases env svc handle cmd now with h | ⟨s, hs, haccepts, h⟩
    · exact .inl (by rw [h])
    · rw [h, Service.setSession]
      rcases commandDispatch_effect env svc handle s cmd now with hsame | ⟨haccess, heffect⟩
      · exact .inl hsame
      · exact .inr ⟨handle, cmd, now, s, rfl, hs, haccepts, haccess, heffect⟩

/-- Where a session after a step comes from; at its end a session is marked as logged out. -/
lemma serviceStep_session {ev : ServiceEvent} {p : ℕ × Session} (hp : p ∈ (serviceStep env svc ev).1.sessions) :
    p ∈ svc.sessions ∨ (∃ slot, ev = .opened p.1 slot ∧ p.2 = sessionOpen env.auth slot) ∨
      ∃ cmd now s, ev = .command p.1 cmd now ∧ (p.1, s) ∈ svc.sessions ∧
        p.2 = sessionAfter (commandDispatch env svc p.1 s cmd now) ∧
        (serviceStep env svc ev).1.accounts = (commandDispatch env svc p.1 s cmd now).accounts := by
  cases ev with
  | opened handle slot =>
    rw [serviceStep] at hp
    split_ifs at hp
    · exact .inl hp
    · rcases List.mem_cons.mp hp with rfl | hp
      · exact .inr (.inl ⟨slot, rfl, rfl⟩)
      · exact .inl hp
  | closed handle => exact .inl (List.mem_filter.mp hp).1
  | command handle cmd now =>
    rw [serviceStep] at hp ⊢
    rcases processLine_cases env svc handle cmd now with h | ⟨s, hs, -, h⟩
    · rw [h] at hp
      exact .inl hp
    · rw [h] at hp ⊢
      rcases mem_setSession _ hp with hp | rfl
      · exact .inl hp
      · exact .inr (.inr ⟨cmd, now, s, rfl, mem_of_session svc hs, rfl, rfl⟩)

@[simp] lemma sessionAfter_userId (r : CmdResult) : (sessionAfter r).userId = r.session.userId := by
  rw [sessionAfter]
  split_ifs <;> rfl

@[simp] lemma sessionAfter_level (r : CmdResult) : (sessionAfter r).level = r.session.level := by
  rw [sessionAfter]
  split_ifs <;> rfl

end Steps

end HyBBX.Command
