import HyBBX.Command.CommandEffects
import HyBBX.Mail.Inbox
import HyBBX.Command.SysopKept
import HyBBX.Mail.Bound

/-! Sessions at work on their mail, and a record of whom each message was delivered to. -/

namespace HyBBX.Command

open HyBBX.Core HyBBX.Storage HyBBX.Config Lib Lib.Bytes Lib.Text
open Mail hiding UserRecord userNameMax

/-- The directory of an inbox is named after the user, not after the account's id. -/
def inboxName (username : Bytes) : Bytes := usernameNormalize (strlcpy Mail.userNameMax username)

/-- The account as a delivery sees it; no username of the store has a line break. -/
def mailUser (u : UserRecord) : Except HybbxResult Mail.UserRecord :=
  if h : nl ∉ u.username.text then .ok ⟨u.username.text, u.level = .guest, u.active, u.username.fits, h,
    u.username.string⟩
  else .error .errInvalid

def recipientOf (acc : Accounts) (toUser : Bytes) : Except HybbxResult Mail.UserRecord :=
  (acc.resolveUser toUser).bind mailUser

/-- A message and the account it was resolved to when it was delivered. -/
structure DeliveryRecord where
  id : ℕ
  recipient : UserRecord

/-- The service with its mail; the deliveries so far, the last one first, are only kept to speak about them. -/
structure PostOffice where
  service : Service
  mail : MailState
  delivered : List DeliveryRecord

/-- A delivery is the command of a user, or one of the notices to the staff at a registration. -/
inductive PostEvent
  | service (ev : ServiceEvent)
  | deliver (letter : Letter) (toUser : Bytes) (now : Moment) (order : DirOrder)
  | read (handle listIndex : ℕ) (order : DirOrder)
  | deleteRange (handle first last : ℕ) (order : DirOrder)

section Steps

variable (env : CommandEnv) (cfg : MailConfig)

/-- The inbox as a session can list it, and read it message by message. -/
def listInbox (mail : MailState) (s : Session) (order : DirOrder) : Except HybbxResult (List MailEntry) :=
  if s.isGuest then .error .errDenied
  else if cfg.enabled = false then .error .errUnsupported
  else (mailUserInboxPath s.username).map fun inbox => loadInbox (order.list (mail.inbox inbox)) mailMaxMessages

/-- A command of a session on its own mail. -/
def ownMail (st : PostOffice) (handle : ℕ) (call : Bytes → Except HybbxResult MailState) : PostOffice :=
  match st.service.session handle with
  | none => st
  | some s =>
    if s.acceptsInput = false ∨ s.isGuest then st
    else match call s.username with
      | .ok mail => { st with mail := mail }
      | .error _ => st

def deliverMail (st : PostOffice) (letter : Letter) (toUser : Bytes) (now : Moment) (order : DirOrder) : PostOffice :=
  match st.service.accounts.resolveUser toUser,
    mailDeliver cfg (recipientOf st.service.accounts) st.mail letter toUser now order with
  | .ok u, .ok mail => { st with mail := mail, delivered := ⟨mailNextId st.mail, u⟩ :: st.delivered }
  | _, _ => st

def postStep (st : PostOffice) : PostEvent → PostOffice × List Empty
  | .service ev => ({ st with service := (serviceStep env st.service ev).1 }, [])
  | .deliver letter toUser now order => (deliverMail cfg st letter toUser now order, [])
  | .read handle listIndex order =>
    (ownMail st handle fun username => mailRead cfg st.mail username listIndex order, [])
  | .deleteRange handle first last order =>
    (ownMail st handle fun username => mailDeleteRange cfg st.mail username first last order, [])

def PostOffice.start (acc : Accounts) : PostOffice := ⟨.start acc, .start, []⟩

def postRun (acc : Accounts) (evs : List PostEvent) : PostOffice :=
  (Transducer.run (postStep env cfg) (.start acc) evs).1

end Steps

/-- The delivery that a message in an inbox came with. -/
def PostOffice.origin (st : PostOffice) (inbox : Bytes) (id : ℕ) : Option DeliveryRecord :=
  st.delivered.find? fun d => d.id = id ∧ inboxName d.recipient.username.text = inbox

/-- Whatever a logged-in session can list was delivered to the account of the session, and no account to come has the
id of a recipient so far. -/
structure MailPrivate (cfg : MailConfig) (st : PostOffice) : Prop where
  shown : ∀ handle s, st.service.session handle = some s → s.loggedIn = true → ∀ order entries,
    listInbox cfg st.mail s order = .ok entries → ∀ entry ∈ entries,
      ∃ d, st.origin (inboxName s.username) entry.id = some d ∧ d.recipient.id = s.userId
  later : ∀ d ∈ st.delivered, d.recipient.id ≤ st.service.accounts.counter

section Condition

/-- The registration that a command asks for. -/
def registrationOf (cmd : ParsedCommand) : Option UserRegistration :=
  match accountVerb cmd with
  | some .register => parseRegistration cmd.argv true
  | some .createuser => parseRegistration cmd.argv false
  | _ => none

/-- The registration that a session's command gets through to the store. -/
def registers (env : CommandEnv) (svc : Service) (handle : ℕ) (cmd : ParsedCommand) : Option UserRegistration :=
  match svc.session handle with
  | none => none
  | some s =>
    if s.acceptsInput && checkAccess env.registry s cmd.verb then
      (registrationOf cmd).filter fun reg => registrationValid reg env.auth.guestPrefix &&
        !svc.accounts.users.any (identityTaken reg.username.text reg.nickname.text)
    else none

def Session.readsMail (s : Session) (inbox : Bytes) : Bool := s.loggedIn && !s.isGuest && inboxName s.username = inbox

/-- A new account finds its inbox empty and no session that still reads it, and gets a new id. -/
def freshMailbox (st : PostOffice) (reg : UserRegistration) : Bool :=
  st.service.accounts.counter + 1 < 2 ^ 64 && st.mail.inbox (inboxName reg.username.text) = [] &&
    st.service.sessions.all fun p => !p.2.readsMail (inboxName reg.username.text)

def TakesFreshMailbox (env : CommandEnv) (st : PostOffice) : PostEvent → Prop
  | .service (.command handle cmd _) => (registers env st.service handle cmd).all (freshMailbox st) = true
  | _ => True

instance (env : CommandEnv) (st : PostOffice) (ev : PostEvent) : Decidable (TakesFreshMailbox env st ev) := by
  unfold TakesFreshMailbox
  split <;> infer_instance

end Condition

lemma cmdRegisterUser_cases (env : CommandEnv) (now : Int64) (acc : Accounts) (argv : List Bytes)
    (staffCreated : Bool) :
    (cmdRegisterUser env now acc argv staffCreated).2 = acc ∨
      ∃ reg, parseRegistration argv (!staffCreated) = some reg ∧
        (cmdRegisterUser env now acc argv staffCreated).2 =
          (acc.registerUser env.backend env.auth.guestPrefix now reg).2 := by
  rw [cmdRegisterUser]
  generalize (if staffCreated then 5 else 6) = least
  by_cases hargs : argv.length < least
  · rw [if_pos hargs]
    exact .inl rfl
  · rw [if_neg hargs]
    cases parseRegistration argv (!staffCreated) with
    | none => exact .inl rfl
    | some reg =>
      dsimp only
      split_ifs with hpass
      · exact .inl rfl
      · refine .inr ⟨reg, rfl, ?_⟩
        split <;> rename_i hr <;> rw [hr]

end HyBBX.Command

/-! Whose mail a session can see: an inbox has one owner until its username is registered again. -/

namespace HyBBX.Command

open HyBBX.Core HyBBX.Storage Lib Lib.Bytes Lib.Text Lib.Numeral
open Mail hiding UserRecord userNameMax

/-- An account of the store has this inbox and this id. -/
def Stored (acc : Accounts) (inbox : Bytes) (id : ℕ) : Prop :=
  ∃ u ∈ acc.users, inboxName u.username.text = inbox ∧ u.id = id

/-- A session under this user id reads the inbox. -/
def Reads (svc : Service) (inbox : Bytes) (id : ℕ) : Prop :=
  ∃ p ∈ svc.sessions, p.2.readsMail inbox = true ∧ p.2.userId = id

def Owns (svc : Service) (inbox : Bytes) (id : ℕ) : Prop := Stored svc.accounts inbox id ∨ Reads svc inbox id

section Names

lemma lower_lower (b : UInt8) : lower (lower b) = lower b := by
  rw [lower, lower]
  split_ifs with h hlow
  · have h1 := UInt8.le_iff_toNat_le.mp h.1
    have h2 := UInt8.le_iff_toNat_le.mp h.2
    have h3 := UInt8.le_iff_toNat_le.mp hlow.2
    rw [UInt8.toNat_add] at h3
    simp only [UInt8.toNat_ofNat] at h1 h2 h3
    omega
  · rfl
  · rfl

lemma inboxName_lower (name : CText userNameMax) : inboxName name.lower.text = inboxName name.text := by
  have htwice : lower ∘ lower = lower := funext lower_lower
  rw [inboxName, inboxName, usernameNormalize, usernameNormalize, CText.lower]
  dsimp only
  rw [strlcpy, strlcpy, ← List.map_take, List.map_map, htwice]

lemma inboxName_text (name : CText userNameMax) : inboxName name.text = name.text.map lower := by
  rw [inboxName, usernameNormalize]
  exact congrArg (List.map lower) (strlcpy_of_fits name.fits)

lemma readsMail_iff {s : Session} {inbox : Bytes} :
    s.readsMail inbox = true ↔ s.loggedIn = true ∧ s.isGuest = false ∧ inboxName s.username = inbox := by
  simp [Session.readsMail, and_assoc]

end Names

section Effects

variable {env : CommandEnv} {acc acc' : Accounts} {s : Session} {cmd : ParsedCommand} {inbox : Bytes} {id : ℕ}

lemma Change.username_kept {old new : UserRecord} (h : Change env acc s cmd old new) : new.username = old.username := by
  cases h <;> rfl

lemma Stored.before_update {old new : UserRecord} (hmem : old ∈ acc.users) (hc : Change env acc s cmd old new)
    (h : Stored (acc.updateUser new).2 inbox id) : Stored acc inbox id := by
  rcases updateUser_cases acc new with hsame | ⟨pre, first, post, husers, -, -, hresult⟩
  · rwa [hsame] at h
  · rw [hresult] at h
    obtain ⟨u, hu, hname, hid⟩ := h
    rcases List.mem_append.mp hu with hu | hu
    · exact ⟨u, by simp [husers, hu], hname, hid⟩
    · rcases List.mem_cons.mp hu with rfl | hu
      · refine ⟨old, hmem, ?_, hc.id_kept.symm.trans hid⟩
        rw [← hname, UserRecord.normalize]
        dsimp only
        rw [inboxName_lower, hc.username_kept]
      · exact ⟨u, by simp [husers, hu], hname, hid⟩

lemma Stored.before_delete {n : ℕ} (h : Stored (acc.deleteUser n).2 inbox id) : Stored acc inbox id := by
  rcases deleteUser_cases acc n with hsame | ⟨-, pre, first, post, husers, -, -, hresult⟩
  · rwa [hsame] at h
  · rw [hresult] at h
    obtain ⟨u, hu, hrest⟩ := h
    rcases List.mem_append.mp hu with hu | hu <;> exact ⟨u, by simp [husers, hu], hrest⟩

/-- The store has no inbox and id that it did not have before. -/
structure KeepsNames (acc acc' : Accounts) : Prop where
  stored : ∀ inbox id, Stored acc' inbox id → Stored acc inbox id
  counter : acc.counter ≤ acc'.counter

lemma KeepsNames.refl (acc : Accounts) : KeepsNames acc acc := ⟨fun _ _ h => h, le_rfl⟩

lemma KeepsNames.updated {old new : UserRecord} (hmem : old ∈ acc.users) (hc : Change env acc s cmd old new) :
    KeepsNames acc (acc.updateUser new).2 := by
  refine ⟨fun _ _ => Stored.before_update hmem hc, ?_⟩
  rcases updateUser_cases acc new with h | ⟨pre, first, post, -, -, -, h⟩ <;> rw [h]

lemma KeepsNames.deleted (acc : Accounts) (n : ℕ) : KeepsNames acc (acc.deleteUser n).2 := by
  refine ⟨fun _ _ => Stored.before_delete, ?_⟩
  rcases deleteUser_cases acc n with h | ⟨-, pre, first, post, -, -, -, h⟩ <;> rw [h]

lemma Effect.keepsNames (h : Effect env acc s cmd acc') (hregister : accountVerb cmd ≠ some .register)
    (hcreate : accountVerb cmd ≠ some .createuser) : KeepsNames acc acc' := by
  cases h with
  | same => exact .refl acc
  | registered now reg hverb => exact absurd hverb (not_or.mpr ⟨hregister, hcreate⟩)
  | changed hmem hc => exact .updated hmem hc
  | removed => exact .deleted acc _
  | left => exact .deleted acc _

end Effects

section Service

variable (env : CommandEnv) (svc : Service) (handle : ℕ) (s : Session) (cmd : ParsedCommand) (now : Int64)

/-- The accounts after a registration that a command asks for. -/
def Registered (acc' : Accounts) : Prop :=
  ∃ reg, registrationOf cmd = some reg ∧
    acc' = (svc.accounts.registerUser env.backend env.auth.guestPrefix now reg).2

lemma cmdRegisterUser_stored {staffCreated : Bool}
    (hasks : registrationOf cmd = parseRegistration cmd.argv (!staffCreated)) :
    KeepsNames svc.accounts (cmdRegisterUser env now svc.accounts cmd.argv staffCreated).2 ∨
      Registered env svc cmd now (cmdRegisterUser env now svc.accounts cmd.argv staffCreated).2 := by
  rcases cmdRegisterUser_cases env now svc.accounts cmd.argv staffCreated with hsame | ⟨reg, hreg, hresult⟩
  · rw [hsame]
    exact .inl (.refl _)
  · exact .inr ⟨reg, hasks.trans hreg, hresult⟩

lemma runVerb_stored {verb : AccountVerb} (hverb : accountVerb cmd = some verb) :
    KeepsNames svc.accounts (runVerb env svc handle s cmd now verb).accounts ∨
      Registered env svc cmd now (runVerb env svc handle s cmd now verb).accounts := by
  by_cases hregister : verb = .register
  · subst hregister
    rw [runVerb, cmdRegister]
    split_ifs
    · exact .inl (.refl _)
    · exact cmdRegisterUser_stored env svc cmd now (by rw [registrationOf, hverb]; rfl)
  · by_cases hcreate : verb = .createuser
    · subst hcreate
      exact cmdRegisterUser_stored env svc cmd now (by rw [registrationOf, hverb]; rfl)
    · refine .inl ((runVerb_effect env svc handle s cmd now hverb).keepsNames ?_ ?_) <;> rw [hverb] <;> simpa

lemma commandDispatch_stored : KeepsNames svc.accounts (commandDispatch env svc handle s cmd now).accounts ∨
    checkAccess env.registry s cmd.verb = true ∧
      Registered env svc cmd now (commandDispatch env svc handle s cmd now).accounts := by
  rw [commandDispatch]
  cases hverb : accountVerb cmd with
  | none => split_ifs <;> exact .inl (.refl _)
  | some verb =>
    dsimp only
    split_ifs with hhelp haccess
    · exact .inl (.refl _)
    · exact .inl (.refl _)
    · exact (runVerb_stored env svc handle s cmd now hverb).imp_right fun h => ⟨by simpa using haccess, h⟩

/-- A session after a command reads what it read before, or the inbox of the account it has logged in to. -/
lemma commandDispatch_reads {inbox : Bytes}
    (h : (sessionAfter (commandDispatch env svc handle s cmd now)).readsMail inbox = true) :
    (s.readsMail inbox = true ∧ (commandDispatch env svc handle s cmd now).session.userId = s.userId) ∨
      Stored svc.accounts inbox (commandDispatch env svc handle s cmd now).session.userId := by
  have hreads : (commandDispatch env svc handle s cmd now).session.readsMail inbox = true := by
    rw [sessionAfter] at h
    split_ifs at h
    · simp [Session.readsMail] at h
    · exact h
  rcases commandDispatch_session env svc handle s cmd now with hkeep | ⟨-, u, hu, -, -, hswitch⟩
  · rw [hkeep] at hreads ⊢
    exact .inl ⟨hreads, rfl⟩
  · rw [hswitch] at hreads ⊢
    exact .inr ⟨u, hu, (readsMail_iff.mp hreads).2.2, rfl⟩

lemma Reads.before {ev : ServiceEvent} {inbox : Bytes} {id : ℕ} (h : Reads (serviceStep env svc ev).1 inbox id) :
    Owns svc inbox id := by
  obtain ⟨p, hp, hreads, rfl⟩ := h
  rcases serviceStep_session env svc hp with hp | ⟨slot, -, hopen⟩ | ⟨cmd, now, s, -, hs, hafter, -⟩
  · exact .inr ⟨p, hp, hreads, rfl⟩
  · rw [hopen, sessionOpen] at hreads
    split_ifs at hreads <;> cases hreads
  · rw [hafter] at hreads ⊢
    rw [sessionAfter_userId]
    rcases commandDispatch_reads env svc p.1 s cmd now hreads with ⟨hold, hid⟩ | hstored
    · exact .inr ⟨_, hs, hold, hid.symm⟩
    · exact .inl hstored

lemma registerUser_refused {acc : Accounts} {reg : UserRegistration}
    (h : (registrationValid reg env.auth.guestPrefix &&
      !acc.users.any (identityTaken reg.username.text reg.nickname.text)) = false) :
    (acc.registerUser env.backend env.auth.guestPrefix now reg).2 = acc := by
  rw [Accounts.registerUser]
  split_ifs with hvalid htaken
  · rfl
  · rfl
  · simp [hvalid, htaken] at h

/-- The accounts after a step of the service. -/
lemma serviceStep_stored (ev : ServiceEvent) : KeepsNames svc.accounts (serviceStep env svc ev).1.accounts ∨
    ∃ handle cmd now reg, ev = .command handle cmd now ∧ registers env svc handle cmd = some reg ∧
      (serviceStep env svc ev).1.accounts =
        (svc.accounts.registerUser env.backend env.auth.guestPrefix now reg).2 := by
  cases ev with
  | opened handle slot =>
    rw [serviceStep]
    split_ifs <;> exact .inl (.refl _)
  | closed handle => exact .inl (.refl _)
  | command handle cmd now =>
    rw [serviceStep]
    rcases processLine_cases env svc handle cmd now with h | ⟨s, hs, haccepts, h⟩
    · rw [h]
      exact .inl (.refl _)
    · rw [h, Service.setSession]
      rcases commandDispatch_stored env svc handle s cmd now with hkeeps | ⟨haccess, reg, hreg, hresult⟩
      · exact .inl hkeeps
      · cases hgoes : registrationValid reg env.auth.guestPrefix &&
            !svc.accounts.users.any (identityTaken reg.username.text reg.nickname.text) with
        | false =>
          rw [registerUser_refused env now hgoes] at hresult
          dsimp only
          rw [hresult]
          exact .inl (.refl _)
        | true =>
          refine .inr ⟨handle, cmd, now, reg, rfl, ?_, hresult⟩
          rw [registers, hs]
          dsimp only
          rw [haccepts, haccess, hreg, Option.filter_some, hgoes]
          rfl

end Service

section Mail

variable {cfg : MailConfig} {acc : Accounts} {mail mail' : MailState}

lemma mailUserInboxPath_ok {username inbox : Bytes} (h : mailUserInboxPath username = .ok inbox) :
    inbox = inboxName username := by
  rw [mailUserInboxPath] at h
  split_ifs at h
  exact (Except.ok.inj h).symm

lemma map_ok {α β : Type} {x : Except HybbxResult α} {f : α → β} {b : β} (h : x.map f = .ok b) :
    ∃ a, x = .ok a ∧ f a = b := by
  cases x with
  | error rc => cases h
  | ok a => exact ⟨a, rfl, Except.ok.inj h⟩

lemma mailRecipient_inbox {letter : Letter} {toUser : Bytes} {u : UserRecord} {r : Mail.UserRecord × Bytes}
    (hu : acc.resolveUser toUser = .ok u) (h : mailRecipient cfg (recipientOf acc) letter toUser = .ok r) :
    r.2 = inboxName u.username.text := by
  rw [mailRecipient, recipientOf, hu] at h
  split_ifs at h
  rw [Except.bind, mailUser] at h
  split_ifs at h with hline
  dsimp only at h
  split_ifs at h
  obtain ⟨inbox, hpath, rfl⟩ := map_ok h
  exact mailUserInboxPath_ok hpath

lemma mailDeliver_ok {letter : Letter} {toUser : Bytes} {now : Moment} {order : DirOrder} {u : UserRecord}
    (hu : acc.resolveUser toUser = .ok u)
    (h : mailDeliver cfg (recipientOf acc) mail letter toUser now order = .ok mail') :
    ∃ file, file.name = msgFileName (mailNextId mail) ∧ mail'.inbox =
      Function.update mail.inbox (inboxName u.username.text)
        (mailTrimInbox cfg.maxMessages order ((mail.inbox (inboxName u.username.text)).write file)) := by
  rw [mailDeliver] at h
  obtain ⟨r, hr, rfl⟩ := map_ok h
  exact ⟨freshFile mail letter r.1 now, rfl, by rw [← mailRecipient_inbox hu hr]⟩

/-- Every file of an inbox was there before, under its name. -/
def OnlyOld (mail mail' : MailState) : Prop :=
  ∀ inbox, ∀ file ∈ mail'.inbox inbox, ∃ old ∈ mail.inbox inbox, old.name = file.name

lemma OnlyOld.refl (mail : MailState) : OnlyOld mail mail := fun _ file hf => ⟨file, hf, rfl⟩

lemma OnlyOld.update {inbox : Bytes} {dir : Dir} (h : ∀ file ∈ dir, ∃ old ∈ mail.inbox inbox, old.name = file.name) :
    OnlyOld mail { mail with inbox := Function.update mail.inbox inbox dir } := by
  intro other file hf
  dsimp only at hf
  rw [Function.update_apply] at hf
  split_ifs at hf with heq
  · exact heq ▸ h file hf
  · exact ⟨file, hf, rfl⟩

lemma mailRead_onlyOld {username : Bytes} {listIndex : ℕ} {order : DirOrder}
    (h : mailRead cfg mail username listIndex order = .ok mail') : OnlyOld mail mail' := by
  rw [mailRead] at h
  split at h
  · cases h
  · obtain ⟨inbox, -, rfl⟩ := map_ok h
    dsimp only
    split_ifs
    · exact .refl mail
    split
    · exact .refl mail
    · refine OnlyOld.update fun file hf => ?_
      obtain ⟨old, hold, rfl⟩ := List.mem_map.mp hf
      refine ⟨old, hold, ?_⟩
      split_ifs <;> rfl

lemma mailDeleteRange_onlyOld {username : Bytes} {first last : ℕ} {order : DirOrder}
    (h : mailDeleteRange cfg mail username first last order = .ok mail') : OnlyOld mail mail' := by
  rw [mailDeleteRange] at h
  dsimp only at h
  generalize (if last = 0 then first else last) = upto at h
  split at h
  · cases h
  split at h
  · exact Except.ok.inj h ▸ .refl mail
  · obtain ⟨inbox, -, rfl⟩ := map_ok h
    split_ifs
    · exact .refl mail
    · refine OnlyOld.update fun file hf => ?_
      rw [foldl_remove] at hf
      exact ⟨file, (List.mem_filter.mp hf).1, rfl⟩

lemma ownMail_cases (st : PostOffice) (handle : ℕ) (call : Bytes → Except HybbxResult MailState) :
    ownMail st handle call = st ∨
      ∃ username mail, call username = .ok mail ∧ ownMail st handle call = { st with mail := mail } := by
  rw [ownMail]
  cases st.service.session handle with
  | none => exact .inl rfl
  | some s =>
    dsimp only
    split_ifs
    · exact .inl rfl
    · cases hc : call s.username with
      | error rc => exact .inl rfl
      | ok mail => exact .inr ⟨s.username, mail, hc, rfl⟩

end Mail

section Kept

variable {env : CommandEnv} {cfg : MailConfig} {st : PostOffice}

/-- What a run keeps: an account shares its inbox with nobody, and a message in an inbox was delivered to its owner. -/
structure Sealed (st : PostOffice) : Prop where
  one : ∀ inbox id id', Stored st.service.accounts inbox id → Owns st.service inbox id' → id' = id
  known : ∀ inbox id, Stored st.service.accounts inbox id → id ≤ st.service.accounts.counter
  later : ∀ d ∈ st.delivered, d.recipient.id ≤ st.service.accounts.counter
  files : ∀ inbox, ∀ file ∈ st.mail.inbox inbox, ∃ id d, id ≤ ulongMax ∧ file.name = msgFileName id ∧
    st.origin inbox id = some d ∧ ∀ id', Owns st.service inbox id' → id' = d.recipient.id

lemma Sealed.same_names (h : Sealed st) {svc : Service} (hkeeps : KeepsNames st.service.accounts svc.accounts)
    (hreads : ∀ inbox id, Reads svc inbox id → Owns st.service inbox id) : Sealed { st with service := svc } := by
  have howns : ∀ inbox id, Owns svc inbox id → Owns st.service inbox id := fun inbox id ho =>
    ho.elim (fun hs => .inl (hkeeps.stored inbox id hs)) (hreads inbox id)
  refine ⟨fun inbox id id' hs ho => h.one inbox id id' (hkeeps.stored _ _ hs) (howns _ _ ho), fun inbox id hs => ?_,
    fun d hd => (h.later d hd).trans hkeeps.counter, fun inbox file hf => ?_⟩
  · exact (h.known inbox id (hkeeps.stored _ _ hs)).trans hkeeps.counter
  · obtain ⟨id, d, hid, hname, horigin, howner⟩ := h.files inbox file hf
    exact ⟨id, d, hid, hname, horigin, fun id' ho => howner id' (howns _ _ ho)⟩

/-- A new account takes an inbox that nobody owns. -/
lemma Sealed.new_name (h : Sealed st) {svc : Service} {u : UserRecord}
    (hfree : ∀ id, ¬Owns st.service (inboxName u.username.text) id)
    (hempty : st.mail.inbox (inboxName u.username.text) = [])
    (haccounts : svc.accounts = ⟨st.service.accounts.users ++ [u], u.id⟩) (hid : st.service.accounts.counter < u.id)
    (hreads : ∀ inbox id, Reads svc inbox id → Owns st.service inbox id) : Sealed { st with service := svc } := by
  have hstored : ∀ inbox id, Stored svc.accounts inbox id →
      Stored st.service.accounts inbox id ∨ inboxName u.username.text = inbox ∧ u.id = id := by
    rintro inbox id ⟨v, hv, hrest⟩
    rw [haccounts, List.mem_append, List.mem_singleton] at hv
    rcases hv with hv | rfl
    · exact .inl ⟨v, hv, hrest⟩
    · exact .inr hrest
  have howns : ∀ inbox id, Owns svc inbox id →
      Owns st.service inbox id ∨ inboxName u.username.text = inbox ∧ u.id = id := fun inbox id ho =>
    ho.elim (fun hs => (hstored inbox id hs).imp_left .inl) fun hr => .inl (hreads inbox id hr)
  refine ⟨fun inbox id id' hs ho => ?_, fun inbox id hs => ?_, fun d hd => ?_, fun inbox file hf => ?_⟩
  · rcases hstored inbox id hs with hs | ⟨rfl, rfl⟩
    · rcases howns inbox id' ho with ho | ⟨rfl, rfl⟩
      · exact h.one inbox id id' hs ho
      · exact absurd (.inl hs) (hfree id)
    · rcases howns _ id' ho with ho | ⟨-, rfl⟩
      · exact absurd ho (hfree id')
      · rfl
  · rw [haccounts]
    rcases hstored inbox id hs with hs | ⟨-, rfl⟩
    · exact (h.known inbox id hs).trans hid.le
    · exact le_rfl
  · rw [haccounts]
    exact (h.later d hd).trans hid.le
  · obtain ⟨id, d, hle, hname, horigin, howner⟩ := h.files inbox file hf
    refine ⟨id, d, hle, hname, horigin, fun id' ho => ?_⟩
    rcases howns inbox id' ho with ho | ⟨rfl, -⟩
    · exact howner id' ho
    · rw [hempty] at hf
      cases hf

lemma registers_some {svc : Service} {handle : ℕ} {cmd : ParsedCommand} {reg : UserRegistration}
    (h : registers env svc handle cmd = some reg) :
    ∀ u ∈ svc.accounts.users, inboxName u.username.text ≠ inboxName reg.username.text := by
  rw [registers] at h
  split at h
  · cases h
  · split_ifs at h
    have hgoes := (Option.filter_eq_some_iff.mp h).2
    rw [Bool.and_eq_true, Bool.not_eq_true', List.any_eq_false] at hgoes
    intro u hu hname
    refine hgoes.2 u hu ?_
    rw [inboxName_text, inboxName_text] at hname
    rw [identityTaken, strIeq, decide_eq_true hname]
    rfl

lemma Sealed.service (h : Sealed st) {ev : ServiceEvent} (hfresh : TakesFreshMailbox env st (.service ev)) :
    Sealed { st with service := (serviceStep env st.service ev).1 } := by
  have hreads : ∀ inbox id, Reads (serviceStep env st.service ev).1 inbox id → Owns st.service inbox id :=
    fun _ _ => Reads.before env st.service
  rcases serviceStep_stored env st.service ev with hkeeps | ⟨handle, cmd, now, reg, rfl, hreg, hresult⟩
  · exact h.same_names hkeeps hreads
  · rw [TakesFreshMailbox, hreg, Option.all_some, freshMailbox, Bool.and_eq_true, Bool.and_eq_true,
      decide_eq_true_eq, decide_eq_true_eq, List.all_eq_true] at hfresh
    obtain ⟨⟨hcounter, hempty⟩, hquiet⟩ := hfresh
    have hnext : st.service.accounts.nextId.val = st.service.accounts.counter + 1 := Nat.mod_eq_of_lt hcounter
    have hfree : ∀ id, ¬Owns st.service (inboxName reg.username.text) id := by
      rintro id (⟨u, hu, hname, -⟩ | ⟨p, hp, hreadsMail, -⟩)
      · exact registers_some hreg u hu hname
      · simpa [hreadsMail] using hquiet p hp
    rcases registerUser_cases st.service.accounts env.backend env.auth.guestPrefix now reg with hr | hr | ⟨password, hr⟩
    · exact h.same_names (hresult.trans hr ▸ .refl _) hreads
    · refine h.same_names ?_ hreads
      rw [hresult, hr]
      exact ⟨fun _ _ hs => hs, by dsimp only; omega⟩
    · rw [hr] at hresult
      have hlower := inboxName_lower reg.username
      refine h.new_name ?_ ?_ hresult ?_ hreads
      · intro id
        exact hlower ▸ hfree id
      · exact hlower ▸ hempty
      · rw [newUser]
        dsimp only
        omega

lemma Sealed.only_old (h : Sealed st) {mail : MailState} (hold : OnlyOld st.mail mail) :
    Sealed { st with mail := mail } := by
  refine ⟨h.one, h.known, h.later, fun inbox file hf => ?_⟩
  obtain ⟨old, hmem, hname⟩ := hold inbox file hf
  rw [← hname]
  exact h.files inbox old hmem

lemma Sealed.own_mail (h : Sealed st) (handle : ℕ) {call : Bytes → Except HybbxResult MailState}
    (hcall : ∀ username mail, call username = .ok mail → OnlyOld st.mail mail) : Sealed (ownMail st handle call) := by
  rcases ownMail_cases st handle call with hsame | ⟨username, mail, hc, hnext⟩
  · rw [hsame]
    exact h
  · rw [hnext]
    exact h.only_old (hcall username mail hc)

/-- A new message comes into the inbox of an account, which is its only owner. -/
lemma Sealed.deliver (h : Sealed st) (letter : Letter) (toUser : Bytes) (now : Moment) (order : DirOrder) :
    Sealed (deliverMail cfg st letter toUser now order) := by
  rw [deliverMail]
  cases hu : st.service.accounts.resolveUser toUser with
  | error rc => exact h
  | ok u =>
    cases hd : mailDeliver cfg (recipientOf st.service.accounts) st.mail letter toUser now order with
    | error rc => exact h
    | ok mail =>
      dsimp only
      have hstored : Stored st.service.accounts (inboxName u.username.text) u.id := ⟨u, mem_of_resolveUser hu, rfl, rfl⟩
      obtain ⟨fresh, hfresh, hinbox⟩ := mailDeliver_ok hu hd
      refine ⟨h.one, h.known, fun d hd => ?_, fun inbox file hf => ?_⟩
      · rcases List.mem_cons.mp hd with rfl | hd
        · exact h.known _ _ hstored
        · exact h.later d hd
      · dsimp only at hf
        rw [hinbox, Function.update_apply] at hf
        by_cases hname : inbox = inboxName u.username.text
        · subst hname
          rw [if_pos rfl] at hf
          rcases List.mem_append.mp ((mailTrimInbox_sublist _ _ _).subset hf) with hf | hf
          · obtain ⟨hmem, hne⟩ := List.mem_filter.mp hf
            obtain ⟨id, d, hid, hfile, horigin, howner⟩ := h.files _ file hmem
            refine ⟨id, d, hid, hfile, ?_, howner⟩
            have hother : mailNextId st.mail ≠ id := by
              rintro rfl
              simp [hfile, hfresh] at hne
            rw [PostOffice.origin, List.find?_cons_of_neg (by simp [hother])]
            exact horigin
          · rw [List.mem_singleton] at hf
            subst hf
            refine ⟨mailNextId st.mail, ⟨mailNextId st.mail, u⟩, mailNextId_le _, hfresh, ?_,
              fun id' => h.one _ _ id' hstored⟩
            rw [PostOffice.origin, List.find?_cons_of_pos (by simp)]
        · rw [if_neg hname] at hf
          obtain ⟨id, d, hid, hfile, horigin, howner⟩ := h.files _ file hf
          refine ⟨id, d, hid, hfile, ?_, howner⟩
          rw [PostOffice.origin, List.find?_cons_of_neg (by simp [Ne.symm hname])]
          exact horigin

lemma Sealed.step (h : Sealed st) {ev : PostEvent} (hfresh : TakesFreshMailbox env st ev) :
    Sealed (postStep env cfg st ev).1 := by
  cases ev with
  | service ev => exact h.service hfresh
  | deliver letter toUser now order => exact h.deliver letter toUser now order
  | read handle listIndex order =>
    exact @Sealed.own_mail st h handle (fun username => mailRead cfg st.mail username listIndex order)
      fun _ _ hcall => mailRead_onlyOld hcall
  | deleteRange handle first last order =>
    exact @Sealed.own_mail st h handle (fun username => mailDeleteRange cfg st.mail username first last order)
      fun _ _ hcall => mailDeleteRange_onlyOld hcall

end Kept

section Run

variable (env : CommandEnv) (cfg : MailConfig)

/-- No two accounts share a username, and the next id is above all others. -/
structure StartsApart (acc : Accounts) : Prop where
  names : ∀ u ∈ acc.users, ∀ v ∈ acc.users, strIeq u.username.text v.username.text = true → u.id = v.id
  ids : ∀ u ∈ acc.users, u.id ≤ acc.counter

lemma sealed_start {acc : Accounts} (h : StartsApart acc) : Sealed (.start acc) := by
  refine ⟨?_, ?_, fun d hd => (nomatch hd), fun inbox file hf => (nomatch hf)⟩
  · rintro inbox id id' ⟨u, hu, hname, rfl⟩ (⟨v, hv, hname', rfl⟩ | ⟨p, hp, -⟩)
    · refine h.names v hv u hu ?_
      rw [strIeq_iff, ← inboxName_text, ← inboxName_text, hname, hname']
    · cases hp
  · rintro inbox id ⟨u, hu, -, rfl⟩
    exact h.ids u hu

lemma headerLine_id (entry : MailEntry) (line : Bytes) : (headerLine entry line).id = entry.id := by
  rw [headerLine]
  split_ifs <;> rfl

lemma readHeader_id (entry : MailEntry) (lines : List Bytes) : (readHeader entry lines).id = entry.id := by
  induction lines generalizing entry with
  | nil => rfl
  | cons line rest ih =>
    rw [readHeader]
    split_ifs
    · rfl
    · rw [ih, headerLine_id]

lemma loadEntry_id {file : MsgFile} {entry : MailEntry} {id : ℕ} (hid : id ≤ ulongMax)
    (hname : file.name = msgFileName id)
    (h : loadEntry file = some entry) : entry.id = id := by
  rw [loadEntry, hname, parseMsgFilename_msgFileName hid, Option.map_some] at h
  rw [← Option.some.inj h, readHeader_id]

lemma mem_loadInbox {listing : Dir} {maxEntries : ℕ} {entry : MailEntry} (h : entry ∈ loadInbox listing maxEntries) :
    ∃ file ∈ listing, loadEntry file = some entry := by
  rw [loadInbox, List.mem_insertionSort] at h
  exact List.mem_filterMap.mp (List.mem_of_mem_take h)

lemma Sealed.private {st : PostOffice} (h : Sealed st) : MailPrivate cfg st := by
  refine ⟨fun handle s hs hlogged order entries hlist entry hentry => ?_, h.later⟩
  rw [listInbox] at hlist
  split_ifs at hlist with hguest henabled
  obtain ⟨inbox, hpath, rfl⟩ := map_ok hlist
  obtain rfl := mailUserInboxPath_ok hpath
  obtain ⟨file, hf, hload⟩ := mem_loadInbox hentry
  obtain ⟨id, d, hid, hname, horigin, howner⟩ := h.files _ file ((order.perm _).mem_iff.mp hf)
  refine ⟨d, loadEntry_id hid hname hload ▸ horigin, (howner s.userId (.inr ⟨_, mem_of_session _ hs, ?_, rfl⟩)).symm⟩
  exact readsMail_iff.mpr ⟨hlogged, by simpa using hguest, rfl⟩

end Run

section Namesake

def homeRegistryFile : Bytes :=
  ofString "commands:\n  login:\n    min: Guest\n  register:\n    min: Guest\n" ++
    ofString "  activate:\n    min: Admin\n  deleteme:\n    min: User\n"

def homeEnv : CommandEnv := { openEnv with registry := (parseCommandsYaml homeRegistryFile).getD .empty }

def asListed : DirOrder := .asFound

def annasLetter : Letter := ⟨ofString "anna", ofString "hi", ofString "73",
    by decide, by decide, hi_line, regards_string⟩

def mailToBert : PostEvent := .deliver annasLetter (ofString "bert") ⟨0, Nat.zero_le _⟩ asListed

def typed (handle : ℕ) (verb : String) (args : List String) : PostEvent :=
  .service (.command handle (commandOf verb args) 0)

def bertReads : List PostEvent :=
  [mailToBert, .service (.opened 0 ⟨1, first_issued⟩), typed 0 "login" ["bert", "password"], .read 0 1 asListed]

/-- Bert leaves, and somebody else registers as Bert. -/
def bertReplaced : List PostEvent :=
  bertReads ++ [typed 0 "deleteme" ["yes"], .service (.opened 1 ⟨2, second_issued⟩),
    typed 1 "register" ["bert", "Bert", "Lee", "Austria", "Graz", "bert@example.org", "password"],
    .service (.opened 2 ⟨3, by decide⟩), typed 2 "login" ["sysop", "password"], typed 2 "activate" ["bert"],
    typed 1 "login" ["bert", "password"]]

def newBert : Session := ⟨some .user, ofString "bert", 4, true, false⟩

def annasEntry : MailEntry := ⟨1, ofString "anna", ofString "hi", 0, true⟩

lemma staff_startsApart : StartsApart staffAccounts := ⟨by decide +kernel, by decide +kernel⟩

end Namesake

end HyBBX.Command
