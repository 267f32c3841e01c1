import HyBBX.SessionCore.Lines

/-! Sessions that differ in nothing that a command looks at are treated alike. -/

namespace HyBBX.SessionCore

open HyBBX.Core Lib Lib.Bytes Lib.Text
open Command (Area ParsedCommand ConferenceInvite commandClassify commandParse)
open Session (InputSession LineWork EchoResult submit handleUserByte handleBytes handleInput)
open Storage (UserRecord)

variable {ω : Type*}

/-- What commands look at. -/
structure SameSeen (s s' : CoreSession ω) : Prop where
  loggedIn : s'.loggedIn = s.loggedIn
  loginPrompt : s'.loginPrompt = s.loginPrompt
  user : s'.rest.user = s.rest.user
  desk : s'.rest.desk = s.rest.desk
  inputEcho : s'.rest.editor.around.inputEcho = s.rest.editor.around.inputEcho
  world : s'.rest.world = s.rest.world

lemma SameSeen.refl (s : CoreSession ω) : SameSeen s s := ⟨rfl, rfl, rfl, rfl, rfl, rfl⟩

variable (svc : ServiceCalls ω) (R : CoreSession ω → CoreSession ω → Prop)

/-- Texts, areas, the rest of the service and the other commands keep the relation. -/
structure TreatsAlike : Prop where
  seen : ∀ {s s'}, R s s' → SameSeen s s'
  write : ∀ {s s'} text, R s s' → R (write s text) (write s' text)
  setDesk : ∀ {s s'} desk, R s s' → R (setDesk s desk) (setDesk s' desk)
  setWorld : ∀ {s s'} world, R s s' → R (setWorld s world) (setWorld s' world)
  other : ∀ {s s'} cmd, R s s' → R (cmdOther svc s cmd).2 (cmdOther svc s' cmd).2

/-- So do a login and a logout. -/
structure TreatsAllAlike : Prop extends TreatsAlike svc R where
  switchUser : ∀ {s s'} user, R s s' → R (switchUser svc s user).2 (switchUser svc s' user).2
  logout : ∀ {s s' : CoreSession ω}, R s s' → R { s with loggedIn := false } { s' with loggedIn := false }

def Answered (r r' : HybbxResult × CoreSession ω) : Prop := r'.1 = r.1 ∧ R r.2 r'.2

variable {svc R} {s s' : CoreSession ω}

section Seen

variable (h : SameSeen s s')

include h

lemma SameSeen.isGuest : s'.rest.isGuest = s.rest.isGuest :=
    by rw [Core.isGuest, Core.isGuest, Core.level, Core.level, h.user]

lemma SameSeen.displayName : s'.rest.displayName = s.rest.displayName :=
    by rw [Core.displayName, Core.displayName, h.user]

lemma SameSeen.acceptsInput : Session.acceptsInput s' = Session.acceptsInput s := by
  rw [Session.acceptsInput, Session.acceptsInput, h.loggedIn, h.loginPrompt]

lemma SameSeen.caller : caller s' = caller s := by
  rw [SessionCore.caller, SessionCore.caller, Core.level, Core.level, h.user, h.loggedIn, h.loginPrompt]

lemma SameSeen.denialText (verb : Bytes) : denialText s' verb = denialText s verb := by
  rw [SessionCore.denialText, SessionCore.denialText, h.isGuest, h.loggedIn, h.loginPrompt]

end Seen

section Commands

variable (h : TreatsAlike svc R) (hs : R s s')

include h hs

lemma writeLine_alike (text : String) : R (writeLine s text) (writeLine s' text) := h.write _ hs

omit hs in
lemma writes_alike (texts : List Bytes) {s s' : CoreSession ω} (hs : R s s') : R (texts.foldl write s)
    (texts.foldl write s') := by
  induction texts generalizing s s' with
  | nil => exact hs
  | cons text texts ih => exact ih (h.write text hs)

lemma showPrompt_alike : R (showPrompt svc s) (showPrompt svc s') := by
  rw [showPrompt, showPrompt, (h.seen hs).acceptsInput]
  split_ifs
  · exact hs
  · exact h.write _ hs

lemma emitArea_alike (before : Area) : R (emitArea svc s before) (emitArea svc s' before) := by
  rw [emitArea, emitArea, (h.seen hs).desk]
  split_ifs
  · exact hs
  · exact showPrompt_alike h (writeLine_alike h hs _)

lemma chatMaxNotice_alike (cfg : DeskConfig) : R (chatMaxNotice cfg s) (chatMaxNotice cfg s') := by
  rw [chatMaxNotice, chatMaxNotice, (h.seen hs).desk]
  split_ifs
  · exact hs
  · exact h.write _ hs

lemma cmdOther_alike (cmd : ParsedCommand) : Answered R (cmdOther svc s cmd) (cmdOther svc s' cmd) := by
  refine ⟨?_, h.other cmd hs⟩
  have hseen := h.seen hs
  rw [cmdOther, cmdOther, hseen.world, hseen.user, hseen.desk, hseen.inputEcho]

lemma cmdLeave_alike : Answered R (cmdLeave svc s) (cmdLeave svc s') := by
  rw [cmdLeave, cmdLeave, (h.seen hs).desk]
  exact ⟨rfl, emitArea_alike h (h.setDesk _ hs) _⟩

lemma cmdMain_alike : Answered R (cmdMain svc s) (cmdMain svc s') := by
  rw [cmdMain, cmdMain, (h.seen hs).desk]
  refine ⟨rfl, ?_⟩
  dsimp only
  split_ifs
  · exact h.setDesk _ hs
  · exact showPrompt_alike h (writeLine_alike h (h.setDesk _ hs) _)

lemma cmdProxychat_alike (argv : List Bytes) : Answered R (cmdProxychat svc s argv) (cmdProxychat svc s' argv) := by
  rw [cmdProxychat, cmdProxychat, (h.seen hs).isGuest, (h.seen hs).desk]
  split_ifs
  · exact ⟨rfl, writeLine_alike h hs _⟩
  · exact ⟨rfl, writeLine_alike h hs _⟩
  · generalize s.rest.desk.enterProxychat = r
    obtain ⟨rc, desk⟩ := r
    cases rc with
    | ok => exact ⟨rfl, h.write _ (h.setDesk desk hs)⟩
    | _ => exact ⟨rfl, h.setDesk desk hs⟩

lemma cmdChat_alike (argv : List Bytes) : Answered R (cmdChat svc s argv) (cmdChat svc s' argv) := by
  unfold cmdChat
  rw [(h.seen hs).isGuest]
  split_ifs
  · exact ⟨rfl, writeLine_alike h hs _⟩
  cases argv with
  | nil => exact cmdOther_alike h hs _
  | cons spec args =>
    dsimp only
    split_ifs
    · exact cmdProxychat_alike h hs _
    · exact cmdOther_alike h hs _
    cases chatResolveChannel svc.config spec with
    | error rc => cases rc <;> exact ⟨rfl, by first | exact writeLine_alike h hs _ | exact hs⟩
    | ok index =>
      dsimp only
      rw [(h.seen hs).desk]
      split_ifs
      · exact ⟨rfl, h.write _ hs⟩
      generalize s.rest.desk.joinChatChannel svc.config index = r
      obtain ⟨rc, desk⟩ := r
      cases rc with
      | ok => exact ⟨rfl, writeLine_alike h (h.write _ (h.setDesk desk (chatMaxNotice_alike h hs _))) _⟩
      | _ => exact ⟨rfl, h.setDesk desk hs⟩

lemma proxymailDone_alike : Answered R (proxymailDone svc s) (proxymailDone svc s') := by
  have hseen := h.seen hs
  rw [proxymailDone, proxymailDone, hseen.desk, hseen.world, hseen.displayName]
  split_ifs
  · exact ⟨rfl, writeLine_alike h hs _⟩
  generalize svc.proxymailDeliver s.rest.world s.rest.displayName s.rest.desk.proxymail = r
  obtain ⟨rc, world⟩ := r
  have hworld := h.setWorld world hs
  have hdesk := (h.seen hworld).desk
  dsimp only
  rw [hdesk]
  cases rc with
  | ok => exact ⟨rfl, showPrompt_alike h (h.setDesk _ (writeLine_alike h hworld _))⟩
  | errUnsupported => exact ⟨rfl, showPrompt_alike h (h.setDesk _ (writeLine_alike h hworld _))⟩
  | _ => exact ⟨rfl, writeLine_alike h hworld _⟩

lemma mailDone_alike : Answered R (mailDone svc s) (mailDone svc s') := by
  have hseen := h.seen hs
  rw [mailDone, mailDone, hseen.desk, hseen.world, hseen.displayName]
  split_ifs
  · exact ⟨rfl, writeLine_alike h hs _⟩
  generalize svc.mailDeliver s.rest.world s.rest.displayName s.rest.desk.mail = r
  obtain ⟨rc, world⟩ := r
  have hworld := h.setWorld world hs
  have hdesk := (h.seen hworld).desk
  dsimp only
  rw [hdesk]
  cases rc with
  | ok => exact ⟨rfl, showPrompt_alike h (h.setDesk _ (writeLine_alike h hworld _))⟩
  | _ => exact ⟨rfl, writeLine_alike h hworld _⟩

lemma cmdProxymail_alike (argv : List Bytes) : Answered R (cmdProxymail svc s argv) (cmdProxymail svc s' argv) := by
  have hdesk := (h.seen hs).desk
  unfold cmdProxymail
  rw [(h.seen hs).isGuest, hdesk]
  by_cases hguest : s.rest.isGuest = true
  · rw [if_pos hguest, if_pos hguest]
    exact ⟨rfl, writeLine_alike h hs _⟩
  rw [if_neg hguest, if_neg hguest]
  cases argv with
  | nil => exact cmdOther_alike h (h.setDesk _ hs) _
  | cons sub args =>
    dsimp only
    split_ifs
    · exact cmdOther_alike h (h.setDesk _ hs) _
    · exact cmdOther_alike h hs _
    · exact ⟨rfl, writeLine_alike h hs _⟩
    · generalize s.rest.desk.proxymailComposeStart svc.config _ _ = r
      obtain ⟨rc, desk⟩ := r
      cases rc with
      | ok => exact ⟨rfl, writeLine_alike h (h.setDesk desk hs) _⟩
      | errInvalid => exact ⟨rfl, writeLine_alike h (h.setDesk desk hs) _⟩
      | _ => exact ⟨rfl, h.setDesk desk hs⟩
    · exact proxymailDone_alike h hs
    · exact ⟨rfl, writeLine_alike h hs _⟩
    · exact ⟨rfl, writeLine_alike h (h.setDesk _ hs) _⟩
    · exact ⟨rfl, writeLine_alike h hs _⟩

lemma cmdMail_alike (argv : List Bytes) : Answered R (cmdMail svc s argv) (cmdMail svc s' argv) := by
  have hdesk := (h.seen hs).desk
  unfold cmdMail
  rw [(h.seen hs).isGuest, hdesk, (h.seen hs).world]
  by_cases hguest : s.rest.isGuest = true
  · rw [if_pos hguest, if_pos hguest]
    exact ⟨rfl, writeLine_alike h hs _⟩
  rw [if_neg hguest, if_neg hguest]
  cases argv with
  | nil => exact cmdOther_alike h hs _
  | cons sub args =>
    dsimp only
    split_ifs
    · exact cmdProxymail_alike h hs _
    · exact cmdOther_alike h hs _
    · exact ⟨rfl, writeLine_alike h hs _⟩
    · generalize s.rest.desk.mailComposeStart svc.config _ _ _ = r
      obtain ⟨rc, desk⟩ := r
      cases rc with
      | ok => exact ⟨rfl, writeLine_alike h (h.setDesk desk hs) _⟩
      | errInvalid => exact ⟨rfl, writeLine_alike h (h.setDesk desk hs) _⟩
      | _ => exact ⟨rfl, h.setDesk desk hs⟩
    · exact mailDone_alike h hs
    · exact ⟨rfl, writeLine_alike h hs _⟩
    · exact ⟨rfl, writeLine_alike h (h.setDesk _ hs) _⟩
    · exact ⟨rfl, writeLine_alike h hs _⟩

lemma dispatch_alike {Q : HybbxResult × CoreSession ω → HybbxResult × CoreSession ω → Prop} (cmd : ParsedCommand)
    (hanswered : ∀ {r r'}, Answered R r r' → Q r r')
    (hlogin : ∀ {s s'}, R s s' → Q (cmdLogin svc s cmd.argv) (cmdLogin svc s' cmd.argv)) :
    Q (dispatch svc s cmd) (dispatch svc s' cmd) := by
  have hgap := h.write [nl] hs
  have hseen := h.seen hgap
  rw [dispatch_eq, dispatch_eq, handlerOf, handlerOf, hseen.caller, ← handlerOf]
  generalize write s [nl] = s at hgap hseen ⊢
  cases handlerOf svc s cmd with
  | other => exact hanswered (cmdOther_alike h hgap cmd)
  | denied =>
    rw [Handler.run, Handler.run, hseen.denialText]
    exact hanswered ⟨rfl, writeLine_alike h hgap _⟩
  | leave => exact hanswered (cmdLeave_alike h hgap)
  | main => exact hanswered (cmdMain_alike h hgap)
  | chat => exact hanswered (cmdChat_alike h hgap _)
  | mail => exact hanswered (cmdMail_alike h hgap _)
  | proxymail => exact hanswered (cmdProxymail_alike h hgap _)
  | proxychat => exact hanswered (cmdProxychat_alike h hgap _)
  | login => exact hlogin hgap
  | exit => exact hanswered ⟨rfl, writeLine_alike h hgap _⟩

lemma acceptInvite_alike (invite : ConferenceInvite) : R (acceptInvite svc s invite) (acceptInvite svc s' invite) := by
  have hseen := h.seen hs
  rw [acceptInvite, acceptInvite, hseen.desk, hseen.world, hseen.user]
  split_ifs
  · exact writeLine_alike h hs _
  generalize svc.inviterJoins s.rest.world s.rest.user invite = r
  obtain ⟨joined, world⟩ := r
  have hworld := h.setWorld world hs
  cases joined with
  | error text => exact h.write _ hworld
  | ok inviter =>
    dsimp only
    rw [(h.seen hworld).desk]
    generalize (setWorld s world).rest.desk.joinConference invite.topic inviter = r
    obtain ⟨rc, desk⟩ := r
    cases rc with
    | ok => exact writeLine_alike h (h.write _ (h.setDesk desk (chatMaxNotice_alike h hworld _))) _
    | _ => exact writeLine_alike h (h.setWorld _ (h.setDesk desk hworld)) _

lemma replyInvite_alike (invite : ConferenceInvite) (line : Bytes) :
    Answered R (replyInvite svc s invite line) (replyInvite svc s' invite line) := by
  have hseen := h.seen hs
  have hanswer := h.setDesk { s.rest.desk with invite := none } hs
  rw [replyInvite, replyInvite, hseen.desk]
  dsimp only
  rw [(h.seen hanswer).world, (h.seen hanswer).user]
  split_ifs
  · exact ⟨rfl, hs⟩
  · exact ⟨rfl, hanswer⟩
  · exact ⟨rfl, writeLine_alike h (h.setWorld _ hanswer) _⟩
  · exact ⟨rfl, acceptInvite_alike h hanswer invite⟩

lemma postLine_alike (place : String) (line : Bytes) (posted : ω) : R (postLine svc s place line posted)
    (postLine svc s' place line posted) := by
  rw [postLine, postLine, (h.seen hs).isGuest]
  split_ifs
  · exact writeLine_alike h hs _
  · exact writeLine_alike h hs _
  · exact h.setWorld _ hs

lemma localLine_alike (line : Bytes) : R (localLine svc s line) (localLine svc s' line) := by
  have hseen := h.seen hs
  rw [localLine, localLine, hseen.desk, hseen.world, hseen.user]
  cases s.rest.desk.invite with
  | some invite =>
    obtain ⟨hrc, hreply⟩ := replyInvite_alike h hs invite line
    dsimp only
    generalize replyInvite svc s invite line = r at hrc hreply ⊢
    generalize replyInvite svc s' invite line = r' at hrc hreply ⊢
    obtain ⟨rc, t⟩ := r
    obtain ⟨rc', t'⟩ := r'
    obtain rfl : rc' = rc := hrc
    cases rc' with
    | ok => exact hreply
    | _ => exact writeLine_alike h hreply _
  | none =>
    dsimp only
    split_ifs
    · cases s.rest.desk.mail.append svc.config.bodyMax line with
      | none => exact writeLine_alike h hs _
      | some draft => exact h.setDesk _ hs
    · cases s.rest.desk.proxymail.append svc.config.bodyMax line with
      | none => exact writeLine_alike h hs _
      | some draft => exact h.setDesk _ hs
    · cases s.rest.desk.area with
      | proxychat => exact postLine_alike h hs _ _ _
      | chat => exact postLine_alike h hs _ _ _
      | conference => exact postLine_alike h hs _ _ _
      | _ => exact hs

end Commands

section AllCommands

variable (h : TreatsAllAlike svc R) (hs : R s s')

include h hs

lemma cmdLogin_alike (argv : List Bytes) : Answered R (cmdLogin svc s argv) (cmdLogin svc s' argv) := by
  rw [cmdLogin, cmdLogin, (h.seen hs).world]
  generalize svc.checkLogin s.rest.world argv = r
  obtain ⟨found, world⟩ := r
  have hworld := h.setWorld world hs
  cases found with
  | error refusal => exact ⟨rfl, writes_alike h.toTreatsAlike _ hworld⟩
  | ok user =>
    have hswitch := h.switchUser user hworld
    have hrc : (switchUser svc (setWorld s' world) user).1 = (switchUser svc (setWorld s world) user).1 := by
      rw [switchUser, switchUser, (h.seen hworld).world]
      split_ifs
      · rfl
      · split <;> rfl
    dsimp only
    generalize switchUser svc (setWorld s world) user = r at hswitch hrc ⊢
    generalize switchUser svc (setWorld s' world) user = r' at hswitch hrc ⊢
    obtain ⟨rc, t⟩ := r
    obtain ⟨rc', t'⟩ := r'
    obtain rfl : rc' = rc := hrc
    have hafter := (h.seen hswitch).world
    dsimp only at hswitch hafter ⊢
    cases rc' with
    | ok =>
      dsimp only
      rw [hafter]
      exact ⟨rfl, showPrompt_alike h.toTreatsAlike (writes_alike h.toTreatsAlike _ (h.setWorld _ hswitch))⟩
    | _ => exact ⟨rfl, writeLine_alike h.toTreatsAlike hswitch _⟩

lemma processLine_alike (line : Bytes) : R (processLine svc s line) (processLine svc s' line) := by
  rw [processLine, processLine]
  split_ifs
  · exact hs
  cases commandClassify line with
  | scopeComment => exact hs
  | scopeLocal => exact localLine_alike h.toTreatsAlike hs line
  | scopeHybbx =>
    dsimp only
    rw [commandLine, commandLine]
    cases commandParse line with
    | error rc => exact writeLine_alike h.toTreatsAlike hs _
    | ok parsed =>
      obtain ⟨hrc, hcmd⟩ := dispatch_alike h.toTreatsAlike hs (Q := Answered R) parsed.2 id fun hs =>
        cmdLogin_alike h hs _
      dsimp only
      generalize dispatch svc s parsed.2 = r at hrc hcmd ⊢
      generalize dispatch svc s' parsed.2 = r' at hrc hcmd ⊢
      obtain ⟨rc, t⟩ := r
      obtain ⟨rc', t'⟩ := r'
      obtain rfl : rc' = rc := hrc
      cases rc' with
      | ok => exact hcmd
      | sessionEnd => exact h.logout hcmd
      | errDenied => exact hcmd
      | errNotFound => exact hcmd
      | _ => exact writeLine_alike h.toTreatsAlike hcmd _

end AllCommands

section Input

variable {κ : Type*} (work : LineWork κ) (Q : InputSession κ → InputSession κ → Prop)

/-- The pieces of the line's work answer alike and keep the relation. -/
structure WorksAlike : Prop where
  flags : ∀ {s s'}, Q s s' → s'.loggedIn = s.loggedIn ∧ s'.loginPrompt = s.loginPrompt ∧
    s'.bandwidthPaused = s.bandwidthPaused ∧
    s'.guestExpiresAt = s.guestExpiresAt ∧ s'.expectLf = s.expectLf
  expectLf : ∀ {s s'} expectLf, Q s s' → Q { s with expectLf := expectLf } { s' with expectLf := expectLf }
  filterEscape : ∀ {s s'} byte, Q s s' → (work.filterEscape s'.rest byte).1 = (work.filterEscape s.rest byte).1 ∧
    Q { s with rest := (work.filterEscape s.rest byte).2 } { s' with rest := (work.filterEscape s'.rest byte).2 }
  backspace : ∀ {s s'}, Q s s' → (work.backspace s'.rest).1 = (work.backspace s.rest).1 ∧
    Q { s with rest := (work.backspace s.rest).2 } { s' with rest := (work.backspace s'.rest).2 }
  insertChar : ∀ {s s'} byte, Q s s' → (work.insertChar s'.rest byte).1 = (work.insertChar s.rest byte).1 ∧
    Q { s with rest := (work.insertChar s.rest byte).2 } { s' with rest := (work.insertChar s'.rest byte).2 }
  echoNewline : ∀ {s s'}, Q s s' → work.echoNewline s'.rest = work.echoNewline s.rest
  submitLine : ∀ {s s'}, Q s s' → Q (work.submitLine s) (work.submitLine s')

variable {work Q} (h : WorksAlike work Q) {s s' : InputSession κ}

include h

lemma submit_alike (expectLf : Bool) (hs : Q s s') :
    (submit work s' expectLf).1 = (submit work s expectLf).1 ∧
      Q (submit work s expectLf).2 (submit work s' expectLf).2 := by
  have hdone := h.submitLine hs
  obtain ⟨hlogged, hprompt, -⟩ := h.flags hdone
  rw [submit, submit, h.echoNewline hs]
  cases work.echoNewline s.rest with
  | ok =>
    dsimp only
    by_cases hend : (work.submitLine s).loggedIn = false ∧ (work.submitLine s).loginPrompt = false
    · rw [if_pos hend, if_pos (by rwa [hlogged, hprompt])]
      exact ⟨rfl, hdone⟩
    · rw [if_neg hend, if_neg (by rwa [hlogged, hprompt])]
      refine ⟨rfl, ?_⟩
      dsimp only
      split_ifs
      · exact h.expectLf true hdone
      · exact hdone
  | errInvalid => exact ⟨rfl, hs⟩
  | errIo => exact ⟨rfl, hs⟩

lemma handleUserByte_alike (byte : UInt8) (hs : Q s s') :
    (handleUserByte work s' byte).1 = (handleUserByte work s byte).1 ∧
      Q (handleUserByte work s byte).2 (handleUserByte work s' byte).2 := by
  obtain ⟨-, -, -, -, hlf⟩ := h.flags hs
  rw [handleUserByte, handleUserByte]
  split_ifs with h0 hback hcr hnl hset' hset hset
  · exact ⟨rfl, hs⟩
  · exact (h.backspace hs).imp_left (congrArg EchoResult.toResult)
  · exact submit_alike h true hs
  · exact ⟨rfl, h.expectLf false hs⟩
  · exact absurd (hlf.symm.trans hset') hset
  · exact absurd (hlf.trans hset) hset'
  · exact submit_alike h false hs
  · exact (h.insertChar byte (h.expectLf false hs)).imp_left (congrArg EchoResult.toResult)

lemma handleBytes_alike (data : Bytes) {s s' : InputSession κ} (hs : Q s s') :
    (handleBytes work s' data).rc = (handleBytes work s data).rc ∧
      Q (handleBytes work s data).session (handleBytes work s' data).session := by
  induction data generalizing s s' with
  | nil => exact ⟨rfl, hs⟩
  | cons byte bytes ih =>
    obtain ⟨htaken, hfilter⟩ := h.filterEscape byte hs
    rw [handleBytes, handleBytes]
    generalize work.filterEscape s.rest byte = r at htaken hfilter ⊢
    generalize work.filterEscape s'.rest byte = r' at htaken hfilter ⊢
    obtain ⟨taken, rest⟩ := r
    obtain ⟨taken', rest'⟩ := r'
    obtain rfl : taken' = taken := htaken
    cases taken' with
    | true => exact ih hfilter
    | false =>
      obtain ⟨hrc, hbyte⟩ := handleUserByte_alike h byte hfilter
      dsimp only at hrc hbyte ⊢
      generalize handleUserByte work { s with rest := rest } byte = r at hrc hbyte ⊢
      generalize handleUserByte work { s' with rest := rest' } byte = r' at hrc hbyte ⊢
      obtain ⟨rc, t⟩ := r
      obtain ⟨rc', t'⟩ := r'
      obtain rfl : rc' = rc := hrc
      cases rc' with
      | ok => exact ih hbyte
      | _ => exact ⟨rfl, hbyte⟩

lemma handleInput_alike (now : ℤ) (data : Bytes) (hs : Q s s') :
    (handleInput work now s' data).rc = (handleInput work now s data).rc ∧
      Q (handleInput work now s data).session (handleInput work now s' data).session := by
  obtain ⟨hlogged, hprompt, hpaused, htime, -⟩ := h.flags hs
  rw [handleInput, handleInput, Session.acceptsInput, Session.acceptsInput, Session.guestExpired,
    Session.guestExpired, hlogged,
    hprompt, hpaused, htime]
  split_ifs
  · exact ⟨rfl, hs⟩
  · exact ⟨rfl, hs⟩
  · exact ⟨rfl, hs⟩
  · exact handleBytes_alike h data hs

end Input

section Kept

lemma writes_keep {I : CoreSession ω → Prop} (hwrite : ∀ {s} text, I s → I (write s text)) (texts : List Bytes)
    {s : CoreSession ω}
    (h : I s) : I (texts.foldl write s) := by
  induction texts generalizing s with
  | nil => exact h
  | cons text texts ih => exact ih (hwrite text h)

/-- What holds of a session whatever texts and commands, apart from a login, do to it. -/
structure Keeps (svc : ServiceCalls ω) (I : CoreSession ω → Prop) : Prop where
  write : ∀ {s} text, I s → I (write s text)
  setDesk : ∀ {s} desk, I s → I (setDesk s desk)
  setWorld : ∀ {s} world, I s → I (setWorld s world)
  other : ∀ {s} cmd, I s → I (cmdOther svc s cmd).2

structure KeepsAll (svc : ServiceCalls ω) (I : CoreSession ω → Prop) : Prop extends Keeps svc I where
  switchUser : ∀ {s} user, I s → I (switchUser svc s user).2
  logout : ∀ {s : CoreSession ω}, I s → I { s with loggedIn := false }

variable {I : CoreSession ω → Prop}

lemma Keeps.alike (h : Keeps svc I) : TreatsAlike svc fun s s' => s' = s ∧ I s where
  seen := by
    rintro s _ ⟨rfl, -⟩
    exact .refl _
  write text := fun ⟨hs, hi⟩ => ⟨hs ▸ rfl, h.write text hi⟩
  setDesk desk := fun ⟨hs, hi⟩ => ⟨hs ▸ rfl, h.setDesk desk hi⟩
  setWorld world := fun ⟨hs, hi⟩ => ⟨hs ▸ rfl, h.setWorld world hi⟩
  other cmd := fun ⟨hs, hi⟩ => ⟨hs ▸ rfl, h.other cmd hi⟩

lemma KeepsAll.processLine (h : KeepsAll svc I) {s : CoreSession ω} (hi : I s) (line : Bytes) :
    I (processLine svc s line) := by
  have halike : TreatsAllAlike svc fun s s' => s' = s ∧ I s := {
    toTreatsAlike := h.toKeeps.alike
    switchUser := fun user ⟨hs, hi⟩ => ⟨hs ▸ rfl, h.switchUser user hi⟩
    logout := fun ⟨hs, hi⟩ => ⟨hs ▸ rfl, h.logout hi⟩ }
  exact (processLine_alike halike ⟨rfl, hi⟩ line).2

end Kept

end HyBBX.SessionCore
