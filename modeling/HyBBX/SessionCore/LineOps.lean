import HyBBX.SessionCore.Lines

/-! What a line does to the areas of its session. -/

namespace HyBBX.SessionCore

open HyBBX.Core Lib Lib.Bytes Lib.Text Desk
open Command (Area ParsedCommand ConferenceInvite commandClassify commandParse inviteReplyYes inviteReplyNo)
open Storage (UserRecord)

variable {ω : Type*} (svc : ServiceCalls ω) (s : CoreSession ω)

def proxychatOp (argv : List Bytes) : Option DeskOp :=
  if s.rest.isGuest ∨ argv ≠ [] then none else some .enterProxychat

def chatOp (argv : List Bytes) : Option DeskOp :=
  if s.rest.isGuest then none
  else match argv with
    | [] => none
    | spec :: _ =>
      if strIeq spec (ofString "proxychat") then proxychatOp s []
      else if strIeq spec (ofString "show") ∨ strIeq spec (ofString "showall") then none
      else match chatResolveChannel svc.config spec with
        | .error _ => none
        | .ok index => if s.rest.desk.chatChannel = index then none else some (.joinChatChannel index)

def proxymailOp (argv : List Bytes) : Option DeskOp :=
  if s.rest.isGuest then none
  else match argv with
    | [] => some .enterProxymail
    | sub :: _ =>
      if inboxSubcommand sub then if opensInbox argv then some .enterProxymail else none
      else if strIeq sub (ofString "send") then
        if argv.length < 3 ∨ mailJoinSubject argv = [] then none
        else some (.proxymailComposeStart (argv.getD 1 []) (mailJoinSubject argv))
      else if strIeq sub (ofString "done") then
        some (.proxymailDone (svc.proxymailDeliver s.rest.world s.rest.displayName s.rest.desk.proxymail).1)
      else if strIeq sub (ofString "cancel") then some .proxymailCancel
      else none

def mailOp (argv : List Bytes) : Option DeskOp :=
  if s.rest.isGuest then none
  else match argv with
    | [] => none
    | sub :: args =>
      if strIeq sub (ofString "proxymail") then proxymailOp svc s args
      else if inboxSubcommand sub then none
      else if strIeq sub (ofString "send") then
        if argv.length < 3 ∨ mailJoinSubject argv = [] then none
        else some (.mailComposeStart (argv.getD 1 []) (svc.resolveUser s.rest.world (argv.getD 1 [])) (mailJoinSubject argv))
      else if strIeq sub (ofString "done") then
        some (.mailDone (svc.mailDeliver s.rest.world s.rest.displayName s.rest.desk.mail).1)
      else if strIeq sub (ofString "cancel") then some .mailCancel
      else none

def commandOp (cmd : ParsedCommand) : Option DeskOp :=
  match handlerOf svc s cmd with
  | .leave => some .leaveArea
  | .main => some .goMain
  | .chat => chatOp svc s cmd.argv
  | .mail => mailOp svc s cmd.argv
  | .proxymail => proxymailOp svc s cmd.argv
  | .proxychat => proxychatOp s cmd.argv
  | _ => none

def inviteOp (invite : ConferenceInvite) (line : Bytes) : Option DeskOp :=
  if inviteReplyYes line = false ∧ inviteReplyNo line = false then none
  else if invite.fromUser.text = [] ∨ invite.topic.text = [] ∨ inviteReplyNo line = true ∨ s.rest.desk.area = .conference then
    some (.answerInvite none)
  else match (svc.inviterJoins s.rest.world s.rest.user invite).1 with
    | .error _ => some (.answerInvite none)
    | .ok inviter => some (.answerInvite (some (invite.topic, inviter)))

def localOp (line : Bytes) : Option DeskOp :=
  match s.rest.desk.invite with
  | some invite => inviteOp svc s invite line
  | none =>
    if s.rest.desk.area = .mail ∧ s.rest.desk.mail.composing then some (.mailLine line)
    else if s.rest.desk.area = .proxymail ∧ s.rest.desk.proxymail.composing then some (.proxymailLine line)
    else none

/-- The one operation on the areas that a line comes down to. -/
def lineOp (line : Bytes) : Option DeskOp :=
  if line = [] then none
  else match commandClassify line with
    | .scopeComment => none
    | .scopeLocal => localOp svc s line
    | .scopeHybbx => match commandParse line with
      | .error _ => none
      | .ok (_, cmd) => commandOp svc s cmd

/-- A desk after an operation that there may be. -/
def deskAfter (op : Option DeskOp) : Desk := op.elim s.rest.desk (deskStep svc.config s.rest.desk)

section Frame

variable {s}

@[simp] lemma write_desk (text : Bytes) : (write s text).rest.desk = s.rest.desk := by
  rw [write]
  split_ifs <;> rfl

@[simp] lemma write_world (text : Bytes) : (write s text).rest.world = s.rest.world := by
  rw [write]
  split_ifs <;> rfl

@[simp] lemma write_user (text : Bytes) : (write s text).rest.user = s.rest.user := by
  rw [write]
  split_ifs <;> rfl

@[simp] lemma writeLine_desk (text : String) : (writeLine s text).rest.desk = s.rest.desk := write_desk _

@[simp] lemma setDesk_desk (desk : Desk) : (setDesk s desk).rest.desk = desk := rfl

@[simp] lemma setWorld_desk (world : ω) : (setWorld s world).rest.desk = s.rest.desk := rfl

@[simp] lemma writes_desk (texts : List Bytes) : (texts.foldl write s).rest.desk = s.rest.desk := by
  induction texts generalizing s with
  | nil => rfl
  | cons text texts ih => rw [List.foldl_cons, ih, write_desk]

@[simp] lemma showPrompt_desk : (showPrompt svc s).rest.desk = s.rest.desk := by
  rw [showPrompt]
  split_ifs
  · rfl
  · exact write_desk _

@[simp] lemma emitArea_desk (before : Area) : (emitArea svc s before).rest.desk = s.rest.desk := by
  rw [emitArea]
  split_ifs
  · rfl
  · rw [showPrompt_desk, writeLine_desk]

@[simp] lemma cmdOther_desk (cmd : ParsedCommand) : (cmdOther svc s cmd).2.rest.desk = s.rest.desk := by
  rw [cmdOther]
  exact writes_desk _

@[simp] lemma chatMaxNotice_desk (cfg : DeskConfig) : (chatMaxNotice cfg s).rest.desk = s.rest.desk := by
  rw [chatMaxNotice]
  split_ifs
  · rfl
  · exact write_desk _

@[simp] lemma switchUser_desk (user : UserRecord) : (switchUser svc s user).2.rest.desk = s.rest.desk := by
  rw [switchUser]
  split_ifs
  · rfl
  · split <;> rfl

@[simp] lemma cmdLogin_desk (argv : List Bytes) : (cmdLogin svc s argv).2.rest.desk = s.rest.desk := by
  rw [cmdLogin]
  cases hlogin : svc.checkLogin s.rest.world argv with
  | mk found world =>
    cases found with
    | error refusal => exact writes_desk _
    | ok user =>
      have hswitch := @switchUser_desk ω svc (setWorld s world) user
      dsimp only
      generalize switchUser svc (setWorld s world) user = r at hswitch ⊢
      obtain ⟨rc, s'⟩ := r
      cases rc with
      | ok =>
        dsimp only at hswitch ⊢
        rw [showPrompt_desk, writes_desk, setWorld_desk, hswitch, setWorld_desk]
      | _ => exact (writeLine_desk _).trans hswitch

end Frame

section Commands

variable {s}

lemma cmdProxychat_desk (argv : List Bytes) :
    (cmdProxychat svc s argv).2.rest.desk = deskAfter svc s (proxychatOp s argv) := by
  rw [cmdProxychat, proxychatOp]
  by_cases hguest : s.rest.isGuest = true
  · rw [if_pos hguest, if_pos (.inl hguest)]
    exact writeLine_desk _
  by_cases hargs : argv ≠ []
  · rw [if_neg hguest, if_pos hargs, if_pos (.inr hargs)]
    exact writeLine_desk _
  rw [if_neg hguest, if_neg hargs, if_neg (not_or.mpr ⟨hguest, hargs⟩)]
  change _ = s.rest.desk.enterProxychat.2
  generalize s.rest.desk.enterProxychat = r
  obtain ⟨rc, desk⟩ := r
  cases rc with
  | ok => exact write_desk _
  | _ => rfl

lemma cmdChat_desk (argv : List Bytes) : (cmdChat svc s argv).2.rest.desk = deskAfter svc s (chatOp svc s argv) := by
  unfold cmdChat chatOp
  by_cases hguest : s.rest.isGuest = true
  · rw [if_pos hguest, if_pos hguest]
    exact writeLine_desk _
  rw [if_neg hguest, if_neg hguest]
  cases argv with
  | nil => exact cmdOther_desk svc _
  | cons spec args =>
    dsimp only
    by_cases hproxychat : strIeq spec (ofString "proxychat") = true
    · rw [if_pos hproxychat, if_pos hproxychat]
      exact cmdProxychat_desk svc []
    rw [if_neg hproxychat, if_neg hproxychat]
    by_cases hshow : strIeq spec (ofString "show") = true ∨ strIeq spec (ofString "showall") = true
    · rw [if_pos hshow, if_pos hshow]
      exact cmdOther_desk svc _
    rw [if_neg hshow, if_neg hshow]
    cases chatResolveChannel svc.config spec with
    | error rc =>
      cases rc with
      | errNotFound => exact writeLine_desk _
      | _ => rfl
    | ok index =>
      dsimp only
      by_cases hsame : s.rest.desk.chatChannel = index
      · rw [if_pos hsame, if_pos hsame]
        exact write_desk _
      rw [if_neg hsame, if_neg hsame]
      change _ = (s.rest.desk.joinChatChannel svc.config index).2
      generalize s.rest.desk.joinChatChannel svc.config index = r
      obtain ⟨rc, desk⟩ := r
      cases rc with
      | ok => exact (writeLine_desk _).trans (write_desk _)
      | _ => rfl

lemma proxymailDone_desk : (proxymailDone svc s).2.rest.desk =
    s.rest.desk.proxymailDone (svc.proxymailDeliver s.rest.world s.rest.displayName s.rest.desk.proxymail).1 := by
  rw [proxymailDone, Desk.proxymailDone]
  by_cases hc : s.rest.desk.proxymail.composing = false
  · rw [if_pos hc, if_neg fun h => absurd h.1 (Bool.eq_false_iff.mp hc)]
    exact writeLine_desk _
  rw [if_neg hc]
  generalize svc.proxymailDeliver s.rest.world s.rest.displayName s.rest.desk.proxymail = r
  obtain ⟨rc, world⟩ := r
  cases rc with
  | ok => exact showPrompt_desk svc
  | errUnsupported => exact showPrompt_desk svc
  | _ => exact (writeLine_desk _).trans (if_neg (by simp)).symm

lemma mailDone_desk : (mailDone svc s).2.rest.desk =
    s.rest.desk.mailDone (svc.mailDeliver s.rest.world s.rest.displayName s.rest.desk.mail).1 := by
  rw [mailDone, Desk.mailDone]
  by_cases hc : s.rest.desk.mail.composing = false
  · rw [if_pos hc, if_neg fun h => absurd h.1 (Bool.eq_false_iff.mp hc)]
    exact writeLine_desk _
  rw [if_neg hc]
  generalize svc.mailDeliver s.rest.world s.rest.displayName s.rest.desk.mail = r
  obtain ⟨rc, world⟩ := r
  cases rc with
  | ok => exact showPrompt_desk svc
  | _ => exact (writeLine_desk _).trans (if_neg (by simp)).symm

lemma cmdProxymail_desk (argv : List Bytes) :
    (cmdProxymail svc s argv).2.rest.desk = deskAfter svc s (proxymailOp svc s argv) := by
  unfold cmdProxymail proxymailOp
  by_cases hguest : s.rest.isGuest = true
  · rw [if_pos hguest, if_pos hguest]
    exact writeLine_desk _
  rw [if_neg hguest, if_neg hguest]
  cases argv with
  | nil => exact cmdOther_desk svc _
  | cons sub args =>
    dsimp only
    by_cases hinbox : inboxSubcommand sub = true
    · rw [if_pos hinbox, if_pos hinbox, cmdOther_desk]
      split_ifs <;> rfl
    rw [if_neg hinbox, if_neg hinbox]
    by_cases hsend : strIeq sub (ofString "send") = true
    · rw [if_pos hsend, if_pos hsend]
      by_cases hshort : (sub :: args).length < 3 ∨ mailJoinSubject (sub :: args) = []
      · rw [if_pos hshort, if_pos hshort]
        exact writeLine_desk _
      rw [if_neg hshort, if_neg hshort]
      change _ = (s.rest.desk.proxymailComposeStart svc.config ((sub :: args).getD 1 []) (mailJoinSubject (sub :: args))).2
      generalize s.rest.desk.proxymailComposeStart svc.config ((sub :: args).getD 1 []) (mailJoinSubject (sub :: args)) = r
      obtain ⟨rc, desk⟩ := r
      cases rc with
      | ok => exact writeLine_desk _
      | errInvalid => exact writeLine_desk _
      | _ => rfl
    rw [if_neg hsend, if_neg hsend]
    by_cases hdone : strIeq sub (ofString "done") = true
    · rw [if_pos hdone, if_pos hdone]
      exact proxymailDone_desk svc
    rw [if_neg hdone, if_neg hdone]
    by_cases hcancel : strIeq sub (ofString "cancel") = true
    · rw [if_pos hcancel, if_pos hcancel]
      change _ = s.rest.desk.proxymailCancel
      by_cases hc : s.rest.desk.proxymail.composing = false
      · rw [if_pos hc, proxymailCancel, if_neg (Bool.eq_false_iff.mp hc)]
        exact writeLine_desk _
      · rw [if_neg hc]
        exact writeLine_desk _
    · rw [if_neg hcancel, if_neg hcancel]
      exact writeLine_desk _

lemma cmdMail_desk (argv : List Bytes) : (cmdMail svc s argv).2.rest.desk = deskAfter svc s (mailOp svc s argv) := by
  unfold cmdMail mailOp
  by_cases hguest : s.rest.isGuest = true
  · rw [if_pos hguest, if_pos hguest]
    exact writeLine_desk _
  rw [if_neg hguest, if_neg hguest]
  cases argv with
  | nil => exact cmdOther_desk svc _
  | cons sub args =>
    dsimp only
    by_cases hproxymail : strIeq sub (ofString "proxymail") = true
    · rw [if_pos hproxymail, if_pos hproxymail]
      exact cmdProxymail_desk svc args
    rw [if_neg hproxymail, if_neg hproxymail]
    by_cases hinbox : inboxSubcommand sub = true
    · rw [if_pos hinbox, if_pos hinbox]
      exact cmdOther_desk svc _
    rw [if_neg hinbox, if_neg hinbox]
    by_cases hsend : strIeq sub (ofString "send") = true
    · rw [if_pos hsend, if_pos hsend]
      by_cases hshort : (sub :: args).length < 3 ∨ mailJoinSubject (sub :: args) = []
      · rw [if_pos hshort, if_pos hshort]
        exact writeLine_desk _
      rw [if_neg hshort, if_neg hshort]
      generalize (sub :: args).getD 1 [] = toUser
      generalize svc.resolveUser s.rest.world toUser = resolved
      change _ = (s.rest.desk.mailComposeStart svc.config toUser resolved (mailJoinSubject (sub :: args))).2
      generalize s.rest.desk.mailComposeStart svc.config toUser resolved (mailJoinSubject (sub :: args)) = r
      obtain ⟨rc, desk⟩ := r
      cases rc with
      | ok => exact writeLine_desk _
      | errInvalid => exact writeLine_desk _
      | _ => rfl
    rw [if_neg hsend, if_neg hsend]
    by_cases hdone : strIeq sub (ofString "done") = true
    · rw [if_pos hdone, if_pos hdone]
      exact mailDone_desk svc
    rw [if_neg hdone, if_neg hdone]
    by_cases hcancel : strIeq sub (ofString "cancel") = true
    · rw [if_pos hcancel, if_pos hcancel]
      change _ = s.rest.desk.mailCancel
      by_cases hc : s.rest.desk.mail.composing = false
      · rw [if_pos hc, mailCancel, if_neg (Bool.eq_false_iff.mp hc)]
        exact writeLine_desk _
      · rw [if_neg hc]
        exact writeLine_desk _
    · rw [if_neg hcancel, if_neg hcancel]
      exact writeLine_desk _

lemma commandOp_write (text : Bytes) (cmd : ParsedCommand) :
    commandOp svc (write s text) cmd = commandOp svc s cmd := by
  rw [write]
  split_ifs <;> rfl

lemma dispatch_desk (cmd : ParsedCommand) : (dispatch svc s cmd).2.rest.desk =
    deskAfter svc s (commandOp svc s cmd) := by
  have hgap : deskAfter svc s = deskAfter svc (write s [nl]) := by
    funext op
    rw [deskAfter, deskAfter, write_desk]
  rw [hgap, ← commandOp_write svc [nl], dispatch_eq, commandOp]
  generalize write s [nl] = s
  cases handlerOf svc s cmd with
  | other => exact cmdOther_desk svc cmd
  | denied => exact writeLine_desk _
  | leave => exact emitArea_desk svc _
  | main =>
    rw [Handler.run, cmdMain]
    dsimp only
    split_ifs
    · rfl
    · exact (showPrompt_desk svc).trans (writeLine_desk _)
  | chat => exact cmdChat_desk svc _
  | mail => exact cmdMail_desk svc _
  | proxymail => exact cmdProxymail_desk svc _
  | proxychat => exact cmdProxychat_desk svc _
  | login => exact cmdLogin_desk svc _
  | exit => exact writeLine_desk _

end Commands

section Lines

variable {s}

lemma acceptInvite_desk (invite : ConferenceInvite) :
    (acceptInvite svc s invite).rest.desk = if s.rest.desk.area = .conference then s.rest.desk
      else match (svc.inviterJoins s.rest.world s.rest.user invite).1 with
        | .error _ => s.rest.desk
        | .ok inviter => (s.rest.desk.joinConference invite.topic inviter).2 := by
  rw [acceptInvite]
  by_cases harea : s.rest.desk.area = .conference
  · rw [if_pos harea, if_pos harea]
    exact writeLine_desk _
  rw [if_neg harea, if_neg harea]
  generalize svc.inviterJoins s.rest.world s.rest.user invite = r
  obtain ⟨joined, world⟩ := r
  cases joined with
  | error text => exact write_desk _
  | ok inviter =>
    dsimp only
    rw [setWorld_desk]
    generalize s.rest.desk.joinConference invite.topic inviter = r
    obtain ⟨rc, desk⟩ := r
    cases rc with
    | ok => exact (writeLine_desk _).trans (write_desk _)
    | _ => exact writeLine_desk _

lemma replyInvite_desk (invite : ConferenceInvite) (line : Bytes) :
    (replyInvite svc s invite line).2.rest.desk = deskAfter svc s (inviteOp svc s invite line) := by
  rw [replyInvite, inviteOp]
  by_cases hneither : inviteReplyYes line = false ∧ inviteReplyNo line = false
  · rw [if_pos hneither, if_pos hneither]
    rfl
  rw [if_neg hneither, if_neg hneither]
  dsimp only
  by_cases hempty : invite.fromUser.text = [] ∨ invite.topic.text = []
  · rw [if_pos hempty, if_pos (by tauto)]
    rfl
  rw [if_neg hempty]
  by_cases hno : inviteReplyNo line = true
  · rw [if_pos hno, if_pos (by tauto)]
    exact writeLine_desk _
  rw [if_neg hno, acceptInvite_desk, setDesk_desk]
  by_cases harea : s.rest.desk.area = .conference
  · rw [if_pos harea, if_pos (by tauto)]
    rfl
  rw [if_neg harea, if_neg (by tauto)]
  change (match (svc.inviterJoins s.rest.world s.rest.user invite).1 with
    | .error _ => _
    | .ok inviter => _) = _
  cases (svc.inviterJoins s.rest.world s.rest.user invite).1 with
  | error text => rfl
  | ok inviter => rfl

lemma postLine_desk (place : String) (line : Bytes) (posted : ω) :
    (postLine svc s place line posted).rest.desk = s.rest.desk := by
  rw [postLine]
  split_ifs
  · exact writeLine_desk _
  · exact writeLine_desk _
  · rfl

lemma localLine_desk (line : Bytes) : (localLine svc s line).rest.desk = deskAfter svc s (localOp svc s line) := by
  rw [localLine, localOp]
  cases hinvite : s.rest.desk.invite with
  | some invite =>
    have hreply := replyInvite_desk svc (s := s) invite line
    dsimp only
    generalize replyInvite svc s invite line = r at hreply ⊢
    obtain ⟨rc, s'⟩ := r
    cases rc with
    | ok => exact hreply
    | _ => exact (writeLine_desk _).trans hreply
  | none =>
    dsimp only
    by_cases hmail : s.rest.desk.area = .mail ∧ s.rest.desk.mail.composing = true
    · rw [if_pos hmail, if_pos hmail, deskAfter, Option.elim_some, deskStep, if_pos hmail]
      cases s.rest.desk.mail.append svc.config.bodyMax line with
      | none => exact writeLine_desk _
      | some draft =>
        rw [← hinvite]
        rfl
    rw [if_neg hmail, if_neg hmail]
    by_cases hproxymail : s.rest.desk.area = .proxymail ∧ s.rest.desk.proxymail.composing = true
    · rw [if_pos hproxymail, if_pos hproxymail, deskAfter, Option.elim_some, deskStep, if_pos hproxymail]
      cases s.rest.desk.proxymail.append svc.config.bodyMax line with
      | none => exact writeLine_desk _
      | some draft =>
        rw [← hinvite]
        rfl
    rw [if_neg hproxymail, if_neg hproxymail]
    change _ = s.rest.desk
    cases s.rest.desk.area with
    | proxychat => exact postLine_desk svc _ _ _
    | chat => exact postLine_desk svc _ _ _
    | conference => exact postLine_desk svc _ _ _
    | _ => rfl

/-- A line does its one operation to the areas, and nothing else. -/
lemma processLine_desk (line : Bytes) : (processLine svc s line).rest.desk = deskAfter svc s (lineOp svc s line) := by
  rw [processLine, lineOp]
  by_cases hempty : line = []
  · rw [if_pos hempty, if_pos hempty]
    rfl
  rw [if_neg hempty, if_neg hempty]
  cases commandClassify line with
  | scopeComment => rfl
  | scopeLocal => exact localLine_desk svc line
  | scopeHybbx =>
    dsimp only
    rw [commandLine]
    cases commandParse line with
    | error rc => exact writeLine_desk _
    | ok parsed =>
      have hcmd := dispatch_desk svc (s := s) parsed.2
      dsimp only
      generalize dispatch svc s parsed.2 = r at hcmd ⊢
      obtain ⟨rc, s'⟩ := r
      cases rc with
      | ok => exact hcmd
      | sessionEnd => exact hcmd
      | errDenied => exact hcmd
      | errNotFound => exact hcmd
      | _ => exact (writeLine_desk _).trans hcmd

end Lines

end HyBBX.SessionCore
