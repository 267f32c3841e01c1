import HyBBX.Command.Dispatch
import HyBBX.Mail.ListRange
import HyBBX.Session.LineEditor
import HyBBX.SessionCore.Areas

/-! A whole session: where its lines go, what its commands do, and what happens to it from outside. -/

namespace HyBBX.SessionCore

open HyBBX.Core Lib Lib.Bytes Lib.Text Lib.Numeral
open Command (Area Level ParsedCommand Registry ConferenceInvite CommandScope commandClassify commandParse checkAccess inviteReplyYes
  inviteReplyNo)
open Session (InputSession LineWork LineEditor EchoResult Surroundings)
open Storage (UserRecord userNameMax)

/-- `ω` is all of the service outside the session. Before a login there is no user. -/
structure Core (ω : Type*) where
  editor : LineEditor
  user : Option UserRecord
  desk : Desk
  texts : List Bytes
  world : ω

abbrev CoreSession (ω : Type*) := InputSession (Core ω)

/-- What a command does that has nothing to do with areas, drafts and logins; `clears` is a call of
`hybbx_session_clear_terminal`. -/
structure OtherAnswer (ω : Type*) where
  rc : HybbxResult
  texts : List Bytes
  inputEcho : Bool
  clears : Bool
  world : ω

/-- What a session calls of the rest of the service. A refused login and an inviter that cannot join come as the text of it. -/
structure ServiceCalls (ω : Type*) where
  registry : Registry
  config : DeskConfig
  prompt : Bytes
  proxychatBanner : Bytes
  resolveUser : ω → Bytes → Option (CText userNameMax)
  mailDeliver : ω → Bytes → Draft userNameMax → HybbxResult × ω
  proxymailDeliver : ω → Bytes → Draft Mains.proxymailAddressMax → HybbxResult × ω
  chatPost : ω → Option UserRecord → ℕ → Bytes → ω
  proxychatPost : ω → Option UserRecord → Bytes → ω
  conferencePost : ω → Option UserRecord → Bytes → ω
  inviteDeclined : ω → Option UserRecord → ConferenceInvite → ω
  inviterJoins : ω → Option UserRecord → ConferenceInvite → Except Bytes (CText userNameMax) × ω
  inviterLeaves : ω → ConferenceInvite → ω
  checkLogin : ω → List Bytes → Except (HybbxResult × List Bytes) UserRecord × ω
  sessionBegin : ω → UserRecord → HybbxResult × ω
  afterLogin : ω → UserRecord → List Bytes × ω
  other : ω → Option UserRecord → Desk → Bool → ParsedCommand → OtherAnswer ω

namespace Core

variable {ω : Type*}

/-- The editor, with the area that bounds its line. -/
def lineEditor (c : Core ω) : LineEditor := { c.editor with around := { c.editor.around with area := c.desk.area } }

def level (c : Core ω) : Level := c.user.map UserRecord.level

def isGuest (c : Core ω) : Bool := c.level = some .guest

def displayName (c : Core ω) : Bytes :=
  match c.user with
  | none => []
  | some user => if user.nickname.text ≠ [] then user.nickname.text else user.username.text

end Core

section Commands

variable {ω : Type*} (svc : ServiceCalls ω)

def write (s : CoreSession ω) (text : Bytes) : CoreSession ω :=
  if s.bandwidthPaused then s else { s with rest := { s.rest with texts := s.rest.texts ++ [text] } }

def writeLine (s : CoreSession ω) (text : String) : CoreSession ω := write s (ofString text ++ [nl])

def showPrompt (s : CoreSession ω) : CoreSession ω :=
  if Session.acceptsInput s = false ∨ svc.prompt = [] then s else write s svc.prompt

def setDesk (s : CoreSession ω) (desk : Desk) : CoreSession ω := { s with rest := { s.rest with desk := desk } }

def setWorld (s : CoreSession ω) (world : ω) : CoreSession ω := { s with rest := { s.rest with world := world } }

/-- `hybbx_session_switch_user` -/
def switchUser (s : CoreSession ω) (user : UserRecord) : HybbxResult × CoreSession ω :=
  if user.level = .guest then (.errInvalid, s)
  else match svc.sessionBegin s.rest.world user with
    | (.ok, world) =>
      (.ok, { s with
        guestExpiresAt := 0
        loggedIn := true
        loginPrompt := false
        rest := { s.rest with user := some user, world := world } })
    | (rc, world) => (rc, setWorld s world)

def cmdLogin (s : CoreSession ω) (argv : List Bytes) : HybbxResult × CoreSession ω :=
  match svc.checkLogin s.rest.world argv with
  | (.error (rc, texts), world) => (rc, texts.foldl write (setWorld s world))
  | (.ok user, world) =>
    match switchUser svc (setWorld s world) user with
    | (.ok, s) =>
      let (texts, world) := svc.afterLogin s.rest.world user
      (.ok, showPrompt svc (texts.foldl write (setWorld s world)))
    | (rc, s) => (rc, writeLine s "Login failed.")

def cmdOther (s : CoreSession ω) (cmd : ParsedCommand) : HybbxResult × CoreSession ω :=
  let r := svc.other s.rest.world s.rest.user s.rest.desk s.rest.editor.around.inputEcho cmd
  let editor := { s.rest.editor with around := { s.rest.editor.around with inputEcho := r.inputEcho } }
  let s := r.texts.foldl write { s with
    expectLf := if r.clears then false else s.expectLf
    rest := { s.rest with editor := if r.clears then editor.cleared else editor, world := r.world } }
  (r.rc, s)

def areaTitle : Area → String
  | .main => "Main."
  | .mail => "Mail."
  | .chat => "Chat."
  | .conference => "Conference."
  | .proxymail => "Proxymail."
  | .proxychat => "Proxychat."

/-- `cmd_emit_current_area`, if the area is another one than before. -/
def emitArea (s : CoreSession ω) (before : Area) : CoreSession ω :=
  if s.rest.desk.area = before then s else showPrompt svc (writeLine s (areaTitle s.rest.desk.area))

def cmdLeave (s : CoreSession ω) : HybbxResult × CoreSession ω :=
  (.ok, emitArea svc (setDesk s s.rest.desk.leaveArea) s.rest.desk.area)

def cmdMain (s : CoreSession ω) : HybbxResult × CoreSession ω :=
  let left := setDesk s s.rest.desk.goMain
  (.ok, if s.rest.desk.area = .main then left else showPrompt svc (writeLine left (areaTitle left.rest.desk.area)))

def cmdProxychat (s : CoreSession ω) (argv : List Bytes) : HybbxResult × CoreSession ω :=
  if s.rest.isGuest then (.errDenied, writeLine s "Guests cannot use proxychat.")
  else if argv ≠ [] then (.ok, writeLine s "Usage: /proxychat  —  chat with users on other mains.")
  else match s.rest.desk.enterProxychat with
    | (.ok, desk) => (.ok, write (setDesk s desk) svc.proxychatBanner)
    | (rc, desk) => (rc, setDesk s desk)

def chatResolveChannel (cfg : DeskConfig) (spec : Bytes) : Except HybbxResult ℕ :=
  if spec = [] then .error .errInvalid
  else
    let (parsed, rest) := strtoul spec
    if rest ≠ spec ∧ rest = [] ∧ 1 ≤ parsed ∧ parsed ≤ cfg.channelCount then .ok parsed
    else match cfg.channelNames.findIdx? fun name => strIeq name spec with
      | some i => .ok (i + 1)
      | none => .error .errNotFound

/-- `Channel` and the number, as the answers to `/chat` name it. -/
def channelLine (cfg : DeskConfig) (before : String) (index : ℕ) (between : Bytes) (behind : String) : Bytes :=
  ofString before ++ decimal index ++ between ++ cfg.channelNames.getD (index - 1) [] ++ ofString behind ++ [nl]

def chatMaxNotice (cfg : DeskConfig) (s : CoreSession ω) : CoreSession ω :=
  if s.rest.desk.chatMaxNoticeShown then s
  else write s (ofString "Max " ++ decimal cfg.messageMax ++ ofString " chars per message." ++ [nl])

def cmdChat (s : CoreSession ω) (argv : List Bytes) : HybbxResult × CoreSession ω :=
  if s.rest.isGuest then (.errDenied, writeLine s "Guests cannot use chat.")
  else match argv with
    | [] => cmdOther svc s ⟨ofString "chat", argv⟩
    | spec :: _ =>
      if strIeq spec (ofString "proxychat") then cmdProxychat svc s []
      else if strIeq spec (ofString "show") ∨ strIeq spec (ofString "showall") then cmdOther svc s ⟨ofString "chat", argv⟩
      else match chatResolveChannel svc.config spec with
        | .error .errNotFound => (.ok, writeLine s "Unknown chat channel.")
        | .error rc => (rc, s)
        | .ok index =>
          if s.rest.desk.chatChannel = index then
            (.ok, write s (channelLine svc.config "Already in channel " index [blank] "."))
          else match s.rest.desk.joinChatChannel svc.config index with
            | (.ok, desk) =>
              let s := setDesk (chatMaxNotice svc.config s) desk
              let s := write s (channelLine svc.config "Channel " index (ofString ": ") "")
              (.ok, writeLine s "Each line is a message; /leave or /main to exit.")
            | (rc, desk) => (rc, setDesk s desk)

/-- The words of a subject, in a buffer of `draftSubjectSize`. -/
def mailJoinSubject (argv : List Bytes) : Bytes := ([blank].intercalate (argv.drop 2)).take (draftSubjectSize - 1)

/-- The subcommands on the inbox go into the area, unless their arguments are wrong. -/
def opensInbox (argv : List Bytes) : Bool :=
  match argv with
  | [] => true
  | sub :: args =>
    if strIeq sub (ofString "list") then args = [] || (Mail.mailParseListRange (args.headD [])).isSome
    else if strIeq sub (ofString "delete") ∨ strIeq sub (ofString "del") then (args.head?.bind Mail.mailParseListRange).isSome
    else if strIeq sub (ofString "read") then args ≠ [] && (strtoul (args.headD [])).1 % 2 ^ 32 ≠ 0
    else strIeq sub (ofString "recycle")

def inboxSubcommand (sub : Bytes) : Bool :=
  ["list", "delete", "del", "recycle", "read"].any fun name => strIeq sub (ofString name)

/-- `/proxymail done` -/
def proxymailDone (s : CoreSession ω) : HybbxResult × CoreSession ω :=
  if s.rest.desk.proxymail.composing = false then (.ok, writeLine s "Not composing proxymail.")
  else match svc.proxymailDeliver s.rest.world s.rest.displayName s.rest.desk.proxymail with
    | (rc, world) =>
      let s := setWorld s world
      let left := fun text => showPrompt svc (setDesk (writeLine s text) (s.rest.desk.proxymailDone rc))
      match rc with
      | .ok => (.ok, left "Proxymail sent.")
      | .errUnsupported => (.ok, left "Proxymail is not available — enable mains_proxy and peer links.")
      | .errInvalid => (.ok, writeLine s "Invalid address — use user@mainname.")
      | .errNotFound => (.ok, writeLine s "Unknown remote main — check user@mainname and peer_id.")
      | rc => (rc, writeLine s "Send failed.")

def cmdProxymail (s : CoreSession ω) (argv : List Bytes) : HybbxResult × CoreSession ω :=
  if s.rest.isGuest then (.errDenied, writeLine s "Guests cannot use proxymail.")
  else match argv with
    | [] => cmdOther svc (setDesk s s.rest.desk.enterProxymail.2) ⟨ofString "proxymail", argv⟩
    | sub :: _ =>
      if inboxSubcommand sub then
        cmdOther svc (if opensInbox argv then setDesk s s.rest.desk.enterProxymail.2 else s) ⟨ofString "proxymail", argv⟩
      else if strIeq sub (ofString "send") then
        if argv.length < 3 ∨ mailJoinSubject argv = [] then
          (.ok, writeLine s "Usage: /proxymail send <user>@<main> <subject>")
        else match s.rest.desk.proxymailComposeStart svc.config (argv.getD 1 []) (mailJoinSubject argv) with
          | (.ok, desk) => (.ok, writeLine (setDesk s desk) "Compose body. /proxymail done to send.")
          | (.errInvalid, desk) => (.ok, writeLine (setDesk s desk) "Invalid address or subject. Use user@remote-main.")
          | (rc, desk) => (rc, setDesk s desk)
      else if strIeq sub (ofString "done") then proxymailDone svc s
      else if strIeq sub (ofString "cancel") then
        if s.rest.desk.proxymail.composing = false then (.ok, writeLine s "Not composing proxymail.")
        else (.ok, writeLine (setDesk s s.rest.desk.proxymailCancel) "Compose cancelled.")
      else (.ok, writeLine s "Unknown /proxymail subcommand. Try /help proxymail.")

/-- `/mail done` -/
def mailDone (s : CoreSession ω) : HybbxResult × CoreSession ω :=
  if s.rest.desk.mail.composing = false then (.ok, writeLine s "Not composing mail.")
  else match svc.mailDeliver s.rest.world s.rest.displayName s.rest.desk.mail with
    | (rc, world) =>
      let s := setWorld s world
      match rc with
      | .ok => (.ok, showPrompt svc (setDesk (writeLine s "Message sent.") (s.rest.desk.mailDone rc)))
      | .errNotFound => (.ok, writeLine s "Unknown recipient.")
      | .errDenied => (.ok, writeLine s "Cannot mail that user.")
      | rc => (rc, writeLine s "Send failed.")

def cmdMail (s : CoreSession ω) (argv : List Bytes) : HybbxResult × CoreSession ω :=
  if s.rest.isGuest then (.errDenied, writeLine s "Guests cannot use mail.")
  else match argv with
    | [] => cmdOther svc s ⟨ofString "mail", argv⟩
    | sub :: args =>
      -- with further words the source writes through a null pointer
      if strIeq sub (ofString "proxymail") then cmdProxymail svc s args
      else if inboxSubcommand sub then cmdOther svc s ⟨ofString "mail", argv⟩
      else if strIeq sub (ofString "send") then
        if argv.length < 3 ∨ mailJoinSubject argv = [] then (.ok, writeLine s "Usage: /mail send <user> <subject>")
        else match s.rest.desk.mailComposeStart svc.config (argv.getD 1 []) (svc.resolveUser s.rest.world (argv.getD 1 []))
            (mailJoinSubject argv) with
          | (.ok, desk) => (.ok, writeLine (setDesk s desk) "Compose body. /mail done to send.")
          | (.errInvalid, desk) => (.ok, writeLine (setDesk s desk) "Subject too long.")
          | (rc, desk) => (rc, setDesk s desk)
      else if strIeq sub (ofString "done") then mailDone svc s
      else if strIeq sub (ofString "cancel") then
        if s.rest.desk.mail.composing = false then (.ok, writeLine s "Not composing mail.")
        else (.ok, writeLine (setDesk s s.rest.desk.mailCancel) "Compose cancelled.")
      else (.ok, writeLine s "Unknown /mail subcommand. Try /help mail.")

def caller (s : CoreSession ω) : Command.Session where
  level := s.rest.level
  username := (s.rest.user.map fun user => user.username.text).getD []
  userId := (s.rest.user.map fun user => user.id).getD 0
  loggedIn := s.loggedIn
  loginPrompt := s.loginPrompt

def denialText (s : CoreSession ω) (verb : Bytes) : String :=
  if s.loggedIn = false ∧ s.loginPrompt then "Log in with /login or use /register."
  else if s.rest.isGuest then "Not available to guests. Try /help."
  else if strIeq verb (ofString "register") then "Only guests may self-register with /register."
  else if strIeq verb (ofString "changeme") then "Only registered users may use /changeme."
  else "Insufficient privileges."

/-- `hybbx_command_dispatch` -/
def dispatch (s : CoreSession ω) (cmd : ParsedCommand) : HybbxResult × CoreSession ω :=
  let s := write s [nl]
  if cmd.verb = [] ∨ cmd.isVerb ["help", "?"] then cmdOther svc s cmd
  else if checkAccess svc.registry (caller s) cmd.verb = false then (.errDenied, writeLine s (denialText s cmd.verb))
  else if cmd.isVerb ["leave", "back"] then cmdLeave svc s
  else if cmd.isVerb ["main"] then cmdMain svc s
  else if cmd.isVerb ["chat"] then cmdChat svc s cmd.argv
  else if cmd.isVerb ["mail"] then cmdMail svc s cmd.argv
  else if cmd.isVerb ["proxymail"] then cmdProxymail svc s cmd.argv
  else if cmd.isVerb ["proxychat"] then cmdProxychat svc s cmd.argv
  else if cmd.isVerb ["login"] then cmdLogin svc s cmd.argv
  else if cmd.isVerb ["exit", "logout", "bye", "quit"] then (.sessionEnd, writeLine s "Goodbye.")
  else cmdOther svc s cmd

/-- The commands that the dispatcher tells apart. -/
inductive Handler
  | other
  | denied
  | leave
  | main
  | chat
  | mail
  | proxymail
  | proxychat
  | login
  | exit

def handlerOf (s : CoreSession ω) (cmd : ParsedCommand) : Handler :=
  if cmd.verb = [] ∨ cmd.isVerb ["help", "?"] then .other
  else if checkAccess svc.registry (caller s) cmd.verb = false then .denied
  else if cmd.isVerb ["leave", "back"] then .leave
  else if cmd.isVerb ["main"] then .main
  else if cmd.isVerb ["chat"] then .chat
  else if cmd.isVerb ["mail"] then .mail
  else if cmd.isVerb ["proxymail"] then .proxymail
  else if cmd.isVerb ["proxychat"] then .proxychat
  else if cmd.isVerb ["login"] then .login
  else if cmd.isVerb ["exit", "logout", "bye", "quit"] then .exit
  else .other

def Handler.run (s : CoreSession ω) (cmd : ParsedCommand) : Handler → HybbxResult × CoreSession ω
  | .other => cmdOther svc s cmd
  | .denied => (.errDenied, writeLine s (denialText s cmd.verb))
  | .leave => cmdLeave svc s
  | .main => cmdMain svc s
  | .chat => cmdChat svc s cmd.argv
  | .mail => cmdMail svc s cmd.argv
  | .proxymail => cmdProxymail svc s cmd.argv
  | .proxychat => cmdProxychat svc s cmd.argv
  | .login => cmdLogin svc s cmd.argv
  | .exit => (.sessionEnd, writeLine s "Goodbye.")

lemma dispatch_eq (s : CoreSession ω) (cmd : ParsedCommand) :
    dispatch svc s cmd = (handlerOf svc (write s [nl]) cmd).run svc (write s [nl]) cmd := by
  simp only [dispatch, handlerOf, apply_ite fun handler => Handler.run svc (write s [nl]) cmd handler]
  rfl

/-- A conference that an invited session agrees to; the inviter joins it first. -/
def acceptInvite (s : CoreSession ω) (invite : ConferenceInvite) : CoreSession ω :=
  if s.rest.desk.area = .conference then writeLine s "Already in a conference."
  else match svc.inviterJoins s.rest.world s.rest.user invite with
    | (.error text, world) => write (setWorld s world) text
    | (.ok inviter, world) =>
      let s := setWorld s world
      match s.rest.desk.joinConference invite.topic inviter with
      | (.ok, desk) =>
        let s := setDesk (chatMaxNotice svc.config s) desk
        let s := write s (ofString "Conference: " ++ invite.topic.text ++ [nl])
        writeLine s "Each line is a message; /leave or /main to exit."
      | (_, desk) => writeLine (setWorld (setDesk s desk) (svc.inviterLeaves world invite)) "Conference could not be started."

def replyInvite (s : CoreSession ω) (invite : ConferenceInvite) (line : Bytes) : HybbxResult × CoreSession ω :=
  if inviteReplyYes line = false ∧ inviteReplyNo line = false then (.errNotFound, s)
  else
    let s := setDesk s { s.rest.desk with invite := none }
    if invite.fromUser.text = [] ∨ invite.topic.text = [] then (.errInvalid, s)
    else if inviteReplyNo line then
      (.ok, writeLine (setWorld s (svc.inviteDeclined s.rest.world s.rest.user invite)) "Conference invite declined.")
    else (.ok, acceptInvite svc s invite)

/-- A line that is posted to others, unless a guest types it or it is too long. -/
def postLine (s : CoreSession ω) (place : String) (line : Bytes) (posted : ω) : CoreSession ω :=
  if s.rest.isGuest then writeLine s ("Guests cannot use " ++ place ++ ".")
  else if svc.config.messageMax < line.length then writeLine s "Message too long."
  else setWorld s posted

/-- Where a line goes that is no command. -/
def localLine (s : CoreSession ω) (line : Bytes) : CoreSession ω :=
  let desk := s.rest.desk
  match desk.invite with
  | some invite =>
    match replyInvite svc s invite line with
    | (.ok, s) => s
    | (_, s) => writeLine s "Reply y/n or yes/no."
  | none =>
    if desk.area = .mail ∧ desk.mail.composing then
      match desk.mail.append svc.config.bodyMax line with
      | none => writeLine s "Message body too long."
      | some draft => setDesk s { desk with mail := draft }
    else if desk.area = .proxymail ∧ desk.proxymail.composing then
      match desk.proxymail.append svc.config.bodyMax line with
      | none => writeLine s "Message body too long."
      | some draft => setDesk s { desk with proxymail := draft }
    else match desk.area with
      | .proxychat => postLine svc s "proxychat" line (svc.proxychatPost s.rest.world s.rest.user line)
      | .chat => postLine svc s "chat" line (svc.chatPost s.rest.world s.rest.user desk.chatChannel line)
      | .conference => postLine svc s "conference" line (svc.conferencePost s.rest.world s.rest.user line)
      | _ => s

def commandLine (s : CoreSession ω) (line : Bytes) : Option HybbxResult × CoreSession ω :=
  match commandParse line with
  | .error _ => (none, writeLine s "Command parse error.")
  | .ok (_, cmd) =>
    match dispatch svc s cmd with
    | (.sessionEnd, s) => (some .sessionEnd, { s with loggedIn := false })
    | (.ok, s) => (some .ok, s)
    | (.errDenied, s) => (some .errDenied, s)
    | (.errNotFound, s) => (some .errNotFound, s)
    | (rc, s) => (some rc, writeLine s "Command failed.")

def processLine (s : CoreSession ω) (line : Bytes) : CoreSession ω :=
  if line = [] then s
  else match commandClassify line with
    | .scopeComment => s
    | .scopeLocal => localLine svc s line
    | .scopeHybbx => (commandLine svc s line).2

def promptFollows (d : Desk) : Bool :=
  d.area ∉ [.chat, .conference, .proxychat] && !(d.area = .mail && d.mail.composing) &&
    !(d.area = .proxymail && d.proxymail.composing)

def typedLine (s : CoreSession ω) : Bytes := cstr (s.rest.editor.buf.set s.rest.editor.lineLen 0)

/-- The session as its line is processed, which is in the history by then. -/
def withHistory (s : CoreSession ω) : CoreSession ω :=
  let editor := { s.rest.editor with buf := s.rest.editor.buf.set s.rest.editor.lineLen 0 }
  let s := { s with rest := { s.rest with editor := editor.historyAdd (cstr editor.buf) } }
  if editor.around.inputEcho then write s [nl] else s

def nextLine (s : CoreSession ω) : CoreSession ω :=
  { s with rest := { s.rest with editor := { s.rest.editor with lineLen := 0, lineCursor := 0, historyView := none } } }

def submitLine (s : CoreSession ω) : CoreSession ω :=
  let s := nextLine (processLine svc (withHistory s) (typedLine s))
  if promptFollows s.rest.desk then showPrompt svc s else s

def coreWork : LineWork (Core ω) where
  filterEscape c byte :=
    let (taken, editor) := c.editor.filterEscapeByte byte
    (taken, { c with editor := editor })
  backspace c :=
    let (rc, editor) := c.editor.backspace
    (rc, { c with editor := editor })
  insertChar c byte :=
    let (rc, editor) := c.lineEditor.insertChar byte
    (rc, { c with editor := editor })
  echoNewline c := if c.editor.around.inputEcho then c.editor.around.newline else .ok
  submitLine := submitLine svc

end Commands

inductive CoreEvent (ω : Type*)
  | input (now : ℤ) (data : Bytes)
  | tick (now : ℤ)
  | setBandwidthPaused (paused : Bool)
  | disconnectBandwidth
  | desk (op : DeskOp)
  | switchUser (user : UserRecord)
  | transport (answers : List EchoResult) (newline : EchoResult)
  | world (change : ω → ω)

section Run

variable {ω : Type*} (svc : ServiceCalls ω)

/-- `hybbx_session_disconnect_bandwidth` -/
def disconnectBandwidth (s : CoreSession ω) : CoreSession ω :=
  if s.loggedIn = false then s
  else
    { writeLine { s with bandwidthPaused := false } "You are disconnected by bandwidth limits." with bandwidthDisconnect := true }

def coreStep (s : CoreSession ω) : CoreEvent ω → CoreSession ω
  | .input now data => (Session.handleInput (coreWork svc) now s data).session
  | .tick _ => s
  | .setBandwidthPaused paused => { s with bandwidthPaused := paused }
  | .disconnectBandwidth => disconnectBandwidth s
  | .desk op => setDesk s (deskStep svc.config s.rest.desk op)
  | .switchUser user => (switchUser svc s user).2
  | .transport answers newline =>
    let around := { s.rest.editor.around with answers := answers, newline := newline }
    { s with rest := { s.rest with editor := { s.rest.editor with around := around } } }
  | .world change => setWorld s (change s.rest.world)

def coreRun (s : CoreSession ω) (events : List (CoreEvent ω)) : CoreSession ω := events.foldl (coreStep svc) s

end Run

/-- A session is opened for a guest, whose time may be limited, or at the login prompt. -/
def openCore {ω : Type*} (guest : Option (UserRecord × ℤ)) (around : Surroundings) (world : ω) : CoreSession ω where
  loggedIn := guest.isSome
  loginPrompt := guest.isNone
  bandwidthPaused := false
  bandwidthDisconnect := false
  guestExpiresAt := (guest.map Prod.snd).getD 0
  expectLf := false
  rest := ⟨.opened around, guest.map Prod.fst, .opened, [], world⟩

section Example

/-- A service in which anybody may use mail and chat, that keeps the texts of all messages. -/
def plainService : ServiceCalls (List Bytes) where
  registry := ⟨true, [], [], [], [], [], [], ["mail", "chat", "proxychat", "leave", "exit"].map fun verb =>
    ⟨ofString verb, .guest, none, none⟩⟩
  config := ⟨[ofString "Channel1"], 72, 72, 2048⟩
  prompt := []
  proxychatBanner := []
  resolveUser _ _ := none
  mailDeliver sent _ draft := (.ok, sent ++ [draft.composeBody])
  proxymailDeliver sent _ draft := (.ok, sent ++ [draft.composeBody])
  chatPost sent _ _ line := sent ++ [line]
  proxychatPost sent _ line := sent ++ [line]
  conferencePost sent _ line := sent ++ [line]
  inviteDeclined sent _ _ := sent
  inviterJoins sent _ _ := (.error [], sent)
  inviterLeaves sent _ := sent
  checkLogin sent _ := (.error (.ok, []), sent)
  sessionBegin sent _ := (.ok, sent)
  afterLogin sent _ := ([], sent)
  other sent _ _ echo _ := ⟨.ok, [], echo, false, sent⟩

def bob : UserRecord := { UserRecord.zero with id := 70, username := .copy (ofString "bob"), idFits := by decide }

def newSession : CoreSession (List Bytes) := openCore none ⟨true, .main, 72, [], .ok⟩ []

end Example

end HyBBX.SessionCore
