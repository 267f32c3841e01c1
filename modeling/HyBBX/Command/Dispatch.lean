import HyBBX.Command.AccountCommands
import HyBBX.Lib.Transducer
import HyBBX.Lib.Numeral

/-! From a parsed line to the command it names, and the runs of all sessions. -/

namespace HyBBX.Command

open HyBBX.Core HyBBX.Storage Lib Lib.Bytes Lib.Text Lib.Numeral

def ParsedCommand.isVerb (cmd : ParsedCommand) (names : List String) : Bool :=
  names.any fun name => strIeq cmd.verb (ofString name)

def verbAllowedLoginPrompt (reg : Registry) (verb : Bytes) : Bool :=
  verb = [] || reg.verbAllowed (some .guest) verb ||
    ["exit", "logout", "bye", "quit"].any fun name => strIeq verb (ofString name)

def checkAccess (reg : Registry) (s : Session) (verb : Bytes) : Bool :=
  if s.loggedIn = false ∧ s.loginPrompt then verbAllowedLoginPrompt reg verb else reg.verbAllowed s.level verb

/-- The commands on accounts, as the dispatcher tells them apart. -/
inductive AccountVerb
  | login
  | register
  | changeme
  | userchange
  | userdelete
  | createuser
  | activate
  | promote
  | demote
  | delete
  | deleteme
  deriving DecidableEq, Repr

def accountVerb (cmd : ParsedCommand) : Option AccountVerb :=
  if cmd.isVerb ["login"] then some .login
  else if cmd.isVerb ["register"] then some .register
  else if cmd.isVerb ["changeme"] then some .changeme
  else if cmd.isVerb ["changeuser", "userchange"] then some .userchange
  else if cmd.isVerb ["deleteuser", "userdelete"] then some .userdelete
  else if cmd.isVerb ["usercreate", "createuser"] then some .createuser
  else if cmd.isVerb ["activate"] then some .activate
  else if cmd.isVerb ["promote"] then some .promote
  else if cmd.isVerb ["demote"] then some .demote
  else if cmd.isVerb ["delete", "del"] then some .delete
  else if cmd.isVerb ["deleteme"] then some .deleteme
  else none

section Dispatch

variable (env : CommandEnv) (svc : Service) (handle : ℕ) (s : Session) (cmd : ParsedCommand) (now : Int64)

/-- A command that changes the accounts and not its session. -/
def CmdResult.of (r : HybbxResult × Accounts) : CmdResult := ⟨r.1, r.2, s⟩

def runVerb : AccountVerb → CmdResult
  | .login => cmdLogin env svc handle s cmd.argv now
  | .register => .of s (cmdRegister env now svc.accounts s cmd.argv)
  | .changeme => .of s (cmdChangeme env svc.accounts s cmd.argv)
  | .userchange => .of s (cmdUserchange env svc.accounts s cmd.argv)
  | .userdelete => .of s (cmdUserdelete env svc.accounts s cmd.argv)
  | .createuser => .of s (cmdCreateuser env now svc.accounts cmd.argv)
  | .activate => .of s (cmdActivate env svc.accounts s cmd.argv)
  | .promote => .of s (cmdPromote env svc.accounts s cmd.argv)
  | .demote => .of s (cmdDemote env svc.accounts s cmd.argv)
  | .delete => .of s (cmdDelete env svc.accounts s cmd.argv)
  | .deleteme => .of s (cmdDeleteme svc.accounts s cmd.argv)

/-- The other commands leave accounts and logins alone. -/
def commandDispatch : CmdResult :=
  if cmd.verb = [] ∨ cmd.isVerb ["help", "?"] then ⟨.ok, svc.accounts, s⟩
  else if checkAccess env.registry s cmd.verb = false then ⟨.errDenied, svc.accounts, s⟩
  else match accountVerb cmd with
    | some verb => runVerb env svc handle s cmd now verb
    | none => ⟨if cmd.isVerb ["exit", "logout", "bye", "quit"] then .sessionEnd else .ok, svc.accounts, s⟩

def sessionAfter (r : CmdResult) : Session :=
  if r.rc = .sessionEnd then { r.session with loggedIn := false } else r.session

def processLine : Service :=
  match svc.session handle with
  | none => svc
  | some s =>
    if s.acceptsInput = false then svc
    else
      let r := commandDispatch env svc handle s cmd now
      { svc with accounts := r.accounts }.setSession handle (sessionAfter r)

end Dispatch

inductive ServiceEvent
  | opened (handle : ℕ) (slot : GuestSlot)
  | closed (handle : ℕ)
  | command (handle : ℕ) (cmd : ParsedCommand) (now : Int64)

def serviceStep (env : CommandEnv) (svc : Service) : ServiceEvent → Service × List Empty
  | .opened handle slot =>
    if (svc.session handle).isSome then (svc, [])
    else ({ svc with sessions := (handle, sessionOpen env.auth slot) :: svc.sessions }, [])
  | .closed handle => ({ svc with sessions := svc.sessions.filter fun p => p.1 ≠ handle }, [])
  | .command handle cmd now => (processLine env svc handle cmd now, [])

def Service.start (acc : Accounts) : Service := ⟨acc, []⟩

def serviceRun (env : CommandEnv) (acc : Accounts) (evs : List ServiceEvent) : Service :=
  (Transducer.run (serviceStep env) (.start acc) evs).1

/-! From a line to the command in it. -/

inductive CommandScope
  | scopeLocal
  | scopeHybbx
  | scopeComment
  deriving DecidableEq, Repr

def cmdTokenMax : ℕ := 16

def skipLeadingSpace (line : Bytes) : Bytes := line.dropWhile isSpace

def commandClassify (line : Bytes) : CommandScope :=
  match (skipLeadingSpace line).head? with
  | some 0x2F => .scopeHybbx
  | some 0x3B => .scopeComment
  | some 0x23 => .scopeComment
  | _ => .scopeLocal

/-- The outer option is for an alias that is not there, the inner one for nothing behind it. -/
def stripOneCommandAlias (rest name : Bytes) : Option (Option Bytes) :=
  if strIeq rest name then some none
  else if name <+: rest ∧ isSpace (rest.getD name.length 0) then
    let rest := skipLeadingSpace (rest.drop name.length)
    some (if rest = [] then none else some rest)
  else none

/-- `none` stands for the help. -/
def stripCommandAlias (rest : Bytes) : Option Bytes :=
  if rest = [] then none
  else (["commands", "command", "cmd"].findSome? fun name => stripOneCommandAlias rest (ofString name)).getD (some rest)

def splitTokens (line : Bytes) : List Bytes := (line.splitOnP isSpace).filter (· ≠ [])

def parseHybbxLine (line : Bytes) : Except HybbxResult ParsedCommand :=
  match stripCommandAlias (skipLeadingSpace line.tail) with
  | none => .ok ⟨ofString "help", []⟩
  | some rest => match splitTokens rest with
    | [] => .ok ⟨ofString "help", []⟩
    | verb :: argv => if cmdTokenMax < argv.length + 1 then .error .errInvalid else .ok ⟨verb, argv⟩

/-- A line that is no command has no verb. -/
def commandParse (line : Bytes) : Except HybbxResult (CommandScope × ParsedCommand) :=
  let trimmed := skipLeadingSpace line
  match commandClassify trimmed with
  | .scopeHybbx => (parseHybbxLine trimmed).map (Prod.mk .scopeHybbx)
  | scope => .ok (scope, ⟨[], []⟩)

def carriesPassword : AccountVerb → Bool
  | .login | .register | .changeme | .userchange => true
  | _ => false

/-- The parser maps the line to a verb whose arguments are passwords. -/
def PasswordLine (line : Bytes) : Prop :=
  ∃ scope cmd verb, commandParse line = .ok (scope, cmd) ∧ accountVerb cmd = some verb ∧ carriesPassword verb = true

lemma passwordLine_ne_nil {line : Bytes} (h : PasswordLine line) : line ≠ [] := by
  rintro rfl
  obtain ⟨scope, cmd, verb, hparse, hverb, hsecret⟩ := h
  have hnone : commandParse [] = .ok (.scopeLocal, ⟨[], []⟩) := rfl
  rw [hnone, Except.ok.injEq, Prod.mk.injEq] at hparse
  obtain ⟨-, rfl⟩ := hparse
  have hno : accountVerb ⟨[], []⟩ = none := by decide
  rw [hno] at hverb
  cases hverb

end HyBBX.Command
