import HyBBX.Command.CommandEffects
import HyBBX.Lib.Processes

/-! The sessions on threads of their own. Between the calls of one command the commands of other threads go on. -/

namespace HyBBX.Command

open HyBBX.Core HyBBX.Storage HyBBX.Config Lib Lib.Bytes Lib.Text

/-- Where the thread of a session stands in a command. -/
inductive ThreadPc
  | idle
  | entering (u : UserRecord)
  | greeting (u : UserRecord)
  | committing (verb : AccountVerb) (st : Staged)

inductive ThreadInput
  | opened (slot : GuestSlot)
  | closed
  | line (cmd : ParsedCommand) (now : Int64)
  | go (now : Int64) (begun : Bool)

abbrev Threads := Sys ℕ Service ThreadPc

section Phases

variable (env : CommandEnv) (svc : Service) (handle : ℕ) (s : Session) (cmd : ParsedCommand)

def loginPc : Except HybbxResult UserRecord → ThreadPc
  | .ok u => .entering u
  | .error _ => .idle

def commitPc (verb : AccountVerb) : Except HybbxResult Staged → ThreadPc
  | .ok st => .committing verb st
  | .error _ => .idle

/-- The commands that read a record and write it back, up to what follows their search in the store. -/
def searchPhase : AccountVerb → Option ThreadPc
  | .login => some (loginPc (loginUser env svc handle cmd.argv))
  | .activate => some (commitPc .activate (activateUser env svc.accounts s cmd.argv))
  | .promote => some (commitPc .promote (promoteUser env svc.accounts s cmd.argv))
  | .demote => some (commitPc .demote (demoteUser env svc.accounts s cmd.argv))
  | .changeme => some (commitPc .changeme (changemeUser env svc.accounts s cmd.argv))
  | .userchange => some (commitPc .userchange (userchangeUser env svc.accounts s cmd.argv))
  | _ => none

def commandAccepted : Bool :=
  cmd.verb ≠ [] && !cmd.isVerb ["help", "?"] && checkAccess env.registry s cmd.verb

/-- A line is taken by a thread with no command under way. -/
def takeLine (now : Int64) : Service × ThreadPc :=
  match (accountVerb cmd).bind (searchPhase env svc handle s cmd) with
  | some pc => (svc, if commandAccepted env s cmd then pc else .idle)
  | none => (processLine env svc handle cmd now, .idle)

/-- The record that a thread hands to the store next. -/
def ThreadPc.write (now : Int64) : ThreadPc → Option (AccountVerb × Staged)
  | .greeting u => some (.login, loginStaged now u)
  | .committing verb st => some (verb, st)
  | .idle | .entering _ => none

def threadGo (now : Int64) (begun : Bool) (pc : ThreadPc) : Service × ThreadPc :=
  match pc with
  | .idle => (svc, .idle)
  | .entering u => if begun then (svc.setSession handle (switchUser u), .greeting u) else (svc, .idle)
  | .greeting _ | .committing _ _ =>
    match pc.write now with
    | some (_, st) => ({ svc with accounts := (commit svc.accounts (.ok st)).2 }, .idle)
    | none => (svc, .idle)

def threadAct : ThreadInput → Service → ThreadPc → (Service × ThreadPc) × List Empty
  | .opened slot, svc, .idle => (((serviceStep env svc (.opened handle slot)).1, .idle), [])
  | .closed, svc, pc => (((serviceStep env svc (.closed handle)).1, pc), [])
  | .line cmd now, svc, .idle =>
    match svc.session handle with
    | some s => (if s.acceptsInput then takeLine env svc handle s cmd now else (svc, .idle), [])
    | none => ((svc, .idle), [])
  | .go now begun, svc, pc => (threadGo svc handle now begun pc, [])
  | _, svc, pc => ((svc, pc), [])

end Phases

def Threads.start (acc : Accounts) : Threads := ⟨.start acc, fun _ => .idle⟩

def threadStep (env : CommandEnv) : Threads → ℕ × ThreadInput → Threads × List Empty :=
  Sys.step fun handle => threadAct env handle

def threadRun (env : CommandEnv) (acc : Accounts) (evs : List (ℕ × ThreadInput)) : Threads :=
  (Transducer.run (threadStep env) (.start acc) evs).1

section Alone

variable (env : CommandEnv) {svc : Service} {handle : ℕ} {s : Session}

lemma searchPhase_idle {verb : AccountVerb} (cmd : ParsedCommand) (now : Int64) {pc : ThreadPc}
    (hpc : searchPhase env svc handle s cmd verb = some pc) :
    (threadGo (threadGo svc handle now true pc).1 handle now true (threadGo svc handle now true pc).2).1.accounts =
      (runVerb env svc handle s cmd now verb).accounts := by
  cases verb with
  | login =>
    obtain rfl := Option.some.inj hpc
    rw [runVerb, cmdLogin]
    cases loginUser env svc handle cmd.argv <;> rfl
  | activate =>
    obtain rfl := Option.some.inj hpc
    rw [runVerb, cmdActivate]
    cases activateUser env svc.accounts s cmd.argv <;> rfl
  | promote =>
    obtain rfl := Option.some.inj hpc
    rw [runVerb, cmdPromote]
    cases promoteUser env svc.accounts s cmd.argv <;> rfl
  | demote =>
    obtain rfl := Option.some.inj hpc
    rw [runVerb, cmdDemote]
    cases demoteUser env svc.accounts s cmd.argv <;> rfl
  | changeme =>
    obtain rfl := Option.some.inj hpc
    rw [runVerb, cmdChangeme]
    cases changemeUser env svc.accounts s cmd.argv <;> rfl
  | userchange =>
    obtain rfl := Option.some.inj hpc
    rw [runVerb, cmdUserchange]
    cases userchangeUser env svc.accounts s cmd.argv <;> rfl
  | register | userdelete | createuser | delete | deleteme => cases hpc

lemma dispatch_accounts {verb : AccountVerb} {cmd : ParsedCommand} (hverb : accountVerb cmd = some verb) (now : Int64) :
    (commandDispatch env svc handle s cmd now).accounts =
      if commandAccepted env s cmd then (runVerb env svc handle s cmd now verb).accounts else svc.accounts := by
  rw [commandDispatch, hverb]
  by_cases hhelp : cmd.verb = [] ∨ cmd.isVerb ["help", "?"] = true
  · have hno : commandAccepted env s cmd = false := by
      rcases hhelp with hempty | hhelp
      · simp [commandAccepted, hempty]
      · simp [commandAccepted, hhelp]
    rw [if_pos hhelp, hno]
    rfl
  · have hyes : commandAccepted env s cmd = checkAccess env.registry s cmd.verb := by
      rw [not_or, Bool.not_eq_true] at hhelp
      simp [commandAccepted, hhelp]
    rw [if_neg hhelp, hyes]
    cases checkAccess env.registry s cmd.verb <;> rfl

lemma takeLine_idle (hs : svc.session handle = some s) (haccepts : s.acceptsInput = true) (cmd : ParsedCommand)
    (now : Int64) :
    let start := takeLine env svc handle s cmd now
    let next := threadGo start.1 handle now true start.2
    (threadGo next.1 handle now true next.2).1.accounts = (processLine env svc handle cmd now).accounts := by
  dsimp only
  unfold takeLine
  cases hverb : accountVerb cmd with
  | none => rfl
  | some verb =>
    rw [Option.bind_some]
    cases hpc : searchPhase env svc handle s cmd verb with
    | none => rfl
    | some pc =>
      have hline : (processLine env svc handle cmd now).accounts =
          (commandDispatch env svc handle s cmd now).accounts := by
        unfold processLine
        rw [hs]
        simp [haccepts, Service.setSession]
      rw [hline, dispatch_accounts env hverb]
      cases commandAccepted env s cmd with
      | false => rfl
      | true => exact searchPhase_idle env cmd now hpc

/-- A thread that nobody disturbs does to the accounts what the command does in one step. -/
theorem undisturbed (t : Threads) (hidle : t.proc handle = .idle) (cmd : ParsedCommand) (now : Int64) :
    (Transducer.run (threadStep env) t
      [(handle, .line cmd now), (handle, .go now true), (handle, .go now true)]).1.store.accounts =
      (processLine env t.store handle cmd now).accounts := by
  have halone := congrArg Prod.fst (Sys.run_alone (fun handle => threadAct env handle) handle
    [.line cmd now, .go now true, .go now true] t)
  rw [hidle] at halone
  refine (congrArg Service.accounts halone).trans ?_
  cases hs : t.store.session handle with
  | none =>
    unfold processLine
    simp [threadAct, threadGo, hs]
  | some s =>
    by_cases haccepts : s.acceptsInput = true
    · rw [← takeLine_idle env hs haccepts]
      simp [threadAct, hs, haccepts]
    · unfold processLine
      simp [threadAct, threadGo, hs, haccepts]

end Alone

end HyBBX.Command
