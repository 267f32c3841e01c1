import HyBBX.SessionCore.Lines

/-! `/mail proxymail`: the command that it makes of its arguments, in memory. -/

namespace HyBBX.SessionCore

open HyBBX.Core Lib Lib.Bytes Lib.Text
open Command (ParsedCommand cmdTokenMax commandParse)

/-- A parsed command with its pointers; `none` is the null pointer. -/
structure CommandMemory where
  verb : Option Bytes
  argc : ℕ
  argv : Option (List Bytes)
  deriving DecidableEq

namespace CommandMemory

variable (cmd : CommandMemory)

/-- As the parser leaves it: without arguments there is no array. -/
def parsed (cmd : ParsedCommand) : CommandMemory :=
  ⟨some cmd.verb, cmd.argv.length, if cmd.argv = [] then none else some cmd.argv⟩

/-- `none` for a read outside of the memory of the command, and for a write there. -/
def argAt (i : ℕ) : Option Bytes := cmd.argv.bind fun argv => argv[i]?

def setArg (i : ℕ) (arg : Bytes) : Option CommandMemory :=
  cmd.argv.bind fun argv => if i < argv.length then some { cmd with argv := some (argv.set i arg) } else none

def arguments : Option (List Bytes) := (List.range cmd.argc).mapM cmd.argAt

/-- The copy loop of `cmd_mail`, from argument `i` on. -/
def copyArgs (proxy : CommandMemory) : Option CommandMemory :=
  (List.range (min proxy.argc cmdTokenMax)).foldlM (fun proxy i => (cmd.argAt (i + 1)).bind (proxy.setArg i)) proxy

/-- The structure is cleared, and then gets a verb and a count. -/
def nested : Option CommandMemory := cmd.copyArgs ⟨some (ofString "proxymail"), cmd.argc - 1, none⟩

lemma argAt_parsed (verb : Bytes) (argv : List Bytes) : (parsed ⟨verb, argv⟩).argAt = fun i => argv[i]? := by
  funext i
  rw [argAt, parsed]
  by_cases hnone : argv = []
  · subst hnone
    rfl
  · rw [if_neg hnone, Option.bind_some]

@[simp] lemma arguments_parsed (verb : Bytes) (argv : List Bytes) : (parsed ⟨verb, argv⟩).arguments = some argv := by
  rw [arguments, argAt_parsed]
  change (List.range argv.length).mapM (fun i => argv[i]?) = some argv
  induction argv with
  | nil => rfl
  | cons arg argv ih =>
    rw [List.length_cons, List.range_succ_eq_map, List.mapM_cons, List.mapM_map]
    change (do let args ← (List.range argv.length).mapM (fun i => argv[i]?); pure (arg :: args)) = some (arg :: argv)
    rw [ih]
    rfl

/-- There is no array that the arguments could be copied to. -/
lemma copyArgs_null (proxy : CommandMemory) (hnull : proxy.argv = none) (hargc : proxy.argc ≠ 0) :
    cmd.copyArgs proxy = none := by
  obtain ⟨n, hn⟩ : ∃ n, min proxy.argc cmdTokenMax = n + 1 := Nat.exists_eq_succ_of_ne_zero (by rw [cmdTokenMax]; omega)
  have hwrite : ∀ arg, proxy.setArg 0 arg = none := by
    intro arg
    rw [setArg, hnull, Option.bind_none]
  rw [copyArgs, hn, List.range_succ_eq_map, List.foldlM_cons]
  cases cmd.argAt (0 + 1) with
  | none => rfl
  | some arg =>
    rw [Option.bind_some, hwrite]
    rfl

lemma nested_parsed (verb sub : Bytes) (args : List Bytes) :
    (parsed ⟨verb, sub :: args⟩).nested = if args = [] then some (parsed ⟨ofString "proxymail", []⟩) else none := by
  by_cases hnone : args = []
  · subst hnone
    rfl
  · rw [if_neg hnone, nested]
    apply copyArgs_null
    · rfl
    · rw [parsed, List.length_cons, Nat.add_sub_cancel]
      exact mt List.length_eq_zero_iff.mp hnone

end CommandMemory

section Memory

variable {ω : Type*} (svc : ServiceCalls ω) (s : CoreSession ω)

/-- `cmd_proxymail` on a command in memory; `none` is an access outside of it. -/
def cmdProxymailAt (cmd : CommandMemory) : Option (HybbxResult × CoreSession ω) :=
  cmd.arguments.map (cmdProxymail svc s)

/-- `cmd_mail` on a command in memory. -/
def cmdMailAt (cmd : CommandMemory) : Option (HybbxResult × CoreSession ω) :=
  cmd.arguments.bind fun argv =>
    if s.rest.isGuest = false ∧ argv.head?.any (fun sub => strIeq sub (ofString "proxymail")) then
      cmd.nested.bind (cmdProxymailAt svc s)
    else some (cmdMail svc s argv)

variable {svc s}

/-- Without further words `/mail proxymail` does what `/proxymail` does. With any it writes through a null pointer. -/
theorem nested_proxymail_iff (verb verb' : Bytes) (sub : Bytes) (args : List Bytes) (hguest : s.rest.isGuest = false)
    (hsub : strIeq sub (ofString "proxymail") = true) :
    cmdMailAt svc s (.parsed ⟨verb, sub :: args⟩) = cmdProxymailAt svc s (.parsed ⟨verb', args⟩) ↔ args = [] := by
  have hmail : cmdMailAt svc s (.parsed ⟨verb, sub :: args⟩) =
      if args = [] then some (cmdProxymail svc s []) else none := by
    rw [cmdMailAt, CommandMemory.arguments_parsed, Option.bind_some, if_pos ⟨hguest, hsub⟩, CommandMemory.nested_parsed]
    by_cases hnone : args = []
    · rw [if_pos hnone, if_pos hnone, Option.bind_some, cmdProxymailAt, CommandMemory.arguments_parsed, Option.map_some]
    · rw [if_neg hnone, if_neg hnone, Option.bind_none]
  have hproxy : cmdProxymailAt svc s (.parsed ⟨verb', args⟩) = some (cmdProxymail svc s args) := by
    rw [cmdProxymailAt, CommandMemory.arguments_parsed, Option.map_some]
  rw [hmail, hproxy]
  constructor
  · intro h
    by_contra hnone
    rw [if_neg hnone] at h
    cases h
  · rintro rfl
    rfl

end Memory

section Example

theorem nested_proxymail_bare :
    cmdMailAt plainService (coreRun plainService newSession [.switchUser bob]) (.parsed ⟨ofString "mail", [ofString "ProxyMail"]⟩) =
      cmdProxymailAt plainService (coreRun plainService newSession [.switchUser bob]) (.parsed ⟨ofString "proxymail", []⟩) :=
  (nested_proxymail_iff (ofString "mail") (ofString "proxymail") (ofString "ProxyMail") [] (by decide +kernel) (by decide +kernel)).mpr rfl

/-- One word too many. -/
theorem nested_proxymail_list :
    let s := coreRun plainService newSession [.switchUser bob]
    commandParse (ofString "/mail proxymail list") = .ok (.scopeHybbx,
      ⟨ofString "mail", [ofString "proxymail", ofString "list"]⟩) ∧
      s.loggedIn = true ∧ s.rest.isGuest = false ∧
      cmdMailAt plainService s (.parsed ⟨ofString "mail", [ofString "proxymail", ofString "list"]⟩) = none ∧
      (cmdProxymailAt plainService s (.parsed ⟨ofString "proxymail", [ofString "list"]⟩)).isSome = true := by
  refine ⟨?_, ?_, ?_, ?_, ?_⟩ <;> decide +kernel

end Example

end HyBBX.SessionCore
