import HyBBX.Storage.UserRecord

/-! The command registry: who may give a command, and whose account it may touch. -/

namespace HyBBX.Command

open Lib Lib.Bytes Lib.Text
open Storage (UserLevel)

/-- A level, or the 0 of a cleared record. -/
abbrev Level := Option UserLevel

def levelCode : Level → ℕ
  | none => 0
  | some .sysop => 1
  | some .admin => 2
  | some .mod => 3
  | some .user => 4
  | some .guest => 5

/-- A command; its help texts are left out. -/
structure CommandDef where
  verb : Bytes
  minLevel : UserLevel
  maxLevel : Level
  onlyLevel : Level
  deriving DecidableEq, Repr

structure AliasEntry where
  canonical : Bytes
  aliases : List Bytes
  deriving DecidableEq, Repr

structure TargetRightRule where
  actor : Level
  targets : List UserLevel
  deriving DecidableEq, Repr

structure PromoteRightRule where
  actor : Level
  toLevel : Level
  fromLevels : List UserLevel
  deriving DecidableEq, Repr

structure DemoteRightRule where
  actor : Level
  fromLevels : List UserLevel
  deriving DecidableEq, Repr

structure Registry where
  loaded : Bool
  userchangeRules : List TargetRightRule
  userdeleteRules : List TargetRightRule
  deleteRules : List TargetRightRule
  promoteRules : List PromoteRightRule
  demoteRules : List DemoteRightRule
  aliases : List AliasEntry
  commands : List CommandDef
  deriving DecidableEq, Repr

def Registry.empty : Registry := ⟨false, [], [], [], [], [], [], []⟩

def commandLevelAllowed (cmd : CommandDef) (level : Level) : Bool :=
  if cmd.onlyLevel ≠ none ∧ level ≠ cmd.onlyLevel then false
  else if levelCode cmd.minLevel < levelCode level then false
  else if cmd.maxLevel ≠ none ∧ levelCode level < levelCode cmd.maxLevel then false
  else true

def targetRightAllowed (rules : List TargetRightRule) (actor : Level) (target : UserLevel) : Bool :=
  if target = .sysop ∨ target = .guest then false
  else rules.any fun rule => rule.actor = actor && rule.targets.contains target

namespace Registry

variable (reg : Registry)

def find (verb : Bytes) : Option CommandDef :=
  if reg.loaded then reg.commands.find? fun cmd => strIeq cmd.verb verb else none

/-- An alias with a blank in it is a text for the help only. -/
def canonical (topic : Bytes) : Bytes :=
  if reg.loaded = false ∨ topic = [] then topic
  else if (reg.find topic).isSome then topic
  else match reg.aliases.find? fun entry => entry.aliases.any fun a => !a.contains blank && strIeq a topic with
    | some entry => entry.canonical
    | none => topic

def verbAllowed (level : Level) (verb : Bytes) : Bool :=
  if verb = [] then true
  else if reg.loaded = false then false
  else match reg.find (reg.canonical verb) with
    | none => false
    | some cmd => commandLevelAllowed cmd level

def mayUserchange (actor : Level) (target : UserLevel) : Bool :=
  reg.loaded && targetRightAllowed reg.userchangeRules actor target

def mayUserdelete (actor : Level) (target : UserLevel) : Bool :=
  if reg.loaded = false ∨ target = .sysop then false
  else reg.userdeleteRules.any fun rule => rule.actor = actor && rule.targets.contains target

def mayDelete (actor : Level) (target : UserLevel) : Bool :=
  if reg.loaded = false then false
  else if target = .sysop then false
  else targetRightAllowed reg.deleteRules actor target

def mayPromote (actor : Level) (target : UserLevel) (targetActive : Bool) (newLevel : UserLevel) : Bool :=
  if reg.loaded = false ∨ targetActive = false ∨ target = .guest ∨ target = .sysop then false
  else reg.promoteRules.any fun rule =>
    rule.actor = actor && rule.toLevel = some newLevel && rule.fromLevels.contains target

-- the only right without a guard for the Sysop
def mayDemote (actor : Level) (target : UserLevel) : Bool :=
  if reg.loaded = false then false
  else reg.demoteRules.any fun rule => rule.actor = actor && rule.fromLevels.contains target

/-- Apart from demotion no right reaches the Sysop. -/
lemma sysop_guarded (actor : Level) (active : Bool) (newLevel : UserLevel) :
    reg.mayUserchange actor .sysop = false ∧ reg.mayUserdelete actor .sysop = false ∧
      reg.mayDelete actor .sysop = false ∧ reg.mayPromote actor .sysop active newLevel = false := by
  refine ⟨?_, ?_, ?_, ?_⟩
  · simp [mayUserchange, targetRightAllowed]
  · simp [mayUserdelete]
  · simp [mayDelete]
  · simp [mayPromote]

end Registry

end HyBBX.Command
