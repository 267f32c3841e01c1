import HyBBX.Command.Registry
import HyBBX.Lib.LineReader

/-! Reading `commands.yaml` into the registry. -/

namespace HyBBX.Command

open Lib Lib.Bytes Lib.Text Lib.Numeral Lib.LineReader
open Storage (UserLevel userLevelParse)

def configLineMax : ℕ := 512
def cmdVerbMax : ℕ := 32
def commandsMax : ℕ := 64
def commandsAliasesMax : ℕ := 48
def commandsAliasPer : ℕ := 8
def rightsTargetRulesMax : ℕ := 16
def rightsPromoteRulesMax : ℕ := 8
def rightsDemoteRulesMax : ℕ := 4

abbrev colon : UInt8 := 0x3A
abbrev comma : UInt8 := 0x2C
abbrev dash : UInt8 := 0x2D
abbrev hash : UInt8 := 0x23
abbrev openBracket : UInt8 := 0x5B
abbrev closeBracket : UInt8 := 0x5D

def stripQuotes (s : Bytes) : Bytes :=
  let t := trim s
  if 2 ≤ t.length ∧ t.head? = t.getLast? ∧ (t.head? = some 0x22 ∨ t.head? = some 0x27) then t.tail.dropLast else t

def lineIndent (line : Bytes) : ℕ := (line.takeWhile (· = blank)).length

def lineKey (line : Bytes) : Bytes := line.dropWhile (· = blank)

def tokenByte (b : UInt8) : Bool := b ≠ comma && b ≠ closeBracket && !isSpace b

/-- The tokens up to the closing bracket. The outer option is for a loop without end (a byte such as a tab is neither
skipped nor part of a token), the inner one for a list with more tokens than there is room for. -/
def bracketTokens : ℕ → ℕ → Bytes → Option (Option (List Bytes))
  | 0, _, _ => none
  | fuel + 1, room, s =>
    let s := s.dropWhile fun b => b = blank || b = comma
    if s = [] ∨ s.head? = some closeBracket then some (some [])
    else
      let token := (s.takeWhile tokenByte).take (cmdVerbMax - 1)
      if token = [] then none
      else if room = 0 then some none
      else (bracketTokens fuel (room - 1) (s.drop token.length)).map (Option.map fun tokens => token :: tokens)

def parseLevelList (value : Bytes) (max : ℕ) : Option (Option (List UserLevel)) :=
  if openBracket ∉ value then some (some [])
  else
    let s := (value.dropWhile (· ≠ openBracket)).tail
    (bracketTokens (s.length + 1) max s).map (Option.map (List.map userLevelParse))

inductive YamlSection
  | none
  | rights
  | aliases
  | commands
  deriving DecidableEq, Repr

inductive RightKind
  | none
  | userchange
  | userdelete
  | delete
  | promote
  | demote
  deriving DecidableEq, Repr

/-- The registry so far; the pointers of the source always lead to the last rule and the last command. -/
structure YamlState where
  registry : Registry
  yamlSection : YamlSection
  rightKind : RightKind
  ruleOpen : Bool
  aliasCanonical : Bytes
  commandOpen : Bool

def YamlState.start : YamlState := ⟨.empty, .none, .none, false, [], false⟩

def modifyLast {α : Type} (f : α → α) (l : List α) : List α := l.modify (l.length - 1) f

def addRule {α : Type} (max : ℕ) (rule : α) (rules : List α) : List α × Bool :=
  if rules.length < max then (rules ++ [rule], true) else (rules, false)

def sectionOf (name : Bytes) : YamlSection :=
  if strIeq name (ofString "rights") then .rights
  else if strIeq name (ofString "aliases") then .aliases
  else if strIeq name (ofString "commands") then .commands
  else .none

def rightKindOf (key : Bytes) : RightKind :=
  if strIeq key (ofString "userchange") then .userchange
  else if strIeq key (ofString "userdelete") then .userdelete
  else if strIeq key (ofString "delete") then .delete
  else if strIeq key (ofString "promote") then .promote
  else if strIeq key (ofString "demote") then .demote
  else .none

def openRule (st : YamlState) : YamlState :=
  let reg := st.registry
  match st.rightKind with
  | .none => st
  | .userchange =>
    let r := addRule rightsTargetRulesMax ⟨none, []⟩ reg.userchangeRules
    { st with registry := { reg with userchangeRules := r.1 }, ruleOpen := st.ruleOpen || r.2 }
  | .userdelete =>
    let r := addRule rightsTargetRulesMax ⟨none, []⟩ reg.userdeleteRules
    { st with registry := { reg with userdeleteRules := r.1 }, ruleOpen := st.ruleOpen || r.2 }
  | .delete =>
    let r := addRule rightsTargetRulesMax ⟨none, []⟩ reg.deleteRules
    { st with registry := { reg with deleteRules := r.1 }, ruleOpen := st.ruleOpen || r.2 }
  | .promote =>
    let r := addRule rightsPromoteRulesMax ⟨none, none, []⟩ reg.promoteRules
    { st with registry := { reg with promoteRules := r.1 }, ruleOpen := st.ruleOpen || r.2 }
  | .demote =>
    let r := addRule rightsDemoteRulesMax ⟨none, []⟩ reg.demoteRules
    { st with registry := { reg with demoteRules := r.1 }, ruleOpen := st.ruleOpen || r.2 }

def targetField (key value : Bytes) (rule : TargetRightRule) : Option TargetRightRule :=
  if strIeq key (ofString "actor") then some { rule with actor := some (userLevelParse value) }
  else if strIeq key (ofString "targets") then
    (parseLevelList value 5).map fun levels => { rule with targets := levels.getD rule.targets }
  else some rule

def promoteField (key value : Bytes) (rule : PromoteRightRule) : Option PromoteRightRule :=
  if strIeq key (ofString "actor") then some { rule with actor := some (userLevelParse value) }
  else if strIeq key (ofString "to") then some { rule with toLevel := some (userLevelParse value) }
  else if strIeq key (ofString "from") then
    (parseLevelList value 4).map fun levels => { rule with fromLevels := levels.getD rule.fromLevels }
  else some rule

def demoteField (key value : Bytes) (rule : DemoteRightRule) : Option DemoteRightRule :=
  if strIeq key (ofString "actor") then some { rule with actor := some (userLevelParse value) }
  else if strIeq key (ofString "from") then
    (parseLevelList value 4).map fun levels => { rule with fromLevels := levels.getD rule.fromLevels }
  else some rule

/-- A field of the last element, where reading it comes to an end. -/
def fieldOfLast {α : Type} (field : α → Option α) (l : List α) : Option (List α) :=
  match l.getLast? with
  | none => some l
  | some last => (field last).map fun last' => modifyLast (fun _ => last') l

def rightField (st : YamlState) (key value : Bytes) : Option YamlState :=
  let reg := st.registry
  if st.ruleOpen = false then some st
  else match st.rightKind with
    | .none => some st
    | .userchange => (fieldOfLast (targetField key value) reg.userchangeRules).map fun rules =>
      { st with registry := { reg with userchangeRules := rules } }
    | .userdelete => (fieldOfLast (targetField key value) reg.userdeleteRules).map fun rules =>
      { st with registry := { reg with userdeleteRules := rules } }
    | .delete => (fieldOfLast (targetField key value) reg.deleteRules).map fun rules =>
      { st with registry := { reg with deleteRules := rules } }
    | .promote => (fieldOfLast (promoteField key value) reg.promoteRules).map fun rules =>
      { st with registry := { reg with promoteRules := rules } }
    | .demote => (fieldOfLast (demoteField key value) reg.demoteRules).map fun rules =>
      { st with registry := { reg with demoteRules := rules } }

/-- Key and value of a line with a colon; the value without its quotes. -/
def lineField (line : Bytes) : Option (Bytes × Bytes) :=
  if colon ∉ line then none
  else some (lineKey (line.takeWhile (· ≠ colon)), stripQuotes (line.dropWhile (· ≠ colon)).tail)

def isHeader (line : Bytes) : Bool := line.getLast? = some colon

def rightsLine (st : YamlState) (indent : ℕ) (line : Bytes) : Option YamlState :=
  if indent = 2 ∧ isHeader line then
    some { st with ruleOpen := false, rightKind := rightKindOf (lineKey line.dropLast) }
  else if indent = 4 ∧ line.head? = some dash then some (openRule st)
  else if 6 ≤ indent then
    match lineField line with
    | none => some st
    | some (key, value) => rightField st key value
  else some st

def aliasesLine (st : YamlState) (indent : ℕ) (line : Bytes) : YamlState :=
  let reg := st.registry
  if indent = 2 ∧ isHeader line then
    if commandsAliasesMax ≤ reg.aliases.length then st
    else
      let canonical := strlcpy cmdVerbMax (lineKey line.dropLast)
      { st with registry := { reg with aliases := reg.aliases ++ [⟨canonical, []⟩] }, aliasCanonical := canonical }
  else if 4 ≤ indent ∧ line.head? = some dash ∧ st.aliasCanonical ≠ [] then
    let name := strlcpy cmdVerbMax (stripQuotes line.tail)
    { st with
      registry := { reg with
        aliases := modifyLast (fun entry =>
          if entry.aliases.length < commandsAliasPer then { entry with aliases := entry.aliases ++ [name] } else entry)
          reg.aliases } }
  else st

def commandField (key value : Bytes) (cmd : CommandDef) : CommandDef :=
  if strIeq key (ofString "min") then { cmd with minLevel := userLevelParse value }
  else if strIeq key (ofString "max") then { cmd with maxLevel := some (userLevelParse value) }
  else if strIeq key (ofString "only") then { cmd with onlyLevel := some (userLevelParse value) }
  else cmd

def commandsLine (st : YamlState) (indent : ℕ) (line : Bytes) : YamlState :=
  let reg := st.registry
  if indent = 2 ∧ isHeader line then
    if reg.commands.length < commandsMax then
      { st with
        registry := { reg with
          commands := reg.commands ++ [⟨strlcpy cmdVerbMax (lineKey line.dropLast), .guest, none, none⟩] }
        commandOpen := true }
    else st
  else if 4 ≤ indent ∧ st.commandOpen then
    match lineField line with
    | none => st
    | some (key, value) =>
      { st with registry := { reg with commands := modifyLast (commandField key value) reg.commands } }
  else st

def yamlLine (st : YamlState) (piece : Bytes) : Option YamlState :=
  let indent := lineIndent piece
  let line := trim piece
  if line = [] ∨ line.head? = some hash then some st
  else if indent = 0 ∧ isHeader line then
    let sec := sectionOf line.dropLast
    some { st with
      yamlSection := sec
      rightKind := if sec = .none then st.rightKind else .none
      ruleOpen := false
      commandOpen := false }
  else match st.yamlSection with
    | .none => some st
    | .rights => rightsLine st indent line
    | .aliases => some (aliasesLine st indent line)
    | .commands => some (commandsLine st indent line)

/-- The registry a file loads as; none where the file is refused, or reading it does not end. -/
def parseCommandsYaml (file : Bytes) : Option Registry :=
  (((fgets configLineMax file).map cstr).foldlM yamlLine .start).bind fun st =>
    if st.registry.commands = [] then none else some { st.registry with loaded := true }

end HyBBX.Command
