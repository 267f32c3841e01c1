import HyBBX.Command.AliasSpelling
import HyBBX.Command.AreasYaml

/-! What the help and the menus show: at the login prompt and to a Guest. -/

namespace HyBBX.Command

open HyBBX.Core Lib Lib.Bytes Lib.Text Lib.Numeral
open Storage (strIeq_iff)

structure HelpCommand extends CommandDef where
  line1 : Bytes
  line2 : Bytes
  deriving DecidableEq

/-- The registry with its help texts and menus. The commands in `rights` do not count. -/
structure MenuRegistry where
  commands : List HelpCommand
  rights : Registry
  areas : AreasRegistry
  aliasLines : List Bytes

/-- A header or a line of help, the answer that there is none, or an area with its verbs; how these are broken into lines is
left out. -/
inductive Shown
  | line (text : Bytes)
  | answer (text : Bytes)
  | verbs (label : Bytes) (verbs : List Bytes)
  deriving DecidableEq

def menuLevelName : Level → Bytes
  | some .sysop => ofString "Sysop"
  | some .admin => ofString "Admin"
  | some .mod => ofString "Mod"
  | some .user => ofString "User"
  | _ => ofString "Guest"

def helpUnknown (s : Session) : Shown :=
  .answer (ofString (if s.isGuest || s.loginPrompt && !s.loggedIn then "Unknown command. Try /help." else "Unknown command. /help for list."))

namespace MenuRegistry

variable (reg : MenuRegistry)

def registry : Registry := { reg.rights with commands := reg.commands.map HelpCommand.toCommandDef }

def findHelp (topic : Bytes) : Option HelpCommand :=
  if reg.registry.loaded then reg.commands.find? fun cmd => strIeq cmd.verb topic else none

def areaFind (label : Bytes) : Option MenuArea := reg.areas.areas.find? fun area => strIeq area.label label

def collectAreaVerbs (area : MenuArea) (level : Level) (filterAccess : Bool) : List Bytes :=
  ((area.verbs ++ area.subareas.flatten).filter fun verb => !filterAccess || reg.registry.verbAllowed level verb).take verbsPerGroup

def renderArea (area : MenuArea) (level : Level) (filterAccess : Bool) : List Shown :=
  let verbs := reg.collectAreaVerbs area level filterAccess
  if verbs = [] then []
  else .verbs area.label verbs ::
    if filterAccess then [] else (area.subareas.filter (· ≠ [])).map fun verbs => .verbs [] verbs

def renderAreaLabels (labels : List Bytes) (level : Level) (filterAccess : Bool) : List Shown :=
  labels.flatMap fun label => ((reg.areaFind label).map fun area => reg.renderArea area level filterAccess).getD []

def menuLayout (level : Level) : Option MenuLevel :=
  reg.areas.menuLevels.find? fun l => strIeq l.name (menuLevelName level)

def showMenu (level : Level) : List Shown :=
  if reg.registry.loaded = false then []
  else .line reg.areas.menuHeader :: ((reg.menuLayout level).map fun l => reg.renderAreaLabels l.areas level true).getD []

def showIndex : List Shown :=
  if reg.registry.loaded = false then []
  else .line reg.areas.indexHeader :: reg.renderAreaLabels reg.areas.indexLabels (some .guest) false

def showAliases : List Shown :=
  if reg.registry.loaded = false then [] else .line reg.areas.aliasHeader :: reg.aliasLines.map .line

/-- The command whose help a topic gets, if there is one for the level. -/
def helpFor (level : Level) (topic : Bytes) : Option HelpCommand :=
  let canonical := reg.registry.canonical topic
  if reg.registry.verbAllowed level canonical = false then none
  else (reg.findHelp canonical).filter fun cmd => cmd.line1 ≠ []

def cmdHelpTopic (s : Session) (topic : Bytes) : List Shown :=
  if topic = [] then reg.showMenu s.level
  else match reg.helpFor s.level topic with
    | none => [helpUnknown s]
    | some cmd => .line cmd.line1 :: if cmd.line2 = [] then [] else [.line cmd.line2]

/-- The help on the first argument, or all of something. -/
def topicOr (s : Session) (all : List Shown) : List Bytes → List Shown
  | [] => all
  | topic :: _ => reg.cmdHelpTopic s topic

/-- What `/help`, `/menu`, `/index` and `/alias` write; other commands and refusals show no verbs and no help. -/
def helpShown (s : Session) (cmd : ParsedCommand) : List Shown :=
  if cmd.verb = [] ∨ cmd.isVerb ["help", "?"] then reg.topicOr s (reg.showMenu s.level) cmd.argv
  else if checkAccess reg.registry s cmd.verb = false then []
  else if cmd.isVerb ["menu"] then reg.topicOr s (reg.showMenu s.level) cmd.argv
  else if cmd.isVerb ["index"] then reg.topicOr s reg.showIndex cmd.argv
  else if cmd.isVerb ["alias"] then reg.topicOr s reg.showAliases cmd.argv
  else []

end MenuRegistry

def AtPrompt (s : Session) : Prop := s.level = none ∧ s.loggedIn = false ∧ s.loginPrompt = true

def GuestLogin (s : Session) : Prop := s.level = some .guest ∧ s.loggedIn = true

/-- The verbs that the prompt has on top of those of a Guest. -/
def promptVerb (verb : Bytes) : Bool := ["exit", "logout", "bye", "quit", "register"].any fun name =>
    strIeq verb (ofString name)

/-- No command that a verb finds is for a level above Guest. -/
def MenuRegistry.GuestVerb (reg : MenuRegistry) (verb : Bytes) : Prop :=
  verb ≠ [] → ∀ cmd ∈ reg.registry.find (reg.registry.canonical verb), cmd.minLevel = .guest

/-- The login prompt grants and shows what a Guest has, on every line. -/
structure MenuRegistry.PromptIsGuest (reg : MenuRegistry) : Prop where
  access : ∀ p g, AtPrompt p → GuestLogin g → ∀ verb, checkAccess reg.registry p verb = true →
    checkAccess reg.registry g verb = true ∨ promptVerb verb = true
  shown : ∀ p g, AtPrompt p → GuestLogin g → ∀ line scope cmd, commandParse line = .ok (scope, cmd) →
    reg.helpShown p cmd = reg.helpShown g cmd
  menu : ∀ label verbs, Shown.verbs label verbs ∈ reg.showMenu none → ∀ verb ∈ verbs, reg.GuestVerb verb
  help : ∀ topic, topic ≠ [] → (∀ b ∈ topic, isSpace b = false) → reg.registry.canonical topic ≠ [] →
    ∀ cmd ∈ reg.helpFor none topic, cmd.minLevel = .guest

/-- A command without `only` and `max` is for a Guest, and one with either of them is not. -/
def CommandDef.PromptAgrees (cmd : CommandDef) : Prop :=
  cmd.onlyLevel = none ∧ cmd.maxLevel = none ↔ (cmd.onlyLevel = none ∨ cmd.onlyLevel = some .guest) ∧
    cmd.minLevel = .guest

/-- The commands with a help text that a word finds. -/
def MenuRegistry.HelpAgrees (reg : MenuRegistry) : Prop :=
  ∀ topic, topic ≠ [] → (∀ b ∈ topic, isSpace b = false) → reg.registry.canonical topic ≠ [] →
    ∀ cmd ∈ reg.findHelp (reg.registry.canonical topic), cmd.line1 ≠ [] → cmd.PromptAgrees

/-- The commands in the menu for Guests, as far as there is room for them. -/
def MenuRegistry.MenuAgrees (reg : MenuRegistry) : Prop :=
  ∀ layout ∈ reg.menuLayout (some .guest), ∀ label ∈ layout.areas, ∀ area ∈ reg.areaFind label, ∀ front verb,
    front ++ [verb] <+: area.verbs ++ area.subareas.flatten →
    (front.filter fun v => reg.registry.verbAllowed (some .guest) v).length < verbsPerGroup → verb ≠ [] →
      ∀ cmd ∈ reg.registry.find (reg.registry.canonical verb), cmd.PromptAgrees

section Filters

variable {α : Type*} (p q : α → Bool)

lemma filter_head_eq {p q : α → Bool} {a : α} {l : List α} {n : ℕ} (ha : p a = true)
    (h : ((a :: l).filter p).take (n + 1) = ((a :: l).filter q).take (n + 1)) : q a = true := by
  rw [List.filter_cons_of_pos ha, List.take_succ_cons] at h
  have hmem : a ∈ ((a :: l).filter q).take (n + 1) := h ▸ List.mem_cons_self
  exact (List.mem_filter.mp (List.mem_of_mem_take hmem)).2

/-- Two filters leave the same first elements if they agree on all elements that are reached. -/
lemma take_filter_eq_iff (l : List α) (n : ℕ) : (l.filter p).take n = (l.filter q).take n ↔
    ∀ front a, front ++ [a] <+: l → (front.filter q).length < n → p a = q a := by
  induction l generalizing n with
  | nil =>
    refine iff_of_true rfl fun front a h => ?_
    exact absurd (List.prefix_nil.mp h) (by simp)
  | cons b l ih =>
    cases n with
    | zero => exact iff_of_true rfl fun front a _ h => absurd h (Nat.not_lt_zero _)
    | succ n =>
      constructor
      · intro h
        have hb : p b = q b := by
          rw [Bool.eq_iff_iff]
          exact ⟨fun hb => filter_head_eq hb h, fun hb => filter_head_eq hb h.symm⟩
        rintro front a ⟨more, hmore⟩ hlen
        cases front with
        | nil =>
          obtain ⟨rfl, -⟩ := List.cons.inj hmore
          exact hb
        | cons c front =>
          obtain ⟨rfl, rfl⟩ := List.cons.inj hmore
          by_cases hq : q c = true
          · rw [List.filter_cons_of_pos (hb.trans hq), List.filter_cons_of_pos hq, List.take_succ_cons,
              List.take_succ_cons] at h
            rw [List.filter_cons_of_pos hq, List.length_cons] at hlen
            exact (ih n).mp (List.cons.inj h).2 front a ⟨more, rfl⟩ (by omega)
          · rw [List.filter_cons_of_neg (by rwa [hb]), List.filter_cons_of_neg hq] at h
            rw [List.filter_cons_of_neg hq] at hlen
            exact (ih (n + 1)).mp h front a ⟨more, rfl⟩ hlen
      · intro h
        have hb : p b = q b := h [] b ⟨l, rfl⟩ (Nat.succ_pos n)
        by_cases hq : q b = true
        · rw [List.filter_cons_of_pos (hb.trans hq), List.filter_cons_of_pos hq, List.take_succ_cons,
            List.take_succ_cons]
          congr 1
          refine (ih n).mpr fun front a hfront hlen => h (b :: front) a (List.cons_prefix_cons.mpr ⟨rfl, hfront⟩) ?_
          rw [List.filter_cons_of_pos hq, List.length_cons]
          omega
        · rw [List.filter_cons_of_neg (by rwa [hb]), List.filter_cons_of_neg hq]
          refine (ih (n + 1)).mpr fun front a hfront hlen =>
            h (b :: front) a (List.cons_prefix_cons.mpr ⟨rfl, hfront⟩) ?_
          rwa [List.filter_cons_of_neg hq]

end Filters

namespace CommandDef

variable (cmd : CommandDef)

lemma levelCode_some (level : Storage.UserLevel) : 0 < levelCode (some level) ∧ levelCode (some level) ≤ 5 ∧
    (5 ≤ levelCode (some level) ↔ level = .guest) := by
  cases level <;> decide

lemma allowed_prompt_iff : commandLevelAllowed cmd none = true ↔ cmd.onlyLevel = none ∧ cmd.maxLevel = none := by
  have hmin : ¬levelCode cmd.minLevel < levelCode none := Nat.not_lt_zero _
  rw [commandLevelAllowed, if_neg hmin]
  by_cases honly : cmd.onlyLevel = none
  · rw [if_neg (by simp [honly])]
    cases hmax : cmd.maxLevel with
    | none => simp [honly]
    | some max =>
      rw [if_pos ⟨by simp, (levelCode_some max).1⟩]
      simp
  · rw [if_pos ⟨honly, Ne.symm honly⟩]
    simp [honly]

lemma allowed_guest_iff : commandLevelAllowed cmd (some .guest) = true ↔
    (cmd.onlyLevel = none ∨ cmd.onlyLevel = some .guest) ∧ cmd.minLevel = .guest := by
  have hmax : ¬(cmd.maxLevel ≠ none ∧ levelCode (some .guest) < levelCode cmd.maxLevel) := by
    rintro ⟨-, hlt⟩
    cases hmax : cmd.maxLevel with
    | none =>
      rw [hmax] at hlt
      exact absurd hlt (Nat.not_lt_zero _)
    | some max =>
      rw [hmax] at hlt
      exact absurd hlt (not_lt.mpr (levelCode_some max).2.1)
  rw [commandLevelAllowed, if_neg hmax, ← (levelCode_some cmd.minLevel).2.2]
  by_cases honly : cmd.onlyLevel = none ∨ cmd.onlyLevel = some .guest
  · rw [if_neg (by rintro ⟨hne, hguest⟩; exact honly.elim hne fun h => hguest h.symm), and_iff_right honly]
    by_cases hmin : 5 ≤ levelCode cmd.minLevel
    · rw [if_neg (show ¬levelCode cmd.minLevel < levelCode (some .guest) from not_lt.mpr hmin)]
      exact iff_of_true rfl hmin
    · rw [if_pos (show levelCode cmd.minLevel < levelCode (some .guest) from not_le.mp hmin)]
      exact iff_of_false (by simp) hmin
  · rw [if_pos ⟨fun h => honly (.inl h), fun h => honly (.inr h.symm)⟩]
    simp [honly]

lemma promptAgrees_iff : cmd.PromptAgrees ↔ commandLevelAllowed cmd none = commandLevelAllowed cmd (some .guest) := by
  rw [PromptAgrees, ← allowed_prompt_iff, ← allowed_guest_iff]
  exact Bool.eq_iff_iff.symm

end CommandDef

namespace MenuRegistry

variable (reg : MenuRegistry)

lemma find_help (topic : Bytes) : reg.registry.find topic = (reg.findHelp topic).map HelpCommand.toCommandDef := by
  rw [Registry.find, findHelp]
  split_ifs
  · rw [registry, List.find?_map]
    rfl
  · rfl

lemma canonical_found {topic : Bytes} (h : (reg.registry.find topic).isSome) :
    reg.registry.canonical topic = topic := by
  rw [Registry.canonical, if_pos h, ite_self]

lemma verbAllowed_found (level : Level) {verb : Bytes} (hne : verb ≠ []) {cmd : CommandDef}
    (h : reg.registry.find (reg.registry.canonical verb) = some cmd) :
    reg.registry.verbAllowed level verb = commandLevelAllowed cmd level := by
  have hloaded : reg.registry.loaded ≠ false := by
    intro hno
    rw [Registry.find, hno] at h
    cases h
  rw [Registry.verbAllowed, if_neg hne, if_neg hloaded, h]

/-- A verb that no command has is for nobody. -/
lemma verbAllowed_none (level : Level) {verb : Bytes} (hne : verb ≠ [])
    (h : reg.registry.find (reg.registry.canonical verb) = none) :
    reg.registry.verbAllowed level verb = false := by
  rw [Registry.verbAllowed, if_neg hne, h]
  exact ite_self _

lemma verbAllowed_iff (verb : Bytes) : reg.registry.verbAllowed none verb =
    reg.registry.verbAllowed (some .guest) verb ↔
    (verb ≠ [] → ∀ cmd ∈ reg.registry.find (reg.registry.canonical verb), cmd.PromptAgrees) := by
  by_cases hne : verb = []
  · subst hne
    exact iff_of_true rfl fun h => absurd rfl h
  · rw [forall_prop_of_true hne]
    cases h : reg.registry.find (reg.registry.canonical verb) with
    | none =>
      rw [verbAllowed_none reg _ hne h, verbAllowed_none reg _ hne h]
      exact iff_of_true rfl (by rintro cmd ⟨⟩)
    | some cmd =>
      rw [verbAllowed_found reg _ hne h, verbAllowed_found reg _ hne h, ← CommandDef.promptAgrees_iff]
      exact ⟨by rintro hcmd _ ⟨⟩; exact hcmd, fun hall => hall cmd rfl⟩

lemma guestVerb_of_allowed {verb : Bytes} (h : reg.registry.verbAllowed (some .guest) verb = true) :
    reg.GuestVerb verb := by
  intro hne cmd hcmd
  rw [verbAllowed_found reg _ hne hcmd, CommandDef.allowed_guest_iff] at h
  exact h.2

section Menu

lemma collect_iff (area : MenuArea) : reg.collectAreaVerbs area none true =
    reg.collectAreaVerbs area (some .guest) true ↔
    ∀ front verb, front ++ [verb] <+: area.verbs ++ area.subareas.flatten →
      (front.filter fun v => reg.registry.verbAllowed (some .guest) v).length < verbsPerGroup → verb ≠ [] →
        ∀ cmd ∈ reg.registry.find (reg.registry.canonical verb), cmd.PromptAgrees := by
  rw [collectAreaVerbs, collectAreaVerbs]
  simp only [Bool.not_true, Bool.false_or]
  rw [take_filter_eq_iff]
  simp only [verbAllowed_iff]

lemma renderArea_menu (area : MenuArea) (level : Level) : reg.renderArea area level true =
    if reg.collectAreaVerbs area level true = [] then [] else [.verbs area.label (reg.collectAreaVerbs area level true)] := by
  rw [renderArea]
  simp only [↓reduceIte]

lemma renderArea_inj {area : MenuArea} {level level' : Level}
    (h : reg.renderArea area level true = reg.renderArea area level' true) :
    reg.collectAreaVerbs area level true = reg.collectAreaVerbs area level' true := by
  rw [renderArea_menu, renderArea_menu] at h
  split_ifs at h with hnil hnil'
  · rw [hnil, hnil']
  · simpa using h

/-- Two labels that find areas of one name find one area. -/
lemma areaFind_unique {label label' : Bytes} {area area' : MenuArea} (h : reg.areaFind label = some area)
    (h' : reg.areaFind label' = some area') (hlabel : area.label = area'.label) : area = area' := by
  have hfound := (strIeq_iff area.label label).mp (@List.find?_some _ (fun a : MenuArea => strIeq a.label label) _ _ h)
  have hfound' := (strIeq_iff area'.label label').mp (@List.find?_some _ (fun a : MenuArea => strIeq a.label label') _ _ h')
  have hsame : ∀ a : MenuArea, strIeq a.label label = strIeq a.label label' := by
    intro a
    rw [strIeq, strIeq, ← hfound, ← hfound', hlabel]
  rw [areaFind, funext hsame] at h
  exact Option.some.inj (h.symm.trans h')

def onlyArea (area : MenuArea) : Shown → Bool
  | .line _ => false
  | .answer _ => false
  | .verbs label _ => label = area.label

/-- Of a menu the part of one area. -/
lemma filter_renderAreaLabels {label : Bytes} {area : MenuArea} (harea : reg.areaFind label = some area)
    (labels : List Bytes)
    (level : Level) : (reg.renderAreaLabels labels level true).filter (onlyArea area) =
      (labels.filter fun l => reg.areaFind l = some area).flatMap fun _ => reg.renderArea area level true := by
  induction labels with
  | nil => rfl
  | cons l labels ih =>
    rw [renderAreaLabels, List.flatMap_cons, List.filter_append, ← renderAreaLabels, ih]
    by_cases hl : reg.areaFind l = some area
    · rw [List.filter_cons_of_pos (by simpa using hl), List.flatMap_cons, hl, Option.map_some, Option.getD_some]
      congr 1
      rw [renderArea_menu]
      split_ifs
      · rfl
      · rw [List.filter_cons_of_pos (by simp [onlyArea]), List.filter_nil]
    · rw [List.filter_cons_of_neg (by simpa using hl)]
      cases hother : reg.areaFind l with
      | none => rfl
      | some other =>
        have hne : other.label ≠ area.label := by
          intro hlabel
          rw [hother, reg.areaFind_unique hother harea hlabel] at hl
          exact hl rfl
        rw [Option.map_some, Option.getD_some, renderArea_menu]
        split_ifs
        · rfl
        · rw [List.filter_cons_of_neg (by simp [onlyArea, hne])]
          rfl

lemma renderAreaLabels_iff (labels : List Bytes) (level level' : Level) :
    reg.renderAreaLabels labels level true = reg.renderAreaLabels labels level' true ↔
      ∀ label ∈ labels, ∀ area ∈ reg.areaFind label, reg.collectAreaVerbs area level true =
          reg.collectAreaVerbs area level' true := by
  constructor
  · intro h label hlabel area harea
    have hpart := congrArg (List.filter (onlyArea area)) h
    rw [filter_renderAreaLabels reg harea, filter_renderAreaLabels reg harea] at hpart
    have hmem : label ∈ labels.filter fun l => reg.areaFind l = some area :=
      List.mem_filter.mpr ⟨hlabel, by simpa using harea⟩
    apply renderArea_inj
    cases hfound : labels.filter fun l => reg.areaFind l = some area with
    | nil =>
      rw [hfound] at hmem
      cases hmem
    | cons l ls =>
      rw [hfound] at hpart
      have hlen : (ls.length + 1) * (reg.renderArea area level true).length =
          (ls.length + 1) * (reg.renderArea area level' true).length := by
        have hsum := congrArg List.length hpart
        simp only [List.length_flatMap, List.map_const', List.sum_replicate, smul_eq_mul, List.length_cons] at hsum
        exact hsum
      rw [List.flatMap_cons, List.flatMap_cons] at hpart
      exact (List.append_inj hpart (Nat.eq_of_mul_eq_mul_left (Nat.succ_pos _) hlen)).1
  · intro h
    rw [renderAreaLabels, renderAreaLabels]
    apply List.flatMap_congr
    intro label hlabel
    cases harea : reg.areaFind label with
    | none => rfl
    | some area => rw [Option.map_some, Option.map_some, renderArea_menu, renderArea_menu, h label hlabel area harea]

lemma allowed_of_mem_showMenu {label : Bytes} {verbs : List Bytes} {level : Level}
    (h : Shown.verbs label verbs ∈ reg.showMenu level) :
    ∀ verb ∈ verbs, reg.registry.verbAllowed level verb = true := by
  rw [showMenu] at h
  split_ifs at h
  · cases h
  · rcases List.mem_cons.mp h with h | h
    · cases h
    · cases hlayout : reg.menuLayout level with
      | none =>
        rw [hlayout] at h
        cases h
      | some layout =>
        rw [hlayout, Option.map_some, Option.getD_some, renderAreaLabels] at h
        obtain ⟨l, -, hl⟩ := List.mem_flatMap.mp h
        cases harea : reg.areaFind l with
        | none =>
          rw [harea] at hl
          cases hl
        | some area =>
          rw [harea, Option.map_some, Option.getD_some, renderArea_menu] at hl
          split_ifs at hl
          · cases hl
          · cases List.mem_singleton.mp hl
            intro verb hverb
            have hkept := (List.mem_filter.mp (List.mem_of_mem_take hverb)).2
            simpa using hkept

lemma menuLayout_prompt : reg.menuLayout none = reg.menuLayout (some .guest) := rfl

lemma find_unloaded (h : reg.registry.loaded = false) (topic : Bytes) : reg.registry.find topic = none := by
  rw [Registry.find, h]
  rfl

lemma showMenu_iff : reg.showMenu none = reg.showMenu (some .guest) ↔ reg.MenuAgrees := by
  by_cases hloaded : reg.registry.loaded = false
  · refine iff_of_true (by rw [showMenu, showMenu, if_pos hloaded, if_pos hloaded]) ?_
    intro layout _ label _ area _ front verb _ _ _ cmd hcmd
    rw [find_unloaded reg hloaded] at hcmd
    cases hcmd
  · rw [showMenu, showMenu, if_neg hloaded, if_neg hloaded, menuLayout_prompt, MenuAgrees]
    simp only [List.cons.injEq, true_and]
    cases reg.menuLayout (some .guest) with
    | none => exact iff_of_true rfl (by rintro layout ⟨⟩)
    | some layout =>
      rw [Option.map_some, Option.map_some, Option.getD_some, Option.getD_some, renderAreaLabels_iff]
      simp only [collect_iff]
      exact ⟨by rintro h _ ⟨⟩; exact h, fun h => h layout rfl⟩

end Menu

section Help

variable {p g : Session} (hp : AtPrompt p) (hg : GuestLogin g)

lemma helpFor_iff (topic : Bytes) : reg.helpFor none topic = reg.helpFor (some .guest) topic ↔
    (reg.registry.canonical topic ≠ [] → ∀ cmd ∈ reg.findHelp (reg.registry.canonical topic),
      cmd.line1 ≠ [] → cmd.PromptAgrees) := by
  by_cases hne : reg.registry.canonical topic = []
  · refine iff_of_true ?_ fun h => absurd hne h
    rw [helpFor, helpFor, hne]
    rfl
  rw [forall_prop_of_true hne]
  cases hfound : reg.findHelp (reg.registry.canonical topic) with
  | none =>
    refine iff_of_true ?_ (by rintro cmd ⟨⟩)
    rw [helpFor, helpFor, hfound]
    simp
  | some cmd =>
    have hfind : reg.registry.find (reg.registry.canonical topic) = some cmd.toCommandDef :=
      by rw [find_help, hfound]; rfl
    have hagain : reg.registry.find (reg.registry.canonical (reg.registry.canonical topic)) =
        some cmd.toCommandDef := by
      rw [canonical_found reg (by rw [hfind]; rfl), hfind]
    rw [helpFor, helpFor, hfound, verbAllowed_found reg _ hne hagain, verbAllowed_found reg _ hne hagain]
    simp only [Option.mem_some_iff, forall_eq', CommandDef.promptAgrees_iff]
    by_cases htext : cmd.line1 = []
    · have hnone : (some cmd).filter (fun cmd => cmd.line1 ≠ []) = none := Option.filter_some_neg (by simpa using htext)
      rw [hnone, ite_self, ite_self]
      exact iff_of_true rfl fun h => absurd htext h
    · have hkept : (some cmd).filter (fun cmd => cmd.line1 ≠ []) = some cmd :=
        Option.filter_some_pos (by simpa using htext)
      rw [hkept, forall_prop_of_true htext]
      cases commandLevelAllowed cmd.toCommandDef none <;> cases commandLevelAllowed cmd.toCommandDef (some .guest) <;> simp

lemma findHelp_of_helpFor {level : Level} {topic : Bytes} {cmd : HelpCommand} (h : reg.helpFor level topic = some cmd) :
    reg.findHelp (reg.registry.canonical topic) = some cmd := by
  rw [helpFor] at h
  split_ifs at h
  exact (Option.filter_eq_some_iff.mp h).1

/-- The help that a Guest gets is on commands for a Guest. -/
lemma guest_of_helpFor {topic : Bytes} {cmd : HelpCommand} (hne : reg.registry.canonical topic ≠ [])
    (h : reg.helpFor (some .guest) topic = some cmd) : cmd.minLevel = .guest := by
  have hfind : reg.registry.find (reg.registry.canonical topic) = some cmd.toCommandDef := by
    rw [find_help, findHelp_of_helpFor reg h]
    rfl
  have hallowed : reg.registry.verbAllowed (some .guest) (reg.registry.canonical topic) = true := by
    rw [helpFor] at h
    split_ifs at h with hno
    simpa using hno
  apply guestVerb_of_allowed reg hallowed hne
  rw [canonical_found reg (by rw [hfind]; rfl)]
  exact hfind

lemma checkAccess_prompt (hp : AtPrompt p) (verb : Bytes) :
    checkAccess reg.registry p verb = verbAllowedLoginPrompt reg.registry verb := by
  rw [checkAccess, if_pos ⟨hp.2.1, hp.2.2⟩]

lemma checkAccess_guest (hg : GuestLogin g) (verb : Bytes) :
    checkAccess reg.registry g verb = reg.registry.verbAllowed (some .guest) verb := by
  rw [checkAccess, if_neg (by simp [hg.2]), hg.1]

lemma topicOr_eq {argv : List Bytes} (htopic : ∀ topic ∈ argv.head?,
    reg.cmdHelpTopic p topic = reg.cmdHelpTopic g topic)
    (all : List Shown) : reg.topicOr p all argv = reg.topicOr g all argv := by
  cases argv with
  | nil => rfl
  | cons topic argv => exact htopic topic rfl

/-- The verbs of the prompt show nothing. -/
lemma promptVerb_other {cmd : ParsedCommand} (h : promptVerb cmd.verb = true) :
    ∀ name ∈ ["menu", "index", "alias"], cmd.isVerb [name] = false := by
  obtain ⟨verb, hverb, hsame⟩ := List.any_eq_true.mp h
  intro name hname
  rw [ParsedCommand.isVerb, List.any_cons, List.any_nil, Bool.or_false, strIeq, (strIeq_iff _ _).mp hsame]
  clear h hsame
  revert verb name
  decide

include hp hg

lemma helpUnknown_eq : helpUnknown p = helpUnknown g := by
  rw [helpUnknown, helpUnknown, Session.isGuest, Session.isGuest, hp.1, hp.2.1, hp.2.2, hg.1]
  rfl

lemma cmdHelpTopic_iff {topic : Bytes} (hne : topic ≠ []) : reg.cmdHelpTopic p topic = reg.cmdHelpTopic g topic ↔
    reg.helpFor none topic = reg.helpFor (some .guest) topic := by
  rw [cmdHelpTopic, cmdHelpTopic, if_neg hne, if_neg hne, helpUnknown_eq hp hg, hp.1, hg.1]
  constructor
  · intro h
    cases hprompt : reg.helpFor none topic with
    | none =>
      cases hguest : reg.helpFor (some .guest) topic with
      | none => rfl
      | some cmd =>
        rw [hprompt, hguest] at h
        cases (List.cons.inj h).1
    | some cmd =>
      cases hguest : reg.helpFor (some .guest) topic with
      | none =>
        rw [hprompt, hguest] at h
        cases (List.cons.inj h).1
      | some cmd' => exact (findHelp_of_helpFor reg hprompt).symm.trans (findHelp_of_helpFor reg hguest)
  · intro h
    rw [h]

lemma access_prompt {verb : Bytes} (h : checkAccess reg.registry p verb = true) :
    checkAccess reg.registry g verb = true ∨ promptVerb verb = true := by
  rw [checkAccess_prompt reg hp, verbAllowedLoginPrompt, Bool.or_eq_true, Bool.or_eq_true] at h
  rw [checkAccess_guest reg hg]
  rcases h with (hnil | hallowed) | hexit
  · exact .inl (if_pos (by simpa using hnil))
  · exact .inl hallowed
  · rw [promptVerb, List.any_eq_true]
    obtain ⟨name, hname, hverb⟩ := List.any_eq_true.mp hexit
    exact .inr ⟨name, by simp only [List.mem_cons] at hname ⊢; tauto, hverb⟩

/-- Apart from the verbs of the prompt both have the same commands. -/
lemma access_same {verb : Bytes} (hverb : promptVerb verb = false) :
    checkAccess reg.registry p verb = checkAccess reg.registry g verb := by
  rw [Bool.eq_iff_iff]
  constructor
  · intro h
    exact (access_prompt reg hp hg h).resolve_right (by simp [hverb])
  · intro h
    rw [checkAccess_guest reg hg] at h
    rw [checkAccess_prompt reg hp, verbAllowedLoginPrompt, h]
    simp

lemma helpShown_eq {cmd : ParsedCommand} (hmenu : reg.showMenu none = reg.showMenu (some .guest))
    (htopic : ∀ topic ∈ cmd.argv.head?, reg.cmdHelpTopic p topic = reg.cmdHelpTopic g topic) :
    reg.helpShown p cmd = reg.helpShown g cmd := by
  rw [helpShown, helpShown, hp.1, hg.1, hmenu]
  simp only [topicOr_eq reg htopic]
  by_cases hhelp : cmd.verb = [] ∨ cmd.isVerb ["help", "?"] = true
  · rw [if_pos hhelp, if_pos hhelp]
  rw [if_neg hhelp, if_neg hhelp]
  by_cases hverb : promptVerb cmd.verb = true
  · have hother := promptVerb_other hverb
    simp [hother]
  · rw [access_same reg hp hg (by simpa using hverb)]

end Help

end MenuRegistry

section Lines

lemma parse_help (rest : Bytes) (hrest : ∀ b ∈ rest.head?, isSpace b = true) :
    commandParse (commandSign :: (ofString "help" ++ rest)) =
      (parsedWords (ofString "help" :: wordsOf isSpace rest)).map (Prod.mk .scopeHybbx) := by
  have hwords : wordsOf isSpace (ofString "help" ++ rest) = ofString "help" :: wordsOf isSpace rest :=
    wordsOf_word (by decide) (by decide +kernel) hrest
  have hskip : skipLeadingSpace (commandSign :: (ofString "help" ++ rest)) = commandSign :: (ofString "help" ++ rest) :=
    List.dropWhile_cons_of_neg (by decide)
  rw [commandParse, hskip, commandClassify, hskip]
  change (parseHybbxLine (commandSign :: (ofString "help" ++ rest))).map (Prod.mk CommandScope.scopeHybbx) = _
  rw [parse_plain, hwords]
  rw [hwords]
  rintro word ⟨⟩
  exact help_no_alias

lemma parse_help_topic {topic : Bytes} (hne : topic ≠ []) (htopic : ∀ b ∈ topic, isSpace b = false) :
    commandParse (commandSign :: (ofString "help" ++ blank :: topic)) =
      .ok (.scopeHybbx, ⟨ofString "help", [topic]⟩) := by
  have hwords : wordsOf isSpace (blank :: topic) = [topic] := by
    rw [wordsOf_separator rfl]
    simpa [wordsOf_nil] using @wordsOf_word _ isSpace topic hne htopic [] (by rintro b ⟨⟩)
  rw [parse_help (blank :: topic) (by rintro b ⟨⟩; rfl), hwords]
  rfl

/-- The first argument of a command is a word. -/
lemma topic_of_parse {line : Bytes} {scope : CommandScope} {cmd : ParsedCommand}
    (h : commandParse line = .ok (scope, cmd)) :
    ∀ topic ∈ cmd.argv.head?, topic ≠ [] ∧ ∀ b ∈ topic, isSpace b = false := by
  have hparsed : ∀ {text : Bytes} {cmd : ParsedCommand}, parseHybbxLine text = .ok cmd → ∀ topic ∈ cmd.argv.head?,
      topic ≠ [] ∧ ∀ b ∈ topic, isSpace b = false := by
    intro text cmd h
    rw [parseHybbxLine] at h
    split at h
    · cases h
      rintro topic ⟨⟩
    · rename_i rest _
      split at h
      · cases h
        rintro topic ⟨⟩
      · rename_i verb argv htokens
        split_ifs at h
        cases h
        intro topic htopic
        apply @plain_of_mem_wordsOf _ isSpace rest
        rw [← splitTokens_eq, htokens]
        exact List.mem_cons_of_mem verb (List.mem_of_mem_head? htopic)
  rw [commandParse] at h
  split at h
  · cases hcmd : parseHybbxLine (skipLeadingSpace line) with
    | error rc =>
      rw [hcmd] at h
      cases h
    | ok cmd' =>
      rw [hcmd] at h
      cases h
      exact hparsed hcmd
  · cases h
    rintro topic ⟨⟩

end Lines

/-- The login prompt grants and shows what a Guest has exactly if every command with a help text, and every command that is
reached in the menu for Guests, is for a Guest unless it has a lower or an upper bound of its own. -/
theorem prompt_is_guest_iff (reg : MenuRegistry) : reg.PromptIsGuest ↔ reg.HelpAgrees ∧ reg.MenuAgrees := by
  constructor
  · intro h
    have hp : AtPrompt promptSession := ⟨rfl, rfl, rfl⟩
    have hg : GuestLogin ⟨some .guest, [], 1, true, false⟩ := ⟨rfl, rfl⟩
    constructor
    · intro topic hne htopic
      have hshown := h.shown _ _ hp hg _ _ _ (parse_help_topic hne htopic)
      exact (reg.helpFor_iff topic).mp ((reg.cmdHelpTopic_iff hp hg hne).mp hshown)
    · have hshown := h.shown _ _ hp hg (ofString "/help") .scopeHybbx ⟨ofString "help", []⟩ (by decide +kernel)
      exact reg.showMenu_iff.mp hshown
  · rintro ⟨hhelp, hmenu⟩
    have hsame := reg.showMenu_iff.mpr hmenu
    refine ⟨fun p g hp hg verb => reg.access_prompt hp hg, fun p g hp hg line scope cmd hline => ?_,
      fun label verbs hverbs => ?_,
      fun topic hne htopic hcanonical cmd hcmd => ?_⟩
    · apply reg.helpShown_eq hp hg hsame
      intro topic hmem
      obtain ⟨hne, htopic⟩ := topic_of_parse hline topic hmem
      exact (reg.cmdHelpTopic_iff hp hg hne).mpr ((reg.helpFor_iff topic).mpr (hhelp topic hne htopic))
    · rw [hsame] at hverbs
      exact fun verb hverb => reg.guestVerb_of_allowed (reg.allowed_of_mem_showMenu hverbs verb hverb)
    · rw [(reg.helpFor_iff topic).mpr (hhelp topic hne htopic)] at hcmd
      exact reg.guest_of_helpFor hcanonical hcmd

section Example

def shutdownFile : Bytes := ofString "commands:\n  shutdown:\n    min: Sysop\n    line1: /shutdown\n"

def shutdownRegistry : MenuRegistry where
  commands := [⟨⟨ofString "shutdown", .sysop, none, none⟩, ofString "/shutdown", []⟩]
  rights := { Registry.empty with loaded := true }
  areas := ⟨ofString "menu", ofString "index", [], [⟨ofString "Sysop", [ofString "shutdown"], []⟩],
    [⟨ofString "Guest", [ofString "Sysop"]⟩],
    [ofString "Sysop"]⟩
  aliasLines := []

/-- The help on a command of the Sysop, and the command in the menu. -/
theorem prompt_sees_shutdown : parseCommandsYaml shutdownFile = some shutdownRegistry.registry ∧
    commandParse (ofString "/help shutdown") = .ok (.scopeHybbx, ⟨ofString "help", [ofString "shutdown"]⟩) ∧
    shutdownRegistry.helpShown promptSession ⟨ofString "help", [ofString "shutdown"]⟩ = [.line (ofString "/shutdown")] ∧
    shutdownRegistry.helpShown ⟨some .guest, ofString "Guest1", 1, true, false⟩ ⟨ofString "help", [ofString "shutdown"]⟩ =
      [.answer (ofString "Unknown command. Try /help.")] ∧
    shutdownRegistry.showMenu none = [.line (ofString "menu"), .verbs (ofString "Sysop") [ofString "shutdown"]] ∧
    ¬shutdownRegistry.PromptIsGuest := by
  have hline : commandParse (ofString "/help shutdown") =
    .ok (.scopeHybbx, ⟨ofString "help", [ofString "shutdown"]⟩) := by decide +kernel
  have hprompt : shutdownRegistry.helpShown promptSession ⟨ofString "help", [ofString "shutdown"]⟩ =
      [.line (ofString "/shutdown")] := by
    decide +kernel
  have hguest : shutdownRegistry.helpShown ⟨some .guest, ofString "Guest1", 1, true, false⟩ ⟨ofString "help", [ofString "shutdown"]⟩ =
      [.answer (ofString "Unknown command. Try /help.")] := by
    decide +kernel
  refine ⟨by decide +kernel, hline, hprompt, hguest, by decide +kernel, fun h => ?_⟩
  have hshown := h.shown promptSession ⟨some .guest, ofString "Guest1", 1, true, false⟩ ⟨rfl, rfl, rfl⟩ ⟨rfl, rfl⟩ _ _ _ hline
  rw [hprompt, hguest] at hshown
  cases hshown

end Example

end HyBBX.Command
