import HyBBX.Command.AliasLines

/-! Loading the registry from its files: what a file that is refused has stored stays for the next one. -/

namespace HyBBX.Command

open HyBBX.Core Lib Lib.Bytes Lib.Text Lib.Numeral Lib.LineReader
open Storage (strIeq_iff)

def cmdGroupMax : ℕ := 16
def commandsHelpLineMax : ℕ := 96

/-- The fields of a command that no right depends on. -/
structure HelpTexts where
  group : Bytes
  line1 : Bytes
  line2 : Bytes
  deriving DecidableEq

def textField (key value : Bytes) (texts : HelpTexts) : HelpTexts :=
  if strIeq key (ofString "group") then { texts with group := strlcpy cmdGroupMax value }
  else if strIeq key (ofString "line1") then { texts with line1 := strlcpy commandsHelpLineMax value }
  else if strIeq key (ofString "line2") then { texts with line2 := strlcpy commandsHelpLineMax value }
  else texts

/-- The texts of the commands, one for each, by the line that is read next. -/
def textsLine (st : YamlState) (piece : Bytes) (texts : List HelpTexts) : List HelpTexts :=
  let indent := lineIndent piece
  let line := trim piece
  if line = [] ∨ line.head? = some hash ∨ indent = 0 ∧ isHeader line ∨ st.yamlSection ≠ .commands then texts
  else if indent = 2 ∧ isHeader line then
    if st.registry.commands.length < commandsMax then texts ++ [⟨[], [], []⟩] else texts
  else if 4 ≤ indent ∧ st.commandOpen then
    match lineField line with
    | none => texts
    | some (key, value) => modifyLast (textField key value) texts
  else texts

/-- What `commands.yaml` is for: the rights, aliases and commands, and the texts of these. -/
structure RightsTexts where
  rights : Registry
  texts : List HelpTexts
  deriving DecidableEq

def RightsTexts.empty : RightsTexts := ⟨.empty, []⟩

structure CommandsState where
  yaml : YamlState
  texts : List HelpTexts

def CommandsState.of (reg : RightsTexts) : CommandsState := ⟨{ YamlState.start with registry := reg.rights }, reg.texts⟩

def commandsYamlLine (st : CommandsState) (piece : Bytes) : Option CommandsState :=
  (yamlLine st.yaml piece).map fun yaml => ⟨yaml, textsLine st.yaml piece st.texts⟩

/-- `parse_commands_yaml` into a registry; none where it does not end. -/
def parseCommandsInto (reg : RightsTexts) (file : Bytes) : Option (HybbxResult × RightsTexts) :=
  (((fgets configLineMax file).map cstr).foldlM commandsYamlLine (.of reg)).map fun st =>
    (if st.yaml.registry.commands = [] then .errInvalid else .ok, ⟨st.yaml.registry, st.texts⟩)

def AreasState.of (reg : AreasRegistry) : AreasState := { AreasState.start with registry := reg }

def areasAccepted (reg : AreasRegistry) : Prop := reg.menuHeader ≠ [] ∧ reg.indexHeader ≠ [] ∧ reg.areas ≠ []

instance (reg : AreasRegistry) : Decidable (areasAccepted reg) := inferInstanceAs (Decidable (_ ∧ _))

/-- `parse_areas_yaml` into a registry; none where it does not end. -/
def parseAreasInto (reg : AreasRegistry) (file : Bytes) : Option (HybbxResult × AreasRegistry) :=
  ((areasPieces file).foldlM areasYamlLine (.of reg)).map fun st =>
    if areasAccepted st.registry then (.ok, indexDefault st.registry) else (.errInvalid, st.registry)

section Load

variable {ρ : Type} (parse : ρ → Bytes → Option (HybbxResult × ρ))

/-- A file into the registry as it stands, if the file is there. -/
def loadYamlFile (reg : ρ) : Option Bytes → Option (HybbxResult × ρ)
  | none => some (.errIo, reg)
  | some file => (parse reg file).map fun r => (if r.1 = .ok then .ok else .errIo, r.2)

/-- The file, or the one under `share` where it does not load. -/
def loadOrShare (reg : ρ) (file share : Option Bytes) : Option (HybbxResult × ρ) :=
  (loadYamlFile parse reg file).bind fun r => if r.1 = .ok then some r else loadYamlFile parse r.2 share

end Load

structure RegistryFiles where
  areas : Option Bytes
  shareAreas : Option Bytes
  commands : Option Bytes
  shareCommands : Option Bytes

structure CommandsRegistry where
  areas : AreasRegistry
  commands : RightsTexts
  aliasLines : List Bytes
  deriving DecidableEq

def CommandsRegistry.empty : CommandsRegistry := ⟨.empty, .empty, []⟩

/-- `hybbx_commands_registry_init`: its result and the registry; none where reading a file does not end. -/
def registryInit (files : RegistryFiles) : Option (HybbxResult × CommandsRegistry) :=
  (loadOrShare parseAreasInto .empty files.areas files.shareAreas).bind fun areas =>
    if areas.1 ≠ .ok then some (.errIo, { CommandsRegistry.empty with areas := areas.2 })
    else (loadOrShare parseCommandsInto .empty files.commands files.shareCommands).bind fun commands =>
      if commands.1 ≠ .ok then some (.errIo, .empty)
      else (buildAliasLines commands.2.rights.aliases).map fun lines =>
        (.ok, ⟨areas.2, { commands.2 with rights := { commands.2.rights with loaded := true } }, lines⟩)

/-- The texts do not change what is read otherwise. -/
lemma commandsYamlLine_yaml (pieces : List Bytes) (st : CommandsState) :
    (pieces.foldlM commandsYamlLine st).map CommandsState.yaml = pieces.foldlM yamlLine st.yaml := by
  induction pieces generalizing st with
  | nil => rfl
  | cons piece pieces ih =>
    rw [List.foldlM_cons, List.foldlM_cons, commandsYamlLine]
    cases yamlLine st.yaml piece with
    | none => rfl
    | some yaml => exact ih ⟨yaml, _⟩

/-- For an empty registry the files are read as they are on their own. -/
lemma parseAreasInto_empty (file : Bytes) : parseAreasYaml file =
    (parseAreasInto .empty file).map fun r => if r.1 = .ok then .ok r.2 else .error r.1 := by
  rw [parseAreasYaml, parseAreasInto, Option.map_map]
  congr 1
  funext st
  rw [Function.comp_apply]
  have hiff : (st.registry.menuHeader = [] ∨ st.registry.indexHeader = [] ∨ st.registry.areas = []) ↔
      ¬areasAccepted st.registry := by
    rw [areasAccepted]
    tauto
  by_cases haccepted : areasAccepted st.registry
  · rw [if_neg (by rwa [hiff, not_not])]
    simp only [if_pos haccepted]
    rfl
  · rw [if_pos (hiff.mpr haccepted)]
    simp only [if_neg haccepted]
    rfl

lemma parseCommandsInto_empty (file : Bytes) : parseCommandsYaml file =
    (parseCommandsInto .empty file).bind fun r =>
      if r.1 = .ok then some { r.2.rights with loaded := true } else none := by
  have hyaml := commandsYamlLine_yaml ((fgets configLineMax file).map cstr) (.of .empty)
  rw [parseCommandsYaml, show YamlState.start = (CommandsState.of .empty).yaml from rfl, ← hyaml, parseCommandsInto]
  cases ((fgets configLineMax file).map cstr).foldlM commandsYamlLine (.of .empty) with
  | none => rfl
  | some st =>
    rw [Option.map_some, Option.map_some, Option.bind_some, Option.bind_some]
    by_cases hnone : st.yaml.registry.commands = []
    · rw [if_pos hnone, if_pos hnone, if_neg (show HybbxResult.errInvalid ≠ .ok by decide)]
    · rw [if_neg hnone, if_neg hnone, if_pos rfl]

/-- The field of a header that a line sets, where the section is known. -/
def metaFieldOf (sec : AreasSection) (piece : Bytes) : Option (Bytes × Bytes) :=
  let indent := lineIndent piece
  let line := trim piece
  if line = [] ∨ line.head? = some hash then none
  else if indent = 0 ∧ isHeader line then none
  else if sec = .secMeta ∧ 2 ≤ indent then lineField line
  else none

def sectionAfter (sec : AreasSection) (piece : Bytes) : AreasSection :=
  let line := trim piece
  if line = [] ∨ line.head? = some hash then sec
  else if lineIndent piece = 0 ∧ isHeader line then areasSectionOf line.dropLast
  else sec

/-- The fields of all headers that a file sets, in order. -/
def metaFields : AreasSection → List Bytes → List (Bytes × Bytes)
  | _, [] => []
  | sec, piece :: pieces => (metaFieldOf sec piece).toList ++ metaFields (sectionAfter sec piece) pieces

def SetsHeader (file : Bytes) (name : String) : Prop :=
  ∃ field ∈ metaFields .secNone (areasPieces file), strIeq field.1 (ofString name) = true

section Headers

/-- The tables of one registry with the headers of another. -/
def AreasRegistry.withHeaders (reg headers : AreasRegistry) : AreasRegistry :=
  { reg with menuHeader := headers.menuHeader, indexHeader := headers.indexHeader, aliasHeader := headers.aliasHeader }

def AreasState.withHeaders (st : AreasState) (headers : AreasRegistry) : AreasState :=
  { st with registry := st.registry.withHeaders headers }

def setHeaders (fields : List (Bytes × Bytes)) (reg : AreasRegistry) : AreasRegistry :=
  fields.foldl (fun reg field => metaField field.1 field.2 reg) reg

variable {st st' : AreasState} {headers : AreasRegistry} {piece : Bytes}

lemma inArea_withHeaders (line : MenuArea → Option MenuArea) :
    (st.withHeaders headers).inArea line = (st.inArea line).map fun st' => st'.withHeaders headers := by
  rw [AreasState.inArea, AreasState.inArea, Option.map_map]
  rfl

lemma areasSectionLine_withHeaders (indent : ℕ) (line : Bytes) :
    areasSectionLine (st.withHeaders headers) indent line =
      (areasSectionLine st indent line).map fun st' => st'.withHeaders headers := by
  have hareas : (st.withHeaders headers).registry.areas = st.registry.areas := rfl
  have hopen : (st.withHeaders headers).areaOpen = st.areaOpen := rfl
  have hsubopen : (st.withHeaders headers).subareaOpen = st.subareaOpen := rfl
  rw [areasSectionLine, areasSectionLine, hareas, hopen, hsubopen]
  split_ifs
  · rfl
  · exact @inArea_withHeaders
      { st with
        registry := { st.registry with areas := st.registry.areas ++ [⟨[], [], []⟩] }
        areaOpen := true
        subareaOpen := false } headers _
  · rfl
  · cases st.registry.areas.getLast? with
    | none => rfl
    | some area =>
      dsimp only
      split_ifs
      · exact @inArea_withHeaders { st with subareaOpen := true } headers _
      · rfl
  · exact inArea_withHeaders _
  · exact inArea_withHeaders _
  · rfl

lemma menuSectionLine_withHeaders (indent : ℕ) (line : Bytes) :
    menuSectionLine (st.withHeaders headers) indent line = (menuSectionLine st indent line).withHeaders headers := by
  have hlevels : (st.withHeaders headers).registry.menuLevels = st.registry.menuLevels := rfl
  have hcur : (st.withHeaders headers).curMenuLevel = st.curMenuLevel := rfl
  rw [menuSectionLine, menuSectionLine, hlevels, hcur]
  split_ifs <;> rfl

lemma metaField_withHeaders (key value : Bytes) (reg : AreasRegistry) :
    metaField key value (reg.withHeaders headers) =
      (metaField key value reg).withHeaders (metaField key value headers) := by
  rw [metaField, metaField, metaField]
  split_ifs <;> rfl

lemma indexSectionLine_withHeaders (indent : ℕ) (line : Bytes) (reg : AreasRegistry) :
    indexSectionLine (reg.withHeaders headers) indent line =
      (indexSectionLine reg indent line).withHeaders headers := by
  have hlabels : (reg.withHeaders headers).indexLabels = reg.indexLabels := rfl
  rw [indexSectionLine, indexSectionLine, hlabels]
  split_ifs <;> rfl

lemma metaSectionLine_withHeaders (indent : ℕ) (line : Bytes) (reg : AreasRegistry) :
    metaSectionLine (reg.withHeaders headers) indent line = (metaSectionLine reg indent line).withHeaders
      (setHeaders (if 2 ≤ indent then lineField line else none).toList headers) := by
  rw [metaSectionLine, metaSectionLine]
  split_ifs
  · cases lineField line with
    | none => rfl
    | some field => exact metaField_withHeaders _ _ _
  · rfl

/-- A line sees nothing of the headers, and sets them by itself. -/
lemma areasYamlLine_withHeaders : areasYamlLine (st.withHeaders headers) piece = (areasYamlLine st piece).map fun st' =>
    st'.withHeaders (setHeaders (metaFieldOf st.areasSection piece).toList headers) := by
  rw [areasYamlLine, areasYamlLine, metaFieldOf]
  by_cases hskip : trim piece = [] ∨ (trim piece).head? = some hash
  · rw [if_pos hskip, if_pos hskip, if_pos hskip]
    rfl
  · rw [if_neg hskip, if_neg hskip, if_neg hskip]
    by_cases hheader : lineIndent piece = 0 ∧ isHeader (trim piece) = true
    · rw [if_pos hheader, if_pos hheader, if_pos hheader]
      rfl
    · have hsection : (st.withHeaders headers).areasSection = st.areasSection := rfl
      rw [if_neg hheader, if_neg hheader, if_neg hheader, hsection]
      cases hsec : st.areasSection with
      | secNone => rfl
      | secMeta =>
        have hmeta := @metaSectionLine_withHeaders headers (lineIndent piece) (trim piece) st.registry
        simp only [true_and]
        exact congrArg (fun reg => some { st with registry := reg, areasSection := .secMeta }) hmeta
      | secAreas => exact areasSectionLine_withHeaders _ _
      | secMenu => exact congrArg some (menuSectionLine_withHeaders _ _)
      | secIndex =>
        exact congrArg (fun reg => some { st with registry := reg, areasSection := .secIndex })
          (indexSectionLine_withHeaders _ _ _)

lemma areasYamlLine_section (h : areasYamlLine st piece = some st') :
    st'.areasSection = sectionAfter st.areasSection piece := by
  rw [areasYamlLine] at h
  rw [sectionAfter]
  split_ifs at h ⊢
  · cases h
    rfl
  · cases h
    rfl
  · cases hsec : st.areasSection with
    | secNone =>
      rw [hsec] at h
      cases h
      exact hsec
    | secMeta =>
      rw [hsec] at h
      cases h
      rfl
    | secAreas =>
      rw [hsec] at h
      rw [areasSectionLine_section h, hsec]
    | secMenu =>
      rw [hsec] at h
      cases h
      rw [menuSectionLine]
      split_ifs <;> exact hsec
    | secIndex =>
      rw [hsec] at h
      cases h
      rfl

/-- Over a whole file, the tables do not depend on the headers, and the headers only on the fields that set them. -/
lemma run_withHeaders (pieces : List Bytes) (st : AreasState) (headers : AreasRegistry) :
    pieces.foldlM areasYamlLine (st.withHeaders headers) = (pieces.foldlM areasYamlLine st).map fun st' =>
      st'.withHeaders (setHeaders (metaFields st.areasSection pieces) headers) := by
  induction pieces generalizing st headers with
  | nil => rfl
  | cons piece pieces ih =>
    rw [List.foldlM_cons, List.foldlM_cons, areasYamlLine_withHeaders]
    cases hline : areasYamlLine st piece with
    | none => rfl
    | some next =>
      have hfields : setHeaders (metaFields st.areasSection (piece :: pieces)) headers =
          setHeaders (metaFields next.areasSection pieces)
            (setHeaders (metaFieldOf st.areasSection piece).toList headers) := by
        rw [metaFields, setHeaders, List.foldl_append, areasYamlLine_section hline]
        rfl
      rw [hfields]
      exact ih next _

/-- A header is what its fields make of it: they leave nothing of the one before. -/
lemma setHeaders_eq_iff {get : AreasRegistry → Bytes} {name : String}
    (hget : ∀ key value reg, get (metaField key value reg) =
      if strIeq key (ofString name) then strlcpy commandsHeaderMax value else get reg)
    (fields : List (Bytes × Bytes)) (reg reg' : AreasRegistry) :
    get (setHeaders fields reg) = get (setHeaders fields reg') ↔
      get reg = get reg' ∨ ∃ field ∈ fields, strIeq field.1 (ofString name) = true := by
  induction fields generalizing reg reg' with
  | nil => simp [setHeaders]
  | cons field fields ih =>
    have hstep : ∀ r, setHeaders (field :: fields) r = setHeaders fields (metaField field.1 field.2 r) := fun _ => rfl
    rw [hstep, hstep, ih, hget, hget, List.exists_mem_cons_iff]
    by_cases hname : strIeq field.1 (ofString name) = true
    · rw [if_pos hname, if_pos hname]
      simp [hname]
    · rw [if_neg hname, if_neg hname]
      simp [hname]

lemma metaField_menu (key value : Bytes) (reg : AreasRegistry) : (metaField key value reg).menuHeader =
    if strIeq key (ofString "menu_header") then strlcpy commandsHeaderMax value else reg.menuHeader := by
  rw [metaField]
  split_ifs <;> rfl

/-- A key has one name. -/
lemma strIeq_excludes {key a b : Bytes} (hab : a.map lower ≠ b.map lower) (h : strIeq key a = true) :
    ¬strIeq key b = true := by
  intro h'
  rw [strIeq_iff] at h h'
  exact hab (h.symm.trans h')

lemma metaField_index (key value : Bytes) (reg : AreasRegistry) : (metaField key value reg).indexHeader =
    if strIeq key (ofString "index_header") then strlcpy commandsHeaderMax value else reg.indexHeader := by
  rw [metaField]
  by_cases hmenu : strIeq key (ofString "menu_header") = true
  · rw [if_pos hmenu, if_neg (strIeq_excludes (by decide) hmenu)]
  · rw [if_neg hmenu]
    split_ifs <;> rfl

lemma metaField_alias (key value : Bytes) (reg : AreasRegistry) : (metaField key value reg).aliasHeader =
    if strIeq key (ofString "alias_header") then strlcpy commandsHeaderMax value else reg.aliasHeader := by
  rw [metaField]
  by_cases hmenu : strIeq key (ofString "menu_header") = true
  · rw [if_pos hmenu, if_neg (strIeq_excludes (by decide) hmenu)]
  · rw [if_neg hmenu]
    by_cases hindex : strIeq key (ofString "index_header") = true
    · rw [if_pos hindex, if_neg (strIeq_excludes (by decide) hindex)]
    · rw [if_neg hindex]
      split_ifs <;> rfl

end Headers

end HyBBX.Command
