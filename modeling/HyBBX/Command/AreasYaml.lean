import HyBBX.Command.BracketList
import HyBBX.Core.Types

/-! Reading `areas.yaml`, and what it makes of the lists of areas and of their sub-areas. -/

namespace HyBBX.Command

open HyBBX.Core Lib Lib.Bytes Lib.Text Lib.Numeral Lib.LineReader

def areasMax : ℕ := 12
def areasSubMax : ℕ := 4
def verbsPerGroup : ℕ := 16
def menuLevelsMax : ℕ := 5
def menuAreasPerLevel : ℕ := 12
def areaLabelMax : ℕ := 16
def commandsHeaderMax : ℕ := 128

structure MenuArea where
  label : Bytes
  verbs : List Bytes
  subareas : List (List Bytes)
  deriving DecidableEq

structure MenuLevel where
  name : Bytes
  areas : List Bytes
  deriving DecidableEq

/-- The part of the registry that `areas.yaml` is for. -/
structure AreasRegistry where
  menuHeader : Bytes
  indexHeader : Bytes
  aliasHeader : Bytes
  areas : List MenuArea
  menuLevels : List MenuLevel
  indexLabels : List Bytes
  deriving DecidableEq

def AreasRegistry.empty : AreasRegistry := ⟨[], [], [], [], [], []⟩

inductive AreasSection
  | secNone
  | secMeta
  | secAreas
  | secMenu
  | secIndex
  deriving DecidableEq, Repr

/-- The registry so far; the pointers of the source always lead to the last area and its last sub-area. -/
structure AreasState where
  registry : AreasRegistry
  areasSection : AreasSection
  areaOpen : Bool
  subareaOpen : Bool
  curMenuLevel : Bytes

def AreasState.start : AreasState := ⟨.empty, .secNone, false, false, []⟩

def areasSectionOf (name : Bytes) : AreasSection :=
  if strIeq name (ofString "meta") then .secMeta
  else if strIeq name (ofString "areas") then .secAreas
  else if strIeq name (ofString "menu") then .secMenu
  else if strIeq name (ofString "index") then .secIndex
  else .secNone

def metaField (key value : Bytes) (reg : AreasRegistry) : AreasRegistry :=
  if strIeq key (ofString "menu_header") then { reg with menuHeader := strlcpy commandsHeaderMax value }
  else if strIeq key (ofString "index_header") then { reg with indexHeader := strlcpy commandsHeaderMax value }
  else if strIeq key (ofString "alias_header") then { reg with aliasHeader := strlcpy commandsHeaderMax value }
  else reg

/-- What the list of a group becomes; none where reading it does not end. A list that is refused leaves what it has stored. -/
def groupVerbs (value : Bytes) : Option (List Bytes) :=
  (parseBracketList (value.length + 1) value verbsPerGroup).map fun r => r.2

def areaField (key value : Bytes) (area : MenuArea) : Option MenuArea :=
  if strIeq key (ofString "label") then some { area with label := strlcpy areaLabelMax value }
  else if strIeq key (ofString "commands") then (groupVerbs value).map fun verbs => { area with verbs := verbs }
  else some area

def areaKeyLine (line : Bytes) (area : MenuArea) : Option MenuArea :=
  match lineField line with
  | none => some area
  | some (key, value) => areaField key value area

def subareaKeyLine (line : Bytes) (area : MenuArea) : Option MenuArea :=
  match lineField line with
  | none => some area
  | some (key, value) =>
    if strIeq key (ofString "commands") then
      (groupVerbs value).map fun verbs => { area with subareas := modifyLast (fun _ => verbs) area.subareas }
    else some area

/-- The last area, with what a line of it says. -/
def AreasState.inArea (st : AreasState) (line : MenuArea → Option MenuArea) : Option AreasState :=
  (fieldOfLast line st.registry.areas).map fun areas => { st with registry := { st.registry with areas := areas } }

def areasSectionLine (st : AreasState) (indent : ℕ) (line : Bytes) : Option AreasState :=
  if indent = 2 ∧ line.head? = some dash then
    if areasMax ≤ st.registry.areas.length then some st
    else
      { st with
        registry := { st.registry with areas := st.registry.areas ++ [⟨[], [], []⟩] }
        areaOpen := true
        subareaOpen := false : AreasState }.inArea (areaKeyLine (trim line.tail))
  else if st.areaOpen = false then some st
  else if indent = 4 ∧ line.head? = some dash then
    match st.registry.areas.getLast? with
    | none => some st
    | some area =>
      if area.subareas.length < areasSubMax then
        { st with subareaOpen := true : AreasState }.inArea fun area =>
          some { area with subareas := area.subareas ++ [[]] }
      else some st
  else if 4 ≤ indent then st.inArea (areaKeyLine line)
  else if 6 ≤ indent ∧ st.subareaOpen then st.inArea (subareaKeyLine line)
  else some st

def menuSectionLine (st : AreasState) (indent : ℕ) (line : Bytes) : AreasState :=
  let reg := st.registry
  if indent = 2 ∧ isHeader line then
    if reg.menuLevels.length < menuLevelsMax then
      let name := strlcpy areaLabelMax (lineKey line.dropLast)
      { st with registry := { reg with menuLevels := reg.menuLevels ++ [⟨name, []⟩] }, curMenuLevel := name }
    else st
  else if 4 ≤ indent ∧ line.head? = some dash ∧ st.curMenuLevel ≠ [] then
    let label := strlcpy areaLabelMax (trim line.tail)
    { st with
      registry := { reg with
        menuLevels := reg.menuLevels.modify (reg.menuLevels.findIdx fun level => strIeq level.name st.curMenuLevel) fun level =>
          if level.areas.length < menuAreasPerLevel then { level with areas := level.areas ++ [label] } else level } }
  else st

def indexSectionLine (reg : AreasRegistry) (indent : ℕ) (line : Bytes) : AreasRegistry :=
  if 2 ≤ indent ∧ line.head? = some dash ∧ reg.indexLabels.length < menuAreasPerLevel then
    { reg with indexLabels := reg.indexLabels ++ [strlcpy areaLabelMax (trim line.tail)] }
  else reg

def metaSectionLine (reg : AreasRegistry) (indent : ℕ) (line : Bytes) : AreasRegistry :=
  if 2 ≤ indent then
    match lineField line with
    | none => reg
    | some (key, value) => metaField key value reg
  else reg

def areasYamlLine (st : AreasState) (piece : Bytes) : Option AreasState :=
  let indent := lineIndent piece
  let line := trim piece
  if line = [] ∨ line.head? = some hash then some st
  else if indent = 0 ∧ isHeader line then
    some { st with
      areasSection := areasSectionOf line.dropLast
      areaOpen := false
      subareaOpen := false
      curMenuLevel := [] }
  else match st.areasSection with
    | .secNone => some st
    | .secMeta => some { st with registry := metaSectionLine st.registry indent line }
    | .secAreas => areasSectionLine st indent line
    | .secMenu => some (menuSectionLine st indent line)
    | .secIndex => some { st with registry := indexSectionLine st.registry indent line }

def areasPieces (file : Bytes) : List Bytes := (fgets configLineMax file).map cstr

/-- Without an index of its own the file has all areas in it. -/
def indexDefault (reg : AreasRegistry) : AreasRegistry :=
  if reg.indexLabels = [] then { reg with indexLabels := (reg.areas.map MenuArea.label).take menuAreasPerLevel } else reg

/-- `parse_areas_yaml` on the text of the file, for a registry that was empty; none where it does not end. -/
def parseAreasYaml (file : Bytes) : Option (Except HybbxResult AreasRegistry) :=
  ((areasPieces file).foldlM areasYamlLine .start).map fun st =>
    let reg := st.registry
    if reg.menuHeader = [] ∨ reg.indexHeader = [] ∨ reg.areas = [] then .error .errInvalid else .ok (indexDefault reg)

lemma inArea_section {st st' : AreasState} {line : MenuArea → Option MenuArea} (h : st.inArea line = some st') :
    st'.areasSection = st.areasSection := by
  obtain ⟨areas, -, rfl⟩ := Option.map_eq_some_iff.mp h
  rfl

lemma areasSectionLine_section {st st' : AreasState} {indent : ℕ} {line : Bytes}
    (h : areasSectionLine st indent line = some st') :
    st'.areasSection = st.areasSection := by
  rw [areasSectionLine] at h
  split_ifs at h
  · cases h
    rfl
  · exact (inArea_section h).trans rfl
  · cases h
    rfl
  · split at h
    · cases h
      rfl
    · split_ifs at h
      · exact (inArea_section h).trans rfl
      · cases h
        rfl
  · exact inArea_section h
  · exact inArea_section h
  · cases h
    rfl

end HyBBX.Command
