import HyBBX.Command.AreasYaml

/-! The lists of areas and of sub-areas in `areas.yaml`: where they are kept apart. -/

namespace HyBBX.Command

open HyBBX.Core Lib Lib.Bytes Lib.Text Lib.Numeral Lib.LineReader

/-- What stands in an area: a key, or a sub-area with its keys. -/
inductive AreaPart
  | key (line : Bytes)
  | sub (item : Bytes) (keys : List Bytes)

/-- An area of the file. The first key may stand in the line of the item. -/
structure AreaEntry where
  item : Bytes
  parts : List AreaPart

def AreaPart.lines : AreaPart → List (ℕ × Bytes)
  | key line => [(4, line)]
  | sub item keys => (4, dash :: item) :: keys.map fun line => (6, line)

def AreaPart.ownKeys : AreaPart → List Bytes
  | key line => [line]
  | sub _ _ => []

def AreaPart.keys : AreaPart → List Bytes
  | key line => [line]
  | sub _ keys => keys

def AreaPart.subKeys : AreaPart → List (List Bytes)
  | key _ => []
  | sub _ keys => [keys]

/-- The lines of an area with their indentation. -/
def AreaEntry.lines (entry : AreaEntry) : List (ℕ × Bytes) :=
  (2, dash :: entry.item) :: entry.parts.flatMap AreaPart.lines

/-- The list that a key gives, if it is the one for commands. -/
def givenList (line : Bytes) : Option (List Bytes) :=
  (lineField line).bind fun field =>
    if strIeq field.1 (ofString "commands") then some (pieceItems (listPieces field.2)) else none

/-- Of a list that is given again the last one counts. -/
def lastGiven (list : List Bytes) (lines : List Bytes) : List Bytes :=
  lines.foldl (fun list line => (givenList line).getD list) list

namespace AreaEntry

variable (entry : AreaEntry)

def ownKeys : List Bytes := trim entry.item :: entry.parts.flatMap AreaPart.ownKeys

/-- The keys at any depth. -/
def allKeys : List Bytes := trim entry.item :: entry.parts.flatMap AreaPart.keys

def subKeys : List (List Bytes) := entry.parts.flatMap AreaPart.subKeys

/-- The list of the area, and the lists of its sub-areas. -/
def given : List Bytes × List (List Bytes) := (lastGiven [] entry.ownKeys, entry.subKeys.map (lastGiven []))

end AreaEntry

/-- A list that is read item by item, and that there is room for. -/
def FitsGroup (line : Bytes) : Prop :=
  ∀ field ∈ lineField line, strIeq field.1 (ofString "commands") = true →
    ReachedPlain verbsPerGroup (listPieces field.2) ∧ (pieceItems (listPieces field.2)).length ≤ verbsPerGroup

def AreaPart.WellFormed : AreaPart → Prop
  | key line => line.head? ≠ some dash
  | sub item _ => givenList (trim item) = none

structure AreaEntry.WellFormed (entry : AreaEntry) : Prop where
  keys : ∀ line ∈ entry.allKeys, FitsGroup line
  parts : ∀ part ∈ entry.parts, part.WellFormed
  room : entry.subKeys.length ≤ areasSubMax

/-- The lines that count, with their indentation. -/
def meaningful (pieces : List Bytes) : List (ℕ × Bytes) :=
  (pieces.filter fun piece => trim piece ≠ [] ∧ (trim piece).head? ≠ some hash).map fun piece =>
    (lineIndent piece, trim piece)

def isSectionHeader (piece : Bytes) : Bool :=
  lineIndent piece = 0 && isHeader (trim piece) && (trim piece).head? ≠ some hash

def isAreasHeader (piece : Bytes) : Bool := isSectionHeader piece && strIeq (trim piece).dropLast (ofString "areas")

/-- A file with one section of areas, which stand in it at the indentations 2, 4 and 6. -/
structure AreasLayout (file : Bytes) (entries : List AreaEntry) : Prop where
  wellFormed : ∀ entry ∈ entries, entry.WellFormed
  room : entries.length ≤ areasMax
  lines : ∃ before header inside after, areasPieces file = before ++ header :: (inside ++ after) ∧
    (∀ piece ∈ before ++ after, isAreasHeader piece = false) ∧ isAreasHeader header = true ∧
    (∀ piece ∈ inside, isSectionHeader piece = false) ∧ (∀ piece ∈ after.head?, isSectionHeader piece = true) ∧
    meaningful inside = entries.flatMap AreaEntry.lines

def MenuArea.lists (area : MenuArea) : List Bytes × List (List Bytes) := (area.verbs, area.subareas)

section Sections

lemma metaSectionLine_areas (reg : AreasRegistry) (indent : ℕ) (line : Bytes) :
    (metaSectionLine reg indent line).areas = reg.areas := by
  rw [metaSectionLine]
  split_ifs
  · cases lineField line with
    | none => rfl
    | some field =>
      dsimp only
      rw [metaField]
      split_ifs <;> rfl
  · rfl

lemma menuSectionLine_areas (st : AreasState) (indent : ℕ) (line : Bytes) :
    (menuSectionLine st indent line).registry.areas = st.registry.areas ∧
    (menuSectionLine st indent line).areasSection = st.areasSection := by
  rw [menuSectionLine]
  split_ifs <;> exact ⟨rfl, rfl⟩

lemma indexSectionLine_areas (reg : AreasRegistry) (indent : ℕ) (line : Bytes) :
    (indexSectionLine reg indent line).areas = reg.areas := by
  rw [indexSectionLine]
  split_ifs <;> rfl

lemma areasSectionOf_eq (name : Bytes) : areasSectionOf name = .secAreas ↔ strIeq name (ofString "areas") = true := by
  rw [areasSectionOf]
  constructor
  · intro h
    split_ifs at h with hmeta hareas
    exact hareas
  · intro hareas
    have hmeta : strIeq name (ofString "meta") = false := by
      rw [strIeq, decide_eq_true_iff] at hareas
      rw [strIeq, hareas]
      decide
    rw [hmeta, if_neg (by simp), if_pos hareas]

/-- Lines outside of the section of areas leave the areas as they are. -/
lemma areasYamlLine_outside {st : AreasState} {piece : Bytes} (hst : st.areasSection ≠ .secAreas)
    (hpiece : isAreasHeader piece = false) :
    ∃ st', areasYamlLine st piece = some st' ∧ st'.areasSection ≠ .secAreas ∧
      st'.registry.areas = st.registry.areas := by
  rw [areasYamlLine]
  split_ifs with hskip hheader
  · exact ⟨st, rfl, hst, rfl⟩
  · refine ⟨_, rfl, ?_, rfl⟩
    rw [not_or] at hskip
    simpa [areasSectionOf_eq, isAreasHeader, isSectionHeader, hheader, hskip.2] using hpiece
  · cases hsec : st.areasSection with
    | secNone => exact ⟨st, rfl, hst, rfl⟩
    | secMeta => exact ⟨_, rfl, by rintro ⟨⟩, metaSectionLine_areas _ _ _⟩
    | secAreas => exact absurd hsec hst
    | secMenu =>
      obtain ⟨hareas, hsection⟩ := menuSectionLine_areas st (lineIndent piece) (trim piece)
      exact ⟨_, rfl, fun h => hst (hsection ▸ h), hareas⟩
    | secIndex => exact ⟨_, rfl, by rintro ⟨⟩, indexSectionLine_areas _ _ _⟩

lemma areasYamlLine_header {piece : Bytes} (h : isSectionHeader piece = true) (st : AreasState) :
    ∃ st', areasYamlLine st piece = some st' ∧ st'.areasSection = areasSectionOf (trim piece).dropLast ∧
      st'.registry = st.registry := by
  simp only [isSectionHeader, Bool.and_eq_true, decide_eq_true_iff] at h
  obtain ⟨⟨hindent, hend⟩, hhash⟩ := h
  have hskip : ¬(trim piece = [] ∨ (trim piece).head? = some hash) := by
    rintro (hnil | h)
    · rw [hnil] at hend
      cases hend
    · exact hhash h
  rw [areasYamlLine, if_neg hskip, if_pos ⟨hindent, hend⟩]
  exact ⟨_, rfl, rfl, rfl⟩

lemma foldlM_outside {pieces : List Bytes} {st : AreasState} (hst : st.areasSection ≠ .secAreas)
    (hpieces : ∀ piece ∈ pieces, isAreasHeader piece = false) :
    ∃ st', pieces.foldlM areasYamlLine st = some st' ∧ st'.areasSection ≠ .secAreas ∧
      st'.registry.areas = st.registry.areas := by
  induction pieces generalizing st with
  | nil => exact ⟨st, rfl, hst, rfl⟩
  | cons piece pieces ih =>
    obtain ⟨hpiece, hpieces⟩ := List.forall_mem_cons.mp hpieces
    obtain ⟨st', hline, hst', hareas⟩ := areasYamlLine_outside hst hpiece
    obtain ⟨st'', hfold, hst'', hareas'⟩ := ih hst' hpieces
    refine ⟨st'', ?_, hst'', hareas'.trans hareas⟩
    rw [List.foldlM_cons, hline]
    exact hfold

def sectionLine (st : AreasState) (line : ℕ × Bytes) : Option AreasState := areasSectionLine st line.1 line.2

/-- Inside of the section only the lines that count matter. -/
lemma foldlM_inside {pieces : List Bytes} {st : AreasState} (hst : st.areasSection = .secAreas)
    (hpieces : ∀ piece ∈ pieces, isSectionHeader piece = false) :
    pieces.foldlM areasYamlLine st = (meaningful pieces).foldlM sectionLine st := by
  induction pieces generalizing st with
  | nil => rfl
  | cons piece pieces ih =>
    obtain ⟨hpiece, hpieces⟩ := List.forall_mem_cons.mp hpieces
    rw [List.foldlM_cons, areasYamlLine]
    by_cases hskip : trim piece = [] ∨ (trim piece).head? = some hash
    · have hnone : meaningful (piece :: pieces) = meaningful pieces := by
        rw [meaningful, List.filter_cons_of_neg (by simpa [← or_iff_not_imp_left] using hskip)]
        rfl
      rw [if_pos hskip, hnone]
      exact ih hst hpieces
    · have hline : meaningful (piece :: pieces) = (lineIndent piece, trim piece) :: meaningful pieces := by
        rw [not_or] at hskip
        rw [meaningful, List.filter_cons_of_pos (by simpa using hskip)]
        rfl
      have hheader : ¬(lineIndent piece = 0 ∧ isHeader (trim piece) = true) := by
        rintro ⟨hindent, hend⟩
        rw [not_or] at hskip
        simp [isSectionHeader, hindent, hend, hskip.2] at hpiece
      rw [if_neg hskip, if_neg hheader, hst, hline, List.foldlM_cons, sectionLine]
      dsimp only
      cases h : areasSectionLine st (lineIndent piece) (trim piece) with
      | none => rfl
      | some st' => exact ih ((areasSectionLine_section h).trans hst) hpieces

end Sections

/-- The state with an area open, behind others. -/
structure Opened (st : AreasState) (front : List MenuArea) (area : MenuArea) : Prop where
  inside : st.areasSection = .secAreas
  areaOpen : st.areaOpen = true
  areas : st.registry.areas = front ++ [area]

section Entries

variable {st : AreasState} {front : List MenuArea} {area : MenuArea}

lemma fieldOfLast_concat {α : Type} (field : α → Option α) (l : List α) (a : α) :
    fieldOfLast field (l ++ [a]) = (field a).map fun a' => l ++ [a'] := by
  rw [fieldOfLast, List.getLast?_concat]
  dsimp only
  congr 1
  funext a'
  rw [modifyLast, List.length_append, List.length_singleton, Nat.add_sub_cancel]
  induction l with
  | nil => rfl
  | cons b l ih => exact congrArg (b :: ·) ih

lemma Opened.inArea (h : Opened st front area) {line : MenuArea → Option MenuArea} {area' : MenuArea}
    (hline : line area = some area') :
    ∃ st', st.inArea line = some st' ∧ Opened st' front area' := by
  rw [AreasState.inArea, h.areas, fieldOfLast_concat, hline]
  exact ⟨_, rfl, h.inside, h.areaOpen, rfl⟩

lemma groupVerbs_of_plain {value : Bytes} (hplain : ReachedPlain verbsPerGroup (listPieces value))
    (hroom : (pieceItems (listPieces value)).length ≤ verbsPerGroup) :
    groupVerbs value = some (pieceItems (listPieces value)) := by
  obtain ⟨r, hr, -, htake⟩ := parse_of_reachedPlain hplain
  rw [groupVerbs, hr, Option.map_some, htake, List.take_of_length_le hroom]

/-- A key line puts the list that it gives, and leaves the sub-areas. -/
lemma areaKeyLine_fits {line : Bytes} (h : FitsGroup line) (area : MenuArea) :
    ∃ area', areaKeyLine line area = some area' ∧ area'.lists = ((givenList line).getD area.verbs, area.subareas) := by
  rw [areaKeyLine, givenList]
  rw [FitsGroup] at h
  cases hfield : lineField line with
  | none => exact ⟨area, rfl, rfl⟩
  | some field =>
    obtain ⟨key, value⟩ := field
    have hlabel : strIeq key (ofString "commands") = true → strIeq key (ofString "label") = false := by
      intro hcommands
      rw [strIeq, decide_eq_true_iff] at hcommands
      rw [strIeq, hcommands]
      decide
    dsimp only
    rw [Option.bind_some, areaField]
    by_cases hcommands : strIeq key (ofString "commands") = true
    · obtain ⟨hplain, hroom⟩ := h (key, value) hfield hcommands
      rw [hlabel hcommands, if_neg (by simp), if_pos hcommands, if_pos hcommands, groupVerbs_of_plain hplain hroom]
      exact ⟨_, rfl, rfl⟩
    · rw [if_neg hcommands, if_neg hcommands]
      split_ifs
      · exact ⟨_, rfl, rfl⟩
      · exact ⟨_, rfl, rfl⟩

lemma sectionLine_key (h : Opened st front area) {indent : ℕ} {line : Bytes}
    (hindent : indent = 4 ∧ line.head? ≠ some dash ∨ indent = 6)
    (hfits : FitsGroup line) : ∃ st' area', sectionLine st (indent, line) = some st' ∧ Opened st' front area' ∧
      area'.lists = ((givenList line).getD area.verbs, area.subareas) := by
  obtain ⟨area', hkey, hlists⟩ := areaKeyLine_fits hfits area
  obtain ⟨st', hst, hopened⟩ := h.inArea hkey
  refine ⟨st', area', ?_, hopened, hlists⟩
  rw [sectionLine, areasSectionLine, if_neg (by omega), h.areaOpen, if_neg (by simp), if_neg, if_pos (by omega), hst]
  rintro ⟨hfour, hdash⟩
  rcases hindent with ⟨-, hno⟩ | hsix
  · exact hno hdash
  · omega

lemma sectionLine_sub (h : Opened st front area) (item : Bytes) (hroom : area.subareas.length < areasSubMax) :
    ∃ st' area', sectionLine st (4, dash :: item) = some st' ∧ Opened st' front area' ∧
      area'.lists = (area.verbs, area.subareas ++ [[]]) := by
  have hopened : Opened { st with subareaOpen := true } front area := ⟨h.inside, h.areaOpen, h.areas⟩
  obtain ⟨st', hst, hopened'⟩ :=
    @Opened.inArea _ _ _ hopened (fun area => some { area with subareas := area.subareas ++ [[]] }) _ rfl
  refine ⟨st', _, ?_, hopened', rfl⟩
  have hopen : ¬st.areaOpen = false := by simp [h.areaOpen]
  rw [sectionLine, areasSectionLine, if_neg (by omega), if_neg hopen, if_pos ⟨rfl, rfl⟩, h.areas, List.getLast?_concat]
  dsimp only
  rw [if_pos hroom, hst]

lemma sectionLine_item {item : Bytes} (hinside : st.areasSection = .secAreas)
    (hroom : st.registry.areas.length < areasMax)
    (hfits : FitsGroup (trim item)) : ∃ st' area', sectionLine st (2, dash :: item) = some st' ∧
    Opened st' st.registry.areas area' ∧
      area'.lists = ((givenList (trim item)).getD [], []) := by
  obtain ⟨area', hkey, hlists⟩ := areaKeyLine_fits hfits ⟨[], [], []⟩
  have hopened : Opened
    { st with
      registry := { st.registry with areas := st.registry.areas ++ [⟨[], [], []⟩] }
      areaOpen := true
      subareaOpen := false } st.registry.areas ⟨[], [], []⟩ := ⟨hinside, rfl, rfl⟩
  obtain ⟨st', hst, hopened'⟩ := hopened.inArea hkey
  refine ⟨st', area', ?_, hopened', hlists⟩
  rw [sectionLine, areasSectionLine, if_pos ⟨rfl, rfl⟩, if_neg (by omega)]
  exact hst

/-- The keys of a sub-area are taken for keys of the area. -/
lemma foldlM_subKeys {keys : List Bytes} (h : Opened st front area) (hfits : ∀ line ∈ keys, FitsGroup line) :
    ∃ st' area', (keys.map fun line => (6, line)).foldlM sectionLine st = some st' ∧ Opened st' front area' ∧
      area'.lists = (lastGiven area.verbs keys, area.subareas) := by
  induction keys generalizing st area with
  | nil => exact ⟨st, area, rfl, h, rfl⟩
  | cons line keys ih =>
    obtain ⟨hline, hfits⟩ := List.forall_mem_cons.mp hfits
    obtain ⟨st', area', hst', hopened, hlists⟩ := sectionLine_key h (.inr rfl) hline
    obtain ⟨st'', area'', hst'', hopened', hlists'⟩ := ih hopened hfits
    obtain ⟨hverbs, hsubs⟩ := Prod.mk.inj hlists
    refine ⟨st'', area'', ?_, hopened', ?_⟩
    · rw [List.map_cons, List.foldlM_cons, hst']
      exact hst''
    · rw [hlists', hverbs, hsubs, lastGiven, lastGiven, List.foldl_cons]

lemma foldlM_parts {parts : List AreaPart} (h : Opened st front area) (hfits : ∀ line ∈ parts.flatMap AreaPart.keys,
    FitsGroup line)
    (hkeys : ∀ part ∈ parts, part.WellFormed)
    (hroom : area.subareas.length + (parts.flatMap AreaPart.subKeys).length ≤ areasSubMax) :
    ∃ st' area', (parts.flatMap AreaPart.lines).foldlM sectionLine st = some st' ∧ Opened st' front area' ∧
      area'.lists = (lastGiven area.verbs (parts.flatMap AreaPart.keys),
          area.subareas ++ (parts.flatMap AreaPart.subKeys).map fun _ => []) := by
  induction parts generalizing st area with
  | nil => exact ⟨st, area, rfl, h, by simp [MenuArea.lists, lastGiven]⟩
  | cons part parts ih =>
    obtain ⟨hpart, hkeys⟩ := List.forall_mem_cons.mp hkeys
    rw [List.flatMap_cons] at hfits hroom
    rw [List.length_append] at hroom
    have hfirst : ∀ line ∈ part.keys, FitsGroup line := fun line hline => hfits line (List.mem_append_left _ hline)
    have hrest : ∀ line ∈ parts.flatMap AreaPart.keys, FitsGroup line := fun line hline =>
      hfits line (List.mem_append_right _ hline)
    obtain ⟨st', area', hst', hopened, hlists⟩ : ∃ st' area', part.lines.foldlM sectionLine st = some st' ∧
      Opened st' front area' ∧
        area'.lists = (lastGiven area.verbs (part.keys), area.subareas ++ (part.subKeys).map fun _ => []) := by
      cases part with
      | key line =>
        obtain ⟨st', area', hst', hopened, hlists⟩ :=
          sectionLine_key h (.inl ⟨rfl, hpart⟩) (hfirst line List.mem_cons_self)
        refine ⟨st', area', ?_, hopened, ?_⟩
        · rw [AreaPart.lines, List.foldlM_cons, hst']
          rfl
        · rw [hlists, AreaPart.subKeys, List.map_nil, List.append_nil]
          rfl
      | sub item keys =>
        obtain ⟨st', area', hst', hopened, hlists⟩ :=
          sectionLine_sub h item (by simp only [AreaPart.subKeys, List.length_singleton] at hroom; omega)
        obtain ⟨st'', area'', hst'', hopened', hlists'⟩ := foldlM_subKeys hopened hfirst
        obtain ⟨hverbs, hsubs⟩ := Prod.mk.inj hlists
        refine ⟨st'', area'', ?_, hopened', ?_⟩
        · rw [AreaPart.lines, List.foldlM_cons, hst']
          exact hst''
        · rw [hlists', hverbs, hsubs]
          rfl
    obtain ⟨hverbs, hsubs⟩ := Prod.mk.inj hlists
    obtain ⟨st'', area'', hst'', hopened', hlists'⟩ := ih hopened hrest hkeys (by
      rw [hsubs, List.length_append, List.length_map]
      omega)
    refine ⟨st'', area'', ?_, hopened', ?_⟩
    · rw [List.flatMap_cons, List.foldlM_append, hst']
      exact hst''
    · rw [hlists', hverbs, hsubs, List.flatMap_cons, List.flatMap_cons, List.map_append, ← List.append_assoc,
        lastGiven, lastGiven, lastGiven,
        List.foldl_append]

/-- What the reader makes of an area. -/
def AreaEntry.read (entry : AreaEntry) : List Bytes × List (List Bytes) :=
  (lastGiven [] entry.allKeys, entry.subKeys.map fun _ => [])

lemma foldlM_entry {entry : AreaEntry} (hinside : st.areasSection = .secAreas)
    (hroom : st.registry.areas.length < areasMax)
    (hentry : entry.WellFormed) : ∃ st' area, entry.lines.foldlM sectionLine st = some st' ∧
    Opened st' st.registry.areas area ∧
      area.lists = entry.read := by
  obtain ⟨hitem, hfits⟩ := List.forall_mem_cons.mp hentry.keys
  obtain ⟨st', area', hst', hopened, hlists⟩ := sectionLine_item hinside hroom hitem
  obtain ⟨hverbs, hsubs⟩ := Prod.mk.inj hlists
  obtain ⟨st'', area'', hst'', hopened', hlists'⟩ := foldlM_parts hopened hfits hentry.parts (by
    rw [hsubs]
    simpa [AreaEntry.subKeys] using hentry.room)
  refine ⟨st'', area'', ?_, hopened', ?_⟩
  · rw [AreaEntry.lines, List.foldlM_cons, hst']
    exact hst''
  · rw [hlists', hverbs, hsubs]
    rfl

lemma foldlM_entries {entries : List AreaEntry} (hinside : st.areasSection = .secAreas)
    (hroom : st.registry.areas.length + entries.length ≤ areasMax) (hentries : ∀ entry ∈ entries, entry.WellFormed) :
    ∃ st', (entries.flatMap AreaEntry.lines).foldlM sectionLine st = some st' ∧
      st'.registry.areas.map MenuArea.lists = st.registry.areas.map MenuArea.lists ++ entries.map AreaEntry.read := by
  induction entries generalizing st with
  | nil => exact ⟨st, rfl, by simp⟩
  | cons entry entries ih =>
    obtain ⟨hentry, hentries⟩ := List.forall_mem_cons.mp hentries
    rw [List.length_cons] at hroom
    obtain ⟨st', area, hst', hopened, hlists⟩ := foldlM_entry hinside (by omega) hentry
    obtain ⟨st'', hst'', hareas⟩ :=
      ih hopened.inside (by rw [hopened.areas, List.length_append, List.length_singleton]; omega) hentries
    refine ⟨st'', ?_, ?_⟩
    · rw [List.flatMap_cons, List.foldlM_append, hst']
      exact hst''
    · rw [hareas, hopened.areas, List.map_append, List.map_singleton, hlists, List.map_cons, List.append_assoc]
      rfl

end Entries

/-- Every area and every sub-area of the file with its own list, as the reader has them at the end. -/
lemma parseAreasYaml_lists {file : Bytes} {entries : List AreaEntry} (h : AreasLayout file entries) :
    ∃ r, parseAreasYaml file = some r ∧ ∀ reg, r = .ok reg →
      reg.areas.map MenuArea.lists = entries.map AreaEntry.read := by
  obtain ⟨before, header, inside, after, hpieces, hother, hheader, hinside, hafter, hlines⟩ := h.lines
  obtain ⟨st₁, hst₁, hsection₁, hareas₁⟩ := @foldlM_outside before .start (by decide)
    fun piece hpiece => hother piece (List.mem_append_left _ hpiece)
  obtain ⟨st₂, hst₂, hsection₂, hareas₂⟩ : ∃ st₂, areasYamlLine st₁ header = some st₂ ∧ st₂.areasSection = .secAreas ∧
      st₂.registry.areas = [] := by
    rw [isAreasHeader, Bool.and_eq_true] at hheader
    obtain ⟨st₂, hst₂, hsection₂, hregistry₂⟩ := areasYamlLine_header hheader.1 st₁
    exact ⟨st₂, hst₂, hsection₂.trans ((areasSectionOf_eq _).mpr hheader.2), by rw [hregistry₂, hareas₁]; rfl⟩
  obtain ⟨st₃, hst₃, hareas₃⟩ := @foldlM_entries _ entries hsection₂ (by rw [hareas₂]; simpa using h.room) h.wellFormed
  rw [← hlines, ← foldlM_inside hsection₂ hinside] at hst₃
  obtain ⟨st₄, hst₄, hareas₄⟩ : ∃ st₄, after.foldlM areasYamlLine st₃ = some st₄ ∧
      st₄.registry.areas = st₃.registry.areas := by
    cases after with
    | nil => exact ⟨st₃, rfl, rfl⟩
    | cons piece after =>
      have hpiece := hother piece (by simp)
      have hheads := hafter piece rfl
      obtain ⟨st', hst', hsection', hregistry'⟩ := areasYamlLine_header hheads st₃
      have houtside : st'.areasSection ≠ .secAreas := by
        rw [hsection', Ne, areasSectionOf_eq]
        simpa [isAreasHeader, hheads] using hpiece
      obtain ⟨st₄, hst₄, -, hareas₄⟩ := @foldlM_outside after _ houtside fun p hp => hother p (by simp [hp])
      refine ⟨st₄, ?_, hareas₄.trans (by rw [hregistry'])⟩
      rw [List.foldlM_cons, hst']
      exact hst₄
  have hfold : (areasPieces file).foldlM areasYamlLine .start = some st₄ := by
    rw [hpieces, List.foldlM_append, hst₁]
    change (header :: (inside ++ after)).foldlM areasYamlLine st₁ = some st₄
    rw [List.foldlM_cons, hst₂]
    change (inside ++ after).foldlM areasYamlLine st₂ = some st₄
    rw [List.foldlM_append, hst₃]
    exact hst₄
  refine ⟨_, by rw [parseAreasYaml, hfold, Option.map_some], fun reg hreg => ?_⟩
  dsimp only at hreg
  split_ifs at hreg
  cases hreg
  have hindex : (indexDefault st₄.registry).areas = st₄.registry.areas := by
    rw [indexDefault]
    split_ifs <;> rfl
  rw [hindex, hareas₄, hareas₃, hareas₂]
  rfl

/-- The lists of areas and sub-areas are kept apart exactly where no sub-area is given a list with anything in it, and the list
that stands last in an area, at any depth, is its own. -/
theorem areas_apart_iff (file : Bytes) (entries : List AreaEntry) (h : AreasLayout file entries) :
    ∃ r, parseAreasYaml file = some r ∧ ∀ reg, r = .ok reg →
      (reg.areas.map MenuArea.lists = entries.map AreaEntry.given ↔
        ∀ entry ∈ entries, (∀ keys ∈ entry.subKeys, lastGiven [] keys = []) ∧
          lastGiven [] entry.allKeys = lastGiven [] entry.ownKeys) := by
  obtain ⟨r, hr, hlists⟩ := parseAreasYaml_lists h
  refine ⟨r, hr, fun reg hreg => ?_⟩
  rw [hlists reg hreg, List.map_inj_left]
  refine forall₂_congr fun entry _ => ?_
  rw [AreaEntry.read, AreaEntry.given, Prod.mk.injEq, List.map_inj_left, and_comm]
  simp only [eq_comm (a := ([] : List Bytes))]

section Example

def twoLevels : List AreaEntry :=
  [⟨ofString " label: Talk", [.key (ofString "commands: [chat, conference]"), .sub (ofString " label: Remote") [ofString "commands: [proxychat]"]]⟩]

def oneLevel : List AreaEntry :=
  [⟨ofString " label: Talk", [.sub (ofString " label: Remote") [ofString "commands: []"], .key (ofString "commands: [chat, conference]")]⟩]

def areasFile (talk : String) : Bytes :=
  ofString ("meta:\n  menu_header: menu\n  index_header: index\nareas:\n  - label: Talk\n" ++ talk ++ "menu:\n  Guest:\n    - Talk\n")

def twoLevelsFile : Bytes :=
  areasFile "    commands: [chat, conference]\n    - label: Remote\n      commands: [proxychat]\n"

def oneLevelFile : Bytes :=
  areasFile "    - label: Remote\n      commands: []\n    commands: [chat, conference]\n"

instance (line : Bytes) : Decidable (FitsGroup line) :=
  inferInstanceAs (Decidable (∀ field ∈ lineField line, strIeq field.1 (ofString "commands") = true →
    ReachedPlain verbsPerGroup (listPieces field.2) ∧ (pieceItems (listPieces field.2)).length ≤ verbsPerGroup))

instance : (part : AreaPart) → Decidable part.WellFormed
  | .key line => inferInstanceAs (Decidable (line.head? ≠ some dash))
  | .sub item _ => inferInstanceAs (Decidable (givenList (trim item) = none))

lemma oneLevel_layout : AreasLayout oneLevelFile oneLevel where
  wellFormed := by
    intro entry hentry
    obtain rfl : entry = _ := List.mem_singleton.mp hentry
    exact ⟨by decide +kernel, by decide +kernel, by decide⟩
  room := by decide
  lines := by
    refine ⟨(areasPieces oneLevelFile).take 3, ofString "areas:\n", ((areasPieces oneLevelFile).drop 4).take 4,
      (areasPieces oneLevelFile).drop 8, ?_, ?_, ?_, ?_, ?_, ?_⟩
    all_goals
      try rw [oneLevelFile, areasFile, ofString_append, ofString_append, ofString_ofList, ofString_ofList, ofString_ofList]
      decide +kernel

theorem areas_apart_one_level :
    parseAreasYaml oneLevelFile = some (.ok ⟨ofString "menu", ofString "index", [],
      [⟨ofString "Talk", ["chat", "conference"].map ofString, [[]]⟩], [⟨ofString "Guest", [ofString "Talk"]⟩],
        [ofString "Talk"]⟩) ∧
    ∃ r, parseAreasYaml oneLevelFile = some r ∧ ∀ reg, r = .ok reg →
      reg.areas.map MenuArea.lists = oneLevel.map AreaEntry.given := by
  obtain ⟨r, hr, hlists⟩ := areas_apart_iff oneLevelFile oneLevel oneLevel_layout
  refine ⟨?_, r, hr, fun reg hreg => (hlists reg hreg).mpr (by decide +kernel)⟩
  rw [oneLevelFile, areasFile, ofString_append, ofString_append, ofString_ofList, ofString_ofList, ofString_ofList]
  decide +kernel

lemma twoLevels_layout : AreasLayout twoLevelsFile twoLevels where
  wellFormed := by
    intro entry hentry
    obtain rfl : entry = _ := List.mem_singleton.mp hentry
    exact ⟨by decide +kernel, by decide +kernel, by decide⟩
  room := by decide
  lines := by
    refine ⟨(areasPieces twoLevelsFile).take 3, ofString "areas:\n", ((areasPieces twoLevelsFile).drop 4).take 4,
      (areasPieces twoLevelsFile).drop 8, ?_, ?_, ?_, ?_, ?_, ?_⟩
    all_goals
      try rw [twoLevelsFile, areasFile, ofString_append, ofString_append, ofString_ofList, ofString_ofList, ofString_ofList]
      decide +kernel

/-- The list of the sub-area takes the place of the one of the area. -/
theorem subarea_replaces_area : AreasLayout twoLevelsFile twoLevels ∧ ∃ reg, parseAreasYaml twoLevelsFile =
    some (.ok reg) ∧
    reg.areas.map MenuArea.lists = [([ofString "proxychat"], [[]])] ∧
    twoLevels.map AreaEntry.given = [(["chat", "conference"].map ofString, [[ofString "proxychat"]])] := by
  have hparse : parseAreasYaml twoLevelsFile = some (.ok ⟨ofString "menu", ofString "index", [],
      [⟨ofString "Talk", [ofString "proxychat"], [[]]⟩], [⟨ofString "Guest", [ofString "Talk"]⟩],
          [ofString "Talk"]⟩) := by
    rw [twoLevelsFile, areasFile, ofString_append, ofString_append, ofString_ofList, ofString_ofList, ofString_ofList]
    decide +kernel
  exact ⟨twoLevels_layout, _, hparse, rfl, by decide +kernel⟩

end Example

end HyBBX.Command
