import HyBBX.Command.RegistryInit

/-! When a fallback file loads as if the one refused before had not been there. -/

namespace HyBBX.Command

open HyBBX.Core Lib Lib.Bytes Lib.Text Lib.LineReader

/-- Entries that were in a table stand at its front, as far as the key tells. -/
def Leftover {α β : Type} (key : α → β) (left now : List α) : Prop := left ≠ [] ∧ left.map key <+: now.map key

/-- No entry of an earlier file is left in the tables for the areas. -/
structure NoAreasLeft (left now : AreasRegistry) : Prop where
  areas : ¬Leftover id left.areas now.areas
  menuLevels : ¬Leftover MenuLevel.name left.menuLevels now.menuLevels
  indexLabels : ¬Leftover id left.indexLabels now.indexLabels

structure NoRightsLeft (left now : Registry) : Prop where
  userchange : ¬Leftover id left.userchangeRules now.userchangeRules
  userdelete : ¬Leftover id left.userdeleteRules now.userdeleteRules
  delete : ¬Leftover id left.deleteRules now.deleteRules
  promote : ¬Leftover id left.promoteRules now.promoteRules
  demote : ¬Leftover id left.demoteRules now.demoteRules
  aliases : ¬Leftover id left.aliases now.aliases

/-- The file is refused, and the registry is what it leaves. -/
def Refused {ρ : Type} (parse : ρ → Bytes → Option (HybbxResult × ρ)) (empty : ρ) (file : Bytes) (left : ρ) : Prop :=
  ∃ rc ≠ .ok, parse empty file = some (rc, left)

/-- There is nothing but headers left, and only those that the fallback sets itself. -/
structure CleanAreas (left : AreasRegistry) (fallback : Bytes) : Prop where
  areas : left.areas = []
  menuLevels : left.menuLevels = []
  indexLabels : left.indexLabels = []
  menuHeader : left.menuHeader = [] ∨ SetsHeader fallback "menu_header"
  indexHeader : left.indexHeader = [] ∨ SetsHeader fallback "index_header"
  aliasHeader : left.aliasHeader = [] ∨ SetsHeader fallback "alias_header"

/-- There is no rule and no alias left. -/
structure CleanRights (left : Registry) : Prop where
  userchange : left.userchangeRules = []
  userdelete : left.userdeleteRules = []
  delete : left.deleteRules = []
  promote : left.promoteRules = []
  demote : left.demoteRules = []
  aliases : left.aliases = []

section Tables

variable {α β : Type} {left table : List α} {edited : Bool}

/-- What a table held stands at its front; an entry that is edited comes behind it. -/
structure Front (left table : List α) (edited : Bool) : Prop where
  kept : left <+: table
  behind : edited = true → left.length < table.length

lemma Front.refl (left : List α) : Front left left false := ⟨List.prefix_rfl, by rintro ⟨⟩⟩

lemma Front.close (h : Front left table edited) : Front left table false := ⟨h.kept, by rintro ⟨⟩⟩

lemma Front.push (h : Front left table edited) (x : α) (open' : Bool) : Front left (table ++ [x]) open' := by
  refine ⟨h.kept.trans (List.prefix_append _ _), fun _ => ?_⟩
  rw [List.length_append]
  exact Nat.lt_succ_of_le h.kept.length_le

lemma Front.edit (h : Front left table true) (f : α → α) : Front left (modifyLast f table) true := by
  have hlt := h.behind rfl
  refine ⟨?_, fun _ => by rwa [modifyLast, List.length_modify]⟩
  rw [List.prefix_iff_getElem?]
  intro i hi
  rw [modifyLast, List.getElem?_modify, List.prefix_iff_getElem?.mp h.kept i hi]
  exact congrArg some (if_neg (by omega))

lemma Front.field (h : Front left table true) {field : α → Option α} {table' : List α}
    (hfield : fieldOfLast field table = some table') : Front left table' true := by
  rw [fieldOfLast] at hfield
  cases hlast : table.getLast? with
  | none =>
    rw [hlast] at hfield
    obtain rfl := Option.some.inj hfield
    exact h
  | some last =>
    rw [hlast] at hfield
    obtain ⟨last', -, rfl⟩ := Option.map_eq_some_iff.mp hfield
    exact h.edit _

lemma Front.addRule (h : Front left table edited) (max : ℕ) (rule : α) :
    Front left (addRule max rule table).1 (edited || (addRule max rule table).2) := by
  rw [Command.addRule]
  split_ifs
  · exact h.push rule _
  · rwa [Bool.or_false]

lemma map_modify_key {f : α → α} {key : α → β} (hkey : ∀ x, key (f x) = key x) (l : List α) (i : ℕ) :
    (l.modify i f).map key = l.map key := by
  apply List.ext_getElem?
  intro j
  rw [List.getElem?_map, List.getElem?_map, List.getElem?_modify]
  cases l[j]? with
  | none => rfl
  | some x =>
    have hx : key (if i = j then f x else x) = key x := by
      split_ifs
      · exact hkey x
      · rfl
    exact congrArg some hx

/-- A table without leftovers had nothing in it. -/
lemma nil_of_not_leftover {key : α → β} (h : left.map key <+: table.map key) (hnone : ¬Leftover key left table) :
    left = [] := by
  by_contra hne
  exact hnone ⟨hne, h⟩

end Tables

/-- What every line keeps, a file keeps. -/
lemma run_keeps {σ : Type} {P : σ → Prop} {line : σ → Bytes → Option σ}
    (hline : ∀ st piece st', line st piece = some st' → P st → P st') {pieces : List Bytes} {st st' : σ} (h : P st)
    (hrun : pieces.foldlM line st = some st') : P st' := by
  induction pieces generalizing st with
  | nil =>
    cases hrun
    exact h
  | cons piece pieces ih =>
    rw [List.foldlM_cons] at hrun
    obtain ⟨next, hnext, hrest⟩ := Option.bind_eq_some_iff.mp hrun
    exact ih (hline _ _ _ hnext h) hrest

section Areas

variable {left : AreasRegistry} {st st' : AreasState} {piece : Bytes}

/-- What the tables for the areas held is still at their front. -/
structure AreasKept (left : AreasRegistry) (st : AreasState) : Prop where
  areas : Front left.areas st.registry.areas st.areaOpen
  menuLevels : left.menuLevels.map MenuLevel.name <+: st.registry.menuLevels.map MenuLevel.name
  indexLabels : left.indexLabels <+: st.registry.indexLabels

lemma AreasKept.of (left : AreasRegistry) : AreasKept left (.of left) :=
  ⟨Front.refl _, List.prefix_rfl, List.prefix_rfl⟩

lemma AreasKept.inArea (h : AreasKept left st) (hopen : st.areaOpen = true) {line : MenuArea → Option MenuArea}
    (hline : st.inArea line = some st') : AreasKept left st' := by
  obtain ⟨areas, hareas, rfl⟩ := Option.map_eq_some_iff.mp hline
  have harea := h.areas
  rw [hopen] at harea
  have hfield := harea.field hareas
  exact ⟨by rwa [← hopen] at hfield, h.menuLevels, h.indexLabels⟩

lemma AreasKept.areasLine (h : AreasKept left st) {indent : ℕ} {line : Bytes}
    (hline : areasSectionLine st indent line = some st') : AreasKept left st' := by
  rw [areasSectionLine] at hline
  split_ifs at hline with hdash hfull hclosed hsub h4 h6
  · cases hline
    exact h
  · refine AreasKept.inArea ?_ ?_ hline
    · exact ⟨h.areas.push _ _, h.menuLevels, h.indexLabels⟩
    · rfl
  · cases hline
    exact h
  · have hopen : st.areaOpen = true := by simpa using hclosed
    split at hline
    · cases hline
      exact h
    · split_ifs at hline
      · refine AreasKept.inArea ?_ ?_ hline
        · exact ⟨h.areas, h.menuLevels, h.indexLabels⟩
        · exact hopen
      · cases hline
        exact h
  · exact h.inArea (by simpa using hclosed) hline
  · exact h.inArea (by simpa using hclosed) hline
  · cases hline
    exact h

lemma AreasKept.menuLine (h : AreasKept left st) (indent : ℕ) (line : Bytes) :
    AreasKept left (menuSectionLine st indent line) := by
  rw [menuSectionLine]
  split_ifs
  · refine ⟨h.areas, ?_, h.indexLabels⟩
    rw [List.map_append]
    exact h.menuLevels.trans (List.prefix_append _ _)
  · exact h
  · refine ⟨h.areas, ?_, h.indexLabels⟩
    -- an entry of the menu goes to a level that is there, under the name that it has
    have hname : ∀ level : MenuLevel, (if level.areas.length < menuAreasPerLevel then
        { level with areas := level.areas ++ [strlcpy areaLabelMax (trim line.tail)] } else level).name = level.name := by
      intro level
      split_ifs <;> rfl
    dsimp only
    rw [map_modify_key hname]
    exact h.menuLevels
  · exact h

/-- Headers are no part of the tables. -/
lemma AreasKept.metaLine (h : AreasKept left st) (indent : ℕ) (line : Bytes) :
    AreasKept left { st with registry := metaSectionLine st.registry indent line } := by
  have htables : (metaSectionLine st.registry indent line).areas = st.registry.areas ∧
      (metaSectionLine st.registry indent line).menuLevels = st.registry.menuLevels ∧
      (metaSectionLine st.registry indent line).indexLabels = st.registry.indexLabels := by
    rw [metaSectionLine]
    split_ifs
    · split
      · exact ⟨rfl, rfl, rfl⟩
      · rw [metaField]
        split_ifs <;> exact ⟨rfl, rfl, rfl⟩
    · exact ⟨rfl, rfl, rfl⟩
  obtain ⟨hareas, hlevels, hlabels⟩ := htables
  exact ⟨by rw [hareas]; exact h.areas, by rw [hlevels]; exact h.menuLevels, by rw [hlabels]; exact h.indexLabels⟩

lemma AreasKept.indexLine (h : AreasKept left st) (indent : ℕ) (line : Bytes) :
    AreasKept left { st with registry := indexSectionLine st.registry indent line } := by
  rw [indexSectionLine]
  split_ifs
  · exact ⟨h.areas, h.menuLevels, h.indexLabels.trans (List.prefix_append _ _)⟩
  · exact h

lemma AreasKept.line (h : AreasKept left st) (hline : areasYamlLine st piece = some st') : AreasKept left st' := by
  rw [areasYamlLine] at hline
  split_ifs at hline with hskip hheader
  · cases hline
    exact h
  · cases hline
    exact ⟨h.areas.close, h.menuLevels, h.indexLabels⟩
  · cases hsec : st.areasSection with
    | secNone =>
      rw [hsec] at hline
      cases hline
      exact h
    | secMeta =>
      rw [hsec] at hline
      cases hline
      rw [← hsec]
      exact h.metaLine _ _
    | secAreas =>
      rw [hsec] at hline
      exact h.areasLine hline
    | secMenu =>
      rw [hsec] at hline
      cases hline
      exact h.menuLine _ _
    | secIndex =>
      rw [hsec] at hline
      cases hline
      rw [← hsec]
      exact h.indexLine _ _

end Areas

section Areas

variable {left reg : AreasRegistry} {file : Bytes}

lemma loaded_eq {st : AreasState}
    (h : (if areasAccepted st.registry then (HybbxResult.ok, indexDefault st.registry)
      else (HybbxResult.errInvalid, st.registry)) = (.ok, reg)) : indexDefault st.registry = reg := by
  split_ifs at h
  · exact (Prod.mk.inj h).2
  · cases h

lemma indexDefault_headers {reg' : AreasRegistry} (h : indexDefault reg = indexDefault reg') :
    reg.menuHeader = reg'.menuHeader ∧ reg.indexHeader = reg'.indexHeader ∧ reg.aliasHeader = reg'.aliasHeader := by
  have hkeep : ∀ r : AreasRegistry, (indexDefault r).menuHeader = r.menuHeader ∧
      (indexDefault r).indexHeader = r.indexHeader ∧ (indexDefault r).aliasHeader = r.aliasHeader := by
    intro r
    rw [indexDefault]
    split_ifs <;> exact ⟨rfl, rfl, rfl⟩
  obtain ⟨hm, hi, ha⟩ := hkeep reg
  obtain ⟨hm', hi', ha'⟩ := hkeep reg'
  rw [h] at hm hi ha
  exact ⟨hm.symm.trans hm', hi.symm.trans hi', ha.symm.trans ha'⟩

/-- An accepted file keeps what was in the tables, so that nothing may have been in them. -/
lemma tables_nil (h : parseAreasInto left file = some (.ok, reg)) (hnone : NoAreasLeft left reg) :
    left.areas = [] ∧ left.menuLevels = [] ∧ left.indexLabels = [] := by
  obtain ⟨st, hrun, hresult⟩ := Option.map_eq_some_iff.mp h
  have hkept : AreasKept left st := run_keeps (fun _ _ _ hline h => h.line hline) (AreasKept.of left) hrun
  have hreg := loaded_eq hresult
  subst hreg
  have hareas : (indexDefault st.registry).areas = st.registry.areas := by
    rw [indexDefault]
    split_ifs <;> rfl
  have hlevels : (indexDefault st.registry).menuLevels = st.registry.menuLevels := by
    rw [indexDefault]
    split_ifs <;> rfl
  refine ⟨nil_of_not_leftover ?_ hnone.areas, nil_of_not_leftover ?_ hnone.menuLevels, ?_⟩
  · rw [List.map_id, List.map_id, hareas]
    exact hkept.areas.kept
  · rw [hlevels]
    exact hkept.menuLevels
  · by_contra hne
    have hlabels : st.registry.indexLabels ≠ [] := fun hnil => hne (List.prefix_nil.mp (hnil ▸ hkept.indexLabels))
    apply hnone.indexLabels
    refine ⟨hne, ?_⟩
    rw [List.map_id, List.map_id, indexDefault, if_neg hlabels]
    exact hkept.indexLabels

/-- With empty tables, the file makes of the headers what it makes of empty ones, where it sets those that are there. -/
lemma parseAreasInto_clean_iff (hareas : left.areas = []) (hlevels : left.menuLevels = [])
    (hlabels : left.indexLabels = [])
    (h : parseAreasInto left file = some (.ok, reg)) :
    parseAreasInto .empty file = some (.ok, reg) ↔ (left.menuHeader = [] ∨ SetsHeader file "menu_header") ∧
      (left.indexHeader = [] ∨ SetsHeader file "index_header") ∧
      (left.aliasHeader = [] ∨ SetsHeader file "alias_header") := by
  have hmenu := setHeaders_eq_iff metaField_menu (metaFields .secNone (areasPieces file)) left .empty
  have hindex := setHeaders_eq_iff metaField_index (metaFields .secNone (areasPieces file)) left .empty
  have halias := setHeaders_eq_iff metaField_alias (metaFields .secNone (areasPieces file)) left .empty
  have hleft : AreasState.of left = (AreasState.of .empty).withHeaders left := by
    rw [AreasState.of, AreasState.of, AreasState.withHeaders, AreasRegistry.withHeaders, AreasRegistry.empty, ← hareas,
      ← hlevels, ← hlabels]
  have hempty : AreasState.of .empty = (AreasState.of .empty).withHeaders .empty := rfl
  rw [parseAreasInto, hleft, run_withHeaders] at h
  have hself := run_withHeaders (areasPieces file) (.of .empty) .empty
  rw [← hempty] at hself
  rw [parseAreasInto]
  cases hrun : (areasPieces file).foldlM areasYamlLine (.of .empty) with
  | none =>
    rw [hrun] at h
    cases h
  | some st =>
    rw [hrun] at h hself
    have hst : st.registry = st.registry.withHeaders (setHeaders (metaFields .secNone (areasPieces file)) .empty) :=
      congrArg AreasState.registry (Option.some.inj hself)
    have hmenu' := congrArg AreasRegistry.menuHeader hst
    have hindex' := congrArg AreasRegistry.indexHeader hst
    have halias' := congrArg AreasRegistry.aliasHeader hst
    constructor
    · intro halone
      have hreg := loaded_eq (Option.some.inj h)
      have hreg' := loaded_eq (Option.some.inj halone)
      obtain ⟨hm, hi, ha⟩ := indexDefault_headers (hreg.trans hreg'.symm)
      exact ⟨hmenu.mp (hm.trans hmenu'), hindex.mp (hi.trans hindex'), halias.mp (ha.trans halias')⟩
    · rintro ⟨hm, hi, ha⟩
      have hsame : st.registry.withHeaders (setHeaders (metaFields .secNone (areasPieces file)) left) =
          st.registry := by
        rw [AreasRegistry.withHeaders, hmenu.mpr hm, hindex.mpr hi, halias.mpr ha]
        exact hst.symm
      rw [Option.map_some, Option.map_some] at h
      rwa [Option.map_some, ← hsame]

end Areas

section Rights

variable {left : Registry} {st st' : YamlState} {piece : Bytes}

/-- A rule of a kind may be edited. -/
def editing (st : YamlState) (kind : RightKind) : Bool := st.ruleOpen && st.rightKind = kind

/-- What the tables of rules and aliases held is still at their front. -/
structure RightsKept (left : Registry) (st : YamlState) : Prop where
  userchange : Front left.userchangeRules st.registry.userchangeRules (editing st .userchange)
  userdelete : Front left.userdeleteRules st.registry.userdeleteRules (editing st .userdelete)
  delete : Front left.deleteRules st.registry.deleteRules (editing st .delete)
  promote : Front left.promoteRules st.registry.promoteRules (editing st .promote)
  demote : Front left.demoteRules st.registry.demoteRules (editing st .demote)
  aliases : Front left.aliases st.registry.aliases (st.aliasCanonical ≠ [])

/-- What is not for the rights stays as it is. -/
structure SameBesides (st st' : YamlState) : Prop where
  commands : st'.registry.commands = st.registry.commands
  loaded : st'.registry.loaded = st.registry.loaded

lemma RightsKept.of (left : Registry) : RightsKept left { YamlState.start with registry := left } :=
  ⟨Front.refl _, Front.refl _, Front.refl _, Front.refl _, Front.refl _, Front.refl _⟩

lemma SameBesides.refl (st : YamlState) : SameBesides st st := ⟨rfl, rfl⟩

lemma openRule_besides (st : YamlState) : SameBesides st (openRule st) := by
  rw [openRule]
  split <;> exact ⟨rfl, rfl⟩

lemma rightField_besides {key value : Bytes} (hfield : rightField st key value = some st') : SameBesides st st' := by
  rw [rightField] at hfield
  split_ifs at hfield
  · cases hfield
    exact .refl st
  · split at hfield
    · cases hfield
      exact .refl st
    all_goals
      obtain ⟨rules, -, rfl⟩ := Option.map_eq_some_iff.mp hfield
      exact ⟨rfl, rfl⟩

lemma rightsLine_besides {indent : ℕ} {line : Bytes} (hline : rightsLine st indent line = some st') :
    SameBesides st st' := by
  rw [rightsLine] at hline
  split_ifs at hline
  · cases hline
    exact ⟨rfl, rfl⟩
  · cases hline
    exact openRule_besides st
  · split at hline
    · cases hline
      exact .refl st
    · exact rightField_besides hline
  · cases hline
    exact .refl st

lemma RightsKept.openRule (h : RightsKept left st) : RightsKept left (openRule st) := by
  obtain ⟨huc, hud, hde, hpr, hdm, hal⟩ := h
  rw [Command.openRule]
  cases hkind : st.rightKind
  all_goals
    simp only [editing, hkind, decide_true, decide_false, Bool.and_true, Bool.and_false,
      reduceCtorEq] at huc hud hde hpr hdm
    constructor
  all_goals simp only [editing, hkind, decide_true, decide_false, Bool.and_true, Bool.and_false, reduceCtorEq]
  all_goals first | assumption | exact Front.addRule ‹_› _ _

lemma RightsKept.rightField (h : RightsKept left st) {key value : Bytes} (hfield : rightField st key value = some st') :
    RightsKept left st' := by
  rw [Command.rightField] at hfield
  by_cases hclosed : st.ruleOpen = false
  · rw [if_pos hclosed] at hfield
    cases hfield
    exact h
  · rw [if_neg hclosed] at hfield
    have hopen : st.ruleOpen = true := by simpa using hclosed
    cases hkind : st.rightKind
    · rw [hkind] at hfield
      cases hfield
      exact h
    all_goals
      rw [hkind] at hfield
      obtain ⟨huc, hud, hde, hpr, hdm, hal⟩ := h
      simp only [editing, hkind, hopen, decide_true, decide_false, Bool.and_true, Bool.and_false,
        reduceCtorEq] at huc hud hde hpr hdm
      obtain ⟨rules, hrules, rfl⟩ := Option.map_eq_some_iff.mp hfield
      refine ⟨?_, ?_, ?_, ?_, ?_, hal⟩
      all_goals simp only [editing, hopen, decide_true, decide_false, Bool.and_true, Bool.and_false, reduceCtorEq]
      all_goals first | assumption | exact Front.field ‹_› hrules

lemma RightsKept.rightsLine (h : RightsKept left st) {indent : ℕ} {line : Bytes}
    (hline : rightsLine st indent line = some st') : RightsKept left st' := by
  rw [Command.rightsLine] at hline
  split_ifs at hline
  · cases hline
    exact ⟨h.userchange.close, h.userdelete.close, h.delete.close, h.promote.close, h.demote.close, h.aliases⟩
  · cases hline
    exact h.openRule
  · split at hline
    · cases hline
      exact h
    · exact h.rightField hline
  · cases hline
    exact h

lemma RightsKept.aliasesLine (h : RightsKept left st) (indent : ℕ) (line : Bytes) :
    RightsKept left (aliasesLine st indent line) := by
  obtain ⟨huc, hud, hde, hpr, hdm, hal⟩ := h
  rw [Command.aliasesLine]
  split_ifs with hheader hfull hitem
  · exact ⟨huc, hud, hde, hpr, hdm, hal⟩
  · exact ⟨huc, hud, hde, hpr, hdm, hal.push _ _⟩
  · rw [decide_eq_true hitem.2.2] at hal
    have hedit := hal.edit fun entry => if entry.aliases.length < commandsAliasPer then
      { entry with aliases := entry.aliases ++ [strlcpy cmdVerbMax (stripQuotes line.tail)] } else entry
    rw [← decide_eq_true hitem.2.2] at hedit
    exact ⟨huc, hud, hde, hpr, hdm, hedit⟩
  · exact ⟨huc, hud, hde, hpr, hdm, hal⟩

lemma RightsKept.commandsLine (h : RightsKept left st) (indent : ℕ) (line : Bytes) :
    RightsKept left (commandsLine st indent line) := by
  obtain ⟨huc, hud, hde, hpr, hdm, hal⟩ := h
  rw [Command.commandsLine]
  split_ifs
  · exact ⟨huc, hud, hde, hpr, hdm, hal⟩
  · exact ⟨huc, hud, hde, hpr, hdm, hal⟩
  · split
    · exact ⟨huc, hud, hde, hpr, hdm, hal⟩
    · exact ⟨huc, hud, hde, hpr, hdm, hal⟩
  · exact ⟨huc, hud, hde, hpr, hdm, hal⟩

lemma RightsKept.line (h : RightsKept left st) (hline : yamlLine st piece = some st') : RightsKept left st' := by
  rw [yamlLine] at hline
  split_ifs at hline
  · cases hline
    exact h
  · cases hline
    exact ⟨h.userchange.close, h.userdelete.close, h.delete.close, h.promote.close, h.demote.close, h.aliases⟩
  · cases hsec : st.yamlSection with
    | none =>
      rw [hsec] at hline
      cases hline
      exact h
    | rights =>
      rw [hsec] at hline
      exact h.rightsLine hline
    | aliases =>
      rw [hsec] at hline
      cases hline
      exact h.aliasesLine _ _
    | commands =>
      rw [hsec] at hline
      cases hline
      exact h.commandsLine _ _

/-- There are as many texts as commands, and nothing counts as loaded yet. -/
structure Unloaded (st : CommandsState) : Prop where
  texts : st.texts.length = st.yaml.registry.commands.length
  loaded : st.yaml.registry.loaded = false

lemma Unloaded.line {st st' : CommandsState} (h : Unloaded st) (hline : commandsYamlLine st piece = some st') :
    Unloaded st' := by
  obtain ⟨yaml, hyaml, rfl⟩ := Option.map_eq_some_iff.mp hline
  obtain ⟨htexts, hloaded⟩ := h
  have hkeep : (trim piece = [] ∨ (trim piece).head? = some hash ∨ lineIndent piece = 0 ∧ isHeader (trim piece) = true ∨
      st.yaml.yamlSection ≠ .commands) → yaml.registry.commands = st.yaml.registry.commands →
      yaml.registry.loaded = st.yaml.registry.loaded → Unloaded ⟨yaml, textsLine st.yaml piece st.texts⟩ := by
    intro hother hcommands hsame
    refine ⟨?_, hsame.trans hloaded⟩
    rw [textsLine, if_pos hother, hcommands]
    exact htexts
  rw [yamlLine] at hyaml
  split_ifs at hyaml with hskip hheader
  · cases hyaml
    exact hkeep (by tauto) rfl rfl
  · cases hyaml
    exact hkeep (by tauto) rfl rfl
  · cases hsec : st.yaml.yamlSection with
    | none =>
      rw [hsec] at hyaml
      cases hyaml
      exact hkeep (by simp [hsec]) rfl rfl
    | rights =>
      rw [hsec] at hyaml
      have hsame := rightsLine_besides hyaml
      exact hkeep (by simp [hsec]) hsame.commands hsame.loaded
    | aliases =>
      rw [hsec] at hyaml
      cases hyaml
      refine hkeep (by simp [hsec]) ?_ ?_
      all_goals
        rw [aliasesLine]
        split_ifs <;> rfl
    | commands =>
      rw [hsec] at hyaml
      cases hyaml
      have hin : ¬(trim piece = [] ∨ (trim piece).head? = some hash ∨
          lineIndent piece = 0 ∧ isHeader (trim piece) = true ∨
          st.yaml.yamlSection ≠ .commands) := by
        rw [hsec]
        tauto
      constructor
      · rw [textsLine, commandsLine, if_neg hin]
        by_cases hnew : lineIndent piece = 2 ∧ isHeader (trim piece) = true
        · rw [if_pos hnew, if_pos hnew]
          split_ifs
          · rw [List.length_append, List.length_append, htexts]
            rfl
          · exact htexts
        · rw [if_neg hnew, if_neg hnew]
          split_ifs
          · cases lineField (trim piece) with
            | none => exact htexts
            | some field =>
              dsimp only
              rw [modifyLast, modifyLast, List.length_modify, List.length_modify]
              exact htexts
          · exact htexts
      · rw [commandsLine]
        split_ifs
        · exact hloaded
        · exact hloaded
        · split <;> exact hloaded
        · exact hloaded

end Rights

section Fallback

variable {ρ : Type} {parse : ρ → Bytes → Option (HybbxResult × ρ)} {empty left reg : ρ} {file : Bytes}

lemma loadYamlFile_ok_iff : loadYamlFile parse left (some file) = some (.ok, reg) ↔
    parse left file = some (.ok, reg) := by
  rw [loadYamlFile]
  cases parse left file with
  | none => exact Iff.rfl
  | some r =>
    obtain ⟨rc, reg'⟩ := r
    rw [Option.map_some]
    by_cases hrc : rc = .ok <;> simp [hrc]

lemma loadOrShare_refused (h : Refused parse empty file left) (share : Option Bytes) :
    loadOrShare parse empty (some file) share = loadYamlFile parse left share := by
  obtain ⟨rc, hrc, hparse⟩ := h
  rw [loadOrShare, loadYamlFile, hparse]
  simp [hrc]

lemma loadOrShare_missing (share : Option Bytes) :
    loadOrShare parse empty none share = loadYamlFile parse empty share := rfl

variable {files : RegistryFiles} {registry : CommandsRegistry}

lemma registryInit_ok_iff : registryInit files = some (.ok, registry) ↔
    ∃ commands lines, loadOrShare parseAreasInto .empty files.areas files.shareAreas = some (.ok, registry.areas) ∧
      loadOrShare parseCommandsInto .empty files.commands files.shareCommands = some (.ok, commands) ∧
      buildAliasLines commands.rights.aliases = some lines ∧
      registry = ⟨registry.areas, { commands with rights := { commands.rights with loaded := true } }, lines⟩ := by
  rw [registryInit]
  constructor
  · intro h
    obtain ⟨⟨rc, areas⟩, hareas, h⟩ := Option.bind_eq_some_iff.mp h
    by_cases hrc : rc = .ok
    · subst hrc
      rw [if_neg (by simp)] at h
      obtain ⟨⟨rc, commands⟩, hcommands, h⟩ := Option.bind_eq_some_iff.mp h
      by_cases hrc : rc = .ok
      · subst hrc
        rw [if_neg (by simp)] at h
        obtain ⟨lines, hlines, h⟩ := Option.map_eq_some_iff.mp h
        obtain rfl := (Prod.mk.inj h).2
        exact ⟨commands, lines, hareas, hcommands, hlines, rfl⟩
      · rw [if_pos hrc] at h
        cases h
    · rw [if_pos hrc] at h
      cases h
  · rintro ⟨commands, lines, hareas, hcommands, hlines, hregistry⟩
    rw [hareas, Option.bind_some, if_neg (by simp), hcommands, Option.bind_some, if_neg (by simp), hlines,
      Option.map_some,
      ← hregistry]

/-- An accepted file keeps what was in the tables of rules and aliases. -/
lemma rules_nil {left reg : RightsTexts} (h : parseCommandsInto left file = some (.ok, reg))
    (hnone : NoRightsLeft left.rights reg.rights) : CleanRights left.rights := by
  obtain ⟨st, hrun, hresult⟩ := Option.map_eq_some_iff.mp h
  obtain rfl := (Prod.mk.inj hresult).2
  have hkept : RightsKept left.rights st.yaml := by
    refine run_keeps (P := fun st : CommandsState => RightsKept left.rights st.yaml) ?_ (.of left.rights) hrun
    intro _ _ _ hline h
    obtain ⟨yaml, hyaml, rfl⟩ := Option.map_eq_some_iff.mp hline
    exact h.line hyaml
  constructor
  · exact nil_of_not_leftover (by simpa using hkept.userchange.kept) hnone.userchange
  · exact nil_of_not_leftover (by simpa using hkept.userdelete.kept) hnone.userdelete
  · exact nil_of_not_leftover (by simpa using hkept.delete.kept) hnone.delete
  · exact nil_of_not_leftover (by simpa using hkept.promote.kept) hnone.promote
  · exact nil_of_not_leftover (by simpa using hkept.demote.kept) hnone.demote
  · exact nil_of_not_leftover (by simpa using hkept.aliases.kept) hnone.aliases

/-- A refused file has no commands: if it has no rules and aliases either, nothing is left of it. -/
lemma refused_empty {left : RightsTexts} (h : Refused parseCommandsInto .empty file left)
    (hclean : CleanRights left.rights) :
    left = .empty := by
  obtain ⟨rc, hrc, hparse⟩ := h
  obtain ⟨st, hrun, hresult⟩ := Option.map_eq_some_iff.mp hparse
  obtain ⟨hcode, rfl⟩ := Prod.mk.inj hresult
  have hunloaded : Unloaded st := run_keeps (fun _ _ _ hline h => h.line hline) ⟨rfl, rfl⟩ hrun
  have hcommands : st.yaml.registry.commands = [] := by
    by_contra hne
    exact hrc (by rw [← hcode, if_neg hne])
  have htexts : st.texts = [] := List.length_eq_zero_iff.mp (by rw [hunloaded.texts, hcommands, List.length_nil])
  obtain ⟨huc, hud, hde, hpr, hdm, hal⟩ := hclean
  have hloaded := hunloaded.loaded
  have hrights : st.yaml.registry = .empty := by
    generalize st.yaml.registry = rights at hcommands huc hud hde hpr hdm hal hloaded
    cases rights
    subst hcommands huc hud hde hpr hdm hal hloaded
    rfl
  rw [RightsTexts.empty, hrights, htexts]

lemma not_leftover_nil {α β : Type} {key : α → β} {front now : List α} (h : front = []) : ¬Leftover key front now :=
  fun hleft => hleft.1 h

end Fallback

/-- A fallback loads as if the file refused before it had not been there, and nothing of that file is left: for the
areas where it has left no area, level and label, and no header that the fallback does not set; for the commands where
it has left no rule and no alias. -/
theorem fallback_clean_iff {files : RegistryFiles} {registry : CommandsRegistry}
    (hinit : registryInit files = some (.ok, registry)) :
    (∀ file share left, files.areas = some file → files.shareAreas = some share →
      Refused parseAreasInto .empty file left →
      (registryInit { files with areas := none } = some (.ok, registry) ∧ NoAreasLeft left registry.areas ↔
        CleanAreas left share)) ∧
    ∀ file share left, files.commands = some file → files.shareCommands = some share →
      Refused parseCommandsInto .empty file left →
      (registryInit { files with commands := none } = some (.ok, registry) ∧
        NoRightsLeft left.rights registry.commands.rights ↔ CleanRights left.rights) := by
  obtain ⟨commands, lines, hareas, hcommands, hlines, hregistry⟩ := registryInit_ok_iff.mp hinit
  constructor
  · intro file share left hfile hshare hrefused
    rw [hfile, hshare, loadOrShare_refused hrefused, loadYamlFile_ok_iff] at hareas
    have halone : registryInit { files with areas := none } = some (.ok, registry) ↔
        parseAreasInto .empty share = some (.ok, registry.areas) := by
      rw [registryInit_ok_iff]
      simp only [hshare, loadOrShare_missing, loadYamlFile_ok_iff]
      exact ⟨fun ⟨_, _, h, _⟩ => h, fun h => ⟨commands, lines, h, hcommands, hlines, hregistry⟩⟩
    rw [halone]
    constructor
    · rintro ⟨hload, hnone⟩
      obtain ⟨hareasNil, hlevels, hlabels⟩ := tables_nil hareas hnone
      obtain ⟨hm, hi, ha⟩ := (parseAreasInto_clean_iff hareasNil hlevels hlabels hareas).mp hload
      exact ⟨hareasNil, hlevels, hlabels, hm, hi, ha⟩
    · rintro ⟨hareasNil, hlevels, hlabels, hm, hi, ha⟩
      exact ⟨(parseAreasInto_clean_iff hareasNil hlevels hlabels hareas).mpr ⟨hm, hi, ha⟩,
        not_leftover_nil hareasNil, not_leftover_nil hlevels, not_leftover_nil hlabels⟩
  · intro file share left hfile hshare hrefused
    rw [hfile, hshare, loadOrShare_refused hrefused, loadYamlFile_ok_iff] at hcommands
    have hrights : registry.commands.rights = { commands.rights with loaded := true } := by rw [hregistry]
    constructor
    · rintro ⟨-, hnone⟩
      rw [hrights] at hnone
      exact rules_nil hcommands ⟨hnone.userchange, hnone.userdelete, hnone.delete, hnone.promote, hnone.demote,
        hnone.aliases⟩
    · intro hclean
      rw [refused_empty hrefused hclean] at hcommands
      refine ⟨registryInit_ok_iff.mpr ⟨commands, lines, hareas, ?_, hlines, hregistry⟩, ?_⟩
      · rw [hshare, loadOrShare_missing, loadYamlFile_ok_iff]
        exact hcommands
      · exact ⟨not_leftover_nil hclean.userchange, not_leftover_nil hclean.userdelete, not_leftover_nil hclean.delete,
          not_leftover_nil hclean.promote, not_leftover_nil hclean.demote, not_leftover_nil hclean.aliases⟩

def shareAreasFile : Bytes := ofString
  "meta:\n  menu_header: Menu\n  index_header: Index\nareas:\n  - label: New\n    commands: [who]\nindex:\n  - New\n"

def shareCommandsFile : Bytes := ofString "commands:\n  who:\n    group: New\n    line1: /who\n"

/-- Files without anything in them, and the ones under `share`. -/
def emptyFiles : RegistryFiles where
  areas := some (ofString "# areas\n")
  shareAreas := some shareAreasFile
  commands := some (ofString "# commands\n")
  shareCommands := some shareCommandsFile

/-- What the files under `share` load as. -/
def shareRegistry : CommandsRegistry where
  areas := ⟨ofString "Menu", ofString "Index", [], [⟨ofString "New", [ofString "who"], []⟩], [], [ofString "New"]⟩
  commands := ⟨{ Registry.empty with loaded := true, commands := [⟨ofString "who", .guest, none, none⟩] },
    [⟨ofString "New", ofString "/who", []⟩]⟩
  aliasLines := []

theorem fallback_clean_empty : registryInit { emptyFiles with areas := none } = some (.ok, shareRegistry) ∧
    registryInit { emptyFiles with commands := none } = some (.ok, shareRegistry) := by
  have hinit : registryInit emptyFiles = some (.ok, shareRegistry) := by
    rw [emptyFiles, shareAreasFile, shareCommandsFile, ofString_ofList, ofString_ofList, ofString_ofList, ofString_ofList]
    decide +kernel
  obtain ⟨hareas, hcommands⟩ := fallback_clean_iff hinit
  constructor
  · refine ((hareas _ _ .empty rfl rfl ⟨.errInvalid, by decide, by decide +kernel⟩).mpr ?_).1
    exact ⟨rfl, rfl, rfl, .inl rfl, .inl rfl, .inl rfl⟩
  · refine ((hcommands _ _ .empty rfl rfl ⟨.errInvalid, by decide, by decide +kernel⟩).mpr ?_).1
    exact ⟨rfl, rfl, rfl, rfl, rfl, rfl⟩

/-- Areas without headers, and a rule without commands. -/
def staleFiles : RegistryFiles where
  areas := some (ofString "areas:\n  - label: Old\n    commands: [shutdown]\n")
  shareAreas := some shareAreasFile
  commands := some (ofString "rights:\n  promote:\n    -\n      actor: User\n      to: Admin\n      from: [User]\n")
  shareCommands := some shareCommandsFile

def staleRegistry : CommandsRegistry where
  areas := { shareRegistry.areas with
    areas := ⟨ofString "Old", [ofString "shutdown"], []⟩ :: shareRegistry.areas.areas }
  commands := { shareRegistry.commands with
    rights := { shareRegistry.commands.rights with promoteRules := [⟨some .user, some .admin, [.user]⟩] } }
  aliasLines := []

/-- The area of the file that is refused stays in the registry, and users may promote each other to administrators. -/
theorem fallback_keeps_stale : registryInit staleFiles = some (.ok, staleRegistry) ∧
    (Refused parseAreasInto .empty (ofString "areas:\n  - label: Old\n    commands: [shutdown]\n")
        { AreasRegistry.empty with areas := [⟨ofString "Old", [ofString "shutdown"], []⟩] } ∧
      registryInit { staleFiles with areas := none } ≠ some (.ok, staleRegistry)) ∧
    registryInit { staleFiles with commands := none } ≠ some (.ok, staleRegistry) ∧
    staleRegistry.commands.rights.mayPromote (some .user) .user true .admin = true ∧
      shareRegistry.commands.rights.mayPromote (some .user) .user true .admin = false := by
  refine ⟨?_, ⟨⟨.errInvalid, by decide, by decide +kernel⟩, ?_⟩, ?_, by decide +kernel, by decide +kernel⟩
  all_goals
    rw [staleFiles, shareAreasFile, shareCommandsFile, ofString_ofList, ofString_ofList, ofString_ofList, ofString_ofList]
    decide +kernel

end HyBBX.Command
