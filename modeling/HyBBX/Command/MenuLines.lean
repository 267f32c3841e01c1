import HyBBX.Command.HelpShown
import HyBBX.Lib.Rows

/-! The lines of a menu: how the verbs of an area are broken into lines, and when all of them can be read. -/

namespace HyBBX.Command

open HyBBX.Core Lib Lib.Bytes Lib.Text Lib.Rows

def sessionLineMax : ℕ := 80
def menuLabelPrefixLen : ℕ := 13
def menuCmdFieldMax : ℕ := sessionLineMax - menuLabelPrefixLen

abbrev verbSlash : UInt8 := 0x2F

/-- `%-10s`. -/
def padded (width : ℕ) (s : Bytes) : Bytes := s ++ List.replicate (width - s.length) blank

/-- The line that `emit_menu_line` formats, before it is cut to its buffer. -/
def menuText (label cmds : Bytes) (continuation : Bool) : Bytes :=
  if continuation then List.replicate menuLabelPrefixLen blank ++ cmds
  else [blank, blank] ++ padded 10 label ++ blank :: cmds

def emitMenuLine (label cmds : Bytes) (continuation : Bool) : Bytes :=
  strlcpy sessionLineMax (menuText label cmds continuation)

/-- The line of a chunk, and none for an empty one. -/
def emitChunk (label chunk : Bytes) (physicalLine : ℕ) : List Bytes :=
  if chunk = [] then []
  else [emitMenuLine (if physicalLine = 0 then label else []) chunk (0 < physicalLine)]

def verbToken (verb : Bytes) : Bytes := verbSlash :: verb

def emitVerbs (label : Bytes) : List Bytes → Bytes → ℕ → List Bytes
  | [], chunk, physicalLine => emitChunk label chunk physicalLine
  | verb :: verbs, chunk, physicalLine =>
    if verb = [] then emitVerbs label verbs chunk physicalLine
    else
      let token := if chunk = [] then verbToken verb else blank :: verbToken verb
      if chunk ≠ [] ∧ menuCmdFieldMax < token.length + chunk.length then
        emitChunk label chunk physicalLine ++
          -- a token that does not fit into an empty chunk ends the list
          if menuCmdFieldMax + 1 ≤ (verbToken verb).length then []
          else emitVerbs label verbs (verbToken verb) (physicalLine + 1)
      else if menuCmdFieldMax + 1 - chunk.length ≤ token.length then emitChunk label chunk physicalLine
      else emitVerbs label verbs (chunk ++ token) physicalLine

def emitVerbsWrapped (label : Bytes) (verbs : List Bytes) : List Bytes := emitVerbs label verbs [] 0

namespace MenuRegistry

variable (reg : MenuRegistry)

/-- The lines of an area in the menu of a level. -/
def areaLines (area : MenuArea) (level : Level) : List Bytes :=
  let verbs := reg.collectAreaVerbs area level true
  if verbs = [] then [] else emitVerbsWrapped area.label verbs

/-- The verbs of an area that the level may use. -/
def usableVerbs (area : MenuArea) (level : Level) : List Bytes :=
  (area.verbs ++ area.subareas.flatten).filter fun verb => verb ≠ [] && reg.registry.verbAllowed level verb

end MenuRegistry

/-- The lines that rows of verbs make, the first one with the label. -/
def rowLines (label : Bytes) (rows : List (List Bytes)) : List Bytes :=
  (rows.map (joined [blank])).zipIdx.map fun row => menuText (if row.2 = 0 then label else []) row.1 (0 < row.2)

/-- Every verb is printed whole, once and in order, on lines that are short enough. -/
structure MenuWhole (label : Bytes) (verbs lines : List Bytes) : Prop where
  rows : ∃ rows, Cut rows (verbs.map verbToken) ∧ lines = rowLines label rows
  short : ∀ line ∈ lines, line.length < sessionLineMax

/-- The rows of verbs, filled as far as the field goes. -/
def menuRows (verbs : List Bytes) : List (List Bytes) := fillRows menuCmdFieldMax [blank] [] (verbs.map verbToken)

/-- No row takes the whole field. -/
def NoFullRow (verbs : List Bytes) : Prop := ∀ row ∈ menuRows verbs, (joined [blank] row).length ≠ menuCmdFieldMax

/-- What the registry stores as a verb. -/
def VerbSized (verb : Bytes) : Prop := verb ≠ [] ∧ verb.length < cmdVerbMax

section Emit

variable {label : Bytes}

lemma token_length {verb : Bytes} (h : VerbSized verb) : (verbToken verb).length ≤ cmdVerbMax := h.2

/-- The loop fills one row after the other. -/
lemma emitVerbs_eq {verbs row : List Bytes} (hverbs : ∀ verb ∈ verbs, VerbSized verb) (hrow : ∀ word ∈ row, word ≠ [])
    (hfits : (joined [blank] row).length ≤ menuCmdFieldMax) (n : ℕ) :
    emitVerbs label verbs (joined [blank] row) n =
      (((fillRows menuCmdFieldMax [blank] row (verbs.map verbToken)).map (joined [blank])).zipIdx n).map fun r =>
        emitMenuLine (if r.2 = 0 then label else []) r.1 (0 < r.2) := by
  induction verbs generalizing row n with
  | nil =>
    cases row with
    | nil => rfl
    | cons first row =>
      rw [emitVerbs, emitChunk, if_neg (joined_ne_nil (List.cons_ne_nil _ _) hrow)]
      rfl
  | cons verb verbs ih =>
    obtain ⟨hverb, hverbs⟩ := List.forall_mem_cons.mp hverbs
    have hlen := token_length hverb
    have hsingle : ∀ word ∈ [verbToken verb], word ≠ [] := by simp [verbToken]
    have hfield : (verbToken verb).length ≤ menuCmdFieldMax := hlen.trans (by decide)
    have hbegin : (joined [blank] [verbToken verb]).length ≤ menuCmdFieldMax := by rwa [joined_singleton]
    rw [emitVerbs, if_neg hverb.1, List.map_cons]
    cases row with
    | nil =>
      rw [joined_nil, if_pos rfl, if_neg (by simp), if_neg (by rw [List.length_nil]; omega), List.nil_append, fillRows]
      have hnext := ih hverbs hsingle hbegin n
      rwa [joined_singleton] at hnext
    | cons first row =>
      have hchunk : joined [blank] (first :: row) ≠ [] := joined_ne_nil (List.cons_ne_nil first row) hrow
      rw [if_neg hchunk, fillRows_begin _ (List.cons_ne_nil first row)]
      by_cases hlong :
          menuCmdFieldMax < (joined [blank] (first :: row)).length + ([blank].length + (verbToken verb).length)
      · have hnext := ih hverbs hsingle hbegin (n + 1)
        rw [joined_singleton] at hnext
        rw [if_pos ⟨hchunk, by rw [List.length_cons]; simp only [List.length_singleton] at hlong; omega⟩, if_pos hlong,
          if_neg (by omega), hnext, emitChunk, if_neg hchunk]
        rfl
      · simp only [List.length_singleton] at hlong
        have hnext := @ih (first :: row ++ [verbToken verb]) hverbs
          (fun word hword => (List.mem_append.mp hword).elim (hrow word) (hsingle word))
          (by
            rw [joined_concat (List.cons_ne_nil _ _), List.length_append, List.length_append, List.length_singleton]
            omega) n
        rw [if_neg (by rintro ⟨-, h⟩; rw [List.length_cons] at h; omega),
          if_neg (by rw [List.length_cons]; omega), if_neg (by rwa [List.length_singleton])]
        rw [joined_concat (List.cons_ne_nil _ _)] at hnext
        exact hnext

lemma emitVerbs_filter (verbs : List Bytes) (chunk : Bytes) (n : ℕ) :
    emitVerbs label verbs chunk n = emitVerbs label (verbs.filter (· ≠ [])) chunk n := by
  induction verbs generalizing chunk n with
  | nil => rfl
  | cons verb verbs ih =>
    by_cases hverb : verb = []
    · rw [emitVerbs, if_pos hverb, ih, List.filter_cons_of_neg (by simpa using hverb)]
    · rw [List.filter_cons_of_pos (by simpa using hverb), emitVerbs, emitVerbs, if_neg hverb, if_neg hverb]
      simp only [ih]

lemma emitVerbsWrapped_eq {verbs : List Bytes} (hverbs : ∀ verb ∈ verbs, VerbSized verb) :
    emitVerbsWrapped label verbs = (rowLines label (menuRows verbs)).map (strlcpy sessionLineMax) := by
  have h := @emitVerbs_eq label verbs [] hverbs (by simp) (Nat.zero_le _) 0
  rw [joined_nil] at h
  rw [emitVerbsWrapped, h, rowLines, List.map_map]
  rfl

variable (hlabel : label.length ≤ 10)

include hlabel

lemma menuText_length (first : Prop) [Decidable first] (cmds : Bytes) (continuation : Bool) :
    (menuText (if first then label else []) cmds continuation).length = menuLabelPrefixLen + cmds.length := by
  have hpadded : ∀ s : Bytes, s.length ≤ 10 → (padded 10 s).length = 10 := by
    intro s hs
    rw [padded, List.length_append, List.length_replicate]
    omega
  rw [menuText, menuLabelPrefixLen]
  cases continuation with
  | true =>
    rw [if_pos rfl, List.length_append, List.length_replicate]
  | false =>
    have hlen := hpadded (if first then label else []) (by split_ifs; exacts [hlabel, Nat.zero_le _])
    simp [hlen]
    omega

lemma rowLines_length (rows : List (List Bytes)) :
    (rowLines label rows).map List.length = rows.map fun row => menuLabelPrefixLen + (joined [blank] row).length := by
  have hfst : ((rows.map (joined [blank])).zipIdx.map fun row => menuLabelPrefixLen + row.1.length) =
      ((rows.map (joined [blank])).zipIdx.map Prod.fst).map fun text => menuLabelPrefixLen + text.length := by
    rw [List.map_map]
    rfl
  rw [rowLines, List.map_map, Function.comp_def]
  simp only [menuText_length hlabel]
  rw [hfst, List.zipIdx_map_fst, List.map_map]
  rfl

lemma rowLines_total {rows : List (List Bytes)} {words : List Bytes} (h : Cut rows words) :
    ((rowLines label rows).map List.length).sum + rows.length =
      menuLabelPrefixLen * rows.length + (words.map fun word => 1 + word.length).sum := by
  have hcut : (rows.map fun row => (joined [blank] row).length).sum + rows.length * 1 =
      (words.map fun word => 1 + word.length).sum := h.length
  rw [Nat.mul_one] at hcut
  rw [rowLines_length hlabel, List.sum_map_add, List.map_const', List.sum_replicate, smul_eq_mul, Nat.mul_comm]
  omega

lemma menuWhole_iff {verbs : List Bytes} (hverbs : ∀ verb ∈ verbs, VerbSized verb) :
    MenuWhole label verbs (emitVerbsWrapped label verbs) ↔ NoFullRow verbs := by
  have hcut : Cut (menuRows verbs) (verbs.map verbToken) := fillRows_cut [] (verbs.map verbToken)
  have hfits : ∀ row ∈ menuRows verbs, (joined [blank] row).length ≤ menuCmdFieldMax := by
    apply fillRows_fits (Nat.zero_le _)
    intro word hword
    obtain ⟨verb, hverb, rfl⟩ := List.mem_map.mp hword
    exact (token_length (hverbs verb hverb)).trans (by decide)
  have hline : sessionLineMax = menuLabelPrefixLen + menuCmdFieldMax := rfl
  rw [emitVerbsWrapped_eq hverbs]
  constructor
  · rintro ⟨⟨rows, hrows, hlines⟩, -⟩ row hrow hfull
    -- a row that takes the whole field loses a byte, and no other rows make up for it
    have hsame : rows.length = (menuRows verbs).length := by
      have h := congrArg List.length hlines
      simpa [rowLines] using h.symm
    have htotal := rowLines_total hlabel hrows
    have htotal' := rowLines_total hlabel hcut
    have hcuts : ((rowLines label (menuRows verbs)).map fun line => (strlcpy sessionLineMax line).length) =
        (rowLines label rows).map List.length := by
      rw [← hlines, List.map_map]
      rfl
    have hless : ((rowLines label (menuRows verbs)).map fun line => (strlcpy sessionLineMax line).length).sum <
        ((rowLines label (menuRows verbs)).map List.length).sum := by
      apply List.sum_lt_sum
      · intro line _
        rw [strlcpy, List.length_take]
        exact min_le_right _ _
      · have hmem : menuLabelPrefixLen + menuCmdFieldMax ∈ (rowLines label (menuRows verbs)).map List.length := by
          rw [rowLines_length hlabel]
          exact List.mem_map.mpr ⟨row, hrow, by rw [hfull]⟩
        obtain ⟨line, hmem, hlen⟩ := List.mem_map.mp hmem
        refine ⟨line, hmem, ?_⟩
        rw [strlcpy, List.length_take, hlen, hline]
        decide
    rw [hcuts] at hless
    rw [hsame] at htotal
    omega
  · intro hnone
    have hshort : ∀ line ∈ rowLines label (menuRows verbs), line.length < sessionLineMax := by
      intro line hmem
      have hlen : line.length ∈ (rowLines label (menuRows verbs)).map List.length := List.mem_map_of_mem hmem
      rw [rowLines_length hlabel] at hlen
      obtain ⟨row, hrow, hlen⟩ := List.mem_map.mp hlen
      rw [← hlen, hline]
      exact Nat.add_lt_add_left (lt_of_le_of_ne (hfits row hrow) (hnone row hrow)) _
    have hwhole : (rowLines label (menuRows verbs)).map (strlcpy sessionLineMax) = rowLines label (menuRows verbs) := by
      conv_rhs => rw [← List.map_id (rowLines label (menuRows verbs))]
      exact List.map_congr_left fun line hmem => strlcpy_of_fits (hshort line hmem)
    rw [hwhole]
    exact ⟨⟨_, hcut, rfl⟩, hshort⟩

end Emit

namespace MenuRegistry

variable {reg : MenuRegistry} {area : MenuArea} {level : Level}

/-- As long as an area has no more verbs than one list takes, all that may be used are emitted. -/
lemma areaLines_eq (hcount : (area.verbs ++ area.subareas.flatten).length ≤ verbsPerGroup) :
    reg.areaLines area level = emitVerbsWrapped area.label (reg.usableVerbs area level) := by
  have hcollect : reg.collectAreaVerbs area level true =
      (area.verbs ++ area.subareas.flatten).filter fun verb => reg.registry.verbAllowed level verb := by
    rw [collectAreaVerbs, List.take_of_length_le ((List.length_filter_le _ _).trans hcount)]
    rfl
  rw [areaLines, hcollect, emitVerbsWrapped]
  split_ifs with hnil
  · rw [usableVerbs, ← List.filter_filter, hnil]
    rfl
  · rw [emitVerbs_filter, List.filter_filter, emitVerbsWrapped]
    rfl

lemma areaLines_whole_iff (hcount : (area.verbs ++ area.subareas.flatten).length ≤ verbsPerGroup)
    (hverbs : ∀ verb ∈ area.verbs ++ area.subareas.flatten, verb.length < cmdVerbMax)
    (hlabel : area.label.length ≤ 10) :
    MenuWhole area.label (reg.usableVerbs area level) (reg.areaLines area level) ↔
      NoFullRow (reg.usableVerbs area level) := by
  rw [areaLines_eq hcount]
  apply menuWhole_iff hlabel
  intro verb hverb
  obtain ⟨hmem, hallowed⟩ := List.mem_filter.mp hverb
  exact ⟨by simpa using (Bool.and_eq_true_iff.mp hallowed).1, hverbs verb hmem⟩

end MenuRegistry

end HyBBX.Command
