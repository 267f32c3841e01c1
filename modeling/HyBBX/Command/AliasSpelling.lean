import HyBBX.Command.Dispatch
import HyBBX.Lib.Words
import HyBBX.Storage.Represents

/-! The alias words in front of a command: in which spellings the parser takes them off. -/

namespace HyBBX.Command

open HyBBX.Core Lib Lib.Bytes Lib.Text Lib.Numeral
open Storage (strIeq_iff)

def allocMax : ℕ := 256 * 1024

/-- `hybbx_command_parse` with the bound on what it copies; the copies of parts of the line are shorter. -/
def hybbxCommandParse (line : Bytes) : Except HybbxResult (CommandScope × ParsedCommand) :=
  if allocMax < (skipLeadingSpace line).length + 1 then .error .errNomem else commandParse line

def aliasWords : List Bytes := ["commands", "command", "cmd"].map ofString

/-- An alias word in any letter case. -/
def AliasWord (word : Bytes) : Prop := ∃ name ∈ aliasWords, strIeq word name = true

instance (word : Bytes) : Decidable (AliasWord word) :=
  inferInstanceAs (Decidable (∃ name ∈ aliasWords, strIeq word name = true))

/-- The same verb with the same arguments, or no command at all. -/
def SameCommand : Except HybbxResult (CommandScope × ParsedCommand) →
    Except HybbxResult (CommandScope × ParsedCommand) → Prop
  | .ok parsed, .ok parsed' => parsed.2 = parsed'.2
  | .error _, .error _ => True
  | _, _ => False

instance (r r' : Except HybbxResult (CommandScope × ParsedCommand)) : Decidable (SameCommand r r') := by
  unfold SameCommand
  split <;> infer_instance

abbrev commandSign : UInt8 := 0x2F

lemma splitTokens_eq (line : Bytes) : splitTokens line = wordsOf isSpace line := by
  rw [splitTokens, wordsOf]

lemma aliasWords_plain {name : Bytes} (h : name ∈ aliasWords) : name ≠ [] ∧ (∀ b ∈ name, isSpace b = false) ∧
    name ≠ ofString "help" := by
  revert name
  decide +kernel

lemma isSpace_lower (b : UInt8) : isSpace (lower b) = isSpace b := by
  revert b
  apply forall_byte
  decide +kernel

/-- Texts that differ in letter case only have blanks at the same places. -/
lemma noSpace_of_strIeq {a b : Bytes} (h : strIeq a b = true) (hb : ∀ c ∈ b, isSpace c = false) :
    ∀ c ∈ a, isSpace c = false := by
  intro c hc
  have hmem : lower c ∈ b.map lower := (strIeq_iff a b).mp h ▸ List.mem_map_of_mem hc
  obtain ⟨d, hd, hdc⟩ := List.mem_map.mp hmem
  rw [← isSpace_lower, ← hdc, isSpace_lower]
  exact hb d hd

lemma AliasWord.plain {word : Bytes} (h : AliasWord word) : word ≠ [] ∧ ∀ b ∈ word, isSpace b = false := by
  obtain ⟨name, hname, hsame⟩ := h
  obtain ⟨hne, hplain, -⟩ := aliasWords_plain hname
  refine ⟨?_, noSpace_of_strIeq hsame hplain⟩
  rintro rfl
  exact hne (List.map_eq_nil_iff.mp ((strIeq_iff [] name).mp hsame).symm)

lemma stripCommandAlias_eq {rest : Bytes} (h : rest ≠ []) :
    stripCommandAlias rest = (aliasWords.findSome? (stripOneCommandAlias rest)).getD (some rest) := by
  rw [stripCommandAlias, if_neg h, aliasWords, List.findSome?_map]
  rfl

section Strip

variable {word rest : Bytes} (hword : ∀ b ∈ word, isSpace b = false) (hrest : ∀ b ∈ rest.head?, isSpace b = true)

include hword hrest

/-- Of a line with a first word, an alias is taken off if it is this word, with the blanks behind it. -/
lemma stripOne_word {name : Bytes} (hname : name ∈ aliasWords) (hne : rest ≠ []) :
    stripOneCommandAlias (word ++ rest) name =
      if word = name then some (if skipLeadingSpace rest = [] then none else some (skipLeadingSpace rest)) else none := by
  obtain ⟨-, hplain, -⟩ := aliasWords_plain hname
  obtain ⟨b, more, rfl⟩ := List.exists_cons_of_ne_nil hne
  have hb : isSpace b = true := hrest b rfl
  have hwhole : strIeq (word ++ b :: more) name = false := by
    rw [Bool.eq_false_iff]
    intro h
    have := noSpace_of_strIeq h hplain b (by simp)
    rw [hb] at this
    cases this
  rw [stripOneCommandAlias, hwhole, if_neg (by simp)]
  by_cases hsame : word = name
  · subst hsame
    rw [if_pos rfl, if_pos ⟨List.prefix_append _ _, by simpa using hb⟩, List.drop_left]
  · rw [if_neg hsame, if_neg]
    rintro ⟨⟨more', hmore⟩, hspace⟩
    have hmore' : ∀ c ∈ more'.head?, isSpace c = true := by
      intro c hc
      obtain ⟨more'', rfl⟩ := List.head?_eq_some_iff.mp hc
      rw [← hmore] at hspace
      simpa using hspace
    exact hsame (word_unique hword hplain hrest hmore' hmore.symm)

lemma strip_alias (hmem : word ∈ aliasWords) (hne : rest ≠ []) :
    stripCommandAlias (word ++ rest) = if skipLeadingSpace rest = [] then none else some (skipLeadingSpace rest) := by
  have hfind : aliasWords.findSome? (stripOneCommandAlias (word ++ rest)) =
      some (if skipLeadingSpace rest = [] then none else some (skipLeadingSpace rest)) := by
    cases h : aliasWords.findSome? (stripOneCommandAlias (word ++ rest)) with
    | none =>
      have hword' := List.findSome?_eq_none_iff.mp h word hmem
      rw [stripOne_word hword hrest hmem hne, if_pos rfl] at hword'
      cases hword'
    | some stripped =>
      obtain ⟨name, hname, hstripped⟩ := List.exists_of_findSome?_eq_some h
      rw [stripOne_word hword hrest hname hne] at hstripped
      by_cases hsame : word = name
      · rw [if_pos hsame] at hstripped
        exact hstripped.symm
      · rw [if_neg hsame] at hstripped
        cases hstripped
  rw [stripCommandAlias_eq (by simp [hne]), hfind]
  rfl

lemma strip_other (hmem : word ∉ aliasWords) (hne : rest ≠ []) :
    stripCommandAlias (word ++ rest) = some (word ++ rest) := by
  have hnone : aliasWords.findSome? (stripOneCommandAlias (word ++ rest)) = none := by
    rw [List.findSome?_eq_none_iff]
    intro name hname
    rw [stripOne_word hword hrest hname hne, if_neg]
    rintro rfl
    exact hmem hname
  rw [stripCommandAlias_eq (by simp [hne]), hnone]
  rfl

end Strip

/-- A line that is a single word is an alias in any letter case. -/
lemma strip_single {word : Bytes} (hne : word ≠ []) (hword : ∀ b ∈ word, isSpace b = false) (hother : ¬AliasWord word) :
    stripCommandAlias word = some word := by
  have hnone : aliasWords.findSome? (stripOneCommandAlias word) = none := by
    rw [List.findSome?_eq_none_iff]
    intro name hname
    have hcase : strIeq word name = false := Bool.eq_false_iff.mpr fun h => hother ⟨name, hname, h⟩
    rw [stripOneCommandAlias, hcase, if_neg (by simp), if_neg]
    rintro ⟨-, hspace⟩
    have hmem : word.getD name.length 0 ∈ word ∨ word.getD name.length 0 = 0 := by
      rw [List.getD_eq_getElem?_getD]
      cases hget : word[name.length]? with
      | none => exact .inr rfl
      | some b => exact .inl (List.mem_of_getElem? hget)
    rcases hmem with hmem | hzero
    · rw [hword _ hmem] at hspace
      cases hspace
    · rw [hzero] at hspace
      revert hspace
      decide
  rw [stripCommandAlias_eq hne, hnone]
  rfl

section Parse

/-- What the words of a line parse as; without a word it is the help. -/
def parsedWords : List Bytes → Except HybbxResult ParsedCommand
  | [] => .ok ⟨ofString "help", []⟩
  | verb :: argv => if cmdTokenMax < argv.length + 1 then .error .errInvalid else .ok ⟨verb, argv⟩

lemma parse_kept {text : Bytes} (h : stripCommandAlias (skipLeadingSpace text) = some (skipLeadingSpace text)) :
    parseHybbxLine (commandSign :: text) = parsedWords (wordsOf isSpace text) := by
  have htokens : splitTokens (skipLeadingSpace text) = wordsOf isSpace text := by
    rw [splitTokens_eq, skipLeadingSpace, wordsOf_dropWhile]
  rw [parseHybbxLine, List.tail_cons, h]
  dsimp only
  rw [htokens]
  cases wordsOf isSpace text <;> rfl

variable {text : Bytes}

/-- A line whose first word is no alias is parsed as it stands. -/
lemma parse_plain (htext : ∀ word ∈ (wordsOf isSpace text).head?, ¬AliasWord word) :
    parseHybbxLine (commandSign :: text) = parsedWords (wordsOf isSpace text) := by
  rcases words_cases (p := isSpace) text with ⟨hall, hnone⟩ | ⟨word, rest, hline, hne, hword, hrest, hwords⟩
  · have hnil : skipLeadingSpace text = [] := List.dropWhile_eq_nil_iff.mpr hall
    rw [parseHybbxLine, List.tail_cons, hnil, hnone]
    rfl
  · rw [hwords] at htext
    have hother : ¬AliasWord word := htext word rfl
    apply parse_kept
    rw [skipLeadingSpace, hline]
    by_cases hrest' : rest = []
    · rw [hrest', List.append_nil]
      exact strip_single hne hword hother
    · exact strip_other hword hrest (fun hmem => hother ⟨word, hmem, (strIeq_iff word word).mpr rfl⟩) hrest'

variable {word blanks : Bytes} (hne : blanks ≠ []) (hblanks : ∀ b ∈ blanks, isSpace b = true)

include hne hblanks

lemma blanks_behind (tail : Bytes) : ∀ b ∈ (blanks ++ tail).head?, isSpace b = true := by
  intro b hb
  rw [List.head?_append_of_ne_nil _ hne] at hb
  exact hblanks b (List.mem_of_mem_head? hb)

/-- In lower case the alias goes, in other spellings it is the verb. -/
lemma parse_alias (hword : AliasWord word) (tail : Bytes) : parseHybbxLine (commandSign :: (word ++ (blanks ++ tail))) =
    parsedWords (if word ∈ aliasWords then wordsOf isSpace tail else word :: wordsOf isSpace tail) := by
  obtain ⟨hwordne, hplain⟩ := hword.plain
  have hrest := blanks_behind hne hblanks tail
  have hskip : skipLeadingSpace (word ++ (blanks ++ tail)) = word ++ (blanks ++ tail) := by
    apply dropWhile_of_head
    intro b hb
    rw [List.head?_append_of_ne_nil _ hwordne] at hb
    exact hplain b (List.mem_of_mem_head? hb)
  have hwords : wordsOf isSpace (blanks ++ tail) = wordsOf isSpace tail := wordsOf_separators hblanks tail
  by_cases hmem : word ∈ aliasWords
  · rw [if_pos hmem, parseHybbxLine, List.tail_cons, hskip, strip_alias hplain hrest hmem (by simp [hne])]
    by_cases hnil : skipLeadingSpace (blanks ++ tail) = []
    · have hnone : wordsOf isSpace tail = [] := by
        rw [← hwords, ← wordsOf_dropWhile, ← skipLeadingSpace, hnil, wordsOf_nil]
      rw [if_pos hnil, hnone]
      rfl
    · have htokens : splitTokens (skipLeadingSpace (blanks ++ tail)) = wordsOf isSpace tail := by
        rw [splitTokens_eq, skipLeadingSpace, wordsOf_dropWhile, hwords]
      rw [if_neg hnil]
      dsimp only
      rw [htokens]
      cases wordsOf isSpace tail <;> rfl
  · rw [if_neg hmem, parse_kept (by rw [hskip]; exact strip_other hplain hrest hmem (by simp [hne])),
      wordsOf_word hwordne hplain hrest, hwords]

end Parse

/-- Another verb in front of the words of a line is another command, unless there are too many words anyway. -/
lemma parsedWords_cons {word : Bytes} {words : List Bytes} (hhelp : word ≠ ofString "help")
    (hfirst : ∀ first ∈ words.head?, word ≠ first) :
    SameCommand ((parsedWords (word :: words)).map (Prod.mk .scopeHybbx)) ((parsedWords words).map (Prod.mk .scopeHybbx)) ↔
      cmdTokenMax < words.length := by
  cases words with
  | nil =>
    refine iff_of_false (fun h => hhelp ?_) (by simp)
    exact congrArg ParsedCommand.verb (show (⟨word, []⟩ : ParsedCommand) = ⟨ofString "help", []⟩ from h)
  | cons first argv =>
    have hne : word ≠ first := hfirst first rfl
    rw [parsedWords, parsedWords, List.length_cons]
    by_cases hmany : cmdTokenMax < argv.length + 1
    · rw [if_pos (by omega), if_pos hmany]
      exact iff_of_true trivial hmany
    · rw [if_neg hmany]
      refine iff_of_false ?_ hmany
      by_cases hone : cmdTokenMax < argv.length + 1 + 1
      · rw [if_pos hone]
        exact id
      · rw [if_neg hone]
        exact fun h => hne (congrArg ParsedCommand.verb (show (⟨word, first :: argv⟩ : ParsedCommand) = ⟨first, argv⟩ from h))

lemma hybbxParse_line (text : Bytes) : hybbxCommandParse (commandSign :: text) =
    if allocMax ≤ (commandSign :: text).length then .error .errNomem else (parseHybbxLine (commandSign :: text)).map (Prod.mk .scopeHybbx) := by
  have hskip : skipLeadingSpace (commandSign :: text) = commandSign :: text := List.dropWhile_cons_of_neg (by decide)
  have hparse : commandParse (commandSign :: text) =
      (parseHybbxLine (commandSign :: text)).map (Prod.mk .scopeHybbx) := by
    rw [commandParse, hskip, commandClassify, hskip]
    rfl
  rw [hybbxCommandParse, hskip, hparse]
  exact if_congr Order.lt_add_one_iff rfl rfl

lemma SameCommand.refl (r : Except HybbxResult (CommandScope × ParsedCommand)) : SameCommand r r := by
  cases r with
  | error rc => exact trivial
  | ok parsed => exact rfl

lemma parsedWords_rejected (rc : HybbxResult) (words : List Bytes) :
    SameCommand (.error rc) ((parsedWords words).map (Prod.mk .scopeHybbx)) ↔ cmdTokenMax < words.length := by
  cases words with
  | nil => exact iff_of_false id (by simp)
  | cons verb argv =>
    rw [parsedWords, List.length_cons]
    split_ifs with hmany
    · exact iff_of_true trivial hmany
    · exact iff_of_false id hmany

lemma help_no_alias : ¬AliasWord (ofString "help") := by
  rintro ⟨name, hname, hsame⟩
  revert hname hsame
  revert name
  decide

/-- An alias in front of a command is as if it were not there exactly if it is in lower case, or the command has too many
words or bytes to be accepted at all. -/
theorem alias_transparent_iff (word blanks tail : Bytes) (hword : AliasWord word) (hne : blanks ≠ [])
    (hblanks : ∀ b ∈ blanks, isSpace b = true) (htail : ∀ first ∈ (splitTokens tail).head?, ¬AliasWord first) :
    SameCommand (hybbxCommandParse (commandSign :: (word ++ (blanks ++ tail)))) (hybbxCommandParse (commandSign :: tail)) ↔
      word ∈ aliasWords ∧ (commandSign :: (word ++ (blanks ++ tail))).length < allocMax ∨
        cmdTokenMax < (splitTokens tail).length ∨ allocMax ≤ (commandSign :: tail).length := by
  rw [splitTokens_eq] at htail ⊢
  rw [hybbxParse_line, hybbxParse_line, parse_alias hne hblanks hword, parse_plain htail]
  have hlonger : (commandSign :: tail).length ≤ (commandSign :: (word ++ (blanks ++ tail))).length := by
    simp only [List.length_cons, List.length_append]
    omega
  by_cases htext : allocMax ≤ (commandSign :: tail).length
  · rw [if_pos (htext.trans hlonger), if_pos htext]
    exact iff_of_true trivial (.inr (.inr htext))
  · rw [if_neg htext, or_iff_left htext]
    by_cases hline : allocMax ≤ (commandSign :: (word ++ (blanks ++ tail))).length
    · rw [if_pos hline, parsedWords_rejected, or_iff_right fun h => absurd hline (not_le.mpr h.2)]
    · rw [if_neg hline, and_iff_left (not_le.mp hline)]
      by_cases hmem : word ∈ aliasWords
      · rw [if_pos hmem]
        exact iff_of_true (.refl _) (.inl hmem)
      · rw [if_neg hmem, or_iff_right hmem]
        apply parsedWords_cons
        · rintro rfl
          exact help_no_alias hword
        · rintro first hfirst rfl
          exact htail _ hfirst hword

theorem alias_transparent_lower : SameCommand (hybbxCommandParse (ofString "/command who all"))
    (hybbxCommandParse (ofString "/who all")) :=
  (alias_transparent_iff (ofString "command") [blank] (ofString "who all") ⟨ofString "command", by decide, by decide⟩
    (by decide) (by decide +kernel) (by decide +kernel)).mpr (.inl ⟨by decide, by decide⟩)

/-- In capitals the alias is taken for the verb. -/
theorem shouted_alias_is_verb :
    hybbxCommandParse (ofString "/CMD who") = .ok (.scopeHybbx, ⟨ofString "CMD", [ofString "who"]⟩) ∧
      hybbxCommandParse (ofString "/who") = .ok (.scopeHybbx, ⟨ofString "who", []⟩) ∧
      ¬∀ word blanks tail : Bytes, AliasWord word → blanks ≠ [] → (∀ b ∈ blanks, isSpace b = true) →
        (∀ first ∈ (splitTokens tail).head?, ¬AliasWord first) →
          SameCommand (hybbxCommandParse (commandSign :: (word ++ (blanks ++ tail)))) (hybbxCommandParse (commandSign :: tail)) := by
  refine ⟨by decide +kernel, by decide +kernel, fun h => ?_⟩
  have hno := h (ofString "CMD") [blank] (ofString "who") ⟨ofString "cmd", by decide, by decide⟩ (by decide) (by decide +kernel) (by decide +kernel)
  revert hno
  decide +kernel

end HyBBX.Command
