import HyBBX.Config.SpacedLines

/-! Blanks and tabs in a configuration file: where they may be added and removed. -/

namespace HyBBX.Config

open HyBBX.Core Lib Lib.Bytes Lib.Text Lib.Numeral Lib.LineReader

/-- The line fits the buffer as before, unless it is refused either way, and a section keeps its name. -/
def Respacing.Harmless (r : Respacing) : Prop :=
  match r with
  | .header _ name _ spaces spaces' =>
    ¬Fits r.old ∧ ¬Fits r.new ∨ Fits r.old ∧ Fits r.new ∧ SameName name spaces spaces'
  | .entry key value comment _ _ => (Fits r.old ↔ Fits r.new) ∨ configKeyMax ≤ (trim key).length ∨
      configValueMax ≤ (readValue (value ++ comment)).length

/-- A text in which some lines are respaced in one of the given ways. -/
inductive RespacedBy (Q : Respacing → Prop) : Bytes → Bytes → Prop
  | unchanged (t : Bytes) : RespacedBy Q t t
  | last (r : Respacing) (h : Q r) : RespacedBy Q r.old r.new
  | line {t t' : Bytes} (r : Respacing) (h : Q r) (rest : RespacedBy Q t t') :
    RespacedBy Q (r.old ++ nl :: t) (r.new ++ nl :: t')
  | keep {t t' : Bytes} (l : Bytes) (rest : RespacedBy Q t t') : RespacedBy Q (l ++ nl :: t) (l ++ nl :: t')

/-- Both texts are refused, or both are loaded and answer every question alike. -/
def SameConfig (t t' : Bytes) : Prop :=
  match configLoad t, configLoad t' with
  | .ok config, .ok config' => ∀ s k, configGet config s k = configGet config' s k
  | .error _, .error _ => True
  | _, _ => False

section Texts

variable {Q : Respacing → Prop} {r : Respacing} {t t' : Bytes}

/-- The same result, up to the error code. -/
def Agree {α : Type} (x x' : Except HybbxResult α) : Prop := x = x' ∨ ∃ rc rc', x = .error rc ∧ x' = .error rc'

lemma Agree.bind {α β : Type} {x x' : Except HybbxResult α} {f f' : α → Except HybbxResult β} (h : Agree x x')
    (hf : ∀ a, Agree (f a) (f' a)) :
    Agree (x >>= f) (x' >>= f') := by
  rcases h with rfl | ⟨rc, rc', rfl, rfl⟩
  · cases x with
    | error rc => exact .inl rfl
    | ok a => exact hf a
  · exact .inr ⟨rc, rc', rfl, rfl⟩

/-- An entry with a key or a value that is too long is refused. -/
lemma entryStep_long {st : ConfigLoad} {key value : Bytes}
    (h : configKeyMax ≤ key.length ∨ configValueMax ≤ value.length) :
    ∃ rc, entryStep st key value = .error rc := by
  rw [entryStep]
  split_ifs
  · exact ⟨_, rfl⟩
  · rw [appendEntry, if_pos (.inr h)]
    exact ⟨_, rfl⟩

lemma entryStep_ok {st : ConfigLoad} {key value : Bytes} (hsection : st.currentSection ≠ [])
    (hfits : st.currentSection.length < configSectionMax)
    (hkey : key.length < configKeyMax) (hvalue : value.length < configValueMax) :
    entryStep st key value = .ok { st with config := st.config ++ [⟨st.currentSection, key, value⟩] } := by
  rw [entryStep, if_neg hsection, appendEntry, if_neg]
  dsimp only
  omega

lemma Respacing.Harmless.agree (hok : r.Ok) (h : r.Harmless) (st : ConfigLoad) : Agree (lineStep st r.old)
    (lineStep st r.new) := by
  cases r with
  | header indent name rest spaces spaces' =>
    obtain ⟨hparts, hs, hs'⟩ := hok
    rw [Harmless, old, new] at h
    rw [old, new, lineStep_headerText hparts hs, lineStep_headerText hparts hs']
    rcases h with ⟨hold, hnew⟩ | ⟨hold, hnew, hname⟩
    · rw [if_neg hold, if_neg hnew]
      exact .inl rfl
    · rw [if_pos hold, if_pos hnew, (nameRead_eq_iff hparts hs hs').mpr hname]
      exact .inl rfl
  | entry key value comment spaces spaces' =>
    obtain ⟨hparts, hs, hs'⟩ := hok
    rw [old, new, lineStep_entryText hparts hs, lineStep_entryText hparts hs']
    rcases h with hfits | hlong
    · exact .inl (if_congr hfits rfl rfl)
    · obtain ⟨rc, herror⟩ := @entryStep_long st _ _ hlong
      rw [herror]
      split_ifs <;> exact .inr ⟨_, _, rfl, rfl⟩

lemma Respacing.ofLine (hok : r.Ok) : OfLine r.old ∧ OfLine r.new := by
  cases r with
  | header => exact ⟨ofLine_header hok.1 hok.2.1, ofLine_header hok.1 hok.2.2⟩
  | entry => exact ⟨ofLine_entry hok.1 hok.2.1, ofLine_entry hok.1 hok.2.2⟩

lemma RespacedBy.agree (hQ : ∀ r, Q r → r.Ok) (hharmless : ∀ r, Q r → r.Harmless) (h : RespacedBy Q t t')
    (st : ConfigLoad) :
    Agree (loadLines st (fgets configLineMax t)) (loadLines st (fgets configLineMax t')) := by
  induction h generalizing st with
  | unchanged t => exact .inl rfl
  | last r h =>
    obtain ⟨hold, hnew⟩ := Respacing.ofLine (hQ r h)
    rw [load_last hold, load_last hnew]
    exact (hharmless r h).agree (hQ r h) st
  | line r h rest ih =>
    rw [load_line, load_line]
    exact ((hharmless r h).agree (hQ r h) st).bind ih
  | keep l rest ih =>
    rw [load_line, load_line]
    exact Agree.bind (.inl rfl) ih

lemma RespacedBy.mono {R : Respacing → Prop} (hQR : ∀ r, Q r → R r) (h : RespacedBy Q t t') : RespacedBy R t t' := by
  induction h with
  | unchanged t => exact .unchanged t
  | last r h => exact .last r (hQR r h)
  | line r h rest ih => exact .line r (hQR r h) ih
  | keep l rest ih => exact .keep l ih

lemma sameConfig_of_agree (h : Agree (configLoad t) (configLoad t')) : SameConfig t t' := by
  rw [SameConfig]
  rcases h with hsame | ⟨rc, rc', herror, herror'⟩
  · rw [hsame]
    cases configLoad t' with
    | error => trivial
    | ok => exact fun _ _ => rfl
  · rw [herror, herror']
    trivial

lemma SameConfig.ok_iff (h : SameConfig t t') : (∃ config, configLoad t = .ok config) ↔
    ∃ config, configLoad t' = .ok config := by
  rw [SameConfig] at h
  cases ht : configLoad t with
  | error rc =>
    cases ht' : configLoad t' with
    | error rc' => simp
    | ok config' =>
      rw [ht, ht'] at h
      exact h.elim
  | ok config =>
    cases ht' : configLoad t' with
    | error rc' =>
      rw [ht, ht'] at h
      exact h.elim
    | ok config' => simp

lemma configLoad_line (hl : OfLine t) : configLoad t = (lineStep ⟨[], []⟩ t).map ConfigLoad.config := by
  rw [configLoad, load_last hl]

lemma configLoad_lines (l : Bytes) (ht : OfLine t) :
    configLoad (l ++ nl :: t) = (lineStep ⟨[], []⟩ l >>= fun st => lineStep st t).map ConfigLoad.config := by
  rw [configLoad, load_line]
  congr 2
  funext st
  exact load_last ht

/-- The line `k=v`. -/
def probe : Bytes := entryText [0x6B] [0x76] [] ⟨[], [], [], []⟩

/-- The line `[s]`. -/
def probeHeader : Bytes := headerText [] [0x73] [] ⟨[], []⟩

lemma probe_parts : EntryParts [0x6B] [0x76] [] :=
  ⟨by decide, by decide +kernel, by decide, by decide, by decide, .inl rfl⟩

lemma probeHeader_parts : HeaderParts [] [0x73] [] :=
  ⟨by decide, by decide +kernel, by decide, by decide +kernel, by decide, by decide⟩

lemma nameRead_length (inside : Bytes) : (nameRead inside).length < configSectionMax := by
  have hmax : configSectionMax = 128 := rfl
  have hlen : (trimSection (inside.take (configSectionMax - 1))).length ≤ (inside.take (configSectionMax - 1)).length := by
    rw [trimSection]
    split_ifs
    · exact le_rfl
    · exact (List.rdropWhile_prefix _ _).length_le
  rw [List.length_take] at hlen
  rw [nameRead]
  omega

lemma configLoad_probe {indent name rest : Bytes} (h : HeaderParts indent name rest) {spaces : HeaderSpaces}
    (hs : spaces.Ok)
    (hfits : Fits (headerText indent name rest spaces)) :
    configLoad (headerText indent name rest spaces ++ nl :: probe) =
      if nameRead (spaces.inside name) = [] then .error .errInvalid else .ok [⟨nameRead (spaces.inside name), [0x6B], [0x76]⟩] := by
  have hspaces : EntrySpaces.Ok ⟨[], [], [], []⟩ := ⟨nofun, nofun, nofun, nofun⟩
  have hstep : ∀ st, lineStep st probe = entryStep st [0x6B] [0x76] := by
    intro st
    rw [probe, lineStep_entryText probe_parts hspaces, if_pos (by decide)]
    rfl
  have hprobe : OfLine probe := ofLine_entry probe_parts hspaces
  rw [configLoad_lines _ hprobe, lineStep_headerText h hs, if_pos hfits]
  change (lineStep _ probe).map ConfigLoad.config = _
  rw [hstep]
  split_ifs with hname
  · rw [entryStep, if_pos hname]
    rfl
  · rw [entryStep_ok hname (nameRead_length _) (by decide) (by decide)]
    rfl

/-- A line that is not harmless changes what some text is loaded as. -/
lemma Respacing.harmless_of_same (hok : r.Ok) (h : ∀ t t', RespacedBy (· = r) t t' → SameConfig t t') : r.Harmless := by
  obtain ⟨hold, hnew⟩ := ofLine hok
  cases r with
  | header indent name rest spaces spaces' =>
    obtain ⟨hparts, hs, hs'⟩ := hok
    have hloads : ∀ {x : HeaderSpaces}, x.Ok →
        ((∃ config, configLoad (headerText indent name rest x) = .ok config) ↔ Fits (headerText indent name rest x)) := by
      intro x hx
      rw [configLoad_line (ofLine_header hparts hx), lineStep_headerText hparts hx]
      split_ifs with hfits
      · exact iff_of_true ⟨[], rfl⟩ hfits
      · exact iff_of_false nofun hfits
    have hfits := (h _ _ (.last _ rfl)).ok_iff
    rw [old, new, hloads hs, hloads hs'] at hfits
    rw [Harmless, old, new]
    by_cases hf : Fits (headerText indent name rest spaces)
    · have hf' := hfits.mp hf
      refine .inr ⟨hf, hf', (nameRead_eq_iff hparts hs hs').mp ?_⟩
      by_contra hne
      have hsame := h _ _ (.line _ rfl (.unchanged probe))
      rw [SameConfig, old, new, configLoad_probe hparts hs hf, configLoad_probe hparts hs' hf'] at hsame
      by_cases hnil : nameRead (spaces.inside name) = []
      · have hnil' : nameRead (spaces'.inside name) ≠ [] := fun h => hne (hnil.trans h.symm)
        rw [if_pos hnil, if_neg hnil'] at hsame
        exact hsame
      · rw [if_neg hnil] at hsame
        by_cases hnil' : nameRead (spaces'.inside name) = []
        · rw [if_pos hnil'] at hsame
          exact hsame
        · rw [if_neg hnil'] at hsame
          have hget := hsame (nameRead (spaces.inside name)) [0x6B]
          simp [configGet, ConfigEntry.matches, Ne.symm hne] at hget
    · exact .inl ⟨hf, fun hf' => hf (hfits.mpr hf')⟩
  | entry key value comment spaces spaces' =>
    obtain ⟨hparts, hs, hs'⟩ := hok
    rw [Harmless, old, new]
    by_cases hlong : configKeyMax ≤ (trim key).length ∨ configValueMax ≤ (readValue (value ++ comment)).length
    · exact .inr hlong
    rw [not_or, not_le, not_le] at hlong
    have hheader : lineStep ⟨[], []⟩ probeHeader = .ok ⟨[], [0x73]⟩ := by
      rw [probeHeader, lineStep_headerText probeHeader_parts ⟨by decide +kernel, by decide +kernel⟩, if_pos (by decide)]
      rfl
    have hloads : ∀ {x : EntrySpaces}, x.Ok →
        ((∃ config, configLoad (probeHeader ++ nl :: entryText key value comment x) = .ok config) ↔ Fits (entryText key value comment x)) := by
      intro x hx
      rw [configLoad_lines _ (ofLine_entry hparts hx), hheader]
      change (∃ config, (lineStep ⟨[], [0x73]⟩ (entryText key value comment x)).map ConfigLoad.config = .ok config) ↔ _
      rw [lineStep_entryText hparts hx]
      split_ifs with hfits
      · rw [entryStep_ok (List.cons_ne_nil _ _) (by decide) hlong.1 hlong.2]
        exact iff_of_true ⟨_, rfl⟩ hfits
      · exact iff_of_false nofun hfits
    have hfits := (h _ _ (.keep probeHeader (.last _ rfl))).ok_iff
    rw [old, new, hloads hs, hloads hs'] at hfits
    exact .inl hfits

/-- Ways of respacing lines leave every text to be loaded as before exactly if they are harmless. -/
theorem respacing_iff (hQ : ∀ r, Q r → r.Ok) :
    (∀ t t', RespacedBy Q t t' → SameConfig t t') ↔ ∀ r, Q r → r.Harmless := by
  constructor
  · intro h r hr
    refine Respacing.harmless_of_same (hQ r hr) fun t t' ht => h t t' (ht.mono ?_)
    rintro _ rfl
    exact hr
  · intro hharmless t t' ht
    apply sameConfig_of_agree
    rcases ht.agree hQ hharmless ⟨[], []⟩ with hsame | ⟨rc, rc', herror, herror'⟩
    · exact .inl (by rw [configLoad, hsame, configLoad])
    · exact .inr ⟨rc, rc', by rw [configLoad, herror]; rfl, by rw [configLoad, herror']; rfl⟩

end Texts

section Example

/-- Blanks in front of a key, at both sides of the `=` and in front of a comment. -/
def tidied : Respacing :=
  .entry (ofString "dir") (ofString "logs") (ofString "; relative to install root") ⟨[], [blank], [blank], [tab, tab]⟩
    ⟨[blank, blank], [tab], [], [blank]⟩

theorem respacing_tidied : (∀ t t', RespacedBy (· = tidied) t t' → SameConfig t t') ↔ ∀ r, r = tidied → r.Harmless :=
  respacing_iff fun r hr => by
    rw [hr]
    exact ⟨⟨by decide, by decide +kernel, by decide, by decide, by decide, .inr (by decide)⟩,
      by decide +kernel, by decide +kernel⟩

/-- A blank in front of a section name. -/
def indented : Respacing := .header [] (ofString "log") [] ⟨[], []⟩ ⟨[blank], []⟩

/-- A section name with a blank in front of it is another name. -/
theorem blank_in_brackets_counts : ¬∀ t t', RespacedBy Respacing.Ok t t' → SameConfig t t' := by
  intro h
  have hok : indented.Ok := ⟨⟨by decide, by decide +kernel, by decide, by decide +kernel, by decide, by decide⟩,
    by decide +kernel, by decide +kernel⟩
  have hsame := h _ _ (.line indented hok (.unchanged (ofString "dir = logs")))
  have hload : configLoad (indented.old ++ nl :: ofString "dir = logs") =
      .ok [⟨ofString "log", ofString "dir", ofString "logs"⟩] := by
    decide
  have hload' : configLoad (indented.new ++ nl :: ofString "dir = logs") =
      .ok [⟨ofString " log", ofString "dir", ofString "logs"⟩] := by
    decide
  rw [SameConfig, hload, hload'] at hsame
  have hlog : configGet [⟨ofString "log", ofString "dir", ofString "logs"⟩] (ofString "log") (ofString "dir") =
      configGet [⟨ofString " log", ofString "dir", ofString "logs"⟩] (ofString "log") (ofString "dir") := hsame _ _
  revert hlog
  decide

end Example

end HyBBX.Config
