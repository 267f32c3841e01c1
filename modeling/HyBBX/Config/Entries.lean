import HyBBX.Config.Ini

/-! What holds of every entry the loader or the hub makes. -/

namespace HyBBX.Config

open HyBBX.Core Lib Lib.Bytes Lib.Text Lib.Numeral Lib.LineReader

/-- What every entry of a loaded and changed configuration is. -/
structure EntryOk (e : ConfigEntry) : Prop where
  section_ne : e.sectionName ≠ []
  section_line : nl ∉ e.sectionName
  section_string : 0 ∉ e.sectionName
  section_fits : e.sectionName.length < configSectionMax
  key_trimmed : Trimmed e.key
  key_equals : equals ∉ e.key
  key_line : nl ∉ e.key
  key_string : 0 ∉ e.key
  key_fits : e.key.length < configKeyMax
  key_head : ∀ b ∈ e.key.head?, startsComment b = false ∧ b ≠ opening
  value_line : nl ∉ e.value
  value_string : 0 ∉ e.value
  value_fits : e.value.length < configValueMax

/-- A section name that reads back as it is written. -/
def SafeSection (s : Bytes) : Prop := closing ∉ s ∧ trimSection s = s

lemma trimSection_subset (s : Bytes) : trimSection s ⊆ s := by
  rw [trimSection]
  split_ifs
  · exact List.Subset.refl _
  · exact (List.rdropWhile_prefix _ _).subset

lemma trimSection_length_le (s : Bytes) : (trimSection s).length ≤ s.length := by
  rw [trimSection]
  split_ifs
  · exact le_refl _
  · exact (List.rdropWhile_prefix _ _).length_le

lemma trimSection_trimSection (s : Bytes) : trimSection (trimSection s) = trimSection s := by
  by_cases h : s.all isSpace
  · simp [trimSection, h]
  · have hne : s.rdropWhile isSpace ≠ [] := by
      intro h0
      rw [List.rdropWhile_eq_nil_iff] at h0
      exact h (List.all_eq_true.mpr h0)
    have hnb : ¬ (s.rdropWhile isSpace).all isSpace := by
      intro ha
      exact List.rdropWhile_last_not isSpace s hne (List.all_eq_true.mp ha _ (List.getLast_mem hne))
    have h1 : trimSection s = s.rdropWhile isSpace := by rw [trimSection, if_neg h]
    rw [h1, trimSection, if_neg hnb, List.rdropWhile_idempotent]

lemma cutComment_initial (s d : Bool) (v : Bytes) : cutComment s d v <+: v := by
  induction v generalizing s d with
  | nil => exact List.prefix_rfl
  | cons c v ih =>
    rw [cutComment]
    split_ifs
    · exact List.nil_prefix
    · exact (List.prefix_cons_inj c).mpr (ih _ _)
    · exact (List.prefix_cons_inj c).mpr (ih _ _)
    · exact (List.prefix_cons_inj c).mpr (ih _ _)

lemma stripInlineComment_initial (v : Bytes) : stripInlineComment v <+: v :=
  (List.rdropWhile_prefix _ _).trans (cutComment_initial _ _ _)

lemma unquote_sublist (v : Bytes) : (unquote v).Sublist v := by
  rw [unquote]
  split_ifs
  · exact (List.dropLast_sublist _).trans (List.tail_sublist _)
  · exact List.Sublist.refl _

lemma readValue_sublist (v : Bytes) : (readValue v).Sublist (trim v) :=
  (unquote_sublist _).trans (stripInlineComment_initial _).sublist

lemma appendEntry_eq_ok {config config' : HybbxConfig} {e : ConfigEntry} (h : appendEntry config e = .ok config') :
    (e.sectionName.length < configSectionMax ∧ e.key.length < configKeyMax ∧ e.value.length < configValueMax) ∧
      config' = config ++ [e] := by
  rw [appendEntry] at h
  split_ifs at h with hl
  simp only [not_or, not_le] at hl
  exact ⟨hl, (Except.ok.inj h).symm⟩

structure SectionOk (s : Bytes) : Prop where
  line : nl ∉ s
  string : 0 ∉ s
  fits : s.length < configSectionMax
  safe : SafeSection s

structure LoadOk (st : ConfigLoad) : Prop where
  entries : ∀ e ∈ st.config, EntryOk e ∧ SafeSection e.sectionName
  current : SectionOk st.currentSection

lemma loadSection_ok {st st' : ConfigLoad} {content : Bytes} (hst : LoadOk st) (hn : nl ∉ content)
    (h0 : 0 ∉ content) (h : loadSection st content = .ok st') : LoadOk st' := by
  rw [loadSection] at h
  split_ifs at h with hc
  obtain rfl := Except.ok.inj h
  have hsub : trimSection (((content.takeWhile (· ≠ closing)).drop 1).take (configSectionMax - 1)) ⊆
      content.takeWhile (· ≠ closing) :=
    List.Subset.trans (trimSection_subset _)
      (List.Subset.trans (List.take_subset _ _) (List.drop_subset _ _))
  have hcontent := List.Subset.trans hsub (List.takeWhile_subset _)
  refine ⟨hst.entries, fun hm => hn (hcontent hm), fun hm => h0 (hcontent hm), ?_, ?_, trimSection_trimSection _⟩
  · refine lt_of_le_of_lt (trimSection_length_le _) ?_
    rw [List.length_take]
    simp only [configSectionMax]
    omega
  · intro hm
    simpa using List.mem_takeWhile_imp (hsub hm)

lemma loadEntry_ok {st st' : ConfigLoad} {content : Bytes} (hst : LoadOk st) (hn : nl ∉ content)
    (h0 : 0 ∉ content) (hh : ∀ b ∈ content.head?, isSpace b = false ∧ startsComment b = false ∧ b ≠ opening)
    (h : loadEntry st content = .ok st') : LoadOk st' := by
  rw [loadEntry] at h
  split_ifs at h with hs he
  simp only at h
  split at h
  · simp at h
  · rename_i config happend
    obtain rfl := Except.ok.inj h
    obtain ⟨⟨-, hkl, hvl⟩, rfl⟩ := appendEntry_eq_ok happend
    refine ⟨?_, hst.current⟩
    intro e hm
    rcases List.mem_append.mp hm with hm | hm
    · exact hst.entries e hm
    obtain rfl := List.mem_singleton.mp hm
    have hkey : trim (content.takeWhile (· ≠ equals)) ⊆ content :=
      List.Subset.trans (trim_subset _) (List.takeWhile_subset _)
    have hvalue : readValue (content.dropWhile (· ≠ equals)).tail ⊆ content :=
      List.Subset.trans (readValue_sublist _).subset
        (List.Subset.trans (trim_subset _)
          (List.Subset.trans (List.tail_subset _) (List.dropWhile_suffix _).subset))
    refine ⟨⟨hs, hst.current.line, hst.current.string, hst.current.fits, trimmed_trim _, ?_,
      fun hm => hn (hkey hm), fun hm => h0 (hkey hm), hkl, ?_,
      fun hm => hn (hvalue hm), fun hm => h0 (hvalue hm), hvl⟩, hst.current.safe⟩
    · intro hm
      simpa using List.mem_takeWhile_imp (trim_subset _ hm)
    · -- the first byte of the line is not white space, so it is the first byte of the key
      intro b hb
      cases content with
      | nil => simp [trim] at hb
      | cons c cs =>
        obtain ⟨hc, hrest⟩ := hh c rfl
        by_cases hq : c = equals
        · rw [List.takeWhile_cons_of_neg (by simpa using hq)] at hb
          simp [trim] at hb
        · rw [List.takeWhile_cons_of_pos (by simpa using hq), trim,
            List.dropWhile_cons_of_neg (by simp [hc])] at hb
          have hpre := List.rdropWhile_prefix isSpace (c :: cs.takeWhile (· ≠ equals))
          obtain ⟨t, ht⟩ := hpre
          cases hr : (c :: cs.takeWhile (· ≠ equals)).rdropWhile isSpace with
          | nil => rw [hr] at hb; simp at hb
          | cons d ds =>
            rw [hr] at hb ht
            obtain rfl : d = b := by simpa using hb
            obtain ⟨rfl, -⟩ := List.cons.inj ht
            exact hrest

lemma loadLine_ok {st st' : ConfigLoad} {file piece : Bytes} (hp : piece ∈ fgets configLineMax file)
    (hst : LoadOk st) (h : loadLine st piece = .ok st') : LoadOk st' := by
  have hn := nl_notMem_trim_piece hp
  have h0 : 0 ∉ trim (cstr piece) := fun hm => zero_notMem_cstr piece (trim_subset _ hm)
  simp only [loadLine] at h
  split_ifs at h with hl hc hb
  · obtain rfl := Except.ok.inj h
    exact hst
  · exact loadSection_ok hst hn h0 h
  · refine loadEntry_ok hst hn h0 ?_ h
    intro b hm
    have hspace := (trimmed_trim (cstr piece)).1 b hm
    refine ⟨hspace, ?_, ?_⟩
    · simp only [not_or, isCommentLine] at hc
      rw [dropWhile_of_head (trimmed_trim _).1, Option.mem_def.mp hm] at hc
      simpa using hc.2
    · rintro rfl
      exact hb hm

-- a fold in `Except` keeps what each of its steps keeps
lemma foldlM_keeps {ε σ α : Type} {P : σ → Prop} {f : σ → α → Except ε σ} (as : List α)
    (hf : ∀ a ∈ as, ∀ s s', P s → f s a = .ok s' → P s') {s s' : σ} (hs : P s)
    (h : as.foldlM f s = .ok s') : P s' := by
  induction as generalizing s with
  | nil =>
    obtain rfl : s = s' := by simpa [pure, Except.pure] using h
    exact hs
  | cons a as ih =>
    rw [List.foldlM_cons] at h
    cases hl : f s a with
    | error e => simp [hl, bind, Except.bind] at h
    | ok s₁ =>
      rw [hl] at h
      exact ih (fun b hb => hf b (List.mem_cons_of_mem a hb)) (hf a List.mem_cons_self s s₁ hs hl) h

lemma configLoad_ok {file : Bytes} {config : HybbxConfig} (h : configLoad file = .ok config) :
    ∀ e ∈ config, EntryOk e ∧ SafeSection e.sectionName := by
  rw [configLoad] at h
  cases hl : loadLines ⟨[], []⟩ (fgets configLineMax file) with
  | error e => simp [hl, Except.map] at h
  | ok st =>
    rw [hl] at h
    obtain rfl := Except.ok.inj h
    have hinit : LoadOk ⟨[], []⟩ :=
      ⟨by simp, by simp, by simp, by simp [configSectionMax], by simp [SafeSection, trimSection]⟩
    exact (foldlM_keeps _ (fun piece hp s s' hs h => loadLine_ok hp hs h) hinit hl).entries

lemma linkKey_ok (key : LinkKey) : Trimmed key.name ∧ equals ∉ key.name ∧ nl ∉ key.name ∧ 0 ∉ key.name ∧
    key.name.length < configKeyMax ∧ ∀ b ∈ key.name.head?, startsComment b = false ∧ b ≠ opening := by
  cases key <;> (refine ⟨⟨?_, ?_⟩, ?_, ?_, ?_, ?_, ?_⟩ <;> decide +kernel)

lemma hubEntry_ok (id : HubText linkIdMax) (key : LinkKey) (value : HubText 64) :
    EntryOk ⟨linkSection id, key.name, value.text⟩ := by
  obtain ⟨hk, he, hn, h0, hl, hh⟩ := linkKey_ok key
  have hid := id.fits
  have hv := value.fits
  refine ⟨?_, ?_, ?_, ?_, hk, he, hn, h0, hl, hh, value.oneLine, value.string, ?_⟩
  · simp [linkSection, ofString]
  · simp only [linkSection, List.mem_append, not_or]
    exact ⟨by decide, id.oneLine⟩
  · simp only [linkSection, List.mem_append, not_or]
    exact ⟨by decide, id.string⟩
  · have h5 : (ofString "link.").length = 5 := by decide
    simp only [linkSection, List.length_append, h5, configSectionMax, linkIdMax] at *
    omega
  · simp only [configValueMax] at *
    omega

lemma EntryOk.withValue {e : ConfigEntry} (h : EntryOk e) {v : Bytes} (hn : nl ∉ v) (h0 : 0 ∉ v)
    (hl : v.length < configValueMax) : EntryOk { e with value := v } :=
  ⟨h.section_ne, h.section_line, h.section_string, h.section_fits, h.key_trimmed, h.key_equals, h.key_line,
    h.key_string, h.key_fits, h.key_head, hn, h0, hl⟩

lemma EntryOk.withHubText {e : ConfigEntry} (h : EntryOk e) (v : HubText 64) :
    EntryOk { e with value := v.text } :=
  h.withValue v.oneLine v.string (lt_trans v.fits (by decide))

lemma replaceFirst_ok {s k : Bytes} (v : HubText 64) {config : HybbxConfig} (h : ∀ e ∈ config, EntryOk e) :
    ∀ e ∈ replaceFirst s k v.text config, EntryOk e := by
  induction config with
  | nil => exact h
  | cons f config ih =>
    have hf := h f List.mem_cons_self
    have hr := fun e he => h e (List.mem_cons_of_mem f he)
    rw [replaceFirst]
    split_ifs
    · exact List.forall_mem_cons.mpr ⟨hf.withHubText v, hr⟩
    · exact List.forall_mem_cons.mpr ⟨hf, ih hr⟩

lemma hubSet_ok {config config' : HybbxConfig} {id : HubText linkIdMax} {key : LinkKey} {value : HubText 64}
    (h : ∀ e ∈ config, EntryOk e) (hs : configSet config (linkSection id) key.name value.text = .ok config') :
    ∀ e ∈ config', EntryOk e := by
  rw [configSet] at hs
  split_ifs at hs
  · obtain rfl := Except.ok.inj hs
    exact replaceFirst_ok value h
  · obtain ⟨-, rfl⟩ := appendEntry_eq_ok hs
    intro e he
    rcases List.mem_append.mp he with he | he
    · exact h e he
    · rw [List.mem_singleton.mp he]
      exact hubEntry_ok id key value

lemma upsertEntry_ok {s : Bytes} (values : LinkValues) {e : ConfigEntry} (h : EntryOk e) :
    EntryOk (upsertEntry s values e) := by
  rw [upsertEntry]
  split_ifs
  · exact h
  · exact h.withHubText _
  · exact h.withHubText _
  · exact h.withHubText _
  · exact h

lemma hubOp_ok {config config' : HybbxConfig} {op : HubOp} (h : ∀ e ∈ config, EntryOk e)
    (ho : op.apply config = .ok config') : ∀ e ∈ config', EntryOk e := by
  cases op with
  | set id key value => exact hubSet_ok h ho
  | upsert id values =>
    refine foldlM_keeps (P := fun c => ∀ e ∈ c, EntryOk e) _ ?_ ?_ ho
    · intro key _ c c' hc hs
      rw [setMissing] at hs
      split_ifs at hs
      · obtain rfl := Except.ok.inj hs
        exact hc
      · exact hubSet_ok hc hs
    · intro e he
      obtain ⟨f, hf, rfl⟩ := List.mem_map.mp he
      exact upsertEntry_ok values (h f hf)
  | removeSection sectionName =>
    obtain rfl := Except.ok.inj ho
    intro e he
    exact h e (List.mem_of_mem_filter he)

/-- A configuration as the running hub holds it. -/
structure HubConfig (config : HybbxConfig) : Prop where
  reached : ∃ file loaded ops, configLoad file = .ok loaded ∧ applyHubOps loaded ops = .ok config

lemma HubConfig.entries {config : HybbxConfig} (h : HubConfig config) : ∀ e ∈ config, EntryOk e := by
  obtain ⟨file, loaded, ops, hl, ho⟩ := h.reached
  exact foldlM_keeps ops (fun op _ c c' hc hs => hubOp_ok hc hs) (fun e he => (configLoad_ok hl e he).1) ho

end HyBBX.Config
