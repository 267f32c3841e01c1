import HyBBX.Config.Entries

/-! What the loader makes of the lines the writer writes. -/

namespace HyBBX.Config

open HyBBX.Core Lib Lib.Bytes Lib.Text Lib.Numeral Lib.LineReader

def reread (e : ConfigEntry) : ConfigEntry := { e with value := readValue e.value }

lemma loadLines_cons {st st' : ConfigLoad} {piece : Bytes} (h : loadLine st piece = .ok st') (pieces : List Bytes) :
    loadLines st (piece :: pieces) = loadLines st' pieces := by
  rw [loadLines, List.foldlM_cons, h]
  rfl

lemma loadLine_content {st : ConfigLoad} {l : Bytes} (h0 : 0 ∉ l) :
    loadLine st (l ++ [nl]) =
      if trim l = [] ∨ isCommentLine (trim l) then .ok st
      else if (trim l).head? = some opening then loadSection st (trim l)
      else loadEntry st (trim l) := by
  have hc : cstr (l ++ [nl]) = l ++ [nl] := cstr_of_notMem (by simpa using ⟨h0, by decide⟩)
  rw [loadLine, hc, if_neg (by simp), trim_append_nl]

lemma isCommentLine_of_trimmed {l : Bytes} (h : Trimmed l) : isCommentLine l = l.head?.any startsComment := by
  rw [isCommentLine, dropWhile_of_head h.1]

lemma loadLine_blank (st : ConfigLoad) : loadLine st [nl] = .ok st := by
  rw [← List.nil_append [nl], loadLine_content (by simp)]
  rfl

lemma trimmed_headerLine (s : Bytes) : Trimmed (headerLine s) := by
  refine ⟨?_, ?_⟩
  · intro b hb
    obtain rfl : opening = b := by simpa [headerLine] using hb
    decide
  · intro b hb
    rw [headerLine, List.getLast?_concat] at hb
    obtain rfl : closing = b := Option.some.inj hb
    decide

lemma loadLine_header (st : ConfigLoad) {s : Bytes} (hs : SectionOk s) :
    loadLine st (headerLine s ++ [nl]) = .ok { st with currentSection := s } := by
  have h0 : 0 ∉ headerLine s := by
    simp only [headerLine, List.mem_append, List.mem_cons, not_or]
    exact ⟨⟨by decide, hs.string⟩, by decide, by simp⟩
  have ht := trim_of_trimmed (trimmed_headerLine s)
  have hcut : (headerLine s).takeWhile (· ≠ closing) = opening :: s := by
    have hall : ∀ b ∈ opening :: s, decide (b ≠ closing) = true := by
      intro b hb
      rcases List.mem_cons.mp hb with rfl | hb
      · decide
      · simpa using fun h : b = closing => hs.safe.1 (h ▸ hb)
    rw [headerLine, List.takeWhile_append_of_pos hall]
    simp
  have hfit := hs.fits
  have htake : ((opening :: s).drop 1).take (configSectionMax - 1) = s := by
    rw [List.drop_one, List.tail_cons, List.take_of_length_le (by omega)]
  rw [loadLine_content h0, ht, isCommentLine_of_trimmed (trimmed_headerLine s), 
    if_neg (by simpa [headerLine] using by decide),
    if_pos (by simp [headerLine]), loadSection, if_neg (by simp [headerLine]), hcut, htake, hs.safe.2]

/-- The part of an entry's line in front of the `=`, as the loader sees it. -/
def keyPart (key : Bytes) : Bytes := if key = [] then [] else key ++ [blank]

lemma trim_entryLine {e : ConfigEntry} (h : EntryOk e) :
    trim (entryLine e) = keyPart e.key ++ equals :: (blank :: e.value).rdropWhile isSpace := by
  have hd : (entryLine e).dropWhile isSpace = keyPart e.key ++ [equals] ++ blank :: e.value := by
    rw [entryLine, keyPart]
    split_ifs with hk
    · rw [hk]
      rfl
    · rw [List.append_assoc, dropWhile_of_head]
      · simp
      · intro b hb
        rw [List.head?_append_of_ne_nil _ hk] at hb
        exact h.key_trimmed.1 b hb
  rw [trim, hd, rdropWhile_append_of_last]
  · simp
  · intro b hb
    obtain rfl : equals = b := by simpa [List.getLast?_append] using hb
    decide

lemma trim_keyPart {key : Bytes} (h : Trimmed key) : trim (keyPart key) = key := by
  rw [keyPart]
  split_ifs with hk
  · rw [hk]
    rfl
  · rw [← trim_rdropWhile, List.rdropWhile_concat, if_pos (by decide), trim_rdropWhile, trim_of_trimmed h]

lemma equals_notMem_keyPart {key : Bytes} (h : equals ∉ key) : equals ∉ keyPart key := by
  rw [keyPart]
  split_ifs
  · simp
  · simpa using ⟨h, by decide⟩

lemma readValue_written (v : Bytes) : readValue ((blank :: v).rdropWhile isSpace) = readValue v := by
  rw [readValue, trim_rdropWhile, trim_cons_blank, readValue]

lemma readValue_length_le (v : Bytes) : (readValue v).length ≤ v.length :=
  le_trans (readValue_sublist v).length_le (trim_length_le v)

lemma appendEntry_reread {e : ConfigEntry} (h : EntryOk e) (config : HybbxConfig) :
    appendEntry config (reread e) = .ok (config ++ [reread e]) := by
  have h1 := h.section_fits
  have h2 := h.key_fits
  have h3 := h.value_fits
  have h4 := readValue_length_le e.value
  rw [appendEntry, if_neg]
  simp only [reread]
  omega

lemma head_entry {e : ConfigEntry} (h : EntryOk e) (rest : Bytes) :
    ∃ b, (keyPart e.key ++ equals :: rest).head? = some b ∧ startsComment b = false ∧ b ≠ opening := by
  rw [keyPart]
  split_ifs with hk
  · exact ⟨equals, rfl, by decide, by decide⟩
  · obtain ⟨b, bs, hb⟩ := List.exists_cons_of_ne_nil hk
    have := h.key_head b (by rw [hb]; rfl)
    exact ⟨b, by rw [hb]; rfl, this⟩

lemma loadLine_entry {st : ConfigLoad} {e : ConfigEntry} (h : EntryOk e) (hs : st.currentSection = e.sectionName) :
    loadLine st (entryLine e ++ [nl]) = .ok { st with config := st.config ++ [reread e] } := by
  have h0 : 0 ∉ entryLine e := by
    simp only [entryLine, List.mem_append, not_or]
    exact ⟨⟨h.key_string, by decide⟩, h.value_string⟩
  have heq := equals_notMem_keyPart h.key_equals
  obtain ⟨b, hb, hbc, hbo⟩ := head_entry h ((blank :: e.value).rdropWhile isSpace)
  have htrim := trimmed_trim (entryLine e)
  rw [loadLine_content h0, isCommentLine_of_trimmed htrim, trim_entryLine h, hb, if_neg (by simp [hbc]),
    if_neg (by simpa using hbo), loadEntry, if_neg (by rw [hs]; exact h.section_ne), if_neg (by simp),
    takeWhile_equals heq, dropWhile_equals heq, List.tail_cons, trim_keyPart h.key_trimmed, readValue_written, hs]
  have happend := appendEntry_reread h st.config
  rw [reread] at happend
  simp only [happend]
  rfl

lemma entryLine_line {e : ConfigEntry} (h : EntryOk e) :
    nl ∉ entryLine e ∧ (entryLine e).length + 1 < configLineMax := by
  have h2 := h.key_fits
  have h3 := h.value_fits
  refine ⟨?_, ?_⟩
  · simp only [entryLine, List.mem_append, not_or]
    exact ⟨⟨h.key_line, by decide⟩, h.value_line⟩
  · simp only [entryLine, List.length_append, List.length_cons, List.length_nil, configKeyMax, configValueMax,
      configLineMax] at *
    omega

lemma headerLine_line {s : Bytes} (h : SectionOk s) :
    nl ∉ headerLine s ∧ (headerLine s).length + 1 < configLineMax := by
  have h1 := h.fits
  refine ⟨?_, ?_⟩
  · simp only [headerLine, List.mem_append, List.mem_cons, not_or]
    exact ⟨⟨by decide, h.line⟩, by decide, by simp⟩
  · simp only [headerLine, List.length_append, List.length_cons, List.length_nil, configSectionMax, configLineMax] at *
    omega

lemma sectionOk_of_entry {e : ConfigEntry} (h : EntryOk e) (hs : SafeSection e.sectionName) :
    SectionOk e.sectionName := ⟨h.section_line, h.section_string, h.section_fits, hs⟩

/-- The loader after the lines of one entry, with the section header they may start with. -/
lemma load_entry_lines (st : ConfigLoad) {e : ConfigEntry} (h : EntryOk e) (hs : SafeSection e.sectionName)
    {current : Option Bytes} (hcur : ∀ s ∈ current, st.currentSection = s) (rest : Bytes) :
    loadLines st (fgets configLineMax
      ((if current = some e.sectionName then []
        else (if current.isSome then [nl] else []) ++ (headerLine e.sectionName ++ [nl])) ++
        (entryLine e ++ [nl]) ++ rest)) =
      loadLines ⟨st.config ++ [reread e], e.sectionName⟩ (fgets configLineMax rest) := by
  have hok := sectionOk_of_entry h hs
  obtain ⟨hen, hel⟩ := entryLine_line h
  obtain ⟨hhn, hhl⟩ := headerLine_line hok
  have hentry : ∀ st' : ConfigLoad, st'.config = st.config → st'.currentSection = e.sectionName →
      loadLines st' (fgets configLineMax ((entryLine e ++ [nl]) ++ rest)) =
        loadLines ⟨st.config ++ [reread e], e.sectionName⟩ (fgets configLineMax rest) := by
    intro st' hc hs'
    rw [List.append_assoc, List.singleton_append, fgets_line hen hel, loadLines_cons (loadLine_entry h hs'), hc, hs']
  have hheader : ∀ st' : ConfigLoad, st'.config = st.config →
      loadLines st' (fgets configLineMax ((headerLine e.sectionName ++ [nl]) ++ (entryLine e ++ [nl] ++ rest))) =
        loadLines ⟨st.config ++ [reread e], e.sectionName⟩ (fgets configLineMax rest) := by
    intro st' hc
    rw [List.append_assoc, List.singleton_append, fgets_line hhn hhl, loadLines_cons (loadLine_header st' hok)]
    exact hentry _ hc rfl
  split_ifs with hc hsome
  · exact hentry st rfl (hcur _ hc)
  · have hblank : fgets configLineMax ([nl] ++ (headerLine e.sectionName ++ [nl]) ++ (entryLine e ++ [nl]) ++ rest) =
        [nl] :: fgets configLineMax ((headerLine e.sectionName ++ [nl]) ++ (entryLine e ++ [nl] ++ rest)) := by
      simpa using fgets_line (l := []) (by simp) (by decide)
        ((headerLine e.sectionName ++ [nl]) ++ (entryLine e ++ [nl] ++ rest))
    rw [hblank, loadLines_cons (loadLine_blank st)]
    exact hheader st rfl
  · rw [List.nil_append, List.append_assoc]
    exact hheader st rfl

lemma load_saveFrom (config : HybbxConfig) (hc : ∀ e ∈ config, EntryOk e ∧ SafeSection e.sectionName)
    (st : ConfigLoad) (current : Option Bytes) (hcur : ∀ s ∈ current, st.currentSection = s) :
    ∃ last, loadLines st (fgets configLineMax (saveFrom current config)) =
      .ok ⟨st.config ++ config.map reread, last⟩ := by
  induction config generalizing st current with
  | nil => exact ⟨st.currentSection, by simp [saveFrom, fgets, fgetsFrom, loadLines, pure, Except.pure]⟩
  | cons e config ih =>
    obtain ⟨he, hs⟩ := hc e List.mem_cons_self
    have hrest := fun f hf => hc f (List.mem_cons_of_mem e hf)
    obtain ⟨last, hl⟩ := ih hrest ⟨st.config ++ [reread e], e.sectionName⟩ (some e.sectionName) (by simp)
    refine ⟨last, ?_⟩
    rw [saveFrom, load_entry_lines st he hs hcur, hl, List.map_cons, List.append_assoc]
    rfl

lemma load_save {config : HybbxConfig} (hc : ∀ e ∈ config, EntryOk e ∧ SafeSection e.sectionName) :
    configLoad (configSave config) = .ok (config.map reread) := by
  obtain ⟨last, hl⟩ := load_saveFrom config hc ⟨[], []⟩ none (by simp)
  rw [configLoad, configSave, hl]
  rfl

/-! Which configurations survive being written and loaded again. -/

/-- No `;` and no `#` outside quotes. -/
def commentFree : Bool → Bool → Bytes → Bool
  | _, _, [] => true
  | inSingle, inDouble, c :: cs =>
    if inSingle = false ∧ inDouble = false ∧ startsComment c then false
    else if inDouble = false ∧ c = single then commentFree (!inSingle) inDouble cs
    else if inSingle = false ∧ c = double then commentFree inSingle (!inDouble) cs
    else commentFree inSingle inDouble cs

structure SafeValue (v : Bytes) : Prop where
  trimmed : Trimmed v
  uncommented : commentFree false false v = true
  unquoted : ¬ Quoted v

lemma cutComment_eq_self_iff (s d : Bool) (v : Bytes) : cutComment s d v = v ↔ commentFree s d v = true := by
  induction v generalizing s d with
  | nil => simp [cutComment, commentFree]
  | cons c v ih =>
    rw [cutComment, commentFree]
    split_ifs
    · simp
    · rw [List.cons_inj_right, ih]
    · rw [List.cons_inj_right, ih]
    · rw [List.cons_inj_right, ih]

lemma unquote_eq_self_iff (v : Bytes) : unquote v = v ↔ ¬ Quoted v := by
  rw [unquote]
  split_ifs with h
  · refine ⟨fun he => absurd (congrArg List.length he) ?_, fun hn => absurd h hn⟩
    have := h.1
    rw [List.length_dropLast, List.length_tail]
    omega
  · exact ⟨fun _ => h, fun _ => rfl⟩

lemma readValue_eq_self_iff (v : Bytes) : readValue v = v ↔ SafeValue v := by
  constructor
  · intro h
    -- every stage only removes bytes, so none of them removes any
    have h1 := (unquote_sublist (stripInlineComment (trim v))).length_le
    have h2 := (stripInlineComment_initial (trim v)).length_le
    have h3 := trim_length_le v
    have hlen : (unquote (stripInlineComment (trim v))).length = v.length := congrArg List.length h
    have ht : trim v = v := by
      have hsub : (trim v).Sublist v := (List.rdropWhile_prefix _ _).sublist.trans (List.dropWhile_sublist _)
      exact hsub.eq_of_length (by omega)
    have hs : stripInlineComment v = v := by
      rw [ht] at h1 h2 hlen
      exact (stripInlineComment_initial v).eq_of_length (by omega)
    have hc : cutComment false false v = v := by
      have h4 := (List.rdropWhile_prefix isSpace (cutComment false false v)).length_le
      have h5 := (cutComment_initial false false v).length_le
      have h6 := congrArg List.length hs
      rw [stripInlineComment] at h6
      exact (cutComment_initial false false v).eq_of_length (by omega)
    refine ⟨(trim_eq_self_iff v).mp ht, (cutComment_eq_self_iff _ _ v).mp hc, ?_⟩
    rw [readValue, ht, hs] at h
    exact (unquote_eq_self_iff v).mp h
  · rintro ⟨ht, hc, hq⟩
    rw [readValue, trim_of_trimmed ht, stripInlineComment, (cutComment_eq_self_iff _ _ v).mpr hc,
      rdropWhile_of_last ht.2, (unquote_eq_self_iff v).mpr hq]

lemma configGet_reread (config : HybbxConfig) (s k : Bytes) :
    configGet (config.map reread) s k = (configGet config s k).map readValue := by
  have hm : (fun e : ConfigEntry => e.matches s k) ∘ reread = fun e => e.matches s k := rfl
  rw [configGet, configGet, List.find?_map, hm, Option.map_map, Option.map_map]
  rfl

lemma configGet_mem {config : HybbxConfig} {s k v : Bytes} (h : configGet config s k = some v) :
    ∃ e ∈ config, e.sectionName = s := by
  obtain ⟨e, he, -⟩ := Option.map_eq_some_iff.mp h
  have hm := List.find?_some he
  simp only [ConfigEntry.matches, Bool.and_eq_true, decide_eq_true_eq] at hm
  exact ⟨e, List.mem_of_find?_eq_some he, hm.1⟩

lemma configGet_of_mem {config : HybbxConfig} {e : ConfigEntry} (h : e ∈ config) :
    ∃ v, configGet config e.sectionName e.key = some v := by
  have hs : (config.find? fun f => f.matches e.sectionName e.key).isSome := by
    rw [List.find?_isSome]
    exact ⟨e, h, by simp [ConfigEntry.matches]⟩
  obtain ⟨f, hf⟩ := Option.isSome_iff_exists.mp hs
  exact ⟨f.value, by rw [configGet, hf]; rfl⟩

lemma load_save_get {config : HybbxConfig} (hentries : ∀ e ∈ config, EntryOk e ∧ SafeSection e.sectionName)
    (hvalues : ∀ s k v, configGet config s k = some v → SafeValue v) :
    ∃ again, configLoad (configSave config) = .ok again ∧ ∀ s k, configGet again s k = configGet config s k := by
  refine ⟨_, load_save hentries, fun s k => ?_⟩
  rw [configGet_reread]
  cases hv : configGet config s k with
  | none => rfl
  | some v => rw [Option.map_some, (readValue_eq_self_iff v).mpr (hvalues s k v hv)]

/-- Written and loaded again a configuration answers every question as before exactly when each answer it
gives is a plain value from a section whose name can be read back. -/
theorem save_load_iff {config : HybbxConfig} (h : HubConfig config) :
    (∃ again, configLoad (configSave config) = .ok again ∧ ∀ s k, configGet again s k = configGet config s k) ↔
      ∀ s k v, configGet config s k = some v → SafeSection s ∧ SafeValue v := by
  have hentries : (∀ s k v, configGet config s k = some v → SafeSection s) →
      ∀ e ∈ config, EntryOk e ∧ SafeSection e.sectionName := by
    intro hsafe e he
    obtain ⟨v, hv⟩ := configGet_of_mem he
    exact ⟨h.entries e he, hsafe _ _ v hv⟩
  constructor
  · rintro ⟨again, hl, hsame⟩
    have hsafe : ∀ s k v, configGet config s k = some v → SafeSection s := by
      intro s k v hv
      rw [← hsame] at hv
      obtain ⟨e, he, rfl⟩ := configGet_mem hv
      exact (configLoad_ok hl e he).2
    obtain rfl : again = config.map reread := Except.ok.inj (hl.symm.trans (load_save (hentries hsafe)))
    intro s k v hv
    have hr := hsame s k
    rw [configGet_reread, hv] at hr
    exact ⟨hsafe s k v hv, (readValue_eq_self_iff v).mp (Option.some.inj hr)⟩
  · intro hall
    exact load_save_get (hentries fun s k v hv => (hall s k v hv).1) fun s k v hv => (hall s k v hv).2

def plainConfig : HybbxConfig := [⟨ofString "hub", ofString "name", ofString "main station"⟩]

lemma plainConfig_hub : HubConfig plainConfig :=
  ⟨ofString "; hub\n[hub]\n name = 'main station'\n", plainConfig, [], by decide, rfl⟩

theorem save_load_plain :
    (∃ again, configLoad (configSave plainConfig) = .ok again ∧
      ∀ s k, configGet again s k = configGet plainConfig s k) ↔
    ∀ s k v, configGet plainConfig s k = some v → SafeSection s ∧ SafeValue v :=
  save_load_iff plainConfig_hub

def quotedConfig : HybbxConfig := [⟨ofString "hub", ofString "motd", ofString "73; welcome"⟩]

/-- Quotes protect the semicolon in the operator's file, but not in the hub's rewrite of it. -/
theorem save_load_drops_quotes :
    HubConfig quotedConfig ∧ ¬ ∃ again, configLoad (configSave quotedConfig) = .ok again ∧
      ∀ s k, configGet again s k = configGet quotedConfig s k := by
  refine ⟨⟨ofString "[hub]\nmotd = \"73; welcome\"\n", quotedConfig, [], by decide, rfl⟩, ?_⟩
  rintro ⟨again, hl, hsame⟩
  have hcut : configLoad (configSave quotedConfig) = .ok [⟨ofString "hub", ofString "motd", ofString "73"⟩] := by
    decide
  obtain rfl := Except.ok.inj (hcut.symm.trans hl)
  have := hsame (ofString "hub") (ofString "motd")
  revert this
  decide

end HyBBX.Config
