import HyBBX.Config.SaveLoad

/-! What the loader answers after a section of a link has been written or removed. -/

namespace HyBBX.Config

open HyBBX.Core Lib Lib.Bytes Lib.Text Lib.Numeral Lib.LineReader

/-- Neither white space nor a byte the loader looks for in a value. -/
def PlainByte (b : UInt8) : Prop := isSpace b = false ∧ startsComment b = false ∧ b ≠ single ∧ b ≠ double

instance (b : UInt8) : Decidable (PlainByte b) :=
  inferInstanceAs (Decidable (isSpace b = false ∧ startsComment b = false ∧ b ≠ single ∧ b ≠ double))

lemma commentFree_of_plain (v : Bytes) (h : ∀ b ∈ v, PlainByte b) : commentFree false false v = true := by
  induction v with
  | nil => rfl
  | cons b v ih =>
    obtain ⟨-, hcomment, hsingle, hdouble⟩ := h b List.mem_cons_self
    rw [commentFree, if_neg (by simp [hcomment]), if_neg (by simp [hsingle]), if_neg (by simp [hdouble])]
    exact ih fun c hc => h c (List.mem_cons_of_mem b hc)

lemma safeValue_of_plain {v : Bytes} (h : ∀ b ∈ v, PlainByte b) : SafeValue v := by
  refine ⟨⟨fun b hb => ?_, fun b hb => ?_⟩, commentFree_of_plain v h, ?_⟩
  · exact (h b (List.mem_of_mem_head? hb)).1
  · exact (h b (List.mem_of_mem_getLast? hb)).1
  · rintro ⟨-, ⟨hhead, -⟩ | ⟨hhead, -⟩⟩
    · exact (h _ (List.mem_of_mem_head? hhead)).2.2.2 rfl
    · exact (h _ (List.mem_of_mem_head? hhead)).2.2.1 rfl

lemma configGet_append (a b : HybbxConfig) (s k : Bytes) :
    configGet (a ++ b) s k = (configGet a s k).or (configGet b s k) := by
  rw [configGet, List.find?_append, configGet, configGet]
  cases a.find? fun e => e.matches s k <;> rfl

lemma configGet_removeSection (config : HybbxConfig) (s s' k : Bytes) :
    configGet (configRemoveSection config s) s' k = if s' = s then none else configGet config s' k := by
  rw [configGet, configRemoveSection, List.find?_filter]
  split_ifs with hs
  · have hnone : (config.find? fun e => decide (decide (e.sectionName ≠ s) = true ∧ e.matches s' k = true)) = none := by
      rw [List.find?_eq_none]
      intro e _
      rw [hs, ConfigEntry.matches]
      simp only [ne_eq, decide_not, Bool.not_eq_true', decide_eq_false_iff_not, Bool.and_eq_true, decide_eq_true_eq,
        not_and]
      exact fun hother hsame => absurd hsame hother
    rw [hnone]
    rfl
  · rw [configGet]
    congr 2
    funext e
    rw [ConfigEntry.matches]
    simp only [ne_eq, decide_not, Bool.not_eq_true', decide_eq_false_iff_not, Bool.and_eq_true, decide_eq_true_eq]
    by_cases he : e.sectionName = s'
    · simp [he, hs]
    · simp [he]

section Upsert

variable (s : Bytes) (values : LinkValues)

lemma upsertEntry_matches (e : ConfigEntry) (s' k : Bytes) :
    (upsertEntry s values e).matches s' k = e.matches s' k := by
  rw [upsertEntry]
  split_ifs <;> rfl

lemma linkKey_name_injective : Function.Injective LinkKey.name := by
  intro a b h
  cases a <;> cases b <;> first | rfl | (revert h; decide)

lemma upsertEntry_value {e : ConfigEntry} {key : LinkKey} (hs : e.sectionName = s) (hk : e.key = key.name) :
    (upsertEntry s values e).value = (values key).text := by
  rw [upsertEntry, if_neg (not_not.mpr hs), hk]
  simp only [linkKey_name_injective.eq_iff]
  cases key <;> rfl

lemma upsertEntry_other {e : ConfigEntry} (h : ∀ key : LinkKey, e.sectionName = s → e.key ≠ key.name) :
    upsertEntry s values e = e := by
  rw [upsertEntry]
  split_ifs with hs hrole hcode hseen
  · rfl
  · exact absurd hrole (h .role (not_not.mp hs))
  · exact absurd hcode (h .linkCode (not_not.mp hs))
  · exact absurd hseen (h .lastSeen (not_not.mp hs))
  · rfl

lemma configGet_upsertEntry_other (config : HybbxConfig) {s' k : Bytes} (h : ∀ key : LinkKey, s' = s → k ≠ key.name) :
    configGet (config.map (upsertEntry s values)) s' k = configGet config s' k := by
  rw [configGet, List.find?_map, Option.map_map, configGet]
  have hmatch : (fun e : ConfigEntry => e.matches s' k) ∘ upsertEntry s values = fun e => e.matches s' k :=
    funext fun e => upsertEntry_matches s values e s' k
  rw [hmatch]
  cases hf : config.find? fun e => e.matches s' k with
  | none => rfl
  | some e =>
    have hm := List.find?_some hf
    simp only [ConfigEntry.matches, Bool.and_eq_true, decide_eq_true_eq] at hm
    obtain ⟨rfl, rfl⟩ := hm
    rw [Option.map_some, Option.map_some, Function.comp_apply, upsertEntry_other s values h]

lemma configGet_upsertEntry (config : HybbxConfig) (key : LinkKey) :
    configGet (config.map (upsertEntry s values)) s key.name =
      if config.any fun e => e.matches s key.name then some (values key).text else none := by
  rw [configGet, List.find?_map, Option.map_map]
  have hmatch : (fun e : ConfigEntry => e.matches s key.name) ∘ upsertEntry s values = fun e => e.matches s key.name :=
    funext fun e => upsertEntry_matches s values e s key.name
  rw [hmatch]
  cases hf : config.find? fun e => e.matches s key.name with
  | none =>
    have hnone : (config.any fun e => e.matches s key.name) = false := by
      rw [List.any_eq_false]
      exact List.find?_eq_none.mp hf
    rw [hnone]
    rfl
  | some e =>
    have hm := List.find?_some hf
    have hany : (config.any fun e => e.matches s key.name) = true :=
      List.any_eq_true.mpr ⟨e, List.mem_of_find?_eq_some hf, hm⟩
    simp only [ConfigEntry.matches, Bool.and_eq_true, decide_eq_true_eq] at hm
    rw [hany, if_pos rfl, Option.map_some, Function.comp_apply, upsertEntry_value s values hm.1 hm.2]

end Upsert

/-- The entries of a section that are not there yet. -/
def missingEntries (found : LinkKey → Bool) (s : Bytes) (values : LinkValues) (keys : List LinkKey) : HybbxConfig :=
  (keys.filter fun key => !found key).map fun key => ⟨s, key.name, (values key).text⟩

lemma setMissing_fold (found : LinkKey → Bool) (id : HubText linkIdMax) (values : LinkValues) (keys : List LinkKey)
    (hkeys : keys.Nodup) (config : HybbxConfig)
    (hfound : ∀ key ∈ keys, (config.any fun e => e.matches (linkSection id) key.name) = found key) :
    keys.foldlM (setMissing found (linkSection id) values) config =
      .ok (config ++ missingEntries found (linkSection id) values keys) := by
  induction keys generalizing config with
  | nil => simp [missingEntries, pure, Except.pure]
  | cons key keys ih =>
    obtain ⟨hnot, hrest⟩ := List.nodup_cons.mp hkeys
    rw [List.foldlM_cons, setMissing]
    cases hf : found key with
    | true =>
      rw [if_pos rfl]
      have h := ih hrest config fun other hother => hfound other (List.mem_cons_of_mem key hother)
      rw [missingEntries, List.filter_cons_of_neg (by simp [hf])]
      exact h
    | false =>
      have hnew : (config.any fun e => e.matches (linkSection id) key.name) = false := by
        rw [hfound key List.mem_cons_self, hf]
      have hentry := hubEntry_ok id key (values key)
      have hset : configSet config (linkSection id) key.name (values key).text =
          .ok (config ++ [⟨linkSection id, key.name, (values key).text⟩]) := by
        rw [configSet, hnew, if_neg (by simp), appendEntry, if_neg]
        simp only [not_or, not_le]
        exact ⟨hentry.section_fits, hentry.key_fits, hentry.value_fits⟩
      rw [if_neg (by simp), hset]
      have h := ih hrest (config ++ [⟨linkSection id, key.name, (values key).text⟩]) fun other hother => ?_
      · rw [missingEntries, List.filter_cons_of_pos (by simp [hf]), List.map_cons]
        rw [List.append_assoc, List.singleton_append] at h
        exact h
      · have hne : key.name ≠ other.name := fun h => hnot (linkKey_name_injective h ▸ hother)
        rw [List.any_append, hfound other (List.mem_cons_of_mem key hother)]
        simp [ConfigEntry.matches, hne]

/-- The section as it is written: what was there is overwritten, and the missing entries stand at the end. -/
lemma upsertLinkSection_eq (config : HybbxConfig) (id : HubText linkIdMax) (values : LinkValues) :
    configUpsertLinkSection config id values = .ok (config.map (upsertEntry (linkSection id) values) ++
      missingEntries (fun key => config.any fun e => e.matches (linkSection id) key.name) (linkSection id) values
        [.role, .linkCode, .lastSeen]) := by
  refine setMissing_fold _ id values _ (by decide) _ fun key _ => ?_
  rw [List.any_map]
  congr 1
  exact funext fun e => upsertEntry_matches _ values e _ _

/-- The section of a link says what was written, and all else is answered as before. -/
lemma upsertLinkSection_get (config : HybbxConfig) (id : HubText linkIdMax) (values : LinkValues) :
    ∃ config', configUpsertLinkSection config id values = .ok config' ∧
      (∀ key : LinkKey, configGet config' (linkSection id) key.name = some (values key).text) ∧
      ∀ s k, (∀ key : LinkKey, s = linkSection id → k ≠ key.name) → configGet config' s k = configGet config s k := by
  refine ⟨_, upsertLinkSection_eq config id values, fun key => ?_, fun s k hother => ?_⟩
  · rw [configGet_append, configGet_upsertEntry]
    cases hf : config.any fun e => e.matches (linkSection id) key.name with
    | true => rfl
    | false =>
      have hmem : (⟨linkSection id, key.name, (values key).text⟩ : ConfigEntry) ∈
          missingEntries (fun key => config.any fun e => e.matches (linkSection id) key.name) (linkSection id) values
            [.role, .linkCode, .lastSeen] := by
        refine List.mem_map.mpr ⟨key, List.mem_filter.mpr ⟨?_, by simp [hf]⟩, rfl⟩
        cases key <;> decide
      obtain ⟨v, hv⟩ := configGet_of_mem hmem
      obtain ⟨e, he, rfl⟩ := Option.map_eq_some_iff.mp hv
      obtain ⟨other, -, rfl⟩ := List.mem_map.mp (List.mem_of_find?_eq_some he)
      have hm := List.find?_some he
      simp only [ConfigEntry.matches, Bool.and_eq_true, decide_eq_true_eq, true_and] at hm
      rw [if_neg (by simp), Option.none_or, hv, linkKey_name_injective hm]
  · have hnone : configGet (missingEntries (fun key => config.any fun e => e.matches (linkSection id) key.name)
        (linkSection id) values [.role, .linkCode, .lastSeen]) s k = none := by
      rw [configGet, Option.map_eq_none_iff, List.find?_eq_none]
      intro e he hm
      obtain ⟨key, -, rfl⟩ := List.mem_map.mp he
      simp only [ConfigEntry.matches, Bool.and_eq_true, decide_eq_true_eq] at hm
      exact hother key hm.1.symm hm.2.symm
    rw [configGet_append, hnone, Option.or_none, configGet_upsertEntry_other _ _ _ hother]

end HyBBX.Config
