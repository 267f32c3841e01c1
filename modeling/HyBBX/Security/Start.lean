import HyBBX.Security.Window

/-! The tables of a freshly configured hub: no stamps, no addresses, and fewer call-ids than slots. -/

namespace HyBBX.Security

open HyBBX.Core Lib Lib.Bytes Lib.Text Config

section Empty

variable {κ α : Type} [DecidableEq κ] (key : κ) (val : α) (size : ℕ)

omit [DecidableEq κ] in
lemma unique_emptyTable : (emptyTable κ α key val size).Unique := by
  intro i j s s' hi hj ha
  obtain ⟨-, rfl⟩ := List.mem_replicate.mp (List.mem_of_getElem? hi)
  exact absurd ha Bool.false_ne_true

lemma lookup_emptyTable (key' : κ) : (emptyTable κ α key val size).lookup key' = none := by
  rw [SlotTable.lookup_eq_none_iff]
  intro i s hi ha
  obtain ⟨-, rfl⟩ := List.mem_replicate.mp (List.mem_of_getElem? hi)
  exact absurd ha Bool.false_ne_true

end Empty

lemma freshState_unique : TablesUnique freshState :=
  ⟨unique_emptyTable _ _ _, unique_emptyTable _ _ _, fun _ => unique_emptyTable _ _ _⟩

lemma freshState_tracks (k : Tracker) (key : Bytes) : (freshState.tracks k).lookup key = none :=
  lookup_emptyTable _ _ _ key

lemma freshState_bans (ip : Bytes) : freshState.bans.lookup ip = none := lookup_emptyTable _ _ _ ip

lemma freshState_bans_hasFree : freshState.bans.HasFree :=
  ⟨⟨[], 0, false⟩, List.mem_replicate.mpr ⟨by decide, rfl⟩, rfl⟩

section Callids

lemma length_mapM_callidByte {word norm : Bytes} (h : word.mapM callidByte = some norm) :
    norm.length = word.length := by
  induction word generalizing norm with
  | nil =>
    obtain rfl := Option.some.inj h
    rfl
  | cons b bs ih =>
    simp only [List.mapM_cons, Option.pure_def, Option.bind_eq_bind, Option.bind_eq_some_iff, Option.some.injEq] at h
    obtain ⟨c, -, cs, hcs, rfl⟩ := h
    rw [List.length_cons, List.length_cons, ih hcs]

lemma callidNormalize_spec {text norm : Bytes} {cap : ℕ} (h : callidNormalize text cap = some norm) :
    norm.length ≤ text.length ∧ ∃ b ∈ norm, isUpper b = true := by
  simp only [callidNormalize, Option.ite_none_left_eq_some, Option.bind_eq_some_iff] at h
  obtain ⟨-, word, hword, hup⟩ := h
  split_ifs at hup with hany
  obtain rfl := Option.some.inj hup
  refine ⟨?_, List.any_eq_true.mp hany⟩
  rw [length_mapM_callidByte hword]
  exact le_trans (List.takeWhile_prefix _).length_le (List.dropWhile_suffix _).length_le

lemma sum_splitOn (c : UInt8) (xs : Bytes) : ((xs.splitOn c).map fun t => t.length + 1).sum = xs.length + 1 := by
  induction xs with
  | nil => simp
  | cons x xs ih =>
    rw [List.splitOn_cons_eq_if_modifyHead]
    split_ifs
    · simp [ih, Nat.add_comm]
    · cases hs : xs.splitOn c with
      | nil => exact absurd hs (List.splitOn_ne_nil c xs)
      | cons t ts =>
        rw [hs] at ih
        simp only [List.map_cons, List.sum_cons] at ih
        simp only [List.modifyHead_cons, List.map_cons, List.sum_cons, List.length_cons]
        omega

lemma sum_filterMap_le (f : Bytes → Option Bytes) (hf : ∀ t n, f t = some n → n.length ≤ t.length) (ts : List Bytes) :
    ((ts.filterMap f).map fun n => n.length + 1).sum ≤ (ts.map fun t => t.length + 1).sum := by
  induction ts with
  | nil => rfl
  | cons t ts ih =>
    rw [List.filterMap_cons, List.map_cons, List.sum_cons]
    cases h : f t with
    | none => exact le_trans ih (Nat.le_add_left _ _)
    | some n =>
      rw [List.map_cons, List.sum_cons]
      exact add_le_add (Nat.succ_le_succ (hf t n h)) ih

lemma sum_configuredCallids_le (list : Bytes) : ((configuredCallids list).map fun n => n.length + 1).sum ≤ pathMax := by
  have hsub : (((list.take (pathMax - 1)).splitOn comma).filter (· ≠ [])).Sublist ((list.take (pathMax - 1)).splitOn comma) :=
    List.filter_sublist
  calc ((configuredCallids list).map fun n => n.length + 1).sum
      ≤ ((((list.take (pathMax - 1)).splitOn comma).filter (· ≠ [])).map fun t => t.length + 1).sum :=
        sum_filterMap_le _ (fun t n h => (callidNormalize_spec h).1) _
    _ ≤ (((list.take (pathMax - 1)).splitOn comma).map fun t => t.length + 1).sum := (hsub.map _).sum_le_sum (by simp)
    _ = (list.take (pathMax - 1)).length + 1 := sum_splitOn _ _
    _ ≤ pathMax := by
        have := List.length_take_le (pathMax - 1) list
        rw [pathMax] at this ⊢
        omega

lemma sum_toFinset_le (f : Bytes → ℕ) (l : List Bytes) : ∑ n ∈ l.toFinset, f n ≤ (l.map f).sum := by
  induction l with
  | nil => simp
  | cons a l ih =>
    rw [List.toFinset_cons, List.map_cons, List.sum_cons]
    by_cases ha : a ∈ l.toFinset
    · rw [Finset.insert_eq_of_mem ha]
      exact le_trans ih (Nat.le_add_left _ _)
    · rw [Finset.sum_insert ha]
      exact Nat.add_le_add_left ih _

/-- Single letters, of which there are only 26, take two bytes of the list; all else takes three. -/
lemma card_configuredCallids_lt (list : Bytes) : (configuredCallids list).toFinset.card < securityBanMax := by
  set norms := (configuredCallids list).toFinset
  have hsum : ∑ n ∈ norms, (n.length + 1) ≤ pathMax :=
    le_trans (sum_toFinset_le _ _) (sum_configuredCallids_le list)
  have hspec : ∀ n ∈ norms, ∃ b ∈ n, isUpper b = true := by
    intro n hn
    obtain ⟨t, -, ht⟩ := List.mem_filterMap.mp (List.mem_toFinset.mp hn)
    exact (callidNormalize_spec ht).2
  have hsingle : (norms.filter fun n => n.length = 1).card ≤ 26 := by
    have hsub : norms.filter (fun n => n.length = 1) ⊆ (Finset.Icc 0x41 0x5A).image fun c => [UInt8.ofNat c] := by
      intro n hn
      obtain ⟨hmem, hlen⟩ := Finset.mem_filter.mp hn
      obtain ⟨c, rfl⟩ := List.length_eq_one_iff.mp hlen
      obtain ⟨b, hb, hup⟩ := hspec _ hmem
      obtain rfl := List.mem_singleton.mp hb
      simp only [isUpper, Bool.and_eq_true, decide_eq_true_eq, UInt8.le_iff_toNat_le] at hup
      refine Finset.mem_image.mpr ⟨b.toNat, Finset.mem_Icc.mpr hup, ?_⟩
      rw [UInt8.ofNat_toNat]
    exact le_trans (Finset.card_le_card hsub) (le_trans Finset.card_image_le (by simp))
  have hthree : ∀ n ∈ norms, 3 ≤ (n.length + 1) + if n.length = 1 then 1 else 0 := by
    intro n hn
    obtain ⟨b, hb, -⟩ := hspec n hn
    have := List.length_pos_of_mem hb
    split_ifs <;> omega
  have hcard := Finset.sum_le_sum hthree
  rw [Finset.sum_const, Finset.sum_add_distrib, ← Finset.card_filter, smul_eq_mul] at hcard
  rw [securityBanMax]
  rw [pathMax] at hsum
  omega

end Callids

lemma applyCallidBanLocked_spec {cfg : SecurityCfg} {st : SecurityState} (h : st.callidBans.Unique)
    (callid reason : Bytes) (now : ℤ) (permanent : Bool) :
    (applyCallidBanLocked cfg st callid reason now permanent).1.callidBans.Unique ∧
      (applyCallidBanLocked cfg st callid reason now permanent).1.callidBans.length = st.callidBans.length ∧
      ∀ key, (applyCallidBanLocked cfg st callid reason now permanent).1.callidBans.lookup key ≠ none →
        key = callid ∨ st.callidBans.lookup key ≠ none := by
  by_cases hfull : st.callidBans.lookup callid = none ∧ st.callidBans.free = none
  · rw [applyCallidBanLocked, if_pos hfull]
    exact ⟨h, rfl, fun key hl => .inr hl⟩
  · have hroom := SlotTable.room_iff.mp hfull
    rw [applyCallidBanLocked, if_neg hfull]
    refine ⟨SlotTable.unique_put h _ _, SlotTable.length_put _ _ _, fun key hl => ?_⟩
    by_cases hk : key = callid
    · exact .inl hk
    · dsimp only at hl
      rw [(SlotTable.put_spec h hroom _).2, if_neg hk] at hl
      exact .inr hl

lemma applyCallidBanLocked_rest (cfg : SecurityCfg) (st : SecurityState) (callid reason : Bytes) (now : ℤ)
    (permanent : Bool) : (applyCallidBanLocked cfg st callid reason now permanent).1.bans = st.bans ∧
      (applyCallidBanLocked cfg st callid reason now permanent).1.tracks = st.tracks := by
  rw [applyCallidBanLocked]
  by_cases hfull : st.callidBans.lookup callid = none ∧ st.callidBans.free = none
  · rw [if_pos hfull]
    exact ⟨rfl, rfl⟩
  · rw [if_neg hfull]
    exact ⟨rfl, rfl⟩

/-- Loading bans some of the listed call-ids and nothing else. -/
lemma foldl_applyCallidBan (cfg : SecurityCfg) (now : ℤ) (norms : List Bytes) (st : SecurityState)
    (h : st.callidBans.Unique) :
    let st' := norms.foldl (fun st norm => (applyCallidBanLocked cfg st norm (ofString "config") now true).1) st
    st'.bans = st.bans ∧ st'.tracks = st.tracks ∧ st'.callidBans.Unique ∧
      st'.callidBans.length = st.callidBans.length ∧
      ∀ key, st'.callidBans.lookup key ≠ none → key ∈ norms ∨ st.callidBans.lookup key ≠ none := by
  induction norms generalizing st with
  | nil => exact ⟨rfl, rfl, h, rfl, fun key hl => .inr hl⟩
  | cons norm norms ih =>
    obtain ⟨hu, hlen, hl⟩ := @applyCallidBanLocked_spec cfg _ h norm (ofString "config") now true
    obtain ⟨hb, ht⟩ := applyCallidBanLocked_rest cfg st norm (ofString "config") now true
    obtain ⟨hb', ht', hu', hlen', hl'⟩ := ih _ hu
    refine ⟨hb'.trans hb, ht'.trans ht, hu', hlen'.trans hlen, fun key hk => ?_⟩
    rcases hl' key hk with hmem | hmem
    · exact .inl (List.mem_cons_of_mem _ hmem)
    · rcases hl key hmem with rfl | hold
      · exact .inl List.mem_cons_self
      · exact .inr hold

/-- What the configuration makes of a fresh process. -/
lemma banConfigApply_spec (config : HybbxConfig) (now : ℤ) :
    (banConfigApply config freshState now).bans = freshState.bans ∧
      (banConfigApply config freshState now).tracks = freshState.tracks ∧
      (banConfigApply config freshState now).callidBans.Unique ∧
      (banConfigApply config freshState now).callidBans.HasFree := by
  obtain ⟨hu₀, hl₀⟩ := SlotTable.sweep_spec freshState_unique.2.1 fun _ ban => if ban.permanent then none else some ban
  set list := (configGet config (ofString "security") (ofString "ban_callid")).getD []
  obtain ⟨hb, ht, hu, hlen, hl⟩ := foldl_applyCallidBan (banConfig config) now (configuredCallids list)
    { freshState with callidBans := clearPermanent freshState.callidBans } hu₀
  refine ⟨hb, ht, hu, SlotTable.hasFree_of_card hu (configuredCallids list).toFinset (fun key hk => ?_) ?_⟩
  · rcases hl key hk with hmem | hold
    · exact List.mem_toFinset.mpr hmem
    · refine absurd ?_ hold
      rw [clearPermanent, hl₀, freshState, lookup_emptyTable, Option.bind_none]
  · have hsize : (clearPermanent freshState.callidBans).length = securityBanMax := by
      rw [clearPermanent, SlotTable.sweep, List.length_map]
      exact List.length_replicate
    exact lt_of_lt_of_eq (card_configuredCallids_lt list) (hsize.symm.trans hlen.symm)

end HyBBX.Security
