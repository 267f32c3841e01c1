import HyBBX.Security.Start

/-! Call-ids the configuration bans: their entries are permanent until a report reaches its threshold. -/

namespace HyBBX.Security

open HyBBX.Core Lib Lib.Bytes Lib.Text Config

/-- The states the tables can be in between two calls. -/
inductive Reachable : SecurityState → Prop
  | fresh : Reachable freshState
  | apply {st : SecurityState} (config : HybbxConfig) (now : ℤ) :
      Reachable st → Reachable (banConfigApply config st now)
  | step {st st' : SecurityState} (config : HybbxConfig) {now : ℤ} {op : SecurityOp} {es : List BanEvent} :
      Reachable st → securityStep (banConfig config) st now op = some (st', es) → Reachable st'

def Permanent (st : SecurityState) (norm : Bytes) : Prop :=
  ∃ ban, st.callidBans.lookup norm = some ban ∧ ban.permanent = true

/-- The call reports a call-id and its array holds as many stamps as the threshold asks for. -/
def Strikes (cfg : SecurityCfg) (st : SecurityState) (norm : Bytes) (c : TimedOp) : Prop :=
  ∃ k reason t, c.op.report cfg = some (k, norm, reason) ∧ k.ofIp = false ∧
    recordStamp cfg k (st.tracks k) norm c.now = some (t, true)

/-- No call of the run strikes the call-id. -/
def Spared (cfg : SecurityCfg) (norm : Bytes) : SecurityState → List TimedOp → Prop
  | _, [] => True
  | st, c :: cs =>
    ¬Strikes cfg st norm c ∧ ∀ r, securityStep cfg st c.now c.op = some r → Spared cfg norm r.1 cs

/-- The configuration lists the call-id and the table had a slot for it. -/
def LoadedCallid (config : HybbxConfig) (start : SecurityState) (norm : Bytes) : Prop :=
  norm ∈ configuredCallids ((configGet config (ofString "security") (ofString "ban_callid")).getD []) ∧
    start.callidBans.lookup norm ≠ none

section Step

variable {cfg : SecurityCfg} {st st' : SecurityState} {c : TimedOp} {es : List BanEvent}
  (hstep : securityStep cfg st c.now c.op = some (st', es))

include hstep in
/-- A strike overwrites the entry with a ban that ends. -/
lemma strike_callidBans {key : Bytes} (hs : Strikes cfg st key c) : st'.callidBans =
    if st.callidBans.lookup key = none ∧ st.callidBans.free = none then st.callidBans
    else st.callidBans.put key ⟨c.now + cfg.bantimeSec, false⟩ := by
  obtain ⟨k, reason, t, hr, hk, hrec⟩ := hs
  simp only [securityStep, hr, recordLocked, hrec, if_true] at hstep
  rw [banFor, hk, if_neg Bool.false_ne_true] at hstep
  obtain rfl := congrArg Prod.fst (Option.some.inj hstep)
  have hset : (st.setTrack k t).callidBans = st.callidBans := rfl
  rw [applyCallidBanLocked, hset]
  by_cases hfull : st.callidBans.lookup key = none ∧ st.callidBans.free = none
  · rw [if_pos hfull, if_pos hfull]
    rfl
  · rw [if_neg hfull, if_neg hfull]
    rfl

/-- What other calls do to the table: they drop entries that are not permanent. -/
inductive Lapse (st : SecurityState) : SlotTable Bytes CallidBan → Prop
  | same : Lapse st st.callidBans
  | query {key : Bytes} {ban : CallidBan} (hl : st.callidBans.lookup key = some ban) (hp : ban.permanent = false) :
      Lapse st (st.callidBans.release key)
  | tick (g : Bytes → CallidBan → Option CallidBan)
      (hkeep : ∀ key ban, ban.permanent = true → g key ban = some ban)
      (hsame : ∀ key ban ban', g key ban = some ban' → ban' = ban) : Lapse st (st.callidBans.sweep g)

lemma callidIsBanned_lapse (norm : Bytes) (now : ℤ) : Lapse st (callidIsBannedLocked st norm now).1.callidBans := by
  rw [callidIsBannedLocked]
  cases hl : st.callidBans.lookup norm with
  | none => exact .same
  | some ban =>
    dsimp only
    split_ifs with hp hnow
    · exact .same
    · exact .same
    · exact .query hl (Bool.eq_false_iff.mpr hp)

lemma banTick_lapse (now : ℤ) : Lapse st (banTick cfg st now).callidBans := by
  rw [banTick]
  split_ifs
  · exact .same
  · dsimp only
    apply Lapse.tick
    · intro key ban hp
      rw [if_neg fun hh => by simp [hp] at hh]
    · intro key ban ban' hg
      split_ifs at hg
      exact (Option.some.inj hg).symm

lemma banAccept_callidBans (ip : Bytes) (now : ℤ) : (banAccept cfg st ip now).1.callidBans = st.callidBans := by
  have hb : (banIsBanned cfg st ip now).1.callidBans = st.callidBans := by
    rw [banIsBanned]
    split_ifs
    · rfl
    · cases st.bans.lookup ip with
      | none => rfl
      | some expireAt =>
        dsimp only
        split_ifs <;> rfl
  rw [banAccept]
  dsimp only
  split_ifs
  · rfl
  · exact hb
  · exact hb
  · rw [← hb, applyBanLocked]
    split_ifs <;> rfl
  · rw [← hb, recordRateLocked]
    split_ifs <;> rfl

include hstep in
lemma unstruck_callidBans (hs : ∀ key, ¬Strikes cfg st key c) : Lapse st st'.callidBans := by
  obtain ⟨now, op⟩ := c
  cases hr : op.report cfg with
  | some r =>
    obtain ⟨k, key, reason⟩ := r
    simp only [securityStep, hr, recordLocked] at hstep
    cases hrec : recordStamp cfg k (st.tracks k) key now with
    | none =>
      rw [hrec] at hstep
      exact absurd hstep (by simp)
    | some q =>
      obtain ⟨t, reached⟩ := q
      rw [hrec] at hstep
      have he := congrArg Prod.fst (Option.some.inj hstep)
      dsimp only at he
      subst he
      cases reached with
      | false => exact .same
      | true =>
        have hk : k.ofIp = true := by
          by_contra hne
          exact hs key ⟨k, reason, t, hr, Bool.eq_false_iff.mpr hne, hrec⟩
        rw [if_pos rfl, banFor, if_pos hk, applyBanLocked]
        split_ifs
        · exact .same
        · exact .same
  | none =>
    simp only [securityStep, hr] at hstep
    cases op with
    | accept ip =>
      have he := congrArg Prod.fst (Option.some.inj hstep)
      dsimp only at he
      rw [← he, banAccept_callidBans]
      exact .same
    | isBanned ip =>
      have he := congrArg Prod.fst (Option.some.inj hstep)
      dsimp only at he
      subst he
      rw [banIsBanned]
      split_ifs
      · exact .same
      · cases st.bans.lookup ip.text with
        | none => exact .same
        | some expireAt =>
          dsimp only
          split_ifs
          · exact .same
          · exact .same
    | callidIsBanned callid =>
      have he := congrArg Prod.fst (Option.some.inj hstep)
      dsimp only at he
      subst he
      rw [banCallidIsBanned]
      split_ifs
      · exact .same
      · cases callidNormalize callid callidMax with
        | none => exact .same
        | some norm => exact callidIsBanned_lapse norm now
    | tick =>
      have he := congrArg Prod.fst (Option.some.inj hstep)
      dsimp only at he
      subst he
      exact banTick_lapse now
    | _ =>
      have he := congrArg Prod.fst (Option.some.inj hstep)
      dsimp only at he
      subst he
      exact .same

lemma lapse_spec (h : st.callidBans.Unique) {t : SlotTable Bytes CallidBan} (ht : Lapse st t) (norm : Bytes) :
    t.Unique ∧ ((∃ ban, t.lookup norm = some ban ∧ ban.permanent = true) ↔ Permanent st norm) := by
  cases ht with
  | same => exact ⟨h, Iff.rfl⟩
  | query hl hp =>
    rename_i key ban
    obtain ⟨hu, hrel⟩ := SlotTable.release_spec h key
    refine ⟨hu, ?_⟩
    rw [hrel, Permanent]
    split_ifs with hk
    · rw [hk, hl]
      simp [hp]
    · exact Iff.rfl
  | tick g hkeep hsame =>
    obtain ⟨hu, hsweep⟩ := SlotTable.sweep_spec h g
    refine ⟨hu, ?_⟩
    rw [hsweep, Permanent]
    constructor
    · rintro ⟨ban, hb, hp⟩
      obtain ⟨old, hold, hg⟩ := Option.bind_eq_some_iff.mp hb
      obtain rfl := hsame _ _ _ hg
      exact ⟨ban, hold, hp⟩
    · rintro ⟨ban, hb, hp⟩
      exact ⟨ban, by rw [hb, Option.bind_some, hkeep _ _ hp], hp⟩

lemma strikes_unique {key key' : Bytes} (hs : Strikes cfg st key c) (hs' : Strikes cfg st key' c) : key = key' := by
  obtain ⟨k, reason, t, hr, -, -⟩ := hs
  obtain ⟨k', reason', t', hr', -, -⟩ := hs'
  rw [hr, Option.some.injEq, Prod.mk.injEq, Prod.mk.injEq] at hr'
  exact hr'.2.1

include hstep in
/-- A call keeps the entry of a call-id permanent unless it strikes the call-id; none makes an entry permanent. -/
lemma permanent_step (h : st.callidBans.Unique) (norm : Bytes) :
    st'.callidBans.Unique ∧ (Permanent st' norm ↔ Permanent st norm ∧ ¬Strikes cfg st norm c) := by
  by_cases hs : ∃ key, Strikes cfg st key c
  · obtain ⟨key, hkey⟩ := hs
    have hst := strike_callidBans hstep hkey
    have hnot : key ≠ norm → ¬Strikes cfg st norm c := fun hne hn => hne (strikes_unique hkey hn)
    split_ifs at hst with hfull
    · refine ⟨hst ▸ h, ?_⟩
      rw [Permanent, hst, ← Permanent]
      refine ⟨fun hp => ⟨hp, hnot fun hk => ?_⟩, fun hp => hp.1⟩
      obtain ⟨ban, hb, -⟩ := hp
      rw [← hk, hfull.1] at hb
      exact absurd hb (by simp)
    · obtain ⟨hu, hput⟩ := SlotTable.put_spec h (SlotTable.room_iff.mp hfull) ⟨c.now + cfg.bantimeSec, false⟩
      refine ⟨hst ▸ hu, ?_⟩
      rw [Permanent, hst, hput]
      split_ifs with hk
      · subst hk
        simp [hkey]
      · exact ⟨fun hp => ⟨hp, hnot (Ne.symm hk)⟩, fun hp => hp.1⟩
  · have hnone : ∀ key, ¬Strikes cfg st key c := fun key hk => hs ⟨key, hk⟩
    obtain ⟨hu, hp⟩ := lapse_spec h (unstruck_callidBans hstep hnone) norm
    exact ⟨hu, hp.trans ⟨fun hh => ⟨hh, hnone norm⟩, fun hh => hh.1⟩⟩

end Step

lemma permanent_run {cfg : SecurityCfg} (norm : Bytes) {cs : List TimedOp} {st st' : SecurityState} {es : List BanEvent}
    (h : st.callidBans.Unique) (hrun : securityRun cfg st cs = some (st', es)) :
    Permanent st' norm ↔ Permanent st norm ∧ Spared cfg norm st cs := by
  induction cs generalizing st es with
  | nil =>
    obtain ⟨rfl, -⟩ := Prod.mk.inj (Option.some.inj hrun)
    exact ⟨fun hp => ⟨hp, trivial⟩, fun hp => hp.1⟩
  | cons c cs ih =>
    rw [securityRun] at hrun
    simp only [Option.bind_eq_bind, Option.bind_eq_some_iff] at hrun
    obtain ⟨⟨st₁, es₁⟩, hstep, ⟨st₂, es₂⟩, hrest, he⟩ := hrun
    obtain ⟨rfl, -⟩ := Prod.mk.inj (Option.some.inj he)
    obtain ⟨hu, hp⟩ := permanent_step hstep h norm
    rw [ih hu hrest, hp, Spared]
    constructor
    · rintro ⟨⟨hperm, hs⟩, hrest'⟩
      refine ⟨hperm, hs, fun r hr => ?_⟩
      obtain rfl := Option.some.inj (hstep.symm.trans hr)
      exact hrest'
    · rintro ⟨hperm, hs, hrest'⟩
      exact ⟨⟨hperm, hs⟩, hrest' _ hstep⟩

lemma unique_clearPermanent {t : SlotTable Bytes CallidBan} (h : t.Unique) : (clearPermanent t).Unique :=
  (SlotTable.sweep_spec h _).1

lemma unique_of_apply (config : HybbxConfig) (now : ℤ) {st : SecurityState} (h : st.callidBans.Unique) :
    (banConfigApply config st now).callidBans.Unique :=
  (foldl_applyCallidBan (banConfig config) now _ _ (unique_clearPermanent h)).2.2.1

lemma Reachable.unique {st : SecurityState} (h : Reachable st) : st.callidBans.Unique := by
  induction h with
  | fresh => exact freshState_unique.2.1
  | apply config now _ ih => exact unique_of_apply config now ih
  | step config _ hstep ih =>
    rename_i st st' now op es _
    exact (@permanent_step _ _ _ ⟨now, op⟩ _ hstep ih []).1

/-- Loading leaves every listed call-id without an entry or with a permanent one. -/
lemma foldl_permanent (cfg : SecurityCfg) (now : ℤ) (norm : Bytes) (norms : List Bytes) {st : SecurityState}
    (h : st.callidBans.Unique)
    (hst : norm ∈ norms ∨ st.callidBans.lookup norm = none ∨ Permanent st norm) :
    let st' := norms.foldl (fun st norm => (applyCallidBanLocked cfg st norm (ofString "config") now true).1) st
    st'.callidBans.lookup norm = none ∨ Permanent st' norm := by
  induction norms generalizing st with
  | nil => exact hst.resolve_left List.not_mem_nil
  | cons key norms ih =>
    refine ih (applyCallidBanLocked_spec h key (ofString "config") now true).1 ?_
    dsimp only
    by_cases hfull : st.callidBans.lookup key = none ∧ st.callidBans.free = none
    · have he : (applyCallidBanLocked cfg st key (ofString "config") now true).1 = st := by
        rw [applyCallidBanLocked, if_pos hfull]
      rw [he]
      rcases hst with hmem | hst
      · rcases List.mem_cons.mp hmem with rfl | hmem
        · exact .inr (.inl hfull.1)
        · exact .inl hmem
      · exact .inr hst
    · have hput := (SlotTable.put_spec h (SlotTable.room_iff.mp hfull) ⟨0, true⟩).2 norm
      have he : (applyCallidBanLocked cfg st key (ofString "config") now true).1.callidBans =
          st.callidBans.put key ⟨0, true⟩ := by
        rw [applyCallidBanLocked, if_neg hfull, if_pos rfl]
      rw [Permanent, he, hput]
      by_cases hk : norm = key
      · rw [if_pos hk]
        exact .inr (.inr ⟨_, rfl, rfl⟩)
      · rw [if_neg hk]
        rcases hst with hmem | hst
        · exact .inl ((List.mem_cons.mp hmem).resolve_left hk)
        · exact .inr hst

lemma loaded_permanent {config : HybbxConfig} {st : SecurityState} (h : st.callidBans.Unique) {now : ℤ} {norm : Bytes}
    (hload : LoadedCallid config (banConfigApply config st now) norm) :
    Permanent (banConfigApply config st now) norm := by
  have hfold := @foldl_permanent (banConfig config) now norm _
    { st with callidBans := clearPermanent st.callidBans } (unique_clearPermanent h) (.inl hload.1)
  exact hfold.resolve_left hload.2

/-- A call-id is banned at every clock reading exactly if its entry is permanent. -/
lemma banned_always_iff {cfg : SecurityCfg} (hen : cfg.enabled = true) (st : SecurityState) {norm : Bytes}
    (htext : ∃ text, callidNormalize text callidMax = some norm) :
    (∀ text now, callidNormalize text callidMax = some norm → (banCallidIsBanned cfg st text now).2 = true) ↔
      Permanent st norm := by
  have hquery : ∀ {text}, callidNormalize text callidMax = some norm → ∀ now,
      banCallidIsBanned cfg st text now = callidIsBannedLocked st norm now := by
    intro text htext now
    rw [banCallidIsBanned, if_neg (by simp [hen]), htext]
  constructor
  · intro hall
    obtain ⟨text, htext⟩ := htext
    cases hl : st.callidBans.lookup norm with
    | none =>
      have hban := hall text 0 htext
      rw [hquery htext, callidIsBannedLocked, hl] at hban
      exact absurd hban Bool.false_ne_true
    | some ban =>
      refine ⟨ban, hl, ?_⟩
      by_contra hp
      -- a ban that ends has ended at the second of its end
      have hban := hall text ban.expireAt htext
      rw [hquery htext, callidIsBannedLocked, hl] at hban
      simp [hp] at hban
  · rintro ⟨ban, hl, hp⟩ text now htext
    rw [hquery htext, callidIsBannedLocked, hl]
    simp [hp]

lemma configuredCallids_text {list norm : Bytes} (h : norm ∈ configuredCallids list) :
    ∃ text, callidNormalize text callidMax = some norm := by
  obtain ⟨text, -, htext⟩ := List.mem_filterMap.mp h
  exact ⟨text, htext⟩

/-- A configured call-id stays banned exactly in the runs in which no report of it reaches its threshold. -/
theorem configured_callid_banned_iff (config : HybbxConfig) {st₀ : SecurityState} (hst₀ : Reachable st₀) (now₀ : ℤ)
    {norm : Bytes} (hload : LoadedCallid config (banConfigApply config st₀ now₀) norm)
    (hen : (banConfig config).enabled = true) {cs : List TimedOp} {st : SecurityState} {es : List BanEvent}
    (hrun : securityRun (banConfig config) (banConfigApply config st₀ now₀) cs = some (st, es)) :
    (∀ text now, callidNormalize text callidMax = some norm →
      (banCallidIsBanned (banConfig config) st text now).2 = true) ↔
        Spared (banConfig config) norm (banConfigApply config st₀ now₀) cs := by
  rw [banned_always_iff hen st (configuredCallids_text hload.1),
    permanent_run norm (unique_of_apply config now₀ hst₀.unique) hrun]
  exact and_iff_right (loaded_permanent hst₀.unique hload)

def outlawConfig : HybbxConfig := [⟨ofString "security", ofString "ban_callid", ofString "N0CALL"⟩]

theorem configured_callid_banned_iff_outlaw :
    ∃ st es, securityRun (banConfig outlawConfig) (banConfigApply outlawConfig freshState 0) [⟨900, .tick⟩] =
      some (st, es) ∧
      ((∀ text now, callidNormalize text callidMax = some (ofString "N0CALL") →
        (banCallidIsBanned (banConfig outlawConfig) st text now).2 = true) ↔
          Spared (banConfig outlawConfig) (ofString "N0CALL") (banConfigApply outlawConfig freshState 0) [⟨900, .tick⟩]) :=
  ⟨_, _, rfl, configured_callid_banned_iff outlawConfig .fresh 0 ⟨by decide, by decide +kernel⟩ (by decide) rfl⟩

/-- Five failed link logins under a configured call-id, and ten minutes later it is let in. -/
theorem outlaw_let_in :
    configLoad (ofString "[security]\nban_callid = N0CALL\n") = .ok outlawConfig ∧
      (banCallidIsBanned (banConfig outlawConfig) (banConfigApply outlawConfig freshState 0) (ofString "N0CALL") 0).2 = true ∧
      (securityRun (banConfig outlawConfig) (banConfigApply outlawConfig freshState 0)
        (List.replicate 5 ⟨0, .linkAuthFailCallid (ofString "N0CALL")⟩)).map
          (fun r => (banCallidIsBanned (banConfig outlawConfig) r.1 (ofString "N0CALL") 600).2) = some false :=
  ⟨by decide, by decide +kernel, by decide +kernel⟩

end HyBBX.Security
