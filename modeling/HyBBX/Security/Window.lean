import HyBBX.Security.Ban

/-! What a call does to the stamps of each entry and to the bans, as long as no array is left. -/

namespace HyBBX.Security

open HyBBX.Core Lib Lib.Bytes Lib.Text Config

section Stamp

variable {cfg : SecurityCfg} {k : Tracker} {t : TrackTable} {key : Bytes} {now : ℤ}

def stampsIn (t : TrackTable) (key : Bytes) : List ℤ := (t.lookup key).getD []

lemma release_room (hroom : t.HasFree) (key : Bytes) : (t.release key).HasFree := by
  cases hl : t.lookup key with
  | some v => exact SlotTable.hasFree_release (by simp [hl])
  | none => rwa [SlotTable.release, SlotTable.find_eq_none_iff.mpr hl]

/-- A report's effect on its table, given the stamps the array holds afterwards. -/
lemma recordStamp_spec {stamps : List ℤ} (h : t.Unique) (hroom : t.lookup key ≠ none ∨ t.HasFree)
    (hp : pushStamp k (pruneWindow (k.window cfg) now (stampsIn t key)) now = some stamps) :
    ∃ t', recordStamp cfg k t key now = some (t', decide (k.retries cfg ≤ stamps.length)) ∧
      t'.Unique ∧ t'.length = t.length ∧ ∀ key', t'.lookup key' =
        if key' = key then if k.retries cfg ≤ stamps.length then none else some stamps else t.lookup key' := by
  rw [stampsIn] at hp
  simp only [recordStamp, if_neg (SlotTable.room_iff.mpr hroom), hp]
  set kept := pruneWindow (k.window cfg) now ((t.lookup key).getD [])
  obtain ⟨u, hu⟩ : ∃ u, u = if kept = [] then t.release key else t := ⟨_, rfl⟩
  rw [← hu]
  have huu : u.Unique ∧ (u.lookup key ≠ none ∨ u.HasFree) ∧ u.length = t.length ∧ ∀ key', key' ≠ key →
      u.lookup key' = t.lookup key' := by
    split_ifs at hu
    · subst hu
      refine ⟨(SlotTable.release_spec h key).1, .inr ?_, SlotTable.length_release t key, ?_⟩
      · exact hroom.elim SlotTable.hasFree_release fun hf => release_room hf key
      intro key' hne
      rw [(SlotTable.release_spec h key).2, if_neg hne]
    · subst hu
      exact ⟨h, hroom, rfl, fun _ _ => rfl⟩
  obtain ⟨hun, hur, hul, hus⟩ := huu
  by_cases hreach : k.retries cfg ≤ stamps.length
  · refine ⟨u.release key, by simp [hreach], (SlotTable.release_spec hun key).1, ?_, fun key' => ?_⟩
    · rw [SlotTable.length_release, hul]
    · rw [(SlotTable.release_spec hun key).2, if_pos hreach]
      split_ifs with hk
      · rfl
      · exact hus key' hk
  · refine ⟨u.put key stamps, by simp [hreach], (SlotTable.put_spec hun hur stamps).1, ?_, fun key' => ?_⟩
    · rw [SlotTable.length_put, hul]
    · rw [(SlotTable.put_spec hun hur stamps).2, if_neg hreach]
      split_ifs with hk
      · rfl
      · exact hus key' hk

lemma recordStamp_none (hroom : t.lookup key ≠ none ∨ t.HasFree)
    (hp : pushStamp k (pruneWindow (k.window cfg) now (stampsIn t key)) now = none) :
    recordStamp cfg k t key now = none := by
  rw [stampsIn] at hp
  simp only [recordStamp, if_neg (SlotTable.room_iff.mpr hroom), hp]

lemma pruneTable_spec (h : t.Unique) (window : ℕ) (now : ℤ) :
    (pruneTable window now t).Unique ∧
      ∀ key, stampsIn (pruneTable window now t) key = pruneWindow window now (stampsIn t key) := by
  obtain ⟨hu, hl⟩ := SlotTable.sweep_spec h fun _ stamps =>
    let kept := pruneWindow window now stamps
    if kept = [] then none else some kept
  refine ⟨hu, fun key => ?_⟩
  rw [stampsIn, pruneTable, hl key, stampsIn]
  cases t.lookup key with
  | none => rfl
  | some stamps =>
    simp only [Option.bind_some, Option.getD_some]
    split_ifs with hk
    · exact hk.symm
    · rfl

end Stamp

def stampsOf (st : SecurityState) (k : Tracker) (key : Bytes) : List ℤ := stampsIn (st.tracks k) key

def TablesUnique (st : SecurityState) : Prop :=
  st.bans.Unique ∧ st.callidBans.Unique ∧ ∀ k, (st.tracks k).Unique

/-- Every table has a free slot. -/
def Room (st : SecurityState) : Prop :=
  st.bans.HasFree ∧ st.callidBans.HasFree ∧ ∀ k, (st.tracks k).HasFree

/-- Who is banned: an address or a call-id. -/
def BanEvent.subject : BanEvent → Bool × Bytes
  | .ip key _ => (true, key)
  | .callid key _ => (false, key)

def BannedAt (cfg : SecurityCfg) (st : SecurityState) (k : Tracker) (key : Bytes) (now : ℤ) : Prop :=
  if k.ofIp then (banIsBanned cfg st key now).2 = true
  else ∀ text, callidNormalize text callidMax = some key → (banCallidIsBanned cfg st text now).2 = true

section Quiet

variable {cfg : SecurityCfg} {st : SecurityState} (h : TablesUnique st)
include h

lemma tablesUnique_rates (t : TrackTable) : TablesUnique { st with rates := t } := h

lemma applyBanLocked_tracks (ip reason : Bytes) (now : ℤ) :
    TablesUnique (applyBanLocked cfg st ip reason now).1 ∧ (applyBanLocked cfg st ip reason now).1.tracks =
      st.tracks := by
  rw [applyBanLocked]
  split_ifs
  · exact ⟨h, rfl⟩
  · exact ⟨⟨SlotTable.unique_put h.1 _ _, h.2⟩, rfl⟩

lemma banIsBanned_tracks (ip : Bytes) (now : ℤ) :
    TablesUnique (banIsBanned cfg st ip now).1 ∧ (banIsBanned cfg st ip now).1.tracks = st.tracks := by
  rw [banIsBanned]
  split_ifs
  · exact ⟨h, rfl⟩
  · cases st.bans.lookup ip with
    | none => exact ⟨h, rfl⟩
    | some expireAt =>
      dsimp only
      split_ifs
      · exact ⟨h, rfl⟩
      · exact ⟨⟨(SlotTable.release_spec h.1 _).1, h.2⟩, rfl⟩

lemma banCallidIsBanned_tracks (callid : Bytes) (now : ℤ) :
    TablesUnique (banCallidIsBanned cfg st callid now).1 ∧ (banCallidIsBanned cfg st callid now).1.tracks =
      st.tracks := by
  rw [banCallidIsBanned]
  split_ifs
  · exact ⟨h, rfl⟩
  · cases callidNormalize callid callidMax with
    | none => exact ⟨h, rfl⟩
    | some norm =>
      dsimp only
      rw [callidIsBannedLocked]
      cases st.callidBans.lookup norm with
      | none => exact ⟨h, rfl⟩
      | some ban =>
        dsimp only
        split_ifs
        · exact ⟨h, rfl⟩
        · exact ⟨h, rfl⟩
        · exact ⟨⟨h.1, (SlotTable.release_spec h.2.1 _).1, h.2.2⟩, rfl⟩

lemma recordRateLocked_tracks (ip : Bytes) (now : ℤ) :
    TablesUnique (recordRateLocked cfg st ip now) ∧ (recordRateLocked cfg st ip now).tracks = st.tracks := by
  rw [recordRateLocked]
  split_ifs <;> exact ⟨h, rfl⟩

lemma banAccept_tracks (ip : Bytes) (now : ℤ) :
    TablesUnique (banAccept cfg st ip now).1 ∧ (banAccept cfg st ip now).1.tracks = st.tracks := by
  obtain ⟨hu, ht⟩ := @banIsBanned_tracks cfg st h ip now
  rw [banAccept]
  dsimp only
  split_ifs
  · exact ⟨h, rfl⟩
  · exact ⟨hu, ht⟩
  · exact ⟨hu, ht⟩
  · rw [← ht]
    exact applyBanLocked_tracks (tablesUnique_rates hu _) _ _ _
  · rw [← ht]
    exact recordRateLocked_tracks hu _ _

lemma banTick_tracks (now : ℤ) : TablesUnique (banTick cfg st now) ∧ ∀ k key,
    stampsOf (banTick cfg st now) k key = stampsOf st k key ∨
      stampsOf (banTick cfg st now) k key = pruneWindow (k.window cfg) now (stampsOf st k key) := by
  rw [banTick]
  split_ifs
  · exact ⟨h, fun _ _ => .inl rfl⟩
  · refine ⟨⟨?_, ?_, fun k => ?_⟩, fun k key => .inr ?_⟩
    · dsimp only
      exact (SlotTable.sweep_spec h.1 _).1
    · dsimp only
      exact (SlotTable.sweep_spec h.2.1 _).1
    · exact (pruneTable_spec (h.2.2 k) _ now).1
    · exact (pruneTable_spec (h.2.2 k) _ now).2 key

/-- A call that reports nothing at most prunes the stamps. -/
lemma other_step {op : SecurityOp} (now : ℤ) (hr : op.report cfg = none) :
    ∃ st' es, securityStep cfg st now op = some (st', es) ∧ TablesUnique st' ∧ ∀ k key,
      stampsOf st' k key = stampsOf st k key ∨
          stampsOf st' k key = pruneWindow (k.window cfg) now (stampsOf st k key) := by
  have hsame : ∀ {st' : SecurityState}, TablesUnique st' ∧ st'.tracks = st.tracks → TablesUnique st' ∧ ∀ k key,
      stampsOf st' k key = stampsOf st k key ∨
        stampsOf st' k key = pruneWindow (k.window cfg) now (stampsOf st k key) :=
    fun hh => ⟨hh.1, fun k key => .inl (by rw [stampsOf, hh.2, stampsOf])⟩
  simp only [securityStep, hr]
  cases op with
  | accept ip => exact ⟨_, _, rfl, hsame (banAccept_tracks h ip.text now)⟩
  | isBanned ip => exact ⟨_, _, rfl, hsame (banIsBanned_tracks h ip.text now)⟩
  | callidIsBanned callid => exact ⟨_, _, rfl, hsame (banCallidIsBanned_tracks h callid now)⟩
  | tick => exact ⟨_, _, rfl, banTick_tracks h now⟩
  | _ => exact ⟨_, _, rfl, hsame ⟨h, rfl⟩⟩

end Quiet

section Ban

variable {cfg : SecurityCfg} {st : SecurityState} (h : TablesUnique st) (hfb : st.bans.HasFree)
  (hfc : st.callidBans.HasFree)
include h hfb hfc

lemma banFor_spec (k : Tracker) (key reason : Bytes) (now : ℤ) :
    TablesUnique (banFor cfg k st key reason now).1 ∧ (banFor cfg k st key reason now).1.tracks = st.tracks ∧
      ∃ e, (banFor cfg k st key reason now).2 = [e] ∧ e.subject = (k.ofIp, key) := by
  obtain ⟨hb, hc, ht⟩ := h
  rw [banFor]
  cases hk : k.ofIp with
  | true =>
    obtain ⟨i, hi⟩ := hfb.free
    have hgo : ¬(st.bans.lookup key = none ∧ st.bans.free = none) := by simp [hi]
    rw [if_pos rfl, applyBanLocked, if_neg hgo]
    exact ⟨⟨(SlotTable.put_spec hb (.inr hfb) _).1, hc, ht⟩, rfl, _, rfl, rfl⟩
  | false =>
    obtain ⟨i, hi⟩ := hfc.free
    have hgo : ¬(st.callidBans.lookup key = none ∧ st.callidBans.free = none) := by simp [hi]
    rw [if_neg Bool.false_ne_true, applyCallidBanLocked, if_neg hgo]
    exact ⟨⟨hb, (SlotTable.put_spec hc (.inr hfc) _).1, ht⟩, rfl, _, rfl, rfl⟩

lemma banFor_bannedAt {k : Tracker} {key : Bytes} (reason : Bytes) (now : ℤ)
    (hen : cfg.enabled = true) (hbt : 1 ≤ cfg.bantimeSec) (hvalid : k.ofIp = true → ipValid key = true) :
    BannedAt cfg (banFor cfg k st key reason now).1 k key now := by
  obtain ⟨hb, hc, -⟩ := h
  rw [BannedAt, banFor]
  cases hk : k.ofIp with
  | true =>
    obtain ⟨i, hi⟩ := hfb.free
    have hgo : ¬(st.bans.lookup key = none ∧ st.bans.free = none) := by simp [hi]
    rw [if_pos rfl, if_pos rfl, applyBanLocked, if_neg hgo, banIsBanned]
    have hl := (SlotTable.put_spec hb (.inr hfb) (k := key) (now + cfg.bantimeSec)).2 key
    rw [if_pos rfl] at hl
    have hlt : now < now + cfg.bantimeSec := by omega
    simp [hen, hvalid hk, hl, hlt]
  | false =>
    obtain ⟨i, hi⟩ := hfc.free
    have hgo : ¬(st.callidBans.lookup key = none ∧ st.callidBans.free = none) := by simp [hi]
    rw [if_neg Bool.false_ne_true, if_neg Bool.false_ne_true, applyCallidBanLocked, if_neg hgo]
    intro text htext
    have hl := (SlotTable.put_spec hc (.inr hfc) (k := key) ⟨now + cfg.bantimeSec, false⟩).2 key
    rw [if_pos rfl] at hl
    have hlt : now < now + cfg.bantimeSec := by omega
    simp [banCallidIsBanned, hen, htext, callidIsBannedLocked, hl, hlt]

end Ban

end HyBBX.Security
