import HyBBX.Security.Complete
import HyBBX.Security.Start

/-! Thresholds above five: one address reports at one instant and its array never fills up to the threshold. -/

namespace HyBBX.Security

open HyBBX.Core Lib Lib.Bytes Lib.Text Config

lemma length_pushStamp {k : Tracker} {stamps stamps' : List ℤ} {now : ℤ} (h : stamps.length ≤ k.capacity)
    (hp : pushStamp k stamps now = some stamps') : stamps'.length ≤ k.capacity := by
  have hpos : 1 ≤ k.capacity := by cases k <;> decide
  rw [pushStamp] at hp
  split_ifs at hp with hlim hcap
  · obtain rfl := Option.some.inj hp
    rw [List.length_append, List.length_singleton]
    omega
  · obtain rfl := Option.some.inj hp
    rw [List.length_append, List.length_singleton, List.length_tail]
    omega

/-- An address tries to log in over the packet radio, or sends rubbish. -/
def floodOp (k : Tracker) (ip : RemoteAddr) : SecurityOp :=
  if k = .abuse then .abuseReport ip (ofString "flood") else .loginFail ip (ofString "packet_radio")

section Flood

variable {cfg : SecurityCfg} (hen : cfg.enabled = true) {ip : RemoteAddr} (hv : ipValid ip.text = true)
  {k : Tracker} (hk : k = .fails ∨ k = .abuse) (hlong : defaultMaxretry < k.retries cfg)

/-- The tables while `ip` is the only source. -/
structure OneSource (start : SecurityState) (ip : Bytes) (k : Tracker) (st : SecurityState) : Prop where
  bans : st.bans = start.bans
  callidBans : st.callidBans = start.callidBans
  unique : ∀ k', (st.tracks k').Unique
  size : ∀ k', (st.tracks k').length = securityTrackMax
  only : ∀ k' key, (st.tracks k').lookup key ≠ none → key = ip
  few : (stampsOf st k ip).length ≤ k.capacity

lemma OneSource.room {start st : SecurityState} {ip : Bytes} (h : OneSource start ip k st) (hb : start.bans.HasFree)
    (hc : start.callidBans.HasFree) : Room st := by
  refine ⟨h.bans ▸ hb, h.callidBans ▸ hc, fun k' => ?_⟩
  apply SlotTable.hasFree_of_card (h.unique k') {ip}
  · intro key hl
    exact Finset.mem_singleton.mpr (h.only k' key hl)
  · rw [h.size, Finset.card_singleton]
    decide

include hen hv hk in
lemma floodOp_report : ∃ reason, (floodOp k ip).report cfg = some (k, ip.text, reason) := by
  have hradio : transportEnabled cfg (ofString "packet_radio") = true := by
    have h : ∀ t ∈ [[], ofString "telnet", ofString "ssh", ofString "websocket", ofString "circuit"],
        ofString "packet_radio" ≠ t := by decide
    simp only [List.mem_cons, List.not_mem_nil, or_false, forall_eq_or_imp, forall_eq] at h
    obtain ⟨h₀, h₁, h₂, h₃, h₄⟩ := h
    rw [transportEnabled, if_neg (by simp [hen, h₀]), if_neg h₁, if_neg h₂, if_neg h₃, if_neg h₄]
  rcases hk with rfl | rfl
  · exact ⟨_, by simp [floodOp, SecurityOp.report, hen, hv, hradio]; rfl⟩
  · exact ⟨_, by simp [floodOp, SecurityOp.report, hen, hv]; rfl⟩

include hen hv hk hlong in
/-- The array is too short for the threshold: a further report is dropped or leaves the array. -/
lemma floodOp_step {start st : SecurityState} (h : OneSource start ip.text k st) (hroom : Room st) {now : ℤ}
    {st' : SecurityState} {es : List BanEvent} (hstep : securityStep cfg st now (floodOp k ip) = some (st', es)) :
    OneSource start ip.text k st' ∧ es = [] := by
  obtain ⟨reason, hr⟩ := floodOp_report hen hv hk
  simp only [securityStep, hr, recordLocked] at hstep
  cases hp : pushStamp k (pruneWindow (k.window cfg) now (stampsOf st k ip.text)) now with
  | none =>
    rw [recordStamp_none (.inr (hroom.2.2 k)) hp] at hstep
    exact absurd hstep (by simp)
  | some stamps =>
    obtain ⟨t', hrec, hun, hlen, hl⟩ := recordStamp_spec (h.unique k) (.inr (hroom.2.2 k)) hp
    have hcap : k.capacity = defaultMaxretry := by
      rcases hk with rfl | rfl <;> rfl
    have hfew : stamps.length ≤ k.capacity := length_pushStamp (le_trans (length_pruneWindow_le ..) h.few) hp
    have hbelow : ¬k.retries cfg ≤ stamps.length := by omega
    rw [hrec, decide_eq_false hbelow] at hstep
    obtain ⟨rfl, rfl⟩ := Prod.mk.inj (Option.some.inj hstep)
    refine ⟨⟨h.bans, h.callidBans, fun k' => ?_, fun k' => ?_, fun k' key hkey => ?_, ?_⟩, rfl⟩
    · rw [setTrack_tracks]
      split_ifs
      · exact hun
      · exact h.unique k'
    · rw [setTrack_tracks]
      split_ifs
      · exact hlen.trans (h.size k)
      · exact h.size k'
    · rw [setTrack_tracks] at hkey
      by_contra hne
      split_ifs at hkey
      · rw [hl, if_neg hne] at hkey
        exact hne (h.only k key hkey)
      · exact hne (h.only k' key hkey)
    · rw [stampsOf_setTrack, if_pos rfl, stampsIn, hl, if_pos rfl, if_neg hbelow]
      exact hfew

include hen hv hk hlong in
lemma flood_run {start : SecurityState} (hb : start.bans.HasFree) (hc : start.callidBans.HasFree) (now : ℤ) (n : ℕ)
    {st : SecurityState} (h : OneSource start ip.text k st) :
    Roomy cfg st (List.replicate n ⟨now, floodOp k ip⟩) ∧
      ∀ st' es, securityRun cfg st (List.replicate n ⟨now, floodOp k ip⟩) = some (st', es) →
        OneSource start ip.text k st' ∧ es = [] := by
  induction n generalizing st with
  | zero =>
    refine ⟨h.room hb hc, fun st' es hrun => ?_⟩
    obtain ⟨rfl, rfl⟩ := Prod.mk.inj (Option.some.inj hrun)
    exact ⟨h, rfl⟩
  | succ n ih =>
    have hroom := h.room hb hc
    refine ⟨⟨hroom, fun r hr => (ih (floodOp_step hen hv hk hlong h hroom hr).1).1⟩, fun st' es hrun => ?_⟩
    rw [List.replicate_succ, securityRun] at hrun
    simp only [Option.bind_eq_bind, Option.bind_eq_some_iff] at hrun
    obtain ⟨⟨st₁, es₁⟩, hstep, ⟨st₂, es₂⟩, hrest, he⟩ := hrun
    obtain ⟨rfl, rfl⟩ := Prod.mk.inj (Option.some.inj he)
    obtain ⟨h₁, rfl⟩ := floodOp_step hen hv hk hlong h hroom hstep
    obtain ⟨h₂, rfl⟩ := (ih h₁).2 _ _ hrest
    exact ⟨h₂, rfl⟩

include hen hv hk hlong in
/-- As many reports at one instant as the threshold asks for, and no ban. -/
lemma not_complete_of_long {start : SecurityState} (hb : start.bans.HasFree) (hc : start.callidBans.HasFree)
    (hstart : OneSource start ip.text k start) (hfree : start.bans.lookup ip.text = none) :
    ¬ThresholdComplete cfg start := by
  intro hall
  obtain ⟨m, hm⟩ : ∃ m, k.retries cfg = m + 1 := ⟨k.retries cfg - 1, by omega⟩
  obtain ⟨reason, hr⟩ := floodOp_report hen hv hk
  have hcount : counts cfg k ip.text ⟨0, floodOp k ip⟩ = true := counts_iff.mpr ⟨reason, hr⟩
  have hreports : ∀ n, reports cfg k ip.text (List.replicate n ⟨0, floodOp k ip⟩) = List.replicate n 0 := by
    intro n
    rw [reports, List.filter_replicate, if_pos hcount, List.map_replicate]
  have hburst : Burst cfg start k ip.text [] (List.replicate m ⟨0, floodOp k ip⟩) ⟨0, floodOp k ip⟩ := by
    refine ⟨?_, (flood_run hen hv hk hlong hb hc 0 m hstart).1, hcount, fun s hs => ?_, ?_, ?_⟩
    · rw [List.nil_append, ← List.replicate_succ', List.map_replicate]
      exact List.pairwise_replicate.mpr (.inr (le_refl _))
    · rw [hreports] at hs
      rw [(List.mem_replicate.mp hs).2, sub_self]
      exact Int.natCast_nonneg _
    · rw [← List.replicate_succ', hreports, List.length_replicate, hm]
    · intro st es st' es' hrun hrun'
      obtain ⟨rfl, -⟩ := Prod.mk.inj (Option.some.inj hrun)
      obtain ⟨-, rfl⟩ := (flood_run hen hv hk hlong hb hc 0 m hstart).2 _ _ hrun'
      exact fun e he => absurd he List.not_mem_nil
  obtain ⟨st, es, hrun, hbanned⟩ := hall k ip.text _ _ _ hburst
  rw [List.nil_append, ← List.replicate_succ'] at hrun
  obtain ⟨h, -⟩ := (flood_run hen hv hk hlong hb hc 0 (m + 1) hstart).2 _ _ hrun
  have hip : k.ofIp = true := by
    rcases hk with rfl | rfl <;> rfl
  rw [BannedAt, if_pos hip, banIsBanned, h.bans, hfree] at hbanned
  split_ifs at hbanned

end Flood

/-- A hub that bans nobody and tracks nobody yet. -/
lemma banConfigApply_oneSource (config : HybbxConfig) (now : ℤ) (ip : Bytes) (k : Tracker) :
    OneSource (banConfigApply config freshState now) ip k (banConfigApply config freshState now) := by
  obtain ⟨-, ht, -, -⟩ := banConfigApply_spec config now
  refine ⟨rfl, rfl, fun k' => ?_, fun k' => ?_, fun k' key hl => ?_, ?_⟩
  · rw [ht]
    exact unique_emptyTable _ _ _
  · rw [ht]
    exact List.length_replicate
  · rw [ht] at hl
    exact absurd (freshState_tracks k' key) hl
  · rw [stampsOf, stampsIn, ht, freshState_tracks]
    exact Nat.zero_le _

lemma banConfigApply_good (config : HybbxConfig) (now : ℤ) :
    Good (banConfig config) (banConfigApply config freshState now) := by
  obtain ⟨hb, ht, hu, -⟩ := banConfigApply_spec config now
  refine ⟨⟨?_, hu, fun k => ?_⟩, fun k key => ?_⟩
  · rw [hb]
    exact unique_emptyTable _ _ _
  · rw [ht]
    exact unique_emptyTable _ _ _
  · have hempty : stampsOf (banConfigApply config freshState now) k key = [] := by
      rw [stampsOf, stampsIn, ht, freshState_tracks]
      rfl
    have hpos : 1 ≤ k.retries (banConfig config) := by
      cases k with
      | fails => exact maxretry_pos config
      | abuse => exact abuseMaxretry_pos config
      | callidFails => exact maxretry_pos config
      | callidAbuse => exact abuseMaxretry_pos config
    rw [hempty]
    exact hpos

def floodSource : RemoteAddr := ⟨ofString "10.0.0.9", by decide⟩

/-- Every burst ends in a ban exactly if neither threshold exceeds the five stamps of an address entry. -/
theorem threshold_complete_iff (config : HybbxConfig) (now : ℤ) (hen : (banConfig config).enabled = true)
    (hbt : 1 ≤ (banConfig config).bantimeSec) :
    ThresholdComplete (banConfig config) (banConfigApply config freshState now) ↔
      (banConfig config).maxretry ≤ 5 ∧ (banConfig config).abuseMaxretry ≤ 5 := by
  rw [← show defaultMaxretry = 5 from rfl, ← short_iff]
  constructor
  · intro hall k
    by_contra hlong
    obtain ⟨k', hk', hlong'⟩ : ∃ k', (k' = Tracker.fails ∨ k' = .abuse) ∧
        defaultMaxretry < k'.retries (banConfig config) := by
      cases k with
      | fails => exact ⟨.fails, .inl rfl, not_le.mp hlong⟩
      | abuse => exact ⟨.abuse, .inr rfl, not_le.mp hlong⟩
      | callidFails => exact ⟨.fails, .inl rfl, not_le.mp hlong⟩
      | callidAbuse => exact ⟨.abuse, .inr rfl, not_le.mp hlong⟩
    obtain ⟨hb, -, -, hc⟩ := banConfigApply_spec config now
    have hfree : (banConfigApply config freshState now).bans.HasFree := by
      rw [hb]
      exact freshState_bans_hasFree
    have hnone : (banConfigApply config freshState now).bans.lookup floodSource.text = none := by
      rw [hb]
      exact freshState_bans _
    exact not_complete_of_long hen (by decide) hk' hlong' hfree hc
      (banConfigApply_oneSource config now floodSource.text k') hnone hall
  · intro hs
    exact complete_of_short hs hbt (banConfigApply_good config now)

theorem threshold_complete_iff_defaults :
    ThresholdComplete (banConfig []) (banConfigApply [] freshState 0) ↔
      (banConfig []).maxretry ≤ 5 ∧ (banConfig []).abuseMaxretry ≤ 5 :=
  threshold_complete_iff [] 0 (by decide) (by decide)

def patientConfig : HybbxConfig :=
  [⟨ofString "security", ofString "maxretry", ofString "6"⟩,
    ⟨ofString "security", ofString "abuse_maxretry", ofString "5"⟩]

/-- Six failed logins at one instant do not reach a threshold of six. -/
theorem six_failures_not_banned :
    configLoad (ofString "[security]\nmaxretry = 6\nabuse_maxretry = 5\n") = .ok patientConfig ∧
      (banConfig patientConfig).maxretry = 6 ∧
      ¬ThresholdComplete (banConfig patientConfig) (banConfigApply patientConfig freshState 0) := by
  refine ⟨by decide, by decide, ?_⟩
  obtain ⟨hb, -, -, hc⟩ := banConfigApply_spec patientConfig 0
  have hfree : (banConfigApply patientConfig freshState 0).bans.HasFree := by
    rw [hb]
    exact freshState_bans_hasFree
  apply @not_complete_of_long _ (by decide) floodSource (by decide) .fails (.inl rfl) (by decide) _ hfree hc
    (banConfigApply_oneSource patientConfig 0 _ .fails)
  rw [hb]
  exact freshState_bans _

end HyBBX.Security
