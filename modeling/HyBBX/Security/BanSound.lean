import HyBBX.Security.Admission

/-! Bans of addresses without a cause: every ban that stands was earned in the window before it, unless a stamp was
written behind its array. -/

namespace HyBBX.Security

open HyBBX.Core Lib Lib.Bytes Lib.Text Config

/-- The states a run can end in. Nothing holds of the tables behind a call that writes behind an array. -/
inductive SecurityRuns (cfg : SecurityCfg) : SecurityState → List TimedOp → SecurityState → Prop
  | done (st : SecurityState) : SecurityRuns cfg st [] st
  | call {st st' last : SecurityState} {c : TimedOp} {cs : List TimedOp} {es : List BanEvent} :
      securityStep cfg st c.now c.op = some (st', es) → SecurityRuns cfg st' cs last →
        SecurityRuns cfg st (c :: cs) last
  | stray {st last : SecurityState} {c : TimedOp} {cs : List TimedOp} :
      securityStep cfg st c.now c.op = none → SecurityRuns cfg st (c :: cs) last

/-- The times in the window that ends at `final`. -/
def countWithin (window : ℕ) (final : ℤ) (ts : List ℤ) : ℕ := ts.countP fun s => s ≤ final ∧ final - s ≤ window

/-- The call `c` behind the calls `past` finds the address at one of the three limits. -/
def LimitReached (cfg : SecurityCfg) (start : SecurityState) (past : List TimedOp) (c : TimedOp) (ip : Bytes) : Prop :=
  cfg.maxretry ≤ countWithin cfg.findtimeSec c.now (reports cfg .fails ip (past ++ [c])) ∨
    cfg.abuseMaxretry ≤ countWithin cfg.abuseFindtimeSec c.now (reports cfg .abuse ip (past ++ [c])) ∨
      1 ≤ cfg.rateLimit ∧ cfg.rateLimit ≤ countWithin cfg.rateWindowSec c.now (admissions cfg ip start past)

/-- A ban until `expireAt` that a call of the run has set with a cause. -/
def Earned (cfg : SecurityCfg) (start : SecurityState) (past : List TimedOp) (ip : Bytes) (expireAt : ℤ) : Prop :=
  ∃ before c behind, past = before ++ c :: behind ∧ expireAt = c.now + cfg.bantimeSec ∧
    LimitReached cfg start before c ip

/-- Wherever the run can end, no address has two bans, and one that is banned has reached a limit in the last `bantime`. -/
def BanSound (cfg : SecurityCfg) (start : SecurityState) (cs : List TimedOp) : Prop :=
  ∀ st, SecurityRuns cfg start cs st → st.bans.Unique ∧ ∀ ip t, (banIsBanned cfg st ip t).2 = true →
    ∃ before c behind, cs = before ++ c :: behind ∧ t - c.now < cfg.bantimeSec ∧ LimitReached cfg start before c ip

/-- What the tables say about a run up to now. -/
structure Backed (cfg : SecurityCfg) (start : SecurityState) (past : List TimedOp) (st : SecurityState) : Prop where
  tables : TablesUnique st
  rates : st.rates.Unique
  stamps : ∀ k key, (stampsOf st k key).Sublist (reports cfg k key past)
  admitted : ∀ ip, (rateStampsOf st ip).Sublist (admissions cfg ip start past)
  earned : ∀ ip expireAt, st.bans.lookup ip = some expireAt → Earned cfg start past ip expireAt

section Lists

variable {cfg : SecurityCfg}

lemma reports_concat (k : Tracker) (key : Bytes) (past : List TimedOp) (c : TimedOp) :
    reports cfg k key (past ++ [c]) = reports cfg k key past ++ if counts cfg k key c then [c.now] else [] := by
  rw [reports, List.filter_append, List.map_append, ← reports]
  congr 1
  by_cases h : counts cfg k key c = true
  · rw [if_pos h, List.filter_singleton, h]
    rfl
  · rw [if_neg h, List.filter_singleton, Bool.eq_false_iff.mpr h]
    rfl

lemma admissions_concat {start st : SecurityState} {past : List TimedOp} {es : List BanEvent} (ip : Bytes) (c : TimedOp)
    (hrun : securityRun cfg start past = some (st, es)) :
    admissions cfg ip start (past ++ [c]) = admissions cfg ip start past ++
      if Security.admitted cfg st ip c then [c.now] else [] := by
  induction past generalizing start es with
  | nil =>
    obtain ⟨rfl, -⟩ := Prod.mk.inj (Option.some.inj hrun)
    rw [List.nil_append, admissions, admissions, List.nil_append]
    cases securityStep cfg start c.now c.op with
    | none => exact List.append_nil _
    | some r => exact List.append_nil _
  | cons d past ih =>
    rw [securityRun] at hrun
    simp only [Option.bind_eq_bind, Option.bind_eq_some_iff] at hrun
    obtain ⟨⟨st₁, es₁⟩, hstep, ⟨st₂, es₂⟩, hrest, he⟩ := hrun
    obtain ⟨rfl, -⟩ := Prod.mk.inj (Option.some.inj he)
    rw [List.cons_append, admissions, admissions, hstep]
    dsimp only
    rw [ih hrest, List.append_assoc]

lemma pruneWindow_sublist (window : ℕ) (now : ℤ) (stamps : List ℤ) : (pruneWindow window now stamps).Sublist stamps :=
  List.filter_sublist

lemma pushStamp_sublist {k : Tracker} {stamps stamps' : List ℤ} {now : ℤ} (h : pushStamp k stamps now = some stamps') :
    stamps'.Sublist (stamps ++ [now]) := by
  rw [pushStamp] at h
  split_ifs at h
  · rw [Option.some.inj h]
  · rw [← Option.some.inj h]
    exact (List.tail_sublist stamps).append (List.Sublist.refl [now])

/-- Only the stamps of abuse reports can leave their array. -/
lemma pushStamp_none {k : Tracker} {stamps : List ℤ} {now : ℤ} (h : pushStamp k stamps now = none) :
    k = .abuse ∧ defaultMaxretry ≤ stamps.length := by
  rw [pushStamp] at h
  split_ifs at h with hlim hcap
  have hcap := not_lt.mp hcap
  cases k with
  | fails => exact absurd (hlim.trans_le hcap) (lt_irrefl _)
  | abuse => exact ⟨rfl, hcap⟩
  | callidFails => exact absurd (hcap.trans_lt hlim) (by decide)
  | callidAbuse => exact absurd (hlim.trans_le hcap) (lt_irrefl _)

lemma pushStamp_full {stamps : List ℤ} (hlong : defaultMaxretry ≤ stamps.length)
    (hlim : stamps.length < Tracker.abuse.limit) (now : ℤ) : pushStamp .abuse stamps now = none := by
  have hcap : ¬stamps.length < Tracker.abuse.capacity := not_lt.mpr hlong
  rw [pushStamp, if_pos hlim, if_neg hcap]

lemma length_le_countWithin {window : ℕ} {final : ℤ} {stamps ts : List ℤ} (hsub : stamps.Sublist ts)
    (hwindow : ∀ s ∈ stamps, final - s ≤ window) (hpast : ∀ s ∈ ts, s ≤ final) :
    stamps.length ≤ countWithin window final ts := by
  have hall : countWithin window final stamps = stamps.length := by
    rw [countWithin, List.countP_eq_length]
    intro s hs
    exact decide_eq_true ⟨hpast s (hsub.subset hs), hwindow s hs⟩
  rw [← hall]
  exact hsub.countP_le

end Lists

section Bans

variable {cfg : SecurityCfg} {st : SecurityState} (h : st.bans.Unique)

include h

lemma applyBanLocked_bans (ip reason : Bytes) (now : ℤ) {key : Bytes} {expireAt : ℤ}
    (hl : (applyBanLocked cfg st ip reason now).1.bans.lookup key = some expireAt) :
    key = ip ∧ expireAt = now + cfg.bantimeSec ∨ st.bans.lookup key = some expireAt := by
  rw [applyBanLocked] at hl
  by_cases hfull : st.bans.lookup ip = none ∧ st.bans.free = none
  · rw [if_pos hfull] at hl
    exact .inr hl
  · rw [if_neg hfull] at hl
    dsimp only at hl
    rw [(SlotTable.put_spec h (SlotTable.room_iff.mp hfull) _).2] at hl
    split_ifs at hl with hk
    · exact .inl ⟨hk, (Option.some.inj hl).symm⟩
    · exact .inr hl

lemma banIsBanned_bans (ip : Bytes) (now : ℤ) :
    (banIsBanned cfg st ip now).1.bans.Unique ∧
      ∀ key expireAt, (banIsBanned cfg st ip now).1.bans.lookup key = some expireAt →
          st.bans.lookup key = some expireAt := by
  have hsame : st.bans.Unique ∧ ∀ key expireAt, st.bans.lookup key = some expireAt →
    st.bans.lookup key = some expireAt :=
    ⟨h, fun _ _ hl => hl⟩
  rw [banIsBanned]
  split_ifs
  · exact hsame
  · cases st.bans.lookup ip with
    | none => exact hsame
    | some e =>
      dsimp only
      split_ifs
      · exact hsame
      · refine ⟨(SlotTable.release_spec h ip).1, fun key expireAt hl => ?_⟩
        rw [(SlotTable.release_spec h ip).2] at hl
        split_ifs at hl
        exact hl

lemma quiet_bans {c : TimedOp} {st' : SecurityState} {es : List BanEvent} (hr : c.op.report cfg = none)
    (hop : ∀ ip, c.op ≠ .accept ip) (hstep : securityStep cfg st c.now c.op = some (st', es)) {key : Bytes}
    {expireAt : ℤ}
    (hl : st'.bans.lookup key = some expireAt) : st.bans.lookup key = some expireAt := by
  obtain ⟨now, op⟩ := c
  simp only [securityStep, hr] at hstep
  cases op with
  | accept ip => exact absurd rfl (hop ip)
  | isBanned ip =>
    obtain rfl := congrArg Prod.fst (Option.some.inj hstep)
    exact (banIsBanned_bans h ip.text now).2 key expireAt hl
  | callidIsBanned callid =>
    obtain rfl := congrArg Prod.fst (Option.some.inj hstep)
    have hsame : (banCallidIsBanned cfg st callid now).1.bans = st.bans := by
      rw [banCallidIsBanned]
      split_ifs
      · rfl
      · cases callidNormalize callid callidMax with
        | none => rfl
        | some norm =>
          dsimp only
          rw [callidIsBannedLocked]
          cases st.callidBans.lookup norm with
          | none => rfl
          | some ban =>
            dsimp only
            split_ifs <;> rfl
    rw [← hsame]
    exact hl
  | tick =>
    obtain rfl := congrArg Prod.fst (Option.some.inj hstep)
    dsimp only at hl
    rw [banTick] at hl
    split_ifs at hl
    · exact hl
    · dsimp only at hl
      rw [(SlotTable.sweep_spec h _).2] at hl
      obtain ⟨e, he, hkept⟩ := Option.bind_eq_some_iff.mp hl
      split_ifs at hkept
      rw [he, Option.some.inj hkept]
  | _ =>
    obtain rfl := congrArg Prod.fst (Option.some.inj hstep)
    exact hl

end Bans

section Accept

variable {cfg : SecurityCfg} {st : SecurityState} {ip : Bytes} {now : ℤ}

def rateKept (cfg : SecurityCfg) (st : SecurityState) (ip : Bytes) (now : ℤ) : List ℤ :=
  pruneWindow cfg.rateWindowSec now (rateStampsOf st ip)

/-- What a connection leads to: security is off, no stamp is taken, the limit is reached, or one stamp is taken. -/
lemma banAccept_cases (cfg : SecurityCfg) (st : SecurityState) (ip : Bytes) (now : ℤ) :
    banAccept cfg st ip now = (st, true, []) ∨ (∃ b, banAccept cfg st ip now = ((banIsBanned cfg st ip now).1, b, [])) ∨
      (1 ≤ cfg.rateLimit ∧ rateKept cfg st ip now ≠ [] ∧ cfg.rateLimit ≤ (rateKept cfg st ip now).length ∧ ∃ es,
        banAccept cfg st ip now = ((applyBanLocked cfg { (banIsBanned cfg st ip now).1 with
          rates := st.rates.put ip (rateKept cfg st ip now) } ip (ofString "rate_limit") now).1, false, es)) ∨
        banAccept cfg st ip now = (recordRateLocked cfg (banIsBanned cfg st ip now).1 ip now, true, []) := by
  have hrates := @banIsBanned_rates cfg st ip now
  rw [banAccept]
  by_cases hoff : cfg.enabled = false ∨ ipValid ip = false
  · exact .inl (if_pos hoff)
  rw [if_neg hoff]
  dsimp only
  by_cases hbanned : (banIsBanned cfg st ip now).2 = true
  · exact .inr (.inl ⟨false, if_pos hbanned⟩)
  rw [if_neg hbanned]
  by_cases hnone : cfg.rateLimit = 0 ∨ cfg.rateWindowSec = 0
  · exact .inr (.inl ⟨true, if_pos hnone⟩)
  rw [if_neg hnone, hrates, ← stampsIn, ← rateStampsOf, ← rateKept]
  by_cases hfull : rateKept cfg st ip now ≠ [] ∧ cfg.rateLimit ≤ (rateKept cfg st ip now).length
  · rw [if_pos hfull]
    have hpos : 1 ≤ cfg.rateLimit := by omega
    exact .inr (.inr (.inl ⟨hpos, hfull.1, hfull.2, _, rfl⟩))
  · exact .inr (.inr (.inr (if_neg hfull)))

lemma rateStampsOf_congr {st' : SecurityState} (h : st'.rates = st.rates) (key : Bytes) :
    rateStampsOf st' key = rateStampsOf st key := by
  rw [rateStampsOf, h, rateStampsOf]

lemma pushRate_sublist (kept : List ℤ) (now : ℤ) : (pushRate kept now).Sublist (kept ++ [now]) := by
  rw [pushRate]
  split_ifs
  · exact List.Sublist.refl _
  · exact List.sublist_append_left _ _

/-- A connection that is let in leaves at most its own stamp, and a refused one none. -/
lemma banAccept_stamps (h : st.rates.Unique) (key : Bytes) :
    (banAccept cfg st ip now).1.rates.Unique ∧ (rateStampsOf (banAccept cfg st ip now).1 key).Sublist
      (rateStampsOf st key ++ if ip = key ∧ (banAccept cfg st ip now).2.1 = true then [now] else []) := by
  have hrates := @banIsBanned_rates cfg st ip now
  have hkept : (rateKept cfg st ip now).Sublist (rateStampsOf st ip) := pruneWindow_sublist ..
  rcases banAccept_cases cfg st ip now with he | ⟨b, he⟩ | ⟨-, hne, -, es, he⟩ | he
  · rw [he]
    exact ⟨h, List.sublist_append_left _ _⟩
  · rw [he, rateStampsOf_congr hrates]
    exact ⟨hrates ▸ h, List.sublist_append_left _ _⟩
  · have hlookup : st.rates.lookup ip ≠ none := by
      intro hn
      apply hne
      rw [rateKept, rateStampsOf, stampsIn, hn]
      rfl
    obtain ⟨hu, hput⟩ := SlotTable.put_spec h (.inl hlookup) (rateKept cfg st ip now)
    rw [he, rateStampsOf, applyBanLocked_rates, stampsIn, hput]
    refine ⟨hu, List.Sublist.trans ?_ (List.sublist_append_left _ _)⟩
    split_ifs with hk
    · rw [hk]
      exact hkept
    · exact List.Sublist.refl _
  · rw [he]
    have hu : (banIsBanned cfg st ip now).1.rates.Unique := hrates ▸ h
    by_cases hroom : RateRoom (banIsBanned cfg st ip now).1 ip
    · obtain ⟨hu', hrec⟩ := @recordRate_spec cfg _ hu ip hroom now
      refine ⟨hu', ?_⟩
      rw [hrec, rateStampsOf_congr hrates, rateStampsOf_congr hrates]
      by_cases hk : key = ip
      · subst hk
        rw [if_pos rfl, if_pos ⟨rfl, rfl⟩]
        exact (pushRate_sublist _ now).trans (hkept.append (List.Sublist.refl [now]))
      · rw [if_neg hk]
        exact List.sublist_append_left _ _
    · have hsame : recordRateLocked cfg (banIsBanned cfg st ip now).1 ip now = (banIsBanned cfg st ip now).1 := by
        rw [recordRateLocked, if_pos (not_not.mp fun hn => hroom (SlotTable.room_iff.mp hn))]
      rw [hsame, rateStampsOf_congr hrates]
      exact ⟨hu, List.sublist_append_left _ _⟩

lemma banAccept_bans (h : st.bans.Unique) {key : Bytes} {expireAt : ℤ}
    (hl : (banAccept cfg st ip now).1.bans.lookup key = some expireAt) :
    st.bans.lookup key = some expireAt ∨ key = ip ∧ expireAt = now + cfg.bantimeSec ∧ 1 ≤ cfg.rateLimit ∧
      cfg.rateLimit ≤ (rateKept cfg st ip now).length := by
  obtain ⟨hu, hb⟩ := @banIsBanned_bans cfg st h ip now
  rcases banAccept_cases cfg st ip now with he | ⟨b, he⟩ | ⟨hpos, -, hfull, es, he⟩ | he
  · rw [he] at hl
    exact .inl hl
  · rw [he] at hl
    exact .inl (hb key expireAt hl)
  · rw [he] at hl
    rcases applyBanLocked_bans (by exact hu) ip _ now hl with ⟨hk, hexp⟩ | hold
    · exact .inr ⟨hk, hexp, hpos, hfull⟩
    · exact .inl (hb key expireAt hold)
  · have hsame : (recordRateLocked cfg (banIsBanned cfg st ip now).1 ip now).bans =
        (banIsBanned cfg st ip now).1.bans := by
      rw [recordRateLocked]
      split_ifs <;> rfl
    rw [he] at hl
    exact .inl (hb key expireAt (hsame ▸ hl))

end Accept

section Step

variable {cfg : SecurityCfg} {start st st' : SecurityState} {past : List TimedOp}

/-- A report either finds no slot or leaves its stamp, and is then told whether that is enough. -/
lemma recordStamp_cases {k : Tracker} {t t' : TrackTable} {key : Bytes} {now : ℤ} {reached : Bool} (h : t.Unique)
    (hrec : recordStamp cfg k t key now = some (t', reached)) :
    (t' = t ∧ reached = false) ∨ ∃ stamps, pushStamp k (pruneWindow (k.window cfg) now (stampsIn t key)) now =
      some stamps ∧
      reached = decide (k.retries cfg ≤ stamps.length) ∧ t'.Unique ∧ ∀ key', stampsIn t' key' =
        if key' = key then if k.retries cfg ≤ stamps.length then [] else stamps else stampsIn t key' := by
  by_cases hroom : t.lookup key ≠ none ∨ t.HasFree
  · cases hp : pushStamp k (pruneWindow (k.window cfg) now (stampsIn t key)) now with
    | none =>
      rw [recordStamp_none hroom hp] at hrec
      exact absurd hrec (by simp)
    | some stamps =>
      obtain ⟨u, hu, hun, -, hl⟩ := recordStamp_spec h hroom hp
      obtain ⟨rfl, rfl⟩ := Prod.mk.inj (Option.some.inj (hu.symm.trans hrec))
      refine .inr ⟨stamps, rfl, rfl, hun, fun key' => ?_⟩
      rw [stampsIn, hl, stampsIn]
      split_ifs <;> rfl
  · rw [recordStamp, if_pos (not_not.mp fun hn => hroom (SlotTable.room_iff.mp hn))] at hrec
    obtain ⟨rfl, rfl⟩ := Prod.mk.inj (Option.some.inj hrec)
    exact .inl ⟨rfl, rfl⟩

lemma Earned.mono {ip : Bytes} {expireAt : ℤ} (h : Earned cfg start past ip expireAt) (c : TimedOp) :
    Earned cfg start (past ++ [c]) ip expireAt := by
  obtain ⟨before, d, behind, rfl, hd⟩ := h
  exact ⟨before, d, behind ++ [c], by simp, hd⟩

lemma banFor_bans (h : st.bans.Unique) {k : Tracker} {key reason : Bytes} {now : ℤ} :
    (banFor cfg k st key reason now).1.bans.Unique ∧ ∀ ip expireAt,
      (banFor cfg k st key reason now).1.bans.lookup ip = some expireAt →
        st.bans.lookup ip = some expireAt ∨ k.ofIp = true ∧ ip = key ∧ expireAt = now + cfg.bantimeSec := by
  rw [banFor]
  split_ifs with hk
  · refine ⟨?_, fun ip expireAt hl => ?_⟩
    · rw [applyBanLocked]
      split_ifs
      · exact h
      · exact SlotTable.unique_put h _ _
    · rcases applyBanLocked_bans h key reason now hl with ⟨hip, he⟩ | hold
      · exact .inr ⟨hk, hip, he⟩
      · exact .inl hold
  · have hsame : (applyCallidBanLocked cfg st key reason now false).1.bans = st.bans := by
      rw [applyCallidBanLocked]
      split_ifs <;> rfl
    rw [hsame]
    exact ⟨h, fun ip expireAt hl => .inl hl⟩

lemma banFor_tables (h : TablesUnique st) {k : Tracker} {key reason : Bytes} {now : ℤ} :
    TablesUnique (banFor cfg k st key reason now).1 ∧ (banFor cfg k st key reason now).1.tracks = st.tracks := by
  rw [banFor]
  split_ifs
  · exact applyBanLocked_tracks h key reason now
  · rw [applyCallidBanLocked]
    by_cases hfull : st.callidBans.lookup key = none ∧ st.callidBans.free = none
    · rw [if_pos hfull]
      exact ⟨h, rfl⟩
    · rw [if_neg hfull]
      exact ⟨⟨h.1, SlotTable.unique_put h.2.1 _ _, h.2.2⟩, rfl⟩

/-- A report that is enough has as many reports of its subject behind it. -/
lemma limitReached_of_report {k : Tracker} {key reason : Bytes} {c : TimedOp} {stamps : List ℤ}
    (hr : c.op.report cfg = some (k, key, reason)) (hip : k.ofIp = true)
    (hsub : (stampsOf st k key).Sublist (reports cfg k key past)) (hpast : ∀ d ∈ past, d.now ≤ c.now)
    (hp : pushStamp k (pruneWindow (k.window cfg) c.now (stampsOf st k key)) c.now = some stamps)
    (hreach : k.retries cfg ≤ stamps.length) : LimitReached cfg start past c key := by
  have hcount : counts cfg k key c = true := counts_iff.mpr ⟨reason, hr⟩
  have hall : stamps.Sublist (reports cfg k key (past ++ [c])) := by
    rw [reports_concat, if_pos hcount]
    exact (pushStamp_sublist hp).trans (((pruneWindow_sublist ..).trans hsub).append (List.Sublist.refl _))
  have hrecent : ∀ s ∈ stamps, c.now - s ≤ k.window cfg := by
    intro s hs
    rcases List.mem_append.mp ((pushStamp_sublist hp).subset hs) with hkept | hnow
    · exact of_decide_eq_true (List.mem_filter.mp hkept).2
    · rw [List.mem_singleton.mp hnow, sub_self]
      exact Int.natCast_nonneg _
  have hbehind : ∀ s ∈ reports cfg k key (past ++ [c]), s ≤ c.now := by
    intro s hs
    obtain ⟨d, hd, rfl⟩ := List.mem_map.mp hs
    rcases List.mem_append.mp (List.mem_filter.mp hd).1 with hd | hd
    · exact hpast d hd
    · rw [List.mem_singleton.mp hd]
  have hle := hreach.trans (length_le_countWithin hall hrecent hbehind)
  cases k with
  | fails => exact .inl hle
  | abuse => exact .inr (.inl hle)
  | callidFails => exact absurd hip Bool.false_ne_true
  | callidAbuse => exact absurd hip Bool.false_ne_true

lemma admissions_past {ip : Bytes} {t : ℤ} (h : t ∈ admissions cfg ip start past) : ∃ d ∈ past, d.now = t := by
  induction past generalizing start with
  | nil => exact absurd h List.not_mem_nil
  | cons c cs ih =>
    rw [admissions] at h
    rcases List.mem_append.mp h with hc | hrest
    · split_ifs at hc
      · exact ⟨c, List.mem_cons_self, (List.mem_singleton.mp hc).symm⟩
      · exact absurd hc List.not_mem_nil
    · cases hstep : securityStep cfg start c.now c.op with
      | none =>
        rw [hstep] at hrest
        exact absurd hrest List.not_mem_nil
      | some r =>
        rw [hstep] at hrest
        obtain ⟨d, hd, he⟩ := ih hrest
        exact ⟨d, List.mem_cons_of_mem c hd, he⟩

/-- A connection that is refused at the limit has as many admissions of its address behind it. -/
lemma limitReached_of_rate {ip : Bytes} {c : TimedOp}
    (hsub : (rateStampsOf st ip).Sublist (admissions cfg ip start past))
    (hpast : ∀ d ∈ past, d.now ≤ c.now) (hpos : 1 ≤ cfg.rateLimit)
    (hfull : cfg.rateLimit ≤ (rateKept cfg st ip c.now).length) :
    LimitReached cfg start past c ip := by
  refine .inr (.inr ⟨hpos, hfull.trans (length_le_countWithin ((pruneWindow_sublist ..).trans hsub) ?_ ?_)⟩)
  · intro s hs
    exact of_decide_eq_true (List.mem_filter.mp hs).2
  · intro s hs
    obtain ⟨d, hd, rfl⟩ := admissions_past hs
    exact hpast d hd

lemma report_backed {c : TimedOp} {es : List BanEvent} {k : Tracker} {key reason : Bytes} (h : Backed cfg start past st)
    (hpast : ∀ d ∈ past, d.now ≤ c.now) (hr : c.op.report cfg = some (k, key, reason))
    (hstep : securityStep cfg st c.now c.op = some (st', es)) :
    TablesUnique st' ∧ (∀ k key, (stampsOf st' k key).Sublist (reports cfg k key (past ++ [c]))) ∧
      ∀ ip expireAt, st'.bans.lookup ip = some expireAt → Earned cfg start (past ++ [c]) ip expireAt := by
  simp only [securityStep, hr, recordLocked] at hstep
  cases hrec : recordStamp cfg k (st.tracks k) key c.now with
  | none =>
    rw [hrec] at hstep
    exact absurd hstep (by simp)
  | some q =>
    obtain ⟨t, reached⟩ := q
    rw [hrec] at hstep
    have hold : ∀ k' key', (stampsOf st k' key').Sublist (reports cfg k' key' (past ++ [c])) := by
      intro k' key'
      rw [reports_concat]
      exact (h.stamps k' key').trans (List.sublist_append_left _ _)
    have hmid : TablesUnique (st.setTrack k t) ∧
        (∀ k' key', (stampsOf (st.setTrack k t) k' key').Sublist (reports cfg k' key' (past ++ [c]))) ∧
          (reached = true → k.ofIp = true → LimitReached cfg start past c key) := by
      rcases recordStamp_cases (h.tables.2.2 k) hrec with ⟨rfl, rfl⟩ | ⟨stamps, hp, rfl, hun, hst⟩
      · refine ⟨tablesUnique_setTrack h.tables k (h.tables.2.2 k), fun k' key' => ?_, fun hh => absurd hh (by simp)⟩
        rw [stampsOf_setTrack]
        split_ifs with hk
        · rw [hk]
          exact hold k key'
        · exact hold k' key'
      · refine ⟨tablesUnique_setTrack h.tables k hun, fun k' key' => ?_, fun hreach hip => ?_⟩
        · rw [stampsOf_setTrack]
          split_ifs with hk
          · subst hk
            rw [hst key']
            split_ifs with hkey
            · exact List.nil_sublist _
            · subst hkey
              rw [reports_concat, if_pos (counts_iff.mpr ⟨reason, hr⟩)]
              exact (pushStamp_sublist hp).trans
                (((pruneWindow_sublist ..).trans (h.stamps k' key')).append (List.Sublist.refl _))
            · exact hold k' key'
          · exact hold k' key'
        · exact limitReached_of_report hr hip (h.stamps k key) hpast hp (of_decide_eq_true hreach)
    obtain ⟨htables, hstamps, hlimit⟩ := hmid
    have hnone : ∀ ip expireAt, st.bans.lookup ip = some expireAt → Earned cfg start (past ++ [c]) ip expireAt :=
      fun ip expireAt hl => (h.earned ip expireAt hl).mono c
    obtain he := congrArg Prod.fst (Option.some.inj hstep)
    dsimp only at he
    subst he
    split_ifs with hreach
    · obtain ⟨hu, htr⟩ := @banFor_tables cfg _ htables k key reason c.now
      refine ⟨hu, fun k' key' => ?_, fun ip expireAt hl => ?_⟩
      · rw [stampsOf, htr]
        exact hstamps k' key'
      · obtain ⟨-, hb⟩ := @banFor_bans cfg _ htables.1 k key reason c.now
        rcases hb ip expireAt hl with hbefore | ⟨hip, rfl, hexp⟩
        · exact hnone ip expireAt hbefore
        · exact ⟨past, c, [], rfl, hexp, hlimit hreach hip⟩
    · exact ⟨htables, hstamps, hnone⟩

lemma step_rateStamps {c : TimedOp} {es es₀ : List BanEvent} (h : Backed cfg start past st)
    (hrun : securityRun cfg start past = some (st, es₀)) (hstep : securityStep cfg st c.now c.op = some (st', es)) :
    st'.rates.Unique ∧ ∀ ip, (rateStampsOf st' ip).Sublist (admissions cfg ip start (past ++ [c])) := by
  have hold : ∀ ip, (rateStampsOf st ip).Sublist (admissions cfg ip start (past ++ [c])) := by
    intro ip
    rw [admissions_concat ip c hrun]
    exact (h.admitted ip).trans (List.sublist_append_left _ _)
  by_cases hop : ∃ source, c.op = .accept source
  · obtain ⟨source, hsource⟩ := hop
    rw [hsource] at hstep
    obtain rfl : (banAccept cfg st source.text c.now).1 = st' := congrArg Prod.fst (Option.some.inj hstep)
    refine ⟨(banAccept_stamps h.rates []).1, fun ip => ?_⟩
    rw [admissions_concat ip c hrun]
    refine (banAccept_stamps h.rates ip).2.trans ?_
    have hsame : (source.text = ip ∧ (banAccept cfg st source.text c.now).2.1 = true) ↔
        Security.admitted cfg st ip c = true := by
      simp [Security.admitted, hsource]
    rw [if_congr hsame rfl rfl]
    exact (h.admitted ip).append (List.Sublist.refl _)
  · obtain ⟨hu, hst⟩ := other_rates h.rates (fun source hh => hop ⟨source, hh⟩) hstep
    refine ⟨hu, fun ip => ?_⟩
    rcases hst ip with he | he
    · rw [he]
      exact hold ip
    · rw [he]
      exact (pruneWindow_sublist ..).trans (hold ip)

lemma other_backed {c : TimedOp} {es : List BanEvent} (h : Backed cfg start past st) (hpast : ∀ d ∈ past, d.now ≤ c.now)
    (hr : c.op.report cfg = none) (hstep : securityStep cfg st c.now c.op = some (st', es)) :
    TablesUnique st' ∧ (∀ k key, (stampsOf st' k key).Sublist (reports cfg k key (past ++ [c]))) ∧
      ∀ ip expireAt, st'.bans.lookup ip = some expireAt → Earned cfg start (past ++ [c]) ip expireAt := by
  obtain ⟨st₁, es₁, hstep₁, htables, hst⟩ := other_step h.tables c.now hr
  obtain ⟨rfl, -⟩ := Prod.mk.inj (Option.some.inj (hstep.symm.trans hstep₁))
  refine ⟨htables, fun k key => ?_, fun ip expireAt hl => ?_⟩
  · rw [reports_concat]
    have hold := (h.stamps k key).trans (List.sublist_append_left _ (if counts cfg k key c then [c.now] else []))
    rcases hst k key with he | he
    · rw [he]
      exact hold
    · rw [he]
      exact (pruneWindow_sublist ..).trans hold
  · by_cases hop : ∃ source, c.op = .accept source
    · obtain ⟨source, hsource⟩ := hop
      rw [hsource] at hstep
      obtain rfl : (banAccept cfg st source.text c.now).1 = st' := congrArg Prod.fst (Option.some.inj hstep)
      rcases banAccept_bans h.tables.1 hl with hold | ⟨rfl, hexp, hpos, hfull⟩
      · exact (h.earned ip expireAt hold).mono c
      · exact ⟨past, c, [], rfl, hexp, limitReached_of_rate (h.admitted _) hpast hpos hfull⟩
    · have hold := quiet_bans h.tables.1 hr (fun source hh => hop ⟨source, hh⟩) hstep hl
      exact (h.earned ip expireAt hold).mono c

lemma step_backed {c : TimedOp} {es es₀ : List BanEvent} (h : Backed cfg start past st)
    (hrun : securityRun cfg start past = some (st, es₀)) (hpast : ∀ d ∈ past, d.now ≤ c.now)
    (hstep : securityStep cfg st c.now c.op = some (st', es)) : Backed cfg start (past ++ [c]) st' := by
  obtain ⟨hrates, hadmitted⟩ := step_rateStamps h hrun hstep
  cases hr : c.op.report cfg with
  | none =>
    obtain ⟨htables, hstamps, hearned⟩ := other_backed h hpast hr hstep
    exact ⟨htables, hrates, hstamps, hadmitted, hearned⟩
  | some r =>
    obtain ⟨k, key, reason⟩ := r
    obtain ⟨htables, hstamps, hearned⟩ := report_backed h hpast hr hstep
    exact ⟨htables, hrates, hstamps, hadmitted, hearned⟩

lemma run_backed (hstart : Backed cfg start [] start) {cs : List TimedOp} {es : List BanEvent}
    (hclock : (cs.map TimedOp.now).Pairwise (· ≤ ·)) (hrun : securityRun cfg start cs = some (st, es)) :
    Backed cfg start cs st := by
  induction cs using List.reverseRecOn generalizing st es with
  | nil =>
    obtain ⟨rfl, -⟩ := Prod.mk.inj (Option.some.inj hrun)
    exact hstart
  | append_singleton cs c ih =>
    rw [List.map_append, List.pairwise_append] at hclock
    rw [securityRun_append] at hrun
    obtain ⟨⟨st₀, es₀⟩, hbefore, hlast⟩ := Option.bind_eq_some_iff.mp hrun
    obtain ⟨⟨st₁, es₁⟩, hone, he⟩ := Option.map_eq_some_iff.mp hlast
    obtain rfl : st₁ = st := congrArg Prod.fst he
    simp only [securityRun, Option.bind_eq_bind, Option.bind_eq_some_iff] at hone
    obtain ⟨⟨st₂, es₂⟩, hstep, ⟨st₃, es₃⟩, hnil, he'⟩ := hone
    obtain rfl : st₂ = st₃ := congrArg Prod.fst (Option.some.inj hnil)
    obtain rfl : st₂ = st₁ := congrArg Prod.fst (Option.some.inj he')
    refine step_backed (ih hclock.1 hbefore) hbefore (fun d hd => ?_) hstep
    exact hclock.2.2 d.now (List.mem_map_of_mem hd) c.now (List.mem_singleton.mpr rfl)

/-- A run that stays in its arrays ends where the calls lead. -/
lemma SecurityRuns.of_run {cs : List TimedOp} {es : List BanEvent} (hrun : securityRun cfg start cs = some (st, es))
    (h : SecurityRuns cfg start cs st') : st' = st := by
  induction h generalizing es with
  | done st₀ => exact congrArg Prod.fst (Option.some.inj hrun)
  | call hstep _ ih =>
    rw [securityRun, hstep] at hrun
    simp only [Option.bind_eq_bind, Option.bind_some, Option.bind_eq_some_iff] at hrun
    obtain ⟨⟨st₂, es₂⟩, hrest, he⟩ := hrun
    obtain rfl : st₂ = st := congrArg Prod.fst (Option.some.inj he)
    exact ih hrest
  | stray hstep =>
    rw [securityRun, hstep] at hrun
    cases hrun

lemma sound_of_run (hstart : Backed cfg start [] start) {cs : List TimedOp}
    (hclock : (cs.map TimedOp.now).Pairwise (· ≤ ·))
    (hrun : securityRun cfg start cs ≠ none) : BanSound cfg start cs := by
  obtain ⟨⟨last, es⟩, hlast⟩ := Option.ne_none_iff_exists'.mp hrun
  intro st hst
  obtain rfl := SecurityRuns.of_run hlast hst
  have h := run_backed hstart hclock hlast
  refine ⟨h.tables.1, fun ip t hb => ?_⟩
  rw [banIsBanned] at hb
  split_ifs at hb
  cases hl : st.bans.lookup ip with
  | none =>
    rw [hl] at hb
    exact absurd hb Bool.false_ne_true
  | some expireAt =>
    rw [hl] at hb
    dsimp only at hb
    split_ifs at hb with hlt
    · obtain ⟨before, c, behind, hcs, rfl, hlimit⟩ := h.earned ip expireAt hl
      exact ⟨before, c, behind, hcs, by omega, hlimit⟩

lemma runs_of_stray {cs : List TimedOp} (hrun : securityRun cfg start cs = none) (last : SecurityState) :
    SecurityRuns cfg start cs last := by
  induction cs generalizing start with
  | nil => cases hrun
  | cons c cs ih =>
    cases hstep : securityStep cfg start c.now c.op with
    | none => exact .stray hstep
    | some r =>
      obtain ⟨st₁, es₁⟩ := r
      refine .call hstep (ih ?_)
      rw [securityRun, hstep] at hrun
      cases hrest : securityRun cfg st₁ cs with
      | none => rfl
      | some q =>
        simp only [Option.bind_eq_bind, Option.bind_some, hrest] at hrun
        cases hrun

lemma not_sound_of_stray {cs : List TimedOp} (hrun : securityRun cfg start cs = none) : ¬BanSound cfg start cs := by
  intro h
  have htwice := (h { start with bans := [⟨[], 0, true⟩, ⟨[], 0, true⟩] } (runs_of_stray hrun _)).1
  exact absurd (htwice 0 1 ⟨[], 0, true⟩ ⟨[], 0, true⟩ rfl rfl rfl rfl rfl) (by decide)

end Step

/-- No abuse report finds as many stamps of its address in the window as its array takes. -/
def Contained (cfg : SecurityCfg) : SecurityState → List TimedOp → Prop
  | _, [] => True
  | st, c :: cs =>
    (∀ ip reason, c.op.report cfg = some (.abuse, ip, reason) →
      (pruneWindow cfg.abuseFindtimeSec c.now (stampsOf st .abuse ip)).length < defaultMaxretry) ∧
      ∀ r, securityStep cfg st c.now c.op = some r → Contained cfg r.1 cs

section Contained

variable {cfg : SecurityCfg} {st st' : SecurityState}

/-- No entry for abuse holds more stamps than `bound`. -/
def AbuseWithin (bound : ℕ) (st : SecurityState) : Prop :=
  TablesUnique st ∧ ∀ key, (stampsOf st .abuse key).length ≤ bound

/-- A bound that one more stamp keeps, unless it bans, is kept by every call. -/
lemma step_abuseWithin {bound : ℕ} (h : AbuseWithin bound st) {now : ℤ} {op : SecurityOp} {es : List BanEvent}
    (hpush : ∀ stamps stamps' : List ℤ, stamps.length ≤ bound → pushStamp .abuse stamps now = some stamps' →
      stamps'.length < cfg.abuseMaxretry → stamps'.length ≤ bound)
    (hstep : securityStep cfg st now op = some (st', es)) : AbuseWithin bound st' := by
  cases hr : op.report cfg with
  | none =>
    obtain ⟨st₁, es₁, hstep₁, htables, hst⟩ := other_step h.1 now hr
    obtain ⟨rfl, -⟩ := Prod.mk.inj (Option.some.inj (hstep.symm.trans hstep₁))
    refine ⟨htables, fun key => ?_⟩
    rcases hst .abuse key with he | he
    · rw [he]
      exact h.2 key
    · rw [he]
      exact (length_pruneWindow_le ..).trans (h.2 key)
  | some r =>
    obtain ⟨k, key, reason⟩ := r
    simp only [securityStep, hr, recordLocked] at hstep
    cases hrec : recordStamp cfg k (st.tracks k) key now with
    | none =>
      rw [hrec] at hstep
      cases hstep
    | some q =>
      obtain ⟨t, reached⟩ := q
      rw [hrec] at hstep
      have hmid : AbuseWithin bound (st.setTrack k t) := by
        rcases recordStamp_cases (h.1.2.2 k) hrec with ⟨rfl, -⟩ | ⟨stamps, hp, -, hun, hst⟩
        · refine ⟨tablesUnique_setTrack h.1 k (h.1.2.2 k), fun key' => ?_⟩
          rw [stampsOf_setTrack]
          split_ifs with hk
          · rw [← hk]
            exact h.2 key'
          · exact h.2 key'
        · refine ⟨tablesUnique_setTrack h.1 k hun, fun key' => ?_⟩
          rw [stampsOf_setTrack]
          split_ifs with hk
          · subst hk
            rw [hst]
            split_ifs with hkey hreach
            · exact Nat.zero_le _
            · exact hpush _ _ ((length_pruneWindow_le ..).trans (h.2 key)) hp (not_le.mp hreach)
            · exact h.2 key'
          · exact h.2 key'
      obtain he := congrArg Prod.fst (Option.some.inj hstep)
      dsimp only at he
      subst he
      split_ifs
      · obtain ⟨hu, htr⟩ := @banFor_tables cfg _ hmid.1 k key reason now
        refine ⟨hu, fun key' => ?_⟩
        rw [stampsOf, htr]
        exact hmid.2 key'
      · exact hmid

/-- A call leaves an array exactly if it reports abuse of an address that has filled its own. -/
lemma step_eq_none_iff (h : AbuseWithin defaultMaxretry st) (now : ℤ) (op : SecurityOp) :
    securityStep cfg st now op = none ↔ ∃ ip reason, op.report cfg = some (.abuse, ip, reason) ∧
      defaultMaxretry ≤ (pruneWindow cfg.abuseFindtimeSec now (stampsOf st .abuse ip)).length := by
  constructor
  · intro hnone
    cases hr : op.report cfg with
    | none =>
      obtain ⟨st₁, es₁, hstep₁, -⟩ := other_step h.1 now hr
      rw [hstep₁] at hnone
      cases hnone
    | some r =>
      obtain ⟨k, key, reason⟩ := r
      simp only [securityStep, hr, recordLocked] at hnone
      cases hrec : recordStamp cfg k (st.tracks k) key now with
      | some q =>
        rw [hrec] at hnone
        cases hnone
      | none =>
        have hroom : (st.tracks k).lookup key ≠ none ∨ (st.tracks k).HasFree := by
          by_contra hfull
          rw [recordStamp, if_pos (not_not.mp fun hn => hfull (SlotTable.room_iff.mp hn))] at hrec
          cases hrec
        cases hp : pushStamp k (pruneWindow (k.window cfg) now (stampsOf st k key)) now with
        | none =>
          obtain ⟨rfl, hlong⟩ := pushStamp_none hp
          exact ⟨key, reason, rfl, hlong⟩
        | some stamps =>
          obtain ⟨t', hsome, -⟩ := recordStamp_spec (h.1.2.2 k) hroom hp
          rw [hsome] at hrec
          cases hrec
  · rintro ⟨ip, reason, hr, hlong⟩
    change defaultMaxretry ≤ (pruneWindow (Tracker.abuse.window cfg) now (stampsOf st .abuse ip)).length at hlong
    have hshort : (pruneWindow (Tracker.abuse.window cfg) now (stampsOf st .abuse ip)).length < Tracker.abuse.limit :=
      lt_of_le_of_lt ((length_pruneWindow_le ..).trans (h.2 ip)) (by decide)
    have hlookup : (st.tracks .abuse).lookup ip ≠ none := by
      intro hn
      rw [stampsOf, stampsIn, hn] at hlong
      exact absurd hlong (show ¬defaultMaxretry ≤ 0 by decide)
    have hp : pushStamp .abuse (pruneWindow (Tracker.abuse.window cfg) now (stampsOf st .abuse ip)) now = none :=
      pushStamp_full hlong hshort now
    simp only [securityStep, hr, recordLocked, recordStamp_none (.inl hlookup) hp]

lemma step_few (h : AbuseWithin defaultMaxretry st) {now : ℤ} {op : SecurityOp} {es : List BanEvent}
    (hstep : securityStep cfg st now op = some (st', es)) : AbuseWithin defaultMaxretry st' :=
  step_abuseWithin h (fun _ _ hle hp _ => length_pushStamp hle hp) hstep

lemma run_ne_none_iff (h : AbuseWithin defaultMaxretry st) (cs : List TimedOp) :
    securityRun cfg st cs ≠ none ↔ Contained cfg st cs := by
  induction cs generalizing st with
  | nil => simp [securityRun, Contained]
  | cons c cs ih =>
    rw [Contained, securityRun]
    cases hstep : securityStep cfg st c.now c.op with
    | none =>
      obtain ⟨ip, reason, hr, hlong⟩ := (step_eq_none_iff h c.now c.op).mp hstep
      refine ⟨fun hne => absurd rfl hne, fun hcontained => ?_⟩
      exact absurd (hcontained.1 ip reason hr) (not_lt.mpr hlong)
    | some r =>
      have hrest := ih (step_few h hstep)
      have hhere : ∀ ip reason, c.op.report cfg = some (.abuse, ip, reason) →
          (pruneWindow cfg.abuseFindtimeSec c.now (stampsOf st .abuse ip)).length < defaultMaxretry := by
        intro ip reason hr
        by_contra hlong
        rw [(step_eq_none_iff h c.now c.op).mpr ⟨ip, reason, hr, not_lt.mp hlong⟩] at hstep
        cases hstep
      simp only [Option.bind_eq_bind, Option.bind_some, Option.some.injEq]
      constructor
      · intro hne
        refine ⟨hhere, fun r' hr' => ?_⟩
        subst hr'
        apply hrest.mp
        intro hnone
        rw [hnone] at hne
        exact hne rfl
      · rintro ⟨-, hcontained⟩ hnone
        cases hq : securityRun cfg r.1 cs with
        | none => exact hrest.mpr (hcontained r rfl) hq
        | some q =>
          rw [hq] at hnone
          cases hnone

/-- A threshold that fits the array bans before the array is full. -/
lemma contained_of_short (hpos : 1 ≤ cfg.abuseMaxretry)
    (hshort : cfg.enabled = false ∨ cfg.abuseMaxretry ≤ defaultMaxretry)
    (h : AbuseWithin (cfg.abuseMaxretry - 1) st) (cs : List TimedOp) : Contained cfg st cs := by
  induction cs generalizing st with
  | nil => trivial
  | cons c cs ih =>
    refine ⟨fun ip reason hr => ?_, fun r hstep => ih (step_abuseWithin h (fun _ _ _ _ hlt => by omega) hstep)⟩
    rcases hshort with hoff | hle
    · obtain ⟨now, op⟩ := c
      cases op <;> simp [SecurityOp.report, hoff] at hr
    · have hfew := (length_pruneWindow_le cfg.abuseFindtimeSec c.now (stampsOf st .abuse ip)).trans (h.2 ip)
      omega

/-- Six abuse reports of one address at one instant: the sixth finds its array full. -/
lemma flood_strays (hen : cfg.enabled = true) (hlong : defaultMaxretry < cfg.abuseMaxretry) {ip : RemoteAddr}
    (hv : ipValid ip.text = true) {start : SecurityState} (hb : start.bans.HasFree) (hc : start.callidBans.HasFree)
    (now : ℤ) (n m : ℕ) (hn : m + n = defaultMaxretry) (h : OneSource start ip.text .abuse st)
    (hm : stampsOf st .abuse ip.text = List.replicate m now) :
    securityRun cfg st (List.replicate (n + 1) ⟨now, floodOp .abuse ip⟩) = none := by
  obtain ⟨reason, hr⟩ := @floodOp_report cfg hen ip hv .abuse (.inr rfl)
  have hkept : ∀ i, pruneWindow (Tracker.abuse.window cfg) now (List.replicate i now) = List.replicate i now := by
    intro i
    apply List.filter_replicate_of_pos
    simp
  have hroom := h.room hb hc
  induction n generalizing st m with
  | zero =>
    have hp : pushStamp .abuse (pruneWindow (Tracker.abuse.window cfg) now (stampsOf st .abuse ip.text)) now = none := by
      rw [hm, hkept]
      apply pushStamp_full
      · rw [List.length_replicate]
        exact hn.ge
      · rw [List.length_replicate, show m = defaultMaxretry from hn]
        decide
    simp only [List.replicate_succ, securityRun, securityStep, hr, recordLocked,
      recordStamp_none (.inr (hroom.2.2 .abuse)) hp]
    rfl
  | succ n ih =>
    have hlt : (pruneWindow (Tracker.abuse.window cfg) now (stampsOf st .abuse ip.text)).length < defaultMaxretry := by
      rw [hm, hkept, List.length_replicate]
      omega
    obtain ⟨t, hrec, -, -, hl⟩ := recordStamp_spec (h.unique .abuse) (.inr (hroom.2.2 .abuse)) (pushStamp_short hlt now)
    have hstamps : pruneWindow (Tracker.abuse.window cfg) now (stampsOf st .abuse ip.text) ++ [now] =
        List.replicate (m + 1) now := by
      rw [hm, hkept, List.replicate_succ']
    rw [hstamps] at hrec hl
    have hbelow : ¬Tracker.abuse.retries cfg ≤ (List.replicate (m + 1) now).length := by
      rw [List.length_replicate]
      change ¬cfg.abuseMaxretry ≤ m + 1
      omega
    rw [decide_eq_false hbelow] at hrec
    have hstep : securityStep cfg st now (floodOp .abuse ip) = some (st.setTrack .abuse t, []) := by
      simp only [securityStep, hr, recordLocked, hrec, Bool.false_eq_true, if_false]
    have hrest := ih (m + 1) (by omega) (floodOp_step hen hv (.inr rfl) hlong h hroom hstep).1 (by
      rw [stampsOf_setTrack, if_pos rfl, stampsIn, hl, if_pos rfl, if_neg hbelow]
      rfl) (OneSource.room (floodOp_step hen hv (.inr rfl) hlong h hroom hstep).1 hb hc)
    rw [List.replicate_succ, securityRun, hstep]
    simp only [Option.bind_eq_bind, Option.bind_some, hrest, Option.bind_none]

end Contained

lemma banConfigApply_backed (config : HybbxConfig) (now : ℤ) :
    Backed (banConfig config) (banConfigApply config freshState now) [] (banConfigApply config freshState now) := by
  obtain ⟨hb, ht, -, -⟩ := banConfigApply_spec config now
  have hrates := banConfigApply_rates config now
  refine ⟨(banConfigApply_good config now).1, ?_, fun k key => ?_, fun ip => ?_, fun ip expireAt hl => ?_⟩
  · rw [hrates]
    exact unique_emptyTable _ _ _
  · rw [stampsOf, stampsIn, ht, freshState_tracks]
    exact List.Sublist.refl _
  · rw [rateStampsOf, stampsIn, hrates, freshState_rates]
    exact List.Sublist.refl _
  · rw [hb, freshState_bans] at hl
    cases hl

lemma banConfigApply_abuseWithin (config : HybbxConfig) (now : ℤ) (bound : ℕ) :
    AbuseWithin bound (banConfigApply config freshState now) := by
  obtain ⟨-, ht, -, -⟩ := banConfigApply_spec config now
  refine ⟨(banConfigApply_good config now).1, fun key => ?_⟩
  rw [stampsOf, stampsIn, ht, freshState_tracks]
  exact Nat.zero_le _

/-- Six abuse reports at one instant leave their array if six do not suffice for a ban. -/
lemma six_reports_stray (config : HybbxConfig) (now : ℤ) (hen : (banConfig config).enabled = true)
    (hlong : defaultMaxretry < (banConfig config).abuseMaxretry) :
    securityRun (banConfig config) (banConfigApply config freshState now)
      (List.replicate 6 ⟨0, .abuseReport floodSource (ofString "flood")⟩) = none := by
  obtain ⟨hb, ht, -, hc⟩ := banConfigApply_spec config now
  have hfree : (banConfigApply config freshState now).bans.HasFree := by
    rw [hb]
    exact freshState_bans_hasFree
  apply flood_strays hen hlong (by decide) hfree hc 0 5 0 rfl (banConfigApply_oneSource config now floodSource.text _)
  rw [stampsOf, stampsIn, ht, freshState_tracks]
  rfl

/-- A run is sound exactly if no abuse report finds five stamps of its address in the window, and all runs are exactly
if security is off or five reports suffice for a ban. -/
theorem ban_sound_iff (config : HybbxConfig) (now : ℤ) :
    (∀ cs : List TimedOp, (cs.map TimedOp.now).Pairwise (· ≤ ·) →
      (BanSound (banConfig config) (banConfigApply config freshState now) cs ↔
        Contained (banConfig config) (banConfigApply config freshState now) cs)) ∧
      ((∀ cs : List TimedOp, (cs.map TimedOp.now).Pairwise (· ≤ ·) →
        BanSound (banConfig config) (banConfigApply config freshState now) cs) ↔
          (banConfig config).enabled = false ∨ (banConfig config).abuseMaxretry ≤ 5) := by
  have hruns : ∀ cs : List TimedOp, (cs.map TimedOp.now).Pairwise (· ≤ ·) →
      (BanSound (banConfig config) (banConfigApply config freshState now) cs ↔
        Contained (banConfig config) (banConfigApply config freshState now) cs) := by
    intro cs hclock
    rw [← run_ne_none_iff (banConfigApply_abuseWithin config now _)]
    constructor
    · intro hsound hnone
      exact not_sound_of_stray hnone hsound
    · exact sound_of_run (banConfigApply_backed config now) hclock
  refine ⟨hruns, fun hall => ?_, fun hshort cs hclock => ?_⟩
  · by_contra hcond
    obtain ⟨hon, hlong⟩ := not_or.mp hcond
    have hstray := six_reports_stray config now (Bool.not_eq_false _ ▸ hon) (not_le.mp hlong)
    refine not_sound_of_stray hstray (hall _ ?_)
    rw [List.map_replicate]
    exact List.pairwise_replicate.mpr (.inr (le_refl _))
  · exact (hruns cs hclock).mpr (contained_of_short (abuseMaxretry_pos config) hshort
      (banConfigApply_abuseWithin config now _) cs)

/-- With the defaults the sixth abuse report of one address at one instant leaves its array. -/
theorem sixth_report_strays :
    (banConfig []).abuseMaxretry = 30 ∧ securityRun (banConfig []) (banConfigApply [] freshState 0)
      (List.replicate 6 ⟨0, .abuseReport floodSource (ofString "flood")⟩) =
        none ∧
      ¬BanSound (banConfig []) (banConfigApply [] freshState 0)
        (List.replicate 6 ⟨0, .abuseReport floodSource (ofString "flood")⟩) := by
  have hstray := six_reports_stray [] 0 (by decide) (by decide)
  exact ⟨by decide, hstray, not_sound_of_stray hstray⟩

end HyBBX.Security
