import HyBBX.Security.Window

/-! Counting up to the threshold: with short thresholds no stamp in the window is ever lost. -/

namespace HyBBX.Security

open HyBBX.Core Lib Lib.Bytes Lib.Text Config

/-- Whether a call counts against the entry `key` of `k`. -/
def counts (cfg : SecurityCfg) (k : Tracker) (key : Bytes) (c : TimedOp) : Bool :=
  match c.op.report cfg with
  | some (k', key', _) => k' = k && key' = key
  | none => false

/-- The times of the calls that count against an entry. -/
def reports (cfg : SecurityCfg) (k : Tracker) (key : Bytes) (cs : List TimedOp) : List ℤ :=
  (cs.filter (counts cfg k key)).map TimedOp.now

/-- No array has to give up a stamp before its count reaches the threshold. -/
def Short (cfg : SecurityCfg) : Prop := ∀ k : Tracker, k.retries cfg ≤ defaultMaxretry

lemma short_iff (cfg : SecurityCfg) :
    Short cfg ↔ cfg.maxretry ≤ defaultMaxretry ∧ cfg.abuseMaxretry ≤ defaultMaxretry := by
  constructor
  · intro h
    exact ⟨h .fails, h .abuse⟩
  · rintro ⟨hf, ha⟩ k
    cases k with
    | fails => exact hf
    | abuse => exact ha
    | callidFails => exact hf
    | callidAbuse => exact ha

/-- Every entry is below its threshold. -/
def Good (cfg : SecurityCfg) (st : SecurityState) : Prop :=
  TablesUnique st ∧ ∀ (k : Tracker) (key : Bytes), (stampsOf st k key).length < k.retries cfg

lemma pushStamp_short {k : Tracker} {stamps : List ℤ} (h : stamps.length < defaultMaxretry) (now : ℤ) :
    pushStamp k stamps now = some (stamps ++ [now]) := by
  have hcap : stamps.length < k.capacity := lt_of_lt_of_le h (by cases k <;> decide)
  have hlim : stamps.length < k.limit := lt_of_lt_of_le h (by cases k <;> decide)
  rw [pushStamp, if_pos hlim, if_pos hcap]

lemma length_pruneWindow_le (window : ℕ) (now : ℤ) (stamps : List ℤ) :
    (pruneWindow window now stamps).length ≤ stamps.length := List.length_filter_le _ _

/-- The stamps of an entry with one more report. -/
def grown (cfg : SecurityCfg) (k : Tracker) (now : ℤ) (stamps : List ℤ) : List ℤ :=
  pruneWindow (k.window cfg) now stamps ++ [now]

section Step

variable {cfg : SecurityCfg} {st : SecurityState} {now : ℤ} {op : SecurityOp}

lemma stampsOf_setTrack (st : SecurityState) (k k' : Tracker) (t : TrackTable) (key' : Bytes) :
    stampsOf (st.setTrack k t) k' key' = if k' = k then stampsIn t key' else stampsOf st k' key' := by
  rw [stampsOf, setTrack_tracks]
  split_ifs <;> rfl

lemma tablesUnique_setTrack (h : TablesUnique st) (k : Tracker) {t : TrackTable} (ht : t.Unique) :
    TablesUnique (st.setTrack k t) := by
  refine ⟨h.1, h.2.1, fun k' => ?_⟩
  rw [setTrack_tracks]
  split_ifs
  · exact ht
  · exact h.2.2 k'

/-- A report adds its stamp; at the threshold the entry is released and its subject is banned. -/
lemma report_step (hs : Short cfg) (hg : Good cfg st) (hroom : Room st) {k : Tracker} {key reason : Bytes}
    (hr : op.report cfg = some (k, key, reason)) :
    ∃ st' es, securityStep cfg st now op = some (st', es) ∧ TablesUnique st' ∧
      (∀ k' key', stampsOf st' k' key' = if k' = k ∧ key' = key then
        if k.retries cfg ≤ (grown cfg k now (stampsOf st k key)).length then [] else grown cfg k now (stampsOf st k key)
        else stampsOf st k' key') ∧
      (k.retries cfg ≤ (grown cfg k now (stampsOf st k key)).length →
        (∃ e ∈ es, e.subject = (k.ofIp, key)) ∧ (cfg.enabled = true → 1 ≤ cfg.bantimeSec →
          (k.ofIp = true → ipValid key = true) → BannedAt cfg st' k key now)) := by
  obtain ⟨htab, hbelow⟩ := hg
  have hlen : (pruneWindow (k.window cfg) now (stampsOf st k key)).length < defaultMaxretry :=
    lt_of_le_of_lt (length_pruneWindow_le ..) (lt_of_lt_of_le (hbelow k key) (hs k))
  obtain ⟨t', hrec, hun, -, hst⟩ := recordStamp_spec (htab.2.2 k) (.inr (hroom.2.2 k)) (pushStamp_short hlen now)
  change recordStamp cfg k (st.tracks k) key now =
    some (t', decide (k.retries cfg ≤ (grown cfg k now (stampsOf st k key)).length)) at hrec
  have hmid := tablesUnique_setTrack htab k hun
  have hstamps : ∀ k' key', stampsOf (st.setTrack k t') k' key' = if k' = k ∧ key' = key then
      if k.retries cfg ≤ (grown cfg k now (stampsOf st k key)).length then [] else grown cfg k now (stampsOf st k key)
      else stampsOf st k' key' := by
    intro k' key'
    rw [stampsOf_setTrack]
    by_cases hk : k' = k
    · subst hk
      rw [if_pos rfl, stampsIn, hst key', grown]
      simp only [true_and]
      split_ifs <;> rfl
    · rw [if_neg hk, if_neg fun hh => hk hh.1]
  by_cases hreach : k.retries cfg ≤ (grown cfg k now (stampsOf st k key)).length
  · obtain ⟨hu, htracks, e, hes, he⟩ := @banFor_spec cfg _ hmid hroom.1 hroom.2.1 k key reason now
    refine ⟨(banFor cfg k (st.setTrack k t') key reason now).1, [e], ?_, hu, ?_, fun _ => ⟨⟨e, by simp, he⟩, ?_⟩⟩
    · simp only [securityStep, hr, recordLocked, hrec, decide_eq_true hreach, if_true, ← hes]
    · intro k' key'
      rw [← hstamps k' key', stampsOf, htracks, stampsOf]
    · intro hen hbt hv
      exact banFor_bannedAt hmid hroom.1 hroom.2.1 reason now hen hbt hv
  · refine ⟨st.setTrack k t', [], ?_, hmid, hstamps, fun h => absurd h hreach⟩
    simp only [securityStep, hr, recordLocked, hrec, decide_eq_false hreach, Bool.false_eq_true, if_false]

lemma step_good (hs : Short cfg) (hg : Good cfg st) (hroom : Room st) (now : ℤ) (op : SecurityOp) :
    ∃ st' es, securityStep cfg st now op = some (st', es) ∧ Good cfg st' := by
  cases hr : op.report cfg with
  | none =>
    obtain ⟨st', es, hstep, htab, hst⟩ := other_step hg.1 now hr
    refine ⟨st', es, hstep, htab, fun k key => lt_of_le_of_lt ?_ (hg.2 k key)⟩
    rcases hst k key with h | h
    · rw [h]
    · rw [h]
      exact length_pruneWindow_le ..
  | some r =>
    obtain ⟨k, key, reason⟩ := r
    obtain ⟨st', es, hstep, htab, hst, -⟩ := report_step hs hg hroom hr
    refine ⟨st', es, hstep, htab, fun k' key' => ?_⟩
    rw [hst]
    split_ifs with hk hreach
    · exact lt_of_le_of_lt (Nat.zero_le _) (hg.2 k' key')
    · rw [hk.1]
      omega
    · exact hg.2 k' key'

/-- The stamps that are in the window at a later time. -/
def inWindow (window : ℕ) (final : ℤ) (stamps : List ℤ) : ℕ := stamps.countP fun s => final - s ≤ window

lemma inWindow_prune {window : ℕ} {now final : ℤ} (h : now ≤ final) (stamps : List ℤ) :
    inWindow window final (pruneWindow window now stamps) = inWindow window final stamps := by
  rw [inWindow, pruneWindow, List.countP_filter, inWindow]
  apply List.countP_congr
  intro s _
  simp only [Bool.and_eq_true, decide_eq_true_eq]
  omega

lemma inWindow_grown {k : Tracker} {final : ℤ} (h : now ≤ final) (hw : final - now ≤ k.window cfg) (stamps : List ℤ) :
    inWindow (k.window cfg) final (grown cfg k now stamps) = inWindow (k.window cfg) final stamps + 1 := by
  rw [grown, inWindow, List.countP_append, ← inWindow, inWindow_prune h, List.countP_singleton,
    decide_eq_true hw, if_pos rfl]

lemma counts_iff {k : Tracker} {key : Bytes} {c : TimedOp} :
    counts cfg k key c = true ↔ ∃ reason, c.op.report cfg = some (k, key, reason) := by
  rw [counts]
  cases c.op.report cfg with
  | none => simp
  | some r =>
    obtain ⟨k', key', reason⟩ := r
    simp

/-- Until its subject is banned, an entry gains a stamp with each of its reports and loses none in the window. -/
lemma step_inWindow (hs : Short cfg) (hg : Good cfg st) (hroom : Room st) {k : Tracker} {key : Bytes} {c : TimedOp}
    {final : ℤ} (hc : c.now ≤ final) (hw : counts cfg k key c = true → final - c.now ≤ k.window cfg)
    {st' : SecurityState} {es : List BanEvent} (hstep : securityStep cfg st c.now c.op = some (st', es))
    (hquiet : ∀ e ∈ es, e.subject ≠ (k.ofIp, key)) :
    inWindow (k.window cfg) final (stampsOf st k key) + (reports cfg k key [c]).length ≤
      inWindow (k.window cfg) final (stampsOf st' k key) := by
  cases hr : c.op.report cfg with
  | none =>
    have hcount : counts cfg k key c = false := by simp [counts, hr]
    obtain ⟨st₁, es₁, hstep₁, -, hst⟩ := other_step hg.1 c.now hr
    obtain ⟨rfl, -⟩ := Prod.mk.inj (Option.some.inj (hstep.symm.trans hstep₁))
    simp only [reports, List.filter_singleton, hcount, cond_false, List.map_nil, List.length_nil, Nat.add_zero]
    rcases hst k key with h | h
    · rw [h]
    · rw [h, inWindow_prune hc]
  | some r =>
    obtain ⟨k₁, key₁, reason⟩ := r
    obtain ⟨st₁, es₁, hstep₁, -, hst, hban⟩ := @report_step cfg st c.now c.op hs hg hroom _ _ _ hr
    obtain ⟨rfl, rfl⟩ := Prod.mk.inj (Option.some.inj (hstep.symm.trans hstep₁))
    rw [hst]
    by_cases hk : k = k₁ ∧ key = key₁
    · obtain ⟨rfl, rfl⟩ := hk
      have hcount : counts cfg k key c = true := counts_iff.mpr ⟨reason, hr⟩
      have hbelow : ¬k.retries cfg ≤ (grown cfg k c.now (stampsOf st k key)).length := by
        intro hreach
        obtain ⟨e, he, hsub⟩ := (hban hreach).1
        exact hquiet e he hsub
      rw [if_pos ⟨rfl, rfl⟩, if_neg hbelow, inWindow_grown hc (hw hcount)]
      simp [reports, hcount]
    · have hcount : counts cfg k key c = false := by
        rw [Bool.eq_false_iff]
        intro h
        obtain ⟨_, h'⟩ := counts_iff.mp h
        rw [hr] at h'
        simp only [Option.some.injEq, Prod.mk.injEq] at h'
        exact hk ⟨h'.1.symm, h'.2.1.symm⟩
      rw [if_neg hk]
      simp [reports, hcount]

end Step

/-! Runs of calls: enough reports in the window lead to a ban. -/

/-- In every state of the run there is room. -/
def Roomy (cfg : SecurityCfg) : SecurityState → List TimedOp → Prop
  | st, [] => Room st
  | st, c :: cs => Room st ∧ ∀ r, securityStep cfg st c.now c.op = some r → Roomy cfg r.1 cs

/-- Enough reports of one subject in the window before the last of them, and no ban of it in between. -/
structure Burst (cfg : SecurityCfg) (start : SecurityState) (k : Tracker) (key : Bytes)
    (before within : List TimedOp) (last : TimedOp) : Prop where
  clock : ((before ++ within ++ [last]).map TimedOp.now).Pairwise (· ≤ ·)
  room : Roomy cfg start (before ++ within)
  counted : counts cfg k key last = true
  recent : ∀ s ∈ reports cfg k key within, last.now - s ≤ k.window cfg
  enough : k.retries cfg ≤ (reports cfg k key (within ++ [last])).length
  quiet : ∀ st es st' es', securityRun cfg start before = some (st, es) →
    securityRun cfg st within = some (st', es') → ∀ e ∈ es', e.subject ≠ (k.ofIp, key)

/-- Every burst runs through and leaves its subject banned. -/
def ThresholdComplete (cfg : SecurityCfg) (start : SecurityState) : Prop :=
  ∀ (k : Tracker) (key : Bytes) (before within : List TimedOp) (last : TimedOp),
    Burst cfg start k key before within last →
      ∃ st es, securityRun cfg start (before ++ within ++ [last]) = some (st, es) ∧ BannedAt cfg st k key last.now

section Run

variable {cfg : SecurityCfg}

lemma securityRun_append (st : SecurityState) (as bs : List TimedOp) : securityRun cfg st (as ++ bs) =
    (securityRun cfg st as).bind fun r => (securityRun cfg r.1 bs).map fun q => (q.1, r.2 ++ q.2) := by
  induction as generalizing st with
  | nil => simp [securityRun]
  | cons c cs ih =>
    rw [List.cons_append, securityRun, securityRun]
    cases securityStep cfg st c.now c.op with
    | none => rfl
    | some r =>
      simp only [Option.bind_eq_bind, Option.bind_some, ih]
      cases securityRun cfg r.1 cs with
      | none => rfl
      | some q =>
        simp only [Option.bind_some]
        cases securityRun cfg q.1 bs with
        | none => rfl
        | some p => simp

lemma roomy_append {st : SecurityState} {as bs : List TimedOp} (h : Roomy cfg st (as ++ bs)) :
    Roomy cfg st as ∧ ∀ r, securityRun cfg st as = some r → Roomy cfg r.1 bs := by
  induction as generalizing st with
  | nil =>
    refine ⟨?_, fun r hr => ?_⟩
    · cases bs with
      | nil => exact h
      | cons c cs => exact h.1
    · obtain rfl := Option.some.inj hr
      exact h
  | cons c cs ih =>
    refine ⟨⟨h.1, fun r hr => (ih (h.2 r hr)).1⟩, fun q hq => ?_⟩
    rw [securityRun] at hq
    cases hstep : securityStep cfg st c.now c.op with
    | none => simp [hstep] at hq
    | some r =>
      simp only [hstep, Option.bind_eq_bind, Option.bind_some, Option.bind_eq_some_iff] at hq
      obtain ⟨p, hp, hq⟩ := hq
      obtain rfl := Option.some.inj hq
      exact (ih (h.2 r hstep)).2 p hp

lemma run_good (hs : Short cfg) {st : SecurityState} (hg : Good cfg st) {cs : List TimedOp} (hroom : Roomy cfg st cs) :
    ∃ st' es, securityRun cfg st cs = some (st', es) ∧ Good cfg st' ∧ Room st' := by
  induction cs generalizing st with
  | nil => exact ⟨st, [], rfl, hg, hroom⟩
  | cons c cs ih =>
    obtain ⟨st₁, es₁, hstep, hg₁⟩ := step_good hs hg hroom.1 c.now c.op
    obtain ⟨st₂, es₂, hrun, hg₂, hr₂⟩ := ih hg₁ (hroom.2 _ hstep)
    refine ⟨st₂, es₁ ++ es₂, ?_, hg₂, hr₂⟩
    rw [securityRun, hstep]
    simp [hrun]

lemma reports_cons (k : Tracker) (key : Bytes) (c : TimedOp) (cs : List TimedOp) :
    reports cfg k key (c :: cs) = reports cfg k key [c] ++ reports cfg k key cs := by
  rw [reports, reports, reports, ← List.map_append, ← List.filter_append, List.singleton_append]

lemma run_inWindow (hs : Short cfg) {k : Tracker} {key : Bytes} {final : ℤ} {cs : List TimedOp} {st : SecurityState}
    (hg : Good cfg st) (hroom : Roomy cfg st cs) (hclock : ∀ c ∈ cs, c.now ≤ final)
    (hrecent : ∀ s ∈ reports cfg k key cs, final - s ≤ k.window cfg) {st' : SecurityState} {es : List BanEvent}
    (hrun : securityRun cfg st cs = some (st', es)) (hquiet : ∀ e ∈ es, e.subject ≠ (k.ofIp, key)) :
    inWindow (k.window cfg) final (stampsOf st k key) + (reports cfg k key cs).length ≤
      inWindow (k.window cfg) final (stampsOf st' k key) := by
  induction cs generalizing st es with
  | nil =>
    obtain ⟨rfl, -⟩ := Prod.mk.inj (Option.some.inj hrun)
    exact le_refl _
  | cons c cs ih =>
    obtain ⟨st₁, es₁, hstep, hg₁⟩ := step_good hs hg hroom.1 c.now c.op
    rw [securityRun, hstep] at hrun
    simp only [Option.bind_eq_bind, Option.bind_some, Option.bind_eq_some_iff] at hrun
    obtain ⟨⟨st₂, es₂⟩, hrest, he⟩ := hrun
    obtain ⟨rfl, rfl⟩ := Prod.mk.inj (Option.some.inj he)
    rw [reports_cons] at hrecent ⊢
    have hone := @step_inWindow cfg _ hs hg hroom.1 _ key c _ (hclock c (by simp)) (fun hcount => by
      exact hrecent c.now (by simp [reports, hcount])) _ _ hstep (fun e h => hquiet e (by simp [h]))
    have hmore := ih hg₁ (hroom.2 _ hstep) (fun c' h => hclock c' (by simp [h]))
      (fun s h => hrecent s (by simp [h])) hrest (fun e h => hquiet e (by simp [h]))
    rw [List.length_append]
    omega

lemma report_ipValid {op : SecurityOp} {k : Tracker} {key reason : Bytes} (h : op.report cfg = some (k, key, reason)) :
    cfg.enabled = true ∧ (k.ofIp = true → ipValid key = true) := by
  have hcallid : ∀ {o : Option Bytes} {k₁ : Tracker} {reason₁ : Bytes}, k₁.ofIp = false →
      o.map (fun norm => (k₁, norm, reason₁)) = some (k, key, reason) → k.ofIp = false := by
    rintro o k₁ reason₁ hk ho
    obtain ⟨norm, -, he⟩ := Option.map_eq_some_iff.mp ho
    rwa [← (Prod.mk.inj he).1]
  cases op with
  | loginFail ip transport =>
    simp only [SecurityOp.report, Option.ite_none_left_eq_some, not_or, Bool.not_eq_false, Option.some.injEq,
      Prod.mk.injEq] at h
    obtain ⟨⟨hen, hv, -⟩, -, rfl, -⟩ := h
    exact ⟨hen, fun _ => hv⟩
  | linkAuthFail ip =>
    simp only [SecurityOp.report, Option.ite_none_left_eq_some, not_or, Bool.not_eq_false, Option.some.injEq,
      Prod.mk.injEq] at h
    obtain ⟨⟨hen, hv, -⟩, -, rfl, -⟩ := h
    exact ⟨hen, fun _ => hv⟩
  | abuseReport ip category =>
    simp only [SecurityOp.report, Option.ite_none_left_eq_some, not_or, Bool.not_eq_false, Option.some.injEq,
      Prod.mk.injEq] at h
    obtain ⟨⟨hen, hv⟩, -, rfl, -⟩ := h
    exact ⟨hen, fun _ => hv⟩
  | linkAuthFailCallid callid =>
    simp only [SecurityOp.report, Option.ite_none_left_eq_some, not_or, Bool.not_eq_false] at h
    refine ⟨h.1.1, fun hip => ?_⟩
    rw [hcallid rfl h.2] at hip
    exact absurd hip Bool.false_ne_true
  | callidAbuseReport callid category =>
    simp only [SecurityOp.report, Option.ite_none_left_eq_some, Bool.not_eq_false] at h
    refine ⟨h.1, fun hip => ?_⟩
    rw [hcallid rfl h.2] at hip
    exact absurd hip Bool.false_ne_true
  | _ => exact absurd h (by simp [SecurityOp.report])

/-- With short thresholds every burst ends in a ban. -/
lemma complete_of_short (hs : Short cfg) (hbt : 1 ≤ cfg.bantimeSec) {start : SecurityState} (hg : Good cfg start) :
    ThresholdComplete cfg start := by
  intro k key before within last hburst
  obtain ⟨hroomB, hroomW⟩ := roomy_append hburst.room
  obtain ⟨st, es, hrunB, hgB, -⟩ := run_good hs hg hroomB
  have hroomW := hroomW _ hrunB
  obtain ⟨st', es', hrunW, hgW, hroomE⟩ := run_good hs hgB hroomW
  obtain ⟨reason, hr⟩ := counts_iff.mp hburst.counted
  obtain ⟨st'', es'', hstep, -, -, hban⟩ := @report_step cfg _ last.now last.op hs hgW hroomE _ _ _ hr
  have hall : securityRun cfg start (before ++ within ++ [last]) = some (st'', es ++ es' ++ es'') := by
    rw [securityRun_append, securityRun_append, hrunB]
    simp [hrunW, securityRun, hstep]
  refine ⟨st'', _, hall, ?_⟩
  have hclock : ∀ c ∈ within, c.now ≤ last.now := by
    intro c hc
    have := hburst.clock
    rw [List.map_append, List.pairwise_append] at this
    exact this.2.2 c.now (by simp only [List.map_append, List.mem_append]; exact .inr (List.mem_map_of_mem hc)) _ (by simp)
  have hcount := run_inWindow hs hgB hroomW hclock hburst.recent hrunW (hburst.quiet st es st' es' hrunB hrunW)
  obtain ⟨hen, hv⟩ := report_ipValid hr
  refine (hban ?_).2 hen hbt hv
  have henough := hburst.enough
  have hlast : reports cfg k key (within ++ [last]) = reports cfg k key within ++ [last.now] := by
    simp [reports, hburst.counted]
  rw [hlast, List.length_append, List.length_singleton] at henough
  rw [grown, List.length_append, List.length_singleton, pruneWindow, ← List.countP_eq_length_filter, ← inWindow]
  omega

end Run

end HyBBX.Security
