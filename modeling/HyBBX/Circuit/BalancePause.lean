import HyBBX.Circuit.BalanceDelivery
import HyBBX.Circuit.Balance

/-! Where the drain credit goes over a steady run of ticks: whole bytes the front frame cannot use are
dropped with the tick. -/

namespace HyBBX.Circuit

open HyBBX.Core Lib BalanceAction

structure PacedTick where
  pollMs : ℕ
  now : ℤ
  flow : Option FlowFn

/-- A tick whose sends all succeed. -/
def PacedTick.op (t : PacedTick) : BalanceOp := .tick t.pollMs (fun _ => true) t.now t.flow

def PacedTick.next (t : PacedTick) (bal : CircuitBalance) : CircuitBalance := (balanceStep bal t.op).1

def PacedTick.sent (t : PacedTick) (bal : CircuitBalance) : List Bytes := sentFrames (balanceStep bal t.op).2

/-- Every tick starts and ends with action NONE and something queued. -/
def Steady : CircuitBalance → List PacedTick → Prop
  | _, [] => True
  | bal, t :: ts =>
    (bal.action = balNone ∧ queued bal ≠ []) ∧
      ((t.next bal).action = balNone ∧ queued (t.next bal) ≠ []) ∧ Steady (t.next bal) ts

def creditOf (bal : CircuitBalance) (ts : List PacedTick) : ℚ := (ts.map fun t => tickCredit bal t.pollMs).sum

def runTicks (bal : CircuitBalance) (ts : List PacedTick) : CircuitBalance × List BalanceEvent :=
  balanceRun bal (ts.map PacedTick.op)

lemma runTicks_cons (bal : CircuitBalance) (t : PacedTick) (ts : List PacedTick) :
    (runTicks bal (t :: ts)).1 = (runTicks (t.next bal) ts).1 ∧
      sentFrames (runTicks bal (t :: ts)).2 = t.sent bal ++ sentFrames (runTicks (t.next bal) ts).2 := by
  refine ⟨rfl, ?_⟩
  simp only [runTicks, balanceRun, List.map_cons, Transducer.run_cons, sentFrames_append]
  rfl

def Conserves (bal : CircuitBalance) (ts : List PacedTick) : Prop :=
  (total (sentFrames (runTicks bal ts).2) : ℚ) + (runTicks bal ts).1.drainAccum =
    bal.drainAccum + creditOf bal ts

/-- Frames at the front whose length the credit covers have been sent. -/
def Progresses (bal : CircuitBalance) (ts : List PacedTick) : Prop :=
  ∀ fs, fs <+: queued bal → (total fs : ℚ) ≤ bal.drainAccum + creditOf bal ts →
    fs <+: sentFrames (runTicks bal ts).2

/-- The whole bytes of credit are the length of some frames at the front. -/
def ExactFit (bal : CircuitBalance) (t : PacedTick) : Prop :=
  ∃ fs, fs <+: queued bal ∧ total fs = ⌊bal.drainAccum + tickCredit bal t.pollMs⌋₊

def AllExact : CircuitBalance → List PacedTick → Prop
  | _, [] => True
  | bal, t :: ts => ExactFit bal t ∧ AllExact (t.next bal) ts

/-- A tick that stays in NONE does not escalate. -/
lemma steady_tick {bal : CircuitBalance} (hw : WellFormed bal) {t : PacedTick} (ha : bal.action = balNone)
    (hq : queued bal ≠ []) (hn : (t.next bal).action = balNone) :
    t.sent bal = (balancePacedDrain bal t.pollMs fun _ => true).2 ∧
      queued (t.next bal) = queued (balancePacedDrain bal t.pollMs fun _ => true).1 ∧
      (t.next bal).drainAccum =
        bal.drainAccum + tickCredit bal t.pollMs - ⌊bal.drainAccum + tickCredit bal t.pollMs⌋₊ ∧
      (t.next bal).profile = bal.profile := by
  have hd : Drains bal := by
    refine ⟨hw.enabled hq, by simp [ha], by simp [ha], ?_⟩
    rw [count_eq_length]
    exact fun h0 => hq (List.eq_nil_of_length_eq_zero h0)
  have hr := tick_drains bal t.pollMs (fun _ => true) t.now t.flow hd
  obtain ⟨queue, oldest, hf⟩ := pacedDrain_frame bal t.pollMs fun _ => true
  by_cases hc : EscalationClears (balancePacedDrain bal t.pollMs fun _ => true).1 t.now
  · obtain ⟨a, l, he, hs⟩ := escalation_clears hc t.flow
    rw [PacedTick.next, PacedTick.op, balanceStep, hr, he] at hn
    obtain rfl : a = balNone := hn
    simp at hs
  · obtain ⟨a, l, he, -⟩ := escalation_keeps hc t.flow
    refine ⟨?_, ?_, ?_, ?_⟩
    · simp [PacedTick.sent, PacedTick.op, balanceStep, hr]
    · rw [PacedTick.next, PacedTick.op, balanceStep, hr, he, queued_mark]
    · rw [PacedTick.next, PacedTick.op, balanceStep, hr, he]
      exact congrArg CircuitBalance.drainAccum hf
    · rw [PacedTick.next, PacedTick.op, balanceStep, hr, he, CircuitBalance.mark, hf]

lemma pacedDrain_budget (bal : CircuitBalance) (pollMs : ℕ) (send : ℕ → Bool) :
    total (balancePacedDrain bal pollMs send).2 ≤ ⌊bal.drainAccum + tickCredit bal pollMs⌋₊ :=
  (drain_queued send bal.queue.count _ _).2

lemma pacedDrain_stops (bal : CircuitBalance) (pollMs : ℕ) {f : Bytes} {fs : List Bytes}
    (hf : queued (balancePacedDrain bal pollMs fun _ => true).1 = f :: fs) :
    ⌊bal.drainAccum + tickCredit bal pollMs⌋₊ = total (balancePacedDrain bal pollMs fun _ => true).2 ∨
      ⌊bal.drainAccum + tickCredit bal pollMs⌋₊ <
        total (balancePacedDrain bal pollMs fun _ => true).2 + f.length := by
  refine drain_stops (fun _ => true) (fun _ => rfl) bal.queue.count
    { bal with drainAccum := bal.drainAccum + tickCredit bal pollMs - ⌊bal.drainAccum + tickCredit bal pollMs⌋₊ }
    _ (le_refl _) (show queued _ = f :: fs from ?_)
  rw [← hf]
  simp only [balancePacedDrain]
  split_ifs <;> rfl

lemma total_prefix {fs gs : List Bytes} (h : fs <+: gs) : total fs ≤ total gs := by
  obtain ⟨hs, rfl⟩ := h
  rw [total_append]
  omega

/-- What a steady tick drops, in whole bytes. -/
lemma steady_leftover {bal : CircuitBalance} (hw : WellFormed bal) {t : PacedTick} (ha : bal.action = balNone)
    (hq : queued bal ≠ []) (hn : (t.next bal).action = balNone) (hqn : queued (t.next bal) ≠ []) :
    ∃ left : ℕ, (total (t.sent bal) : ℚ) + (t.next bal).drainAccum + left =
        bal.drainAccum + tickCredit bal t.pollMs ∧ (left = 0 ↔ ExactFit bal t) := by
  obtain ⟨hs, hr, hd, -⟩ := steady_tick hw ha hq hn
  have hb := pacedDrain_budget bal t.pollMs fun _ => true
  have hsplit := pacedDrain_queued bal t.pollMs fun _ => true
  rw [← hs] at hb hsplit
  refine ⟨⌊bal.drainAccum + tickCredit bal t.pollMs⌋₊ - total (t.sent bal), ?_, ?_⟩
  · rw [hd, Nat.cast_sub hb]
    ring
  · constructor
    · intro h0
      exact ⟨t.sent bal, ⟨_, hsplit.symm⟩, by omega⟩
    · rintro ⟨fs, hfs, ht⟩
      obtain ⟨f, gs, hg⟩ := List.exists_cons_of_ne_nil (hr ▸ hqn)
      have hstop := pacedDrain_stops bal t.pollMs hg
      rw [← hs] at hstop
      rw [hg] at hsplit
      rcases List.prefix_or_prefix_of_prefix hfs ⟨f :: gs, hsplit.symm⟩ with hp | ⟨hs', rfl⟩
      · have := total_prefix hp
        omega
      · cases hs' with
        | nil =>
          rw [List.append_nil] at ht
          omega
        | cons g hs' =>
          -- a longer front part starts with the frame the loop refused
          obtain ⟨us, hu⟩ := hfs
          rw [hsplit, List.append_assoc] at hu
          obtain ⟨rfl, -⟩ := List.cons.inj (List.append_cancel_left hu)
          rw [total_append, total_cons] at ht
          omega

lemma creditOf_next {bal : CircuitBalance} {t : PacedTick} (hp : (t.next bal).profile = bal.profile)
    (ts : List PacedTick) : creditOf (t.next bal) ts = creditOf bal ts := by
  simp only [creditOf, tickCredit, balanceEffectiveBaud, hp]

lemma wellFormed_next {bal : CircuitBalance} (hw : WellFormed bal) (t : PacedTick) : WellFormed (t.next bal) :=
  wellFormed_step bal t.op hw

/-- The credit a steady run drops, in whole bytes. -/
lemma steady_run_leftover (ts : List PacedTick) {bal : CircuitBalance} (hw : WellFormed bal) (hs : Steady bal ts) :
    ∃ left : ℕ, (total (sentFrames (runTicks bal ts).2) : ℚ) + (runTicks bal ts).1.drainAccum + left =
        bal.drainAccum + creditOf bal ts ∧ (left = 0 ↔ AllExact bal ts) := by
  induction ts generalizing bal with
  | nil => exact ⟨0, by simp [runTicks, balanceRun, creditOf], by simp [AllExact]⟩
  | cons t ts ih =>
    obtain ⟨⟨ha, hq⟩, ⟨hn, hqn⟩, hs'⟩ := hs
    obtain ⟨-, -, -, hp⟩ := steady_tick hw ha hq hn
    obtain ⟨left, hl, hl0⟩ := steady_leftover hw ha hq hn hqn
    obtain ⟨rest, hr, hr0⟩ := ih (wellFormed_next hw t) hs'
    obtain ⟨h1, h2⟩ := runTicks_cons bal t ts
    refine ⟨left + rest, ?_, ?_⟩
    · rw [creditOf_next hp] at hr
      rw [h1, h2, total_append, Nat.cast_add, Nat.cast_add]
      simp only [creditOf, List.map_cons, List.sum_cons] at hr ⊢
      linarith
    · rw [AllExact, ← hl0, ← hr0]
      omega

lemma steady_prefix (ts : List PacedTick) {bal : CircuitBalance} (hw : WellFormed bal) (hs : Steady bal ts) :
    sentFrames (runTicks bal ts).2 <+: queued bal ∧ (runTicks bal ts).1.drainAccum < 1 := by
  induction ts generalizing bal with
  | nil => exact ⟨List.nil_prefix, hw.credit_lt⟩
  | cons t ts ih =>
    obtain ⟨⟨ha, hq⟩, ⟨hn, -⟩, hs'⟩ := hs
    obtain ⟨hsent, hrest, -, -⟩ := steady_tick hw ha hq hn
    obtain ⟨⟨gs, hg⟩, hlt⟩ := ih (wellFormed_next hw t) hs'
    obtain ⟨h1, h2⟩ := runTicks_cons bal t ts
    refine ⟨⟨gs, ?_⟩, by rw [h1]; exact hlt⟩
    rw [h2, List.append_assoc, hg, hsent, hrest]
    exact (pacedDrain_queued bal t.pollMs fun _ => true).symm

lemma progresses_of_conserves {bal : CircuitBalance} {ts : List PacedTick} (hw : WellFormed bal)
    (hs : Steady bal ts) (hc : Conserves bal ts) : Progresses bal ts := by
  intro fs hfs ht
  obtain ⟨hp, hlt⟩ := steady_prefix ts hw hs
  rw [Conserves] at hc
  have hle : total fs < total (sentFrames (runTicks bal ts).2) + 1 := by
    have : (total fs : ℚ) < total (sentFrames (runTicks bal ts).2) + 1 := by linarith
    exact_mod_cast this
  rcases List.prefix_or_prefix_of_prefix hfs hp with h | ⟨gs, rfl⟩
  · exact h
  · cases gs with
    | nil => simp
    | cons g gs =>
      have hg : g ≠ [] := hw.frames g (hfs.subset (by simp))
      have hpos := List.length_pos_iff.mpr hg
      rw [total_append, total_cons] at hle
      omega

theorem conserves_iff_allExact {bal : CircuitBalance} (hw : WellFormed bal) {ts : List PacedTick}
    (hs : Steady bal ts) : Conserves bal ts ∧ Progresses bal ts ↔ AllExact bal ts := by
  obtain ⟨left, hl, h0⟩ := steady_run_leftover ts hw hs
  have hc : Conserves bal ts ↔ left = 0 := by
    rw [Conserves]
    constructor
    · intro h
      have : (left : ℚ) = 0 := by linarith
      exact_mod_cast this
    · rintro rfl
      simpa using hl
  rw [← h0, ← hc]
  exact ⟨fun h => h.1, fun h => ⟨h, progresses_of_conserves hw hs h⟩⟩

def slowOps : List BalanceOp :=
  [.setProfile ⟨.bwLow, 1, 1200⟩, .submit hastyFrame .ok 1000 1000 (some ⟨false⟩)]

def slowState : CircuitBalance := (balanceRun (circuitBalanceCreate none) slowOps).1

def slowTick : PacedTick := ⟨50, 1000, some ⟨false⟩⟩

lemma slow_steady : Steady slowState [slowTick] := by
  refine ⟨⟨by decide, by decide⟩, ⟨by decide +kernel, by decide +kernel⟩, trivial⟩

theorem conserves_iff_allExact_slow :
    Conserves slowState [slowTick] ∧ Progresses slowState [slowTick] ↔ AllExact slowState [slowTick] :=
  conserves_iff_allExact (wellFormed_run none slowOps) slow_steady

/-- 7.5 bytes of credit against a 40-byte frame: half a byte is left after the tick. -/
theorem slow_loses_credit : Steady slowState [slowTick] ∧ ¬ Conserves slowState [slowTick] := by
  refine ⟨slow_steady, ?_⟩
  rw [Conserves]
  decide +kernel

/-- A front frame longer than one tick's credit is never sent, however long the run. -/
lemma starves {f : Bytes} {fs : List Bytes} (ts : List PacedTick) {bal : CircuitBalance}
    (hw : WellFormed bal) (hs : Steady bal ts) (hq : queued bal = f :: fs)
    (hc : ∀ t ∈ ts, tickCredit bal t.pollMs + 1 ≤ f.length) : sentFrames (runTicks bal ts).2 = [] := by
  induction ts generalizing bal with
  | nil => rfl
  | cons t ts ih =>
    obtain ⟨⟨ha, hne⟩, ⟨hn, -⟩, hs'⟩ := hs
    obtain ⟨hsent, hrest, -, hp⟩ := steady_tick hw ha hne hn
    have hb := pacedDrain_budget bal t.pollMs fun _ => true
    have hsplit := pacedDrain_queued bal t.pollMs fun _ => true
    rw [← hsent] at hb hsplit
    have hlt : ⌊bal.drainAccum + tickCredit bal t.pollMs⌋₊ < f.length := by
      have h1 := hc t List.mem_cons_self
      have h2 := hw.credit_lt
      rw [Nat.floor_lt (add_nonneg hw.credit_nonneg (tickCredit_nonneg _ _))]
      linarith
    have hnil : t.sent bal = [] := by
      cases hsb : t.sent bal with
      | nil => rfl
      | cons g gs =>
        rw [hq, hsb, List.cons_append] at hsplit
        obtain ⟨rfl, -⟩ := List.cons.inj hsplit
        rw [hsb, total_cons] at hb
        omega
    have hcredit : ∀ u ∈ ts, tickCredit (t.next bal) u.pollMs + 1 ≤ f.length := by
      intro u hu
      have h1 := hc u (List.mem_cons_of_mem t hu)
      rwa [tickCredit, balanceEffectiveBaud, hp]
    rw [(runTicks_cons bal t ts).2, hnil, List.nil_append]
    apply ih (wellFormed_next hw t) hs' _ hcredit
    rw [hrest, ← hq, hsplit, hnil, List.nil_append]

end HyBBX.Circuit

/-! A paused link drains nothing: it leaves PAUSE only when its queue is already short enough to resume. -/

namespace HyBBX.Circuit

open HyBBX.Core Lib BalanceAction Config

def serialLag (bal : CircuitBalance) : ℕ := bal.queueBytes * 8 / balanceEffectiveBaud bal

/-- Less than half of either pause threshold. -/
structure Resumable (bal : CircuitBalance) : Prop where
  bytes : bal.queueBytes < bal.cfg.queuePause / 2
  lag : serialLag bal < bal.cfg.lagSec / 2

/-- Ticks with sends that succeed, on a clock that does not fall behind `now`, hand over the whole queue. -/
def Drainable (bal : CircuitBalance) (flow : Option FlowFn) (now : ℤ) : Prop :=
  ∃ ts : List PacedTick, (∀ t ∈ ts, t.flow = flow ∧ t.pollMs < 2 ^ 32 ∧ now ≤ t.now) ∧
    (ts.map PacedTick.now).Pairwise (· ≤ ·) ∧ queued bal <+: sentFrames (runTicks bal ts).2

lemma lagPause_eq (cfg : BalanceConfig) : lagPause cfg = cfg.lagSec / 2 := by
  rw [lagPause]
  split_ifs <;> omega

/-- A clock reading at which the 32-bit age of the oldest frame is nil. -/
def Quiet (oldest now : ℤ) : Prop := 0 < oldest → oldest < now → (now - oldest) % 2 ^ 32 = 0

lemma quiet_exists (oldest now : ℤ) : ∃ c, now ≤ c ∧ Quiet oldest c := by
  refine ⟨oldest + 2 ^ 32 * (now - oldest).toNat, ?_, fun _ _ => ?_⟩
  · have := Int.self_le_toNat (now - oldest)
    omega
  · rw [add_sub_cancel_left]
    exact Int.mul_emod_right _ _

lemma quiet_zero (now : ℤ) : Quiet 0 now := fun h => absurd h (lt_irrefl 0)

section Lag

variable {bal : CircuitBalance} (hbytes : bal.queueBytes < 2 ^ 26)

include hbytes in
lemma serialLag_lt : serialLag bal < 2 ^ 32 := by
  have h := Nat.div_le_self (bal.queueBytes * 8) (balanceEffectiveBaud bal)
  rw [serialLag]
  omega

include hbytes in
lemma serialLag_le_lag (now : ℤ) (hne : bal.queueBytes ≠ 0) : serialLag bal ≤ balanceEstimatedLagSec bal now := by
  have hmod : bal.queueBytes * 8 / balanceEffectiveBaud bal % 2 ^ 32 = serialLag bal :=
    Nat.mod_eq_of_lt (serialLag_lt hbytes)
  rw [balanceEstimatedLagSec, if_neg hne, hmod]
  dsimp only
  split_ifs
  · exact le_max_left _ _
  · exact le_refl _

include hbytes in
lemma lag_le_serialLag {now : ℤ} (hq : Quiet bal.oldestEnqueue now) :
    balanceEstimatedLagSec bal now ≤ serialLag bal := by
  have hmod : bal.queueBytes * 8 / balanceEffectiveBaud bal % 2 ^ 32 = serialLag bal :=
    Nat.mod_eq_of_lt (serialLag_lt hbytes)
  rw [balanceEstimatedLagSec, hmod]
  split_ifs with h0 hage
  · exact Nat.zero_le _
  · rw [hq hage.1 hage.2]
    exact max_le (le_refl _) (Nat.zero_le _)
  · exact le_refl _

end Lag

lemma sendFlow_keeps (bal : CircuitBalance) {action : BalanceAction} (hn : action ≠ balCancel) (reason : String)
    (flow : Option FlowFn) : ∃ l, (balanceSendFlow bal action reason flow).1 = bal.mark bal.action l := by
  cases flow with
  | none => exact ⟨bal.lastSentAction, rfl⟩
  | some f =>
    simp only [balanceSendFlow, FlowFn.apply]
    split_ifs with h1 h2
    · exact ⟨bal.lastSentAction, rfl⟩
    · exact absurd h2.1 hn
    · exact ⟨action, rfl⟩

section Escalation

variable {bal : CircuitBalance} (ha : Admitted bal.cfg) (he : bal.cfg.enabled = true)

include ha he in
/-- Far from every threshold the escalation can only resume. -/
lemma escalation_calm {now : ℤ} (hr : Resumable bal) (hq : Quiet bal.oldestEnqueue now)
    (hs : bal.action = balNone ∨ bal.action = balPause) (flow : Option FlowFn) :
    ∃ l, (balanceApplyEscalation bal now flow).1 = bal.mark balNone l := by
  obtain ⟨hbytes, hserial⟩ := hr
  obtain ⟨⟨hl1, hl2⟩, -, hpb, hbc, hc⟩ := ha
  have hlag := lag_le_serialLag (by omega) hq
  rw [balanceApplyEscalation, if_neg (by rw [he]; decide), if_neg (by rintro ⟨-, h | h⟩ <;> omega), if_neg (by omega),
    lagPause_eq, if_neg (by omega)]
  rcases hs with hs | hs
  · rw [if_neg (by rw [hs]; rintro ⟨h, -⟩; cases h)]
    exact ⟨bal.lastSentAction, by rw [← hs]; rfl⟩
  · rw [if_pos ⟨hs, hbytes, by omega⟩]
    obtain ⟨l, hf⟩ := sendFlow_keeps { bal with action := balNone } (show balResume ≠ balCancel by decide)
      "stabilized" flow
    exact ⟨l, hf⟩

include ha in
/-- Paused and not short enough, the escalation leaves the queue paused or clears it. -/
lemma escalation_stuck (hr : ¬Resumable bal) (hs : bal.action = balPause) (hne : bal.queueBytes ≠ 0)
    (hbytes : bal.queueBytes < bal.cfg.queueBreak) (now : ℤ) (flow : Option FlowFn) :
    queued (balanceApplyEscalation bal now flow).1 = [] ∨ balanceApplyEscalation bal now flow = (bal, []) := by
  obtain ⟨-, -, hpb, hbc, hc⟩ := ha
  by_cases hclear : EscalationClears bal now
  · obtain ⟨a, l, h, -⟩ := escalation_clears hclear flow
    left
    rw [h, queued_mark, queued_clear]
  · right
    have hlag := serialLag_le_lag (by omega) now hne
    rw [balanceApplyEscalation]
    split_ifs with h1 h2 h3 h4 h5 h6 h7 h8
    · rfl
    · exact absurd ⟨by simpa using h1, .inl ⟨h2.1, h2.2, h3⟩⟩ hclear
    · rfl
    · exact absurd ⟨by simpa using h1, .inr ⟨h2, h4, h5⟩⟩ hclear
    · rfl
    · rw [hs] at h7
      cases h7
    · rfl
    · rw [lagPause_eq] at h8
      exact absurd ⟨h8.2.1, by omega⟩ hr
    · rfl

end Escalation

/-- No tick sends anything: the queue is empty, or paused and not short enough. -/
def Stuck (bal : CircuitBalance) : Prop :=
  queued bal = [] ∨ (Admitted bal.cfg ∧ ¬Resumable bal ∧ bal.action = balPause ∧ bal.queueBytes ≠ 0 ∧
    bal.queueBytes < bal.cfg.queueBreak)

lemma stuck_tick {bal : CircuitBalance} (h : Stuck bal) (t : PacedTick) : Stuck (t.next bal) ∧ t.sent bal = [] := by
  rw [PacedTick.next, PacedTick.sent, PacedTick.op]
  simp only [balanceStep, sentFrames_append, sentFrames_sent, sentFrames_flow, List.append_nil]
  have hnot : ¬Drains bal := by
    rintro ⟨-, -, hrun, hne⟩
    rcases h with h | h
    · rw [count_eq_length, h] at hne
      exact hne rfl
    · exact hrun h.2.2.1
  rcases tick_cases bal t.pollMs (fun _ => true) t.now t.flow with ⟨hd, -⟩ | hr | ⟨r, hr⟩
  · exact absurd hd hnot
  · rw [hr]
    exact ⟨h, rfl⟩
  · rw [hr]
    refine ⟨?_, rfl⟩
    rcases h with h | ⟨ha, hres, hs, hne, hb⟩
    · left
      rcases escalation_queued bal t.now t.flow with hq | hq
      · exact hq.trans h
      · exact hq
    · rcases escalation_stuck ha hres hs hne hb t.now t.flow with hq | hq
      · exact .inl hq
      · rw [hq]
        exact .inr ⟨ha, hres, hs, hne, hb⟩

lemma stuck_run (ts : List PacedTick) {bal : CircuitBalance} (h : Stuck bal) :
    sentFrames (runTicks bal ts).2 = [] := by
  induction ts generalizing bal with
  | nil => rfl
  | cons t ts ih =>
    obtain ⟨hn, hs⟩ := stuck_tick h t
    rw [(runTicks_cons bal t ts).2, hs, List.nil_append]
    exact ih hn

-- enough credit for the longest frame, at any baud rate
def longPoll : ℕ := 8000 * circuitMaxFrame

lemma longPoll_credit (bal : CircuitBalance) : (circuitMaxFrame : ℚ) ≤ tickCredit bal longPoll := by
  have hb : 1 ≤ balanceEffectiveBaud bal := by
    rw [balanceEffectiveBaud]
    split_ifs with h
    · decide
    · omega
  have hb' : (1 : ℚ) ≤ balanceEffectiveBaud bal := by exact_mod_cast hb
  rw [tickCredit, if_neg (by decide)]
  simp only [longPoll, Nat.cast_mul, Nat.cast_ofNat]
  have hm : (0 : ℚ) ≤ circuitMaxFrame := Nat.cast_nonneg _
  rw [le_div_iff₀ (by norm_num)]
  nlinarith

lemma longPoll_sends {bal : CircuitBalance} (hw : WellFormed bal) (hq : queued bal ≠ []) :
    (balancePacedDrain bal longPoll fun _ => true).2 ≠ [] := by
  intro hnil
  have hsplit := pacedDrain_queued bal longPoll fun _ => true
  rw [hnil, List.nil_append] at hsplit
  obtain ⟨f, fs, hf⟩ := List.exists_cons_of_ne_nil hq
  have hfit : f.length ≤ circuitMaxFrame := by
    have hm : f ∈ queued bal := by rw [hf]; exact List.mem_cons_self
    obtain ⟨entry, -, rfl⟩ := List.mem_map.mp hm
    exact entry.fits
  have hbudget : circuitMaxFrame ≤ ⌊bal.drainAccum + tickCredit bal longPoll⌋₊ := by
    have := longPoll_credit bal
    have := hw.credit_nonneg
    exact Nat.le_floor (by linarith)
  have hstop := pacedDrain_stops bal longPoll (hsplit.symm.trans hf)
  rw [hnil, total_nil] at hstop
  have hpos : 0 < circuitMaxFrame := by decide
  omega

/-- A state in which every tick at that clock drains. -/
structure Draining (bal : CircuitBalance) (now : ℤ) : Prop where
  wellFormed : WellFormed bal
  admitted : Admitted bal.cfg
  enabled : bal.cfg.enabled = true
  running : bal.action = balNone
  resumable : Resumable bal
  quiet : Quiet bal.oldestEnqueue now

lemma draining_tick {bal : CircuitBalance} {now : ℤ} (h : Draining bal now) (hq : queued bal ≠ [])
    (flow : Option FlowFn) :
    let t : PacedTick := ⟨longPoll, now, flow⟩
    Draining (t.next bal) now ∧ t.sent bal ≠ [] ∧ queued bal = t.sent bal ++ queued (t.next bal) := by
  intro t
  have hd : Drains bal := by
    refine ⟨h.enabled, by rw [h.running]; decide, by rw [h.running]; decide, ?_⟩
    rw [count_eq_length]
    exact fun h0 => hq (List.eq_nil_of_length_eq_zero h0)
  have hr := tick_drains bal longPoll (fun _ => true) now flow hd
  obtain ⟨queue, oldest, hf⟩ := pacedDrain_frame bal longPoll fun _ => true
  have hold := pacedDrain_oldest bal longPoll fun _ => true
  set d := balancePacedDrain bal longPoll fun _ => true with hdef
  have hcfg : d.1.cfg = bal.cfg := by rw [hf]
  have hbytes : d.1.queueBytes ≤ bal.queueBytes := by rw [hf]; exact Nat.sub_le _ _
  have hserial : serialLag d.1 ≤ serialLag bal := by
    have hbaud : balanceEffectiveBaud d.1 = balanceEffectiveBaud bal := by rw [hf]; rfl
    rw [serialLag, serialLag, hbaud]
    exact Nat.div_le_div_right (Nat.mul_le_mul_right 8 hbytes)
  have hres : Resumable d.1 := by
    refine ⟨lt_of_le_of_lt hbytes ?_, lt_of_le_of_lt hserial ?_⟩
    · rw [hcfg]
      exact h.resumable.bytes
    · rw [hcfg]
      exact h.resumable.lag
  have hquiet : Quiet d.1.oldestEnqueue now := by
    rw [hold]
    split_ifs
    · exact quiet_zero now
    · exact h.quiet
  obtain ⟨l, hesc⟩ := escalation_calm (hcfg ▸ h.admitted) (hcfg ▸ h.enabled) hres hquiet
    (.inl (by rw [hf]; exact h.running)) flow
  have hnext : t.next bal = d.1.mark balNone l := by
    rw [PacedTick.next, PacedTick.op, balanceStep, hr]
    exact hesc
  have hsent : t.sent bal = d.2 := by
    simp [t, PacedTick.sent, PacedTick.op, balanceStep, hr]
  rw [hnext, hsent]
  refine ⟨⟨?_, ?_, ?_, rfl, ⟨hres.bytes, hres.lag⟩, hquiet⟩, longPoll_sends h.wellFormed hq,
    pacedDrain_queued bal longPoll _⟩
  · exact wellFormed_mark (wellFormed_pacedDrain h.wellFormed _ _) l (.inl rfl)
  · exact hcfg ▸ h.admitted
  · exact hcfg ▸ h.enabled

-- by the number of frames: each tick hands over at least one
lemma draining_run (flow : Option FlowFn) (n : ℕ) {bal : CircuitBalance} {now : ℤ} (h : Draining bal now)
    (hn : (queued bal).length ≤ n) :
    ∃ ts : List PacedTick, (∀ t ∈ ts, t = ⟨longPoll, now, flow⟩) ∧ sentFrames (runTicks bal ts).2 = queued bal := by
  induction n generalizing bal with
  | zero =>
    have hnil := List.eq_nil_of_length_eq_zero (Nat.le_zero.mp hn)
    exact ⟨[], by simp, by rw [hnil]; rfl⟩
  | succ n ih =>
    by_cases hq : queued bal = []
    · exact ⟨[], by simp, by rw [hq]; rfl⟩
    · obtain ⟨hnext, hsent, hsplit⟩ := draining_tick h hq flow
      have hpos := List.length_pos_iff.mpr hsent
      have hlen := congrArg List.length hsplit
      rw [List.length_append] at hlen
      obtain ⟨ts, hts, hrun⟩ := ih hnext (by omega)
      refine ⟨⟨longPoll, now, flow⟩ :: ts, ?_, ?_⟩
      · intro t ht
        rcases List.mem_cons.mp ht with rfl | ht
        · rfl
        · exact hts t ht
      · rw [(runTicks_cons bal _ ts).2, hrun, ← hsplit]

/-- The first tick resumes, the others drain. -/
lemma drainable_of_resumable {bal : CircuitBalance} (hw : WellFormed bal) (ha : Admitted bal.cfg)
    (hs : bal.action = balPause) (hq : queued bal ≠ []) (hr : Resumable bal) (flow : Option FlowFn) (now : ℤ) :
    Drainable bal flow now := by
  obtain ⟨c, hc, hquiet⟩ := quiet_exists bal.oldestEnqueue now
  have he := hw.enabled hq
  obtain ⟨l, hesc⟩ := escalation_calm ha he hr hquiet (.inr hs) flow
  have hcount : bal.queue.count ≠ 0 := by
    rw [count_eq_length]
    exact fun h0 => hq (List.eq_nil_of_length_eq_zero h0)
  have htick : (⟨longPoll, c, flow⟩ : PacedTick).next bal = bal.mark balNone l ∧
      (⟨longPoll, c, flow⟩ : PacedTick).sent bal = [] := by
    rw [PacedTick.next, PacedTick.sent, PacedTick.op, balanceStep]
    dsimp only
    rw [circuitBalanceTick, if_neg (by rw [hs]; decide), if_neg (by rw [he]; simp [hcount]), if_pos hs]
    exact ⟨hesc, by simp⟩
  have hdrain : Draining (bal.mark balNone l) c := ⟨wellFormed_mark hw l (.inl rfl), ha, he, rfl,
    ⟨hr.bytes, hr.lag⟩, hquiet⟩
  obtain ⟨ts, hts, hrun⟩ := draining_run flow _ hdrain (le_refl _)
  have hall : ∀ t ∈ (⟨longPoll, c, flow⟩ : PacedTick) :: ts, t = ⟨longPoll, c, flow⟩ := by
    intro t ht
    rcases List.mem_cons.mp ht with rfl | ht
    · rfl
    · exact hts t ht
  refine ⟨⟨longPoll, c, flow⟩ :: ts, fun t ht => ?_, ?_, ?_⟩
  · rw [hall t ht]
    exact ⟨rfl, show longPoll < 2 ^ 32 by decide, hc⟩
  · rw [List.pairwise_map]
    refine List.pairwise_of_forall_mem_list fun t ht u hu => ?_
    rw [hall t ht, hall u hu]
  · rw [(runTicks_cons bal _ ts).2, htick.1, htick.2, List.nil_append, hrun]
    exact List.prefix_refl _

lemma cfg_step (bal : CircuitBalance) (op : BalanceOp) : (balanceStep bal op).1.cfg = bal.cfg := by
  cases op with
  | setProfile profile => rfl
  | submit frame send enqueued now flow =>
    simp only [balanceStep]
    rcases submit_cases bal frame send enqueued now flow with ⟨hq, h⟩ | ⟨-, h⟩ | ⟨e, -, h⟩ | ⟨e, -, h⟩
    · rw [h]
      exact (escalation_setup _ now flow).1
    · rw [h]
    · rw [h]
    · rw [h]
      exact (escalation_setup _ now flow).1
  | tick pollMs send now flow =>
    simp only [balanceStep]
    rcases tick_cases bal pollMs send now flow with ⟨-, h⟩ | h | ⟨t, h⟩
    · obtain ⟨queue, oldest, hf⟩ := pacedDrain_frame bal pollMs send
      rw [h, (escalation_setup _ now flow).1, hf]
    · rw [h]
    · rw [h]
      exact (escalation_setup _ now flow).1
  | sparedCancel =>
    obtain ⟨a, l, hs, -⟩ := sparedCancel_mark bal
    simp only [balanceStep, hs]
    rfl

lemma cfg_run (cfg : BalanceConfig) (ops : List BalanceOp) :
    (balanceRun (circuitBalanceCreate (some cfg)) ops).1.cfg = cfg :=
  @Transducer.run_invariant _ _ _ balanceStep (fun bal => bal.cfg = cfg) (fun bal op h => (cfg_step bal op).trans h) _
    rfl ops

lemma queueBytes_ne_zero {bal : CircuitBalance} (hw : WellFormed bal) (hq : queued bal ≠ []) : bal.queueBytes ≠ 0 := by
  obtain ⟨f, fs, hf⟩ := List.exists_cons_of_ne_nil hq
  have hpos := List.length_pos_iff.mpr (hw.frames f (by rw [hf]; exact List.mem_cons_self))
  rw [hw.bytes, hf, total_cons]
  omega

lemma resumable_of_drainable {bal : CircuitBalance} (hw : WellFormed bal) (ha : Admitted bal.cfg)
    (hs : bal.action = balPause) (hq : queued bal ≠ []) (hb : bal.queueBytes < bal.cfg.queueBreak)
    {flow : Option FlowFn} {now : ℤ} (h : Drainable bal flow now) : Resumable bal := by
  obtain ⟨ts, -, -, hsent⟩ := h
  by_contra hr
  rw [stuck_run ts (.inr ⟨ha, hr, hs, queueBytes_ne_zero hw hq, hb⟩)] at hsent
  exact hq (List.prefix_nil.mp hsent)

/-- A paused link can hand over its queue exactly if the queue is short enough to resume at once. -/
theorem pause_drainable_iff (config : HybbxConfig) (ops : List BalanceOp) (flow : Option FlowFn) (now : ℤ)
    (hs : (balanceRun (circuitBalanceCreate (some (serviceBalanceConfig config))) ops).1.action = balPause)
    (hq : queued (balanceRun (circuitBalanceCreate (some (serviceBalanceConfig config))) ops).1 ≠ [])
    (hb : (balanceRun (circuitBalanceCreate (some (serviceBalanceConfig config))) ops).1.queueBytes <
      (serviceBalanceConfig config).queueBreak) :
    Drainable (balanceRun (circuitBalanceCreate (some (serviceBalanceConfig config))) ops).1 flow now ↔
      Resumable (balanceRun (circuitBalanceCreate (some (serviceBalanceConfig config))) ops).1 := by
  have hw := wellFormed_run (some (serviceBalanceConfig config)) ops
  have hcfg := cfg_run (serviceBalanceConfig config) ops
  have ha : Admitted (balanceRun (circuitBalanceCreate (some (serviceBalanceConfig config))) ops).1.cfg := by
    rw [hcfg]
    exact serviceBalanceConfig_admitted config
  constructor
  · intro hd
    exact resumable_of_drainable hw ha hs hq (by rw [hcfg]; exact hb) hd
  · intro hr
    exact drainable_of_resumable hw ha hs hq hr flow now

def longFrame : Bytes := circuitHeader .terminal 2 150 (List.replicate 162 0) ++ List.replicate 150 0x41

/-- More than four seconds of a 300 baud link. -/
def pressedOps : List BalanceOp :=
  [.setProfile ⟨.bwLow, 1, 300⟩, .submit longFrame .ok 1000 1000 (some ⟨false⟩)]

lemma pressed_paused :
    (balanceRun (circuitBalanceCreate (some (serviceBalanceConfig []))) pressedOps).1.action = balPause ∧
    queued (balanceRun (circuitBalanceCreate (some (serviceBalanceConfig []))) pressedOps).1 ≠ [] ∧
    (balanceRun (circuitBalanceCreate (some (serviceBalanceConfig []))) pressedOps).1.queueBytes <
      (serviceBalanceConfig []).queueBreak ∧
    ¬Resumable (balanceRun (circuitBalanceCreate (some (serviceBalanceConfig []))) pressedOps).1 := by
  refine ⟨by decide +kernel, by decide +kernel, by decide +kernel, fun hr => ?_⟩
  have hlag := hr.lag
  revert hlag
  decide +kernel

theorem pause_drainable_iff_pressed :
    Drainable (balanceRun (circuitBalanceCreate (some (serviceBalanceConfig []))) pressedOps).1 none 1000 ↔
      Resumable (balanceRun (circuitBalanceCreate (some (serviceBalanceConfig []))) pressedOps).1 :=
  pause_drainable_iff [] pressedOps none 1000 pressed_paused.1 pressed_paused.2.1 pressed_paused.2.2.1

/-- The frame that pauses its link stays in the queue until it is thrown away. -/
theorem pressed_never_drains :
    (balanceRun (circuitBalanceCreate (some (serviceBalanceConfig []))) pressedOps).1.action = balPause ∧
    queued (balanceRun (circuitBalanceCreate (some (serviceBalanceConfig []))) pressedOps).1 ≠ [] ∧
    (balanceRun (circuitBalanceCreate (some (serviceBalanceConfig []))) pressedOps).1.queueBytes <
      (serviceBalanceConfig []).queueBreak ∧
    ∀ (flow : Option FlowFn) (now : ℤ),
      ¬Drainable (balanceRun (circuitBalanceCreate (some (serviceBalanceConfig []))) pressedOps).1 flow now := by
  obtain ⟨hs, hq, hb, hr⟩ := pressed_paused
  have hcfg := cfg_run (serviceBalanceConfig []) pressedOps
  have ha := serviceBalanceConfig_admitted []
  refine ⟨hs, hq, hb, fun flow now hd => hr ?_⟩
  exact resumable_of_drainable (wellFormed_run _ pressedOps) (by rw [hcfg]; exact ha) hs hq (by rw [hcfg]; exact hb) hd

end HyBBX.Circuit
