import HyBBX.Circuit.BalancePause

/-! Ticks of a balancer with nothing in its queue. -/

namespace HyBBX.Circuit

open HyBBX.Core Lib Lib.Bytes Config BalanceAction

structure IdleTick where
  pollMs : ℕ
  send : ℕ → Bool
  now : ℤ
  flow : Option FlowFn

namespace IdleTick

def call (t : IdleTick) (bal : CircuitBalance) : BalanceOutcome TickResult :=
  circuitBalanceTick bal t.pollMs t.send t.now t.flow

def after (bal : CircuitBalance) (ticks : List IdleTick) : CircuitBalance :=
  ticks.foldl (fun bal t => (t.call bal).bal) bal

end IdleTick

def Throttles (r : BalanceOutcome TickResult) : Prop :=
  r.result = .tickCancelLink ∨ ∃ report ∈ r.reports, report.action = balPause ∨ report.action = balBreak ∨
    report.action = balCancel

/-- Every tick of every run leaves the action at none, and none tells of a pause, a break or a cancel. -/
def NeverThrottled (bal : CircuitBalance) : Prop :=
  ∀ (ticks : List IdleTick) (t : IdleTick),
    (t.call (IdleTick.after bal ticks)).bal.action = balNone ∧ ¬Throttles (t.call (IdleTick.after bal ticks))

section Escalation

variable {bal : CircuitBalance} (ha : Admitted bal.cfg) (hbytes : bal.queueBytes = 0)

include hbytes in
lemma lag_idle (now : ℤ) : balanceEstimatedLagSec bal now = 0 := by
  rw [balanceEstimatedLagSec, if_pos hbytes]

include ha hbytes in
/-- Of an empty queue only the thresholds of a pause can be reached. -/
lemma escalation_idle (henabled : bal.cfg.enabled = true) (now : ℤ) (flow : Option FlowFn) :
    balanceApplyEscalation bal now flow =
      if bal.cfg.lagSec = 1 then
        if bal.action = balNone then balanceSendFlow { bal with action := balPause } balPause "queue_pressure" flow else (bal, [])
      else if bal.action = balPause then balanceSendFlow { bal with action := balNone } balResume "stabilized" flow
      else (bal, []) := by
  obtain ⟨⟨hlow, hhigh⟩, hpause, hbreak, hcancel, hmax⟩ := ha
  rw [balanceApplyEscalation, lag_idle hbytes, if_neg (by rw [henabled]; decide),
    if_neg (by rintro ⟨-, h | h⟩ <;> omega),
    if_neg (by omega), lagPause_eq]
  by_cases hone : bal.cfg.lagSec = 1
  · rw [if_pos hone, if_pos (by omega)]
  · rw [if_neg hone, if_neg (by omega)]
    by_cases hs : bal.action = balPause
    · rw [if_pos hs, if_pos ⟨hs, by omega, by omega⟩]
    · rw [if_neg hs, if_neg fun h => hs h.1]

end Escalation

section Tick

variable {bal : CircuitBalance} (hw : WellFormed bal) (hq : queued bal = [])

include hw hq in
lemma queueBytes_idle : bal.queueBytes = 0 := by
  rw [hw.bytes, hq]
  rfl

include hq in
lemma tick_idle (t : IdleTick) : t.call bal =
    if bal.action = balCancel then ⟨bal, .tickCancelLink, [], []⟩
    else ⟨(balanceApplyEscalation bal t.now t.flow).1, .tickOk, [], (balanceApplyEscalation bal t.now t.flow).2⟩ := by
  have hcount : bal.queue.count = 0 := by
    rw [count_eq_length, hq]
    rfl
  rw [IdleTick.call, circuitBalanceTick]
  by_cases hcancel : bal.action = balCancel
  · rw [if_pos hcancel, if_pos hcancel]
  · rw [if_neg hcancel, if_neg hcancel, if_pos (.inr hcount)]

lemma reports_resume (bal : CircuitBalance) (reason : String) (flow : Option FlowFn) :
    ∀ report ∈ (balanceSendFlow bal balResume reason flow).2, report.action = balResume := by
  cases flow with
  | none => simp [balanceSendFlow]
  | some f =>
    rw [balanceSendFlow]
    split_ifs <;> simp

/-- A link on which nothing waits is left alone from this state on. -/
structure LeftAlone (bal : CircuitBalance) : Prop where
  admitted : Admitted bal.cfg
  wellFormed : WellFormed bal
  empty : queued bal = []
  off : bal.cfg.enabled = false → bal.action = balNone
  calm : bal.cfg.enabled = false ∨ (2 ≤ bal.cfg.lagSec ∧ bal.action ≠ balCancel)

lemma leftAlone_tick {bal : CircuitBalance} (h : LeftAlone bal) (t : IdleTick) :
    (∃ l, (t.call bal).bal = bal.mark balNone l) ∧ ¬Throttles (t.call bal) := by
  have hbytes := queueBytes_idle h.wellFormed h.empty
  have hquiet : ∀ {bal' : CircuitBalance}, ¬Throttles ⟨bal', .tickOk, [], []⟩ := by
    rintro bal' (hresult | ⟨report, hmem, -⟩)
    · cases hresult
    · cases hmem
  have hcancel : bal.action ≠ balCancel := by
    rcases h.calm with hoff | ⟨-, hlive⟩
    · rw [h.off hoff]
      decide
    · exact hlive
  rw [tick_idle h.empty, if_neg hcancel]
  by_cases henabled : bal.cfg.enabled = true
  · have hlag : 2 ≤ bal.cfg.lagSec := by
      rcases h.calm with hoff | ⟨hlag, -⟩
      · exact absurd (hoff.symm.trans henabled) Bool.false_ne_true
      · exact hlag
    rw [escalation_idle h.admitted hbytes henabled, if_neg (by omega)]
    by_cases hs : bal.action = balPause
    · rw [if_pos hs]
      obtain ⟨l, hf⟩ := sendFlow_keeps { bal with action := balNone } (show balResume ≠ balCancel by decide) "stabilized" t.flow
      refine ⟨⟨l, hf⟩, ?_⟩
      rintro (hresult | ⟨report, hmem, haction⟩)
      · cases hresult
      · rw [reports_resume _ _ _ report hmem] at haction
        revert haction
        decide
    · rw [if_neg hs]
      have hnone : bal.action = balNone := by
        rcases h.wellFormed.settled with hnone | hpause | hcancelled
        · exact hnone
        · exact absurd hpause hs
        · exact absurd hcancelled hcancel
      exact ⟨⟨bal.lastSentAction, by rw [← hnone]; rfl⟩, hquiet⟩
  · have hoff : bal.cfg.enabled = false := by simpa using henabled
    rw [balanceApplyEscalation, if_pos hoff]
    exact ⟨⟨bal.lastSentAction, by rw [← h.off hoff]; rfl⟩, hquiet⟩

lemma leftAlone_mark {bal : CircuitBalance} (h : LeftAlone bal) (l : BalanceAction) :
    LeftAlone (bal.mark balNone l) where
  admitted := h.admitted
  wellFormed := wellFormed_mark h.wellFormed l (.inl rfl)
  empty := h.empty
  off _ := rfl
  calm := h.calm.imp_right fun hlag => ⟨hlag.1, (by decide : balNone ≠ balCancel)⟩

lemma leftAlone_after {bal : CircuitBalance} (h : LeftAlone bal) (ticks : List IdleTick) :
    LeftAlone (IdleTick.after bal ticks) := by
  induction ticks generalizing bal with
  | nil => exact h
  | cons t ticks ih =>
    obtain ⟨⟨l, hl⟩, -⟩ := leftAlone_tick h t
    rw [IdleTick.after, List.foldl_cons, hl]
    exact ih (leftAlone_mark h l)

/-- With one second of lag half of it is none, and the idle link is as late as that. -/
lemma tick_throttled {bal : CircuitBalance} (ha : Admitted bal.cfg) (hw : WellFormed bal) (hq : queued bal = [])
    (henabled : bal.cfg.enabled = true) (hlag : bal.cfg.lagSec = 1 ∨ bal.action = balCancel) (t : IdleTick) :
    (t.call bal).bal.action ≠ balNone := by
  rw [tick_idle hq]
  by_cases hcancel : bal.action = balCancel
  · rw [if_pos hcancel, hcancel]
    decide
  · rw [if_neg hcancel, escalation_idle ha (queueBytes_idle hw hq) henabled, if_pos (hlag.resolve_right hcancel)]
    by_cases hnone : bal.action = balNone
    · rw [if_pos hnone]
      obtain ⟨l, hf⟩ := sendFlow_keeps { bal with action := balPause } (show balPause ≠ balCancel by decide) "queue_pressure" t.flow
      dsimp only
      rw [hf]
      exact (by decide : balPause ≠ balNone)
    · rw [if_neg hnone]
      exact hnone

end Tick

section Run

lemma off_step (bal : CircuitBalance) (op : BalanceOp) (h : bal.cfg.enabled = false → bal.action = balNone) :
    (balanceStep bal op).1.cfg.enabled = false → (balanceStep bal op).1.action = balNone := by
  rw [cfg_step]
  intro hoff
  have hnone := h hoff
  have hsame : ∀ now flow, balanceApplyEscalation bal now flow = (bal, []) := by
    intro now flow
    rw [balanceApplyEscalation, if_pos hoff]
  cases op with
  | setProfile profile => exact hnone
  | submit frame send enqueued now flow =>
    rcases submit_cases bal frame send enqueued now flow with ⟨hqueues, -⟩ | ⟨-, hr⟩ | ⟨e, -, hr⟩ | ⟨e, -, hr⟩
    · exact absurd (hoff.symm.trans hqueues.enabled) Bool.false_ne_true
    · rw [balanceStep, hr]
      exact hnone
    · rw [balanceStep, hr]
      exact hnone
    · rw [balanceStep, hr, hsame]
      exact hnone
  | tick pollMs send now flow =>
    rcases tick_cases bal pollMs send now flow with ⟨hdrains, -⟩ | hr | ⟨r, hr⟩
    · exact absurd (hoff.symm.trans hdrains.enabled) Bool.false_ne_true
    · rw [balanceStep, hr]
      exact hnone
    · rw [balanceStep, hr, hsame]
      exact hnone
  | sparedCancel =>
    rw [balanceStep, circuitBalanceSparedCancel, hnone, if_neg (by decide)]
    exact hnone

end Run

/-- Whatever a link has carried, with an empty queue it is left alone exactly if balancing is off, or if the lag it is allowed
is not the shortest one and it has not been cancelled. -/
theorem idle_link_iff (config : HybbxConfig) (ops : List BalanceOp)
    (hq : queued (balanceRun (circuitBalanceCreate (some (serviceBalanceConfig config))) ops).1 = []) :
    NeverThrottled (balanceRun (circuitBalanceCreate (some (serviceBalanceConfig config))) ops).1 ↔
      (serviceBalanceConfig config).enabled = false ∨ (2 ≤ (serviceBalanceConfig config).lagSec ∧
        (balanceRun (circuitBalanceCreate (some (serviceBalanceConfig config))) ops).1.action ≠ balCancel) := by
  have hw := wellFormed_run (some (serviceBalanceConfig config)) ops
  have hcfg := cfg_run (serviceBalanceConfig config) ops
  have ha : Admitted (balanceRun (circuitBalanceCreate (some (serviceBalanceConfig config))) ops).1.cfg := by
    rw [hcfg]
    exact serviceBalanceConfig_admitted config
  have hoff : (balanceRun (circuitBalanceCreate (some (serviceBalanceConfig config))) ops).1.cfg.enabled = false →
      (balanceRun (circuitBalanceCreate (some (serviceBalanceConfig config))) ops).1.action = balNone :=
    @Transducer.run_invariant _ _ _ balanceStep (fun bal => bal.cfg.enabled = false → bal.action = balNone) off_step _ (fun _ => rfl) ops
  generalize (balanceRun (circuitBalanceCreate (some (serviceBalanceConfig config))) ops).1 =
    bal at hw ha hq hoff hcfg ⊢
  rw [← hcfg]
  constructor
  · intro hnever
    by_contra hno
    obtain ⟨henabled, hlag⟩ := not_or.mp hno
    have hlow := ha.lag.1
    refine tick_throttled ha hw hq (by simpa using henabled) ?_ ⟨50, fun _ => true, 0, none⟩ (hnever [] _).1
    by_cases hcancel : bal.action = balCancel
    · exact .inr hcancel
    · have hshort : ¬2 ≤ bal.cfg.lagSec := fun h => hlag ⟨h, hcancel⟩
      exact .inl (by omega)
  · intro hcalm ticks t
    obtain ⟨⟨l, hl⟩, hquiet⟩ := leftAlone_tick (leftAlone_after ⟨ha, hw, hq, hoff, hcalm⟩ ticks) t
    refine ⟨?_, hquiet⟩
    rw [hl]
    rfl

theorem idle_link_iff_default :
    NeverThrottled (balanceRun (circuitBalanceCreate (some (serviceBalanceConfig []))) []).1 :=
  (idle_link_iff [] [] rfl).mpr (.inr ⟨by decide +kernel, by decide⟩)

def hurriedConfig : HybbxConfig := [⟨ofString "circuit", ofString "balance_lag_sec", ofString "1"⟩]

/-- The first tick pauses a link that has never carried a frame. -/
theorem idle_link_paused :
    ¬NeverThrottled (balanceRun (circuitBalanceCreate (some (serviceBalanceConfig hurriedConfig))) []).1 := by
  intro hnever
  have hnone := (hnever [] ⟨50, fun _ => true, 1000, some ⟨false⟩⟩).1
  revert hnone
  decide +kernel

end HyBBX.Circuit
