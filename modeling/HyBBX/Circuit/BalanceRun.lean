import HyBBX.Circuit.Balance
import HyBBX.Lib.Transducer

/-! What the escalation and the send loop of the balancer can do. -/

namespace HyBBX.Circuit

open HyBBX.Core Lib BalanceAction

def queued (bal : CircuitBalance) : List Bytes := bal.queue.toList.map BalanceFrame.data

def total (fs : List Bytes) : ℕ := (fs.map List.length).sum

@[simp] lemma total_nil : total [] = 0 := rfl

@[simp] lemma total_cons (f : Bytes) (fs : List Bytes) : total (f :: fs) = f.length + total fs := rfl

@[simp] lemma total_append (fs gs : List Bytes) : total (fs ++ gs) = total fs + total gs := by
  simp [total]

lemma count_eq_length (bal : CircuitBalance) : bal.queue.count = (queued bal).length := by
  simp [queued]

def CircuitBalance.mark (bal : CircuitBalance) (action last : BalanceAction) : CircuitBalance :=
  { bal with action := action, lastSentAction := last }

@[simp] lemma queued_mark (bal : CircuitBalance) (a l : BalanceAction) : queued (bal.mark a l) = queued bal := rfl

@[simp] lemma queued_clear (bal : CircuitBalance) : queued (balanceClearQueue bal) = [] := rfl

lemma sparedCancel_mark (bal : CircuitBalance) :
    ∃ a l, circuitBalanceSparedCancel bal = bal.mark a l ∧ (a = bal.action ∨ a = balPause) := by
  rw [circuitBalanceSparedCancel]
  split_ifs
  · exact ⟨_, _, rfl, .inr rfl⟩
  · exact ⟨bal.action, bal.lastSentAction, rfl, .inl rfl⟩

lemma sendFlow_mark (bal : CircuitBalance) (action : BalanceAction) (reason : String) (flow : Option FlowFn) :
    ∃ a l, (balanceSendFlow bal action reason flow).1 = bal.mark a l ∧ (a = bal.action ∨ a = balPause) := by
  cases flow with
  | none => exact ⟨bal.action, bal.lastSentAction, rfl, .inl rfl⟩
  | some f =>
    simp only [balanceSendFlow, FlowFn.apply]
    split_ifs
    · exact ⟨bal.action, bal.lastSentAction, rfl, .inl rfl⟩
    · obtain ⟨a, l, h, ha⟩ := sparedCancel_mark bal
      exact ⟨a, action, by rw [h]; rfl, ha⟩
    · exact ⟨bal.action, action, rfl, .inl rfl⟩

/-- The actions a call may leave behind. -/
def Settled (a : BalanceAction) : Prop := a = balNone ∨ a = balPause ∨ a = balCancel

/-- The two escalations that clear the queue. -/
def EscalationClears (bal : CircuitBalance) (now : ℤ) : Prop :=
  bal.cfg.enabled = true ∧
    ((bal.linkLowBw = true ∧
        (bal.cfg.queueCancel ≤ bal.queueBytes ∨ bal.cfg.lagSec * 2 % 2 ^ 32 ≤ balanceEstimatedLagSec bal now) ∧
        bal.action ≠ balCancel) ∨
      (¬ (bal.linkLowBw = true ∧
        (bal.cfg.queueCancel ≤ bal.queueBytes ∨
          bal.cfg.lagSec * 2 % 2 ^ 32 ≤ balanceEstimatedLagSec bal now)) ∧
        (bal.cfg.queueBreak ≤ bal.queueBytes ∨ bal.cfg.lagSec ≤ balanceEstimatedLagSec bal now) ∧
        bal.action ≠ balBreak ∧ bal.action ≠ balCancel))

lemma escalation_clears {bal : CircuitBalance} {now : ℤ} (h : EscalationClears bal now)
    (flow : Option FlowFn) :
    ∃ a l, (balanceApplyEscalation bal now flow).1 = (balanceClearQueue bal).mark a l ∧
      (a = balPause ∨ a = balCancel) := by
  obtain ⟨he, ⟨hl, ho, ha⟩ | ⟨hn, hb, ha⟩⟩ := h
  · obtain ⟨a, l, hs, hsa⟩ := sendFlow_mark (balanceClearQueue { bal with action := balCancel }) balCancel
      "queue_overload" flow
    refine ⟨a, l, ?_, ?_⟩
    · rw [balanceApplyEscalation, if_neg (by simp [he]), if_pos ⟨hl, ho⟩, if_pos ha, hs]
      rfl
    · rcases hsa with rfl | rfl
      · exact .inr rfl
      · exact .inl rfl
  · obtain ⟨a, l, hs, -⟩ := sendFlow_mark (balanceClearQueue { bal with action := balBreak }) balBreak
      "queue_lag" flow
    obtain ⟨b, m, hq, hqa⟩ := sendFlow_mark ((balanceClearQueue bal).mark balPause l) balPause "stabilize" flow
    refine ⟨b, m, ?_, .inl ?_⟩
    · rw [balanceApplyEscalation, if_neg (by simp [he]), if_neg hn, if_pos hb, if_pos ha]
      simp only [hs]
      exact hq
    · rcases hqa with rfl | rfl <;> rfl

lemma escalation_keeps {bal : CircuitBalance} {now : ℤ} (h : ¬ EscalationClears bal now)
    (flow : Option FlowFn) :
    ∃ a l, (balanceApplyEscalation bal now flow).1 = bal.mark a l ∧ (Settled bal.action → Settled a) := by
  have hself : ∃ a l, bal = bal.mark a l ∧ (Settled bal.action → Settled a) :=
    ⟨bal.action, bal.lastSentAction, rfl, id⟩
  have hflow : ∀ action reason a, Settled a → ∃ b l,
      (balanceSendFlow { bal with action := a } action reason flow).1 = bal.mark b l ∧
        (Settled bal.action → Settled b) := by
    intro action reason a ha
    obtain ⟨b, l, hs, hsb⟩ := sendFlow_mark { bal with action := a } action reason flow
    refine ⟨b, l, hs, fun _ => ?_⟩
    rcases hsb with rfl | rfl
    · exact ha
    · exact .inr (.inl rfl)
  rw [balanceApplyEscalation]
  split_ifs with he hc ha hb ha' hp hn hr
  · exact hself
  · exact absurd ⟨by simpa using he, .inl ⟨hc.1, hc.2, ha⟩⟩ h
  · exact hself
  · exact absurd ⟨by simpa using he, .inr ⟨hc, hb, ha'⟩⟩ h
  · exact hself
  · exact hflow balPause "queue_pressure" balPause (.inr (.inl rfl))
  · exact hself
  · exact hflow balResume "stabilized" balNone (.inl rfl)
  · exact hself

lemma escalation_queued (bal : CircuitBalance) (now : ℤ) (flow : Option FlowFn) :
    queued (balanceApplyEscalation bal now flow).1 = queued bal ∨
      queued (balanceApplyEscalation bal now flow).1 = [] := by
  by_cases h : EscalationClears bal now
  · obtain ⟨a, l, he, -⟩ := escalation_clears h flow
    exact .inr (by rw [he, queued_mark, queued_clear])
  · obtain ⟨a, l, he, -⟩ := escalation_keeps h flow
    exact .inl (by rw [he, queued_mark])

lemma escalation_setup (bal : CircuitBalance) (now : ℤ) (flow : Option FlowFn) :
    (balanceApplyEscalation bal now flow).1.cfg = bal.cfg ∧
      (balanceApplyEscalation bal now flow).1.profile = bal.profile ∧
      (balanceApplyEscalation bal now flow).1.linkLowBw = bal.linkLowBw := by
  by_cases h : EscalationClears bal now
  · obtain ⟨a, l, he, -⟩ := escalation_clears h flow
    rw [he]
    exact ⟨rfl, rfl, rfl⟩
  · obtain ⟨a, l, he, -⟩ := escalation_keeps h flow
    rw [he]
    exact ⟨rfl, rfl, rfl⟩

lemma queued_enqueue {bal : CircuitBalance} (h : bal.queue.count < circuitBalanceQueueMax)
    (entry : BalanceFrame) (now : ℤ) : queued (balanceEnqueue bal entry now) = queued bal ++ [entry.data] := by
  simp only [queued, balanceEnqueue, Ring.toList_push _ _ h, List.map_append, List.map_singleton]

lemma queued_pop {bal : CircuitBalance} {entry : BalanceFrame} (h : bal.queue.front = some entry) :
    queued bal = entry.data :: queued (balancePop bal entry) := by
  simp only [queued, balancePop, Ring.toList_pop _ h, List.map_cons]

lemma drain_queued (send : ℕ → Bool) (k : ℕ) (bal : CircuitBalance) (budget : ℕ) :
    queued bal = (balanceDrain send k bal budget).2 ++ queued (balanceDrain send k bal budget).1 ∧
      total (balanceDrain send k bal budget).2 ≤ budget := by
  induction k generalizing bal budget with
  | zero => exact ⟨rfl, Nat.zero_le _⟩
  | succ k ih =>
    rw [balanceDrain]
    split
    · exact ⟨rfl, Nat.zero_le _⟩
    · rename_i entry hf
      split_ifs with hs
      · exact ⟨rfl, Nat.zero_le _⟩
      · obtain ⟨hq, ht⟩ := ih (balancePop bal entry) (budget - entry.data.length)
        refine ⟨?_, ?_⟩
        · rw [queued_pop hf, List.cons_append, ← hq]
        · rw [total_cons]
          omega

lemma drain_frame (send : ℕ → Bool) (k : ℕ) (bal : CircuitBalance) (budget : ℕ) :
    ∃ queue, (balanceDrain send k bal budget).1 =
      { bal with
        queue := queue
        queueBytes := bal.queueBytes - total (balanceDrain send k bal budget).2 } := by
  induction k generalizing bal budget with
  | zero => exact ⟨bal.queue, rfl⟩
  | succ k ih =>
    rw [balanceDrain]
    split
    · exact ⟨bal.queue, rfl⟩
    · rename_i entry hf
      split_ifs with hs
      · exact ⟨bal.queue, rfl⟩
      · obtain ⟨queue, hq⟩ := ih (balancePop bal entry) (budget - entry.data.length)
        refine ⟨queue, ?_⟩
        rw [total_cons, ← Nat.sub_sub]
        exact hq

/-- The send loop forgets the clock reading only when it empties the queue. -/
lemma pacedDrain_oldest (bal : CircuitBalance) (pollMs : ℕ) (send : ℕ → Bool) :
    (balancePacedDrain bal pollMs send).1.oldestEnqueue =
      if queued (balancePacedDrain bal pollMs send).1 = [] then 0 else bal.oldestEnqueue := by
  obtain ⟨queue, h⟩ := drain_frame send bal.queue.count
    { bal with drainAccum := bal.drainAccum + tickCredit bal pollMs - ⌊bal.drainAccum + tickCredit bal pollMs⌋₊ }
    ⌊bal.drainAccum + tickCredit bal pollMs⌋₊
  have hcount := count_eq_length (balanceDrain send bal.queue.count
    { bal with drainAccum := bal.drainAccum + tickCredit bal pollMs - ⌊bal.drainAccum + tickCredit bal pollMs⌋₊ }
    ⌊bal.drainAccum + tickCredit bal pollMs⌋₊).1
  simp only [balancePacedDrain]
  by_cases hzero : (balanceDrain send bal.queue.count
      { bal with drainAccum := bal.drainAccum + tickCredit bal pollMs - ⌊bal.drainAccum + tickCredit bal pollMs⌋₊ }
      ⌊bal.drainAccum + tickCredit bal pollMs⌋₊).1.queue.count = 0
  · rw [if_pos hzero]
    have hnil := List.eq_nil_of_length_eq_zero (hcount.symm.trans hzero)
    exact (if_pos hnil).symm
  · rw [if_neg hzero, if_neg fun hnil => hzero (by rw [hcount, hnil, List.length_nil]), h]

/-- The loop stops at a frame only when the budget is spent, too small for it, or the link refuses. -/
lemma drain_stops (send : ℕ → Bool) (hs : ∀ i, send i = true) (k : ℕ) (bal : CircuitBalance) (budget : ℕ)
    (hk : bal.queue.count ≤ k) {f : Bytes} {fs : List Bytes}
    (hf : queued (balanceDrain send k bal budget).1 = f :: fs) :
    budget = total (balanceDrain send k bal budget).2 ∨
      budget < total (balanceDrain send k bal budget).2 + f.length := by
  induction k generalizing bal budget with
  | zero =>
    have hc := count_eq_length bal
    rw [balanceDrain] at hf
    rw [hf, List.length_cons] at hc
    omega
  | succ k ih =>
    rw [balanceDrain] at hf ⊢
    cases hq : bal.queue.front with
    | none =>
      rw [hq] at hf
      simp only [queued, Ring.toList_of_front_none _ hq] at hf
      simp at hf
    | some entry =>
      have hpop := queued_pop hq
      simp only [hq, hs, Bool.true_eq_false, or_false] at hf ⊢
      split_ifs at hf ⊢ with hb
      · rw [hpop] at hf
        obtain ⟨rfl, -⟩ := List.cons.inj hf
        rw [total_nil]
        omega
      · have hc : (balancePop bal entry).queue.count ≤ k := by
          have h1 := count_eq_length bal
          have h2 := count_eq_length (balancePop bal entry)
          rw [hpop, List.length_cons] at h1
          omega
        have := ih (balancePop bal entry) (budget - entry.data.length) hc hf
        rw [total_cons]
        omega

/-! Runs of balancer calls, and what holds of every state a run reaches. -/

inductive BalanceOp
  | setProfile (profile : LinkProfile)
  | submit (frame : Bytes) (send : HybbxResult) (enqueued now : ℤ) (flow : Option FlowFn)
  | tick (pollMs : ℕ) (send : ℕ → Bool) (now : ℤ) (flow : Option FlowFn)
  | sparedCancel

inductive BalanceEvent
  | accepted (frame : Bytes)
  | sent (frame : Bytes)
  | flow (report : FlowReport)
  deriving DecidableEq, Repr

def balanceStep (bal : CircuitBalance) : BalanceOp → CircuitBalance × List BalanceEvent
  | .setProfile profile => (circuitBalanceSetProfile bal profile, [])
  | .submit frame send enqueued now flow =>
    let r := circuitBalanceSubmit bal frame send enqueued now flow
    (r.bal, r.sent.map .sent ++ (if r.result = .ok then [.accepted frame] else []) ++ r.reports.map .flow)
  | .tick pollMs send now flow =>
    let r := circuitBalanceTick bal pollMs send now flow
    (r.bal, r.sent.map .sent ++ r.reports.map .flow)
  | .sparedCancel => (circuitBalanceSparedCancel bal, [])

def balanceRun (bal : CircuitBalance) (ops : List BalanceOp) : CircuitBalance × List BalanceEvent :=
  Transducer.run balanceStep bal ops

def acceptedFrames (es : List BalanceEvent) : List Bytes :=
  es.filterMap fun
    | .accepted f => some f
    | _ => none

def sentFrames (es : List BalanceEvent) : List Bytes :=
  es.filterMap fun
    | .sent f => some f
    | _ => none

def flowReports (es : List BalanceEvent) : List FlowReport :=
  es.filterMap fun
    | .flow r => some r
    | _ => none

/-- The state and input on which a submit puts its frame into the queue. -/
structure Queues (bal : CircuitBalance) (frame : Bytes) : Prop where
  nonempty : frame ≠ []
  enabled : bal.cfg.enabled = true
  low : bal.profile.bandwidth = .bwLow
  live : bal.action ≠ balCancel
  room : bal.queue.count < circuitBalanceQueueMax
  fits : frame.length ≤ circuitMaxFrame

section Submit

variable (bal : CircuitBalance) (frame : Bytes) (send : HybbxResult) (enqueued now : ℤ) (flow : Option FlowFn)

lemma submit_queues (h : Queues bal frame) :
    circuitBalanceSubmit bal frame send enqueued now flow =
      ⟨(balanceApplyEscalation (balanceEnqueue bal ⟨frame, h.fits⟩ enqueued) now flow).1, .ok, [],
        (balanceApplyEscalation (balanceEnqueue bal ⟨frame, h.fits⟩ enqueued) now flow).2⟩ := by
  have hl : frame.length ≠ 0 := fun h0 => h.nonempty (List.eq_nil_of_length_eq_zero h0)
  have hd : ¬ (bal.cfg.enabled = false ∨ bal.profile.bandwidth = .bwHigh) := by simp [h.enabled, h.low]
  have hr := h.room
  rw [circuitBalanceSubmit, if_neg hl, if_neg hd, if_neg h.live, if_neg (by omega), dif_pos h.fits]

lemma submit_cases :
    (∃ h : Queues bal frame, circuitBalanceSubmit bal frame send enqueued now flow =
      ⟨(balanceApplyEscalation (balanceEnqueue bal ⟨frame, h.fits⟩ enqueued) now flow).1, .ok, [],
        (balanceApplyEscalation (balanceEnqueue bal ⟨frame, h.fits⟩ enqueued) now flow).2⟩) ∨
    ((bal.cfg.enabled = false ∨ bal.profile.bandwidth = .bwHigh) ∧
      circuitBalanceSubmit bal frame send enqueued now flow =
        ⟨bal, send, if send = .ok then [frame] else [], []⟩) ∨
    (∃ e, e ≠ .ok ∧ circuitBalanceSubmit bal frame send enqueued now flow = ⟨bal, e, [], []⟩) ∨
    (∃ e, e ≠ .ok ∧ circuitBalanceSubmit bal frame send enqueued now flow =
      ⟨(balanceApplyEscalation bal now flow).1, e, [], (balanceApplyEscalation bal now flow).2⟩) := by
  by_cases hq : Queues bal frame
  · exact .inl ⟨hq, submit_queues bal frame send enqueued now flow hq⟩
  · right
    rw [circuitBalanceSubmit]
    by_cases h0 : frame.length = 0
    · rw [if_pos h0]
      exact .inr (.inl ⟨_, by simp, rfl⟩)
    rw [if_neg h0]
    by_cases hd : bal.cfg.enabled = false ∨ bal.profile.bandwidth = .bwHigh
    · rw [if_pos hd]
      exact .inl ⟨hd, rfl⟩
    rw [if_neg hd]
    by_cases hc : bal.action = balCancel
    · rw [if_pos hc]
      exact .inr (.inl ⟨_, by simp, rfl⟩)
    rw [if_neg hc]
    by_cases hm : circuitBalanceQueueMax ≤ bal.queue.count
    · rw [if_pos hm]
      exact .inr (.inr ⟨_, by split_ifs <;> simp, rfl⟩)
    rw [if_neg hm]
    by_cases hl : frame.length ≤ circuitMaxFrame
    · simp only [not_or, Bool.not_eq_false] at hd
      have hlow : bal.profile.bandwidth = .bwLow := by
        cases hb : bal.profile.bandwidth
        · exact absurd hb hd.2
        · rfl
      exact absurd ⟨fun h => h0 (by rw [h]; rfl), hd.1, hlow, hc, by omega, hl⟩ hq
    · rw [dif_neg hl]
      exact .inr (.inl ⟨_, by simp, rfl⟩)

end Submit

section Tick

variable (bal : CircuitBalance) (pollMs : ℕ) (send : ℕ → Bool) (now : ℤ) (flow : Option FlowFn)

/-- The states in which a tick drains the queue. -/
structure Drains (bal : CircuitBalance) : Prop where
  enabled : bal.cfg.enabled = true
  live : bal.action ≠ balCancel
  running : bal.action ≠ balPause
  nonempty : bal.queue.count ≠ 0

lemma tick_drains (h : Drains bal) :
    circuitBalanceTick bal pollMs send now flow =
      ⟨(balanceApplyEscalation (balancePacedDrain bal pollMs send).1 now flow).1,
        tickResult (balanceApplyEscalation (balancePacedDrain bal pollMs send).1 now flow).1,
        (balancePacedDrain bal pollMs send).2,
        (balanceApplyEscalation (balancePacedDrain bal pollMs send).1 now flow).2⟩ := by
  rw [circuitBalanceTick, if_neg h.live, if_neg (by simp [h.enabled, h.nonempty]), if_neg h.running]

lemma tick_cases :
    (Drains bal ∧ circuitBalanceTick bal pollMs send now flow =
      ⟨(balanceApplyEscalation (balancePacedDrain bal pollMs send).1 now flow).1,
        tickResult (balanceApplyEscalation (balancePacedDrain bal pollMs send).1 now flow).1,
        (balancePacedDrain bal pollMs send).2,
        (balanceApplyEscalation (balancePacedDrain bal pollMs send).1 now flow).2⟩) ∨
    circuitBalanceTick bal pollMs send now flow = ⟨bal, .tickCancelLink, [], []⟩ ∨
    (∃ t, circuitBalanceTick bal pollMs send now flow =
      ⟨(balanceApplyEscalation bal now flow).1, t, [], (balanceApplyEscalation bal now flow).2⟩) := by
  by_cases hd : Drains bal
  · exact .inl ⟨hd, tick_drains bal pollMs send now flow hd⟩
  · right
    rw [circuitBalanceTick]
    split_ifs with hc he hp
    · exact .inl rfl
    · exact .inr ⟨_, rfl⟩
    · exact .inr ⟨_, rfl⟩
    · simp only [not_or, Bool.not_eq_false] at he
      exact absurd ⟨he.1, hc, hp, he.2⟩ hd

lemma pacedDrain_queued :
    queued bal = (balancePacedDrain bal pollMs send).2 ++ queued (balancePacedDrain bal pollMs send).1 := by
  have h := (drain_queued send bal.queue.count
    { bal with drainAccum := bal.drainAccum + tickCredit bal pollMs - ⌊bal.drainAccum + tickCredit bal pollMs⌋₊ }
    ⌊bal.drainAccum + tickCredit bal pollMs⌋₊).1
  simp only [balancePacedDrain]
  split_ifs <;> exact h

lemma pacedDrain_frame : ∃ queue oldest, (balancePacedDrain bal pollMs send).1 =
    { bal with
      queue := queue
      queueBytes := bal.queueBytes - total (balancePacedDrain bal pollMs send).2
      drainAccum := bal.drainAccum + tickCredit bal pollMs - ⌊bal.drainAccum + tickCredit bal pollMs⌋₊
      oldestEnqueue := oldest } := by
  obtain ⟨queue, h⟩ := drain_frame send bal.queue.count
    { bal with drainAccum := bal.drainAccum + tickCredit bal pollMs - ⌊bal.drainAccum + tickCredit bal pollMs⌋₊ }
    ⌊bal.drainAccum + tickCredit bal pollMs⌋₊
  simp only [balancePacedDrain]
  split_ifs
  · exact ⟨queue, 0, by rw [h]⟩
  · exact ⟨queue, bal.oldestEnqueue, h⟩

end Tick

structure WellFormed (bal : CircuitBalance) : Prop where
  bytes : bal.queueBytes = total (queued bal)
  frames : ∀ f ∈ queued bal, f ≠ []
  credit_nonneg : 0 ≤ bal.drainAccum
  credit_lt : bal.drainAccum < 1
  settled : Settled bal.action
  enabled : queued bal ≠ [] → bal.cfg.enabled = true

lemma wellFormed_create (cfg : Option BalanceConfig) : WellFormed (circuitBalanceCreate cfg) where
  bytes := rfl
  frames := by intro f hf; cases hf
  credit_nonneg := le_refl _
  credit_lt := zero_lt_one
  settled := .inl rfl
  enabled h := absurd rfl h

lemma wellFormed_mark {bal : CircuitBalance} (h : WellFormed bal) {a : BalanceAction} (l : BalanceAction)
    (ha : Settled a) : WellFormed (bal.mark a l) :=
  ⟨h.bytes, h.frames, h.credit_nonneg, h.credit_lt, ha, h.enabled⟩

lemma wellFormed_escalation {bal : CircuitBalance} (h : WellFormed bal) (now : ℤ) (flow : Option FlowFn) :
    WellFormed (balanceApplyEscalation bal now flow).1 := by
  by_cases hc : EscalationClears bal now
  · obtain ⟨a, l, he, ha⟩ := escalation_clears hc flow
    rw [he]
    refine ⟨rfl, ?_, le_refl _, zero_lt_one, .inr ha, fun h0 => absurd rfl h0⟩
    intro f hf
    cases hf
  · obtain ⟨a, l, he, ha⟩ := escalation_keeps hc flow
    rw [he]
    exact wellFormed_mark h l (ha h.settled)

lemma wellFormed_submit {bal : CircuitBalance} (h : WellFormed bal) (frame : Bytes) (send : HybbxResult)
    (enqueued now : ℤ) (flow : Option FlowFn) :
    WellFormed (circuitBalanceSubmit bal frame send enqueued now flow).bal := by
  rcases submit_cases bal frame send enqueued now flow with ⟨hq, hr⟩ | ⟨-, hr⟩ | ⟨e, -, hr⟩ | ⟨e, -, hr⟩
  · rw [hr]
    have hqueue := queued_enqueue hq.room ⟨frame, hq.fits⟩ enqueued
    apply wellFormed_escalation
    refine ⟨?_, ?_, h.credit_nonneg, h.credit_lt, h.settled, fun _ => hq.enabled⟩
    · rw [hqueue, total_append, ← h.bytes]
      rfl
    · intro f hf
      rw [hqueue] at hf
      rcases List.mem_append.mp hf with hf | hf
      · exact h.frames f hf
      · rw [List.mem_singleton.mp hf]
        exact hq.nonempty
  · rw [hr]
    exact h
  · rw [hr]
    exact h
  · rw [hr]
    exact wellFormed_escalation h now flow

lemma tickCredit_nonneg (bal : CircuitBalance) (pollMs : ℕ) : 0 ≤ tickCredit bal pollMs := by
  rw [tickCredit]
  positivity

lemma wellFormed_pacedDrain {bal : CircuitBalance} (h : WellFormed bal) (pollMs : ℕ) (send : ℕ → Bool) :
    WellFormed (balancePacedDrain bal pollMs send).1 := by
  have hq := pacedDrain_queued bal pollMs send
  have hc : 0 ≤ bal.drainAccum + tickCredit bal pollMs :=
    add_nonneg h.credit_nonneg (tickCredit_nonneg bal pollMs)
  obtain ⟨queue, oldest, hf⟩ := pacedDrain_frame bal pollMs send
  refine ⟨?_, ?_, ?_, ?_, ?_, ?_⟩
  · have hb := h.bytes
    rw [hq, total_append] at hb
    have he : (balancePacedDrain bal pollMs send).1.queueBytes =
        bal.queueBytes - total (balancePacedDrain bal pollMs send).2 := by rw [hf]
    omega
  · intro f hm
    exact h.frames f (by rw [hq]; exact List.mem_append_right _ hm)
  · rw [hf]
    exact sub_nonneg.mpr (Nat.floor_le hc)
  · rw [hf]
    have := Nat.lt_floor_add_one (bal.drainAccum + tickCredit bal pollMs)
    change bal.drainAccum + tickCredit bal pollMs - ⌊bal.drainAccum + tickCredit bal pollMs⌋₊ < 1
    linarith
  · rw [hf]
    exact h.settled
  · intro hn
    rw [hf]
    apply h.enabled
    rw [hq]
    exact List.append_ne_nil_of_right_ne_nil _ hn

lemma wellFormed_step (bal : CircuitBalance) (op : BalanceOp) (h : WellFormed bal) :
    WellFormed (balanceStep bal op).1 := by
  cases op with
  | setProfile profile => exact ⟨h.bytes, h.frames, h.credit_nonneg, h.credit_lt, h.settled, h.enabled⟩
  | submit frame send enqueued now flow => exact wellFormed_submit h frame send enqueued now flow
  | tick pollMs send now flow =>
    simp only [balanceStep]
    rcases tick_cases bal pollMs send now flow with ⟨-, hr⟩ | hr | ⟨t, hr⟩
    · rw [hr]
      exact wellFormed_escalation (wellFormed_pacedDrain h pollMs send) now flow
    · rw [hr]
      exact h
    · rw [hr]
      exact wellFormed_escalation h now flow
  | sparedCancel =>
    obtain ⟨a, l, hs, ha⟩ := sparedCancel_mark bal
    simp only [balanceStep, hs]
    refine wellFormed_mark h l ?_
    rcases ha with rfl | rfl
    · exact h.settled
    · exact .inr (.inl rfl)

lemma wellFormed_run (cfg : Option BalanceConfig) (ops : List BalanceOp) :
    WellFormed (balanceRun (circuitBalanceCreate cfg) ops).1 :=
  Transducer.run_invariant balanceStep wellFormed_step (wellFormed_create cfg) ops

end HyBBX.Circuit
