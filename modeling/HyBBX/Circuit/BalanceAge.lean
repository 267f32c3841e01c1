import HyBBX.Circuit.BalanceRun
import Mathlib.Data.List.DropRight

/-! How old the frame at the head of the queue is, and what the balancer takes its age for. -/

namespace HyBBX.Circuit

open HyBBX.Core Lib BalanceAction

/-- The balancer and its queue with the clock readings at which the frames were put there. -/
structure StampedBalance where
  bal : CircuitBalance
  waiting : List (Bytes × ℤ)

instance (bal : CircuitBalance) (frame : Bytes) : Decidable (Queues bal frame) :=
  decidable_of_iff (frame ≠ [] ∧ bal.cfg.enabled = true ∧ bal.profile.bandwidth = .bwLow ∧ bal.action ≠ balCancel ∧
    bal.queue.count < circuitBalanceQueueMax ∧ frame.length ≤ circuitMaxFrame)
    ⟨fun ⟨a, b, c, d, e, f⟩ => ⟨a, b, c, d, e, f⟩, fun ⟨a, b, c, d, e, f⟩ => ⟨a, b, c, d, e, f⟩⟩

def enqueuedBy (bal : CircuitBalance) : BalanceOp → List (Bytes × ℤ)
  | .submit frame _ enqueued _ _ => if Queues bal frame then [(frame, enqueued)] else []
  | _ => []

-- frames leave at the head, so the last ones are there
def stampedStep (s : StampedBalance) (op : BalanceOp) : StampedBalance × List BalanceEvent :=
  let r := balanceStep s.bal op
  (⟨r.1, (s.waiting ++ enqueuedBy s.bal op).rtake r.1.queue.count⟩, r.2)

def stampedCreate (cfg : Option BalanceConfig) : StampedBalance := ⟨circuitBalanceCreate cfg, []⟩

def stampedRun (cfg : Option BalanceConfig) (ops : List BalanceOp) : StampedBalance :=
  (Transducer.run stampedStep (stampedCreate cfg) ops).1

def ClockPositive : BalanceOp → Prop
  | .submit _ _ enqueued _ _ => 0 < enqueued
  | _ => True

/-- The clock reading is that of the frame at the head, and the lag is its age or the time the queue needs. -/
structure AgeTracked (s : StampedBalance) : Prop where
  frames : s.waiting.map Prod.fst = queued s.bal
  oldest : ∀ frame since, s.waiting.head? = some (frame, since) → s.bal.oldestEnqueue = since ∧
    ∀ now, balanceEstimatedLagSec s.bal now ≤
      max (s.bal.queueBytes * 8 / balanceEffectiveBaud s.bal) (now - since).toNat

/-- A tick that sends frames from the head and leaves one that was queued at another time. -/
def LeavesYounger (s : StampedBalance) : BalanceOp → Prop
  | .tick pollMs send now _ =>
    Drains s.bal ∧ ¬EscalationClears (balancePacedDrain s.bal pollMs send).1 now ∧
      ∃ old young : Bytes × ℤ, s.waiting.head? = some old ∧
        (s.waiting.drop (balancePacedDrain s.bal pollMs send).2.length).head? = some young ∧ old.2 ≠ young.2
  | _ => False

/-- What holds in every run: the stamps belong to the frames that wait, and an empty queue has none. -/
structure Stamped (s : StampedBalance) : Prop where
  frames : s.waiting.map Prod.fst = queued s.bal
  positive : ∀ e ∈ s.waiting, 0 < e.2
  empty : s.waiting = [] → s.bal.oldestEnqueue = 0
  known : s.waiting ≠ [] → s.bal.oldestEnqueue ≠ 0

lemma Stamped.count {s : StampedBalance} (h : Stamped s) : s.bal.queue.count = s.waiting.length := by
  rw [count_eq_length, ← h.frames, List.length_map]

/-- What one step does to the stamps: a frame joins at the end, frames leave at the head, or all are gone. -/
inductive StampStep (s : StampedBalance) (op : BalanceOp) : Prop
  | cleared (hyoung : ¬LeavesYounger s op) (hw : (stampedStep s op).1.waiting = [])
      (hq : queued (stampedStep s op).1.bal = []) (ho : (stampedStep s op).1.bal.oldestEnqueue = 0)
  | kept (hyoung : ¬LeavesYounger s op) (hw : (stampedStep s op).1.waiting = s.waiting)
      (hq : queued (stampedStep s op).1.bal = queued s.bal)
      (ho : (stampedStep s op).1.bal.oldestEnqueue = s.bal.oldestEnqueue)
  | joined (hyoung : ¬LeavesYounger s op) (frame : Bytes) (enqueued : ℤ) (hpos : 0 < enqueued)
      (hw : (stampedStep s op).1.waiting = s.waiting ++ [(frame, enqueued)])
      (hq : queued (stampedStep s op).1.bal = queued s.bal ++ [frame])
      (ho : (stampedStep s op).1.bal.oldestEnqueue = if s.bal.oldestEnqueue = 0 then enqueued else s.bal.oldestEnqueue)
  | drained (k : ℕ)
      (hyoung : LeavesYounger s op ↔ ∃ old young : Bytes × ℤ, s.waiting.head? = some old ∧
        (s.waiting.drop k).head? = some young ∧ old.2 ≠ young.2)
      (hw : (stampedStep s op).1.waiting = s.waiting.drop k)
      (hq : queued (stampedStep s op).1.bal = (queued s.bal).drop k)
      (ho : (stampedStep s op).1.bal.oldestEnqueue = if s.waiting.drop k = [] then 0 else s.bal.oldestEnqueue)

section Step

variable {s : StampedBalance}

lemma stamped_bal (s : StampedBalance) (op : BalanceOp) : (stampedStep s op).1.bal = (balanceStep s.bal op).1 := rfl

lemma waiting_of_nil {op : BalanceOp} (h : queued (balanceStep s.bal op).1 = []) :
    (stampedStep s op).1.waiting = [] := by
  have hcount := count_eq_length (balanceStep s.bal op).1
  rw [h, List.length_nil] at hcount
  rw [stampedStep]
  dsimp only
  rw [hcount, List.rtake_zero]

lemma waiting_of_drop (hs : Stamped s) {op : BalanceOp} (hnew : enqueuedBy s.bal op = []) {k : ℕ}
    (h : queued (balanceStep s.bal op).1 = (queued s.bal).drop k) :
    (stampedStep s op).1.waiting = s.waiting.drop k := by
  have hcount := count_eq_length (balanceStep s.bal op).1
  rw [h, List.length_drop, ← count_eq_length, hs.count] at hcount
  rw [stampedStep]
  dsimp only
  rw [hnew, List.append_nil, hcount, List.rtake]
  by_cases hk : k ≤ s.waiting.length
  · rw [Nat.sub_sub_self hk]
  · rw [List.drop_eq_nil_of_le (show s.waiting.length ≤ k by omega), List.drop_eq_nil_of_le (by omega)]

lemma waiting_of_same (hs : Stamped s) {op : BalanceOp} (hnew : enqueuedBy s.bal op = [])
    (h : queued (balanceStep s.bal op).1 = queued s.bal) : (stampedStep s op).1.waiting = s.waiting := by
  have hdrop := @waiting_of_drop s hs op hnew 0 (by rw [h, List.drop_zero])
  rwa [List.drop_zero] at hdrop

/-- A step that only runs the escalation on the state as it was. -/
lemma stampStep_escalation (hs : Stamped s) {op : BalanceOp} (hyoung : ¬LeavesYounger s op)
    (hnew : enqueuedBy s.bal op = []) (now : ℤ) (flow : Option FlowFn)
    (h : (balanceStep s.bal op).1 = (balanceApplyEscalation s.bal now flow).1) : StampStep s op := by
  by_cases hc : EscalationClears s.bal now
  · obtain ⟨a, l, he, -⟩ := escalation_clears hc flow
    rw [he] at h
    have hq : queued (balanceStep s.bal op).1 = [] := by rw [h, queued_mark, queued_clear]
    exact .cleared hyoung (waiting_of_nil hq) hq (by rw [stamped_bal, h]; rfl)
  · obtain ⟨a, l, he, -⟩ := escalation_keeps hc flow
    rw [he] at h
    have hq : queued (balanceStep s.bal op).1 = queued s.bal := by rw [h, queued_mark]
    exact .kept hyoung (waiting_of_same hs hnew hq) hq (by rw [stamped_bal, h]; rfl)

lemma stampStep_same (hs : Stamped s) {op : BalanceOp} (hyoung : ¬LeavesYounger s op) (hnew : enqueuedBy s.bal op = [])
    (hq : queued (balanceStep s.bal op).1 = queued s.bal)
    (ho : (balanceStep s.bal op).1.oldestEnqueue = s.bal.oldestEnqueue) : StampStep s op :=
  .kept hyoung (waiting_of_same hs hnew hq) hq ho

lemma stampStep_submit (hs : Stamped s) (frame : Bytes) (send : HybbxResult) {enqueued : ℤ} (hpos : 0 < enqueued)
    (now : ℤ) (flow : Option FlowFn) : StampStep s (.submit frame send enqueued now flow) := by
  have hyoung : ¬LeavesYounger s (.submit frame send enqueued now flow) := id
  by_cases hq : Queues s.bal frame
  · have hnew : enqueuedBy s.bal (.submit frame send enqueued now flow) = [(frame, enqueued)] := if_pos hq
    have hbal : (balanceStep s.bal (.submit frame send enqueued now flow)).1 =
        (balanceApplyEscalation (balanceEnqueue s.bal ⟨frame, hq.fits⟩ enqueued) now flow).1 := by
      simp only [balanceStep, submit_queues s.bal frame send enqueued now flow hq]
    by_cases hc : EscalationClears (balanceEnqueue s.bal ⟨frame, hq.fits⟩ enqueued) now
    · obtain ⟨a, l, he, -⟩ := escalation_clears hc flow
      rw [he] at hbal
      have hnil : queued (balanceStep s.bal (.submit frame send enqueued now flow)).1 = [] := by
        rw [hbal, queued_mark, queued_clear]
      exact .cleared hyoung (waiting_of_nil hnil) hnil (by rw [stamped_bal, hbal]; rfl)
    · obtain ⟨a, l, he, -⟩ := escalation_keeps hc flow
      rw [he] at hbal
      have hjoin : queued (balanceStep s.bal (.submit frame send enqueued now flow)).1 = queued s.bal ++ [frame] := by
        rw [hbal, queued_mark, queued_enqueue hq.room]
      have hcount := count_eq_length (balanceStep s.bal (.submit frame send enqueued now flow)).1
      rw [hjoin, List.length_append, ← count_eq_length, hs.count, List.length_singleton] at hcount
      refine .joined hyoung frame enqueued hpos ?_ hjoin (by rw [stamped_bal, hbal]; rfl)
      rw [stampedStep]
      dsimp only
      rw [hnew, hcount, List.rtake, List.length_append, List.length_singleton, Nat.sub_self, List.drop_zero]
  · have hnew : enqueuedBy s.bal (.submit frame send enqueued now flow) = [] := if_neg hq
    rcases submit_cases s.bal frame send enqueued now flow with ⟨hq', -⟩ | ⟨-, hr⟩ | ⟨e, -, hr⟩ | ⟨e, -, hr⟩
    · exact absurd hq' hq
    · exact stampStep_same hs hyoung hnew (by rw [balanceStep, hr]) (by rw [balanceStep, hr])
    · exact stampStep_same hs hyoung hnew (by rw [balanceStep, hr]) (by rw [balanceStep, hr])
    · exact stampStep_escalation hs hyoung hnew now flow (by rw [balanceStep, hr])

lemma stampStep_tick (hs : Stamped s) (pollMs : ℕ) (send : ℕ → Bool) (now : ℤ) (flow : Option FlowFn) :
    StampStep s (.tick pollMs send now flow) := by
  by_cases hd : Drains s.bal
  · have hbal : (balanceStep s.bal (.tick pollMs send now flow)).1 =
        (balanceApplyEscalation (balancePacedDrain s.bal pollMs send).1 now flow).1 := by
      simp only [balanceStep, tick_drains s.bal pollMs send now flow hd]
    by_cases hc : EscalationClears (balancePacedDrain s.bal pollMs send).1 now
    · obtain ⟨a, l, he, -⟩ := escalation_clears hc flow
      rw [he] at hbal
      have hnil : queued (balanceStep s.bal (.tick pollMs send now flow)).1 = [] := by
        rw [hbal, queued_mark, queued_clear]
      exact .cleared (fun hy => hy.2.1 hc) (waiting_of_nil hnil) hnil (by rw [stamped_bal, hbal]; rfl)
    · obtain ⟨a, l, he, -⟩ := escalation_keeps hc flow
      rw [he] at hbal
      have hdrop : queued (balanceStep s.bal (.tick pollMs send now flow)).1 =
          (queued s.bal).drop (balancePacedDrain s.bal pollMs send).2.length := by
        rw [hbal, queued_mark]
        conv_rhs => rw [pacedDrain_queued s.bal pollMs send, List.drop_left]
      have hwait := waiting_of_drop hs (show enqueuedBy s.bal (.tick pollMs send now flow) = [] from rfl) hdrop
      refine .drained (balancePacedDrain s.bal pollMs send).2.length ?_ hwait hdrop ?_
      · constructor
        · exact fun hy => hy.2.2
        · exact fun hy => ⟨hd, hc, hy⟩
      · rw [hbal, queued_mark] at hdrop
        rw [stamped_bal, hbal, show ∀ b : CircuitBalance,
          (b.mark a l).oldestEnqueue = b.oldestEnqueue from fun _ => rfl,
          pacedDrain_oldest, hdrop, ← hs.frames, ← List.map_drop]
        simp only [List.map_eq_nil_iff]
  · have hyoung : ¬LeavesYounger s (.tick pollMs send now flow) := fun hy => hd hy.1
    rcases tick_cases s.bal pollMs send now flow with ⟨hd', -⟩ | hr | ⟨t, hr⟩
    · exact absurd hd' hd
    · exact stampStep_same hs hyoung rfl (by rw [balanceStep, hr]) (by rw [balanceStep, hr])
    · exact stampStep_escalation hs hyoung rfl now flow (by rw [balanceStep, hr])

lemma stampStep (hs : Stamped s) {op : BalanceOp} (hclock : ClockPositive op) : StampStep s op := by
  cases op with
  | setProfile profile => exact stampStep_same hs id rfl rfl rfl
  | submit frame send enqueued now flow => exact stampStep_submit hs frame send hclock now flow
  | tick pollMs send now flow => exact stampStep_tick hs pollMs send now flow
  | sparedCancel =>
    obtain ⟨a, l, h, -⟩ := sparedCancel_mark s.bal
    exact stampStep_same hs id rfl (by rw [balanceStep, h]; rfl) (by rw [balanceStep, h]; rfl)

lemma Stamped.step (hs : Stamped s) {op : BalanceOp} (h : StampStep s op) : Stamped (stampedStep s op).1 := by
  cases h with
  | cleared _ hw hq ho =>
    refine ⟨by rw [hw, hq]; rfl, ?_, fun _ => ho, fun hne => absurd hw hne⟩
    rw [hw]
    exact fun e he => absurd he List.not_mem_nil
  | kept _ hw hq ho =>
    refine ⟨by rw [hw, hq, hs.frames], ?_, ?_, ?_⟩
    · rw [hw]
      exact hs.positive
    · rw [hw, ho]
      exact hs.empty
    · rw [hw, ho]
      exact hs.known
  | joined _ frame enqueued hpos hw hq ho =>
    refine ⟨by rw [hw, hq, List.map_append, hs.frames]; rfl, ?_, ?_, ?_⟩
    · rw [hw]
      intro e he
      rcases List.mem_append.mp he with he | he
      · exact hs.positive e he
      · rw [List.mem_singleton.mp he]
        exact hpos
    · intro hnil
      rw [hw] at hnil
      exact absurd hnil (by simp)
    · intro _
      rw [ho]
      split_ifs with h0
      · exact hpos.ne'
      · exact h0
  | drained k _ hw hq ho =>
    refine ⟨by rw [hw, hq, List.map_drop, hs.frames], ?_, ?_, ?_⟩
    · rw [hw]
      exact fun e he => hs.positive e (List.mem_of_mem_drop he)
    · intro hnil
      rw [hw] at hnil
      rw [ho, if_pos hnil]
    · intro hne
      rw [hw] at hne
      rw [ho, if_neg hne]
      apply hs.known
      rintro hnil
      rw [hnil, List.drop_nil] at hne
      exact hne rfl

/-- The clock reading is that of the frame at the head. -/
def HeadStamp (s : StampedBalance) : Prop := ∀ e, s.waiting.head? = some e → s.bal.oldestEnqueue = e.2

/-- Only a tick that leaves a younger frame separates the clock reading from the head. -/
lemma headStamp_step (hs : Stamped s) (hh : HeadStamp s) {op : BalanceOp} (h : StampStep s op) :
    HeadStamp (stampedStep s op).1 ↔ ¬LeavesYounger s op := by
  cases h with
  | cleared hyoung hw _ _ =>
    refine iff_of_true (fun e he => ?_) hyoung
    rw [hw] at he
    exact nomatch he
  | kept hyoung hw _ ho =>
    refine iff_of_true (fun e he => ?_) hyoung
    rw [hw] at he
    rw [ho]
    exact hh e he
  | joined hyoung frame enqueued _ hw _ ho =>
    refine iff_of_true (fun e he => ?_) hyoung
    rw [hw] at he
    rw [ho]
    cases hwait : s.waiting with
    | nil =>
      rw [hwait] at he
      obtain rfl := Option.some.inj he
      exact if_pos (hs.empty hwait)
    | cons d ds =>
      rw [if_neg (hs.known (by rw [hwait]; exact List.cons_ne_nil d ds))]
      apply hh
      rw [hwait] at he ⊢
      exact he
  | drained k hyoung hw _ ho =>
    rw [hyoung, HeadStamp, hw, ho]
    cases hold : s.waiting.head? with
    | none =>
      rw [List.head?_eq_none_iff.mp hold, List.drop_nil]
      exact iff_of_true nofun fun ⟨_, _, h0, _⟩ => nomatch h0
    | some old =>
      have ho' := hh old hold
      constructor
      · rintro hnew ⟨old', young, hsame, hyoung', hne⟩
        obtain rfl := Option.some.inj hsame
        have hnonempty : s.waiting.drop k ≠ [] := by
          intro hnil
          rw [hnil] at hyoung'
          exact nomatch hyoung'
        have heq := hnew young hyoung'
        rw [if_neg hnonempty] at heq
        exact hne (ho'.symm.trans heq)
      · intro hnone e he
        have hnonempty : s.waiting.drop k ≠ [] := by
          intro hnil
          rw [hnil] at he
          exact nomatch he
        rw [if_neg hnonempty]
        by_contra hne
        exact hnone ⟨old, e, rfl, he, fun heq => hne (ho'.trans heq)⟩

/-- The wall time of the lag starts at the clock reading. -/
lemma estimatedLag_le {bal : CircuitBalance} {since : ℤ} (h : bal.oldestEnqueue = since) (now : ℤ) :
    balanceEstimatedLagSec bal now ≤ max (bal.queueBytes * 8 / balanceEffectiveBaud bal) (now - since).toNat := by
  rw [balanceEstimatedLagSec, h]
  by_cases hb : bal.queueBytes = 0
  · rw [if_pos hb]
    exact Nat.zero_le _
  · have hmod := Nat.mod_le (bal.queueBytes * 8 / balanceEffectiveBaud bal) (2 ^ 32)
    rw [if_neg hb]
    dsimp only
    split_ifs with hnow
    · apply max_le_max hmod
      omega
    · exact hmod.trans (le_max_left _ _)

lemma ageTracked_iff_headStamp (hs : Stamped s) : AgeTracked s ↔ HeadStamp s := by
  constructor
  · intro h e he
    exact (h.oldest e.1 e.2 he).1
  · intro h
    refine ⟨hs.frames, fun frame since he => ?_⟩
    have ho := h _ he
    exact ⟨ho, estimatedLag_le ho⟩

end Step

lemma stamped_create (cfg : Option BalanceConfig) : Stamped (stampedCreate cfg) where
  frames := rfl
  positive _ he := absurd he List.not_mem_nil
  empty _ := rfl
  known h := absurd rfl h

lemma stamped_run (cfg : Option BalanceConfig) {ops : List BalanceOp} (hclock : ∀ op ∈ ops, ClockPositive op) :
    Stamped (stampedRun cfg ops) :=
  @Transducer.run_history _ _ _ stampedStep (fun s _ => Stamped s) ClockPositive
    (fun _ _ _ hop hs => hs.step (stampStep hs hop)) ops hclock (stampedCreate cfg) [] (stamped_create cfg)

/-- The stamps are only an observation. -/
lemma stampedRun_bal (cfg : Option BalanceConfig) (ops : List BalanceOp) :
    (stampedRun cfg ops).bal = (balanceRun (circuitBalanceCreate cfg) ops).1 :=
  (@Transducer.run_simulates _ _ _ stampedStep _ balanceStep (fun _ _ => True) (fun s bal => s.bal = bal)
    (fun _ _ _ hr _ => by rw [← hr]; exact ⟨rfl, rfl⟩) (stampedCreate cfg) (circuitBalanceCreate cfg) rfl ops
    (Transducer.along_iff stampedStep |>.mpr fun _ _ _ _ => trivial)).1

/-- In every state of a run the clock reading is that of the frame at the head, if no tick of the run sends
frames and leaves a younger one; and only then. -/
theorem ageTracked_iff (cfg : Option BalanceConfig) (ops : List BalanceOp) (hclock : ∀ op ∈ ops, ClockPositive op) :
    (∀ before, before <+: ops → (stampedRun cfg before).bal = (balanceRun (circuitBalanceCreate cfg) before).1 ∧
      AgeTracked (stampedRun cfg before)) ↔
      Transducer.Along stampedStep (fun s op => ¬LeavesYounger s op) (stampedCreate cfg) ops := by
  have hstart : ∀ before, before <+: ops → Stamped (stampedRun cfg before) := fun before hb =>
    stamped_run cfg fun op hop => hclock op (hb.subset hop)
  rw [Transducer.along_iff]
  constructor
  · rintro h before op after rfl
    have hb := hstart before (List.prefix_append _ _)
    have hhead := (ageTracked_iff_headStamp hb).mp (h before (List.prefix_append _ _)).2
    have hstep := stampStep hb (hclock op (by simp))
    have hnext : stampedRun cfg (before ++ [op]) = (stampedStep (stampedRun cfg before) op).1 := by
      rw [stampedRun, Transducer.run_append, Transducer.run_singleton]
      rfl
    have hone : before ++ [op] <+: before ++ op :: after := ⟨after, by simp⟩
    have hage := (ageTracked_iff_headStamp (hstart _ hone)).mp (h _ hone).2
    rw [hnext] at hage
    exact (headStamp_step hb hhead hstep).mp hage
  · intro h before hb
    refine ⟨stampedRun_bal cfg before, (ageTracked_iff_headStamp (hstart before hb)).mpr ?_⟩
    induction before using List.reverseRecOn with
    | nil => exact fun e he => nomatch he
    | append_singleton before op ih =>
      obtain ⟨after, rfl⟩ := hb
      have hb' : before <+: before ++ [op] ++ after := by
        rw [List.append_assoc]
        exact List.prefix_append _ _
      have hstamped := hstart before hb'
      have hstep := stampStep hstamped (hclock op (by simp))
      have hnot := h before op after (by simp)
      have hnext : stampedRun cfg (before ++ [op]) = (stampedStep (stampedRun cfg before) op).1 := by
        rw [stampedRun, Transducer.run_append, Transducer.run_singleton]
        rfl
      rw [hnext]
      exact (headStamp_step hstamped (ih hb') hstep).mpr hnot

/-! Two frames of 40 bytes, queued a second apart for a link of 1200 baud, and 300 ms in which one can go. -/

def pairFrame : Bytes := List.replicate 40 0x41

def pairOps : List BalanceOp :=
  [.setProfile ⟨.bwLow, 1, 1200⟩, .submit pairFrame .ok 100 100 none, .submit pairFrame .ok 101 101 none,
    .tick 300 (fun _ => true) 101 none]

theorem ageTracked_iff_pair :
    (∀ before, before <+: pairOps → (stampedRun none before).bal = (balanceRun (circuitBalanceCreate none) before).1 ∧
      AgeTracked (stampedRun none before)) ↔
      Transducer.Along stampedStep (fun s op => ¬LeavesYounger s op) (stampedCreate none) pairOps :=
  ageTracked_iff none pairOps (by simp [pairOps, ClockPositive])

/-- The second frame is at the head, and the balancer takes it for the first one's age. -/
theorem drained_head_keeps_old_age : ¬AgeTracked (stampedRun none pairOps) := by
  intro h
  have hwait : (stampedRun none pairOps).waiting.head? = some (pairFrame, 101) := by decide +kernel
  have hold : (stampedRun none pairOps).bal.oldestEnqueue = 100 := by decide +kernel
  have heq := (h.oldest _ _ hwait).1
  rw [hold] at heq
  exact absurd heq (by decide)

end HyBBX.Circuit
