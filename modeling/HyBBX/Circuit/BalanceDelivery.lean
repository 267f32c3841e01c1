import HyBBX.Circuit.BalanceRun

/-! The frames the link takes are accepted frames in their order, and an accepted frame is lost on the
spot exactly when the escalation of its own submit clears the queue. -/

namespace HyBBX.Circuit

open HyBBX.Core Lib BalanceAction

@[simp] lemma sentFrames_append (es fs : List BalanceEvent) :
    sentFrames (es ++ fs) = sentFrames es ++ sentFrames fs := List.filterMap_append

@[simp] lemma acceptedFrames_append (es fs : List BalanceEvent) :
    acceptedFrames (es ++ fs) = acceptedFrames es ++ acceptedFrames fs := List.filterMap_append

@[simp] lemma sentFrames_sent (fs : List Bytes) : sentFrames (fs.map .sent) = fs := by
  simp [sentFrames, List.filterMap_map]

@[simp] lemma sentFrames_flow (rs : List FlowReport) : sentFrames (rs.map .flow) = [] := by
  simp [sentFrames, List.filterMap_map]

@[simp] lemma acceptedFrames_sent (fs : List Bytes) : acceptedFrames (fs.map .sent) = [] := by
  simp [acceptedFrames, List.filterMap_map]

@[simp] lemma acceptedFrames_flow (rs : List FlowReport) : acceptedFrames (rs.map .flow) = [] := by
  simp [acceptedFrames, List.filterMap_map]

@[simp] lemma sentFrames_nil : sentFrames [] = [] := rfl

@[simp] lemma acceptedFrames_nil : acceptedFrames [] = [] := rfl

@[simp] lemma sentFrames_cons_accepted (f : Bytes) (es : List BalanceEvent) :
    sentFrames (.accepted f :: es) = sentFrames es := rfl

@[simp] lemma sentFrames_cons_sent (f : Bytes) (es : List BalanceEvent) :
    sentFrames (.sent f :: es) = f :: sentFrames es := rfl

@[simp] lemma acceptedFrames_cons_accepted (f : Bytes) (es : List BalanceEvent) :
    acceptedFrames (.accepted f :: es) = f :: acceptedFrames es := rfl

@[simp] lemma acceptedFrames_cons_sent (f : Bytes) (es : List BalanceEvent) :
    acceptedFrames (.sent f :: es) = acceptedFrames es := rfl

/-- Sent and waiting frames are accepted frames in order; what passes the queue by finds it empty. -/
structure InOrder (bal : CircuitBalance) (es : List BalanceEvent) : Prop where
  ordered : (sentFrames es ++ queued bal).Sublist (acceptedFrames es)
  direct : bal.cfg.enabled = false ∨ bal.profile.bandwidth = .bwHigh → queued bal = []

def OnLowLink : BalanceOp → Prop
  | .setProfile profile => profile.bandwidth = .bwLow
  | _ => True

lemma inOrder_mark {bal : CircuitBalance} {es : List BalanceEvent} (h : InOrder bal es)
    (a l : BalanceAction) : InOrder (bal.mark a l) es := ⟨h.ordered, h.direct⟩

lemma inOrder_clear {bal : CircuitBalance} {es : List BalanceEvent} (h : InOrder bal es) :
    InOrder (balanceClearQueue bal) es := by
  refine ⟨?_, fun _ => rfl⟩
  rw [queued_clear, List.append_nil]
  exact (List.sublist_append_left _ _).trans h.ordered

lemma inOrder_escalation {bal : CircuitBalance} {es : List BalanceEvent} (h : InOrder bal es) (now : ℤ)
    (flow : Option FlowFn) : InOrder (balanceApplyEscalation bal now flow).1 es := by
  by_cases hc : EscalationClears bal now
  · obtain ⟨a, l, he, -⟩ := escalation_clears hc flow
    rw [he]
    exact inOrder_mark (inOrder_clear h) a l
  · obtain ⟨a, l, he, -⟩ := escalation_keeps hc flow
    rw [he]
    exact inOrder_mark h a l

lemma inOrder_reports {bal : CircuitBalance} {es : List BalanceEvent} (h : InOrder bal es)
    (rs : List FlowReport) : InOrder bal (es ++ rs.map .flow) :=
  ⟨by simpa using h.ordered, h.direct⟩

lemma inOrder_submit {bal : CircuitBalance} {es : List BalanceEvent} (h : InOrder bal es) (frame : Bytes)
    (send : HybbxResult) (enqueued now : ℤ) (flow : Option FlowFn) :
    InOrder (balanceStep bal (.submit frame send enqueued now flow)).1
      (es ++ (balanceStep bal (.submit frame send enqueued now flow)).2) := by
  simp only [balanceStep]
  rcases submit_cases bal frame send enqueued now flow with ⟨hq, hr⟩ | ⟨hd, hr⟩ | ⟨e, he, hr⟩ | ⟨e, he, hr⟩
  · rw [hr]
    simp only [List.map_nil, List.nil_append, if_true, ← List.append_assoc]
    refine inOrder_reports (inOrder_escalation ⟨?_, ?_⟩ now flow) _
    · rw [queued_enqueue hq.room]
      simpa [← List.append_assoc] using h.ordered.append (List.Sublist.refl [frame])
    · rintro (h0 | h0)
      · exact absurd (h0.symm.trans hq.enabled) (by simp)
      · exact absurd (h0.symm.trans hq.low) (by simp)
  · rw [hr]
    have hn := h.direct hd
    have ho := h.ordered
    rw [hn, List.append_nil] at ho
    refine ⟨?_, h.direct⟩
    simp only [hn, List.append_nil, List.map_nil]
    split_ifs
    · simpa using ho.append (List.Sublist.refl [frame])
    · simpa using ho
  · rw [hr]
    simpa [he] using h
  · rw [hr]
    simpa [he] using inOrder_reports (inOrder_escalation h now flow) _

lemma inOrder_tick {bal : CircuitBalance} {es : List BalanceEvent} (h : InOrder bal es) (pollMs : ℕ)
    (send : ℕ → Bool) (now : ℤ) (flow : Option FlowFn) :
    InOrder (balanceStep bal (.tick pollMs send now flow)).1
      (es ++ (balanceStep bal (.tick pollMs send now flow)).2) := by
  simp only [balanceStep]
  rcases tick_cases bal pollMs send now flow with ⟨hd, hr⟩ | hr | ⟨t, hr⟩
  · rw [hr]
    have hq := pacedDrain_queued bal pollMs send
    simp only [← List.append_assoc]
    refine inOrder_reports (inOrder_escalation ⟨?_, ?_⟩ now flow) _
    · have ho := h.ordered
      rw [hq] at ho
      simpa using ho
    · intro h0
      obtain ⟨queue, oldest, hf⟩ := pacedDrain_frame bal pollMs send
      rw [hf] at h0
      have hn := h.direct h0
      have hc := count_eq_length bal
      rw [hn] at hc
      exact absurd hc hd.nonempty
  · rw [hr]
    simpa using h
  · rw [hr]
    simpa using inOrder_reports (inOrder_escalation h now flow) _

lemma inOrder_step {bal : CircuitBalance} {es : List BalanceEvent} (op : BalanceOp) (hop : OnLowLink op)
    (h : InOrder bal es) : InOrder (balanceStep bal op).1 (es ++ (balanceStep bal op).2) := by
  cases op with
  | setProfile profile =>
    simp only [balanceStep, List.append_nil]
    refine ⟨h.ordered, ?_⟩
    rintro (h0 | h0)
    · exact h.direct (.inl h0)
    · exact absurd (h0.symm.trans hop) (by simp)
  | submit frame send enqueued now flow => exact inOrder_submit h frame send enqueued now flow
  | tick pollMs send now flow => exact inOrder_tick h pollMs send now flow
  | sparedCancel =>
    obtain ⟨a, l, hs, -⟩ := sparedCancel_mark bal
    simp only [balanceStep, List.append_nil, hs]
    exact inOrder_mark h a l

lemma inOrder_run (cfg : Option BalanceConfig) {ops : List BalanceOp} (hops : ∀ op ∈ ops, OnLowLink op) :
    InOrder (balanceRun (circuitBalanceCreate cfg) ops).1 (balanceRun (circuitBalanceCreate cfg) ops).2 := by
  have h0 : InOrder (circuitBalanceCreate cfg) [] := ⟨List.Sublist.refl _, fun _ => rfl⟩
  simpa [balanceRun] using Transducer.run_history balanceStep (fun s out op hop h => inOrder_step op hop h) ops hops h0

/-- A submit that answers OK leaves its frame sent or waiting. -/
def AcceptedKept (bal : CircuitBalance) : BalanceOp → Prop
  | .submit frame send enqueued now flow =>
    let r := circuitBalanceSubmit bal frame send enqueued now flow
    r.result = .ok → frame ∈ r.sent ∨ frame ∈ queued r.bal
  | _ => True

/-- The queue with the new frame in it is not yet overdue. -/
def SubmitInTime (bal : CircuitBalance) : BalanceOp → Prop
  | .submit frame _ enqueued now _ =>
    ∀ h : Queues bal frame, ¬ EscalationClears (balanceEnqueue bal ⟨frame, h.fits⟩ enqueued) now
  | _ => True

lemma acceptedKept_iff (bal : CircuitBalance) (op : BalanceOp) :
    AcceptedKept bal op ↔ SubmitInTime bal op := by
  cases op with
  | setProfile => exact Iff.rfl
  | tick => exact Iff.rfl
  | sparedCancel => exact Iff.rfl
  | submit frame send enqueued now flow =>
    simp only [AcceptedKept, SubmitInTime]
    rcases submit_cases bal frame send enqueued now flow with ⟨hq, hr⟩ | ⟨hd, hr⟩ | ⟨e, he, hr⟩ | ⟨e, he, hr⟩
    · rw [hr]
      constructor
      · intro hk _ hc
        obtain ⟨a, l, he, -⟩ := escalation_clears hc flow
        simp [he] at hk
      · intro hk _
        obtain ⟨a, l, he, -⟩ := escalation_keeps (hk hq) flow
        right
        rw [he, queued_mark, queued_enqueue hq.room]
        simp
    · rw [hr]
      refine ⟨fun _ hq => ?_, fun _ hk => .inl (by simp [show send = .ok from hk])⟩
      rcases hd with h0 | h0
      · exact absurd (h0.symm.trans hq.enabled) (by simp)
      · exact absurd (h0.symm.trans hq.low) (by simp)
    all_goals
      refine ⟨fun _ hq => ?_, fun _ hk => absurd (by rw [hr] at hk; exact hk) he⟩
      rw [submit_queues bal frame send enqueued now flow hq] at hr
      exact absurd (congrArg BalanceOutcome.result hr).symm he

/-- The escalation of this call is a break or a cancel. -/
def Clears (bal : CircuitBalance) : BalanceOp → Prop
  | .submit frame _ enqueued now _ =>
    (∃ h : Queues bal frame, EscalationClears (balanceEnqueue bal ⟨frame, h.fits⟩ enqueued) now) ∨
      (¬ Queues bal frame ∧ EscalationClears bal now)
  | .tick pollMs send now _ =>
    (Drains bal ∧ EscalationClears (balancePacedDrain bal pollMs send).1 now) ∨
      (¬ Drains bal ∧ EscalationClears bal now)
  | _ => False

/-- Short of a break or a cancel what waits is sent from the front or waits on. -/
def WaitsOn (bal : CircuitBalance) (op : BalanceOp) : Prop :=
  Clears bal op ∨ ∃ new, queued bal ++ new = sentFrames (balanceStep bal op).2 ++ queued (balanceStep bal op).1

lemma waitsOn_submit {bal : CircuitBalance} {es : List BalanceEvent} (h : InOrder bal es) (frame : Bytes)
    (send : HybbxResult) (enqueued now : ℤ) (flow : Option FlowFn) :
    WaitsOn bal (.submit frame send enqueued now flow) := by
  by_cases hc : Clears bal (.submit frame send enqueued now flow)
  · exact .inl hc
  right
  simp only [Clears, not_or, not_exists, not_and] at hc
  simp only [balanceStep]
  by_cases hq : Queues bal frame
  · rw [submit_queues bal frame send enqueued now flow hq]
    obtain ⟨a, l, he, -⟩ := escalation_keeps (hc.1 hq) flow
    refine ⟨[frame], ?_⟩
    rw [he, queued_mark, queued_enqueue hq.room]
    simp
  · obtain ⟨a, l, he, -⟩ := escalation_keeps (hc.2 hq) flow
    rcases submit_cases bal frame send enqueued now flow with ⟨hq', -⟩ | ⟨hd, hr⟩ | ⟨e, hne, hr⟩ | ⟨e, hne, hr⟩
    · exact absurd hq' hq
    · rw [hr, h.direct hd]
      exact ⟨_, by rw [List.nil_append, List.append_nil]⟩
    · rw [hr]
      exact ⟨[], by simp [hne]⟩
    · rw [hr, he]
      exact ⟨[], by simp [hne]⟩

lemma waitsOn_tick (bal : CircuitBalance) (pollMs : ℕ) (send : ℕ → Bool) (now : ℤ) (flow : Option FlowFn) :
    WaitsOn bal (.tick pollMs send now flow) := by
  by_cases hc : Clears bal (.tick pollMs send now flow)
  · exact .inl hc
  right
  simp only [Clears, not_or, not_and] at hc
  simp only [balanceStep]
  refine ⟨[], ?_⟩
  rcases tick_cases bal pollMs send now flow with ⟨hd, hr⟩ | hr | ⟨t, hr⟩
  · obtain ⟨a, l, he, -⟩ := escalation_keeps (hc.1 hd) flow
    rw [hr, he, queued_mark]
    simpa using pacedDrain_queued bal pollMs send
  · rw [hr]
    simp
  · by_cases hd : Drains bal
    · obtain ⟨a, l, he, -⟩ := escalation_keeps (hc.1 hd) flow
      rw [tick_drains bal pollMs send now flow hd, he, queued_mark]
      simpa using pacedDrain_queued bal pollMs send
    · obtain ⟨a, l, he, -⟩ := escalation_keeps (hc.2 hd) flow
      rw [hr, he]
      simp

lemma waitsOn {bal : CircuitBalance} {es : List BalanceEvent} (h : InOrder bal es) (op : BalanceOp) :
    WaitsOn bal op := by
  cases op with
  | setProfile profile => exact .inr ⟨[], by simp [balanceStep, queued, circuitBalanceSetProfile]⟩
  | submit frame send enqueued now flow => exact waitsOn_submit h frame send enqueued now flow
  | tick pollMs send now flow => exact waitsOn_tick bal pollMs send now flow
  | sparedCancel =>
    obtain ⟨a, l, hs, -⟩ := sparedCancel_mark bal
    exact .inr ⟨[], by simp [balanceStep, hs]⟩

/-- At every call of a run. -/
def Throughout (cfg : Option BalanceConfig) (P : CircuitBalance → BalanceOp → Prop) (ops : List BalanceOp) : Prop :=
  ∀ pre op post, ops = pre ++ op :: post → P (balanceRun (circuitBalanceCreate cfg) pre).1 op

/-- Sent frames are accepted ones in order, an accepted frame is sent or waits when its submit returns,
and afterwards only a break or cancel drops it. -/
structure Delivery (cfg : Option BalanceConfig) (ops : List BalanceOp) : Prop where
  ordered : (sentFrames (balanceRun (circuitBalanceCreate cfg) ops).2).Sublist
    (acceptedFrames (balanceRun (circuitBalanceCreate cfg) ops).2)
  kept : Throughout cfg AcceptedKept ops
  waits : Throughout cfg WaitsOn ops

theorem delivery_iff_inTime (cfg : Option BalanceConfig) (ops : List BalanceOp)
    (hops : ∀ op ∈ ops, OnLowLink op) : Delivery cfg ops ↔ Throughout cfg SubmitInTime ops := by
  constructor
  · rintro ⟨-, hk, -⟩ pre op post he
    exact (acceptedKept_iff _ op).mp (hk pre op post he)
  · intro ht
    refine ⟨?_, ?_, ?_⟩
    · exact (List.sublist_append_left _ _).trans (inOrder_run cfg hops).ordered
    · intro pre op post he
      exact (acceptedKept_iff _ op).mpr (ht pre op post he)
    · intro pre op post he
      have hpre : ∀ o ∈ pre, OnLowLink o := by
        intro o ho
        exact hops o (by rw [he]; exact List.mem_append_left _ ho)
      exact waitsOn (inOrder_run cfg hpre) op

/-! A 40-byte frame on a 300 baud link with one second of allowed lag. -/

def hastyConfig : BalanceConfig := ⟨true, 1, 256, 1024, 4096⟩

def hastyFrame : Bytes := circuitHeader .terminal 2 28 (List.replicate 40 0) ++ List.replicate 28 0x41

def hastyOps : List BalanceOp :=
  [.setProfile ⟨.bwLow, 1, 300⟩, .submit hastyFrame .ok 1000 1000 (some ⟨false⟩)]

theorem delivery_iff_inTime_hasty :
    Delivery (some hastyConfig) hastyOps ↔ Throughout (some hastyConfig) SubmitInTime hastyOps :=
  delivery_iff_inTime (some hastyConfig) hastyOps (by simp [hastyOps, OnLowLink])

theorem submit_drops_own_frame : ¬ Delivery (some hastyConfig) hastyOps := by
  intro h
  have hk := h.kept [.setProfile ⟨.bwLow, 1, 300⟩] _ [] rfl
  have hr : (circuitBalanceSubmit (balanceRun (circuitBalanceCreate (some hastyConfig))
      [.setProfile ⟨.bwLow, 1, 300⟩]).1 hastyFrame .ok 1000 1000 (some ⟨false⟩)).result = .ok := by decide
  rcases hk hr with hs | hs
  · revert hs
    decide
  · revert hs
    decide

end HyBBX.Circuit
