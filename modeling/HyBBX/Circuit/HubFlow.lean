import HyBBX.Circuit.BalanceDelivery
import HyBBX.Circuit.RoundTrip

/-! The hub's flow callback: it hands FLOW_CTRL payloads to the encoder of the authentication messages,
which refuses every other protocol. -/

namespace HyBBX.Circuit

open HyBBX.Core Lib Lib.Bytes Lib.Text BalanceAction

def flowCtrlPayloadMax : ℕ := 128

/-- The bytes the callback puts on the link; `frame` is its uninitialised frame buffer. -/
def balanceFlowCtrlCb (report : FlowReport) (frame : Bytes) : Bytes :=
  if report.action = balNone then []
  else match flowCtrlFormat report.action report.reason flowCtrlPayloadMax with
    | none => []
    | some payload => (circuitEncodeLinkMsg .flowCtrl payload frame).getD []

/-- What a link whose socket takes all bytes carries. -/
def linkOutput (frame : Bytes) (es : List BalanceEvent) : Bytes :=
  es.flatMap fun
    | .accepted _ => []
    | .sent f => f
    | .flow r => balanceFlowCtrlCb r frame

/-- One FLOW_CTRL frame at the peer, with this action and reason. -/
def ReachesEdge (report : FlowReport) (bytes : Bytes) : Prop :=
  ∃ f, (circuitDecoderFeed circuitDecoderInit bytes).2 = [f] ∧ f.proto = .flowCtrl ∧
    flowCtrlParse f.payload flowCtrlScratch = some (report.action, report.reason)

lemma balanceFlowCtrlCb_eq_nil (report : FlowReport) (frame : Bytes) : balanceFlowCtrlCb report frame = [] := by
  rw [balanceFlowCtrlCb]
  split_ifs
  · rfl
  · cases flowCtrlFormat report.action report.reason flowCtrlPayloadMax with
    | none => rfl
    | some payload =>
      have hg : (CircuitProto.flowCtrl ≠ .linkAuth ∧ CircuitProto.flowCtrl ≠ .linkAuthAck) := by decide
      simp only [circuitEncodeLinkMsg, if_pos hg, Option.getD_none]

lemma linkOutput_eq_sent (frame : Bytes) (es : List BalanceEvent) :
    linkOutput frame es = (sentFrames es).flatten := by
  induction es with
  | nil => rfl
  | cons e es ih =>
    rw [linkOutput, List.flatMap_cons, ← linkOutput, ih]
    cases e with
    | accepted f => rfl
    | sent f => rfl
    | flow r => exact congrArg (· ++ (sentFrames es).flatten) (balanceFlowCtrlCb_eq_nil r frame)

/-! The reports themselves are in order: written by the general encoder they would arrive. -/

def escalationReports : List FlowReport :=
  [⟨balCancel, ofString "queue_overload"⟩, ⟨balBreak, ofString "queue_lag"⟩,
    ⟨balPause, ofString "stabilize"⟩, ⟨balPause, ofString "queue_pressure"⟩,
    ⟨balResume, ofString "stabilized"⟩]

lemma sendFlow_reports (bal : CircuitBalance) (action : BalanceAction) (reason : String) (flow : Option FlowFn) :
    (balanceSendFlow bal action reason flow).2 ⊆ [⟨action, ofString reason⟩] := by
  cases flow with
  | none => exact List.nil_subset _
  | some f =>
    rw [balanceSendFlow]
    split_ifs
    · exact List.nil_subset _
    · exact List.Subset.refl _

lemma escalation_reports (bal : CircuitBalance) (now : ℤ) (flow : Option FlowFn) :
    (balanceApplyEscalation bal now flow).2 ⊆ escalationReports := by
  have hone : ∀ bal action reason, (⟨action, ofString reason⟩ : FlowReport) ∈ escalationReports →
      (balanceSendFlow bal action reason flow).2 ⊆ escalationReports := by
    intro bal action reason hm
    exact List.Subset.trans (sendFlow_reports bal action reason flow) (by simpa using hm)
  rw [balanceApplyEscalation]
  split_ifs
  · exact List.nil_subset _
  · exact hone _ _ _ (by decide)
  · exact List.nil_subset _
  · exact List.append_subset.mpr ⟨hone _ _ _ (by decide), hone _ _ _ (by decide)⟩
  · exact List.nil_subset _
  · exact hone _ _ _ (by decide)
  · exact List.nil_subset _
  · exact hone _ _ _ (by decide)
  · exact List.nil_subset _

lemma step_reports (bal : CircuitBalance) (op : BalanceOp) :
    flowReports (balanceStep bal op).2 ⊆ escalationReports := by
  cases op with
  | setProfile profile => exact List.nil_subset _
  | submit frame send enqueued now flow =>
    simp only [balanceStep]
    rcases submit_cases bal frame send enqueued now flow with ⟨hq, hr⟩ | ⟨hd, hr⟩ | ⟨e, he, hr⟩ | ⟨e, he, hr⟩
    · rw [hr]
      simpa [flowReports, List.filterMap_map] using escalation_reports _ now flow
    · rw [hr]
      split_ifs <;> simp [flowReports]
    · rw [hr]
      simp [flowReports, he]
    · rw [hr]
      simpa [flowReports, List.filterMap_map, he] using escalation_reports _ now flow
  | tick pollMs send now flow =>
    simp only [balanceStep]
    rcases tick_cases bal pollMs send now flow with ⟨hd, hr⟩ | hr | ⟨t, hr⟩
    · rw [hr]
      simpa [flowReports, List.filterMap_map] using escalation_reports _ now flow
    · rw [hr]
      simp [flowReports]
    · rw [hr]
      simpa [flowReports, List.filterMap_map] using escalation_reports _ now flow
  | sparedCancel => exact List.nil_subset _

lemma format_length {action : BalanceAction} {reason payload : Bytes} {cap : ℕ}
    (h : flowCtrlFormat action reason cap = some payload) : payload.length < cap := by
  simp only [flowCtrlFormat, snappend] at h
  split_ifs at h with h0 h1
  all_goals
    obtain rfl := Option.some.inj h
    simp only [List.length_nil, Nat.zero_add, List.nil_append] at *
    omega

lemma escalationReports_plain : ∀ r ∈ escalationReports, r.action ≠ balNone ∧ r.reason ≠ [] ∧
    PlainValue flowCtrlScratch r.reason ∧ (flowCtrlFormat r.action r.reason flowCtrlPayloadMax).isSome = true := by
  decide +kernel

lemma report_encodes {r : FlowReport} (hr : r ∈ escalationReports) {out : Bytes}
    (ho : circuitMaxFrame ≤ out.length) :
    ∃ payload bytes, flowCtrlFormat r.action r.reason flowCtrlPayloadMax = some payload ∧
      circuitEncode .flowCtrl circuitFlagNone payload out = some bytes ∧ ReachesEdge r bytes := by
  obtain ⟨ha, hne, hp, hs⟩ := escalationReports_plain r hr
  obtain ⟨payload, hf⟩ := Option.isSome_iff_exists.mp hs
  have hl : payload.length < flowCtrlPayloadMax := format_length hf
  have hm : payload.length ≤ circuitMaxPayload := by
    simp only [flowCtrlPayloadMax, circuitMaxPayload] at *
    omega
  have he := circuitEncode_of_fits .flowCtrl circuitFlagNone hm
    (show circuitHeaderSize + payload.length ≤ out.length by simp only [circuitMaxFrame] at ho; omega)
  refine ⟨payload, _, hf, he, ⟨.flowCtrl, circuitFlagNone, payload, hm⟩, ?_, rfl, ?_⟩
  · exact (feed_encode (f := ⟨.flowCtrl, circuitFlagNone, payload, hm⟩) init_idle he).2
  · exact flowCtrlParse_flowCtrlFormat ha hp hne hp.2.2.1 hf

/-- No report of any call of any run reaches the edge, and the link carries the queued traffic only. -/
theorem flow_never_reaches_edge (cfg : Option BalanceConfig) (ops : List BalanceOp) (op : BalanceOp)
    (frame : Bytes) {r : FlowReport}
    (hr : r ∈ flowReports (balanceStep (balanceRun (circuitBalanceCreate cfg) ops).1 op).2) :
    r ∈ escalationReports ∧ ¬ ReachesEdge r (balanceFlowCtrlCb r frame) ∧
      linkOutput frame (balanceStep (balanceRun (circuitBalanceCreate cfg) ops).1 op).2 =
        (sentFrames (balanceStep (balanceRun (circuitBalanceCreate cfg) ops).1 op).2).flatten := by
  refine ⟨step_reports _ op hr, ?_, linkOutput_eq_sent frame _⟩
  rw [balanceFlowCtrlCb_eq_nil]
  rintro ⟨f, hf, -⟩
  simp [circuitDecoderFeed] at hf

lemma hasty_reports_break : (⟨balBreak, ofString "queue_lag"⟩ : FlowReport) ∈ flowReports (balanceStep
    (balanceRun (circuitBalanceCreate (some hastyConfig)) [.setProfile ⟨.bwLow, 1, 300⟩]).1
    (.submit hastyFrame .ok 1000 1000 (some ⟨false⟩))).2 := by
  decide

theorem flow_never_reaches_edge_hasty : ¬ ReachesEdge ⟨balBreak, ofString "queue_lag"⟩
    (balanceFlowCtrlCb ⟨balBreak, ofString "queue_lag"⟩ (List.replicate circuitMaxFrame 0)) :=
  (flow_never_reaches_edge (some hastyConfig) [.setProfile ⟨.bwLow, 1, 300⟩]
    (.submit hastyFrame .ok 1000 1000 (some ⟨false⟩)) (List.replicate circuitMaxFrame 0)
    hasty_reports_break).2.1

theorem hasty_break_not_on_link :
    (⟨balBreak, ofString "queue_lag"⟩ : FlowReport) ∈ flowReports (balanceStep
      (balanceRun (circuitBalanceCreate (some hastyConfig)) [.setProfile ⟨.bwLow, 1, 300⟩]).1
      (.submit hastyFrame .ok 1000 1000 (some ⟨false⟩))).2 ∧
    balanceFlowCtrlCb ⟨balBreak, ofString "queue_lag"⟩ (List.replicate circuitMaxFrame 0) = [] ∧
    ¬ ReachesEdge ⟨balBreak, ofString "queue_lag"⟩ [] := by
  refine ⟨by decide, balanceFlowCtrlCb_eq_nil _ _, ?_⟩
  rintro ⟨f, hf, -⟩
  simp [circuitDecoderFeed] at hf

end HyBBX.Circuit
