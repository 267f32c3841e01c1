import HyBBX.Circuit.BalanceRun
import HyBBX.Circuit.BandwidthPolicy

/-! The hub's links and the user sessions they throttle, along link events and logins. -/

namespace HyBBX.Circuit

open HyBBX.Core Lib Lib.Bytes BalanceAction


/-- A slot that is not FREE. -/
structure LinkSlot where
  balance : CircuitBalance
  profileSet : Bool
  fdOpen : Bool

structure HubState where
  slots : Fin circuitMaxLinks → Option LinkSlot
  sessions : List UserSession

def HubState.start : HubState := ⟨fun _ => none, []⟩

def HubState.setSlot (s : HubState) (i : Fin circuitMaxLinks) (slot : Option LinkSlot) : HubState :=
  { s with slots := Function.update s.slots i slot }

/-- Whether the users' sacrifice spares the link, with the sessions and the balancer afterwards. -/
def circuitBandwidthSpareLink (sessions : List UserSession) (bal : CircuitBalance) (action : BalanceAction) :
    List UserSession × CircuitBalance × Bool :=
  if bandwidthPolicyUserCount sessions = 0 then (sessions, bal, false)
  else
    let r := bandwidthPolicyApply sessions action
    if r.2 = 0 then (r.1, bal, false)
    else (r.1, if bal.action = balCancel then circuitBalanceSparedCancel bal else bal, true)

/-- The flow callback of a call, as the balancer sees it. -/
def hubFlowFn (sessions : List UserSession) (bal : CircuitBalance) : FlowFn :=
  ⟨(circuitBandwidthSpareLink sessions bal balCancel).2.2⟩

/-- The flow callback of a call, as the sessions see it; every report fits the payload it is sent in. -/
def hubFlowSessions (sessions : List UserSession) (report : FlowReport) : List UserSession :=
  if report.action = balNone then sessions else (bandwidthPolicyApply sessions report.action).1

def circuitSlotSendHbx (cfg : BalanceConfig) (slot : LinkSlot) (sessions : List UserSession) (frame : Bytes)
    (send : HybbxResult) (enqueued now : ℤ) : LinkSlot × List UserSession :=
  if slot.profileSet = true ∧ cfg.enabled = true then
    let send := if slot.fdOpen then send else .errBusy
    let r := circuitBalanceSubmit slot.balance frame send enqueued now (some (hubFlowFn sessions slot.balance))
    ({ slot with balance := r.bal }, r.reports.foldl hubFlowSessions sessions)
  else (slot, sessions)

/-- A slow link that is still in PAUSE and full throttles one more user. -/
def tickPressure (cfg : BalanceConfig) (bal : CircuitBalance) (sessions : List UserSession) : List UserSession :=
  if cfg.enabled = true ∧ bal.profile.bandwidth = .bwLow ∧ bal.action = balPause ∧ cfg.queuePause ≤ bal.queueBytes then
    (circuitBandwidthSpareLink sessions bal balPause).1
  else sessions

/-- With the flag that makes the link's thread leave its loop. -/
def circuitBalanceTickSlot (cfg : BalanceConfig) (slot : LinkSlot) (sessions : List UserSession)
    (send : ℕ → Bool) (now : ℤ) : LinkSlot × List UserSession × Bool :=
  if slot.profileSet = false then (slot, sessions, false)
  else
    let send := fun k => slot.fdOpen && send k
    let r := circuitBalanceTick slot.balance circuitLinkPollMs send now (some (hubFlowFn sessions slot.balance))
    let sessions := tickPressure cfg r.bal (r.reports.foldl hubFlowSessions sessions)
    if r.result = .tickCancelLink then
      let q := circuitBandwidthSpareLink sessions r.bal balCancel
      ({ slot with balance := q.2.1 }, q.1, !q.2.2)
    else ({ slot with balance := r.bal }, sessions, false)

inductive HubEvent
  | attach (i : Fin circuitMaxLinks)
  | setProfile (i : Fin circuitMaxLinks) (profile : LinkProfile)
  | submit (i : Fin circuitMaxLinks) (frame : Bytes) (send : HybbxResult) (enqueued now : ℤ)
  | tick (i : Fin circuitMaxLinks) (send : ℕ → Bool) (now : ℤ)
  | evict (i : Fin circuitMaxLinks)
  | detach (i : Fin circuitMaxLinks)
  | connect (sessionId : ℕ) (transport : TransportKind) (connectedAt : ℤ)
  | login (k : ℕ)
  | close (k : ℕ)

def hubStep (cfg : BalanceConfig) (s : HubState) : HubEvent → HubState
  | .attach i => match s.slots i with
    | none => s.setSlot i (some ⟨circuitBalanceCreate (some cfg), false, true⟩)
    | some _ => s
  | .setProfile i profile => match s.slots i with
    | none => s
    | some slot =>
      s.setSlot i (some { slot with balance := circuitBalanceSetProfile slot.balance profile, profileSet := true })
  | .submit i frame send enqueued now => match s.slots i with
    | none => s
    | some slot =>
      let r := circuitSlotSendHbx cfg slot s.sessions frame send enqueued now
      { s.setSlot i (some r.1) with sessions := r.2 }
  | .tick i send now => match s.slots i with
    | none => s
    | some slot =>
      let r := circuitBalanceTickSlot cfg slot s.sessions send now
      { s.setSlot i (some r.1) with sessions := r.2.1 }
  -- the slot stays taken until its thread has left the loop
  | .evict i => s.setSlot i ((s.slots i).map fun slot => { slot with fdOpen := false })
  | .detach i => s.setSlot i none
  | .connect sessionId transport connectedAt =>
    { s with sessions := ⟨sessionId, transport, connectedAt, false, false, false⟩ :: s.sessions }
  | .login k => { s with sessions := s.sessions.modify k fun session => { session with loggedIn := true } }
  | .close k => { s with sessions := s.sessions.eraseIdx k }

def Pausing (s : HubState) (i : Fin circuitMaxLinks) : Prop :=
  ∃ slot, s.slots i = some slot ∧ slot.balance.action = balPause

def OtherPausing (s : HubState) (i : Fin circuitMaxLinks) : Prop := ∃ j, j ≠ i ∧ Pausing s j

/-- A user is paused only while a link is in PAUSE. -/
def Throttled (s : HubState) : Prop := AnyPaused s.sessions → ∃ i, Pausing s i

/-! What one call does to a link in PAUSE and to the users it has paused. -/

/-- A slow link has reached one of the cancel thresholds. -/
def CancelDue (bal : CircuitBalance) (now : ℤ) : Prop :=
  bal.cfg.enabled = true ∧ bal.linkLowBw = true ∧
    (bal.cfg.queueCancel ≤ bal.queueBytes ∨ bal.cfg.lagSec * 2 % 2 ^ 32 ≤ balanceEstimatedLagSec bal now)

/-- A link is below all thresholds and below half of those of PAUSE. -/
def ResumeDue (bal : CircuitBalance) (now : ℤ) : Prop :=
  bal.cfg.enabled = true ∧ ¬CancelDue bal now ∧
    ¬(bal.cfg.queueBreak ≤ bal.queueBytes ∨ bal.cfg.lagSec ≤ balanceEstimatedLagSec bal now) ∧
    ¬(bal.cfg.queuePause ≤ bal.queueBytes ∨ lagPause bal.cfg ≤ balanceEstimatedLagSec bal now) ∧
    bal.queueBytes < bal.cfg.queuePause / 2 ∧ balanceEstimatedLagSec bal now < lagPause bal.cfg

/-- Where a balancer is in between two calls. -/
structure Orderly (bal : CircuitBalance) : Prop where
  settled : Settled bal.action
  unresumed : bal.action = balPause → bal.lastSentAction ≠ balResume

section Escalation

variable {bal : CircuitBalance} {now : ℤ}

lemma sendFlow_same {action : BalanceAction} (h : action = bal.lastSentAction) (reason : String) (f : FlowFn) :
    balanceSendFlow bal action reason (some f) = (bal, []) := by
  rw [balanceSendFlow, if_pos h]

lemma sendFlow_other {action : BalanceAction} (h : action ≠ bal.lastSentAction) (reason : String) (f : FlowFn) :
    balanceSendFlow bal action reason (some f) =
      ({ f.apply action bal with lastSentAction := action }, [⟨action, ofString reason⟩]) := by
  rw [balanceSendFlow, if_neg h]

/-- Only CANCEL hands the balancer over to the callback. -/
lemma sendFlow_plain {action : BalanceAction} (hn : action ≠ balCancel) (bal : CircuitBalance) (reason : String)
    (f : FlowFn) : (balanceSendFlow bal action reason (some f)).1 = bal.mark bal.action action := by
  by_cases h : action = bal.lastSentAction
  · rw [sendFlow_same h, h]
    rfl
  · rw [sendFlow_other h, FlowFn.apply, if_neg fun hh => hn hh.1]
    rfl

/-- At a cancel threshold the link is cancelled unless the callback is asked and spares it. -/
lemma escalation_cancel (h : CancelDue bal now) (ha : bal.action ≠ balCancel) (f : FlowFn) :
    (balanceApplyEscalation bal now (some f)).1.action =
        (if bal.lastSentAction ≠ balCancel ∧ f.spares = true then balPause else balCancel) ∧
      (balanceApplyEscalation bal now (some f)).1.lastSentAction = balCancel ∧
      (balanceApplyEscalation bal now (some f)).2.map FlowReport.action =
        if bal.lastSentAction = balCancel then [] else [balCancel] := by
  obtain ⟨he, hl, ht⟩ := h
  rw [balanceApplyEscalation, if_neg (by simp [he]), if_pos ⟨hl, ht⟩, if_pos ha]
  by_cases hlast : bal.lastSentAction = balCancel
  · rw [sendFlow_same (by exact hlast.symm)]
    simp [hlast, balanceClearQueue]
  · rw [sendFlow_other (by exact fun h => hlast h.symm)]
    cases hs : f.spares with
    | false => simp [hlast, balanceClearQueue, FlowFn.apply, hs]
    | true => simp [hlast, balanceClearQueue, FlowFn.apply, hs, circuitBalanceSparedCancel]

lemma escalation_resume (h : ResumeDue bal now) (ho : Orderly bal) (ha : bal.action = balPause) (f : FlowFn) :
    (balanceApplyEscalation bal now (some f)).1.action = balNone ∧
      (balanceApplyEscalation bal now (some f)).2.map FlowReport.action = [balResume] := by
  obtain ⟨he, hc, hb, hp, hbytes, hlag⟩ := h
  have hcancel : ¬(bal.linkLowBw = true ∧ (bal.cfg.queueCancel ≤ bal.queueBytes ∨
      bal.cfg.lagSec * 2 % 2 ^ 32 ≤ balanceEstimatedLagSec bal now)) := fun hh => hc ⟨he, hh⟩
  rw [balanceApplyEscalation, if_neg (by simp [he]), if_neg hcancel, if_neg hb, if_neg hp, if_pos ⟨ha, hbytes, hlag⟩,
    sendFlow_other (by exact (ho.unresumed ha).symm)]
  exact ⟨rfl, rfl⟩

/-- In every other case a link in PAUSE stays there. -/
lemma escalation_pause (hc : ¬CancelDue bal now) (hr : ¬ResumeDue bal now) (ho : Orderly bal)
    (ha : bal.action = balPause) (f : FlowFn) :
    (balanceApplyEscalation bal now (some f)).1.action = balPause ∧
      (balanceApplyEscalation bal now (some f)).1.lastSentAction ≠ balResume := by
  have hlast := ho.unresumed ha
  rw [balanceApplyEscalation]
  split_ifs with he hcancel hne hbreak hne' hpause hnone hresume
  · exact ⟨ha, hlast⟩
  · exact absurd ⟨by simpa using he, hcancel⟩ hc
  · exact ⟨ha, hlast⟩
  · -- BREAK is followed by PAUSE in the same call
    rw [sendFlow_plain (by decide)]
    exact ⟨rfl, by simp [CircuitBalance.mark]⟩
  · exact ⟨ha, hlast⟩
  · rw [ha] at hnone
    cases hnone
  · exact ⟨ha, hlast⟩
  · exact absurd ⟨by simpa using he, hc, hbreak, hpause, hresume.2⟩ hr
  · exact ⟨ha, hlast⟩

/-- A link that runs may get throttled or cancelled; as long as it does not, the users are left alone. -/
lemma escalation_running (ha : bal.action = balNone) (f : FlowFn) :
    balanceApplyEscalation bal now (some f) = (bal, []) ∨
      ((balanceApplyEscalation bal now (some f)).1.action = balPause ∧
        (balanceApplyEscalation bal now (some f)).1.lastSentAction ≠ balResume) ∨
      ((balanceApplyEscalation bal now (some f)).1.action = balCancel ∧
        ∀ r ∈ (balanceApplyEscalation bal now (some f)).2, r.action = balCancel) := by
  by_cases hc : CancelDue bal now
  · right
    obtain ⟨hact, hlast, hrep⟩ := escalation_cancel hc (by rw [ha]; decide) f
    by_cases hsp : bal.lastSentAction ≠ balCancel ∧ f.spares = true
    · rw [if_pos hsp] at hact
      exact .inl ⟨hact, by rw [hlast]; decide⟩
    · rw [if_neg hsp] at hact
      refine .inr ⟨hact, fun r hr => ?_⟩
      have hmem := List.mem_map_of_mem (f := FlowReport.action) hr
      rw [hrep] at hmem
      split_ifs at hmem
      · exact absurd hmem List.not_mem_nil
      · exact List.mem_singleton.mp hmem
  · rw [balanceApplyEscalation]
    split_ifs with he hcancel hne hbreak hne' hpause hresume
    · exact .inl rfl
    · exact absurd ⟨by simpa using he, hcancel⟩ hc
    · exact .inl rfl
    · rw [sendFlow_plain (by decide)]
      exact .inr (.inl ⟨rfl, by simp [CircuitBalance.mark]⟩)
    · exact .inl rfl
    · rw [sendFlow_plain (by decide)]
      exact .inr (.inl ⟨rfl, by simp [CircuitBalance.mark]⟩)
    · rw [ha] at hresume
      cases hresume.1
    · exact .inl rfl

end Escalation

/-- The balancer a submit hands to the escalation. -/
def submitEscalates (bal : CircuitBalance) (frame : Bytes) (enqueued : ℤ) : Option CircuitBalance :=
  if frame.length = 0 then none
  else if bal.cfg.enabled = false ∨ bal.profile.bandwidth = .bwHigh then none
  else if bal.action = balCancel then none
  else if circuitBalanceQueueMax ≤ bal.queue.count then some bal
  else if h : frame.length ≤ circuitMaxFrame then some (balanceEnqueue bal ⟨frame, h⟩ enqueued)
  else none

lemma submit_escalates (bal : CircuitBalance) (frame : Bytes) (send : HybbxResult) (enqueued now : ℤ)
    (flow : Option FlowFn) :
    ((circuitBalanceSubmit bal frame send enqueued now flow).bal,
        (circuitBalanceSubmit bal frame send enqueued now flow).reports) =
      match submitEscalates bal frame enqueued with
      | none => (bal, [])
      | some b => balanceApplyEscalation b now flow := by
  rw [circuitBalanceSubmit, submitEscalates]
  by_cases hd : bal.cfg.enabled = false ∨ bal.profile.bandwidth = .bwHigh
  · rw [if_pos hd, if_pos hd]
    split_ifs <;> rfl
  · rw [if_neg hd, if_neg hd]
    split_ifs <;> rfl

lemma submitEscalates_frame {bal b : CircuitBalance} {frame : Bytes} {enqueued : ℤ}
    (h : submitEscalates bal frame enqueued = some b) :
    b.action = bal.action ∧ b.lastSentAction = bal.lastSentAction ∧ bal.action ≠ balCancel := by
  rw [submitEscalates] at h
  split_ifs at h with h1 h2 hc h4 h5
  · obtain rfl := Option.some.inj h
    exact ⟨rfl, rfl, hc⟩
  · obtain rfl := Option.some.inj h
    exact ⟨rfl, rfl, hc⟩

/-- What becomes of a link and the users: the next balancer `bal'` and the next sessions `ss'`. -/
structure LinkOutcome (bal : CircuitBalance) (ss : List UserSession) (lost resumed : Prop) (bal' : CircuitBalance)
    (ss' : List UserSession) : Prop where
  orderly : Orderly bal'
  loses : bal.action = balPause → lost → bal'.action ≠ balPause ∧ (AnyPaused ss' ↔ AnyPaused ss)
  resumes : bal.action = balPause → resumed → bal'.action ≠ balPause ∧ (AnyPaused ss' ↔ Overlooked ss)
  keeps : bal.action = balPause → ¬lost → ¬resumed → bal'.action = balPause
  running : bal.action ≠ balPause → bal'.action = balPause ∨ (AnyPaused ss' → AnyPaused ss)

lemma foldl_cancel {ss : List UserSession} {rs : List FlowReport} (h : ∀ r ∈ rs, r.action = balCancel)
    (hp : AnyPaused (rs.foldl hubFlowSessions ss)) : AnyPaused ss := by
  induction rs generalizing ss with
  | nil => exact hp
  | cons r rs ih =>
    have hnext := ih (fun q hq => h q (List.mem_cons_of_mem _ hq)) hp
    rw [hubFlowSessions, h r List.mem_cons_self, if_neg (by decide)] at hnext
    exact anyPaused_cancel hnext

lemma foldl_actions (rs : List FlowReport) (ss : List UserSession) : rs.foldl hubFlowSessions ss =
    (rs.map FlowReport.action).foldl (fun ss a => if a = balNone then ss else (bandwidthPolicyApply ss a).1) ss := by
  rw [List.foldl_map]
  rfl

lemma hubFlowFn_spares (ss : List UserSession) (bal : CircuitBalance) :
    (hubFlowFn ss bal).spares = true ↔ 1 < bandwidthPolicyUserCount ss := by
  rw [hubFlowFn, circuitBandwidthSpareLink]
  by_cases hfew : bandwidthPolicyUserCount ss ≤ 1
  · rw [cancel_few hfew]
    split_ifs <;> simp [hfew]
  · have hmany := not_le.mp hfew
    rw [if_neg (by omega)]
    dsimp only
    rw [if_neg (cancel_many hmany)]
    simp [hmany]

/-- Whom the sacrifice of the users does not save. -/
def Unspared (bal : CircuitBalance) (ss : List UserSession) : Prop :=
  bal.lastSentAction = balCancel ∨ bandwidthPolicyUserCount ss ≤ 1

section Outcome

variable {bal : CircuitBalance} (ho : Orderly bal) (now : ℤ) (ss : List UserSession)

lemma flow_unspared (b : CircuitBalance) :
    (bal.lastSentAction ≠ balCancel ∧ (hubFlowFn ss b).spares = true) ↔ ¬Unspared bal ss := by
  rw [hubFlowFn_spares, Unspared, not_or, not_le]

/-- A cancel that nobody is sacrificed for changes no session. -/
lemma cancel_sessions (hc : CancelDue bal now) (ha : bal.action ≠ balCancel) (hu : Unspared bal ss)
    (b : CircuitBalance) :
    (balanceApplyEscalation bal now (some (hubFlowFn ss b))).1.action = balCancel ∧
      (balanceApplyEscalation bal now (some (hubFlowFn ss b))).2.foldl hubFlowSessions ss = ss := by
  obtain ⟨hact, -, hrep⟩ := escalation_cancel hc ha (hubFlowFn ss b)
  rw [if_neg fun hh => (flow_unspared ss b).mp hh hu] at hact
  refine ⟨hact, ?_⟩
  rw [foldl_actions, hrep]
  rcases hu with hlast | hfew
  · rw [if_pos hlast, List.foldl_nil]
  · split_ifs
    · rfl
    · rw [List.foldl_cons, List.foldl_nil, if_neg (by decide), cancel_few hfew]

include ho in
/-- The escalation of a call, with the users it is reported to. -/
lemma escalation_outcome (ha : bal.action ≠ balCancel) (b : CircuitBalance) :
    LinkOutcome bal ss (CancelDue bal now ∧ Unspared bal ss) (ResumeDue bal now)
      (balanceApplyEscalation bal now (some (hubFlowFn ss b))).1
      ((balanceApplyEscalation bal now (some (hubFlowFn ss b))).2.foldl hubFlowSessions ss) := by
  have hfirst : bal.action = balNone ∨ bal.action = balPause := by
    rcases ho.settled with h | h | h
    · exact .inl h
    · exact .inr h
    · exact absurd h ha
  rcases hfirst with hnone | hpause
  · have hnp : bal.action ≠ balPause := by rw [hnone]; decide
    rcases @escalation_running _ now hnone (hubFlowFn ss b) with he | ⟨hact, hlast⟩ | ⟨hact, hrep⟩
    · rw [he]
      exact ⟨ho, fun h => absurd h hnp, fun h => absurd h hnp, fun h => absurd h hnp, fun _ => .inr id⟩
    · exact ⟨⟨.inr (.inl hact), fun _ => hlast⟩, fun h => absurd h hnp, fun h => absurd h hnp, fun _ _ _ => hact,
        fun _ => .inl hact⟩
    · refine ⟨⟨.inr (.inr hact), fun h => ?_⟩, fun h => absurd h hnp, fun h => absurd h hnp, fun h => absurd h hnp,
        fun _ => .inr (foldl_cancel hrep)⟩
      rw [hact] at h
      cases h
  · by_cases hc : CancelDue bal now
    · have hnr : ¬ResumeDue bal now := fun h => h.2.1 hc
      obtain ⟨hact, hlast, -⟩ := escalation_cancel hc ha (hubFlowFn ss b)
      by_cases hu : Unspared bal ss
      · obtain ⟨hcancel, hsame⟩ := cancel_sessions now ss hc ha hu b
        refine ⟨⟨.inr (.inr hcancel), fun h => ?_⟩, fun _ _ => ⟨?_, by rw [hsame]⟩, fun _ h => absurd h hnr,
          fun _ h => absurd ⟨hc, hu⟩ h, fun h => absurd hpause h⟩
        · rw [hcancel] at h
          cases h
        · rw [hcancel]
          decide
      · rw [if_pos ((flow_unspared ss b).mpr hu)] at hact
        exact ⟨⟨.inr (.inl hact), fun _ => by rw [hlast]; decide⟩, fun _ h => absurd h.2 hu, fun _ h => absurd h hnr,
          fun _ _ _ => hact, fun h => absurd hpause h⟩
    · by_cases hr : ResumeDue bal now
      · obtain ⟨hact, hrep⟩ := escalation_resume hr ho hpause (hubFlowFn ss b)
        refine ⟨⟨.inl hact, fun h => ?_⟩, fun _ h => absurd h.1 hc, fun _ _ => ⟨?_, ?_⟩, fun _ _ h => absurd hr h,
          fun h => absurd hpause h⟩
        · rw [hact] at h
          cases h
        · rw [hact]
          decide
        · rw [foldl_actions, hrep, List.foldl_cons, List.foldl_nil, if_neg (by decide), anyPaused_resume]
      · obtain ⟨hact, hlast⟩ := escalation_pause hc hr ho hpause (hubFlowFn ss b)
        exact ⟨⟨.inr (.inl hact), fun _ => hlast⟩, fun _ h => absurd h.1 hc, fun _ h => absurd h hr, fun _ _ _ => hact,
          fun h => absurd hpause h⟩

end Outcome

end HyBBX.Circuit
