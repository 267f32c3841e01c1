import HyBBX.Circuit.Balance
import HyBBX.Circuit.HubThrottleStep

/-! Runs of the hub: users stay paused without a cause exactly if a link in PAUSE goes without a RESUME. -/

namespace HyBBX.Circuit

open HyBBX.Core Lib Lib.Bytes BalanceAction

section Slot

variable {cfg : BalanceConfig} {slot : LinkSlot} {ss : List UserSession} (ho : Orderly slot.balance)

/-- A submit reaches a cancel threshold and nobody is sacrificed for the link. -/
def SubmitLoses (cfg : BalanceConfig) (slot : LinkSlot) (ss : List UserSession) (frame : Bytes) (enqueued now : ℤ) :
    Prop :=
  (slot.profileSet = true ∧ cfg.enabled = true) ∧
    ∃ b, submitEscalates slot.balance frame enqueued = some b ∧ CancelDue b now ∧ Unspared b ss

def SubmitResumes (cfg : BalanceConfig) (slot : LinkSlot) (frame : Bytes) (enqueued now : ℤ) : Prop :=
  (slot.profileSet = true ∧ cfg.enabled = true) ∧
    ∃ b, submitEscalates slot.balance frame enqueued = some b ∧ ResumeDue b now

/-- A tick reaches a cancel threshold; it asks twice for a sacrifice, and with an empty queue once. -/
def TickLoses (slot : LinkSlot) (ss : List UserSession) (now : ℤ) : Prop :=
  slot.profileSet = true ∧ CancelDue slot.balance now ∧
    (bandwidthPolicyUserCount ss ≤ 1 ∨ (slot.balance.lastSentAction = balCancel ∧ slot.balance.queue.count = 0))

def TickResumes (slot : LinkSlot) (now : ℤ) : Prop := slot.profileSet = true ∧ ResumeDue slot.balance now

include ho in
lemma outcome_same {lost resumed : Prop} (hl : ¬lost) (hr : ¬resumed) :
    LinkOutcome slot.balance ss lost resumed slot.balance ss :=
  ⟨ho, fun _ h => absurd h hl, fun _ h => absurd h hr, fun h _ _ => h, fun _ => .inr id⟩

include ho in
lemma submit_outcome (frame : Bytes) (send : HybbxResult) (enqueued now : ℤ) :
    LinkOutcome slot.balance ss (SubmitLoses cfg slot ss frame enqueued now) (SubmitResumes cfg slot frame enqueued now)
      (circuitSlotSendHbx cfg slot ss frame send enqueued now).1.balance
      (circuitSlotSendHbx cfg slot ss frame send enqueued now).2 := by
  rw [circuitSlotSendHbx]
  by_cases hset : slot.profileSet = true ∧ cfg.enabled = true
  · rw [if_pos hset]
    dsimp only
    have hsub := submit_escalates slot.balance frame (if slot.fdOpen then send else .errBusy) enqueued now
      (some (hubFlowFn ss slot.balance))
    cases he : submitEscalates slot.balance frame enqueued with
    | none =>
      rw [he] at hsub
      obtain ⟨hb, hrep⟩ := Prod.mk.inj hsub
      rw [hb, hrep]
      exact outcome_same ho (fun h => by obtain ⟨-, b, hh, -⟩ := h; rw [he] at hh; cases hh)
        fun h => by obtain ⟨-, b, hh, -⟩ := h; rw [he] at hh; cases hh
    | some b =>
      rw [he] at hsub
      obtain ⟨hact, hlast, hlive⟩ := submitEscalates_frame he
      have hob : Orderly b := ⟨hact ▸ ho.settled, fun h => hlast ▸ ho.unresumed (hact ▸ h)⟩
      have hout := escalation_outcome hob now ss (hact ▸ hlive) slot.balance
      rw [← show _ = balanceApplyEscalation b now (some (hubFlowFn ss slot.balance)) from hsub] at hout
      refine ⟨hout.orderly, fun hp hl => ?_, fun hp hr => ?_, fun hp hl hr => ?_, fun hp => ?_⟩
      · obtain ⟨-, b', hb', hdue⟩ := hl
        obtain rfl := Option.some.inj (he.symm.trans hb')
        exact hout.loses (hact.trans hp) hdue
      · obtain ⟨-, b', hb', hdue⟩ := hr
        obtain rfl := Option.some.inj (he.symm.trans hb')
        exact hout.resumes (hact.trans hp) hdue
      · exact hout.keeps (hact.trans hp) (fun h => hl ⟨hset, b, he, h⟩) fun h => hr ⟨hset, b, he, h⟩
      · exact hout.running fun h => hp (hact.symm.trans h)
  · rw [if_neg hset]
    exact outcome_same ho (fun h => hset h.1) fun h => hset h.1

/-- What the tick of a slot adds to the tick of its balancer. -/
lemma tickSlot_settles (hset : slot.profileSet = true) (send : ℕ → Bool) (now : ℤ) {bal : CircuitBalance}
    {t : TickResult}
    {sent : List Bytes} {rs : List FlowReport}
    (hr : circuitBalanceTick slot.balance circuitLinkPollMs (fun k => slot.fdOpen && send k) now
      (some (hubFlowFn ss slot.balance)) = ⟨bal, t, sent, rs⟩) (ht : t = .tickCancelLink → bal.action = balCancel) :
    (bal.action = balPause → (circuitBalanceTickSlot cfg slot ss send now).1.balance = bal) ∧
      (bal.action ≠ balPause → (t = .tickCancelLink → bandwidthPolicyUserCount (rs.foldl hubFlowSessions ss) ≤ 1) →
        (circuitBalanceTickSlot cfg slot ss send now).1.balance = bal ∧
          (circuitBalanceTickSlot cfg slot ss send now).2.1 = rs.foldl hubFlowSessions ss) ∧
      (t = .tickCancelLink → 1 < bandwidthPolicyUserCount (rs.foldl hubFlowSessions ss) →
        (circuitBalanceTickSlot cfg slot ss send now).1.balance = circuitBalanceSparedCancel bal) := by
  rw [circuitBalanceTickSlot, if_neg (by simp [hset])]
  dsimp only
  rw [hr]
  dsimp only
  have hcalm : bal.action ≠ balPause → tickPressure cfg bal (rs.foldl hubFlowSessions ss) =
    rs.foldl hubFlowSessions ss :=
    fun hp => by rw [tickPressure, if_neg fun h => hp h.2.2.1]
  refine ⟨fun hp => ?_, fun hp hfew => ?_, fun hc hmany => ?_⟩
  · have hgo : ¬t = .tickCancelLink := by
      intro h
      rw [ht h] at hp
      cases hp
    rw [if_neg hgo]
  · rw [hcalm hp]
    split_ifs with hc
    · have hspare : circuitBandwidthSpareLink (rs.foldl hubFlowSessions ss) bal balCancel =
          (rs.foldl hubFlowSessions ss, bal, false) := by
        rw [circuitBandwidthSpareLink, cancel_few (hfew hc)]
        split_ifs <;> rfl
      rw [hspare]
      exact ⟨rfl, rfl⟩
    · exact ⟨rfl, rfl⟩
  · have hact := ht hc
    rw [if_pos hc, hcalm (by rw [hact]; decide), circuitBandwidthSpareLink, if_neg (by omega)]
    dsimp only
    rw [if_neg (cancel_many hmany), if_pos hact]

/-- On a link in PAUSE or with nothing to send a tick is its escalation. -/
lemma tick_paused {bal : CircuitBalance} (hp : bal.action = balPause) (send : ℕ → Bool) (now : ℤ)
    (flow : Option FlowFn) :
    circuitBalanceTick bal circuitLinkPollMs send now flow =
      ⟨(balanceApplyEscalation bal now flow).1,
        if bal.cfg.enabled = false ∨ bal.queue.count = 0 then .tickOk else tickResult (balanceApplyEscalation bal now flow).1,
        [], (balanceApplyEscalation bal now flow).2⟩ := by
  rw [circuitBalanceTick, if_neg (by rw [hp]; decide)]
  split_ifs <;> rfl

lemma tickResult_cancel {bal : CircuitBalance} (h : tickResult bal = .tickCancelLink) : bal.action = balCancel := by
  rw [tickResult] at h
  split_ifs at h with hc
  exact hc

include ho in
lemma tick_outcome_paused (hset : slot.profileSet = true) (hp : slot.balance.action = balPause)
    (send : ℕ → Bool) (now : ℤ) :
    LinkOutcome slot.balance ss (TickLoses slot ss now) (TickResumes slot now)
      (circuitBalanceTickSlot cfg slot ss send now).1.balance (circuitBalanceTickSlot cfg slot ss send now).2.1 := by
  have hlive : slot.balance.action ≠ balCancel := by rw [hp]; decide
  have hesc := escalation_outcome ho now ss hlive slot.balance
  have hcan := fun hc hu => @cancel_sessions slot.balance now ss hc hlive hu slot.balance
  have htick := tick_paused hp (fun k => slot.fdOpen && send k) now (some (hubFlowFn ss slot.balance))
  obtain ⟨t, ht⟩ : ∃ t, t = if slot.balance.cfg.enabled = false ∨ slot.balance.queue.count = 0 then TickResult.tickOk
    else tickResult (balanceApplyEscalation slot.balance now (some (hubFlowFn ss slot.balance))).1 := ⟨_, rfl⟩
  rw [← ht] at htick
  obtain ⟨E, hE⟩ : ∃ E, E = balanceApplyEscalation slot.balance now (some (hubFlowFn ss slot.balance)) := ⟨_, rfl⟩
  rw [← hE] at hesc hcan htick ht
  have hlink : t = .tickCancelLink → E.1.action = balCancel := by
    intro h
    rw [h] at ht
    split_ifs at ht
    exact tickResult_cancel ht.symm
  obtain ⟨hpause, hother, hspare⟩ := @tickSlot_settles cfg slot ss hset send now _ _ _ _ htick hlink
  by_cases hc : CancelDue slot.balance now ∧ Unspared slot.balance ss
  · -- the escalation cancels the link and no user was asked
    obtain ⟨hact, hss⟩ := hcan hc.1 hc.2
    rw [hss] at hother hspare
    have hnp : E.1.action ≠ balPause := by rw [hact]; decide
    have hnr : ¬TickResumes slot now := fun h => h.2.2.1 hc.1
    by_cases hl : TickLoses slot ss now
    · obtain ⟨hb, hs⟩ := hother hnp fun h => by
        rcases hl.2.2 with hfew | hempty
        · exact hfew
        · rw [h, if_pos (.inr hempty.2)] at ht
          cases ht
      rw [hb, hs]
      refine ⟨⟨.inr (.inr hact), fun h => absurd h hnp⟩, fun _ _ => ⟨hnp, Iff.rfl⟩, fun _ h => absurd h hnr,
        fun _ h => absurd hl h, fun h => absurd hp h⟩
    · have hmany : 1 < bandwidthPolicyUserCount ss := by
        by_contra hfew
        exact hl ⟨hset, hc.1, .inl (not_lt.mp hfew)⟩
      have hlast := hc.2.resolve_right (not_le.mpr hmany)
      have hqueue : slot.balance.queue.count ≠ 0 := fun h => hl ⟨hset, hc.1, .inr ⟨hlast, h⟩⟩
      have hcl : t = .tickCancelLink := by
        rw [ht, if_neg (by simp [hc.1.1, hqueue]), tickResult, if_pos hact]
      have hb := hspare hcl hmany
      rw [circuitBalanceSparedCancel, if_pos hact] at hb
      refine ⟨?_, fun _ h => absurd h hl, fun _ h => absurd h hnr, fun _ _ _ => ?_, fun h => absurd hp h⟩
      · rw [hb]
        exact ⟨.inr (.inl rfl), fun _ h => by cases h⟩
      · rw [hb]
  · have hnl : ¬TickLoses slot ss now := by
      rintro ⟨-, hdue, hu⟩
      refine hc ⟨hdue, ?_⟩
      rcases hu with hfew | hempty
      · exact .inr hfew
      · exact .inl hempty.1
    by_cases hr : TickResumes slot now
    · obtain ⟨hnp, hss⟩ := hesc.resumes hp hr.2
      have hok : t ≠ .tickCancelLink := by
        intro h
        have := (escalation_resume hr.2 ho hp (hubFlowFn ss slot.balance)).1
        rw [← hE, hlink h] at this
        cases this
      obtain ⟨hb, hs⟩ := hother hnp fun h => absurd h hok
      rw [hb, hs]
      exact ⟨hesc.orderly, fun _ h => absurd h hnl, fun _ _ => ⟨hnp, hss⟩, fun _ _ h => absurd hr h,
        fun h => absurd hp h⟩
    · have hkeep := hesc.keeps hp hc fun h => hr ⟨hset, h⟩
      have hb := hpause hkeep
      rw [hb]
      exact ⟨hesc.orderly, fun _ h => absurd h hnl, fun _ h => absurd h hr, fun _ _ _ => hkeep, fun h => absurd hp h⟩

/-- A tick of a link that is not in PAUSE pauses nobody without a cause. -/
lemma tick_settles_running (hset : slot.profileSet = true) (hp : slot.balance.action ≠ balPause) (send : ℕ → Bool)
    (now : ℤ) {bal : CircuitBalance} {t : TickResult} {sent : List Bytes} {rs : List FlowReport}
    (hr : circuitBalanceTick slot.balance circuitLinkPollMs (fun k => slot.fdOpen && send k) now
      (some (hubFlowFn ss slot.balance)) = ⟨bal, t, sent, rs⟩) (ht : t = .tickCancelLink → bal.action = balCancel)
    (hob : Orderly bal) (hrun : bal.action = balPause ∨ (AnyPaused (rs.foldl hubFlowSessions ss) → AnyPaused ss)) :
    LinkOutcome slot.balance ss (TickLoses slot ss now) (TickResumes slot now)
      (circuitBalanceTickSlot cfg slot ss send now).1.balance (circuitBalanceTickSlot cfg slot ss send now).2.1 := by
  obtain ⟨hpause, hother, hspare⟩ := @tickSlot_settles cfg slot ss hset send now _ _ _ _ hr ht
  by_cases hb : bal.action = balPause
  · rw [hpause hb]
    exact ⟨hob, fun h => absurd h hp, fun h => absurd h hp, fun h => absurd h hp, fun _ => .inl hb⟩
  · by_cases hmany : t = .tickCancelLink ∧ 1 < bandwidthPolicyUserCount (rs.foldl hubFlowSessions ss)
    · rw [hspare hmany.1 hmany.2, circuitBalanceSparedCancel, if_pos (ht hmany.1)]
      exact ⟨⟨.inr (.inl rfl), fun _ h => by cases h⟩, fun h => absurd h hp, fun h => absurd h hp, fun h => absurd h hp,
        fun _ => .inl rfl⟩
    · obtain ⟨hsame, hs⟩ := hother hb fun hc => not_lt.mp fun hlt => hmany ⟨hc, hlt⟩
      rw [hsame, hs]
      exact ⟨hob, fun h => absurd h hp, fun h => absurd h hp, fun h => absurd h hp,
        fun _ => .inr (hrun.resolve_left hb)⟩

lemma pacedDrain_orderly {bal : CircuitBalance} (h : Orderly bal) (pollMs : ℕ) (send : ℕ → Bool) :
    Orderly (balancePacedDrain bal pollMs send).1 ∧ (balancePacedDrain bal pollMs send).1.action = bal.action := by
  obtain ⟨queue, oldest, hf⟩ := pacedDrain_frame bal pollMs send
  rw [hf]
  exact ⟨⟨h.settled, h.unresumed⟩, rfl⟩

include ho in
lemma tick_outcome (send : ℕ → Bool) (now : ℤ) :
    LinkOutcome slot.balance ss (TickLoses slot ss now) (TickResumes slot now)
      (circuitBalanceTickSlot cfg slot ss send now).1.balance (circuitBalanceTickSlot cfg slot ss send now).2.1 := by
  by_cases hset : slot.profileSet = true
  · by_cases hp : slot.balance.action = balPause
    · exact tick_outcome_paused ho hset hp send now
    · have hescalate : ∀ {b : CircuitBalance}, Orderly b → b.action = slot.balance.action → b.action ≠ balCancel →
          Orderly (balanceApplyEscalation b now (some (hubFlowFn ss slot.balance))).1 ∧
            ((balanceApplyEscalation b now (some (hubFlowFn ss slot.balance))).1.action = balPause ∨
              (AnyPaused ((balanceApplyEscalation b now (some (hubFlowFn ss slot.balance))).2.foldl hubFlowSessions ss) →
                AnyPaused ss)) := by
        intro b hb hact hlive
        have hout := escalation_outcome hb now ss hlive slot.balance
        exact ⟨hout.orderly, hout.running (hact ▸ hp)⟩
      by_cases hlive : slot.balance.action = balCancel
      · have htick : circuitBalanceTick slot.balance circuitLinkPollMs (fun k => slot.fdOpen && send k) now
            (some (hubFlowFn ss slot.balance)) = ⟨slot.balance, .tickCancelLink, [], []⟩ := by
          rw [circuitBalanceTick, if_pos hlive]
        exact tick_settles_running hset hp send now htick (fun _ => hlive) ho (.inr id)
      · by_cases hempty : slot.balance.cfg.enabled = false ∨ slot.balance.queue.count = 0
        · obtain ⟨hob, hrun⟩ := hescalate ho rfl hlive
          have htick : circuitBalanceTick slot.balance circuitLinkPollMs (fun k => slot.fdOpen && send k) now
              (some (hubFlowFn ss slot.balance)) =
                ⟨(balanceApplyEscalation slot.balance now (some (hubFlowFn ss slot.balance))).1, .tickOk, [],
                  (balanceApplyEscalation slot.balance now (some (hubFlowFn ss slot.balance))).2⟩ := by
            rw [circuitBalanceTick, if_neg hlive, if_pos hempty]
          exact tick_settles_running hset hp send now htick (fun h => by cases h) hob hrun
        · simp only [not_or, Bool.not_eq_false] at hempty
          obtain ⟨hod, hact⟩ := pacedDrain_orderly ho circuitLinkPollMs fun k => slot.fdOpen && send k
          obtain ⟨hob, hrun⟩ := hescalate hod hact (hact ▸ hlive)
          exact tick_settles_running hset hp send now (tick_drains slot.balance _ _ now _ ⟨hempty.1, hlive, hp, hempty.2⟩)
            tickResult_cancel hob hrun
  · rw [circuitBalanceTickSlot, if_pos (Bool.eq_false_iff.mpr hset)]
    exact outcome_same ho (fun h => hset h.1) fun h => hset h.1

end Slot

/-- What a step must not do: take a link out of PAUSE while it is the only cause of a pause, other than by a RESUME
that reaches every paused user. -/
def KeepsCause (cfg : BalanceConfig) (s : HubState) : HubEvent → Prop
  | .submit i frame _ enqueued now => ∀ slot, s.slots i = some slot → slot.balance.action = balPause →
    (SubmitLoses cfg slot s.sessions frame enqueued now → ¬AnyPaused s.sessions ∨ OtherPausing s i) ∧
      (SubmitResumes cfg slot frame enqueued now → ¬Overlooked s.sessions ∨ OtherPausing s i)
  | .tick i _ now => ∀ slot, s.slots i = some slot → slot.balance.action = balPause →
    (TickLoses slot s.sessions now → ¬AnyPaused s.sessions ∨ OtherPausing s i) ∧
      (TickResumes slot now → ¬Overlooked s.sessions ∨ OtherPausing s i)
  | .detach i => Pausing s i → ¬AnyPaused s.sessions ∨ OtherPausing s i
  | _ => True

def hubRun (cfg : BalanceConfig) : HubState → List HubEvent → HubState
  | s, [] => s
  | s, e :: es => hubRun cfg (hubStep cfg s e) es

/-- Every step of the run keeps the cause. -/
def AllKeepCause (cfg : BalanceConfig) : HubState → List HubEvent → Prop
  | _, [] => True
  | s, e :: es => KeepsCause cfg s e ∧ AllKeepCause cfg (hubStep cfg s e) es

def HubOrderly (s : HubState) : Prop := ∀ i slot, s.slots i = some slot → Orderly slot.balance

lemma setSlot_slots (s : HubState) (i j : Fin circuitMaxLinks) (new : Option LinkSlot) :
    (s.setSlot i new).slots j = if j = i then new else s.slots j := Function.update_apply ..

lemma orderly_setSlot {s : HubState} (h : HubOrderly s) {i : Fin circuitMaxLinks} {new : Option LinkSlot}
    (hnew : ∀ slot, new = some slot → Orderly slot.balance) (ss : List UserSession) :
    HubOrderly { s.setSlot i new with sessions := ss } := by
  intro j slot hj
  dsimp only at hj
  rw [setSlot_slots] at hj
  split_ifs at hj
  · exact hnew slot hj
  · exact h j slot hj

lemma pausing_setSlot {s : HubState} {i j : Fin circuitMaxLinks} {new : Option LinkSlot} {ss : List UserSession} :
    Pausing { s.setSlot i new with sessions := ss } j ↔
      if j = i then ∃ slot, new = some slot ∧ slot.balance.action = balPause else Pausing s j := by
  rw [Pausing]
  dsimp only
  rw [setSlot_slots]
  split_ifs
  · exact Iff.rfl
  · exact Iff.rfl

lemma throttled_setSlot {s : HubState} {i : Fin circuitMaxLinks} {new : Option LinkSlot} {ss : List UserSession} :
    Throttled { s.setSlot i new with sessions := ss } ↔
      (AnyPaused ss → (∃ slot, new = some slot ∧ slot.balance.action = balPause) ∨ OtherPausing s i) := by
  refine imp_congr_right fun _ => ⟨?_, ?_⟩
  · rintro ⟨j, hj⟩
    rw [pausing_setSlot] at hj
    split_ifs at hj with hji
    · exact .inl hj
    · exact .inr ⟨j, hji, hj⟩
  · rintro (hnew | ⟨j, hji, hj⟩)
    · refine ⟨i, ?_⟩
      rw [pausing_setSlot, if_pos rfl]
      exact hnew
    · refine ⟨j, ?_⟩
      rw [pausing_setSlot, if_neg hji]
      exact hj

lemma otherPausing_of_pausing {s : HubState} {i j : Fin circuitMaxLinks} (hj : Pausing s j) (hi : ¬Pausing s i) :
    OtherPausing s i := by
  refine ⟨j, fun h => hi ?_, hj⟩
  rw [← h]
  exact hj

/-- A call on one link keeps the cause of every pause exactly if it is none of the two bad ones. -/
lemma throttled_link {s : HubState} (ht : Throttled s) {i : Fin circuitMaxLinks} {slot slot' : LinkSlot}
    (hi : s.slots i = some slot) {lost resumed : Prop} {ss : List UserSession}
    (hout : LinkOutcome slot.balance s.sessions lost resumed slot'.balance ss) :
    Throttled { s.setSlot i (some slot') with sessions := ss } ↔ (slot.balance.action = balPause →
      (lost → ¬AnyPaused s.sessions ∨ OtherPausing s i) ∧ (resumed → ¬Overlooked s.sessions ∨ OtherPausing s i)) := by
  rw [throttled_setSlot]
  have hnew : (∃ q, some slot' = some q ∧ q.balance.action = balPause) ↔ slot'.balance.action = balPause := by simp
  rw [hnew]
  by_cases hp : slot.balance.action = balPause
  · constructor
    · intro hafter _
      refine ⟨fun hl => ?_, fun hr => ?_⟩
      · obtain ⟨hnp, hss⟩ := hout.loses hp hl
        exact or_iff_not_imp_left.mpr fun hany => (hafter (hss.mpr (not_not.mp hany))).resolve_left hnp
      · obtain ⟨hnp, hss⟩ := hout.resumes hp hr
        exact or_iff_not_imp_left.mpr fun hany => (hafter (hss.mpr (not_not.mp hany))).resolve_left hnp
    · intro hcond hany
      obtain ⟨hlost, hres⟩ := hcond hp
      by_cases hl : lost
      · exact .inr ((hlost hl).resolve_left fun h => h ((hout.loses hp hl).2.mp hany))
      · by_cases hr : resumed
        · exact .inr ((hres hr).resolve_left fun h => h ((hout.resumes hp hr).2.mp hany))
        · exact .inl (hout.keeps hp hl hr)
  · refine ⟨fun _ h => absurd h hp, fun _ hany => ?_⟩
    rcases hout.running hp with hpause | hback
    · exact .inl hpause
    · obtain ⟨j, hj⟩ := ht (hback hany)
      refine .inr (otherPausing_of_pausing hj ?_)
      rintro ⟨slot₀, hslot, hact⟩
      obtain rfl := Option.some.inj (hi.symm.trans hslot)
      exact hp hact

/-- A step that leaves the actions of all links as they are. -/
lemma throttled_same {s s' : HubState} (ht : Throttled s) (hslots : ∀ i, Pausing s i → Pausing s' i)
    (hss : AnyPaused s'.sessions → AnyPaused s.sessions) : Throttled s' := by
  intro hany
  obtain ⟨i, hi⟩ := ht (hss hany)
  exact ⟨i, hslots i hi⟩

lemma pausing_setSlot_same {s : HubState} {i : Fin circuitMaxLinks} {slot slot' : LinkSlot} (hi : s.slots i = some slot)
    (hact : slot'.balance.action = slot.balance.action) (j : Fin circuitMaxLinks) (hj : Pausing s j) :
    Pausing (s.setSlot i (some slot')) j := by
  refine (@pausing_setSlot s i j (some slot') s.sessions).mpr ?_
  split_ifs with hji
  · obtain ⟨slot₀, hslot, hp⟩ := hj
    rw [hji, hi, Option.some.injEq] at hslot
    subst hslot
    exact ⟨slot', rfl, hact.trans hp⟩
  · exact hj

/-- One step: the invariants stay, and the pauses keep a cause exactly under the condition. -/
lemma throttled_step (cfg : BalanceConfig) {s : HubState} (ho : HubOrderly s) (ht : Throttled s) (e : HubEvent) :
    HubOrderly (hubStep cfg s e) ∧ (Throttled (hubStep cfg s e) ↔ KeepsCause cfg s e) := by
  cases e with
  | attach i =>
    simp only [hubStep, KeepsCause, iff_true]
    cases hi : s.slots i with
    | some slot => exact ⟨ho, ht⟩
    | none =>
      refine ⟨orderly_setSlot ho (fun slot h => ?_) s.sessions, throttled_same ht (fun j hj => ?_) id⟩
      · obtain rfl := Option.some.inj h
        exact ⟨.inl rfl, fun h => by cases h⟩
      · refine (@pausing_setSlot s i j _ s.sessions).mpr ?_
        split_ifs with hji
        · obtain ⟨slot, hslot, -⟩ := hj
          rw [hji, hi] at hslot
          cases hslot
        · exact hj
  | setProfile i profile =>
    simp only [hubStep, KeepsCause, iff_true]
    cases hi : s.slots i with
    | none => exact ⟨ho, ht⟩
    | some slot =>
      refine ⟨orderly_setSlot ho (fun q h => ?_) s.sessions, throttled_same ht (pausing_setSlot_same hi rfl) id⟩
      obtain rfl := Option.some.inj h
      exact ⟨(ho i slot hi).settled, (ho i slot hi).unresumed⟩
  | submit i frame send enqueued now =>
    simp only [hubStep, KeepsCause]
    cases hi : s.slots i with
    | none => exact ⟨ho, iff_of_true ht fun slot h => by cases h⟩
    | some slot =>
      have hout := @submit_outcome cfg slot s.sessions (ho i slot hi) frame send enqueued now
      refine ⟨orderly_setSlot ho (fun q h => ?_) _, (throttled_link ht hi hout).trans ?_⟩
      · obtain rfl := Option.some.inj h
        exact hout.orderly
      · simp only [Option.some.injEq, forall_eq']
  | tick i send now =>
    simp only [hubStep, KeepsCause]
    cases hi : s.slots i with
    | none => exact ⟨ho, iff_of_true ht fun slot h => by cases h⟩
    | some slot =>
      have hout := @tick_outcome cfg slot s.sessions (ho i slot hi) send now
      refine ⟨orderly_setSlot ho (fun q h => ?_) _, (throttled_link ht hi hout).trans ?_⟩
      · obtain rfl := Option.some.inj h
        exact hout.orderly
      · simp only [Option.some.injEq, forall_eq']
  | evict i =>
    simp only [hubStep, KeepsCause, iff_true]
    cases hi : s.slots i with
    | none =>
      have hsame : s.setSlot i ((none : Option LinkSlot).map fun slot => { slot with fdOpen := false }) = s := by
        rw [Option.map_none, HubState.setSlot, ← hi, Function.update_eq_self]
      rw [hsame]
      exact ⟨ho, ht⟩
    | some slot =>
      refine ⟨orderly_setSlot ho (fun q h => ?_) s.sessions, throttled_same ht (pausing_setSlot_same hi rfl) id⟩
      obtain rfl := Option.some.inj h
      exact ⟨(ho i slot hi).settled, (ho i slot hi).unresumed⟩
  | detach i =>
    refine ⟨orderly_setSlot ho (fun slot h => by cases h) s.sessions, ?_⟩
    rw [hubStep, KeepsCause]
    refine (@throttled_setSlot s i none s.sessions).trans ?_
    have hnone : ¬∃ slot, (none : Option LinkSlot) = some slot ∧ slot.balance.action = balPause := by simp
    by_cases hp : Pausing s i
    · constructor
      · exact fun h _ => or_iff_not_imp_left.mpr fun hany => (h (not_not.mp hany)).resolve_left hnone
      · exact fun h hany => .inr ((h hp).resolve_left fun hn => hn hany)
    · refine iff_of_true (fun hany => ?_) fun h => absurd h hp
      obtain ⟨j, hj⟩ := ht hany
      exact .inr (otherPausing_of_pausing hj hp)
  | connect sessionId transport connectedAt =>
    simp only [hubStep, KeepsCause, iff_true]
    refine ⟨ho, throttled_same ht (fun _ h => h) ?_⟩
    rintro ⟨session, hmem, hp⟩
    rcases List.mem_cons.mp hmem with rfl | hmem
    · cases hp
    · exact ⟨session, hmem, hp⟩
  | login k =>
    simp only [hubStep, KeepsCause, iff_true]
    refine ⟨ho, throttled_same ht (fun _ h => h) ?_⟩
    rintro ⟨session, hmem, hp⟩
    obtain ⟨i, hi⟩ := List.mem_iff_getElem?.mp hmem
    rw [List.getElem?_modify] at hi
    obtain ⟨old, hold, rfl⟩ := Option.map_eq_some_iff.mp hi
    refine ⟨old, List.mem_of_getElem? hold, ?_⟩
    split_ifs at hp <;> exact hp
  | close k =>
    simp only [hubStep, KeepsCause, iff_true]
    refine ⟨ho, throttled_same ht (fun _ h => h) ?_⟩
    rintro ⟨session, hmem, hp⟩
    exact ⟨session, List.mem_of_mem_eraseIdx hmem, hp⟩

lemma throttled_from (cfg : BalanceConfig) (es : List HubEvent) {s : HubState} (ho : HubOrderly s) (ht : Throttled s) :
    (∀ es', es' <+: es → Throttled (hubRun cfg s es')) ↔ AllKeepCause cfg s es := by
  induction es generalizing s with
  | nil =>
    refine iff_of_true (fun es' h => ?_) trivial
    rw [List.prefix_nil.mp h]
    exact ht
  | cons e es ih =>
    obtain ⟨ho', hstep⟩ := throttled_step cfg ho ht e
    rw [AllKeepCause, ← hstep]
    constructor
    · intro hall
      have hnext := hall [e] (List.prefix_append [e] es)
      refine ⟨hnext, (ih ho' hnext).mp fun es' h => ?_⟩
      exact hall (e :: es') (List.cons_prefix_cons.mpr ⟨rfl, h⟩)
    · rintro ⟨hnext, hrest⟩ es' hpre
      cases es' with
      | nil => exact ht
      | cons e' es' =>
        obtain ⟨rfl, hpre'⟩ := List.cons_prefix_cons.mp hpre
        exact (ih ho' hnext).mpr hrest es' hpre'

/-- In every state of a run a paused user has a link in PAUSE exactly if no step takes the last such link out of
PAUSE other than by a RESUME that reaches all of them. -/
theorem throttled_run_iff (cfg : BalanceConfig) (es : List HubEvent) :
    (∀ es', es' <+: es → Throttled (hubRun cfg .start es')) ↔ AllKeepCause cfg .start es := by
  apply throttled_from
  · intro i slot h
    cases h
  · rintro ⟨session, hmem, -⟩
    exact absurd hmem List.not_mem_nil

/-- A radio link of 1200 baud attaches, a telnet user logs in, one frame throttles the user, and the link goes. -/
def muteRun (i : Fin circuitMaxLinks) : List HubEvent :=
  [.attach i, .setProfile i ⟨.bwLow, 1, 1200⟩, .connect 7 .telnet 0, .login 0,
    .submit i (List.replicate 600 0) .ok 100 100, .detach i]

theorem mute_without_links :
    (∀ i, ((hubRun (serviceBalanceConfig []) .start (muteRun ⟨0, by decide⟩)).slots i).isNone = true) ∧
      ¬Throttled (hubRun (serviceBalanceConfig []) .start (muteRun ⟨0, by decide⟩)) := by
  have hnone : ∀ i, ((hubRun (serviceBalanceConfig []) .start (muteRun ⟨0, by decide⟩)).slots i).isNone = true := by
    decide +kernel
  refine ⟨hnone, fun ht => ?_⟩
  have hany : ((hubRun (serviceBalanceConfig []) .start (muteRun ⟨0, by decide⟩)).sessions.any
      fun s => s.bandwidthPaused) = true := by
    decide +kernel
  obtain ⟨i, slot, hi, -⟩ := ht (List.any_eq_true.mp hany)
  have := hnone i
  rw [hi] at this
  cases this

end HyBBX.Circuit
