import HyBBX.Circuit.BalanceRun

/-! The record of the load balancer as it lies in memory: a ring of slots with its counters, which nothing keeps in range but
the code. It does what the balancer with its queue does, so the counters are never wrong. -/

namespace HyBBX.Circuit

open HyBBX.Core Config Lib Lib.Bytes BalanceAction

/-- A slot is the bytes that have been put into it; their number is its length. -/
structure BalanceRecord where
  cfg : BalanceConfig
  profile : LinkProfile
  slots : ℕ → Bytes
  qHead : ℕ
  qCount : ℕ
  queueBytes : ℕ
  action : BalanceAction
  lastSentAction : BalanceAction
  drainAccum : ℚ
  oldestEnqueue : ℤ
  linkLowBw : Bool

namespace BalanceRecord

def create (cfg : Option BalanceConfig) : BalanceRecord :=
  ⟨cfg.getD balanceConfigDefaults, linkProfileFromAuth none, fun _ => [], 0, 0, 0, balNone, balNone, 0, 0, false⟩

variable (r : BalanceRecord)

def setProfile (profile : LinkProfile) : BalanceRecord :=
  { r with profile := profile, linkLowBw := decide (profile.bandwidth = .bwLow) }

def sparedCancel : BalanceRecord :=
  if r.action = balCancel then { r with action := balPause, lastSentAction := balNone } else r

def effectiveBaud : ℕ := if r.profile.baud = 0 then circuitBalanceDefaultBaud else r.profile.baud

def estimatedLagSec (now : ℤ) : ℕ :=
  if r.queueBytes = 0 then 0
  else
    let lag := r.queueBytes * 8 / r.effectiveBaud % 2 ^ 32
    if 0 < r.oldestEnqueue ∧ r.oldestEnqueue < now then max lag ((now - r.oldestEnqueue) % 2 ^ 32).toNat else lag

def sendFlow (action : BalanceAction) (reason : String) (flow : Option FlowFn) : BalanceRecord × List FlowReport :=
  match flow with
  | none => (r, [])
  | some f =>
    if action = r.lastSentAction then (r, [])
    else
      let told := if action = balCancel ∧ f.spares then r.sparedCancel else r
      ({ told with lastSentAction := action }, [⟨action, ofString reason⟩])

def clearQueue : BalanceRecord :=
  { r with qHead := 0, qCount := 0, queueBytes := 0, oldestEnqueue := 0, drainAccum := 0 }

def applyEscalation (now : ℤ) (flow : Option FlowFn) : BalanceRecord × List FlowReport :=
  let lag := r.estimatedLagSec now
  if r.cfg.enabled = false then (r, [])
  else if r.linkLowBw = true ∧ (r.cfg.queueCancel ≤ r.queueBytes ∨ r.cfg.lagSec * 2 % 2 ^ 32 ≤ lag) then
    if r.action ≠ balCancel then (clearQueue { r with action := balCancel }).sendFlow balCancel "queue_overload" flow
    else (r, [])
  else if r.cfg.queueBreak ≤ r.queueBytes ∨ r.cfg.lagSec ≤ lag then
    if r.action ≠ balBreak ∧ r.action ≠ balCancel then
      let s := (clearQueue { r with action := balBreak }).sendFlow balBreak "queue_lag" flow
      let t := sendFlow { s.1 with action := balPause } balPause "stabilize" flow
      (t.1, s.2 ++ t.2)
    else (r, [])
  else if r.cfg.queuePause ≤ r.queueBytes ∨ lagPause r.cfg ≤ lag then
    if r.action = balNone then sendFlow { r with action := balPause } balPause "queue_pressure" flow else (r, [])
  else if r.action = balPause ∧ r.queueBytes < r.cfg.queuePause / 2 ∧ lag < lagPause r.cfg then
    sendFlow { r with action := balNone } balResume "stabilized" flow
  else (r, [])

def enqueue (frame : Bytes) (now : ℤ) : BalanceRecord :=
  { r with
    slots := Function.update r.slots ((r.qHead + r.qCount) % circuitBalanceQueueMax) frame
    qCount := r.qCount + 1
    queueBytes := r.queueBytes + frame.length
    oldestEnqueue := if r.oldestEnqueue = 0 then now else r.oldestEnqueue }

/-- The record, and what the caller of the balancer sees of the call. -/
def submit (frame : Bytes) (send : HybbxResult) (enqueued now : ℤ) (flow : Option FlowFn) :
    BalanceRecord × HybbxResult × List Bytes × List FlowReport :=
  if frame.length = 0 then (r, .errInvalid, [], [])
  else if r.cfg.enabled = false ∨ r.profile.bandwidth = .bwHigh then
    (r, send, if send = .ok then [frame] else [], [])
  else if r.action = balCancel then (r, .errBusy, [], [])
  else if circuitBalanceQueueMax ≤ r.qCount then
    let e := r.applyEscalation now flow
    (e.1, if e.1.action = balCancel then .errBusy else .errNomem, [], e.2)
  else if frame.length ≤ circuitMaxFrame then
    let e := (r.enqueue frame enqueued).applyEscalation now flow
    (e.1, .ok, [], e.2)
  else (r, .errInvalid, [], [])

/-- The front frame goes; none if its length is more than `queue_bytes`, which would wrap around. -/
def pop : Option BalanceRecord :=
  let len := (r.slots r.qHead).length
  if r.queueBytes < len then none
  else some { r with
    queueBytes := r.queueBytes - len
    qHead := (r.qHead + 1) % circuitBalanceQueueMax
    qCount := r.qCount - 1 }

/-- The send loop with so many frames left. -/
def drain (send : ℕ → Bool) : ℕ → BalanceRecord → ℕ → Option (BalanceRecord × List Bytes)
  | 0, r, _ => some (r, [])
  | k + 1, r, sentBudget =>
    let entry := r.slots r.qHead
    if sentBudget = 0 ∨ sentBudget < entry.length ∨ send k = false then some (r, [])
    else r.pop.bind fun s => (drain send k s (sentBudget - entry.length)).map fun d => (d.1, entry :: d.2)

def tickResult : TickResult := if r.action = balCancel then .tickCancelLink else .tickOk

def pacedDrain (pollMs : ℕ) (send : ℕ → Bool) : Option (BalanceRecord × List Bytes) :=
  let pollMs := if pollMs = 0 then 1 else pollMs
  let accum := r.drainAccum + r.effectiveBaud * pollMs / 8000
  let sentBudget := ⌊accum⌋₊
  (drain send r.qCount { r with drainAccum := accum - sentBudget } sentBudget).map fun d =>
    (if d.1.qCount = 0 then { d.1 with oldestEnqueue := 0 } else d.1, d.2)

def tick (pollMs : ℕ) (send : ℕ → Bool) (now : ℤ) (flow : Option FlowFn) :
    Option (BalanceRecord × TickResult × List Bytes × List FlowReport) :=
  if r.action = balCancel then some (r, .tickCancelLink, [], [])
  else if r.cfg.enabled = false ∨ r.qCount = 0 then
    let e := r.applyEscalation now flow
    some (e.1, .tickOk, [], e.2)
  else if r.action = balPause then
    let e := r.applyEscalation now flow
    some (e.1, e.1.tickResult, [], e.2)
  else (r.pacedDrain pollMs send).map fun d =>
    let e := d.1.applyEscalation now flow
    (e.1, e.1.tickResult, d.2, e.2)

/-- A call; none if it lets a counter wrap around. -/
def step : BalanceOp → Option BalanceRecord
  | .setProfile profile => some (r.setProfile profile)
  | .submit frame send enqueued now flow => some (r.submit frame send enqueued now flow).1
  | .tick pollMs send now flow => (r.tick pollMs send now flow).map Prod.fst
  | .sparedCancel => some r.sparedCancel

/-- The frames in the queue, from `q_head` on. -/
def frames : List Bytes := (List.range r.qCount).map fun i => r.slots ((r.qHead + i) % circuitBalanceQueueMax)

structure Sound : Prop where
  count : r.qCount ≤ circuitBalanceQueueMax
  head : r.qHead < circuitBalanceQueueMax
  lengths : ∀ frame ∈ r.frames, 1 ≤ frame.length ∧ frame.length ≤ circuitMaxFrame
  bytes : r.queueBytes = (r.frames.map List.length).sum
  settled : r.action = balNone ∨ r.action = balPause ∨ r.action = balCancel

end BalanceRecord

/-- The record of a balancer. -/
abbrev CircuitBalance.record (bal : CircuitBalance) : BalanceRecord where
  cfg := bal.cfg
  profile := bal.profile
  slots i := (bal.queue.slots i).data
  qHead := bal.queue.head
  qCount := bal.queue.count
  queueBytes := bal.queueBytes
  action := bal.action
  lastSentAction := bal.lastSentAction
  drainAccum := bal.drainAccum
  oldestEnqueue := bal.oldestEnqueue
  linkLowBw := bal.linkLowBw

section Refines

variable (bal : CircuitBalance) (now : ℤ) (flow : Option FlowFn)

/-- A state with what comes with it. -/
def recorded {α : Type} (p : CircuitBalance × α) : BalanceRecord × α := (p.1.record, p.2)

lemma record_sparedCancel : bal.record.sparedCancel = (circuitBalanceSparedCancel bal).record := by
  rw [circuitBalanceSparedCancel, BalanceRecord.sparedCancel, apply_ite CircuitBalance.record]

lemma record_sendFlow (action : BalanceAction) (reason : String) :
    bal.record.sendFlow action reason flow = recorded (balanceSendFlow bal action reason flow) := by
  cases flow with
  | none => rfl
  | some f =>
    simp only [BalanceRecord.sendFlow, balanceSendFlow, FlowFn.apply, record_sparedCancel]
    split_ifs <;> rfl

lemma record_escalation : bal.record.applyEscalation now flow = recorded (balanceApplyEscalation bal now flow) := by
  have hlag : bal.record.estimatedLagSec now = balanceEstimatedLagSec bal now := rfl
  have hbreak : ∀ b : CircuitBalance,
      (let s := b.record.sendFlow balBreak "queue_lag" flow
        let t := BalanceRecord.sendFlow { s.1 with action := balPause } balPause "stabilize" flow
        (t.1, s.2 ++ t.2)) =
      recorded (let s := balanceSendFlow b balBreak "queue_lag" flow
        let t := balanceSendFlow { s.1 with action := balPause } balPause "stabilize" flow
        (t.1, s.2 ++ t.2)) := by
    intro b
    rw [record_sendFlow]
    generalize balanceSendFlow b balBreak "queue_lag" flow = s
    exact congrArg (fun t => (t.1, s.2 ++ t.2)) (record_sendFlow { s.1 with action := balPause } flow balPause "stabilize")
  rw [BalanceRecord.applyEscalation, balanceApplyEscalation, hlag]
  split_ifs
  · rfl
  · exact record_sendFlow (balanceClearQueue { bal with action := balCancel }) flow balCancel "queue_overload"
  · rfl
  · exact hbreak (balanceClearQueue { bal with action := balBreak })
  · rfl
  · exact record_sendFlow { bal with action := balPause } flow balPause "queue_pressure"
  · rfl
  · exact record_sendFlow { bal with action := balNone } flow balResume "stabilized"
  · rfl

lemma record_enqueue (hroom : bal.queue.count < circuitBalanceQueueMax) (entry : BalanceFrame) (enqueued : ℤ) :
    bal.record.enqueue entry.data enqueued = (balanceEnqueue bal entry enqueued).record := by
  have hslots : Function.update bal.record.slots (bal.queue.index bal.queue.count) entry.data =
      fun i => (Function.update bal.queue.slots (bal.queue.index bal.queue.count) entry i).data :=
    (Function.comp_update BalanceFrame.data bal.queue.slots _ entry).symm
  rw [balanceEnqueue, Ring.push, dif_pos hroom]
  exact congrArg (fun slots => { bal.record with
    slots := slots
    qCount := bal.queue.count + 1
    queueBytes := bal.queueBytes + entry.data.length
    oldestEnqueue := if bal.oldestEnqueue = 0 then enqueued else bal.oldestEnqueue }) hslots

lemma record_submit (frame : Bytes) (send : HybbxResult) (enqueued : ℤ) :
    bal.record.submit frame send enqueued now flow =
      ((circuitBalanceSubmit bal frame send enqueued now flow).bal.record,
        (circuitBalanceSubmit bal frame send enqueued now flow).result,
        (circuitBalanceSubmit bal frame send enqueued now flow).sent,
        (circuitBalanceSubmit bal frame send enqueued now flow).reports) := by
  rw [BalanceRecord.submit, circuitBalanceSubmit]
  by_cases hempty : frame.length = 0
  · rw [if_pos hempty, if_pos hempty]
  rw [if_neg hempty, if_neg hempty]
  by_cases hdirect : bal.cfg.enabled = false ∨ bal.profile.bandwidth = .bwHigh
  · rw [if_pos hdirect, if_pos hdirect]
  rw [if_neg hdirect, if_neg hdirect]
  by_cases hcancel : bal.action = balCancel
  · rw [if_pos hcancel, if_pos hcancel]
  rw [if_neg hcancel, if_neg hcancel]
  by_cases hfull : circuitBalanceQueueMax ≤ bal.queue.count
  · rw [if_pos hfull, if_pos hfull, record_escalation]
    rfl
  rw [if_neg hfull, if_neg hfull]
  by_cases hfits : frame.length ≤ circuitMaxFrame
  · rw [if_pos hfits, dif_pos hfits, record_enqueue bal (not_le.mp hfull) ⟨frame, hfits⟩, record_escalation]
    rfl
  · rw [if_neg hfits, dif_neg hfits]

variable {bal}

/-- With the counters right nothing wraps around. -/
lemma record_pop (h : WellFormed bal) {entry : BalanceFrame} (hentry : bal.queue.front = some entry) :
    bal.record.slots bal.record.qHead = entry.data ∧ bal.record.pop = some (balancePop bal entry).record := by
  have hslot : bal.record.slots bal.record.qHead = entry.data := by
    rw [Ring.front] at hentry
    split_ifs at hentry
    exact congrArg BalanceFrame.data (Option.some.inj hentry)
  have hbytes : entry.data.length ≤ bal.queueBytes := by
    rw [h.bytes, queued_pop hentry, total_cons]
    exact Nat.le_add_right _ _
  refine ⟨hslot, ?_⟩
  rw [BalanceRecord.pop, hslot]
  dsimp only
  rw [if_neg (not_lt.mpr hbytes)]
  rfl

lemma wellFormed_pop (h : WellFormed bal) {entry : BalanceFrame} (hentry : bal.queue.front = some entry) :
    WellFormed (balancePop bal entry) := by
  have hqueue := queued_pop hentry
  have hbytes := h.bytes
  have hframes := h.frames
  rw [hqueue, total_cons] at hbytes
  refine ⟨?_, fun f hf => hframes f (hqueue ▸ List.mem_cons_of_mem _ hf), h.credit_nonneg, h.credit_lt, h.settled,
    fun _ => h.enabled ?_⟩
  · change bal.queueBytes - entry.data.length = total (queued (balancePop bal entry))
    omega
  · rw [hqueue]
    exact List.cons_ne_nil _ _

lemma record_drain (send : ℕ → Bool) (k : ℕ) (h : WellFormed bal) (hk : k ≤ bal.queue.count) (sentBudget : ℕ) :
    BalanceRecord.drain send k bal.record sentBudget = some (recorded (balanceDrain send k bal sentBudget)) := by
  induction k generalizing bal sentBudget with
  | zero => rfl
  | succ k ih =>
    obtain ⟨entry, hentry⟩ : ∃ entry, bal.queue.front = some entry := by
      rw [Ring.front, if_neg (by omega)]
      exact ⟨_, rfl⟩
    obtain ⟨hslot, hpop⟩ := record_pop h hentry
    rw [BalanceRecord.drain, balanceDrain, hentry, hslot]
    dsimp only
    split_ifs
    · rfl
    · rw [hpop, Option.bind_some, ih (wellFormed_pop h hentry) (Nat.le_sub_one_of_lt hk)]
      rfl

lemma record_pacedDrain (h : WellFormed bal) (pollMs : ℕ) (send : ℕ → Bool) :
    bal.record.pacedDrain pollMs send = some (recorded (balancePacedDrain bal pollMs send)) := by
  have hcredit : bal.record.drainAccum + bal.record.effectiveBaud * (if pollMs = 0 then 1 else pollMs : ℕ) / 8000 =
      bal.drainAccum + tickCredit bal pollMs := rfl
  have hnonneg : 0 ≤ bal.drainAccum + tickCredit bal pollMs := add_nonneg h.credit_nonneg (tickCredit_nonneg bal pollMs)
  rw [BalanceRecord.pacedDrain, balancePacedDrain]
  dsimp only
  rw [hcredit]
  generalize bal.drainAccum + tickCredit bal pollMs = accum at hnonneg
  have hpaid : WellFormed { bal with drainAccum := accum - ⌊accum⌋₊ } := by
    refine ⟨h.bytes, h.frames, sub_nonneg.mpr (Nat.floor_le hnonneg), ?_, h.settled, h.enabled⟩
    have hlt := Nat.lt_floor_add_one accum
    dsimp only
    linarith
  have hdrain := record_drain send bal.queue.count hpaid (le_refl _) ⌊accum⌋₊
  dsimp only [CircuitBalance.record] at hdrain ⊢
  rw [hdrain, Option.map_some, recorded, recorded]
  dsimp only
  rw [apply_ite CircuitBalance.record]

lemma record_tick (h : WellFormed bal) (pollMs : ℕ) (send : ℕ → Bool) :
    bal.record.tick pollMs send now flow =
      some ((circuitBalanceTick bal pollMs send now flow).bal.record,
        (circuitBalanceTick bal pollMs send now flow).result,
        (circuitBalanceTick bal pollMs send now flow).sent,
        (circuitBalanceTick bal pollMs send now flow).reports) := by
  rw [BalanceRecord.tick, circuitBalanceTick]
  simp only [record_escalation, recorded]
  split_ifs with hcancel hidle hpause
  · rfl
  · rfl
  · rfl
  · rw [record_pacedDrain h, Option.map_some]
    simp only [recorded, record_escalation]
    rfl

/-- One call of the code is one call of the balancer. -/
lemma record_step (h : WellFormed bal) (op : BalanceOp) :
    bal.record.step op = some (balanceStep bal op).1.record := by
  cases op with
  | setProfile profile => rfl
  | submit frame send enqueued now flow => rw [BalanceRecord.step, record_submit]; rfl
  | tick pollMs send now flow => rw [BalanceRecord.step, record_tick now flow h, Option.map_some]; rfl
  | sparedCancel => exact congrArg some (record_sparedCancel bal)

lemma record_run (h : WellFormed bal) (ops : List BalanceOp) :
    ops.foldlM BalanceRecord.step bal.record = some (balanceRun bal ops).1.record := by
  induction ops generalizing bal with
  | nil => rfl
  | cons op ops ih =>
    rw [List.foldlM_cons, record_step h, balanceRun, Transducer.run_cons]
    exact ih (wellFormed_step bal op h)

lemma record_sound (h : WellFormed bal) : bal.record.Sound := by
  have hframes : bal.record.frames = queued bal := by
    rw [BalanceRecord.frames, queued, Ring.toList, List.map_map]
    rfl
  refine ⟨bal.queue.count_le, bal.queue.head_lt, ?_, ?_, h.settled⟩
  · intro frame hframe
    rw [hframes] at hframe
    obtain ⟨entry, -, rfl⟩ := List.mem_map.mp hframe
    exact ⟨List.length_pos_iff.mpr (h.frames _ hframe), entry.fits⟩
  · rw [hframes]
    exact h.bytes

end Refines

/-- Whatever calls are made of a balancer, no counter ever wraps around, and behind every call the ring and its counters agree. -/
theorem record_stays_sound (cfg : Option BalanceConfig) (ops : List BalanceOp) :
    ∃ r, ops.foldlM BalanceRecord.step (BalanceRecord.create cfg) = some r ∧ r.Sound :=
  ⟨_, record_run (wellFormed_create cfg) ops, record_sound (wellFormed_run cfg ops)⟩

end HyBBX.Circuit
