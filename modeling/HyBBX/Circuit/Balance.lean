import Mathlib.Data.Rat.Floor
import HyBBX.Circuit.FlowCtrl
import HyBBX.Circuit.Frame
import HyBBX.Circuit.LinkAuth
import HyBBX.Lib.RingBuffer
import HyBBX.Config.Values

/-! The load balancer of a hub link: a ring of frames waiting for a slow link, paced by the baud rate,
with an escalation from pause over break to cancel. -/

namespace HyBBX.Circuit

open HyBBX.Core Config Lib Lib.Bytes Lib.Text BalanceAction

def circuitBalanceQueueMax : ℕ := 64
def circuitBalanceDefaultBaud : ℕ := 115200
def circuitBalanceLowBaudThreshold : ℕ := 9600

inductive CircuitBandwidth
  | bwHigh
  | bwLow
  deriving DecidableEq, Repr

-- the duplex codes are unset 0, half 1 and full 2
structure LinkProfile where
  bandwidth : CircuitBandwidth
  duplex : ℕ
  baud : ℕ
  deriving DecidableEq, Repr

structure BalanceConfig where
  enabled : Bool
  lagSec : ℕ
  queuePause : ℕ
  queueBreak : ℕ
  queueCancel : ℕ
  deriving DecidableEq, Repr

structure BalanceFrame where
  data : Bytes
  fits : data.length ≤ circuitMaxFrame

-- a calloc'ed slot
def BalanceFrame.zero : BalanceFrame := ⟨[], by decide⟩

structure CircuitBalance where
  cfg : BalanceConfig
  profile : LinkProfile
  queue : Ring BalanceFrame circuitBalanceQueueMax
  queueBytes : ℕ
  action : BalanceAction
  lastSentAction : BalanceAction
  drainAccum : ℚ
  oldestEnqueue : ℤ
  linkLowBw : Bool

def balanceConfigDefaults : BalanceConfig := ⟨true, 5, 4096, 16384, 65536⟩

def linkProfileFromAuth (auth : Option LinkAuth) : LinkProfile :=
  match auth with
  | none => ⟨.bwHigh, 2, circuitBalanceDefaultBaud⟩
  | some auth =>
    let bandwidth :=
      if auth.bandwidth ≠ [] then
        if strIeq auth.bandwidth (ofString "low") then .bwLow else .bwHigh
      else if 0 < auth.baud ∧ auth.baud ≤ circuitBalanceLowBaudThreshold then .bwLow
      else .bwHigh
    let baud :=
      if 0 < auth.baud then auth.baud
      else if bandwidth = .bwLow then 1200
      else circuitBalanceDefaultBaud
    let duplex := if auth.duplex = 0 then (if bandwidth = .bwLow then 1 else 2) else auth.duplex
    ⟨bandwidth, duplex, baud⟩

def circuitBalanceCreate (cfg : Option BalanceConfig) : CircuitBalance where
  cfg := cfg.getD balanceConfigDefaults
  profile := linkProfileFromAuth none
  queue := ⟨fun _ => .zero, 0, 0, by decide, by decide⟩
  queueBytes := 0
  action := balNone
  lastSentAction := balNone
  drainAccum := 0
  oldestEnqueue := 0
  linkLowBw := false

def circuitBalanceSetProfile (bal : CircuitBalance) (profile : LinkProfile) : CircuitBalance :=
  { bal with profile := profile, linkLowBw := decide (profile.bandwidth = .bwLow) }

def circuitBalanceSparedCancel (bal : CircuitBalance) : CircuitBalance :=
  if bal.action = balCancel then { bal with action := balPause, lastSentAction := balNone } else bal

def balanceEffectiveBaud (bal : CircuitBalance) : ℕ :=
  if bal.profile.baud = 0 then circuitBalanceDefaultBaud else bal.profile.baud

def balanceEstimatedLagSec (bal : CircuitBalance) (now : ℤ) : ℕ :=
  if bal.queueBytes = 0 then 0
  else
    let lag := bal.queueBytes * 8 / balanceEffectiveBaud bal % 2 ^ 32
    if 0 < bal.oldestEnqueue ∧ bal.oldestEnqueue < now then
      max lag ((now - bal.oldestEnqueue) % 2 ^ 32).toNat
    else lag

structure FlowReport where
  action : BalanceAction
  reason : Bytes
  deriving DecidableEq, Repr

/-- The flow callback of one call: whether it spares the link when it is told of a cancel. -/
structure FlowFn where
  spares : Bool
  deriving DecidableEq, Repr

def FlowFn.apply (flow : FlowFn) (action : BalanceAction) (bal : CircuitBalance) : CircuitBalance :=
  if action = balCancel ∧ flow.spares then circuitBalanceSparedCancel bal else bal

-- `none` is a NULL callback
def balanceSendFlow (bal : CircuitBalance) (action : BalanceAction) (reason : String)
    (flow : Option FlowFn) : CircuitBalance × List FlowReport :=
  match flow with
  | none => (bal, [])
  | some f =>
    if action = bal.lastSentAction then (bal, [])
    else ({ f.apply action bal with lastSentAction := action }, [⟨action, ofString reason⟩])

def balanceClearQueue (bal : CircuitBalance) : CircuitBalance :=
  { bal with queue := bal.queue.clear, queueBytes := 0, oldestEnqueue := 0, drainAccum := 0 }

def lagPause (cfg : BalanceConfig) : ℕ := if 0 < cfg.lagSec then cfg.lagSec / 2 else 0

def balanceApplyEscalation (bal : CircuitBalance) (now : ℤ) (flow : Option FlowFn) :
    CircuitBalance × List FlowReport :=
  let lag := balanceEstimatedLagSec bal now
  if bal.cfg.enabled = false then (bal, [])
  else if bal.linkLowBw = true ∧
      (bal.cfg.queueCancel ≤ bal.queueBytes ∨ bal.cfg.lagSec * 2 % 2 ^ 32 ≤ lag) then
    if bal.action ≠ balCancel then
      balanceSendFlow (balanceClearQueue { bal with action := balCancel }) balCancel "queue_overload" flow
    else (bal, [])
  else if bal.cfg.queueBreak ≤ bal.queueBytes ∨ bal.cfg.lagSec ≤ lag then
    if bal.action ≠ balBreak ∧ bal.action ≠ balCancel then
      let r := balanceSendFlow (balanceClearQueue { bal with action := balBreak }) balBreak "queue_lag" flow
      let q := balanceSendFlow { r.1 with action := balPause } balPause "stabilize" flow
      (q.1, r.2 ++ q.2)
    else (bal, [])
  else if bal.cfg.queuePause ≤ bal.queueBytes ∨ lagPause bal.cfg ≤ lag then
    if bal.action = balNone then
      balanceSendFlow { bal with action := balPause } balPause "queue_pressure" flow
    else (bal, [])
  else if bal.action = balPause ∧ bal.queueBytes < bal.cfg.queuePause / 2 ∧ lag < lagPause bal.cfg then
    balanceSendFlow { bal with action := balNone } balResume "stabilized" flow
  else (bal, [])

/-- What a call leaves behind: the state, its result, the frames the link took and the reports. -/
structure BalanceOutcome (ρ : Type) where
  bal : CircuitBalance
  result : ρ
  sent : List Bytes
  reports : List FlowReport

def balanceEnqueue (bal : CircuitBalance) (entry : BalanceFrame) (now : ℤ) : CircuitBalance :=
  { bal with
    queue := bal.queue.push entry
    queueBytes := bal.queueBytes + entry.data.length
    oldestEnqueue := if bal.oldestEnqueue = 0 then now else bal.oldestEnqueue }

/-- `send` is the answer of a direct send; the clock is read at most once when the frame is queued and
once for the lag. -/
def circuitBalanceSubmit (bal : CircuitBalance) (frame : Bytes) (send : HybbxResult)
    (enqueued now : ℤ) (flow : Option FlowFn) : BalanceOutcome HybbxResult :=
  if frame.length = 0 then ⟨bal, .errInvalid, [], []⟩
  else if bal.cfg.enabled = false ∨ bal.profile.bandwidth = .bwHigh then
    ⟨bal, send, if send = .ok then [frame] else [], []⟩
  else if bal.action = balCancel then ⟨bal, .errBusy, [], []⟩
  else if circuitBalanceQueueMax ≤ bal.queue.count then
    let r := balanceApplyEscalation bal now flow
    ⟨r.1, if r.1.action = balCancel then .errBusy else .errNomem, [], r.2⟩
  else if h : frame.length ≤ circuitMaxFrame then
    let r := balanceApplyEscalation (balanceEnqueue bal ⟨frame, h⟩ enqueued) now flow
    ⟨r.1, .ok, [], r.2⟩
  else ⟨bal, .errInvalid, [], []⟩

inductive TickResult
  | tickOk
  | tickCancelLink
  deriving DecidableEq, Repr

def balancePop (bal : CircuitBalance) (entry : BalanceFrame) : CircuitBalance :=
  { bal with queue := bal.queue.pop, queueBytes := bal.queueBytes - entry.data.length }

/-- The send loop with `k` frames left; `send k` is the link's answer at that point. -/
def balanceDrain (send : ℕ → Bool) : ℕ → CircuitBalance → ℕ → CircuitBalance × List Bytes
  | 0, bal, _ => (bal, [])
  | k + 1, bal, sentBudget =>
    match bal.queue.front with
    | none => (bal, [])
    | some entry =>
      if sentBudget = 0 ∨ sentBudget < entry.data.length ∨ send k = false then (bal, [])
      else
        let r := balanceDrain send k (balancePop bal entry) (sentBudget - entry.data.length)
        (r.1, entry.data :: r.2)

def tickCredit (bal : CircuitBalance) (pollMs : ℕ) : ℚ :=
  let pollMs := if pollMs = 0 then 1 else pollMs
  balanceEffectiveBaud bal * pollMs / 8000

-- the budget the loop leaves over is not carried
def balancePacedDrain (bal : CircuitBalance) (pollMs : ℕ) (send : ℕ → Bool) : CircuitBalance × List Bytes :=
  let accum := bal.drainAccum + tickCredit bal pollMs
  let sentBudget := ⌊accum⌋₊
  let d := balanceDrain send bal.queue.count { bal with drainAccum := accum - sentBudget } sentBudget
  (if d.1.queue.count = 0 then { d.1 with oldestEnqueue := 0 } else d.1, d.2)

def tickResult (bal : CircuitBalance) : TickResult :=
  if bal.action = balCancel then .tickCancelLink else .tickOk

def circuitBalanceTick (bal : CircuitBalance) (pollMs : ℕ) (send : ℕ → Bool) (now : ℤ)
    (flow : Option FlowFn) : BalanceOutcome TickResult :=
  if bal.action = balCancel then ⟨bal, .tickCancelLink, [], []⟩
  else if bal.cfg.enabled = false ∨ bal.queue.count = 0 then
    let r := balanceApplyEscalation bal now flow
    ⟨r.1, .tickOk, [], r.2⟩
  else if bal.action = balPause then
    let r := balanceApplyEscalation bal now flow
    ⟨r.1, tickResult r.1, [], r.2⟩
  else
    let d := balancePacedDrain bal pollMs send
    let r := balanceApplyEscalation d.1 now flow
    ⟨r.1, tickResult r.1, d.2, r.2⟩

/-! The balancer settings that the service takes from `[circuit]`. -/

def circuitUint (config : HybbxConfig) (key : String) (defaultValue minValue maxValue : ℕ) : ℕ :=
  configGetUint config (ofString "circuit") (ofString key) defaultValue minValue maxValue

/-- A later threshold is lifted to the one in front of it. -/
def serviceBalanceConfig (config : HybbxConfig) : BalanceConfig :=
  let queuePause := circuitUint config "balance_queue_pause" 8192 256 1048576
  let queueBreak := max queuePause (circuitUint config "balance_queue_break" 32768 1024 1048576)
  { enabled := configGetBool config (ofString "circuit") (ofString "balance") true
    lagSec := circuitUint config "balance_lag_sec" 8 1 120
    queuePause := queuePause
    queueBreak := queueBreak
    queueCancel := max queueBreak (circuitUint config "balance_queue_cancel" 131072 4096 4194304) }

structure Admitted (cfg : BalanceConfig) : Prop where
  lag : 1 ≤ cfg.lagSec ∧ cfg.lagSec ≤ 120
  pause : 256 ≤ cfg.queuePause
  pause_le_break : cfg.queuePause ≤ cfg.queueBreak
  break_le_cancel : cfg.queueBreak ≤ cfg.queueCancel
  cancel : cfg.queueCancel ≤ 4194304

lemma serviceBalanceConfig_admitted (config : HybbxConfig) : Admitted (serviceBalanceConfig config) where
  lag := configGetUint_mem (by decide) (by decide)
  pause := (configGetUint_mem (by decide) (by decide)).1
  pause_le_break := le_max_left _ _
  break_le_cancel := le_max_left _ _
  cancel := by
    have hp := (@configGetUint_mem config (ofString "circuit") (ofString "balance_queue_pause") 8192 256 1048576
      (by decide) (by decide)).2
    have hb := (@configGetUint_mem config (ofString "circuit") (ofString "balance_queue_break") 32768 1024 1048576
      (by decide) (by decide)).2
    have hc := (@configGetUint_mem config (ofString "circuit") (ofString "balance_queue_cancel") 131072 4096 4194304
      (by decide) (by decide)).2
    simp only [serviceBalanceConfig, circuitUint]
    omega

end HyBBX.Circuit
