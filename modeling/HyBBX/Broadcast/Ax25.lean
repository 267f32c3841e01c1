import HyBBX.Config.Values
import HyBBX.Radio.Ax25
import HyBBX.Circuit.Frame
import HyBBX.Circuit.FlowCtrl

/-! What the broadcasts are configured to send, and the HBX frame that carries it. -/

namespace HyBBX.Broadcast

open HyBBX.Core HyBBX.Config HyBBX.Circuit HyBBX.Radio Lib Lib.Bytes Lib.Text BalanceAction

def broadcastAx25IntervalMinSec : ℕ := 900
def broadcastAx25LinkMinSec : ℕ := 900
def broadcastAx25BandIdleSec : ℕ := 180
def broadcastAx25LinkGapSec : ℕ := 180
def broadcastAx25DeferRetrySec : ℕ := 30
def broadcastAx25MessageMax : ℕ := 48

def circuitFlagTx : UInt16 := 0x0002

def broadcastAutoMessageDefault : Bytes := ofString "Broadcast: @service@ online"
def bannerTokenService : Bytes := ofString "@service@"
def defaultServiceName : Bytes := ofString "hyBBX"

/-- The interval of the automatic path can only be raised. -/
structure BroadcastConfig where
  enabled : Bool
  ax25Enabled : Bool
  ax25Auto : Bool
  ax25AutoIntervalSec : ℕ
  ax25Mycall : Bytes
  ax25Dest : Bytes
  ax25AutoMessage : Bytes
  intervalMin : broadcastAx25IntervalMinSec ≤ ax25AutoIntervalSec

def broadcastConfigDefaults : BroadcastConfig where
  enabled := true
  ax25Enabled := true
  ax25Auto := true
  ax25AutoIntervalSec := broadcastAx25IntervalMinSec
  ax25Mycall := ofString "HYBBX"
  ax25Dest := ofString "QST"
  ax25AutoMessage := broadcastAutoMessageDefault
  intervalMin := le_rfl

/-- A configured callsign, where it can be parsed. -/
def broadcastCallsign (config : HybbxConfig) (key : String) (fallback : Bytes) : Bytes :=
  match configGet config (ofString "broadcast") (ofString key) with
  | none => fallback
  | some call =>
    if call = [] then fallback
    else match ax25AddressParse call with
      | .ok _ => strlcpy (ax25CallMax + 1) call
      | .error _ => fallback

def broadcastConfigApply (config : HybbxConfig) : BroadcastConfig where
  enabled := configGetBool config (ofString "broadcast") (ofString "enabled") true
  ax25Enabled := configGetBool config (ofString "broadcast") (ofString "ax25") true
  ax25Auto := configGetBool config (ofString "broadcast") (ofString "ax25_auto") true
  ax25AutoIntervalSec := configGetUint config (ofString "broadcast") (ofString "ax25_auto_interval")
    broadcastAx25IntervalMinSec broadcastAx25IntervalMinSec 86400
  ax25Mycall := broadcastCallsign config "ax25_mycall" broadcastConfigDefaults.ax25Mycall
  ax25Dest := broadcastCallsign config "ax25_dest" broadcastConfigDefaults.ax25Dest
  ax25AutoMessage :=
    let message := (configGet config (ofString "broadcast") (ofString "ax25_auto_message")).getD []
    if message = [] then broadcastAutoMessageDefault else strlcpy (broadcastAx25MessageMax + 1) message
  intervalMin := (configGetUint_mem le_rfl (by decide)).1

/-- `fuel` bounds the template positions read; each round reads at least one. -/
def expandServiceToken (outLen : ℕ) (serviceName : Bytes) : ℕ → Bytes → Bytes → Bytes
  | 0, _, out => out
  | _ + 1, [], out => out
  | fuel + 1, b :: tmpl, out =>
    if outLen ≤ out.length + 1 then out
    else if bannerTokenService <+: b :: tmpl then
      expandServiceToken outLen serviceName fuel ((b :: tmpl).drop bannerTokenService.length)
        (out ++ serviceName.take (outLen - out.length - 1))
    else expandServiceToken outLen serviceName fuel tmpl (out ++ [b])

def broadcastExpandServiceToken (outLen : ℕ) (tmpl serviceName : Bytes) : Bytes :=
  if outLen = 0 then []
  else expandServiceToken outLen (if serviceName = [] then defaultServiceName else serviceName) tmpl.length tmpl []

def broadcastBuildPath (cfg : BroadcastConfig) : Except HybbxResult Ax25Path :=
  let destText := if cfg.ax25Dest = [] ∨ cfg.ax25Dest = ofString "*" then ofString "QST" else cfg.ax25Dest
  match ax25AddressParse destText with
  | .error _ => .error .errInvalid
  | .ok dest => match ax25AddressParse cfg.ax25Mycall with
    | .error _ => .error .errInvalid
    | .ok source => .ok { Ax25Path.zero with dest := dest, source := source }

/-- The HBX frame of a broadcast; `frameBuf` is what its buffer holds before. -/
def broadcastFrame (cfg : BroadcastConfig) (message frameBuf : Bytes) : Except HybbxResult Bytes :=
  match broadcastBuildPath cfg with
  | .error rc => .error rc
  | .ok path => match ax25BuildUi path message ax25FrameMax with
    | none => .error .errIo
    | some ax25Frame => match circuitEncode .ax25 circuitFlagTx ax25Frame frameBuf with
      | none => .error .errIo
      | some frame => .ok frame

def circuitFrameIsAx25BroadcastTx (frame : Bytes) : Bool :=
  if frame.length < circuitHeaderSize then false
  else if frame.getD 0 0 ≠ circuitMagic0 ∨ frame.getD 1 0 ≠ circuitMagic1 ∨ frame.getD 2 0 ≠ circuitMagic2 ∨
      frame.getD 3 0 ≠ circuitVersion then false
  else if frame.getD 4 0 ≠ CircuitProto.ax25Ui.byte ∧ frame.getD 4 0 ≠ CircuitProto.ax25.byte then false
  else readBe16 (frame.getD 5 0) (frame.getD 6 0) &&& circuitFlagTx ≠ 0

/-- Every broadcast frame goes out at once, past the queue of its link. -/
lemma broadcastFrame_isTx {cfg : BroadcastConfig} {message frameBuf frame : Bytes}
    (h : broadcastFrame cfg message frameBuf = .ok frame) : circuitFrameIsAx25BroadcastTx frame = true := by
  rw [broadcastFrame] at h
  split at h
  · cases h
  · split at h
    · cases h
    · split at h
      · cases h
      · rename_i he
        obtain rfl := Except.ok.inj h
        obtain ⟨_, _, rfl⟩ := circuitEncode_eq_some he
        rw [circuitFrameIsAx25BroadcastTx, if_neg (by simp), if_neg (by simp [circuitHeader]),
          if_neg (by simp [circuitHeader, CircuitProto.ax25])]
        exact (by decide : decide (readBe16 (byteAt circuitFlagTx.toNat 8) (byteAt circuitFlagTx.toNat 0) &&&
          circuitFlagTx ≠ 0) = true)

/-! The hub's links as a broadcast finds them: which of them qualify, and what a frame handed to them does. -/

/-- A slot of the hub. `attachment` tells the connections apart that hold it one after another; `sendRc` is what
handing a frame to it returns. Frequencies are rationals instead of doubles. -/
structure BroadcastSlot where
  attachment : ℕ
  active : Bool
  fdOpen : Bool
  linkId : Bytes
  profileSet : Bool
  bandwidthLow : Bool
  duplexHalf : Bool
  frequencyMhz : ℚ
  lastRfActivity : ℤ
  balanceAction : Option BalanceAction
  sendRc : HybbxResult

structure BroadcastHub where
  running : Bool
  balanceEnabled : Bool
  bridge : List (Bytes × ℚ)
  slots : Fin circuitMaxLinks → BroadcastSlot

structure BroadcastLink where
  frequencyMhz : ℚ
  slotIndex : Fin circuitMaxLinks
  linkId : Bytes

def ax25FrequencyMatch (a b : ℚ) : Bool := 0 < a && 0 < b && |a - b| < 1 / 1000

def circuitSlotBroadcastQos (slot : BroadcastSlot) : Bool := slot.profileSet && slot.bandwidthLow && slot.duplexHalf

def circuitSlotCanSendLowPrio (hub : BroadcastHub) (slot : BroadcastSlot) : Bool :=
  match slot.balanceAction with
  | none => true
  | some action => if hub.balanceEnabled = false ∨ slot.profileSet = false then true else action ≠ balCancel

def circuitSlotEffectiveFrequencyMhz (hub : BroadcastHub) (slot : BroadcastSlot) : ℚ :=
  if slot.frequencyMhz ≤ 0 ∧ slot.linkId ≠ [] then
    match hub.bridge.find? fun e => e.1 = slot.linkId with
    | some e => if 0 < e.2 then e.2 else slot.frequencyMhz
    | none => slot.frequencyMhz
  else slot.frequencyMhz

def circuitHubLinkBroadcastQos (hub : BroadcastHub) : Bool :=
  (List.finRange circuitMaxLinks).any fun i => (hub.slots i).active && circuitSlotBroadcastQos (hub.slots i)

/-- Whether the sort moves `key` in front of `prev`. -/
def linkMoves (key prev : BroadcastLink) : Bool :=
  if 0 < key.frequencyMhz ∧ prev.frequencyMhz ≤ 0 then false
  else if key.frequencyMhz ≤ 0 ∧ 0 < prev.frequencyMhz then true
  else if 0 < key.frequencyMhz ∧ 0 < prev.frequencyMhz ∧ key.frequencyMhz < prev.frequencyMhz then true
  else key.frequencyMhz ≤ 0 && prev.frequencyMhz ≤ 0 && key.linkId < prev.linkId

-- the links sorted so far, the last one first
def insertLink (key : BroadcastLink) : List BroadcastLink → List BroadcastLink
  | [] => [key]
  | prev :: links => if linkMoves key prev then prev :: insertLink key links else key :: prev :: links

def circuitBroadcastLinksSort (links : List BroadcastLink) : List BroadcastLink :=
  (links.foldl (fun sorted key => insertLink key sorted) []).reverse

def BroadcastHub.link (hub : BroadcastHub) (i : Fin circuitMaxLinks) : BroadcastLink :=
  ⟨circuitSlotEffectiveFrequencyMhz hub (hub.slots i), i, (hub.slots i).linkId⟩

/-- A slot that broadcasts are meant for. -/
def BroadcastHub.qualifies (hub : BroadcastHub) (i : Fin circuitMaxLinks) : Bool :=
  (hub.slots i).active && (hub.slots i).fdOpen && circuitSlotBroadcastQos (hub.slots i)

def circuitHubBroadcastLinks (hub : BroadcastHub) : List BroadcastLink :=
  circuitBroadcastLinksSort (((List.finRange circuitMaxLinks).filter hub.qualifies).map hub.link)

def circuitHubLinkBandIdle (hub : BroadcastHub) (i : Fin circuitMaxLinks) (now : ℤ) (minIdleSec : ℕ) : Bool :=
  let slot := hub.slots i
  if slot.active = false ∨ slot.fdOpen = false then false
  else if slot.lastRfActivity = 0 then true
  else if now - slot.lastRfActivity < 0 then false
  else minIdleSec ≤ (now - slot.lastRfActivity) % 2 ^ 32

def circuitHubLinkBandReadyAt (hub : BroadcastHub) (i : Fin circuitMaxLinks) (now : ℤ) (minIdleSec : ℕ) : ℤ :=
  let slot := hub.slots i
  if slot.active = false ∨ slot.fdOpen = false then -1
  else if now = -1 then -1
  else if slot.lastRfActivity = 0 then now
  else if minIdleSec ≤ (now - slot.lastRfActivity) % 2 ^ 32 then now
  else slot.lastRfActivity + minIdleSec

def frequencySelects (hub : BroadcastHub) (frequencyMhz : ℚ) (i : Fin circuitMaxLinks) : Bool :=
  let mhz := circuitSlotEffectiveFrequencyMhz hub (hub.slots i)
  !(0 < frequencyMhz) || (0 < mhz && ax25FrequencyMatch frequencyMhz mhz)

/-- One round of the multicast; `none` where the slot is passed over. -/
def multicastSlot (hub : BroadcastHub) (frame : Bytes) (frequencyMhz : ℚ) (i : Fin circuitMaxLinks) :
    Option HybbxResult :=
  if hub.qualifies i = false then none
  else if frequencySelects hub frequencyMhz i = false then none
  else if circuitFrameIsAx25BroadcastTx frame && !circuitSlotCanSendLowPrio hub (hub.slots i) then some .errBusy
  else some (hub.slots i).sendRc

/-- The multicast with `require_broadcast_qos` set: the result, and the slots that the frame went out to. -/
def circuitHubMulticastHbx (hub : BroadcastHub) (frame : Bytes) (frequencyMhz : ℚ) :
    HybbxResult × List (Fin circuitMaxLinks) :=
  let sent := (List.finRange circuitMaxLinks).filter fun i => multicastSlot hub frame frequencyMhz i = some .ok
  let lastErr := ((List.finRange circuitMaxLinks).filterMap (multicastSlot hub frame frequencyMhz)).getLast?
  if sent ≠ [] then (.ok, sent)
  else if lastErr.getD .errNotFound ≠ .errNotFound then (lastErr.getD .errNotFound, [])
  else (.errDenied, [])

def circuitHubSendHbxSlot (hub : BroadcastHub) (i : Fin circuitMaxLinks) (frame : Bytes) : HybbxResult :=
  if hub.qualifies i = false then .errDenied
  else if circuitFrameIsAx25BroadcastTx frame && !circuitSlotCanSendLowPrio hub (hub.slots i) then .errBusy
  else (hub.slots i).sendRc

lemma mem_insertLink {key link : BroadcastLink} {links : List BroadcastLink} :
    link ∈ insertLink key links ↔ link = key ∨ link ∈ links := by
  induction links with
  | nil => simp [insertLink]
  | cons prev links ih =>
    rw [insertLink]
    split_ifs
    · simp only [List.mem_cons, ih]
      tauto
    · exact List.mem_cons

lemma mem_sort {link : BroadcastLink} {links : List BroadcastLink} :
    link ∈ circuitBroadcastLinksSort links ↔ link ∈ links := by
  have hfold : ∀ sorted, link ∈ links.foldl (fun sorted key => insertLink key sorted) sorted ↔
      link ∈ sorted ∨ link ∈ links := by
    induction links with
    | nil => simp
    | cons key links ih =>
      intro sorted
      rw [List.foldl_cons, ih, mem_insertLink, List.mem_cons]
      tauto
  rw [circuitBroadcastLinksSort, List.mem_reverse, hfold]
  simp

lemma mem_broadcastLinks {hub : BroadcastHub} {link : BroadcastLink} :
    link ∈ circuitHubBroadcastLinks hub ↔ ∃ i, hub.qualifies i = true ∧ hub.link i = link := by
  rw [circuitHubBroadcastLinks, mem_sort, List.mem_map]
  simp

lemma multicastSlot_ok {hub : BroadcastHub} {frame : Bytes} {frequencyMhz : ℚ} {i : Fin circuitMaxLinks}
    (h : multicastSlot hub frame frequencyMhz i = some .ok) :
    hub.qualifies i = true ∧ frequencySelects hub frequencyMhz i = true ∧
      (circuitFrameIsAx25BroadcastTx frame = true → circuitSlotCanSendLowPrio hub (hub.slots i) = true) := by
  rw [multicastSlot] at h
  split_ifs at h with hq hf hlow
  · cases h
  · exact ⟨by simpa using hq, by simpa using hf, by simpa using hlow⟩

/-- Nothing goes out twice, nothing to a slot that does not qualify, and nothing without a success. -/
lemma multicast_sent (hub : BroadcastHub) (frame : Bytes) (frequencyMhz : ℚ) :
    (circuitHubMulticastHbx hub frame frequencyMhz).2.Nodup ∧
      (∀ i ∈ (circuitHubMulticastHbx hub frame frequencyMhz).2,
        hub.qualifies i = true ∧ frequencySelects hub frequencyMhz i = true ∧
          (circuitFrameIsAx25BroadcastTx frame = true → circuitSlotCanSendLowPrio hub (hub.slots i) = true)) ∧
      ((circuitHubMulticastHbx hub frame frequencyMhz).1 ≠ .ok → (circuitHubMulticastHbx hub frame frequencyMhz).2 = []) := by
  rw [circuitHubMulticastHbx]
  split_ifs
  · refine ⟨(List.nodup_finRange _).filter _, fun i hi => ?_, fun h => absurd rfl h⟩
    exact multicastSlot_ok (by simpa using (List.mem_filter.mp hi).2)
  · exact ⟨List.nodup_nil, fun _ hi => absurd hi List.not_mem_nil, fun _ => rfl⟩
  · exact ⟨List.nodup_nil, fun _ hi => absurd hi List.not_mem_nil, fun _ => rfl⟩

end HyBBX.Broadcast

/-! The AX.25 broadcasts: by frequency, to all links at once, and link by link in a sequence. -/

namespace HyBBX.Broadcast

open HyBBX.Core HyBBX.Circuit Lib Lib.Bytes Lib.Text

structure BroadcastAx25Seq where
  active : Bool
  links : List BroadcastLink
  nextIndex : ℕ
  message : Bytes
  resumeAt : ℤ

structure BroadcastState where
  lastSent : ℤ
  linkLastSent : Fin circuitMaxLinks → ℤ
  autoTick : ℕ
  seq : BroadcastAx25Seq

/-- The clock during one call: when it is checked, when a frame goes out, and when that is written down. -/
structure CallClock where
  checked : ℤ
  sent : ℤ
  marked : ℤ

/-- What a call finds; `frameBuf` is what the buffer of the frame holds before. -/
structure BroadcastService where
  cfg : BroadcastConfig
  name : Bytes
  hub : Option BroadcastHub
  clock : CallClock
  frameBuf : Bytes

def broadcastStart : BroadcastState := ⟨0, fun _ => 0, 0, ⟨false, [], 0, [], 0⟩⟩

/-- Both rate checks: of the time since `last`, which is 0 before the first time. -/
def rateOk (last now : ℤ) (intervalSec : ℕ) : Bool :=
  if last = 0 then true
  else if now = -1 then false
  else if now - last < 0 then true
  else intervalSec ≤ (now - last) % 2 ^ 32

def broadcastAx25RateOk (s : BroadcastState) (now : ℤ) (intervalSec : ℕ) : Bool := rateOk s.lastSent now intervalSec

def broadcastAx25LinkRateOk (s : BroadcastState) (i : Fin circuitMaxLinks) (now : ℤ) (intervalSec : ℕ) : Bool :=
  rateOk (s.linkLastSent i) now intervalSec

def broadcastAx25MarkSent (s : BroadcastState) (now : ℤ) : BroadcastState :=
  if now = -1 then s else { s with lastSent := now }

def broadcastAx25MarkLinkSent (s : BroadcastState) (i : Fin circuitMaxLinks) (now : ℤ) : BroadcastState :=
  if now = -1 then s else { s with linkLastSent := Function.update s.linkLastSent i now, lastSent := now }

/-- The result of a call, the state after it, and the slots that a frame went out to. -/
structure BroadcastOutcome where
  rc : HybbxResult
  state : BroadcastState
  sent : List (Fin circuitMaxLinks)

def runningHub (svc : BroadcastService) : Option BroadcastHub := svc.hub.filter BroadcastHub.running

def broadcastAx25SendSlot (svc : BroadcastService) (s : BroadcastState) (i : Fin circuitMaxLinks) (message : Bytes)
    (enforceRateLimit : Bool) : BroadcastOutcome :=
  if message = [] then ⟨.errInvalid, s, []⟩
  else if svc.cfg.enabled = false ∨ svc.cfg.ax25Enabled = false then ⟨.errUnsupported, s, []⟩
  else match runningHub svc with
    | none => ⟨.errBusy, s, []⟩
    | some hub =>
      if ∀ l ∈ (circuitHubBroadcastLinks hub).find? (·.slotIndex = i), l.linkId = [] then ⟨.errDenied, s, []⟩
      else if circuitHubLinkBandIdle hub i svc.clock.checked broadcastAx25BandIdleSec = false then ⟨.errBusy, s, []⟩
      else if enforceRateLimit && !broadcastAx25LinkRateOk s i svc.clock.checked broadcastAx25LinkMinSec then
        ⟨.errBusy, s, []⟩
      else if broadcastAx25MessageMax < message.length then ⟨.errInvalid, s, []⟩
      else if circuitHubLinkBroadcastQos hub = false then ⟨.errBusy, s, []⟩
      else match broadcastFrame svc.cfg message svc.frameBuf with
        | .error rc => ⟨rc, s, []⟩
        | .ok frame =>
          let rc := circuitHubSendHbxSlot hub i frame
          if rc ≠ .ok then ⟨rc, s, []⟩
          else ⟨.ok, broadcastAx25MarkLinkSent s i svc.clock.marked, [i]⟩

/-- The links that a broadcast on a frequency looks at. -/
def frequencyLinks (hub : BroadcastHub) (frequencyMhz : ℚ) : List BroadcastLink :=
  (circuitHubBroadcastLinks hub).filter fun l => 0 < l.frequencyMhz && ax25FrequencyMatch frequencyMhz l.frequencyMhz

def broadcastAx25Send (svc : BroadcastService) (s : BroadcastState) (frequencyMhz : ℚ) (message : Bytes)
    (enforceRateLimit : Bool) : BroadcastOutcome :=
  if message = [] then ⟨.errInvalid, s, []⟩
  else if svc.cfg.enabled = false ∨ svc.cfg.ax25Enabled = false then ⟨.errUnsupported, s, []⟩
  else match runningHub svc with
    | none => ⟨.errBusy, s, []⟩
    | some hub =>
      let perLink := 0 < frequencyMhz
      -- one link that may send is enough
      let anyRateOk := (frequencyLinks hub frequencyMhz).any fun l =>
        !enforceRateLimit || broadcastAx25LinkRateOk s l.slotIndex svc.clock.checked broadcastAx25LinkMinSec
      if perLink ∧ anyRateOk = false then ⟨.errBusy, s, []⟩
      else if ¬perLink ∧ enforceRateLimit = true ∧
          broadcastAx25RateOk s svc.clock.checked svc.cfg.ax25AutoIntervalSec = false then ⟨.errBusy, s, []⟩
      else if broadcastAx25MessageMax < message.length then ⟨.errInvalid, s, []⟩
      else if circuitHubLinkBroadcastQos hub = false then ⟨.errBusy, s, []⟩
      else match broadcastFrame svc.cfg message svc.frameBuf with
        | .error rc => ⟨rc, s, []⟩
        | .ok frame =>
          let m := circuitHubMulticastHbx hub frame frequencyMhz
          if m.1 ≠ .ok then ⟨m.1, s, m.2⟩
          else if perLink then
            ⟨.ok, (frequencyLinks hub frequencyMhz).foldl
              (fun s l => broadcastAx25MarkLinkSent s l.slotIndex svc.clock.marked) s, m.2⟩
          else ⟨.ok, broadcastAx25MarkSent s svc.clock.marked, m.2⟩

def broadcastAx25 (svc : BroadcastService) (s : BroadcastState) (frequencyMhz : ℚ) (message : Bytes) :
    BroadcastOutcome :=
  broadcastAx25Send svc s frequencyMhz message true

def BroadcastState.setSeq (s : BroadcastState) (seq : BroadcastAx25Seq) : BroadcastState := { s with seq := seq }

def BroadcastState.seqStop (s : BroadcastState) : BroadcastState := s.setSeq { s.seq with active := false }

def broadcastAx25SeqStart (s : BroadcastState) (links : List BroadcastLink) (message : Bytes) : Option BroadcastState :=
  if s.seq.active = true ∨ links = [] ∨ message = [] then none
  else some (s.setSeq ⟨true, links, 0, strlcpy (broadcastAx25MessageMax + 1) message, 0⟩)

def broadcastAx25SeqDeferUntil (svc : BroadcastService) (s : BroadcastState) (resumeAt : ℤ) : BroadcastState :=
  let now := svc.clock.checked
  let resumeAt := if now ≠ -1 ∧ (resumeAt = -1 ∨ resumeAt ≤ now) then now + broadcastAx25DeferRetrySec else resumeAt
  s.setSeq { s.seq with resumeAt := resumeAt }

/-- The end of a step of the sequence that is done with its link. -/
def BroadcastState.seqNext (s : BroadcastState) (now : ℤ) : BroadcastState :=
  if s.seq.nextIndex + 1 < s.seq.links.length then
    s.setSeq { s.seq with nextIndex := s.seq.nextIndex + 1, resumeAt := now + broadcastAx25LinkGapSec }
  else s.setSeq { s.seq with nextIndex := s.seq.nextIndex + 1, active := false, resumeAt := 0 }

/-- Whether the sequence gets as far as its next link. -/
def seqDue (s : BroadcastState) (now : ℤ) : Bool := now ≠ -1 && (s.seq.resumeAt = 0 || s.seq.resumeAt ≤ now)

def broadcastAx25SeqAdvance (svc : BroadcastService) (s : BroadcastState) :
    BroadcastState × List (Fin circuitMaxLinks) :=
  if s.seq.active = false then (s, [])
  else match runningHub svc with
    | none => (s.seqStop, [])
    | some hub =>
      let now := svc.clock.checked
      if seqDue s now = false then (s, [])
      else match s.seq.links[s.seq.nextIndex]? with
        | none => (s.seqStop, [])
        | some link =>
          let i := link.slotIndex
          let readyAt := circuitHubLinkBandReadyAt hub i now broadcastAx25BandIdleSec
          if link.frequencyMhz ≤ 0 then (s.seqNext now, [])
          else if circuitHubLinkBandIdle hub i now broadcastAx25BandIdleSec = false then
            (broadcastAx25SeqDeferUntil svc s readyAt, [])
          else if broadcastAx25LinkRateOk s i now broadcastAx25LinkMinSec = false then
            (broadcastAx25SeqDeferUntil svc s (now + broadcastAx25DeferRetrySec), [])
          else
            let out := broadcastAx25SendSlot svc s i s.seq.message false
            match out.rc with
            | .errBusy => (broadcastAx25SeqDeferUntil svc out.state readyAt, out.sent)
            | .errDenied => (broadcastAx25SeqDeferUntil svc out.state (now + broadcastAx25DeferRetrySec), out.sent)
            | _ => (out.state.seqNext now, out.sent)

def broadcastAx25Message (svc : BroadcastService) : Bytes :=
  broadcastExpandServiceToken (broadcastAx25MessageMax + 1) svc.cfg.ax25AutoMessage svc.name

def broadcastAx25Manual (svc : BroadcastService) (s : BroadcastState) : BroadcastOutcome :=
  if s.seq.active = true then ⟨.errBusy, s, []⟩
  else if svc.cfg.enabled = false ∨ svc.cfg.ax25Enabled = false then ⟨.errUnsupported, s, []⟩
  else match runningHub svc with
    | none => ⟨.errBusy, s, []⟩
    | some hub =>
      if circuitHubBroadcastLinks hub = [] then ⟨.errDenied, s, []⟩
      else if broadcastAx25Message svc = [] then ⟨.errInvalid, s, []⟩
      else match broadcastAx25SeqStart s (circuitHubBroadcastLinks hub) (broadcastAx25Message svc) with
        | none => ⟨.errBusy, s, []⟩
        | some s =>
          let r := broadcastAx25SeqAdvance svc s
          ⟨.ok, r.1, r.2⟩

def broadcastAx25Tick (svc : BroadcastService) (s : BroadcastState) : BroadcastState × List (Fin circuitMaxLinks) :=
  if s.seq.active = true then broadcastAx25SeqAdvance svc s
  else if svc.cfg.enabled = false ∨ svc.cfg.ax25Enabled = false ∨ svc.cfg.ax25Auto = false then (s, [])
  else match runningHub svc with
    | none => (s, [])
    | some hub =>
      if svc.cfg.ax25AutoIntervalSec = 0 then (s, [])
      else if circuitHubBroadcastLinks hub = [] then (s, [])
      else
        let s := { s with autoTick := (s.autoTick + 1) % 2 ^ 32 }
        if broadcastAx25Message svc = [] then (s, [])
        else if s.autoTick < svc.cfg.ax25AutoIntervalSec then (s, [])
        else if broadcastAx25RateOk s svc.clock.checked svc.cfg.ax25AutoIntervalSec = false then (s, [])
        else match broadcastAx25SeqStart s (circuitHubBroadcastLinks hub) (broadcastAx25Message svc) with
          | none => (s, [])
          | some s => broadcastAx25SeqAdvance svc { s with autoTick := 0 }

end HyBBX.Broadcast
