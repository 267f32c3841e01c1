import HyBBX.Circuit.RoundTrip
import HyBBX.Radio.Ax25RoundTrip
import HyBBX.Radio.TncSend
import HyBBX.Security.Ban

/-! From one station's serial line to the hub behind another: the edge hands on what KISS gave it, and the
hub wants a checksum on it. -/

namespace HyBBX.Radio

open HyBBX.Core Lib Lib.Bytes Lib.Text Lib.Numeral Circuit Security

def circuitFlagG3ruhFsk : UInt16 := 0x0008

/-- `hbx` is the buffer for outgoing frames as it lies on the stack. -/
structure PacketRadioInstance where
  connected : Bool
  flowPaused : Bool
  flowCancel : Bool
  g3ruh : Bool
  hbx : Bytes
  hbxSize : hbx.length = circuitMaxFrame

def PacketRadioInstance.uplinkFlags (inst : PacketRadioInstance) : UInt16 :=
  if inst.g3ruh then circuitFlagRx ||| circuitFlagG3ruhFsk else circuitFlagRx

section Edge

variable (isBanned : Bytes → Bool)

def packetRadioSourceBanned (path : Ax25Path) : Bool :=
  let source := path.source
  if source.call = [] then false
  else
    let raw := if 0 < source.ssid then source.call ++ dash :: decimal source.ssid.toNat else source.call
    match callidNormalize raw callidMax with
    | none => false
    | some norm => isBanned norm

def packetRadioFrameSourceBanned (frame : Bytes) : Bool :=
  match ax25ParseUi frame ax25FrameMax with
  | none => false
  | some (path, ui) => ui ≠ [] && packetRadioSourceBanned isBanned path

/-- The bytes that go to the hub. -/
def instanceCircuitUplink (inst : PacketRadioInstance) (frame : Bytes) : Bytes :=
  if inst.connected = false ∨ inst.flowPaused ∨ inst.flowCancel then []
  else (circuitEncodeAx25 frame inst.uplinkFlags inst.hbx).getD []

def onTncAx25Frame (inst : PacketRadioInstance) (frame : Bytes) : Bytes :=
  if frame = [] then []
  else if packetRadioFrameSourceBanned isBanned frame then []
  else instanceCircuitUplink inst frame

/-- In KISS mode only the callback for whole frames is set; the port is ignored. -/
def onKissFrame (inst : PacketRadioInstance) (frame : KissFrame) : Bytes := onTncAx25Frame isBanned inst frame.payload

/-- What the edge writes to the hub while these reads of the serial port arrive. -/
def edgeUplink (inst : PacketRadioInstance) (dec : KissDecoder) (reads : List Bytes) : Bytes :=
  (kissDecoderFeedAll dec reads).2.flatMap (onKissFrame isBanned inst)

end Edge

/-- The branch of the hub's frame handler for AX.25: what the parser makes of the frame. -/
def hubAx25Input (frame : CircuitFrame) : Option (Ax25Path × Bytes) :=
  if frame.payload = [] then none
  else if frame.proto = .ax25 then (ax25ParseUi frame.payload ax25PayloadMax).filter fun r => r.2 ≠ []
  else none

def hubInputs (dec : CircuitDecoder) (reads : List Bytes) : List (Ax25Path × Bytes) :=
  (circuitDecoderFeedAll dec reads).2.filterMap hubAx25Input

/-- The text that a built frame turns into behind KISS is shorter than the one that was sent. -/
lemma ax25ParseUi_kissBody {path q : Ax25Path} {payload frame ui : Bytes} {outCap payloadCap : ℕ}
    (hbuild : ax25BuildUi path payload outCap = some frame) (hne : payload ≠ [])
    (hparse : ax25ParseUi (frame.take (tncKissAx25Len frame)) payloadCap = some (q, ui)) :
    ui.length < payload.length := by
  have hpos := List.length_pos_iff.mpr hne
  have hlong := ax25ParseUi_length hparse
  obtain ⟨-, -, body, hbody, rfl⟩ := ax25BuildUi_eq_some hbuild
  have hlen : tncKissAx25Len (body ++ fcsBytes (ax25Crc body)) = body.length := by
    have h16 := List.length_take_le' (tncKissAx25Len (body ++ fcsBytes (ax25Crc body))) (body ++ fcsBytes (ax25Crc body))
    rw [tncKissAx25Len, if_neg (by omega), if_pos (fcsOk_append body), List.length_append, fcsBytes_length,
      Nat.add_sub_cancel]
  rw [hlen, List.take_left] at hparse hlong
  by_cases hroom : (2 + path.digi.length) * ax25AddrEncoded ≤ outCap
  · -- the parser takes the last two bytes of the text for the checksum
    rw [hbody, ax25ParseUi_text hroom] at hparse
    split_ifs at hparse with hcut
    obtain ⟨-, rfl⟩ := Prod.mk.inj (Option.some.inj hparse)
    rw [List.length_take]
    omega
  · -- without addresses the text itself is taken for them
    rw [hbody, appendAddresses, if_pos (by omega), List.nil_append, List.length_cons, List.length_cons] at hlong
    omega

lemma hubAx25Input_eq_some {frame : CircuitFrame} {r : Ax25Path × Bytes} (h : hubAx25Input frame = some r) :
    ax25ParseUi frame.payload ax25PayloadMax = some r := by
  rw [hubAx25Input] at h
  split_ifs at h
  exact (Option.filter_eq_some_iff.mp h).1

section Uplink

variable {isBanned : Bytes → Bool} {inst : PacketRadioInstance}

lemma instanceCircuitUplink_spec (frame : Bytes) : instanceCircuitUplink inst frame = [] ∨
    ∃ f : CircuitFrame, f.payload = frame ∧
      circuitEncode f.proto f.flags f.payload inst.hbx = some (instanceCircuitUplink inst frame) := by
  rw [instanceCircuitUplink]
  split_ifs
  · exact .inl rfl
  · cases he : circuitEncodeAx25 frame inst.uplinkFlags inst.hbx with
    | none => exact .inl rfl
    | some bytes => exact .inr ⟨⟨.ax25, _, frame, (circuitEncode_eq_some he).1⟩, rfl, he⟩

lemma onTncAx25Frame_spec (frame : Bytes) : onTncAx25Frame isBanned inst frame = [] ∨
    ∃ f : CircuitFrame, f.payload = frame ∧
      circuitEncode f.proto f.flags f.payload inst.hbx = some (onTncAx25Frame isBanned inst frame) := by
  rw [onTncAx25Frame]
  split_ifs
  · exact .inl rfl
  · exact .inl rfl
  · exact instanceCircuitUplink_spec frame

/-- The hub gets frames that the edge got, and no others. -/
lemma hub_feed_uplinks (frames : List KissFrame) {hub : CircuitDecoder} (hidle : hub.Idle) :
    (circuitDecoderFeed hub (frames.flatMap (onKissFrame isBanned inst))).1.Idle ∧
      ∀ f ∈ (circuitDecoderFeed hub (frames.flatMap (onKissFrame isBanned inst))).2,
        ∃ k ∈ frames, f.payload = k.payload := by
  induction frames generalizing hub with
  | nil => exact ⟨hidle, fun f hf => absurd hf List.not_mem_nil⟩
  | cons k frames ih =>
    rw [List.flatMap_cons, feed_append]
    rcases @onTncAx25Frame_spec isBanned inst k.payload with he | ⟨f, hf, he⟩
    · obtain ⟨hi, hall⟩ := ih hidle
      rw [onKissFrame, he]
      refine ⟨hi, fun g hg => ?_⟩
      obtain ⟨k', hk', hp⟩ := hall g hg
      exact ⟨k', List.mem_cons_of_mem k hk', hp⟩
    · obtain ⟨hi, hd⟩ := feed_encode hidle he
      obtain ⟨hi', hall⟩ := ih hi
      rw [onKissFrame]
      refine ⟨hi', fun g hg => ?_⟩
      rcases List.mem_append.mp hg with hg | hg
      · rw [hd, List.mem_singleton] at hg
        exact ⟨k, List.mem_cons_self, by rw [hg, hf]⟩
      · obtain ⟨k', hk', hp⟩ := hall g hg
        exact ⟨k', List.mem_cons_of_mem k hk', hp⟩

end Uplink

/-- What a peer between two frames hears of the sender's line: the persistence, then the frame's body. -/
lemma kissFeed_line {persist data body : Bytes} {port value : UInt8} {dec : KissDecoder} {outCap outCap' : ℕ}
    (hidle : dec.buf = []) (hp : kissEncode port .persist [value] outCap = some persist)
    (hd : kissEncode port .data body outCap' = some data) (hlen : body.length < kissMaxFrame) :
    (kissDecoderFeed dec (persist ++ data)).2 = [⟨port &&& 0x0F, [value]⟩, ⟨port &&& 0x0F, body⟩] := by
  have hpend : dec.pending = [] := by
    rw [KissDecoder.pending, hidle]
    split_ifs <;> rfl
  rw [kissFeed_append, kissFeed_encode hp (by simp [kissMaxFrame]), hpend]
  dsimp only
  rw [kissFeed_encode hd hlen]
  rfl

lemma ax25BuildUi_length {path : Ax25Path} {payload frame : Bytes} {outCap : ℕ}
    (h : ax25BuildUi path payload outCap = some frame) : frame ≠ [] ∧ frame.length ≤ 404 := by
  have hlen : payload.length ≤ ax25FrameMax := by
    rw [ax25BuildUi] at h
    by_contra hl
    rw [if_pos (.inr (by omega))] at h
    exact absurd h (by simp)
  obtain ⟨-, -, body, rfl, rfl⟩ := ax25BuildUi_eq_some h
  have haddr : (appendAddresses path outCap).length ≤ 70 := by
    have hfits := path.fits
    by_cases hroom : (2 + path.digi.length) * ax25AddrEncoded ≤ outCap
    · rw [appendAddresses_length hroom]
      simp only [ax25AddrEncoded, ax25MaxDigi] at *
      omega
    · rw [appendAddresses, if_pos (by omega)]
      exact Nat.zero_le _
  refine ⟨by simp [fcsBytes], ?_⟩
  simp only [List.length_append, List.length_cons, fcsBytes_length, ax25FrameMax] at *
  omega

/-- What the hub makes of a built frame that a ready controller sends and an idle edge receives. -/
lemma air_path_inputs {sender : Tnc} (hready : KissReady sender) {path : Ax25Path} {payload frame : Bytes} {outCap : ℕ}
    (hne : payload ≠ []) (hbuild : ax25BuildUi path payload outCap = some frame) : ∃ sent,
      tncSendFrame sender frame = (.ok, sendRaw sender sent) ∧
      ∀ (isBanned : Bytes → Bool) (inst : PacketRadioInstance) (dec : KissDecoder) (hub : CircuitDecoder)
        (reads linkReads : List Bytes), dec.buf = [] → hub.Idle → reads.flatten = sent →
          linkReads.flatten = edgeUplink isBanned inst dec reads →
            ∀ r ∈ hubInputs hub linkReads, r.2.length < payload.length := by
  obtain ⟨hframe, hlen⟩ := ax25BuildUi_length hbuild
  obtain ⟨persist, data, hp, hd, hsend⟩ := tncSendFrame_serial hready hframe (by simp only [kissMaxFrame]; omega)
  refine ⟨persist ++ data, hsend, ?_⟩
  intro isBanned inst dec hub reads linkReads hdec hhub hreads hlink r hr
  have hbody : (frame.take (tncKissAx25Len frame)).length < kissMaxFrame := by
    rw [List.length_take, kissMaxFrame]
    omega
  rw [edgeUplink, kissDecoderFeedAll_eq, hreads, kissFeed_line hdec hp hd hbody] at hlink
  rw [hubInputs, circuitDecoderFeedAll_eq, hlink] at hr
  obtain ⟨f, hf, hinput⟩ := List.mem_filterMap.mp hr
  obtain ⟨k, hk, hpayload⟩ := (hub_feed_uplinks _ hhub).2 f hf
  have hparse := hubAx25Input_eq_some hinput
  rw [hpayload] at hparse
  rcases List.mem_pair.mp hk with rfl | rfl
  · -- the persistence is too short for a frame
    have h16 := (ax25ParseUi_length hparse).1
    exact absurd h16 (by simp)
  · exact ax25ParseUi_kissBody hbuild hne hparse

/-- A frame sent without its checksum never comes out at the hub as the text it was built from. -/
theorem kiss_air_path_never_agrees (config : PacketRadioConfig) (hkiss : config.protocol = .kiss)
    (hprofile : tncProfileThefirmware config.tnc = false) (opened : Tnc) (hopen : tncOpen config = .ok opened)
    (earlier : List Bytes) (path : Ax25Path) (payload frame : Bytes) (outCap : ℕ) (hne : payload ≠ [])
    (hbuild : ax25BuildUi path payload outCap = some frame) :
    let sender := tncSendAll opened earlier
    ∃ sent, tncSendFrame sender frame = (.ok, sendRaw sender sent) ∧
      ∀ (isBanned : Bytes → Bool) (inst : PacketRadioInstance) (dec : KissDecoder) (hub : CircuitDecoder)
        (reads linkReads : List Bytes), dec.buf = [] → hub.Idle → reads.flatten = sent →
          linkReads.flatten = edgeUplink isBanned inst dec reads → (path, payload) ∉ hubInputs hub linkReads := by
  intro sender
  have hready : KissReady sender := tncSendAll_ready earlier (tncOpen_ready hopen hkiss hprofile)
  obtain ⟨sent, hsend, hall⟩ := air_path_inputs hready hne hbuild
  refine ⟨sent, hsend, ?_⟩
  intro isBanned inst dec hub reads linkReads hdec hhub hreads hlink hmem
  exact absurd (hall isBanned inst dec hub reads linkReads hdec hhub hreads hlink _ hmem) (lt_irrefl _)

def pk232 : PacketRadioConfig where
  tnc := .pk232
  protocol := .kiss
  kissEntry := .none
  kissPort := 0
  txdelay := 30
  persist := 63
  slot := 10
  txtail := 5
  fullduplex := false
  hostConnectOnStart := false
  mycall := []
  destCall := []
  via := []
  viaFits := by decide

def annToBob : Ax25Path where
  dest := ⟨ofString "BOB", 0, by decide⟩
  source := ⟨ofString "ANN", 0, by decide⟩
  digi := []
  fits := by decide

theorem kiss_air_path_never_agrees_pk232 : ∃ opened frame, tncOpen pk232 = .ok opened ∧
    ax25BuildUi annToBob (ofString "73") ax25FrameMax = some frame ∧
    ∃ sent, tncSendFrame opened frame = (.ok, sendRaw opened sent) ∧
      ∀ (isBanned : Bytes → Bool) (inst : PacketRadioInstance) (dec : KissDecoder) (hub : CircuitDecoder)
        (reads linkReads : List Bytes), dec.buf = [] → hub.Idle → reads.flatten = sent →
          linkReads.flatten = edgeUplink isBanned inst dec reads →
            (annToBob, ofString "73") ∉ hubInputs hub linkReads :=
  ⟨_, _, rfl, rfl, kiss_air_path_never_agrees pk232 rfl rfl _ rfl [] annToBob (ofString "73") _ ax25FrameMax (by decide) rfl⟩

def steadyInstance : PacketRadioInstance where
  connected := true
  flowPaused := false
  flowCancel := false
  g3ruh := false
  hbx := List.replicate circuitMaxFrame 0
  hbxSize := List.length_replicate

/-- The hub hears nothing of ANN's 73 to BOB. -/
theorem seventy_three_is_lost : ∃ opened frame sent, tncOpen pk232 = .ok opened ∧
    ax25BuildUi annToBob (ofString "73") ax25FrameMax = some frame ∧
    tncSendFrame opened frame = (.ok, sendRaw opened sent) ∧
    (annToBob, ofString "73") ∉
      hubInputs circuitDecoderInit [edgeUplink (fun _ => false) steadyInstance kissDecoderInit [sent]] := by
  obtain ⟨opened, frame, hopen, hbuild⟩ : ∃ opened frame, tncOpen pk232 = .ok opened ∧
      ax25BuildUi annToBob (ofString "73") ax25FrameMax = some frame := ⟨_, _, rfl, rfl⟩
  obtain ⟨sent, hsend, hall⟩ := air_path_inputs (tncOpen_ready hopen rfl rfl) (by decide) hbuild
  refine ⟨opened, frame, sent, hopen, hbuild, hsend, fun hmem => ?_⟩
  exact absurd (hall (fun _ => false) steadyInstance kissDecoderInit circuitDecoderInit [sent] _ rfl init_idle (by simp) (by simp) _ hmem)
    (lt_irrefl _)

end HyBBX.Radio
