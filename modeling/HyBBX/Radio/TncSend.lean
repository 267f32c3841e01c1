import HyBBX.Radio.Ax25
import HyBBX.Radio.Kiss
import HyBBX.Radio.Sixpack

/-! The serial driver of a TNC: entering KISS mode and sending a frame. The state holds every byte written
to the serial port so far; the port takes all of them. -/

namespace HyBBX.Radio

open HyBBX.Core Lib Lib.Bytes Lib.Text Lib.Numeral

inductive PacketRadioTnc
  | tnc2c
  | baycom
  | pccom
  | generic
  | tnc2
  | pk232
  | mfj1278
  | kantronics
  deriving DecidableEq, Repr

inductive PacketRadioProtocol
  | kiss
  | hostmode
  | sixpack
  deriving DecidableEq, Repr

inductive KissEntry
  | unset
  | none
  | kissOn
  | escAtK
  | auto
  deriving DecidableEq, Repr

def packetRadioViaMax : ℕ := 8

/-- Names that are not configured are empty. -/
structure PacketRadioConfig where
  tnc : PacketRadioTnc
  protocol : PacketRadioProtocol
  kissEntry : KissEntry
  kissPort : UInt32
  txdelay : UInt32
  persist : UInt32
  slot : UInt32
  txtail : UInt32
  fullduplex : Bool
  hostConnectOnStart : Bool
  mycall : Bytes
  destCall : Bytes
  via : List Bytes
  viaFits : via.length ≤ packetRadioViaMax

structure Tnc where
  config : PacketRadioConfig
  txPath : Ax25Path
  kissActive : Bool
  kissEntryUsed : KissEntry
  serial : Bytes

/-- `if (rc != HYBBX_OK) return rc;` -/
def andThen (r : HybbxResult × Tnc) (next : Tnc → HybbxResult × Tnc) : HybbxResult × Tnc :=
  if r.1 = .ok then next r.2 else r

def sendRaw (tnc : Tnc) (data : Bytes) : Tnc := { tnc with serial := tnc.serial ++ data }

def tncHostFormatCmd (cmd : Bytes) (outCap : ℕ) : Option Bytes :=
  if outCap < 3 then none else if outCap ≤ cmd.length + 2 then none else some (cmd ++ [cr])

def sendCmd (tnc : Tnc) (cmd : Bytes) : HybbxResult × Tnc :=
  match tncHostFormatCmd cmd 128 with
  | none => (.errInvalid, tnc)
  | some line => (.ok, sendRaw tnc line)

def sendKissParam (tnc : Tnc) (cmd : KissCommand) (value : UInt8) : HybbxResult × Tnc :=
  match kissEncode tnc.config.kissPort.toUInt8 cmd [value] 16 with
  | none => (.errIo, tnc)
  | some frame => (.ok, sendRaw tnc frame)

def tncApplyKissParams (tnc : Tnc) : HybbxResult × Tnc :=
  andThen (sendKissParam tnc .txdelay tnc.config.txdelay.toUInt8) fun tnc =>
  andThen (sendKissParam tnc .persist tnc.config.persist.toUInt8) fun tnc =>
  andThen (sendKissParam tnc .slottime tnc.config.slot.toUInt8) fun tnc =>
  andThen (sendKissParam tnc .txtail tnc.config.txtail.toUInt8) fun tnc =>
  sendKissParam tnc .fullduplex (if tnc.config.fullduplex then 1 else 0)

def tncSendEscAtK (tnc : Tnc) : Tnc := sendRaw tnc (0x1B :: ofString "@K")

def tncSendKissReturnFrame (tnc : Tnc) : Tnc := sendRaw tnc [kissFend, 0xFF, kissFend]

def tncSendJhost0 (tnc : Tnc) : Tnc :=
  sendRaw (sendRaw tnc (List.replicate 300 0)) ([0x00, 0x01, 0x06] ++ ofString "JHOST 0" ++ [cr])

def tncSendRestartEscape (tnc : Tnc) : HybbxResult × Tnc :=
  sendCmd (sendRaw tnc [0x03, 0x03, 0x03]) (ofString "RESTART")

/-- Input that is drained and pauses leave nothing behind. -/
def tncRecoverTerminalMode (tnc : Tnc) : Tnc :=
  let tnc := tncSendJhost0 (tncSendKissReturnFrame { tnc with kissActive := false })
  let tnc := (sendCmd tnc (ofString "kiss off")).2
  let tnc := (sendCmd tnc (ofString "INFO")).2
  let tnc := (tncSendRestartEscape tnc).2
  (sendCmd tnc (ofString "kiss off")).2

def Tnc.enteredKiss (tnc : Tnc) (entry : KissEntry) : Tnc :=
  { tnc with kissActive := true, kissEntryUsed := entry }

def tncEnterKissByEntry (tnc : Tnc) : KissEntry → HybbxResult × Tnc
  | .none => (.ok, tnc.enteredKiss .none)
  | .escAtK => (.ok, (tncSendEscAtK tnc).enteredKiss .escAtK)
  | .kissOn =>
    let r := sendCmd tnc (ofString "kiss on")
    if r.1 = .ok then (.ok, r.2.enteredKiss .kissOn) else (.errIo, r.2)
  | .auto =>
    let r := sendCmd tnc (ofString "kiss on")
    if r.1 = .ok then (.ok, r.2.enteredKiss .kissOn) else (.ok, (tncSendEscAtK r.2).enteredKiss .escAtK)
  | .unset => (.errInvalid, tnc)

def tncEnterKissMode (tnc : Tnc) : HybbxResult × Tnc := tncEnterKissByEntry tnc tnc.config.kissEntry

def tncProfileThefirmware : PacketRadioTnc → Bool
  | .tnc2 => true
  | .tnc2c => true
  | .generic => true
  | _ => false

def tncTxCall (call fallback : Bytes) : Except HybbxResult Ax25Address :=
  ax25AddressParse (if call ≠ [] then call else fallback)

lemma mapM_length {ε α β : Type*} {f : α → Except ε β} (xs : List α) {ys : List β} (h : xs.mapM f = .ok ys) :
    ys.length = xs.length := by
  induction xs generalizing ys with
  | nil =>
    obtain rfl := Except.ok.inj h
    rfl
  | cons x xs ih =>
    rw [List.mapM_cons] at h
    cases hx : f x with
    | error e => simp [hx, bind, Except.bind] at h
    | ok y =>
      cases hxs : xs.mapM f with
      | error e => simp [hx, hxs, bind, Except.bind] at h
      | ok zs =>
        simp only [hx, hxs, bind, Except.bind, pure, Except.pure, Except.ok.injEq] at h
        rw [← h, List.length_cons, List.length_cons, ih hxs]

def tncBuildTxPath (config : PacketRadioConfig) : Except HybbxResult Ax25Path :=
  match tncTxCall config.destCall (ofString "QST") with
  | .error rc => .error rc
  | .ok dest =>
    match tncTxCall config.mycall (ofString "HYBBX") with
    | .error rc => .error rc
    | .ok source =>
      match h : config.via.mapM ax25AddressParse with
      | .error rc => .error rc
      | .ok digi => .ok ⟨dest, source, digi, by rw [mapM_length _ h]; exact config.viaFits⟩

def sendHostParam (name : String) (value : UInt32) (tnc : Tnc) : Tnc :=
  (sendCmd tnc (ofString name ++ blank :: decimal value.toNat)).2

-- of the set-up in host mode only a failure of `MYCALL` or of the connect counts
def tncHostSetup (tnc : Tnc) : HybbxResult × Tnc :=
  let cfg := tnc.config
  let tnc := (sendCmd tnc []).2
  andThen (if cfg.mycall ≠ [] then sendCmd tnc ((ofString "MYCALL " ++ cfg.mycall).take 95) else (.ok, tnc)) fun tnc =>
  let tnc := sendHostParam "TXDELAY" cfg.txdelay tnc
  let tnc := sendHostParam "Persist" cfg.persist tnc
  let tnc := sendHostParam "SlotTime" cfg.slot tnc
  let tnc := sendHostParam "TXTAIL" cfg.txtail tnc
  let tnc := (sendCmd tnc (ofString (if cfg.fullduplex then "FULLDUP ON" else "FULLDUP OFF"))).2
  let tnc :=
    if cfg.tnc = .pccom then (sendCmd (sendCmd tnc (ofString "PACLEN 256")).2 (ofString "MAXFRAME 4")).2 else tnc
  let tnc := if cfg.tnc = .baycom then (sendCmd tnc (ofString "PACLEN 256")).2 else tnc
  if cfg.hostConnectOnStart ∧ cfg.destCall ≠ [] then sendCmd tnc ((ofString "C " ++ cfg.destCall).take 95)
  else (.ok, tnc)

/-- A controller whose set-up fails is closed again. -/
def opened (r : HybbxResult × Tnc) : Except HybbxResult Tnc := if r.1 = .ok then .ok r.2 else .error r.1

def tncProfileInit (tnc : Tnc) : Except HybbxResult Tnc :=
  match tncBuildTxPath tnc.config with
  | .error rc => .error rc
  | .ok path =>
    let tnc := { tnc with txPath := path }
    match tnc.config.protocol with
    | .kiss =>
      if tnc.config.kissEntry = .none then .ok (tnc.enteredKiss .none)
      else
        let tnc := if tncProfileThefirmware tnc.config.tnc then tncRecoverTerminalMode tnc else tnc
        opened (andThen (tncEnterKissMode tnc) tncApplyKissParams)
    | .sixpack => .ok { tnc with kissActive := false }
    | .hostmode => opened (tncHostSetup tnc)

def tncOpen (config : PacketRadioConfig) : Except HybbxResult Tnc :=
  tncProfileInit ⟨config, .zero, false, .unset, []⟩

/-! Sending frames through a TNC. A KISS controller that does not run TheFirmware stays in KISS mode, and
what it is given to send is the frame without its checksum. -/

def tncEnsureKissTx (tnc : Tnc) : HybbxResult × Tnc :=
  if tnc.config.protocol ≠ .kiss then (.ok, tnc)
  else if tnc.kissActive = false then andThen (tncEnterKissMode tnc) tncApplyKissParams
  else (.ok, tnc)

/-- How many bytes of a frame go into KISS DATA. -/
def tncKissAx25Len (frame : Bytes) : ℕ :=
  if frame.length < 16 then frame.length
  else if FcsOk frame then frame.length - 2
  else frame.length

def tncFormatAx25Call (addr : Ax25Address) (outLen : ℕ) : Bytes :=
  let call := addr.call.take (outLen - 1)
  if 0 < addr.ssid ∧ call.length + 4 < outLen then
    call ++ (dash :: decimal addr.ssid.toNat).take (outLen - call.length - 1)
  else call

/-- The frame leaves as an `UNPROTO` command typed in terminal mode. -/
def tncThefirmwareUnprotoSend (tnc : Tnc) (path : Ax25Path) (payload : Bytes) : HybbxResult × Tnc :=
  if payload = [] ∨ 320 ≤ payload.length + 64 then (.errInvalid, tnc)
  else
    let dest := tncFormatAx25Call path.dest (ax25CallMax + 8)
    let tnc := (sendCmd (tncRecoverTerminalMode tnc) (ofString "MON OFF")).2
    let cmd := (ofString "UNPROTO " ++ dest ++ ofString " 0 " ++ cstr payload).take 319
    andThen (sendCmd tnc cmd) fun tnc => andThen (tncEnterKissMode tnc) tncApplyKissParams

/-- The path and the text of a frame that TheFirmware is to send as a command. -/
def unprotoPart (tnc : Tnc) (frame : Bytes) : Option (Ax25Path × Bytes) :=
  if tnc.config.protocol = .kiss ∧ tncProfileThefirmware tnc.config.tnc then
    (ax25ParseUi frame ax25PayloadMax).filter fun r => r.2 ≠ []
  else none

def tncSendKissData (tnc : Tnc) (frame : Bytes) : HybbxResult × Tnc :=
  let kiss := tnc.config.protocol = .kiss
  let tnc := if kiss then (sendKissParam tnc .persist tnc.config.persist.toUInt8).2 else tnc
  let len := if kiss then tncKissAx25Len frame else frame.length
  match kissEncode tnc.config.kissPort.toUInt8 .data (frame.take len) (kissMaxFrame + 8) with
  | none => (.errIo, tnc)
  | some encoded => (.ok, sendRaw tnc encoded)

/-- The half-duplex guard in front of it only delays. -/
def tncSendFrame (tnc : Tnc) (frame : Bytes) : HybbxResult × Tnc :=
  if frame = [] then (.errInvalid, tnc)
  else if tnc.config.protocol = .sixpack then
    match sixpackEncode frame (kissMaxFrame + 8) with
    | none => (.errIo, tnc)
    | some encoded => (.ok, sendRaw tnc encoded)
  else if tnc.kissActive = false ∧ tnc.config.protocol ≠ .kiss then (.errUnsupported, tnc)
  else match unprotoPart tnc frame with
    | some (path, ui) => tncThefirmwareUnprotoSend tnc path ui
    | none => andThen (tncEnsureKissTx tnc) (tncSendKissData · frame)

def tncSendUi (tnc : Tnc) (payload : Bytes) : HybbxResult × Tnc :=
  match ax25BuildUi tnc.txPath payload ax25FrameMax with
  | none => (.errInvalid, tnc)
  | some frame => tncSendFrame tnc frame

/-- A controller in KISS mode that no recovery takes out of it. -/
structure KissReady (tnc : Tnc) : Prop where
  protocol : tnc.config.protocol = .kiss
  profile : tncProfileThefirmware tnc.config.tnc = false
  active : tnc.kissActive = true

-- the bytes on the line are all that a plain send changes
structure OnlySerial (tnc tnc' : Tnc) : Prop where
  config : tnc'.config = tnc.config
  active : tnc'.kissActive = tnc.kissActive

lemma OnlySerial.trans {a b c : Tnc} (h : OnlySerial a b) (h' : OnlySerial b c) : OnlySerial a c :=
  ⟨h'.config.trans h.config, h'.active.trans h.active⟩

lemma sendCmd_onlySerial (tnc : Tnc) (cmd : Bytes) : OnlySerial tnc (sendCmd tnc cmd).2 := by
  rw [sendCmd]
  split <;> exact ⟨rfl, rfl⟩

lemma sendKissParam_onlySerial (tnc : Tnc) (cmd : KissCommand) (value : UInt8) :
    OnlySerial tnc (sendKissParam tnc cmd value).2 := by
  rw [sendKissParam]
  split <;> exact ⟨rfl, rfl⟩

lemma andThen_onlySerial {tnc : Tnc} {r : HybbxResult × Tnc} {next : Tnc → HybbxResult × Tnc}
    (h : OnlySerial tnc r.2) (hnext : ∀ tnc, OnlySerial tnc (next tnc).2) : OnlySerial tnc (andThen r next).2 := by
  rw [andThen]
  split_ifs
  · exact h.trans (hnext r.2)
  · exact h

lemma applyKissParams_onlySerial (tnc : Tnc) : OnlySerial tnc (tncApplyKissParams tnc).2 := by
  rw [tncApplyKissParams]
  refine andThen_onlySerial (sendKissParam_onlySerial _ _ _) fun tnc => ?_
  refine andThen_onlySerial (sendKissParam_onlySerial _ _ _) fun tnc => ?_
  refine andThen_onlySerial (sendKissParam_onlySerial _ _ _) fun tnc => ?_
  exact andThen_onlySerial (sendKissParam_onlySerial _ _ _) fun tnc => sendKissParam_onlySerial _ _ _

lemma andThen_ok {r : HybbxResult × Tnc} {next : Tnc → HybbxResult × Tnc} (h : (andThen r next).1 = .ok) :
    r.1 = .ok ∧ andThen r next = next r.2 := by
  rw [andThen] at h ⊢
  split_ifs at h ⊢ with hr
  · exact ⟨hr, rfl⟩
  · exact absurd h hr

-- entering KISS mode either fails or activates it
lemma tncEnterKissMode_active {tnc : Tnc} (h : (tncEnterKissMode tnc).1 = .ok) :
    (tncEnterKissMode tnc).2.kissActive = true ∧ (tncEnterKissMode tnc).2.config = tnc.config := by
  rw [tncEnterKissMode] at h ⊢
  have hcmd := sendCmd_onlySerial tnc (ofString "kiss on")
  cases he : tnc.config.kissEntry with
  | unset =>
    rw [he, tncEnterKissByEntry] at h
    exact absurd h (by simp)
  | none => exact ⟨rfl, rfl⟩
  | escAtK => exact ⟨rfl, rfl⟩
  | kissOn =>
    rw [he, tncEnterKissByEntry] at h
    rw [tncEnterKissByEntry]
    split_ifs at h ⊢ with hc
    · exact ⟨rfl, hcmd.config⟩
  | auto =>
    rw [tncEnterKissByEntry]
    split_ifs
    · exact ⟨rfl, hcmd.config⟩
    · exact ⟨rfl, hcmd.config⟩

lemma opened_eq_ok {r : HybbxResult × Tnc} {tnc : Tnc} (h : opened r = .ok tnc) : r.1 = .ok ∧ r.2 = tnc := by
  rw [opened] at h
  split_ifs at h with hr
  exact ⟨hr, Except.ok.inj h⟩

lemma tncOpen_ready {config : PacketRadioConfig} {tnc : Tnc} (h : tncOpen config = .ok tnc)
    (hp : config.protocol = .kiss) (hf : tncProfileThefirmware config.tnc = false) : KissReady tnc := by
  rw [tncOpen, tncProfileInit] at h
  cases hb : tncBuildTxPath config with
  | error rc => simp [hb] at h
  | ok path =>
    simp only [hb, hp, hf, Bool.false_eq_true, if_false] at h
    split_ifs at h with he
    · obtain rfl := Except.ok.inj h
      exact ⟨hp, hf, rfl⟩
    · obtain ⟨hok, rfl⟩ := opened_eq_ok h
      obtain ⟨henter, hrest⟩ := andThen_ok hok
      obtain ⟨hactive, hconfig⟩ := tncEnterKissMode_active henter
      have hs := applyKissParams_onlySerial (tncEnterKissMode ⟨config, path, false, .unset, []⟩).2
      rw [hrest]
      exact ⟨by rw [hs.config, hconfig]; exact hp, by rw [hs.config, hconfig]; exact hf, hs.active.trans hactive⟩

lemma KissReady.of_onlySerial {tnc tnc' : Tnc} (h : KissReady tnc) (hs : OnlySerial tnc tnc') : KissReady tnc' :=
  ⟨by rw [hs.config]; exact h.protocol, by rw [hs.config]; exact h.profile, hs.active.trans h.active⟩

/-- What a ready controller does with a frame: it announces its persistence, then comes the frame. -/
lemma tncSendFrame_ready {tnc : Tnc} (h : KissReady tnc) {frame : Bytes} (hne : frame ≠ []) :
    tncSendFrame tnc frame = tncSendKissData tnc frame := by
  have hunproto : unprotoPart tnc frame = none := by
    rw [unprotoPart, if_neg]
    rintro ⟨-, hf⟩
    exact absurd (h.profile.symm.trans hf) Bool.false_ne_true
  have hensure : tncEnsureKissTx tnc = (.ok, tnc) := by
    rw [tncEnsureKissTx, if_neg (not_not.mpr h.protocol), if_neg (by rw [h.active]; decide)]
  rw [tncSendFrame, if_neg hne, if_neg (by rw [h.protocol]; decide),
    if_neg (fun hn => hn.2 h.protocol), hunproto, hensure]
  rfl

lemma sendKissData_onlySerial (tnc : Tnc) (frame : Bytes) : OnlySerial tnc (tncSendKissData tnc frame).2 := by
  have hparam := sendKissParam_onlySerial tnc .persist tnc.config.persist.toUInt8
  rw [tncSendKissData]
  by_cases hk : tnc.config.protocol = .kiss
  · simp only [hk, if_true]
    split
    · exact hparam
    · exact hparam.trans ⟨rfl, rfl⟩
  · simp only [hk, if_false]
    split <;> exact ⟨rfl, rfl⟩

lemma tncSendFrame_keeps_ready {tnc : Tnc} (h : KissReady tnc) (frame : Bytes) :
    KissReady (tncSendFrame tnc frame).2 := by
  by_cases hne : frame = []
  · rw [tncSendFrame, if_pos hne]
    exact h
  · rw [tncSendFrame_ready h hne]
    exact h.of_onlySerial (sendKissData_onlySerial tnc frame)

/-- A controller after it has been given some frames to send. -/
def tncSendAll (tnc : Tnc) (frames : List Bytes) : Tnc := frames.foldl (fun tnc frame => (tncSendFrame tnc frame).2) tnc

lemma tncSendAll_ready (frames : List Bytes) {tnc : Tnc} (h : KissReady tnc) : KissReady (tncSendAll tnc frames) := by
  induction frames generalizing tnc with
  | nil => exact h
  | cons frame frames ih => exact ih (tncSendFrame_keeps_ready h frame)

lemma tncKissAx25Len_le (frame : Bytes) : tncKissAx25Len frame ≤ frame.length := by
  rw [tncKissAx25Len]
  split_ifs <;> omega

lemma sendKissParam_serial (tnc : Tnc) (cmd : KissCommand) (value : UInt8) : ∃ bytes,
    kissEncode tnc.config.kissPort.toUInt8 cmd [value] 16 = some bytes ∧
      sendKissParam tnc cmd value = (.ok, sendRaw tnc bytes) := by
  obtain ⟨bytes, hb⟩ := @kissEncode_of_room tnc.config.kissPort.toUInt8 cmd [value] 16 (by simp)
  exact ⟨bytes, hb, by rw [sendKissParam, hb]⟩

/-- The bytes that a ready controller puts on the line for a frame. -/
lemma tncSendFrame_serial {tnc : Tnc} (h : KissReady tnc) {frame : Bytes} (hne : frame ≠ [])
    (hlen : 2 * frame.length + 4 ≤ kissMaxFrame + 8) : ∃ persist data,
      kissEncode tnc.config.kissPort.toUInt8 .persist [tnc.config.persist.toUInt8] 16 = some persist ∧
      kissEncode tnc.config.kissPort.toUInt8 .data (frame.take (tncKissAx25Len frame)) (kissMaxFrame + 8) =
        some data ∧
      tncSendFrame tnc frame = (.ok, sendRaw tnc (persist ++ data)) := by
  obtain ⟨persist, hp, hparam⟩ := sendKissParam_serial tnc .persist tnc.config.persist.toUInt8
  obtain ⟨data, hd⟩ := @kissEncode_of_room tnc.config.kissPort.toUInt8 .data
    (frame.take (tncKissAx25Len frame)) (kissMaxFrame + 8)
    (by have := List.length_take_le (tncKissAx25Len frame) frame; have := tncKissAx25Len_le frame
        rw [List.length_take]; omega)
  refine ⟨persist, data, hp, hd, ?_⟩
  rw [tncSendFrame_ready h hne, tncSendKissData]
  simp only [h.protocol, if_true, hparam, sendRaw, hd, List.append_assoc]

end HyBBX.Radio
