import HyBBX.Core.Types
import HyBBX.Lib.Descriptors
import HyBBX.Lib.Text

/-! The host side of a modem: two sockets, one for commands and one for data, each with a receive buffer. -/

namespace HyBBX.Ardop

open HyBBX.Core Lib Lib.Bytes Lib.Text Lib.Descriptors

def hostRxMax : ℕ := 8192
def hostCmdMax : ℕ := 256
def ardopDataMax : ℕ := 2000
def ardopDefaultPort : ℕ := 8515
def peerCallMax : ℕ := 16

section Crc

def crcPoly : UInt16 := 0x8810

def crcBit (register : UInt16) (bit : Bool) : UInt16 :=
  let shifted := (register <<< 1) + if bit then 1 else 0
  if register &&& 0x8000 ≠ 0 then shifted ^^^ crcPoly else shifted

def crcByte (register : UInt16) (b : UInt8) : UInt16 :=
  [0x80, 0x40, 0x20, 0x10, 0x08, 0x04, 0x02, 0x01].foldl (fun r mask => crcBit r (b &&& mask ≠ 0)) register

def ardopCrc16 (data : Bytes) : UInt16 := data.foldl crcByte 0xFFFF

/-- The sum behind the data, its high byte first. -/
def crcBytes (data : Bytes) : Bytes := [(ardopCrc16 data >>> 8).toUInt8, (ardopCrc16 data).toUInt8]

def ardopCrc16Valid (data : Bytes) : Bool :=
  3 ≤ data.length && data.drop (data.length - 2) = crcBytes (data.take (data.length - 2))

end Crc

structure ArdopConfig where
  ardopPort : ℕ
  mycall : Option Bytes
  arqBandwidth : Option Bytes
  peerCall : Option Bytes
  listen : Bool

/-- What the host does that can be seen from outside: commands handled, frames written, and its two callbacks. -/
inductive HostAction
  | handled (line : Bytes)
  | frame (bytes : Bytes)
  | connected (call : Bytes)
  | disconnected
  | data (payload : Bytes)
  deriving DecidableEq, Repr

/-- A field without a descriptor holds -1. `frames` numbers the frames written, `ctrlAtEof` tells whether the control
socket has been read to its end since it was connected. -/
structure ArdopHost where
  ctrlFd : Option ℕ
  dataFd : Option ℕ
  tncReady : Bool
  linkUp : Bool
  peerCall : Bytes
  ctrlRx : Bytes
  dataRx : Bytes
  initSent : Bool
  ledger : Ledger
  ctrlAtEof : Bool
  frames : ℕ
  log : List HostAction

def ardopHostCreate : ArdopHost := ⟨none, none, false, false, [], [], [], false, .empty, false, 0, []⟩

section Commands

-- whether the frame of each number is written
variable (sends : ℕ → Bool)

def sendCmdFrame (host : ArdopHost) (cmd : Bytes) : HybbxResult × ArdopHost :=
  if host.ctrlFd = none then (.errInvalid, host)
  else if hostCmdMax + 4 < cmd.length + 3 then (.errInvalid, host)
  else
    (if sends host.frames then .ok else .errIo,
      { host with frames := host.frames + 1, log := host.log ++ [.frame (cmd ++ [cr] ++ crcBytes (cmd ++ [cr]))] })

def sendRdy (host : ArdopHost) : ArdopHost := (sendCmdFrame sends host (ofString "RDY")).2

/-- Commands one behind the other, up to the first one that fails. -/
def sendAll : ArdopHost → List Bytes → HybbxResult × ArdopHost
  | host, [] => (.ok, host)
  | host, cmd :: cmds =>
    match sendCmdFrame sends host cmd with
    | (.ok, host) => sendAll host cmds
    | r => r

/-- `snprintf` into 96 bytes -/
def formatCmd (text : Bytes) : Bytes := text.take 95

def initCommands (cfg : ArdopConfig) : List Bytes :=
  [ofString "INITIALIZE", formatCmd (ofString "MYCALL " ++ cfg.mycall.getD (ofString "NOCALL")),
    ofString "PROTOCOLMODE ARQ", formatCmd (ofString "ARQBW " ++ cfg.arqBandwidth.getD (ofString "500MAX")),
    if cfg.listen then ofString "LISTEN TRUE" else ofString "LISTEN FALSE"] ++
    match cfg.peerCall with
    | none => []
    | some call => if call = [] then [] else [formatCmd (ofString "ARQCALL " ++ call ++ ofString " 5")]

def sendInit (cfg : ArdopConfig) (host : ArdopHost) : ArdopHost :=
  match sendAll sends host (initCommands cfg) with
  | (.ok, host) => { host with initSent := true }
  | (_, host) => host

def stripCmdPrefix (line : Bytes) : Bytes :=
  if ofString "c:" <+: line ∨ ofString "C:" <+: line then line.drop 2 else line

def handleCtrlLine (host : ArdopHost) (line : Bytes) : ArdopHost :=
  let host := { host with log := host.log ++ [.handled line] }
  let line := stripCmdPrefix line
  if strIeq line (ofString "RDY") then { host with tncReady := true }
  else if ofString "CONNECTED" <+: line then
    let call := (((line.drop 9).dropWhile (· = blank)).take (peerCallMax - 1)).takeWhile (· ≠ blank)
    sendRdy sends { host with peerCall := call, linkUp := true, log := host.log ++ [.connected call] }
  else if strIeq line (ofString "DISCONNECTED") then
    sendRdy sends { host with linkUp := false, peerCall := [], log := host.log ++ [.disconnected] }
  -- every other line, known or not, is answered in the same way
  else sendRdy sends host

/-- What stands at the front of the control buffer. -/
inductive CtrlFront
  | incomplete
  | garbage
  | message (line rest : Bytes)

def ctrlFront (buf : Bytes) : CtrlFront :=
  if cr ∉ buf then .incomplete
  else
    let msgLen := buf.idxOf cr + 1 + 2
    if buf.length < msgLen then .incomplete
    else if hostCmdMax + 8 < msgLen then .garbage
    else if ardopCrc16Valid (buf.take msgLen) = false then .garbage
    else .message (strlcpy hostCmdMax (cstr (buf.take (msgLen - 3)))) (buf.drop msgLen)

/-- The loop over the control buffer; each round takes at least three bytes, which `fuel` counts. -/
def processCtrlLoop : ℕ → ArdopHost → ArdopHost
  | 0, host => host
  | fuel + 1, host =>
    match ctrlFront host.ctrlRx with
    | .incomplete => host
    | .garbage => { host with ctrlRx := [] }
    | .message line rest => processCtrlLoop fuel { handleCtrlLine sends host line with ctrlRx := rest }

def processCtrlRx (host : ArdopHost) : ArdopHost := processCtrlLoop sends host.ctrlRx.length host

/-- What stands at the front of the data buffer. -/
inductive DataFront
  | incomplete
  | skip
  | frame (tag payload : Bytes) (frameLen : ℕ)

def dataFront (buf : Bytes) : DataFront :=
  let payloadLen := (buf.getD 2 0).toNat * 256 + (buf.getD 3 0).toNat
  let frameLen := 2 + 2 + payloadLen + 2
  if buf.length < 6 then .incomplete
  else if buf.getD 0 0 ≠ 0x64 ∧ buf.getD 0 0 ≠ 0x44 then .skip
  else if buf.getD 1 0 ≠ 0x3A then .skip
  else if payloadLen < 3 ∨ ardopDataMax + 8 < payloadLen then .skip
  else if buf.length < frameLen then .incomplete
  else if ardopCrc16Valid (buf.take frameLen) = false then .skip
  else .frame ((buf.drop 4).take 3) ((buf.drop 7).take (payloadLen - 3)) frameLen

/-- The loop over the data buffer; each round takes at least one byte. -/
def processDataLoop : ℕ → ArdopHost → ArdopHost
  | 0, host => host
  | fuel + 1, host =>
    match dataFront host.dataRx with
    | .incomplete => host
    | .skip => processDataLoop fuel { host with dataRx := host.dataRx.drop 1 }
    | .frame tag payload frameLen =>
      let actions := if tag = ofString "ARQ" ∧ payload ≠ [] then [HostAction.data payload] else []
      processDataLoop fuel (sendRdy sends { host with dataRx := host.dataRx.drop frameLen, log := host.log ++ actions })

def processDataRx (host : ArdopHost) : ArdopHost := processDataLoop sends host.dataRx.length host

end Commands

/-- How a `recv` ends: with bytes, at the end of the stream, or with an error. -/
inductive RecvResult
  | bytes (first : UInt8) (more : Bytes)
  | eof
  | error

/-- The buffer after a read, and whether the end of the stream was read; a full buffer is not read into. -/
def readInto (buf : Bytes) (answer : RecvResult) : Bytes × Bool :=
  if hostRxMax ≤ buf.length then (buf, false)
  else match answer with
    | .bytes first more => (buf ++ (first :: more).take (hostRxMax - buf.length), false)
    | .eof => (buf, true)
    | .error => (buf, false)

/-- At the end of a stream its descriptor is closed, and the field that holds it is left alone. -/
def readCtrl (host : ArdopHost) (fd : ℕ) (answer : RecvResult) : ArdopHost :=
  let r := readInto host.ctrlRx answer
  { host with
    ctrlRx := r.1
    ledger := if r.2 then host.ledger.closed fd else host.ledger
    ctrlAtEof := host.ctrlAtEof || r.2 }

def readData (host : ArdopHost) (fd : ℕ) (answer : RecvResult) : ArdopHost :=
  let r := readInto host.dataRx answer
  { host with dataRx := r.1, ledger := if r.2 then host.ledger.closed fd else host.ledger }

/-- What a call finds: the sockets that are readable, unless polling them fails or finds none, and what reading them
returns. -/
structure PollInput where
  ready : Option (Bool × Bool)
  ctrl : RecvResult
  data : RecvResult

def PollInput.ctrlReadable (input : PollInput) : Bool := input.ready.any Prod.fst
def PollInput.dataReadable (input : PollInput) : Bool := input.ready.any Prod.snd

/-- How an attempt to connect ends: without a socket, with one that is given up again, or with the connection. -/
inductive TcpTry
  | noSocket
  | failed (want : ℕ)
  | connected (want : ℕ)

structure ConnectInput where
  ctrl : TcpTry
  data : TcpTry
  polls : ℕ → PollInput

section Calls

variable (sends : ℕ → Bool) (cfg : ArdopConfig)

/-- The initial commands go out once the modem is ready, if they have not gone out before. -/
def initWhenReady (host : ArdopHost) : ArdopHost :=
  if host.tncReady = true ∧ host.initSent = false then sendInit sends cfg host else host

def pollCtrl (host : ArdopHost) (fd : ℕ) (readable : Bool) (answer : RecvResult) : ArdopHost :=
  if readable then processCtrlRx sends (readCtrl host fd answer) else host

def pollData (host : ArdopHost) (readable : Bool) (answer : RecvResult) : ArdopHost :=
  match host.dataFd with
  | none => host
  | some fd => if readable then processDataRx sends (readData host fd answer) else host

def ardopHostPoll (host : ArdopHost) (input : PollInput) : ArdopHost :=
  match host.ctrlFd with
  | none => host
  | some ctrlFd =>
    match input.ready with
    | none => initWhenReady sends cfg host
    | some (ctrlIn, dataIn) =>
      initWhenReady sends cfg (pollData sends (pollCtrl sends host ctrlFd ctrlIn input.ctrl) dataIn input.data)

def ardopHostDisconnect (host : ArdopHost) : ArdopHost :=
  { host with
    ctrlFd := none
    dataFd := none
    ledger := (host.ledger.release host.ctrlFd).release host.dataFd
    ctrlRx := []
    dataRx := []
    tncReady := false
    linkUp := false
    initSent := false
    peerCall := [] }

def tcpConnect (ledger : Ledger) (port : ℕ) (attempt : TcpTry) : Ledger × Option ℕ :=
  if port = 0 then (ledger, none)
  else match attempt with
    | .noSocket => (ledger, none)
    | .failed want => ((ledger.opened want).closed (ledger.fresh want), none)
    | .connected want => (ledger.opened want, some (ledger.fresh want))

/-- Polls until the modem is ready. -/
def spinPolls (polls : ℕ → PollInput) : ℕ → ℕ → ArdopHost → ArdopHost
  | 0, _, host => host
  | left + 1, spin, host =>
    let host := ardopHostPoll sends cfg host (polls spin)
    if host.tncReady then host else spinPolls polls left (spin + 1) host

/-- Both sockets of a host, connected anew. -/
def connectSockets (host : ArdopHost) (input : ConnectInput) : HybbxResult × ArdopHost :=
  let host := ardopHostDisconnect host
  let port := if cfg.ardopPort = 0 then ardopDefaultPort else cfg.ardopPort
  let ctrl := tcpConnect host.ledger port input.ctrl
  let host := { host with ledger := ctrl.1, ctrlFd := ctrl.2 }
  if ctrl.2 = none then (.errIo, host)
  else
    let data := tcpConnect host.ledger ((port + 1) % 2 ^ 32) input.data
    let host := { host with ledger := data.1, dataFd := data.2, ctrlAtEof := false }
    if data.2 = none then (.errIo, ardopHostDisconnect host)
    else (.ok, { host with tncReady := false, initSent := false })

def ardopHostConnect (host : ArdopHost) (input : ConnectInput) : HybbxResult × ArdopHost :=
  match connectSockets cfg host input with
  | (.ok, host) => (.ok, spinPolls sends cfg input.polls 8 0 (sendInit sends cfg host))
  | r => r

def ardopHostModemConnected (host : ArdopHost) : Bool := host.ctrlFd.isSome

end Calls

/-- The commands that have been handled. -/
def handledLines (log : List HostAction) : List Bytes :=
  log.filterMap fun action => match action with
    | .handled line => some line
    | _ => none

/-- Sockets, buffers and the commands handled are as before. -/
structure Untouched (host host' : ArdopHost) : Prop where
  ctrlFd : host'.ctrlFd = host.ctrlFd
  dataFd : host'.dataFd = host.dataFd
  ledger : host'.ledger = host.ledger
  ctrlAtEof : host'.ctrlAtEof = host.ctrlAtEof
  ctrlRx : host'.ctrlRx = host.ctrlRx
  dataRx : host'.dataRx = host.dataRx
  handled : handledLines host'.log = handledLines host.log

section Untouched

variable {sends : ℕ → Bool} {host host' : ArdopHost}

lemma Untouched.refl (host : ArdopHost) : Untouched host host := ⟨rfl, rfl, rfl, rfl, rfl, rfl, rfl⟩

lemma Untouched.trans {host'' : ArdopHost} (h : Untouched host host') (h' : Untouched host' host'') :
    Untouched host host'' :=
  ⟨h'.ctrlFd.trans h.ctrlFd, h'.dataFd.trans h.dataFd, h'.ledger.trans h.ledger, h'.ctrlAtEof.trans h.ctrlAtEof,
    h'.ctrlRx.trans h.ctrlRx, h'.dataRx.trans h.dataRx, h'.handled.trans h.handled⟩

lemma handledLines_append (log actions : List HostAction) :
    handledLines (log ++ actions) = handledLines log ++ handledLines actions := List.filterMap_append

lemma sendCmdFrame_untouched (host : ArdopHost) (cmd : Bytes) : Untouched host (sendCmdFrame sends host cmd).2 := by
  rw [sendCmdFrame]
  by_cases hclosed : host.ctrlFd = none
  · rw [if_pos hclosed]
    exact .refl host
  rw [if_neg hclosed]
  by_cases hlong : hostCmdMax + 4 < cmd.length + 3
  · rw [if_pos hlong]
    exact .refl host
  rw [if_neg hlong]
  refine ⟨rfl, rfl, rfl, rfl, rfl, rfl, ?_⟩
  rw [handledLines_append]
  exact List.append_nil _

lemma sendRdy_untouched (host : ArdopHost) : Untouched host (sendRdy sends host) := sendCmdFrame_untouched host _

lemma sendAll_untouched (cmds : List Bytes) (host : ArdopHost) : Untouched host (sendAll sends host cmds).2 := by
  induction cmds generalizing host with
  | nil => exact .refl host
  | cons cmd cmds ih =>
    have hone := @sendCmdFrame_untouched sends host cmd
    rw [sendAll]
    split
    · rename_i he
      rw [he] at hone
      exact hone.trans (ih _)
    · exact hone

lemma sendInit_untouched (cfg : ArdopConfig) (host : ArdopHost) : Untouched host (sendInit sends cfg host) := by
  have hall := @sendAll_untouched sends (initCommands cfg) host
  rw [sendInit]
  split
  · rename_i he
    rw [he] at hall
    exact hall.trans ⟨rfl, rfl, rfl, rfl, rfl, rfl, rfl⟩
  · rename_i he
    rw [he] at hall
    exact hall

lemma initWhenReady_untouched (cfg : ArdopConfig) (host : ArdopHost) :
    Untouched host (initWhenReady sends cfg host) := by
  rw [initWhenReady]
  split_ifs
  · exact sendInit_untouched cfg host
  · exact .refl host

/-- A command is handled once and touches nothing else. -/
lemma handleCtrlLine_spec (host : ArdopHost) (line : Bytes) :
    Untouched { host with log := host.log ++ [.handled line] } (handleCtrlLine sends host line) := by
  have hlog : ∀ (log : List HostAction) (action : HostAction), handledLines [action] = [] →
      handledLines (log ++ [action]) = handledLines log := by
    intro log action h
    rw [handledLines_append, h, List.append_nil]
  rw [handleCtrlLine]
  dsimp only
  split_ifs
  · exact ⟨rfl, rfl, rfl, rfl, rfl, rfl, rfl⟩
  · refine Untouched.trans ?_ (sendRdy_untouched _)
    exact ⟨rfl, rfl, rfl, rfl, rfl, rfl, hlog _ _ rfl⟩
  · refine Untouched.trans ?_ (sendRdy_untouched _)
    exact ⟨rfl, rfl, rfl, rfl, rfl, rfl, hlog _ _ rfl⟩
  · exact sendRdy_untouched _

/-- The control loop leaves the sockets and the data buffer alone. -/
structure CtrlOnly (host host' : ArdopHost) : Prop where
  ctrlFd : host'.ctrlFd = host.ctrlFd
  dataFd : host'.dataFd = host.dataFd
  ledger : host'.ledger = host.ledger
  ctrlAtEof : host'.ctrlAtEof = host.ctrlAtEof
  dataRx : host'.dataRx = host.dataRx

lemma processCtrlLoop_ctrlOnly (fuel : ℕ) (host : ArdopHost) : CtrlOnly host (processCtrlLoop sends fuel host) := by
  induction fuel generalizing host with
  | zero => exact ⟨rfl, rfl, rfl, rfl, rfl⟩
  | succ fuel ih =>
    rw [processCtrlLoop]
    cases ctrlFront host.ctrlRx with
    | incomplete => exact ⟨rfl, rfl, rfl, rfl, rfl⟩
    | garbage => exact ⟨rfl, rfl, rfl, rfl, rfl⟩
    | message line rest =>
      have hline := @handleCtrlLine_spec sends host line
      have hrest := ih { handleCtrlLine sends host line with ctrlRx := rest }
      exact ⟨hrest.ctrlFd.trans hline.ctrlFd, hrest.dataFd.trans hline.dataFd, hrest.ledger.trans hline.ledger,
        hrest.ctrlAtEof.trans hline.ctrlAtEof, hrest.dataRx.trans hline.dataRx⟩

/-- The data loop leaves the sockets, the control buffer and the commands alone. -/
structure DataOnly (host host' : ArdopHost) : Prop where
  ctrlFd : host'.ctrlFd = host.ctrlFd
  dataFd : host'.dataFd = host.dataFd
  ledger : host'.ledger = host.ledger
  ctrlAtEof : host'.ctrlAtEof = host.ctrlAtEof
  ctrlRx : host'.ctrlRx = host.ctrlRx
  handled : handledLines host'.log = handledLines host.log

lemma processDataLoop_dataOnly (fuel : ℕ) (host : ArdopHost) : DataOnly host (processDataLoop sends fuel host) := by
  induction fuel generalizing host with
  | zero => exact ⟨rfl, rfl, rfl, rfl, rfl, rfl⟩
  | succ fuel ih =>
    rw [processDataLoop]
    cases dataFront host.dataRx with
    | incomplete => exact ⟨rfl, rfl, rfl, rfl, rfl, rfl⟩
    | skip =>
      have hrest := ih { host with dataRx := host.dataRx.drop 1 }
      exact ⟨hrest.ctrlFd, hrest.dataFd, hrest.ledger, hrest.ctrlAtEof, hrest.ctrlRx, hrest.handled⟩
    | frame tag payload frameLen =>
      obtain ⟨before, hbefore⟩ : ∃ before : ArdopHost, before = { host with
          dataRx := host.dataRx.drop frameLen
          log := host.log ++ if tag = ofString "ARQ" ∧ payload ≠ [] then [HostAction.data payload] else [] } := ⟨_, rfl⟩
      have hlog : handledLines before.log = handledLines host.log := by
        rw [hbefore, handledLines_append]
        split_ifs
        · exact List.append_nil _
        · exact List.append_nil _
      have hrdy := @sendRdy_untouched sends before
      have hrest := ih (sendRdy sends before)
      dsimp only
      rw [← hbefore]
      refine ⟨hrest.ctrlFd.trans ?_, hrest.dataFd.trans ?_, hrest.ledger.trans ?_, hrest.ctrlAtEof.trans ?_,
        hrest.ctrlRx.trans ?_, (hrest.handled.trans hrdy.handled).trans hlog⟩
      · rw [hrdy.ctrlFd, hbefore]
      · rw [hrdy.dataFd, hbefore]
      · rw [hrdy.ledger, hbefore]
      · rw [hrdy.ctrlAtEof, hbefore]
      · rw [hrdy.ctrlRx, hbefore]

end Untouched

end HyBBX.Ardop
