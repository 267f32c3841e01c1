import HyBBX.Command.Session

/-! A session from open to close: the node it takes, its guest slot, and its record in the storage. -/

namespace HyBBX.Session

open HyBBX.Core HyBBX.Storage Lib Lib.Bytes Lib.Text Lib.Numeral
open HyBBX.Command (guestNumberMax)

abbrev transportNameMax : ℕ := 32
abbrev authGuestPrefixMax : ℕ := 32

instance : NeZero remoteAddrMax := ⟨by decide⟩

/-- The transports that open sessions. -/
inductive TransportPlugin
  | telnet
  | ssh
  | websocket
  | circuit
  deriving DecidableEq, Repr

def TransportPlugin.name : TransportPlugin → Bytes
  | telnet => ofString "telnet"
  | ssh => ofString "ssh"
  | websocket => ofString "websocket"
  | circuit => ofString "circuit"

def TransportPlugin.interactive (t : TransportPlugin) : Bool := t ≠ .circuit

structure SessionRecord where
  sessionId : ℕ
  userId : ℕ
  username : CText userNameMax
  transport : CText transportNameMax
  remote : CText remoteAddrMax
  connectedAt : Int64
  active : Bool
  deriving DecidableEq

def SessionRecord.zero : SessionRecord := ⟨0, 0, .empty, .empty, .empty, 0, false⟩

/-- `user` is `none` as long as the record of the user is zeroed. -/
structure SessionCore where
  transport : TransportPlugin
  user : Option UserRecord
  record : SessionRecord
  guestSlot : ℕ
  guestExpiresAt : Int64
  loggedIn : Bool
  loginPrompt : Bool
  deriving DecidableEq

def SessionCore.isGuest (core : SessionCore) : Bool := core.user.any fun u => u.level = .guest

structure ServiceConfig where
  autoLogin : Bool
  guestPrefix : CText authGuestPrefixMax
  maxOnline : ℕ
  guestTimeoutMinutes : ℕ
  storageOpen : Bool
  offersUserBbx : Bool

/-- What the service counts; the attached sessions are under handles that stand for their addresses. -/
structure NodeService where
  guestInUse : ℕ → Bool
  activeNodes : ℕ
  sessions : List (ℕ × SessionCore)
  nextHandle : ℕ

/-- What the storage says to a new session: its id, unless it fails. -/
abbrev BeginAnswer := Except HybbxResult ℕ

section Service

def guestPrefixText (guestPrefix : CText authGuestPrefixMax) : Bytes :=
  if guestPrefix.text = [] then authDefaultGuestPrefix else guestPrefix.text

def guestName (guestPrefix : CText authGuestPrefixMax) (slot : ℕ) : CText userNameMax :=
  CText.copy (guestPrefixText guestPrefix ++ decimal slot)

def guestFillRecord (guestPrefix : CText authGuestPrefixMax) (slot : ℕ) (now : Int64) (out : UserRecord) : UserRecord :=
  if h : 1 ≤ slot ∧ slot ≤ guestNumberMax then
    { UserRecord.zero with
      id := 0xffffffffffffff00 + slot
      username := guestName guestPrefix slot
      nickname := CText.copy (guestName guestPrefix slot).text
      level := .guest
      active := true
      createdAt := now
      idFits := by
        simp only [guestNumberMax] at h
        omega }
  else out

def guestAssign (guestPrefix : CText authGuestPrefixMax) (now : Int64) (out : UserRecord) (svc : NodeService) :
    Option (NodeService × UserRecord × ℕ) :=
  match (List.range' 1 guestNumberMax).find? fun slot => !svc.guestInUse slot with
  | none => none
  | some slot =>
    some ({ svc with guestInUse := Function.update svc.guestInUse slot true },
      guestFillRecord guestPrefix slot now out, slot)

def guestRelease (svc : NodeService) (slot : ℕ) : NodeService :=
  if slot < 1 ∨ guestNumberMax < slot then svc
  else { svc with guestInUse := Function.update svc.guestInUse slot false }

def acquireNode (cfg : ServiceConfig) (svc : NodeService) : Option NodeService :=
  if cfg.maxOnline ≤ svc.activeNodes then none else some { svc with activeNodes := svc.activeNodes + 1 }

def releaseNode (svc : NodeService) : NodeService :=
  if 0 < svc.activeNodes then { svc with activeNodes := svc.activeNodes - 1 } else svc

end Service

section Session

def sessionBegin (answer : BeginAnswer) (user : UserRecord) (transport : Bytes) (now : Int64) :
    Except HybbxResult SessionRecord :=
  answer.map fun id => ⟨id, user.id, CText.copy user.username.text, CText.copy transport, .empty, now, true⟩

def releaseGuestSlot (svc : NodeService) (core : SessionCore) : NodeService × SessionCore :=
  if core.guestSlot = 0 then (svc, core) else (guestRelease svc core.guestSlot, { core with guestSlot := 0 })

def armGuestTimer (cfg : ServiceConfig) (now : Int64) (core : SessionCore) : SessionCore :=
  let timeoutSec := cfg.guestTimeoutMinutes * 60
  if core.isGuest = false then { core with guestExpiresAt := 0 }
  else if timeoutSec = 0 then { core with guestExpiresAt := 0 }
  else { core with guestExpiresAt := now + Int64.ofNat timeoutSec }

def activateGuest (cfg : ServiceConfig) (now : Int64) (answer : BeginAnswer) (svc : NodeService) (core : SessionCore)
    (guest : UserRecord) (slot : ℕ) : NodeService × Except HybbxResult SessionCore :=
  if slot < 1 then (svc, .error .errInvalid)
  else if cfg.storageOpen = false then (svc, .error .errInvalid)
  else
    let r := if core.guestSlot ≠ 0 ∧ core.guestSlot ≠ slot then releaseGuestSlot svc core else (svc, core)
    let core := if r.2.record.sessionId ≠ 0 then { r.2 with record := .zero } else r.2
    match sessionBegin answer guest core.transport.name now with
    | .error rc => (guestRelease r.1 slot, .error rc)
    | .ok record =>
      (r.1, .ok (armGuestTimer cfg now
        { core with record := record, user := some guest, guestSlot := slot, loggedIn := true, loginPrompt := false }))

/-- What an open depends on besides the service: the clock, the memory and the storage. -/
structure OpenCall where
  transport : TransportPlugin
  now : Int64
  coreAllocated : Bool
  answer : BeginAnswer
  nodeAllocated : Bool

def freshCore (transport : TransportPlugin) : SessionCore := ⟨transport, none, .zero, 0, 0, false, false⟩

/-- The session before it is attached: of a guest, or at the login prompt. -/
def startSession (cfg : ServiceConfig) (call : OpenCall) (svc : NodeService) :
    NodeService × Except HybbxResult SessionCore :=
  if cfg.autoLogin then
    match guestAssign cfg.guestPrefix call.now .zero svc with
    | none => (svc, .error .errBusy)
    | some (svc, guest, slot) =>
      activateGuest cfg call.now call.answer svc { freshCore call.transport with user := some guest } guest slot
  else (svc, .ok { freshCore call.transport with loginPrompt := true })

def attachSession (svc : NodeService) (core : SessionCore) : NodeService :=
  { svc with sessions := (svc.nextHandle, core) :: svc.sessions, nextHandle := svc.nextHandle + 1 }

def sessionOpen (cfg : ServiceConfig) (call : OpenCall) (svc : NodeService) : NodeService × HybbxResult :=
  if call.transport.interactive ∧ cfg.offersUserBbx = false then (svc, .errDenied)
  else match acquireNode cfg svc with
    | none => (svc, .errBusy)
    | some svc =>
      if cfg.storageOpen = false then (releaseNode svc, .errInvalid)
      else if call.coreAllocated = false then (releaseNode svc, .errNomem)
      else match startSession cfg call svc with
        | (svc, .error rc) => (releaseNode svc, rc)
        | (svc, .ok core) =>
          if call.nodeAllocated then (attachSession svc core, .ok)
          else (releaseNode (releaseGuestSlot svc core).1, .errNomem)

def detachSession (svc : NodeService) (handle : ℕ) : NodeService :=
  { svc with sessions := svc.sessions.eraseP fun p => p.1 = handle }

def sessionClose (handle : ℕ) (svc : NodeService) : NodeService :=
  match svc.sessions.lookup handle with
  | none => svc
  | some core => releaseNode (detachSession (releaseGuestSlot svc core).1 handle)

def NodeService.setCore (svc : NodeService) (handle : ℕ) (core : SessionCore) : NodeService :=
  { svc with sessions := svc.sessions.map fun p => if p.1 = handle then (handle, core) else p }

/-- The session after a switch, which has lost its guest slot in any case. -/
def switchedCore (cfg : ServiceConfig) (user : UserRecord) (answer : BeginAnswer) (now : Int64) (core : SessionCore) :
    SessionCore × HybbxResult :=
  if cfg.storageOpen = false then (core, .errInvalid)
  else
    let transportName := if core.record.transport.text = [] then core.transport.name else core.record.transport.text
    match sessionBegin answer user transportName now with
    | .error rc => (core, rc)
    | .ok record =>
      ({ core with
          user := some user, record := record, guestExpiresAt := 0, loggedIn := true, loginPrompt := false }, .ok)

def sessionSwitchUser (cfg : ServiceConfig) (handle : ℕ) (user : UserRecord) (answer : BeginAnswer) (now : Int64)
    (svc : NodeService) : NodeService × HybbxResult :=
  match svc.sessions.lookup handle with
  | none => (svc, .errInvalid)
  | some core =>
    if user.level = .guest then (svc, .errInvalid)
    else
      let r := releaseGuestSlot svc core
      let switched := switchedCore cfg user answer now r.2
      (r.1.setCore handle switched.1, switched.2)

end Session

end HyBBX.Session
