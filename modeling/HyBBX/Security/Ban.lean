import HyBBX.Config.Values
import HyBBX.Lib.SlotTable

/-! The `[security]` section of the configuration. -/

namespace HyBBX.Security

open HyBBX.Core Config Lib Lib.Bytes Lib.Text Lib.Numeral

def defaultMaxretry : ℕ := 5
def defaultFindtimeSec : ℕ := 600
def defaultBantimeSec : ℕ := 600
def defaultAbuseMaxretry : ℕ := 30
def defaultAbuseFindtimeSec : ℕ := 600
def defaultRateLimit : ℕ := 30
def defaultRateWindowSec : ℕ := 60

inductive BanBackend
  | internal
  | log
  | iptables
  | nftables
  | hosts
  deriving DecidableEq, Repr

structure SecurityCfg where
  enabled : Bool
  maxretry : ℕ
  findtimeSec : ℕ
  bantimeSec : ℕ
  abuseMaxretry : ℕ
  abuseFindtimeSec : ℕ
  telnet : Bool
  ssh : Bool
  websocket : Bool
  circuit : Bool
  rateLimit : ℕ
  rateWindowSec : ℕ
  backend : BanBackend
  deriving DecidableEq, Repr

def securityCfgDefaults : SecurityCfg where
  enabled := true
  maxretry := defaultMaxretry
  findtimeSec := defaultFindtimeSec
  bantimeSec := defaultBantimeSec
  abuseMaxretry := defaultAbuseMaxretry
  abuseFindtimeSec := defaultAbuseFindtimeSec
  telnet := true
  ssh := true
  websocket := true
  circuit := true
  rateLimit := defaultRateLimit
  rateWindowSec := defaultRateWindowSec
  backend := .internal

def parseBanBackend (value : Bytes) : BanBackend :=
  if strIeq value (ofString "log") then .log
  else if strIeq value (ofString "iptables") then .iptables
  else if strIeq value (ofString "nftables") then .nftables
  else if strIeq value (ofString "hosts") then .hosts
  else .internal

-- a NULL value is empty
def parseUintClamp (value : Bytes) (defaultValue maxValue : ℕ) : ℕ :=
  if value = [] then defaultValue
  else
    let n := strtoul value
    if n.2 ≠ [] then defaultValue else min n.1 maxValue

/-- The settings of a loaded configuration, after their defaults and clamps. -/
def banConfig (config : HybbxConfig) : SecurityCfg :=
  let value := fun key : String => (configGet config (ofString "security") (ofString key)).getD []
  let cfg := securityCfgDefaults
  { enabled := parseBool (value "enabled") cfg.enabled
    maxretry := max 1 (parseUintClamp (value "maxretry") cfg.maxretry 100)
    findtimeSec := parseUintClamp (value "findtime") cfg.findtimeSec 86400
    bantimeSec := parseUintClamp (value "bantime") cfg.bantimeSec 86400
    abuseMaxretry := max 1 (parseUintClamp (value "abuse_maxretry") cfg.abuseMaxretry 1000)
    abuseFindtimeSec := parseUintClamp (value "abuse_findtime") cfg.abuseFindtimeSec 86400
    telnet := parseBool (value "telnet") cfg.telnet
    ssh := parseBool (value "ssh") cfg.ssh
    websocket := parseBool (value "websocket") cfg.websocket
    circuit := parseBool (value "circuit") cfg.circuit
    rateLimit := parseUintClamp (value "rate_limit") cfg.rateLimit 10000
    rateWindowSec := parseUintClamp (value "rate_window") cfg.rateWindowSec 3600
    backend := parseBanBackend (value "ban_backend") }

lemma maxretry_pos (config : HybbxConfig) : 1 ≤ (banConfig config).maxretry := le_max_left _ _

lemma abuseMaxretry_pos (config : HybbxConfig) : 1 ≤ (banConfig config).abuseMaxretry := le_max_left _ _

/-! Bans after too many failures: four tables of time stamps, two tables of bans. -/

def securityBanMax : ℕ := 256
def securityTrackMax : ℕ := 512
def callidMax : ℕ := 64
def pathMax : ℕ := 512

/-- The four arrays of time stamps that count towards a ban. -/
inductive Tracker
  | fails
  | abuse
  | callidFails
  | callidAbuse
  deriving DecidableEq, Repr

namespace Tracker

/-- The number of stamps in an entry's array: `g_abuse` has the entries of `g_fails`. -/
def capacity : Tracker → ℕ
  | .fails => defaultMaxretry
  | .abuse => defaultMaxretry
  | .callidFails => defaultAbuseMaxretry
  | .callidAbuse => defaultAbuseMaxretry

/-- The count from which the oldest stamp makes room for the new one. -/
def limit : Tracker → ℕ
  | .fails => defaultMaxretry
  | .abuse => defaultAbuseMaxretry
  | .callidFails => defaultMaxretry
  | .callidAbuse => defaultAbuseMaxretry

def window (cfg : SecurityCfg) : Tracker → ℕ
  | .fails => cfg.findtimeSec
  | .abuse => cfg.abuseFindtimeSec
  | .callidFails => cfg.findtimeSec
  | .callidAbuse => cfg.abuseFindtimeSec

def retries (cfg : SecurityCfg) : Tracker → ℕ
  | .fails => cfg.maxretry
  | .abuse => cfg.abuseMaxretry
  | .callidFails => cfg.maxretry
  | .callidAbuse => cfg.abuseMaxretry

def ofIp : Tracker → Bool
  | .fails => true
  | .abuse => true
  | .callidFails => false
  | .callidAbuse => false

end Tracker

abbrev TrackTable := SlotTable Bytes (List ℤ)

structure CallidBan where
  expireAt : ℤ
  permanent : Bool
  deriving DecidableEq, Repr

structure SecurityState where
  bans : SlotTable Bytes ℤ
  callidBans : SlotTable Bytes CallidBan
  tracks : Tracker → TrackTable
  rates : TrackTable

def SecurityState.setTrack (st : SecurityState) (k : Tracker) (t : TrackTable) : SecurityState :=
  { st with tracks := Function.update st.tracks k t }

lemma setTrack_tracks (st : SecurityState) (k k' : Tracker) (t : TrackTable) :
    (st.setTrack k t).tracks k' = if k' = k then t else st.tracks k' := by
  rw [← Function.update_apply]
  rfl

inductive BanEvent
  | ip (ip reason : Bytes)
  | callid (callid reason : Bytes)
  deriving DecidableEq, Repr

def pruneWindow (window : ℕ) (now : ℤ) (stamps : List ℤ) : List ℤ :=
  stamps.filter fun s => now - s ≤ window

/-- The stamps with `now` behind them; `none` is a write behind the end of the array. -/
def pushStamp (k : Tracker) (stamps : List ℤ) (now : ℤ) : Option (List ℤ) :=
  if stamps.length < k.limit then
    if stamps.length < k.capacity then some (stamps ++ [now]) else none
  else some (stamps.tail ++ [now])

/-- One entry's turn: whether its count reached the threshold, which also releases the entry. -/
def recordStamp (cfg : SecurityCfg) (k : Tracker) (t : TrackTable) (key : Bytes) (now : ℤ) :
    Option (TrackTable × Bool) :=
  if t.lookup key = none ∧ t.free = none then some (t, false)
  else
    let kept := pruneWindow (k.window cfg) now ((t.lookup key).getD [])
    -- an entry without stamps is given up and taken anew from the first free slot
    let t := if kept = [] then t.release key else t
    match pushStamp k kept now with
    | none => none
    | some stamps =>
      if k.retries cfg ≤ stamps.length then some (t.release key, true)
      else some (t.put key stamps, false)

def applyBanLocked (cfg : SecurityCfg) (st : SecurityState) (ip reason : Bytes) (now : ℤ) :
    SecurityState × List BanEvent :=
  if st.bans.lookup ip = none ∧ st.bans.free = none then (st, [])
  else ({ st with bans := st.bans.put ip (now + cfg.bantimeSec) }, [.ip ip reason])

def applyCallidBanLocked (cfg : SecurityCfg) (st : SecurityState) (callid reason : Bytes) (now : ℤ)
    (permanent : Bool) : SecurityState × List BanEvent :=
  if st.callidBans.lookup callid = none ∧ st.callidBans.free = none then (st, [])
  else
    let ban : CallidBan := ⟨if permanent then 0 else now + cfg.bantimeSec, permanent⟩
    ({ st with callidBans := st.callidBans.put callid ban }, [.callid callid reason])

def banFor (cfg : SecurityCfg) (k : Tracker) (st : SecurityState) (key reason : Bytes) (now : ℤ) :
    SecurityState × List BanEvent :=
  if k.ofIp then applyBanLocked cfg st key reason now else applyCallidBanLocked cfg st key reason now false

def recordLocked (cfg : SecurityCfg) (k : Tracker) (st : SecurityState) (key reason : Bytes) (now : ℤ) :
    Option (SecurityState × List BanEvent) :=
  match recordStamp cfg k (st.tracks k) key now with
  | none => none
  | some (t, reached) =>
    let st := st.setTrack k t
    some (if reached then banFor cfg k st key reason now else (st, []))

def abuseReason (category : Bytes) : Bytes :=
  (ofString "abuse:" ++ if category ≠ [] then category else ofString "flood").take 63

def recordFailureLocked (cfg : SecurityCfg) (st : SecurityState) (ip : Bytes) (now : ℤ) :=
  recordLocked cfg .fails st ip (ofString "login_fail") now

def recordAbuseLocked (cfg : SecurityCfg) (st : SecurityState) (ip category : Bytes) (now : ℤ) :=
  recordLocked cfg .abuse st ip (abuseReason category) now

def recordCallidFailureLocked (cfg : SecurityCfg) (st : SecurityState) (callid : Bytes) (now : ℤ) :=
  recordLocked cfg .callidFails st callid (ofString "link_auth_fail") now

def recordCallidAbuseLocked (cfg : SecurityCfg) (st : SecurityState) (callid category : Bytes) (now : ℤ) :=
  recordLocked cfg .callidAbuse st callid (abuseReason category) now

def ipValid (ip : Bytes) : Bool := ip ≠ [] && ip ≠ ofString "?"

def transportEnabled (cfg : SecurityCfg) (transport : Bytes) : Bool :=
  if cfg.enabled = false ∨ transport = [] then false
  else if transport = ofString "telnet" then cfg.telnet
  else if transport = ofString "ssh" then cfg.ssh
  else if transport = ofString "websocket" then cfg.websocket
  else if transport = ofString "circuit" then cfg.circuit
  else true

def isUpper (b : UInt8) : Bool := 0x41 ≤ b && b ≤ 0x5A
def isLower (b : UInt8) : Bool := 0x61 ≤ b && b ≤ 0x7A

def callidByte (b : UInt8) : Option UInt8 :=
  if isLower b then some (b - 0x20)
  else if isUpper b || Numeral.isDigit b || b = 0x2D || b = 0x5F || b = 0x2E then some b
  else none

def callidBlank (b : UInt8) : Bool := b = blank || b = tab

-- `none` is the return value 0
def callidNormalize (text : Bytes) (outCap : ℕ) : Option Bytes :=
  let word := (text.dropWhile callidBlank).takeWhile fun b => !callidBlank b
  if outCap < 2 ∨ outCap ≤ word.length then none
  else (word.mapM callidByte).bind fun norm => if norm.any isUpper then some norm else none

def banIsBanned (cfg : SecurityCfg) (st : SecurityState) (ip : Bytes) (now : ℤ) : SecurityState × Bool :=
  if cfg.enabled = false ∨ ipValid ip = false then (st, false)
  else match st.bans.lookup ip with
    | none => (st, false)
    | some expireAt => if now < expireAt then (st, true) else ({ st with bans := st.bans.release ip }, false)

def callidIsBannedLocked (st : SecurityState) (callid : Bytes) (now : ℤ) : SecurityState × Bool :=
  match st.callidBans.lookup callid with
  | none => (st, false)
  | some ban =>
    if ban.permanent then (st, true)
    else if now < ban.expireAt then (st, true)
    else ({ st with callidBans := st.callidBans.release callid }, false)

def banCallidIsBanned (cfg : SecurityCfg) (st : SecurityState) (callid : Bytes) (now : ℤ) : SecurityState × Bool :=
  if cfg.enabled = false then (st, false)
  else match callidNormalize callid callidMax with
    | none => (st, false)
    | some norm => callidIsBannedLocked st norm now

/-! The calls other parts of the hub make into the ban tables, and runs of them under a clock. -/

/-- The name of a peer as the socket layer and the session records hold it. -/
structure RemoteAddr where
  text : Bytes
  fits : text.length < remoteAddrMax

def rateStamps : ℕ := 32

def pruneTable (window : ℕ) (now : ℤ) (t : TrackTable) : TrackTable :=
  t.sweep fun _ stamps =>
    let kept := pruneWindow window now stamps
    if kept = [] then none else some kept

def recordRateLocked (cfg : SecurityCfg) (st : SecurityState) (ip : Bytes) (now : ℤ) : SecurityState :=
  if st.rates.lookup ip = none ∧ st.rates.free = none then st
  else
    let kept := pruneWindow cfg.rateWindowSec now ((st.rates.lookup ip).getD [])
    let t := if kept = [] then st.rates.release ip else st.rates
    { st with rates := t.put ip (if kept.length < rateStamps then kept ++ [now] else kept) }

/-- Whether a connection may proceed. -/
def banAccept (cfg : SecurityCfg) (st : SecurityState) (ip : Bytes) (now : ℤ) :
    SecurityState × Bool × List BanEvent :=
  if cfg.enabled = false ∨ ipValid ip = false then (st, true, [])
  else
    let r := banIsBanned cfg st ip now
    if r.2 then (r.1, false, [])
    else if cfg.rateLimit = 0 ∨ cfg.rateWindowSec = 0 then (r.1, true, [])
    else
      let kept := pruneWindow cfg.rateWindowSec now ((r.1.rates.lookup ip).getD [])
      if kept ≠ [] ∧ cfg.rateLimit ≤ kept.length then
        let q := applyBanLocked cfg { r.1 with rates := r.1.rates.put ip kept } ip (ofString "rate_limit") now
        (q.1, false, q.2)
      else (recordRateLocked cfg r.1 ip now, true, [])

def banTick (cfg : SecurityCfg) (st : SecurityState) (now : ℤ) : SecurityState :=
  if cfg.enabled = false then st
  else
    { bans := st.bans.sweep fun _ expireAt => if expireAt ≤ now then none else some expireAt
      callidBans := st.callidBans.sweep fun _ ban =>
        if ban.permanent = false ∧ 0 < ban.expireAt ∧ ban.expireAt ≤ now then none else some ban
      tracks := fun k => pruneTable (k.window cfg) now (st.tracks k)
      rates := pruneTable cfg.rateWindowSec now st.rates }

inductive SecurityOp
  | loginFail (ip : RemoteAddr) (transport : Bytes)
  | linkAuthFail (ip : RemoteAddr)
  | abuseReport (ip : RemoteAddr) (category : Bytes)
  | linkAuthFailCallid (callid : Bytes)
  | callidAbuseReport (callid category : Bytes)
  | accept (ip : RemoteAddr)
  | isBanned (ip : RemoteAddr)
  | callidIsBanned (callid : Bytes)
  | tick

/-- The entry a call counts against, and the reason of the ban it may lead to. -/
def SecurityOp.report (cfg : SecurityCfg) : SecurityOp → Option (Tracker × Bytes × Bytes)
  | .loginFail ip transport =>
    if cfg.enabled = false ∨ ipValid ip.text = false ∨ transportEnabled cfg transport = false then none
    else some (.fails, ip.text, ofString "login_fail")
  | .linkAuthFail ip =>
    if cfg.enabled = false ∨ ipValid ip.text = false ∨ cfg.circuit = false then none
    else some (.fails, ip.text, ofString "login_fail")
  | .abuseReport ip category =>
    if cfg.enabled = false ∨ ipValid ip.text = false then none
    else some (.abuse, ip.text, abuseReason category)
  | .linkAuthFailCallid callid =>
    if cfg.enabled = false ∨ cfg.circuit = false then none
    else (callidNormalize callid callidMax).map fun norm => (.callidFails, norm, ofString "link_auth_fail")
  | .callidAbuseReport callid category =>
    if cfg.enabled = false then none
    else (callidNormalize callid callidMax).map fun norm => (.callidAbuse, norm, abuseReason category)
  | _ => none

/-- `none` is a call that writes behind an array. -/
def securityStep (cfg : SecurityCfg) (st : SecurityState) (now : ℤ) (op : SecurityOp) :
    Option (SecurityState × List BanEvent) :=
  match op.report cfg with
  | some (k, key, reason) => recordLocked cfg k st key reason now
  | none => match op with
    | .accept ip =>
      let r := banAccept cfg st ip.text now
      some (r.1, r.2.2)
    | .isBanned ip => some ((banIsBanned cfg st ip.text now).1, [])
    | .callidIsBanned callid => some ((banCallidIsBanned cfg st callid now).1, [])
    | .tick => some (banTick cfg st now, [])
    | _ => some (st, [])

/-- A call at a clock reading. -/
structure TimedOp where
  now : ℤ
  op : SecurityOp

def securityRun (cfg : SecurityCfg) : SecurityState → List TimedOp → Option (SecurityState × List BanEvent)
  | st, [] => some (st, [])
  | st, c :: cs => do
    let (st', es) ← securityStep cfg st c.now c.op
    let (st'', fs) ← securityRun cfg st' cs
    some (st'', es ++ fs)

def comma : UInt8 := 0x2C

def clearPermanent (t : SlotTable Bytes CallidBan) : SlotTable Bytes CallidBan :=
  t.sweep fun _ ban => if ban.permanent then none else some ban

/-- The call-ids of a configured list, as far as they are valid. -/
def configuredCallids (list : Bytes) : List Bytes :=
  (((list.take (pathMax - 1)).splitOn comma).filter (· ≠ [])).filterMap fun token => callidNormalize token callidMax

def loadCallidBans (cfg : SecurityCfg) (st : SecurityState) (list : Bytes) (now : ℤ) : SecurityState :=
  (configuredCallids list).foldl (fun st norm => (applyCallidBanLocked cfg st norm (ofString "config") now true).1) st

def emptyTable (κ α : Type) (key : κ) (val : α) (size : ℕ) : SlotTable κ α := List.replicate size ⟨key, val, false⟩

/-- The zeroed tables of a fresh process. -/
def freshState : SecurityState where
  bans := emptyTable Bytes ℤ [] 0 securityBanMax
  callidBans := emptyTable Bytes CallidBan [] ⟨0, false⟩ securityBanMax
  tracks := fun _ => emptyTable Bytes (List ℤ) [] [] securityTrackMax
  rates := emptyTable Bytes (List ℤ) [] [] securityTrackMax

def banConfigApply (config : HybbxConfig) (st : SecurityState) (now : ℤ) : SecurityState :=
  let list := (configGet config (ofString "security") (ofString "ban_callid")).getD []
  loadCallidBans (banConfig config) { st with callidBans := clearPermanent st.callidBans } list now

end HyBBX.Security
