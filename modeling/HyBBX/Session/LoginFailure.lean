import HyBBX.Command.AccountCommands
import HyBBX.Security.Ban
import HyBBX.Session.Accounting

/-! Failed logins of a connected session, and what the ban tables are told of them. -/

namespace HyBBX.Session

open HyBBX.Core HyBBX.Storage HyBBX.Security Lib Lib.Bytes Lib.Text
open HyBBX.Command (argOf guestSlotFromUsername)

/-- The name of a peer as the socket layer gives it. -/
structure PeerName where
  text : Bytes
  valid : ipValid text = true
  string : 0 ∉ text
  fits : text.length < remoteAddrMax

def sessionSetRemote (svc : NodeService) (handle : ℕ) (remote : Bytes) : NodeService :=
  match svc.sessions.lookup handle with
  | none => svc
  | some core => svc.setCore handle { core with record := { core.record with remote := CText.copy remote } }

/-- The service, and the peers behind the handles of its sessions. -/
structure Connections where
  svc : NodeService
  peers : List (ℕ × PeerName)

/-- A client thread opens its session and then names the peer. -/
def connect (cfg : ServiceConfig) (call : OpenCall) (peer : PeerName) (st : Connections) : Connections :=
  match sessionOpen cfg call st.svc with
  | (svc, .ok) => ⟨sessionSetRemote svc st.svc.nextHandle peer.text, (st.svc.nextHandle, peer) :: st.peers⟩
  | (svc, _) => ⟨svc, st.peers⟩

def NodeService.findRegisteredSession (svc : NodeService) (userId exclude : ℕ) : Bool :=
  userId ≠ 0 && svc.sessions.any fun p =>
    p.1 ≠ exclude && p.2.loggedIn && !p.2.isGuest && p.2.record.userId = userId

/-- What a login is given: its arguments, the accounts, and the storage's answer to a new session. -/
structure LoginInput where
  argv : List Bytes
  find : Bytes → Except HybbxResult UserRecord
  answer : BeginAnswer
  now : Int64

def LoginInput.username (input : LoginInput) : Bytes := (CText.copy (argOf input.argv 0) : CText userNameMax).lower.text

/-- What the ban tables are told of a password that does not match. -/
def loginFailed (svc : NodeService) (handle : ℕ) : List SecurityOp :=
  match svc.sessions.lookup handle with
  | none => []
  | some core =>
    if core.record.remote.text = [] then []
    else [.loginFail ⟨core.record.remote.text, core.record.remote.fits⟩ core.record.transport.text]

def cmdLogin (cfg : ServiceConfig) (backend : HashBackend) (handle : ℕ) (input : LoginInput) (svc : NodeService) :
    NodeService × List SecurityOp :=
  if argOf input.argv 0 = [] then (svc, [])
  else if guestSlotFromUsername cfg.guestPrefix.text input.username then (svc, [])
  else if argOf input.argv 1 = [] then (svc, [])
  else match input.find input.username with
    | .error _ => (svc, [])
    | .ok user =>
      if user.level = .guest then (svc, [])
      else if user.active = false then (svc, [])
      else if user.password.text = [] then (svc, [])
      else if passwordMatch backend user.password.text (argOf input.argv 1) = false then (svc, loginFailed svc handle)
      else if svc.findRegisteredSession user.id handle then (svc, [])
      else ((sessionSwitchUser cfg handle user input.answer input.now svc).1, [])

inductive ConnectionOp
  | connect (call : OpenCall) (peer : PeerName)
  | login (handle : ℕ) (input : LoginInput)
  | close (handle : ℕ)

def connectionStep (cfg : ServiceConfig) (backend : HashBackend) (st : Connections) :
    ConnectionOp → Connections × List SecurityOp
  | .connect call peer => (connect cfg call peer st, [])
  | .login handle input =>
    let r := cmdLogin cfg backend handle input st.svc
    (⟨r.1, st.peers⟩, r.2)
  | .close handle => (⟨sessionClose handle st.svc, st.peers⟩, [])

def connectionRun (cfg : ServiceConfig) (backend : HashBackend) (ops : List ConnectionOp) : Connections :=
  (Transducer.run (connectionStep cfg backend) ⟨.start, []⟩ ops).1

/-- A login that names an account in use and gives another password than the account has. -/
structure WrongPassword (cfg : ServiceConfig) (backend : HashBackend) (input : LoginInput) (user : UserRecord) : Prop where
  named : argOf input.argv 0 ≠ []
  account : guestSlotFromUsername cfg.guestPrefix.text input.username = false
  given : argOf input.argv 1 ≠ []
  found : input.find input.username = .ok user
  level : user.level ≠ .guest
  active : user.active = true
  password : user.password.text ≠ []
  wrong : passwordMatch backend user.password.text (argOf input.argv 1) = false

section Known

variable {cfg : ServiceConfig} {backend : HashBackend}

/-- What the record of a session says of its peer. -/
def Known (core : SessionCore) (peer : PeerName) : Prop :=
  if core.isGuest then core.record.transport.text = core.transport.name ∧ core.record.remote.text = peer.text
  else core.record.transport.text = [] ∨ core.record.remote.text = []

structure PeersKnown (st : Connections) : Prop where
  fresh : ∀ p ∈ st.svc.sessions, p.1 < st.svc.nextHandle
  known : ∀ p ∈ st.svc.sessions, ∃ peer, st.peers.lookup p.1 = some peer ∧ Known p.2 peer

lemma mem_setCore {svc : NodeService} {handle : ℕ} {core : SessionCore} {p : ℕ × SessionCore}
    (h : p ∈ (svc.setCore handle core).sessions) : p = (handle, core) ∨ p ∈ svc.sessions ∧ p.1 ≠ handle := by
  obtain ⟨q, hq, rfl⟩ := List.mem_map.mp h
  split_ifs with hk
  · exact .inl rfl
  · exact .inr ⟨hq, hk⟩

lemma mem_of_lookup {svc : NodeService} {handle : ℕ} {core : SessionCore} (h : svc.sessions.lookup handle = some core) :
    (handle, core) ∈ svc.sessions := by
  obtain ⟨a, b, hs, -⟩ := List.lookup_eq_some_iff.mp h
  simp [hs]

lemma Started.known {call : OpenCall} {inUse inUse' : ℕ → Bool} {core : SessionCore}
    (h : Started cfg call inUse inUse' core)
    (peer : PeerName) : Known { core with record := { core.record with remote := CText.copy peer.text } } peer := by
  cases h with
  | prompt hauto => exact .inl rfl
  | guest hauto hpos hmax hfree hguest hslot hname htransport hrecord hremote =>
    have hg : ({ core with record := { core.record with remote := CText.copy peer.text } } : SessionCore).isGuest = true :=
      hguest
    rw [Known, if_pos hg]
    refine ⟨?_, CText.copy_text peer.string peer.fits⟩
    dsimp only
    rw [hrecord, htransport]
    cases call.transport <;> rfl

lemma PeersKnown.connect {st : Connections} (h : PeersKnown st) (call : OpenCall) (peer : PeerName) :
    PeersKnown (connect cfg call peer st) := by
  have hpeers : ∀ p ∈ st.svc.sessions, ∃ q, ((st.svc.nextHandle, peer) :: st.peers).lookup p.1 = some q ∧
      Known p.2 q := by
    intro p hp
    rw [List.lookup_cons, beq_false_of_ne (Nat.ne_of_lt (h.fresh p hp))]
    exact h.known p hp
  rw [Session.connect]
  obtain ⟨rc, hs⟩ | ⟨inUse, core, -, -, hstart, hs⟩ := sessionOpen_cases cfg call st.svc
  · rw [hs]
    cases rc with
    | ok =>
      have hnone : st.svc.sessions.lookup st.svc.nextHandle = none := by
        rw [List.lookup_eq_none_iff]
        intro p hp
        exact bne_iff_ne.mpr (Nat.ne_of_gt (h.fresh p hp))
      have hremote : sessionSetRemote st.svc st.svc.nextHandle peer.text = st.svc := by rw [sessionSetRemote, hnone]
      dsimp only
      rw [hremote]
      exact ⟨h.fresh, hpeers⟩
    | _ => exact h
  · rw [hs]
    have hlookup : (attachSession { st.svc with guestInUse := inUse, activeNodes := st.svc.activeNodes + 1 } core).sessions.lookup
        st.svc.nextHandle = some core := by
      rw [attachSession, List.lookup_cons, beq_self_eq_true]
    dsimp only
    rw [sessionSetRemote, hlookup]
    dsimp only
    constructor
    · intro p hp
      obtain rfl | ⟨hp, hk⟩ := mem_setCore hp
      · exact Nat.lt_succ_self _
      · rcases List.mem_cons.mp hp with rfl | hp
        · exact absurd rfl hk
        · exact Nat.lt_succ_of_lt (h.fresh p hp)
    · intro p hp
      obtain rfl | ⟨hp, hk⟩ := mem_setCore hp
      · exact ⟨peer, by rw [List.lookup_cons, beq_self_eq_true], hstart.known peer⟩
      · rcases List.mem_cons.mp hp with rfl | hp
        · exact absurd rfl hk
        · exact hpeers p hp

lemma releaseNode_sessions (svc : NodeService) :
    (releaseNode svc).sessions = svc.sessions ∧ (releaseNode svc).nextHandle = svc.nextHandle := by
  rw [releaseNode]
  split_ifs <;> exact ⟨rfl, rfl⟩

lemma releaseGuestSlot_sessions (svc : NodeService) (core : SessionCore) :
    (releaseGuestSlot svc core).1.sessions = svc.sessions ∧ (releaseGuestSlot svc core).1.nextHandle = svc.nextHandle ∧
      (releaseGuestSlot svc core).2 = { core with guestSlot := 0 } := by
  rw [releaseGuestSlot]
  split_ifs with h
  · exact ⟨rfl, rfl, by rw [← h]⟩
  · rw [guestRelease]
    split_ifs <;> exact ⟨rfl, rfl, rfl⟩

lemma PeersKnown.close {st : Connections} (h : PeersKnown st) (handle : ℕ) :
    PeersKnown ⟨sessionClose handle st.svc, st.peers⟩ := by
  have hsub : (sessionClose handle st.svc).sessions ⊆ st.svc.sessions ∧
      (sessionClose handle st.svc).nextHandle = st.svc.nextHandle := by
    rw [sessionClose]
    cases st.svc.sessions.lookup handle with
    | none => exact ⟨List.Subset.refl _, rfl⟩
    | some core =>
      obtain ⟨hrelease, hnext, -⟩ := releaseGuestSlot_sessions st.svc core
      dsimp only
      rw [(releaseNode_sessions _).1, (releaseNode_sessions _).2, detachSession, hrelease, hnext]
      exact ⟨List.eraseP_subset, rfl⟩
  constructor
  · intro p hp
    rw [hsub.2]
    exact h.fresh p (hsub.1 hp)
  · exact fun p hp => h.known p (hsub.1 hp)

/-- A switch either leaves the record of the session alone or puts one without a remote address in its place. -/
lemma switchedCore_known {user : UserRecord} (hlevel : user.level ≠ .guest) (answer : BeginAnswer) (now : Int64)
    {core : SessionCore} {peer : PeerName} (h : Known core peer) :
    Known (switchedCore cfg user answer now { core with guestSlot := 0 }).1 peer := by
  rw [switchedCore]
  by_cases hstorage : cfg.storageOpen = false
  · rw [if_pos hstorage]
    exact h
  rw [if_neg hstorage]
  cases answer with
  | error rc => exact h
  | ok id =>
    rw [Known, if_neg (by simp [sessionBegin, Except.map, SessionCore.isGuest, hlevel])]
    exact .inr rfl

lemma PeersKnown.switchUser {st : Connections} (h : PeersKnown st) (handle : ℕ) (user : UserRecord)
    (answer : BeginAnswer)
    (now : Int64) : PeersKnown ⟨(sessionSwitchUser cfg handle user answer now st.svc).1, st.peers⟩ := by
  rw [sessionSwitchUser]
  cases hl : st.svc.sessions.lookup handle with
  | none => exact h
  | some core =>
    by_cases hlevel : user.level = .guest
    · dsimp only
      rw [if_pos hlevel]
      exact h
    obtain ⟨hsessions, hnext, hcore⟩ := releaseGuestSlot_sessions st.svc core
    have hmem := mem_of_lookup hl
    dsimp only
    rw [if_neg hlevel, hcore]
    constructor
    · intro p hp
      change p.1 < (releaseGuestSlot st.svc core).1.nextHandle
      rw [hnext]
      obtain rfl | ⟨hp, -⟩ := mem_setCore hp
      · exact h.fresh (handle, core) hmem
      · exact h.fresh p (hsessions ▸ hp)
    · intro p hp
      obtain rfl | ⟨hp, -⟩ := mem_setCore hp
      · obtain ⟨peer, hpeer, hknown⟩ := h.known _ hmem
        exact ⟨peer, hpeer, switchedCore_known hlevel answer now hknown⟩
      · exact h.known p (hsessions ▸ hp)

/-- A login either changes nothing or switches the session to another user. -/
lemma cmdLogin_cases (handle : ℕ) (input : LoginInput) (svc : NodeService) :
    (cmdLogin cfg backend handle input svc).1 = svc ∨
      ∃ user, (cmdLogin cfg backend handle input svc).1 =
          (sessionSwitchUser cfg handle user input.answer input.now svc).1 := by
  rw [cmdLogin]
  split_ifs
  · exact .inl rfl
  · exact .inl rfl
  · exact .inl rfl
  · cases input.find input.username with
    | error rc => exact .inl rfl
    | ok user =>
      dsimp only
      split_ifs
      · exact .inl rfl
      · exact .inl rfl
      · exact .inl rfl
      · exact .inl rfl
      · exact .inl rfl
      · exact .inr ⟨user, rfl⟩

lemma PeersKnown.step {st : Connections} (h : PeersKnown st) (op : ConnectionOp) :
    PeersKnown (connectionStep cfg backend st op).1 := by
  cases op with
  | connect call peer => exact h.connect call peer
  | login handle input =>
    rw [connectionStep]
    dsimp only
    obtain hsame | ⟨user, hswitch⟩ := @cmdLogin_cases cfg backend handle input st.svc
    · rw [hsame]
      exact h
    · rw [hswitch]
      exact h.switchUser handle user input.answer input.now
  | close handle => exact h.close handle

lemma peersKnown_run (ops : List ConnectionOp) : PeersKnown (connectionRun cfg backend ops) := by
  have hstart : PeersKnown ⟨.start, []⟩ := ⟨fun _ hp => (nomatch hp), fun _ hp => (nomatch hp)⟩
  exact Transducer.run_invariant (connectionStep cfg backend) (fun _ op hs => hs.step op) hstart ops

lemma cmdLogin_wrong {handle : ℕ} {input : LoginInput} {user : UserRecord} (h : WrongPassword cfg backend input user)
    (svc : NodeService) : (cmdLogin cfg backend handle input svc).2 = loginFailed svc handle := by
  rw [cmdLogin, if_neg h.named, if_neg (by simp [h.account]), if_neg h.given, h.found]
  dsimp only
  rw [if_neg h.level, if_neg (by simp [h.active]), if_neg h.password, if_pos h.wrong]

lemma transportEnabled_unnamed (sec : SecurityCfg) : transportEnabled sec [] = false := by
  rw [transportEnabled, if_pos (.inr rfl)]

lemma enabled_of_transportEnabled {sec : SecurityCfg} {transport : Bytes} (h : transportEnabled sec transport = true) :
    sec.enabled = true := by
  by_contra hoff
  rw [transportEnabled, if_pos (.inl (Bool.eq_false_of_not_eq_true hoff))] at h
  cases h

lemma report_loginFail {sec : SecurityCfg} {ip : RemoteAddr} {transport : Bytes} (hip : ipValid ip.text = true)
    (h : transportEnabled sec transport = true) :
    SecurityOp.report sec (.loginFail ip transport) = some (.fails, ip.text, ofString "login_fail") := by
  rw [SecurityOp.report, enabled_of_transportEnabled h, hip, h, if_neg (by decide)]

lemma report_unnamed (sec : SecurityCfg) (ip : RemoteAddr) : SecurityOp.report sec (.loginFail ip []) = none := by
  rw [SecurityOp.report, transportEnabled_unnamed, if_pos (.inr (.inr rfl))]

def plainBackend : HashBackend := ⟨fun _ => [], fun _ => []⟩

def annaLocked : UserRecord := { anna with password := CText.copy (ofString "ponyponypony") }

def annaAccounts (username : Bytes) : Except HybbxResult UserRecord :=
  if username = ofString "anna" then .ok annaLocked else .error .errNotFound

def wrongLogin : LoginInput := ⟨[ofString "anna", ofString "guessing"], annaAccounts, .ok 9, 0⟩

def rightLogin : LoginInput := ⟨[ofString "anna", ofString "ponyponypony"], annaAccounts, .ok 2, 0⟩

def tenOne : PeerName := ⟨ofString "10.0.0.1", by decide, by decide, by decide⟩

lemma wrongLogin_wrong (autoLogin : Bool) :
    WrongPassword { lobbyConfig with autoLogin := autoLogin } plainBackend wrongLogin annaLocked := by
  cases autoLogin <;> constructor <;> decide +kernel

end Known

end HyBBX.Session
