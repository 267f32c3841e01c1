import HyBBX.Circuit.Decoder
import HyBBX.Core.Types
import HyBBX.Lib.Descriptors
import HyBBX.Mains.ProxyPayload

/-! The mesh between Mains: eight peer slots, each with a descriptor, kept up by ticks and taken down as a whole. -/

namespace HyBBX.Mains

open HyBBX.Core Lib Lib.Bytes Lib.Descriptors Circuit

def meshReconnectMs : ℕ := 5000
def meshConnectAttempts : ℕ := 30
def meshMaxPeers : ℕ := 8
def circuitDefaultPort : ℕ := 7323

inductive ProxyWire
  | circuit
  | ax25
  deriving DecidableEq, Repr

structure MeshPeerConfig where
  circuitHost : Bytes
  circuitPort : ℕ
  linkId : Bytes
  linkPassword : Bytes
  wire : ProxyWire
  enabled : Bool
  deriving DecidableEq

structure MeshPeer where
  config : MeshPeerConfig
  fd : Option ℕ
  dec : CircuitDecoder
  reconnectMs : ℕ
  deriving DecidableEq

/-- A slot whose bytes are all zero: its descriptor is 0, which is a descriptor. -/
def zeroPeer : MeshPeer := ⟨⟨[], 0, [], [], .circuit, false⟩, some 0, circuitDecoderInit, 0⟩

/-- How an attempt to link ends: not connected, connected and refused, or linked. -/
inductive LinkTry
  | failed
  | denied (want : ℕ)
  | linked (want : ℕ)

/-- What the slots share. `tries` numbers the attempts to link. -/
structure MeshLinks where
  ledger : Ledger
  liveLinks : ℕ
  tries : ℕ
  messages : List ProxyMessage

structure MeshState where
  service : Bool
  active : Bool
  peers : List MeshPeer
  links : MeshLinks
  -- of the mesh that the module was started with
  peerCount : ℕ
  running : Bool
  tickMs : ℕ

def meshZero : MeshState :=
  ⟨false, false, List.replicate meshMaxPeers zeroPeer, ⟨.empty, 0, 0, []⟩, 0, false, 0⟩

def proxyPeerDisconnect (links : MeshLinks) (peer : MeshPeer) : MeshLinks × MeshPeer :=
  ({ links with ledger := links.ledger.release peer.fd, liveLinks := links.liveLinks - 1 },
    { peer with fd := none, reconnectMs := meshReconnectMs })

/-- What a poll of a peer's descriptor finds: nothing, or whether there is an error and whether there is something to
read. A read that fails returns nothing. -/
structure MeshPoll where
  revents : Option (Bool × Bool)
  read : Option Bytes

/-- The messages of the frames received. -/
def onMeshFrames (service : Bool) (frames : List CircuitFrame) : List ProxyMessage :=
  if service then
    frames.filterMap fun frame =>
      if frame.proto ≠ .proxyMail ∧ frame.proto ≠ .proxyChat then none else proxyDispatchPayload frame.proto frame.payload
  else []

section Links

-- how the attempt of each number ends, to the host and the port given
variable (connect : ℕ → Bytes → ℕ → LinkTry)

def connectAttempts (host : Bytes) (port : ℕ) : ℕ → MeshLinks → MeshPeer → HybbxResult × MeshLinks × MeshPeer
  | 0, links, peer => (.errIo, links, peer)
  | left + 1, links, peer =>
    let next := { links with tries := links.tries + 1 }
    match connect links.tries host port with
    | .failed => connectAttempts host port left next peer
    | .denied want =>
      let fd := links.ledger.fresh want
      connectAttempts host port left { next with ledger := (links.ledger.opened want).closed fd }
        { peer with fd := none, dec := circuitDecoderInit }
    | .linked want =>
      (.ok, { next with ledger := links.ledger.opened want, liveLinks := links.liveLinks + 1 },
        { peer with fd := some (links.ledger.fresh want), dec := circuitDecoderInit, reconnectMs := 0 })

def proxyPeerConnect (links : MeshLinks) (peer : MeshPeer) : HybbxResult × MeshLinks × MeshPeer :=
  let cfg := peer.config
  if cfg.enabled = false then (.ok, links, peer)
  else if cfg.wire = .ax25 then (.errUnsupported, links, peer)
  else if cfg.circuitHost = [] then (.ok, links, peer)
  else if cfg.linkId = [] ∨ cfg.linkPassword = [] then (.errInvalid, links, peer)
  else
    let port := if cfg.circuitPort = 0 then circuitDefaultPort else cfg.circuitPort
    connectAttempts connect cfg.circuitHost port meshConnectAttempts links peer

def startPeer (links : MeshLinks) (config : MeshPeerConfig) : MeshLinks × MeshPeer :=
  let peer : MeshPeer := ⟨config, none, circuitDecoderInit, 0⟩
  if config.enabled = false then (links, peer)
  else if config.circuitHost = [] then (links, peer)
  else (proxyPeerConnect connect links peer).2

def startPeers : MeshLinks → List MeshPeerConfig → MeshLinks × List MeshPeer
  | links, [] => (links, [])
  | links, config :: configs =>
    let first := startPeer connect links config
    let rest := startPeers first.1 configs
    (rest.1, first.2 :: rest.2)

def stopPeers (links : MeshLinks) (peers : List MeshPeer) : MeshLinks :=
  peers.foldl (fun links peer => (proxyPeerDisconnect links peer).1) links

/-- Every slot is taken down, whether it has been set up or not. `given` tells whether there is a mesh to mark. -/
def meshStop (s : MeshState) (given : Bool) : MeshState :=
  { s with
    service := false
    active := false
    peers := List.replicate meshMaxPeers zeroPeer
    links := { stopPeers s.links s.peers with liveLinks := 0 }
    running := s.running && !given }

/-- The peers of a mesh, no more than there are slots. -/
abbrev MeshConfig := { configs : List MeshPeerConfig // configs.length ≤ meshMaxPeers }

def meshStart (s : MeshState) (service : Bool) : Option MeshConfig → HybbxResult × MeshState
  | none => (.errInvalid, s)
  | some mesh =>
    let s := meshStop s true
    let up := startPeers connect s.links mesh.1
    let configured := mesh.1.any MeshPeerConfig.enabled
    (if configured then .ok else .errNotFound,
      { s with
        service := service
        active := configured
        peers := up.2 ++ s.peers.drop mesh.1.length
        links := up.1
        peerCount := mesh.1.length
        running := configured })

/-- A peer that is up: its descriptor is polled, and read if there is something to read. -/
def servePeer (service : Bool) (poll : MeshPoll) (links : MeshLinks) (peer : MeshPeer) : MeshLinks × MeshPeer :=
  match poll.revents with
  | none => (links, peer)
  | some (failed, readable) =>
    if failed then proxyPeerDisconnect links peer
    else if readable = false then (links, peer)
    else
      match poll.read with
      | none => proxyPeerDisconnect links peer
      | some [] => proxyPeerDisconnect links peer
      | some (first :: more) =>
        let fed := circuitDecoderFeed peer.dec ((first :: more).take 512)
        ({ links with messages := links.messages ++ onMeshFrames service fed.2 }, { peer with dec := fed.1 })

/-- A peer that is down waits for its next attempt. -/
def retryPeer (tickMs : ℕ) (links : MeshLinks) (peer : MeshPeer) : MeshLinks × MeshPeer :=
  if peer.config.circuitHost = [] then (links, peer)
  else if 0 < peer.reconnectMs then
    if tickMs ≠ 0 then (links, peer)
    else if 50 < peer.reconnectMs then (links, { peer with reconnectMs := peer.reconnectMs - 50 })
    else (proxyPeerConnect connect links { peer with reconnectMs := 0 }).2
  else (proxyPeerConnect connect links peer).2

def tickPeer (service : Bool) (tickMs : ℕ) (poll : MeshPoll) (links : MeshLinks) (peer : MeshPeer) :
    MeshLinks × MeshPeer :=
  if peer.config.enabled = false then (links, peer)
  else
    match peer.fd with
    | none => retryPeer connect tickMs links peer
    | some _ => servePeer service poll links peer

/-- The loop over the slots from slot `i` on. -/
def tickPeers (service : Bool) (peerCount tickMs : ℕ) (polls : ℕ → MeshPoll) :
    ℕ → MeshLinks → List MeshPeer → MeshLinks × List MeshPeer
  | _, links, [] => (links, [])
  | i, links, peer :: peers =>
    let first := if i < peerCount then tickPeer connect service tickMs (polls i) links peer else (links, peer)
    let rest := tickPeers service peerCount tickMs polls (i + 1) first.1 peers
    (rest.1, first.2 :: rest.2)

def meshTick (s : MeshState) (polls : ℕ → MeshPoll) : MeshState :=
  if s.running = false then s
  else
    let tickMs := if 1000 ≤ s.tickMs + 50 then 0 else s.tickMs + 50
    let ticked := tickPeers connect s.service s.peerCount tickMs polls 0 s.links s.peers
    { s with tickMs := tickMs, links := ticked.1, peers := ticked.2 }

inductive MeshOp
  | start (service : Bool) (mesh : Option MeshConfig)
  | tick (polls : ℕ → MeshPoll)
  | stop (given : Bool)

def meshStep (s : MeshState) : MeshOp → MeshState
  | .start service mesh => (meshStart connect s service mesh).2
  | .tick polls => meshTick connect s polls
  | .stop given => meshStop s given

def meshRun (s : MeshState) (ops : List MeshOp) : MeshState := ops.foldl (meshStep connect) s

end Links

/-! Who owns the descriptors of the mesh: peers that are up hold theirs, and slots never set up hold somebody else's. -/

/-- The peers that hold a descriptor they own. -/
def holders (s : MeshState) : ℕ :=
  (s.peers.take s.peerCount).countP fun peer => peer.fd.any fun fd => fd ∈ s.links.ledger.owned

/-- What has been closed was owned, and the links counted are those held. -/
def DescriptorsOwned (s : MeshState) : Prop := s.links.ledger.Clean ∧ (s.running = true → s.links.liveLinks = holders s)

/-- The operation takes the mesh down. -/
def MeshOp.stops : MeshOp → Bool
  | .start _ mesh => mesh.isSome
  | .tick _ => false
  | .stop _ => true

/-- The descriptors held, with their count. -/
structure Tallied (links : MeshLinks) (fds : List ℕ) : Prop where
  keeps : links.ledger.Keeps fds
  live : links.liveLinks = fds.length

lemma Tallied.perm {links : MeshLinks} {fds fds' : List ℕ} (h : Tallied links fds) (hperm : fds.Perm fds') :
    Tallied links fds' :=
  ⟨h.keeps.perm hperm, h.live.trans hperm.length_eq⟩

section Peer

variable {connect : ℕ → Bytes → ℕ → LinkTry} {links : MeshLinks} {peer : MeshPeer} {others : List ℕ}

/-- A peer was seen to, and nothing was closed that it did not hold. -/
structure Tended (links : MeshLinks) (others : List ℕ) (r : MeshLinks × MeshPeer) : Prop where
  tallied : Tallied r.1 (r.2.fd.toList ++ others)
  stray : r.1.ledger.stray = links.ledger.stray

lemma Tended.same (h : Tallied links (peer.fd.toList ++ others)) : Tended links others (links, peer) := ⟨h, rfl⟩

lemma Tended.after {links' : MeshLinks} {r : MeshLinks × MeshPeer} (h : Tended links' others r)
    (hstray : links'.ledger.stray = links.ledger.stray) : Tended links others r := ⟨h.tallied, h.stray.trans hstray⟩

/-- A peer that is up counts as a link, so the count goes down with it. -/
lemma disconnect_tended {fd : ℕ} (hfd : peer.fd = some fd) (h : Tallied links (peer.fd.toList ++ others)) :
    Tended links others (proxyPeerDisconnect links peer) := by
  obtain ⟨hkeeps, hlive⟩ := h
  rw [hfd] at hkeeps hlive
  rw [proxyPeerDisconnect, hfd]
  refine ⟨⟨hkeeps.close, ?_⟩, hkeeps.stray_close⟩
  simp [hlive]

/-- Of all the attempts, only the last one leaves a descriptor behind. -/
lemma connectAttempts_tended (host : Bytes) (port left : ℕ) (hfd : peer.fd = none) (h : Tallied links others) :
    Tended links others (connectAttempts connect host port left links peer).2 := by
  induction left generalizing links peer with
  | zero =>
    apply Tended.same
    rw [hfd]
    exact h
  | succ left ih =>
    rw [connectAttempts]
    cases connect links.tries host port with
    | failed => exact (@ih { links with tries := links.tries + 1 } peer hfd ⟨h.keeps, h.live⟩).after rfl
    | denied want =>
      have hopen := h.keeps.open want
      have hrest := @ih { links with
          ledger := (links.ledger.opened want).closed (links.ledger.fresh want)
          tries := links.tries + 1 } { peer with fd := none, dec := circuitDecoderInit } rfl ⟨hopen.close, h.live⟩
      exact hrest.after hopen.stray_close
    | linked want =>
      refine ⟨⟨h.keeps.open want, ?_⟩, rfl⟩
      simp [h.live]

lemma connect_tended (hfd : peer.fd = none) (h : Tallied links others) :
    Tended links others (proxyPeerConnect connect links peer).2 := by
  have hsame : Tended links others (links, peer) := by
    apply Tended.same
    rw [hfd]
    exact h
  rw [proxyPeerConnect]
  dsimp only
  split_ifs
  · exact hsame
  · exact hsame
  · exact hsame
  · exact hsame
  · exact connectAttempts_tended _ _ _ hfd h
  · exact connectAttempts_tended _ _ _ hfd h

lemma startPeer_tended (config : MeshPeerConfig) (h : Tallied links others) :
    Tended links others (startPeer connect links config) := by
  rw [startPeer]
  split_ifs
  · exact .same h
  · exact .same h
  · exact connect_tended rfl h

lemma servePeer_tended {fd : ℕ} (hfd : peer.fd = some fd) (service : Bool) (poll : MeshPoll)
    (h : Tallied links (peer.fd.toList ++ others)) : Tended links others (servePeer service poll links peer) := by
  rw [servePeer]
  cases poll.revents with
  | none => exact .same h
  | some flags =>
    obtain ⟨failed, readable⟩ := flags
    dsimp only
    split_ifs
    · exact disconnect_tended hfd h
    · exact .same h
    · match poll.read with
      | none => exact disconnect_tended hfd h
      | some [] => exact disconnect_tended hfd h
      | some (first :: more) => exact ⟨⟨h.keeps, h.live⟩, rfl⟩

lemma retryPeer_tended (hfd : peer.fd = none) (tickMs : ℕ) (h : Tallied links others) :
    Tended links others (retryPeer connect tickMs links peer) := by
  have hsame : ∀ ms, Tended links others (links, { peer with reconnectMs := ms }) := by
    intro ms
    apply Tended.same
    rw [hfd]
    exact h
  rw [retryPeer]
  split_ifs
  · exact hsame _
  · exact hsame _
  · exact hsame _
  · exact connect_tended hfd h
  · exact connect_tended hfd h

lemma tickPeer_tended (service : Bool) (tickMs : ℕ) (poll : MeshPoll) (h : Tallied links (peer.fd.toList ++ others)) :
    Tended links others (tickPeer connect service tickMs poll links peer) := by
  rw [tickPeer]
  split_ifs
  · exact .same h
  · cases hfd : peer.fd with
    | none =>
      rw [hfd] at h
      exact retryPeer_tended hfd tickMs h
    | some fd => exact servePeer_tended hfd service poll h

end Peer

section Slots

variable {connect : ℕ → Bytes → ℕ → LinkTry} {links : MeshLinks}

def fdsHeld (peers : List MeshPeer) : List ℕ := peers.flatMap fun peer => peer.fd.toList

lemma fdsHeld_cons (peer : MeshPeer) (peers : List MeshPeer) :
    fdsHeld (peer :: peers) = peer.fd.toList ++ fdsHeld peers := List.flatMap_cons

/-- Peers one behind the other: each is seen to while the others keep what they hold. -/
structure AllTended (links : MeshLinks) (others : List ℕ) (r : MeshLinks × List MeshPeer) : Prop where
  tallied : Tallied r.1 (fdsHeld r.2 ++ others)
  stray : r.1.ledger.stray = links.ledger.stray

lemma AllTended.cons {others : List ℕ} {first : MeshLinks × MeshPeer} {rest : MeshLinks × List MeshPeer}
    (hfirst : first.1.ledger.stray = links.ledger.stray)
    (hrest : AllTended first.1 (first.2.fd.toList ++ others) rest) :
    AllTended links others (rest.1, first.2 :: rest.2) := by
  refine ⟨hrest.tallied.perm ?_, hrest.stray.trans hfirst⟩
  rw [fdsHeld_cons, ← List.append_assoc]
  exact List.perm_append_comm.append_right others

lemma startPeers_tended (configs : List MeshPeerConfig) {others : List ℕ} (h : Tallied links others) :
    AllTended links others (startPeers connect links configs) ∧ (startPeers connect links configs).2.length =
      configs.length := by
  induction configs generalizing links others with
  | nil => exact ⟨⟨h, rfl⟩, rfl⟩
  | cons config configs ih =>
    have hfirst := @startPeer_tended connect links others config h
    have hrest := ih hfirst.tallied
    exact ⟨hrest.1.cons hfirst.stray, congrArg (· + 1) hrest.2⟩

lemma tickPeers_zero (service : Bool) (peerCount tickMs : ℕ) (polls : ℕ → MeshPoll) (i k : ℕ) :
    tickPeers connect service peerCount tickMs polls i links (List.replicate k zeroPeer) =
      (links, List.replicate k zeroPeer) := by
  induction k generalizing i with
  | zero => rfl
  | succ k ih =>
    have hfirst : (if i < peerCount then tickPeer connect service tickMs (polls i) links zeroPeer else (links, zeroPeer)) =
        (links, zeroPeer) := ite_self _
    rw [List.replicate_succ, tickPeers, hfirst, ih]

lemma tickPeers_tended (service : Bool) (peerCount tickMs : ℕ) (polls : ℕ → MeshPoll) (i k : ℕ) (up : List MeshPeer)
    {others : List ℕ} (h : Tallied links (fdsHeld up ++ others)) :
    ∃ up', (tickPeers connect service peerCount tickMs polls i links (up ++ List.replicate k zeroPeer)).2 =
        up' ++ List.replicate k zeroPeer ∧ up'.length = up.length ∧
      AllTended links others
        ((tickPeers connect service peerCount tickMs polls i links (up ++ List.replicate k zeroPeer)).1, up') := by
  induction up generalizing i links others with
  | nil =>
    rw [List.nil_append, tickPeers_zero]
    exact ⟨[], rfl, rfl, h, rfl⟩
  | cons peer up ih =>
    have hall : Tallied links (peer.fd.toList ++ (fdsHeld up ++ others)) := by
      rw [← List.append_assoc]
      exact h
    have hfirst : Tended links (fdsHeld up ++ others)
        (if i < peerCount then tickPeer connect service tickMs (polls i) links peer else (links, peer)) := by
      split_ifs
      · exact tickPeer_tended service tickMs (polls i) hall
      · exact .same hall
    rw [List.cons_append, tickPeers]
    revert hfirst
    generalize (if i < peerCount then tickPeer connect service tickMs (polls i) links peer else (links, peer)) = first
    intro hfirst
    have hperm : (first.2.fd.toList ++ (fdsHeld up ++ others)).Perm (fdsHeld up ++ (first.2.fd.toList ++ others)) := by
      rw [← List.append_assoc, ← List.append_assoc]
      exact List.perm_append_comm.append_right others
    obtain ⟨up', hpeers, hlength, hrest⟩ := ih (i + 1) (hfirst.tallied.perm hperm)
    exact ⟨first.2 :: up', congrArg (first.2 :: ·) hpeers, congrArg (· + 1) hlength, hrest.cons hfirst.stray⟩

lemma stopPeers_up (up : List MeshPeer) (h : links.ledger.Keeps (fdsHeld up)) :
    (stopPeers links up).ledger.Keeps [] ∧ (stopPeers links up).ledger.stray = links.ledger.stray := by
  induction up generalizing links with
  | nil => exact ⟨h, rfl⟩
  | cons peer up ih =>
    rw [fdsHeld_cons] at h
    have hfirst : (proxyPeerDisconnect links peer).1.ledger.Keeps (fdsHeld up) ∧
        (proxyPeerDisconnect links peer).1.ledger.stray = links.ledger.stray := by
      rw [proxyPeerDisconnect]
      cases hfd : peer.fd with
      | none =>
        rw [hfd] at h
        exact ⟨h, rfl⟩
      | some fd =>
        rw [hfd] at h
        exact ⟨h.close, h.stray_close⟩
    obtain ⟨hkeeps, hstray⟩ := ih hfirst.1
    exact ⟨hkeeps, hstray.trans hfirst.2⟩

/-- Every slot that was not set up closes descriptor 0. -/
lemma stopPeers_zero (k : ℕ) (h : links.ledger.Keeps []) :
    (stopPeers links (List.replicate k zeroPeer)).ledger.Keeps [] ∧
      (stopPeers links (List.replicate k zeroPeer)).ledger.stray = links.ledger.stray ++ List.replicate k 0 := by
  induction k generalizing links with
  | zero => exact ⟨h, (List.append_nil _).symm⟩
  | succ k ih =>
    have hfirst : (proxyPeerDisconnect links zeroPeer).1.ledger =
      { links.ledger with stray := links.ledger.stray ++ [0] } :=
      h.close_nil 0
    have hkeeps : (proxyPeerDisconnect links zeroPeer).1.ledger.Keeps [] := by
      rw [hfirst]
      exact ⟨h.nodup, h.mem⟩
    obtain ⟨hkeeps', hstray⟩ := ih hkeeps
    refine ⟨hkeeps', hstray.trans ?_⟩
    rw [hfirst, List.append_assoc]
    rfl

end Slots

/-- The first slots are set up and hold what is open; the others are zero. -/
structure Sound (s : MeshState) (up : List MeshPeer) (k : ℕ) : Prop where
  peers : s.peers = up ++ List.replicate k zeroPeer
  slots : up.length + k = meshMaxPeers
  count : up = [] ∨ up.length = s.peerCount
  tallied : Tallied s.links (fdsHeld up)

section State

variable {connect : ℕ → Bytes → ℕ → LinkTry} {s : MeshState} {up : List MeshPeer} {k : ℕ}

lemma meshZero_sound : Sound meshZero [] meshMaxPeers :=
  ⟨rfl, rfl, .inl rfl, ⟨List.nodup_nil, fun fd => iff_of_false (Finset.notMem_empty fd) List.not_mem_nil⟩, rfl⟩

lemma countP_held {l : Ledger} (peers : List MeshPeer) (h : ∀ fd ∈ fdsHeld peers, fd ∈ l.owned) :
    peers.countP (fun peer => peer.fd.any fun fd => fd ∈ l.owned) = (fdsHeld peers).length := by
  induction peers with
  | nil => rfl
  | cons peer peers ih =>
    rw [fdsHeld_cons] at h ⊢
    have hrest := ih fun fd hfd => h fd (List.mem_append_right _ hfd)
    rw [List.countP_cons, hrest, List.length_append, add_comm]
    congr 1
    cases hfd : peer.fd with
    | none => rfl
    | some fd =>
      rw [hfd] at h
      have hmem := h fd (List.mem_append_left _ List.mem_cons_self)
      simp [hmem]

lemma Sound.live_eq (h : Sound s up k) : s.links.liveLinks = holders s := by
  rw [holders, h.peers, h.tallied.live]
  rcases h.count with rfl | hcount
  · have hnone : ∀ fd, fd ∉ s.links.ledger.owned := fun fd hmem => List.not_mem_nil ((h.tallied.keeps.mem fd).mp hmem)
    refine (List.countP_eq_zero.mpr ?_).symm
    intro peer _
    cases peer.fd with
    | none => exact Bool.false_ne_true
    | some fd => simp [hnone fd]
  · rw [← hcount, List.take_left]
    exact (countP_held up fun fd hfd => (h.tallied.keeps.mem fd).mpr hfd).symm

/-- Taking the mesh down closes descriptor 0 once for every slot that has not been set up. -/
lemma meshStop_spec (h : Sound s up k) (given : Bool) :
    Sound (meshStop s given) [] meshMaxPeers ∧
      (meshStop s given).links.ledger.stray = s.links.ledger.stray ++ List.replicate k 0 := by
  have hup := stopPeers_up up h.tallied.keeps
  have hzero := stopPeers_zero k hup.1
  have he : stopPeers s.links s.peers = stopPeers (stopPeers s.links up) (List.replicate k zeroPeer) := by
    rw [h.peers]
    exact List.foldl_append
  rw [← he] at hzero
  refine ⟨⟨rfl, rfl, .inl rfl, ⟨hzero.1, rfl⟩⟩, hzero.2.trans ?_⟩
  rw [hup.2]

lemma meshStart_spec (h : Sound s up k) (service : Bool) (mesh : MeshConfig) :
    (∃ up', Sound (meshStart connect s service (some mesh)).2 up' (meshMaxPeers - mesh.1.length)) ∧
      (meshStart connect s service (some mesh)).2.links.ledger.stray = s.links.ledger.stray ++ List.replicate k 0 := by
  obtain ⟨hstop, hstray⟩ := meshStop_spec h true
  have hall : Tallied (meshStop s true).links (fdsHeld [] ++ []) := hstop.tallied
  obtain ⟨hup, hlength⟩ := @startPeers_tended connect (meshStop s true).links mesh.1 [] hall
  have htallied := hup.tallied
  rw [List.append_nil] at htallied
  refine ⟨⟨(startPeers connect (meshStop s true).links mesh.1).2, ?_, ?_, .inr hlength, htallied⟩,
    hup.stray.trans hstray⟩
  · exact congrArg (_ ++ ·) (List.drop_replicate ..)
  · rw [hlength]
    exact Nat.add_sub_cancel' mesh.2

lemma meshTick_spec (h : Sound s up k) (polls : ℕ → MeshPoll) :
    (∃ up', Sound (meshTick connect s polls) up' k) ∧ (meshTick connect s polls).links.ledger.stray =
      s.links.ledger.stray := by
  rw [meshTick]
  by_cases hrunning : s.running = false
  · rw [if_pos hrunning]
    exact ⟨⟨up, h⟩, rfl⟩
  rw [if_neg hrunning]
  have hall : Tallied s.links (fdsHeld up ++ []) := by
    rw [List.append_nil]
    exact h.tallied
  dsimp only
  obtain ⟨up', hpeers, hlength, hup⟩ := @tickPeers_tended connect s.links s.service s.peerCount
    (if 1000 ≤ s.tickMs + 50 then 0 else s.tickMs + 50) polls 0 k up [] hall
  rw [← h.peers] at hpeers hup
  have htallied := hup.tallied
  rw [List.append_nil] at htallied
  refine ⟨⟨up', hpeers, ?_, ?_, htallied⟩, hup.stray⟩
  · rw [hlength]
    exact h.slots
  · rcases h.count with rfl | hcount
    · exact .inl (List.eq_nil_of_length_eq_zero hlength)
    · exact .inr (hlength.trans hcount)

end State

section Runs

variable (connect : ℕ → Bytes → ℕ → LinkTry)

/-- What one operation does: it closes nothing but what is held, and descriptor 0. -/
lemma meshStep_spec {s : MeshState} {up : List MeshPeer} {k : ℕ} (h : Sound s up k) (op : MeshOp) :
    (∃ up' k', Sound (meshStep connect s op) up' k') ∧
      (meshStep connect s op).links.ledger.stray =
        s.links.ledger.stray ++ if op.stops then List.replicate k 0 else [] := by
  cases op with
  | start service mesh =>
    cases mesh with
    | none => exact ⟨⟨up, k, h⟩, (List.append_nil _).symm⟩
    | some mesh =>
      obtain ⟨⟨up', hup⟩, hstray⟩ := @meshStart_spec connect s up k h service mesh
      exact ⟨⟨up', _, hup⟩, hstray⟩
  | tick polls =>
    obtain ⟨⟨up', hup⟩, hstray⟩ := @meshTick_spec connect s up k h polls
    exact ⟨⟨up', k, hup⟩, hstray.trans (List.append_nil _).symm⟩
  | stop given =>
    obtain ⟨hstop, hstray⟩ := meshStop_spec h given
    exact ⟨⟨[], _, hstop⟩, hstray⟩

lemma meshRun_sound (ops : List MeshOp) {s : MeshState} {up : List MeshPeer} {k : ℕ} (h : Sound s up k)
    (hstray : ∀ fd ∈ s.links.ledger.stray, fd = 0) :
    (∃ up' k', Sound (meshRun connect s ops) up' k') ∧ ∀ fd ∈ (meshRun connect s ops).links.ledger.stray, fd = 0 := by
  induction ops generalizing s up k with
  | nil => exact ⟨⟨up, k, h⟩, hstray⟩
  | cons op ops ih =>
    obtain ⟨⟨up', k', hstep⟩, hmore⟩ := meshStep_spec connect h op
    apply ih hstep
    intro fd hfd
    rw [hmore] at hfd
    rcases List.mem_append.mp hfd with hold | hnew
    · exact hstray fd hold
    · split_ifs at hnew
      · exact List.eq_of_mem_replicate hnew
      · exact absurd hnew List.not_mem_nil

/-- Before the mesh is first started or stopped, nothing happens. -/
lemma meshStep_idle {op : MeshOp} (h : op.stops = false) : meshStep connect meshZero op = meshZero := by
  cases op with
  | start service mesh =>
    cases mesh with
    | none => rfl
    | some mesh => cases h
  | tick polls => rfl
  | stop given => cases h

/-- The first operation that takes the mesh down closes descriptor 0 for all the slots. -/
lemma meshRun_clean_iff (ops : List MeshOp) :
    (∀ before, before <+: ops → (meshRun connect meshZero before).links.ledger.Clean) ↔
      ∀ op ∈ ops, op.stops = false := by
  induction ops with
  | nil =>
    refine ⟨fun _ op hop => absurd hop List.not_mem_nil, ?_⟩
    intro _ before hbefore
    rw [List.prefix_nil.mp hbefore]
    rfl
  | cons op ops ih =>
    rw [List.forall_mem_cons]
    cases hop : op.stops with
    | true =>
      refine iff_of_false ?_ fun h => Bool.noConfusion h.1
      intro hall
      obtain ⟨-, hmore⟩ := meshStep_spec connect meshZero_sound op
      rw [hop] at hmore
      have hclean := (hmore.symm.trans (hall [op] ⟨ops, rfl⟩) : _ = [])
      exact absurd hclean (by decide)
    | false =>
      have hstep := meshStep_idle connect hop
      rw [eq_self, true_and, ← ih]
      constructor
      · intro hall before hbefore
        have h := hall (op :: before) (List.cons_prefix_cons.mpr ⟨rfl, hbefore⟩)
        rw [meshRun, List.foldl_cons, hstep] at h
        exact h
      · intro hall before hbefore
        cases before with
        | nil => rfl
        | cons other before =>
          obtain ⟨rfl, htail⟩ := List.cons_prefix_cons.mp hbefore
          rw [meshRun, List.foldl_cons, hstep]
          exact hall before htail

/-- Whatever the mesh does, the links counted are those held and only descriptor 0 is closed wrongly; everything closed
was owned exactly if the mesh is neither started nor stopped. -/
theorem mesh_owned_iff (ops : List MeshOp) :
    ((meshRun connect meshZero ops).links.liveLinks = holders (meshRun connect meshZero ops) ∧
        ∀ fd ∈ (meshRun connect meshZero ops).links.ledger.stray, fd = 0) ∧
      ((∀ before, before <+: ops → DescriptorsOwned (meshRun connect meshZero before)) ↔ ∀ op ∈ ops,
          op.stops = false) := by
  have hsound : ∀ before, (∃ up k, Sound (meshRun connect meshZero before) up k) ∧
      ∀ fd ∈ (meshRun connect meshZero before).links.ledger.stray, fd = 0 :=
    fun before => meshRun_sound connect before meshZero_sound fun fd hfd => absurd hfd List.not_mem_nil
  have hlive : ∀ before, (meshRun connect meshZero before).links.liveLinks =
      holders (meshRun connect meshZero before) := by
    intro before
    obtain ⟨⟨up, k, h⟩, -⟩ := hsound before
    exact h.live_eq
  refine ⟨⟨hlive ops, (hsound ops).2⟩, ?_⟩
  rw [← meshRun_clean_iff]
  constructor
  · intro hall before hbefore
    exact (hall before hbefore).1
  · intro hall before hbefore
    exact ⟨hall before hbefore, fun _ => hlive before⟩

end Runs

/-- Starting a mesh for the first time closes descriptor 0 eight times; stopping it closes it once for every slot that
its one peer does not take. -/
theorem zero_slots_close :
    let config : MeshPeerConfig := ⟨ofString "10.0.0.1", 0, ofString "east", ofString "secret", .circuit, true⟩
    let mesh : MeshConfig := ⟨[config], by decide⟩
    let ops : List MeshOp := [.start true (some mesh), .stop true]
    let s := meshRun (fun _ _ _ => .linked 7) meshZero ops
    s.links.ledger = ⟨∅, List.replicate 15 0⟩ ∧ ¬DescriptorsOwned s := by
  intro config mesh ops s
  have hledger : s.links.ledger = ⟨∅, List.replicate 15 0⟩ := by decide +kernel
  refine ⟨hledger, ?_⟩
  intro howned
  have hclean := howned.1
  rw [hledger] at hclean
  exact absurd hclean (by decide)

end HyBBX.Mains
