import HyBBX.Ardop.Host

/-! Who owns the sockets of the modem host: at the end of a stream its descriptor is closed and still held. -/

namespace HyBBX.Ardop

open HyBBX.Core Lib Lib.Bytes Lib.Text Lib.Descriptors

def RecvResult.isEof : RecvResult → Bool
  | .eof => true
  | _ => false

/-- A call reads the end of one of its streams. -/
def pollSeesEof (host : ArdopHost) (input : PollInput) : Bool :=
  host.ctrlFd.isSome && (input.ctrlReadable && host.ctrlRx.length < hostRxMax && input.ctrl.isEof ||
    host.dataFd.isSome && input.dataReadable && host.dataRx.length < hostRxMax && input.data.isEof)

inductive HostOp
  | connect (input : ConnectInput)
  | poll (input : PollInput)
  | disconnect

section Run

variable (sends : ℕ → Bool) (cfg : ArdopConfig)

def hostStep (host : ArdopHost) : HostOp → ArdopHost
  | .connect input => (ardopHostConnect sends cfg host input).2
  | .poll input => ardopHostPoll sends cfg host input
  | .disconnect => ardopHostDisconnect host

def hostRun (host : ArdopHost) (ops : List HostOp) : ArdopHost := ops.foldl (hostStep sends cfg) host

def spinSeesEof (polls : ℕ → PollInput) : ℕ → ℕ → ArdopHost → Bool
  | 0, _, _ => false
  | left + 1, spin, host =>
    pollSeesEof host (polls spin) ||
      let host := ardopHostPoll sends cfg host (polls spin)
      !host.tncReady && spinSeesEof polls left (spin + 1) host

def stepSeesEof (host : ArdopHost) : HostOp → Bool
  | .connect input =>
    let r := connectSockets cfg host input
    r.1 = .ok && spinSeesEof sends cfg input.polls 8 0 (sendInit sends cfg r.2)
  | .poll input => pollSeesEof host input
  | .disconnect => false

/-- Some read of the run returns the end of its stream. -/
def runSeesEof : ArdopHost → List HostOp → Bool
  | _, [] => false
  | host, op :: ops => stepSeesEof sends cfg host op || runSeesEof (hostStep sends cfg host op) ops

end Run

/-- The fields hold descriptors that are open, none was closed twice, and a control socket read to its end counts as
disconnected. -/
structure SocketsOwned (host : ArdopHost) : Prop where
  ctrl : ∀ fd, host.ctrlFd = some fd → fd ∈ host.ledger.owned
  data : ∀ fd, host.dataFd = some fd → fd ∈ host.ledger.owned
  once : host.ledger.Clean
  atEof : host.ctrlAtEof = true → ardopHostModemConnected host = false

/-- Two different open descriptors, neither of them read to its end. -/
structure Holding (host : ArdopHost) : Prop where
  ctrl : ∀ fd, host.ctrlFd = some fd → fd ∈ host.ledger.owned
  data : ∀ fd, host.dataFd = some fd → fd ∈ host.ledger.owned
  apart : ∀ fd, host.ctrlFd = some fd → host.dataFd ≠ some fd
  clean : host.ledger.Clean
  open' : host.ctrlAtEof = false

lemma Holding.owned {host : ArdopHost} (h : Holding host) : SocketsOwned host :=
  ⟨h.ctrl, h.data, h.clean, fun heof => absurd (h.open'.symm.trans heof) Bool.false_ne_true⟩

/-- A field holds a descriptor that is closed. -/
def Lost (host : ArdopHost) : Prop := ∃ fd, (host.ctrlFd = some fd ∨ host.dataFd = some fd) ∧ fd ∉ host.ledger.owned

lemma Lost.not_owned {host : ArdopHost} (h : Lost host) : ¬SocketsOwned host := by
  obtain ⟨fd, hfd, hclosed⟩ := h
  intro howned
  rcases hfd with hctrl | hdata
  · exact hclosed (howned.ctrl fd hctrl)
  · exact hclosed (howned.data fd hdata)

section Poll

variable {sends : ℕ → Bool} {cfg : ArdopConfig} {host host' : ArdopHost}

structure SameSockets (host host' : ArdopHost) : Prop where
  ctrlFd : host'.ctrlFd = host.ctrlFd
  dataFd : host'.dataFd = host.dataFd
  ledger : host'.ledger = host.ledger
  ctrlAtEof : host'.ctrlAtEof = host.ctrlAtEof

lemma SameSockets.refl (host : ArdopHost) : SameSockets host host := ⟨rfl, rfl, rfl, rfl⟩

lemma SameSockets.trans {host'' : ArdopHost} (h : SameSockets host host') (h' : SameSockets host' host'') :
    SameSockets host host'' :=
  ⟨h'.ctrlFd.trans h.ctrlFd, h'.dataFd.trans h.dataFd, h'.ledger.trans h.ledger, h'.ctrlAtEof.trans h.ctrlAtEof⟩

lemma SameSockets.holding (h : SameSockets host host') (hh : Holding host) : Holding host' := by
  obtain ⟨hctrl, hdata, hledger, heof⟩ := h
  refine ⟨?_, ?_, ?_, hledger ▸ hh.clean, heof ▸ hh.open'⟩
  · rw [hctrl, hledger]
    exact hh.ctrl
  · rw [hdata, hledger]
    exact hh.data
  · rw [hctrl, hdata]
    exact hh.apart

lemma Untouched.sameSockets (h : Untouched host host') : SameSockets host host' :=
    ⟨h.ctrlFd, h.dataFd, h.ledger, h.ctrlAtEof⟩

/-- Fields as before, and nothing opened. -/
structure OnlyCloses (host host' : ArdopHost) : Prop where
  ctrlFd : host'.ctrlFd = host.ctrlFd
  dataFd : host'.dataFd = host.dataFd
  owned : host'.ledger.owned ⊆ host.ledger.owned

lemma SameSockets.onlyCloses (h : SameSockets host host') : OnlyCloses host host' :=
  ⟨h.ctrlFd, h.dataFd, by rw [h.ledger]⟩

lemma OnlyCloses.trans {host'' : ArdopHost} (h : OnlyCloses host host') (h' : OnlyCloses host' host'') :
    OnlyCloses host host'' :=
  ⟨h'.ctrlFd.trans h.ctrlFd, h'.dataFd.trans h.dataFd, h'.owned.trans h.owned⟩

lemma OnlyCloses.lost (h : OnlyCloses host host') (hl : Lost host) : Lost host' := by
  obtain ⟨fd, hfd, hclosed⟩ := hl
  exact ⟨fd, by rw [h.ctrlFd, h.dataFd]; exact hfd, fun hmem => hclosed (h.owned hmem)⟩

lemma readInto_eof {buf : Bytes} {answer : RecvResult} :
    (readInto buf answer).2 = (decide (buf.length < hostRxMax) && answer.isEof) := by
  by_cases hfull : hostRxMax ≤ buf.length
  · have he : readInto buf answer = (buf, false) := if_pos hfull
    rw [he, decide_eq_false (not_lt.mpr hfull), Bool.false_and]
  · rw [decide_eq_true (not_le.mp hfull), Bool.true_and]
    cases answer with
    | bytes first more => exact congrArg Prod.snd (if_neg hfull)
    | eof => exact congrArg Prod.snd (if_neg hfull)
    | error => exact congrArg Prod.snd (if_neg hfull)

lemma closed_owned_subset (l : Ledger) (fd : ℕ) : (l.closed fd).owned ⊆ l.owned := fun _ h => (Ledger.mem_closed.mp h).2

lemma pollCtrl_sockets (fd : ℕ) (hfd : host.ctrlFd = some fd) (readable : Bool) (answer : RecvResult) :
    if readable && host.ctrlRx.length < hostRxMax && answer.isEof then
      OnlyCloses host (pollCtrl sends host fd readable answer) ∧ Lost (pollCtrl sends host fd readable answer)
    else SameSockets host (pollCtrl sends host fd readable answer) := by
  cases readable with
  | false => exact .refl host
  | true =>
    have honly := @processCtrlLoop_ctrlOnly sends (readCtrl host fd answer).ctrlRx.length (readCtrl host fd answer)
    have heof := @readInto_eof host.ctrlRx answer
    rw [Bool.true_and, ← heof]
    change if (readInto host.ctrlRx answer).2 then
      OnlyCloses host (processCtrlRx sends (readCtrl host fd answer)) ∧
        Lost (processCtrlRx sends (readCtrl host fd answer))
      else SameSockets host (processCtrlRx sends (readCtrl host fd answer))
    have hctrl : (processCtrlRx sends (readCtrl host fd answer)).ctrlFd = host.ctrlFd := honly.ctrlFd
    have hdata : (processCtrlRx sends (readCtrl host fd answer)).dataFd = host.dataFd := honly.dataFd
    split_ifs with hend
    · have hledger : (processCtrlRx sends (readCtrl host fd answer)).ledger = host.ledger.closed fd := by
        refine honly.ledger.trans ?_
        rw [readCtrl, hend]
        rfl
      refine ⟨⟨hctrl, hdata, ?_⟩, fd, .inl (hctrl.trans hfd), ?_⟩
      · rw [hledger]
        exact closed_owned_subset _ _
      · rw [hledger]
        exact fun hmem => (Ledger.mem_closed.mp hmem).1 rfl
    · have hno : (readInto host.ctrlRx answer).2 = false := by simpa using hend
      refine ⟨hctrl, hdata, honly.ledger.trans ?_, honly.ctrlAtEof.trans ?_⟩
      · rw [readCtrl, hno]
        rfl
      · rw [readCtrl, hno]
        exact Bool.or_false _

lemma pollData_sockets (readable : Bool) (answer : RecvResult) :
    if host.dataFd.isSome && readable && host.dataRx.length < hostRxMax && answer.isEof then
      OnlyCloses host (pollData sends host readable answer) ∧ Lost (pollData sends host readable answer)
    else SameSockets host (pollData sends host readable answer) := by
  cases hfd : host.dataFd with
  | none =>
    have he : pollData sends host readable answer = host := by rw [pollData, hfd]
    rw [he]
    exact .refl host
  | some fd =>
    cases readable with
    | false =>
      have he : pollData sends host false answer = host := by
        rw [pollData, hfd]
        rfl
      rw [he]
      exact .refl host
    | true =>
      have he : pollData sends host true answer = processDataRx sends (readData host fd answer) := by
        rw [pollData, hfd]
        rfl
      have honly := @processDataLoop_dataOnly sends (readData host fd answer).dataRx.length (readData host fd answer)
      have heof := @readInto_eof host.dataRx answer
      rw [he, Option.isSome_some, Bool.true_and, Bool.true_and, ← heof]
      have hctrl : (processDataRx sends (readData host fd answer)).ctrlFd = host.ctrlFd := honly.ctrlFd
      have hdata : (processDataRx sends (readData host fd answer)).dataFd = host.dataFd := honly.dataFd
      split_ifs with hend
      · have hledger : (processDataRx sends (readData host fd answer)).ledger = host.ledger.closed fd := by
          refine honly.ledger.trans ?_
          rw [readData, hend]
          rfl
        refine ⟨⟨hctrl, hdata, ?_⟩, fd, .inr (hdata.trans hfd), ?_⟩
        · rw [hledger]
          exact closed_owned_subset _ _
        · rw [hledger]
          exact fun hmem => (Ledger.mem_closed.mp hmem).1 rfl
      · have hno : (readInto host.dataRx answer).2 = false := by simpa using hend
        refine ⟨hctrl, hdata, honly.ledger.trans ?_, honly.ctrlAtEof⟩
        rw [readData, hno]
        rfl

lemma pollCtrl_dataRx (fd : ℕ) (readable : Bool) (answer : RecvResult) :
    (pollCtrl sends host fd readable answer).dataRx = host.dataRx := by
  rw [pollCtrl]
  split_ifs
  · exact (processCtrlLoop_ctrlOnly _ _).dataRx
  · rfl

/-- A call loses a descriptor exactly if it reads the end of a stream. -/
lemma poll_sockets (host : ArdopHost) (input : PollInput) :
    if pollSeesEof host input then
      OnlyCloses host (ardopHostPoll sends cfg host input) ∧ Lost (ardopHostPoll sends cfg host input)
    else SameSockets host (ardopHostPoll sends cfg host input) := by
  rw [ardopHostPoll, pollSeesEof, PollInput.ctrlReadable, PollInput.dataReadable]
  cases hfd : host.ctrlFd with
  | none => exact .refl host
  | some fd =>
    cases hready : input.ready with
    | none =>
      simp only [Option.any_none, Bool.false_and, Bool.and_false, Bool.or_false, Bool.false_eq_true, if_false]
      exact (initWhenReady_untouched cfg host).sameSockets
    | some flags =>
      obtain ⟨ctrlIn, dataIn⟩ := flags
      have hctrl := @pollCtrl_sockets sends host fd hfd ctrlIn input.ctrl
      have hdata := @pollData_sockets sends (pollCtrl sends host fd ctrlIn input.ctrl) dataIn input.data
      have hinit := (@initWhenReady_untouched sends cfg
        (pollData sends (pollCtrl sends host fd ctrlIn input.ctrl) dataIn input.data)).sameSockets
      rw [pollCtrl_dataRx] at hdata
      have hsame : (pollCtrl sends host fd ctrlIn input.ctrl).dataFd = host.dataFd := by
        split_ifs at hctrl
        · exact hctrl.1.dataFd
        · exact hctrl.dataFd
      rw [hsame] at hdata
      rw [Option.isSome_some, Bool.true_and, Option.any_some, Option.any_some]
      cases hc : (ctrlIn && decide (host.ctrlRx.length < hostRxMax) && input.ctrl.isEof) with
      | true =>
        rw [hc, if_pos rfl] at hctrl
        rw [Bool.true_or, if_pos rfl]
        have hclose : OnlyCloses (pollCtrl sends host fd ctrlIn input.ctrl)
            (pollData sends (pollCtrl sends host fd ctrlIn input.ctrl) dataIn input.data) := by
          split_ifs at hdata
          · exact hdata.1
          · exact hdata.onlyCloses
        exact ⟨(hctrl.1.trans hclose).trans hinit.onlyCloses, hinit.onlyCloses.lost (hclose.lost hctrl.2)⟩
      | false =>
        rw [hc, if_neg Bool.false_ne_true] at hctrl
        rw [Bool.false_or]
        split_ifs at hdata ⊢
        · exact ⟨(hctrl.onlyCloses.trans hdata.1).trans hinit.onlyCloses, hinit.onlyCloses.lost hdata.2⟩
        · exact (hctrl.trans hdata).trans hinit

lemma poll_onlyCloses (host : ArdopHost) (input : PollInput) :
    OnlyCloses host (ardopHostPoll sends cfg host input) := by
  have h := @poll_sockets sends cfg host input
  split_ifs at h
  · exact h.1
  · exact h.onlyCloses

lemma spin_onlyCloses (polls : ℕ → PollInput) (left spin : ℕ) (host : ArdopHost) :
    OnlyCloses host (spinPolls sends cfg polls left spin host) := by
  induction left generalizing spin host with
  | zero => exact (SameSockets.refl host).onlyCloses
  | succ left ih =>
    rw [spinPolls]
    split_ifs
    · exact poll_onlyCloses host _
    · exact (poll_onlyCloses host _).trans (ih _ _)

lemma spin_sockets (polls : ℕ → PollInput) (left spin : ℕ) (host : ArdopHost) :
    if spinSeesEof sends cfg polls left spin host then Lost (spinPolls sends cfg polls left spin host)
    else SameSockets host (spinPolls sends cfg polls left spin host) := by
  induction left generalizing spin host with
  | zero => exact .refl host
  | succ left ih =>
    rw [spinSeesEof, spinPolls]
    have hone := @poll_sockets sends cfg host (polls spin)
    have hrest := ih (spin + 1) (ardopHostPoll sends cfg host (polls spin))
    cases hsees : pollSeesEof host (polls spin) with
    | true =>
      rw [hsees, if_pos rfl] at hone
      rw [Bool.true_or, if_pos rfl]
      split_ifs
      · exact hone.2
      · exact (spin_onlyCloses polls left (spin + 1) _).lost hone.2
    | false =>
      rw [hsees, if_neg Bool.false_ne_true] at hone
      rw [Bool.false_or]
      dsimp only
      by_cases hready : (ardopHostPoll sends cfg host (polls spin)).tncReady = true
      · simp only [hready, if_true, Bool.not_true, Bool.false_and, Bool.false_eq_true, if_false]
        exact hone
      · simp only [hready, Bool.not_false, Bool.true_and, Bool.false_eq_true, if_false]
        split_ifs at hrest ⊢
        · exact hrest
        · exact hone.trans hrest

end Poll

section Connect

variable {sends : ℕ → Bool} {cfg : ArdopConfig} {host : ArdopHost}

/-- Nothing is held and nothing has been closed that was not open. -/
structure Released (host : ArdopHost) : Prop where
  ctrl : host.ctrlFd = none
  data : host.dataFd = none
  clean : host.ledger.Clean

lemma Released.holding (h : Released host) (hopen : host.ctrlAtEof = false) : Holding host := by
  refine ⟨?_, ?_, ?_, h.clean, hopen⟩
  · intro fd hfd
    cases h.ctrl.symm.trans hfd
  · intro fd hfd
    cases h.data.symm.trans hfd
  · intro fd hfd
    cases h.ctrl.symm.trans hfd

lemma disconnect_released (h : Holding host) : Released (ardopHostDisconnect host) := by
  refine ⟨rfl, rfl, ?_⟩
  change ((host.ledger.release host.ctrlFd).release host.dataFd).Clean
  cases hctrl : host.ctrlFd with
  | none =>
    cases hdata : host.dataFd with
    | none => exact h.clean
    | some fd => exact Ledger.clean_closed_iff.mpr ⟨h.clean, h.data fd hdata⟩
  | some ctrl =>
    have hclean : (host.ledger.closed ctrl).Clean := Ledger.clean_closed_iff.mpr ⟨h.clean, h.ctrl ctrl hctrl⟩
    cases hdata : host.dataFd with
    | none => exact hclean
    | some data =>
      refine Ledger.clean_closed_iff.mpr ⟨hclean, Ledger.mem_closed.mpr ⟨?_, h.data data hdata⟩⟩
      rintro rfl
      exact h.apart data hctrl hdata

/-- An attempt keeps what is owned, and its own descriptor is a new one. -/
lemma tcpConnect_spec {l : Ledger} (port : ℕ) (attempt : TcpTry) (hclean : l.Clean) :
    (tcpConnect l port attempt).1.Clean ∧ (∀ fd ∈ l.owned, fd ∈ (tcpConnect l port attempt).1.owned) ∧
      ∀ fd, (tcpConnect l port attempt).2 = some fd → fd ∉ l.owned ∧ fd ∈ (tcpConnect l port attempt).1.owned := by
  by_cases hport : port = 0
  · have he : tcpConnect l port attempt = (l, none) := if_pos hport
    rw [he]
    exact ⟨hclean, fun fd hfd => hfd, nofun⟩
  have he : ∀ other, tcpConnect l port other = tcpConnect l 1 other := fun other =>
    (if_neg hport).trans (if_neg one_ne_zero).symm
  rw [he]
  cases attempt with
  | noSocket => exact ⟨hclean, fun fd hfd => hfd, nofun⟩
  | failed want =>
    refine ⟨Ledger.clean_closed_iff.mpr ⟨hclean, Ledger.mem_opened.mpr (.inl rfl)⟩, ?_, nofun⟩
    intro fd hfd
    refine Ledger.mem_closed.mpr ⟨?_, Ledger.mem_opened.mpr (.inr hfd)⟩
    rintro rfl
    exact Ledger.fresh_notMem hfd
  | connected want =>
    refine ⟨hclean, fun fd hfd => Ledger.mem_opened.mpr (.inr hfd), ?_⟩
    intro fd hfd
    cases hfd
    exact ⟨Ledger.fresh_notMem, Ledger.mem_opened.mpr (.inl rfl)⟩

lemma connectSockets_holding (h : Holding host) (input : ConnectInput) : Holding (connectSockets cfg host input).2 := by
  have hfree := disconnect_released h
  have hopen : (ardopHostDisconnect host).ctrlAtEof = false := h.open'
  revert hfree hopen
  rw [connectSockets]
  generalize ardopHostDisconnect host = idle
  generalize (if cfg.ardopPort = 0 then ardopDefaultPort else cfg.ardopPort) = port
  intro hfree hopen
  have hctrl := tcpConnect_spec port input.ctrl hfree.clean
  revert hctrl
  dsimp only
  generalize tcpConnect idle.ledger port input.ctrl = ctrl
  rintro ⟨hclean, -, hnew⟩
  by_cases hno : ctrl.2 = none
  · rw [if_pos hno]
    exact Released.holding ⟨hno, hfree.data, hclean⟩ hopen
  rw [if_neg hno]
  have hdata := tcpConnect_spec ((port + 1) % 2 ^ 32) input.data hclean
  revert hdata
  generalize tcpConnect ctrl.1 ((port + 1) % 2 ^ 32) input.data = data
  rintro ⟨hclean', hkept, hnew'⟩
  have hboth : Holding { idle with ledger := data.1, ctrlFd := ctrl.2, dataFd := data.2, ctrlAtEof := false } := by
    refine ⟨fun fd hfd => hkept fd (hnew fd hfd).2, fun fd hfd => (hnew' fd hfd).2, ?_, hclean', rfl⟩
    intro fd hfd hfd'
    exact (hnew' fd hfd').1 (hnew fd hfd).2
  split_ifs
  · exact (disconnect_released hboth).holding rfl
  · exact ⟨hboth.ctrl, hboth.data, hboth.apart, hboth.clean, rfl⟩

end Connect

section Runs

variable (sends : ℕ → Bool) (cfg : ArdopConfig)

/-- What an operation does to the sockets: it loses one exactly if it reads the end of a stream. -/
lemma step_sockets {host : ArdopHost} (h : Holding host) (op : HostOp) :
    if stepSeesEof sends cfg host op then Lost (hostStep sends cfg host op) else Holding (hostStep sends cfg host op) := by
  cases op with
  | connect input =>
    have hconnect := @connectSockets_holding cfg host h input
    rw [stepSeesEof, hostStep, ardopHostConnect]
    revert hconnect
    generalize connectSockets cfg host input = r
    obtain ⟨result, connected⟩ := r
    intro hconnect
    cases result with
    | ok =>
      have hinit := (@sendInit_untouched sends cfg connected).sameSockets.holding hconnect
      have hspin := @spin_sockets sends cfg input.polls 8 0 (sendInit sends cfg connected)
      dsimp only
      rw [decide_eq_true rfl, Bool.true_and]
      split_ifs at hspin ⊢
      · exact hspin
      · exact hspin.holding hinit
    | _ => exact hconnect
  | poll input =>
    have hpoll := @poll_sockets sends cfg host input
    rw [stepSeesEof, hostStep]
    split_ifs at hpoll ⊢
    · exact hpoll.2
    · exact hpoll.holding h
  | disconnect => exact (disconnect_released h).holding h.open'

lemma run_sockets (ops : List HostOp) (host : ArdopHost) (h : Holding host) :
    (∀ before, before <+: ops → SocketsOwned (hostRun sends cfg host before)) ↔
      runSeesEof sends cfg host ops = false := by
  induction ops generalizing host with
  | nil =>
    refine ⟨fun _ => rfl, ?_⟩
    intro _ before hbefore
    rw [List.prefix_nil.mp hbefore]
    exact h.owned
  | cons op ops ih =>
    have hstep := step_sockets sends cfg h op
    rw [runSeesEof]
    cases hsees : stepSeesEof sends cfg host op with
    | true =>
      rw [hsees, if_pos rfl] at hstep
      rw [Bool.true_or]
      refine ⟨?_, fun hfalse => absurd hfalse.symm Bool.false_ne_true⟩
      intro hall
      exact absurd (hall [op] ⟨ops, rfl⟩) hstep.not_owned
    | false =>
      rw [hsees, if_neg Bool.false_ne_true] at hstep
      rw [Bool.false_or, ← ih _ hstep]
      constructor
      · intro hall before hbefore
        exact hall (op :: before) (List.cons_prefix_cons.mpr ⟨rfl, hbefore⟩)
      · intro hall before hbefore
        cases before with
        | nil => exact h.owned
        | cons other before =>
          obtain ⟨rfl, htail⟩ := List.cons_prefix_cons.mp hbefore
          exact hall before htail

/-- The sockets are owned throughout a run exactly if no stream ends in it. -/
theorem sockets_owned_iff (ops : List HostOp) :
    (∀ before, before <+: ops → SocketsOwned (hostRun sends cfg ardopHostCreate before)) ↔
      runSeesEof sends cfg ardopHostCreate ops = false :=
  run_sockets sends cfg ops ardopHostCreate (Released.holding ⟨rfl, rfl, rfl⟩ rfl)

end Runs

/-- Connects, finds the modem gone, and is still connected; disconnecting then closes its descriptor again. -/
theorem eof_keeps_descriptor :
    let cfg : ArdopConfig := ⟨0, none, none, none, false⟩
    let idle : PollInput := ⟨none, .error, .error⟩
    let gone : PollInput := ⟨some (true, false), .eof, .error⟩
    let host := hostRun (fun _ => true) cfg ardopHostCreate [.connect ⟨.connected 5, .connected 6, fun _ => idle⟩, .poll gone]
    host.ctrlAtEof = true ∧ ardopHostModemConnected host = true ∧ host.ctrlFd = some 5 ∧ host.ledger = ⟨{6}, []⟩ ∧
      ¬SocketsOwned host ∧ (ardopHostDisconnect host).ledger = ⟨∅, [5]⟩ := by
  intro cfg idle gone host
  exact ⟨by decide +kernel, by decide +kernel, by decide +kernel, by decide +kernel,
    Lost.not_owned ⟨5, .inl (by decide +kernel), by decide +kernel⟩, by decide +kernel⟩

end HyBBX.Ardop
