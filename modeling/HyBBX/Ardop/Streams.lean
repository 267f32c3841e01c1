import HyBBX.Ardop.Host
import HyBBX.Lib.Framing

/-! The two receive buffers of the modem host: commands cut anywhere, and buffers full of rubbish. -/

namespace HyBBX.Ardop

open HyBBX.Core Lib Lib.Bytes Lib.Text Lib.Descriptors Lib.Framing

/-- A command as the modem sends it. -/
structure CtrlLine where
  text : Bytes
  noCr : cr ∉ text
  fits : text.length ≤ 253

/-- The line, its carriage return and their sum. -/
def CtrlLine.encode (l : CtrlLine) : Bytes := l.text ++ [cr] ++ crcBytes (l.text ++ [cr])

/-- What a call reads into the control buffer. -/
def ctrlReceived (host : ArdopHost) (input : PollInput) : Bytes :=
  if host.ctrlFd = none ∨ input.ctrlReadable = false then []
  else (readInto host.ctrlRx input.ctrl).1.drop host.ctrlRx.length

section Runs

variable (sends : ℕ → Bool) (cfg : ArdopConfig)

def hostPolls (host : ArdopHost) (inputs : List PollInput) : ArdopHost := inputs.foldl (ardopHostPoll sends cfg) host

/-- All that a run of calls reads into the control buffer. -/
def received : ArdopHost → List PollInput → Bytes
  | _, [] => []
  | host, input :: inputs => ctrlReceived host input ++ received (ardopHostPoll sends cfg host input) inputs

/-- The control buffer is full, and nothing that comes is read into it or discarded from it. -/
def CtrlStuck (host : ArdopHost) : Prop :=
  host.ctrlRx.length = hostRxMax ∧ ∀ inputs, (hostPolls sends cfg host inputs).ctrlRx = host.ctrlRx

end Runs

/-- The bytes held fill the buffer, and none of them but the last two can end a command. -/
def NoEndIn (held : Bytes) : Prop := held.length = hostRxMax ∧ cr ∉ held.take (hostRxMax - 2)

section Front

variable {l : CtrlLine} {rest : Bytes}

lemma length_crcBytes (data : Bytes) : (crcBytes data).length = 2 := rfl

lemma length_encode (l : CtrlLine) : l.encode.length = l.text.length + 3 := by
  rw [CtrlLine.encode, List.length_append, length_crcBytes, List.length_append, List.length_singleton]

lemma idxOf_cr {text rest : Bytes} (h : cr ∉ text) : (text ++ cr :: rest).idxOf cr = text.length := by
  rw [List.idxOf_append_of_notMem h, List.idxOf_cons_self, Nat.add_zero]

lemma crcValid_encode (l : CtrlLine) : ardopCrc16Valid l.encode = true := by
  have hlen : l.encode.length - 2 = (l.text ++ [cr]).length := by
    rw [length_encode, List.length_append, List.length_singleton]
    omega
  have hshort : 3 ≤ l.encode.length := by
    rw [length_encode]
    exact Nat.le_add_left 3 _
  rw [ardopCrc16Valid, hlen, CtrlLine.encode, List.drop_left, List.take_left]
  rw [CtrlLine.encode] at hshort
  simp [length_crcBytes]

lemma ctrlFront_encode (l : CtrlLine) (rest : Bytes) : ctrlFront (l.encode ++ rest) = .message (cstr l.text) rest := by
  have hsplit : l.encode ++ rest = l.text ++ cr :: (crcBytes (l.text ++ [cr]) ++ rest) := by simp [CtrlLine.encode]
  have hidx : (l.encode ++ rest).idxOf cr = l.text.length := by rw [hsplit, idxOf_cr l.noCr]
  have hmem : cr ∈ l.encode ++ rest := by
    rw [hsplit]
    exact List.mem_append_right _ List.mem_cons_self
  have hlen : (l.encode ++ rest).idxOf cr + 1 + 2 = l.encode.length := by rw [hidx, length_encode]
  have hfits : ¬hostCmdMax + 8 < l.encode.length := by
    rw [length_encode]
    have := l.fits
    simp only [hostCmdMax]
    omega
  have htext : (l.encode ++ rest).take (l.encode.length - 3) = l.text := by
    rw [length_encode, Nat.add_sub_cancel, hsplit, List.take_left]
  have hshort : (cstr l.text).length < hostCmdMax := by
    have hle := (List.takeWhile_sublist (p := fun b : UInt8 => b ≠ 0) (l := l.text)).length_le
    have := l.fits
    rw [cstr]
    simp only [hostCmdMax]
    omega
  rw [ctrlFront, if_neg (not_not.mpr hmem)]
  dsimp only
  rw [hlen, if_neg (not_lt.mpr (by rw [List.length_append]; exact Nat.le_add_right _ _)), if_neg hfits, List.take_left,
    if_neg (by simp [crcValid_encode]), htext, strlcpy_of_fits hshort, List.drop_left]

lemma ctrlFront_part {part : Bytes} (h : Part CtrlLine.encode l part) : ctrlFront part = .incomplete := by
  rw [ctrlFront]
  by_cases hmem : cr ∈ part
  · rw [if_neg (not_not.mpr hmem)]
    obtain ⟨more, hmore⟩ := h.1
    have hidx : part.idxOf cr = l.text.length := by
      have hwhole : l.encode.idxOf cr = l.text.length := by
        rw [CtrlLine.encode, List.append_assoc, List.singleton_append, idxOf_cr l.noCr]
      rw [← hwhole, ← hmore, List.idxOf_append_of_mem hmem]
    have hlen := h.2
    rw [length_encode] at hlen
    dsimp only
    rw [hidx, if_pos (by omega)]
  · rw [if_pos hmem]

end Front

section Loop

variable {sends : ℕ → Bool} {host : ArdopHost}

/-- The loop handles the whole commands of its buffer in order and keeps the part behind them. -/
lemma processCtrlLoop_lines (lines : List CtrlLine) {next : CtrlLine} {part : Bytes}
    (hpart : Part CtrlLine.encode next part)
    (fuel : ℕ) (hfuel : host.ctrlRx.length ≤ fuel) (h : host.ctrlRx = lines.flatMap CtrlLine.encode ++ part) :
    (processCtrlLoop sends fuel host).ctrlRx = part ∧
      handledLines (processCtrlLoop sends fuel host).log = handledLines host.log ++ lines.map fun l => cstr l.text := by
  induction lines generalizing host fuel with
  | nil =>
    rw [List.flatMap_nil, List.nil_append] at h
    cases fuel with
    | zero => exact ⟨h, (List.append_nil _).symm⟩
    | succ fuel =>
      rw [processCtrlLoop, h, ctrlFront_part hpart]
      exact ⟨h, (List.append_nil _).symm⟩
  | cons l lines ih =>
    rw [List.flatMap_cons, List.append_assoc] at h
    have hpos : 3 ≤ host.ctrlRx.length := by
      rw [h, List.length_append, length_encode]
      omega
    obtain ⟨fuel, rfl⟩ : ∃ n, fuel = n + 1 := ⟨fuel - 1, by omega⟩
    rw [processCtrlLoop, h, ctrlFront_encode]
    obtain ⟨hrx, hlog⟩ := @ih { handleCtrlLine sends host (cstr l.text) with
      ctrlRx := lines.flatMap CtrlLine.encode ++ part } fuel (by
        rw [h, List.length_append, length_encode] at hfuel
        dsimp only
        omega) rfl
    refine ⟨hrx, hlog.trans ?_⟩
    have hone := (@handleCtrlLine_spec sends host (cstr l.text)).handled
    rw [hone, handledLines_append, List.map_cons, List.append_assoc]
    rfl

end Loop

section Poll

variable {sends : ℕ → Bool} {cfg : ArdopConfig} {host : ArdopHost}

lemma readInto_bytes {buf : Bytes} (hroom : ¬hostRxMax ≤ buf.length) (first : UInt8) (more : Bytes) :
    (readInto buf (.bytes first more)).1 = buf ++ (first :: more).take (hostRxMax - buf.length) :=
  congrArg Prod.fst (if_neg hroom)

lemma readInto_spec (buf : Bytes) (answer : RecvResult) :
    buf ++ (readInto buf answer).1.drop buf.length = (readInto buf answer).1 ∧
    (buf.length ≤ hostRxMax → (readInto buf answer).1.length ≤ hostRxMax) := by
  by_cases hfull : hostRxMax ≤ buf.length
  · have he : readInto buf answer = (buf, false) := if_pos hfull
    rw [he]
    exact ⟨by simp, fun h => h⟩
  cases answer with
  | bytes first more =>
    rw [readInto_bytes hfull]
    refine ⟨by simp, fun _ => ?_⟩
    rw [List.length_append, List.length_take]
    omega
  | eof =>
    have he : readInto buf .eof = (buf, true) := if_neg hfull
    rw [he]
    exact ⟨by simp, fun h => h⟩
  | error =>
    have he : readInto buf .error = (buf, false) := if_neg hfull
    rw [he]
    exact ⟨by simp, fun h => h⟩

/-- A call either leaves the control buffer alone or works on what it held with what was read. -/
inductive CtrlTurn (sends : ℕ → Bool) (host : ArdopHost) (received : Bytes) (host' : ArdopHost) : Prop
  | idle : received = [] → host'.ctrlRx = host.ctrlRx → handledLines host'.log = handledLines host.log →
      CtrlTurn sends host received host'
  | worked (held : ArdopHost) : held.ctrlRx = host.ctrlRx ++ received → handledLines held.log = handledLines host.log →
      host'.ctrlRx = (processCtrlRx sends held).ctrlRx →
      handledLines host'.log = handledLines (processCtrlRx sends held).log → CtrlTurn sends host received host'

lemma behind_ctrl (host : ArdopHost) (readable : Bool) (answer : RecvResult) :
    (initWhenReady sends cfg (pollData sends host readable answer)).ctrlRx = host.ctrlRx ∧
      handledLines (initWhenReady sends cfg (pollData sends host readable answer)).log = handledLines host.log := by
  have hinit := @initWhenReady_untouched sends cfg (pollData sends host readable answer)
  rw [hinit.ctrlRx, hinit.handled, pollData]
  cases host.dataFd with
  | none => exact ⟨rfl, rfl⟩
  | some fd =>
    cases readable with
    | false => exact ⟨rfl, rfl⟩
    | true =>
      have honly := @processDataLoop_dataOnly sends (readData host fd answer).dataRx.length (readData host fd answer)
      exact ⟨honly.ctrlRx, honly.handled⟩

lemma poll_ctrlTurn (host : ArdopHost) (input : PollInput) :
    CtrlTurn sends host (ctrlReceived host input) (ardopHostPoll sends cfg host input) := by
  rw [ardopHostPoll, ctrlReceived, PollInput.ctrlReadable]
  cases hfd : host.ctrlFd with
  | none => exact .idle (if_pos (.inl rfl)) rfl rfl
  | some fd =>
    cases hready : input.ready with
    | none =>
      have hinit := @initWhenReady_untouched sends cfg host
      exact .idle (if_pos (.inr rfl)) hinit.ctrlRx hinit.handled
    | some flags =>
      obtain ⟨ctrlIn, dataIn⟩ := flags
      obtain ⟨hrx, hlog⟩ := @behind_ctrl sends cfg (pollCtrl sends host fd ctrlIn input.ctrl) dataIn input.data
      cases ctrlIn with
      | false => exact .idle (if_pos (.inr rfl)) hrx hlog
      | true =>
        rw [if_neg (by simp)]
        exact .worked (readCtrl host fd input.ctrl) (readInto_spec _ _).1.symm rfl hrx hlog

/-- However the commands are cut, each whole one is handled once and in order. -/
lemma polls_lines (inputs : List PollInput) {host : ArdopHost} {lines : List CtrlLine} {next : CtrlLine} {part : Bytes}
    (hpart : Part CtrlLine.encode next part) (hbuf : Part CtrlLine.encode (upcoming lines next) host.ctrlRx)
    (h : host.ctrlRx ++ received sends cfg host inputs = lines.flatMap CtrlLine.encode ++ part) :
    handledLines (hostPolls sends cfg host inputs).log = handledLines host.log ++ lines.map fun l => cstr l.text := by
  induction inputs generalizing host lines with
  | nil =>
    cases lines with
    | nil => exact (List.append_nil _).symm
    | cons l lines =>
      have hlen := congrArg List.length h
      have hshort := hbuf.2
      rw [received, List.append_nil, List.flatMap_cons, List.append_assoc, List.length_append] at hlen
      change host.ctrlRx.length < l.encode.length at hshort
      omega
  | cons input inputs ih =>
    rw [received, ← List.append_assoc] at h
    rw [hostPolls, List.foldl_cons, ← hostPolls]
    cases @poll_ctrlTurn sends cfg host input with
    | idle hnone hrx hlog =>
      rw [hnone, List.append_nil, ← hrx] at h
      rw [ih (hrx ▸ hbuf) h, hlog]
    | worked held hheld hlog₀ hrx hlog =>
      obtain ⟨done, left, front, rfl, hfront, hnext, hrest⟩ := cut hpart h
      rw [hfront] at hheld
      obtain ⟨hrx', hlog'⟩ := @processCtrlLoop_lines sends held done _ front hnext held.ctrlRx.length le_rfl hheld
      rw [processCtrlRx, hrx'] at hrx
      rw [← hrx] at hnext hrest
      rw [ih hnext hrest, hlog, processCtrlRx, hlog', hlog₀, List.map_append, List.append_assoc]

end Poll

section Wedge

variable {sends : ℕ → Bool} {cfg : ArdopConfig} {host : ArdopHost}

/-- No command and no rubbish stands at the front of the buffer, and no more than fits is in it. -/
def Settled (host : ArdopHost) : Prop := ctrlFront host.ctrlRx = .incomplete ∧ host.ctrlRx.length ≤ hostRxMax

lemma ctrlFront_message {buf line rest : Bytes} (h : ctrlFront buf = .message line rest) :
    rest.length < buf.length := by
  rw [ctrlFront] at h
  dsimp only at h
  split_ifs at h
  obtain ⟨-, rfl⟩ := CtrlFront.message.inj h
  rw [List.length_drop]
  omega

/-- The loop stops at a front that is incomplete, and holds less than before unless it has done nothing. -/
lemma processCtrlLoop_settled (fuel : ℕ) {host : ArdopHost} (hfuel : host.ctrlRx.length ≤ fuel) :
    ctrlFront (processCtrlLoop sends fuel host).ctrlRx = .incomplete ∧
      ((processCtrlLoop sends fuel host).ctrlRx = host.ctrlRx ∨
        (processCtrlLoop sends fuel host).ctrlRx.length < host.ctrlRx.length) := by
  induction fuel generalizing host with
  | zero =>
    have hnil : host.ctrlRx = [] := List.length_eq_zero_iff.mp (Nat.le_zero.mp hfuel)
    rw [processCtrlLoop, hnil]
    exact ⟨rfl, .inl rfl⟩
  | succ fuel ih =>
    rw [processCtrlLoop]
    cases hfront : ctrlFront host.ctrlRx with
    | incomplete => exact ⟨hfront, .inl rfl⟩
    | garbage =>
      refine ⟨rfl, .inr (List.length_pos_iff.mpr fun hnil => ?_)⟩
      rw [hnil] at hfront
      cases hfront
    | message line rest =>
      have hlt := ctrlFront_message hfront
      obtain ⟨hset, hrest⟩ := @ih { handleCtrlLine sends host line with ctrlRx := rest } (by dsimp only; omega)
      refine ⟨hset, .inr ?_⟩
      rcases hrest with he | he
      · dsimp only
        rw [he]
        exact hlt
      · exact lt_trans he hlt

lemma mem_take_iff {buf : Bytes} {n : ℕ} (hn : n ≤ buf.length) : cr ∈ buf.take n ↔ cr ∈ buf ∧ buf.idxOf cr < n := by
  have hsplit := List.take_append_drop n buf
  have hlen : (buf.take n).length = n := by
    rw [List.length_take]
    omega
  by_cases hmem : cr ∈ buf.take n
  · have hidx : buf.idxOf cr = (buf.take n).idxOf cr := by
      nth_rewrite 1 [← hsplit]
      exact List.idxOf_append_of_mem hmem
    have hlt := List.idxOf_lt_length_of_mem hmem
    rw [hlen] at hlt
    exact ⟨fun _ => ⟨List.mem_of_mem_take hmem, hidx ▸ hlt⟩, fun _ => hmem⟩
  · have hidx : n ≤ buf.idxOf cr := by
      rw [← hsplit, List.idxOf_append_of_notMem hmem, hlen]
      exact Nat.le_add_right n _
    exact ⟨fun h => absurd h hmem, fun h => absurd h.2 (not_lt.mpr hidx)⟩

/-- A full buffer waits for ever exactly if only its last two bytes may end a command. -/
lemma incomplete_iff {buf : Bytes} (hfull : buf.length = hostRxMax) :
    ctrlFront buf = .incomplete ↔ cr ∉ buf.take (hostRxMax - 2) := by
  have hmax : hostRxMax = 8192 := rfl
  rw [mem_take_iff (by omega), ctrlFront]
  by_cases hmem : cr ∈ buf
  · rw [if_neg (not_not.mpr hmem)]
    dsimp only
    by_cases hshort : buf.length < buf.idxOf cr + 1 + 2
    · rw [if_pos hshort]
      exact ⟨fun _ h => absurd h.2 (by omega), fun _ => rfl⟩
    · rw [if_neg hshort]
      refine ⟨fun h => ?_, fun h => absurd ⟨hmem, by omega⟩ h⟩
      split_ifs at h
  · rw [if_pos hmem]
    exact ⟨fun _ h => hmem h.1, fun _ => rfl⟩

lemma ctrlReceived_full (hfull : host.ctrlRx.length = hostRxMax) (input : PollInput) :
    ctrlReceived host input = [] := by
  rw [ctrlReceived]
  split_ifs
  · rfl
  · have he : readInto host.ctrlRx input.ctrl = (host.ctrlRx, false) := if_pos hfull.ge
    rw [he]
    exact List.drop_length

lemma processCtrlRx_settled (h : ctrlFront host.ctrlRx = .incomplete) :
    (processCtrlRx sends host).ctrlRx = host.ctrlRx := by
  rw [processCtrlRx]
  cases host.ctrlRx.length with
  | zero => rfl
  | succ fuel => rw [processCtrlLoop, h]

lemma stuck_of_full (hset : ctrlFront host.ctrlRx = .incomplete) (hfull : host.ctrlRx.length = hostRxMax) :
    CtrlStuck sends cfg host := by
  refine ⟨hfull, fun inputs => ?_⟩
  induction inputs generalizing host with
  | nil => rfl
  | cons input inputs ih =>
    have hsame : (ardopHostPoll sends cfg host input).ctrlRx = host.ctrlRx := by
      cases @poll_ctrlTurn sends cfg host input with
      | idle _ hrx _ => exact hrx
      | worked held hheld _ hrx _ =>
        rw [ctrlReceived_full hfull, List.append_nil] at hheld
        rw [hrx, processCtrlRx_settled (hheld ▸ hset), hheld]
    rw [hostPolls, List.foldl_cons, ← hostPolls, ih (hsame ▸ hset) (hsame ▸ hfull), hsame]

lemma length_held (hset : Settled host) (input : PollInput) :
    (host.ctrlRx ++ ctrlReceived host input).length ≤ hostRxMax := by
  rw [ctrlReceived]
  split_ifs
  · rw [List.append_nil]
    exact hset.2
  · rw [(readInto_spec _ _).1]
    exact (readInto_spec _ _).2 hset.2

lemma poll_settled (hset : Settled host) (input : PollInput) : Settled (ardopHostPoll sends cfg host input) ∧
    (CtrlStuck sends cfg (ardopHostPoll sends cfg host input) ↔ NoEndIn (host.ctrlRx ++ ctrlReceived host input)) := by
  have hlen := length_held hset input
  cases @poll_ctrlTurn sends cfg host input with
  | idle hnone hrx _ =>
    rw [hnone, List.append_nil] at hlen ⊢
    refine ⟨⟨hrx ▸ hset.1, hrx ▸ hset.2⟩, fun h => ?_, fun h => ?_⟩
    · have hfull := hrx ▸ h.1
      exact ⟨hfull, (incomplete_iff hfull).mp hset.1⟩
    · exact stuck_of_full (hrx ▸ hset.1) (hrx ▸ h.1)
  | worked held hheld _ hrx _ =>
    rw [← hheld] at hlen ⊢
    obtain ⟨hfront, hless⟩ := @processCtrlLoop_settled sends held.ctrlRx.length held le_rfl
    rw [← processCtrlRx, ← hrx] at hfront hless
    refine ⟨⟨hfront, hless.elim (fun he => he ▸ hlen) fun hlt => (le_of_lt hlt).trans hlen⟩, fun h => ?_, fun h => ?_⟩
    · have hsame := hless.resolve_right fun hlt => absurd (h.1 ▸ hlt) (not_lt.mpr hlen)
      rw [hsame] at hfront
      have hfull := hsame ▸ h.1
      exact ⟨hfull, (incomplete_iff hfull).mp hfront⟩
    · have hsame : (ardopHostPoll sends cfg host input).ctrlRx = held.ctrlRx := by
        rw [hrx, processCtrlRx_settled ((incomplete_iff h.1).mpr h.2)]
      exact stuck_of_full hfront (hsame ▸ h.1)

end Wedge

section Data

variable {sends : ℕ → Bool} {cfg : ArdopConfig} {host : ArdopHost}

/-- The longest frame that a header announces. -/
def dataFrameMax : ℕ := ardopDataMax + 14

lemma dataFront_incomplete {buf : Bytes} (h : dataFront buf = .incomplete) : buf.length < dataFrameMax := by
  have hmax : dataFrameMax = 2014 := rfl
  have hdata : ardopDataMax = 2000 := rfl
  simp only [dataFront] at h
  split_ifs at h
  · omega
  · omega

lemma dataFront_frame {buf tag payload : Bytes} {frameLen : ℕ} (h : dataFront buf = .frame tag payload frameLen) :
    0 < frameLen ∧ frameLen ≤ buf.length := by
  simp only [dataFront] at h
  split_ifs at h
  obtain ⟨-, -, rfl⟩ := DataFront.frame.inj h
  omega

/-- The loop over the data leaves less than a frame. -/
lemma processDataLoop_short (fuel : ℕ) {host : ArdopHost} (hfuel : host.dataRx.length ≤ fuel) :
    (processDataLoop sends fuel host).dataRx.length < dataFrameMax := by
  induction fuel generalizing host with
  | zero => exact lt_of_le_of_lt hfuel (by decide)
  | succ fuel ih =>
    rw [processDataLoop]
    cases hfront : dataFront host.dataRx with
    | incomplete => exact dataFront_incomplete hfront
    | skip =>
      refine ih ?_
      dsimp only
      rw [List.length_drop]
      omega
    | frame tag payload frameLen =>
      obtain ⟨hpos, hle⟩ := dataFront_frame hfront
      refine ih ?_
      rw [(sendRdy_untouched _).dataRx]
      dsimp only
      rw [List.length_drop]
      omega

lemma poll_data_short (h : host.dataRx.length < dataFrameMax) (input : PollInput) :
    (ardopHostPoll sends cfg host input).dataRx.length < dataFrameMax := by
  rw [ardopHostPoll]
  cases host.ctrlFd with
  | none => exact h
  | some fd =>
    cases input.ready with
    | none =>
      rw [(initWhenReady_untouched cfg host).dataRx]
      exact h
    | some flags =>
      obtain ⟨ctrlIn, dataIn⟩ := flags
      dsimp only
      have hctrl : (pollCtrl sends host fd ctrlIn input.ctrl).dataRx = host.dataRx := by
        rw [pollCtrl]
        split_ifs
        · exact (processCtrlLoop_ctrlOnly _ _).dataRx
        · rfl
      rw [(initWhenReady_untouched cfg _).dataRx, pollData]
      cases (pollCtrl sends host fd ctrlIn input.ctrl).dataFd with
      | none =>
        dsimp only
        rw [hctrl]
        exact h
      | some dataFd =>
        dsimp only
        split_ifs
        · exact processDataLoop_short _ le_rfl
        · rw [hctrl]
          exact h

end Data

lemma hostPolls_concat (sends : ℕ → Bool) (cfg : ArdopConfig) (host : ArdopHost) (inputs : List PollInput)
    (input : PollInput) :
    hostPolls sends cfg host (inputs ++ [input]) = ardopHostPoll sends cfg (hostPolls sends cfg host inputs) input := by
  rw [hostPolls, List.foldl_append]
  rfl

lemma polls_settled {sends : ℕ → Bool} {cfg : ArdopConfig} {host : ArdopHost} (hctrl : host.ctrlRx = [])
    (hdata : host.dataRx = [])
    (inputs : List PollInput) : Settled (hostPolls sends cfg host inputs) ∧
      (hostPolls sends cfg host inputs).dataRx.length < dataFrameMax := by
  induction inputs using List.reverseRecOn with
  | nil =>
    refine ⟨⟨?_, ?_⟩, ?_⟩
    · rw [hostPolls, List.foldl_nil, hctrl]
      rfl
    · rw [hostPolls, List.foldl_nil, hctrl]
      exact Nat.zero_le _
    · rw [hostPolls, List.foldl_nil, hdata]
      decide
  | append_singleton inputs input ih =>
    rw [hostPolls_concat]
    exact ⟨(poll_settled ih.1 input).1, poll_data_short ih.2 input⟩

/-- Commands are handled once and in order however they are cut. The control buffer is never stuck exactly if no read
fills it with bytes of which only the last two may end a command, and the data buffer never is. -/
theorem host_streams_iff (sends : ℕ → Bool) (cfg : ArdopConfig) (host : ArdopHost) (inputs : List PollInput)
    (hctrl : host.ctrlRx = []) (hdata : host.dataRx = []) :
    (∀ (lines : List CtrlLine) (next : CtrlLine) (part : Bytes), Part CtrlLine.encode next part →
      received sends cfg host inputs = lines.flatMap CtrlLine.encode ++ part →
        handledLines (hostPolls sends cfg host inputs).log = handledLines host.log ++ lines.map fun l => cstr l.text) ∧
      ((∀ before, before <+: inputs → ¬CtrlStuck sends cfg (hostPolls sends cfg host before)) ↔
        ∀ before input, before ++ [input] <+: inputs → ¬NoEndIn ((hostPolls sends cfg host before).ctrlRx ++
          ctrlReceived (hostPolls sends cfg host before) input)) ∧
      ∀ before, before <+: inputs → (hostPolls sends cfg host before).dataRx.length < hostRxMax := by
  refine ⟨fun lines next part hpart h => ?_,
    ⟨fun hfree before input hpre hend => ?_, fun hends before hpre hstuck => ?_⟩,
    fun before _ => lt_trans (polls_settled hctrl hdata before).2 (by decide)⟩
  · refine polls_lines inputs hpart ?_ (by rw [hctrl]; exact h)
    rw [hctrl]
    refine ⟨List.nil_prefix, ?_⟩
    rw [length_encode]
    exact Nat.succ_pos _
  · apply hfree _ hpre
    rw [hostPolls_concat]
    exact (poll_settled (polls_settled hctrl hdata before).1 input).2.mpr hend
  · rcases List.eq_nil_or_concat before with rfl | ⟨before, input, rfl⟩
    · have hlen := hstuck.1
      rw [hostPolls, List.foldl_nil, hctrl] at hlen
      cases hlen
    · rw [List.concat_eq_append] at hpre hstuck
      rw [hostPolls_concat] at hstuck
      exact hends before input hpre ((poll_settled (polls_settled hctrl hdata before).1 input).2.mp hstuck)

def exampleConfig : ArdopConfig := ⟨8515, none, none, none, true⟩

def connectedHost : ArdopHost := { ardopHostCreate with ctrlFd := some 3, dataFd := some 4, ledger := ⟨{3, 4}, []⟩ }

def letterA : UInt8 := 0x41

/-- A read that fills the control buffer with one letter. -/
def rubbishPoll : PollInput := ⟨some (true, false), .bytes letterA (List.replicate (hostRxMax - 1) letterA), .error⟩

def rdyLine : CtrlLine := ⟨ofString "RDY", by decide, by decide⟩

def ctrlPoll (first : UInt8) (more : Bytes) : PollInput := ⟨some (true, false), .bytes first more, .error⟩

theorem host_streams_iff_rdy :
    handledLines (hostPolls (fun _ => true) exampleConfig connectedHost
      [ctrlPoll 0x52 [0x44], ctrlPoll 0x59 ([cr] ++ crcBytes (ofString "RDY" ++ [cr]))]).log = [ofString "RDY"] :=
  (host_streams_iff (fun _ => true) exampleConfig connectedHost _ rfl rfl).1 [rdyLine] rdyLine []
    ⟨List.nil_prefix, by decide +kernel⟩ (by decide +kernel)

lemma take_letters {n : ℕ} (hn : 0 < n) (a : UInt8) : (a :: List.replicate (n - 1) a).take n = List.replicate n a := by
  rw [← List.replicate_succ, Nat.sub_add_cancel hn, List.take_of_length_le (by rw [List.length_replicate])]

/-- A buffer full of letters is never read into again. -/
theorem rubbish_sticks : CtrlStuck (fun _ => true) exampleConfig
    (hostPolls (fun _ => true) exampleConfig connectedHost [rubbishPoll]) := by
  have hset : Settled connectedHost := ⟨rfl, Nat.zero_le _⟩
  have hread : connectedHost.ctrlRx ++ ctrlReceived connectedHost rubbishPoll = List.replicate hostRxMax letterA := by
    have hopen : ¬(connectedHost.ctrlFd = none ∨ rubbishPoll.ctrlReadable = false) := by
      rintro (h | h)
      · cases h
      · cases h
    rw [ctrlReceived, if_neg hopen, (readInto_spec _ _).1]
    have hroom : ¬hostRxMax ≤ ([] : Bytes).length := by decide
    have hpos : 0 < hostRxMax := by decide
    change (readInto [] (.bytes letterA (List.replicate (hostRxMax - 1) letterA))).1 = _
    rw [readInto_bytes hroom, List.nil_append, List.length_nil, Nat.sub_zero, take_letters hpos]
  rw [hostPolls, List.foldl_cons, List.foldl_nil]
  apply (poll_settled hset rubbishPoll).2.mpr
  rw [hread]
  refine ⟨List.length_replicate, fun h => ?_⟩
  have hcr := List.eq_of_mem_replicate (List.mem_of_mem_take h)
  exact absurd hcr (by decide)

end HyBBX.Ardop
