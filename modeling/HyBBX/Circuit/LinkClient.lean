import HyBBX.Circuit.LinkAuth
import HyBBX.Circuit.RoundTrip

/-! The edge's side of link authentication: a decoder of its own waits for the ACK, and the decoder of
the link proper takes over afterwards. -/

namespace HyBBX.Circuit

open HyBBX.Core Lib Lib.Bytes

def circuitAuthTimeoutMs : ℕ := 15000

structure LinkAckWait where
  done : Bool
  ok : Bool
  deriving DecidableEq, Repr

def ackYes : Bytes := ofString "ok=yes"

def onLinkAuthAck (wait : LinkAckWait) (f : CircuitFrame) : LinkAckWait :=
  if wait.done ∨ f.proto ≠ .linkAuthAck then wait
  else if f.payload = [] then wait
  else { done := true, ok := wait.ok || decide (ackYes <:+: f.payload) }

/-- One turn of `poll` and `recv`. -/
inductive LinkPoll
  | interrupted
  | silent
  | failed
  | unreadable
  | received (chunk : Bytes)
  deriving DecidableEq, Repr

def receivedChunks (polls : List LinkPoll) : List Bytes :=
  polls.filterMap fun
    | .received c => some c
    | _ => none

/-- The result and the turns left to the caller; `none` while it still waits. -/
def authenticateLoop (polls : List LinkPoll) (dec : CircuitDecoder) (wait : LinkAckWait)
    (elapsed : ℕ) : Option (HybbxResult × List LinkPoll) :=
  if wait.done ∨ circuitAuthTimeoutMs ≤ elapsed then
    some (if wait.ok then .ok else .errDenied, polls)
  else match polls with
    | [] => none
    | .interrupted :: ps => authenticateLoop ps dec wait elapsed
    | .silent :: ps => authenticateLoop ps dec wait (elapsed + circuitLinkPollMs)
    | .failed :: ps => some (.errIo, ps)
    | .unreadable :: ps => some (.errIo, ps)
    -- an empty read is `EAGAIN`
    | .received [] :: ps => authenticateLoop ps dec wait (elapsed + circuitLinkPollMs)
    | .received (b :: bs) :: ps =>
      let r := circuitDecoderFeed dec (b :: bs)
      authenticateLoop ps r.1 (r.2.foldl onLinkAuthAck wait) elapsed

/-- `frame` is the uninitialised frame buffer and `written` the outcome of sending it. -/
def circuitLinkAuthenticateEx (password role id : Bytes) (qos : Option LinkQos) (frame : Bytes)
    (written : Bool) (polls : List LinkPoll) : Option (HybbxResult × List LinkPoll) :=
  match linkAuthFormat (linkAuthRequest password role id qos) linkAuthPayloadMax with
  | none => some (.errInvalid, polls)
  | some payload =>
    match circuitEncodeLinkMsg .linkAuth payload frame with
    | none => some (.errIo, polls)
    | some _ =>
      if written then authenticateLoop polls circuitDecoderInit ⟨false, false⟩ 0
      else some (.errIo, polls)

/-! Which bytes the authentication wait keeps from the decoder that takes the link over. -/

lemma receivedChunks_received (c : Bytes) (ps : List LinkPoll) :
    receivedChunks (.received c :: ps) = c :: receivedChunks ps := rfl

/-- The wait's record after the frames of a stretch of the stream. -/
def ackAfter (dec : CircuitDecoder) (wait : LinkAckWait) (bs : Bytes) : LinkAckWait :=
  (circuitDecoderFeed dec bs).2.foldl onLinkAuthAck wait

lemma ackAfter_append (dec : CircuitDecoder) (wait : LinkAckWait) (xs ys : Bytes) :
    ackAfter dec wait (xs ++ ys) =
      ackAfter (circuitDecoderFeed dec xs).1 (ackAfter dec wait xs) ys := by
  rw [ackAfter, feed_append, List.foldl_append]
  rfl

@[simp] lemma ackAfter_nil (dec : CircuitDecoder) (wait : LinkAckWait) : ackAfter dec wait [] = wait := rfl

/-- A successful wait reads the chunks up to the one that brings the ACK and leaves the rest. -/
lemma authenticateLoop_ok (polls : List LinkPoll) (dec : CircuitDecoder) (wait : LinkAckWait)
    (elapsed : ℕ) {rest : List LinkPoll}
    (h : authenticateLoop polls dec wait elapsed = some (.ok, rest)) :
    ∃ cs, receivedChunks polls = cs ++ receivedChunks rest ∧
      (ackAfter dec wait cs.flatten).ok = true ∧
      ∀ k < cs.length, (ackAfter dec wait (cs.take k).flatten).done = false := by
  induction polls generalizing dec wait elapsed with
  | nil =>
    rw [authenticateLoop.eq_def] at h
    split_ifs at h with hs hok
    · obtain ⟨-, rfl⟩ := Prod.mk.inj (Option.some.inj h)
      exact ⟨[], rfl, hok, by simp⟩
    · simp at h
  | cons p ps ih =>
    rw [authenticateLoop.eq_def] at h
    split_ifs at h with hs hok
    · obtain ⟨-, rfl⟩ := Prod.mk.inj (Option.some.inj h)
      exact ⟨[], rfl, hok, by simp⟩
    · simp at h
    · have hd : wait.done = false := by
        simp only [not_or] at hs
        simpa using hs.1
      -- a turn without data leaves decoder and record as they are
      cases p with
      | interrupted => exact ih dec wait elapsed h
      | silent => exact ih dec wait _ h
      | failed => simp at h
      | unreadable => simp at h
      | received c =>
        cases c with
        | nil =>
          obtain ⟨cs, hcs, ho, hk⟩ := ih dec wait _ h
          refine ⟨[] :: cs, by rw [receivedChunks_received, hcs, List.cons_append], ho, ?_⟩
          intro k hlt
          cases k with
          | zero => exact hd
          | succ k => exact hk k (by simpa using hlt)
        | cons b bs =>
          obtain ⟨cs, hcs, ho, hk⟩ := ih _ _ _ h
          refine ⟨(b :: bs) :: cs, by rw [receivedChunks_received, hcs, List.cons_append], ?_, ?_⟩
          · rw [List.flatten_cons, ackAfter_append]
            exact ho
          · intro k hlt
            cases k with
            | zero => exact hd
            | succ k =>
              rw [List.take_succ_cons, List.flatten_cons, ackAfter_append]
              exact hk k (by simpa using hlt)

/-- Less than a whole frame delivers nothing. -/
lemma feed_strict_prefix {dec : CircuitDecoder} (hi : dec.Idle) {f : CircuitFrame} {out xs ys : Bytes}
    (he : circuitEncode f.proto f.flags f.payload out = some (xs ++ ys)) (hy : ys ≠ []) :
    (circuitDecoderFeed dec xs).2 = [] := by
  have hf := (feed_encode hi he).2
  rw [feed_append] at hf
  have hlen := circuitEncode_length he
  have hpos : 0 < ys.length := List.length_pos_iff.mpr hy
  have hw := feed_weight dec xs
  rcases hx : (circuitDecoderFeed dec xs).2 with _ | ⟨g, gs⟩
  · rfl
  · rw [hx, List.cons_append] at hf
    obtain rfl : g = f := (List.cons.inj hf).1
    have hl := hi.1
    simp only [hx, List.map_cons, List.sum_cons, CircuitFrame.size, List.length_append] at hw hlen
    omega

lemma onLinkAuthAck_accepts {f : CircuitFrame} (hp : f.proto = .linkAuthAck)
    (hy : ackYes <:+: f.payload) : onLinkAuthAck ⟨false, false⟩ f = ⟨true, true⟩ := by
  have hne : f.payload ≠ [] := by
    intro h
    rw [h] at hy
    exact absurd (List.infix_nil.mp hy) (by decide)
  simp [onLinkAuthAck, hp, hne, hy]

lemma ack_done_absorbing (fs : List CircuitFrame) {wait : LinkAckWait} (h : wait.done = true) :
    fs.foldl onLinkAuthAck wait = wait := by
  induction fs with
  | nil => rfl
  | cons f fs ih =>
    have hf : onLinkAuthAck wait f = wait := by simp [onLinkAuthAck, h]
    rw [List.foldl_cons, hf, ih]

section Handover

variable {ack : CircuitFrame} {ackOut ackBytes : Bytes}
variable (hack : circuitEncode ack.proto ack.flags ack.payload ackOut = some ackBytes)
include hack

lemma ack_incomplete {xs : Bytes} (hx : xs <+: ackBytes) (hlt : xs.length < ackBytes.length) :
    ackAfter circuitDecoderInit ⟨false, false⟩ xs = ⟨false, false⟩ := by
  obtain ⟨ys, rfl⟩ := hx
  have hy : ys ≠ [] := by
    rintro rfl
    simp at hlt
  rw [ackAfter, feed_strict_prefix init_idle hack hy]
  rfl

lemma ack_complete (hp : ack.proto = .linkAuthAck) (hy : ackYes <:+: ack.payload) (ys : Bytes) :
    (ackAfter circuitDecoderInit ⟨false, false⟩ (ackBytes ++ ys)).done = true := by
  have hf := (feed_encode init_idle hack).2
  have hd : (ackAfter circuitDecoderInit ⟨false, false⟩ ackBytes).done = true := by
    rw [ackAfter, hf, List.foldl_cons, onLinkAuthAck_accepts hp hy]
    rfl
  rw [ackAfter_append, ackAfter, ack_done_absorbing _ hd]
  exact hd

/-- The chunks read during the wait end in the ACK plus whatever shared its last read. -/
lemma wait_reads_ack (hp : ack.proto = .linkAuthAck) (hy : ackYes <:+: ack.payload)
    {polls rest : List LinkPoll} {tail : Bytes} {elapsed : ℕ}
    (hstream : (receivedChunks polls).flatten = ackBytes ++ tail)
    (h : authenticateLoop polls circuitDecoderInit ⟨false, false⟩ elapsed = some (.ok, rest)) :
    ∃ lost, tail = lost ++ (receivedChunks rest).flatten ∧
      (lost = [] ↔ ∃ k, ((receivedChunks polls).take k).flatten = ackBytes) := by
  obtain ⟨cs, hcs, hok, hk⟩ := authenticateLoop_ok polls _ _ _ h
  rw [hcs, List.flatten_append] at hstream
  have hlen : ackBytes.length ≤ cs.flatten.length := by
    by_contra hlt
    have hpre : cs.flatten <+: ackBytes :=
      List.prefix_of_prefix_length_le ⟨_, hstream⟩ ⟨tail, rfl⟩ (by omega)
    rw [ack_incomplete hack hpre (by omega)] at hok
    simp at hok
  obtain ⟨lost, hlost⟩ : ackBytes <+: cs.flatten :=
    List.prefix_of_prefix_length_le ⟨tail, rfl⟩ ⟨_, hstream⟩ hlen
  have htail : tail = lost ++ (receivedChunks rest).flatten := by
    rw [← hlost, List.append_assoc] at hstream
    exact (List.append_cancel_left hstream).symm
  refine ⟨lost, htail, ?_, ?_⟩
  · rintro rfl
    refine ⟨cs.length, ?_⟩
    rw [hcs, List.take_left, ← hlost, List.append_nil]
  · rintro ⟨k, hcut⟩
    have hge : cs.length ≤ k := by
      by_contra hlt
      have hd := hk k (by omega)
      rw [hcs, List.take_append_of_le_length (by omega)] at hcut
      have hc := ack_complete hack hp hy []
      rw [List.append_nil, ← hcut, hd] at hc
      simp at hc
    have hle : cs.flatten.length ≤ ackBytes.length := by
      rw [← hcut, hcs, List.take_append, List.take_of_length_le hge, List.flatten_append,
        List.length_append]
      omega
    have hz := congrArg List.length hlost
    rw [List.length_append] at hz
    exact List.eq_nil_of_length_eq_zero (by omega)

end Handover

/-- After a successful authentication the link's decoder delivers exactly the frames behind the ACK if
and only if some read ended with the ACK's last byte. -/
theorem authenticateEx_handover (password role id : Bytes) (qos : Option LinkQos) (frame : Bytes)
    (written : Bool) {ack : CircuitFrame} (hp : ack.proto = .linkAuthAck)
    (hy : ackYes <:+: ack.payload) {ackOut ackBytes : Bytes}
    (hack : circuitEncode ack.proto ack.flags ack.payload ackOut = some ackBytes)
    {fs : List (CircuitFrame × Bytes)} {encoded : List Bytes} (hfs : encodeAll fs = some encoded)
    {polls rest : List LinkPoll}
    (hstream : (receivedChunks polls).flatten = ackBytes ++ encoded.flatten)
    (hauth : circuitLinkAuthenticateEx password role id qos frame written polls = some (.ok, rest)) :
    (circuitDecoderFeedAll circuitDecoderInit (receivedChunks rest)).2 = fs.map Prod.fst ↔
      ∃ k, ((receivedChunks polls).take k).flatten = ackBytes := by
  have hloop : authenticateLoop polls circuitDecoderInit ⟨false, false⟩ 0 = some (.ok, rest) := by
    rw [circuitLinkAuthenticateEx] at hauth
    split at hauth
    · simp at hauth
    split at hauth
    · simp at hauth
    split_ifs at hauth with hw
    · exact hauth
    · simp at hauth
  obtain ⟨lost, htail, hcut⟩ := wait_reads_ack hack hp hy hstream hloop
  rw [← hcut, circuitDecoderFeedAll_eq]
  constructor
  · intro hf
    have hw := feed_weight circuitDecoderInit (receivedChunks rest).flatten
    have hl := encodeAll_length hfs
    have hmap : (List.map CircuitFrame.size (fs.map Prod.fst)).sum = (fs.map fun p => p.1.size).sum := by
      rw [List.map_map]
      rfl
    have hi : circuitDecoderInit.len = 0 := rfl
    rw [hf, hmap, hi, ← hl, htail, List.length_append] at hw
    exact List.eq_nil_of_length_eq_zero (by omega)
  · rintro rfl
    rw [List.nil_append] at htail
    rw [← htail]
    exact (feed_encodeAll init_idle hfs).2

def ackFrame : CircuitFrame := ⟨.linkAuthAck, 0, ackYes, by decide⟩

def helloFrame : CircuitFrame := ⟨.terminal, 2, ofString "hi", by decide⟩

def ackWire : Bytes := circuitHeader .linkAuthAck 0 6 (List.replicate 18 0) ++ ackYes

def helloWire : Bytes := circuitHeader .terminal 2 2 (List.replicate 14 0) ++ ofString "hi"

theorem authenticateEx_handover_split :
    (circuitDecoderFeedAll circuitDecoderInit (receivedChunks [.received helloWire])).2 = [helloFrame] ↔
      ∃ k, ((receivedChunks [.received ackWire, .received helloWire]).take k).flatten = ackWire :=
  authenticateEx_handover (ofString "pw") [] (ofString "edge") none (List.replicate 64 0) true
    (show ackFrame.proto = .linkAuthAck from rfl)
    (List.infix_rfl : ackYes <:+: ackFrame.payload)
    (show circuitEncode ackFrame.proto ackFrame.flags ackFrame.payload (List.replicate 18 0) =
      some ackWire by decide)
    (show encodeAll [(helloFrame, List.replicate 14 0)] = some [helloWire] by decide)
    (show (receivedChunks [.received ackWire, .received helloWire]).flatten =
      ackWire ++ [helloWire].flatten by decide)
    (by decide)

/-- ACK and first frame in one read: the frame is gone. -/
theorem authenticateEx_loses_frame :
    circuitLinkAuthenticateEx (ofString "pw") [] (ofString "edge") none (List.replicate 64 0) true
        [.received (ackWire ++ helloWire)] = some (.ok, []) ∧
      ackWire ++ helloWire = ackWire ++ [helloWire].flatten ∧
      (circuitDecoderFeedAll circuitDecoderInit (receivedChunks [])).2 ≠ [helloFrame] := by
  refine ⟨?_, ?_, ?_⟩ <;> decide

end HyBBX.Circuit
