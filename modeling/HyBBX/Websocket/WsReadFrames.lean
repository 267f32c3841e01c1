import HyBBX.Core.Types

/-! The server's side of the WebSocket framing: one call receives at most 256 bytes into the connection's buffer and
handles the whole frames in it. -/

namespace HyBBX.Websocket

open HyBBX.Core Lib Lib.Bytes

def wsFramePayloadMax : ℕ := 4096
def wsRxBufSize : ℕ := wsFramePayloadMax + 16
def wsRecvSize : ℕ := 256

/-- The buffer is the list of the `rx_len` bytes it holds. -/
structure WsConnection where
  established : Bool
  rxBuf : Bytes
  fits : rxBuf.length ≤ wsRxBufSize

/-- What a call does to the outside: a call of `on_data`, or bytes sent back. -/
inductive WsEvent
  | onData (payload : Bytes)
  | send (bytes : Bytes)
  deriving DecidableEq

/-- The length fields, which the loop and the handler of a frame read in the same way. -/
inductive WsLength
  | short
  | unsupported
  | known (payloadLen headerLen : ℕ)
  deriving DecidableEq

def wsLength (bytes : Bytes) : WsLength :=
  let len := (bytes.getD 1 0 &&& 0x7F).toNat
  if len = 126 ∧ bytes.length < 4 then .short
  else if len = 127 then .unsupported
  else
    let payloadLen := if len = 126 then (readBe16 (bytes.getD 2 0) (bytes.getD 3 0)).toNat else len
    if wsFramePayloadMax < payloadLen then .unsupported
    else .known payloadLen (if len = 126 then 4 else 2)

def wsUnmask (mask payload : Bytes) : Bytes := payload.mapIdx fun i b => b ^^^ mask.getD (i % 4) 0

def wsHandleFrame (frame : Bytes) : HybbxResult × List WsEvent :=
  if frame.length < 2 then (.errIo, [])
  else if frame.getD 0 0 &&& 0x80 = 0 then (.errUnsupported, [])
  else if frame.getD 1 0 &&& 0x80 = 0 then (.errIo, [])
  else match wsLength frame with
    | .short => (.errIo, [])
    | .unsupported => (.errUnsupported, [])
    | .known payloadLen headerLen =>
      if frame.length < headerLen + 4 + payloadLen then (.errIo, [])
      else
        let mask := (frame.drop headerLen).take 4
        let payload := wsUnmask mask ((frame.drop (headerLen + 4)).take payloadLen)
        let opcode := frame.getD 0 0 &&& 0x0F
        if opcode = 0x1 ∨ opcode = 0x2 then (.ok, if 0 < payloadLen then [.onData payload] else [])
        else if opcode = 0x8 then (.errIo, [])
        else if opcode = 0x9 then (.ok, [.send [0x8A, 0x00]])
        else (.ok, [])

/-- The loop over the frames in the buffer: the result, the bytes left there, and what was done. -/
def wsFrames (rx : Bytes) : HybbxResult × Bytes × List WsEvent :=
  if rx.length < 2 then (.ok, rx, [])
  else match wsLength rx with
    | .short => (.ok, rx, [])
    | .unsupported => (.errUnsupported, rx, [])
    | .known payloadLen headerLen =>
      if rx.length < headerLen + 4 + payloadLen then (.ok, rx, [])
      else
        let h := wsHandleFrame (rx.take (headerLen + 4 + payloadLen))
        if h.1 ≠ .ok then (h.1, rx, h.2)
        else
          let r := wsFrames (rx.drop (headerLen + 4 + payloadLen))
          (r.1, r.2.1, h.2 ++ r.2.2)
termination_by rx.length
decreasing_by
  simp only [List.length_drop]
  omega

lemma wsFrames_length_le (rx : Bytes) : (wsFrames rx).2.1.length ≤ rx.length := by
  fun_induction wsFrames rx with
  | case6 rx _ payloadLen headerLen _ _ h _ r ih =>
    have hd : (rx.drop (headerLen + 4 + payloadLen)).length ≤ rx.length := by simp
    exact ih.trans hd
  | _ => exact Nat.le_refl _

/-- What is left of a buffer that took a whole segment fits in it again. -/
lemma wsFrames_fits {buf seg : Bytes} (h : ¬wsRxBufSize < buf.length + seg.length) :
    (wsFrames (buf ++ seg)).2.1.length ≤ wsRxBufSize := by
  have hle := wsFrames_length_le (buf ++ seg)
  rw [List.length_append] at hle
  omega

/-- One call: `received` is the result of `recv`, `none` for an error and empty at the end of the stream. -/
def wsReadFrames (ws : WsConnection) (received : Option Bytes) : HybbxResult × WsConnection × List WsEvent :=
  if ws.established = false then (.errInvalid, ws, [])
  else match received with
    | none => (.errIo, ws, [])
    | some [] => (.errIo, ws, [])
    | some (b :: bs) =>
      if h : wsRxBufSize < ws.rxBuf.length + (b :: bs).length then
        (.errIo, { ws with rxBuf := [], fits := Nat.zero_le _ }, [])
      else
        let rx := ws.rxBuf ++ b :: bs
        let r := wsFrames rx
        (r.1, { ws with
          rxBuf := r.2.1
          fits := wsFrames_fits h }, r.2.2)

/-! Client frames on the wire, and what the loop over the buffer makes of them. -/

inductive WsClientOpcode
  | text
  | binary
  | ping
  | pong
  deriving DecidableEq

def WsClientOpcode.code : WsClientOpcode → UInt8
  | .text => 0x1
  | .binary => 0x2
  | .ping => 0x9
  | .pong => 0xA

/-- A final masked frame of a client. -/
structure WsClientFrame where
  opcode : WsClientOpcode
  mask : Bytes
  payload : Bytes
  maskLen : mask.length = 4
  fits : payload.length ≤ wsFramePayloadMax

namespace WsClientFrame

variable (f : WsClientFrame)

def lengthBytes : Bytes :=
  if f.payload.length < 126 then [0x80 ||| UInt8.ofNat f.payload.length]
  else [0x80 ||| 126, byteAt f.payload.length 8, byteAt f.payload.length 0]

/-- The frame on the wire. -/
def encode : Bytes := (0x80 ||| f.opcode.code) :: f.lengthBytes ++ f.mask ++ wsUnmask f.mask f.payload

def headerLen : ℕ := if f.payload.length < 126 then 2 else 4

def size : ℕ := f.headerLen + 4 + f.payload.length

def events : List WsEvent := match f.opcode with
  | .text | .binary => if 0 < f.payload.length then [.onData f.payload] else []
  | .ping => [.send [0x8A, 0x00]]
  | .pong => []

lemma wsUnmask_length (mask payload : Bytes) : (wsUnmask mask payload).length = payload.length := List.length_mapIdx

lemma wsUnmask_wsUnmask (mask payload : Bytes) : wsUnmask mask (wsUnmask mask payload) = payload := by
  apply List.ext_getElem
  · rw [wsUnmask_length, wsUnmask_length]
  · intro i _ _
    simp [wsUnmask, UInt8.xor_assoc]

lemma encode_length : f.encode.length = f.size := by
  rw [encode, size, headerLen, List.length_append, List.length_append, wsUnmask_length, f.maskLen, lengthBytes]
  split_ifs <;> simp

lemma two_lt_size : 4 < f.size := by
  rw [size, headerLen]
  split_ifs <;> omega

lemma code_fin : (0x80 ||| f.opcode.code) &&& 0x80 ≠ 0 ∧ (0x80 ||| f.opcode.code) &&& 0x0F = f.opcode.code := by
  cases f.opcode <;> decide

lemma length_fin (n : ℕ) (hn : n < 128) : (0x80 ||| UInt8.ofNat n) &&& 0x80 ≠ 0 ∧
    ((0x80 ||| UInt8.ofNat n) &&& 0x7F).toNat = n := by
  have h : ∀ m : Fin 128, (0x80 ||| UInt8.ofNat m) &&& 0x80 ≠ 0 ∧
    ((0x80 ||| UInt8.ofNat m) &&& 0x7F).toNat = m := by decide
  exact h ⟨n, hn⟩

/-- The length fields of a frame, from as much of the stream as has come in. -/
lemma wsLength_prefix (rx rest : Bytes) (h : rx <+: f.encode ++ rest) (h2 : 2 ≤ rx.length) :
    wsLength rx = .short ∧ rx.length < 4 ∨ wsLength rx = .known f.payload.length f.headerLen := by
  have hfits := f.fits
  rw [encode] at h
  obtain _ | ⟨x0, _ | ⟨x1, rx⟩⟩ := rx
  · simp at h2
  · simp at h2
  rw [lengthBytes] at h
  by_cases hs : f.payload.length < 126
  · rw [if_pos hs] at h
    simp only [List.cons_append, List.nil_append, List.cons_prefix_cons] at h
    obtain ⟨-, rfl, -⟩ := h
    have hl := (length_fin f.payload.length (by omega)).2
    right
    rw [wsLength]
    simp only [List.getD_cons_succ, List.getD_cons_zero, hl]
    rw [if_neg (by omega), if_neg (by omega), if_neg (show f.payload.length ≠ 126 by omega),
      if_neg (by omega), headerLen, if_pos hs, if_neg (by omega)]
  · rw [if_neg hs] at h
    simp only [List.cons_append, List.nil_append, List.cons_prefix_cons] at h
    obtain ⟨-, rfl, h⟩ := h
    have hl : ((0x80 ||| 126 : UInt8) &&& 0x7F).toNat = 126 := by decide
    rw [wsLength]
    simp only [List.getD_cons_succ, List.getD_cons_zero, hl]
    by_cases h4 : (x0 :: (0x80 ||| 126) :: rx).length < 4
    · left
      rw [if_pos ⟨trivial, h4⟩]
      exact ⟨rfl, h4⟩
    · right
      obtain _ | ⟨x2, _ | ⟨x3, rx⟩⟩ := rx
      · simp at h4
      · simp at h4
      simp only [List.cons_prefix_cons] at h
      obtain ⟨rfl, rfl, -⟩ := h
      have hb : (readBe16 (byteAt f.payload.length 8) (byteAt f.payload.length 0)).toNat = f.payload.length := by
        have h16 : (UInt16.ofNat f.payload.length).toNat = f.payload.length := by
          rw [UInt16.toNat_ofNat']
          exact Nat.mod_eq_of_lt (lt_of_le_of_lt hfits (by decide))
        rw [← h16, readBe16_byteAt]
      simp only [List.getD_cons_succ, List.getD_cons_zero, hb]
      rw [if_neg (fun hc => h4 hc.2), if_neg (by decide), if_true, if_true, if_neg (by omega), headerLen, if_neg hs]

def header : Bytes := (0x80 ||| f.opcode.code) :: f.lengthBytes

lemma header_length : f.header.length = f.headerLen := by
  rw [header, List.length_cons, lengthBytes, headerLen]
  split_ifs <;> rfl

lemma encode_eq : f.encode = f.header ++ (f.mask ++ wsUnmask f.mask f.payload) := by
  rw [encode, header, List.append_assoc]

lemma drop_header : f.encode.drop f.headerLen = f.mask ++ wsUnmask f.mask f.payload := by
  rw [encode_eq, ← header_length, List.drop_left]

/-- A whole frame is handled as its sender means it. -/
lemma wsHandleFrame_encode : wsHandleFrame f.encode = (.ok, f.events) := by
  have hsize := f.two_lt_size
  have hlen := f.encode_length
  have hl : wsLength f.encode = .known f.payload.length f.headerLen := by
    rcases f.wsLength_prefix f.encode [] (by simp) (by omega) with ⟨-, h4⟩ | h
    · omega
    · exact h
  have h0 : f.encode.getD 0 0 = 0x80 ||| f.opcode.code := rfl
  have h1 : f.encode.getD 1 0 &&& 0x80 ≠ 0 := by
    rw [encode, lengthBytes]
    split_ifs with hs
    · exact (length_fin _ (by omega)).1
    · exact (by decide : ((0x80 ||| 126 : UInt8) &&& 0x80) ≠ 0)
  have hmask : (f.encode.drop f.headerLen).take 4 = f.mask := by
    rw [drop_header, ← f.maskLen, List.take_left]
  have hpayload : (f.encode.drop (f.headerLen + 4)).take f.payload.length = wsUnmask f.mask f.payload := by
    rw [← List.drop_drop, drop_header, ← f.maskLen, List.drop_left]
    exact List.take_of_length_le (wsUnmask_length _ _).le
  rw [wsHandleFrame, if_neg (by omega), h0, if_neg f.code_fin.1, if_neg h1, hl]
  dsimp only
  rw [if_neg (by rw [hlen, size]; omega), hmask, hpayload, wsUnmask_wsUnmask, f.code_fin.2, events]
  cases f.opcode <;> rfl

end WsClientFrame

def wsStream (fs : List WsClientFrame) : Bytes := fs.flatMap WsClientFrame.encode

/-- The bytes of the next frame that have come in while it is not whole. -/
def Unfinished (fs : List WsClientFrame) (rx : Bytes) : Prop := match fs with
  | [] => rx = []
  | f :: _ => rx.length < f.size

/-- Nothing happens before the next frame is whole. -/
lemma wsFrames_unfinished {fs : List WsClientFrame} {rx : Bytes} (h : Unfinished fs rx) (hrx : rx <+: wsStream fs) :
    wsFrames rx = (.ok, rx, []) := by
  rw [wsFrames]
  cases fs with
  | nil =>
    rw [if_pos]
    rw [show rx = [] from h]
    decide
  | cons f fs =>
    by_cases h2 : rx.length < 2
    · rw [if_pos h2]
    · rw [if_neg h2]
      rcases f.wsLength_prefix rx (wsStream fs) hrx (by omega) with ⟨hs, -⟩ | hk
      · rw [hs]
      · rw [hk]
        exact if_pos h

/-- Whole frames are handled one after the other. -/
lemma wsFrames_whole (fs : List WsClientFrame) (rx : Bytes) :
    wsFrames (wsStream fs ++ rx) =
      ((wsFrames rx).1, (wsFrames rx).2.1, fs.flatMap WsClientFrame.events ++ (wsFrames rx).2.2) := by
  induction fs with
  | nil => rfl
  | cons f fs ih =>
    have hsize := f.two_lt_size
    have hlen := f.encode_length
    have hcons : wsStream (f :: fs) ++ rx = f.encode ++ (wsStream fs ++ rx) := by simp [wsStream]
    rw [hcons]
    have hl : wsLength (f.encode ++ (wsStream fs ++ rx)) = .known f.payload.length f.headerLen := by
      have h2 : 2 ≤ (f.encode ++ (wsStream fs ++ rx)).length := by rw [List.length_append]; omega
      rcases f.wsLength_prefix _ (wsStream fs ++ rx) List.prefix_rfl h2 with ⟨-, h4⟩ | h
      · rw [List.length_append] at h4
        omega
      · exact h
    have hkey : f.headerLen + 4 + f.payload.length = f.encode.length := hlen.symm
    rw [wsFrames, if_neg (by rw [List.length_append]; omega), hl]
    dsimp only
    rw [hkey, if_neg (by rw [List.length_append]; omega), List.take_left, List.drop_left, f.wsHandleFrame_encode, ih]
    simp

/-! Client frames cut into segments: when the fixed buffer holds what each call receives. -/

/-- A result of `recv` that is neither an error nor the end of the stream. -/
structure WsSegment where
  bytes : Bytes
  nonempty : bytes ≠ []
  fits : bytes.length ≤ wsRecvSize

def segmentBytes (segs : List WsSegment) : Bytes := segs.flatMap WsSegment.bytes

/-- Consecutive calls of `hybbx_ws_read_frames`. -/
def wsReadAll : WsConnection → List WsSegment → List HybbxResult × List WsEvent
  | _, [] => ([], [])
  | ws, seg :: segs =>
    let r := wsReadFrames ws (some seg.bytes)
    let q := wsReadAll r.2.1 segs
    (r.1 :: q.1, r.2.2 ++ q.2)

/-- Of the first `k` bytes of the stream, those behind the last whole frame. -/
def pendingBytes : List WsClientFrame → ℕ → ℕ
  | [], k => k
  | f :: fs, k => if k < f.size then k else pendingBytes fs (k - f.size)

/-- Each segment fits behind the unfinished frame that the buffer holds before it, `k` bytes into the stream. -/
def SegmentsFit (fs : List WsClientFrame) (k : ℕ) (segs : List WsSegment) : Prop :=
  ∀ pre seg post, segs = pre ++ seg :: post →
    pendingBytes fs (k + (segmentBytes pre).length) + seg.bytes.length ≤ wsRxBufSize

lemma pendingBytes_unfinished {fs : List WsClientFrame} {rx : Bytes} (h : Unfinished fs rx) :
    pendingBytes fs rx.length = rx.length := by
  cases fs with
  | nil => rfl
  | cons f fs => exact if_pos h

/-- What has come in of a stream is some whole frames and the start of the next one. -/
lemma whole_frames (fs : List WsClientFrame) {rx : Bytes} (h : rx <+: wsStream fs) :
    ∃ done more p, fs = done ++ more ∧ rx = wsStream done ++ p ∧ Unfinished more p ∧
      ∀ k, pendingBytes fs (rx.length + k) = pendingBytes more (p.length + k) := by
  induction fs generalizing rx with
  | nil =>
    obtain rfl : rx = [] := List.prefix_nil.mp h
    exact ⟨[], [], [], rfl, rfl, rfl, fun _ => rfl⟩
  | cons f fs ih =>
    by_cases hf : rx.length < f.size
    · exact ⟨[], f :: fs, rx, rfl, rfl, hf, fun _ => rfl⟩
    · have hlen := f.encode_length
      have hpre : f.encode <+: rx :=
        List.prefix_of_prefix_length_le (List.prefix_append _ (wsStream fs)) h (by omega)
      obtain ⟨rx', rfl⟩ := hpre
      have hrx' : rx' <+: wsStream fs := (List.prefix_append_right_inj f.encode).mp h
      obtain ⟨done, more, p, rfl, rfl, hp, hk⟩ := ih hrx'
      refine ⟨f :: done, more, p, rfl, ?_, hp, fun k => ?_⟩
      · simp [wsStream]
      · rw [List.length_append, pendingBytes, if_neg (by omega), ← hk]
        congr 1
        omega

lemma segmentsFit_cons {fs : List WsClientFrame} {k : ℕ} {seg : WsSegment} {segs : List WsSegment} :
    SegmentsFit fs k (seg :: segs) ↔
      pendingBytes fs k + seg.bytes.length ≤ wsRxBufSize ∧ SegmentsFit fs (k + seg.bytes.length) segs := by
  constructor
  · intro h
    refine ⟨h [] seg segs rfl, fun pre seg' post he => ?_⟩
    have hfit := h (seg :: pre) seg' post (by rw [he]; rfl)
    rwa [segmentBytes, List.flatMap_cons, List.length_append, ← Nat.add_assoc] at hfit
  · rintro ⟨hfirst, hrest⟩ pre seg' post he
    cases pre with
    | nil =>
      obtain ⟨rfl, rfl⟩ := List.cons.inj he
      exact hfirst
    | cons seg₀ pre =>
      obtain ⟨rfl, rfl⟩ := List.cons.inj he
      rw [segmentBytes, List.flatMap_cons, List.length_append, ← Nat.add_assoc]
      exact hrest pre seg' post rfl

lemma segmentsFit_nil {fs : List WsClientFrame} {k : ℕ} : SegmentsFit fs k [] :=
  fun _ _ _ he => absurd he (by simp)

/-- One call with a segment that fits leaves the start of the next frame in the buffer. -/
lemma wsReadFrames_fits {ws : WsConnection} (hest : ws.established = true) {seg : WsSegment}
    (hfit : ws.rxBuf.length + seg.bytes.length ≤ wsRxBufSize) {done more : List WsClientFrame} {p : Bytes}
    (hrx : ws.rxBuf ++ seg.bytes = wsStream done ++ p) (hp : Unfinished more p) (hpre : p <+: wsStream more) :
    (wsReadFrames ws (some seg.bytes)).1 = .ok ∧ (wsReadFrames ws (some seg.bytes)).2.1.rxBuf = p ∧
      (wsReadFrames ws (some seg.bytes)).2.1.established = true ∧
        (wsReadFrames ws (some seg.bytes)).2.2 = done.flatMap WsClientFrame.events := by
  have hframes : wsFrames (ws.rxBuf ++ seg.bytes) = (.ok, p, done.flatMap WsClientFrame.events) := by
    rw [hrx, wsFrames_whole, wsFrames_unfinished hp hpre, List.append_nil]
  obtain ⟨bytes, hne, hle⟩ := seg
  cases bytes with
  | nil => exact absurd rfl hne
  | cons b bs =>
    dsimp only at hfit hframes ⊢
    rw [wsReadFrames, if_neg (by simp [hest])]
    dsimp only
    rw [dif_neg (by omega)]
    dsimp only
    rw [hframes]
    exact ⟨rfl, rfl, hest, rfl⟩

lemma wsReadFrames_overflow {ws : WsConnection} (hest : ws.established = true) {seg : WsSegment}
    (hfit : wsRxBufSize < ws.rxBuf.length + seg.bytes.length) : (wsReadFrames ws (some seg.bytes)).1 = .errIo := by
  obtain ⟨bytes, hne, hle⟩ := seg
  cases bytes with
  | nil => exact absurd rfl hne
  | cons b bs =>
    rw [wsReadFrames, if_neg (by simp [hest])]
    dsimp only
    rw [dif_pos hfit]

/-- The calls on an established connection that holds the start of the next frame. -/
lemma wsReadAll_iff (segs : List WsSegment) {fs : List WsClientFrame} {ws : WsConnection}
    (hest : ws.established = true) (hu : Unfinished fs ws.rxBuf)
    (hs : ws.rxBuf ++ segmentBytes segs = wsStream fs) :
    ((∀ r ∈ (wsReadAll ws segs).1, r = .ok) ↔ SegmentsFit fs ws.rxBuf.length segs) ∧
      (SegmentsFit fs ws.rxBuf.length segs → (wsReadAll ws segs).2 = fs.flatMap WsClientFrame.events) := by
  induction segs generalizing fs ws with
  | nil =>
    have hall : fs = [] := by
      cases fs with
      | nil => rfl
      | cons f fs =>
        have hlen := congrArg List.length hs
        simp only [segmentBytes, wsStream, List.flatMap_cons, List.flatMap_nil, List.append_nil,
          List.length_append, f.encode_length] at hlen
        have hlt : ws.rxBuf.length < f.size := hu
        omega
    subst hall
    exact ⟨iff_of_true (fun r hr => by cases hr) segmentsFit_nil, fun _ => rfl⟩
  | cons seg segs ih =>
    have hcons : segmentBytes (seg :: segs) = seg.bytes ++ segmentBytes segs := List.flatMap_cons
    rw [hcons, ← List.append_assoc] at hs
    have hpre : ws.rxBuf ++ seg.bytes <+: wsStream fs := ⟨_, hs⟩
    obtain ⟨done, more, p, rfl, hrx, hp, hk⟩ := whole_frames fs hpre
    have hsplit : wsStream (done ++ more) = wsStream done ++ wsStream more := List.flatMap_append
    rw [hrx, hsplit, List.append_assoc] at hs
    have hs' := List.append_cancel_left hs
    rw [segmentsFit_cons, pendingBytes_unfinished hu]
    by_cases hfit : ws.rxBuf.length + seg.bytes.length ≤ wsRxBufSize
    · obtain ⟨hok, hbuf, hest', hev⟩ := wsReadFrames_fits hest hfit hrx hp ⟨_, hs'⟩
      have hnext := ih hest' (by rwa [hbuf]) (by rwa [hbuf])
      have hrest : SegmentsFit (done ++ more) (ws.rxBuf.length + seg.bytes.length) segs ↔
          SegmentsFit more p.length segs := by
        rw [SegmentsFit, SegmentsFit]
        rw [← List.length_append]
        simp only [hk]
      rw [hbuf, ← hrest] at hnext
      rw [wsReadAll]
      dsimp only
      rw [List.forall_mem_cons, hok, hev, List.flatMap_append]
      refine ⟨by simp only [hfit, true_and, hnext.1], fun h => ?_⟩
      rw [hnext.2 h.2]
    · refine ⟨iff_of_false (fun hall => ?_) fun h => hfit h.1, fun h => absurd h.1 hfit⟩
      have hio := wsReadFrames_overflow hest (Nat.lt_of_not_le hfit)
      have hok := hall (wsReadFrames ws (some seg.bytes)).1 (by simp [wsReadAll])
      rw [hio] at hok
      cases hok

def onDataCalls (events : List WsEvent) : List Bytes :=
  events.filterMap fun e => match e with
    | .onData payload => some payload
    | .send _ => none

/-- The payloads that a server has to see. -/
def dataPayloads (fs : List WsClientFrame) : List Bytes :=
  (fs.filter fun f => (f.opcode = .text || f.opcode = .binary) && f.payload ≠ []).map WsClientFrame.payload

lemma onDataCalls_events (fs : List WsClientFrame) :
    onDataCalls (fs.flatMap WsClientFrame.events) = dataPayloads fs := by
  induction fs with
  | nil => rfl
  | cons f fs ih =>
    have hsplit : onDataCalls ((f :: fs).flatMap WsClientFrame.events) = onDataCalls f.events ++ dataPayloads fs := by
      rw [List.flatMap_cons, ← ih]
      exact List.filterMap_append
    rw [hsplit, dataPayloads, dataPayloads, List.filter_cons]
    obtain ⟨opcode, mask, payload, _, _⟩ := f
    cases opcode with
    | text => cases payload <;> simp [WsClientFrame.events, onDataCalls]
    | binary => cases payload <;> simp [WsClientFrame.events, onDataCalls]
    | ping => simp [WsClientFrame.events, onDataCalls]
    | pong => simp [WsClientFrame.events, onDataCalls]

/-- The connection after the handshake. -/
def wsEstablished : WsConnection := ⟨true, [], Nat.zero_le _⟩

lemma unfinished_nil (fs : List WsClientFrame) : Unfinished fs [] := by
  cases fs with
  | nil => rfl
  | cons f fs => exact lt_trans (by decide) f.two_lt_size

lemma wsReadAll_established {fs : List WsClientFrame} {segs : List WsSegment} (hs : segmentBytes segs = wsStream fs) :
    ((∀ r ∈ (wsReadAll wsEstablished segs).1, r = .ok) ↔ SegmentsFit fs 0 segs) ∧
      (SegmentsFit fs 0 segs → (wsReadAll wsEstablished segs).2 = fs.flatMap WsClientFrame.events) :=
  @wsReadAll_iff segs fs wsEstablished rfl (unfinished_nil fs) hs

/-- A stream of client frames is read as sent, however it is cut, exactly if each segment fits behind the unfinished
frame before it. -/
theorem segmentation_independent_iff (fs : List WsClientFrame) (segs : List WsSegment)
    (hs : segmentBytes segs = wsStream fs) :
    ((∀ r ∈ (wsReadAll wsEstablished segs).1, r = .ok) ∧
      onDataCalls (wsReadAll wsEstablished segs).2 = dataPayloads fs) ↔ SegmentsFit fs 0 segs := by
  obtain ⟨hok, hev⟩ := wsReadAll_established hs
  constructor
  · exact fun h => hok.mp h.1
  · intro h
    refine ⟨hok.mpr h, ?_⟩
    rw [hev h, onDataCalls_events]

def helloFrame : WsClientFrame := ⟨.text, [0x37, 0xFA, 0x21, 0x3D], ofString "Hello", rfl, by decide⟩

theorem segmentation_independent_iff_hello :
    let segs : List WsSegment := [⟨[0x81, 0x85, 0x37, 0xFA, 0x21], by decide, by decide⟩,
      ⟨[0x3D, 0x7F, 0x9F, 0x4D, 0x51, 0x58], by decide, by decide⟩]
    (∀ r ∈ (wsReadAll wsEstablished segs).1, r = .ok) ∧
      onDataCalls (wsReadAll wsEstablished segs).2 = [ofString "Hello"] := by
  refine (segmentation_independent_iff [helloFrame] _ (by decide)).mpr ?_
  exact segmentsFit_cons.mpr ⟨by decide, segmentsFit_cons.mpr ⟨by decide, segmentsFit_nil⟩⟩

def zeros (n : ℕ) : Bytes := List.replicate n 0

/-- The longest frame that is accepted. -/
def longestFrame : WsClientFrame := ⟨.binary, zeros 4, zeros wsFramePayloadMax, rfl, List.length_replicate.le⟩

def longestHeader : Bytes := [0x82, 0xFE, 0x10, 0x00, 0, 0, 0, 0]

lemma wsUnmask_zeros (n : ℕ) : wsUnmask (zeros 4) (zeros n) = zeros n := by
  apply List.ext_getElem
  · exact WsClientFrame.wsUnmask_length _ _
  · intro i _ _
    simp only [wsUnmask, zeros, List.getElem_mapIdx, List.getElem_replicate]
    rcases (by omega : i % 4 = 0 ∨ i % 4 = 1 ∨ i % 4 = 2 ∨ i % 4 = 3) with h | h | h | h <;> rw [h] <;> rfl

lemma zeros_append (m n : ℕ) : zeros m ++ zeros n = zeros (m + n) := List.replicate_append_replicate

lemma longestFrame_encode : longestFrame.encode = longestHeader ++ zeros wsFramePayloadMax := by
  have hmask : wsUnmask longestFrame.mask longestFrame.payload = zeros wsFramePayloadMax := wsUnmask_zeros _
  have hlen : longestFrame.payload.length = wsFramePayloadMax := List.length_replicate
  rw [WsClientFrame.encode, hmask, WsClientFrame.lengthBytes, hlen]
  rfl

def fullSegment : WsSegment := ⟨zeros wsRecvSize, by decide, List.length_replicate.le⟩

lemma segmentBytes_full (n : ℕ) : segmentBytes (List.replicate n fullSegment) = zeros (n * wsRecvSize) := by
  induction n with
  | zero => rfl
  | succ n ih =>
    have hcons : segmentBytes (List.replicate (n + 1) fullSegment) =
      zeros wsRecvSize ++ segmentBytes (List.replicate n fullSegment) := List.flatMap_cons
    rw [hcons, ih, zeros_append]
    congr 1
    ring

def firstSegment : WsSegment := ⟨longestHeader ++ zeros 248, by decide, by decide +kernel⟩

/-- The last read brings the end of the longest frame and the whole of a short one. -/
def lastSegment : WsSegment := ⟨zeros 8 ++ helloFrame.encode, by decide, by decide⟩

def filledSegments : List WsSegment := firstSegment :: List.replicate 15 fullSegment

lemma segmentBytes_filled : segmentBytes filledSegments = longestHeader ++ zeros 4088 := by
  have hcons : segmentBytes filledSegments = firstSegment.bytes ++ segmentBytes (List.replicate 15 fullSegment) :=
    List.flatMap_cons
  rw [hcons, segmentBytes_full, firstSegment, List.append_assoc, zeros_append]
  rfl

theorem overflow_loses_frames :
    segmentBytes (filledSegments ++ [lastSegment]) = wsStream [longestFrame, helloFrame] ∧
      ¬((∀ r ∈ (wsReadAll wsEstablished (filledSegments ++ [lastSegment])).1, r = .ok) ∧
        onDataCalls (wsReadAll wsEstablished (filledSegments ++ [lastSegment])).2 =
          dataPayloads [longestFrame, helloFrame]) := by
  have hs : segmentBytes (filledSegments ++ [lastSegment]) = wsStream [longestFrame, helloFrame] := by
    have happ : segmentBytes (filledSegments ++ [lastSegment]) = segmentBytes filledSegments ++ lastSegment.bytes := by
      rw [segmentBytes, List.flatMap_append, List.flatMap_singleton]
      rfl
    have hstream : wsStream [longestFrame, helloFrame] = longestFrame.encode ++ helloFrame.encode := by simp [wsStream]
    rw [happ, segmentBytes_filled, hstream, longestFrame_encode, lastSegment, List.append_assoc, List.append_assoc,
      ← List.append_assoc (zeros 4088), zeros_append]
    rfl
  refine ⟨hs, fun h => ?_⟩
  have hfit := (wsReadAll_established hs).1.mp h.1 filledSegments lastSegment [] rfl
  have hlen : (segmentBytes filledSegments).length = 4096 := by
    rw [segmentBytes_filled, List.length_append, zeros, List.length_replicate]
    rfl
  have hsize : longestFrame.size = 4104 := by
    have hpayload : longestFrame.payload.length = wsFramePayloadMax := List.length_replicate
    rw [WsClientFrame.size, WsClientFrame.headerLen, hpayload]
    rfl
  rw [hlen, pendingBytes, hsize] at hfit
  exact absurd hfit (by decide)

end HyBBX.Websocket
