import HyBBX.Lib.Text
import HyBBX.Lib.Utf8
import HyBBX.Websocket.WsReadFrames

/-! The way out to a WebSocket client: text is held back until a character is whole, and goes out in frames. -/

namespace HyBBX.Websocket

open HyBBX.Core Lib Lib.Bytes Lib.Text

/-- The side of a client that is written to: the buffer is the list of the `tx_len` bytes it holds, `sent` is what the
socket took, call by call. -/
structure WsClient where
  established : Bool
  tx : Bytes
  sent : List Bytes
  calls : ℕ

/-- The length that a first byte of several asks for; zero for no such byte. -/
def utf8LeadLen (b : UInt8) : ℕ :=
  if b &&& 0xE0 = 0xC0 then 2 else if b &&& 0xF0 = 0xE0 then 3 else if b &&& 0xF8 = 0xF0 then 4 else 0

/-- The span of a character at a position: zero when it is not whole, one for a byte that is out of place. -/
def utf8CharSpan (buf : Bytes) (pos : ℕ) : ℕ :=
  if buf.length ≤ pos then 0
  else if buf.getD pos 0 < 0x80 then 1
  else if utf8LeadLen (buf.getD pos 0) = 0 then 1
  else if buf.length < pos + utf8LeadLen (buf.getD pos 0) then 0
  else if (List.range' 1 (utf8LeadLen (buf.getD pos 0) - 1)).any fun i => buf.getD (pos + i) 0 &&& 0xC0 ≠ 0x80 then 1
  else utf8LeadLen (buf.getD pos 0)

def utf8PrefixLoop (buf : Bytes) : ℕ → ℕ → ℕ
  | 0, pos => pos
  | fuel + 1, pos =>
    if pos < buf.length then
      let span := utf8CharSpan buf pos
      if span = 0 then pos else utf8PrefixLoop buf fuel (pos + span)
    else pos

def utf8CompletePrefix (buf : Bytes) : ℕ := utf8PrefixLoop buf buf.length 0

section Source

-- which calls of `send` succeed
variable (io : ℕ → Bool)

def wsSendAll (c : WsClient) (bytes : Bytes) : Bool × WsClient :=
  if io c.calls then (true, { c with sent := c.sent ++ [bytes], calls := c.calls + 1 })
  else (false, { c with calls := c.calls + 1 })

def hybbxWsWriteText (c : WsClient) (data : Bytes) : HybbxResult × WsClient :=
  if c.established = false then (.errInvalid, c)
  else if wsFramePayloadMax < data.length then (.errInvalid, c)
  else
    let hdr : Bytes := if data.length < 126 then [0x81, UInt8.ofNat data.length]
      else [0x81, 126, byteAt data.length 8, byteAt data.length 0]
    let h := wsSendAll io c hdr
    if h.1 = false then (.errIo, h.2)
    else if 0 < data.length then
      let d := wsSendAll io h.2 data
      if d.1 = false then (.errIo, d.2) else (.ok, d.2)
    else (.ok, h.2)

def wsTxFlush (c : WsClient) (forceTail : Bool) : HybbxResult × WsClient :=
  if c.tx = [] then (.ok, c)
  else
    let whole := utf8CompletePrefix c.tx
    let tx := if whole = 0 ∧ forceTail = true then c.tx.set 0 0x3F else c.tx
    let n := if whole = 0 ∧ forceTail = true then 1 else whole
    if n = 0 then (.ok, c)
    else
      let r := hybbxWsWriteText io { c with tx := tx } (tx.take n)
      if r.1 ≠ .ok then r else (.ok, { r.2 with tx := r.2.tx.drop n })

/-- A pass of the loop, for a byte and the one before it in the same call. -/
def wsWriteByte (c : WsClient) (before : Option UInt8) (ch : UInt8) : HybbxResult × WsClient :=
  let first :=
    if ch = nl ∧ before ≠ some cr then
      let r := if wsFramePayloadMax < c.tx.length + 2 then wsTxFlush io c true else (.ok, c)
      if r.1 ≠ .ok then r else (.ok, { r.2 with tx := r.2.tx ++ [cr] })
    else (.ok, c)
  if first.1 ≠ .ok then first
  else
    let room := if wsFramePayloadMax ≤ first.2.tx.length then wsTxFlush io first.2 true else (.ok, first.2)
    if room.1 ≠ .ok then room
    else wsTxFlush io { room.2 with tx := room.2.tx ++ [ch] } false

def wsWriteLoop : WsClient → Option UInt8 → Bytes → HybbxResult × WsClient
  | c, _, [] => (.ok, c)
  | c, before, ch :: data =>
    let r := wsWriteByte io c before ch
    if r.1 ≠ .ok then r else wsWriteLoop r.2 (some ch) data

def wsPluginWrite (c : WsClient) (data : Bytes) : HybbxResult × WsClient :=
  if c.established = false then (.errInvalid, c) else wsWriteLoop io c none data

def hybbxWsPing (c : WsClient) : HybbxResult × WsClient :=
  if c.established = false then (.errInvalid, c)
  else
    let r := wsSendAll io c [0x89, 0x00]
    (if r.1 then .ok else .errIo, r.2)

/-- What the server does on its way out: the session writes, and control frames go out between its writes. -/
inductive WsOut
  | write (data : Bytes)
  | ping
  | pong

def wsOut (c : WsClient) : WsOut → HybbxResult × WsClient
  | .write data => wsPluginWrite io c data
  | .ping => hybbxWsPing io c
  | .pong => (.ok, (wsSendAll io c [0x8A, 0x00]).2)

def wsOuts : WsClient → List WsOut → List HybbxResult × WsClient
  | c, [] => ([], c)
  | c, out :: outs =>
    let r := wsOut io c out
    let q := wsOuts r.2 outs
    (r.1 :: q.1, q.2)

end Source

section Client

/-- A frame as the client takes it. -/
structure WsFrame where
  first : UInt8
  payload : Bytes
  deriving DecidableEq

/-- The next frame of the server, which does not mask. -/
def decodeFrame : Bytes → Option (WsFrame × Bytes)
  | first :: len :: rest =>
    if len < 126 then
      if rest.length < len.toNat then none else some (⟨first, rest.take len.toNat⟩, rest.drop len.toNat)
    else if len = 126 ∧ 2 ≤ rest.length then
      let n := (readBe16 (rest.getD 0 0) (rest.getD 1 0)).toNat
      if (rest.drop 2).length < n then none else some (⟨first, (rest.drop 2).take n⟩, (rest.drop 2).drop n)
    else none
  | _ => none

def decodeFrames : ℕ → Bytes → Option (List WsFrame)
  | _, [] => some []
  | 0, _ => none
  | fuel + 1, bytes => (decodeFrame bytes).bind fun (f, rest) => (decodeFrames fuel rest).map (f :: ·)

/-- The texts that a stream of frames carries. -/
def textsOf (fs : List WsFrame) : List Bytes := fs.filterMap fun f => if f.first = 0x81 then some f.payload else none

/-- The frames that the client sees of what was sent. -/
def clientFrames (sent : Bytes) : Option (List WsFrame) := decodeFrames sent.length sent

/-- The text of a write as it goes out: each line end that does not have it gets a carriage return. -/
def crlfText : Option UInt8 → Bytes → Bytes
  | _, [] => []
  | before, ch :: data => (if ch = nl ∧ before ≠ some cr then [cr, ch] else [ch]) ++ crlfText (some ch) data

def WsOut.text : WsOut → Bytes
  | .write data => crlfText none data
  | _ => []

def WsFrame.bytes (f : WsFrame) : Bytes :=
  f.first :: (if f.payload.length < 126 then [UInt8.ofNat f.payload.length]
    else [126, byteAt f.payload.length 8, byteAt f.payload.length 0]) ++ f.payload

lemma decodeFrame_bytes (f : WsFrame) (h : f.payload.length ≤ wsFramePayloadMax) (rest : Bytes) :
    decodeFrame (f.bytes ++ rest) = some (f, rest) := by
  rw [WsFrame.bytes]
  by_cases hshort : f.payload.length < 126
  · have hlen : (UInt8.ofNat f.payload.length).toNat = f.payload.length := by
      rw [UInt8.toNat_ofNat']
      exact Nat.mod_eq_of_lt (by omega)
    have hlt : UInt8.ofNat f.payload.length < 126 := by
      rw [UInt8.lt_iff_toNat_lt, hlen]
      exact hshort
    rw [if_pos hshort]
    simp only [List.cons_append, List.nil_append]
    rw [decodeFrame, if_pos hlt, hlen, if_neg (by rw [List.length_append]; omega), List.take_left, List.drop_left]
  · have hlen : (readBe16 (byteAt f.payload.length 8) (byteAt f.payload.length 0)).toNat = f.payload.length := by
      have h16 : (UInt16.ofNat f.payload.length).toNat = f.payload.length := by
        rw [UInt16.toNat_ofNat']
        exact Nat.mod_eq_of_lt (lt_of_le_of_lt h (by decide))
      rw [← h16, readBe16_byteAt]
    rw [if_neg hshort]
    simp only [List.cons_append, List.nil_append]
    rw [decodeFrame, if_neg (by decide), if_pos ⟨rfl, by simp⟩]
    simp only [List.getD_cons_zero, List.getD_cons_succ, List.drop_succ_cons, List.drop_zero]
    rw [hlen, if_neg (by rw [List.length_append]; omega), List.take_left, List.drop_left]

lemma decodeFrames_bytes {fs : List WsFrame} (h : ∀ f ∈ fs, f.payload.length ≤ wsFramePayloadMax) {fuel : ℕ}
    (hfuel : (fs.flatMap WsFrame.bytes).length ≤ fuel) : decodeFrames fuel (fs.flatMap WsFrame.bytes) = some fs := by
  induction fs generalizing fuel with
  | nil => cases fuel <;> rfl
  | cons f fs ih =>
    have hlong : 0 < f.bytes.length := Nat.zero_lt_succ _
    rw [List.flatMap_cons, List.length_append] at hfuel
    obtain _ | fuel := fuel
    · omega
    · obtain ⟨b, rest, hb⟩ := List.exists_cons_of_ne_nil (List.ne_nil_of_length_pos hlong)
      have hframe := decodeFrame_bytes f (h f List.mem_cons_self) (fs.flatMap WsFrame.bytes)
      have hmore : decodeFrames fuel (fs.flatMap WsFrame.bytes) = some fs :=
        ih (fun g hg => h g (List.mem_cons_of_mem f hg)) (by omega)
      rw [List.flatMap_cons]
      rw [hb, List.cons_append] at hframe ⊢
      rw [decodeFrames, hframe, Option.bind_some]
      · dsimp only
        rw [hmore]
        rfl
      · exact fun h => absurd h (by simp)

end Client

section Utf8

open Utf8

lemma utf8CharSpan_drop (buf : Bytes) (n : ℕ) : utf8CharSpan (buf.drop n) 0 = utf8CharSpan buf n := by
  have hget : ∀ i, (buf.drop n).getD (0 + i) 0 = buf.getD (n + i) 0 := by
    intro i
    rw [List.getD_eq_getElem?_getD, List.getD_eq_getElem?_getD, List.getElem?_drop, Nat.zero_add]
  have hzero := hget 0
  rw [Nat.add_zero, Nat.add_zero] at hzero
  rw [utf8CharSpan, utf8CharSpan]
  by_cases hle : buf.length ≤ n
  · rw [if_pos (by rw [List.length_drop]; omega), if_pos hle]
  · have hmore : ∀ m, ((buf.drop n).length < 0 + m) = (buf.length < n + m) := by
      intro m
      rw [List.length_drop]
      exact propext (by omega)
    rw [if_neg (by rw [List.length_drop]; omega), if_neg hle, hzero]
    simp only [hget, hmore]

/-- A span stays within the buffer, and one that is not whole is at its end. -/
lemma utf8CharSpan_spec {buf : Bytes} {pos : ℕ} (h : pos < buf.length) :
    pos + utf8CharSpan buf pos ≤ buf.length ∧ (utf8CharSpan buf pos = 0 → buf.length ≤ pos + 3) := by
  have hle : utf8LeadLen (buf.getD pos 0) ≤ 4 := by
    rw [utf8LeadLen]
    split_ifs <;> omega
  have hcases : utf8CharSpan buf pos = 1 ∨ utf8CharSpan buf pos = 0 ∧ buf.length < pos + 4 ∨
      0 < utf8CharSpan buf pos ∧ pos + utf8CharSpan buf pos ≤ buf.length := by
    rw [utf8CharSpan, if_neg (not_le.mpr h)]
    split_ifs
    · exact Or.inl rfl
    · exact Or.inl rfl
    · exact Or.inr (Or.inl ⟨rfl, by omega⟩)
    · exact Or.inl rfl
    · exact Or.inr (Or.inr ⟨by omega, by omega⟩)
  omega

lemma utf8PrefixLoop_spec {buf : Bytes} {fuel pos : ℕ} (hpos : pos ≤ buf.length) (hfuel : buf.length ≤ pos + fuel) :
    pos ≤ utf8PrefixLoop buf fuel pos ∧ utf8PrefixLoop buf fuel pos ≤ buf.length ∧
      (utf8PrefixLoop buf fuel pos < buf.length → utf8CharSpan buf (utf8PrefixLoop buf fuel pos) = 0) := by
  induction fuel generalizing pos with
  | zero => exact ⟨le_rfl, hpos, fun h => absurd h (by rw [utf8PrefixLoop]; omega)⟩
  | succ fuel ih =>
    rw [utf8PrefixLoop]
    by_cases hlt : pos < buf.length
    · rw [if_pos hlt]
      dsimp only
      by_cases hzero : utf8CharSpan buf pos = 0
      · rw [if_pos hzero]
        exact ⟨le_rfl, hpos, fun _ => hzero⟩
      · obtain ⟨hlow, hhigh, hstop⟩ := ih (utf8CharSpan_spec hlt).1 (by omega)
        rw [if_neg hzero]
        exact ⟨by omega, hhigh, hstop⟩
    · rw [if_neg hlt]
      exact ⟨le_rfl, hpos, fun h => absurd h hlt⟩

/-- What is held back is at most three bytes. -/
lemma held_short {tx : Bytes} (h : tx = [] ∨ utf8CharSpan tx 0 = 0) : tx.length ≤ 3 := by
  rcases h with rfl | h
  · exact Nat.zero_le _
  · by_cases hnil : tx = []
    · rw [hnil]
      exact Nat.zero_le _
    · have hspec := (utf8CharSpan_spec (List.length_pos_of_ne_nil hnil)).2 h
      omega

lemma held_drop (tx : Bytes) : tx.drop (utf8CompletePrefix tx) = [] ∨
    utf8CharSpan (tx.drop (utf8CompletePrefix tx)) 0 = 0 := by
  obtain ⟨-, hle, hstop⟩ := @utf8PrefixLoop_spec tx tx.length 0 (Nat.zero_le tx.length) (by omega)
  by_cases hlt : utf8CompletePrefix tx < tx.length
  · right
    rw [utf8CharSpan_drop]
    exact hstop hlt
  · left
    exact List.drop_of_length_le (not_lt.mp hlt)

lemma leadSize_eq {b : UInt8} (h : ¬b < 0x80) : leadSize b = utf8LeadLen b := by
  rw [leadSize, if_neg h, utf8LeadLen]

lemma utf8CharSpan_short {lead : UInt8} {more : Bytes} (h : more.length + 1 < leadSize lead) :
    utf8CharSpan (lead :: more) 0 = 0 := by
  have hbig : ¬lead < 0x80 := by
    intro hlt
    rw [leadSize, if_pos hlt] at h
    omega
  rw [leadSize_eq hbig] at h
  rw [utf8CharSpan, if_neg (by simp), List.getD_cons_zero, if_neg hbig, if_neg (by omega),
    if_pos (by rw [List.length_cons]; omega)]

/-- The span of a lead byte when the bytes it asks for follow. -/
lemma utf8CharSpan_whole {lead : UInt8} {more : Bytes} (hlead : leadSize lead = more.length + 1)
    (hmore : ∀ b ∈ more, IsContinuation b) (rest : Bytes) :
    utf8CharSpan (lead :: more ++ rest) 0 = more.length + 1 := by
  rw [utf8CharSpan, if_neg (by simp), List.cons_append, List.getD_cons_zero]
  by_cases hsmall : lead < 0x80
  · rw [leadSize, if_pos hsmall] at hlead
    rw [if_pos hsmall]
    exact hlead
  · rw [leadSize_eq hsmall] at hlead
    have hall : ((List.range' 1 (utf8LeadLen lead - 1)).any
        fun i => (lead :: (more ++ rest)).getD (0 + i) 0 &&& 0xC0 ≠ 0x80) = false := by
      rw [List.any_eq_false]
      intro i hi
      obtain ⟨hlow, hhigh⟩ := List.mem_range'_1.mp hi
      obtain ⟨k, rfl⟩ := Nat.exists_eq_add_of_le' hlow
      have hk : k < more.length := by omega
      rw [Nat.zero_add, List.getD_cons_succ, List.getD_eq_getElem?_getD, List.getElem?_append_left hk,
        List.getElem?_eq_getElem hk, Option.getD_some, decide_eq_true_eq, not_not]
      exact hmore _ (List.getElem_mem hk)
    rw [if_neg hsmall, if_neg (by omega), if_neg (by rw [List.length_cons, List.length_append]; omega), hall,
      if_neg Bool.false_ne_true, hlead]

lemma utf8CharSpan_partial {part : Bytes} (h : Partial part) : utf8CharSpan part 0 = 0 := by
  obtain ⟨hne, c, rest, hrest, hc⟩ := h
  obtain ⟨lead, more, hshape, hlead, -⟩ := utf8EncodeChar_shape c
  obtain ⟨first, part, rfl⟩ := List.exists_cons_of_ne_nil hne
  rw [hshape] at hc
  obtain ⟨rfl, hmore⟩ := List.cons.inj hc
  have hlen : more.length = part.length + rest.length := by rw [hmore, ← List.length_append]; rfl
  apply utf8CharSpan_short
  rw [hlead, hlen]
  have hpos := List.length_pos_of_ne_nil hrest
  omega

/-- The loop over whole characters. -/
lemma utf8PrefixLoop_chars (ds : List Char) {before part : Bytes} {fuel : ℕ} (hpart : part = [] ∨ Partial part)
    (hfuel : (encode ds).length + part.length ≤ fuel) :
    utf8PrefixLoop (before ++ (encode ds ++ part)) fuel before.length = (before ++ encode ds).length := by
  induction ds generalizing before fuel with
  | nil =>
    rw [encode, List.flatMap_nil, List.nil_append, List.append_nil]
    rcases hpart with rfl | hpart
    · obtain _ | fuel := fuel
      · rfl
      · rw [utf8PrefixLoop, if_neg (by simp)]
    · have hpos := List.length_pos_of_ne_nil hpart.1
      rw [encode, List.flatMap_nil, List.length_nil] at hfuel
      obtain _ | fuel := fuel
      · rfl
      · rw [utf8PrefixLoop, if_pos (by rw [List.length_append]; omega), ← utf8CharSpan_drop, List.drop_left,
          utf8CharSpan_partial hpart]
        rfl
  | cons d ds ih =>
    obtain ⟨lead, more, hshape, hlead, hmore⟩ := utf8EncodeChar_shape d
    have hcons : encode (d :: ds) = lead :: more ++ encode ds := by rw [encode, List.flatMap_cons, hshape]; rfl
    have hnext := @ih (before ++ lead :: more) (fuel - 1) (by
      rw [hcons, List.length_append, List.length_cons] at hfuel
      omega)
    rw [hcons, List.length_append, List.length_cons] at hfuel
    obtain _ | fuel := fuel
    · omega
    · rw [utf8PrefixLoop, if_pos (by rw [hcons]; simp), ← utf8CharSpan_drop, List.drop_left, hcons, List.append_assoc,
        utf8CharSpan_whole hlead hmore]
      dsimp only
      rw [if_neg (by omega)]
      rw [Nat.add_sub_cancel, List.append_assoc, List.length_append, List.length_cons] at hnext
      rw [hnext, List.append_assoc]

lemma utf8CompletePrefix_chars (ds : List Char) {part : Bytes} (hpart : part = [] ∨ Partial part) :
    utf8CompletePrefix (encode ds ++ part) = (encode ds).length :=
  @utf8PrefixLoop_chars ds [] part _ hpart (by rw [List.length_append])

end Utf8

section Run

variable {io : ℕ → Bool} {c : WsClient} {text : Bytes}

lemma wsSendAll_ok {bytes : Bytes} (h : (wsSendAll io c bytes).1 ≠ false) :
    (wsSendAll io c bytes).2 = { c with sent := c.sent ++ [bytes], calls := c.calls + 1 } := by
  rw [wsSendAll] at h ⊢
  by_cases hio : io c.calls = true
  · rw [if_pos hio]
  · rw [if_neg hio] at h
    exact absurd rfl h

/-- A text that is written is one frame. -/
lemma hybbxWsWriteText_ok {data : Bytes} (h : (hybbxWsWriteText io c data).1 = .ok) :
    (hybbxWsWriteText io c data).2.established = c.established ∧ (hybbxWsWriteText io c data).2.tx = c.tx ∧
      (hybbxWsWriteText io c data).2.sent.flatten = c.sent.flatten ++ (WsFrame.mk 0x81 data).bytes := by
  have hframe : (WsFrame.mk 0x81 data).bytes = (if data.length < 126 then [0x81, UInt8.ofNat data.length]
      else [0x81, 126, byteAt data.length 8, byteAt data.length 0]) ++ data := by
    rw [WsFrame.bytes]
    split_ifs <;> rfl
  rw [hframe]
  rw [hybbxWsWriteText] at h ⊢
  generalize (if data.length < 126 then [0x81, UInt8.ofNat data.length]
      else [0x81, 126, byteAt data.length 8, byteAt data.length 0] : Bytes) = hdr at h ⊢
  by_cases hest : c.established = false
  · rw [if_pos hest] at h
    exact absurd (show HybbxResult.errInvalid = .ok from h) (by decide)
  by_cases hlong : wsFramePayloadMax < data.length
  · rw [if_neg hest, if_pos hlong] at h
    exact absurd (show HybbxResult.errInvalid = .ok from h) (by decide)
  rw [if_neg hest, if_neg hlong] at h ⊢
  dsimp only at h ⊢
  by_cases hhdr : (wsSendAll io c hdr).1 = false
  · rw [if_pos hhdr] at h
    exact absurd (show HybbxResult.errIo = .ok from h) (by decide)
  rw [if_neg hhdr] at h ⊢
  rw [wsSendAll_ok hhdr] at h ⊢
  by_cases hpos : 0 < data.length
  · rw [if_pos hpos] at h ⊢
    by_cases hdata : (wsSendAll io { c with sent := c.sent ++ [hdr], calls := c.calls + 1 } data).1 = false
    · rw [if_pos hdata] at h
      exact absurd (show HybbxResult.errIo = .ok from h) (by decide)
    · rw [if_neg hdata, wsSendAll_ok hdata]
      exact ⟨rfl, rfl, by simp⟩
  · rw [if_neg hpos, List.length_eq_zero_iff.mp (by omega : data.length = 0)]
    exact ⟨rfl, rfl, by simp⟩

lemma utf8CompletePrefix_held {tx : Bytes} (h : tx = [] ∨ utf8CharSpan tx 0 = 0) : utf8CompletePrefix tx = 0 := by
  rw [utf8CompletePrefix]
  cases tx with
  | nil => rfl
  | cons b tx =>
    rw [List.length_cons, utf8PrefixLoop, if_pos (by simp)]
    dsimp only
    rw [if_pos (h.resolve_left (by simp))]

/-- A flush that is not forced sends what is whole, in one frame. -/
lemma wsTxFlush_ok (h : (wsTxFlush io c false).1 = .ok) :
    (wsTxFlush io c false).2.established = c.established ∧
      (wsTxFlush io c false).2.tx = c.tx.drop (utf8CompletePrefix c.tx) ∧
      (wsTxFlush io c false).2.sent.flatten = c.sent.flatten ++
        if utf8CompletePrefix c.tx = 0 then [] else (WsFrame.mk 0x81 (c.tx.take (utf8CompletePrefix c.tx))).bytes := by
  rw [wsTxFlush] at h ⊢
  by_cases hnil : c.tx = []
  · have hzero : utf8CompletePrefix [] = 0 := rfl
    rw [if_pos hnil, hnil, hzero, if_pos rfl, List.append_nil, List.drop_zero]
    exact ⟨rfl, rfl, rfl⟩
  · rw [if_neg hnil] at h ⊢
    have hforce : ¬(utf8CompletePrefix c.tx = 0 ∧ false = true) := fun hc => Bool.false_ne_true hc.2
    dsimp only at h ⊢
    rw [if_neg hforce, if_neg hforce] at h ⊢
    by_cases hzero : utf8CompletePrefix c.tx = 0
    · rw [if_pos hzero, if_pos hzero, hzero]
      exact ⟨rfl, rfl, (List.append_nil _).symm⟩
    · rw [if_neg hzero] at h ⊢
      by_cases hwrite : (hybbxWsWriteText io c (c.tx.take (utf8CompletePrefix c.tx))).1 = .ok
      · obtain ⟨hest, htx, hsent⟩ := hybbxWsWriteText_ok hwrite
        rw [if_neg (not_not.mpr hwrite), if_neg hzero]
        exact ⟨hest, by rw [htx], hsent⟩
      · rw [if_pos hwrite] at h
        exact absurd h hwrite

/-- What the client has got and what is held back are the text so far; each frame is whole characters. -/
structure Framed (c : WsClient) (text : Bytes) : Prop where
  established : c.established = true
  held : c.tx = [] ∨ utf8CharSpan c.tx 0 = 0
  frames : ∃ fs : List WsFrame, c.sent.flatten = fs.flatMap WsFrame.bytes ∧
    (∀ f ∈ fs, f.payload.length ≤ wsFramePayloadMax) ∧ (textsOf fs).flatten ++ c.tx = text ∧
    ∀ cs, text <+: Utf8.encode cs → ∃ ds es, cs = ds ++ es ∧ (textsOf fs).flatten = Utf8.encode ds ∧
      ∀ p ∈ textsOf fs, ∃ qs, p = Utf8.encode qs

lemma textsOf_append (fs gs : List WsFrame) : textsOf (fs ++ gs) = textsOf fs ++ textsOf gs := List.filterMap_append

/-- A few more bytes, and a flush of what they make whole. -/
lemma Framed.flush (h : Framed c text) {piece : Bytes} (hpiece : piece.length ≤ 2)
    (hok : (wsTxFlush io { c with tx := c.tx ++ piece } false).1 = .ok) :
    Framed (wsTxFlush io { c with tx := c.tx ++ piece } false).2 (text ++ piece) := by
  obtain ⟨hest, htx, hsent⟩ := wsTxFlush_ok hok
  obtain ⟨fs, hfs, hfits, htext, hvalid⟩ := h.frames
  have hshort := held_short h.held
  dsimp only at hest htx hsent
  refine ⟨hest.trans h.established, ?_, ?_⟩
  · rw [htx]
    exact held_drop _
  · by_cases hzero : utf8CompletePrefix (c.tx ++ piece) = 0
    · refine ⟨fs, by rw [hsent, if_pos hzero, List.append_nil, hfs], hfits, ?_, fun cs hcs => ?_⟩
      · rw [htx, hzero, List.drop_zero, ← List.append_assoc, htext]
      · exact hvalid cs ((List.prefix_append _ _).trans hcs)
    · have hle : utf8CompletePrefix (c.tx ++ piece) ≤ (c.tx ++ piece).length :=
        (utf8PrefixLoop_spec (Nat.zero_le _) (Nat.le_add_left _ _)).2.1
      have htexts : textsOf (fs ++ [⟨0x81, (c.tx ++ piece).take (utf8CompletePrefix (c.tx ++ piece))⟩]) =
          textsOf fs ++ [(c.tx ++ piece).take (utf8CompletePrefix (c.tx ++ piece))] := by
        rw [textsOf_append]
        rfl
      refine ⟨fs ++ [⟨0x81, (c.tx ++ piece).take (utf8CompletePrefix (c.tx ++ piece))⟩], ?_, ?_, ?_, fun cs hcs => ?_⟩
      · rw [hsent, if_neg hzero, hfs, List.flatMap_append, List.flatMap_singleton]
      · intro f hf
        rcases List.mem_append.mp hf with hf | hf
        · exact hfits f hf
        · obtain rfl := List.mem_singleton.mp hf
          rw [List.length_take, wsFramePayloadMax]
          rw [List.length_append] at hle
          omega
      · rw [htexts, List.flatten_append, List.flatten_singleton, htx, List.append_assoc, List.take_append_drop,
          ← List.append_assoc, htext]
      · -- what was held back and the new bytes begin at a character, and so does what they leave
        obtain ⟨ds, es, rfl, hds, hwhole⟩ := hvalid cs ((List.prefix_append _ _).trans hcs)
        rw [← htext, hds, Utf8.encode_append, List.append_assoc, List.prefix_append_right_inj] at hcs
        obtain ⟨ds', es', part, rfl, hcut, hpart⟩ := Utf8.cut_encode hcs
        have htake : (c.tx ++ piece).take (utf8CompletePrefix (c.tx ++ piece)) = Utf8.encode ds' := by
          rw [hcut, utf8CompletePrefix_chars ds' hpart, List.take_left]
        rw [htexts, htake]
        refine ⟨ds ++ ds', es', (List.append_assoc _ _ _).symm, ?_, fun p hp => ?_⟩
        · rw [List.flatten_append, List.flatten_singleton, hds, Utf8.encode_append]
        · rcases List.mem_append.mp hp with hp | hp
          · exact hwhole p hp
          · exact ⟨ds', List.mem_singleton.mp hp⟩

/-- While little is held back, no byte needs room to be made for it. -/
lemma wsWriteByte_eq (h : c.tx.length ≤ 3) (before : Option UInt8) (ch : UInt8) : wsWriteByte io c before ch =
    wsTxFlush io { c with tx := c.tx ++ if ch = nl ∧ before ≠ some cr then [cr, ch] else [ch] } false := by
  have hmax : wsFramePayloadMax = 4096 := rfl
  have htwo : ¬wsFramePayloadMax < c.tx.length + 2 := by omega
  rw [wsWriteByte]
  by_cases hline : ch = nl ∧ before ≠ some cr
  · have hroom : ¬wsFramePayloadMax ≤ (c.tx ++ [cr]).length := by
      rw [List.length_append, List.length_singleton]
      omega
    simp only [if_pos hline, if_neg htwo, if_neg hroom, ne_eq, not_true_eq_false, if_false, List.append_assoc,
      List.cons_append, List.nil_append]
  · have hroom : ¬wsFramePayloadMax ≤ c.tx.length := by omega
    simp only [if_neg hline, if_neg hroom, ne_eq, not_true_eq_false, if_false]

lemma Framed.writeByte (h : Framed c text) {before : Option UInt8} {ch : UInt8}
    (hok : (wsWriteByte io c before ch).1 = .ok) :
    Framed (wsWriteByte io c before ch).2 (text ++ if ch = nl ∧ before ≠ some cr then [cr, ch] else [ch]) := by
  rw [wsWriteByte_eq (held_short h.held)] at hok ⊢
  refine h.flush ?_ hok
  split_ifs
  · exact le_rfl
  · exact one_le_two

lemma Framed.writeLoop (h : Framed c text) {before : Option UInt8} {data : Bytes}
    (hok : (wsWriteLoop io c before data).1 = .ok) :
    Framed (wsWriteLoop io c before data).2 (text ++ crlfText before data) := by
  induction data generalizing c text before with
  | nil => rwa [crlfText, List.append_nil]
  | cons ch data ih =>
    rw [wsWriteLoop] at hok ⊢
    by_cases hbyte : (wsWriteByte io c before ch).1 = .ok
    · rw [if_neg (not_not.mpr hbyte)] at hok ⊢
      rw [crlfText, ← List.append_assoc]
      exact ih (h.writeByte hbyte) hok
    · rw [if_pos hbyte] at hok
      exact absurd hok hbyte

/-- A control frame is no text. -/
lemma Framed.control (h : Framed c text) {first : UInt8} (hfirst : first ≠ 0x81)
    (hok : (wsSendAll io c [first, 0x00]).1 ≠ false) : Framed (wsSendAll io c [first, 0x00]).2 text := by
  obtain ⟨fs, hfs, hfits, htext, hvalid⟩ := h.frames
  have htexts : textsOf (fs ++ [⟨first, []⟩]) = textsOf fs := by
    rw [textsOf_append, textsOf, textsOf, List.filterMap_cons_none (by rw [if_neg hfirst]), List.filterMap_nil,
      List.append_nil]
  rw [wsSendAll_ok hok]
  refine ⟨h.established, h.held, fs ++ [⟨first, []⟩], ?_, fun f hf => ?_, ?_, ?_⟩
  · rw [List.flatten_append, hfs, List.flatMap_append, List.flatMap_singleton]
    rfl
  · rcases List.mem_append.mp hf with hf | hf
    · exact hfits f hf
    · rw [List.mem_singleton.mp hf]
      exact Nat.zero_le _
  · rwa [htexts]
  · rwa [htexts]

lemma Framed.out (h : Framed c text) (out : WsOut) (hok : (wsOut io c out).1 = .ok) :
    Framed (wsOut io c out).2 (text ++ out.text) := by
  have hest : ¬c.established = false := by rw [h.established]; decide
  cases out with
  | write data =>
    rw [wsOut, wsPluginWrite, if_neg hest] at hok ⊢
    exact h.writeLoop hok
  | ping =>
    rw [wsOut, hybbxWsPing, if_neg hest] at hok ⊢
    rw [show WsOut.text .ping = [] from rfl, List.append_nil]
    refine h.control (by decide) fun hfail => ?_
    dsimp only at hok
    rw [hfail] at hok
    exact absurd hok (by decide)
  | pong =>
    rw [show WsOut.text .pong = [] from rfl, List.append_nil, wsOut]
    by_cases hsend : (wsSendAll io c [0x8A, 0x00]).1 = false
    · rw [wsSendAll] at hsend ⊢
      by_cases hio : io c.calls = true
      · rw [if_pos hio] at hsend
        exact absurd hsend.symm Bool.false_ne_true
      · rw [if_neg hio]
        exact ⟨h.established, h.held, h.frames⟩
    · exact h.control (by decide) hsend

/-- A connection that the handshake has just set up. -/
def wsClientNew : WsClient := ⟨true, [], [], 0⟩

lemma framed_new : Framed wsClientNew [] where
  established := rfl
  held := Or.inl rfl
  frames := ⟨[], rfl, fun _ hf => absurd hf List.not_mem_nil, rfl,
    fun cs _ => ⟨[], cs, rfl, rfl, fun _ hp => absurd hp List.not_mem_nil⟩⟩

lemma Framed.outs (h : Framed c text) {outs : List WsOut} (hok : ∀ rc ∈ (wsOuts io c outs).1, rc = .ok) :
    Framed (wsOuts io c outs).2 (text ++ outs.flatMap WsOut.text) := by
  induction outs generalizing c text with
  | nil => rwa [List.flatMap_nil, List.append_nil]
  | cons out outs ih =>
    rw [wsOuts] at hok
    rw [List.flatMap_cons, ← List.append_assoc]
    exact ih (h.out out (hok _ List.mem_cons_self)) fun rc hrc => hok rc (List.mem_cons_of_mem _ hrc)

/-- The flush at the end: of a character that is not whole, a question mark goes out. -/
lemma wsTxFlush_forced (hheld : c.tx = [] ∨ utf8CharSpan c.tx 0 = 0) (hok : (wsTxFlush io c true).1 = .ok) :
    (wsTxFlush io c true).2.sent.flatten = c.sent.flatten ++
      (if c.tx = [] then [] else [WsFrame.mk 0x81 [0x3F]]).flatMap WsFrame.bytes := by
  rw [wsTxFlush, utf8CompletePrefix_held hheld] at hok ⊢
  by_cases hnil : c.tx = []
  · rw [if_pos hnil, if_pos hnil, List.flatMap_nil, List.append_nil]
  · obtain ⟨b, rest, htx⟩ := List.exists_cons_of_ne_nil hnil
    have hforce : (0 : ℕ) = 0 ∧ true = true := ⟨rfl, rfl⟩
    rw [if_neg hnil] at hok ⊢
    dsimp only at hok ⊢
    rw [if_pos hforce, if_pos hforce, if_neg one_ne_zero, htx, List.set_cons_zero, List.take_succ_cons,
      List.take_zero] at hok ⊢
    by_cases hwrite : (hybbxWsWriteText io { c with tx := 0x3F :: rest } [0x3F]).1 = .ok
    · rw [if_neg (not_not.mpr hwrite), if_neg (by simp), List.flatMap_singleton]
      exact (hybbxWsWriteText_ok hwrite).2.2
    · rw [if_pos hwrite] at hok
      exact absurd hok hwrite

/-- A whole text leaves nothing behind. -/
lemma Framed.whole {cs : List Char} (h : Framed c (Utf8.encode cs)) : c.tx = [] := by
  obtain ⟨fs, -, -, htext, hvalid⟩ := h.frames
  obtain ⟨ds, es, rfl, hds, -⟩ := hvalid cs List.prefix_rfl
  rw [hds, Utf8.encode_append] at htext
  have htx := List.append_cancel_left htext
  cases es with
  | nil => exact htx
  | cons e es =>
    obtain ⟨lead, more, hshape, hlead, hmore⟩ := Utf8.utf8EncodeChar_shape e
    have hspan := utf8CharSpan_whole hlead hmore (Utf8.encode es)
    rw [Utf8.encode, List.flatMap_cons, hshape] at htx
    rcases h.held with hnil | hzero
    · exact hnil
    · rw [htx, ← Utf8.encode, hspan] at hzero
      exact absurd hzero (Nat.succ_ne_zero _)

end Run

/-- Over every run of writes and control frames that the socket takes, the client gets frames whose texts are what was
written, up to a character that is not whole yet; when the text is UTF-8, so is that of every frame. -/
theorem text_goes_out_whole (io : ℕ → Bool) (outs : List WsOut)
    (hok : ∀ rc ∈ (wsOuts io wsClientNew outs).1, rc = .ok) :
    ∃ fs, clientFrames (wsOuts io wsClientNew outs).2.sent.flatten = some fs ∧
      (textsOf fs).flatten ++ (wsOuts io wsClientNew outs).2.tx = outs.flatMap WsOut.text ∧
      (wsOuts io wsClientNew outs).2.tx.length ≤ 3 ∧
      (∀ cs, outs.flatMap WsOut.text <+: Utf8.encode cs → ∀ text ∈ textsOf fs, ∃ ds, text = Utf8.encode ds) ∧
      (∀ cs, outs.flatMap WsOut.text = Utf8.encode cs → (wsOuts io wsClientNew outs).2.tx = []) ∧
      ((wsTxFlush io (wsOuts io wsClientNew outs).2 true).1 = .ok →
        clientFrames (wsTxFlush io (wsOuts io wsClientNew outs).2 true).2.sent.flatten =
          some (fs ++ if (wsOuts io wsClientNew outs).2.tx = [] then [] else [⟨0x81, [0x3F]⟩])) := by
  have hrun := framed_new.outs hok
  rw [List.nil_append] at hrun
  obtain ⟨fs, hfs, hfits, htext, hvalid⟩ := hrun.frames
  refine ⟨fs, ?_, htext, held_short hrun.held, fun cs hcs => ?_, fun cs hcs => ?_, fun hflush => ?_⟩
  · rw [clientFrames, hfs]
    exact decodeFrames_bytes hfits le_rfl
  · obtain ⟨-, -, -, -, hwhole⟩ := hvalid cs hcs
    exact hwhole
  · rw [hcs] at hrun
    exact hrun.whole
  · rw [wsTxFlush_forced hrun.held hflush, hfs, ← List.flatMap_append, clientFrames]
    refine decodeFrames_bytes (fun f hf => ?_) le_rfl
    rcases List.mem_append.mp hf with hf | hf
    · exact hfits f hf
    · split_ifs at hf
      · exact absurd hf List.not_mem_nil
      · rw [List.mem_singleton.mp hf]
        decide

theorem text_goes_out_whole_umlaut :
    ∃ fs, clientFrames (wsOuts (fun _ => true) wsClientNew
        [.write [0x48, 0xC3], .ping, .write [0xA4, 0x0A]]).2.sent.flatten = some fs ∧
      (textsOf fs).flatten = [0x48, 0xC3, 0xA4, 0x0D, 0x0A] := by
  obtain ⟨fs, hfs, htext, -, -, hwhole, -⟩ := text_goes_out_whole (fun _ => true)
    [.write [0x48, 0xC3], .ping, .write [0xA4, 0x0A]] (by decide +kernel)
  rw [hwhole ['H', 'ä', '\r', '\n'] (by decide +kernel), List.append_nil] at htext
  exact ⟨fs, hfs, htext⟩

end HyBBX.Websocket
