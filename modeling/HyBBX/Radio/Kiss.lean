import HyBBX.Lib.Bytes
import HyBBX.Lib.Transducer

/-! KISS framing on the serial line: a command byte and a body between two frame ends, with escapes. -/

namespace HyBBX.Radio

open Lib Lib.Bytes Lib.Transducer

def kissFend : UInt8 := 0xC0
def kissFesc : UInt8 := 0xDB
def kissTfend : UInt8 := 0xDC
def kissTfesc : UInt8 := 0xDD
def kissMaxFrame : ℕ := 2048

/-- The C enum takes any number, so every byte is a command. -/
structure KissCommand where
  byte : UInt8
  deriving DecidableEq, Repr

namespace KissCommand

def data : KissCommand := ⟨0x00⟩
def txdelay : KissCommand := ⟨0x01⟩
def persist : KissCommand := ⟨0x02⟩
def slottime : KissCommand := ⟨0x03⟩
def txtail : KissCommand := ⟨0x04⟩
def fullduplex : KissCommand := ⟨0x05⟩
def sethardware : KissCommand := ⟨0x06⟩

end KissCommand

structure KissDecoder where
  buf : Bytes
  inFrame : Bool
  escape : Bool
  fits : buf.length ≤ kissMaxFrame
  deriving DecidableEq

def kissDecoderInit : KissDecoder := ⟨[], false, false, by simp⟩

/-- What the callback receives. -/
structure KissFrame where
  port : UInt8
  payload : Bytes
  deriving DecidableEq, Repr

def deliverFrame (buf : Bytes) : List KissFrame :=
  match buf with
  | [] => []
  | b :: payload => [⟨(b >>> 4) &&& 0x0F, payload⟩]

/-- The frame that the next frame end completes. -/
def KissDecoder.pending (dec : KissDecoder) : List KissFrame :=
  if dec.inFrame then deliverFrame dec.buf else []

-- the decoder behind a frame end
def kissOpened : KissDecoder := ⟨[], true, false, by simp⟩

def KissDecoder.store (dec : KissDecoder) (b : UInt8) : KissDecoder :=
  if h : kissMaxFrame ≤ dec.buf.length then ⟨[], false, false, by simp⟩
  else ⟨dec.buf ++ [b], dec.inFrame, false, by rw [List.length_append, List.length_singleton]; omega⟩

/-- One iteration of the loop of `hybbx_kiss_decoder_feed`. -/
def kissFeedByte (dec : KissDecoder) (b : UInt8) : KissDecoder × List KissFrame :=
  if b = kissFend then (kissOpened, dec.pending)
  else if dec.inFrame = false then (dec, [])
  else if dec.escape then
    -- any other byte behind an escape stands for itself
    (dec.store (if b = kissTfend then kissFend else if b = kissTfesc then kissFesc else b), [])
  else if b = kissFesc then ({ dec with escape := true }, [])
  else (dec.store b, [])

def kissDecoderFeed (dec : KissDecoder) (data : Bytes) : KissDecoder × List KissFrame :=
  run kissFeedByte dec data

/-- Consecutive calls of `hybbx_kiss_decoder_feed`, one for each chunk. -/
def kissDecoderFeedAll (dec : KissDecoder) (chunks : List Bytes) : KissDecoder × List KissFrame :=
  runChunks kissFeedByte dec chunks

def kissWriteByte (outCap : ℕ) (out : Bytes) (b : UInt8) : Option Bytes :=
  if outCap < out.length + 1 then none
  else if b = kissFend then if outCap < out.length + 2 then none else some (out ++ [kissFesc, kissTfend])
  else if b = kissFesc then if outCap < out.length + 2 then none else some (out ++ [kissFesc, kissTfesc])
  else some (out ++ [b])

def kissCmdByte (port : UInt8) (cmd : KissCommand) : UInt8 := ((port &&& 0x0F) <<< 4) ||| (cmd.byte &&& 0x0F)

-- `none` is the return value 0
def kissEncode (port : UInt8) (cmd : KissCommand) (payload : Bytes) (outCap : ℕ) : Option Bytes :=
  if outCap < 3 then none
  else if outCap < payload.length + 4 then none
  else (kissCmdByte port cmd :: payload).foldlM (kissWriteByte outCap) [kissFend] |>.bind fun out =>
    if outCap < out.length + 1 then none else some (out ++ [kissFend])

def kissEscape (b : UInt8) : Bytes :=
  if b = kissFend then [kissFesc, kissTfend] else if b = kissFesc then [kissFesc, kissTfesc] else [b]

lemma kissWriteByte_eq_some {outCap : ℕ} {out out' : Bytes} {b : UInt8}
    (h : kissWriteByte outCap out b = some out') : out' = out ++ kissEscape b := by
  simp only [kissWriteByte, Option.ite_none_left_eq_some] at h
  obtain ⟨-, h⟩ := h
  rw [kissEscape]
  split_ifs at h ⊢
  · exact (Option.some.inj h).symm
  · exact (Option.some.inj h).symm
  · exact (Option.some.inj h).symm

lemma foldlM_kissWriteByte {outCap : ℕ} (bs : Bytes) {out out' : Bytes}
    (h : bs.foldlM (kissWriteByte outCap) out = some out') : out' = out ++ bs.flatMap kissEscape := by
  induction bs generalizing out with
  | nil =>
    obtain rfl := Option.some.inj h
    simp
  | cons b bs ih =>
    rw [List.foldlM_cons] at h
    obtain ⟨mid, hb, hr⟩ := Option.bind_eq_some_iff.mp h
    rw [ih hr, kissWriteByte_eq_some hb, List.flatMap_cons, List.append_assoc]

lemma kissEscape_length_le (b : UInt8) : (kissEscape b).length ≤ 2 := by
  rw [kissEscape]
  split_ifs <;> simp

lemma kissWriteByte_of_room {outCap : ℕ} {out : Bytes} (b : UInt8) (h : out.length + 2 ≤ outCap) :
    kissWriteByte outCap out b = some (out ++ kissEscape b) := by
  have h2 : ¬outCap < out.length + 2 := by omega
  rw [kissWriteByte, if_neg (by omega), kissEscape]
  simp only [h2, if_false]
  split_ifs <;> rfl

lemma foldlM_kissWriteByte_of_room {outCap : ℕ} (bs : Bytes) {out : Bytes} (h : out.length + 2 * bs.length ≤ outCap) :
    ∃ out', bs.foldlM (kissWriteByte outCap) out = some out' ∧ out'.length ≤ out.length + 2 * bs.length := by
  induction bs generalizing out with
  | nil => exact ⟨out, rfl, le_refl _⟩
  | cons b bs ih =>
    have hb := kissEscape_length_le b
    rw [List.length_cons] at h ⊢
    obtain ⟨out', hout, hlen⟩ := @ih (out ++ kissEscape b) (by rw [List.length_append]; omega)
    rw [List.length_append] at hlen
    refine ⟨out', ?_, by omega⟩
    rw [List.foldlM_cons, kissWriteByte_of_room b (by omega)]
    exact hout

-- every byte may need an escape
lemma kissEncode_of_room (port : UInt8) (cmd : KissCommand) {payload : Bytes} {outCap : ℕ}
    (h : 2 * payload.length + 4 ≤ outCap) : ∃ bytes, kissEncode port cmd payload outCap = some bytes := by
  obtain ⟨out, hout, hlen⟩ := @foldlM_kissWriteByte_of_room outCap (kissCmdByte port cmd :: payload)
    [kissFend] (by simp only [List.length_cons, List.length_nil]; omega)
  simp only [List.length_cons, List.length_nil] at hlen
  refine ⟨out ++ [kissFend], ?_⟩
  rw [kissEncode, if_neg (by omega), if_neg (by omega), hout, Option.bind_some, if_neg (by omega)]

lemma kissEncode_eq_some {port : UInt8} {cmd : KissCommand} {payload bytes : Bytes} {outCap : ℕ}
    (h : kissEncode port cmd payload outCap = some bytes) :
    payload.length + 4 ≤ outCap ∧
      bytes = kissFend :: (kissCmdByte port cmd :: payload).flatMap kissEscape ++ [kissFend] := by
  simp only [kissEncode, Option.ite_none_left_eq_some, Option.bind_eq_some_iff, Option.some.injEq] at h
  obtain ⟨-, hlen, out, hout, -, rfl⟩ := h
  rw [foldlM_kissWriteByte _ hout]
  exact ⟨by omega, rfl⟩

lemma kissDecoderFeedAll_eq (dec : KissDecoder) (chunks : List Bytes) :
    kissDecoderFeedAll dec chunks = kissDecoderFeed dec chunks.flatten :=
  runChunks_flatten kissFeedByte dec chunks

lemma kissFeed_append (dec : KissDecoder) (xs ys : Bytes) :
    kissDecoderFeed dec (xs ++ ys) =
      ((kissDecoderFeed (kissDecoderFeed dec xs).1 ys).1,
        (kissDecoderFeed dec xs).2 ++ (kissDecoderFeed (kissDecoderFeed dec xs).1 ys).2) :=
  run_append kissFeedByte dec xs ys

lemma kissFeed_singleton (dec : KissDecoder) (b : UInt8) : kissDecoderFeed dec [b] = kissFeedByte dec b :=
  run_singleton kissFeedByte dec b

lemma kissFeed_fend (dec : KissDecoder) : kissFeedByte dec kissFend = (kissOpened, dec.pending) := by
  rw [kissFeedByte, if_pos rfl]

lemma kissFeed_escape {dec : KissDecoder} (hin : dec.inFrame = true) (hesc : dec.escape = false)
    (hroom : dec.buf.length < kissMaxFrame) (b : UInt8) :
    kissDecoderFeed dec (kissEscape b) =
      (⟨dec.buf ++ [b], true, false, by rw [List.length_append]; exact hroom⟩, []) := by
  have hfull : ¬kissMaxFrame ≤ dec.buf.length := by omega
  have hf : kissFesc ≠ kissFend := by decide
  by_cases h1 : b = kissFend
  · have ht : kissTfend ≠ kissFend := by decide
    rw [kissEscape, if_pos h1, h1, kissDecoderFeed, run_cons, run_singleton]
    simp [kissFeedByte, hf, ht, hin, hesc, KissDecoder.store, hfull]
  · by_cases h2 : b = kissFesc
    · have ht : kissTfesc ≠ kissFend := by decide
      have ht' : kissTfesc ≠ kissTfend := by decide
      rw [kissEscape, if_neg h1, if_pos h2, h2, kissDecoderFeed, run_cons, run_singleton]
      simp [kissFeedByte, hf, ht, ht', hin, hesc, KissDecoder.store, hfull]
    · rw [kissEscape, if_neg h1, if_neg h2, kissDecoderFeed, run_singleton]
      simp [kissFeedByte, h1, h2, hin, hesc, KissDecoder.store, hfull]

lemma kissFeed_escapes (bs : Bytes) {dec : KissDecoder} (hin : dec.inFrame = true) (hesc : dec.escape = false)
    (hroom : dec.buf.length + bs.length ≤ kissMaxFrame) :
    kissDecoderFeed dec (bs.flatMap kissEscape) =
      (⟨dec.buf ++ bs, true, false, by rw [List.length_append]; exact hroom⟩, []) := by
  induction bs generalizing dec with
  | nil =>
    obtain ⟨buf, inFrame, escape, fits⟩ := dec
    obtain rfl : inFrame = true := hin
    obtain rfl : escape = false := hesc
    simp [kissDecoderFeed]
  | cons b bs ih =>
    rw [List.length_cons] at hroom
    have hb := kissFeed_escape hin hesc (by omega) b
    have hr := @ih ⟨dec.buf ++ [b], true, false, by rw [List.length_append, List.length_singleton]; omega⟩ rfl rfl
      (by rw [List.length_append, List.length_singleton]; omega)
    rw [List.flatMap_cons, kissFeed_append, hb, hr]
    simp

lemma byte_nibble (b : UInt8) : ∃ n : Fin 16, b &&& 0x0F = UInt8.ofNat n := by
  refine ⟨⟨b.toNat % 16, Nat.mod_lt _ (by decide)⟩, ?_⟩
  apply UInt8.toNat_inj.mp
  have h := Nat.and_two_pow_sub_one_eq_mod b.toNat 4
  simp only [Nat.reducePow, Nat.reduceSub] at h
  rw [UInt8.toNat_and, show UInt8.toNat 0x0F = 15 from rfl, h, UInt8.toNat_ofNat']
  dsimp only
  omega

lemma high_nibble (n m : Fin 16) : (((UInt8.ofNat n <<< 4) ||| UInt8.ofNat m) >>> 4) &&& 0x0F = UInt8.ofNat n := by
  revert n m
  decide +kernel

lemma kissCmdByte_port (port : UInt8) (cmd : KissCommand) :
    (kissCmdByte port cmd >>> 4) &&& 0x0F = port &&& 0x0F := by
  obtain ⟨n, hn⟩ := byte_nibble port
  obtain ⟨m, hm⟩ := byte_nibble cmd.byte
  rw [kissCmdByte, hn, hm]
  exact high_nibble n m

/-- An encoded frame, read from any state: what was pending comes first. -/
lemma kissFeed_encode {dec : KissDecoder} {port : UInt8} {cmd : KissCommand} {payload bytes : Bytes} {outCap : ℕ}
    (h : kissEncode port cmd payload outCap = some bytes) (hlen : payload.length < kissMaxFrame) :
    kissDecoderFeed dec bytes = (kissOpened, dec.pending ++ [⟨port &&& 0x0F, payload⟩]) := by
  obtain ⟨-, rfl⟩ := kissEncode_eq_some h
  have hbody := @kissFeed_escapes (kissCmdByte port cmd :: payload) kissOpened rfl rfl
    (by rw [List.length_cons]; simpa [kissOpened] using hlen)
  rw [← List.singleton_append, List.append_assoc, kissFeed_append, kissFeed_singleton, kissFeed_fend,
    kissFeed_append, hbody, kissFeed_singleton, kissFeed_fend]
  simp [KissDecoder.pending, kissOpened, deliverFrame, kissCmdByte_port]

/-! A stream of KISS frames: a decoder in any state finds every frame behind one extra frame end. -/

/-- What one call of the encoder is given, within the ranges of its fields. -/
structure KissMessage where
  port : UInt8
  cmd : KissCommand
  payload : Bytes
  port_lt : port < 16
  cmd_lt : cmd.byte < 16
  fits : payload.length < kissMaxFrame

/-- The bytes are a message as the encoder writes it into some buffer. -/
def KissMessage.Encodes (msg : KissMessage) (bytes : Bytes) : Prop :=
  ∃ outCap, kissEncode msg.port msg.cmd msg.payload outCap = some bytes

def KissMessage.frame (msg : KissMessage) : KissFrame := ⟨msg.port, msg.payload⟩

lemma nibble_of_lt {b : UInt8} (h : b < 16) : b &&& 0x0F = b := by
  revert h b
  apply forall_byte
  decide +kernel

lemma kissFeed_message (msg : KissMessage) {bytes : Bytes} (h : msg.Encodes bytes) (dec : KissDecoder) :
    kissDecoderFeed dec bytes = (kissOpened, dec.pending ++ [msg.frame]) := by
  obtain ⟨outCap, he⟩ := h
  rw [kissFeed_encode he msg.fits, nibble_of_lt msg.port_lt]
  rfl

lemma pending_opened : kissOpened.pending = [] := rfl

/-- Behind a frame end nothing is pending, so the frames come out one after the other. -/
lemma kissFeed_messages {msgs : List KissMessage} {encodings : List Bytes}
    (h : List.Forall₂ KissMessage.Encodes msgs encodings) :
    kissDecoderFeed kissOpened encodings.flatten = (kissOpened, msgs.map KissMessage.frame) := by
  induction h with
  | nil => rfl
  | cons hm hms ih =>
    rw [List.flatten_cons, kissFeed_append, kissFeed_message _ hm, ih, pending_opened]
    rfl

/-- A buffer with room for an escape before every byte takes each message; and whatever state a decoder
is in, it hands out what was pending and then the messages, and never holds more than its buffer. -/
theorem kiss_stream_delivered (msgs : List KissMessage) :
    (∀ msg ∈ msgs, ∀ outCap, 2 * msg.payload.length + 4 ≤ outCap →
      (kissEncode msg.port msg.cmd msg.payload outCap).isSome) ∧
    ∀ encodings : List Bytes, List.Forall₂ KissMessage.Encodes msgs encodings →
      ∀ (dec : KissDecoder) (chunks : List Bytes), chunks.flatten = kissFend :: encodings.flatten →
        (kissDecoderFeedAll dec chunks).2 = dec.pending ++ msgs.map KissMessage.frame ∧
          ∀ seen, seen <+: chunks.flatten → (kissDecoderFeed dec seen).1.buf.length ≤ kissMaxFrame := by
  constructor
  · intro msg _ outCap hroom
    obtain ⟨bytes, he⟩ := kissEncode_of_room msg.port msg.cmd hroom
    rw [he]
    rfl
  · intro encodings henc dec chunks hchunks
    constructor
    · rw [kissDecoderFeedAll_eq, hchunks, ← List.singleton_append, kissFeed_append, kissFeed_singleton,
        kissFeed_fend, kissFeed_messages henc]
    · intro seen _
      exact (kissDecoderFeed dec seen).1.fits

-- port 12 makes the command byte a frame end; the decoder is inside a frame, behind an escape
theorem kiss_stream_delivered_escapes :
    (kissDecoderFeedAll ⟨[0x10, 0x41], true, true, by decide⟩
      [[kissFend, kissFend, kissFesc], [kissTfend, kissFesc, kissTfesc, 0x42], [kissFend]]).2 =
        [⟨1, [0x41]⟩, ⟨12, [kissFesc, 0x42]⟩] :=
  (((kiss_stream_delivered [⟨12, .data, [kissFesc, 0x42], by decide, by decide, by decide⟩]).2
    [[kissFend, kissFesc, kissTfend, kissFesc, kissTfesc, 0x42, kissFend]]
    (.cons ⟨20, by decide⟩ .nil) ⟨[0x10, 0x41], true, true, by decide⟩ _ rfl).1).trans (by decide)

end HyBBX.Radio
