import HyBBX.Circuit.Frame
import HyBBX.Lib.Transducer

/-! The incremental HBX decoder. The receive buffer is the list of the bytes it holds, and the
decoder carries the proof that they never outgrow the array. -/

namespace HyBBX.Circuit

open Lib Lib.Bytes Lib.Transducer

structure CircuitDecoder where
  buf : Bytes
  need : ℕ
  haveHeader : Bool
  proto : CircuitProto
  flags : UInt16
  fits : buf.length ≤ circuitMaxFrame
  deriving DecidableEq

abbrev CircuitDecoder.len (dec : CircuitDecoder) : ℕ := dec.buf.length

def circuitDecoderInit : CircuitDecoder := ⟨[], 0, false, ⟨0⟩, 0, by simp⟩

/-- `dec->buf[dec->len++] = data[i]`, after the reset of a full buffer. -/
def CircuitDecoder.push (dec : CircuitDecoder) (b : UInt8) : CircuitDecoder :=
  if h : circuitMaxFrame ≤ dec.buf.length then
    { circuitDecoderInit with buf := [b], fits := by simp [circuitMaxFrame, circuitHeaderSize]; omega }
  else
    { dec with buf := dec.buf ++ [b], fits := by simp only [List.length_append, List.length_singleton]; omega }

/-- The header fields are stored before the length check, so they change on a refusal too. -/
def circuitParseHeader (dec : CircuitDecoder) : Bool × CircuitDecoder :=
  let h := fun i => dec.buf.getD i 0
  if h 0 ≠ circuitMagic0 ∨ h 1 ≠ circuitMagic1 ∨ h 2 ≠ circuitMagic2 ∨ h 3 ≠ circuitVersion then
    (false, dec)
  else
    let need := readBe32 (h 7) (h 8) (h 9) (h 10)
    (decide (need ≤ circuitMaxPayload),
      { dec with proto := ⟨h 4⟩, flags := readBe16 (h 5) (h 6), need := need })

def CircuitDecoder.reset (dec : CircuitDecoder) : CircuitDecoder :=
  { dec with buf := [], need := 0, haveHeader := false, fits := by simp }

def CircuitDecoder.frame (dec : CircuitDecoder) : CircuitFrame where
  proto := dec.proto
  flags := dec.flags
  payload := dec.buf.drop circuitHeaderSize
  fits := by
    have := dec.fits
    simp only [List.length_drop, circuitMaxFrame] at *
    omega

def circuitDeliver (dec : CircuitDecoder) : CircuitDecoder × List CircuitFrame :=
  if dec.len < circuitHeaderSize then (dec.reset, []) else (dec.reset, [dec.frame])

def CircuitDecoder.dropFirst (dec : CircuitDecoder) : CircuitDecoder :=
  { dec with buf := dec.buf.tail, fits := by have := dec.fits; simp only [List.length_tail]; omega }

def circuitFinish (dec : CircuitDecoder) : CircuitDecoder × List CircuitFrame :=
  if dec.len < circuitHeaderSize + dec.need then (dec, []) else circuitDeliver dec

/-- One iteration of the loop of `hybbx_circuit_decoder_feed`. -/
def circuitFeedByte (dec : CircuitDecoder) (b : UInt8) : CircuitDecoder × List CircuitFrame :=
  let dec := dec.push b
  if dec.haveHeader then circuitFinish dec
  else if dec.len < circuitHeaderSize then (dec, [])
  else
    let r := circuitParseHeader dec
    if r.1 then circuitFinish { r.2 with haveHeader := true } else (r.2.dropFirst, [])

def circuitDecoderFeed (dec : CircuitDecoder) (data : Bytes) : CircuitDecoder × List CircuitFrame :=
  run circuitFeedByte dec data

/-- Consecutive calls of `hybbx_circuit_decoder_feed`, one for each chunk. -/
def circuitDecoderFeedAll (dec : CircuitDecoder) (chunks : List Bytes) :
    CircuitDecoder × List CircuitFrame :=
  runChunks circuitFeedByte dec chunks

lemma circuitDecoderFeedAll_eq (dec : CircuitDecoder) (chunks : List Bytes) :
    circuitDecoderFeedAll dec chunks = circuitDecoderFeed dec chunks.flatten :=
  runChunks_flatten circuitFeedByte dec chunks

lemma push_of_room {dec : CircuitDecoder} {b : UInt8} (h : dec.buf.length < circuitMaxFrame) :
    dec.push b = { dec with buf := dec.buf ++ [b], fits := by simpa using h } := by
  rw [CircuitDecoder.push, dif_neg (by omega)]

/-- Between two frames nothing is stored. -/
def CircuitDecoder.Idle (dec : CircuitDecoder) : Prop := dec.len = 0 ∧ dec.haveHeader = false

lemma init_idle : circuitDecoderInit.Idle := ⟨rfl, rfl⟩

lemma reset_idle (dec : CircuitDecoder) : dec.reset.Idle := ⟨rfl, rfl⟩

lemma feed_singleton (dec : CircuitDecoder) (b : UInt8) :
    circuitDecoderFeed dec [b] = circuitFeedByte dec b :=
  run_singleton circuitFeedByte dec b

lemma feed_append (dec : CircuitDecoder) (xs ys : Bytes) :
    circuitDecoderFeed dec (xs ++ ys) =
      ((circuitDecoderFeed (circuitDecoderFeed dec xs).1 ys).1,
        (circuitDecoderFeed dec xs).2 ++ (circuitDecoderFeed (circuitDecoderFeed dec xs).1 ys).2) :=
  run_append circuitFeedByte dec xs ys

@[simp] lemma reset_len (dec : CircuitDecoder) : dec.reset.len = 0 := rfl

@[simp] lemma dropFirst_len (dec : CircuitDecoder) : dec.dropFirst.len = dec.len - 1 :=
  List.length_tail

@[simp] lemma frame_size (dec : CircuitDecoder) :
    dec.frame.size = circuitHeaderSize + (dec.len - circuitHeaderSize) := by
  simp [CircuitFrame.size, CircuitDecoder.frame]

lemma push_len_le (dec : CircuitDecoder) (b : UInt8) : (dec.push b).len ≤ dec.len + 1 := by
  unfold CircuitDecoder.push CircuitDecoder.len
  split <;> simp

@[simp] lemma parseHeader_len (dec : CircuitDecoder) : (circuitParseHeader dec).2.len = dec.len := by
  unfold circuitParseHeader
  dsimp only
  split <;> rfl

lemma finish_weight (dec : CircuitDecoder) :
    (circuitFinish dec).1.len + ((circuitFinish dec).2.map CircuitFrame.size).sum ≤ dec.len := by
  unfold circuitFinish circuitDeliver
  split_ifs with h1 h2
  · simp
  · simp
  · simp only [reset_len, List.map_cons, List.map_nil, List.sum_cons, List.sum_nil, frame_size]
    omega

lemma feedByte_weight (dec : CircuitDecoder) (b : UInt8) :
    (circuitFeedByte dec b).1.len + ((circuitFeedByte dec b).2.map CircuitFrame.size).sum ≤
      dec.len + 1 := by
  have hp := push_len_le dec b
  unfold circuitFeedByte
  dsimp only
  split_ifs with h1 h2 h3
  · exact (finish_weight _).trans hp
  · simpa using hp
  · exact (finish_weight _).trans ((parseHeader_len (dec.push b)).trans_le hp)
  · simp only [dropFirst_len, parseHeader_len, List.map_nil, List.sum_nil]
    omega

/-- A decoder never delivers more than it was fed. -/
lemma feed_weight (dec : CircuitDecoder) (bs : Bytes) :
    (circuitDecoderFeed dec bs).1.len + ((circuitDecoderFeed dec bs).2.map CircuitFrame.size).sum ≤
      dec.len + bs.length :=
  run_weight circuitFeedByte CircuitDecoder.len (fun fs => (fs.map CircuitFrame.size).sum)
    (by simp) rfl feedByte_weight dec bs

end HyBBX.Circuit
