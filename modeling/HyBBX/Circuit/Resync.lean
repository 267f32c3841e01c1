import HyBBX.Circuit.Decoder
import Mathlib.Data.List.GetD

/-! The decoder on any stream at all: it delivers what a scan of the whole stream finds, offset by offset. -/

namespace HyBBX.Circuit

open Lib Lib.Bytes Lib.Transducer

/-- The header that starts a stream, with its payload's length. -/
def headAt (bs : Bytes) : Option (CircuitProto × UInt16 × ℕ) :=
  let h := fun i => bs.getD i 0
  let need := readBe32 (h 7) (h 8) (h 9) (h 10)
  if bs.length < circuitHeaderSize then none
  else if h 0 ≠ circuitMagic0 ∨ h 1 ≠ circuitMagic1 ∨ h 2 ≠ circuitMagic2 ∨ h 3 ≠ circuitVersion then none
  else if circuitMaxPayload < need then none
  else some (⟨h 4⟩, readBe16 (h 5) (h 6), need)

/-- The frame that starts a stream, unless the stream ends inside it. -/
def frameAt (proto : CircuitProto) (flags : UInt16) (need : ℕ) (bs : Bytes) : Option CircuitFrame :=
  if h : need ≤ circuitMaxPayload ∧ circuitHeaderSize + need ≤ bs.length then
    some ⟨proto, flags, (bs.drop circuitHeaderSize).take need, (List.length_take_le _ _).trans h.1⟩
  else none

/-- The frames of a stream behind its first `skip` bytes: where a header starts, its frame and what comes behind it,
elsewhere the next offset. -/
def scanFrames : ℕ → Bytes → List CircuitFrame
  | _, [] => []
  | skip + 1, _ :: bs => scanFrames skip bs
  | 0, b :: bs => match headAt (b :: bs) with
    | none => scanFrames 0 bs
    | some (proto, flags, need) => match frameAt proto flags need (b :: bs) with
      | none => []
      | some frame => frame :: scanFrames (circuitHeaderSize + need - 1) bs

section Scan

lemma headAt_short {bs : Bytes} (h : bs.length < circuitHeaderSize) : headAt bs = none := by
  rw [headAt]
  exact if_pos h

lemma headAt_le {bs : Bytes} {proto : CircuitProto} {flags : UInt16} {need : ℕ}
    (h : headAt bs = some (proto, flags, need)) :
    need ≤ circuitMaxPayload := by
  simp only [headAt, Option.ite_none_left_eq_some, Option.some.injEq, Prod.mk.injEq] at h
  obtain ⟨-, -, hle, -, -, rfl⟩ := h
  exact not_lt.mp hle

/-- A header is told by its own bytes. -/
lemma headAt_append {u : Bytes} (h : circuitHeaderSize ≤ u.length) (bs : Bytes) : headAt (u ++ bs) = headAt u := by
  have hget : ∀ i < circuitHeaderSize, (u ++ bs).getD i 0 = u.getD i 0 := by
    intro i hi
    exact List.getD_append _ _ _ _ (by omega)
  have hlen : ¬(u ++ bs).length < circuitHeaderSize := by
    rw [List.length_append]
    omega
  rw [headAt, headAt, if_neg hlen, if_neg (not_lt.mpr h)]
  simp (disch := decide) only [hget]

lemma scanFrames_skip (xs bs : Bytes) : scanFrames xs.length (xs ++ bs) = scanFrames 0 bs := by
  induction xs with
  | nil => rfl
  | cons b xs ih => exact ih

lemma scanFrames_next {u : Bytes} (hu : u ≠ []) (h : headAt u = none) : scanFrames 0 u = scanFrames 0 u.tail := by
  cases u with
  | nil => exact absurd rfl hu
  | cons b bs =>
    rw [scanFrames, h]
    rfl

lemma scanFrames_short {bs : Bytes} (h : bs.length < circuitHeaderSize) : scanFrames 0 bs = [] := by
  induction bs with
  | nil => rfl
  | cons b bs ih =>
    rw [scanFrames_next (List.cons_ne_nil b bs) (headAt_short h)]
    exact ih ((Nat.lt_succ_self _).trans h)

variable {u : Bytes} {proto : CircuitProto} {flags : UInt16} {need : ℕ} (hhead : headAt u = some (proto, flags, need))

include hhead

lemma scanFrames_cut (h : u.length < circuitHeaderSize + need) : scanFrames 0 u = [] := by
  cases u with
  | nil => rfl
  | cons b bs =>
    have hcut : ¬(need ≤ circuitMaxPayload ∧ circuitHeaderSize + need ≤ (b :: bs).length) :=
      fun hc => absurd hc.2 (not_le.mpr h)
    rw [scanFrames, hhead]
    dsimp only
    rw [frameAt, dif_neg hcut]

lemma scanFrames_frame (h : u.length = circuitHeaderSize + need) (bs : Bytes) :
    ∃ frame, frameAt proto flags need u = some frame ∧ scanFrames 0 (u ++ bs) = frame :: scanFrames 0 bs := by
  have hle := headAt_le hhead
  have hframe : frameAt proto flags need (u ++ bs) = frameAt proto flags need u := by
    have hsame : ((u ++ bs).drop circuitHeaderSize).take need = (u.drop circuitHeaderSize).take need := by
      rw [List.drop_append_of_le_length (by omega), List.take_append_of_le_length (by rw [List.length_drop]; omega)]
    have hlong : circuitHeaderSize + need ≤ (u ++ bs).length := by
      rw [List.length_append]
      omega
    simp only [frameAt, dif_pos (And.intro hle hlong), dif_pos (And.intro hle h.ge), hsame]
  refine ⟨_, dif_pos ⟨hle, h.ge⟩, ?_⟩
  have happ := headAt_append (u := u) (by omega) bs
  cases u with
  | nil => exact absurd h (by rw [List.length_nil, circuitHeaderSize]; omega)
  | cons b xs =>
    have hxs : circuitHeaderSize + need - 1 = xs.length := by
      rw [List.length_cons] at h
      omega
    rw [List.cons_append] at happ hframe ⊢
    rw [scanFrames, happ, hhead]
    dsimp only
    rw [hframe, frameAt, dif_pos ⟨hle, h.ge⟩, hxs]
    dsimp only
    rw [scanFrames_skip]

end Scan

/-- What a decoder holds between two bytes: the start of a header, or the start of a frame behind its header. -/
structure Waiting (dec : CircuitDecoder) : Prop where
  header : dec.haveHeader = false → dec.len < circuitHeaderSize
  payload : dec.haveHeader = true → circuitHeaderSize ≤ dec.len ∧ dec.len < circuitHeaderSize + dec.need ∧
    headAt dec.buf = some (dec.proto, dec.flags, dec.need)

section Feed

variable {dec : CircuitDecoder}

lemma init_waiting : Waiting circuitDecoderInit := ⟨fun _ => by decide, fun h => absurd h Bool.false_ne_true⟩

lemma reset_waiting (dec : CircuitDecoder) : Waiting dec.reset :=
  ⟨fun _ => by rw [reset_len]; decide, fun h => absurd h Bool.false_ne_true⟩

lemma Waiting.room (h : Waiting dec) : dec.len < circuitMaxFrame := by
  rw [circuitMaxFrame]
  cases hh : dec.haveHeader with
  | false => exact (h.header hh).trans_le (Nat.le_add_right _ _)
  | true =>
    obtain ⟨-, hlt, hhead⟩ := h.payload hh
    have hle := headAt_le hhead
    omega

/-- A buffer behind a header either waits on or is one frame. -/
lemma finish_scan (hh : dec.haveHeader = true) (hlen : circuitHeaderSize ≤ dec.len)
    (hle : dec.len ≤ circuitHeaderSize + dec.need) (hhead : headAt dec.buf = some (dec.proto, dec.flags, dec.need))
    (bs : Bytes) :
    Waiting (circuitFinish dec).1 ∧
      (circuitFinish dec).2 ++ scanFrames 0 ((circuitFinish dec).1.buf ++ bs) = scanFrames 0 (dec.buf ++ bs) := by
  rw [circuitFinish]
  by_cases hlt : dec.len < circuitHeaderSize + dec.need
  · rw [if_pos hlt]
    exact ⟨⟨fun h => absurd (hh.symm.trans h) (by decide), fun _ => ⟨hlen, hlt, hhead⟩⟩, rfl⟩
  · rw [if_neg hlt, circuitDeliver, if_neg (not_lt.mpr hlen)]
    refine ⟨reset_waiting dec, ?_⟩
    obtain ⟨frame, hframe, hscan⟩ := scanFrames_frame hhead (le_antisymm hle (not_lt.mp hlt)) bs
    rw [hscan]
    have hsame : dec.frame = frame := by
      rw [frameAt] at hframe
      split_ifs at hframe with hc
      obtain rfl := Option.some.inj hframe
      refine CircuitFrame.eq_of_fields rfl rfl (List.take_of_length_le ?_).symm
      rw [CircuitDecoder.frame, List.length_drop]
      exact Nat.sub_le_iff_le_add'.mpr hle
    rw [hsame]
    rfl

lemma parseHeader_buf (dec : CircuitDecoder) :
    (circuitParseHeader dec).2.buf = dec.buf ∧ (circuitParseHeader dec).2.haveHeader = dec.haveHeader := by
  rw [circuitParseHeader]
  dsimp only
  split_ifs <;> exact ⟨rfl, rfl⟩

/-- The header check stores the fields also where it refuses the length. -/
lemma parseHeader_head (hlen : circuitHeaderSize ≤ dec.len) :
    (circuitParseHeader dec).1 = false ∧ headAt dec.buf = none ∨
      (circuitParseHeader dec).1 = true ∧ headAt dec.buf =
        some ((circuitParseHeader dec).2.proto, (circuitParseHeader dec).2.flags, (circuitParseHeader dec).2.need) := by
  rw [circuitParseHeader, headAt, if_neg (not_lt.mpr hlen)]
  dsimp only
  split_ifs with hmagic hneed
  · exact .inl ⟨rfl, rfl⟩
  · exact .inl ⟨decide_eq_false (not_le.mpr hneed), rfl⟩
  · exact .inr ⟨decide_eq_true (not_lt.mp hneed), rfl⟩

/-- A full header starts a frame, or its first byte is skipped. -/
lemma header_scan (hh : dec.haveHeader = false) (hlen : dec.len = circuitHeaderSize) (bs : Bytes) :
    let r := circuitParseHeader dec
    let next := if r.1 then circuitFinish { r.2 with haveHeader := true } else (r.2.dropFirst, [])
    Waiting next.1 ∧ next.2 ++ scanFrames 0 (next.1.buf ++ bs) = scanFrames 0 (dec.buf ++ bs) := by
  obtain ⟨hbuf, hhead'⟩ := parseHeader_buf dec
  dsimp only
  rcases @parseHeader_head dec hlen.ge with ⟨hno, hhead⟩ | ⟨hok, hhead⟩
  · rw [hno, if_neg Bool.false_ne_true]
    refine ⟨⟨fun _ => ?_, fun h => absurd (h.symm.trans (hhead'.trans hh)) (by decide)⟩, ?_⟩
    · rw [dropFirst_len, parseHeader_len, hlen]
      decide
    · have hne : dec.buf ≠ [] := List.ne_nil_of_length_pos (lt_of_lt_of_eq (by decide) hlen.symm)
      have hscan := scanFrames_next (List.append_ne_nil_of_left_ne_nil hne bs) ((headAt_append hlen.ge bs).trans hhead)
      rw [hscan, List.tail_append_of_ne_nil hne, ← hbuf]
      rfl
  · rw [hok, if_pos rfl]
    have hlen' : (circuitParseHeader dec).2.len = circuitHeaderSize := (parseHeader_len dec).trans hlen
    have hfin := @finish_scan { (circuitParseHeader dec).2 with haveHeader := true } rfl hlen'.ge
      (hlen'.le.trans (Nat.le_add_right _ _)) (by rw [hbuf]; exact hhead) bs
    rw [hbuf] at hfin
    exact hfin

lemma feedByte_scan (h : Waiting dec) (b : UInt8) (bs : Bytes) :
    Waiting (circuitFeedByte dec b).1 ∧
      (circuitFeedByte dec b).2 ++ scanFrames 0 ((circuitFeedByte dec b).1.buf ++ bs) =
          scanFrames 0 (dec.buf ++ b :: bs) := by
  rw [List.append_cons, circuitFeedByte, push_of_room h.room]
  have hsize : (dec.buf ++ [b]).length = dec.len + 1 := by rw [List.length_append, List.length_singleton]
  dsimp only
  cases hh : dec.haveHeader with
  | true =>
    obtain ⟨hlen, hlt, hhead⟩ := h.payload hh
    rw [if_pos rfl]
    apply finish_scan rfl
    · exact (hlen.trans (Nat.le_succ _)).trans hsize.ge
    · exact hsize.le.trans hlt
    · exact (headAt_append hlen [b]).trans hhead
  | false =>
    rw [if_neg Bool.false_ne_true]
    by_cases hs : (dec.buf ++ [b]).length < circuitHeaderSize
    · rw [if_pos hs]
      exact ⟨⟨fun _ => hs, fun hf => absurd hf Bool.false_ne_true⟩, rfl⟩
    · rw [if_neg hs]
      refine header_scan ?_ (le_antisymm ?_ (not_lt.mp hs)) bs
      · rfl
      · exact hsize.le.trans (h.header hh)

lemma feed_scan (h : Waiting dec) (bs : Bytes) :
    Waiting (circuitDecoderFeed dec bs).1 ∧ (circuitDecoderFeed dec bs).2 = scanFrames 0 (dec.buf ++ bs) := by
  induction bs generalizing dec with
  | nil =>
    refine ⟨h, ?_⟩
    rw [List.append_nil]
    cases hh : dec.haveHeader with
    | false => exact (scanFrames_short (h.header hh)).symm
    | true =>
      obtain ⟨-, hlt, hhead⟩ := h.payload hh
      exact (scanFrames_cut hhead hlt).symm
  | cons b bs ih =>
    obtain ⟨hnext, hscan⟩ := feedByte_scan h b bs
    obtain ⟨hlast, hframes⟩ := ih hnext
    rw [circuitDecoderFeed] at hlast hframes ⊢
    rw [run_cons]
    exact ⟨hlast, by rw [hframes, hscan]⟩

end Feed

/-- Where `hybbx_circuit_decoder_feed` stores its next byte. -/
def CircuitDecoder.storeIndex (dec : CircuitDecoder) : ℕ := if circuitMaxFrame ≤ dec.len then 0 else dec.len

/-- However a stream is cut, the callbacks are the frames of the scan, and each byte is stored behind those that wait. -/
theorem feedAll_scans (chunks : List Bytes) :
    (circuitDecoderFeedAll circuitDecoderInit chunks).2 = scanFrames 0 chunks.flatten ∧
      ∀ xs ys, chunks.flatten = xs ++ ys →
        (circuitDecoderFeed circuitDecoderInit xs).1.storeIndex = (circuitDecoderFeed circuitDecoderInit xs).1.len ∧
          (circuitDecoderFeed circuitDecoderInit xs).1.storeIndex < circuitMaxFrame := by
  constructor
  · rw [circuitDecoderFeedAll_eq]
    exact (feed_scan init_waiting chunks.flatten).2
  · intro xs ys _
    have hroom := (feed_scan init_waiting xs).1.room
    have hindex : (circuitDecoderFeed circuitDecoderInit xs).1.storeIndex =
      (circuitDecoderFeed circuitDecoderInit xs).1.len :=
      if_neg (not_le.mpr hroom)
    exact ⟨hindex, hindex.trans_lt hroom⟩

-- a false magic in front of a header, and an empty frame behind it
example : scanFrames 0 [0x48, 0x42, 0x48, 0x42, 0x58, 1, 0x10, 0, 0, 0, 0, 0, 0, 0] =
    [⟨.terminal, 0, [], by decide⟩] := by
  decide

end HyBBX.Circuit
