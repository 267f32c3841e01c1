import HyBBX.Radio.Kiss

/-! 6PACK framing: a lead, a count, the bytes moved out of the control range, a checksum. -/

namespace HyBBX.Radio

open Lib Lib.Bytes Lib.Transducer

def sixpackLead : UInt8 := 0x53

def sixpackByte (b : UInt8) : UInt8 := if b < 0x30 then b + 0x40 else b

-- `none` is the return value 0; the scratch buffer has room for the longest frame
def sixpackEncode (frame : Bytes) (outCap : ℕ) : Option Bytes :=
  if frame = [] ∨ kissMaxFrame < frame.length then none
  else if outCap < frame.length + 4 ∨ 255 < frame.length + 1 then none
  else
    let count := UInt8.ofNat (frame.length + 1)
    let scratch := frame.map sixpackByte
    let sum := scratch.foldl (· + ·) count
    some (sixpackLead :: count :: scratch ++ [0 - sum])

structure SixpackDecoder where
  buf : Bytes
  inFrame : Bool
  count : UInt8
  checksum : UInt8
  fits : buf.length ≤ kissMaxFrame

lemma sixpack_fits_nil : ([] : Bytes).length ≤ kissMaxFrame := Nat.zero_le _

def sixpackDecoderInit : SixpackDecoder := ⟨[], false, 0, 0, sixpack_fits_nil⟩

def sixpackReset : SixpackDecoder := ⟨[], false, 0, 0, sixpack_fits_nil⟩

-- the decoder behind a lead
def sixpackOpened : SixpackDecoder := ⟨[], true, 0, 0, sixpack_fits_nil⟩

def SixpackDecoder.store (dec : SixpackDecoder) (count checksum b : UInt8) : SixpackDecoder :=
  if h : kissMaxFrame ≤ dec.buf.length then sixpackReset
  else ⟨dec.buf ++ [b], true, count, checksum, by rw [List.length_append, List.length_singleton]; omega⟩

def sixpackDeliver (dec : SixpackDecoder) : SixpackDecoder × List Bytes :=
  (sixpackReset, if 0 < dec.buf.length then [dec.buf] else [])

/-- One iteration of the loop of `hybbx_sixpack_decoder_feed`. -/
def sixpackFeedByte (dec : SixpackDecoder) (raw : UInt8) : SixpackDecoder × List Bytes :=
  if dec.inFrame = false then (if raw = sixpackLead then sixpackOpened else dec, [])
  else if dec.count = 0 then ({ dec with count := raw, checksum := raw }, [])
  else
    let count := dec.count - 1
    let checksum := dec.checksum + raw
    let byte := if raw < 0x30 then raw + 0x40 else raw
    if 0 < count then (dec.store count checksum byte, [])
    else if checksum = 0 then sixpackDeliver dec
    else (sixpackReset, [])

def sixpackDecoderFeed (dec : SixpackDecoder) (data : Bytes) : SixpackDecoder × List Bytes :=
  run sixpackFeedByte dec data

/-- Consecutive calls of `hybbx_sixpack_decoder_feed`, one for each chunk. -/
def sixpackDecoderFeedAll (dec : SixpackDecoder) (chunks : List Bytes) : SixpackDecoder × List Bytes :=
  runChunks sixpackFeedByte dec chunks

lemma sixpackEncode_eq_some {frame bytes : Bytes} {outCap : ℕ} (h : sixpackEncode frame outCap = some bytes) :
    frame ≠ [] ∧ frame.length < 255 ∧
      bytes = sixpackLead :: UInt8.ofNat (frame.length + 1) :: frame.map sixpackByte ++
        [0 - (frame.map sixpackByte).foldl (· + ·) (UInt8.ofNat (frame.length + 1))] := by
  simp only [sixpackEncode, Option.ite_none_left_eq_some, not_or, Option.some.injEq] at h
  obtain ⟨⟨hne, -⟩, ⟨-, hlen⟩, rfl⟩ := h
  exact ⟨hne, by omega, rfl⟩

/-- Nothing that the encoder writes is in the range that the decoder moves. -/
lemma sixpackByte_high (b : UInt8) : ¬sixpackByte b < 0x30 := by
  revert b
  apply forall_byte
  decide +kernel

section Feed

variable {dec : SixpackDecoder}

lemma sixpackFeed_stored {raw : UInt8} (hin : dec.inFrame = true) (hcount : 1 < dec.count.toNat)
    (hroom : dec.buf.length < kissMaxFrame) (hraw : ¬raw < 0x30) :
    sixpackFeedByte dec raw =
      (⟨dec.buf ++ [raw], true, dec.count - 1, dec.checksum + raw, by rw [List.length_append]; exact hroom⟩, []) := by
  have hzero : dec.count ≠ 0 := by
    intro h
    rw [h] at hcount
    exact absurd hcount (by decide)
  have hone : (1 : UInt8) ≤ dec.count := UInt8.le_iff_toNat_le.mpr hcount.le
  have hleft : 0 < dec.count - 1 := by
    rw [UInt8.lt_iff_toNat_lt, UInt8.toNat_sub_of_le _ _ hone]
    exact Nat.sub_pos_of_lt hcount
  have hfull : ¬kissMaxFrame ≤ dec.buf.length := not_le.mpr hroom
  simp [sixpackFeedByte, hin, hzero, hleft, hraw, SixpackDecoder.store, hfull]

/-- The bytes of a frame go into the buffer while the count runs down. -/
lemma sixpackFeed_body (bs : Bytes) (hbs : ∀ b ∈ bs, ¬b < 0x30) (hin : dec.inFrame = true)
    (hcount : dec.count.toNat = bs.length + 1) (hroom : dec.buf.length + bs.length ≤ kissMaxFrame) :
    sixpackDecoderFeed dec bs =
      (⟨dec.buf ++ bs, true, 1, bs.foldl (· + ·) dec.checksum, by rw [List.length_append]; exact hroom⟩, []) := by
  induction bs generalizing dec with
  | nil =>
    obtain ⟨buf, inFrame, count, checksum, fits⟩ := dec
    obtain rfl : inFrame = true := hin
    obtain rfl : count = 1 := UInt8.toNat_inj.mp hcount
    simp [sixpackDecoderFeed]
  | cons b bs ih =>
    rw [List.length_cons] at hcount hroom
    have hb := hbs b List.mem_cons_self
    have hstep := sixpackFeed_stored hin (by omega) (by omega) hb
    have hone : (1 : UInt8) ≤ dec.count := by
      rw [UInt8.le_iff_toNat_le, hcount]
      exact Nat.le_add_left 1 _
    have hrest := @ih ⟨dec.buf ++ [b], true, dec.count - 1, dec.checksum + b, by
      rw [List.length_append, List.length_singleton]; omega⟩ (fun c hc => hbs c (List.mem_cons_of_mem b hc)) rfl
      (by
        rw [UInt8.toNat_sub_of_le _ _ hone, hcount]
        exact Nat.add_sub_cancel _ 1)
      (by rw [List.length_append, List.length_singleton]; omega)
    rw [sixpackDecoderFeed] at hrest ⊢
    rw [run_cons, hstep, hrest]
    simp

lemma sixpackFeed_last {raw : UInt8} (hin : dec.inFrame = true) (hcount : dec.count = 1) (hsum : dec.checksum + raw = 0)
    (hbuf : dec.buf ≠ []) : sixpackFeedByte dec raw = (sixpackReset, [dec.buf]) := by
  have hlen := List.length_pos_iff.mpr hbuf
  simp [sixpackFeedByte, hin, hcount, hsum, sixpackDeliver, hlen]

end Feed

/-- The decoder delivers the bytes as they were sent: none of them is moved back. -/
lemma sixpackFeed_encode {frame bytes : Bytes} {outCap : ℕ} (h : sixpackEncode frame outCap = some bytes) :
    sixpackDecoderFeed sixpackDecoderInit bytes = (sixpackReset, [frame.map sixpackByte]) := by
  obtain ⟨hne, hlen, rfl⟩ := sixpackEncode_eq_some h
  have hcount : (UInt8.ofNat (frame.length + 1)).toNat = frame.length + 1 := by
    rw [UInt8.toNat_ofNat']
    omega
  have hmax : kissMaxFrame = 2048 := rfl
  generalize hn : UInt8.ofNat (frame.length + 1) = n at hcount ⊢
  have hbody := @sixpackFeed_body ⟨[], true, n, n, by simp⟩ (frame.map sixpackByte)
    (fun b hb => by
      obtain ⟨c, -, rfl⟩ := List.mem_map.mp hb
      exact sixpackByte_high c)
    rfl (by rw [List.length_map]; exact hcount)
    (by rw [List.length_nil, List.length_map]; omega)
  have hopen : sixpackDecoderFeed sixpackDecoderInit [sixpackLead, n] = (⟨[], true, n, n, by simp⟩, []) := rfl
  rw [sixpackDecoderFeed] at hbody hopen ⊢
  rw [show ∀ xs ys, sixpackLead :: n :: xs ++ ys = [sixpackLead, n] ++ (xs ++ ys) from fun _ _ => rfl,
    run_append, hopen,
    run_append, hbody, run_singleton]
  have hsum : ∀ s : UInt8, s + (0 - s) = 0 := forall_byte (by decide +kernel)
  dsimp only
  rw [sixpackFeed_last rfl rfl (hsum _) (by simpa using hne)]
  rfl

lemma sixpackByte_eq_self_iff (b : UInt8) : sixpackByte b = b ↔ 0x30 ≤ b := by
  revert b
  apply forall_byte
  decide +kernel

/-- Two bytes that are sent as one. -/
def SameCode (a b : UInt8) : Prop := a = b ∨ (a < 0x30 ∧ b = a + 0x40) ∨ (b < 0x30 ∧ a = b + 0x40)

instance : DecidableRel SameCode := fun a b =>
  inferInstanceAs (Decidable (a = b ∨ (a < 0x30 ∧ b = a + 0x40) ∨ (b < 0x30 ∧ a = b + 0x40)))

lemma sixpackByte_eq_iff (a b : UInt8) : sixpackByte a = sixpackByte b ↔ SameCode a b := by
  have ha := a.toNat_lt
  have hb := b.toNat_lt
  rw [sixpackByte, sixpackByte, SameCode]
  split_ifs with hlow hlow' hlow'
  all_goals
    simp only [UInt8.lt_iff_toNat_lt, ← UInt8.toNat_inj, UInt8.toNat_add, UInt8.reduceToNat] at *
    omega

lemma sixpack_map_eq_iff {f g : Bytes} : f.map sixpackByte = g.map sixpackByte ↔ List.Forall₂ SameCode f g := by
  rw [← List.forall₂_eq_eq_eq, List.forall₂_map_left_iff, List.forall₂_map_right_iff]
  simp only [sixpackByte_eq_iff]

/-- A frame comes back as it was if it has no byte of the control range; and another frame is told apart from it if
somewhere they differ by more than the move out of that range. -/
theorem sixpack_delivered_iff {frame bytes : Bytes} {outCap : ℕ} (h : sixpackEncode frame outCap = some bytes) :
    (∀ chunks : List Bytes, chunks.flatten = bytes →
      ((sixpackDecoderFeedAll sixpackDecoderInit chunks).2 = [frame] ↔ ∀ b ∈ frame, 0x30 ≤ b)) ∧
    ∀ (other otherBytes : Bytes) (otherCap : ℕ), sixpackEncode other otherCap = some otherBytes → frame ≠ other →
      (bytes ≠ otherBytes ↔ ¬List.Forall₂ SameCode frame other) := by
  constructor
  · intro chunks hchunks
    have hfeed : (sixpackDecoderFeedAll sixpackDecoderInit chunks).2 = [frame.map sixpackByte] := by
      rw [sixpackDecoderFeedAll, runChunks_flatten, hchunks]
      exact congrArg Prod.snd (sixpackFeed_encode h)
    rw [hfeed, List.cons.injEq, and_iff_left rfl]
    conv_lhs => rw [← List.map_id frame, List.map_map]
    rw [List.map_inj_left]
    simp only [Function.comp_apply, id_eq, sixpackByte_eq_self_iff]
  · intro other otherBytes otherCap ho _
    rw [not_iff_not, ← sixpack_map_eq_iff]
    constructor
    · intro heq
      have hfeed := sixpackFeed_encode h
      rw [heq, sixpackFeed_encode ho] at hfeed
      exact (List.cons.inj (congrArg Prod.snd hfeed)).1.symm
    · intro hmap
      obtain ⟨-, -, rfl⟩ := sixpackEncode_eq_some h
      obtain ⟨-, -, rfl⟩ := sixpackEncode_eq_some ho
      have hlen : frame.length = other.length := by
        rw [← frame.length_map sixpackByte, hmap, List.length_map]
      rw [hmap, hlen]

theorem sixpack_delivered_letters :
    (sixpackDecoderFeedAll sixpackDecoderInit [[0x53, 0x03, 0x48], [0x49, 0x6C]]).2 = [[0x48, 0x49]] :=
  ((@sixpack_delivered_iff [0x48, 0x49] [0x53, 0x03, 0x48, 0x49, 0x6C] 6 (by decide +kernel)).1 _ rfl).mpr
    (by decide +kernel)

/-- A control byte comes back as a letter, and the letter is sent in the same way. -/
theorem sixpack_control_moved :
    (sixpackEncode [0x03] 8).map (fun bytes => (sixpackDecoderFeed sixpackDecoderInit bytes).2) = some [[0x43]] ∧
      sixpackEncode [0x03] 8 = sixpackEncode [0x43] 8 := by decide

end HyBBX.Radio
