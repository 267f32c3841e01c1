import HyBBX.Circuit.Decoder

/-! Decoding what the encoder produced gives the frames back, wherever the stream is cut. -/

namespace HyBBX.Circuit

open Lib Lib.Bytes Lib.Transducer

lemma feedByte_header_short {dec : CircuitDecoder} {b : UInt8} (hh : dec.haveHeader = false)
    (hl : dec.buf.length + 1 < circuitHeaderSize) :
    (circuitFeedByte dec b).1.buf = dec.buf ++ [b] ∧
      (circuitFeedByte dec b).1.haveHeader = false ∧ (circuitFeedByte dec b).2 = [] := by
  have hr : dec.buf.length < circuitMaxFrame := by simp only [circuitMaxFrame]; omega
  have hs : (dec.buf ++ [b]).length < circuitHeaderSize := by simpa using hl
  simp only [circuitFeedByte, push_of_room hr, hh, CircuitDecoder.len, hs, if_true,
    Bool.false_eq_true, if_false, and_self]

lemma feed_header_short (xs : Bytes) {dec : CircuitDecoder} (hh : dec.haveHeader = false)
    (hl : dec.buf.length + xs.length < circuitHeaderSize) :
    (circuitDecoderFeed dec xs).1.buf = dec.buf ++ xs ∧
      (circuitDecoderFeed dec xs).1.haveHeader = false ∧ (circuitDecoderFeed dec xs).2 = [] := by
  induction xs generalizing dec with
  | nil => simpa [circuitDecoderFeed] using hh
  | cons b xs ih =>
    simp only [List.length_cons] at hl
    obtain ⟨hb, hh', ho⟩ := feedByte_header_short (b := b) hh (by omega)
    have hn : (circuitFeedByte dec b).1.buf.length + xs.length < circuitHeaderSize := by
      rw [hb, List.length_append, List.length_singleton]
      omega
    obtain ⟨hb', hh'', ho'⟩ := ih hh' hn
    simp only [circuitDecoderFeed, run_cons] at *
    exact ⟨by rw [hb', hb, List.append_assoc, List.singleton_append], hh'', by rw [ho, ho']; rfl⟩

/-- Inside the payload nothing is delivered and nothing but the buffer changes. -/
lemma feed_payload_short (xs : Bytes) (dec : CircuitDecoder) (hh : dec.haveHeader = true)
    (hm : dec.need ≤ circuitMaxPayload)
    (hl : dec.buf.length + xs.length < circuitHeaderSize + dec.need) :
    ∃ h, circuitDecoderFeed dec xs = ({ dec with buf := dec.buf ++ xs, fits := h }, []) := by
  induction xs generalizing dec with
  | nil => exact ⟨by simpa using dec.fits, by simp [circuitDecoderFeed]⟩
  | cons b xs ih =>
    simp only [List.length_cons] at hl
    have hr : dec.buf.length < circuitMaxFrame := by simp only [circuitMaxFrame]; omega
    have hs : (dec.buf ++ [b]).length < circuitHeaderSize + dec.need := by
      simp only [List.length_append, List.length_singleton]
      omega
    have hb : circuitFeedByte dec b =
        ({ dec with buf := dec.buf ++ [b], fits := by simpa using hr }, []) := by
      simp only [circuitFeedByte, push_of_room hr, hh, if_true, circuitFinish, CircuitDecoder.len, hs]
    obtain ⟨hf, hx⟩ := ih { dec with buf := dec.buf ++ [b], fits := by simpa using hr } hh hm
      (by simp only [List.length_append, List.length_singleton]; omega)
    simp only [circuitDecoderFeed] at hx
    refine ⟨by simpa using hf, ?_⟩
    simp only [circuitDecoderFeed, run_cons, hb, hx, List.append_assoc, List.singleton_append,
      List.nil_append]

lemma finish_full (dec : CircuitDecoder) (hl : dec.buf.length = circuitHeaderSize + dec.need) :
    circuitFinish dec = (dec.reset, [dec.frame]) := by
  have h1 : ¬ dec.buf.length < circuitHeaderSize + dec.need := by omega
  have h2 : ¬ dec.buf.length < circuitHeaderSize := by omega
  simp only [circuitFinish, circuitDeliver, CircuitDecoder.len]
  rw [if_neg h1, if_neg h2]

lemma feed_payload_full (xs : Bytes) (dec : CircuitDecoder) (hx : xs ≠ [])
    (hh : dec.haveHeader = true) (hm : dec.need ≤ circuitMaxPayload)
    (hl : dec.buf.length + xs.length = circuitHeaderSize + dec.need) :
    ∃ h, circuitDecoderFeed dec xs =
      (dec.reset, [({ dec with buf := dec.buf ++ xs, fits := h } : CircuitDecoder).frame]) := by
  obtain ⟨ys, b, rfl⟩ : ∃ ys b, xs = ys ++ [b] :=
    ⟨xs.dropLast, xs.getLast hx, (List.dropLast_append_getLast hx).symm⟩
  simp only [List.length_append, List.length_singleton] at hl
  obtain ⟨hf, hys⟩ := feed_payload_short ys dec hh hm (by omega)
  have hr : (dec.buf ++ ys).length < circuitMaxFrame := by
    simp only [List.length_append, circuitMaxFrame]
    omega
  have hfit : (dec.buf ++ ys ++ [b]).length ≤ circuitMaxFrame := by
    rw [List.length_append, List.length_singleton]
    omega
  have he : circuitFeedByte { dec with buf := dec.buf ++ ys, fits := hf } b =
      circuitFinish { dec with buf := dec.buf ++ ys ++ [b], fits := hfit } := by
    rw [circuitFeedByte, push_of_room hr]
    simp only [hh, if_true]
  have hq := finish_full { dec with buf := dec.buf ++ ys ++ [b], fits := hfit }
    (by simp only [List.length_append, List.length_singleton]; omega)
  refine ⟨by simpa only [List.append_assoc] using hfit, ?_⟩
  rw [feed_append, hys, feed_singleton, he, hq, List.nil_append]
  simp only [List.append_assoc]
  rfl

/-- The byte that completes a well-formed header. -/
lemma feedByte_header_last {dec : CircuitDecoder} {proto : CircuitProto} {flags : UInt16} {n : ℕ}
    {out : Bytes} {b : UInt8} (hh : dec.haveHeader = false) (hn : n ≤ circuitMaxPayload)
    (hb : dec.buf ++ [b] = circuitHeader proto flags n out) :
    ∃ h, circuitFeedByte dec b = circuitFinish
      ⟨circuitHeader proto flags n out, n, true, proto, flags, h⟩ := by
  have hlen : dec.buf.length + 1 = circuitHeaderSize := by
    have := congrArg List.length hb
    simpa using this
  have hr : dec.buf.length < circuitMaxFrame := by simp only [circuitMaxFrame]; omega
  have hn32 : n < 2 ^ 32 := by simp only [circuitMaxPayload] at hn; omega
  refine ⟨by simp only [circuitHeader_length, circuitMaxFrame]; omega, ?_⟩
  simp only [circuitFeedByte, push_of_room hr, hh, hb, CircuitDecoder.len, circuitHeader_length,
    lt_irrefl, Bool.false_eq_true, if_false]
  simp [circuitParseHeader, circuitHeader, readBe16_byteAt, readBe32_byteAt n hn32, hn]

lemma feed_header {dec : CircuitDecoder} (hi : dec.Idle) (proto : CircuitProto) (flags : UInt16)
    {n : ℕ} (hn : n ≤ circuitMaxPayload) (out : Bytes) :
    ∃ h, circuitDecoderFeed dec (circuitHeader proto flags n out) = circuitFinish
      ⟨circuitHeader proto flags n out, n, true, proto, flags, h⟩ := by
  have hbuf : dec.buf = [] := List.eq_nil_of_length_eq_zero hi.1
  obtain ⟨ys, b, hy⟩ : ∃ ys b, circuitHeader proto flags n out = ys ++ [b] :=
    ⟨_, _, (List.dropLast_append_getLast (by simp [circuitHeader])).symm⟩
  have hlen : ys.length + 1 = circuitHeaderSize := by
    have := congrArg List.length hy
    simpa using this.symm
  obtain ⟨h1, h2, h3⟩ := feed_header_short ys hi.2 (by rw [hbuf, List.length_nil]; omega)
  obtain ⟨hf, h4⟩ := feedByte_header_last h2 hn
    (by rw [h1, hbuf, List.nil_append, ← hy])
  refine ⟨hf, ?_⟩
  rw [congrArg (circuitDecoderFeed dec) hy, feed_append, h3, feed_singleton, h4, List.nil_append]

/-- One encoded frame, read by a decoder between two frames. -/
lemma feed_encode {dec : CircuitDecoder} (hi : dec.Idle) {f : CircuitFrame} {out bytes : Bytes}
    (he : circuitEncode f.proto f.flags f.payload out = some bytes) :
    (circuitDecoderFeed dec bytes).1.Idle ∧ (circuitDecoderFeed dec bytes).2 = [f] := by
  obtain ⟨hm, _, rfl⟩ := circuitEncode_eq_some he
  obtain ⟨hf, hhead⟩ := feed_header hi f.proto f.flags hm out
  rw [feed_append, hhead]
  by_cases hp : f.payload = []
  · rw [finish_full _ (by simp [hp])]
    refine ⟨by simpa [hp, circuitDecoderFeed] using reset_idle _, ?_⟩
    simp only [hp, circuitDecoderFeed, run_nil, List.append_nil, List.cons.injEq, and_true]
    exact CircuitFrame.eq_of_fields rfl rfl (by simp [CircuitDecoder.frame, hp])
  · have hpos : 0 < f.payload.length := List.length_pos_iff.mpr hp
    have hwait : (circuitHeader f.proto f.flags f.payload.length out).length <
        circuitHeaderSize + f.payload.length := by
      rw [circuitHeader_length]
      omega
    rw [circuitFinish, if_pos hwait]
    obtain ⟨hf', hbody⟩ := feed_payload_full f.payload
      ⟨circuitHeader f.proto f.flags f.payload.length out, f.payload.length, true, f.proto, f.flags, hf⟩
      hp rfl hm (by rw [circuitHeader_length])
    rw [hbody, List.nil_append]
    refine ⟨reset_idle _, ?_⟩
    simp only [List.cons.injEq, and_true]
    exact CircuitFrame.eq_of_fields rfl rfl (by simp [CircuitDecoder.frame, List.drop_append])

/-- A list of frames, each with the output buffer it is encoded into. -/
def encodeAll (fs : List (CircuitFrame × Bytes)) : Option (List Bytes) :=
  fs.mapM fun p => circuitEncode p.1.proto p.1.flags p.1.payload p.2

lemma encodeAll_cons_eq_some {p : CircuitFrame × Bytes} {fs : List (CircuitFrame × Bytes)}
    {encoded : List Bytes} (h : encodeAll (p :: fs) = some encoded) :
    ∃ b bs, circuitEncode p.1.proto p.1.flags p.1.payload p.2 = some b ∧
      encodeAll fs = some bs ∧ encoded = b :: bs := by
  simp only [encodeAll, List.mapM_cons, Option.pure_def, Option.bind_eq_bind,
    Option.bind_eq_some_iff, Option.some.injEq] at h
  obtain ⟨b, hb, bs, hbs, rfl⟩ := h
  exact ⟨b, bs, hb, hbs, rfl⟩

lemma encodeAll_isSome {fs : List (CircuitFrame × Bytes)}
    (ho : ∀ p ∈ fs, p.1.size ≤ p.2.length) : ∃ encoded, encodeAll fs = some encoded := by
  induction fs with
  | nil => exact ⟨[], rfl⟩
  | cons p fs ih =>
    obtain ⟨bs, hbs⟩ := ih fun q hq => ho q (List.mem_cons_of_mem p hq)
    have hp := circuitEncode_of_fits p.1.proto p.1.flags p.1.fits
      (ho p List.mem_cons_self)
    exact ⟨_ :: bs, by simp only [encodeAll, List.mapM_cons] at *; rw [hp, hbs]; rfl⟩

lemma encodeAll_length {fs : List (CircuitFrame × Bytes)} {encoded : List Bytes}
    (h : encodeAll fs = some encoded) :
    encoded.flatten.length = (fs.map fun p => p.1.size).sum := by
  induction fs generalizing encoded with
  | nil =>
    obtain rfl : [] = encoded := Option.some.inj h
    rfl
  | cons p fs ih =>
    obtain ⟨b, bs, hb, hbs, rfl⟩ := encodeAll_cons_eq_some h
    simp only [List.flatten_cons, List.length_append, List.map_cons, List.sum_cons, ih hbs,
      circuitEncode_length hb, CircuitFrame.size]

lemma feed_encodeAll {dec : CircuitDecoder} (hi : dec.Idle) {fs : List (CircuitFrame × Bytes)}
    {encoded : List Bytes} (h : encodeAll fs = some encoded) :
    (circuitDecoderFeed dec encoded.flatten).1.Idle ∧
      (circuitDecoderFeed dec encoded.flatten).2 = fs.map Prod.fst := by
  induction fs generalizing dec encoded with
  | nil =>
    obtain rfl : [] = encoded := Option.some.inj h
    exact ⟨hi, rfl⟩
  | cons p fs ih =>
    obtain ⟨b, bs, hb, hbs, rfl⟩ := encodeAll_cons_eq_some h
    obtain ⟨hb', hf⟩ := feed_encode hi hb
    obtain ⟨hr, hfs⟩ := ih hb' hbs
    rw [List.flatten_cons, feed_append]
    exact ⟨hr, by rw [hf, hfs]; rfl⟩

/-- However the encoded stream is cut, a fresh decoder delivers the frames in order and ends empty. -/
theorem feedAll_encodeAll (fs : List (CircuitFrame × Bytes))
    (ho : ∀ p ∈ fs, p.1.size ≤ p.2.length) :
    ∃ encoded, encodeAll fs = some encoded ∧
      ∀ chunks : List Bytes, chunks.flatten = encoded.flatten →
        let r := circuitDecoderFeedAll circuitDecoderInit chunks
        r.2 = fs.map Prod.fst ∧ r.1.len = 0 ∧ r.1.haveHeader = false := by
  obtain ⟨encoded, he⟩ := encodeAll_isSome ho
  refine ⟨encoded, he, ?_⟩
  intro chunks hc
  obtain ⟨⟨hl, hh⟩, hf⟩ := feed_encodeAll init_idle he
  rw [circuitDecoderFeedAll_eq, hc]
  exact ⟨hf, hl, hh⟩

/-- Two frames, the first one carrying the magic bytes as payload. -/
theorem feedAll_encodeAll_magic :
    let f : CircuitFrame := ⟨.terminal, 2, [0x48, 0x42, 0x58, 0x01], by decide⟩
    let g : CircuitFrame := ⟨.flowCtrl, 0, [], by decide⟩
    ∃ encoded, encodeAll [(f, List.replicate 16 7), (g, List.replicate 12 0)] = some encoded ∧
      ∀ chunks : List Bytes, chunks.flatten = encoded.flatten →
        let r := circuitDecoderFeedAll circuitDecoderInit chunks
        r.2 = [f, g] ∧ r.1.len = 0 ∧ r.1.haveHeader = false :=
  feedAll_encodeAll [(⟨.terminal, 2, [0x48, 0x42, 0x58, 0x01], by decide⟩, List.replicate 16 7),
    (⟨.flowCtrl, 0, [], by decide⟩, List.replicate 12 0)] (by decide)

end HyBBX.Circuit
