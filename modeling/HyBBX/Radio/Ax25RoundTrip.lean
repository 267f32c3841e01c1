import HyBBX.Radio.Ax25

/-! What the parser makes of address fields that the builder wrote. -/

namespace HyBBX.Radio

open Lib Lib.Bytes Lib.Text

/-- An address as the other side reads its field. -/
def Ax25Address.onAir (addr : Ax25Address) : Ax25Address where
  call := cstr ((padCall addr.call).map fun b : UInt8 => decodeChar (b <<< 1))
  ssid := addr.ssid &&& 0x0F
  string := by
    refine ⟨le_trans (List.takeWhile_prefix _).length_le ?_, zero_notMem_cstr _⟩
    rw [List.length_map, padCall_length]

def Ax25Path.onAir (path : Ax25Path) : Ax25Path where
  dest := path.dest.onAir
  source := path.source.onAir
  digi := path.digi.map Ax25Address.onAir
  fits := by rw [List.length_map]; exact path.fits

lemma ssid_nibble (ssid : UInt32) : ∃ n < 16, ssid &&& 0x0F = UInt32.ofNat n := by
  refine ⟨ssid.toNat % 16, Nat.mod_lt _ (by decide), ?_⟩
  apply UInt32.toNat_inj.mp
  have h := Nat.and_two_pow_sub_one_eq_mod ssid.toNat 4
  simp only [Nat.reducePow, Nat.reduceSub] at h
  rw [UInt32.toNat_and, show UInt32.toNat 0x0F = 15 from rfl, h, UInt32.toNat_ofNat']
  omega

/-- The lowest bit of the field tells the last address, the four above it are the SSID. -/
lemma ssidByte_spec (ssid : UInt32) (last : Bool) :
    decide (ssidByte ssid last &&& 0x01 ≠ 0) = last ∧
      ((ssidByte ssid last >>> 1) &&& 0x0F).toUInt32 = ssid &&& 0x0F := by
  obtain ⟨n, hn, h⟩ := ssid_nibble ssid
  rw [ssidByte, h]
  cases last
  · interval_cases n <;> decide
  · interval_cases n <;> decide

lemma ax25EncodeAddress_fields (addr : Ax25Address) (last : Bool) : ∃ a b c d e f,
    ax25EncodeAddress addr last = [a, b, c, d, e, f, ssidByte addr.ssid last] ∧
      decodeAddress a b c d e f (ssidByte addr.ssid last) = addr.onAir := by
  have hlen := padCall_length addr
  obtain ⟨a, b, c, d, e, f, hpad⟩ : ∃ a b c d e f, padCall addr.call = [a, b, c, d, e, f] := by
    match hp : padCall addr.call with
    | [a, b, c, d, e, f] => exact ⟨a, b, c, d, e, f, rfl⟩
    | [] | [_] | [_, _] | [_, _, _] | [_, _, _, _] | [_, _, _, _, _] | _ :: _ :: _ :: _ :: _ :: _ :: _ :: _ =>
      rw [hp] at hlen
      simp [ax25CallMax] at hlen
  refine ⟨_, _, _, _, _, _, by rw [ax25EncodeAddress, hpad]; rfl, ?_⟩
  simp only [decodeAddress, Ax25Address.onAir, Ax25Address.mk.injEq, (ssidByte_spec addr.ssid last).2,
    and_true, hpad]
  rfl

/-- The path behind one more field. -/
def takeAddress (digi : ℕ) (path : Ax25Path) (addr : Ax25Address) (last : Bool) : Ax25Path :=
  if digi = 0 then { path with dest := addr }
  else if last = false then path.addDigi addr
  else { path with source := addr }

lemma parseAddresses_step (digi : ℕ) (path : Ax25Path) (addr : Ax25Address) (last : Bool) (rest : Bytes) :
    parseAddresses digi path (ax25EncodeAddress addr last ++ rest) =
      if last then some (takeAddress digi path addr.onAir last, rest)
      else if ax25MaxDigi + 1 < digi + 1 then none
      else parseAddresses (digi + 1) (takeAddress digi path addr.onAir last) rest := by
  obtain ⟨a, b, c, d, e, f, he, hd⟩ := ax25EncodeAddress_fields addr last
  simp only [he, List.cons_append, List.nil_append, parseAddresses, hd, (ssidByte_spec addr.ssid last).1,
    takeAddress]

-- the digipeaters and the source, once the destination is read
lemma parseAddresses_digi (digis : List Ax25Address) (source : Ax25Address) (path : Ax25Path) (rest : Bytes)
    (h : path.digi.length + digis.length ≤ ax25MaxDigi) :
    ∃ q : Ax25Path, q.dest = path.dest ∧ q.source = source.onAir ∧
      q.digi = path.digi ++ digis.map Ax25Address.onAir ∧
      parseAddresses (path.digi.length + 1) path
        (digis.flatMap (ax25EncodeAddress · false) ++ (ax25EncodeAddress source true ++ rest)) = some (q, rest) := by
  induction digis generalizing path with
  | nil =>
    refine ⟨{ path with source := source.onAir }, rfl, rfl, by simp, ?_⟩
    rw [List.flatMap_nil, List.nil_append, parseAddresses_step]
    simp [takeAddress]
  | cons d digis ih =>
    rw [List.length_cons] at h
    have hroom : path.digi.length < ax25MaxDigi := by omega
    have hadd : (path.addDigi d.onAir).digi = path.digi ++ [d.onAir] := by
      rw [Ax25Path.addDigi, dif_pos hroom]
    have hdest : (path.addDigi d.onAir).dest = path.dest := by
      rw [Ax25Path.addDigi, dif_pos hroom]
    have hlen : (path.addDigi d.onAir).digi.length = path.digi.length + 1 := by
      rw [hadd, List.length_append, List.length_singleton]
    obtain ⟨q, hq, hs, hg, hp⟩ := ih (path.addDigi d.onAir) (by omega)
    refine ⟨q, hq.trans hdest, hs, by rw [hg, hadd, List.map_cons, List.append_assoc]; rfl, ?_⟩
    rw [List.flatMap_cons, List.append_assoc, parseAddresses_step]
    have htake : takeAddress (path.digi.length + 1) path d.onAir false = path.addDigi d.onAir := by
      simp [takeAddress]
    rw [htake, if_neg Bool.false_ne_true, if_neg (by omega), ← hlen]
    exact hp

lemma parseAddresses_append {path : Ax25Path} {outCap : ℕ}
    (h : (2 + path.digi.length) * ax25AddrEncoded ≤ outCap) (rest : Bytes) :
    parseAddresses 0 .zero (appendAddresses path outCap ++ rest) = some (path.onAir, rest) := by
  rw [appendAddresses, if_neg (by omega), List.append_assoc, List.append_assoc, parseAddresses_step,
    if_neg Bool.false_ne_true, if_neg (by decide)]
  obtain ⟨q, hd, hs, hg, hp⟩ := parseAddresses_digi path.digi path.source
    (takeAddress 0 .zero path.dest.onAir false) rest (by simpa [takeAddress, Ax25Path.zero] using path.fits)
  have hq : q = path.onAir := Ax25Path.eq_of_fields hd hs hg
  rw [← hq]
  exact hp

/-- The builder's addresses, control and PID in front of any text: the parser takes the last two bytes
of the text for the checksum. -/
lemma ax25ParseUi_text {path : Ax25Path} {outCap : ℕ} (h : (2 + path.digi.length) * ax25AddrEncoded ≤ outCap)
    (text : Bytes) (payloadCap : ℕ) :
    let frame := appendAddresses path outCap ++ ax25CtrlUi :: ax25PidNol3 :: text
    ax25ParseUi frame payloadCap =
      if text.length < 2 ∨ ¬FcsOk frame ∨ payloadCap < text.length - 2 then none
      else some (path.onAir, text.take (text.length - 2)) := by
  intro frame
  have hlen : 16 ≤ frame.length := by
    simp only [frame, List.length_append, List.length_cons, appendAddresses_length h, ax25AddrEncoded]
    omega
  rw [ax25ParseUi, if_neg (by omega), parseAddresses_append h]
  simp only [List.length_cons, List.getD_cons_zero, ne_eq, not_true_eq_false, if_false, List.drop_succ_cons,
    List.drop_zero, List.length_take]
  by_cases ht : text.length < 2
  · rw [if_pos (by omega), if_pos (.inl ht)]
  · rw [if_neg (by omega)]
    by_cases hf : FcsOk frame
    · rw [if_neg (not_not.mpr hf), show text.length + 1 + 1 - 4 = text.length - 2 by omega,
        min_eq_left (by omega)]
      by_cases hc : payloadCap < text.length - 2
      · rw [if_pos hc, if_pos (.inr (.inr hc))]
      · rw [if_neg hc, if_neg (by tauto)]
    · rw [if_pos hf, if_pos (.inr (.inl hf))]

lemma parseAddresses_length {digi : ℕ} {path q : Ax25Path} {frame rest : Bytes}
    (h : parseAddresses digi path frame = some (q, rest)) :
    rest.length ≤ frame.length ∧ (7 ≤ frame.length → rest.length + 7 ≤ frame.length) := by
  fun_induction parseAddresses digi path frame with
  | case1 =>
    obtain ⟨-, rfl⟩ := Prod.mk.inj (Option.some.inj h)
    simp only [List.length_cons]
    omega
  | case2 => exact absurd h (by simp)
  | case3 _ _ _ _ _ _ _ _ _ _ _ _ _ _ _ ih =>
    have hr := (ih h).1
    simp only [List.length_cons]
    omega
  | case4 digi path short hshort =>
    obtain ⟨-, rfl⟩ := Prod.mk.inj (Option.some.inj h)
    refine ⟨le_refl _, fun hl => ?_⟩
    -- seven bytes are a whole field
    match short, hl with
    | a :: b :: c :: d :: e :: f :: g :: rest, _ => exact (hshort a b c d e f g rest rfl).elim

/-- Every frame that parses holds an address field, control, PID and checksum besides the payload. -/
lemma ax25ParseUi_length {frame ui : Bytes} {path : Ax25Path} {payloadCap : ℕ}
    (h : ax25ParseUi frame payloadCap = some (path, ui)) : 16 ≤ frame.length ∧ ui.length + 11 ≤ frame.length := by
  by_cases hl : frame.length < 16
  · rw [ax25ParseUi, if_pos hl] at h
    exact absurd h (by simp)
  · rw [ax25ParseUi, if_neg hl] at h
    cases hp : parseAddresses 0 .zero frame with
    | none => simp [hp] at h
    | some r =>
      have hr := (parseAddresses_length hp).2 (by omega)
      simp only [hp, Option.ite_none_left_eq_some, Option.some.injEq, Prod.mk.injEq] at h
      obtain ⟨_, _, _, _, _, rfl⟩ := h
      simp only [List.length_take, List.length_drop]
      omega

/-! Which frames of the builder the parser takes back whole. -/

/-- One to six characters that have seven bits and are no blanks. -/
def Ax25Address.Plain (addr : Ax25Address) : Prop := addr.call ≠ [] ∧ ∀ b ∈ addr.call, b < 0x80 ∧ b ≠ blank

instance (addr : Ax25Address) : Decidable addr.Plain :=
  inferInstanceAs (Decidable (addr.call ≠ [] ∧ ∀ b ∈ addr.call, b < 0x80 ∧ b ≠ blank))

def Ax25Path.addresses (path : Ax25Path) : List Ax25Address := path.dest :: path.source :: path.digi

def Ax25Path.Plain (path : Ax25Path) : Prop := ∀ addr ∈ path.addresses, addr.Plain

instance (path : Ax25Path) : Decidable path.Plain := inferInstanceAs (Decidable (∀ addr ∈ path.addresses, addr.Plain))

def Ax25Path.SsidsFit (path : Ax25Path) : Prop := ∀ addr ∈ path.addresses, addr.ssid.toNat ≤ ax25SsidMax

instance (path : Ax25Path) : Decidable path.SsidsFit :=
  inferInstanceAs (Decidable (∀ addr ∈ path.addresses, addr.ssid.toNat ≤ ax25SsidMax))

lemma decodeChar_shifted {b : UInt8} (h : b < 0x80 ∧ b ≠ blank) : decodeChar (b <<< 1) = b := by
  revert h b
  apply forall_byte
  decide +kernel

/-- The padding turns into the end of the string. -/
lemma cstr_padCall {call : Bytes} (h0 : 0 ∉ call) (h : ∀ b ∈ call, b < 0x80 ∧ b ≠ blank) :
    cstr ((padCall call).map fun b : UInt8 => decodeChar (b <<< 1)) = call := by
  have hcall : call.map (fun b : UInt8 => decodeChar (b <<< 1)) = call := by
    conv_rhs => rw [← List.map_id call]
    apply List.map_congr_left
    intro b hb
    exact decodeChar_shifted (h b hb)
  have hpad : decodeChar (blank <<< 1) = 0 := by decide
  rw [padCall, List.map_append, hcall, List.map_replicate, hpad, cstr, List.takeWhile_append_of_pos]
  · cases ax25CallMax - call.length with
    | zero => simp
    | succ k => simp [List.replicate_succ]
  · intro b hb
    simpa using fun h0' : b = 0 => h0 (h0' ▸ hb)

lemma ssid_kept_iff (ssid : UInt32) : ssid &&& 0x0F = ssid ↔ ssid.toNat ≤ ax25SsidMax := by
  have h := Nat.and_two_pow_sub_one_eq_mod ssid.toNat 4
  simp only [Nat.reducePow, Nat.reduceSub] at h
  rw [← UInt32.toNat_inj, UInt32.toNat_and, show UInt32.toNat 0x0F = 15 from rfl, h, ax25SsidMax]
  omega

lemma Ax25Address.Plain.onAir_iff {addr : Ax25Address} (h : addr.Plain) :
    addr.onAir = addr ↔ addr.ssid.toNat ≤ ax25SsidMax := by
  rw [← ssid_kept_iff]
  constructor
  · intro heq
    exact congrArg Ax25Address.ssid heq
  · intro hssid
    obtain ⟨call, ssid, hstring⟩ := addr
    simp only [Ax25Address.onAir, Ax25Address.mk.injEq]
    exact ⟨cstr_padCall hstring.2 h.2, hssid⟩

lemma map_eq_self_iff {α : Type*} {f : α → α} {xs : List α} : xs.map f = xs ↔ ∀ x ∈ xs, f x = x := by
  conv_lhs => rw [← List.map_id xs, List.map_map]
  exact List.map_inj_left

lemma Ax25Path.Plain.onAir_iff {path : Ax25Path} (h : path.Plain) : path.onAir = path ↔ path.SsidsFit := by
  have hmap : path.onAir = path ↔ ∀ addr ∈ path.addresses, addr.onAir = addr := by
    simp only [Ax25Path.addresses, List.forall_mem_cons, ← map_eq_self_iff]
    constructor
    · intro heq
      exact ⟨congrArg Ax25Path.dest heq, congrArg Ax25Path.source heq, congrArg Ax25Path.digi heq⟩
    · rintro ⟨hd, hs, hg⟩
      exact Ax25Path.eq_of_fields hd hs hg
  rw [hmap]
  constructor
  · intro hall addr ha
    exact (h addr ha).onAir_iff.mp (hall addr ha)
  · intro hall addr ha
    exact (h addr ha).onAir_iff.mpr (hall addr ha)

def Ax25Path.encodedLength (path : Ax25Path) : ℕ := (2 + path.digi.length) * ax25AddrEncoded

section Build

variable {path : Ax25Path} {payload : Bytes} {outCap : ℕ}

/-- What the builder makes of a payload that passes its first checks, with room for the addresses. -/
lemma ax25BuildUi_addressed (hcap : payload.length + 32 ≤ outCap) (hlen : payload.length ≤ ax25FrameMax)
    (hfit : path.encodedLength ≤ outCap) :
    ax25BuildUi path payload outCap =
      if outCap < path.encodedLength + 4 + payload.length then none
      else
        let body := appendAddresses path outCap ++ ax25CtrlUi :: ax25PidNol3 :: payload
        some (body ++ fcsBytes (ax25Crc body)) := by
  rw [ax25BuildUi, if_neg (by omega)]
  dsimp only
  rw [appendAddresses_length hfit]
  rfl

/-- Without that room the frame has no addresses at all. -/
lemma ax25BuildUi_unaddressed (hcap : payload.length + 32 ≤ outCap) (hlen : payload.length ≤ ax25FrameMax)
    (hfit : outCap < path.encodedLength) :
    ax25BuildUi path payload outCap =
      let body := ax25CtrlUi :: ax25PidNol3 :: payload
      some (body ++ fcsBytes (ax25Crc body)) := by
  have hnil : appendAddresses path outCap = [] := by
    rw [appendAddresses]
    exact if_pos hfit
  rw [ax25BuildUi, if_neg (by omega)]
  dsimp only
  rw [hnil, List.length_nil, if_neg (by omega), List.nil_append]

lemma ax25ParseUi_addressed (hfit : path.encodedLength ≤ outCap) {payloadCap : ℕ} (hcap : payload.length ≤ payloadCap) :
    let body := appendAddresses path outCap ++ ax25CtrlUi :: ax25PidNol3 :: payload
    ax25ParseUi (body ++ fcsBytes (ax25Crc body)) payloadCap = some (path.onAir, payload) := by
  intro body
  have hbody : body ++ fcsBytes (ax25Crc body) =
      appendAddresses path outCap ++ ax25CtrlUi :: ax25PidNol3 :: (payload ++ fcsBytes (ax25Crc body)) := by
    simp only [body, List.append_assoc, List.cons_append]
  have hok := fcsOk_append body
  rw [hbody] at hok ⊢
  rw [ax25ParseUi_text hfit, List.length_append, fcsBytes_length, Nat.add_sub_cancel, if_neg, List.take_left]
  rintro (h | h | h)
  · omega
  · exact h hok
  · omega

end Build

/-- The parser gives back what was built, or nothing was built. -/
def UiRecovered (path : Ax25Path) (payload : Bytes) (outCap : ℕ) : Prop :=
  ∀ frame, ax25BuildUi path payload outCap = some frame → frame.length ≤ outCap ∧
    ∀ payloadCap, payload.length ≤ payloadCap → ax25ParseUi frame payloadCap = some (path, payload)

/-- The builder refuses the buffer, or the whole address block fits it and no SSID is cut. -/
theorem uiRecovered_iff {path : Ax25Path} (hplain : path.Plain) (payload : Bytes) (outCap : ℕ) :
    UiRecovered path payload outCap ↔
      outCap < payload.length + 32 ∨ ax25FrameMax < payload.length ∨
        path.encodedLength ≤ outCap ∧ (outCap < path.encodedLength + 4 + payload.length ∨ path.SsidsFit) := by
  by_cases hcap : outCap < payload.length + 32 ∨ ax25FrameMax < payload.length
  · have hnone : ax25BuildUi path payload outCap = none := by rw [ax25BuildUi, if_pos hcap]
    constructor
    · intro _
      rcases hcap with hc | hl
      · exact .inl hc
      · exact .inr (.inl hl)
    · intro _ frame hf
      rw [hnone] at hf
      cases hf
  · have hc : payload.length + 32 ≤ outCap := by omega
    have hl : payload.length ≤ ax25FrameMax := by omega
    have hcond : ∀ p : Prop, (outCap < payload.length + 32 ∨ ax25FrameMax < payload.length ∨ p) ↔ p := by
      intro p
      rw [← or_assoc, or_iff_right hcap]
    rw [hcond]
    by_cases hfit : path.encodedLength ≤ outCap
    · by_cases hroom : outCap < path.encodedLength + 4 + payload.length
      · have hnone := ax25BuildUi_addressed hc hl hfit
        rw [if_pos hroom] at hnone
        refine iff_of_true ?_ ⟨hfit, .inl hroom⟩
        intro frame hf
        rw [hnone] at hf
        cases hf
      · have hsome := ax25BuildUi_addressed hc hl hfit
        rw [if_neg hroom] at hsome
        have hparse := fun payloadCap => @ax25ParseUi_addressed path payload outCap hfit payloadCap
        have hair : UiRecovered path payload outCap ↔ path.onAir = path := by
          constructor
          · intro h
            have hr := (h _ hsome).2 payload.length (le_refl _)
            rw [hparse _ (le_refl _)] at hr
            exact congrArg Prod.fst (Option.some.inj hr)
          · intro h frame hf
            refine ⟨(ax25BuildUi_eq_some hf).2.1, fun payloadCap hp => ?_⟩
            obtain rfl := Option.some.inj (hsome.symm.trans hf)
            rw [hparse _ hp, h]
        rw [hair, hplain.onAir_iff]
        constructor
        · exact fun h => ⟨hfit, .inr h⟩
        · exact fun h => h.2.resolve_left hroom
    · -- the frame is too short to hold an address and the payload
      refine iff_of_false ?_ fun h => hfit h.1
      intro h
      have hsome := ax25BuildUi_unaddressed hc hl (not_le.mp hfit)
      have hr := (h _ hsome).2 payload.length (le_refl _)
      have hlong := (ax25ParseUi_length hr).2
      simp only [List.length_append, List.length_cons, fcsBytes_length] at hlong
      omega

def qst : Ax25Address := ⟨ofString "QST", 0, by decide⟩

def n0call : Ax25Address := ⟨ofString "N0CALL", 15, by decide⟩

lemma direct_fits : ([] : List Ax25Address).length ≤ ax25MaxDigi := Nat.zero_le _

def direct : Ax25Path := ⟨qst, n0call, [], direct_fits⟩

def viaThree : Ax25Path := ⟨qst, n0call, [qst, n0call, qst], by decide⟩

theorem uiRecovered_direct : direct.Plain ∧ UiRecovered direct (ofString "hi") 64 :=
  ⟨by decide +kernel, (uiRecovered_iff (by decide +kernel) (ofString "hi") 64).mpr (.inr (.inr (by decide)))⟩

/-- The buffer passes the builder's first check, but five addresses do not fit. -/
theorem ui_via_three_lost : viaThree.Plain ∧ viaThree.SsidsFit ∧
    ∃ frame, ax25BuildUi viaThree (ofString "A") 33 = some frame ∧ ax25ParseUi frame 1 = none :=
  ⟨by decide +kernel, by decide +kernel, _, rfl, by decide +kernel⟩

end HyBBX.Radio
