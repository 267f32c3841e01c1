import HyBBX.Core.Types
import HyBBX.Lib.Numeral

/-! AX.25 UI frames: shifted address fields, control and PID, the payload, a checksum over all of it. -/

namespace HyBBX.Radio

open HyBBX.Core Lib Lib.Bytes Lib.Text Lib.Numeral

def ax25CallMax : ℕ := 6
def ax25SsidMax : ℕ := 15
def ax25AddrEncoded : ℕ := 7
def ax25MaxDigi : ℕ := 8
def ax25FrameMax : ℕ := 330
def ax25PidNol3 : UInt8 := 0xF0
def ax25CtrlUi : UInt8 := 0x03

/-- `call` is the string that the array of seven characters holds. -/
structure Ax25Address where
  call : Bytes
  ssid : UInt32
  string : call.length ≤ ax25CallMax ∧ 0 ∉ call
  deriving DecidableEq

structure Ax25Path where
  dest : Ax25Address
  source : Ax25Address
  digi : List Ax25Address
  fits : digi.length ≤ ax25MaxDigi
  deriving DecidableEq

lemma Ax25Path.eq_of_fields {p q : Ax25Path} (hd : p.dest = q.dest) (hs : p.source = q.source)
    (hg : p.digi = q.digi) : p = q := by
  cases p
  cases q
  simp_all

/-- What `memset` leaves behind. -/
def Ax25Address.zero : Ax25Address := ⟨[], 0, by simp⟩

def Ax25Path.zero : Ax25Path := ⟨.zero, .zero, [], by simp⟩

def Ax25Path.addDigi (path : Ax25Path) (addr : Ax25Address) : Ax25Path :=
  if h : path.digi.length < ax25MaxDigi then
    { path with digi := path.digi ++ [addr], fits := by rw [List.length_append]; exact h }
  else path

def upper (b : UInt8) : UInt8 := if 0x61 ≤ b ∧ b ≤ 0x7A then b - 0x20 else b

lemma upper_ne_zero {b : UInt8} (h : b ≠ 0) : upper b ≠ 0 := by
  rw [upper]
  split_ifs with hl
  · intro h0
    obtain rfl : b = 0x20 := by
      have := congrArg (· + 0x20) h0
      simpa using this
    exact absurd hl (by decide)
  · exact h

def dash : UInt8 := 0x2D

def ax25Ssid (digits : Bytes) : Option UInt32 :=
  let parsed := strtoul digits
  if parsed.2 = digits ∨ ax25SsidMax < parsed.1 then none else some (UInt32.ofNat parsed.1)

/-- `CALL` or `CALL-SSID`. -/
def ax25AddressParse (text : Bytes) : Except HybbxResult Ax25Address :=
  let word := (cstr text).takeWhile (· ≠ dash)
  let ssid := if dash ∈ cstr text then ax25Ssid ((cstr text).dropWhile (· ≠ dash)).tail else some 0
  match ssid with
  | none => .error .errInvalid
  | some ssid =>
    if h : word ≠ [] ∧ word.length ≤ ax25CallMax then .ok ⟨word.map upper, ssid, by
      refine ⟨by rw [List.length_map]; exact h.2, fun h0 => ?_⟩
      obtain ⟨b, hb, hz⟩ := List.mem_map.mp h0
      exact upper_ne_zero (fun hb0 => zero_notMem_cstr text (hb0 ▸ (List.takeWhile_prefix _).subset hb)) hz⟩
    else .error .errInvalid

def padCall (call : Bytes) : Bytes := call ++ List.replicate (ax25CallMax - call.length) blank

def ssidByte (ssid : UInt32) (last : Bool) : UInt8 :=
  let b := (((ssid &&& 0x0F) <<< 1) ||| 0x60).toUInt8
  if last then b ||| 0x01 else b

def ax25EncodeAddress (addr : Ax25Address) (last : Bool) : Bytes :=
  (padCall addr.call).map (fun b : UInt8 => b <<< 1) ++ [ssidByte addr.ssid last]

def ax25CrcBit (crc : UInt16) : UInt16 :=
  if crc &&& 0x8000 ≠ 0 then (crc <<< 1) ^^^ 0x1021 else crc <<< 1

def ax25CrcByte (crc : UInt16) (b : UInt8) : UInt16 := ax25CrcBit^[8] (crc ^^^ (b.toUInt16 <<< 8))

def ax25Crc (data : Bytes) : UInt16 := data.foldl ax25CrcByte 0xFFFF

/-- The checksum as the last two bytes of a frame hold it, low byte first. -/
def fcsBytes (crc : UInt16) : Bytes := [byteAt crc.toNat 0, byteAt crc.toNat 8]

def frameFcs (frame : Bytes) : UInt16 :=
  readBe16 (frame.getD (frame.length - 1) 0) (frame.getD (frame.length - 2) 0)

/-- A frame that carries the checksum of what is in front of it. -/
def FcsOk (frame : Bytes) : Prop := frameFcs frame = ax25Crc (frame.take (frame.length - 2))

instance (frame : Bytes) : Decidable (FcsOk frame) :=
  inferInstanceAs (Decidable (frameFcs frame = ax25Crc (frame.take (frame.length - 2))))

def appendAddresses (path : Ax25Path) (outCap : ℕ) : Bytes :=
  if outCap < (2 + path.digi.length) * ax25AddrEncoded then []
  else ax25EncodeAddress path.dest false ++ path.digi.flatMap (ax25EncodeAddress · false) ++
    ax25EncodeAddress path.source true

-- `none` is the return value 0
def ax25BuildUi (path : Ax25Path) (payload : Bytes) (outCap : ℕ) : Option Bytes :=
  if outCap < payload.length + 32 ∨ ax25FrameMax < payload.length then none
  else
    -- an empty address block is not taken as a failure here
    let addresses := appendAddresses path outCap
    if outCap < addresses.length + 4 + payload.length then none
    else
      let body := addresses ++ ax25CtrlUi :: ax25PidNol3 :: payload
      some (body ++ fcsBytes (ax25Crc body))

def decodeChar (b : UInt8) : UInt8 :=
  let ch := (b >>> 1) &&& 0x7F
  if ch = blank then 0 else ch

/-- One address field; the call sign ends at the first blank. -/
def decodeAddress (a b c d e f g : UInt8) : Ax25Address where
  call := cstr ([a, b, c, d, e, f].map decodeChar)
  ssid := ((g >>> 1) &&& 0x0F).toUInt32
  string := ⟨(List.takeWhile_prefix _).length_le, zero_notMem_cstr _⟩

/-- The loop over the address fields: the path read so far and what follows the fields. Behind the
first field `digi - 1` digipeaters are stored. -/
def parseAddresses (digi : ℕ) (path : Ax25Path) : Bytes → Option (Ax25Path × Bytes)
  | a :: b :: c :: d :: e :: f :: g :: rest =>
    let last : Bool := g &&& 0x01 ≠ 0
    let addr := decodeAddress a b c d e f g
    let path :=
      if digi = 0 then { path with dest := addr }
      else if last = false then path.addDigi addr
      else { path with source := addr }
    if last then some (path, rest)
    else if ax25MaxDigi + 1 < digi + 1 then none
    else parseAddresses (digi + 1) path rest
  | short => some (path, short)

/-- The path and the payload; the callers take an empty payload for a failure. -/
def ax25ParseUi (frame : Bytes) (payloadCap : ℕ) : Option (Ax25Path × Bytes) :=
  if frame.length < 16 then none
  else match parseAddresses 0 .zero frame with
    | none => none
    | some (path, rest) =>
      -- the length check behind control and PID only repeats this one
      if rest.length < 4 then none
      else if rest.getD 0 0 ≠ ax25CtrlUi then none
      else if ¬FcsOk frame then none
      else
        let payload := (rest.drop 2).take (rest.length - 4)
        if payloadCap < payload.length then none else some (path, payload)

lemma padCall_length (addr : Ax25Address) : (padCall addr.call).length = ax25CallMax := by
  have h := addr.string.1
  rw [padCall, List.length_append, List.length_replicate]
  omega

@[simp] lemma ax25EncodeAddress_length (addr : Ax25Address) (last : Bool) :
    (ax25EncodeAddress addr last).length = ax25AddrEncoded := by
  rw [ax25EncodeAddress, List.length_append, List.length_map, padCall_length]
  rfl

lemma appendAddresses_length {path : Ax25Path} {outCap : ℕ}
    (h : (2 + path.digi.length) * ax25AddrEncoded ≤ outCap) :
    (appendAddresses path outCap).length = (2 + path.digi.length) * ax25AddrEncoded := by
  rw [appendAddresses, if_neg (by omega)]
  simp only [List.length_append, ax25EncodeAddress_length, List.length_flatMap, List.map_const',
    List.sum_replicate, smul_eq_mul]
  ring

@[simp] lemma fcsBytes_length (crc : UInt16) : (fcsBytes crc).length = 2 := rfl

lemma frameFcs_append (body : Bytes) (crc : UInt16) : frameFcs (body ++ fcsBytes crc) = crc := by
  have hlen : (body ++ fcsBytes crc).length = body.length + 2 := by simp
  have hlo : (body ++ fcsBytes crc).getD body.length 0 = byteAt crc.toNat 0 := by simp [fcsBytes]
  have hhi : (body ++ fcsBytes crc).getD (body.length + 1) 0 = byteAt crc.toNat 8 := by simp [fcsBytes]
  rw [frameFcs, hlen, show body.length + 2 - 1 = body.length + 1 by omega, Nat.add_sub_cancel, hlo, hhi]
  exact readBe16_byteAt crc

lemma fcsOk_append (body : Bytes) : FcsOk (body ++ fcsBytes (ax25Crc body)) := by
  rw [FcsOk, frameFcs_append, List.length_append, fcsBytes_length, Nat.add_sub_cancel,
    List.take_left']
  rfl

lemma ax25BuildUi_eq_some {path : Ax25Path} {payload frame : Bytes} {outCap : ℕ}
    (h : ax25BuildUi path payload outCap = some frame) :
    payload.length + 32 ≤ outCap ∧ frame.length ≤ outCap ∧
      ∃ body, body = appendAddresses path outCap ++ ax25CtrlUi :: ax25PidNol3 :: payload ∧
        frame = body ++ fcsBytes (ax25Crc body) := by
  simp only [ax25BuildUi] at h
  split_ifs at h with h1
  obtain rfl := Option.some.inj h
  refine ⟨by omega, ?_, _, rfl, rfl⟩
  simp only [List.length_append, List.length_cons, fcsBytes_length]
  omega

end HyBBX.Radio
