import HyBBX.Lib.Bytes

/-! HBX v1 frames: a twelve-byte header in front of at most 4096 bytes of payload. -/

namespace HyBBX.Circuit

open Lib Lib.Bytes

/-- The C enum is read from one header byte without a check, so every byte is a protocol. -/
structure CircuitProto where
  byte : UInt8
  deriving DecidableEq, Repr

namespace CircuitProto

def ax25 : CircuitProto := ⟨0x01⟩
def ax25Ui : CircuitProto := ⟨0x02⟩
def linkAuth : CircuitProto := ⟨0x03⟩
def linkAuthAck : CircuitProto := ⟨0x04⟩
def flowCtrl : CircuitProto := ⟨0x05⟩
def terminal : CircuitProto := ⟨0x10⟩
def proxyMail : CircuitProto := ⟨0x80⟩
def proxyChat : CircuitProto := ⟨0x81⟩

end CircuitProto

def circuitFlagNone : UInt16 := 0x0000
def circuitFlagRx : UInt16 := 0x0001

def circuitMagic0 : UInt8 := 0x48
def circuitMagic1 : UInt8 := 0x42
def circuitMagic2 : UInt8 := 0x58
def circuitVersion : UInt8 := 0x01

def circuitHeaderSize : ℕ := 12
def circuitMaxPayload : ℕ := 4096
def circuitMaxFrame : ℕ := circuitHeaderSize + circuitMaxPayload

structure CircuitFrame where
  proto : CircuitProto
  flags : UInt16
  payload : Bytes
  fits : payload.length ≤ circuitMaxPayload
  deriving DecidableEq

lemma CircuitFrame.eq_of_fields {f g : CircuitFrame} (hp : f.proto = g.proto)
    (hf : f.flags = g.flags) (hb : f.payload = g.payload) : f = g := by
  cases f
  cases g
  simp_all

def CircuitFrame.size (f : CircuitFrame) : ℕ := circuitHeaderSize + f.payload.length

/-- Byte 11 is never written: it keeps what the caller's buffer held before the call. -/
def circuitHeader (proto : CircuitProto) (flags : UInt16) (len : ℕ) (out : Bytes) : Bytes :=
  [circuitMagic0, circuitMagic1, circuitMagic2, circuitVersion, proto.byte,
    byteAt flags.toNat 8, byteAt flags.toNat 0,
    byteAt len 24, byteAt len 16, byteAt len 8, byteAt len 0, out.getD 11 0]

/-- `out` is the output buffer as the caller left it, so `out_cap` is its length. -/
def circuitEncode (proto : CircuitProto) (flags : UInt16) (payload out : Bytes) : Option Bytes :=
  if out.length < circuitHeaderSize then none
  else if circuitMaxPayload < payload.length then none
  else if out.length < circuitHeaderSize + payload.length then none
  else some (circuitHeader proto flags payload.length out ++ payload)

@[simp] lemma circuitHeader_length (proto : CircuitProto) (flags : UInt16) (len : ℕ) (out : Bytes) :
    (circuitHeader proto flags len out).length = circuitHeaderSize := rfl

lemma circuitEncode_eq_some {proto : CircuitProto} {flags : UInt16} {payload out bytes : Bytes}
    (h : circuitEncode proto flags payload out = some bytes) :
    payload.length ≤ circuitMaxPayload ∧ circuitHeaderSize + payload.length ≤ out.length ∧
      bytes = circuitHeader proto flags payload.length out ++ payload := by
  simp only [circuitEncode] at h
  split_ifs at h with h1 h2 h3
  exact ⟨by omega, by omega, (Option.some.inj h).symm⟩

lemma circuitEncode_of_fits (proto : CircuitProto) (flags : UInt16) {payload out : Bytes}
    (hp : payload.length ≤ circuitMaxPayload)
    (ho : circuitHeaderSize + payload.length ≤ out.length) :
    circuitEncode proto flags payload out =
      some (circuitHeader proto flags payload.length out ++ payload) := by
  rw [circuitEncode, if_neg (by omega), if_neg (by omega), if_neg (by omega)]

lemma circuitEncode_length {proto : CircuitProto} {flags : UInt16} {payload out bytes : Bytes}
    (h : circuitEncode proto flags payload out = some bytes) :
    bytes.length = circuitHeaderSize + payload.length := by
  obtain ⟨_, _, rfl⟩ := circuitEncode_eq_some h
  simp

/-- The line-oriented encoder only lets the two authentication protocols through. -/
def circuitEncodeLinkMsg (proto : CircuitProto) (payload out : Bytes) : Option Bytes :=
  if proto ≠ .linkAuth ∧ proto ≠ .linkAuthAck then none
  else circuitEncode proto circuitFlagNone payload out

def circuitEncodeAx25 (frame : Bytes) (flags : UInt16) (out : Bytes) : Option Bytes :=
  circuitEncode .ax25 (flags ||| circuitFlagRx) frame out

end HyBBX.Circuit
