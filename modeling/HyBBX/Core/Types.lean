import HyBBX.Lib.Bytes

/-! Result codes and the buffer sizes that several subsystems share. -/

namespace HyBBX.Core

inductive HybbxResult
  | ok
  | localCmd
  | sessionEnd
  | errInvalid
  | errNomem
  | errNotFound
  | errIo
  | errUnsupported
  | errBusy
  | errDenied
  deriving DecidableEq, Repr

def remoteAddrMax : ℕ := 64
def linkIdMax : ℕ := 64
def linkRoleMax : ℕ := 32
def linkAuthPayloadMax : ℕ := 512
def ax25PayloadMax : ℕ := 256
def circuitMaxLinks : ℕ := 16
def circuitLinkPollMs : ℕ := 50

end HyBBX.Core
