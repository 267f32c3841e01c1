import HyBBX.Core.Types
import HyBBX.Lib.Numeral

/-! The line-oriented LINK_AUTH payload. -/

namespace HyBBX.Circuit

open HyBBX.Core Lib Lib.Bytes Lib.Text Lib.Numeral

structure LinkAuth where
  password : Bytes
  role : Bytes
  id : Bytes
  baud : ℕ
  duplex : ℕ
  bandwidth : Bytes
  frequencyMhz : Bytes
  deriving DecidableEq, Repr

def linkAuthClear : LinkAuth := ⟨[], [], [], 0, 0, [], []⟩

def linkRoleDefault : Bytes := ofString "link"

def kv (key : String) (value : Bytes) : Bytes := ofString key ++ equals :: value ++ [nl]

/-- `none` is the return value 0. -/
def linkAuthFormat (auth : LinkAuth) (outCap : ℕ) : Option Bytes := do
  if outCap = 0 ∨ auth.password = [] ∨ auth.id = [] then none
  let out ← snappend outCap []
    (kv "password" auth.password ++ kv "role" (if auth.role ≠ [] then auth.role else linkRoleDefault) ++
      kv "id" auth.id)
  let out ← if 0 < auth.baud then snappend outCap out (kv "baud" (decimal auth.baud)) else some out
  let out ←
    if auth.duplex = 1 then snappend outCap out (kv "duplex" (ofString "half"))
    else if auth.duplex = 2 then snappend outCap out (kv "duplex" (ofString "full"))
    else some out
  let out ← if auth.bandwidth ≠ [] then snappend outCap out (kv "bandwidth" auth.bandwidth) else some out
  if auth.frequencyMhz ≠ [] then snappend outCap out (kv "frequency_mhz" auth.frequencyMhz) else some out

def linkAuthScratch : ℕ := 128

def duplexOf (s : Bytes) : ℕ :=
  if s = ofString "full" ∨ s = ofString "full-duplex" then 2
  else if s = ofString "half" ∨ s = ofString "half-duplex" ∨ s = ofString "simplex" then 1
  else 0

/-- `none` is `HYBBX_ERR_INVALID`. -/
def linkAuthParse (payload : Bytes) : Option LinkAuth := do
  let find := fun key => findKvLine payload (ofString key) linkAuthScratch
  let password ← find "password"
  let id ← find "id"
  some {
    password := strlcpy 128 password
    id := strlcpy linkIdMax id
    role := strlcpy linkRoleMax ((find "role").getD linkRoleDefault)
    baud := match find "baud" with
      | some s => (strtoul s).1 % 2 ^ 32
      | none => 0
    duplex := match find "duplex" with
      | some s => duplexOf s
      | none => 0
    bandwidth := strlcpy 16 ((find "bandwidth").getD [])
    frequencyMhz := strlcpy 16 (((find "frequency_mhz").or (find "frequency")).getD []) }

/-- The optional quality-of-service arguments; NULL strings are empty. -/
structure LinkQos where
  baud : ℕ
  duplex : ℕ
  bandwidth : Bytes
  frequencyMhz : Bytes
  deriving DecidableEq, Repr

/-- The record the client fills in before it formats it. -/
def linkAuthRequest (password role id : Bytes) (qos : Option LinkQos) : LinkAuth :=
  let auth := { linkAuthClear with
    password := strlcpy 128 password
    id := strlcpy linkIdMax id
    role := strlcpy linkRoleMax (if role ≠ [] then role else linkRoleDefault) }
  match qos with
  | none => auth
  | some q => { auth with
      baud := q.baud
      duplex := q.duplex
      bandwidth := strlcpy 16 q.bandwidth
      frequencyMhz := strlcpy 16 q.frequencyMhz }

end HyBBX.Circuit
