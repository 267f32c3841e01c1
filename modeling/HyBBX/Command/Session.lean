import HyBBX.Command.Registry
import HyBBX.Storage.Accounts

/-! The attached sessions and what each of them knows of its account. -/

namespace HyBBX.Command

open HyBBX.Core HyBBX.Storage Lib Lib.Bytes Lib.Text Lib.Numeral

def guestNumberMax : ℕ := 25

/-- A guest number, from 1 on. -/
structure GuestSlot where
  number : ℕ
  issued : 1 ≤ number ∧ number ≤ guestNumberMax

lemma first_issued : 1 ≤ 1 ∧ 1 ≤ guestNumberMax := by decide
lemma second_issued : 1 ≤ 2 ∧ 2 ≤ guestNumberMax := by decide

def guestUserId (slot : GuestSlot) : ℕ := 0xffffffffffffff00 + slot.number

/-- The level is the one of the record that was current at the login. -/
structure Session where
  level : Level
  username : Bytes
  userId : ℕ
  loggedIn : Bool
  loginPrompt : Bool
  deriving DecidableEq, Repr

structure AuthConfig where
  autoLogin : Bool
  guestPrefix : Bytes

/-- The service as the commands see it: the accounts, and the attached sessions under their handles. -/
structure Service where
  accounts : Accounts
  sessions : List (ℕ × Session)

def Service.session (svc : Service) (handle : ℕ) : Option Session := svc.sessions.lookup handle

def Service.setSession (svc : Service) (handle : ℕ) (s : Session) : Service :=
  { svc with sessions := svc.sessions.map fun p => if p.1 = handle then (handle, s) else p }

def Session.isGuest (s : Session) : Bool := s.level = some .guest

def Session.acceptsInput (s : Session) : Bool := s.loggedIn || s.loginPrompt

/-- A session after automatic login. -/
def guestSession (auth : AuthConfig) (slot : GuestSlot) : Session where
  level := some .guest
  username := auth.guestPrefix ++ decimal slot.number
  userId := guestUserId slot
  loggedIn := true
  loginPrompt := false

def promptSession : Session := ⟨none, [], 0, false, true⟩

def sessionOpen (auth : AuthConfig) (slot : GuestSlot) : Session :=
  if auth.autoLogin then guestSession auth slot else promptSession

def switchUser (u : UserRecord) : Session := ⟨some u.level, u.username.text, u.id, true, false⟩

/-- A session, other than that of the caller, is logged in to the account. -/
def Service.findRegisteredSession (svc : Service) (userId exclude : ℕ) : Bool :=
  userId ≠ 0 && svc.sessions.any fun p => p.1 ≠ exclude && p.2.loggedIn && !p.2.isGuest && p.2.userId = userId

/-- The slot in a name made of the guest prefix and a number. -/
def guestSlotFromUsername (guestPrefix username : Bytes) : Bool :=
  let pre := if guestPrefix = [] then authDefaultGuestPrefix else guestPrefix
  let rest := username.drop pre.length
  if username.length ≤ pre.length ∨ (username.take pre.length).map lower ≠ pre.map lower then false
  else (strtoul rest).2 ≠ rest && (strtoul rest).2 = [] && 1 ≤ (strtoul rest).1 && (strtoul rest).1 ≤ guestNumberMax

end HyBBX.Command
