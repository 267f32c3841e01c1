import HyBBX.Lib.FileTree
import HyBBX.Mail.Inbox
import HyBBX.Mains.ProxyPayload
import HyBBX.Storage.FlatFile

/-! Storing the mail a peer Main sends: the recipient's address, the paths, the counter, the message file. -/

namespace HyBBX.Mains

open HyBBX.Core HyBBX.Circuit Lib Lib.Bytes Lib.Text Lib.Numeral FileTree
open Mail (pathComponentValid usernameNormalize userNameMax msgFileName)
open Storage (scanUlong)

def pathMax : ℕ := 512
def allocMax : ℕ := 256 * 1024
def proxymailServiceNameMax : ℕ := 64

def sizeOk (len : ℕ) : Bool := 0 < len && len ≤ allocMax

def joined (base name : Bytes) : Bytes :=
  base ++ (if base ≠ [] ∧ base.getLast? ≠ some slash then slash :: name else name)

def pathJoin (outLen : ℕ) (base name : Bytes) : Option Bytes :=
  if pathComponentValid name = false ∨ sizeOk (base.length + 1) = false ∨ sizeOk (name.length + 1) = false then none
  else if outLen ≤ (joined base name).length then none
  else some (joined base name)

def mkdirP (io : FileIo) (tree : FileTree) (path : Bytes) : Bool × FileTree :=
  if path = [] ∨ pathMax ≤ path.length then (false, tree) else mkdirAll io tree (dirsTo path)

def proxymailDirName : Bytes := ofString "proxymail"
def proxymailInboxName : Bytes := ofString "inbox"
def proxymailNextFile : Bytes := ofString "proxymail.next"

def proxymailRootPath (root : Bytes) : Option Bytes :=
  if root = [] then none else pathJoin pathMax root proxymailDirName

def proxymailUserInboxPath (root username : Bytes) : Option Bytes :=
  if username = [] then none
  else do
    let mailRoot ← proxymailRootPath root
    let userDir ← pathJoin pathMax mailRoot (usernameNormalize (strlcpy userNameMax username))
    pathJoin pathMax userDir proxymailInboxName

section Store

variable (io : FileIo) (root : Bytes)

/-- The id after the one in the counter file; without a number in the file counting starts again. -/
def proxymailNextId (tree : FileTree) : Except HybbxResult ℕ × FileTree :=
  match proxymailRootPath root with
  | none => (.error .errInvalid, tree)
  | some mailRoot =>
    match mkdirP io tree mailRoot with
    | (false, tree) => (.error .errIo, tree)
    | (true, tree) =>
      match pathJoin pathMax mailRoot proxymailNextFile with
      | none => (.error .errInvalid, tree)
      | some counterPath =>
        let n := (((read io tree counterPath).bind scanUlong).getD 0 + 1) % 2 ^ 64
        match write io tree counterPath (decimal n ++ [nl]) with
        | none => (.error .errIo, tree)
        | some tree => (.ok n, tree)

def proxymailText (fromAddress subject body : Bytes) (now : ℕ) : Bytes :=
  headerLine "from" fromAddress ++ headerLine "subject" subject ++ headerLine "time" (decimal now) ++
    ofString "read=no\n---\n" ++ body ++ [nl]

def proxymailStoreMessage (tree : FileTree) (username fromAddress subject body : Bytes) (now : ℕ) :
    HybbxResult × FileTree :=
  match proxymailNextId io root tree with
  | (.error rc, tree) => (rc, tree)
  | (.ok id, tree) =>
    match proxymailUserInboxPath root username with
    | none => (.errInvalid, tree)
    | some inboxPath =>
      match mkdirP io tree inboxPath with
      | (false, tree) => (.errIo, tree)
      | (true, tree) =>
        match pathJoin pathMax inboxPath (msgFileName id) with
        | none => (.errInvalid, tree)
        | some msgPath =>
          match write io tree msgPath (proxymailText fromAddress subject body now) with
          | none => (.errIo, tree)
          | some tree => (.ok, tree)

end Store

def atSign : UInt8 := 0x40

/-- The user, in lower case, and the Main behind the first `@`. -/
def proxymailParseAddress (address : Bytes) : Option (Bytes × Bytes) :=
  let user := address.takeWhile (· ≠ atSign)
  let remote := (address.dropWhile (· ≠ atSign)).tail
  if atSign ∉ address ∨ user = [] ∨ remote = [] then none
  else if userNameMax ≤ user.length ∨ proxymailServiceNameMax ≤ remote.length then none
  else some (usernameNormalize user, remote)

def proxymailReceive (io : FileIo) (root localName : Bytes) (now : ℕ) (tree : FileTree)
    (fromAddress toAddress subject body : Bytes) : FileTree :=
  match proxymailParseAddress toAddress with
  | none => tree
  | some (user, remote) =>
    if strIeq remote localName then (proxymailStoreMessage io root tree user fromAddress subject body now).2 else tree

/-- What a mail payload from a peer does to the files. -/
def receivePayload (io : FileIo) (root localName : Bytes) (now : ℕ) (tree : FileTree) (payload : Bytes) : FileTree :=
  match proxyDispatchPayload .proxyMail payload with
  | some (.mail fromAddress toAddress subject body) =>
    proxymailReceive io root localName now tree fromAddress toAddress subject body
  | _ => tree

end HyBBX.Mains
