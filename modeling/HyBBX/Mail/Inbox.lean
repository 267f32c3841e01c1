import HyBBX.Config.Values
import Mathlib.Data.List.Sort

/-! A message of the flat-file mail: its file name, its header lines, and reading them back. -/

namespace HyBBX.Mail

open HyBBX.Core Lib Lib.Bytes Lib.Text Lib.Numeral Lib.LineReader Config

def lineMax : ℕ := 80
def mailMaxMessages : ℕ := 50
def mailSubjectMax : ℕ := 72
def mailBodyMax : ℕ := 2048
def userNameMax : ℕ := 64

structure MailEntry where
  id : ℕ
  fromUser : Bytes
  subject : Bytes
  receivedAt : ℤ
  read : Bool
  deriving DecidableEq, Repr

structure MsgFile where
  name : Bytes
  text : Bytes
  deriving DecidableEq, Repr

/-- A reading of the clock. -/
structure Moment where
  secs : ℕ
  fits : secs ≤ longMax

/-- What callers hand over: strings, of which the name and the subject come from one line each. -/
structure Letter where
  fromUser : Bytes
  subject : Bytes
  body : Bytes
  from_fits : fromUser.length < userNameMax
  from_line : nl ∉ fromUser ∧ 0 ∉ fromUser
  subject_line : nl ∉ subject ∧ 0 ∉ subject
  body_string : 0 ∉ body

-- what the examples write is fit for a letter
lemma ann_named : (ofString "ann").length < userNameMax ∧ nl ∉ ofString "ann" ∧ 0 ∉ ofString "ann" := by decide
lemma bob_named : (ofString "bob").length < userNameMax ∧ nl ∉ ofString "bob" ∧ 0 ∉ ofString "bob" := by decide
lemma bob_fits : (ofString "bob").length < userNameMax := bob_named.1
lemma bob_line : nl ∉ ofString "bob" ∧ 0 ∉ ofString "bob" := bob_named.2
lemma hi_line : nl ∉ ofString "hi" ∧ 0 ∉ ofString "hi" := by decide
lemma regards_string : 0 ∉ ofString "73" := by decide

def msgSuffix : Bytes := ofString ".msg"

def msgFileName (id : ℕ) : Bytes :=
  List.replicate (6 - (decimal id).length) 0x30 ++ decimal id ++ msgSuffix

def parseMsgFilename (name : Bytes) : Option ℕ :=
  if name.length < 5 ∨ name.drop (name.length - 4) ≠ msgSuffix then none
  else if (strtoul name).2 ≠ msgSuffix then none
  else some (strtoul name).1

def isValueBlank (b : UInt8) : Bool := b = blank || b = tab

def isLineEnd (b : UInt8) : Bool := b = nl || b = cr

def headerKey (line : Bytes) : Bytes := line.takeWhile (· ≠ equals)

def headerValue (line : Bytes) : Bytes :=
  ((line.dropWhile (· ≠ equals)).tail.dropWhile isValueBlank).rdropWhile isLineEnd

def headerLine (entry : MailEntry) (line : Bytes) : MailEntry :=
  if equals ∉ line then entry
  else if strIeq (headerKey line) (ofString "from") then
    { entry with fromUser := strlcpy userNameMax (headerValue line) }
  else if strIeq (headerKey line) (ofString "subject") then
    { entry with subject := strlcpy mailSubjectMax (headerValue line) }
  else if strIeq (headerKey line) (ofString "time") then { entry with receivedAt := strtol (headerValue line) }
  else if strIeq (headerKey line) (ofString "read") then { entry with read := boolIsTrue (headerValue line) }
  else entry

def bodyMark : Bytes := ofString "---"

def readHeader : MailEntry → List Bytes → MailEntry
  | entry, [] => entry
  | entry, line :: rest => if bodyMark.isPrefixOf line then entry else readHeader (headerLine entry line) rest

def loadEntry (file : MsgFile) : Option MailEntry :=
  (parseMsgFilename file.name).map fun id =>
    readHeader ⟨id, [], [], 0, false⟩ ((fgets lineMax file.text).map cstr)

def kv (key : String) (value : Bytes) : Bytes := ofString key ++ equals :: value

/-- The header lines, without their newlines, before and behind the subject. -/
def headLines (id : ℕ) (fromUser toUser : Bytes) : List Bytes :=
  [kv "id" (decimal id), kv "from" fromUser, kv "to" toUser]

def tailLines (now : ℕ) (read : Bytes) : List Bytes := [kv "time" (decimal now), kv "read" read, bodyMark]

def unlines (ls : List Bytes) : Bytes := (ls.map (· ++ [nl])).flatten

def header (id : ℕ) (fromUser toUser subject : Bytes) (now : ℕ) (read : Bytes) : Bytes :=
  unlines (headLines id fromUser toUser) ++ (kv "subject" subject ++ nl :: unlines (tailLines now read))

def msgText (id : ℕ) (letter : Letter) (toUser : Bytes) (now : ℕ) : Bytes :=
  header id letter.fromUser toUser letter.subject now (ofString "no") ++
    (letter.body ++ if letter.body.getLast? = some nl then [] else [nl])

def readKey : Bytes := ofString "read="

def markPiece (piece : Bytes) : Bytes :=
  if readKey.isPrefixOf piece then ofString "read=yes\n" else cstr piece

/-- The file after its reader has seen it; a line of the body that starts with `read=` goes too. -/
def markRead (text : Bytes) : Bytes := ((fgets lineMax text).map markPiece).flatten

section FileName

lemma strtoul_msgFileName {id : ℕ} (h : id ≤ ulongMax) : strtoul (msgFileName id) = (id, msgSuffix) := by
  have hv : digitsValue (List.replicate (6 - (decimal id).length) 0x30 ++ decimal id) = id := by
    rw [digitsValue_zeros, digitsValue_decimal]
  have hs := @strtoul_digits (List.replicate (6 - (decimal id).length) 0x30 ++ decimal id) msgSuffix
    (by simp [decimal_ne_nil]) ?_ (by decide +kernel) (by rwa [hv])
  · rwa [hv] at hs
  · intro b hb
    rcases List.mem_append.mp hb with hb | hb
    · rw [(List.mem_replicate.mp hb).2]
      decide
    · exact isDigit_of_mem_decimal hb

lemma parseMsgFilename_msgFileName {id : ℕ} (h : id ≤ ulongMax) : parseMsgFilename (msgFileName id) = some id := by
  have hlen : msgSuffix.length = 4 := by decide
  have hpos : 1 ≤ (decimal id).length := List.length_pos_of_ne_nil (decimal_ne_nil id)
  have hshort : ¬((msgFileName id).length < 5 ∨ (msgFileName id).drop ((msgFileName id).length - 4) ≠ msgSuffix) := by
    rw [not_or, not_not, msgFileName, List.length_append, List.length_append, hlen]
    refine ⟨by omega, ?_⟩
    rw [Nat.add_sub_cancel, ← List.length_append, List.drop_left]
  rw [parseMsgFilename, if_neg hshort, strtoul_msgFileName h, if_neg (by simp)]

lemma msgFileName_injective {a b : ℕ} (ha : a ≤ ulongMax) (hb : b ≤ ulongMax) (h : msgFileName a = msgFileName b) :
    a = b := by
  have := parseMsgFilename_msgFileName ha
  rw [h, parseMsgFilename_msgFileName hb] at this
  exact (Option.some.inj this).symm

end FileName

/-! The inboxes as directories of message files: delivering, reading and deleting. -/

abbrev Dir := List MsgFile

/-- The order in which a directory lists its files. -/
structure DirOrder where
  list : Dir → Dir
  perm : ∀ dir, (list dir).Perm dir

def DirOrder.asFound : DirOrder := ⟨id, fun _ => .refl _⟩

def Dir.remove (dir : Dir) (name : Bytes) : Dir := dir.filter fun file => file.name ≠ name

def Dir.write (dir : Dir) (file : MsgFile) : Dir := dir.remove file.name ++ [file]

def Dir.rewrite (dir : Dir) (name : Bytes) (f : Bytes → Bytes) : Dir :=
  dir.map fun file => if file.name = name then { file with text := f file.text } else file

def mailEntryCompare (a b : MailEntry) : ℤ :=
  if b.receivedAt < a.receivedAt then -1
  else if a.receivedAt < b.receivedAt then 1
  else if b.id < a.id then -1
  else if a.id < b.id then 1
  else 0

def loadInbox (listing : Dir) (maxEntries : ℕ) : List MailEntry :=
  ((listing.filterMap loadEntry).take maxEntries).insertionSort fun a b => mailEntryCompare a b ≤ 0

structure MailConfig where
  enabled : Bool
  maxMessages : ℕ
  subjectMax : ℕ
  bodyMax : ℕ
  deriving DecidableEq, Repr

def mailConfigApply (config : HybbxConfig) : MailConfig where
  enabled := configGetBool config (ofString "mail") (ofString "enabled") true
  maxMessages := configGetUint config (ofString "mail") (ofString "max_messages") mailMaxMessages 1 mailMaxMessages
  subjectMax := configGetUint config (ofString "mail") (ofString "subject_max") mailSubjectMax 8 mailSubjectMax
  bodyMax := configGetUint config (ofString "mail") (ofString "body_max") mailBodyMax 64 mailBodyMax

/-- What the user storage knows of an account. -/
structure UserRecord where
  username : Bytes
  guest : Bool
  active : Bool
  fits : username.length < userNameMax ∧ nl ∉ username ∧ 0 ∉ username

def usernameNormalize (username : Bytes) : Bytes := username.map lower

def pathComponentValid (name : Bytes) : Bool :=
  name ≠ [] && name ≠ ofString "." && name ≠ ofString ".." && !name.contains 0x2F && !name.contains 0x5C

def mailUserInboxPath (username : Bytes) : Except HybbxResult Bytes :=
  let userNorm := usernameNormalize (strlcpy userNameMax username)
  if username = [] ∨ pathComponentValid userNorm = false then .error .errInvalid else .ok userNorm

structure MailState where
  next : ℕ
  inbox : Bytes → Dir

def MailState.start : MailState := ⟨0, fun _ => []⟩

def mailNextId (st : MailState) : ℕ := (st.next + 1) % 2 ^ 64

def mailTrimInbox (maxMessages : ℕ) (order : DirOrder) (dir : Dir) : Dir :=
  let entries := loadInbox (order.list dir) mailMaxMessages
  if entries.length ≤ maxMessages then dir
  else (entries.drop maxMessages).foldl (fun dir entry => dir.remove (msgFileName entry.id)) dir

section Service

variable (cfg : MailConfig) (resolveUser : Bytes → Except HybbxResult UserRecord)

/-- The account a message goes to and the directory of its inbox. -/
def mailRecipient (letter : Letter) (toUser : Bytes) : Except HybbxResult (UserRecord × Bytes) :=
  if cfg.enabled = false then .error .errUnsupported
  else if cfg.subjectMax < letter.subject.length ∨ cfg.bodyMax < letter.body.length then .error .errInvalid
  else match resolveUser toUser with
    | .error rc => .error rc
    | .ok recipient =>
      if recipient.guest ∨ recipient.active = false then .error .errDenied
      else (mailUserInboxPath recipient.username).map fun inbox => (recipient, inbox)

/-- The file a delivery writes. -/
def freshFile (st : MailState) (letter : Letter) (recipient : UserRecord) (now : Moment) : MsgFile :=
  ⟨msgFileName (mailNextId st), msgText (mailNextId st) letter recipient.username now.secs⟩

def mailDeliver (st : MailState) (letter : Letter) (toUser : Bytes) (now : Moment) (order : DirOrder) :
    Except HybbxResult MailState :=
  (mailRecipient cfg resolveUser letter toUser).map fun r =>
    let dir := (st.inbox r.2).write (freshFile st letter r.1 now)
    { next := mailNextId st
      inbox := Function.update st.inbox r.2 (mailTrimInbox cfg.maxMessages order dir) }

def mailRead (st : MailState) (username : Bytes) (listIndex : ℕ) (order : DirOrder) : Except HybbxResult MailState :=
  if cfg.enabled = false then .error .errUnsupported
  else (mailUserInboxPath username).map fun inbox =>
    let entries := loadInbox (order.list (st.inbox inbox)) mailMaxMessages
    if listIndex = 0 then st
    else match entries[listIndex - 1]? with
      | none => st
      | some entry =>
        { st with inbox := Function.update st.inbox inbox ((st.inbox inbox).rewrite (msgFileName entry.id) markRead) }

/-- The files leave the inbox for the recycle bin. -/
def mailDeleteRange (st : MailState) (username : Bytes) (first last : ℕ) (order : DirOrder) :
    Except HybbxResult MailState :=
  let last := if last = 0 then first else last
  if cfg.enabled = false then .error .errUnsupported
  else if first = 0 ∨ last < first then .ok st
  else (mailUserInboxPath username).map fun inbox =>
    let entries := loadInbox (order.list (st.inbox inbox)) mailMaxMessages
    if entries.length < last then st
    else
      let moved := (entries.take last).drop (first - 1)
      { st with
        inbox := Function.update st.inbox inbox
          (moved.foldl (fun dir entry => dir.remove (msgFileName entry.id)) (st.inbox inbox)) }

inductive MailOp
  | deliver (letter : Letter) (toUser : Bytes) (now : Moment) (order : DirOrder)
  | read (username : Bytes) (listIndex : ℕ) (order : DirOrder)
  | deleteRange (username : Bytes) (first last : ℕ) (order : DirOrder)

def mailOp (st : MailState) : MailOp → Except HybbxResult MailState
  | .deliver letter toUser now order => mailDeliver cfg resolveUser st letter toUser now order
  | .read username listIndex order => mailRead cfg st username listIndex order
  | .deleteRange username first last order => mailDeleteRange cfg st username first last order

/-- A refused call changes nothing. -/
def mailStep (st : MailState) (op : MailOp) : MailState :=
  match mailOp cfg resolveUser st op with
  | .ok st' => st'
  | .error _ => st

end Service

end HyBBX.Mail
