import HyBBX.Core.Types
import HyBBX.Lib.LineReader

/-! The hub's INI configuration: loading, changing and writing it back. -/

namespace HyBBX.Config

open HyBBX.Core Lib Lib.Bytes Lib.Text Lib.Numeral Lib.LineReader

def configLineMax : ℕ := 512
def configSectionMax : ℕ := 128
def configKeyMax : ℕ := 128
def configValueMax : ℕ := 256

structure ConfigEntry where
  sectionName : Bytes
  key : Bytes
  value : Bytes
  deriving DecidableEq, Repr

abbrev HybbxConfig := List ConfigEntry

abbrev semicolon : UInt8 := 0x3B
abbrev hash : UInt8 := 0x23
abbrev opening : UInt8 := 0x5B
abbrev closing : UInt8 := 0x5D
abbrev single : UInt8 := 0x27
abbrev double : UInt8 := 0x22

def startsComment (b : UInt8) : Bool := b = semicolon || b = hash

/-- The value up to the first `;` or `#` outside quotes. -/
def cutComment : Bool → Bool → Bytes → Bytes
  | _, _, [] => []
  | inSingle, inDouble, c :: cs =>
    if inSingle = false ∧ inDouble = false ∧ startsComment c then []
    else if inDouble = false ∧ c = single then c :: cutComment (!inSingle) inDouble cs
    else if inSingle = false ∧ c = double then c :: cutComment inSingle (!inDouble) cs
    else c :: cutComment inSingle inDouble cs

def stripInlineComment (value : Bytes) : Bytes := (cutComment false false value).rdropWhile isSpace

def Quoted (value : Bytes) : Prop :=
  2 ≤ value.length ∧ (value.head? = some double ∧ value.getLast? = some double ∨
    value.head? = some single ∧ value.getLast? = some single)

instance (value : Bytes) : Decidable (Quoted value) :=
  inferInstanceAs (Decidable (2 ≤ value.length ∧ (value.head? = some double ∧ value.getLast? = some double ∨
    value.head? = some single ∧ value.getLast? = some single)))

def unquote (value : Bytes) : Bytes := if Quoted value then value.tail.dropLast else value

/-- The value the loader stores for the text behind the `=`. -/
def readValue (text : Bytes) : Bytes := unquote (stripInlineComment (trim text))

def isCommentLine (line : Bytes) : Bool := (line.dropWhile isSpace).head?.any startsComment

-- the result of the trim is thrown away: blanks in front stay, and so does a name of blanks only
def trimSection (name : Bytes) : Bytes := if name.all isSpace then name else name.rdropWhile isSpace

def appendEntry (config : HybbxConfig) (entry : ConfigEntry) : Except HybbxResult HybbxConfig :=
  if configSectionMax ≤ entry.sectionName.length ∨ configKeyMax ≤ entry.key.length ∨
      configValueMax ≤ entry.value.length then
    .error .errInvalid
  else .ok (config ++ [entry])

structure ConfigLoad where
  config : HybbxConfig
  currentSection : Bytes

def loadSection (st : ConfigLoad) (content : Bytes) : Except HybbxResult ConfigLoad :=
  let name := ((content.takeWhile (· ≠ closing)).drop 1).take (configSectionMax - 1)
  if closing ∉ content then .error .errInvalid
  else .ok { st with currentSection := trimSection name }

def loadEntry (st : ConfigLoad) (content : Bytes) : Except HybbxResult ConfigLoad :=
  if st.currentSection = [] then .error .errInvalid
  else if equals ∉ content then .error .errInvalid
  else
    let key := trim (content.takeWhile (· ≠ equals))
    let value := readValue (content.dropWhile (· ≠ equals)).tail
    match appendEntry st.config ⟨st.currentSection, key, value⟩ with
    | .error _ => .error .errNomem
    | .ok config => .ok { st with config := config }

/-- One piece from `fgets`, seen as a C string. -/
def loadLine (st : ConfigLoad) (piece : Bytes) : Except HybbxResult ConfigLoad :=
  let line := cstr piece
  if 0 < line.length ∧ line.getLast? ≠ some nl ∧ configLineMax - 1 ≤ line.length then .error .errInvalid
  else
    let content := trim line
    if content = [] ∨ isCommentLine content then .ok st
    else if content.head? = some opening then loadSection st content
    else loadEntry st content

def loadLines (st : ConfigLoad) (pieces : List Bytes) : Except HybbxResult ConfigLoad :=
  pieces.foldlM loadLine st

def configLoad (file : Bytes) : Except HybbxResult HybbxConfig :=
  (loadLines ⟨[], []⟩ (fgets configLineMax file)).map ConfigLoad.config

def ConfigEntry.matches (e : ConfigEntry) (sectionName key : Bytes) : Bool :=
  e.sectionName = sectionName && e.key = key

def configGet (config : HybbxConfig) (sectionName key : Bytes) : Option Bytes :=
  (config.find? fun e => e.matches sectionName key).map ConfigEntry.value

def replaceFirst (sectionName key value : Bytes) : HybbxConfig → HybbxConfig
  | [] => []
  | e :: es =>
    if e.matches sectionName key then { e with value := value } :: es
    else e :: replaceFirst sectionName key value es

def configSet (config : HybbxConfig) (sectionName key value : Bytes) : Except HybbxResult HybbxConfig :=
  if config.any fun e => e.matches sectionName key then .ok (replaceFirst sectionName key value config)
  else appendEntry config ⟨sectionName, key, value⟩

def configRemoveSection (config : HybbxConfig) (sectionName : Bytes) : HybbxConfig :=
  config.filter fun e => e.sectionName ≠ sectionName

def headerLine (sectionName : Bytes) : Bytes := opening :: sectionName ++ [closing]

def entryLine (e : ConfigEntry) : Bytes := e.key ++ [blank, equals, blank] ++ e.value

def saveFrom : Option Bytes → HybbxConfig → Bytes
  | _, [] => []
  | current, e :: es =>
    (if current = some e.sectionName then []
      else (if current.isSome then [nl] else []) ++ (headerLine e.sectionName ++ [nl])) ++
      (entryLine e ++ [nl]) ++ saveFrom (some e.sectionName) es

def configSave (config : HybbxConfig) : Bytes := saveFrom none config

/-! How the hub changes the configuration it loaded: sections of its links are written and removed. -/

/-- A string without newline that fits a buffer of `size` bytes. -/
structure HubText (size : ℕ) where
  text : Bytes
  oneLine : nl ∉ text
  string : 0 ∉ text
  fits : text.length < size

inductive LinkKey
  | role
  | linkCode
  | lastSeen
  deriving DecidableEq

def LinkKey.name : LinkKey → Bytes
  | .role => ofString "role"
  | .linkCode => ofString "link_code"
  | .lastSeen => ofString "last_seen"

def linkSection (id : HubText linkIdMax) : Bytes := ofString "link." ++ id.text

/-- What the hub writes for a link: its role, its code and the time it was last seen, in that order. -/
abbrev LinkValues := LinkKey → HubText 64

def upsertEntry (sectionName : Bytes) (values : LinkValues) (e : ConfigEntry) : ConfigEntry :=
  if e.sectionName ≠ sectionName then e
  else if e.key = LinkKey.role.name then { e with value := (values .role).text }
  else if e.key = LinkKey.linkCode.name then { e with value := (values .linkCode).text }
  else if e.key = LinkKey.lastSeen.name then { e with value := (values .lastSeen).text }
  else e

def setMissing (found : LinkKey → Bool) (sectionName : Bytes) (values : LinkValues) (config : HybbxConfig)
    (key : LinkKey) : Except HybbxResult HybbxConfig :=
  if found key then .ok config else configSet config sectionName key.name (values key).text

/-- The entries that are there are overwritten, the missing ones set. -/
def configUpsertLinkSection (config : HybbxConfig) (id : HubText linkIdMax) (values : LinkValues) :
    Except HybbxResult HybbxConfig :=
  let sectionName := linkSection id
  let found := fun key : LinkKey => config.any fun e => e.matches sectionName key.name
  [LinkKey.role, .linkCode, .lastSeen].foldlM (setMissing found sectionName values)
    (config.map (upsertEntry sectionName values))

inductive HubOp
  | set (id : HubText linkIdMax) (key : LinkKey) (value : HubText 64)
  | upsert (id : HubText linkIdMax) (values : LinkValues)
  | removeSection (sectionName : Bytes)

-- a call that fails leaves no configuration to save
def HubOp.apply (config : HybbxConfig) : HubOp → Except HybbxResult HybbxConfig
  | .set id key value => configSet config (linkSection id) key.name value.text
  | .upsert id values => configUpsertLinkSection config id values
  | .removeSection sectionName => .ok (configRemoveSection config sectionName)

def applyHubOps (config : HybbxConfig) (ops : List HubOp) : Except HybbxResult HybbxConfig :=
  ops.foldlM HubOp.apply config

end HyBBX.Config
