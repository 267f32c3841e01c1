import HyBBX.Command.Conference
import HyBBX.Mains.Proxymail

/-! The areas a session is in, and what belongs to them: the channel, the conference and the two drafts. -/

namespace HyBBX.SessionCore

open HyBBX.Core Lib Lib.Bytes Lib.Text
open Command (Area ConferenceInvite conferenceTopicMax areaStackMax)
open Mains (proxymailAddressMax proxymailParseAddress)
open Storage (userNameMax)

def draftSubjectSize : ℕ := Mail.mailSubjectMax + 1

instance neZeroSubject : NeZero draftSubjectSize := ⟨by decide⟩
instance neZeroAddress : NeZero proxymailAddressMax := ⟨by decide⟩

structure Draft (size : ℕ) where
  composing : Bool
  composeTo : CText size
  composeSubject : CText draftSubjectSize
  composeBody : Bytes
  deriving DecidableEq

def Draft.empty {size : ℕ} [NeZero size] : Draft size := ⟨false, .empty, .empty, []⟩

/-- Of the area stack the innermost area is first. -/
structure Desk where
  area : Area
  areaStack : List Area
  chatChannel : ℕ
  chatMaxNoticeShown : Bool
  mail : Draft userNameMax
  proxymail : Draft proxymailAddressMax
  topic : CText conferenceTopicMax
  partner : CText userNameMax
  invite : Option ConferenceInvite
  deriving DecidableEq

/-- What is configured for chat and mail; the names are those of the active channels. -/
structure DeskConfig where
  channelNames : List Bytes
  messageMax : ℕ
  subjectMax : ℕ
  bodyMax : ℕ

def DeskConfig.channelCount (cfg : DeskConfig) : ℕ := cfg.channelNames.length

namespace Desk

def opened : Desk where
  area := .main
  areaStack := [.main]
  chatChannel := 0
  chatMaxNoticeShown := false
  mail := .empty
  proxymail := .empty
  topic := .empty
  partner := .empty
  invite := none

def clearConference (d : Desk) : Desk := { d with topic := .empty, partner := .empty }

def mailComposeCancel (d : Desk) : Desk := { d with mail := .empty }

def proxymailComposeCancel (d : Desk) : Desk := { d with proxymail := .empty }

-- the partner in a conference is not told: the name is read after it has been cleared
def areaClearState (d : Desk) : Area → Desk
  | .chat => { d with chatChannel := 0 }
  | .conference => d.clearConference
  | .mail => d.mailComposeCancel
  | .proxymail => d.proxymailComposeCancel
  | _ => d

def areaSync (d : Desk) : Desk :=
  match d.areaStack with
  | [] => d
  | top :: _ => { d with area := top }

def areaPush (d : Desk) (area : Area) : HybbxResult × Desk :=
  if areaStackMax ≤ d.areaStack.length then (.errBusy, d)
  else if d.areaStack.head? = some area then (.ok, { d with area := area })
  else (.ok, { d with areaStack := area :: d.areaStack, area := area })

/-- A push, unless the session is in one of these areas. -/
def pushUnless (d : Desk) (inside : List Area) (area : Area) : HybbxResult × Desk :=
  if d.area ∈ inside then (.ok, d) else d.areaPush area

def leaveArea (d : Desk) : Desk :=
  match d.areaStack with
  | leaving :: next :: rest => areaSync { d.areaClearState leaving with areaStack := next :: rest }
  | _ => d

def goMain (d : Desk) : Desk := { d.areaStack.dropLast.foldl areaClearState d with areaStack := [.main], area := .main }

def joinChatChannel (cfg : DeskConfig) (d : Desk) (index : ℕ) : HybbxResult × Desk :=
  if index = 0 then (.errInvalid, d)
  else if cfg.channelCount < index then (.errNotFound, d)
  else match d.pushUnless [.chat] .chat with
    | (.ok, d) => (.ok, { d with chatChannel := index, chatMaxNoticeShown := true })
    | r => r

def enterProxymail (d : Desk) : HybbxResult × Desk :=
  match d.pushUnless [.mail, .proxymail] .mail with
  | (.ok, d) => d.areaPush .proxymail
  | r => r

def enterProxychat (d : Desk) : HybbxResult × Desk :=
  match d.pushUnless [.chat, .proxychat] .chat with
  | (.ok, d) => d.areaPush .proxychat
  | r => r

/-- `resolved` is the name of the account that the store finds. The draft begins before there is room for its area. -/
def mailComposeStart (cfg : DeskConfig) (d : Desk) (toUser : Bytes) (resolved : Option (CText userNameMax))
    (subject : Bytes) :
    HybbxResult × Desk :=
  if cfg.subjectMax < subject.length then (.errInvalid, d)
  else pushUnless { d with mail := ⟨true, resolved.getD (CText.copy toUser).lower, .copy subject, []⟩ } [.mail] .mail

def proxymailComposeStart (cfg : DeskConfig) (d : Desk) (address subject : Bytes) : HybbxResult × Desk :=
  if proxymailParseAddress address = none then (.errInvalid, d)
  else if cfg.subjectMax < subject.length then (.errInvalid, d)
  else enterProxymail { d with proxymail := ⟨true, .copy address, .copy subject, []⟩ }

/-- The end of `/mail done`, by the answer to the delivery. -/
def mailDone (d : Desk) (rc : HybbxResult) : Desk := if d.mail.composing ∧ rc = .ok then d.leaveArea else d

def mailCancel (d : Desk) : Desk := if d.mail.composing then d.leaveArea else d

def proxymailDone (d : Desk) (rc : HybbxResult) : Desk :=
  if d.proxymail.composing ∧ (rc = .ok ∨ rc = .errUnsupported) then d.proxymailComposeCancel.leaveArea else d

def proxymailCancel (d : Desk) : Desk := if d.proxymail.composing then d.proxymailComposeCancel.leaveArea else d

def joinConference (d : Desk) (topic : CText conferenceTopicMax) (partner : CText userNameMax) : HybbxResult × Desk :=
  if topic.text = [] ∨ partner.text = [] then (.errInvalid, d)
  else match d.pushUnless [.conference] .conference with
    | (.ok, d) => (.ok, { d with topic := topic, partner := partner, chatMaxNoticeShown := true })
    | r => r

end Desk

/-- A line of a message; `none` if the body has no room for it. -/
def Draft.append {size : ℕ} (draft : Draft size) (bodyMax : ℕ) (line : Bytes) : Option (Draft size) :=
  if bodyMax < draft.composeBody.length + line.length + 2 then none
  else some { draft with composeBody := (if draft.composeBody = [] then [] else draft.composeBody ++ [nl]) ++ line }

/-- What can be done to the areas of a session, with the answers of the store and of a delivery; an invite that is answered
is gone, and a conference may be joined. -/
inductive DeskOp
  | enterArea (area : Area)
  | leaveArea
  | goMain
  | joinChatChannel (index : ℕ)
  | enterProxymail
  | enterProxychat
  | mailComposeStart (toUser : Bytes) (resolved : Option (CText userNameMax)) (subject : Bytes)
  | mailComposeCancel
  | mailDone (rc : HybbxResult)
  | mailCancel
  | proxymailComposeStart (address subject : Bytes)
  | proxymailComposeCancel
  | proxymailDone (rc : HybbxResult)
  | proxymailCancel
  | mailLine (line : Bytes)
  | proxymailLine (line : Bytes)
  | joinConference (topic : CText conferenceTopicMax) (partner : CText userNameMax)
  | clearConference
  | setInvite (invite : ConferenceInvite)
  | answerInvite (joining : Option (CText conferenceTopicMax × CText userNameMax))
  deriving DecidableEq

def deskStep (cfg : DeskConfig) (d : Desk) : DeskOp → Desk
  | .enterArea area => (d.areaPush area).2
  | .leaveArea => d.leaveArea
  | .goMain => d.goMain
  | .joinChatChannel index => (d.joinChatChannel cfg index).2
  | .enterProxymail => d.enterProxymail.2
  | .enterProxychat => d.enterProxychat.2
  | .mailComposeStart toUser resolved subject => (d.mailComposeStart cfg toUser resolved subject).2
  | .mailComposeCancel => d.mailComposeCancel
  | .mailDone rc => d.mailDone rc
  | .mailCancel => d.mailCancel
  | .proxymailComposeStart address subject => (d.proxymailComposeStart cfg address subject).2
  | .proxymailComposeCancel => d.proxymailComposeCancel
  | .proxymailDone rc => d.proxymailDone rc
  | .proxymailCancel => d.proxymailCancel
  | .mailLine line =>
    if d.area = .mail ∧ d.mail.composing then { d with mail := (d.mail.append cfg.bodyMax line).getD d.mail } else d
  | .proxymailLine line =>
    if d.area = .proxymail ∧ d.proxymail.composing then
      { d with proxymail := (d.proxymail.append cfg.bodyMax line).getD d.proxymail }
    else d
  | .joinConference topic partner => (d.joinConference topic partner).2
  | .clearConference => d.clearConference
  | .setInvite invite => { d with invite := some invite }
  | .answerInvite joining =>
    match joining with
    | none => { d with invite := none }
    | some (topic, partner) => (Desk.joinConference { d with invite := none } topic partner).2

end HyBBX.SessionCore
