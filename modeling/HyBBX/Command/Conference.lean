import HyBBX.Core.Types
import HyBBX.Lib.Transducer
import HyBBX.Storage.UserRecord

/-! Conferences of two: the areas of the sessions, invites, and the two names that make a pair. -/

namespace HyBBX.Command

open HyBBX.Core HyBBX.Storage Lib Lib.Bytes Lib.Text

abbrev conferenceTopicMax : ℕ := 32
def conferenceInviteMaxPerTarget : ℕ := 2
def conferenceInviteWindowSec : ℤ := 1800
def conferenceInviteRates : ℕ := 8
def areaStackMax : ℕ := 8

inductive Area
  | main
  | mail
  | chat
  | conference
  | proxymail
  | proxychat
  deriving DecidableEq, Repr

/-- The invites that were sent to one user lately. -/
structure InviteRate where
  target : Bytes
  sentAt : List ℤ
  deriving DecidableEq

structure ConferenceInvite where
  fromUser : CText userNameMax
  topic : CText conferenceTopicMax
  deriving DecidableEq

/-- A session as the conferences see it. Of its area stack, the areas above the main area, the innermost first. -/
structure Seat where
  username : CText userNameMax
  loggedIn : Bool
  guest : Bool
  areas : List Area
  topic : CText conferenceTopicMax
  partner : CText userNameMax
  invite : Option ConferenceInvite
  rates : List InviteRate
  deriving DecidableEq

def Seat.area (s : Seat) : Area := s.areas.headD .main

def Seat.depth (s : Seat) : ℕ := s.areas.length + 1

/-- A session without automatic login has no name yet. -/
def Seat.opened (guest : Option (CText userNameMax)) : Seat where
  username := guest.getD .empty
  loggedIn := guest.isSome
  guest := guest.isSome
  areas := []
  topic := .empty
  partner := .empty
  invite := none
  rates := List.replicate conferenceInviteRates ⟨[], List.replicate conferenceInviteMaxPerTarget 0⟩

/-- The attached sessions, the last one first. -/
structure Hall where
  attached : List ℕ
  seats : ℕ → Seat

def Hall.modify (hall : Hall) (h : ℕ) (f : Seat → Seat) : Hall :=
  { hall with seats := Function.update hall.seats h (f (hall.seats h)) }

section Areas

def sessionAreaPush (s : Seat) (area : Area) : HybbxResult × Seat :=
  if areaStackMax ≤ s.depth then (.errBusy, s)
  else if s.area = area then (.ok, s)
  else (.ok, { s with areas := area :: s.areas })

def clearConference (hall : Hall) (h : ℕ) : Hall := hall.modify h fun s => { s with topic := .empty, partner := .empty }

/-- The area on top goes; what a session has to give up with it is left to `leaving`. -/
def leaveAreaWith (leaving : Hall → ℕ → Hall) (hall : Hall) (h : ℕ) : Hall :=
  match (hall.seats h).areas with
  | [] => hall
  | top :: _ =>
    (if top = .conference then leaving hall h else hall).modify h fun s => { s with areas := s.areas.tail }

def conferenceFindOnlineUser (hall : Hall) (username : Bytes) : Option ℕ :=
  if username = [] then none
  else hall.attached.find? fun h =>
    (hall.seats h).loggedIn && !(hall.seats h).guest && strIeq (hall.seats h).username.text username

def conferenceNotifyPartnerLeft (leaving : Hall → ℕ → Hall) (hall : Hall) (h : ℕ) (partnerUsername : Bytes) : Hall :=
  match conferenceFindOnlineUser hall partnerUsername with
  | none => hall
  | some p =>
    if (hall.seats p).area ≠ .conference then hall
    else if strIeq (hall.seats p).partner.text (hall.seats h).username.text = false then hall
    else
      let cleared := clearConference hall p
      if (cleared.seats p).area = .conference then leaveAreaWith leaving cleared p else cleared

/-- The bound is on departures that lead to further ones. The partner's name is read from the buffer of the session
after that has been cleared. -/
def conferenceAreaLeaving : ℕ → Hall → ℕ → Hall
  | 0, hall, _ => hall
  | n + 1, hall, h =>
    let cleared := clearConference hall h
    if (hall.seats h).partner.text ≠ [] ∧ (cleared.seats h).partner.text ≠ [] then
      conferenceNotifyPartnerLeft (conferenceAreaLeaving n) cleared h (cleared.seats h).partner.text
    else cleared

def areaLeaving : Hall → ℕ → Hall := conferenceAreaLeaving 2

def sessionLeaveArea : Hall → ℕ → Hall := leaveAreaWith areaLeaving

def sessionGoMain (hall : Hall) (h : ℕ) : Hall :=
  ((hall.seats h).areas.foldl (fun hall area => if area = .conference then areaLeaving hall h else hall) hall).modify h
    fun s => { s with areas := [] }

/-- The ways into an area, `/mail` and `/chat` being passed through on the way to the areas of other mains. -/
def enterArea (s : Seat) : Area → Seat
  | .chat => if s.area = .chat then s else (sessionAreaPush s .chat).2
  | .mail => if s.area = .mail then s else (sessionAreaPush s .mail).2
  | .proxymail =>
    let r := if s.area ≠ .mail ∧ s.area ≠ .proxymail then sessionAreaPush s .mail else (.ok, s)
    if r.1 = .ok then (sessionAreaPush r.2 .proxymail).2 else s
  | .proxychat =>
    let r := if s.area ≠ .chat ∧ s.area ≠ .proxychat then sessionAreaPush s .chat else (.ok, s)
    if r.1 = .ok then (sessionAreaPush r.2 .proxychat).2 else s
  | _ => s

end Areas

section Invites

def topicCharOk (b : UInt8) : Bool :=
  (0x61 ≤ b && b ≤ 0x7A) || (0x41 ≤ b && b ≤ 0x5A) || (0x30 ≤ b && b ≤ 0x39) || b = blank || b = 0x2D || b = 0x5F

def conferenceTopicValid (topic : Bytes) : Bool :=
  2 ≤ topic.length && topic.length < conferenceTopicMax && topic.all topicCharOk

def conferenceMayInvite (rates : List InviteRate) (target : Bytes) (now : ℤ) : Bool :=
  match rates.find? fun r => strIeq r.target target with
  | none => true
  | some r =>
    (r.sentAt.countP fun sent => sent ≠ 0 ∧ now - sent < conferenceInviteWindowSec) < conferenceInviteMaxPerTarget

/-- With no slot left the first one is taken, and keeps its name. -/
def conferenceInviteSent (rates : List InviteRate) (target : Bytes) (now : ℤ) : List InviteRate :=
  let slot := match rates.findIdx? fun r => strIeq r.target target with
    | some k => k
    | none => (rates.findIdx? fun r => r.target = []).getD 0
  rates.modify slot fun r => ⟨if r.target = [] then target else r.target, r.sentAt.tail ++ [now]⟩

/-- The user is the answer of the store to the name that was given. -/
def conferenceStart (hall : Hall) (h : ℕ) (topic : CText conferenceTopicMax) (found : Except HybbxResult UserRecord)
    (now : ℤ) : HybbxResult × Hall :=
  let s := hall.seats h
  if topic.text = [] then (.errInvalid, hall)
  else if s.guest then (.errDenied, hall)
  else if conferenceTopicValid topic.text = false then (.errInvalid, hall)
  else if s.area = .conference ∨ s.invite.isSome then (.ok, hall)
  else match found with
    | .error .errNotFound => (.ok, hall)
    | .error rc => (rc, hall)
    | .ok user =>
      if user.active = false ∨ user.level = .guest ∨ strIeq user.username.text s.username.text ∨
          conferenceMayInvite s.rates user.username.text now = false then (.ok, hall)
      else match conferenceFindOnlineUser hall user.username.text with
        | none => (.ok, hall)
        | some p =>
          if (hall.seats p).area = .conference ∨ (hall.seats p).invite.isSome then (.ok, hall)
          else
            let invited := hall.modify p fun t => { t with invite := some ⟨s.username, topic⟩ }
            (.ok, invited.modify h fun s => { s with rates := conferenceInviteSent s.rates user.username.text now })

def joinConference (s : Seat) (topic : CText conferenceTopicMax) (partner : CText userNameMax) : HybbxResult × Seat :=
  if topic.text = [] ∨ partner.text = [] then (.errInvalid, s)
  else
    let r := if s.area ≠ .conference then sessionAreaPush s .conference else (.ok, s)
    if r.1 = .ok then (.ok, { r.2 with topic := topic, partner := partner }) else r

def conferenceActivate (hall : Hall) (i p : ℕ) (topic : CText conferenceTopicMax) : HybbxResult × Hall :=
  match joinConference (hall.seats i) topic (hall.seats p).username with
  | (.ok, s) =>
    let joined := hall.modify i fun _ => s
    match joinConference (joined.seats p) topic (joined.seats i).username with
    | (.ok, t) => (.ok, joined.modify p fun _ => t)
    | (rc, _) => (rc, sessionLeaveArea (clearConference joined i) i)
  | (rc, _) => (rc, hall)

def inviteReplyYes (line : Bytes) : Bool := strIeq line (ofString "y") || strIeq line (ofString "yes")

def inviteReplyNo (line : Bytes) : Bool := strIeq line (ofString "n") || strIeq line (ofString "no")

/-- The session that a positive reply brings together with the one that replies. -/
def conferenceInviter (hall : Hall) (h : ℕ) (line : Bytes) (invite : ConferenceInvite) : Option ℕ :=
  if inviteReplyNo line then none
  else if (hall.seats h).area = .conference then none
  else (conferenceFindOnlineUser hall invite.fromUser.text).filter fun i => (hall.seats i).area ≠ .conference

def clearInvite (hall : Hall) (h : ℕ) : Hall := hall.modify h fun s => { s with invite := none }

def conferenceReplyInvite (hall : Hall) (h : ℕ) (line : Bytes) : HybbxResult × Hall :=
  match (hall.seats h).invite with
  | none => (.errInvalid, hall)
  | some invite =>
    if inviteReplyYes line = false ∧ inviteReplyNo line = false then (.errNotFound, hall)
    else if invite.fromUser.text = [] ∨ invite.topic.text = [] then (.errInvalid, clearInvite hall h)
    else match conferenceInviter hall h line invite with
      | none => (.ok, clearInvite hall h)
      | some i => (.ok, (conferenceActivate (clearInvite hall h) i h invite.topic).2)

def conferenceCancelInvitesFrom (hall : Hall) (username : Bytes) : Hall :=
  { hall with
    seats := fun h =>
      if h ∈ hall.attached ∧ username ≠ [] ∧ (hall.seats h).invite.any (fun i => strIeq i.fromUser.text username) then
        { hall.seats h with invite := none }
      else hall.seats h }

def conferenceSessionClosed (hall : Hall) (h : ℕ) : Hall :=
  let cleared := clearInvite hall h
  let left := if (cleared.seats h).area = .conference then areaLeaving cleared h else cleared
  conferenceCancelInvitesFrom left (left.seats h).username.text

end Invites

section Sessions

def sessionClose (hall : Hall) (h : ℕ) : Hall :=
  let left := if (hall.seats h).invite.isSome ∨ (hall.seats h).area = .conference then conferenceSessionClosed hall h else hall
  { left with attached := left.attached.filter fun q => q ≠ h }

/-- The session goes over to the account as it is. -/
def sessionSwitchUser (s : Seat) (user : UserRecord) : Seat :=
  if user.level = .guest then s else { s with username := user.username, loggedIn := true, guest := false }

inductive ConferenceEvent
  | opened (h : ℕ) (guest : Option (CText userNameMax))
  | start (h : ℕ) (topic : CText conferenceTopicMax) (found : Except HybbxResult UserRecord) (now : ℤ)
  | reply (h : ℕ) (line : Bytes)
  | leave (h : ℕ)
  | goMain (h : ℕ)
  | enter (h : ℕ) (area : Area)
  | login (h : ℕ) (user : UserRecord)
  | closed (h : ℕ)

/-- Conferences are for sessions that are logged in; at its end a session is closed, also one that ends itself. -/
def hallStep (hall : Hall) (ev : ConferenceEvent) : Hall × List Empty :=
  match ev with
  | .opened h guest =>
    if h ∈ hall.attached then (hall, []) else (⟨h :: hall.attached, Function.update hall.seats h (.opened guest)⟩, [])
  | .start h topic found now =>
    (if h ∈ hall.attached ∧ (hall.seats h).loggedIn then (conferenceStart hall h topic found now).2 else hall, [])
  | .reply h line =>
    (if h ∈ hall.attached ∧ (hall.seats h).loggedIn then (conferenceReplyInvite hall h line).2 else hall, [])
  | .leave h => (if h ∈ hall.attached then sessionLeaveArea hall h else hall, [])
  | .goMain h => (if h ∈ hall.attached then sessionGoMain hall h else hall, [])
  | .enter h area => (if h ∈ hall.attached then hall.modify h fun s => enterArea s area else hall, [])
  | .login h user => (if h ∈ hall.attached then hall.modify h fun s => sessionSwitchUser s user else hall, [])
  | .closed h => (if h ∈ hall.attached then sessionClose hall h else hall, [])

def Hall.start : Hall := ⟨[], fun _ => .opened none⟩

def hallRun (evs : List ConferenceEvent) : Hall := (Transducer.run hallStep .start evs).1

end Sessions

end HyBBX.Command
