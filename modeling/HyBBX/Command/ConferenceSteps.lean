import HyBBX.Command.ConferencePairs

/-! What becomes of a request for a conference, and what the other steps leave alone: accounts, the count of invites, and
all invites but their own. -/

namespace HyBBX.Command

open HyBBX.Core HyBBX.Storage Lib Lib.Bytes Lib.Text

section Requests

lemma strIeq_comm (a b : Bytes) : strIeq a b = strIeq b a := by simp only [strIeq, eq_comm]

variable {hall : Hall} {h : ℕ} {topic : CText conferenceTopicMax} {found : Except HybbxResult UserRecord} {now : ℤ}

/-- `hybbx_session_conference_may_invite` -/
def mayInvite (rates : List InviteRate) (target : Bytes) (now : ℤ) : Bool :=
  if target = [] then false else conferenceMayInvite rates target now

/-- What a request for a conference comes to. -/
inductive InviteOutcome
  | other
  | limited (target : Bytes)
  | sent (target : Bytes)
  deriving DecidableEq

def inviteOutcome (hall : Hall) (h : ℕ) (topic : CText conferenceTopicMax)
    (found : Except HybbxResult UserRecord) (now : ℤ) :
    InviteOutcome :=
  let s := hall.seats h
  if topic.text = [] ∨ s.guest ∨ conferenceTopicValid topic.text = false ∨ s.area = .conference ∨ s.invite.isSome then .other
  else match found with
    | .error _ => .other
    | .ok user =>
      let target := user.username.text
      if user.active = false ∨ user.level = .guest ∨ strIeq target s.username.text then .other
      else if mayInvite s.rates target now = false then .limited target
      else match conferenceFindOnlineUser hall target with
        | none => .other
        | some p => if (hall.seats p).area = .conference ∨ (hall.seats p).invite.isSome then .other else .sent target

/-- A request that nothing but the limit can stop. -/
structure Invites (hall : Hall) (h : ℕ) (topic : CText conferenceTopicMax) (user : UserRecord) (p : ℕ) : Prop where
  about : topic.text ≠ [] ∧ conferenceTopicValid topic.text = true
  sender : (hall.seats h).guest = false ∧ (hall.seats h).area ≠ .conference ∧ (hall.seats h).invite = none
  account : user.active = true ∧ user.level ≠ .guest ∧ strIeq user.username.text (hall.seats h).username.text = false
  online : conferenceFindOnlineUser hall user.username.text = some p
  partner : (hall.seats p).area ≠ .conference ∧ (hall.seats p).invite = none

instance (hall : Hall) (h : ℕ) (topic : CText conferenceTopicMax) (user : UserRecord) (p : ℕ) :
    Decidable (Invites hall h topic user p) :=
  decidable_of_iff
    ((topic.text ≠ [] ∧ conferenceTopicValid topic.text = true) ∧
      ((hall.seats h).guest = false ∧ (hall.seats h).area ≠ .conference ∧ (hall.seats h).invite = none) ∧
      (user.active = true ∧ user.level ≠ .guest ∧ strIeq user.username.text (hall.seats h).username.text = false) ∧
      conferenceFindOnlineUser hall user.username.text = some p ∧ (hall.seats p).area ≠ .conference ∧
        (hall.seats p).invite = none)
    ⟨fun h => ⟨h.1, h.2.1, h.2.2.1, h.2.2.2.1, h.2.2.2.2⟩, fun h => ⟨h.about, h.sender, h.account, h.online, h.partner⟩⟩

def invited (hall : Hall) (h : ℕ) (topic : CText conferenceTopicMax) (user : UserRecord) (p : ℕ) (now : ℤ) : Hall :=
  (hall.modify p fun t => { t with invite := some ⟨(hall.seats h).username, topic⟩ }).modify h
    fun s => { s with rates := conferenceInviteSent s.rates user.username.text now }

lemma findOnlineUser_some {username : Bytes} {p : ℕ} (hp : conferenceFindOnlineUser hall username = some p) :
    username ≠ [] ∧ p ∈ hall.attached ∧ (hall.seats p).loggedIn = true ∧ (hall.seats p).guest = false ∧
      strIeq (hall.seats p).username.text username = true := by
  rw [conferenceFindOnlineUser] at hp
  split_ifs at hp with hname
  have hprop := List.find?_some hp
  rw [Bool.and_eq_true, Bool.and_eq_true] at hprop
  exact ⟨hname, List.mem_of_find?_eq_some hp, hprop.1.1, by simpa using hprop.1.2, hprop.2⟩

lemma conferenceStart_cases (hall : Hall) (h : ℕ) (topic : CText conferenceTopicMax)
    (found : Except HybbxResult UserRecord) (now : ℤ) :
    (∀ target, inviteOutcome hall h topic found now ≠ .sent target) ∧
      (conferenceStart hall h topic found now).2 = hall ∨
      ∃ user p, found = .ok user ∧ Invites hall h topic user p ∧
        mayInvite (hall.seats h).rates user.username.text now = true ∧
        inviteOutcome hall h topic found now = .sent user.username.text ∧
        (conferenceStart hall h topic found now).2 = invited hall h topic user p now := by
  have hstays : (∀ target, InviteOutcome.other ≠ .sent target) ∧ hall = hall := ⟨fun _ => nofun, rfl⟩
  unfold inviteOutcome conferenceStart
  dsimp only
  by_cases htopic : topic.text = []
  · rw [if_pos (.inl htopic), if_pos htopic]
    exact .inl hstays
  rw [if_neg htopic]
  by_cases hguest : (hall.seats h).guest = true
  · rw [if_pos (.inr (.inl hguest)), if_pos hguest]
    exact .inl hstays
  rw [if_neg hguest]
  by_cases hvalid : conferenceTopicValid topic.text = false
  · rw [if_pos (.inr (.inr (.inl hvalid))), if_pos hvalid]
    exact .inl hstays
  rw [if_neg hvalid]
  by_cases hbusy : (hall.seats h).area = .conference ∨ (hall.seats h).invite.isSome
  · rw [if_pos (.inr (.inr (.inr hbusy))), if_pos hbusy]
    exact .inl hstays
  rw [if_neg (not_or.mpr ⟨htopic, not_or.mpr ⟨hguest, not_or.mpr ⟨hvalid, hbusy⟩⟩⟩), if_neg hbusy]
  cases found with
  | error rc => exact .inl ⟨hstays.1, by cases rc <;> rfl⟩
  | ok user =>
    dsimp only
    by_cases haccount : user.active = false ∨ user.level = .guest ∨
      strIeq user.username.text (hall.seats h).username.text
    · rw [if_pos haccount, if_pos (by tauto)]
      exact .inl hstays
    rw [if_neg haccount]
    have hmay : mayInvite (hall.seats h).rates user.username.text now = true →
        conferenceMayInvite (hall.seats h).rates user.username.text now = true := by
      rw [mayInvite]
      split_ifs
      · exact nofun
      · exact id
    cases hfind : conferenceFindOnlineUser hall user.username.text with
    | none =>
      refine .inl ⟨fun target => ?_, ?_⟩
      · split_ifs <;> exact nofun
      · split_ifs <;> rfl
    | some p =>
      have hnamed : user.username.text ≠ [] := (findOnlineUser_some hfind).1
      dsimp only
      by_cases hlimit : mayInvite (hall.seats h).rates user.username.text now = false
      · rw [if_pos hlimit, if_pos (by rw [mayInvite, if_neg hnamed] at hlimit; tauto)]
        exact .inl ⟨fun _ => nofun, rfl⟩
      have hroom : mayInvite (hall.seats h).rates user.username.text now = true := by simpa using hlimit
      have hgo : ¬(user.active = false ∨ user.level = .guest ∨ strIeq user.username.text (hall.seats h).username.text ∨
          conferenceMayInvite (hall.seats h).rates user.username.text now = false) := by
        simpa [hmay hroom] using haccount
      rw [if_neg hlimit, if_neg hgo]
      by_cases hpartner : (hall.seats p).area = .conference ∨ (hall.seats p).invite.isSome
      · rw [if_pos hpartner, if_pos hpartner]
        exact .inl hstays
      rw [if_neg hpartner, if_neg hpartner]
      refine .inr ⟨user, p, rfl, ⟨⟨htopic, ?_⟩, ⟨?_, ?_⟩, ⟨?_, ?_, ?_⟩, hfind, ?_⟩, hroom, rfl, rfl⟩ <;> simp_all

end Requests

/-- A session of the same account, with no other invite than before. -/
structure Seat.Keeps (s s' : Seat) : Prop where
  username : s'.username = s.username
  loggedIn : s'.loggedIn = s.loggedIn
  guest : s'.guest = s.guest
  rates : s'.rates = s.rates
  invite : s'.invite = s.invite ∨ s'.invite = none

structure Hall.Keeps (hall hall' : Hall) : Prop where
  attached : hall'.attached = hall.attached
  seats : ∀ q, (hall.seats q).Keeps (hall'.seats q)

section Seats

lemma Seat.Keeps.refl (s : Seat) : s.Keeps s := ⟨rfl, rfl, rfl, rfl, .inl rfl⟩

lemma Seat.Keeps.trans {a b c : Seat} (h : a.Keeps b) (h' : b.Keeps c) : a.Keeps c := by
  refine ⟨h'.username.trans h.username, h'.loggedIn.trans h.loggedIn, h'.guest.trans h.guest,
    h'.rates.trans h.rates, ?_⟩
  rcases h'.invite with hsame | hnone
  · rw [hsame]
    exact h.invite
  · exact .inr hnone

lemma keeps_areas (s : Seat) (areas : List Area) : s.Keeps { s with areas := areas } := ⟨rfl, rfl, rfl, rfl, .inl rfl⟩

lemma keeps_cleared (s : Seat) : s.Keeps s.cleared := ⟨rfl, rfl, rfl, rfl, .inl rfl⟩

lemma keeps_left (s : Seat) : s.Keeps s.left := by
  rw [Seat.left]
  split_ifs
  · exact (keeps_cleared s).trans (keeps_areas _ _)
  · exact keeps_areas s _

lemma keeps_atMain (s : Seat) : s.Keeps s.atMain := by
  rw [Seat.atMain]
  split_ifs
  · exact (keeps_cleared s).trans (keeps_areas _ _)
  · exact keeps_areas s _

lemma keeps_push (s : Seat) (area : Area) : s.Keeps (sessionAreaPush s area).2 := by
  rw [sessionAreaPush]
  split_ifs
  · exact .refl s
  · exact .refl s
  · exact keeps_areas s _

lemma keeps_enterArea (s : Seat) (area : Area) : s.Keeps (enterArea s area) := by
  cases area with
  | main | conference => exact .refl s
  | chat | mail =>
    rw [enterArea]
    split_ifs
    · exact .refl s
    · exact keeps_push s _
  | proxymail | proxychat =>
    rw [enterArea]
    split_ifs
    · exact (keeps_push s _).trans (keeps_push _ _)
    · exact .refl s
    · exact keeps_push s _
    · exact .refl s

lemma keeps_join (s : Seat) (topic : CText conferenceTopicMax) (partner : CText userNameMax) :
    s.Keeps (joinConference s topic partner).2 := by
  rw [joinConference]
  dsimp only
  split_ifs with _ harea hok hok
  · exact .refl s
  · exact (keeps_push s _).trans ⟨rfl, rfl, rfl, rfl, .inl rfl⟩
  · exact keeps_push s _
  · exact ⟨rfl, rfl, rfl, rfl, .inl rfl⟩
  · exact .refl s

end Seats

section Halls

variable {hall hall' hall'' : Hall}

lemma Hall.Keeps.refl (hall : Hall) : hall.Keeps hall := ⟨rfl, fun _ => .refl _⟩

lemma Hall.Keeps.trans (h : hall.Keeps hall') (h' : hall'.Keeps hall'') : hall.Keeps hall'' :=
  ⟨h'.attached.trans h.attached, fun q => (h.seats q).trans (h'.seats q)⟩

lemma Hall.Keeps.modify (hall : Hall) (h : ℕ) {f : Seat → Seat} (hf : (hall.seats h).Keeps (f (hall.seats h))) :
    hall.Keeps (hall.modify h f) := by
  refine ⟨rfl, fun q => ?_⟩
  by_cases hq : q = h
  · rw [hq, modify_self]
    exact hf
  · rw [modify_other hall f hq]
    exact .refl _

lemma keeps_clearInvite (hall : Hall) (h : ℕ) : hall.Keeps (clearInvite hall h) :=
    .modify hall h ⟨rfl, rfl, rfl, rfl, .inr rfl⟩

lemma keeps_leaveArea (hall : Hall) (h : ℕ) : hall.Keeps (sessionLeaveArea hall h) := by
  rw [sessionLeaveArea_eq]
  exact .modify hall h (keeps_left _)

lemma keeps_goMain (hall : Hall) (h : ℕ) : hall.Keeps (sessionGoMain hall h) := by
  rw [sessionGoMain_eq]
  exact .modify hall h (keeps_atMain _)

lemma keeps_activate (hall : Hall) (i p : ℕ) (topic : CText conferenceTopicMax) :
    hall.Keeps (conferenceActivate hall i p topic).2 := by
  have hi := keeps_join (hall.seats i) topic (hall.seats p).username
  rw [conferenceActivate]
  cases hjoin : joinConference (hall.seats i) topic (hall.seats p).username with
  | mk rc s =>
    rw [hjoin] at hi
    cases rc <;> try exact .refl hall
    have hjoined : hall.Keeps (hall.modify i fun _ => s) := .modify hall i hi
    have hp := keeps_join ((hall.modify i fun _ => s).seats p) topic ((hall.modify i fun _ => s).seats i).username
    dsimp only
    cases hjoin' : joinConference ((hall.modify i fun _ => s).seats p) topic ((hall.modify i fun _ => s).seats i).username with
    | mk rc' t =>
      rw [hjoin'] at hp
      have hleft : hall.Keeps (sessionLeaveArea (clearConference (hall.modify i fun _ => s) i) i) :=
        (hjoined.trans (.modify _ i (keeps_cleared _))).trans (keeps_leaveArea _ i)
      have hboth : hall.Keeps ((hall.modify i fun _ => s).modify p fun _ => t) := hjoined.trans (.modify _ p hp)
      cases rc' <;> first | exact hboth | exact hleft

lemma keeps_reply (hall : Hall) (h : ℕ) (line : Bytes) : hall.Keeps (conferenceReplyInvite hall h line).2 := by
  rw [conferenceReplyInvite]
  cases (hall.seats h).invite with
  | none => exact .refl hall
  | some invite =>
    dsimp only
    split_ifs
    · exact .refl hall
    · exact keeps_clearInvite hall h
    · cases conferenceInviter hall h line invite with
      | none => exact keeps_clearInvite hall h
      | some i => exact (keeps_clearInvite hall h).trans (keeps_activate _ i h _)

lemma keeps_cancelInvites (hall : Hall) (username : Bytes) :
    hall.Keeps (conferenceCancelInvitesFrom hall username) := by
  refine ⟨rfl, fun q => ?_⟩
  rw [conferenceCancelInvitesFrom]
  dsimp only
  split_ifs
  · exact ⟨rfl, rfl, rfl, rfl, .inr rfl⟩
  · exact .refl _

lemma keeps_sessionClosed (hall : Hall) (h : ℕ) : hall.Keeps (conferenceSessionClosed hall h) := by
  rw [conferenceSessionClosed]
  split_ifs
  · rw [areaLeaving_eq]
    exact ((keeps_clearInvite hall h).trans (.modify _ h (keeps_cleared _))).trans (keeps_cancelInvites _ _)
  · exact (keeps_clearInvite hall h).trans (keeps_cancelInvites _ _)

lemma keeps_close (hall : Hall) (h q : ℕ) : (hall.seats q).Keeps ((sessionClose hall h).seats q) := by
  rw [sessionClose]
  split_ifs
  · exact (keeps_sessionClosed hall h).seats q
  · exact .refl _

lemma invited_seat (hall : Hall) (h : ℕ) (topic : CText conferenceTopicMax) (user : UserRecord) (p : ℕ)
    (now : ℤ) (q : ℕ) :
    (invited hall h topic user p now).seats q = { hall.seats q with
      invite := if q = p then some ⟨(hall.seats h).username, topic⟩ else (hall.seats q).invite
      rates := if q = h then conferenceInviteSent (hall.seats h).rates user.username.text now else (hall.seats q).rates } := by
  have hinvite : (hall.modify p fun t => { t with invite := some ⟨(hall.seats h).username, topic⟩ }).seats q =
    { hall.seats q with
      invite := if q = p then some ⟨(hall.seats h).username, topic⟩ else (hall.seats q).invite } := by
    by_cases hq : q = p
    · rw [hq, modify_self, if_pos rfl]
    · rw [modify_other _ _ hq, if_neg hq]
  rw [invited]
  by_cases hq : q = h
  · subst hq
    rw [modify_self, hinvite, if_pos rfl]
  · rw [modify_other _ _ hq, hinvite, if_neg hq]

lemma switched_invite (hall : Hall) (h : ℕ) (user : UserRecord) (q : ℕ) :
    ((hall.modify h fun s => sessionSwitchUser s user).seats q).invite = (hall.seats q).invite := by
  by_cases hq : q = h
  · rw [hq, modify_self, sessionSwitchUser]
    split_ifs <;> rfl
  · rw [modify_other _ _ hq]

end Halls

end HyBBX.Command
