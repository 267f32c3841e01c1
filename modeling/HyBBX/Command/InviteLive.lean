import HyBBX.Command.ConferenceSteps

/-! Pending invites and the session that sent them. -/

namespace HyBBX.Command

open HyBBX.Core HyBBX.Storage Lib Lib.Bytes Lib.Text

/-- The conferences, and which session sent the invite that another one holds. -/
structure IssuedInvites where
  hall : Hall
  issuer : ℕ → Option ℕ

def IssuedInvites.start : IssuedInvites := ⟨.start, fun _ => none⟩

def issuerAfter (st : IssuedInvites) : ConferenceEvent → ℕ → Option ℕ
  | .start h topic found now =>
    if h ∈ st.hall.attached ∧ (st.hall.seats h).loggedIn then
      match inviteOutcome st.hall h topic found now with
      | .sent target => (conferenceFindOnlineUser st.hall target).elim st.issuer fun p =>
        Function.update st.issuer p (some h)
      | _ => st.issuer
    else st.issuer
  | _ => st.issuer

def issueStep (st : IssuedInvites) (ev : ConferenceEvent) : IssuedInvites × List Empty :=
  (⟨(hallStep st.hall ev).1, issuerAfter st ev⟩, [])

/-- A session holds an invite that another one sent. -/
def PendingFrom (st : IssuedInvites) (h q : ℕ) : Prop :=
  q ∈ st.hall.attached ∧ (st.hall.seats q).invite.isSome ∧ st.issuer q = some h

instance (st : IssuedInvites) (h q : ℕ) : Decidable (PendingFrom st h q) :=
  inferInstanceAs (Decidable (_ ∧ _ ∧ _))

/-- For every pending invite there is a session that is logged in as the user it is from. -/
def InviteLive (hall : Hall) : Prop := ∀ q ∈ hall.attached, ∀ invite ∈ (hall.seats q).invite,
  ∃ h ∈ hall.attached, (hall.seats h).loggedIn = true ∧ strIeq (hall.seats h).username.text invite.fromUser.text = true

/-- The session closes, or goes over to another account. -/
def Quits (hall : Hall) (h : ℕ) : ConferenceEvent → Prop
  | .closed q => q = h
  | .login q user => q = h ∧ user.level ≠ .guest ∧ strIeq user.username.text (hall.seats h).username.text = false
  | _ => False

def InvitesKept (st : IssuedInvites) (ev : ConferenceEvent) : Prop :=
  InviteLive (issueStep st ev).1.hall ∧
    ∀ h ∈ st.hall.attached, Quits st.hall h ev → ∀ q, ¬PendingFrom (issueStep st ev).1 h q

/-- A session that closes has an invite itself, or is in a conference, or else nobody holds an invite of it; and nobody
holds an invite of a session that goes over to another account. -/
def ClearsInvites (st : IssuedInvites) : ConferenceEvent → Prop
  | .closed h => h ∈ st.hall.attached →
      ((st.hall.seats h).invite.isSome ∨ (st.hall.seats h).area = .conference) ∧ (st.hall.seats h).username.text ≠ [] ∨
        ∀ q ∈ st.hall.attached, q ≠ h → ¬PendingFrom st h q
  | .login h user => h ∈ st.hall.attached → user.level = .guest ∨
      strIeq user.username.text (st.hall.seats h).username.text = true ∨ ∀ q ∈ st.hall.attached, ¬PendingFrom st h q
  | _ => True

instance (st : IssuedInvites) : (ev : ConferenceEvent) → Decidable (ClearsInvites st ev)
  | .closed h => inferInstanceAs (Decidable (h ∈ st.hall.attached → _))
  | .login h _ => inferInstanceAs (Decidable (h ∈ st.hall.attached → _))
  | .opened .. | .start .. | .reply .. | .leave .. | .goMain .. | .enter .. => .isTrue trivial

/-- Every pending invite was sent by a session that is still logged in under its name. -/
def Issued (st : IssuedInvites) : Prop := ∀ q ∈ st.hall.attached, ∀ invite ∈ (st.hall.seats q).invite,
  ∃ h ∈ st.hall.attached, st.issuer q = some h ∧ (st.hall.seats h).loggedIn = true ∧
    strIeq (st.hall.seats h).username.text invite.fromUser.text = true

section Steps

variable {st : IssuedInvites} {hall : Hall} {h : ℕ}

lemma Issued.live (hst : Issued st) : InviteLive st.hall := by
  intro q hq invite hinvite
  obtain ⟨r, hr, -, hlive⟩ := hst q hq invite hinvite
  exact ⟨r, hr, hlive⟩

lemma Issued.kept (hst : Issued st) (hkeeps : st.hall.Keeps hall) : Issued ⟨hall, st.issuer⟩ := by
  intro q hq invite hinvite
  rw [hkeeps.attached] at hq
  obtain ⟨r, hr, hissuer, hlogged, hnamed⟩ : ∃ r ∈ st.hall.attached, st.issuer q = some r ∧
      (st.hall.seats r).loggedIn = true ∧ strIeq (st.hall.seats r).username.text invite.fromUser.text = true := by
    rcases (hkeeps.seats q).invite with hsame | hnone
    · exact hst q hq invite (hsame ▸ hinvite)
    · rw [hnone] at hinvite
      cases hinvite
  refine ⟨r, hkeeps.attached ▸ hr, hissuer, ?_, ?_⟩
  · rw [(hkeeps.seats r).loggedIn, hlogged]
  · rw [(hkeeps.seats r).username, hnamed]

lemma Issued.opened (hst : Issued st) (hnew : h ∉ st.hall.attached) (guest : Option (CText userNameMax)) :
    Issued ⟨⟨h :: st.hall.attached, Function.update st.hall.seats h (.opened guest)⟩, st.issuer⟩ := by
  intro q hq invite hinvite
  by_cases hqh : q = h
  · rw [hqh] at hinvite
    dsimp only at hinvite
    rw [Function.update_self] at hinvite
    cases hinvite
  · have hold : q ∈ st.hall.attached := (List.mem_cons.mp hq).resolve_left hqh
    dsimp only at hinvite
    rw [Function.update_of_ne hqh] at hinvite
    obtain ⟨r, hr, hissuer, hlive⟩ := hst q hold invite hinvite
    have hrh : r ≠ h := by
      rintro rfl
      exact hnew hr
    refine ⟨r, List.mem_cons_of_mem h hr, hissuer, ?_⟩
    dsimp only
    rw [Function.update_of_ne hrh]
    exact hlive

lemma Issued.invited (hst : Issued st) {topic : CText conferenceTopicMax} {user : UserRecord} {p : ℕ}
    (hh : h ∈ st.hall.attached)
    (hlogged : (st.hall.seats h).loggedIn = true) (now : ℤ) :
    Issued ⟨invited st.hall h topic user p now, Function.update st.issuer p (some h)⟩ := by
  intro q hq invite hinvite
  dsimp only at hinvite ⊢
  rw [invited_seat] at hinvite
  dsimp only at hinvite
  split_ifs at hinvite with hqp
  · cases hinvite
    rw [hqp, Function.update_self]
    refine ⟨h, hh, rfl, ?_⟩
    rw [invited_seat]
    exact ⟨hlogged, strIeq_self _⟩
  · obtain ⟨r, hr, hissuer, hlive⟩ := hst q hq invite hinvite
    rw [Function.update_of_ne hqp]
    refine ⟨r, hr, hissuer, ?_⟩
    rw [invited_seat]
    exact hlive

/-- The invites from the name of a session that closes are cancelled if its end is noticed. -/
lemma sessionClose_cancels {q : ℕ} (hnoticed : (hall.seats h).invite.isSome ∨ (hall.seats h).area = .conference)
    (hnamed : (hall.seats h).username.text ≠ []) (hq : q ∈ hall.attached) {invite : ConferenceInvite}
    (hinvite : invite ∈ ((sessionClose hall h).seats q).invite) :
    strIeq invite.fromUser.text (hall.seats h).username.text = false := by
  rw [sessionClose, if_pos hnoticed, conferenceSessionClosed] at hinvite
  dsimp only at hinvite
  have hleft : hall.Keeps (if ((clearInvite hall h).seats h).area = .conference then areaLeaving (clearInvite hall h) h else clearInvite hall h) := by
    split_ifs
    · rw [areaLeaving_eq]
      exact (keeps_clearInvite hall h).trans (.modify _ h (keeps_cleared _))
    · exact keeps_clearInvite hall h
  revert hinvite hleft
  generalize (if ((clearInvite hall h).seats h).area = .conference then areaLeaving (clearInvite hall h) h else clearInvite hall h) = left
  intro hinvite hleft
  rw [conferenceCancelInvitesFrom, hleft.attached, (hleft.seats h).username] at hinvite
  dsimp only at hinvite
  split_ifs at hinvite with hcancel
  · cases hinvite
  · rw [Bool.eq_false_iff]
    intro hsame
    refine hcancel ⟨hq, hnamed, ?_⟩
    rw [hinvite]
    exact hsame

lemma sessionClose_attached (hall : Hall) (h : ℕ) :
    (sessionClose hall h).attached = hall.attached.filter fun q => q ≠ h := by
  rw [sessionClose]
  split_ifs
  · rw [(keeps_sessionClosed hall h).attached]
  · rfl

/-- Whoever still holds an invite after a session has closed held it before, and from another session. -/
lemma Issued.closed (hst : Issued st) (hclears : ClearsInvites st (.closed h)) (hh : h ∈ st.hall.attached) :
    Issued ⟨sessionClose st.hall h, st.issuer⟩ := by
  have hkeeps := keeps_close st.hall h
  have hothers : ∀ r, r ∈ (sessionClose st.hall h).attached ↔ r ∈ st.hall.attached ∧ r ≠ h := by
    intro r
    rw [sessionClose_attached, List.mem_filter, decide_eq_true_iff]
  intro q hq invite hinvite
  obtain ⟨hqold, hqh⟩ := (hothers q).mp hq
  have hold : invite ∈ (st.hall.seats q).invite := by
    rcases (hkeeps q).invite with hsame | hnone
    · exact hsame ▸ hinvite
    · rw [hnone] at hinvite
      cases hinvite
  obtain ⟨r, hr, hissuer, hlogged, hnamed⟩ := hst q hqold invite hold
  refine ⟨r, (hothers r).mpr ⟨hr, ?_⟩, hissuer, ?_, ?_⟩
  · rintro rfl
    rcases hclears hh with ⟨hnoticed, hname⟩ | hnobody
    · have hother := sessionClose_cancels hnoticed hname hqold hinvite
      rw [strIeq_comm, hnamed] at hother
      cases hother
    · exact hnobody q hqold hqh ⟨hqold, Option.isSome_of_mem hold, hissuer⟩
  · rw [(hkeeps r).loggedIn, hlogged]
  · rw [(hkeeps r).username, hnamed]

/-- A session that goes over to another account has no invites out. -/
lemma Issued.switched (hst : Issued st) {user : UserRecord} (hclears : ClearsInvites st (.login h user))
    (hh : h ∈ st.hall.attached) :
    Issued ⟨st.hall.modify h fun s => sessionSwitchUser s user, st.issuer⟩ := by
  intro q hq invite hinvite
  have hold : invite ∈ (st.hall.seats q).invite := by
    rw [← switched_invite st.hall h user q]
    exact hinvite
  obtain ⟨r, hr, hissuer, hlogged, hnamed⟩ := hst q hq invite hold
  refine ⟨r, hr, hissuer, ?_⟩
  dsimp only
  by_cases hrh : r = h
  · subst hrh
    rw [modify_self, sessionSwitchUser]
    split_ifs with hguest
    · exact ⟨hlogged, hnamed⟩
    · refine ⟨rfl, ?_⟩
      rcases hclears hh with hlevel | hsame | hnobody
      · exact absurd hlevel hguest
      · dsimp only
        rw [strIeq_iff, (strIeq_iff _ _).mp hsame]
        exact (strIeq_iff _ _).mp hnamed
      · exact absurd ⟨hq, Option.isSome_of_mem hold, hissuer⟩ (hnobody q hq)
  · rw [modify_other _ _ hrh]
    exact ⟨hlogged, hnamed⟩

lemma Issued.step (hst : Issued st) {ev : ConferenceEvent} (hclears : ClearsInvites st ev) :
    Issued (issueStep st ev).1 := by
  rw [issueStep]
  cases ev with
  | opened h guest =>
    rw [hallStep]
    split_ifs with hmem
    · exact hst
    · exact hst.opened hmem guest
  | start h topic found now =>
    rw [hallStep, issuerAfter]
    split_ifs with hmem
    · rcases conferenceStart_cases st.hall h topic found now with ⟨hnone, hstays⟩ | ⟨user, p, -, hinvites, -, hsent, hinvited⟩
      · rw [hstays]
        cases hout : inviteOutcome st.hall h topic found now with
        | sent target => exact absurd hout (hnone target)
        | other | limited => exact hst
      · rw [hsent, hinvited]
        dsimp only
        rw [hinvites.online]
        exact hst.invited hmem.1 hmem.2 now
    · exact hst
  | reply h line =>
    rw [hallStep]
    split_ifs
    · exact hst.kept (keeps_reply st.hall h line)
    · exact hst
  | leave h =>
    rw [hallStep]
    split_ifs
    · exact hst.kept (keeps_leaveArea st.hall h)
    · exact hst
  | goMain h =>
    rw [hallStep]
    split_ifs
    · exact hst.kept (keeps_goMain st.hall h)
    · exact hst
  | enter h area =>
    rw [hallStep]
    split_ifs
    · exact hst.kept (.modify st.hall h (f := fun s => enterArea s area) (keeps_enterArea _ area))
    · exact hst
  | login h user =>
    rw [hallStep]
    split_ifs with hmem
    · exact hst.switched hclears hmem
    · exact hst
  | closed h =>
    rw [hallStep]
    split_ifs with hmem
    · exact hst.closed hclears hmem
    · exact hst

lemma Issued.quits (hst : Issued st) {ev : ConferenceEvent} (hclears : ClearsInvites st ev) (hh : h ∈ st.hall.attached)
    (hquits : Quits st.hall h ev) (q : ℕ) : ¬PendingFrom (issueStep st ev).1 h q := by
  rintro ⟨hq, hpending, hissuer⟩
  cases ev with
  | closed x =>
    obtain rfl := hquits
    obtain ⟨invite, hinvite⟩ := Option.isSome_iff_exists.mp hpending
    obtain ⟨r, hr, hissuer', -⟩ := hst.step hclears q hq invite hinvite
    obtain rfl : x = r := Option.some.inj (hissuer.symm.trans hissuer')
    rw [issueStep, hallStep, if_pos hh, sessionClose_attached] at hr
    simp at hr
  | login x user =>
    obtain ⟨rfl, hlevel, hname⟩ := hquits
    rw [issueStep, hallStep, if_pos hh] at hq hpending
    dsimp only at hpending
    rw [switched_invite] at hpending
    rcases hclears hh with hguest | hsame | hnobody
    · exact hlevel hguest
    · rw [hsame] at hname
      cases hname
    · exact hnobody q hq ⟨hq, hpending, hissuer⟩
  | _ => cases hquits

end Steps

section Run

/-- No invite outlives the session that sent it, in a run in which every session that closes or goes over to another
account has its invites cleared. -/
theorem invites_kept {evs : List ConferenceEvent} (hclears : Transducer.Along issueStep ClearsInvites .start evs) :
    Transducer.Along issueStep InvitesKept .start evs :=
  Transducer.along_kept issueStep
    (fun _ _ (hst : Issued _) hev => ⟨hst.step hev, (hst.step hev).live, fun _ hh hquits => hst.quits hev hh hquits⟩)
    (fun _ hq => absurd hq List.not_mem_nil) hclears

end Run

section Example

def annaAndBert : List ConferenceEvent :=
  [.opened 0 none, .login 0 (memberRecord "anna"), .opened 1 none, .login 1 (memberRecord "bert"),
    .start 0 (CText.copy (ofString "radio")) (.ok (memberRecord "bert")) 100]

/-- Bert, who holds an invite of Anna's, closes, and then she does. -/
theorem invites_kept_annaAndBert :
    Transducer.Along issueStep InvitesKept .start (annaAndBert ++ [.closed 1, .closed 0]) :=
  invites_kept (by decide +kernel)

instance (hall : Hall) : Decidable (InviteLive hall) := by
  unfold InviteLive
  infer_instance

/-- Anna closes while Bert holds an invite of hers. -/
theorem invite_outlives_session : ¬∀ evs : List ConferenceEvent, Transducer.Along issueStep InvitesKept .start evs := by
  intro h
  have hlast := (Transducer.along_append issueStep (h (annaAndBert ++ [.closed 0]))).2
  have hdead : ¬InviteLive (issueStep (Transducer.run issueStep .start annaAndBert).1 (.closed 0)).1.hall :=
    by decide +kernel
  exact hdead hlast.1.1

end Example

end HyBBX.Command
