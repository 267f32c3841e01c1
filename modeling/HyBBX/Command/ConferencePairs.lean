import HyBBX.Command.Conference
import HyBBX.Storage.Represents

/-! Both sides of a conference know of each other, as long as nobody goes away from the other. -/

namespace HyBBX.Command

open HyBBX.Core HyBBX.Storage Lib Lib.Bytes Lib.Text

/-- A logged-in session in the conference area, under the name that the other has as its partner, and the other way
round. -/
def Seat.Faces (r q : Seat) : Prop :=
  r.loggedIn = true ∧ r.partner.text ≠ [] ∧ q.partner.text ≠ [] ∧ .conference ∈ r.areas ∧
    strIeq r.username.text q.partner.text = true ∧ strIeq r.partner.text q.username.text = true

instance (r q : Seat) : Decidable (r.Faces q) := by
  unfold Seat.Faces
  infer_instance

def ConferenceSymmetric (hall : Hall) : Prop :=
  ∀ q ∈ hall.attached, (hall.seats q).partner.text ≠ [] →
    .conference ∈ (hall.seats q).areas ∧ ∃ r ∈ hall.attached, (hall.seats r).Faces (hall.seats q)

/-- The sides of a conference that leave it, switch to another account or close. -/
def Departs (hall : Hall) : ConferenceEvent → ℕ → Prop
  | .leave h, x => x = h ∧ (hall.seats h).area = .conference
  | .goMain h, x => x = h ∧ .conference ∈ (hall.seats h).areas
  | .login h user, x => x = h ∧ user.level ≠ .guest ∧ strIeq user.username.text (hall.seats h).username.text = false
  | .closed h, x => x = h
  | _, _ => False

/-- When one side goes, the other has no partner any more and is out of the conference. -/
def PartnerReleased (hall : Hall) (ev : ConferenceEvent) : Prop :=
  ∀ x ∈ hall.attached, Departs hall ev x → ∀ q ∈ hall.attached, q ≠ x → (hall.seats x).Faces (hall.seats q) →
    ((hallStep hall ev).1.seats q).partner.text = [] ∧ .conference ∉ ((hallStep hall ev).1.seats q).areas

section Condition

def FacesNobody (hall : Hall) (x : ℕ) : Prop := ∀ q ∈ hall.attached, q ≠ x → ¬(hall.seats x).Faces (hall.seats q)

instance (hall : Hall) (x : ℕ) : Decidable (FacesNobody hall x) := by
  unfold FacesNobody
  infer_instance

/-- Nobody else is in conference with one of two sessions that start one, nor is the second, should its areas be too
many for one more. -/
def NewPair (hall : Hall) (i p : ℕ) : Prop :=
  (hall.seats i).depth < areaStackMax → ∀ q ∈ hall.attached, q ≠ i →
    (q = p ∧ (hall.seats p).depth < areaStackMax ∨ ¬(hall.seats i).Faces (hall.seats q)) ∧
      (q ≠ p → (hall.seats p).depth < areaStackMax → ¬(hall.seats p).Faces (hall.seats q))

instance (hall : Hall) (i p : ℕ) : Decidable (NewPair hall i p) := by
  unfold NewPair
  infer_instance

/-- A step after which nobody is left alone in a conference. -/
def LeavesNobody (hall : Hall) : ConferenceEvent → Prop
  | .leave h => h ∈ hall.attached → (hall.seats h).area = .conference → FacesNobody hall h
  | .goMain h => h ∈ hall.attached → .conference ∈ (hall.seats h).areas → FacesNobody hall h
  | .closed h => h ∈ hall.attached → FacesNobody hall h
  | .login h user => h ∈ hall.attached → user.level = .guest ∨
      strIeq user.username.text (hall.seats h).username.text = true ∨ (hall.seats h).partner.text = []
  | .reply h line => h ∈ hall.attached → (hall.seats h).loggedIn = true → inviteReplyYes line = true →
      ∀ invite ∈ (hall.seats h).invite, ∀ i ∈ conferenceInviter hall h line invite, NewPair hall i h
  | _ => True

instance (hall : Hall) (ev : ConferenceEvent) : Decidable (LeavesNobody hall ev) := by
  unfold LeavesNobody
  split <;> infer_instance

end Condition

section Seats

variable {hall : Hall} {h q : ℕ}

lemma modify_self (hall : Hall) (h : ℕ) (f : Seat → Seat) : (hall.modify h f).seats h = f (hall.seats h) :=
  Function.update_self ..

lemma modify_other (hall : Hall) (f : Seat → Seat) (hq : q ≠ h) : (hall.modify h f).seats q = hall.seats q :=
  Function.update_of_ne hq ..

lemma modify_modify (hall : Hall) (h : ℕ) (f g : Seat → Seat) :
    (hall.modify h g).modify h f = hall.modify h (f ∘ g) := by
  rw [Hall.modify, modify_self, Hall.modify, Hall.modify]
  dsimp only
  rw [Function.update_idem]
  rfl

lemma modify_same {f : Seat → Seat} (hf : f (hall.seats h) = hall.seats h) : hall.modify h f = hall := by
  rw [Hall.modify, hf, Function.update_eq_self]

def Seat.cleared (s : Seat) : Seat := { s with topic := .empty, partner := .empty }

/-- The name in the buffer that was cleared is never found, so nobody hears of the departure. -/
lemma areaLeaving_eq (hall : Hall) (h : ℕ) : areaLeaving hall h = hall.modify h Seat.cleared := by
  rw [areaLeaving, conferenceAreaLeaving, if_neg]
  · rfl
  · rw [clearConference, modify_self]
    exact fun hnamed => hnamed.2 rfl

/-- A session out of its innermost area. -/
def Seat.left (s : Seat) : Seat :=
  { (if s.area = .conference then s.cleared else s) with areas := s.areas.tail }

lemma sessionLeaveArea_eq (hall : Hall) (h : ℕ) : sessionLeaveArea hall h = hall.modify h Seat.left := by
  rw [sessionLeaveArea, leaveAreaWith]
  cases hareas : (hall.seats h).areas with
  | nil =>
    have hmain : (hall.seats h).area ≠ .conference := by
      rw [Seat.area, hareas]
      decide
    have hsame : (hall.seats h).left = hall.seats h := by
      rw [Seat.left, if_neg hmain, hareas, List.tail_nil, ← hareas]
    rw [modify_same hsame]
  | cons top rest =>
    have harea : (hall.seats h).area = top := by rw [Seat.area, hareas, List.headD_cons]
    dsimp only
    rw [areaLeaving_eq]
    split_ifs with htop
    · rw [modify_modify, Hall.modify, Hall.modify, Seat.left, harea, if_pos htop]
      rfl
    · rw [Hall.modify, Hall.modify, Seat.left, harea, if_neg htop]

/-- A session back in the main area. -/
def Seat.atMain (s : Seat) : Seat := { (if .conference ∈ s.areas then s.cleared else s) with areas := [] }

lemma foldl_leaving (h : ℕ) (areas : List Area) (hall : Hall) :
    areas.foldl (fun hall area => if area = .conference then areaLeaving hall h else hall) hall =
      if .conference ∈ areas then hall.modify h Seat.cleared else hall := by
  induction areas generalizing hall with
  | nil => rfl
  | cons area rest ih =>
    rw [List.foldl_cons, ih, areaLeaving_eq]
    by_cases harea : area = .conference
    · rw [if_pos harea, if_pos (List.mem_cons.mpr (.inl harea.symm)), modify_modify]
      split_ifs <;> rfl
    · rw [if_neg harea]
      have hrest : .conference ∈ area :: rest ↔ .conference ∈ rest := by
        rw [List.mem_cons, or_iff_right (Ne.symm harea)]
      exact if_congr hrest.symm rfl rfl

lemma sessionGoMain_eq (hall : Hall) (h : ℕ) : sessionGoMain hall h = hall.modify h Seat.atMain := by
  rw [sessionGoMain, foldl_leaving]
  split_ifs with hin
  · rw [modify_modify, Hall.modify, Hall.modify, Seat.atMain, if_pos hin]
    rfl
  · rw [Hall.modify, Hall.modify, Seat.atMain, if_neg hin]

end Seats

section Kept

variable {hall hall' : Hall} {h x : ℕ} {s s' : Seat}

/-- A session that is as much in a conference as before. -/
structure Seat.Stays (s s' : Seat) : Prop where
  partner : s'.partner = s.partner
  named : strIeq s'.username.text s.username.text = true
  loggedIn : s.loggedIn = true → s'.loggedIn = true
  inside : .conference ∈ s.areas → .conference ∈ s'.areas

lemma strIeq_self (name : Bytes) : strIeq name name = true := by simp [strIeq]

lemma Seat.Stays.refl (s : Seat) : s.Stays s := ⟨rfl, strIeq_self _, id, id⟩

lemma Seat.Faces.kept {r r' q q' : Seat} (hr : r.Stays r') (hq : q.Stays q') (h : r.Faces q) : r'.Faces q' := by
  obtain ⟨hlogged, hpartner, hpartner', hinside, hnamed, hnames⟩ := h
  refine ⟨hr.loggedIn hlogged, hr.partner ▸ hpartner, hq.partner ▸ hpartner', hr.inside hinside, ?_, ?_⟩
  · rw [hq.partner, strIeq_iff, (strIeq_iff _ _).mp hr.named]
    exact (strIeq_iff _ _).mp hnamed
  · rw [hr.partner, strIeq_iff, (strIeq_iff _ _).mp hq.named]
    exact (strIeq_iff _ _).mp hnames

lemma ConferenceSymmetric.kept (hsym : ConferenceSymmetric hall) (hatt : hall'.attached = hall.attached)
    (hstays : ∀ q, (hall.seats q).Stays (hall'.seats q)) : ConferenceSymmetric hall' := by
  intro q hq hpartner
  rw [hatt] at hq
  rw [(hstays q).partner] at hpartner
  obtain ⟨hinside, r, hr, hfaces⟩ := hsym q hq hpartner
  exact ⟨(hstays q).inside hinside, r, hatt ▸ hr, hfaces.kept (hstays r) (hstays q)⟩

lemma ConferenceSymmetric.modify (hsym : ConferenceSymmetric hall) (h : ℕ) {f : Seat → Seat}
    (hf : (hall.seats h).Stays (f (hall.seats h))) : ConferenceSymmetric (hall.modify h f) := by
  refine hsym.kept rfl fun q => ?_
  by_cases hq : q = h
  · rw [hq, modify_self]
    exact hf
  · rw [modify_other hall f hq]
    exact .refl _

/-- A session that comes or goes without a partner, and that nobody loses. -/
lemma ConferenceSymmetric.out (hsym : ConferenceSymmetric hall) (x : ℕ)
    (hatt : ∀ q, q ≠ x → (q ∈ hall'.attached ↔ q ∈ hall.attached))
    (hother : ∀ q, q ≠ x → (hall.seats q).Stays (hall'.seats q))
    (hx : x ∈ hall'.attached → (hall'.seats x).partner.text = []) (hfree : x ∈ hall.attached → FacesNobody hall x) :
    ConferenceSymmetric hall' := by
  intro q hq hpartner
  have hqx : q ≠ x := by
    rintro rfl
    exact hpartner (hx hq)
  rw [(hother q hqx).partner] at hpartner
  have hqold := (hatt q hqx).mp hq
  obtain ⟨hinside, r, hr, hfaces⟩ := hsym q hqold hpartner
  have hrx : r ≠ x := by
    rintro rfl
    exact hfree hr q hqold hqx hfaces
  exact ⟨(hother q hqx).inside hinside, r, (hatt r hrx).mpr hr, hfaces.kept (hother r hrx) (hother q hqx)⟩

/-- Two sessions that become partners, and that nobody else loses. -/
lemma ConferenceSymmetric.paired (hsym : ConferenceSymmetric hall) {i p : ℕ} (hatt : hall'.attached = hall.attached)
    (hi : i ∈ hall.attached) (hp : p ∈ hall.attached) (hother : ∀ q, q ≠ i → q ≠ p → hall'.seats q = hall.seats q)
    (hfaces : (hall'.seats i).Faces (hall'.seats p)) (hfaces' : (hall'.seats p).Faces (hall'.seats i))
    (hfree : ∀ q ∈ hall.attached, q ≠ i → q ≠ p →
      ¬(hall.seats i).Faces (hall.seats q) ∧ ¬(hall.seats p).Faces (hall.seats q)) : ConferenceSymmetric hall' := by
  intro q hq hpartner
  rw [hatt] at hq ⊢
  by_cases hqi : q = i
  · subst hqi
    exact ⟨hfaces.2.2.2.1, p, hp, hfaces'⟩
  · by_cases hqp : q = p
    · subst hqp
      exact ⟨hfaces'.2.2.2.1, i, hi, hfaces⟩
    · rw [hother q hqi hqp] at hpartner ⊢
      obtain ⟨hinside, r, hr, hrfaces⟩ := hsym q hq hpartner
      have hri : r ≠ i := by
        rintro rfl
        exact (hfree q hq hqi hqp).1 hrfaces
      have hrp : r ≠ p := by
        rintro rfl
        exact (hfree q hq hqi hqp).2 hrfaces
      exact ⟨hinside, r, hr, hother r hri hrp ▸ hrfaces⟩

/-- A session that leaves, and that nobody loses. -/
lemma ConferenceSymmetric.gone (hsym : ConferenceSymmetric hall) (h : ℕ) {f : Seat → Seat}
    (hf : (f (hall.seats h)).partner.text = []) (hfree : h ∈ hall.attached → FacesNobody hall h) :
    ConferenceSymmetric (hall.modify h f) :=
  hsym.out h (fun _ _ => Iff.rfl) (fun q hq => modify_other hall f hq ▸ .refl _) (fun _ => by rw [modify_self, hf]) hfree

end Kept

section Areas

lemma stays_areas {s : Seat} {areas : List Area} (h : .conference ∈ s.areas → .conference ∈ areas) :
    s.Stays { s with areas := areas } := ⟨rfl, strIeq_self _, id, h⟩

lemma stays_push (s : Seat) (area : Area) : s.Stays (sessionAreaPush s area).2 := by
  rw [sessionAreaPush]
  split_ifs
  · exact .refl s
  · exact .refl s
  · exact stays_areas (List.mem_cons_of_mem _)

lemma Seat.Stays.trans {a b c : Seat} (h : a.Stays b) (h' : b.Stays c) : a.Stays c := by
  refine ⟨h'.partner.trans h.partner, ?_, h'.loggedIn ∘ h.loggedIn, h'.inside ∘ h.inside⟩
  rw [strIeq_iff, (strIeq_iff _ _).mp h'.named, (strIeq_iff _ _).mp h.named]

lemma stays_enterArea (s : Seat) (area : Area) : s.Stays (enterArea s area) := by
  cases area with
  | main | conference => exact .refl s
  | chat | mail =>
    rw [enterArea]
    split_ifs
    · exact .refl s
    · exact stays_push s _
  | proxymail | proxychat =>
    rw [enterArea]
    split_ifs
    · exact (stays_push s _).trans (stays_push _ _)
    · exact .refl s
    · exact stays_push s _
    · exact .refl s

end Areas

section Steps

variable {hall : Hall} {h : ℕ}

lemma stays_invite (s : Seat) (invite : Option ConferenceInvite) : s.Stays { s with invite := invite } :=
  ⟨rfl, strIeq_self _, id, id⟩

lemma ConferenceSymmetric.started (hsym : ConferenceSymmetric hall) (h : ℕ) (topic : CText conferenceTopicMax)
    (found : Except HybbxResult UserRecord) (now : ℤ) :
    ConferenceSymmetric (conferenceStart hall h topic found now).2 := by
  unfold conferenceStart
  dsimp only
  split_ifs
  · exact hsym
  · exact hsym
  · exact hsym
  · exact hsym
  · split
    · exact hsym
    · exact hsym
    · split_ifs
      · exact hsym
      · split
        · exact hsym
        · split_ifs
          · exact hsym
          · refine (hsym.modify _ (stays_invite _ _)).modify h ?_
            exact ⟨rfl, strIeq_self _, id, id⟩

lemma mem_of_area {s : Seat} (h : s.area = .conference) : .conference ∈ s.areas := by
  rw [Seat.area] at h
  cases hareas : s.areas with
  | nil =>
    rw [hareas] at h
    cases h
  | cons top rest =>
    rw [hareas, List.headD_cons] at h
    exact h ▸ List.mem_cons_self

/-- A session that has joined a conference with a partner. -/
structure Seat.Joins (s : Seat) (other : CText userNameMax) (s' : Seat) : Prop where
  username : s'.username = s.username
  loggedIn : s'.loggedIn = s.loggedIn
  partner : s'.partner = other
  named : other.text ≠ []
  area : s'.area = .conference
  room : s.area = .conference ∨ s.depth < areaStackMax

/-- A join fails without a name, or without room for one more area. -/
lemma joinConference_cases (s : Seat) (topic : CText conferenceTopicMax) (partner : CText userNameMax) :
    (∃ s', joinConference s topic partner = (.ok, s') ∧ s.Joins partner s') ∨
      ∃ rc, rc ≠ .ok ∧ joinConference s topic partner = (rc, s) ∧
        (topic.text = [] ∨ partner.text = [] ∨ s.area ≠ .conference ∧ areaStackMax ≤ s.depth) := by
  rw [joinConference]
  by_cases hnames : topic.text = [] ∨ partner.text = []
  · rw [if_pos hnames]
    exact .inr ⟨.errInvalid, by decide, rfl, hnames.imp_right .inl⟩
  · rw [if_neg hnames]
    have hnamed := (not_or.mp hnames).2
    by_cases harea : s.area = .conference
    · rw [if_neg (not_not.mpr harea), if_pos rfl]
      exact .inl ⟨_, rfl, rfl, rfl, rfl, hnamed, harea, .inl harea⟩
    · rw [if_pos harea, sessionAreaPush]
      by_cases hdepth : areaStackMax ≤ s.depth
      · rw [if_pos hdepth]
        exact .inr ⟨.errBusy, by decide, rfl, .inr (.inr ⟨harea, hdepth⟩)⟩
      · rw [if_neg hdepth, if_neg harea]
        exact .inl ⟨_, rfl, rfl, rfl, rfl, hnamed, rfl, .inr (not_le.mp hdepth)⟩

lemma Seat.Joins.faces {s s' t t' : Seat} (h : s.Joins t.username s') (h' : t.Joins s.username t')
    (hlogged : s.loggedIn = true) : s'.Faces t' := by
  refine ⟨h.loggedIn.trans hlogged, h.partner ▸ h.named, h'.partner ▸ h'.named, mem_of_area h.area, ?_, ?_⟩
  · rw [h.username, h'.partner]
    exact strIeq_self _
  · rw [h.partner, h'.username]
    exact strIeq_self _

lemma conferenceFindOnlineUser_some {username : Bytes} {i : ℕ} (hi : conferenceFindOnlineUser hall username = some i) :
    i ∈ hall.attached ∧ (hall.seats i).loggedIn = true ∧ (hall.seats i).username.text ≠ [] := by
  rw [conferenceFindOnlineUser] at hi
  split_ifs at hi with hname
  have hprop := List.find?_some hi
  rw [Bool.and_eq_true, Bool.and_eq_true, strIeq_iff] at hprop
  refine ⟨List.mem_of_find?_eq_some hi, hprop.1.1, fun hnil => hname ?_⟩
  have hlower := hprop.2
  rw [hnil, List.map_nil] at hlower
  exact List.map_eq_nil_iff.mp hlower.symm

lemma ConferenceSymmetric.activated (hsym : ConferenceSymmetric hall) {i p : ℕ} {topic : CText conferenceTopicMax}
    (hi : i ∈ hall.attached) (hp : p ∈ hall.attached) (hilogged : (hall.seats i).loggedIn = true)
    (hplogged : (hall.seats p).loggedIn = true) (hiname : (hall.seats i).username.text ≠ []) (htopic : topic.text ≠ [])
    (hiarea : (hall.seats i).area ≠ .conference) (hparea : (hall.seats p).area ≠ .conference)
    (hnew : NewPair hall i p) :
    ConferenceSymmetric (conferenceActivate hall i p topic).2 := by
  rw [conferenceActivate]
  rcases joinConference_cases (hall.seats i) topic (hall.seats p).username with
    ⟨s, hjoin, hjoins⟩ | ⟨rc, hrc, hjoin, -⟩
  · rw [hjoin]
    dsimp only
    have hroom := hjoins.room.resolve_left hiarea
    have hfree := hnew hroom
    have hiseat : (hall.modify i fun _ => s).seats i = s := modify_self ..
    rw [hiseat, hjoins.username]
    by_cases hip : i = p
    · subst hip
      rw [hiseat]
      rcases joinConference_cases s topic (hall.seats i).username with ⟨t, hjoin', hjoins'⟩ | ⟨rc, hrc, hjoin', hwhy⟩
      · rw [hjoin']
        dsimp only
        rw [modify_modify]
        have hseat : (hall.modify i ((fun _ => t) ∘ fun _ => s)).seats i = t := modify_self ..
        have hfaces : t.Faces t := by
          have hnamed : t.partner.text ≠ [] := hjoins'.partner ▸ hiname
          refine ⟨?_, hnamed, hnamed, mem_of_area hjoins'.area, ?_, ?_⟩
          · rw [hjoins'.loggedIn, hjoins.loggedIn, hilogged]
          · rw [hjoins'.username, hjoins'.partner, hjoins.username]
            exact strIeq_self _
          · rw [hjoins'.username, hjoins'.partner, hjoins.username]
            exact strIeq_self _
        refine hsym.paired rfl hi hi (fun q hq _ => modify_other hall _ hq) ?_ ?_ fun q hq hqi _ => ?_
        · rw [hseat]
          exact hfaces
        · rw [hseat]
          exact hfaces
        · exact ⟨((hfree q hq hqi).1.resolve_left fun h => hqi h.1), (hfree q hq hqi).2 hqi hroom⟩
      · exact absurd hjoins.area (hwhy.resolve_left htopic |>.resolve_left hiname).1
    · have hpseat : (hall.modify i fun _ => s).seats p = hall.seats p := modify_other hall _ (Ne.symm hip)
      rw [hpseat]
      rcases joinConference_cases (hall.seats p) topic (hall.seats i).username with
        ⟨t, hjoin', hjoins'⟩ | ⟨rc, hrc, hjoin', hwhy⟩
      · rw [hjoin']
        dsimp only
        have hproom := hjoins'.room.resolve_left hparea
        have hi' : ((hall.modify i fun _ => s).modify p fun _ => t).seats i = s := by
          rw [modify_other _ _ hip, hiseat]
        have hp' : ((hall.modify i fun _ => s).modify p fun _ => t).seats p = t := modify_self ..
        refine hsym.paired rfl hi hp (fun q hqi hqp => ?_) ?_ ?_ fun q hq hqi hqp => ?_
        · rw [modify_other _ _ hqp, modify_other _ _ hqi]
        · rw [hi', hp']
          exact hjoins.faces hjoins' hilogged
        · rw [hi', hp']
          exact hjoins'.faces hjoins hplogged
        · exact ⟨(hfree q hq hqi).1.resolve_left fun h => hqp h.1, (hfree q hq hqi).2 hqp hproom⟩
      · have hfull := (hwhy.resolve_left htopic |>.resolve_left hiname).2
        rw [hjoin']
        have hout : ConferenceSymmetric (sessionLeaveArea (clearConference (hall.modify i fun _ => s) i) i) := by
          rw [sessionLeaveArea_eq, clearConference, modify_modify, modify_modify]
          refine hsym.gone i ?_ fun _ q hq hqi => (hfree q hq hqi).1.resolve_left fun h => ?_
          · simp only [Function.comp_apply, Seat.left]
            split_ifs <;> rfl
          · exact absurd hfull (not_le.mpr h.2)
        cases rc <;> first | exact absurd rfl hrc | exact hout
  · rw [hjoin]
    cases rc <;> first | exact absurd rfl hrc | exact hsym

lemma conferenceInviter_some {line : Bytes} {invite : ConferenceInvite} {i : ℕ}
    (hi : conferenceInviter hall h line invite = some i) :
    inviteReplyNo line = false ∧ (hall.seats h).area ≠ .conference ∧ (hall.seats i).area ≠ .conference ∧
      conferenceFindOnlineUser hall invite.fromUser.text = some i := by
  rw [conferenceInviter] at hi
  split_ifs at hi with hno harea
  obtain ⟨hfind, hiarea⟩ := Option.filter_eq_some_iff.mp hi
  exact ⟨by simpa using hno, harea, by simpa using hiarea, hfind⟩

lemma clearInvite_seat (hall : Hall) (h q : ℕ) :
    ∃ invite, (clearInvite hall h).seats q = { hall.seats q with invite := invite } := by
  by_cases hq : q = h
  · rw [hq, clearInvite, modify_self]
    exact ⟨none, rfl⟩
  · rw [clearInvite, modify_other hall _ hq]
    exact ⟨(hall.seats q).invite, rfl⟩

lemma clearInvite_stays (hall : Hall) (h q : ℕ) : (hall.seats q).Stays ((clearInvite hall h).seats q) := by
  obtain ⟨invite, hseat⟩ := clearInvite_seat hall h q
  rw [hseat]
  exact stays_invite _ invite

lemma clearInvite_faces {r q : ℕ} (hfaces : ((clearInvite hall h).seats r).Faces ((clearInvite hall h).seats q)) :
    (hall.seats r).Faces (hall.seats q) := by
  obtain ⟨invite, hr⟩ := clearInvite_seat hall h r
  obtain ⟨invite', hq⟩ := clearInvite_seat hall h q
  rw [hr, hq] at hfaces
  exact hfaces

lemma NewPair.clearInvite {i p : ℕ} (hnew : NewPair hall i p) : NewPair (clearInvite hall h) i p := by
  obtain ⟨invite, hi⟩ := clearInvite_seat hall h i
  obtain ⟨invite', hp⟩ := clearInvite_seat hall h p
  intro hdepth q hq hqi
  rw [hi] at hdepth
  rw [hp]
  obtain ⟨hfree, hfree'⟩ := hnew hdepth q hq hqi
  rw [← hp]
  refine ⟨hfree.imp (fun hroom => ⟨hroom.1, ?_⟩) fun hnot hfaces => hnot (clearInvite_faces hfaces),
    fun hqp hroom hfaces => hfree' hqp ?_ (clearInvite_faces hfaces)⟩
  · rw [hp]
    exact hroom.2
  · rw [hp] at hroom
    exact hroom

lemma ConferenceSymmetric.replied (hsym : ConferenceSymmetric hall) {line : Bytes} (hh : h ∈ hall.attached)
    (hlogged : (hall.seats h).loggedIn = true) (hleaves : LeavesNobody hall (.reply h line)) :
    ConferenceSymmetric (conferenceReplyInvite hall h line).2 := by
  have hclear : ConferenceSymmetric (clearInvite hall h) := hsym.kept rfl (clearInvite_stays hall h)
  rw [conferenceReplyInvite]
  cases hinvite : (hall.seats h).invite with
  | none => exact hsym
  | some invite =>
    dsimp only
    split_ifs with hreply hempty
    · exact hsym
    · exact hclear
    · cases hi : conferenceInviter hall h line invite with
      | none => exact hclear
      | some i =>
        obtain ⟨hno, harea, hiarea, hfind⟩ := conferenceInviter_some hi
        obtain ⟨hmem, hilogged, hiname⟩ := conferenceFindOnlineUser_some hfind
        have hyes : inviteReplyYes line = true := by
          by_contra hnot
          exact hreply ⟨by simpa using hnot, hno⟩
        have hnew : NewPair hall i h := hleaves hh hlogged hyes invite hinvite i hi
        obtain ⟨inviteI, hseatI⟩ := clearInvite_seat hall h i
        obtain ⟨inviteH, hseatH⟩ := clearInvite_seat hall h h
        refine hclear.activated hmem hh ?_ ?_ ?_ (not_or.mp hempty).2 ?_ ?_ hnew.clearInvite
        · exact hseatI ▸ hilogged
        · exact hseatH ▸ hlogged
        · exact hseatI ▸ hiname
        · exact hseatI ▸ hiarea
        · exact hseatH ▸ harea

lemma cancelInvites_stays (hall : Hall) (username : Bytes) (q : ℕ) :
    (hall.seats q).Stays ((conferenceCancelInvitesFrom hall username).seats q) := by
  rw [conferenceCancelInvitesFrom]
  dsimp only
  split_ifs
  · exact stays_invite _ none
  · exact .refl _

lemma sessionClosed_others (hall : Hall) (h : ℕ) : (conferenceSessionClosed hall h).attached = hall.attached ∧
    ∀ q, q ≠ h → (hall.seats q).Stays ((conferenceSessionClosed hall h).seats q) := by
  rw [conferenceSessionClosed, areaLeaving_eq]
  split_ifs
  · refine ⟨rfl, fun q hq => (clearInvite_stays hall h q).trans ?_⟩
    rw [← modify_other (clearInvite hall h) Seat.cleared hq]
    exact cancelInvites_stays _ _ q
  · exact ⟨rfl, fun q hq => (clearInvite_stays hall h q).trans (cancelInvites_stays _ _ q)⟩

lemma ConferenceSymmetric.closed (hsym : ConferenceSymmetric hall) (hfree : h ∈ hall.attached → FacesNobody hall h) :
    ConferenceSymmetric (sessionClose hall h) := by
  rw [sessionClose]
  split_ifs
  · obtain ⟨hatt, hothers⟩ := sessionClosed_others hall h
    refine hsym.out h (fun q hq => ?_) hothers (fun hmem => ?_) hfree
    · simp [hatt, hq]
    · simp at hmem
  · refine hsym.out h (fun q hq => ?_) (fun q _ => .refl _) (fun hmem => ?_) hfree
    · simp [hq]
    · simp at hmem

lemma ConferenceSymmetric.left (hsym : ConferenceSymmetric hall) (hh : h ∈ hall.attached)
    (hleaves : LeavesNobody hall (.leave h)) : ConferenceSymmetric (sessionLeaveArea hall h) := by
  rw [sessionLeaveArea_eq]
  by_cases harea : (hall.seats h).area = .conference
  · refine hsym.gone h ?_ fun _ => hleaves hh harea
    rw [Seat.left, if_pos harea]
    rfl
  · refine hsym.modify h ?_
    rw [Seat.left, if_neg harea]
    refine stays_areas fun hin => ?_
    rw [Seat.area] at harea
    cases hareas : (hall.seats h).areas with
    | nil =>
      rw [hareas] at hin
      cases hin
    | cons top rest =>
      rw [hareas] at hin harea
      exact (List.mem_cons.mp hin).resolve_left (Ne.symm harea)

lemma ConferenceSymmetric.wentMain (hsym : ConferenceSymmetric hall) (hh : h ∈ hall.attached)
    (hleaves : LeavesNobody hall (.goMain h)) : ConferenceSymmetric (sessionGoMain hall h) := by
  rw [sessionGoMain_eq]
  by_cases hin : .conference ∈ (hall.seats h).areas
  · refine hsym.gone h ?_ fun _ => hleaves hh hin
    rw [Seat.atMain, if_pos hin]
    rfl
  · refine hsym.modify h ?_
    rw [Seat.atMain, if_neg hin]
    exact stays_areas fun h => absurd h hin

lemma facesNobody_of_partner (hpartner : (hall.seats h).partner.text = []) : FacesNobody hall h :=
  fun _ _ _ hfaces => hfaces.2.1 hpartner

lemma ConferenceSymmetric.switched (hsym : ConferenceSymmetric hall) {user : UserRecord} (hh : h ∈ hall.attached)
    (hleaves : LeavesNobody hall (.login h user)) :
    ConferenceSymmetric (hall.modify h fun s => sessionSwitchUser s user) := by
  rcases hleaves hh with hguest | hname | hpartner
  · refine hsym.modify h ?_
    rw [sessionSwitchUser, if_pos hguest]
    exact .refl _
  · refine hsym.modify h ?_
    rw [sessionSwitchUser]
    split_ifs
    · exact .refl _
    · exact ⟨rfl, hname, fun _ => rfl, id⟩
  · refine hsym.gone h ?_ fun _ => facesNobody_of_partner hpartner
    rw [sessionSwitchUser]
    split_ifs <;> exact hpartner

lemma ConferenceSymmetric.step (hsym : ConferenceSymmetric hall) {ev : ConferenceEvent}
    (hleaves : LeavesNobody hall ev) :
    ConferenceSymmetric (hallStep hall ev).1 := by
  cases ev with
  | opened h guest =>
    rw [hallStep]
    split_ifs with hmem
    · exact hsym
    · refine hsym.out h (fun q hq => by simp [hq]) (fun q hq => ?_) (fun _ => ?_) fun h => absurd h hmem
      · dsimp only
        rw [Function.update_of_ne hq]
        exact .refl _
      · dsimp only
        rw [Function.update_self]
        rfl
  | start h topic found now =>
    rw [hallStep]
    split_ifs
    · exact hsym.started h topic found now
    · exact hsym
  | reply h line =>
    rw [hallStep]
    split_ifs with hmem
    · exact hsym.replied hmem.1 hmem.2 hleaves
    · exact hsym
  | leave h =>
    rw [hallStep]
    split_ifs with hmem
    · exact hsym.left hmem hleaves
    · exact hsym
  | goMain h =>
    rw [hallStep]
    split_ifs with hmem
    · exact hsym.wentMain hmem hleaves
    · exact hsym
  | enter h area =>
    rw [hallStep]
    split_ifs
    · exact hsym.modify h (stays_enterArea _ area)
    · exact hsym
  | login h user =>
    rw [hallStep]
    split_ifs with hmem
    · exact hsym.switched hmem hleaves
    · exact hsym
  | closed h =>
    rw [hallStep]
    split_ifs
    · exact hsym.closed hleaves
    · exact hsym

/-- The other side keeps its partner whenever somebody goes. -/
lemma departs_others {ev : ConferenceEvent} {x q : ℕ} (hdeparts : Departs hall ev x) (hq : q ≠ x) :
    ((hallStep hall ev).1.seats q).partner = (hall.seats q).partner := by
  cases ev with
  | opened | start | reply | enter => cases hdeparts
  | leave h =>
    obtain ⟨rfl, -⟩ := hdeparts
    rw [hallStep, sessionLeaveArea_eq]
    split_ifs
    · exact congrArg Seat.partner (modify_other hall _ hq)
    · rfl
  | goMain h =>
    obtain ⟨rfl, -⟩ := hdeparts
    rw [hallStep, sessionGoMain_eq]
    split_ifs
    · exact congrArg Seat.partner (modify_other hall _ hq)
    · rfl
  | login h user =>
    obtain ⟨rfl, -⟩ := hdeparts
    rw [hallStep]
    split_ifs
    · exact congrArg Seat.partner (modify_other hall (fun s => sessionSwitchUser s user) hq)
    · rfl
  | closed h =>
    obtain rfl := hdeparts
    rw [hallStep, sessionClose]
    split_ifs
    · exact ((sessionClosed_others hall x).2 q hq).partner
    · rfl
    · rfl

/-- Somebody who goes releases the other side exactly if there is none. -/
lemma partnerReleased_iff {ev : ConferenceEvent} : PartnerReleased hall ev ↔
    ∀ x ∈ hall.attached, Departs hall ev x → FacesNobody hall x := by
  constructor
  · intro hreleased x hx hdeparts q hq hqx hfaces
    have hcleared := (hreleased x hx hdeparts q hq hqx hfaces).1
    rw [departs_others hdeparts hqx] at hcleared
    exact hfaces.2.2.1 hcleared
  · intro hnobody x hx hdeparts q hq hqx hfaces
    exact absurd hfaces (hnobody x hx hdeparts q hq hqx)

lemma facesNobody_departs {ev : ConferenceEvent} {x : ℕ} (hleaves : LeavesNobody hall ev) (hx : x ∈ hall.attached)
    (hdeparts : Departs hall ev x) : FacesNobody hall x := by
  cases ev with
  | opened | start | reply | enter => cases hdeparts
  | leave h =>
    obtain ⟨rfl, harea⟩ := hdeparts
    exact hleaves hx harea
  | goMain h =>
    obtain ⟨rfl, hin⟩ := hdeparts
    exact hleaves hx hin
  | closed h =>
    obtain rfl := hdeparts
    exact hleaves hx
  | login h user =>
    obtain ⟨rfl, hlevel, hname⟩ := hdeparts
    rcases hleaves hx with hguest | hsame | hpartner
    · exact absurd hguest hlevel
    · rw [hsame] at hname
      cases hname
    · exact facesNobody_of_partner hpartner

end Steps

section Run

/-- After a step the conferences are symmetric, and whoever was left has been released. -/
def ConferencesKept (hall : Hall) (ev : ConferenceEvent) : Prop :=
  ConferenceSymmetric (hallStep hall ev).1 ∧ PartnerReleased hall ev

/-- Conferences stay symmetric in a run in which nobody goes away from a partner. -/
theorem conference_symmetric {evs : List ConferenceEvent}
    (hleaves : Transducer.Along hallStep LeavesNobody .start evs) :
    Transducer.Along hallStep ConferencesKept .start evs :=
  Transducer.along_kept hallStep
    (fun _ _ (hsym : ConferenceSymmetric _) hev =>
      ⟨hsym.step hev, hsym.step hev, partnerReleased_iff.mpr fun _ hx => facesNobody_departs hev hx⟩)
    (fun _ hq => absurd hq List.not_mem_nil) hleaves

end Run

section Example

instance (hall : Hall) : Decidable (ConferenceSymmetric hall) := by
  unfold ConferenceSymmetric
  infer_instance

def memberRecord (name : String) : UserRecord :=
  { UserRecord.zero with username := CText.copy (ofString name), active := true }

def annaMeetsBert : List ConferenceEvent :=
  [.opened 0 none, .login 0 (memberRecord "anna"), .opened 1 none, .login 1 (memberRecord "bert"), .enter 1 .mail,
    .start 0 (CText.copy (ofString "radio")) (.ok (memberRecord "bert")) 100, .reply 1 (ofString "yes"), .enter 0 .chat]

theorem conference_symmetric_annaMeetsBert : Transducer.Along hallStep ConferencesKept .start annaMeetsBert :=
  conference_symmetric (by decide +kernel)

/-- Anna goes back to the conference from the chat, and leaves it. -/
def annaLeaves : List ConferenceEvent := annaMeetsBert ++ [.leave 0]

theorem partner_stays_behind :
    ¬∀ evs : List ConferenceEvent, Transducer.Along hallStep ConferencesKept .start evs := by
  intro h
  have hleft := (Transducer.along_append hallStep (h (annaLeaves ++ [.leave 0]))).2
  have hbroken : ¬ConferenceSymmetric (hallStep (hallRun annaLeaves) (.leave 0)).1 := by decide +kernel
  exact hbroken hleft.1.1

end Example

end HyBBX.Command
