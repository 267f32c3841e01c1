import HyBBX.Command.ConferenceSteps
import HyBBX.Lib.RateWindow

/-! The limit on the invites of a session to one user. -/

namespace HyBBX.Command

open HyBBX.Core HyBBX.Storage Lib Lib.Bytes Lib.Text Lib.RateWindow

section Slots

variable {rates : List InviteRate} {target other : Bytes} {now : ℤ}

def slotOf (rates : List InviteRate) (target : Bytes) : Option InviteRate := rates.find? fun r => strIeq r.target target

/-- The target has a slot, or there is one for it. -/
def HasRoom (rates : List InviteRate) (target : Bytes) : Prop :=
  ∃ r ∈ rates, strIeq r.target target = true ∨ r.target = []

instance (rates : List InviteRate) (target : Bytes) : Decidable (HasRoom rates target) :=
  inferInstanceAs (Decidable (∃ r ∈ rates, strIeq r.target target = true ∨ r.target = []))

lemma strIeq_trans {a b c : Bytes} (h : strIeq a b = true) : strIeq a c = strIeq b c := by
  rw [strIeq, strIeq, (strIeq_iff a b).mp h]

lemma strIeq_nil (a : Bytes) : strIeq [] a = true ↔ a = [] := by
  rw [strIeq_iff, List.map_nil, eq_comm, List.map_eq_nil_iff]

lemma find?_modify {α : Type} (p : α → Bool) (f : α → α) {k : ℕ} {l : List α} {a : α} (ha : l[k]? = some a)
    (hfirst : ∀ i < k, ∀ b ∈ l[i]?, p b = false) (hf : p (f a) = true) : (l.modify k f).find? p = some (f a) := by
  induction l generalizing k with
  | nil => cases ha
  | cons b l ih =>
    cases k with
    | zero =>
      obtain rfl : b = a := by simpa using ha
      rw [List.modify_zero_cons, List.find?_cons_of_pos hf]
    | succ k =>
      have hb : p b = false := hfirst 0 (Nat.succ_pos k) b rfl
      rw [List.modify_succ_cons, List.find?_cons_of_neg (by simp [hb])]
      exact ih ha fun i hi b hb => hfirst (i + 1) (Nat.succ_lt_succ hi) b hb

lemma modify_at {α : Type} (f : α → α) {k : ℕ} {l : List α} {a : α} (ha : l[k]? = some a) :
    l.modify k f = l.modify k fun _ => f a := by
  induction l generalizing k with
  | nil => cases ha
  | cons b l ih =>
    cases k with
    | zero =>
      obtain rfl : b = a := by simpa using ha
      rfl
    | succ k => exact congrArg (b :: ·) (ih ha)

lemma find?_modify_other {α : Type} (p : α → Bool) (f : α → α) (k : ℕ) {l : List α}
    (hf : ∀ a ∈ l[k]?, p a = false ∧ p (f a) = false) : (l.modify k f).find? p = l.find? p := by
  induction l generalizing k with
  | nil => rw [List.modify_nil]
  | cons b l ih =>
    cases k with
    | zero =>
      obtain ⟨hb, hfb⟩ := hf b rfl
      rw [List.modify_zero_cons, List.find?_cons_of_neg (by simp [hfb]), List.find?_cons_of_neg (by simp [hb])]
    | succ k =>
      rw [List.modify_succ_cons, List.find?_cons, List.find?_cons, ih k fun a ha => hf a ha]

/-- The slot that an invite goes to: the one of the target, or else one without a name. -/
lemma inviteSent_slot (htarget : target ≠ []) (hroom : HasRoom rates target) (now : ℤ) :
    ∃ k r, rates[k]? = some r ∧
      (slotOf rates target = some r ∧ strIeq r.target target = true ∨ slotOf rates target = none ∧ r.target = []) ∧
      conferenceInviteSent rates target now =
        rates.modify k (fun r => ⟨if r.target = [] then target else r.target, r.sentAt.tail ++ [now]⟩) ∧
      ∀ i < k, ∀ b ∈ rates[i]?, strIeq b.target target = false := by
  have hnone : ∀ r : InviteRate, r.target = [] → strIeq r.target target = false := by
    intro r hr
    rw [hr, Bool.eq_false_iff]
    exact fun h => htarget ((strIeq_nil target).mp h)
  cases hk : rates.findIdx? fun r => strIeq r.target target with
  | some k =>
    obtain ⟨hlen, hmatch, hfirst⟩ := List.findIdx?_eq_some_iff_getElem.mp hk
    have hget : rates[k]? = some rates[k] := List.getElem?_eq_getElem hlen
    have hbefore : ∀ i < k, ∀ b ∈ rates[i]?, strIeq b.target target = false := by
      intro i hi b hb
      obtain ⟨hi', rfl⟩ := List.getElem?_eq_some_iff.mp hb
      simpa using hfirst i hi
    refine ⟨k, rates[k], hget, .inl ⟨?_, hmatch⟩, ?_, hbefore⟩
    · rw [slotOf, List.find?_eq_some_iff_getElem]
      exact ⟨hmatch, k, hlen, rfl, fun i hi => by simpa using hbefore i hi _ (List.getElem?_eq_getElem (hi.trans hlen))⟩
    · rw [conferenceInviteSent, hk]
  | none =>
    have hno : slotOf rates target = none := by
      rw [slotOf, List.find?_eq_none]
      intro r hr
      have := List.findIdx?_eq_none_iff.mp hk r hr
      simpa using this
    obtain ⟨r, hr, hmatch | hfree⟩ := hroom
    · have := List.findIdx?_eq_none_iff.mp hk r hr
      rw [this] at hmatch
      cases hmatch
    cases he : rates.findIdx? fun r => decide (r.target = []) with
    | none =>
      have := List.findIdx?_eq_none_iff.mp he r hr
      simp [hfree] at this
    | some e =>
      obtain ⟨hlen, hempty, -⟩ := List.findIdx?_eq_some_iff_getElem.mp he
      have hempty : rates[e].target = [] := by simpa using hempty
      refine ⟨e, rates[e], List.getElem?_eq_getElem hlen, .inr ⟨hno, hempty⟩, ?_, ?_⟩
      · rw [conferenceInviteSent, hk]
        dsimp only
        rw [he]
        rfl
      · intro i hi b hb
        have := List.findIdx?_eq_none_iff.mp hk b (List.mem_of_getElem? hb)
        exact this

/-- The times of the invites to a target, as they are kept. -/
def sentTimes (rates : List InviteRate) (target : Bytes) : List ℤ :=
  ((slotOf rates target).map InviteRate.sentAt).getD (List.replicate conferenceInviteMaxPerTarget 0)

def FreeClean (rates : List InviteRate) : Prop :=
  ∀ r ∈ rates, r.target = [] → r.sentAt = List.replicate conferenceInviteMaxPerTarget 0

lemma conferenceMayInvite_eq (rates : List InviteRate) (target : Bytes) (now : ℤ) :
    conferenceMayInvite rates target now = true ↔
    ((sentTimes rates target).countP fun sent => sent ≠ 0 ∧ now - sent < conferenceInviteWindowSec) < conferenceInviteMaxPerTarget := by
  rw [conferenceMayInvite, sentTimes, slotOf]
  cases rates.find? fun r => strIeq r.target target with
  | none =>
    refine iff_of_true rfl ?_
    rw [Option.map_none, Option.getD_none, List.countP_eq_zero.mpr]
    · decide
    · intro t ht
      simp [(List.mem_replicate.mp ht).2]
  | some r =>
    rw [Option.map_some, Option.getD_some]
    exact decide_eq_true_iff

/-- What becomes of the slot of an invite. -/
lemma inviteSent_noted (hclean : FreeClean rates) (htarget : target ≠ []) (hroom : HasRoom rates target) (now : ℤ) :
    ∃ k r r', rates[k]? = some r ∧ conferenceInviteSent rates target now = rates.modify k (fun _ => r') ∧
      (r.target = [] ∨ strIeq r.target target = true) ∧ strIeq r'.target target = true ∧
      r'.sentAt = (sentTimes rates target).tail ++ [now] ∧ ∀ i < k, ∀ b ∈ rates[i]?,
          strIeq b.target target = false := by
  obtain ⟨k, r, hget, hslot, hsent, hfirst⟩ := inviteSent_slot htarget hroom now
  refine ⟨k, r, ⟨if r.target = [] then target else r.target, r.sentAt.tail ++ [now]⟩, hget, ?_, ?_, ?_, ?_, hfirst⟩
  · rw [hsent, modify_at _ hget]
  · exact hslot.elim (fun h => .inr h.2) fun h => .inl h.2
  · rcases hslot with ⟨-, hmatch⟩ | ⟨-, hfree⟩
    · have hnamed : r.target ≠ [] := by
        intro h
        rw [h] at hmatch
        exact htarget ((strIeq_nil target).mp hmatch)
      rw [if_neg hnamed]
      exact hmatch
    · rw [if_pos hfree]
      exact strIeq_self target
  · rcases hslot with ⟨hslot, -⟩ | ⟨hslot, hfree⟩
    · rw [sentTimes, hslot]
      rfl
    · rw [sentTimes, hslot, hclean r (List.mem_of_getElem? hget) hfree]
      rfl

/-- An invite is noted for its target, and for no other one. -/
lemma sentTimes_sent (hclean : FreeClean rates) (htarget : target ≠ []) (hother : other ≠ [])
    (hroom : HasRoom rates target) (now : ℤ) :
    sentTimes (conferenceInviteSent rates target now) other =
      if strIeq target other then (sentTimes rates target).tail ++ [now] else sentTimes rates other := by
  obtain ⟨k, r, r', hget, hsent, hr, hr', htimes, hfirst⟩ := inviteSent_noted hclean htarget hroom now
  rw [hsent, sentTimes, slotOf]
  by_cases hsame : strIeq target other = true
  · have hlike : ∀ b : Bytes, strIeq b other = strIeq b target := by
      intro b
      rw [strIeq_comm b other, strIeq_comm b target, strIeq_trans hsame]
    rw [if_pos hsame, find?_modify (fun r : InviteRate => strIeq r.target other) (fun _ => r') hget]
    · exact htimes
    · intro i hi b hb
      rw [hlike]
      exact hfirst i hi b hb
    · rw [hlike]
      exact hr'
  · rw [if_neg hsame, find?_modify_other]
    · rfl
    · intro a ha
      rw [hget] at ha
      cases ha
      have hno : strIeq target other = false := by simpa using hsame
      refine ⟨?_, by rw [strIeq_trans hr', hno]⟩
      rcases hr with hfree | hmatch
      · rw [hfree, Bool.eq_false_iff]
        exact fun h => hother ((strIeq_nil other).mp h)
      · rw [strIeq_trans hmatch, hno]

lemma freeClean_sent (hclean : FreeClean rates) (htarget : target ≠ []) (hroom : HasRoom rates target) (now : ℤ) :
    FreeClean (conferenceInviteSent rates target now) := by
  obtain ⟨k, r, r', hget, hsent, -, hr', -⟩ := inviteSent_noted hclean htarget hroom now
  intro a ha hfree
  rw [hsent] at ha
  obtain ⟨i, hi⟩ := List.mem_iff_getElem?.mp ha
  rw [List.getElem?_modify] at hi
  split_ifs at hi with hk
  · subst hk
    rw [hget] at hi
    cases hi
    rw [hfree] at hr'
    exact absurd ((strIeq_nil target).mp hr') htarget
  · simp only [id_eq, Option.map_eq_map, Option.map_id_fun'] at hi
    exact hclean a (List.mem_of_getElem? hi) hfree

end Slots

section Run

/-- The conferences with the time of the last request, and the invites of one session since it was opened. -/
structure InviteRun where
  hall : Hall
  clock : ℤ
  sent : List (Bytes × ℤ)

def InviteRun.begin (clock : ℤ) : InviteRun := ⟨.start, clock, []⟩

def eventClock (clock : ℤ) : ConferenceEvent → ℤ
  | .start _ _ _ now => now
  | _ => clock

/-- What a request of a session comes to, `other` if the session may not make any. -/
def requestOutcome (hall : Hall) (h : ℕ) : ConferenceEvent → InviteOutcome
  | .start q topic found now =>
    if q = h ∧ h ∈ hall.attached ∧ (hall.seats h).loggedIn then inviteOutcome hall h topic found now else .other
  | _ => .other

def sentAfter (sent : List (Bytes × ℤ)) (now : ℤ) : InviteOutcome → List (Bytes × ℤ)
  | .sent target => sent ++ [(target, now)]
  | _ => sent

def invitesAfter (h : ℕ) (st : InviteRun) : ConferenceEvent → List (Bytes × ℤ)
  | .opened q _ => if q = h ∧ h ∉ st.hall.attached then [] else st.sent
  | ev => sentAfter st.sent (eventClock st.clock ev) (requestOutcome st.hall h ev)

def inviteStep (h : ℕ) (st : InviteRun) (ev : ConferenceEvent) : InviteRun × List Empty :=
  (⟨(hallStep st.hall ev).1, eventClock st.clock ev, invitesAfter h st ev⟩, [])

def timesTo (target : Bytes) (sent : List (Bytes × ℤ)) : List ℤ := (sent.filter fun e => strIeq e.1 target).map Prod.snd

/-- No target is invited too often, and none is refused for the limit that has not been. -/
def InvitesLimited (h : ℕ) (st : InviteRun) (ev : ConferenceEvent) : Prop :=
  (∀ target, Limited conferenceInviteMaxPerTarget conferenceInviteWindowSec (timesTo target (inviteStep h st ev).1.sent)) ∧
    ∀ target, requestOutcome st.hall h ev = .limited target →
      conferenceInviteMaxPerTarget ≤ (timesTo target st.sent).countP (within conferenceInviteWindowSec (eventClock st.clock ev))

def ClockAhead (st : InviteRun) (ev : ConferenceEvent) : Prop := st.clock ≤ eventClock st.clock ev

/-- The user that is asked for has a name, and a slot if nothing but the limit can stop the invite. -/
def RoomForTarget (h : ℕ) (st : InviteRun) : ConferenceEvent → Prop
  | .start q topic found _ => q = h → ∀ user ∈ found.toOption, user.username.text ≠ [] ∧
      ∀ p ∈ conferenceFindOnlineUser st.hall user.username.text, Invites st.hall h topic user p →
        HasRoom (st.hall.seats h).rates user.username.text
  | _ => True

instance (st : InviteRun) (ev : ConferenceEvent) : Decidable (ClockAhead st ev) := Int.decLe _ _

instance (h : ℕ) (st : InviteRun) (ev : ConferenceEvent) : Decidable (RoomForTarget h st ev) := by
  unfold RoomForTarget
  split <;> infer_instance

structure InviteRun.Noted (h : ℕ) (st : InviteRun) : Prop where
  clean : FreeClean (st.hall.seats h).rates
  times : ∀ target ≠ [], sentTimes (st.hall.seats h).rates target =
    lastTimes conferenceInviteMaxPerTarget (timesTo target st.sent)
  sorted : st.sent.Pairwise fun e e' => e.2 ≤ e'.2
  past : ∀ e ∈ st.sent, 0 < e.2 ∧ e.2 ≤ st.clock
  clock : 0 < st.clock
  limited : ∀ target, Limited conferenceInviteMaxPerTarget conferenceInviteWindowSec (timesTo target st.sent)

variable {h : ℕ} {st : InviteRun}

lemma InviteRun.Noted.room_iff (hst : st.Noted h) {target : Bytes} (htarget : target ≠ []) (now : ℤ) :
    mayInvite (st.hall.seats h).rates target now = true ↔
      (timesTo target st.sent).countP (within conferenceInviteWindowSec now) < conferenceInviteMaxPerTarget := by
  rw [mayInvite, if_neg htarget, conferenceMayInvite_eq, hst.times target htarget]
  apply count_last_lt_iff
  · exact List.pairwise_map.mpr (hst.sorted.filter _)
  · intro t ht
    obtain ⟨e, he, rfl⟩ := List.mem_map.mp ht
    exact ((hst.past e (List.mem_of_mem_filter he)).1).ne'

/-- A step that leaves the invites of the session alone. -/
lemma InviteRun.Noted.frame (hst : st.Noted h) {st' : InviteRun}
    (hrates : (st'.hall.seats h).rates = (st.hall.seats h).rates)
    (hsent : st'.sent = st.sent) (hclock : st.clock ≤ st'.clock) : st'.Noted h := by
  refine ⟨hrates ▸ hst.clean, ?_, hsent ▸ hst.sorted, ?_, hst.clock.trans_le hclock, hsent ▸ hst.limited⟩
  · rw [hrates, hsent]
    exact hst.times
  · rw [hsent]
    exact fun e he => ⟨(hst.past e he).1, (hst.past e he).2.trans hclock⟩

lemma InviteRun.noted_opened {clock : ℤ} {hall : Hall} (hclock : 0 < clock) (guest : Option (CText userNameMax))
    (hseat : hall.seats h = .opened guest) : InviteRun.Noted h ⟨hall, clock, []⟩ := by
  have hrates : (hall.seats h).rates =
      List.replicate conferenceInviteRates ⟨[], List.replicate conferenceInviteMaxPerTarget 0⟩ := by
    rw [hseat]
    rfl
  refine ⟨?_, fun target htarget => ?_, .nil, nofun, hclock, fun _ => limited_nil _ _⟩
  · rw [hrates]
    intro r hr _
    rw [(List.mem_replicate.mp hr).2]
  · have hnone : slotOf (hall.seats h).rates target = none := by
      rw [slotOf, hrates, List.find?_eq_none]
      intro r hr hname
      rw [(List.mem_replicate.mp hr).2, strIeq_nil] at hname
      exact htarget hname
    rw [sentTimes, hnone]
    exact (lastTimes_nil _).symm

lemma timesTo_concat (sent : List (Bytes × ℤ)) (target other : Bytes) (now : ℤ) :
    timesTo other (sent ++ [(target, now)]) =
    if strIeq target other then timesTo target sent ++ [now] else timesTo other sent := by
  rw [timesTo, List.filter_append, List.map_append]
  split_ifs with hsame
  · have hlike : (fun e : Bytes × ℤ => strIeq e.1 other) = fun e => strIeq e.1 target := by
      funext e
      rw [strIeq_comm, ← strIeq_trans hsame, strIeq_comm]
    rw [List.filter_singleton, hsame, hlike]
    rfl
  · rw [List.filter_singleton, Bool.eq_false_iff.mpr hsame, Bool.cond_false, List.map_nil, List.append_nil]
    rfl

/-- An invite that is sent is noted. -/
lemma InviteRun.Noted.sent (hst : st.Noted h) {hall : Hall} {target : Bytes} {now : ℤ} (htarget : target ≠ [])
    (hroom : HasRoom (st.hall.seats h).rates target) (hmay : mayInvite (st.hall.seats h).rates target now = true)
    (hclock : st.clock ≤ now)
    (hrates : (hall.seats h).rates = conferenceInviteSent (st.hall.seats h).rates target now) :
    InviteRun.Noted h ⟨hall, now, st.sent ++ [(target, now)]⟩ := by
  refine ⟨?_, fun other hother => ?_, ?_, ?_, hst.clock.trans_le hclock, fun other => ?_⟩
  · rw [hrates]
    exact freeClean_sent hst.clean htarget hroom now
  · rw [hrates, sentTimes_sent hst.clean htarget hother hroom, timesTo_concat, hst.times target htarget,
      hst.times other hother]
    split_ifs
    · exact (lastTimes_concat (by decide) _ _).symm
    · rfl
  · rw [List.pairwise_append]
    refine ⟨hst.sorted, List.pairwise_singleton _ _, fun e he e' he' => ?_⟩
    rw [List.mem_singleton.mp he']
    exact (hst.past e he).2.trans hclock
  · intro e he
    rcases List.mem_append.mp he with hold | hnew
    · exact ⟨(hst.past e hold).1, (hst.past e hold).2.trans hclock⟩
    · rw [List.mem_singleton.mp hnew]
      exact ⟨hst.clock.trans_le hclock, le_rfl⟩
  · rw [timesTo_concat]
    split_ifs
    · exact (hst.limited target).concat ((hst.room_iff htarget now).mp hmay)
    · exact hst.limited other

lemma requestOutcome_limited {ev : ConferenceEvent} {target : Bytes}
    (hlimited : requestOutcome st.hall h ev = .limited target)
    (hroom : RoomForTarget h st ev) : target ≠ [] ∧
    mayInvite (st.hall.seats h).rates target (eventClock st.clock ev) = false := by
  cases ev with
  | start q topic found now =>
    rw [requestOutcome] at hlimited
    split_ifs at hlimited with hgo
    unfold inviteOutcome at hlimited
    dsimp only at hlimited
    split_ifs at hlimited
    cases found with
    | error => cases hlimited
    | ok user =>
      dsimp only at hlimited
      split_ifs at hlimited with haccount hmay
      · cases hlimited
        exact ⟨(hroom hgo.1 user rfl).1, hmay⟩
      · cases hfind : conferenceFindOnlineUser st.hall user.username.text with
        | none =>
          rw [hfind] at hlimited
          cases hlimited
        | some p =>
          rw [hfind] at hlimited
          dsimp only at hlimited
          split_ifs at hlimited
  | _ => cases hlimited

/-- The steps that are no request of the session keep the table, but for those that open it. -/
lemma rates_step (hall : Hall) {ev : ConferenceEvent} (hrequest : ∀ topic found now, ev ≠ .start h topic found now)
    (hopened : ∀ guest, ev = .opened h guest → h ∈ hall.attached) :
    ((hallStep hall ev).1.seats h).rates = (hall.seats h).rates := by
  cases ev with
  | opened q guest =>
    rw [hallStep]
    split_ifs with hmem
    · rfl
    · have hq : h ≠ q := by
        rintro rfl
        exact hmem (hopened guest rfl)
      exact congrArg Seat.rates (Function.update_of_ne hq ..)
  | start q topic found now =>
    have hq : h ≠ q := by
      rintro rfl
      exact hrequest topic found now rfl
    rw [hallStep]
    split_ifs
    · rcases conferenceStart_cases hall q topic found now with ⟨-, hstays⟩ | ⟨user, p, -, -, -, -, hinvited⟩
      · rw [hstays]
      · rw [hinvited, invited_seat, if_neg hq]
    · rfl
  | reply q line =>
    rw [hallStep]
    split_ifs
    · exact ((keeps_reply hall q line).seats h).rates
    · rfl
  | leave q =>
    rw [hallStep]
    split_ifs
    · exact ((keeps_leaveArea hall q).seats h).rates
    · rfl
  | goMain q =>
    rw [hallStep]
    split_ifs
    · exact ((keeps_goMain hall q).seats h).rates
    · rfl
  | enter q area =>
    rw [hallStep]
    split_ifs
    · exact ((Hall.Keeps.modify hall q (f := fun s => enterArea s area) (keeps_enterArea _ area)).seats h).rates
    · rfl
  | login q user =>
    rw [hallStep]
    split_ifs
    · by_cases hq : h = q
      · rw [hq, modify_self, sessionSwitchUser]
        split_ifs <;> rfl
      · rw [modify_other _ _ hq]
    · rfl
  | closed q =>
    rw [hallStep]
    split_ifs
    · exact (keeps_close hall q h).rates
    · rfl

lemma InviteRun.Noted.step (hst : st.Noted h) {ev : ConferenceEvent} (hclock : ClockAhead st ev)
    (hroom : RoomForTarget h st ev) :
    (inviteStep h st ev).1.Noted h := by
  cases ev with
  | opened q guest =>
    rw [inviteStep, invitesAfter]
    split_ifs with hnew
    · obtain ⟨rfl, hmem⟩ := hnew
      refine InviteRun.noted_opened hst.clock guest ?_
      rw [hallStep, if_neg hmem]
      exact Function.update_self ..
    · refine hst.frame (rates_step _ (fun _ _ _ hev => by cases hev) fun guest' hev => ?_) rfl hclock
      cases hev
      by_contra hmem
      exact hnew ⟨rfl, hmem⟩
  | start q topic found now =>
    by_cases hq : q = h ∧ h ∈ st.hall.attached ∧ (st.hall.seats h).loggedIn
    · obtain ⟨rfl, hmem⟩ := hq
      have hafter : (inviteStep q st (.start q topic found now)).1 =
        ⟨(conferenceStart st.hall q topic found now).2, now,
          sentAfter st.sent now (inviteOutcome st.hall q topic found now)⟩ := by
        have hgo : requestOutcome st.hall q (.start q topic found now) = inviteOutcome st.hall q topic found now :=
          if_pos ⟨rfl, hmem⟩
        have hhall : (hallStep st.hall (.start q topic found now)).1 =
            (conferenceStart st.hall q topic found now).2 := by
          rw [hallStep, if_pos hmem]
        rw [← hgo, ← hhall]
        rfl
      rw [hafter]
      rcases conferenceStart_cases st.hall q topic found now with ⟨hnone, hstays⟩ | ⟨user, p, rfl, hinvites, hmay, hsent, hinvited⟩
      · cases hout : inviteOutcome st.hall q topic found now with
        | sent target => exact absurd hout (hnone target)
        | other | limited => exact hst.frame (by rw [hstays]) rfl hclock
      · obtain ⟨hnamed, hslot⟩ := hroom rfl user rfl
        rw [hsent, hinvited]
        exact hst.sent hnamed (hslot p hinvites.online hinvites) hmay hclock (by rw [invited_seat, if_pos rfl])
    · have hgo : requestOutcome st.hall h (.start q topic found now) = .other := if_neg hq
      have hsent : (inviteStep h st (.start q topic found now)).1.sent = sentAfter st.sent now .other := by
        rw [← hgo]
        rfl
      refine hst.frame ?_ hsent hclock
      by_cases hqh : q = h
      · subst hqh
        have hstays : (hallStep st.hall (.start q topic found now)).1 = st.hall := by
          rw [hallStep, if_neg fun hmem => hq ⟨rfl, hmem⟩]
        exact congrArg (fun hall : Hall => (hall.seats q).rates) hstays
      · refine rates_step _ (fun _ _ _ hev => ?_) fun _ hev => by cases hev
        cases hev
        exact hqh rfl
  | _ => exact hst.frame (rates_step _ (fun _ _ _ hev => by cases hev) fun _ hev => by cases hev) rfl hclock

lemma InviteRun.Noted.within_limit (hst : st.Noted h) {ev : ConferenceEvent} (hclock : ClockAhead st ev)
    (hroom : RoomForTarget h st ev) :
    InvitesLimited h st ev := by
  refine ⟨(hst.step hclock hroom).limited, fun target hlimited => ?_⟩
  obtain ⟨hnamed, hmay⟩ := requestOutcome_limited hlimited hroom
  rw [← not_lt, ← hst.room_iff hnamed, hmay]
  exact Bool.false_ne_true

/-- The limit on invites is kept, and hits only those who have had so many, in a run in which every target has a slot. -/
theorem invite_limit {h : ℕ} {clock : ℤ} (hclock : 0 < clock) {evs : List ConferenceEvent}
    (htimes : Transducer.Along (inviteStep h) ClockAhead (.begin clock) evs)
    (hroom : Transducer.Along (inviteStep h) (RoomForTarget h) (.begin clock) evs) :
    Transducer.Along (inviteStep h) (InvitesLimited h) (.begin clock) evs := by
  have hbegin : (InviteRun.begin clock).Noted h := InviteRun.noted_opened hclock none rfl
  refine Transducer.along_kept (inviteStep h) (fun st ev (hst : st.Noted h) hev => ?_) hbegin (Transducer.along_and _ htimes hroom)
  exact ⟨hst.step hev.1 hev.2, hst.within_limit hev.1 hev.2⟩

end Run

section Example

def annaInvites (name : String) (now : ℤ) : ConferenceEvent :=
  .start 0 (CText.copy (ofString "radio")) (.ok (memberRecord name)) now

/-- Bert says no to Anna twice, does not hear of her third request, and says no to the one half an hour after the first. -/
def annaInvitesBert : List ConferenceEvent :=
  [.opened 0 none, .login 0 (memberRecord "anna"), .opened 1 none, .login 1 (memberRecord "bert"),
    annaInvites "bert" 100, .reply 1 (ofString "no"), annaInvites "bert" 200, .reply 1 (ofString "no"),
    annaInvites "bert" 300, annaInvites "bert" 1900, .reply 1 (ofString "no")]

theorem invite_limit_annaInvitesBert :
    Transducer.Along (inviteStep 0) (InvitesLimited 0) (.begin 1) annaInvitesBert :=
  invite_limit (by decide) (by decide +kernel) (by decide +kernel)

def nineMembers : List String := ["bert", "carl", "dora", "emil", "fritz", "gerd", "hans", "inga", "jens"]

/-- Anna invites everybody once, and Bert says no. -/
def annaInvitesAll : List ConferenceEvent :=
  .opened 0 none :: .login 0 (memberRecord "anna") ::
    (nineMembers.zipIdx 1).flatMap (fun m => [.opened m.2 none, .login m.2 (memberRecord m.1)]) ++
    nineMembers.map (fun name => annaInvites name 100) ++ [.reply 1 (ofString "no")]

theorem ninth_target_counts_for_first : ¬∀ (h : ℕ) (clock : ℤ) (evs : List ConferenceEvent), 0 < clock →
    Transducer.Along (inviteStep h) ClockAhead (.begin clock) evs →
    Transducer.Along (inviteStep h) (InvitesLimited h) (.begin clock) evs := by
  intro h
  have hlimited := h 0 1 (annaInvitesAll ++ [annaInvites "bert" 200]) (by decide) (by decide +kernel)
  have hlast := (Transducer.along_append (inviteStep 0) hlimited).2.1.2
  exact absurd (hlast (ofString "bert") (by decide +kernel)) (by decide +kernel)

end Example

end HyBBX.Command
