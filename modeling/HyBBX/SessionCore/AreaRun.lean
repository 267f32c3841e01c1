import HyBBX.SessionCore.AreaRules
import HyBBX.SessionCore.LineOps

/-! The areas of a session over whole runs, and how often a draft is delivered. -/

namespace HyBBX.SessionCore

open HyBBX.Core Lib Lib.Bytes Lib.Text Desk
open Command (Area areaStackMax)
open Session (Surroundings)
open Storage (UserRecord)

/-- What happens to the areas of a session: a call from the service, a line of its user, a login, and all that others do. -/
inductive AreaEvent (ω : Type*)
  | op (op : DeskOp)
  | line (text : Bytes)
  | login (user : UserRecord)
  | world (change : ω → ω)

section Run

variable {ω : Type*} (svc : ServiceCalls ω)

def areaStep (s : CoreSession ω) : AreaEvent ω → CoreSession ω
  | .op op => setDesk s (deskStep svc.config s.rest.desk op)
  | .line text => processLine svc s text
  | .login user => (switchUser svc s user).2
  | .world change => setWorld s (change s.rest.world)

def areaRun (s : CoreSession ω) (events : List (AreaEvent ω)) : CoreSession ω := events.foldl (areaStep svc) s

def eventOp (s : CoreSession ω) : AreaEvent ω → Option DeskOp
  | .op op => some op
  | .line text => lineOp svc s text
  | _ => none

def EventKeeps (s : CoreSession ω) (event : AreaEvent ω) : Prop :=
  ∀ op ∈ eventOp svc s event, OpKeeps svc.config s.rest.desk op

def EventEnds (s : CoreSession ω) (event : AreaEvent ω) : Prop :=
  ∀ op ∈ eventOp svc s event, DraftEnds svc.config s.rest.desk op

def Delivers (s : CoreSession ω) (event : AreaEvent ω) : Prop :=
  eventOp svc s event = some (.mailDone .ok) ∧ s.rest.desk.mail.composing = true

def Starts (s : CoreSession ω) (event : AreaEvent ω) : Prop :=
  ∃ toUser resolved subject, eventOp svc s event = some (.mailComposeStart toUser resolved subject)

/-- In every state of the run the areas are joint, every draft that is sent or given up ends there, and between two deliveries
there is a new draft. -/
structure AreasHold (s : CoreSession ω) (events : List (AreaEvent ω)) : Prop where
  joint : ∀ before, before <+: events → AreasJoint svc.config (areaRun svc s before).rest.desk
  ends : ∀ before event, before ++ [event] <+: events → EventEnds svc (areaRun svc s before) event
  once : ∀ before first between second, before ++ first :: between ++ [second] <+: events →
    Delivers svc (areaRun svc s before) first → Delivers svc (areaRun svc s (before ++ first :: between)) second →
      ∃ written start, written ++ [start] <+: between ∧ Starts svc (areaRun svc s (before ++ first :: written)) start

end Run

variable {ω : Type*} {svc : ServiceCalls ω} {s : CoreSession ω}

lemma areaStep_desk (event : AreaEvent ω) : (areaStep svc s event).rest.desk =
    deskAfter svc s (eventOp svc s event) := by
  cases event with
  | op op => rfl
  | line text => exact processLine_desk svc text
  | login user => exact switchUser_desk svc user
  | world change => rfl

lemma areaStep_iff (h : AreasJoint svc.config s.rest.desk) (event : AreaEvent ω) :
    AreasJoint svc.config (areaStep svc s event).rest.desk ∧ EventEnds svc s event ↔ EventKeeps svc s event := by
  rw [areaStep_desk, EventEnds, EventKeeps, deskAfter]
  cases eventOp svc s event with
  | none => exact iff_of_true ⟨h, fun op hop => by cases hop⟩ fun op hop => by cases hop
  | some op =>
    have hstep := deskStep_iff h op
    simpa only [Option.elim_some, Option.mem_some, forall_eq'] using hstep

lemma areaRun_concat (before : List (AreaEvent ω)) (event : AreaEvent ω) :
    areaRun svc s (before ++ [event]) = areaStep svc (areaRun svc s before) event := by
  rw [areaRun, List.foldl_append]
  rfl

lemma areaRun_joint {events : List (AreaEvent ω)} (h : AreasJoint svc.config s.rest.desk)
    (hkeeps : ∀ before event, before ++ [event] <+: events → EventKeeps svc (areaRun svc s before) event)
    (before : List (AreaEvent ω)) (hbefore : before <+: events) :
    AreasJoint svc.config (areaRun svc s before).rest.desk := by
  induction before using List.reverseRecOn with
  | nil => exact h
  | append_singleton before event ih =>
    rw [areaRun_concat]
    exact ((areaStep_iff (ih ((List.prefix_append _ _).trans hbefore)) event).mpr (hkeeps before event hbefore)).1

section Once

variable {cfg : DeskConfig}

lemma leaveArea_composing {d : Desk} (hc : d.leaveArea.mail.composing = true) : d.mail.composing = true := by
  rw [leaveArea] at hc
  split at hc
  · rename_i leaving next rest hd
    change (d.areaClearState leaving).mail.composing = true at hc
    rw [clear_mail] at hc
    split_ifs at hc
    · cases hc
    · exact hc
  · exact hc

lemma deskStep_composing {d : Desk} {op : DeskOp} (hc : (deskStep cfg d op).mail.composing = true) :
    d.mail.composing = true ∨ ∃ toUser resolved subject, op = .mailComposeStart toUser resolved subject := by
  cases op with
  | mailComposeStart toUser resolved subject => exact .inr ⟨toUser, resolved, subject, rfl⟩
  | enterArea area => exact .inl ((areaPush_drafts d area).1 ▸ hc)
  | leaveArea => exact .inl (leaveArea_composing hc)
  | goMain =>
    change (d.areaStack.dropLast.foldl areaClearState d).mail.composing = true at hc
    rw [clears_mail] at hc
    split_ifs at hc
    · cases hc
    · exact .inl hc
  | joinChatChannel index => exact .inl ((joinChatChannel_drafts cfg d index).1 ▸ hc)
  | enterProxymail => exact .inl ((enterProxymail_drafts d).1 ▸ hc)
  | enterProxychat => exact .inl ((enterProxychat_drafts d).1 ▸ hc)
  | mailComposeCancel => cases hc
  | mailDone rc =>
    rw [deskStep, Desk.mailDone] at hc
    split_ifs at hc
    · exact .inl (leaveArea_composing hc)
    · exact .inl hc
  | mailCancel =>
    rw [deskStep, Desk.mailCancel] at hc
    split_ifs at hc
    · exact .inl (leaveArea_composing hc)
    · exact .inl hc
  | proxymailComposeStart address subject =>
    have hmail : (d.proxymailComposeStart cfg address subject).2.mail = d.mail := by
      rw [proxymailComposeStart]
      split_ifs
      · rfl
      · rfl
      · exact (enterProxymail_drafts _).1
    exact .inl (hmail ▸ hc)
  | proxymailComposeCancel => exact .inl hc
  | proxymailDone rc =>
    rw [deskStep, Desk.proxymailDone] at hc
    split_ifs at hc
    · exact .inl (leaveArea_composing (d := d.proxymailComposeCancel) hc)
    · exact .inl hc
  | proxymailCancel =>
    rw [deskStep, Desk.proxymailCancel] at hc
    split_ifs at hc
    · exact .inl (leaveArea_composing (d := d.proxymailComposeCancel) hc)
    · exact .inl hc
  | mailLine line =>
    rw [deskStep] at hc
    split_ifs at hc
    · exact .inl (append_composing d.mail cfg.bodyMax line ▸ hc)
    · exact .inl hc
  | proxymailLine line =>
    rw [deskStep] at hc
    split_ifs at hc
    · exact .inl hc
    · exact .inl hc
  | joinConference topic partner => exact .inl ((joinConference_drafts d topic partner).1 ▸ hc)
  | clearConference => exact .inl hc
  | setInvite invite => exact .inl hc
  | answerInvite joining =>
    cases joining with
    | none => exact .inl hc
    | some conference =>
      have hmail := (joinConference_drafts { d with invite := none } conference.1 conference.2).1
      exact .inl (hmail ▸ hc)

end Once

lemma not_composing_run {between : List (AreaEvent ω)} (h : s.rest.desk.mail.composing = false)
    (hnone : ∀ written start, written ++ [start] <+: between → ¬Starts svc (areaRun svc s written) start) :
    (areaRun svc s between).rest.desk.mail.composing = false := by
  induction between using List.reverseRecOn with
  | nil => exact h
  | append_singleton between event ih =>
    have hbefore := ih fun written start hw => hnone written start (hw.trans (List.prefix_append _ _))
    rw [areaRun_concat]
    refine Bool.eq_false_iff.mpr fun hc => ?_
    rw [areaStep_desk, deskAfter] at hc
    cases hop : eventOp svc (areaRun svc s between) event with
    | none =>
      rw [hop] at hc
      exact absurd (hbefore.symm.trans hc) Bool.false_ne_true
    | some op =>
      rw [hop] at hc
      rcases deskStep_composing hc with hold | ⟨toUser, resolved, subject, rfl⟩
      · exact absurd (hbefore.symm.trans hold) Bool.false_ne_true
      · exact hnone between event List.prefix_rfl ⟨toUser, resolved, subject, hop⟩

/-- The areas hold together in a run exactly if each of its steps is one that keeps them: a draft is begun where its area has
room, sent or given up in its area, and no chat without a channel is entered or gone back to. -/
theorem areas_hold_iff (svc : ServiceCalls ω) (guest : Option (UserRecord × ℤ)) (around : Surroundings) (world : ω)
    (events : List (AreaEvent ω)) :
    AreasHold svc (openCore guest around world) events ↔
      ∀ before event, before ++ [event] <+: events →
          EventKeeps svc (areaRun svc (openCore guest around world) before) event := by
  have hopen : AreasJoint svc.config (openCore guest around world).rest.desk := opened_joint svc.config
  generalize openCore guest around world = s at hopen ⊢
  constructor
  · intro hold before event hevent
    have hafter := hold.joint (before ++ [event]) hevent
    rw [areaRun_concat] at hafter
    exact (areaStep_iff (hold.joint before ((List.prefix_append _ _).trans hevent)) event).mp ⟨hafter, hold.ends before event hevent⟩
  · intro hkeeps
    have hjoint := areaRun_joint hopen hkeeps
    have hends : ∀ before event, before ++ [event] <+: events → EventEnds svc (areaRun svc s before) event :=
      fun before event hevent =>
      ((areaStep_iff (hjoint before ((List.prefix_append _ _).trans hevent)) event).mpr (hkeeps before event hevent)).2
    refine ⟨hjoint, hends, fun before first between second hrun hfirst hsecond => ?_⟩
    by_contra hnone
    have hsplit : before ++ first :: between = (before ++ [first]) ++ between := by
      rw [List.append_assoc, List.singleton_append]
    have hprefix : before ++ [first] <+: events := by
      rw [hsplit, List.append_assoc] at hrun
      exact (List.prefix_append _ _).trans hrun
    have hended : (areaRun svc s (before ++ [first])).rest.desk.mail.composing = false := by
      rw [areaRun_concat, areaStep_desk, hfirst.1]
      exact hends before first hprefix _ hfirst.1
    have hrest : ∀ written, areaRun svc s (before ++ first :: written) =
        areaRun svc (areaRun svc s (before ++ [first])) written := by
      intro written
      rw [areaRun, areaRun, areaRun, ← List.foldl_append, List.append_assoc, List.singleton_append]
    have hlast := @not_composing_run ω svc _ between hended fun written start hw hstart =>
      hnone ⟨written, start, hw, hrest written ▸ hstart⟩
    have hcomposing := hsecond.2
    rw [hrest between, hlast] at hcomposing
    cases hcomposing

section Example

def bobTypes (lines : List String) : List (AreaEvent (List Bytes)) :=
  .login bob :: lines.map fun line => .line (ofString line)

/-- A draft that is sent from the chat stays and is sent again, and the way out of proxychat is a chat without a channel. -/
theorem draft_sent_twice :
    let sent := bobTypes ["/mail send amy hi", "/chat 1", "/mail done"]
    let left := bobTypes ["/proxychat", "/leave"]
    ¬AreasHold plainService newSession sent ∧
      Delivers plainService (areaRun plainService newSession sent) (.line (ofString "/mail done")) ∧
      ¬AreasHold plainService newSession left ∧
      (areaRun plainService newSession left).rest.desk.area = .chat ∧
      (areaRun plainService newSession left).rest.desk.chatChannel = 0 := by
  intro sent left
  refine ⟨fun hold => ?_, ⟨by decide +kernel, by decide +kernel⟩, fun hold => ?_, by decide +kernel, by decide +kernel⟩
  · have hends := hold.ends (bobTypes ["/mail send amy hi", "/chat 1"]) (.line (ofString "/mail done")) List.prefix_rfl
      (.mailDone .ok) (by decide +kernel)
    revert hends
    rw [DraftEnds]
    decide +kernel
  · have hjoined := ((hold.joint left List.prefix_rfl).channel (by decide +kernel)).1
    revert hjoined
    decide +kernel

end Example

end HyBBX.SessionCore
