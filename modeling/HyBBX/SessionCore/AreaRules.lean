import HyBBX.SessionCore.Areas

/-! What holds of the areas of a session, and which of their operations keep it. -/

namespace HyBBX.SessionCore

open HyBBX.Core Lib Lib.Bytes Lib.Text Desk
open Command (Area areaStackMax)
open Mains (proxymailAddressMax proxymailParseAddress)

section Rules

variable (cfg : DeskConfig) (d : Desk)

def ChannelJoined : Prop := 1 ≤ d.chatChannel ∧ d.chatChannel ≤ cfg.channelCount

/-- A chat that leaving the current area goes back to has a channel left. -/
def ReturnKeeps : Prop := ∀ leaving rest, d.areaStack = leaving :: .chat :: rest → leaving ≠ .chat ∧ ChannelJoined cfg d

structure AreasJoint : Prop where
  current : d.areaStack.head? = some d.area
  bounded : d.areaStack.length ≤ areaStackMax
  bottom : d.areaStack.getLast? = some .main
  mail : d.mail.composing = true → .mail ∈ d.areaStack
  proxymail : d.proxymail.composing = true → .proxymail ∈ d.areaStack
  channel : d.area = .chat → ChannelJoined cfg d

/-- The operations that need more than the areas being joint: room for the area of a new draft, a channel for a chat that
comes to the top, and the mail area on top when a draft is done with. -/
def OpKeeps : DeskOp → Prop
  | .enterArea area => area = .chat → areaStackMax ≤ d.areaStack.length ∨ ChannelJoined cfg d
  | .leaveArea => ReturnKeeps cfg d
  | .enterProxychat => d.area ∈ [.chat, .proxychat] ∨ d.areaStack.length + 1 ≠ areaStackMax ∨ ChannelJoined cfg d
  | .mailComposeStart _ _ subject =>
    cfg.subjectMax < subject.length ∨ .mail ∈ d.areaStack ∨ d.areaStack.length < areaStackMax
  | .proxymailComposeStart address subject =>
    proxymailParseAddress address = none ∨ cfg.subjectMax < subject.length ∨ .proxymail ∈ d.areaStack ∨
      d.areaStack.length + (if d.area = .mail then 1 else 2) ≤ areaStackMax
  | .mailDone rc => d.mail.composing = true ∧ rc = .ok → d.area = .mail ∧ ReturnKeeps cfg d
  | .mailCancel => d.mail.composing = true → d.area = .mail ∧ ReturnKeeps cfg d
  | .proxymailDone rc => d.proxymail.composing = true ∧ (rc = .ok ∨ rc = .errUnsupported) → ReturnKeeps cfg d
  | .proxymailCancel => d.proxymail.composing = true → ReturnKeeps cfg d
  | _ => True

/-- A draft that was sent or given up is none any more. -/
def DraftEnds (op : DeskOp) : Prop :=
  match op with
  | .mailDone .ok => (deskStep cfg d op).mail.composing = false
  | .mailCancel => (deskStep cfg d op).mail.composing = false
  | _ => True

end Rules

variable {cfg : DeskConfig} {d : Desk}

lemma opened_joint (cfg : DeskConfig) : AreasJoint cfg .opened where
  current := rfl
  bounded := by decide
  bottom := rfl
  mail h := absurd h (by decide)
  proxymail h := absurd h (by decide)
  channel h := absurd h (by decide)

def SameDrafts (d d' : Desk) : Prop := d'.mail = d.mail ∧ d'.proxymail = d.proxymail

section Places

lemma areaPush_drafts (d : Desk) (area : Area) : SameDrafts d (d.areaPush area).2 := by
  rw [areaPush]
  split_ifs <;> exact ⟨rfl, rfl⟩

lemma pushUnless_drafts (d : Desk) (inside : List Area) (area : Area) : SameDrafts d (d.pushUnless inside area).2 := by
  rw [pushUnless]
  split_ifs
  · exact ⟨rfl, rfl⟩
  · exact areaPush_drafts d area

lemma pushed_drafts {r : HybbxResult × Desk} {next : Desk → HybbxResult × Desk} (hnext : ∀ d, SameDrafts d (next d).2) :
    SameDrafts d r.2 → SameDrafts d (match r with
      | (.ok, d) => next d
      | r => r).2 := by
  obtain ⟨rc, pushed⟩ := r
  intro h
  cases rc with
  | ok => exact ⟨(hnext pushed).1.trans h.1, (hnext pushed).2.trans h.2⟩
  | _ => exact h

lemma enterProxymail_drafts (d : Desk) : SameDrafts d d.enterProxymail.2 :=
  pushed_drafts (fun d => areaPush_drafts d _) (pushUnless_drafts d _ _)

lemma enterProxychat_drafts (d : Desk) : SameDrafts d d.enterProxychat.2 :=
  pushed_drafts (fun d => areaPush_drafts d _) (pushUnless_drafts d _ _)

lemma joinChatChannel_drafts (cfg : DeskConfig) (d : Desk) (index : ℕ) :
    SameDrafts d (d.joinChatChannel cfg index).2 := by
  rw [joinChatChannel]
  split_ifs
  · exact ⟨rfl, rfl⟩
  · exact ⟨rfl, rfl⟩
  · exact pushed_drafts (fun _ => ⟨rfl, rfl⟩) (pushUnless_drafts d _ _)

lemma joinConference_drafts (d : Desk) (topic : CText Command.conferenceTopicMax)
    (partner : CText Storage.userNameMax) :
    SameDrafts d (d.joinConference topic partner).2 := by
  rw [joinConference]
  split_ifs
  · exact ⟨rfl, rfl⟩
  · exact pushed_drafts (fun _ => ⟨rfl, rfl⟩) (pushUnless_drafts d _ _)

end Places

def Desk.entered (d : Desk) (area : Area) : Desk := { d with areaStack := area :: d.areaStack, area := area }

section Push

lemma push_eq (h : d.areaStack.head? = some d.area) (area : Area) :
    d.areaPush area = if areaStackMax ≤ d.areaStack.length then (.errBusy, d)
      else (.ok, if d.area = area then d else d.entered area) := by
  rw [areaPush, h]
  split_ifs with hfull hsame harea harea
  · rfl
  · obtain rfl := harea
    rfl
  · exact absurd (Option.some_inj.mp hsame) harea
  · exact absurd (congrArg some harea) hsame
  · rfl

lemma entered_bottom (hbottom : d.areaStack.getLast? = some .main) (area : Area) :
    (d.entered area).areaStack.getLast? = some .main := by
  rw [Desk.entered]
  dsimp only
  cases hd : d.areaStack with
  | nil =>
    rw [hd] at hbottom
    cases hbottom
  | cons a rest => rwa [List.getLast?_cons_cons, ← hd]

lemma entered_joint (hroom : d.areaStack.length < areaStackMax) (hbottom : d.areaStack.getLast? = some .main)
    {area : Area}
    (hmail : d.mail.composing = true → .mail ∈ area :: d.areaStack)
    (hproxymail : d.proxymail.composing = true → .proxymail ∈ area :: d.areaStack)
    (hchannel : area = .chat → ChannelJoined cfg d) : AreasJoint cfg (d.entered area) where
  current := rfl
  bounded := hroom
  bottom := entered_bottom hbottom area
  mail := hmail
  proxymail := hproxymail
  channel := hchannel

variable (h : AreasJoint cfg d)

include h

lemma AreasJoint.enter {area : Area} (hroom : d.areaStack.length < areaStackMax)
    (hchannel : area = .chat → ChannelJoined cfg d) :
    AreasJoint cfg (d.entered area) :=
  entered_joint hroom h.bottom (fun hc => List.mem_cons_of_mem _ (h.mail hc)) (fun hc => List.mem_cons_of_mem _ (h.proxymail hc))
    hchannel

lemma AreasJoint.area_mem : d.area ∈ d.areaStack := List.mem_of_mem_head? (Option.mem_def.mpr h.current)

lemma AreasJoint.push {area : Area}
    (hchannel : area = .chat → areaStackMax ≤ d.areaStack.length ∨ ChannelJoined cfg d) :
    AreasJoint cfg (d.areaPush area).2 := by
  rw [push_eq h.current]
  split_ifs with hfull harea
  · exact h
  · exact h
  · exact h.enter (not_le.mp hfull) fun hchat => (hchannel hchat).resolve_left hfull

lemma AreasJoint.pushUnless {inside : List Area} {area : Area}
    (hchannel : area = .chat → areaStackMax ≤ d.areaStack.length ∨ ChannelJoined cfg d) :
    AreasJoint cfg (d.pushUnless inside area).2 := by
  rw [Desk.pushUnless]
  split_ifs
  · exact h
  · exact h.push hchannel

lemma enterArea_iff (area : Area) : AreasJoint cfg (deskStep cfg d (.enterArea area)) ↔
    OpKeeps cfg d (.enterArea area) := by
  refine ⟨fun hafter hchat => ?_, h.push⟩
  rw [deskStep, push_eq h.current] at hafter
  split_ifs at hafter with hfull harea
  · exact .inl hfull
  · exact .inr (h.channel (harea.trans hchat))
  · exact .inr (hafter.channel hchat)

end Push

section Clear

lemma clear_mail (d : Desk) (area : Area) : (d.areaClearState area).mail = if area = .mail then .empty else d.mail := by
  cases area <;> rfl

lemma clear_proxymail (d : Desk) (area : Area) :
    (d.areaClearState area).proxymail = if area = .proxymail then .empty else d.proxymail := by
  cases area <;> rfl

lemma clear_channel (d : Desk) (area : Area) :
    (d.areaClearState area).chatChannel = if area = .chat then 0 else d.chatChannel := by
  cases area <;> rfl

lemma clears_mail (areas : List Area) (d : Desk) :
    (areas.foldl areaClearState d).mail = if .mail ∈ areas then .empty else d.mail := by
  induction areas generalizing d with
  | nil => rfl
  | cons area areas ih =>
    rw [List.foldl_cons, ih, clear_mail]
    by_cases hrest : .mail ∈ areas
    · rw [if_pos hrest, if_pos (List.mem_cons_of_mem _ hrest)]
    · rw [if_neg hrest]
      simp [hrest, eq_comm]

lemma clears_proxymail (areas : List Area) (d : Desk) :
    (areas.foldl areaClearState d).proxymail = if .proxymail ∈ areas then .empty else d.proxymail := by
  induction areas generalizing d with
  | nil => rfl
  | cons area areas ih =>
    rw [List.foldl_cons, ih, clear_proxymail]
    by_cases hrest : .proxymail ∈ areas
    · rw [if_pos hrest, if_pos (List.mem_cons_of_mem _ hrest)]
    · rw [if_neg hrest]
      simp [hrest, eq_comm]

/-- What is above the main area is not lost when the bottom of the stack is dropped. -/
lemma mem_above {areas : List Area} (hbottom : areas.getLast? = some .main) {area : Area} (harea : area ≠ .main)
    (hmem : area ∈ areas) : area ∈ areas.dropLast := by
  have hsplit := List.dropLast_append_getLast? Area.main hbottom
  rw [← hsplit] at hmem
  rcases List.mem_append.mp hmem with hin | hin
  · exact hin
  · exact absurd (List.mem_singleton.mp hin) harea

end Clear

section Leave

variable (h : AreasJoint cfg d)

include h

lemma goMain_joint : AreasJoint cfg d.goMain where
  current := rfl
  bounded := by
    change 1 ≤ areaStackMax
    decide
  bottom := rfl
  mail hc := by
    change (d.areaStack.dropLast.foldl areaClearState d).mail.composing = true at hc
    rw [clears_mail] at hc
    split_ifs at hc with hin
    · cases hc
    · exact absurd (mem_above h.bottom (by decide) (h.mail hc)) hin
  proxymail hc := by
    change (d.areaStack.dropLast.foldl areaClearState d).proxymail.composing = true at hc
    rw [clears_proxymail] at hc
    split_ifs at hc with hin
    · cases hc
    · exact absurd (mem_above h.bottom (by decide) (h.proxymail hc)) hin
  channel hmain := absurd hmain (by
    change ¬Area.main = .chat
    decide)

lemma leaveArea_iff : AreasJoint cfg d.leaveArea ↔ ReturnKeeps cfg d := by
  rw [leaveArea]
  have hbottom := h.bottom
  have hbounded := h.bounded
  have hmail := h.mail
  have hproxymail := h.proxymail
  rw [ReturnKeeps]
  match hd : d.areaStack with
  | [] => exact iff_of_true h (by simp)
  | [area] => exact iff_of_true h (by simp)
  | leaving :: next :: rest =>
    rw [hd] at hbottom hbounded hmail hproxymail
    have hchannel := clear_channel d leaving
    constructor
    · intro hafter leaving' rest' hsame
      obtain ⟨rfl, rfl, rfl⟩ : leaving = leaving' ∧ next = .chat ∧ rest = rest' := by simpa using hsame
      obtain ⟨hlow, hhigh⟩ : 1 ≤ (d.areaClearState leaving).chatChannel ∧
        (d.areaClearState leaving).chatChannel ≤ cfg.channelCount := hafter.channel rfl
      rw [hchannel] at hlow hhigh
      by_cases hchat : leaving = .chat
      · rw [if_pos hchat] at hlow
        exact absurd hlow (by decide)
      · rw [if_neg hchat] at hlow hhigh
        exact ⟨hchat, hlow, hhigh⟩
    · intro hkeeps
      refine ⟨rfl, (Nat.le_succ _).trans hbounded, ?_, fun hc => ?_, fun hc => ?_, fun hchat => ?_⟩
      · rwa [List.getLast?_cons_cons] at hbottom
      · change (d.areaClearState leaving).mail.composing = true at hc
        rw [clear_mail] at hc
        split_ifs at hc with hleaving
        · cases hc
        · exact (List.mem_cons.mp (hmail hc)).resolve_left (Ne.symm hleaving)
      · change (d.areaClearState leaving).proxymail.composing = true at hc
        rw [clear_proxymail] at hc
        split_ifs at hc with hleaving
        · cases hc
        · exact (List.mem_cons.mp (hproxymail hc)).resolve_left (Ne.symm hleaving)
      · obtain rfl : next = .chat := hchat
        obtain ⟨hleaving, hjoined⟩ := hkeeps leaving rest rfl
        change 1 ≤ (d.areaClearState leaving).chatChannel ∧ (d.areaClearState leaving).chatChannel ≤ cfg.channelCount
        rw [hchannel, if_neg hleaving]
        exact hjoined

end Leave

section Enter

/-- A push that is not needed, or one that finds room. -/
lemma pushUnless_eq (h : d.areaStack.head? = some d.area) (inside : List Area) (area : Area) :
    d.pushUnless inside area = if d.area ∈ inside then (.ok, d)
      else if areaStackMax ≤ d.areaStack.length then (.errBusy, d)
      else (.ok, if d.area = area then d else d.entered area) := by
  rw [Desk.pushUnless, push_eq h]

variable (h : AreasJoint cfg d)

include h

lemma joinChatChannel_joint (index : ℕ) : AreasJoint cfg (d.joinChatChannel cfg index).2 := by
  rw [joinChatChannel]
  by_cases h0 : index = 0
  · rw [if_pos h0]
    exact h
  rw [if_neg h0]
  by_cases hcount : cfg.channelCount < index
  · rw [if_pos hcount]
    exact h
  rw [if_neg hcount, pushUnless_eq h.current]
  have hjoined : 1 ≤ index ∧ index ≤ cfg.channelCount := ⟨Nat.one_le_iff_ne_zero.mpr h0, not_lt.mp hcount⟩
  by_cases hchat : d.area ∈ [.chat]
  · rw [if_pos hchat]
    exact ⟨h.current, h.bounded, h.bottom, h.mail, h.proxymail, fun _ => hjoined⟩
  rw [if_neg hchat]
  by_cases hfull : areaStackMax ≤ d.areaStack.length
  · rw [if_pos hfull]
    exact h
  · rw [if_neg hfull, if_neg fun hc => hchat (List.mem_singleton.mpr hc)]
    exact @entered_joint cfg { d with chatChannel := index, chatMaxNoticeShown := true } (not_le.mp hfull) h.bottom .chat
      (fun hc => List.mem_cons_of_mem _ (h.mail hc))
        (fun hc => List.mem_cons_of_mem _ (h.proxymail hc)) fun _ => hjoined

lemma enterProxymail_joint : AreasJoint cfg d.enterProxymail.2 := by
  have hpushed : AreasJoint cfg (d.pushUnless [.mail, .proxymail] .mail).2 := h.pushUnless fun hc => by cases hc
  rw [Desk.enterProxymail]
  generalize d.pushUnless [.mail, .proxymail] .mail = r at hpushed ⊢
  obtain ⟨rc, d'⟩ := r
  cases rc with
  | ok => exact AreasJoint.push hpushed fun hc => by cases hc
  | _ => exact hpushed

/-- Without room for both areas the session is left in a chat. -/
lemma enterProxychat_iff : AreasJoint cfg d.enterProxychat.2 ↔ OpKeeps cfg d .enterProxychat := by
  rw [Desk.enterProxychat, OpKeeps, pushUnless_eq h.current]
  by_cases hinside : d.area ∈ [.chat, .proxychat]
  · rw [if_pos hinside]
    exact iff_of_true (h.push fun hc => by cases hc) (.inl hinside)
  rw [if_neg hinside]
  by_cases hfull : areaStackMax ≤ d.areaStack.length
  · rw [if_pos hfull]
    exact iff_of_true h (.inr (.inl (by omega)))
  have hchat : d.area ≠ .chat := fun hc => hinside (hc ▸ List.mem_cons_self)
  rw [if_neg hfull, if_neg hchat]
  dsimp only
  rw [push_eq rfl]
  by_cases hlast : areaStackMax ≤ (d.entered .chat).areaStack.length
  · rw [if_pos hlast]
    have hnext : d.areaStack.length + 1 = areaStackMax := by
      rw [Desk.entered, List.length_cons] at hlast
      omega
    constructor
    · intro hafter
      exact .inr (.inr (hafter.channel rfl))
    · intro hkeeps
      exact h.enter (not_le.mp hfull) fun _ => (hkeeps.resolve_left hinside).resolve_left fun hne => hne hnext
  · rw [if_neg hlast]
    have hroom : d.areaStack.length + 1 < areaStackMax := not_le.mp hlast
    refine iff_of_true ?_ (.inr (.inl hroom.ne))
    refine @entered_joint cfg (d.entered .chat) hroom (entered_bottom h.bottom .chat) .proxychat (fun hc => ?_) (fun hc => ?_)
      fun hc => by cases hc
    · exact List.mem_cons_of_mem _ (List.mem_cons_of_mem _ (h.mail hc))
    · exact List.mem_cons_of_mem _ (List.mem_cons_of_mem _ (h.proxymail hc))

lemma joinConference_joint (topic : CText Command.conferenceTopicMax) (partner : CText Storage.userNameMax) :
    AreasJoint cfg (d.joinConference topic partner).2 := by
  rw [joinConference]
  split_ifs
  · exact h
  · have hpushed : AreasJoint cfg (d.pushUnless [.conference] .conference).2 := h.pushUnless fun hc => by cases hc
    generalize d.pushUnless [.conference] .conference = r at hpushed ⊢
    obtain ⟨rc, d'⟩ := r
    cases rc with
    | ok => exact ⟨hpushed.current, hpushed.bounded, hpushed.bottom, hpushed.mail, hpushed.proxymail, hpushed.channel⟩
    | _ => exact hpushed

end Enter

section Drafts

variable (h : AreasJoint cfg d)

include h

/-- The areas are joint with another draft of mail if it has its area, and likewise for proxymail. -/
lemma AreasJoint.withMail {draft : Draft Storage.userNameMax} (hmail : draft.composing = true → .mail ∈ d.areaStack) :
    AreasJoint cfg { d with mail := draft } := ⟨h.current, h.bounded, h.bottom, hmail, h.proxymail, h.channel⟩

lemma AreasJoint.withInvite (invite : Option Command.ConferenceInvite) : AreasJoint cfg { d with invite := invite } :=
  ⟨h.current, h.bounded, h.bottom, h.mail, h.proxymail, h.channel⟩

lemma AreasJoint.withProxymail {draft : Draft proxymailAddressMax}
    (hproxymail : draft.composing = true → .proxymail ∈ d.areaStack) :
    AreasJoint cfg { d with proxymail := draft } := ⟨h.current, h.bounded, h.bottom, h.mail, hproxymail, h.channel⟩

omit h in
lemma pushUnless_withMail (d : Desk) (draft : Draft Storage.userNameMax) (inside : List Area) (area : Area) :
    (Desk.pushUnless { d with mail := draft } inside area).2 = { (d.pushUnless inside area).2 with mail := draft } := by
  rw [Desk.pushUnless, Desk.pushUnless, areaPush, areaPush]
  split_ifs <;> rfl

omit h in
lemma areaPush_withProxymail (d : Desk) (draft : Draft proxymailAddressMax) (area : Area) :
    Desk.areaPush { d with proxymail := draft } area = ((d.areaPush area).1,
      { (d.areaPush area).2 with proxymail := draft }) := by
  rw [areaPush, areaPush]
  split_ifs <;> rfl

omit h in
lemma enterProxymail_withProxymail (d : Desk) (draft : Draft proxymailAddressMax) :
    (Desk.enterProxymail { d with proxymail := draft }).2 = { d.enterProxymail.2 with proxymail := draft } := by
  rw [Desk.enterProxymail, Desk.enterProxymail, Desk.pushUnless, Desk.pushUnless]
  by_cases hinside : d.area ∈ [.mail, .proxymail]
  · rw [if_pos hinside, if_pos hinside]
    dsimp only
    rw [areaPush_withProxymail]
  · rw [if_neg hinside, if_neg hinside, areaPush_withProxymail]
    generalize d.areaPush .mail = r
    obtain ⟨rc, d'⟩ := r
    cases rc with
    | ok =>
      dsimp only
      rw [areaPush_withProxymail]
    | _ => rfl

lemma mailComposeStart_iff (toUser : Bytes) (resolved : Option (CText Storage.userNameMax)) (subject : Bytes) :
    AreasJoint cfg (d.mailComposeStart cfg toUser resolved subject).2 ↔
      OpKeeps cfg d (.mailComposeStart toUser resolved subject) := by
  rw [mailComposeStart, OpKeeps]
  by_cases hlong : cfg.subjectMax < subject.length
  · rw [if_pos hlong]
    exact iff_of_true h (.inl hlong)
  rw [if_neg hlong, pushUnless_withMail, or_iff_right hlong]
  have hpushed : AreasJoint cfg (d.pushUnless [.mail] .mail).2 := h.pushUnless fun hc => by cases hc
  have hmem : .mail ∈ (d.pushUnless [.mail] .mail).2.areaStack ↔ .mail ∈ d.areaStack ∨
      d.areaStack.length < areaStackMax := by
    rw [pushUnless_eq h.current]
    split_ifs with hinside hfull harea
    · exact (or_iff_left_of_imp fun _ => List.mem_singleton.mp hinside ▸ h.area_mem).symm
    · exact (or_iff_left (not_lt.mpr hfull)).symm
    · exact absurd (List.mem_singleton.mpr harea) hinside
    · exact iff_of_true List.mem_cons_self (.inr (not_le.mp hfull))
  exact ⟨fun hafter => hmem.mp (hafter.mail rfl), fun hkeeps => hpushed.withMail fun _ => hmem.mpr hkeeps⟩

lemma proxymailComposeStart_iff (address subject : Bytes) :
    AreasJoint cfg (d.proxymailComposeStart cfg address subject).2 ↔
      OpKeeps cfg d (.proxymailComposeStart address subject) := by
  rw [proxymailComposeStart, OpKeeps]
  by_cases hparse : proxymailParseAddress address = none
  · rw [if_pos hparse]
    exact iff_of_true h (.inl hparse)
  by_cases hlong : cfg.subjectMax < subject.length
  · rw [if_neg hparse, if_pos hlong]
    exact iff_of_true h (.inr (.inl hlong))
  rw [if_neg hparse, if_neg hlong, enterProxymail_withProxymail, or_iff_right hparse, or_iff_right hlong]
  have hentered := enterProxymail_joint h
  have hmem : .proxymail ∈ d.enterProxymail.2.areaStack ↔
      .proxymail ∈ d.areaStack ∨ d.areaStack.length + (if d.area = .mail then 1 else 2) ≤ areaStackMax := by
    rw [Desk.enterProxymail, pushUnless_eq h.current]
    by_cases hproxymail : d.area = .proxymail
    · have hin : .proxymail ∈ d.areaStack := hproxymail ▸ h.area_mem
      rw [if_pos (by simp [hproxymail])]
      dsimp only
      rw [push_eq h.current, if_pos hproxymail]
      split_ifs <;> exact iff_of_true hin (.inl hin)
    by_cases hmail : d.area = .mail
    · rw [if_pos (by simp [hmail]), if_pos hmail]
      dsimp only
      rw [push_eq h.current, if_neg hproxymail]
      split_ifs with hfull
      · exact (or_iff_left (by omega)).symm
      · exact iff_of_true List.mem_cons_self (.inr (not_le.mp hfull))
    rw [if_neg (by simp [hmail, hproxymail]), if_neg hmail, if_neg hmail]
    by_cases hfull : areaStackMax ≤ d.areaStack.length
    · rw [if_pos hfull]
      exact (or_iff_left (by omega)).symm
    · rw [if_neg hfull]
      dsimp only
      rw [push_eq rfl]
      have hlen : (d.entered .mail).areaStack.length = d.areaStack.length + 1 := rfl
      split_ifs with hlast harea
      · have hless : ¬d.areaStack.length + 2 ≤ areaStackMax := by omega
        rw [or_iff_left hless]
        exact ⟨fun hin => (List.mem_cons.mp hin).resolve_left (by decide), List.mem_cons_of_mem _⟩
      · cases harea
      · exact iff_of_true List.mem_cons_self (.inr (by omega))
  exact ⟨fun hafter => hmem.mp (hafter.proxymail rfl), fun hkeeps => hentered.withProxymail fun _ => hmem.mpr hkeeps⟩

lemma leave_ends_iff (hc : d.mail.composing = true) : d.leaveArea.mail.composing = false ↔ d.area = .mail := by
  have hmem := h.mail hc
  have hbottom := h.bottom
  have hcurrent := h.current
  rw [leaveArea]
  match hd : d.areaStack with
  | [] =>
    rw [hd] at hbottom
    cases hbottom
  | [area] =>
    rw [hd] at hmem hbottom
    obtain rfl := Option.some_inj.mp hbottom
    cases List.mem_singleton.mp hmem
  | leaving :: next :: rest =>
    rw [hd] at hcurrent
    obtain rfl := Option.some_inj.mp hcurrent
    change (d.areaClearState d.area).mail.composing = false ↔ _
    rw [clear_mail]
    split_ifs with hmail
    · exact iff_of_true rfl hmail
    · rw [hc]
      exact iff_of_false Bool.noConfusion hmail

lemma mailDone_iff (rc : HybbxResult) :
    AreasJoint cfg (d.mailDone rc) ∧ DraftEnds cfg d (.mailDone rc) ↔ OpKeeps cfg d (.mailDone rc) := by
  rw [OpKeeps, mailDone]
  by_cases hsent : d.mail.composing = true ∧ rc = .ok
  · obtain ⟨hc, rfl⟩ := hsent
    have hends : DraftEnds cfg d (.mailDone .ok) ↔ d.leaveArea.mail.composing = false := by
      rw [DraftEnds, deskStep, mailDone, if_pos ⟨hc, rfl⟩]
    rw [if_pos ⟨hc, rfl⟩, leaveArea_iff h, hends, leave_ends_iff h hc]
    exact ⟨fun ⟨hkeeps, hmail⟩ _ => ⟨hmail, hkeeps⟩, fun hkeeps => (hkeeps ⟨hc, rfl⟩).symm⟩
  · rw [if_neg hsent]
    refine iff_of_true ⟨h, ?_⟩ fun hc => absurd hc hsent
    cases rc with
    | ok =>
      rw [DraftEnds, deskStep, mailDone, if_neg hsent]
      exact Bool.eq_false_iff.mpr fun hc => hsent ⟨hc, rfl⟩
    | _ => trivial

lemma mailCancel_iff : AreasJoint cfg d.mailCancel ∧ DraftEnds cfg d .mailCancel ↔ OpKeeps cfg d .mailCancel := by
  rw [OpKeeps, DraftEnds, deskStep, mailCancel]
  by_cases hc : d.mail.composing = true
  · rw [if_pos hc, leaveArea_iff h, leave_ends_iff h hc]
    exact ⟨fun ⟨hkeeps, hmail⟩ _ => ⟨hmail, hkeeps⟩, fun hkeeps => (hkeeps hc).symm⟩
  · rw [if_neg hc]
    exact iff_of_true ⟨h, Bool.eq_false_iff.mpr hc⟩ fun hc' => absurd hc' hc

lemma cancelled_joint : AreasJoint cfg d.proxymailComposeCancel := h.withProxymail fun hc => by cases hc

lemma proxymailDone_iff (rc : HybbxResult) : AreasJoint cfg (d.proxymailDone rc) ↔
    OpKeeps cfg d (.proxymailDone rc) := by
  rw [OpKeeps, proxymailDone]
  split_ifs with hsent
  · rw [leaveArea_iff (cancelled_joint h)]
    exact ⟨fun hkeeps _ => hkeeps, fun hkeeps => hkeeps hsent⟩
  · exact iff_of_true h fun hc => absurd hc hsent

lemma proxymailCancel_iff : AreasJoint cfg d.proxymailCancel ↔ OpKeeps cfg d .proxymailCancel := by
  rw [OpKeeps, proxymailCancel]
  split_ifs with hc
  · rw [leaveArea_iff (cancelled_joint h)]
    exact ⟨fun hkeeps _ => hkeeps, fun hkeeps => hkeeps hc⟩
  · exact iff_of_true h fun hc' => absurd hc' hc

omit h in
lemma append_composing {size : ℕ} (draft : Draft size) (bodyMax : ℕ) (line : Bytes) :
    ((draft.append bodyMax line).getD draft).composing = draft.composing := by
  rw [Draft.append]
  split_ifs <;> rfl

/-- An operation keeps the areas joint, and ends a draft it sends or gives up, exactly if it is one of those that can. -/
lemma deskStep_iff (op : DeskOp) : AreasJoint cfg (deskStep cfg d op) ∧ DraftEnds cfg d op ↔ OpKeeps cfg d op := by
  cases op with
  | enterArea area => exact (and_iff_left trivial).trans (enterArea_iff h area)
  | leaveArea => exact (and_iff_left trivial).trans (leaveArea_iff h)
  | goMain => exact iff_of_true ⟨goMain_joint h, trivial⟩ trivial
  | joinChatChannel index => exact iff_of_true ⟨joinChatChannel_joint h index, trivial⟩ trivial
  | enterProxymail => exact iff_of_true ⟨enterProxymail_joint h, trivial⟩ trivial
  | enterProxychat => exact (and_iff_left trivial).trans (enterProxychat_iff h)
  | mailComposeStart toUser resolved subject =>
    exact (and_iff_left trivial).trans (mailComposeStart_iff h toUser resolved subject)
  | mailComposeCancel => exact iff_of_true ⟨h.withMail fun hc => (by cases hc), trivial⟩ trivial
  | mailDone rc => exact mailDone_iff h rc
  | mailCancel => exact mailCancel_iff h
  | proxymailComposeStart address subject =>
    exact (and_iff_left trivial).trans (proxymailComposeStart_iff h address subject)
  | proxymailComposeCancel => exact iff_of_true ⟨cancelled_joint h, trivial⟩ trivial
  | proxymailDone rc => exact (and_iff_left trivial).trans (proxymailDone_iff h rc)
  | proxymailCancel => exact (and_iff_left trivial).trans (proxymailCancel_iff h)
  | mailLine line =>
    refine iff_of_true ⟨?_, trivial⟩ trivial
    rw [deskStep]
    split_ifs
    · exact h.withMail fun hc => h.mail ((append_composing d.mail cfg.bodyMax line).symm.trans hc)
    · exact h
  | proxymailLine line =>
    refine iff_of_true ⟨?_, trivial⟩ trivial
    rw [deskStep]
    split_ifs
    · exact h.withProxymail fun hc => h.proxymail ((append_composing d.proxymail cfg.bodyMax line).symm.trans hc)
    · exact h
  | joinConference topic partner => exact iff_of_true ⟨joinConference_joint h topic partner, trivial⟩ trivial
  | clearConference => exact iff_of_true ⟨⟨h.current, h.bounded, h.bottom, h.mail, h.proxymail, h.channel⟩, trivial⟩ trivial
  | setInvite invite => exact iff_of_true ⟨h.withInvite (some invite), trivial⟩ trivial
  | answerInvite joining =>
    refine iff_of_true ⟨?_, trivial⟩ trivial
    cases joining with
    | none => exact h.withInvite none
    | some conference => exact joinConference_joint (h.withInvite none) conference.1 conference.2

end Drafts

end HyBBX.SessionCore
