import HyBBX.Session.LineAlike
import HyBBX.Session.PasswordHistory
import HyBBX.SessionCore.Alike
import HyBBX.SessionCore.AreaRules
import HyBBX.SessionCore.LineOps

/-! What a session keeps of the account that used it before. -/

namespace HyBBX.SessionCore

open HyBBX.Core Lib Lib.Bytes Lib.Text Desk
open Command (Area ParsedCommand)
open Session (InputSession EditorSound LineAlike LineEditor HistoryKept Surroundings handleInput_keeps WorkKeeps)
open Storage (UserRecord)

variable {ω : Type*}

/-- The session is in no area but the main one, composes nothing, is in no conversation and has nothing in its history. -/
structure Clean (s : CoreSession ω) : Prop where
  stack : s.rest.desk.areaStack = [.main]
  mail : s.rest.desk.mail.composing = false
  proxymail : s.rest.desk.proxymail.composing = false
  channel : s.rest.desk.chatChannel = 0
  partner : s.rest.desk.partner.text = []
  invite : s.rest.desk.invite = none
  history : s.rest.editor.historyCount = 0

instance decidableClean (s : CoreSession ω) : Decidable (Clean s) :=
  decidable_of_iff (s.rest.desk.areaStack = [.main] ∧ s.rest.desk.mail.composing = false ∧ s.rest.desk.proxymail.composing = false ∧
      s.rest.desk.chatChannel = 0 ∧ s.rest.desk.partner.text = [] ∧ s.rest.desk.invite = none ∧
        s.rest.editor.historyCount = 0)
    ⟨fun ⟨stack, mail, proxymail, channel, partner, invite, history⟩ => ⟨stack, mail, proxymail, channel, partner, invite, history⟩,
      fun h => ⟨h.stack, h.mail, h.proxymail, h.channel, h.partner, h.invite, h.history⟩⟩

/-- From here on the texts and echoes are new. -/
def silenced (s : CoreSession ω) : CoreSession ω :=
  { s with rest := { s.rest with texts := [], editor := { s.rest.editor with sent := [] } } }

/-- What there is of a session besides drafts, history and what it has sent. -/
structure Remains (ω : Type*) where
  user : Option UserRecord
  desk : Desk
  line : Bytes
  lineLen : ℕ
  lineCursor : ℕ
  historyView : Option ℕ
  escState : Session.EscState
  csi : Bytes
  around : Surroundings
  world : ω
  deriving DecidableEq

-- of the line buffer the string counts: longer lines of before may have left bytes behind it
def remains (s : CoreSession ω) : InputSession (Remains ω) where
  loggedIn := s.loggedIn
  loginPrompt := s.loginPrompt
  bandwidthPaused := s.bandwidthPaused
  bandwidthDisconnect := s.bandwidthDisconnect
  guestExpiresAt := s.guestExpiresAt
  expectLf := s.expectLf
  rest :=
    { user := s.rest.user
      desk := { s.rest.desk with mail := .empty, proxymail := .empty }
      line := cstr s.rest.editor.buf
      lineLen := s.rest.editor.lineLen
      lineCursor := s.rest.editor.lineCursor
      historyView := s.rest.editor.historyView
      escState := s.rest.editor.escState
      csi := s.rest.editor.csi
      around := s.rest.editor.around
      world := s.rest.world }

def TypedApart (s s' : CoreSession ω) : Prop := remains s' = remains s

instance decidableTypedApart [DecidableEq ω] (s s' : CoreSession ω) : Decidable (TypedApart s s') :=
  inferInstanceAs (Decidable (remains s' = remains s))

/-- The texts and echoes that the user gets from now on, and what becomes of the rest of the service. -/
def outputs (svc : ServiceCalls ω) (s : CoreSession ω) (later : List (CoreEvent ω)) : List Bytes × Bytes × ω :=
  let t := coreRun svc (silenced s) later
  (t.rest.texts, t.rest.editor.sent, t.rest.world)

section Alike

/-- Sessions that differ at most behind the string in the line buffer. -/
structure CoreAlike (s s' : CoreSession ω) : Prop where
  editor : LineAlike s.rest.editor s'.rest.editor
  rest : s' = { s with rest := { s.rest with editor := s'.rest.editor } }

variable {svc : ServiceCalls ω} {s s' : CoreSession ω}

lemma CoreAlike.exists_editor (h : CoreAlike s s') :
    ∃ editor, s' = { s with rest := { s.rest with editor := editor } } := ⟨_, h.rest⟩

lemma CoreAlike.ofEditor (s : CoreSession ω) {editor editor' : LineEditor} (h : LineAlike editor editor') :
    CoreAlike { s with rest := { s.rest with editor := editor } } { s with rest := { s.rest with editor := editor' } } := ⟨h, rfl⟩

lemma CoreAlike.write (h : CoreAlike s s') (text : Bytes) : CoreAlike (write s text) (write s' text) := by
  obtain ⟨editor, rfl⟩ := h.exists_editor
  rw [SessionCore.write, SessionCore.write]
  dsimp only
  split_ifs
  · exact h
  · exact ⟨h.editor, rfl⟩

lemma CoreAlike.writes (texts : List Bytes) (h : CoreAlike s s') :
    CoreAlike (texts.foldl SessionCore.write s) (texts.foldl SessionCore.write s') := by
  induction texts generalizing s s' with
  | nil => exact h
  | cons text texts ih => exact ih (h.write text)

lemma coreAlike_treats (svc : ServiceCalls ω) : TreatsAllAlike svc CoreAlike where
  seen := by
    intro s s' h
    have hecho : s'.rest.editor.around = s.rest.editor.around := by rw [h.editor.rest]
    obtain ⟨editor, rfl⟩ := h.exists_editor
    exact ⟨rfl, rfl, rfl, rfl, congrArg Surroundings.inputEcho hecho, rfl⟩
  write text h := h.write text
  setDesk desk h := by
    obtain ⟨editor, rfl⟩ := h.exists_editor
    exact ⟨h.editor, rfl⟩
  setWorld world h := by
    obtain ⟨editor, rfl⟩ := h.exists_editor
    exact ⟨h.editor, rfl⟩
  other := by
    intro s s' cmd h
    have hecho : s'.rest.editor.around.inputEcho = s.rest.editor.around.inputEcho := by rw [h.editor.rest]
    have hset := fun echo => h.editor.surrounded fun around => { around with inputEcho := echo }
    obtain ⟨editor, rfl⟩ := h.exists_editor
    rw [cmdOther, cmdOther]
    dsimp only at hecho hset ⊢
    rw [hecho]
    generalize svc.other s.rest.world s.rest.user s.rest.desk s.rest.editor.around.inputEcho cmd = r
    apply CoreAlike.writes
    split_ifs
    · exact ⟨(hset r.inputEcho).clear, rfl⟩
    · exact ⟨hset r.inputEcho, rfl⟩
  switchUser := by
    intro s s' user h
    obtain ⟨editor, rfl⟩ := h.exists_editor
    rw [switchUser, switchUser]
    dsimp only
    split_ifs
    · exact h
    · generalize svc.sessionBegin s.rest.world user = r
      obtain ⟨rc, world⟩ := r
      cases rc with
      | ok => exact ⟨h.editor, rfl⟩
      | _ => exact ⟨h.editor, rfl⟩
  logout h := by
    obtain ⟨editor, rfl⟩ := h.exists_editor
    exact ⟨h.editor, rfl⟩

lemma submitLine_alike (h : CoreAlike s s') : CoreAlike (submitLine svc s) (submitLine svc s') := by
  have htyped : typedLine s' = typedLine s := h.editor.ended_string
  have hended := h.editor.ended.added (typedLine s)
  have hecho : s'.rest.editor.around.inputEcho = s.rest.editor.around.inputEcho := by rw [h.editor.rest]
  have hhistory : CoreAlike (withHistory s) (withHistory s') := by
    obtain ⟨editor, rfl⟩ := h.exists_editor
    have hadded := CoreAlike.ofEditor s hended
    rw [typedLine, typedLine] at htyped
    rw [typedLine] at hadded
    rw [withHistory, withHistory]
    dsimp only at hecho htyped hadded ⊢
    rw [hecho, htyped]
    split_ifs
    · exact hadded.write _
    · exact hadded
  have hnext : CoreAlike (nextLine (processLine svc (withHistory s) (typedLine s)))
      (nextLine (processLine svc (withHistory s') (typedLine s))) := by
    have hline := processLine_alike (coreAlike_treats svc) hhistory (typedLine s)
    generalize processLine svc (withHistory s) (typedLine s) = t at hline ⊢
    generalize processLine svc (withHistory s') (typedLine s) = t' at hline ⊢
    have hnext := hline.editor.next
    obtain ⟨editor, rfl⟩ := hline.exists_editor
    exact ⟨hnext, rfl⟩
  rw [submitLine, submitLine, htyped, ((coreAlike_treats svc).seen hnext).desk]
  split_ifs
  · exact showPrompt_alike (coreAlike_treats svc).toTreatsAlike hnext
  · exact hnext

lemma coreAlike_works (svc : ServiceCalls ω) : WorksAlike (coreWork svc) CoreAlike where
  flags h := by
    obtain ⟨editor, rfl⟩ := h.exists_editor
    exact ⟨rfl, rfl, rfl, rfl, rfl⟩
  expectLf expectLf h := by
    obtain ⟨editor, rfl⟩ := h.exists_editor
    exact ⟨h.editor, rfl⟩
  filterEscape byte h := by
    obtain ⟨htaken, hfilter⟩ := h.editor.filter byte
    obtain ⟨editor, rfl⟩ := h.exists_editor
    exact ⟨htaken, hfilter, rfl⟩
  backspace h := by
    obtain ⟨hrc, hback⟩ := h.editor.back
    obtain ⟨editor, rfl⟩ := h.exists_editor
    exact ⟨hrc, hback, rfl⟩
  insertChar := by
    intro s s' byte h
    obtain ⟨hrc, hinsert⟩ := (h.editor.surrounded fun around => { around with area := s.rest.desk.area }).insert byte
    obtain ⟨editor, rfl⟩ := h.exists_editor
    exact ⟨hrc, hinsert, rfl⟩
  echoNewline := by
    intro s s' h
    have haround : s'.rest.editor.around = s.rest.editor.around := by rw [h.editor.rest]
    change (if s'.rest.editor.around.inputEcho then s'.rest.editor.around.newline else _) = _
    rw [haround]
    rfl
  submitLine h := submitLine_alike h

lemma coreStep_alike (event : CoreEvent ω) (h : CoreAlike s s') : CoreAlike (coreStep svc s event)
    (coreStep svc s' event) := by
  cases event with
  | input now data => exact (handleInput_alike (coreAlike_works svc) now data h).2
  | tick now => exact h
  | setBandwidthPaused paused =>
    obtain ⟨editor, rfl⟩ := h.exists_editor
    exact ⟨h.editor, rfl⟩
  | disconnectBandwidth =>
    obtain ⟨editor, rfl⟩ := h.exists_editor
    have hopened : CoreAlike { s with bandwidthPaused := false }
        { s with bandwidthPaused := false, rest := { s.rest with editor := editor } } := ⟨h.editor, rfl⟩
    have hwritten := hopened.write (ofString "You are disconnected by bandwidth limits." ++ [nl])
    rw [coreStep, coreStep, disconnectBandwidth, disconnectBandwidth]
    dsimp only
    split_ifs
    · exact h
    · obtain ⟨editor', hrest⟩ := hwritten.exists_editor
      exact ⟨hwritten.editor, by rw [writeLine, writeLine, hrest]⟩
  | desk op =>
    obtain ⟨editor, rfl⟩ := h.exists_editor
    exact ⟨h.editor, rfl⟩
  | switchUser user => exact (coreAlike_treats svc).switchUser user h
  | transport answers newline =>
    have hset := h.editor.surrounded fun around => { around with answers := answers, newline := newline }
    obtain ⟨editor, rfl⟩ := h.exists_editor
    exact ⟨hset, rfl⟩
  | world change =>
    obtain ⟨editor, rfl⟩ := h.exists_editor
    exact ⟨h.editor, rfl⟩

lemma coreRun_alike (events : List (CoreEvent ω)) {s s' : CoreSession ω} (h : CoreAlike s s') :
    CoreAlike (coreRun svc s events) (coreRun svc s' events) := by
  induction events generalizing s s' with
  | nil => exact h
  | cons event events ih => exact ih (coreStep_alike event h)

end Alike

section Kept

def DraftsClosed (d : Desk) : Prop :=
  (d.mail.composing = false → d.mail = .empty) ∧ (d.proxymail.composing = false → d.proxymail = .empty)

variable {cfg : DeskConfig} {d : Desk}

lemma SameDrafts.closed {d' : Desk} (h : SameDrafts d d') (hclosed : DraftsClosed d) : DraftsClosed d' := by
  rw [DraftsClosed, h.1, h.2]
  exact hclosed

lemma clear_closed (h : DraftsClosed d) (area : Area) : DraftsClosed (d.areaClearState area) := by
  cases area with
  | mail => exact ⟨fun _ => rfl, h.2⟩
  | proxymail => exact ⟨h.1, fun _ => rfl⟩
  | _ => exact h

lemma leaveArea_closed (h : DraftsClosed d) : DraftsClosed d.leaveArea := by
  rw [leaveArea]
  split
  · exact clear_closed h _
  · exact h

lemma goMain_closed (h : DraftsClosed d) : DraftsClosed d.goMain :=
  List.foldlRecOn d.areaStack.dropLast areaClearState h fun _ h area _ => clear_closed h area

lemma deskStep_closed (h : DraftsClosed d) (op : DeskOp) : DraftsClosed (deskStep cfg d op) := by
  have hcancelled : DraftsClosed d.proxymailComposeCancel := ⟨h.1, fun _ => rfl⟩
  have hmail : ∀ {draft}, draft.composing = true → DraftsClosed { d with mail := draft } := fun hc =>
    ⟨fun h0 => absurd (hc.symm.trans h0) (by decide), h.2⟩
  have hproxymail : ∀ {draft}, draft.composing = true → DraftsClosed { d with proxymail := draft } := fun hc =>
    ⟨h.1, fun h0 => absurd (hc.symm.trans h0) (by decide)⟩
  cases op with
  | enterArea area => exact (areaPush_drafts d area).closed h
  | leaveArea => exact leaveArea_closed h
  | goMain => exact goMain_closed h
  | joinChatChannel index => exact (joinChatChannel_drafts cfg d index).closed h
  | enterProxymail => exact (enterProxymail_drafts d).closed h
  | enterProxychat => exact (enterProxychat_drafts d).closed h
  | mailComposeStart toUser resolved subject =>
    rw [deskStep, mailComposeStart]
    split_ifs
    · exact h
    · exact (pushUnless_drafts _ _ _).closed (hmail rfl)
  | mailComposeCancel => exact ⟨fun _ => rfl, h.2⟩
  | mailDone rc =>
    rw [deskStep, Desk.mailDone]
    split_ifs
    · exact leaveArea_closed h
    · exact h
  | mailCancel =>
    rw [deskStep, Desk.mailCancel]
    split_ifs
    · exact leaveArea_closed h
    · exact h
  | proxymailComposeStart address subject =>
    rw [deskStep, proxymailComposeStart]
    split_ifs
    · exact h
    · exact h
    · exact (enterProxymail_drafts _).closed (hproxymail rfl)
  | proxymailComposeCancel => exact hcancelled
  | proxymailDone rc =>
    rw [deskStep, Desk.proxymailDone]
    split_ifs
    · exact leaveArea_closed hcancelled
    · exact h
  | proxymailCancel =>
    rw [deskStep, Desk.proxymailCancel]
    split_ifs
    · exact leaveArea_closed hcancelled
    · exact h
  | mailLine line =>
    rw [deskStep]
    split_ifs with hcomposing
    · exact hmail ((append_composing d.mail cfg.bodyMax line).trans hcomposing.2)
    · exact h
  | proxymailLine line =>
    rw [deskStep]
    split_ifs with hcomposing
    · exact hproxymail ((append_composing d.proxymail cfg.bodyMax line).trans hcomposing.2)
    · exact h
  | joinConference topic partner => exact (joinConference_drafts d topic partner).closed h
  | clearConference => exact h
  | setInvite invite => exact h
  | answerInvite joining =>
    cases joining with
    | none => exact h
    | some conference => exact (joinConference_drafts { d with invite := none } conference.1 conference.2).closed h

def HistoryFresh (ed : LineEditor) : Prop :=
  ed.historyCount = 0 → ed.history = (fun _ => .empty) ∧ ed.historyNext = 0 ∧ ed.historySaved = .empty

lemma kept_fresh {kept ed : LineEditor} (h : HistoryKept kept ed) (hfresh : HistoryFresh kept) : HistoryFresh ed := by
  obtain ⟨hhistory, hcount, hnext, hsaved⟩ := h
  intro h0
  obtain ⟨hempty, hfirst, hnone⟩ := hfresh (hcount.symm.trans h0)
  exact ⟨hhistory.trans hempty, hnext.trans hfirst, (hsaved (hcount.symm.trans h0)).trans hnone⟩

lemma historyAdd_fresh {ed : LineEditor} (h : HistoryFresh ed) (line : Bytes) : HistoryFresh (ed.historyAdd line) := by
  rw [LineEditor.historyAdd]
  split_ifs with hstore hroom
  · exact h
  · exact fun h0 => absurd h0 (Nat.succ_ne_zero _)
  · intro h0
    have hnone : ed.historyCount = 0 := h0
    exact absurd (hnone ▸ by decide) hroom

end Kept

section Run

variable {svc : ServiceCalls ω} {s s' : CoreSession ω}

/-- Behind an account that composes nothing and has an empty history no text is left. -/
def Settled (c : Core ω) : Prop := HistoryFresh c.editor ∧ DraftsClosed c.desk

lemma write_editor (s : CoreSession ω) (text : Bytes) : (write s text).rest.editor = s.rest.editor := by
  rw [write]
  split_ifs <;> rfl

lemma showPrompt_editor (s : CoreSession ω) : (showPrompt svc s).rest.editor = s.rest.editor := by
  rw [showPrompt]
  split_ifs
  · rfl
  · exact write_editor _ _

lemma switchUser_editor (s : CoreSession ω) (user : UserRecord) :
    (switchUser svc s user).2.rest.editor = s.rest.editor := by
  rw [switchUser]
  split_ifs
  · rfl
  · split <;> rfl

lemma write_fresh (text : Bytes) (h : HistoryFresh s.rest.editor) : HistoryFresh (write s text).rest.editor :=
  (write_editor s text).symm ▸ h

lemma keeps_history : KeepsAll svc fun s => HistoryFresh s.rest.editor where
  write text h := write_fresh text h
  setDesk _ h := h
  setWorld _ h := h
  other cmd h := by
    rw [cmdOther]
    apply writes_keep (I := fun s => HistoryFresh s.rest.editor) write_fresh
    dsimp only
    split_ifs
    · exact h
    · exact h
  switchUser user h := (switchUser_editor _ user).symm ▸ h
  logout h := h

lemma processLine_settled (h : Settled s.rest) (line : Bytes) : Settled (processLine svc s line).rest := by
  refine ⟨keeps_history.processLine h.1 line, ?_⟩
  rw [processLine_desk, deskAfter]
  cases lineOp svc s line with
  | none => exact h.2
  | some op => exact deskStep_closed h.2 op

lemma submitLine_settled (h : Settled s.rest) : Settled (submitLine svc s).rest := by
  have hadded := @historyAdd_fresh { s.rest.editor with buf := s.rest.editor.buf.set s.rest.editor.lineLen 0 } h.1 (typedLine s)
  have hhistory : Settled (withHistory s).rest := by
    rw [withHistory]
    split_ifs
    · rw [Settled, write_editor, write_desk]
      exact ⟨hadded, h.2⟩
    · exact ⟨hadded, h.2⟩
  have hline := @processLine_settled ω svc _ hhistory (typedLine s)
  rw [submitLine]
  split_ifs
  · rw [Settled, showPrompt_editor, showPrompt_desk]
    exact hline
  · exact hline

lemma coreWork_settled : WorkKeeps (coreWork svc) Settled where
  filterEscape c byte h := ⟨kept_fresh (Session.filter_keeps (.refl c.editor) byte) h.1, h.2⟩
  backspace c h := ⟨kept_fresh (Session.backspace_keeps (.refl c.editor)) h.1, h.2⟩
  insertChar c byte h := ⟨kept_fresh (Session.insert_keeps (.refl c.lineEditor) byte) h.1, h.2⟩
  submitLine _ h := submitLine_settled h

lemma coreStep_settled (event : CoreEvent ω) (h : Settled s.rest) : Settled (coreStep svc s event).rest := by
  cases event with
  | input now data => exact handleInput_keeps coreWork_settled now data h
  | disconnectBandwidth =>
    rw [coreStep, disconnectBandwidth]
    split_ifs
    · exact h
    · rw [writeLine, Settled, write_editor, write_desk]
      exact h
  | desk op => exact ⟨h.1, deskStep_closed h.2 op⟩
  | switchUser user =>
    rw [coreStep, Settled, switchUser_editor, switchUser_desk]
    exact h
  | _ => exact h

lemma coreRun_settled (events : List (CoreEvent ω)) {s : CoreSession ω} (h : Settled s.rest) :
    Settled (coreRun svc s events).rest := by
  induction events generalizing s with
  | nil => exact h
  | cons event events ih => exact ih (coreStep_settled event h)

lemma openCore_settled (guest : Option (UserRecord × ℤ)) (around : Surroundings) (world : ω) :
    Settled (openCore guest around world).rest := ⟨fun _ => ⟨rfl, rfl, rfl⟩, fun _ => rfl, fun _ => rfl⟩

lemma openCore_alike (guest : Option (UserRecord × ℤ)) (around : Surroundings) (world : ω) :
    CoreAlike (openCore guest around world) (openCore guest around world) := by
  have hsound : EditorSound (LineEditor.opened around) := Session.soundEmpty List.length_replicate rfl rfl
  exact ⟨⟨hsound, hsound, rfl, rfl⟩, rfl⟩

end Run

section Switch

variable {svc : ServiceCalls ω} {s s' : CoreSession ω}

lemma switch_clean_iff (user : UserRecord) : Clean (switchUser svc s user).2 ↔ Clean s := by
  have hdesk := switchUser_desk svc (s := s) user
  have heditor := @switchUser_editor ω svc s user
  constructor
  · rintro ⟨hstack, hmail, hproxymail, hchannel, hpartner, hinvite, hhistory⟩
    rw [hdesk] at hstack hmail hproxymail hchannel hpartner hinvite
    rw [heditor] at hhistory
    exact ⟨hstack, hmail, hproxymail, hchannel, hpartner, hinvite, hhistory⟩
  · rintro ⟨hstack, hmail, hproxymail, hchannel, hpartner, hinvite, hhistory⟩
    rw [← hdesk] at hstack hmail hproxymail hchannel hpartner hinvite
    rw [← heditor] at hhistory
    exact ⟨hstack, hmail, hproxymail, hchannel, hpartner, hinvite, hhistory⟩

lemma silenced_switch (user : UserRecord) : silenced (switchUser svc s user).2 =
    (switchUser svc (silenced s) user).2 := by
  have hworld : (silenced s).rest.world = s.rest.world := rfl
  rw [switchUser, switchUser, hworld]
  split_ifs
  · rfl
  · generalize svc.sessionBegin s.rest.world user = r
    obtain ⟨rc, world⟩ := r
    cases rc <;> rfl

/-- A clean session is what remains of it, the line buffer, and nothing else. -/
def ofRemains (t : InputSession (Remains ω)) (buf : Bytes) : CoreSession ω :=
  { t with rest :=
    { user := t.rest.user
      desk := t.rest.desk
      texts := []
      world := t.rest.world
      editor := { LineEditor.opened t.rest.around with
        buf := buf
        lineLen := t.rest.lineLen
        lineCursor := t.rest.lineCursor
        historyView := t.rest.historyView
        escState := t.rest.escState
        csi := t.rest.csi } } }

lemma silenced_clean (h : Settled s.rest) (hclean : Clean s) :
    silenced s = ofRemains (remains s) s.rest.editor.buf := by
  obtain ⟨hhistory, hnext, hsaved⟩ := h.1 hclean.history
  have hcount := hclean.history
  have hmail := h.2.1 hclean.mail
  have hproxymail := h.2.2 hclean.proxymail
  obtain ⟨loggedIn, loginPrompt, paused, disconnect, expires, expectLf, ⟨editor, user, desk, texts, world⟩⟩ := s
  obtain ⟨buf, lineLen, lineCursor, history, historyCount, historyNext, historyView, historySaved, escState, csi,
    around, sent⟩ := editor
  obtain ⟨area, areaStack, chatChannel, shown, mail, proxymail, topic, partner, invite⟩ := desk
  dsimp only at hhistory hnext hsaved hcount hmail hproxymail
  subst hhistory hnext hsaved hcount hmail hproxymail
  rfl

/-- Two clean sessions that differ only in what has been typed behave alike. -/
lemma apart_alike (h : Settled s.rest) (h' : Settled s'.rest) (hsound : EditorSound s.rest.editor)
    (hsound' : EditorSound s'.rest.editor)
    (hclean : Clean s) (hclean' : Clean s') (hapart : TypedApart s s') : CoreAlike (silenced s) (silenced s') := by
  have hstring : cstr s'.rest.editor.buf = cstr s.rest.editor.buf := congrArg (fun t => t.rest.line) hapart
  have hcursor := hsound.cursor
  have hcursor' := hsound'.cursor
  have hsilent : EditorSound (silenced s).rest.editor := hsound.of_line rfl rfl hcursor
  have hsilent' : EditorSound (silenced s').rest.editor := hsound'.of_line rfl rfl hcursor'
  rw [silenced_clean h hclean] at hsilent ⊢
  rw [silenced_clean h' hclean', hapart] at hsilent' ⊢
  exact ⟨⟨hsilent, hsilent', hstring, rfl⟩, rfl⟩

lemma outputs_alike (h : CoreAlike (silenced s) (silenced s')) (user : UserRecord) (later : List (CoreEvent ω)) :
    outputs svc (switchUser svc s' user).2 later = outputs svc (switchUser svc s user).2 later := by
  have hrun := @coreRun_alike ω svc later _ _ ((coreAlike_treats svc).switchUser user h)
  rw [outputs, outputs, silenced_switch, silenced_switch]
  have hsent : (coreRun svc (switchUser svc (silenced s') user).2 later).rest.editor.sent =
      (coreRun svc (switchUser svc (silenced s) user).2 later).rest.editor.sent := by rw [hrun.editor.rest]
  have htexts : (coreRun svc (switchUser svc (silenced s') user).2 later).rest.texts =
      (coreRun svc (switchUser svc (silenced s) user).2 later).rest.texts := by rw [hrun.rest]
  have hworld : (coreRun svc (switchUser svc (silenced s') user).2 later).rest.world =
      (coreRun svc (switchUser svc (silenced s) user).2 later).rest.world := by rw [hrun.rest]
  rw [hsent, htexts, hworld]

end Switch

/-- A switch of the user leaves nothing of the account before, and what that has typed has no effect on what follows, exactly
if the account has left nothing itself. -/
theorem nothing_left_iff (svc : ServiceCalls ω) (guest guest' : Option (UserRecord × ℤ)) (around around' : Surroundings)
    (world world' : ω) (events events' : List (CoreEvent ω)) (user : UserRecord)
    (hapart : TypedApart (coreRun svc (openCore guest around world) events) (coreRun svc (openCore guest' around' world') events')) :
    (Clean (switchUser svc (coreRun svc (openCore guest around world) events) user).2 ∧
      Clean (switchUser svc (coreRun svc (openCore guest' around' world') events') user).2 ∧
      ∀ later, outputs svc (switchUser svc (coreRun svc (openCore guest' around' world') events') user).2 later =
        outputs svc (switchUser svc (coreRun svc (openCore guest around world) events) user).2 later) ↔
      Clean (coreRun svc (openCore guest around world) events) ∧
          Clean (coreRun svc (openCore guest' around' world') events') := by
  have hsettled := @coreRun_settled ω svc events _ (openCore_settled guest around world)
  have hsettled' := @coreRun_settled ω svc events' _ (openCore_settled guest' around' world')
  have hsound := (@coreRun_alike ω svc events _ _ (openCore_alike guest around world)).editor.sound
  have hsound' := (@coreRun_alike ω svc events' _ _ (openCore_alike guest' around' world')).editor.sound
  generalize coreRun svc (openCore guest around world) events = s at *
  generalize coreRun svc (openCore guest' around' world') events' = s' at *
  rw [switch_clean_iff, switch_clean_iff]
  constructor
  · exact fun h => ⟨h.1, h.2.1⟩
  · rintro ⟨hclean, hclean'⟩
    exact ⟨hclean, hclean', outputs_alike (apart_alike hsettled hsettled' hsound hsound' hclean hclean' hapart) user⟩

section Example

def amy : UserRecord := { UserRecord.zero with id := 8, username := .copy (ofString "amy"), idFits := by decide }

/-- A line that is taken back before it is submitted leaves nothing. -/
theorem nothing_left_iff_erased :
    let erased : List (CoreEvent (List Bytes)) :=
      [.switchUser bob, .input 0 (ofString "hello" ++ List.replicate 5 0x08)]
    outputs plainService (switchUser plainService (coreRun plainService newSession erased) amy).2 [.input 0 (ofString "/chat 1\r")] =
      outputs plainService (switchUser plainService (coreRun plainService newSession [.switchUser bob]) amy).2
        [.input 0 (ofString "/chat 1\r")] :=
  ((nothing_left_iff plainService none none ⟨true, .main, 72, [], .ok⟩ ⟨true, .main, 72, [], .ok⟩ [] [] [.switchUser bob]
    [.switchUser bob, .input 0 (ofString "hello" ++ List.replicate 5 0x08)] amy (by decide +kernel)).mpr
      ⟨by decide +kernel, by decide +kernel⟩).2.2 _

def bobWrites (text : String) : List (CoreEvent (List Bytes)) :=
  [.switchUser bob, .input 0 (ofString ("/mail send carl hi\r" ++ text ++ "\r/login amy secret\r"))]

/-- The new account sends the draft of the one before. -/
theorem draft_passes_on :
    let s := coreRun plainService newSession (bobWrites "hello")
    let s' := coreRun plainService newSession (bobWrites "bye")
    TypedApart s s' ∧ s.rest.user = some bob ∧ (switchUser plainService s amy).1 = .ok ∧ amy.id ≠ bob.id ∧
      (switchUser plainService s amy).2.rest.desk.areaStack = [.mail, .main] ∧
        ¬Clean (switchUser plainService s amy).2 ∧
      (outputs plainService (switchUser plainService s amy).2 [.input 0 (ofString "/mail done\r")]).2.2 =
        [ofString "hello"] ∧
      (outputs plainService (switchUser plainService s' amy).2 [.input 0 (ofString "/mail done\r")]).2.2 =
          [ofString "bye"] := by
  refine ⟨by decide +kernel, by decide +kernel, by decide +kernel, by decide, by decide +kernel, by decide +kernel,
    by decide +kernel, by decide +kernel⟩

end Example

end HyBBX.SessionCore
