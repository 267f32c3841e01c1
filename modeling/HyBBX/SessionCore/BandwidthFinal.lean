import HyBBX.SessionCore.Alike

/-! Whether a session ends when its user says goodbye. -/

namespace HyBBX.SessionCore

open HyBBX.Core Lib Lib.Bytes Lib.Text
open Command (ParsedCommand commandClassify commandParse)
open Session (acceptsInput guestExpired handleInput handleBytes handleUserByte submit InputResult Surroundings)
open Storage (UserRecord)

variable {ω : Type*} (svc : ServiceCalls ω)

section Prompt

variable {s : CoreSession ω}

lemma write_prompt (s : CoreSession ω) (text : Bytes) : (write s text).loginPrompt = s.loginPrompt := by
  rw [write]
  split_ifs <;> rfl

lemma write_logged (s : CoreSession ω) (text : Bytes) : (write s text).loggedIn = s.loggedIn := by
  rw [write]
  split_ifs <;> rfl

lemma keeps_prompt (prompt : Bool) : Keeps svc fun s => s.loginPrompt = prompt where
  write text h := (write_prompt _ text).trans h
  setDesk _ h := h
  setWorld _ h := h
  other cmd h := by
    rw [cmdOther]
    exact writes_keep (I := fun s => s.loginPrompt = prompt) (fun text h => (write_prompt _ text).trans h) _ h

lemma cmdLogin_prompt (argv : List Bytes) (h : (cmdLogin svc s argv).1 ≠ .ok) :
    (cmdLogin svc s argv).2.loginPrompt = s.loginPrompt := by
  rw [cmdLogin] at h ⊢
  generalize svc.checkLogin s.rest.world argv = r at h ⊢
  obtain ⟨found, world⟩ := r
  cases found with
  | error refusal => exact writes_keep (I := fun t => t.loginPrompt = s.loginPrompt) (fun text h => (write_prompt _ text).trans h) _ rfl
  | ok user =>
    dsimp only at h ⊢
    rw [switchUser] at h ⊢
    by_cases hguest : user.level = .guest
    · rw [if_pos hguest] at h ⊢
      exact write_prompt _ _
    · rw [if_neg hguest] at h ⊢
      generalize svc.sessionBegin (setWorld s world).rest.world user = r at h ⊢
      obtain ⟨rc, world'⟩ := r
      cases rc with
      | ok => exact absurd rfl h
      | _ => exact write_prompt _ _

lemma dispatch_prompt (cmd : ParsedCommand) : (dispatch svc s cmd).1 ≠ .ok →
    (dispatch svc s cmd).2.loginPrompt = s.loginPrompt := by
  refine dispatch_alike (keeps_prompt svc s.loginPrompt).alike ⟨rfl, rfl⟩
    (Q := fun r _ => r.1 ≠ .ok → r.2.loginPrompt = s.loginPrompt) cmd ?_ ?_
  · exact fun hanswered _ => hanswered.2.2
  · exact fun hs h => (cmdLogin_prompt svc _ h).trans hs.2

end Prompt

section Line

/-- The result of the command that a line comes down to. -/
def lineResult (s : CoreSession ω) (line : Bytes) : Option HybbxResult :=
  if line = [] then none
  else match commandClassify line with
    | .scopeHybbx => (commandLine svc s line).1
    | _ => none

variable {svc} {s : CoreSession ω}

lemma processLine_end {line : Bytes} (h : lineResult svc s line = some .sessionEnd) :
    (processLine svc s line).loggedIn = false ∧ (processLine svc s line).loginPrompt = s.loginPrompt := by
  rw [lineResult] at h
  rw [processLine]
  by_cases hempty : line = []
  · rw [if_pos hempty] at h
    cases h
  rw [if_neg hempty] at h ⊢
  cases hscope : commandClassify line with
  | scopeComment =>
    rw [hscope] at h
    cases h
  | scopeLocal =>
    rw [hscope] at h
    cases h
  | scopeHybbx =>
    rw [hscope] at h
    dsimp only at h ⊢
    rw [commandLine] at h ⊢
    cases hparse : commandParse line with
    | error rc =>
      rw [hparse] at h
      cases h
    | ok parsed =>
      rw [hparse] at h
      have hprompt := dispatch_prompt svc (s := s) parsed.2
      dsimp only at h ⊢
      generalize dispatch svc s parsed.2 = r at h hprompt ⊢
      obtain ⟨rc, s'⟩ := r
      cases rc with
      | sessionEnd => exact ⟨rfl, hprompt fun hok => by cases hok⟩
      | _ => cases h

lemma submitLine_end (h : lineResult svc (withHistory s) (typedLine s) = some .sessionEnd) :
    (submitLine svc s).loggedIn = false ∧ (submitLine svc s).loginPrompt = s.loginPrompt := by
  obtain ⟨hlogged, hprompt⟩ := processLine_end h
  have hhistory : (withHistory s).loginPrompt = s.loginPrompt := by
    rw [withHistory]
    split_ifs
    · exact write_prompt _ _
    · rfl
  rw [submitLine]
  split_ifs
  · rw [showPrompt]
    split_ifs
    · exact ⟨hlogged, hprompt.trans hhistory⟩
    · exact ⟨(write_logged _ _).trans hlogged, (write_prompt _ _).trans (hprompt.trans hhistory)⟩
  · exact ⟨hlogged, hprompt.trans hhistory⟩

end Line

section Input

variable {κ : Type*} {work : Session.LineWork κ}

lemma handled_nil {s : Session.InputSession κ} {data : Bytes} (h : (handleBytes work s data).handled = []) :
    data = [] := by
  cases data with
  | nil => rfl
  | cons byte bytes =>
    exfalso
    rw [handleBytes] at h
    generalize work.filterEscape s.rest byte = r at h
    obtain ⟨taken, rest⟩ := r
    cases taken with
    | true => cases h
    | false =>
      dsimp only at h
      generalize handleUserByte work { s with rest := rest } byte = r at h
      obtain ⟨rc, s'⟩ := r
      cases rc <;> cases h

lemma handleBytes_append {before : Bytes} (after : Bytes) {s : Session.InputSession κ}
    (h : (handleBytes work s before).rc = .ok) :
    handleBytes work s (before ++ after) =
      { handleBytes work (handleBytes work s before).session after with
        handled := before ++ (handleBytes work (handleBytes work s before).session after).handled } := by
  induction before generalizing s with
  | nil => rfl
  | cons byte before ih =>
    rw [List.cons_append, handleBytes, handleBytes]
    rw [handleBytes] at h
    generalize work.filterEscape s.rest byte = r at h ⊢
    obtain ⟨taken, rest⟩ := r
    cases taken with
    | true =>
      dsimp only at h ⊢
      rw [ih h]
      rfl
    | false =>
      dsimp only at h ⊢
      generalize handleUserByte work { s with rest := rest } byte = r at h ⊢
      obtain ⟨rc, s'⟩ := r
      cases rc with
      | ok =>
        dsimp only at h ⊢
        rw [ih h]
        rfl
      | _ => cases h

end Input

section Honoured

def TakesInput (s : CoreSession ω) (now : ℤ) : Prop :=
  acceptsInput s = true ∧ s.bandwidthPaused = false ∧ (s.loggedIn && guestExpired s now) = false

/-- The session as the byte comes to its line, behind the filter of escape sequences. -/
def atByte (s : CoreSession ω) (b : UInt8) : CoreSession ω :=
  { s with rest := ((coreWork svc).filterEscape s.rest b).2 }

def EndsLine (s : CoreSession ω) (b : UInt8) : Prop :=
  ((coreWork svc).filterEscape s.rest b).1 = false ∧ (b = cr ∨ b = nl ∧ s.expectLf = false) ∧
    (coreWork svc).echoNewline (atByte svc s b).rest = .ok

variable {svc} {s : CoreSession ω}

lemma takesInput_eq {now : ℤ} (h : TakesInput s now) (data : Bytes) :
    handleInput (coreWork svc) now s data = handleBytes (coreWork svc) s data := by
  obtain ⟨haccepts, hpaused, htime⟩ := h
  rw [handleInput, if_neg (by simp [haccepts]), if_neg (by simp [hpaused]), if_neg (by simp [htime])]

lemma endsLine_byte {b : UInt8} (hline : EndsLine svc s b)
    (hend : lineResult svc (withHistory (atByte svc s b)) (typedLine (atByte svc s b)) = some .sessionEnd) :
    (handleUserByte (coreWork svc) (atByte svc s b) b).1 = if s.loginPrompt = false then .sessionEnd else .ok := by
  obtain ⟨-, hbyte, hecho⟩ := hline
  obtain ⟨hlogged, hprompt⟩ := submitLine_end hend
  have hprompt' : (submitLine svc (atByte svc s b)).loginPrompt = s.loginPrompt := hprompt
  have hsubmit : ∀ expectLf, (submit (coreWork svc) (atByte svc s b) expectLf).1 =
      if s.loginPrompt = false then .sessionEnd else .ok := by
    intro expectLf
    rw [submit, hecho]
    change (if (submitLine svc (atByte svc s b)).loggedIn = false ∧ (submitLine svc (atByte svc s b)).loginPrompt = false then _
      else _ : HybbxResult × CoreSession ω).1 = _
    rw [hlogged, hprompt']
    by_cases hcond : s.loginPrompt = false
    · rw [if_pos ⟨rfl, hcond⟩, if_pos hcond]
    · rw [if_neg fun hboth => hcond hboth.2, if_neg hcond]
  rcases hbyte with rfl | ⟨rfl, hlf⟩
  · rw [handleUserByte, if_neg (by decide), if_neg (by decide), if_pos rfl]
    exact hsubmit true
  · have hlf' : (atByte svc s nl).expectLf = false := hlf
    rw [handleUserByte, if_neg (by decide), if_neg (by decide), if_neg (by decide), if_pos rfl, hlf',
      if_neg Bool.false_ne_true]
    exact hsubmit false

end Honoured

/-- A command that ends the session does so, and nothing behind its line is read, exactly if the session is not at its login
prompt. -/
theorem session_end_iff (svc : ServiceCalls ω) (guest : Option (UserRecord × ℤ)) (around : Surroundings) (world : ω)
    (events : List (CoreEvent ω)) (now : ℤ) (before : Bytes) (b : UInt8) (after : Bytes)
    (htakes : TakesInput (coreRun svc (openCore guest around world) events) now)
    (hbefore : (handleInput (coreWork svc) now (coreRun svc (openCore guest around world) events) before).rc = .ok)
    (hline : EndsLine svc (handleInput (coreWork svc) now (coreRun svc (openCore guest around world) events) before).session b)
    (hend : lineResult svc
      (withHistory (atByte svc (handleInput (coreWork svc) now (coreRun svc (openCore guest around world) events) before).session b))
      (typedLine (atByte svc (handleInput (coreWork svc) now (coreRun svc (openCore guest around world) events) before).session b)) =
        some .sessionEnd) :
    ((handleInput (coreWork svc) now (coreRun svc (openCore guest around world) events) (before ++ b :: after)).rc = .sessionEnd ∧
      (handleInput (coreWork svc) now (coreRun svc (openCore guest around world) events) (before ++ b :: after)).handled =
        before ++ [b]) ↔
      (handleInput (coreWork svc) now (coreRun svc (openCore guest around world) events) before).session.loginPrompt = false := by
  generalize coreRun svc (openCore guest around world) events = s at *
  rw [takesInput_eq htakes] at hbefore hline hend ⊢
  rw [takesInput_eq htakes, handleBytes_append _ hbefore]
  generalize (handleBytes (coreWork svc) s before).session = t at hline hend ⊢
  have hbyte := endsLine_byte hline hend
  have htaken := hline.1
  dsimp only
  rw [handleBytes]
  rw [atByte] at hbyte
  generalize (coreWork svc).filterEscape t.rest b = r at htaken hbyte ⊢
  obtain ⟨taken, rest⟩ := r
  obtain rfl : taken = false := htaken
  dsimp only at hbyte ⊢
  generalize handleUserByte (coreWork svc) { t with rest := rest } b = r at hbyte ⊢
  obtain ⟨rc, t'⟩ := r
  dsimp only at hbyte
  by_cases hprompt : t.loginPrompt = false
  · rw [if_pos hprompt] at hbyte
    subst hbyte
    exact iff_of_true ⟨rfl, rfl⟩ hprompt
  · rw [if_neg hprompt] at hbyte
    subst hbyte
    refine iff_of_false ?_ hprompt
    rintro ⟨hrc, hhandled⟩
    have hnil : (handleBytes (coreWork svc) t' after).handled = [] := by
      simpa using List.append_cancel_left hhandled
    obtain rfl := handled_nil hnil
    cases hrc

section Example

def guestUser : UserRecord :=
  { UserRecord.zero with id := 9, level := .guest, username := .copy (ofString "guest1"), idFits := by decide }

theorem session_end_iff_guest :
    let s : CoreSession (List Bytes) :=
      coreRun plainService (openCore (some (guestUser, 0)) ⟨true, .main, 72, [], .ok⟩ []) []
    (handleInput (coreWork plainService) 0 s (ofString "/exit" ++ cr :: ofString "/mail\r")).rc = .sessionEnd ∧
      (handleInput (coreWork plainService) 0 s (ofString "/exit" ++ cr :: ofString "/mail\r")).handled =
        ofString "/exit" ++ [cr] :=
  (session_end_iff plainService (some (guestUser, 0)) ⟨true, .main, 72, [], .ok⟩ [] [] 0 (ofString "/exit") cr (ofString "/mail\r")
    ⟨by decide +kernel, by decide +kernel, by decide +kernel⟩ (by decide +kernel)
    ⟨by decide +kernel, by decide +kernel, by decide +kernel⟩ (by decide +kernel)).mpr (by decide +kernel)

/-- At the login prompt the command is allowed and says goodbye, and the next line is read all the same. -/
theorem exit_at_prompt :
    let typed := (handleInput (coreWork plainService) 0 newSession (ofString "/exit")).session
    let input := ofString "/exit" ++ cr :: ofString "/exit\r"
    TakesInput newSession 0 ∧ EndsLine plainService typed cr ∧
      lineResult plainService (withHistory (atByte plainService typed cr)) (typedLine (atByte plainService typed cr)) =
        some .sessionEnd ∧
      (handleInput (coreWork plainService) 0 newSession input).rc = .ok ∧
      (handleInput (coreWork plainService) 0 newSession input).handled = input := by
  refine ⟨⟨by decide +kernel, by decide +kernel, by decide +kernel⟩,
    ⟨by decide +kernel, by decide +kernel, by decide +kernel⟩,
    by decide +kernel, by decide +kernel, by decide +kernel⟩

end Example

end HyBBX.SessionCore

/-! What becomes of a session that is to be disconnected for its bandwidth. -/

namespace HyBBX.SessionCore

open HyBBX.Core Lib Lib.Bytes Lib.Text
open Command (ParsedCommand ConferenceInvite commandClassify commandParse)
open Session (InputSession LineWork acceptsInput guestExpired handleInput handleBytes handleUserByte submit sessionTick EchoResult
  Surroundings)
open Storage (UserRecord)

variable {ω : Type*} {svc : ServiceCalls ω} {s : CoreSession ω}

section Flag

lemma write_flag (s : CoreSession ω) (text : Bytes) : (write s text).bandwidthDisconnect = s.bandwidthDisconnect := by
  rw [write]
  split_ifs <;> rfl

lemma keeps_flag : KeepsAll svc fun s => s.bandwidthDisconnect = true where
  write text h := (write_flag _ text).trans h
  setDesk _ h := h
  setWorld _ h := h
  other cmd h := by
    rw [cmdOther]
    exact writes_keep (I := fun s => s.bandwidthDisconnect = true) (fun text h => (write_flag _ text).trans h) _ h
  switchUser user h := by
    rw [switchUser]
    split_ifs
    · exact h
    · split <;> exact h
  logout h := h

lemma submitLine_flag (h : s.bandwidthDisconnect = true) : (submitLine svc s).bandwidthDisconnect = true := by
  have hhistory : (withHistory s).bandwidthDisconnect = true := by
    rw [withHistory]
    split_ifs
    · exact (write_flag _ _).trans h
    · exact h
  have hline := (@keeps_flag ω svc).processLine hhistory (typedLine s)
  rw [submitLine]
  split_ifs
  · rw [showPrompt]
    split_ifs
    · exact hline
    · exact (write_flag _ _).trans hline
  · exact hline

lemma coreWork_flag : WorksAlike (coreWork svc) fun s s' => s' = s ∧ s.bandwidthDisconnect = true where
  flags := fun ⟨hs, _⟩ => hs ▸ ⟨rfl, rfl, rfl, rfl, rfl⟩
  expectLf _ := fun ⟨hs, h⟩ => ⟨hs ▸ rfl, h⟩
  filterEscape _ := fun ⟨hs, h⟩ => ⟨hs ▸ rfl, hs ▸ rfl, h⟩
  backspace := fun ⟨hs, h⟩ => ⟨hs ▸ rfl, hs ▸ rfl, h⟩
  insertChar _ := fun ⟨hs, h⟩ => ⟨hs ▸ rfl, hs ▸ rfl, h⟩
  echoNewline := fun ⟨hs, _⟩ => hs ▸ rfl
  submitLine := fun ⟨hs, h⟩ => ⟨hs ▸ rfl, submitLine_flag h⟩

lemma coreStep_flag (event : CoreEvent ω) (h : s.bandwidthDisconnect = true) :
    (coreStep svc s event).bandwidthDisconnect = true := by
  cases event with
  | input now data => exact (handleInput_alike coreWork_flag now data ⟨rfl, h⟩).2.2
  | disconnectBandwidth =>
    rw [coreStep, disconnectBandwidth]
    split_ifs
    · exact h
    · rfl
  | switchUser user => exact keeps_flag.switchUser user h
  | _ => exact h

lemma coreRun_flag (events : List (CoreEvent ω)) {s : CoreSession ω} (h : s.bandwidthDisconnect = true) :
    (coreRun svc s events).bandwidthDisconnect = true := by
  induction events generalizing s with
  | nil => exact h
  | cons event events ih => exact ih (coreStep_flag event h)

end Flag

/-- The calls that are to close a session. -/
inductive CoreCall
  | input (now : ℤ) (data : Bytes)
  | tick (now : ℤ)

variable (svc s)

def RunsLine (now : ℤ) (data : Bytes) : Prop :=
  ∃ before b, before ++ [b] <+: (handleInput (coreWork svc) now s data).handled ∧
    EndsLine svc (handleBytes (coreWork svc) s before).session b

/-- The call ends the session, and executes no line. -/
def CallCloses : CoreCall → Prop
  | .input now data => (handleInput (coreWork svc) now s data).rc = .sessionEnd ∧ ¬RunsLine svc s now data
  | .tick now => sessionTick now s = .sessionEnd

def ClosingCall : CoreCall → Prop
  | .input now _ => s.loggedIn = true ∧ s.bandwidthPaused = false ∧ guestExpired s now = true
  | .tick _ => s.loggedIn = true

variable {svc s}

lemma submit_line {expectLf : Bool} (h : (submit (coreWork svc) s expectLf).1 = .sessionEnd) :
    (coreWork svc).echoNewline s.rest = .ok := by
  rw [submit] at h
  cases hecho : (coreWork svc).echoNewline s.rest with
  | ok => rfl
  | errInvalid =>
    rw [hecho] at h
    cases h
  | errIo =>
    rw [hecho] at h
    cases h

lemma handleUserByte_line {b : UInt8} (h : (handleUserByte (coreWork svc) s b).1 = .sessionEnd) :
    (b = cr ∨ b = nl ∧ s.expectLf = false) ∧ (coreWork svc).echoNewline s.rest = .ok := by
  rw [handleUserByte] at h
  split_ifs at h with h0 hback hcr hnl hlf
  · exact absurd h (EchoResult.toResult_ne_end _)
  · exact ⟨.inl hcr, submit_line h⟩
  · exact ⟨.inr ⟨hnl, Bool.eq_false_iff.mpr hlf⟩, submit_line h⟩
  · exact absurd h (EchoResult.toResult_ne_end _)

/-- Bytes that end the session have a line end among them. -/
lemma handleBytes_line {data : Bytes} {s : CoreSession ω} (h : (handleBytes (coreWork svc) s data).rc = .sessionEnd) :
    ∃ before b, before ++ [b] <+: (handleBytes (coreWork svc) s data).handled ∧
      EndsLine svc (handleBytes (coreWork svc) s before).session b := by
  induction data generalizing s with
  | nil => cases h
  | cons byte bytes ih =>
    have hcons : ∀ rest before, (coreWork svc).filterEscape s.rest byte = (true, rest) →
        (handleBytes (coreWork svc) s (byte :: before)).session =
            (handleBytes (coreWork svc) { s with rest := rest } before).session := by
      intro rest before hfilter
      rw [handleBytes, hfilter]
    cases hfilter : (coreWork svc).filterEscape s.rest byte with
    | mk taken rest =>
      rw [handleBytes, hfilter] at h ⊢
      cases taken with
      | true =>
        obtain ⟨before, b, hprefix, hends⟩ := ih h
        refine ⟨byte :: before, b, (List.cons_prefix_cons.mpr ⟨rfl, hprefix⟩), ?_⟩
        rwa [hcons rest before hfilter]
      | false =>
        have hline := @handleUserByte_line ω svc { s with rest := rest } byte
        dsimp only at h ⊢
        cases huser : handleUserByte (coreWork svc) { s with rest := rest } byte with
        | mk rc s' =>
          rw [huser] at h hline
          cases rc with
          | ok =>
            obtain ⟨before, b, hprefix, hends⟩ := ih h
            refine ⟨byte :: before, b, (List.cons_prefix_cons.mpr ⟨rfl, hprefix⟩), ?_⟩
            rw [handleBytes, hfilter]
            dsimp only
            rw [huser]
            exact hends
          | sessionEnd =>
            obtain ⟨hbyte, hecho⟩ := hline rfl
            refine ⟨[], byte, List.prefix_rfl, ?_⟩
            rw [EndsLine, atByte]
            change ((coreWork svc).filterEscape s.rest byte).1 = false ∧ _ ∧
              (coreWork svc).echoNewline ((coreWork svc).filterEscape s.rest byte).2 = .ok
            rw [hfilter]
            exact ⟨rfl, hbyte, hecho⟩
          | _ => cases h

/-- A session that is to be disconnected is closed by the tick, and by input only if the time of a guest is over as well. -/
theorem bandwidth_final_iff (svc : ServiceCalls ω) (guest : Option (UserRecord × ℤ)) (around : Surroundings) (world : ω)
    (events between : List (CoreEvent ω)) (call : CoreCall)
    (hflag : (coreRun svc (openCore guest around world) events).bandwidthDisconnect = true) :
    CallCloses svc (coreRun svc (coreRun svc (openCore guest around world) events) between) call ↔
      ClosingCall (coreRun svc (coreRun svc (openCore guest around world) events) between) call := by
  have hstill := @coreRun_flag ω svc between _ hflag
  generalize coreRun svc (coreRun svc (openCore guest around world) events) between = s at hstill ⊢
  cases call with
  | tick now =>
    rw [CallCloses, ClosingCall, sessionTick]
    by_cases hlogged : s.loggedIn = true
    · rw [if_neg (by simp [hlogged]), if_pos hstill]
      exact iff_of_true rfl hlogged
    · rw [if_pos (Bool.eq_false_iff.mpr hlogged)]
      exact iff_of_false (fun h => by cases h) hlogged
  | input now data =>
    have hlines := @handleBytes_line ω svc data s
    rw [CallCloses, ClosingCall, RunsLine, handleInput]
    by_cases haccepts : acceptsInput s = false
    · rw [if_pos haccepts]
      refine iff_of_false (fun h => by cases h.1) fun h => ?_
      rw [acceptsInput, h.1] at haccepts
      cases haccepts
    rw [if_neg haccepts]
    by_cases hpaused : s.bandwidthPaused = true
    · rw [if_pos hpaused]
      exact iff_of_false (fun h => by cases h.1) fun h => absurd hpaused (Bool.eq_false_iff.mp h.2.1)
    rw [if_neg hpaused]
    by_cases htime : (s.loggedIn && guestExpired s now) = true
    · rw [if_pos htime]
      obtain ⟨hlogged, hexpired⟩ := Bool.and_eq_true_iff.mp htime
      refine iff_of_true ⟨rfl, ?_⟩ ⟨hlogged, Bool.eq_false_iff.mpr hpaused, hexpired⟩
      rintro ⟨before, b, hprefix, -⟩
      simpa using hprefix.length_le
    · rw [if_neg htime]
      refine iff_of_false (fun h => h.2 (hlines h.1)) fun h => htime ?_
      rw [h.1, h.2.2]
      rfl

section Example

def marked : CoreSession (List Bytes) :=
  coreRun plainService (openCore (some (guestUser, 0)) ⟨true, .main, 72, [], .ok⟩ []) [.disconnectBandwidth]

theorem bandwidth_final_iff_tick : CallCloses plainService (coreRun plainService marked [.setBandwidthPaused true])
    (.tick 0) :=
  (bandwidth_final_iff plainService (some (guestUser, 0)) ⟨true, .main, 72, [], .ok⟩ [] [.disconnectBandwidth]
    [.setBandwidthPaused true] (.tick 0) (by decide +kernel)).mpr (by
      change (coreRun plainService marked [.setBandwidthPaused true]).loggedIn = true
      decide +kernel)

/-- The next line is executed, and the session goes on. -/
theorem marked_goes_on :
    marked.bandwidthDisconnect = true ∧
      (handleInput (coreWork plainService) 0 marked (ofString "/leave\r")).rc = .ok ∧
      RunsLine plainService marked 0 (ofString "/leave\r") ∧
      ¬CallCloses plainService marked (.input 0 (ofString "/leave\r")) := by
  have hok : (handleInput (coreWork plainService) 0 marked (ofString "/leave\r")).rc = .ok := by decide +kernel
  refine ⟨by decide +kernel, hok, ⟨ofString "/leave", cr, by decide +kernel, by decide +kernel, by decide +kernel, by decide +kernel⟩,
    fun h => ?_⟩
  cases h.1.symm.trans hok

end Example

end HyBBX.SessionCore
