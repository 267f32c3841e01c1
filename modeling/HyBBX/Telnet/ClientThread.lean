import HyBBX.Session.Input
import HyBBX.Telnet.Parser

/-! The thread of a telnet client: received bytes go through the parser to the session, until the session ends. -/

namespace HyBBX.Telnet

open HyBBX.Core HyBBX.Session Lib Lib.Bytes Lib.Text

variable {κ : Type*}

/-- The parser and the session of a client, the last result of the session that was not OK, and whether the thread is
still in its loop. -/
structure Connection (κ : Type*) where
  parser : TelnetParser
  session : InputSession κ
  lastRc : HybbxResult
  inLoop : Bool
  deriving DecidableEq

/-- A byte of a `recv`, the clock when it is handled, and whether a reply that it provokes can be sent. -/
structure Received where
  byte : UInt8
  now : ℤ
  sendOk : Bool

/-- A call of the session's input handler: its result and the bytes it took as input. -/
structure InputCall where
  rc : HybbxResult
  handled : Bytes
  deriving DecidableEq, Repr

inductive LoopEvent
  | timeout (now : ℤ)
  | received (data : List Received)
  -- an error, a hang-up, the end of the stream, or a stop of the listener
  | gone
  | again
  -- the bandwidth flags, as other threads set them
  | flow (paused disconnect : Bool)

section Thread

variable (work : LineWork κ)

def telnetOnUserData (c : Connection κ) (now : ℤ) (byte : UInt8) : Connection κ × InputCall :=
  let r := handleInput work now c.session [byte]
  ({ c with session := r.session, lastRc := if r.rc = .ok then c.lastRc else r.rc }, ⟨r.rc, r.handled⟩)

def parserFeed : Connection κ → List Received → HybbxResult × Connection κ × List InputCall
  | c, [] => (.ok, c, [])
  | c, r :: rs =>
    let p := parserStep c.parser r.byte
    match p.2 with
    | [.user byte] =>
      let called := telnetOnUserData work { c with parser := p.1 } r.now byte
      let fed := parserFeed called.1 rs
      (fed.1, fed.2.1, called.2 :: fed.2.2)
    | [.reply _] => if r.sendOk then parserFeed { c with parser := p.1 } rs else (.errIo, c, [])
    | _ => parserFeed { c with parser := p.1 } rs

/-- One round of the loop. A connection that is out of it is closed. -/
def threadStep (c : Connection κ) (ev : LoopEvent) : Connection κ × List InputCall :=
  if c.inLoop = false then (c, [])
  else match ev with
  | .timeout now =>
    if sessionTick now c.session = .sessionEnd then ({ c with lastRc := .sessionEnd, inLoop := false }, []) else (c, [])
  | .received data =>
    let fed := parserFeed work c data
    ({ fed.2.1 with inLoop := fed.1 = .ok && fed.2.1.lastRc ≠ .sessionEnd }, fed.2.2)
  | .gone => ({ c with inLoop := false }, [])
  | .again => (c, [])
  | .flow paused disconnect =>
    ({ c with session := { c.session with bandwidthPaused := paused, bandwidthDisconnect := disconnect } }, [])

end Thread

section Condition

variable (work : LineWork κ)

/-- Whether received bytes provoke a reply that cannot be sent, which stops the parser. -/
def replyFails : TelnetParser → List Received → Bool
  | _, [] => false
  | p, r :: rs =>
    match (parserStep p r.byte).2 with
    | [.reply _] => if r.sendOk then replyFails (parserStep p r.byte).1 rs else true
    | _ => replyFails (parserStep p r.byte).1 rs

/-- The clock readings at the user bytes that the parser comes to. -/
def userTimes : TelnetParser → List Received → List ℤ
  | _, [] => []
  | p, r :: rs =>
    match (parserStep p r.byte).2 with
    | [.user _] => r.now :: userTimes (parserStep p r.byte).1 rs
    | [.reply _] => if r.sendOk then userTimes (parserStep p r.byte).1 rs else []
    | _ => userTimes (parserStep p r.byte).1 rs

/-- Where a session ends within received bytes: the connection right behind that call, and the bytes that are left. -/
def endPoint : Connection κ → List Received → Option (Connection κ × List Received)
  | _, [] => none
  | c, r :: rs =>
    let p := parserStep c.parser r.byte
    match p.2 with
    | [.user byte] =>
      let called := telnetOnUserData work { c with parser := p.1 } r.now byte
      if called.2.rc = .sessionEnd then some (called.1, rs) else endPoint called.1 rs
    | [.reply _] => if r.sendOk then endPoint { c with parser := p.1 } rs else none
    | _ => endPoint { c with parser := p.1 } rs

/-- No user byte follows the end of a session in the same `recv`, unless a reply fails that it asks for; behind the end
of a guest's time any may follow, as long as the clock does not go back. -/
def SafeRest (c : Connection κ) (rest : List Received) : Prop :=
  if acceptsInput c.session then ∀ now ∈ userTimes c.parser rest, guestExpired c.session now = true
  else userTimes c.parser rest = [] ∨ replyFails c.parser rest = true

def EndsAlone (c : Connection κ) : LoopEvent → Prop
  | .received data => c.inLoop = true → ∀ c' rest, endPoint work c data = some (c', rest) → SafeRest c' rest
  | _ => True

/-- Behind the end of the session no byte is taken as input, the thread leaves its loop, and is done. -/
def EndCloses (c : Connection κ) (ev : LoopEvent) : Prop :=
  match ev with
  | .received data => c.inLoop = true →
    (parserFeed work c data).2.2.Pairwise (fun a b => a.rc = .sessionEnd → b.handled = []) ∧
      ((∃ call ∈ (parserFeed work c data).2.2, call.rc = .sessionEnd) →
        (threadStep work c ev).1.inLoop = false ∧
          ∀ later, (Transducer.run (threadStep work) (threadStep work c ev).1 later).2 = [])
  | _ => True

end Condition

section Feed

variable {work : LineWork κ}

lemma parserStep_outs (p : TelnetParser) (byte : UInt8) : (parserStep p byte).2 = [] ∨
    (∃ b, (parserStep p byte).2 = [.user b]) ∨ ∃ a, (parserStep p byte).2 = [.reply a] := by
  rw [parserStep]
  cases p.state with
  | data => split_ifs <;> simp
  | iac => split_ifs <;> simp
  | cmd =>
    dsimp only
    rw [replyTo]
    split_ifs <;> simp
  | subneg => split_ifs <;> simp
  | subnegIac => simp

/-- A session that takes no input any more refuses every byte, and its last result with it. -/
lemma feed_refused (rs : List Received) {c : Connection κ} (h : acceptsInput c.session = false) :
    (∀ call ∈ (parserFeed work c rs).2.2, call.handled = []) ∧
      (parserFeed work c rs).1 = (if replyFails c.parser rs then .errIo else .ok) ∧
      (parserFeed work c rs).2.1.lastRc = if userTimes c.parser rs = [] then c.lastRc else .errInvalid := by
  induction rs generalizing c with
  | nil => exact ⟨by simp [parserFeed], rfl, rfl⟩
  | cons r rs ih =>
    rcases parserStep_outs c.parser r.byte with hout | ⟨b, hout⟩ | ⟨a, hout⟩
    · simp only [parserFeed, replyFails, userTimes, hout]
      exact @ih { c with parser := (parserStep c.parser r.byte).1 } h
    · have hcall : telnetOnUserData work { c with parser := (parserStep c.parser r.byte).1 } r.now b =
          ({ c with parser := (parserStep c.parser r.byte).1, lastRc := .errInvalid }, ⟨.errInvalid, []⟩) := by
        rw [telnetOnUserData, handleInput, if_pos h]
        rfl
      obtain ⟨hcalls, hrc, hlast⟩ :=
        @ih { c with parser := (parserStep c.parser r.byte).1, lastRc := .errInvalid } h
      simp only [parserFeed, replyFails, userTimes, hout, hcall]
      refine ⟨List.forall_mem_cons.mpr ⟨rfl, hcalls⟩, hrc, ?_⟩
      rw [hlast, if_neg (List.cons_ne_nil _ _)]
      split_ifs <;> rfl
    · simp only [parserFeed, replyFails, userTimes, hout]
      by_cases hs : r.sendOk = true
      · rw [if_pos hs, if_pos hs, if_pos hs]
        exact @ih { c with parser := (parserStep c.parser r.byte).1 } h
      · rw [if_neg hs, if_neg hs, if_neg hs]
        exact ⟨by simp, rfl, rfl⟩

lemma handled_ne_nil (s : InputSession κ) (byte : UInt8) : (handleBytes work s [byte]).handled ≠ [] := by
  rw [handleBytes]
  obtain ⟨taken, rest⟩ := work.filterEscape s.rest byte
  cases taken with
  | true => exact List.cons_ne_nil _ _
  | false =>
    dsimp only
    cases handleUserByte work { s with rest := rest } byte with
    | mk rc s' => cases rc <;> exact List.cons_ne_nil _ _

/-- Behind the end of a guest's time no byte is taken exactly if none comes before that time. -/
lemma feed_expired (rs : List Received) {c : Connection κ} (hin : c.session.loggedIn = true)
    (hpaused : c.session.bandwidthPaused = false) (hlast : c.lastRc = .sessionEnd) :
    ((∀ call ∈ (parserFeed work c rs).2.2, call.handled = []) ↔
      ∀ now ∈ userTimes c.parser rs, guestExpired c.session now = true) ∧
      ((∀ now ∈ userTimes c.parser rs, guestExpired c.session now = true) →
        (parserFeed work c rs).2.1.lastRc = .sessionEnd) := by
  induction rs generalizing c with
  | nil => exact ⟨by simp [parserFeed, userTimes], fun _ => hlast⟩
  | cons r rs ih =>
    rcases parserStep_outs c.parser r.byte with hout | ⟨b, hout⟩ | ⟨a, hout⟩
    · simp only [parserFeed, userTimes, hout]
      exact @ih { c with parser := (parserStep c.parser r.byte).1 } hin hpaused hlast
    · have hacc : acceptsInput c.session = true := by rw [acceptsInput, hin, Bool.true_or]
      simp only [parserFeed, userTimes, hout, List.forall_mem_cons]
      by_cases hexp : guestExpired c.session r.now = true
      · have hcall : telnetOnUserData work { c with parser := (parserStep c.parser r.byte).1 } r.now b =
            ({ c with parser := (parserStep c.parser r.byte).1 }, ⟨.sessionEnd, []⟩) := by
          rw [telnetOnUserData, handleInput]
          simp [hacc, hpaused, hin, hexp, hlast]
        obtain ⟨hiff, hend⟩ := @ih { c with parser := (parserStep c.parser r.byte).1 } hin hpaused hlast
        rw [hcall, hiff]
        exact ⟨⟨fun h => ⟨hexp, h.2⟩, fun h => ⟨rfl, h.2⟩⟩, fun h => hend h.2⟩
      · have hcall : (telnetOnUserData work { c with parser := (parserStep c.parser r.byte).1 } r.now b).2.handled ≠ [] := by
          rw [telnetOnUserData, handleInput]
          simp only [hacc, hpaused, hin, Bool.true_and, hexp]
          exact handled_ne_nil _ _
        exact ⟨iff_of_false (fun h => hcall h.1) (fun h => hexp h.1), fun h => absurd h.1 hexp⟩
    · simp only [parserFeed, userTimes, hout]
      by_cases hs : r.sendOk = true
      · rw [if_pos hs, if_pos hs]
        exact @ih { c with parser := (parserStep c.parser r.byte).1 } hin hpaused hlast
      · rw [if_neg hs, if_neg hs]
        exact ⟨by simp, fun _ => hlast⟩

/-- Up to the end of a session, and behind it. -/
lemma feed_endPoint (rs : List Received) {c : Connection κ} :
    (endPoint work c rs = none → ∀ call ∈ (parserFeed work c rs).2.2, call.rc ≠ .sessionEnd) ∧
      ∀ c' rest, endPoint work c rs = some (c', rest) → ∃ pre last,
        (parserFeed work c rs).2.2 = pre ++ last :: (parserFeed work c' rest).2.2 ∧
        (∀ call ∈ pre, call.rc ≠ .sessionEnd) ∧ last.rc = .sessionEnd ∧
        (parserFeed work c rs).1 = (parserFeed work c' rest).1 ∧
        (parserFeed work c rs).2.1 = (parserFeed work c' rest).2.1 ∧ c'.lastRc = .sessionEnd ∧
        (acceptsInput c'.session = false ∨ c'.session.loggedIn = true ∧ c'.session.bandwidthPaused = false) := by
  induction rs generalizing c with
  | nil => exact ⟨fun _ => by simp [parserFeed], fun c' rest h => by cases h⟩
  | cons r rs ih =>
    rcases parserStep_outs c.parser r.byte with hout | ⟨b, hout⟩ | ⟨a, hout⟩
    · simp only [parserFeed, endPoint, hout]
      exact ih
    · simp only [parserFeed, endPoint, hout]
      set called := telnetOnUserData work { c with parser := (parserStep c.parser r.byte).1 } r.now b with hcalled
      by_cases hend : called.2.rc = .sessionEnd
      · rw [if_pos hend]
        refine ⟨fun h => (nomatch h), fun c' rest h => ?_⟩
        obtain ⟨rfl, rfl⟩ := Prod.mk.inj (Option.some.inj h)
        have hrc : (handleInput work r.now c.session [b]).rc = .sessionEnd := hend
        refine ⟨[], called.2, rfl, by simp, hend, rfl, rfl, ?_, ?_⟩
        · rw [hcalled, telnetOnUserData]
          dsimp only
          rw [hrc, if_neg (by decide)]
        · rcases handleInput_end hrc with hno | ⟨hsame, hin, hpaused, -⟩
          · exact .inl hno
          · refine .inr ?_
            have hs : called.1.session = c.session := hsame
            rw [hs]
            exact ⟨hin, hpaused⟩
      · rw [if_neg hend]
        obtain ⟨hnone, hsome⟩ := @ih called.1
        refine ⟨fun h => List.forall_mem_cons.mpr ⟨hend, hnone h⟩, fun c' rest h => ?_⟩
        obtain ⟨pre, last, hcalls, hpre, hrest⟩ := hsome c' rest h
        exact ⟨called.2 :: pre, last, by rw [hcalls]; rfl, List.forall_mem_cons.mpr ⟨hend, hpre⟩, hrest⟩
    · simp only [parserFeed, endPoint, hout]
      by_cases hs : r.sendOk = true
      · rw [if_pos hs, if_pos hs]
        exact ih
      · rw [if_neg hs, if_neg hs]
        exact ⟨fun _ => by simp, fun c' rest h => by cases h⟩

end Feed

section Run

variable {work : LineWork κ}

lemma run_closed (evs : List LoopEvent) {c : Connection κ} (h : c.inLoop = false) :
    (Transducer.run (threadStep work) c evs).2 = [] := by
  have hstep : ∀ ev, threadStep work c ev = (c, []) := fun ev => if_pos h
  induction evs with
  | nil => rfl
  | cons ev evs ih => rw [Transducer.run_cons, hstep, ih, List.append_nil]

lemma pairwise_end {pre tail : List InputCall} {last : InputCall} (hpre : ∀ call ∈ pre, call.rc ≠ .sessionEnd)
    (hlast : last.rc = .sessionEnd) :
    (pre ++ last :: tail).Pairwise (fun a b => a.rc = .sessionEnd → b.handled = []) ↔
      ∀ call ∈ tail, call.handled = [] := by
  rw [List.pairwise_append, List.pairwise_cons]
  constructor
  · rintro ⟨-, ⟨h, -⟩, -⟩ call hcall
    exact h call hcall hlast
  · intro h
    refine ⟨?_, ⟨fun call hcall _ => h call hcall, ?_⟩, fun call hcall _ _ hend => absurd hend (hpre call hcall)⟩
    · exact List.pairwise_iff_forall_sublist.mpr fun hsub hend => absurd hend (hpre _ (hsub.subset List.mem_cons_self))
    · exact List.pairwise_iff_forall_sublist.mpr fun hsub _ => h _ (hsub.subset (by simp))

/-- What the rest of the bytes does to a thread whose session has ended. -/
lemma rest_closes_iff {c : Connection κ} (rest : List Received) (hlast : c.lastRc = .sessionEnd)
    (hkind : acceptsInput c.session = false ∨ c.session.loggedIn = true ∧ c.session.bandwidthPaused = false) :
    ((∀ call ∈ (parserFeed work c rest).2.2, call.handled = []) ∧
      ¬((parserFeed work c rest).1 = .ok ∧ (parserFeed work c rest).2.1.lastRc ≠ .sessionEnd)) ↔ SafeRest c rest := by
  rw [SafeRest]
  rcases hkind with hno | ⟨hin, hpaused⟩
  · obtain ⟨hcalls, hrc, hend⟩ := @feed_refused κ work rest c hno
    rw [hno, if_neg Bool.false_ne_true, and_iff_right hcalls, hrc, hend]
    by_cases hfails : replyFails c.parser rest = true
    · simp [hfails]
    · by_cases hnone : userTimes c.parser rest = []
      · simp [hnone, hlast]
      · simp [hfails, hnone]
  · have hacc : acceptsInput c.session = true := by rw [acceptsInput, hin, Bool.true_or]
    obtain ⟨hiff, hend⟩ := @feed_expired κ work rest c hin hpaused hlast
    rw [hacc, if_pos rfl, hiff]
    exact ⟨And.left, fun h => ⟨h, fun hno => hno.2 (hend h)⟩⟩

lemma endCloses_iff (c : Connection κ) (ev : LoopEvent) : EndCloses work c ev ↔ EndsAlone work c ev := by
  cases ev with
  | timeout now => exact Iff.rfl
  | gone => exact Iff.rfl
  | again => exact Iff.rfl
  | flow paused disconnect => exact Iff.rfl
  | received data =>
    rw [EndCloses, EndsAlone]
    refine forall_congr' fun hin => ?_
    have hloop : (threadStep work c (.received data)).1.inLoop =
        decide ((parserFeed work c data).1 = .ok ∧ (parserFeed work c data).2.1.lastRc ≠ .sessionEnd) := by
      rw [threadStep, if_neg (by simp [hin])]
      simp
    obtain ⟨hnone, hsome⟩ := @feed_endPoint κ work data c
    cases hpoint : endPoint work c data with
    | none =>
      have hcalls := hnone hpoint
      refine iff_of_true ⟨?_, ?_⟩ fun c' rest h => (nomatch h)
      · exact List.pairwise_iff_forall_sublist.mpr fun hsub hend =>
          absurd hend (hcalls _ (hsub.subset List.mem_cons_self))
      · rintro ⟨call, hmem, hend⟩
        exact absurd hend (hcalls call hmem)
    | some point =>
      obtain ⟨c', rest⟩ := point
      obtain ⟨pre, last, hcalls, hpre, hlast, hrc, hfinal, hc', hkind⟩ := hsome c' rest hpoint
      have hrest := @rest_closes_iff κ work c' rest hc' hkind
      have hends : ∃ call ∈ (parserFeed work c data).2.2, call.rc = .sessionEnd := ⟨last, by rw [hcalls]; simp, hlast⟩
      rw [hloop, hrc, hfinal, hcalls, pairwise_end hpre hlast, decide_eq_false_iff_not]
      constructor
      · rintro ⟨hquiet, hclose⟩ c'' rest'' h
        obtain ⟨rfl, rfl⟩ := Prod.mk.inj (Option.some.inj h)
        rw [hcalls] at hends
        exact hrest.mp ⟨hquiet, (hclose hends).1⟩
      · intro h
        obtain ⟨hquiet, hclosed⟩ := hrest.mpr (h c' rest rfl)
        refine ⟨hquiet, fun _ => ⟨hclosed, fun later => run_closed later ?_⟩⟩
        rw [hloop, hrc, hfinal, decide_eq_false_iff_not]
        exact hclosed

lemma along_iff {P Q : Connection κ → LoopEvent → Prop} (h : ∀ c ev, P c ev ↔ Q c ev) (evs : List LoopEvent)
    (c : Connection κ) : Transducer.Along (threadStep work) P c evs ↔ Transducer.Along (threadStep work) Q c evs :=
  ⟨Transducer.along_mono _ fun c ev => (h c ev).mp, Transducer.along_mono _ fun c ev => (h c ev).mpr⟩

end Run

/-- The end of a session closes the connection, all along a run, exactly if it always comes alone. -/
theorem session_end_closes_iff (work : LineWork κ) (c : Connection κ) (evs : List LoopEvent) :
    Transducer.Along (threadStep work) (EndCloses work) c evs ↔
      Transducer.Along (threadStep work) (EndsAlone work) c evs :=
  along_iff endCloses_iff evs c

/-- A line typed without echo, with one command. -/
def plainLine : LineWork Bytes where
  filterEscape line _ := (false, line)
  backspace line := (.ok, line.dropLast)
  insertChar line byte := (.ok, line ++ [byte])
  echoNewline _ := .ok
  submitLine s := { s with loggedIn := s.loggedIn && s.rest ≠ ofString "/exit", rest := [] }

def loggedInSession : InputSession Bytes := ⟨true, false, false, false, 0, false, []⟩

def connected : Connection Bytes := ⟨telnetParserInit, loggedInSession, .ok, true⟩

def typed (text : Bytes) : LoopEvent := .received (text.map fun byte => ⟨byte, 0, true⟩)

/-- The line feed behind the carriage return keeps the connection open. -/
theorem exit_crlf_stays_open : (threadStep plainLine connected (typed (ofString "/exit\r\n"))).1.inLoop = true ∧
    ¬Transducer.Along (threadStep plainLine) (EndCloses plainLine) connected [typed (ofString "/exit\r\n")] := by
  have hopen : (threadStep plainLine connected (typed (ofString "/exit\r\n"))).1.inLoop = true := by decide
  refine ⟨hopen, fun h => ?_⟩
  have hclosed := ((h.1 rfl).2 ⟨⟨.sessionEnd, [cr]⟩, by decide, rfl⟩).1
  rw [hopen] at hclosed
  exact Bool.false_ne_true hclosed.symm

end HyBBX.Telnet
