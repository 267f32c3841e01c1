import HyBBX.Core.Types
import HyBBX.Lib.Text

/-! How a session takes input bytes: who may type at all, what a byte does, and when the session is at its end. -/

namespace HyBBX.Session

open HyBBX.Core Lib Lib.Bytes Lib.Text

/-- What decides over input; `κ` is all the rest: the line, its history, the areas, the user. -/
structure InputSession (κ : Type*) where
  loggedIn : Bool
  loginPrompt : Bool
  bandwidthPaused : Bool
  bandwidthDisconnect : Bool
  guestExpiresAt : ℤ
  expectLf : Bool
  rest : κ
  deriving DecidableEq

/-- How an echo ends. -/
inductive EchoResult
  | ok
  | errInvalid
  | errIo
  deriving DecidableEq, Repr

def EchoResult.toResult : EchoResult → HybbxResult
  | .ok => .ok
  | .errInvalid => .errInvalid
  | .errIo => .errIo

/-- The line editor, and what a submitted line does to the session. -/
structure LineWork (κ : Type*) where
  filterEscape : κ → UInt8 → Bool × κ
  backspace : κ → EchoResult × κ
  insertChar : κ → UInt8 → EchoResult × κ
  echoNewline : κ → EchoResult
  submitLine : InputSession κ → InputSession κ

/-- What a call returns, the session after it, and the bytes that were taken as input. -/
structure InputResult (κ : Type*) where
  rc : HybbxResult
  session : InputSession κ
  handled : Bytes

variable {κ : Type*}

def acceptsInput (s : InputSession κ) : Bool := s.loggedIn || s.loginPrompt

/-- Whether the time of a guest is over. -/
def guestExpired (s : InputSession κ) (now : ℤ) : Bool := s.guestExpiresAt ≠ 0 && s.guestExpiresAt ≤ now

section Bytes

variable (work : LineWork κ)

def submit (s : InputSession κ) (expectLf : Bool) : HybbxResult × InputSession κ :=
  match work.echoNewline s.rest with
  | .ok =>
    let s := work.submitLine s
    if s.loggedIn = false ∧ s.loginPrompt = false then (.sessionEnd, s)
    else (.ok, if expectLf then { s with expectLf := true } else s)
  | rc => (rc.toResult, s)

def handleUserByte (s : InputSession κ) (byte : UInt8) : HybbxResult × InputSession κ :=
  if byte = 0 then (.ok, s)
  else if byte = 0x08 ∨ byte = 0x7F then
    let r := work.backspace s.rest
    (r.1.toResult, { s with rest := r.2 })
  else if byte = cr then submit work s true
  else if byte = nl then
    if s.expectLf then (.ok, { s with expectLf := false }) else submit work s false
  else
    let r := work.insertChar s.rest byte
    (r.1.toResult, { s with expectLf := false, rest := r.2 })

def handleBytes : InputSession κ → Bytes → InputResult κ
  | s, [] => ⟨.ok, s, []⟩
  | s, byte :: bytes =>
    match work.filterEscape s.rest byte with
    | (true, rest) =>
      let r := handleBytes { s with rest := rest } bytes
      { r with handled := byte :: r.handled }
    | (false, rest) =>
      match handleUserByte work { s with rest := rest } byte with
      | (.ok, s) =>
        let r := handleBytes s bytes
        { r with handled := byte :: r.handled }
      | (rc, s) => ⟨rc, s, [byte]⟩

/-- `hybbx_session_handle_input` -/
def handleInput (now : ℤ) (s : InputSession κ) (data : Bytes) : InputResult κ :=
  if acceptsInput s = false then ⟨.errInvalid, s, []⟩
  else if s.bandwidthPaused then ⟨.ok, s, []⟩
  else if s.loggedIn && guestExpired s now then ⟨.sessionEnd, s, []⟩
  else handleBytes work s data

/-- `hybbx_session_tick` -/
def sessionTick (now : ℤ) (s : InputSession κ) : HybbxResult :=
  if s.loggedIn = false then .errInvalid
  else if s.bandwidthDisconnect then .sessionEnd
  else if guestExpired s now then .sessionEnd
  else .ok

end Bytes

section End

variable {work : LineWork κ}

lemma EchoResult.toResult_ne_end (r : EchoResult) : r.toResult ≠ .sessionEnd := by
  cases r <;> decide

lemma submit_end {s : InputSession κ} {expectLf : Bool} (h : (submit work s expectLf).1 = .sessionEnd) :
    acceptsInput (submit work s expectLf).2 = false := by
  rw [submit] at h ⊢
  cases he : work.echoNewline s.rest with
  | ok =>
    rw [he] at h
    dsimp only at h ⊢
    by_cases hout : (work.submitLine s).loggedIn = false ∧ (work.submitLine s).loginPrompt = false
    · rw [if_pos hout, acceptsInput, hout.1, hout.2]
      rfl
    · rw [if_neg hout] at h
      cases h
  | errInvalid =>
    rw [he] at h
    cases h
  | errIo =>
    rw [he] at h
    cases h

lemma handleUserByte_end {s : InputSession κ} {byte : UInt8} (h : (handleUserByte work s byte).1 = .sessionEnd) :
    acceptsInput (handleUserByte work s byte).2 = false := by
  unfold handleUserByte at h ⊢
  by_cases h0 : byte = 0
  · rw [if_pos h0] at h
    cases h
  rw [if_neg h0] at h ⊢
  by_cases hback : byte = 0x08 ∨ byte = 0x7F
  · rw [if_pos hback] at h
    exact absurd h (EchoResult.toResult_ne_end _)
  rw [if_neg hback] at h ⊢
  by_cases hcr : byte = cr
  · rw [if_pos hcr] at h ⊢
    exact submit_end h
  rw [if_neg hcr] at h ⊢
  by_cases hnl : byte = nl
  · rw [if_pos hnl] at h ⊢
    by_cases hlf : s.expectLf = true
    · rw [if_pos hlf] at h
      cases h
    · rw [if_neg hlf] at h ⊢
      exact submit_end h
  · rw [if_neg hnl] at h
    exact absurd h (EchoResult.toResult_ne_end _)

/-- A session ends because it takes no input any more, or because the time of a guest is over. -/
lemma handleInput_end {now : ℤ} {s : InputSession κ} {byte : UInt8}
    (h : (handleInput work now s [byte]).rc = .sessionEnd) :
    acceptsInput (handleInput work now s [byte]).session = false ∨
      ((handleInput work now s [byte]).session = s ∧ s.loggedIn = true ∧ s.bandwidthPaused = false ∧
        (handleInput work now s [byte]).handled = []) := by
  unfold handleInput at h ⊢
  by_cases hacc : acceptsInput s = false
  · rw [if_pos hacc] at h
    cases h
  rw [if_neg hacc] at h ⊢
  by_cases hp : s.bandwidthPaused = true
  · rw [if_pos hp] at h
    cases h
  rw [if_neg hp] at h ⊢
  by_cases hexp : (s.loggedIn && guestExpired s now) = true
  · rw [if_pos hexp]
    exact .inr ⟨rfl, (Bool.and_eq_true_iff.mp hexp).1, by simpa using hp, rfl⟩
  rw [if_neg hexp] at h ⊢
  rw [handleBytes] at h ⊢
  cases hfilter : work.filterEscape s.rest byte with
  | mk taken rest =>
    rw [hfilter] at h
    cases taken with
    | true => cases h
    | false =>
      dsimp only at h ⊢
      have hend := @handleUserByte_end κ work { s with rest := rest } byte
      cases hu : handleUserByte work { s with rest := rest } byte with
      | mk rc s' =>
        rw [hu] at h hend
        cases rc <;> exact .inl (hend h)

end End

/-- Every piece of the line's work keeps a property of it. -/
structure WorkKeeps (work : LineWork κ) (P : κ → Prop) : Prop where
  filterEscape : ∀ line byte, P line → P (work.filterEscape line byte).2
  backspace : ∀ line, P line → P (work.backspace line).2
  insertChar : ∀ line byte, P line → P (work.insertChar line byte).2
  submitLine : ∀ s : InputSession κ, P s.rest → P (work.submitLine s).rest

section Keeps

variable {work : LineWork κ} {P : κ → Prop} (hk : WorkKeeps work P)

include hk

lemma submit_keeps {s : InputSession κ} (expectLf : Bool) (h : P s.rest) : P (submit work s expectLf).2.rest := by
  have hdone := hk.submitLine s h
  rw [submit]
  cases work.echoNewline s.rest with
  | ok =>
    dsimp only
    split_ifs <;> exact hdone
  | errInvalid => exact h
  | errIo => exact h

lemma handleUserByte_keeps {s : InputSession κ} (byte : UInt8) (h : P s.rest) :
    P (handleUserByte work s byte).2.rest := by
  rw [handleUserByte]
  split_ifs
  · exact h
  · exact hk.backspace _ h
  · exact submit_keeps hk true h
  · exact h
  · exact submit_keeps hk false h
  · exact hk.insertChar _ byte h

lemma handleBytes_keeps (data : Bytes) {s : InputSession κ} (h : P s.rest) :
    P (handleBytes work s data).session.rest := by
  induction data generalizing s with
  | nil => exact h
  | cons byte bytes ih =>
    have hfilter := hk.filterEscape s.rest byte h
    rw [handleBytes]
    generalize work.filterEscape s.rest byte = r at hfilter ⊢
    obtain ⟨taken, rest⟩ := r
    cases taken with
    | true => exact @ih { s with rest := rest } hfilter
    | false =>
      have hbyte := @handleUserByte_keeps κ work P hk { s with rest := rest } byte hfilter
      dsimp only
      cases hu : handleUserByte work { s with rest := rest } byte with
      | mk rc s' =>
        rw [hu] at hbyte
        cases rc with
        | ok => exact ih hbyte
        | _ => exact hbyte

lemma handleInput_keeps (now : ℤ) (data : Bytes) {s : InputSession κ} (h : P s.rest) :
    P (handleInput work now s data).session.rest := by
  rw [handleInput]
  split_ifs
  · exact h
  · exact h
  · exact h
  · exact handleBytes_keeps hk data h

end Keeps

end HyBBX.Session
