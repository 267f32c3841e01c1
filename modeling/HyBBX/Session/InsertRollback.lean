import HyBBX.Session.LineScreen

/-! What is left of a key whose echo the transport has refused. -/

namespace HyBBX.Session

open HyBBX.Core Lib Lib.Bytes Lib.Text LineEditor

/-- The key gets as far as the echo of its byte, and the transport answers with an error. -/
structure EchoRefused (ed : LineEditor) (byte : UInt8) : Prop where
  echoable : charEchoable byte = true
  room : ed.lineLen < lineMaxLen ed
  echo : ed.around.inputEcho = true
  refused : ∃ rc ∈ ed.around.answers.head?, rc ≠ .ok

/-- The bytes of the line, their number and the cursor are as they were. -/
structure SameLine (ed ed' : LineEditor) : Prop where
  text : ed'.lineText = ed.lineText
  len : ed'.lineLen = ed.lineLen
  cursor : ed'.lineCursor = ed.lineCursor

/-- A key that fails with its echo leaves the line as it was. -/
def RollsBack (ed : LineEditor) (byte : UInt8) : Prop :=
  EchoRefused ed byte → (insertChar ed byte).1 ≠ .ok ∧ SameLine ed (insertChar ed byte).2

lemma dropLast_cons_iff (b : UInt8) (m : Bytes) : (b :: m).dropLast = m ↔ ∀ c ∈ m, c = b := by
  induction m generalizing b with
  | nil => simp
  | cons c m ih =>
    rw [List.dropLast_cons_cons, List.cons.injEq, ih c, List.forall_mem_cons]
    constructor
    · rintro ⟨rfl, hm⟩
      exact ⟨rfl, hm⟩
    · rintro ⟨rfl, hm⟩
      exact ⟨rfl, hm⟩

section Refused

variable {ed : LineEditor} {byte : UInt8}

lemma EchoRefused.write (h : EchoRefused ed byte) (data : Bytes) :
    ∃ rc answers, rc ≠ .ok ∧ writeTransport (putAtCursor ed byte) data =
      (rc, { putAtCursor ed byte with around := { ed.around with answers := answers } }) := by
  obtain ⟨rc, hrc, hne⟩ := h.refused
  obtain ⟨answers, hanswers⟩ : ∃ answers, ed.around.answers = rc :: answers :=
    List.head?_eq_some_iff.mp hrc
  have haround : (putAtCursor ed byte).around.answers = rc :: answers := hanswers
  refine ⟨rc, answers, hne, ?_⟩
  rw [writeTransport, haround]
  dsimp only
  rw [if_neg hne]
  rfl

/-- Only the end of the line and the cursor go back. -/
lemma EchoRefused.insert (h : EchoRefused ed byte) :
    ∃ rc answers, rc ≠ .ok ∧ insertChar ed byte = (rc, { ed with
      buf := (putAtCursor ed byte).buf.set ed.lineLen 0
      around := { ed.around with answers := answers } }) := by
  obtain ⟨rc, answers, hne, hwrite⟩ := h.write [byte]
  refine ⟨rc, answers, hne, ?_⟩
  have hecho : (putAtCursor ed byte).around.inputEcho ≠ false := by
    rw [show (putAtCursor ed byte).around = ed.around from rfl, h.echo]
    simp
  rw [insertChar, if_neg (by simp [h.echoable]), if_neg (not_le.mpr h.room)]
  dsimp only
  rw [if_neg hecho, hwrite]
  cases rc with
  | ok => exact absurd rfl hne
  | errInvalid => rfl
  | errIo => rfl

/-- The line behind the key: the byte stays in it, and the last byte is lost instead. -/
lemma EchoRefused.lineText (h : EchoRefused ed byte) (hsound : EditorSound ed) :
    (insertChar ed byte).2.lineText =
      ed.lineText.take ed.lineCursor ++ (byte :: ed.lineText.drop ed.lineCursor).dropLast := by
  obtain ⟨rc, answers, -, hinsert⟩ := h.insert
  have hput := hsound.put_text (h.room.trans_le (lineMaxLen_le ed)) byte
  have hlen : (putAtCursor ed byte).lineText.length = ed.lineLen + 1 := by
    have hcursor := hsound.cursor
    rw [hput, List.length_append, hsound.left_length, List.length_cons, List.length_drop, hsound.length]
    omega
  have htext : ((putAtCursor ed byte).buf.set ed.lineLen 0).take ed.lineLen =
      (putAtCursor ed byte).lineText.dropLast := by
    rw [List.dropLast_eq_take, hlen, LineEditor.lineText, List.take_take, List.take_set_of_le (le_refl _),
      Nat.add_sub_cancel]
    congr 1
    exact (min_eq_left (Nat.le_succ _)).symm
  rw [hinsert, LineEditor.lineText]
  dsimp only
  rw [htext, hput, List.dropLast_append_of_ne_nil (List.cons_ne_nil _ _)]

lemma rollsBack_iff (hsound : EditorSound ed) (byte : UInt8) :
    RollsBack ed byte ↔ (EchoRefused ed byte → ∀ b ∈ ed.lineText.drop ed.lineCursor, b = byte) := by
  apply imp_congr_right
  intro h
  have htext := h.lineText hsound
  obtain ⟨rc, answers, hne, hinsert⟩ := h.insert
  have hsplit : ed.lineText = ed.lineText.take ed.lineCursor ++ ed.lineText.drop ed.lineCursor :=
    (List.take_append_drop ed.lineCursor ed.lineText).symm
  rw [← dropLast_cons_iff, ← List.append_cancel_left_eq (ed.lineText.take ed.lineCursor), ← htext, ← hsplit]
  constructor
  · rintro ⟨-, hsame⟩
    exact hsame.text
  · intro hsame
    refine ⟨?_, hsame, ?_, ?_⟩
    · rw [hinsert]
      exact hne
    · rw [hinsert]
    · rw [hinsert]

end Refused

/-- Whatever has happened to a session before: a key whose echo is refused is taken back as it was put in exactly if behind
the cursor there is nothing but the byte of the key. -/
theorem insert_rolls_back_iff (commands : EditorSession → Bytes → CommandEffect) (effect : CommandEffect)
    (events : List SessionEvent) (byte : UInt8) :
    RollsBack (editorAfter commands effect events) byte ↔
      (EchoRefused (editorAfter commands effect events) byte →
        ∀ b ∈ (editorAfter commands effect events).lineText.drop (editorAfter commands effect events).lineCursor,
          b = byte) :=
  rollsBack_iff (editorRun_sound events (opened_sound effect)) byte

/-- A transport that takes so many writes and then refuses one. -/
def refusing (taken : ℕ) : CommandEffect :=
  { quietCommand with around :=
    { quietCommand.around with answers := List.replicate taken .ok ++ [.errIo] } }

/-- `ab` is typed, the cursor put on the `b`, and the echo of an `x` is refused: the line is `ax` now. -/
theorem refused_not_rolled_back :
    let ed := editorAfter (fun _ _ => quietCommand) (refusing 5) [.input 0 (ofString "ab" ++ [0x1B, 0x5B, 0x44])]
    ed.around.inputEcho = true ∧ ed.lineText = ofString "ab" ∧ (insertChar ed 0x78).1 = .errIo ∧
      (insertChar ed 0x78).2.lineText = ofString "ax" ∧ ¬RollsBack ed 0x78 := by
  intro ed
  have hbefore : ed.lineText = ofString "ab" := by decide +kernel
  have hafter : (insertChar ed 0x78).2.lineText = ofString "ax" := by decide +kernel
  refine ⟨by decide +kernel, hbefore, by decide +kernel, hafter, ?_⟩
  intro hback
  have hrefused : EchoRefused ed 0x78 := by
    refine ⟨by decide +kernel, by decide +kernel, by decide +kernel, .errIo, ?_, by decide⟩
    have hanswers : ed.around.answers = [.errIo] := by decide +kernel
    rw [hanswers]
    rfl
  have hsame := (hback hrefused).2.text
  rw [hbefore, hafter] at hsame
  revert hsame
  decide

end HyBBX.Session
