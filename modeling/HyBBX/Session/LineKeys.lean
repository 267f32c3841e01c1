import HyBBX.Session.LineEditor

/-! The keys of the line while the transport takes what is written: what each of them makes of the line. -/

namespace HyBBX.Session

open HyBBX.Core Lib Lib.Bytes Lib.Text LineEditor

/-- The transport takes what is written to it. -/
def Quiet (ed : LineEditor) : Prop := ed.around.inputEcho = true → ed.around.answers = []

section Quiet

variable {ed : LineEditor} (h : Quiet ed)

include h

lemma quiet_echo (data : Bytes) : ∃ sent, (if ed.around.inputEcho = false then (.ok, ed) else writeTransport ed data) =
    (EchoResult.ok, { ed with sent := sent }) := by
  by_cases hecho : ed.around.inputEcho = false
  · rw [if_pos hecho]
    exact ⟨ed.sent, rfl⟩
  · rw [if_neg hecho, writeTransport, h (Bool.eq_true_of_not_eq_false hecho)]
    exact ⟨_, rfl⟩

lemma quiet_refresh : ∃ sent, refreshSuffix ed = (.ok, { ed with sent := sent }) := quiet_echo h _

lemma quiet_left : ∃ sent, cursorLeft ed = (.ok, { ed with lineCursor := ed.lineCursor - 1, sent := sent }) := by
  rw [cursorLeft]
  by_cases h0 : ed.lineCursor = 0
  · rw [if_pos h0]
    refine ⟨ed.sent, ?_⟩
    have hsame : ed.lineCursor - 1 = ed.lineCursor := by omega
    rw [hsame]
  rw [if_neg h0]
  exact @quiet_echo { ed with lineCursor := ed.lineCursor - 1 } h (moveBack 1)

lemma quiet_right : ∃ sent, cursorRight ed =
    (.ok, { ed with lineCursor := if ed.lineCursor < ed.lineLen then ed.lineCursor + 1 else ed.lineCursor, sent := sent }) := by
  rw [cursorRight]
  by_cases hend : ed.lineLen ≤ ed.lineCursor
  · rw [if_pos hend, if_neg (not_lt.mpr hend)]
    exact ⟨ed.sent, rfl⟩
  rw [if_neg hend, if_pos (not_le.mp hend)]
  by_cases hecho : ed.around.inputEcho = false
  · rw [if_pos hecho]
    exact ⟨ed.sent, rfl⟩
  · rw [if_neg hecho, writeTransport, h (Bool.eq_true_of_not_eq_false hecho)]
    exact ⟨ed.sent ++ [ed.buf.getD ed.lineCursor 0], rfl⟩

omit h in
lemma quiet_lefts (n : ℕ) {ed : LineEditor} (h : Quiet ed) : ∃ sent,
    cursorMoves cursorLeft n ed = (.ok, { ed with lineCursor := ed.lineCursor - n, sent := sent }) := by
  induction n generalizing ed with
  | zero => exact ⟨ed.sent, rfl⟩
  | succ n ih =>
    obtain ⟨sent, hleft⟩ := quiet_left h
    obtain ⟨sent', hrest⟩ := @ih { ed with lineCursor := ed.lineCursor - 1, sent := sent } h
    rw [cursorMoves, hleft]
    refine ⟨sent', hrest.trans ?_⟩
    have hsub : ed.lineCursor - 1 - n = ed.lineCursor - (n + 1) := by omega
    rw [hsub]

omit h in
lemma quiet_rights (n : ℕ) {ed : LineEditor} (h : Quiet ed) (hn : ed.lineCursor + n ≤ ed.lineLen) : ∃ sent,
    cursorMoves cursorRight n ed = (.ok, { ed with lineCursor := ed.lineCursor + n, sent := sent }) := by
  induction n generalizing ed with
  | zero => exact ⟨ed.sent, rfl⟩
  | succ n ih =>
    obtain ⟨sent, hright⟩ := quiet_right h
    rw [if_pos (by omega)] at hright
    obtain ⟨sent', hrest⟩ := @ih { ed with lineCursor := ed.lineCursor + 1, sent := sent } h (by dsimp only; omega)
    rw [cursorMoves, hright]
    refine ⟨sent', hrest.trans ?_⟩
    rw [Nat.add_right_comm, Nat.add_assoc]

lemma quiet_home : ∃ sent, cursorHome ed = (.ok, { ed with lineCursor := 0, sent := sent }) := by
  obtain ⟨sent, hlefts⟩ := quiet_lefts ed.lineCursor h
  refine ⟨sent, hlefts.trans ?_⟩
  rw [Nat.sub_self]

lemma quiet_end : ∃ sent, cursorEnd ed = (.ok,
    { ed with lineCursor := max ed.lineCursor ed.lineLen, sent := sent }) := by
  rcases Nat.le_total ed.lineCursor ed.lineLen with hle | hle
  · obtain ⟨sent, hrights⟩ := quiet_rights (ed.lineLen - ed.lineCursor) h (by omega)
    refine ⟨sent, hrights.trans ?_⟩
    rw [Nat.add_sub_cancel' hle, max_eq_right hle]
  · refine ⟨ed.sent, ?_⟩
    rw [cursorEnd, Nat.sub_eq_zero_of_le hle, max_eq_left hle]
    rfl

lemma quiet_delete : ∃ sent, deleteForward ed =
    (.ok, { (if ed.lineCursor < ed.lineLen then cutAtCursor ed else ed) with sent := sent }) := by
  rw [deleteForward]
  by_cases hend : ed.lineLen ≤ ed.lineCursor
  · rw [if_pos hend, if_neg (not_lt.mpr hend)]
    exact ⟨ed.sent, rfl⟩
  · rw [if_neg hend, if_pos (not_le.mp hend)]
    exact @quiet_refresh (cutAtCursor ed) h

lemma quiet_twice (data : Bytes) : ∃ sent,
    (if ed.around.inputEcho = false then (.ok, ed)
      else match writeTransport ed data with
        | (.ok, ed) => refreshSuffix ed
        | r => r) = (EchoResult.ok, { ed with sent := sent }) := by
  by_cases hecho : ed.around.inputEcho = false
  · rw [if_pos hecho]
    exact ⟨ed.sent, rfl⟩
  · rw [if_neg hecho, writeTransport, h (Bool.eq_true_of_not_eq_false hecho)]
    exact @quiet_refresh { ed with sent := ed.sent ++ data } h

lemma quiet_backspace : ∃ sent, LineEditor.backspace ed = (.ok, { (if ed.lineCursor = 0 then ed else
    cutAtCursor { ed with lineCursor := ed.lineCursor - 1 }) with sent := sent }) := by
  rw [LineEditor.backspace]
  by_cases h0 : ed.lineCursor = 0
  · rw [if_pos h0, if_pos h0]
    exact ⟨ed.sent, rfl⟩
  · rw [if_neg h0, if_neg h0]
    exact @quiet_twice (cutAtCursor { ed with lineCursor := ed.lineCursor - 1 }) h (moveBack 1)

def lineTakes (ed : LineEditor) (byte : UInt8) : Bool := charEchoable byte && ed.lineLen < lineMaxLen ed

lemma quiet_insert (byte : UInt8) : ∃ sent, insertChar ed byte =
    (.ok, { (if lineTakes ed byte then putAtCursor ed byte else ed) with sent := sent }) := by
  rw [insertChar, lineTakes]
  by_cases hecho : charEchoable byte = false
  · rw [if_pos hecho, hecho, Bool.false_and, if_neg Bool.false_ne_true]
    exact ⟨ed.sent, rfl⟩
  rw [if_neg hecho, Bool.eq_true_of_not_eq_false hecho, Bool.true_and]
  by_cases hfull : lineMaxLen ed ≤ ed.lineLen
  · rw [if_pos hfull, decide_eq_false (not_lt.mpr hfull), if_neg Bool.false_ne_true]
    exact ⟨ed.sent, rfl⟩
  · rw [if_neg hfull, decide_eq_true (not_le.mp hfull), if_pos rfl]
    have hput : Quiet (putAtCursor ed byte) := h
    dsimp only
    generalize putAtCursor ed byte = put at hput ⊢
    by_cases hno : put.around.inputEcho = false
    · rw [if_pos hno]
      exact ⟨put.sent, rfl⟩
    · rw [if_neg hno, writeTransport, hput (Bool.eq_true_of_not_eq_false hno)]
      exact @quiet_refresh { put with sent := put.sent ++ [byte] } hput

/-- The line with another text in it, the cursor at its end. -/
def replacedLine (ed : LineEditor) (line : Bytes) : LineEditor :=
  let len := min line.length (lineSize - 1)
  { ed with buf := (line.take len ++ ed.buf.drop len).set len 0, lineLen := len, lineCursor := len }

lemma quiet_replace (line : Bytes) : ∃ sent, lineReplace ed line =
    (.ok, { replacedLine ed line with sent := sent }) := by
  rw [lineReplace]
  dsimp only
  by_cases hecho : ed.around.inputEcho = true
  · rw [if_pos hecho, writeTransport, h hecho]
    exact ⟨ed.sent ++ (moveBack ed.lineCursor ++ line.take (min line.length (lineSize - 1)) ++ eraseToEnd), rfl⟩
  · rw [if_neg hecho]
    exact ⟨ed.sent, rfl⟩

end Quiet

/-- The key that a byte completes, by the state of the escape filter. -/
def completedKey (state : EscState) (csi : Bytes) (byte : UInt8) : EditKey :=
  match state with
  | .plain => .other
  | .esc => .other
  | .ss3 => ss3EditKey byte
  | .csi =>
    if csiBufMax ≤ csi.length + 1 then .other else if csiIsFinal byte then csiEditKey (cstr csi) byte else .other

/-- What a key leaves alone. -/
structure Framed (ed ed' : LineEditor) : Prop where
  escState : ed'.escState = ed.escState
  csi : ed'.csi = ed.csi
  around : ed'.around = ed.around
  history : ed'.history = ed.history
  historyCount : ed'.historyCount = ed.historyCount
  historyNext : ed'.historyNext = ed.historyNext

lemma Framed.refl (ed : LineEditor) : Framed ed ed := ⟨rfl, rfl, rfl, rfl, rfl, rfl⟩

section Framed

variable {ed ed' : LineEditor}

lemma Framed.quiet (hf : Framed ed ed') (h : Quiet ed) : Quiet ed' := by
  rw [Quiet, hf.around]
  exact h

variable (h : Quiet ed)

include h

lemma replace_framed (view : Option ℕ) (saved : CText lineSize) (line : Bytes) :
    Framed ed (lineReplace { ed with historyView := view, historySaved := saved } line).2 := by
  obtain ⟨sent, he⟩ := @quiet_replace { ed with historyView := view, historySaved := saved } h line
  rw [he]
  exact ⟨rfl, rfl, rfl, rfl, rfl, rfl⟩

lemma up_framed : Framed ed (historyUp ed).2 := by
  rw [historyUp]
  split_ifs
  · exact .refl ed
  · split
    · exact replace_framed h (some 0) (.copy ed.buf) _
    · rename_i view _
      dsimp only
      split_ifs
      · exact replace_framed h (some (view + 1)) ed.historySaved _
      · exact .refl ed

lemma down_framed : Framed ed (historyDown ed).2 := by
  rw [historyDown]
  split
  · exact .refl ed
  · exact replace_framed h none ed.historySaved _
  · rename_i view _
    exact replace_framed h (some view) ed.historySaved _

lemma press_framed (key : EditKey) : Framed ed (pressKey key ed).2 := by
  cases key with
  | up => exact up_framed h
  | down => exact down_framed h
  | right =>
    obtain ⟨sent, he⟩ := quiet_right h
    rw [pressKey, he]
    exact ⟨rfl, rfl, rfl, rfl, rfl, rfl⟩
  | left =>
    obtain ⟨sent, he⟩ := quiet_left h
    rw [pressKey, he]
    exact ⟨rfl, rfl, rfl, rfl, rfl, rfl⟩
  | home =>
    obtain ⟨sent, he⟩ := quiet_home h
    rw [pressKey, he]
    exact ⟨rfl, rfl, rfl, rfl, rfl, rfl⟩
  | toEnd =>
    obtain ⟨sent, he⟩ := quiet_end h
    rw [pressKey, he]
    exact ⟨rfl, rfl, rfl, rfl, rfl, rfl⟩
  | delete =>
    obtain ⟨sent, he⟩ := quiet_delete h
    rw [pressKey, he]
    split_ifs <;> exact ⟨rfl, rfl, rfl, rfl, rfl, rfl⟩
  | other => exact .refl ed

lemma filter_quiet (byte : UInt8) : Quiet (filterEscapeByte ed byte).2 := by
  rw [filterEscapeByte]
  split
  · split_ifs <;> exact h
  · split_ifs <;> exact h
  · rw [ss3Key_eq]
    exact (press_framed h _).quiet h
  · split_ifs
    · exact h
    · have hreset : Quiet (escapeReset ed) := h
      rw [csiKey_eq]
      exact (press_framed hreset _).quiet hreset
    · exact h

lemma backspace_quiet : (LineEditor.backspace ed).1 = .ok ∧ Quiet (LineEditor.backspace ed).2 := by
  obtain ⟨sent, he⟩ := quiet_backspace h
  rw [he]
  refine ⟨rfl, ?_⟩
  split_ifs <;> exact h

lemma insert_quiet (byte : UInt8) : (insertChar ed byte).1 = .ok ∧ Quiet (insertChar ed byte).2 := by
  obtain ⟨sent, he⟩ := quiet_insert h byte
  rw [he]
  refine ⟨rfl, ?_⟩
  split_ifs <;> exact h

end Framed

/-- What a byte within a line makes of the editor. -/
def typeByte (ed : LineEditor) (byte : UInt8) : LineEditor :=
  let r := filterEscapeByte ed byte
  if r.1 then r.2
  else if byte = 0 then r.2
  else if byte = 0x08 ∨ byte = 0x7F then (LineEditor.backspace r.2).2
  else (insertChar r.2 byte).2

section Typing

variable {commands : EditorSession → Bytes → CommandEffect}

lemma typeByte_quiet {ed : LineEditor} (h : Quiet ed) (byte : UInt8) : Quiet (typeByte ed byte) := by
  have hfilter := filter_quiet h byte
  rw [typeByte]
  split_ifs
  · exact hfilter
  · exact hfilter
  · exact (backspace_quiet hfilter).2
  · exact (insert_quiet hfilter byte).2

lemma handleUserByte_typed {s : EditorSession} (h : Quiet s.rest) {byte : UInt8} (hcr : byte ≠ cr) (hnl : byte ≠ nl) :
    (handleUserByte (editorWork commands) s byte).1 = .ok ∧ (handleUserByte (editorWork commands) s byte).2.rest =
      if byte = 0 then s.rest
      else if byte = 0x08 ∨ byte = 0x7F then (LineEditor.backspace s.rest).2
      else (insertChar s.rest byte).2 := by
  have hback := (backspace_quiet h).1
  have hinsert := (insert_quiet h byte).1
  rw [handleUserByte]
  split_ifs
  · exact ⟨rfl, rfl⟩
  · exact ⟨congrArg EchoResult.toResult hback, rfl⟩
  · exact ⟨congrArg EchoResult.toResult hinsert, rfl⟩

/-- Input that submits nothing is typed, byte by byte. -/
lemma handleBytes_typed {data : Bytes} (hdata : ∀ b ∈ data, b ≠ cr ∧ b ≠ nl) {s : EditorSession} (h : Quiet s.rest) :
    (handleBytes (editorWork commands) s data).session.rest = data.foldl typeByte s.rest := by
  induction data generalizing s with
  | nil => rfl
  | cons byte data ih =>
    rw [List.forall_mem_cons] at hdata
    have hnext := typeByte_quiet h byte
    have hfilter := filter_quiet h byte
    have hwork : (editorWork commands).filterEscape s.rest byte = filterEscapeByte s.rest byte := rfl
    rw [List.foldl_cons, handleBytes, hwork]
    rw [typeByte] at hnext ⊢
    generalize filterEscapeByte s.rest byte = r at hnext hfilter ⊢
    obtain ⟨taken, rest⟩ := r
    cases taken with
    | true => exact @ih hdata.2 { s with rest := rest } hfilter
    | false =>
      obtain ⟨hok, hrest⟩ := @handleUserByte_typed commands { s with rest := rest } hfilter byte hdata.1.1 hdata.1.2
      have hquiet : Quiet (handleUserByte (editorWork commands) { s with rest := rest } byte).2.rest := by
        rw [hrest]
        exact hnext
      change _ = data.foldl typeByte (if byte = 0 then rest else _)
      rw [← hrest]
      dsimp only
      generalize handleUserByte (editorWork commands) { s with rest := rest } byte = r at hok hquiet ⊢
      obtain ⟨rc, s'⟩ := r
      obtain rfl : rc = .ok := hok
      exact ih hdata.2 hquiet

end Typing

end HyBBX.Session
