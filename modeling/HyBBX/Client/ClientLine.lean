import HyBBX.Lib.EarlyReturn
import HyBBX.Session.LineEditor

/-! The line editor of the clients: the second copy of the editor of a session, fed from standard input. -/

namespace HyBBX.Client

open HyBBX.Core Lib Lib.Bytes Lib.Text
open Lib.EarlyReturn (call)
open Session (lineSize historyMax csiBufMax EscState EditKey csiEditKey ss3EditKey)
open Session.LineEditor (memmove eraseToEnd csiIsFinal)

/-- `outcomes` are those of the writes to standard output to come (further writes succeed), one for all the writes of a
redraw; `written` is what it has taken. -/
structure ClientEditor where
  line : Bytes
  lineLen : ℕ
  lineCursor : ℕ
  history : ℕ → CText lineSize
  historyCount : ℕ
  historyNext : ℕ
  historyView : Option ℕ
  historySaved : CText lineSize
  rawEnabled : Bool
  escState : EscState
  csi : Bytes
  outcomes : List Bool
  written : Bytes

namespace ClientEditor

/-- `hybbx_client_line_editor_start` -/
def started (rawEnabled : Bool) (outcomes : List Bool) : ClientEditor where
  line := List.replicate lineSize 0
  lineLen := 0
  lineCursor := 0
  history _ := .empty
  historyCount := 0
  historyNext := 0
  historyView := none
  historySaved := .empty
  rawEnabled := rawEnabled
  escState := .plain
  csi := []
  outcomes := outcomes
  written := []

def lineText (ed : ClientEditor) : Bytes := ed.line.take ed.lineLen

/-- Whether the write succeeds, and the editor behind it. -/
def writeAll (ed : ClientEditor) (data : Bytes) : Bool × ClientEditor :=
  match ed.outcomes with
  | [] => (true, { ed with written := ed.written ++ data })
  | true :: outcomes => (true, { ed with outcomes := outcomes, written := ed.written ++ data })
  | false :: outcomes => (false, { ed with outcomes := outcomes })

def backspaces (count : ℕ) : Bytes := List.replicate count 0x08

def moveBack (ed : ClientEditor) (count : ℕ) : Bool × ClientEditor :=
  if ed.rawEnabled = false ∨ count = 0 then (true, ed) else writeAll ed (backspaces count)

def refreshSuffix (ed : ClientEditor) : Bool × ClientEditor :=
  let suffix := (ed.line.drop ed.lineCursor).take (ed.lineLen - ed.lineCursor)
  if ed.rawEnabled = false then (true, ed)
  else writeAll ed (suffix ++ eraseToEnd ++ backspaces (ed.lineLen - ed.lineCursor))

def cursorLeft (ed : ClientEditor) : Bool × ClientEditor :=
  if ed.lineCursor = 0 then (true, ed)
  else
    let ed := { ed with lineCursor := ed.lineCursor - 1 }
    if ed.rawEnabled then writeAll ed (backspaces 1) else (true, ed)

def cursorRight (ed : ClientEditor) : Bool × ClientEditor :=
  if ed.lineLen ≤ ed.lineCursor then (true, ed)
  else if ed.rawEnabled = false then (true, { ed with lineCursor := ed.lineCursor + 1 })
  else match writeAll ed [ed.line.getD ed.lineCursor 0] with
    | (true, ed) => (true, { ed with lineCursor := ed.lineCursor + 1 })
    | r => r

-- the cursor of the screen moves, the one of the line stays
def cursorHome (ed : ClientEditor) : Bool × ClientEditor := moveBack ed ed.lineCursor

def moveRights : ℕ → ClientEditor → Bool × ClientEditor
  | 0, ed => (true, ed)
  | n + 1, ed => match cursorRight ed with
    | (true, ed) => moveRights n ed
    | r => r

def cursorEnd (ed : ClientEditor) : Bool × ClientEditor := moveRights (ed.lineLen - ed.lineCursor) ed

/-- The byte at the cursor goes; what moves up includes the end of the line. -/
def cutAtCursor (ed : ClientEditor) : ClientEditor :=
  { ed with
    line := (memmove ed.line ed.lineCursor (ed.lineCursor + 1) (ed.lineLen - ed.lineCursor)).set (ed.lineLen - 1) 0
    lineLen := ed.lineLen - 1 }

def deleteForward (ed : ClientEditor) : Bool × ClientEditor :=
  if ed.lineLen ≤ ed.lineCursor then (true, ed) else refreshSuffix (cutAtCursor ed)

def backspaceChar (ed : ClientEditor) : Bool × ClientEditor :=
  if ed.lineCursor = 0 then (true, ed)
  else
    let ed := cutAtCursor { ed with lineCursor := ed.lineCursor - 1 }
    if ed.rawEnabled = false then refreshSuffix ed
    else match writeAll ed (backspaces 1) with
      | (true, ed) => refreshSuffix ed
      | r => r

/-- A byte is put at the cursor. -/
def putAtCursor (ed : ClientEditor) (ch : UInt8) : ClientEditor :=
  let line :=
    if ed.lineCursor < ed.lineLen then memmove ed.line (ed.lineCursor + 1) ed.lineCursor (ed.lineLen - ed.lineCursor)
    else ed.line
  { ed with
    line := (line.set ed.lineCursor ch).set (ed.lineLen + 1) 0
    lineLen := ed.lineLen + 1
    lineCursor := ed.lineCursor + 1 }

def insertChar (ed : ClientEditor) (ch : UInt8) : Bool × ClientEditor :=
  if ch < 0x20 ∨ ch = 0x7F then (true, ed)
  else if lineSize ≤ ed.lineLen + 1 then (true, ed)
  else
    let ed := putAtCursor ed ch
    if ed.rawEnabled = false then (true, ed)
    else match writeAll ed [ch] with
      | (true, ed) => refreshSuffix ed
      | r => r

def historyShouldStore (line : Bytes) : Bool := Session.LineEditor.historyShouldStore line

def historyAdd (ed : ClientEditor) (line : Bytes) : ClientEditor :=
  if historyShouldStore line = false then ed
  else { ed with
    history := Function.update ed.history ed.historyNext (.copy line)
    historyNext := (ed.historyNext + 1) % historyMax
    historyCount := if ed.historyCount < historyMax then ed.historyCount + 1 else ed.historyCount
    historyView := none
    historySaved := .empty }

def lineReplace (ed : ClientEditor) (line : Bytes) : Bool × ClientEditor :=
  let len := min line.length (lineSize - 1)
  let (ok, ed) :=
    if ed.rawEnabled then writeAll ed (backspaces ed.lineCursor ++ line.take len ++ eraseToEnd) else (true, ed)
  if ok = false then (false, ed)
  else (true, { ed with line := (line.take len ++ ed.line.drop len).set len 0, lineLen := len, lineCursor := len })

/-- The entry that is shown `view` steps back. -/
def entry (ed : ClientEditor) (view : ℕ) : CText lineSize :=
  ed.history ((ed.historyNext + historyMax - 1 - view) % historyMax)

def historyUp (ed : ClientEditor) : Bool × ClientEditor :=
  if ed.historyCount = 0 then (true, ed)
  else match ed.historyView with
    | none =>
      let ed := { ed with historySaved := .copy ed.line, historyView := some 0 }
      lineReplace ed (ed.entry 0).text
    | some view =>
      if view + 1 < ed.historyCount then
        let ed := { ed with historyView := some (view + 1) }
        lineReplace ed (ed.entry (view + 1)).text
      else (true, ed)

def historyDown (ed : ClientEditor) : Bool × ClientEditor :=
  match ed.historyView with
  | none => (true, ed)
  | some 0 =>
    let ed := { ed with historyView := none }
    lineReplace ed ed.historySaved.text
  | some (view + 1) =>
    let ed := { ed with historyView := some view }
    lineReplace ed (ed.entry view).text

def escapeReset (ed : ClientEditor) : ClientEditor := { ed with escState := .plain, csi := [] }

def applyCsi (params : Bytes) (final : UInt8) (ed : ClientEditor) : Bool × ClientEditor :=
  if final = 0x41 then historyUp ed
  else if final = 0x42 then historyDown ed
  else if final = 0x43 then cursorRight ed
  else if final = 0x44 then cursorLeft ed
  else if final = 0x48 then cursorHome ed
  else if final = 0x46 then cursorEnd ed
  else if final = 0x7E then
    if params = ofString "1" ∨ params = ofString "7" then cursorHome ed
    else if params = ofString "3" then deleteForward ed
    else if params = ofString "4" ∨ params = ofString "8" then cursorEnd ed
    else (true, ed)
  else (true, ed)

def applySs3 (byte : UInt8) (ed : ClientEditor) : Bool × ClientEditor :=
  if byte = 0x43 then cursorRight ed
  else if byte = 0x44 then cursorLeft ed
  else if byte = 0x48 then cursorHome ed
  else if byte = 0x46 then cursorEnd ed
  else (true, ed)

/-- Whether the byte belongs to an escape sequence, and the editor behind it. -/
def filterEscapeByte (ed : ClientEditor) (byte : UInt8) : Bool × ClientEditor :=
  match ed.escState with
  | .plain =>
    if byte = 0x9B then (true, { ed with escState := .csi, csi := [] })
    else if byte = 0x1B then (true, { ed with escState := .esc })
    else (false, ed)
  | .esc =>
    if byte = 0x5B then (true, { ed with escState := .csi, csi := [] })
    else if byte = 0x4F then (true, { ed with escState := .ss3 })
    else (false, escapeReset ed)
  | .ss3 => (true, escapeReset (applySs3 byte ed).2)
  | .csi =>
    if csiBufMax ≤ ed.csi.length + 1 then (true, escapeReset ed)
    else if csiIsFinal byte then (true, (applyCsi (cstr ed.csi) byte (escapeReset ed)).2)
    else (true, { ed with csi := ed.csi ++ [byte] })

/-- The line is taken, and the next one begins. -/
def takeLine (ed : ClientEditor) : ClientEditor :=
  let ed := historyAdd ed (cstr ed.line)
  { ed with line := ed.line.set 0 0, lineLen := 0, lineCursor := 0, historyView := none }

end ClientEditor

open ClientEditor

def pressClient (key : EditKey) (c : ClientEditor) : Bool × ClientEditor :=
  match key with
  | .up => c.historyUp
  | .down => c.historyDown
  | .right => c.cursorRight
  | .left => c.cursorLeft
  | .home => c.cursorHome
  | .toEnd => c.cursorEnd
  | .delete => c.deleteForward
  | .other => (true, c)

lemma applyCsi_eq (params : Bytes) (final : UInt8) (c : ClientEditor) :
    applyCsi params final c = pressClient (csiEditKey params final) c := by
  simp only [applyCsi, csiEditKey, apply_ite fun key => pressClient key c]
  rfl

lemma applySs3_eq (byte : UInt8) (c : ClientEditor) : applySs3 byte c = pressClient (ss3EditKey byte) c := by
  simp only [applySs3, ss3EditKey, apply_ite fun key => pressClient key c]
  rfl

/-- What makes a poll return: a line, or a write that fails. -/
inductive PollEnd
  | line (text : Bytes)
  | failed
  deriving DecidableEq, Repr

section Poll

variable (outLen : ℕ)

def checked (r : Bool × ClientEditor) : ClientEditor × Option PollEnd := (r.2, if r.1 then none else some .failed)

/-- One round of the loop over the bytes of a read. -/
def pollByte (ed : ClientEditor) (ch : UInt8) : ClientEditor × Option PollEnd :=
  match filterEscapeByte ed ch with
  | (true, ed) => (ed, none)
  | (false, ed) =>
    if ch = 0x08 ∨ ch = 0x7F then checked (backspaceChar ed)
    else if ch = cr ∨ ch = nl then
      let r := if ed.rawEnabled then writeAll ed [cr, nl] else (true, ed)
      if r.1 = false then (r.2, some .failed)
      else (takeLine r.2, some (.line (strlcpy outLen (cstr r.2.line))))
    else checked (insertChar ed ch)

def readMax : ℕ := 64

/-- How a `read` ends. -/
inductive ReadResult
  | interrupted
  | failed
  | eof
  | bytes (data : { data : Bytes // data ≠ [] ∧ data.length ≤ readMax })

/-- What a poll returns, and the bytes it has read and not looked at. -/
structure PollResult where
  rc : HybbxResult
  line : Option Bytes
  eof : Bool
  dropped : Bytes

/-- `hybbx_client_line_editor_poll` -/
def editorPoll (ed : ClientEditor) : ReadResult → ClientEditor × PollResult
  | .interrupted => (ed, ⟨.ok, none, false, []⟩)
  | .failed => (ed, ⟨.errIo, none, false, []⟩)
  | .eof => (ed, ⟨.ok, none, true, []⟩)
  | .bytes data =>
    match call (pollByte outLen) ed data.1 with
    | (ed, none, dropped) => (ed, ⟨.ok, none, false, dropped⟩)
    | (ed, some (.line text), dropped) => (ed, ⟨.ok, some text, false, dropped⟩)
    | (ed, some .failed, dropped) => (ed, ⟨.errIo, none, false, dropped⟩)

/-- Polls one behind the other: the editor, the lines returned, and the bytes dropped. -/
def editorPolls : ClientEditor → List ReadResult → ClientEditor × List Bytes × Bytes
  | ed, [] => (ed, [], [])
  | ed, read :: reads =>
    let r := editorPoll outLen ed read
    let q := editorPolls r.1 reads
    (q.1, r.2.line.toList ++ q.2.1, r.2.dropped ++ q.2.2)

end Poll

/-- Standard output takes what is written to it. -/
def Works (ed : ClientEditor) : Prop := ed.rawEnabled = true → ed.outcomes = []

section Works

variable {ed : ClientEditor} (h : Works ed)

include h

lemma write_eq (hraw : ed.rawEnabled = true) (data : Bytes) :
    writeAll ed data = (true, { ed with written := ed.written ++ data }) := by
  rw [writeAll, h hraw]

/-- A write, if there is somebody to write for. -/
lemma echo_eq (data : Bytes) : ∃ written, (if ed.rawEnabled = false then (true, ed) else writeAll ed data) =
    (true, { ed with written := written }) := by
  by_cases hraw : ed.rawEnabled = false
  · rw [if_pos hraw]
    exact ⟨ed.written, rfl⟩
  · rw [if_neg hraw]
    exact ⟨_, write_eq h (Bool.eq_true_of_not_eq_false hraw) data⟩

lemma refresh_eq : ∃ written, refreshSuffix ed = (true, { ed with written := written }) := echo_eq h _

lemma left_eq : ∃ written, cursorLeft ed = (true, { ed with lineCursor := ed.lineCursor - 1, written := written }) := by
  rw [cursorLeft]
  by_cases h0 : ed.lineCursor = 0
  · rw [if_pos h0]
    refine ⟨ed.written, ?_⟩
    have hsame : ed.lineCursor - 1 = ed.lineCursor := by omega
    rw [hsame]
  rw [if_neg h0]
  dsimp only
  split_ifs with hraw
  · exact ⟨_, @write_eq { ed with lineCursor := ed.lineCursor - 1 } h hraw _⟩
  · exact ⟨ed.written, rfl⟩

lemma right_eq : ∃ written, cursorRight ed =
    (true, { ed with lineCursor := if ed.lineCursor < ed.lineLen then ed.lineCursor + 1 else ed.lineCursor, written := written }) := by
  rw [cursorRight]
  by_cases hend : ed.lineLen ≤ ed.lineCursor
  · rw [if_pos hend, if_neg (not_lt.mpr hend)]
    exact ⟨ed.written, rfl⟩
  rw [if_neg hend, if_pos (not_le.mp hend)]
  by_cases hraw : ed.rawEnabled = false
  · rw [if_pos hraw]
    exact ⟨ed.written, rfl⟩
  · rw [if_neg hraw, write_eq h (Bool.eq_true_of_not_eq_false hraw)]
    exact ⟨ed.written ++ [ed.line.getD ed.lineCursor 0], rfl⟩

lemma home_eq : ∃ written, cursorHome ed = (true, { ed with written := written }) := by
  rw [cursorHome, moveBack]
  split_ifs with hnone
  · exact ⟨ed.written, rfl⟩
  · exact ⟨_, write_eq h (Bool.eq_true_of_not_eq_false (not_or.mp hnone).1) _⟩

omit h in
lemma rights_eq (n : ℕ) {ed : ClientEditor} (h : Works ed) (hn : ed.lineCursor + n ≤ ed.lineLen) : ∃ written,
    moveRights n ed = (true, { ed with lineCursor := ed.lineCursor + n, written := written }) := by
  induction n generalizing ed with
  | zero => exact ⟨ed.written, rfl⟩
  | succ n ih =>
    obtain ⟨written, hright⟩ := right_eq h
    rw [if_pos (by omega)] at hright
    obtain ⟨written', hrest⟩ :=
      @ih { ed with lineCursor := ed.lineCursor + 1, written := written } h (by dsimp only; omega)
    rw [moveRights, hright]
    refine ⟨written', hrest.trans ?_⟩
    rw [Nat.add_right_comm, Nat.add_assoc]

/-- The cursor goes to the end of the line, unless it is behind it. -/
lemma end_eq : ∃ written, cursorEnd ed = (true,
    { ed with lineCursor := max ed.lineCursor ed.lineLen, written := written }) := by
  rcases Nat.le_total ed.lineCursor ed.lineLen with hle | hle
  · obtain ⟨written, hrights⟩ := rights_eq (ed.lineLen - ed.lineCursor) h (by omega)
    refine ⟨written, hrights.trans ?_⟩
    rw [Nat.add_sub_cancel' hle, max_eq_right hle]
  · refine ⟨ed.written, ?_⟩
    rw [cursorEnd, Nat.sub_eq_zero_of_le hle, max_eq_left hle]
    rfl

lemma delete_eq : ∃ written, deleteForward ed =
    (true, { (if ed.lineCursor < ed.lineLen then cutAtCursor ed else ed) with written := written }) := by
  rw [deleteForward]
  by_cases hend : ed.lineLen ≤ ed.lineCursor
  · rw [if_pos hend, if_neg (not_lt.mpr hend)]
    exact ⟨ed.written, rfl⟩
  · rw [if_neg hend, if_pos (not_le.mp hend)]
    exact @refresh_eq (cutAtCursor ed) h

/-- Two writes one behind the other. -/
lemma echoTwice_eq (data : Bytes) : ∃ written,
    (match writeAll ed data with
      | (true, ed) => refreshSuffix ed
      | r => r) = (true, { ed with written := written }) ∨ ed.rawEnabled = false := by
  by_cases hraw : ed.rawEnabled = false
  · exact ⟨[], .inr hraw⟩
  · rw [write_eq h (Bool.eq_true_of_not_eq_false hraw)]
    obtain ⟨written, hrefresh⟩ := @refresh_eq { ed with written := ed.written ++ data } h
    exact ⟨written, .inl hrefresh⟩

lemma backspace_eq : ∃ written, backspaceChar ed = (true, { (if ed.lineCursor = 0 then ed else
    cutAtCursor { ed with lineCursor := ed.lineCursor - 1 }) with written := written }) := by
  rw [backspaceChar]
  by_cases h0 : ed.lineCursor = 0
  · rw [if_pos h0, if_pos h0]
    exact ⟨ed.written, rfl⟩
  rw [if_neg h0, if_neg h0]
  have hcut : Works (cutAtCursor { ed with lineCursor := ed.lineCursor - 1 }) := h
  dsimp only
  generalize cutAtCursor { ed with lineCursor := ed.lineCursor - 1 } = cut at hcut ⊢
  split_ifs with hraw
  · exact refresh_eq hcut
  · obtain ⟨written, htwice⟩ := echoTwice_eq hcut (backspaces 1)
    exact ⟨written, htwice.resolve_right hraw⟩

/-- Whether a byte is put into the line. -/
def takes (ed : ClientEditor) (ch : UInt8) : Bool := Session.LineEditor.charEchoable ch && ed.lineLen + 1 < lineSize

omit h in
lemma not_echoable_iff (ch : UInt8) : (ch < 0x20 ∨ ch = 0x7F) ↔ Session.LineEditor.charEchoable ch = false := by
  revert ch
  apply forall_byte
  decide +kernel

lemma insert_eq (ch : UInt8) : ∃ written, insertChar ed ch =
    (true, { (if takes ed ch then putAtCursor ed ch else ed) with written := written }) := by
  rw [insertChar, takes]
  by_cases hecho : ch < 0x20 ∨ ch = 0x7F
  · rw [if_pos hecho, (not_echoable_iff ch).mp hecho, Bool.false_and, if_neg Bool.false_ne_true]
    exact ⟨ed.written, rfl⟩
  have hchar : Session.LineEditor.charEchoable ch = true := by
    rw [not_echoable_iff] at hecho
    exact Bool.eq_true_of_not_eq_false hecho
  rw [if_neg hecho, hchar, Bool.true_and]
  by_cases hfull : lineSize ≤ ed.lineLen + 1
  · rw [if_pos hfull, decide_eq_false (not_lt.mpr hfull), if_neg Bool.false_ne_true]
    exact ⟨ed.written, rfl⟩
  rw [if_neg hfull, decide_eq_true (not_le.mp hfull), if_pos rfl]
  have hput : Works (putAtCursor ed ch) := h
  dsimp only
  generalize putAtCursor ed ch = put at hput ⊢
  split_ifs with hraw
  · exact ⟨put.written, rfl⟩
  · obtain ⟨written, htwice⟩ := echoTwice_eq hput [ch]
    exact ⟨written, htwice.resolve_right hraw⟩

/-- The line with another text in it, the cursor at its end. -/
def replaced (ed : ClientEditor) (line : Bytes) : ClientEditor :=
  let len := min line.length (lineSize - 1)
  { ed with line := (line.take len ++ ed.line.drop len).set len 0, lineLen := len, lineCursor := len }

lemma replace_eq (line : Bytes) : ∃ written, lineReplace ed line =
    (true, { replaced ed line with written := written }) := by
  rw [lineReplace]
  dsimp only
  by_cases hraw : ed.rawEnabled = true
  · rw [if_pos hraw, write_eq h hraw]
    exact ⟨_, rfl⟩
  · rw [if_neg hraw]
    exact ⟨ed.written, rfl⟩

end Works

end HyBBX.Client
