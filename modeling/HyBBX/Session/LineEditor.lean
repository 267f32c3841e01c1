import HyBBX.Command.Conference
import HyBBX.Session.Input

/-! The line a session is typing: the buffer with its cursor, the ring of submitted lines, and the keys that edit. -/

namespace HyBBX.Session

open HyBBX.Core Lib Lib.Bytes Lib.Text
open Command (Area)

def lineSize : ℕ := 80
def historyMax : ℕ := 25
def csiBufMax : ℕ := 24

instance neZeroLineSize : NeZero lineSize := ⟨by decide⟩

inductive EscState
  | plain
  | esc
  | csi
  | ss3
  deriving DecidableEq, Repr

/-- What other parts of the session set: `answers` are those of the transport to the writes to come (further writes
succeed), one for all the writes of a redraw; `newline` is the one to the echo of a line end. -/
structure Surroundings where
  inputEcho : Bool
  area : Area
  messageMax : Fin lineSize
  answers : List EchoResult
  newline : EchoResult
  deriving DecidableEq

/-- `sent` is what the transport has taken of the writes that show the line. -/
structure LineEditor where
  buf : Bytes
  lineLen : ℕ
  lineCursor : ℕ
  history : ℕ → CText lineSize
  historyCount : ℕ
  historyNext : ℕ
  historyView : Option ℕ
  historySaved : CText lineSize
  escState : EscState
  csi : Bytes
  around : Surroundings
  sent : Bytes

namespace LineEditor

/-- The record as `calloc` leaves it: a first entry is being viewed, of none. -/
def opened (around : Surroundings) : LineEditor where
  buf := List.replicate lineSize 0
  lineLen := 0
  lineCursor := 0
  history _ := .empty
  historyCount := 0
  historyNext := 0
  historyView := some 0
  historySaved := .empty
  escState := .plain
  csi := []
  around := around
  sent := []

def lineText (ed : LineEditor) : Bytes := ed.buf.take ed.lineLen

/-- The bytes `src` to `src + n` are copied to `dst` and on. -/
def memmove (buf : Bytes) (dst src n : ℕ) : Bytes := buf.take dst ++ (buf.drop src).take n ++ buf.drop (dst + n)

def writeTransport (ed : LineEditor) (data : Bytes) : EchoResult × LineEditor :=
  match ed.around.answers with
  | [] => (.ok, { ed with sent := ed.sent ++ data })
  | answer :: answers =>
    (answer, { ed with
      around := { ed.around with answers := answers }
      sent := if answer = .ok then ed.sent ++ data else ed.sent })

-- composing mail has the limit of the other areas
def lineMaxLen (ed : LineEditor) : ℕ :=
  if ed.around.area = .chat ∨ ed.around.area = .conference ∨ ed.around.area = .proxychat then ed.around.messageMax
  else lineSize - 1

def charEchoable (byte : UInt8) : Bool := 0x20 ≤ byte && byte ≠ 0x7F

def moveBack (count : ℕ) : Bytes := List.replicate count 0x08

def eraseToEnd : Bytes := [0x1B, 0x5B, 0x4B]

/-- What lies behind the cursor is written again, and the cursor put back. -/
def refreshSuffix (ed : LineEditor) : EchoResult × LineEditor :=
  let suffix := (ed.buf.drop ed.lineCursor).take (ed.lineLen - ed.lineCursor)
  if ed.around.inputEcho = false then (.ok, ed)
  else writeTransport ed (suffix ++ eraseToEnd ++ moveBack (ed.lineLen - ed.lineCursor))

def cursorLeft (ed : LineEditor) : EchoResult × LineEditor :=
  if ed.lineCursor = 0 then (.ok, ed)
  else
    let ed := { ed with lineCursor := ed.lineCursor - 1 }
    if ed.around.inputEcho = false then (.ok, ed) else writeTransport ed (moveBack 1)

def cursorRight (ed : LineEditor) : EchoResult × LineEditor :=
  if ed.lineLen ≤ ed.lineCursor then (.ok, ed)
  else if ed.around.inputEcho = false then (.ok, { ed with lineCursor := ed.lineCursor + 1 })
  else match writeTransport ed [ed.buf.getD ed.lineCursor 0] with
    | (.ok, ed) => (.ok, { ed with lineCursor := ed.lineCursor + 1 })
    | r => r

/-- Up to `n` moves, until one fails. -/
def cursorMoves (move : LineEditor → EchoResult × LineEditor) : ℕ → LineEditor → EchoResult × LineEditor
  | 0, ed => (.ok, ed)
  | n + 1, ed => match move ed with
    | (.ok, ed) => cursorMoves move n ed
    | r => r

def cursorHome (ed : LineEditor) : EchoResult × LineEditor := cursorMoves cursorLeft ed.lineCursor ed

def cursorEnd (ed : LineEditor) : EchoResult × LineEditor := cursorMoves cursorRight (ed.lineLen - ed.lineCursor) ed

/-- The byte at the cursor goes. -/
def cutAtCursor (ed : LineEditor) : LineEditor :=
  { ed with
    buf := (memmove ed.buf ed.lineCursor (ed.lineCursor + 1) (ed.lineLen - ed.lineCursor - 1)).set (ed.lineLen - 1) 0
    lineLen := ed.lineLen - 1 }

def backspace (ed : LineEditor) : EchoResult × LineEditor :=
  if ed.lineCursor = 0 then (.ok, ed)
  else
    let ed := cutAtCursor { ed with lineCursor := ed.lineCursor - 1 }
    if ed.around.inputEcho = false then (.ok, ed)
    else match writeTransport ed (moveBack 1) with
      | (.ok, ed) => refreshSuffix ed
      | r => r

def deleteForward (ed : LineEditor) : EchoResult × LineEditor :=
  if ed.lineLen ≤ ed.lineCursor then (.ok, ed) else refreshSuffix (cutAtCursor ed)

/-- A byte is put at the cursor. -/
def putAtCursor (ed : LineEditor) (byte : UInt8) : LineEditor :=
  let buf :=
    if ed.lineCursor < ed.lineLen then memmove ed.buf (ed.lineCursor + 1) ed.lineCursor (ed.lineLen - ed.lineCursor)
    else ed.buf
  { ed with
    buf := (buf.set ed.lineCursor byte).set (ed.lineLen + 1) 0
    lineLen := ed.lineLen + 1
    lineCursor := ed.lineCursor + 1 }

def insertChar (ed : LineEditor) (byte : UInt8) : EchoResult × LineEditor :=
  if charEchoable byte = false then (.ok, ed)
  else if lineMaxLen ed ≤ ed.lineLen then (.ok, ed)
  else
    let ed := putAtCursor ed byte
    if ed.around.inputEcho = false then (.ok, ed)
    else match writeTransport ed [byte] with
      | (.ok, ed) => refreshSuffix ed
      -- only the end of the line is taken back: the byte stays where it was put
      | (rc, ed) =>
        (rc, { ed with
          buf := ed.buf.set (ed.lineLen - 1) 0
          lineLen := ed.lineLen - 1
          lineCursor := ed.lineCursor - 1 })

def secretCommands : List String := ["/login ", "/register ", "/changeme ", "/userchange "]

def historyShouldStore (line : Bytes) : Bool := line ≠ [] && secretCommands.all fun c => !(ofString c).isPrefixOf line

def historyAdd (ed : LineEditor) (line : Bytes) : LineEditor :=
  if historyShouldStore line = false then ed
  else { ed with
    history := Function.update ed.history ed.historyNext (.copy line)
    historyNext := (ed.historyNext + 1) % historyMax
    historyCount := if ed.historyCount < historyMax then ed.historyCount + 1 else ed.historyCount
    historyView := none
    historySaved := .empty }

def lineReplace (ed : LineEditor) (line : Bytes) : EchoResult × LineEditor :=
  let len := min line.length (lineSize - 1)
  let (rc, ed) :=
    if ed.around.inputEcho then writeTransport ed (moveBack ed.lineCursor ++ line.take len ++ eraseToEnd) else (.ok, ed)
  if rc ≠ .ok then (rc, ed)
  else (.ok, { ed with buf := (line.take len ++ ed.buf.drop len).set len 0, lineLen := len, lineCursor := len })

/-- The entry that is shown `view` steps back. -/
def entry (ed : LineEditor) (view : ℕ) : CText lineSize :=
  ed.history ((ed.historyNext + historyMax - 1 - view) % historyMax)

def historyUp (ed : LineEditor) : EchoResult × LineEditor :=
  if ed.historyCount = 0 then (.ok, ed)
  else match ed.historyView with
    | none =>
      let ed := { ed with historySaved := .copy ed.buf, historyView := some 0 }
      lineReplace ed (ed.entry 0).text
    | some view =>
      if view + 1 < ed.historyCount then
        let ed := { ed with historyView := some (view + 1) }
        lineReplace ed (ed.entry (view + 1)).text
      else (.ok, ed)

def historyDown (ed : LineEditor) : EchoResult × LineEditor :=
  match ed.historyView with
  | none => (.ok, ed)
  | some 0 =>
    let ed := { ed with historyView := none }
    lineReplace ed ed.historySaved.text
  | some (view + 1) =>
    let ed := { ed with historyView := some view }
    lineReplace ed (ed.entry view).text

def csiKey (params : Bytes) (final : UInt8) (ed : LineEditor) : EchoResult × LineEditor :=
  if final = 0x41 then historyUp ed
  else if final = 0x42 then historyDown ed
  else if final = 0x43 then cursorRight ed
  else if final = 0x44 then cursorLeft ed
  else if final = 0x48 then cursorHome ed
  else if final = 0x46 then cursorEnd ed
  else if final = 0x7E then
    if params = ofString "1" ∨ params = ofString "7" then cursorHome ed
    else if params = ofString "3" then deleteForward ed
    else if params = ofString "4" ∨ params = ofString "8" then cursorEnd ed
    else (.ok, ed)
  else (.ok, ed)

def ss3Key (byte : UInt8) (ed : LineEditor) : EchoResult × LineEditor :=
  if byte = 0x43 then cursorRight ed
  else if byte = 0x44 then cursorLeft ed
  else if byte = 0x48 then cursorHome ed
  else if byte = 0x46 then cursorEnd ed
  else (.ok, ed)

def escapeReset (ed : LineEditor) : LineEditor := { ed with escState := .plain, csi := [] }

def csiIsFinal (byte : UInt8) : Bool := 0x40 ≤ byte && byte ≤ 0x7E

/-- Whether the byte belongs to an escape sequence, and the editor behind it. -/
def filterEscapeByte (ed : LineEditor) (byte : UInt8) : Bool × LineEditor :=
  match ed.escState with
  | .plain =>
    if byte = 0x9B then (true, { ed with escState := .csi, csi := [] })
    else if byte = 0x1B then (true, { ed with escState := .esc })
    else (false, ed)
  | .esc =>
    if byte = 0x5B then (true, { ed with escState := .csi, csi := [] })
    else if byte = 0x4F then (true, { ed with escState := .ss3 })
    else (false, escapeReset ed)
  | .ss3 => (true, escapeReset (ss3Key byte ed).2)
  | .csi =>
    if csiBufMax ≤ ed.csi.length + 1 then (true, escapeReset ed)
    else if csiIsFinal byte then (true, (csiKey (cstr ed.csi) byte (escapeReset ed)).2)
    else (true, { ed with csi := ed.csi ++ [byte] })

end LineEditor

/-- The keys that an escape sequence can be. -/
inductive EditKey
  | up
  | down
  | right
  | left
  | home
  | toEnd
  | delete
  | other
  deriving DecidableEq, Repr

def csiEditKey (params : Bytes) (final : UInt8) : EditKey :=
  if final = 0x41 then .up
  else if final = 0x42 then .down
  else if final = 0x43 then .right
  else if final = 0x44 then .left
  else if final = 0x48 then .home
  else if final = 0x46 then .toEnd
  else if final = 0x7E then
    if params = ofString "1" ∨ params = ofString "7" then .home
    else if params = ofString "3" then .delete
    else if params = ofString "4" ∨ params = ofString "8" then .toEnd
    else .other
  else .other

def ss3EditKey (byte : UInt8) : EditKey :=
  if byte = 0x43 then .right
  else if byte = 0x44 then .left
  else if byte = 0x48 then .home
  else if byte = 0x46 then .toEnd
  else .other

def pressKey (key : EditKey) (ed : LineEditor) : EchoResult × LineEditor :=
  match key with
  | .up => ed.historyUp
  | .down => ed.historyDown
  | .right => ed.cursorRight
  | .left => ed.cursorLeft
  | .home => ed.cursorHome
  | .toEnd => ed.cursorEnd
  | .delete => ed.deleteForward
  | .other => (.ok, ed)

lemma csiKey_eq (params : Bytes) (final : UInt8) (ed : LineEditor) :
    LineEditor.csiKey params final ed = pressKey (csiEditKey params final) ed := by
  simp only [LineEditor.csiKey, csiEditKey, apply_ite fun key => pressKey key ed]
  rfl

lemma ss3Key_eq (byte : UInt8) (ed : LineEditor) : LineEditor.ss3Key byte ed = pressKey (ss3EditKey byte) ed := by
  simp only [LineEditor.ss3Key, ss3EditKey, apply_ite fun key => pressKey key ed]
  rfl

/-- What a command does to the session and around the line; `clears` is a call of `hybbx_session_clear_terminal`. -/
structure CommandEffect where
  loggedIn : Bool
  loginPrompt : Bool
  bandwidthPaused : Bool
  bandwidthDisconnect : Bool
  guestExpiresAt : ℤ
  around : Surroundings
  clears : Bool

abbrev EditorSession := InputSession LineEditor

def LineEditor.cleared (ed : LineEditor) : LineEditor :=
  { ed with buf := ed.buf.set 0 0, lineLen := 0, lineCursor := 0 }

def CommandEffect.apply (e : CommandEffect) (s : EditorSession) : EditorSession where
  loggedIn := e.loggedIn
  loginPrompt := e.loginPrompt
  bandwidthPaused := e.bandwidthPaused
  bandwidthDisconnect := e.bandwidthDisconnect
  guestExpiresAt := e.guestExpiresAt
  expectLf := if e.clears then false else s.expectLf
  rest := { (if e.clears then s.rest.cleared else s.rest) with around := e.around }

section Submit

variable (commands : EditorSession → Bytes → CommandEffect)

def processLine (s : EditorSession) (line : Bytes) : EditorSession :=
  if line = [] then s else (commands s line).apply s

def submitLine (s : EditorSession) : EditorSession :=
  let ed := { s.rest with buf := s.rest.buf.set s.rest.lineLen 0 }
  let line := cstr ed.buf
  let s := processLine commands { s with rest := ed.historyAdd line } line
  { s with rest := { s.rest with lineLen := 0, lineCursor := 0, historyView := none } }

def editorWork : LineWork LineEditor where
  filterEscape := LineEditor.filterEscapeByte
  backspace := LineEditor.backspace
  insertChar := LineEditor.insertChar
  echoNewline ed := if ed.around.inputEcho then ed.around.newline else .ok
  submitLine := submitLine commands

/-- What happens to a session: input from its user, or an effect of other threads around the line. -/
inductive SessionEvent
  | input (now : ℤ) (data : Bytes)
  | affected (effect : CommandEffect)

def editorStep (s : EditorSession) : SessionEvent → EditorSession
  | .input now data => (handleInput (editorWork commands) now s data).session
  | .affected effect => { effect with clears := false }.apply s

def editorRun (s : EditorSession) (events : List SessionEvent) : EditorSession := events.foldl (editorStep commands) s

end Submit

def openedSession (effect : CommandEffect) : EditorSession :=
  effect.apply ⟨false, false, false, false, 0, false, .opened effect.around⟩

/-- What holds of the line at any time: a line that is not empty is the string in the buffer. -/
structure EditorSound (ed : LineEditor) : Prop where
  size : ed.buf.length = lineSize
  fits : ed.lineLen < lineSize
  cursor : ed.lineCursor ≤ ed.lineLen
  plain : 0 ∉ ed.lineText
  ended : ed.lineLen ≠ 0 → ed.buf[ed.lineLen]? = some 0

open LineEditor

variable {ed : LineEditor}

section Buffer

lemma set_at {u w : Bytes} {b c : UInt8} {n : ℕ} (h : n = u.length) : (u ++ b :: w).set n c = u ++ c :: w := by
  simp [h]

/-- The buffer with the byte put between the two parts of the line. -/
lemma put_buf (a m r : Bytes) (x y byte : UInt8) :
    ((if a.length < (a ++ m).length then memmove (a ++ m ++ x :: y :: r) (a.length + 1) a.length ((a ++ m).length - a.length)
      else a ++ m ++ x :: y :: r).set a.length byte).set ((a ++ m).length + 1) 0 = a ++ byte :: m ++ 0 :: r := by
  cases m with
  | nil => simp
  | cons b m =>
    have htake : (a ++ b :: m ++ x :: y :: r).take (a.length + 1) = a ++ [b] := by simp [List.take_append]
    have hdrop : (a ++ b :: m ++ x :: y :: r).drop (a.length + 1 + (m.length + 1)) = y :: r := by
      rw [show a.length + 1 + (m.length + 1) = (a ++ b :: m ++ [x]).length by simp; omega,
        show a ++ b :: m ++ x :: y :: r = (a ++ b :: m ++ [x]) ++ y :: r by simp, List.drop_left]
    have hmid : ((a ++ b :: m ++ x :: y :: r).drop a.length).take (m.length + 1) = b :: m := by simp
    have hlen : (a ++ b :: m).length - a.length = m.length + 1 := by simp
    have hend := @set_at (a ++ byte :: b :: m) r y 0 ((a ++ b :: m).length + 1) (by simp; omega)
    rw [if_pos (by simp), memmove, htake, hlen, hdrop, hmid, List.append_assoc, List.append_assoc,
      List.singleton_append,
      set_at rfl, ← hend]
    simp

lemma cut_buf (a m r : Bytes) (d x : UInt8) :
    (memmove (a ++ d :: m ++ x :: r) a.length (a.length + 1) m.length).set (a ++ m).length 0 = a ++ m ++
      0 :: x :: r := by
  obtain ⟨u, l, hul⟩ := (List.eq_nil_or_concat (d :: m)).resolve_left (List.cons_ne_nil d m)
  have hlen : u.length = m.length := by simpa using (congrArg List.length hul).symm
  have hmid : ((a ++ d :: m ++ x :: r).drop (a.length + 1)).take m.length = m := by
    rw [show a ++ d :: m ++ x :: r = (a ++ [d]) ++ (m ++ x :: r) by simp, List.drop_left' (by simp), List.take_left]
  have hdrop : (a ++ d :: m ++ x :: r).drop (a.length + m.length) = l :: x :: r := by
    rw [← hlen, ← List.length_append, hul,
      show a ++ u.concat l ++ x :: r = (a ++ u) ++ l :: x :: r by simp, List.drop_left]
  have htake : (a ++ d :: m ++ x :: r).take a.length = a := by simp
  rw [memmove, htake, hmid, hdrop, set_at rfl]

/-- What a deletion makes of the text in a buffer, however many of the bytes behind it move as well. -/
lemma cut_take {buf : Bytes} {c len n : ℕ} (hc : c < len) (hlen : len ≤ buf.length) (hn : len - c - 1 ≤ n) :
    ((memmove buf c (c + 1) n).set (len - 1) 0).take (len - 1) = (buf.take len).take c ++
      (buf.take len).drop (c + 1) := by
  have hleft : (buf.take c).length = c := by
    rw [List.length_take]
    omega
  have hrest : len - 1 - c ≤ n := by omega
  rw [List.take_set_of_le (le_refl _), memmove, List.append_assoc, List.take_append, hleft,
    List.take_of_length_le (by omega),
    List.take_append_of_le_length (by rw [List.length_take, List.length_drop]; omega), List.take_take, List.take_take,
    min_eq_left hrest, min_eq_left hc.le, List.drop_take]
  congr 2
  omega

/-- What an insertion makes of the text in a buffer. -/
lemma put_take {buf : Bytes} {c len : ℕ} (hc : c ≤ len) (hroom : len + 1 < buf.length) (byte : UInt8) : ∃ rest,
    ((if c < len then memmove buf (c + 1) c (len - c) else buf).set c byte).set (len + 1) 0 =
      (buf.take len).take c ++ byte :: (buf.take len).drop c ++ 0 :: rest := by
  obtain ⟨x, y, r, hxy⟩ : ∃ x y r, buf.drop len = x :: y :: r := by
    have hdrop : 2 ≤ (buf.drop len).length := by
      rw [List.length_drop]
      omega
    match buf.drop len, hdrop with
    | x :: y :: r, _ => exact ⟨x, y, r, rfl⟩
  have hbuf : buf = buf.take len ++ x :: y :: r := by rw [← hxy, List.take_append_drop]
  have hlen : (buf.take len).length = len := by
    rw [List.length_take]
    omega
  have hcursor : ((buf.take len).take c).length = c := by
    rw [List.length_take]
    omega
  have htext : buf.take len = (buf.take len).take c ++ (buf.take len).drop c := (List.take_append_drop _ _).symm
  rw [htext] at hlen hbuf
  generalize (buf.take len).take c = a at hlen hbuf hcursor ⊢
  generalize (buf.take len).drop c = m at hlen hbuf ⊢
  refine ⟨r, ?_⟩
  have hput := put_buf a m r x y byte
  rw [hcursor, hlen, ← hbuf] at hput
  exact hput

lemma memmove_length (buf : Bytes) (dst src n : ℕ) (hsrc : src + n ≤ buf.length) (hdst : dst + n ≤ buf.length) :
    (memmove buf dst src n).length = buf.length := by
  simp only [memmove, List.length_append, List.length_take, List.length_drop]
  omega

end Buffer

lemma writeTransport_line (ed : LineEditor) (data : Bytes) : (writeTransport ed data).2.buf = ed.buf ∧
    (writeTransport ed data).2.lineLen = ed.lineLen ∧ (writeTransport ed data).2.lineCursor = ed.lineCursor := by
  rw [writeTransport]
  split <;> exact ⟨rfl, rfl, rfl⟩

section Keep

variable {P : LineEditor → Prop}

/-- What follows a write that is taken. -/
lemma keepsThen {r : EchoResult × LineEditor} {next : LineEditor → EchoResult × LineEditor} (h : P r.2)
    (hnext : ∀ ed, P ed → P (next ed).2) :
    P (match r with
      | (.ok, ed) => next ed
      | r => r).2 := by
  obtain ⟨rc, ed⟩ := r
  cases rc with
  | ok => exact hnext ed h
  | errInvalid => exact h
  | errIo => exact h

lemma movesKeep {move : LineEditor → EchoResult × LineEditor} (hmove : ∀ ed, P ed → P (move ed).2) (n : ℕ)
    {ed : LineEditor} (h : P ed) : P (cursorMoves move n ed).2 := by
  induction n generalizing ed with
  | zero => exact h
  | succ n ih => exact keepsThen (hmove ed h) fun _ => ih

end Keep

section Sound

lemma soundOf {text rest : Bytes} (hbuf : ed.buf = text ++ 0 :: rest) (hlen : ed.lineLen = text.length) (h0 : 0 ∉ text)
    (hsize : ed.buf.length = lineSize) (hcursor : ed.lineCursor ≤ ed.lineLen) : EditorSound ed := by
  refine ⟨hsize, ?_, hcursor, ?_, fun _ => ?_⟩
  · rw [hbuf, List.length_append, List.length_cons] at hsize
    omega
  · rwa [lineText, hbuf, hlen, List.take_left]
  · rw [hbuf, hlen]
    simp

variable (h : EditorSound ed)

include h

lemma EditorSound.length : ed.lineText.length = ed.lineLen := by
  have hsize := h.size
  have hfits := h.fits
  rw [lineText, List.length_take]
  omega

lemma EditorSound.split (hne : ed.lineLen ≠ 0) : ∃ rest, ed.buf = ed.lineText ++ 0 :: rest := by
  have hlt : ed.lineLen < ed.buf.length := by
    rw [h.size]
    exact h.fits
  have hend := h.ended hne
  rw [List.getElem?_eq_getElem hlt, Option.some_inj] at hend
  refine ⟨ed.buf.drop (ed.lineLen + 1), ?_⟩
  rw [lineText, ← hend, ← List.drop_eq_getElem_cons hlt, List.take_append_drop]

/-- The string in the buffer is the line, unless a line is left over behind an empty one. -/
lemma EditorSound.string_iff : cstr ed.buf = ed.lineText ↔ ed.lineLen ≠ 0 ∨ ed.buf.head? = some 0 := by
  by_cases hne : ed.lineLen = 0
  · have hempty : ed.lineText = [] := by simp [lineText, hne]
    rw [hempty, or_iff_right (not_not.mpr hne), cstr]
    cases hb : ed.buf with
    | nil =>
      have hsize := h.size
      rw [hb] at hsize
      exact absurd hsize (by decide)
    | cons b buf => simp [List.takeWhile_cons]
  · obtain ⟨rest, hbuf⟩ := h.split hne
    refine iff_of_true ?_ (.inl hne)
    conv_lhs => rw [hbuf, cstr, List.takeWhile_append_of_pos fun b hb => by simpa using ne_of_mem_of_not_mem hb h.plain,
      List.takeWhile_cons_of_neg (by simp), List.append_nil]

lemma EditorSound.of_line {ed' : LineEditor} (hbuf : ed'.buf = ed.buf) (hlen : ed'.lineLen = ed.lineLen)
    (hcursor : ed'.lineCursor ≤ ed.lineLen) : EditorSound ed' := by
  refine ⟨hbuf ▸ h.size, hlen ▸ h.fits, hlen ▸ hcursor, ?_, fun hne => ?_⟩
  · rw [lineText, hbuf, hlen]
    exact h.plain
  · rw [hbuf, hlen]
    exact h.ended (hlen ▸ hne)

lemma EditorSound.write (data : Bytes) : EditorSound (writeTransport ed data).2 := by
  rw [writeTransport]
  split
  · exact h.of_line rfl rfl h.cursor
  · exact h.of_line rfl rfl h.cursor

lemma EditorSound.refresh : EditorSound (refreshSuffix ed).2 := by
  rw [refreshSuffix]
  split_ifs
  · exact h
  · exact h.write _

lemma EditorSound.left : EditorSound (cursorLeft ed).2 := by
  have hmoved : EditorSound { ed with lineCursor := ed.lineCursor - 1 } :=
    h.of_line rfl rfl ((Nat.sub_le _ 1).trans h.cursor)
  rw [cursorLeft]
  dsimp only
  split_ifs
  · exact h
  · exact hmoved
  · exact hmoved.write _

lemma EditorSound.right : EditorSound (cursorRight ed).2 := by
  have hwrite := h.write [ed.buf.getD ed.lineCursor 0]
  obtain ⟨-, hlen, hcursor⟩ := writeTransport_line ed [ed.buf.getD ed.lineCursor 0]
  rw [cursorRight]
  split_ifs with hend
  · exact h
  · exact h.of_line rfl rfl (by dsimp only; omega)
  · cases hw : writeTransport ed [ed.buf.getD ed.lineCursor 0] with
    | mk rc ed' =>
      rw [hw] at hwrite hlen hcursor
      cases rc with
      | ok => exact hwrite.of_line rfl rfl (by dsimp only at *; omega)
      | errInvalid => exact hwrite
      | errIo => exact hwrite

lemma EditorSound.home : EditorSound (cursorHome ed).2 := movesKeep (fun _ h => h.left) _ h

lemma EditorSound.goEnd : EditorSound (cursorEnd ed).2 := movesKeep (fun _ h => h.right) _ h

lemma EditorSound.left_length : (ed.lineText.take ed.lineCursor).length = ed.lineCursor := by
  have hlen := h.length
  have hcur := h.cursor
  rw [List.length_take]
  omega

/-- The buffer without the byte at the cursor. -/
lemma EditorSound.cut_buf (hlt : ed.lineCursor < ed.lineLen) : ∃ rest, (cutAtCursor ed).buf =
    ed.lineText.take ed.lineCursor ++ ed.lineText.drop (ed.lineCursor + 1) ++ 0 :: rest := by
  obtain ⟨rest, hbuf⟩ := h.split (by omega)
  have hlen := h.length
  have hcursor := h.left_length
  obtain ⟨d, m, hdm⟩ :=
    List.exists_cons_of_length_pos (l := ed.lineText.drop ed.lineCursor) (by rw [List.length_drop]; omega)
  have htext : ed.lineText = ed.lineText.take ed.lineCursor ++ d :: m := by rw [← hdm, List.take_append_drop]
  have hm : ed.lineText.drop (ed.lineCursor + 1) = m := by rw [← List.tail_drop, hdm, List.tail_cons]
  rw [hm]
  generalize ed.lineText.take ed.lineCursor = a at htext hcursor
  have hmlen : ed.lineLen - ed.lineCursor - 1 = m.length ∧ ed.lineLen - 1 = (a ++ m).length := by
    rw [← hlen, htext, ← hcursor, List.length_append, List.length_append, List.length_cons]
    omega
  refine ⟨0 :: rest, ?_⟩
  rw [cutAtCursor, hmlen.1, hmlen.2, hbuf, htext, ← hcursor]
  exact Session.cut_buf a m rest d 0

/-- The line without the byte at the cursor. -/
lemma EditorSound.cut_text (hlt : ed.lineCursor < ed.lineLen) :
    (cutAtCursor ed).lineText = ed.lineText.take ed.lineCursor ++ ed.lineText.drop (ed.lineCursor + 1) := by
  obtain ⟨rest, hbuf⟩ := h.cut_buf hlt
  have hlen : (cutAtCursor ed).lineLen =
      (ed.lineText.take ed.lineCursor ++ ed.lineText.drop (ed.lineCursor + 1)).length := by
    rw [List.length_append, h.left_length, List.length_drop, h.length, cutAtCursor]
    dsimp only
    omega
  rw [lineText, hbuf, hlen, List.take_left]

lemma EditorSound.cut (hlt : ed.lineCursor < ed.lineLen) : EditorSound (cutAtCursor ed) := by
  obtain ⟨rest, hbuf⟩ := h.cut_buf hlt
  have hsize := h.size
  have hfits := h.fits
  refine soundOf hbuf ?_ (fun h0 => h.plain ?_) ?_ ?_
  · rw [List.length_append, h.left_length, List.length_drop, h.length, cutAtCursor]
    dsimp only
    omega
  · rcases List.mem_append.mp h0 with ha | hb
    · exact List.mem_of_mem_take ha
    · exact List.mem_of_mem_drop hb
  · rw [cutAtCursor, List.length_set, memmove_length _ _ _ _ (by omega) (by omega), hsize]
  · have hle : ed.lineCursor ≤ ed.lineLen - 1 := by omega
    exact hle

/-- The buffer with a byte at the cursor; there is room for its end behind it. -/
lemma EditorSound.put_buf (hroom : ed.lineLen < lineSize - 1) (byte : UInt8) : ∃ rest, (putAtCursor ed byte).buf =
    ed.lineText.take ed.lineCursor ++ byte :: ed.lineText.drop ed.lineCursor ++ 0 :: rest := by
  have hsize := h.size
  exact put_take h.cursor (by omega) byte

/-- The line with a byte at the cursor. -/
lemma EditorSound.put_text (hroom : ed.lineLen < lineSize - 1) (byte : UInt8) :
    (putAtCursor ed byte).lineText = ed.lineText.take ed.lineCursor ++ byte :: ed.lineText.drop ed.lineCursor := by
  obtain ⟨rest, hbuf⟩ := h.put_buf hroom byte
  have hcur := h.cursor
  have hlen : (putAtCursor ed byte).lineLen =
      (ed.lineText.take ed.lineCursor ++ byte :: ed.lineText.drop ed.lineCursor).length := by
    rw [List.length_append, h.left_length, List.length_cons, List.length_drop, h.length, putAtCursor]
    dsimp only
    omega
  rw [lineText, hbuf, hlen, List.take_left]

lemma EditorSound.put (hroom : ed.lineLen < lineSize - 1) {byte : UInt8} (hbyte : byte ≠ 0) :
    EditorSound (putAtCursor ed byte) := by
  obtain ⟨rest, hbuf⟩ := h.put_buf hroom byte
  have hsize := h.size
  have hcur := h.cursor
  refine soundOf hbuf ?_ ?_ ?_ (Nat.succ_le_succ hcur)
  · rw [List.length_append, h.left_length, List.length_cons, List.length_drop, h.length, putAtCursor]
    dsimp only
    omega
  · intro h0
    rcases List.mem_append.mp h0 with ha | hb
    · exact h.plain (List.mem_of_mem_take ha)
    · rcases List.mem_cons.mp hb with hb | hb
      · exact hbyte hb.symm
      · exact h.plain (List.mem_of_mem_drop hb)
  · rw [putAtCursor]
    dsimp only
    split_ifs
    · rw [List.length_set, List.length_set, memmove_length _ _ _ _ (by omega) (by omega), hsize]
    · rw [List.length_set, List.length_set, hsize]

/-- The end of the line moves back by one. -/
lemma EditorSound.takeBack (hne : ed.lineLen ≠ 0) : EditorSound { ed with
    buf := ed.buf.set (ed.lineLen - 1) 0, lineLen := ed.lineLen - 1, lineCursor := ed.lineCursor - 1 } := by
  obtain ⟨rest, hbuf⟩ := h.split hne
  have hlen := h.length
  have hsize := h.size
  have hcur := h.cursor
  have hplain := h.plain
  obtain ⟨text, b, htext⟩ := (List.eq_nil_or_concat ed.lineText).resolve_left fun h0 => hne (by rw [← hlen, h0]; rfl)
  rw [htext] at hlen hbuf hplain
  have hlen' : ed.lineLen - 1 = text.length := by
    rw [← hlen]
    simp
  have hbuf' : ed.buf.set (ed.lineLen - 1) 0 = text ++ 0 :: 0 :: rest := by
    rw [hbuf, List.concat_eq_append, List.append_assoc, List.singleton_append, set_at hlen']
  refine soundOf hbuf' hlen' (fun h0 => hplain ?_) ?_ ?_
  · rw [List.concat_eq_append]
    exact List.mem_append_left _ h0
  · dsimp only
    rw [List.length_set, hsize]
  · dsimp only
    omega

lemma EditorSound.delete : EditorSound (deleteForward ed).2 := by
  rw [deleteForward]
  split_ifs with hend
  · exact h
  · exact (h.cut (by omega)).refresh

lemma EditorSound.back : EditorSound (backspace ed).2 := by
  have hcur := h.cursor
  rw [backspace]
  by_cases h0 : ed.lineCursor = 0
  · rw [if_pos h0]
    exact h
  · rw [if_neg h0]
    have hmoved : EditorSound { ed with lineCursor := ed.lineCursor - 1 } :=
      h.of_line rfl rfl ((Nat.sub_le _ 1).trans hcur)
    have hcut := hmoved.cut (by dsimp only; omega)
    dsimp only
    split_ifs
    · exact hcut
    · exact keepsThen (hcut.write _) fun _ h => h.refresh

omit h in
lemma lineMaxLen_le (ed : LineEditor) : lineMaxLen ed ≤ lineSize - 1 := by
  rw [lineMaxLen]
  split_ifs
  · have := ed.around.messageMax.isLt
    omega
  · exact le_refl _

lemma EditorSound.insert (byte : UInt8) : EditorSound (insertChar ed byte).2 := by
  have hmax := lineMaxLen_le ed
  rw [insertChar]
  by_cases hecho : charEchoable byte = false
  · rw [if_pos hecho]
    exact h
  rw [if_neg hecho]
  by_cases hfull : lineMaxLen ed ≤ ed.lineLen
  · rw [if_pos hfull]
    exact h
  rw [if_neg hfull]
  have hbyte : byte ≠ 0 := by
    rintro rfl
    exact hecho rfl
  have hput := h.put (by omega) hbyte
  have hlen : (putAtCursor ed byte).lineLen ≠ 0 := Nat.succ_ne_zero _
  dsimp only
  split_ifs
  · exact hput
  · have hwrite := hput.write [byte]
    obtain ⟨-, hlen', -⟩ := writeTransport_line (putAtCursor ed byte) [byte]
    rw [← hlen'] at hlen
    generalize writeTransport (putAtCursor ed byte) [byte] = r at hwrite hlen ⊢
    obtain ⟨rc, ed'⟩ := r
    cases rc with
    | ok => exact hwrite.refresh
    | errInvalid => exact hwrite.takeBack hlen
    | errIo => exact hwrite.takeBack hlen

lemma EditorSound.replace (line : CText lineSize) : EditorSound (lineReplace ed line.text).2 := by
  have hfits := line.fits
  have hlen : min line.text.length (lineSize - 1) = line.text.length := min_eq_left (by omega)
  have hwritten : ∀ data, EditorSound (if ed.around.inputEcho then writeTransport ed data else (.ok, ed)).2 := by
    intro data
    split_ifs
    · exact h.write data
    · exact h
  rw [lineReplace]
  have hwritten := hwritten (moveBack ed.lineCursor ++ line.text.take (min line.text.length (lineSize - 1)) ++ eraseToEnd)
  generalize (if ed.around.inputEcho then writeTransport ed
    (moveBack ed.lineCursor ++ line.text.take (min line.text.length (lineSize - 1)) ++ eraseToEnd) else (.ok, ed)) = r
    at hwritten ⊢
  obtain ⟨rc, ed'⟩ := r
  dsimp only at hwritten ⊢
  split_ifs
  · exact hwritten
  · have hsize := hwritten.size
    obtain ⟨b, rest, hdrop⟩ := List.exists_cons_of_length_pos (l := ed'.buf.drop line.text.length)
      (by rw [List.length_drop]; omega)
    have hbuf : (line.text.take line.text.length ++ ed'.buf.drop line.text.length).set line.text.length 0 =
        line.text ++ 0 :: rest := by rw [List.take_length, hdrop, set_at rfl]
    rw [hlen]
    refine soundOf hbuf rfl line.string ?_ (le_refl _)
    dsimp only
    rw [List.length_set, List.length_append, List.length_take, List.length_drop]
    omega

lemma EditorSound.viewing (view : Option ℕ) (saved : CText lineSize) :
    EditorSound { ed with historyView := view, historySaved := saved } := h.of_line rfl rfl h.cursor

lemma EditorSound.up : EditorSound (historyUp ed).2 := by
  rw [historyUp]
  split_ifs
  · exact h
  · split
    · exact (h.viewing (some 0) (.copy ed.buf)).replace _
    · rename_i view _
      dsimp only
      split_ifs
      · exact (h.viewing (some (view + 1)) ed.historySaved).replace _
      · exact h

lemma EditorSound.down : EditorSound (historyDown ed).2 := by
  rw [historyDown]
  split
  · exact h
  · exact (h.viewing none ed.historySaved).replace _
  · rename_i view _
    exact (h.viewing (some view) ed.historySaved).replace _

lemma EditorSound.reset : EditorSound (escapeReset ed) := h.of_line rfl rfl h.cursor

lemma EditorSound.pressed (key : EditKey) : EditorSound (pressKey key ed).2 := by
  cases key with
  | up => exact h.up
  | down => exact h.down
  | right => exact h.right
  | left => exact h.left
  | home => exact h.home
  | toEnd => exact h.goEnd
  | delete => exact h.delete
  | other => exact h

lemma EditorSound.filter (byte : UInt8) : EditorSound (filterEscapeByte ed byte).2 := by
  rw [filterEscapeByte]
  split
  · split_ifs
    · exact h.of_line rfl rfl h.cursor
    · exact h.of_line rfl rfl h.cursor
    · exact h
  · split_ifs
    · exact h.of_line rfl rfl h.cursor
    · exact h.of_line rfl rfl h.cursor
    · exact h.reset
  · rw [ss3Key_eq]
    exact (h.pressed _).reset
  · split_ifs
    · exact h.reset
    · rw [csiKey_eq]
      exact h.reset.pressed _
    · exact h.of_line rfl rfl h.cursor

end Sound

section Run

variable {commands : EditorSession → Bytes → CommandEffect}

lemma soundEmpty (hsize : ed.buf.length = lineSize) (hlen : ed.lineLen = 0) (hcursor : ed.lineCursor = 0) :
    EditorSound ed where
  size := hsize
  fits := by rw [hlen]; decide
  cursor := by rw [hlen, hcursor]
  plain := by simp [lineText, hlen]
  ended h := absurd hlen h

lemma apply_size (e : CommandEffect) (s : EditorSession) : (e.apply s).rest.buf.length = s.rest.buf.length := by
  rw [CommandEffect.apply]
  dsimp only
  split_ifs
  · rw [cleared, List.length_set]
  · rfl

lemma apply_sound (e : CommandEffect) {s : EditorSession} (h : EditorSound s.rest) : EditorSound (e.apply s).rest := by
  have hsize := apply_size e s
  rw [CommandEffect.apply] at hsize ⊢
  dsimp only at hsize ⊢
  split_ifs at hsize ⊢
  · exact soundEmpty (hsize.trans h.size) rfl rfl
  · exact h.of_line rfl rfl h.cursor

lemma processLine_size (s : EditorSession) (line : Bytes) :
    (processLine commands s line).rest.buf.length = s.rest.buf.length := by
  rw [processLine]
  split_ifs
  · rfl
  · exact apply_size _ s

lemma historyAdd_buf (ed : LineEditor) (line : Bytes) : (historyAdd ed line).buf = ed.buf := by
  rw [historyAdd]
  split_ifs <;> rfl

lemma submitLine_sound {s : EditorSession} (h : EditorSound s.rest) : EditorSound (submitLine commands s).rest := by
  refine soundEmpty ?_ rfl rfl
  rw [submitLine]
  dsimp only
  rw [processLine_size, historyAdd_buf, List.length_set]
  exact h.size

lemma editorWork_sound : WorkKeeps (editorWork commands) EditorSound where
  filterEscape _ byte h := h.filter byte
  backspace _ h := h.back
  insertChar _ byte h := h.insert byte
  submitLine _ h := submitLine_sound h

lemma opened_sound (effect : CommandEffect) : EditorSound (openedSession effect).rest :=
  apply_sound _ (soundEmpty List.length_replicate rfl rfl)

lemma editorRun_sound (events : List SessionEvent) {s : EditorSession} (h : EditorSound s.rest) :
    EditorSound (editorRun commands s events).rest := by
  induction events generalizing s with
  | nil => exact h
  | cons event events ih =>
    apply ih
    cases event with
    | input now data => exact handleInput_keeps editorWork_sound now data h
    | affected effect => exact apply_sound _ h

end Run

end HyBBX.Session
