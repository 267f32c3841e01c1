import HyBBX.Lib.CursorLine
import HyBBX.Session.HistoryKeys

/-! What a user sees of the line: a terminal that reads the echo shows the text in the buffer, with its cursor. -/

namespace HyBBX.Session

open HyBBX.Core Lib Lib.Bytes Lib.Text LineEditor

def cursorLine (ed : LineEditor) : CursorLine UInt8 := .at' ed.lineText ed.lineCursor

/-- The string in the buffer has its end where the line has it. -/
def Ended (ed : LineEditor) : Prop := ed.buf[ed.lineLen]? = some 0

/-- A terminal that shows one line and reads what has been written since shows the other one. -/
structure OnScreen (ed ed' : LineEditor) : Prop where
  screen : ∃ out, ed'.sent = ed.sent ++ out ∧
    (CursorLine.Terminal.showing (cursorLine ed)).feedAll out = .showing (cursorLine ed')
  cursor : ed'.lineCursor ≤ ed'.lineLen
  fits : ed'.lineLen < lineSize

/-- Whatever can get into the line can be printed. -/
structure Typed (ed : LineEditor) : Prop where
  buf : ∀ b ∈ ed.buf, b = 0 ∨ charEchoable b = true
  history : ∀ i, ∀ b ∈ (ed.history i).text, charEchoable b = true
  saved : ∀ b ∈ ed.historySaved.text, charEchoable b = true

section Typed

variable {ed ed' : LineEditor}

lemma Typed.of_buf (h : Typed ed) (hbuf : ∀ b ∈ ed'.buf, b = 0 ∨ b ∈ ed.buf) (hhistory : ed'.history = ed.history)
    (hsaved : ed'.historySaved = ed.historySaved) : Typed ed' := by
  refine ⟨?_, hhistory ▸ h.history, hsaved ▸ h.saved⟩
  intro b hb
  rcases hbuf b hb with h0 | hmem
  · exact .inl h0
  · exact h.buf b hmem

lemma Typed.same (h : Typed ed) (hbuf : ed'.buf = ed.buf) (hhistory : ed'.history = ed.history)
    (hsaved : ed'.historySaved = ed.historySaved) : Typed ed' :=
  h.of_buf (fun _ hb => .inr (hbuf ▸ hb)) hhistory hsaved

lemma Typed.write (h : Typed ed) (data : Bytes) : Typed (writeTransport ed data).2 := by
  rw [writeTransport]
  split
  · exact h.same rfl rfl rfl
  · exact h.same rfl rfl rfl

lemma Typed.refresh (h : Typed ed) : Typed (refreshSuffix ed).2 := by
  rw [refreshSuffix]
  split_ifs
  · exact h
  · exact h.write _

lemma Typed.left (h : Typed ed) : Typed (cursorLeft ed).2 := by
  have hmoved : Typed { ed with lineCursor := ed.lineCursor - 1 } := h.same rfl rfl rfl
  rw [cursorLeft]
  dsimp only
  split_ifs
  · exact h
  · exact hmoved
  · exact hmoved.write _

lemma Typed.right (h : Typed ed) : Typed (cursorRight ed).2 := by
  rw [cursorRight]
  split_ifs
  · exact h
  · exact h.same rfl rfl rfl
  · exact keepsThen (h.write _) fun _ h => h.same rfl rfl rfl

lemma mem_memmove {buf : Bytes} {dst src n : ℕ} {b : UInt8} (h : b ∈ memmove buf dst src n) : b ∈ buf := by
  rw [memmove] at h
  rcases List.mem_append.mp h with h | h
  · rcases List.mem_append.mp h with h | h
    · exact List.mem_of_mem_take h
    · exact List.mem_of_mem_drop (List.mem_of_mem_take h)
  · exact List.mem_of_mem_drop h

lemma Typed.cut (h : Typed ed) : Typed (cutAtCursor ed) := by
  refine h.of_buf ?_ rfl rfl
  intro b hb
  rcases List.mem_or_eq_of_mem_set hb with hmem | h0
  · exact .inr (mem_memmove hmem)
  · exact .inl h0

lemma Typed.back (h : Typed ed) : Typed (backspace ed).2 := by
  have hcut : Typed (cutAtCursor { ed with lineCursor := ed.lineCursor - 1 }) := Typed.cut (h.same rfl rfl rfl)
  rw [backspace]
  dsimp only
  split_ifs
  · exact h
  · exact hcut
  · exact keepsThen (hcut.write _) fun _ h => h.refresh

lemma Typed.delete (h : Typed ed) : Typed (deleteForward ed).2 := by
  rw [deleteForward]
  split_ifs
  · exact h
  · exact h.cut.refresh

lemma Typed.put (h : Typed ed) {byte : UInt8} (hbyte : charEchoable byte = true) : Typed (putAtCursor ed byte) := by
  refine ⟨?_, h.history, h.saved⟩
  intro b hb
  rcases List.mem_or_eq_of_mem_set hb with hmem | h0
  · rcases List.mem_or_eq_of_mem_set hmem with hmem | rfl
    · split_ifs at hmem
      · exact h.buf b (mem_memmove hmem)
      · exact h.buf b hmem
    · exact .inr hbyte
  · exact .inl h0

lemma Typed.insert (h : Typed ed) (byte : UInt8) : Typed (insertChar ed byte).2 := by
  rw [insertChar]
  by_cases hecho : charEchoable byte = false
  · rw [if_pos hecho]
    exact h
  rw [if_neg hecho]
  by_cases hfull : lineMaxLen ed ≤ ed.lineLen
  · rw [if_pos hfull]
    exact h
  rw [if_neg hfull]
  have hput := h.put (Bool.eq_true_of_not_eq_false hecho)
  dsimp only
  split_ifs
  · exact hput
  · have hwrite := hput.write [byte]
    generalize writeTransport (putAtCursor ed byte) [byte] = r at hwrite ⊢
    obtain ⟨rc, ed'⟩ := r
    have htaken : Typed { ed' with
        buf := ed'.buf.set (ed'.lineLen - 1) 0
        lineLen := ed'.lineLen - 1
        lineCursor := ed'.lineCursor - 1 } := by
      refine hwrite.of_buf ?_ rfl rfl
      intro b hb
      exact (List.mem_or_eq_of_mem_set hb).symm
    cases rc with
    | ok => exact hwrite.refresh
    | errInvalid => exact htaken
    | errIo => exact htaken

lemma Typed.replace (h : Typed ed) {line : Bytes} (hline : ∀ b ∈ line, charEchoable b = true) :
    Typed (lineReplace ed line).2 := by
  have hwritten : ∀ data, Typed (if ed.around.inputEcho then writeTransport ed data else (.ok, ed)).2 := by
    intro data
    split_ifs
    · exact h.write data
    · exact h
  rw [lineReplace]
  have hwritten := hwritten (moveBack ed.lineCursor ++ line.take (min line.length (lineSize - 1)) ++ eraseToEnd)
  generalize (if ed.around.inputEcho then writeTransport ed
    (moveBack ed.lineCursor ++ line.take (min line.length (lineSize - 1)) ++ eraseToEnd) else (.ok, ed)) = r at hwritten ⊢
  obtain ⟨rc, ed'⟩ := r
  dsimp only at hwritten ⊢
  split_ifs
  · exact hwritten
  · refine ⟨?_, hwritten.history, hwritten.saved⟩
    intro b hb
    rcases List.mem_or_eq_of_mem_set hb with hmem | h0
    · rcases List.mem_append.mp hmem with hmem | hmem
      · exact .inr (hline b (List.mem_of_mem_take hmem))
      · exact hwritten.buf b (List.mem_of_mem_drop hmem)
    · exact .inl h0

lemma typed_copy {buf : Bytes} (h : ∀ b ∈ buf, b = 0 ∨ charEchoable b = true) :
    ∀ b ∈ (CText.copy buf : CText lineSize).text, charEchoable b = true := by
  intro b hb
  have hmem : b ∈ cstr buf := List.mem_of_mem_take hb
  have hne : b ≠ 0 := by
    rintro rfl
    exact zero_notMem_cstr buf hmem
  exact (h b ((List.takeWhile_sublist _).subset hmem)).resolve_left hne

lemma Typed.viewing (h : Typed ed) (view : Option ℕ) : Typed { ed with historyView := view } := h.same rfl rfl rfl

lemma Typed.up (h : Typed ed) : Typed (historyUp ed).2 := by
  rw [historyUp]
  split_ifs
  · exact h
  · split
    · have hsaved : Typed { ed with historySaved := .copy ed.buf, historyView := some 0 } :=
        ⟨h.buf, h.history, typed_copy h.buf⟩
      exact hsaved.replace (h.history _)
    · dsimp only
      split_ifs
      · exact (h.viewing _).replace (h.history _)
      · exact h

lemma Typed.down (h : Typed ed) : Typed (historyDown ed).2 := by
  rw [historyDown]
  split
  · exact h
  · exact (h.viewing none).replace h.saved
  · exact (h.viewing _).replace (h.history _)

lemma Typed.reset (h : Typed ed) : Typed (escapeReset ed) := h.same rfl rfl rfl

lemma Typed.pressed (h : Typed ed) (key : EditKey) : Typed (pressKey key ed).2 := by
  cases key with
  | up => exact h.up
  | down => exact h.down
  | right => exact h.right
  | left => exact h.left
  | home => exact movesKeep (fun _ h => h.left) _ h
  | toEnd => exact movesKeep (fun _ h => h.right) _ h
  | delete => exact h.delete
  | other => exact h

lemma Typed.filter (h : Typed ed) (byte : UInt8) : Typed (filterEscapeByte ed byte).2 := by
  rw [filterEscapeByte]
  split
  · split_ifs
    · exact h.same rfl rfl rfl
    · exact h.same rfl rfl rfl
    · exact h
  · split_ifs
    · exact h.same rfl rfl rfl
    · exact h.same rfl rfl rfl
    · exact h.reset
  · rw [ss3Key_eq]
    exact (h.pressed _).reset
  · split_ifs
    · exact h.reset
    · rw [csiKey_eq]
      exact h.reset.pressed _
    · exact h.same rfl rfl rfl

end Typed

/-- A line whose echo is on and whose transport takes everything. -/
structure Live (ed : LineEditor) : Prop where
  sound : EditorSound ed
  typed : Typed ed
  echo : ed.around.inputEcho = true
  answers : ed.around.answers = []

/-- What an edit does to the line, the terminal does with what the edit writes. -/
structure Echoes (ed ed' : LineEditor) : Prop where
  live : Live ed'
  screen : ∃ out, ed'.sent = ed.sent ++ out ∧
    (CursorLine.Terminal.showing (cursorLine ed)).feedAll out = .showing (cursorLine ed')
  ended : Ended ed → Ended ed'

section Echo

open CursorLine Terminal

variable {ed ed' ed'' : LineEditor}

lemma Echoes.refl (h : Live ed) : Echoes ed ed := ⟨h, ⟨[], (List.append_nil _).symm, rfl⟩, id⟩

lemma Echoes.trans (h : Echoes ed ed') (h' : Echoes ed' ed'') : Echoes ed ed'' := by
  obtain ⟨out, hsent, hshown⟩ := h.screen
  obtain ⟨out', hsent', hshown'⟩ := h'.screen
  refine ⟨h'.live, ⟨out ++ out', ?_, ?_⟩, fun hend => h'.ended (h.ended hend)⟩
  · rw [hsent', hsent, List.append_assoc]
  · rw [feedAll_append, hshown, hshown']

/-- An edit that succeeds, with its echo. -/
def Done (ed : LineEditor) (r : EchoResult × LineEditor) : Prop := r.1 = .ok ∧ Echoes ed r.2

lemma Done.same (h : Live ed) : Done ed (.ok, ed) := ⟨rfl, .refl h⟩

lemma write_ok (h : ed.around.answers = []) (data : Bytes) :
    writeTransport ed data = (.ok, { ed with sent := ed.sent ++ data }) := by
  rw [writeTransport, h]

lemma Live.char (h : Live ed) : ∀ b ∈ ed.lineText, printable b = true := by
  intro b hb
  have hne : b ≠ 0 := by
    rintro rfl
    exact h.sound.plain hb
  exact (h.typed.buf b (List.mem_of_mem_take hb)).resolve_left hne

/-- The rest of the line is written again behind what stands before the cursor, whatever was there. -/
lemma Live.refresh (h : Live ed) (right : Bytes) : (refreshSuffix ed).1 = .ok ∧
    ∃ out, (refreshSuffix ed).2 = { ed with sent := ed.sent ++ out } ∧
      (showing ⟨ed.lineText.take ed.lineCursor, right⟩).feedAll out = showing (cursorLine ed) := by
  have hsuffix : (ed.buf.drop ed.lineCursor).take (ed.lineLen - ed.lineCursor) = ed.lineText.drop ed.lineCursor := by
    rw [lineText, List.drop_take]
  have hback : ed.lineLen - ed.lineCursor = (ed.lineText.drop ed.lineCursor).length := by
    rw [List.length_drop, h.sound.length]
  have hecho : ¬ed.around.inputEcho = false := by simp [h.echo]
  rw [refreshSuffix, if_neg hecho, write_ok h.answers, hsuffix, hback]
  refine ⟨rfl, _, rfl, ?_⟩
  apply feedAll_suffix
  intro b hb
  exact h.char b (List.mem_of_mem_drop hb)

/-- A move that needs no more than its bytes. -/
lemma Live.moved (h : Live ed) {cursor : ℕ} (hcursor : cursor ≤ ed.lineLen) {out : Bytes}
    (hout : (showing (cursorLine ed)).feedAll out = showing (.at' ed.lineText cursor)) :
    Echoes ed { ed with lineCursor := cursor, sent := ed.sent ++ out } :=
  ⟨⟨h.sound.of_line rfl rfl hcursor, h.typed.same rfl rfl rfl, h.echo, h.answers⟩, ⟨out, rfl, hout⟩, id⟩

lemma Live.left (h : Live ed) : Done ed (cursorLeft ed) := by
  have hcursor := h.sound.cursor
  have hlen := h.sound.length
  rw [cursorLeft]
  by_cases h0 : ed.lineCursor = 0
  · rw [if_pos h0]
    exact .same h
  have hecho : ¬ed.around.inputEcho = false := by simp [h.echo]
  have hwrite := @write_ok { ed with lineCursor := ed.lineCursor - 1 } h.answers (moveBack 1)
  rw [if_neg h0]
  dsimp only
  rw [if_neg hecho, hwrite]
  refine ⟨rfl, @Live.moved ed h (ed.lineCursor - 1) (by omega) _ ?_⟩
  obtain ⟨cursor, hc⟩ := Nat.exists_eq_succ_of_ne_zero h0
  have hlt : cursor < ed.lineText.length := by omega
  rw [cursorLine, hc]
  exact congrArg showing (at_moveLeft hlt)

lemma Live.right (h : Live ed) : Done ed (cursorRight ed) := by
  have hlen := h.sound.length
  rw [cursorRight]
  by_cases hend : ed.lineLen ≤ ed.lineCursor
  · rw [if_pos hend]
    exact .same h
  have hecho : ¬ed.around.inputEcho = false := by simp [h.echo]
  rw [if_neg hend, if_neg hecho, write_ok h.answers]
  refine ⟨rfl, @Live.moved ed h (ed.lineCursor + 1) (by omega) _ ?_⟩
  have hlt : ed.lineCursor < ed.lineText.length := by omega
  have hchar : ed.buf.getD ed.lineCursor 0 = ed.lineText[ed.lineCursor] := by
    have hbuf : ed.lineCursor < ed.buf.length := by
      rw [h.sound.size]
      have hfits := h.sound.fits
      omega
    rw [List.getD_eq_getElem?_getD, List.getElem?_eq_getElem hbuf, Option.getD_some]
    exact List.getElem_take.symm
  rw [hchar]
  refine (feed_print (h.char _ (List.getElem_mem hlt)) _).trans ?_
  rw [cursorLine, at_overwrite hlt]

lemma Live.moves {move : LineEditor → EchoResult × LineEditor} (hmove : ∀ ed, Live ed → Done ed (move ed)) (n : ℕ)
    (h : Live ed) : Done ed (cursorMoves move n ed) := by
  induction n generalizing ed with
  | zero => exact .same h
  | succ n ih =>
    obtain ⟨hok, hstep⟩ := hmove ed h
    rw [cursorMoves]
    generalize move ed = r at hok hstep ⊢
    obtain ⟨rc, next⟩ := r
    obtain rfl : rc = .ok := hok
    obtain ⟨hok', hrest⟩ := ih hstep.live
    exact ⟨hok', hstep.trans hrest⟩

lemma Live.home (h : Live ed) : Done ed (cursorHome ed) := h.moves (fun _ h => h.left) _

lemma Live.goEnd (h : Live ed) : Done ed (cursorEnd ed) := h.moves (fun _ h => h.right) _

/-- An edit that ends with a refresh: before it, the terminal has the right bytes before its cursor. -/
lemma Live.refreshed (h : Live ed') {before right : Bytes} (hsent : ed'.sent = ed.sent ++ before)
    (hbefore : (showing (cursorLine ed)).feedAll before = showing ⟨ed'.lineText.take ed'.lineCursor, right⟩)
    (hended : Ended ed') : Done ed (refreshSuffix ed') := by
  obtain ⟨hok, out, hout, hshown⟩ := h.refresh right
  refine ⟨hok, ?_, ⟨before ++ out, ?_, ?_⟩, ?_⟩
  · rw [hout]
    exact ⟨h.sound.of_line rfl rfl h.sound.cursor, h.typed.same rfl rfl rfl, h.echo, h.answers⟩
  · rw [hout, ← List.append_assoc, ← hsent]
  · rw [feedAll_append, hbefore, hshown, hout]
    rfl
  · rw [hout]
    exact fun _ => hended

lemma cut_ended (h : EditorSound ed) (hlt : ed.lineCursor < ed.lineLen) : Ended (cutAtCursor ed) := by
  obtain ⟨rest, hbuf⟩ := h.cut_buf hlt
  have hlen : (cutAtCursor ed).lineLen =
      (ed.lineText.take ed.lineCursor ++ ed.lineText.drop (ed.lineCursor + 1)).length := by
    rw [← h.cut_text hlt, (h.cut hlt).length]
  rw [Ended, hbuf, hlen]
  simp

lemma cut_left (h : EditorSound ed) (hlt : ed.lineCursor < ed.lineLen) :
    (cutAtCursor ed).lineText.take ed.lineCursor = ed.lineText.take ed.lineCursor := by
  rw [h.cut_text hlt, List.take_left' h.left_length]

lemma Live.cut (h : Live ed) (hlt : ed.lineCursor < ed.lineLen) : Live (cutAtCursor ed) :=
  ⟨h.sound.cut hlt, h.typed.cut, h.echo, h.answers⟩

lemma Live.delete (h : Live ed) : Done ed (deleteForward ed) := by
  rw [deleteForward]
  by_cases hend : ed.lineLen ≤ ed.lineCursor
  · rw [if_pos hend]
    exact .same h
  have hlt : ed.lineCursor < ed.lineLen := by omega
  rw [if_neg hend]
  refine @Live.refreshed ed _ (h.cut hlt) [] (ed.lineText.drop ed.lineCursor) (List.append_nil _).symm ?_ (cut_ended h.sound hlt)
  have hleft := cut_left h.sound hlt
  exact congrArg (fun left => showing ⟨left, ed.lineText.drop ed.lineCursor⟩) hleft.symm

lemma Live.back (h : Live ed) : Done ed (LineEditor.backspace ed) := by
  have hcursor := h.sound.cursor
  have hlen := h.sound.length
  rw [LineEditor.backspace]
  by_cases h0 : ed.lineCursor = 0
  · rw [if_pos h0]
    exact .same h
  obtain ⟨cursor, hc⟩ := Nat.exists_eq_succ_of_ne_zero h0
  have hmoved : Live { ed with lineCursor := ed.lineCursor - 1 } :=
    ⟨h.sound.of_line rfl rfl ((Nat.sub_le _ 1).trans hcursor), h.typed.same rfl rfl rfl, h.echo, h.answers⟩
  have hlt : ed.lineCursor - 1 < ed.lineLen := by omega
  have hcut := hmoved.cut hlt
  have hleft := cut_left hmoved.sound hlt
  have hended := cut_ended hmoved.sound hlt
  have hsent : (cutAtCursor { ed with lineCursor := ed.lineCursor - 1 }).sent = ed.sent := rfl
  have hat : (cutAtCursor { ed with lineCursor := ed.lineCursor - 1 }).lineCursor = ed.lineCursor - 1 := rfl
  have hecho : ¬ed.around.inputEcho = false := by simp [h.echo]
  rw [if_neg h0]
  dsimp only
  generalize cutAtCursor { ed with lineCursor := ed.lineCursor - 1 } = cut at hcut hleft hended hsent hat ⊢
  rw [if_neg (by simp [hcut.echo]), write_ok hcut.answers]
  refine @Live.refreshed ed { cut with sent := cut.sent ++ moveBack 1 }
    ⟨hcut.sound.of_line rfl rfl hcut.sound.cursor, hcut.typed.same rfl rfl rfl, hcut.echo, hcut.answers⟩ (moveBack 1)
    (ed.lineText.drop (ed.lineCursor - 1)) (congrArg (· ++ moveBack 1) hsent) ?_ hended
  have hback : (cursorLine ed).moveLeft = .at' ed.lineText (ed.lineCursor - 1) := by
    have hless : cursor < ed.lineText.length := by omega
    rw [cursorLine, hc]
    exact at_moveLeft hless
  refine (congrArg showing hback).trans ?_
  have htake : cut.lineText.take cut.lineCursor = ed.lineText.take (ed.lineCursor - 1) := by
    rw [hat]
    exact hleft
  exact congrArg (fun left => showing ⟨left, ed.lineText.drop (ed.lineCursor - 1)⟩) htake.symm

lemma Live.insert (h : Live ed) (byte : UInt8) : Done ed (insertChar ed byte) := by
  have hmax := lineMaxLen_le ed
  rw [insertChar]
  by_cases hecho : charEchoable byte = false
  · rw [if_pos hecho]
    exact .same h
  rw [if_neg hecho]
  by_cases hfull : lineMaxLen ed ≤ ed.lineLen
  · rw [if_pos hfull]
    exact .same h
  rw [if_neg hfull]
  have hchar : charEchoable byte = true := Bool.eq_true_of_not_eq_false hecho
  have hbyte : byte ≠ 0 := by
    rintro rfl
    exact hecho rfl
  have hroom : ed.lineLen < lineSize - 1 := by omega
  have hput : Live (putAtCursor ed byte) := ⟨h.sound.put hroom hbyte, h.typed.put hchar, h.echo, h.answers⟩
  have htake : (putAtCursor ed byte).lineText.take (putAtCursor ed byte).lineCursor =
      ed.lineText.take ed.lineCursor ++ [byte] := by
    have hsplit : (putAtCursor ed byte).lineText =
        ed.lineText.take ed.lineCursor ++ [byte] ++ ed.lineText.drop ed.lineCursor := by
      rw [h.sound.put_text hroom, List.append_assoc]
      rfl
    rw [hsplit]
    apply List.take_left'
    rw [List.length_append, h.sound.left_length]
    rfl
  have hended : Ended (putAtCursor ed byte) := hput.sound.ended (Nat.succ_ne_zero _)
  have hsent : (putAtCursor ed byte).sent = ed.sent := rfl
  dsimp only
  generalize putAtCursor ed byte = put at hput htake hended hsent ⊢
  rw [if_neg (by simp [hput.echo]), write_ok hput.answers]
  refine @Live.refreshed ed { put with sent := put.sent ++ [byte] }
    ⟨hput.sound.of_line rfl rfl hput.sound.cursor, hput.typed.same rfl rfl rfl, hput.echo, hput.answers⟩ [byte]
    (ed.lineText.drop ed.lineCursor).tail (congrArg (· ++ [byte]) hsent) ?_ hended
  refine (feed_print hchar _).trans ?_
  exact congrArg (fun left => showing ⟨left, (ed.lineText.drop ed.lineCursor).tail⟩) htake.symm

lemma Live.replace (h : Live ed) (line : CText lineSize) (hline : ∀ b ∈ line.text, charEchoable b = true) :
    Done ed (lineReplace ed line.text) := by
  have hsound := h.sound.replace line
  have htyped := h.typed.replace hline
  have hfits := line.fits
  have hsize := h.sound.size
  have hlen : min line.text.length (lineSize - 1) = line.text.length := min_eq_left (by omega)
  obtain ⟨b, rest, hdrop⟩ := List.exists_cons_of_length_pos (l := ed.buf.drop line.text.length)
    (by rw [List.length_drop]; omega)
  have hbuf : (line.text.take line.text.length ++ ed.buf.drop line.text.length).set line.text.length 0 =
      line.text ++ 0 :: rest := by rw [List.take_length, hdrop, set_at rfl]
  rw [lineReplace, if_pos h.echo, write_ok h.answers, hlen] at hsound htyped ⊢
  dsimp only at hsound htyped ⊢
  rw [if_neg (by simp), hbuf, List.take_length] at hsound htyped ⊢
  refine ⟨rfl, ⟨hsound, htyped, h.echo, h.answers⟩, ⟨_, rfl, ?_⟩, ?_⟩
  · have hleft : moveBack ed.lineCursor = List.replicate (ed.lineText.take ed.lineCursor).length 0x08 := by
      rw [h.sound.left_length]
      rfl
    rw [hleft]
    refine (feedAll_replace hline _ _).trans ?_
    rw [cursorLine, lineText, List.take_left, at', List.take_length, List.drop_length]
  · intro _
    rw [Ended]
    simp

lemma Live.viewing (h : Live ed) (view : Option ℕ) (saved : CText lineSize)
    (hsaved : ∀ b ∈ saved.text, charEchoable b = true) :
    Live { ed with historyView := view, historySaved := saved } :=
  ⟨h.sound.viewing view saved, ⟨h.typed.buf, h.typed.history, hsaved⟩, h.echo, h.answers⟩

/-- What is viewed does not show. -/
lemma Done.of_viewing {view : Option ℕ} {saved : CText lineSize} {r : EchoResult × LineEditor}
    (h : Done { ed with historyView := view, historySaved := saved } r) : Done ed r :=
  ⟨h.1, h.2.live, h.2.screen, h.2.ended⟩

lemma Live.up (h : Live ed) : Done ed (historyUp ed) := by
  rw [historyUp]
  split_ifs
  · exact .same h
  · split
    · have hviewing := h.viewing (some 0) (.copy ed.buf) (typed_copy h.typed.buf)
      exact (hviewing.replace _ (h.typed.history _)).of_viewing
    · rename_i view _
      dsimp only
      split_ifs
      · exact ((h.viewing (some (view + 1)) _ h.typed.saved).replace _ (h.typed.history _)).of_viewing
      · exact .same h

lemma Live.down (h : Live ed) : Done ed (historyDown ed) := by
  rw [historyDown]
  split
  · exact .same h
  · exact ((h.viewing none _ h.typed.saved).replace _ h.typed.saved).of_viewing
  · rename_i view _
    exact ((h.viewing (some view) _ h.typed.saved).replace _ (h.typed.history _)).of_viewing

lemma Live.filtering (h : Live ed) (state : EscState) (csi : Bytes) :
    Echoes ed { ed with escState := state, csi := csi } :=
  ⟨⟨h.sound.of_line rfl rfl h.sound.cursor, h.typed.same rfl rfl rfl, h.echo, h.answers⟩,
    ⟨[], (List.append_nil _).symm, rfl⟩, id⟩

lemma Live.pressed (h : Live ed) (key : EditKey) : Done ed (pressKey key ed) := by
  cases key with
  | up => exact h.up
  | down => exact h.down
  | right => exact h.right
  | left => exact h.left
  | home => exact h.home
  | toEnd => exact h.goEnd
  | delete => exact h.delete
  | other => exact .same h

lemma Live.filter (h : Live ed) (byte : UInt8) : Echoes ed (filterEscapeByte ed byte).2 := by
  rw [filterEscapeByte]
  split
  · split_ifs
    · exact h.filtering .csi []
    · exact h.filtering .esc ed.csi
    · exact .refl h
  · split_ifs
    · exact h.filtering .csi []
    · exact h.filtering .ss3 ed.csi
    · exact h.filtering .plain []
  · have hkey := (h.pressed (ss3EditKey byte)).2
    rw [ss3Key_eq]
    exact hkey.trans (hkey.live.filtering .plain [])
  · have hreset := h.filtering .plain []
    split_ifs
    · exact hreset
    · rw [csiKey_eq]
      exact hreset.trans (hreset.live.pressed _).2
    · exact h.filtering ed.escState _

end Echo

section Input

variable {commands : EditorSession → Bytes → CommandEffect}

lemma Live.byte {s : EditorSession} (h : Live s.rest) {byte : UInt8} (hcr : byte ≠ cr) (hnl : byte ≠ nl) :
    (handleUserByte (editorWork commands) s byte).1 = .ok ∧
      Echoes s.rest (handleUserByte (editorWork commands) s byte).2.rest := by
  have hback := h.back
  have hinsert := h.insert byte
  rw [handleUserByte]
  by_cases h0 : byte = 0
  · rw [if_pos h0]
    exact ⟨rfl, .refl h⟩
  rw [if_neg h0]
  split_ifs
  · exact ⟨congrArg EchoResult.toResult hback.1, hback.2⟩
  · exact ⟨congrArg EchoResult.toResult hinsert.1, hinsert.2⟩

lemma Live.bytes {data : Bytes} (hdata : ∀ b ∈ data, b ≠ cr ∧ b ≠ nl) {s : EditorSession} (h : Live s.rest) :
    Echoes s.rest (handleBytes (editorWork commands) s data).session.rest := by
  induction data generalizing s with
  | nil => exact .refl h
  | cons byte data ih =>
    rw [List.forall_mem_cons] at hdata
    have hfilter : Echoes s.rest ((editorWork commands).filterEscape s.rest byte).2 := h.filter byte
    rw [handleBytes]
    generalize (editorWork commands).filterEscape s.rest byte = r at hfilter ⊢
    obtain ⟨taken, rest⟩ := r
    cases taken with
    | true => exact hfilter.trans (@ih hdata.2 { s with rest := rest } hfilter.live)
    | false =>
      obtain ⟨hok, hbyte⟩ := @Live.byte commands { s with rest := rest } hfilter.live byte hdata.1.1 hdata.1.2
      dsimp only
      generalize handleUserByte (editorWork commands) { s with rest := rest } byte = r at hok hbyte ⊢
      obtain ⟨rc, s'⟩ := r
      obtain rfl : rc = .ok := hok
      exact (hfilter.trans hbyte).trans (ih hdata.2 hbyte.live)

lemma Live.input (now : ℤ) {data : Bytes} (hdata : ∀ b ∈ data, b ≠ cr ∧ b ≠ nl) {s : EditorSession} (h : Live s.rest) :
    Echoes s.rest (handleInput (editorWork commands) now s data).session.rest := by
  rw [handleInput]
  split_ifs
  · exact .refl h
  · exact .refl h
  · exact .refl h
  · exact h.bytes hdata

end Input

section Run

variable {commands : EditorSession → Bytes → CommandEffect}

lemma apply_typed (e : CommandEffect) {s : EditorSession} (h : Typed s.rest) : Typed (e.apply s).rest := by
  rw [CommandEffect.apply]
  dsimp only
  split_ifs
  · refine h.of_buf ?_ rfl rfl
    intro b hb
    exact (List.mem_or_eq_of_mem_set hb).symm
  · exact h.same rfl rfl rfl

lemma historyAdd_typed {ed : LineEditor} (h : Typed ed) : Typed (historyAdd ed (cstr ed.buf)) := by
  rw [historyAdd]
  by_cases hstore : historyShouldStore (cstr ed.buf) = false
  · rw [if_pos hstore]
    exact h
  rw [if_neg hstore]
  refine ⟨h.buf, ?_, fun b hb => absurd hb List.not_mem_nil⟩
  intro i b hb
  change b ∈ (Function.update ed.history ed.historyNext (.copy (cstr ed.buf)) i).text at hb
  rw [Function.update_apply] at hb
  split_ifs at hb
  · exact typed_copy (fun b hb => h.buf b ((List.takeWhile_sublist _).subset hb)) b hb
  · exact h.history i b hb

lemma submitLine_typed {s : EditorSession} (h : Typed s.rest) : Typed (submitLine commands s).rest := by
  have hended : Typed { s.rest with buf := s.rest.buf.set s.rest.lineLen 0 } := by
    refine h.of_buf ?_ rfl rfl
    intro b hb
    exact (List.mem_or_eq_of_mem_set hb).symm
  have hadded := historyAdd_typed hended
  have hdone : ∀ line, Typed (processLine commands
      { s with rest := historyAdd { s.rest with buf := s.rest.buf.set s.rest.lineLen 0 } (cstr (s.rest.buf.set s.rest.lineLen 0)) }
      line).rest := by
    intro line
    rw [processLine]
    split_ifs
    · exact hadded
    · exact apply_typed _ hadded
  rw [submitLine]
  exact (hdone _).same rfl rfl rfl

lemma editorWork_typed : WorkKeeps (editorWork commands) Typed where
  filterEscape _ byte h := h.filter byte
  backspace _ h := h.back
  insertChar _ byte h := h.insert byte
  submitLine _ h := submitLine_typed h

lemma opened_typed (effect : CommandEffect) : Typed (openedSession effect).rest :=
  apply_typed effect ⟨fun _ hb => .inl (List.eq_of_mem_replicate hb), fun _ _ hb => absurd hb List.not_mem_nil,
    fun _ hb => absurd hb List.not_mem_nil⟩

lemma editorRun_typed (events : List SessionEvent) {s : EditorSession} (h : Typed s.rest) :
    Typed (editorRun commands s events).rest := by
  induction events generalizing s with
  | nil => exact h
  | cons event events ih =>
    apply ih
    cases event with
    | input now data => exact handleInput_keeps editorWork_typed now data h
    | affected effect => exact apply_typed _ h

end Run

lemma ended_iff {ed : LineEditor} (h : EditorSound ed) : Ended ed ↔ ed.lineLen ≠ 0 ∨ ed.buf.head? = some 0 := by
  by_cases hne : ed.lineLen = 0
  · rw [Ended, hne, or_iff_right (not_not.mpr rfl), List.head?_eq_getElem?]
  · exact iff_of_true (h.ended hne) (.inl hne)

/-- Whatever has happened to a session before: while its user types within a line, a terminal that shows the line goes on
showing it; and the line has its end in the buffer all the time exactly if it has it at the start, which an empty line does
not have behind a submitted one. -/
theorem screen_shows_iff (commands : EditorSession → Bytes → CommandEffect) (effect : CommandEffect)
    (events : List SessionEvent) (now : ℤ) (data : Bytes)
    (hecho : (editorAfter commands effect events).around.inputEcho = true)
    (hanswers : (editorAfter commands effect events).around.answers = []) (hdata : cr ∉ data ∧ nl ∉ data) :
    (∀ before, before <+: data → OnScreen (editorAfter commands effect events)
        (handleInput (editorWork commands) now (editorRun commands (openedSession effect) events) before).session.rest) ∧
      ((∀ before, before <+: data →
          Ended (handleInput (editorWork commands) now (editorRun commands (openedSession effect) events) before).session.rest) ↔
        (editorAfter commands effect events).lineLen ≠ 0 ∨ (editorAfter commands effect events).buf.head? =
            some 0) := by
  have hsound : EditorSound (editorAfter commands effect events) := editorRun_sound events (opened_sound effect)
  have hlive : Live (editorAfter commands effect events) := ⟨hsound, editorRun_typed events (opened_typed effect),
    hecho, hanswers⟩
  have hrun : ∀ before, before <+: data → Echoes (editorAfter commands effect events)
      (handleInput (editorWork commands) now (editorRun commands (openedSession effect) events) before).session.rest := by
    intro before hbefore
    apply Live.input now _ hlive
    intro b hb
    have hmem := hbefore.subset hb
    exact ⟨ne_of_mem_of_not_mem hmem hdata.1, ne_of_mem_of_not_mem hmem hdata.2⟩
  constructor
  · intro before hbefore
    have h := hrun before hbefore
    exact ⟨h.screen, h.live.sound.cursor, h.live.sound.fits⟩
  · rw [← ended_iff hsound]
    constructor
    · intro hall
      have hnil := hall [] (List.nil_prefix)
      rw [handleInput] at hnil
      split_ifs at hnil
      · exact hnil
      · exact hnil
      · exact hnil
      · exact hnil
    · intro hended before hbefore
      exact (hrun before hbefore).ended hended

theorem screen_shows_hi :
    OnScreen (editorAfter (fun _ _ => quietCommand) quietCommand [])
      (handleInput (editorWork fun _ _ => quietCommand) 0 (editorRun (fun _ _ => quietCommand) (openedSession quietCommand) [])
        (ofString "hi")).session.rest :=
  (screen_shows_iff (fun _ _ => quietCommand) quietCommand [] 0 (ofString "hi") rfl rfl (by decide +kernel)).1 _ List.prefix_rfl

/-- `abc` is submitted, then the user presses the left key: the line is empty, and the buffer starts with `a`. -/
theorem submitted_not_ended :
    let left : Bytes := [0x1B, 0x5B, 0x44]
    let s := editorRun (fun _ _ => quietCommand) (openedSession quietCommand) [.input 0 (ofString "abc\r")]
    let ed := (handleInput (editorWork fun _ _ => quietCommand) 0 s left).session.rest
    s.rest.around.inputEcho = true ∧ s.rest.around.answers = [] ∧ cr ∉ left ∧ nl ∉ left ∧ ed.lineLen = 0 ∧
      ed.buf[ed.lineLen]? = some 0x61 ∧ ¬Ended ed := by
  intro left s ed
  have hbyte : ed.buf[ed.lineLen]? = some 0x61 := by decide +kernel
  refine ⟨by decide +kernel, by decide +kernel, by decide, by decide, by decide +kernel, hbyte, ?_⟩
  intro hended
  exact absurd (hbyte.symm.trans hended) (by decide)

end HyBBX.Session
