import HyBBX.Session.LineEditor

/-! What lies in the buffer behind the string makes no difference to the line. -/

namespace HyBBX.Session

open HyBBX.Core Lib Lib.Bytes Lib.Text LineEditor

lemma cstr_ended {text : Bytes} (h : 0 ∉ text) (rest : Bytes) : cstr (text ++ 0 :: rest) = text := by
  rw [cstr, List.takeWhile_append_of_pos fun b hb => by simpa using ne_of_mem_of_not_mem hb h,
    List.takeWhile_cons_of_neg (by simp), List.append_nil]

lemma cstr_set {buf : Bytes} {n : ℕ} (hn : n < buf.length) (h : 0 ∉ buf.take n) : cstr (buf.set n 0) = buf.take n := by
  rw [List.set_eq_take_append_cons_drop, if_pos hn]
  exact cstr_ended h _

lemma copy_string {size : ℕ} [NeZero size] {buf buf' : Bytes} (h : cstr buf' = cstr buf) :
    (CText.copy buf' : CText size) = .copy buf := CText.ext (congrArg (strlcpy size) h)

/-- Two editors that differ at most behind the string in the buffer. -/
structure LineAlike (ed ed' : LineEditor) : Prop where
  sound : EditorSound ed
  sound' : EditorSound ed'
  string : cstr ed'.buf = cstr ed.buf
  rest : ed' = { ed with buf := ed'.buf }

def KeyAlike (r r' : EchoResult × LineEditor) : Prop := r'.1 = r.1 ∧ LineAlike r.2 r'.2

variable {ed ed' : LineEditor}

lemma then_alike {r r' : EchoResult × LineEditor} {next : LineEditor → EchoResult × LineEditor}
    (hnext : ∀ {ed ed'}, LineAlike ed ed' → KeyAlike (next ed) (next ed')) : KeyAlike r r' →
    KeyAlike (match r with
      | (.ok, ed) => next ed
      | r => r) (match r' with
      | (.ok, ed) => next ed
      | r => r) := by
  obtain ⟨rc, ed⟩ := r
  obtain ⟨rc', ed'⟩ := r'
  rintro ⟨hrc, h⟩
  obtain rfl : rc' = rc := hrc
  cases rc' with
  | ok => exact hnext h
  | errInvalid => exact ⟨rfl, h⟩
  | errIo => exact ⟨rfl, h⟩

lemma moves_alike {move : LineEditor → EchoResult × LineEditor}
    (hmove : ∀ {ed ed'}, LineAlike ed ed' → KeyAlike (move ed) (move ed')) (n : ℕ) {ed ed' : LineEditor}
    (h : LineAlike ed ed') :
    KeyAlike (cursorMoves move n ed) (cursorMoves move n ed') := by
  induction n generalizing ed ed' with
  | zero => exact ⟨rfl, h⟩
  | succ n ih => exact then_alike (fun h => ih h) (hmove h)

section Alike

variable (h : LineAlike ed ed')

include h

lemma LineAlike.exists_buf : ∃ buf, ed' = { ed with buf := buf } := ⟨_, h.rest⟩

lemma LineAlike.lineText : ed'.lineText = ed.lineText := by
  have hlen : ed'.lineLen = ed.lineLen := by rw [h.rest]
  by_cases hne : ed.lineLen = 0
  · rw [LineEditor.lineText, LineEditor.lineText, hlen, hne, List.take_zero, List.take_zero]
  · have hstring := h.sound.string_iff.mpr (.inl hne)
    have hstring' := h.sound'.string_iff.mpr (.inl (hlen ▸ hne))
    rw [← hstring, ← hstring', h.string]

lemma LineAlike.moved {c : ℕ} (hc : c ≤ ed.lineLen) : LineAlike { ed with lineCursor := c }
    { ed' with lineCursor := c } := by
  obtain ⟨buf, rfl⟩ := h.exists_buf
  exact ⟨h.sound.of_line rfl rfl hc, h.sound'.of_line rfl rfl hc, h.string, rfl⟩

lemma LineAlike.viewing (view : Option ℕ) (saved : CText lineSize) :
    LineAlike { ed with historyView := view, historySaved := saved } { ed' with historyView := view, historySaved := saved } := by
  obtain ⟨buf, rfl⟩ := h.exists_buf
  exact ⟨h.sound.viewing view saved, h.sound'.viewing view saved, h.string, rfl⟩

lemma LineAlike.write (data : Bytes) : KeyAlike (writeTransport ed data) (writeTransport ed' data) := by
  obtain ⟨buf, rfl⟩ := h.exists_buf
  have hcursor := h.sound.cursor
  rw [writeTransport, writeTransport]
  dsimp only
  cases ed.around.answers with
  | nil => exact ⟨rfl, h.sound.of_line rfl rfl hcursor, h.sound'.of_line rfl rfl hcursor, h.string, rfl⟩
  | cons answer answers => exact ⟨rfl, h.sound.of_line rfl rfl hcursor, h.sound'.of_line rfl rfl hcursor, h.string, rfl⟩

/-- What a line is shown by, unless it is not shown. -/
lemma LineAlike.shown {r r' : EchoResult × LineEditor} (hr : KeyAlike r r') :
    KeyAlike (if ed.around.inputEcho = false then (.ok, ed) else r) (if ed'.around.inputEcho = false then (.ok, ed') else r') := by
  obtain ⟨buf, rfl⟩ := h.exists_buf
  dsimp only
  split_ifs
  · exact ⟨rfl, h⟩
  · exact hr

lemma LineAlike.suffix : (ed'.buf.drop ed.lineCursor).take (ed.lineLen - ed.lineCursor) =
    (ed.buf.drop ed.lineCursor).take (ed.lineLen - ed.lineCursor) := by
  have htext := h.lineText
  obtain ⟨buf, rfl⟩ := h.exists_buf
  rw [← List.drop_take, ← List.drop_take]
  exact congrArg (List.drop ed.lineCursor) htext

lemma LineAlike.refresh : KeyAlike (refreshSuffix ed) (refreshSuffix ed') := by
  have hsuffix := h.suffix
  obtain ⟨buf, rfl⟩ := h.exists_buf
  rw [refreshSuffix, refreshSuffix]
  dsimp only at hsuffix ⊢
  rw [hsuffix]
  exact h.shown (h.write _)

lemma LineAlike.left : KeyAlike (cursorLeft ed) (cursorLeft ed') := by
  have hmoved := h.moved ((Nat.sub_le _ 1).trans h.sound.cursor)
  obtain ⟨buf, rfl⟩ := h.exists_buf
  rw [cursorLeft, cursorLeft]
  split_ifs
  · exact ⟨rfl, h⟩
  · exact hmoved.shown (hmoved.write _)

lemma LineAlike.right : KeyAlike (cursorRight ed) (cursorRight ed') := by
  have htext := h.lineText
  obtain ⟨buf, rfl⟩ := h.exists_buf
  rw [cursorRight, cursorRight]
  dsimp only
  by_cases hend : ed.lineLen ≤ ed.lineCursor
  · rw [if_pos hend, if_pos hend]
    exact ⟨rfl, h⟩
  rw [if_neg hend, if_neg hend]
  have hbyte : buf.getD ed.lineCursor 0 = ed.buf.getD ed.lineCursor 0 := by
    have hat := congrArg (fun text : Bytes => text.getD ed.lineCursor 0) htext
    simpa [LineEditor.lineText, List.getD_eq_getElem?_getD, List.getElem?_take, not_le.mp hend] using hat
  rw [hbyte]
  split_ifs
  · exact ⟨rfl, h.moved (by omega)⟩
  · have hwrite := h.write [ed.buf.getD ed.lineCursor 0]
    obtain ⟨-, hlen, hcursor⟩ := writeTransport_line ed [ed.buf.getD ed.lineCursor 0]
    obtain ⟨-, -, hcursor'⟩ := writeTransport_line { ed with buf := buf } [ed.buf.getD ed.lineCursor 0]
    generalize writeTransport ed [ed.buf.getD ed.lineCursor 0] = r at hwrite hlen hcursor ⊢
    generalize writeTransport { ed with buf := buf } [ed.buf.getD ed.lineCursor 0] = r' at hwrite hcursor' ⊢
    obtain ⟨rc, t⟩ := r
    obtain ⟨rc', t'⟩ := r'
    obtain ⟨hrc, halike⟩ := hwrite
    obtain rfl : rc' = rc := hrc
    cases rc' with
    | ok =>
      dsimp only at hlen hcursor hcursor' halike ⊢
      rw [hcursor, hcursor']
      exact ⟨rfl, halike.moved (by omega)⟩
    | errInvalid => exact ⟨rfl, halike⟩
    | errIo => exact ⟨rfl, halike⟩

lemma LineAlike.cut (hlt : ed.lineCursor < ed.lineLen) : LineAlike (cutAtCursor ed) (cutAtCursor ed') := by
  have htext := h.lineText
  obtain ⟨buf, rfl⟩ := h.exists_buf
  have hsound := h.sound.cut hlt
  have hsound' := h.sound'.cut hlt
  obtain ⟨rest, hcut⟩ := h.sound.cut_buf hlt
  obtain ⟨rest', hcut'⟩ := h.sound'.cut_buf hlt
  refine ⟨hsound, hsound', ?_, rfl⟩
  have hplain : 0 ∉ ed.lineText.take ed.lineCursor ++ ed.lineText.drop (ed.lineCursor + 1) := fun h0 =>
    h.sound.plain ((List.mem_append.mp h0).elim List.mem_of_mem_take List.mem_of_mem_drop)
  rw [htext] at hcut'
  rw [hcut, hcut', cstr_ended hplain, cstr_ended hplain]

lemma LineAlike.put (hroom : ed.lineLen < lineSize - 1) {byte : UInt8} (hbyte : byte ≠ 0) :
    LineAlike (putAtCursor ed byte) (putAtCursor ed' byte) := by
  have htext := h.lineText
  obtain ⟨buf, rfl⟩ := h.exists_buf
  have hsound := h.sound.put hroom hbyte
  have hsound' := h.sound'.put hroom hbyte
  obtain ⟨rest, hput⟩ := h.sound.put_buf hroom byte
  obtain ⟨rest', hput'⟩ := h.sound'.put_buf hroom byte
  refine ⟨hsound, hsound', ?_, rfl⟩
  have hplain : 0 ∉ ed.lineText.take ed.lineCursor ++ byte :: ed.lineText.drop ed.lineCursor := by
    intro h0
    rcases List.mem_append.mp h0 with hleft | hright
    · exact h.sound.plain (List.mem_of_mem_take hleft)
    · rcases List.mem_cons.mp hright with hzero | hright
      · exact hbyte hzero.symm
      · exact h.sound.plain (List.mem_of_mem_drop hright)
  rw [htext] at hput'
  rw [hput, hput', cstr_ended hplain, cstr_ended hplain]

lemma LineAlike.back : KeyAlike (backspace ed) (backspace ed') := by
  by_cases h0 : ed.lineCursor = 0
  · obtain ⟨buf, rfl⟩ := h.exists_buf
    rw [backspace, backspace, if_pos h0, if_pos h0]
    exact ⟨rfl, h⟩
  · have hcursor := h.sound.cursor
    have hcut := (h.moved ((Nat.sub_le _ 1).trans hcursor)).cut (by dsimp only; omega)
    obtain ⟨buf, rfl⟩ := h.exists_buf
    rw [backspace, backspace, if_neg h0, if_neg h0]
    exact hcut.shown (then_alike (fun h => h.refresh) (hcut.write _))

lemma LineAlike.delete : KeyAlike (deleteForward ed) (deleteForward ed') := by
  by_cases hend : ed.lineLen ≤ ed.lineCursor
  · obtain ⟨buf, rfl⟩ := h.exists_buf
    rw [deleteForward, deleteForward, if_pos hend, if_pos hend]
    exact ⟨rfl, h⟩
  · have hcut := h.cut (not_le.mp hend)
    obtain ⟨buf, rfl⟩ := h.exists_buf
    rw [deleteForward, deleteForward, if_neg hend, if_neg hend]
    exact hcut.refresh

lemma LineAlike.takeBack (hne : ed.lineLen ≠ 0) :
    LineAlike { ed with buf := ed.buf.set (ed.lineLen - 1) 0, lineLen := ed.lineLen - 1, lineCursor := ed.lineCursor - 1 }
      { ed' with buf := ed'.buf.set (ed'.lineLen - 1) 0, lineLen := ed'.lineLen - 1, lineCursor := ed'.lineCursor - 1 } := by
  have htext := h.lineText
  obtain ⟨buf, rfl⟩ := h.exists_buf
  have hcut : ∀ {buf : Bytes}, buf.take ed.lineLen = ed.lineText → buf.length = lineSize →
      cstr (buf.set (ed.lineLen - 1) 0) = ed.lineText.take (ed.lineLen - 1) := by
    intro buf hbuf hsize
    have hfits := h.sound.fits
    have htake : buf.take (ed.lineLen - 1) = ed.lineText.take (ed.lineLen - 1) := by
      rw [← hbuf, List.take_take, min_eq_left (Nat.sub_le _ _)]
    rw [cstr_set (by omega) (htake ▸ fun h0 => h.sound.plain (List.mem_of_mem_take h0)), htake]
  exact ⟨h.sound.takeBack hne, h.sound'.takeBack hne,
    (hcut htext h.sound'.size).trans (hcut rfl h.sound.size).symm, rfl⟩

lemma LineAlike.insert (byte : UInt8) : KeyAlike (insertChar ed byte) (insertChar ed' byte) := by
  by_cases hecho : charEchoable byte = false
  · rw [insertChar, insertChar, if_pos hecho, if_pos hecho]
    exact ⟨rfl, h⟩
  have hmax := lineMaxLen_le ed
  by_cases hfull : lineMaxLen ed ≤ ed.lineLen
  · obtain ⟨buf, rfl⟩ := h.exists_buf
    have hfull' : lineMaxLen { ed with buf := buf } ≤ ed.lineLen := hfull
    rw [insertChar, insertChar, if_neg hecho, if_neg hecho, if_pos hfull, if_pos hfull']
    exact ⟨rfl, h⟩
  have hbyte : byte ≠ 0 := by
    rintro rfl
    exact hecho rfl
  have hput := h.put (by omega) hbyte
  have hlen : (putAtCursor ed byte).lineLen ≠ 0 := Nat.succ_ne_zero _
  have hwrite := hput.write [byte]
  obtain ⟨-, hwritten, -⟩ := writeTransport_line (putAtCursor ed byte) [byte]
  rw [← hwritten] at hlen
  obtain ⟨buf, rfl⟩ := h.exists_buf
  have hfull' : ¬lineMaxLen { ed with buf := buf } ≤ ed.lineLen := hfull
  rw [insertChar, insertChar, if_neg hecho, if_neg hecho, if_neg hfull, if_neg hfull']
  refine hput.shown ?_
  generalize writeTransport (putAtCursor ed byte) [byte] = r at hwrite hlen ⊢
  generalize writeTransport (putAtCursor { ed with buf := buf } byte) [byte] = r' at hwrite ⊢
  obtain ⟨rc, t⟩ := r
  obtain ⟨rc', t'⟩ := r'
  obtain ⟨hrc, halike⟩ := hwrite
  obtain rfl : rc' = rc := hrc
  cases rc' with
  | ok => exact halike.refresh
  | errInvalid => exact ⟨rfl, halike.takeBack hlen⟩
  | errIo => exact ⟨rfl, halike.takeBack hlen⟩

lemma LineAlike.replace (line : CText lineSize) : KeyAlike (lineReplace ed line.text) (lineReplace ed' line.text) := by
  have hsound := h.sound.replace line
  have hsound' := h.sound'.replace line
  have hfits := line.fits
  have hlen : min line.text.length (lineSize - 1) = line.text.length := min_eq_left (by omega)
  have hcursor : ed'.lineCursor = ed.lineCursor := by rw [h.rest]
  have hshown : KeyAlike
      (if ed.around.inputEcho then writeTransport ed (moveBack ed.lineCursor ++ line.text.take line.text.length ++ eraseToEnd)
        else (.ok, ed))
      (if ed'.around.inputEcho then writeTransport ed' (moveBack ed.lineCursor ++ line.text.take line.text.length ++ eraseToEnd)
        else (.ok, ed')) := by
    have hwrite := h.write (moveBack ed.lineCursor ++ line.text.take line.text.length ++ eraseToEnd)
    obtain ⟨buf, rfl⟩ := h.exists_buf
    dsimp only
    split_ifs
    · exact hwrite
    · exact ⟨rfl, h⟩
  rw [lineReplace, hlen] at hsound hsound' ⊢
  rw [lineReplace, hlen]
  rw [hcursor] at hsound' ⊢
  generalize (if ed.around.inputEcho then writeTransport ed
    (moveBack ed.lineCursor ++ line.text.take line.text.length ++ eraseToEnd) else (.ok, ed)) = r at hsound hshown ⊢
  generalize (if ed'.around.inputEcho then writeTransport ed'
    (moveBack ed.lineCursor ++ line.text.take line.text.length ++ eraseToEnd) else (.ok, ed')) = r' at hsound' hshown ⊢
  obtain ⟨rc, t⟩ := r
  obtain ⟨rc', t'⟩ := r'
  obtain ⟨hrc, halike⟩ := hshown
  obtain rfl : rc' = rc := hrc
  cases rc' with
  | ok =>
    have hput : ∀ {buf : Bytes}, buf.length = lineSize →
        cstr ((line.text.take line.text.length ++ buf.drop line.text.length).set line.text.length 0) = line.text := by
      intro buf hsize
      have hdrop : line.text.length < (line.text ++ buf.drop line.text.length).length := by
        rw [List.length_append, List.length_drop]
        omega
      have htake : (line.text ++ buf.drop line.text.length).take line.text.length = line.text := List.take_left
      rw [List.take_length, cstr_set hdrop (htake.symm ▸ line.string), htake]
    obtain ⟨buf, rfl⟩ := halike.exists_buf
    exact ⟨rfl, hsound, hsound', (hput halike.sound'.size).trans (hput halike.sound.size).symm, rfl⟩
  | errInvalid => exact ⟨rfl, halike⟩
  | errIo => exact ⟨rfl, halike⟩

lemma LineAlike.up : KeyAlike (historyUp ed) (historyUp ed') := by
  have hsaved : (CText.copy ed'.buf : CText lineSize) = .copy ed.buf := copy_string h.string
  have hview := fun view saved => h.viewing view saved
  obtain ⟨buf, rfl⟩ := h.exists_buf
  rw [historyUp, historyUp]
  dsimp only at hsaved ⊢
  rw [hsaved]
  split_ifs
  · exact ⟨rfl, h⟩
  · cases hat : ed.historyView with
    | none => exact (hview (some 0) (.copy ed.buf)).replace _
    | some view =>
      dsimp only
      split_ifs
      · exact (hview (some (view + 1)) ed.historySaved).replace _
      · exact ⟨rfl, hat ▸ h⟩

lemma LineAlike.down : KeyAlike (historyDown ed) (historyDown ed') := by
  have hview := fun view => h.viewing view ed.historySaved
  obtain ⟨buf, rfl⟩ := h.exists_buf
  rw [historyDown, historyDown]
  dsimp only
  split
  · exact ⟨rfl, h⟩
  · exact (hview none).replace _
  · rename_i view _
    exact (hview (some view)).replace _

lemma LineAlike.home : KeyAlike (cursorHome ed) (cursorHome ed') := by
  have hcursor : ed'.lineCursor = ed.lineCursor := by rw [h.rest]
  rw [cursorHome, cursorHome, hcursor]
  exact moves_alike (fun h => h.left) _ h

lemma LineAlike.goEnd : KeyAlike (cursorEnd ed) (cursorEnd ed') := by
  have hlen : ed'.lineLen = ed.lineLen := by rw [h.rest]
  have hcursor : ed'.lineCursor = ed.lineCursor := by rw [h.rest]
  rw [cursorEnd, cursorEnd, hlen, hcursor]
  exact moves_alike (fun h => h.right) _ h

lemma LineAlike.pressed (key : EditKey) : KeyAlike (pressKey key ed) (pressKey key ed') := by
  cases key with
  | up => exact h.up
  | down => exact h.down
  | right => exact h.right
  | left => exact h.left
  | home => exact h.home
  | toEnd => exact h.goEnd
  | delete => exact h.delete
  | other => exact ⟨rfl, h⟩

lemma LineAlike.escaped (state : EscState) (csi : Bytes) :
    LineAlike { ed with escState := state, csi := csi } { ed' with escState := state, csi := csi } := by
  obtain ⟨buf, rfl⟩ := h.exists_buf
  have hcursor := h.sound.cursor
  exact ⟨h.sound.of_line rfl rfl hcursor, h.sound'.of_line rfl rfl hcursor, h.string, rfl⟩

lemma LineAlike.filter (byte : UInt8) : (filterEscapeByte ed' byte).1 = (filterEscapeByte ed byte).1 ∧
    LineAlike (filterEscapeByte ed byte).2 (filterEscapeByte ed' byte).2 := by
  have hescaped := fun state csi => h.escaped state csi
  have hpressed := fun key => (h.pressed key).2.escaped .plain []
  have hreset := fun key => ((h.escaped .plain []).pressed key).2
  obtain ⟨buf, rfl⟩ := h.exists_buf
  rw [filterEscapeByte, filterEscapeByte]
  dsimp only
  cases hstate : ed.escState with
  | plain =>
    dsimp only
    split_ifs
    · exact ⟨rfl, hescaped .csi []⟩
    · exact ⟨rfl, hescaped .esc ed.csi⟩
    · exact ⟨rfl, hstate ▸ h⟩
  | esc =>
    dsimp only
    split_ifs
    · exact ⟨rfl, hescaped .csi []⟩
    · exact ⟨rfl, hescaped .ss3 ed.csi⟩
    · exact ⟨rfl, hescaped .plain []⟩
  | ss3 =>
    dsimp only
    rw [ss3Key_eq, ss3Key_eq, ← hstate]
    exact ⟨rfl, hpressed _⟩
  | csi =>
    dsimp only
    split_ifs
    · exact ⟨rfl, hescaped .plain []⟩
    · rw [csiKey_eq, csiKey_eq]
      exact ⟨rfl, hreset _⟩
    · exact ⟨rfl, hescaped .csi (ed.csi ++ [byte])⟩

lemma LineAlike.surrounded (change : Surroundings → Surroundings) :
    LineAlike { ed with around := change ed.around } { ed' with around := change ed'.around } := by
  obtain ⟨buf, rfl⟩ := h.exists_buf
  have hcursor := h.sound.cursor
  exact ⟨h.sound.of_line rfl rfl hcursor, h.sound'.of_line rfl rfl hcursor, h.string, rfl⟩

lemma LineAlike.clear : LineAlike ed.cleared ed'.cleared := by
  have hsound : ∀ {ed}, EditorSound ed → EditorSound ed.cleared :=
    fun h => soundEmpty ((List.length_set ..).trans h.size) rfl rfl
  have hstring : ∀ {ed}, EditorSound ed → cstr ed.cleared.buf = [] := fun h =>
    cstr_set (h.size.symm ▸ by decide) List.not_mem_nil
  obtain ⟨buf, rfl⟩ := h.exists_buf
  exact ⟨hsound h.sound, hsound h.sound', (hstring h.sound').trans (hstring h.sound).symm, rfl⟩

lemma LineAlike.ended_string : cstr (ed'.buf.set ed'.lineLen 0) = cstr (ed.buf.set ed.lineLen 0) := by
  have hstring : ∀ {ed}, EditorSound ed → cstr (ed.buf.set ed.lineLen 0) = ed.lineText := fun h =>
    cstr_set (h.size.symm ▸ h.fits) h.plain
  rw [hstring h.sound, hstring h.sound', h.lineText]

lemma LineAlike.ended : LineAlike { ed with buf := ed.buf.set ed.lineLen 0 }
    { ed' with buf := ed'.buf.set ed'.lineLen 0 } := by
  have hsound : ∀ {ed}, EditorSound ed → EditorSound { ed with buf := ed.buf.set ed.lineLen 0 } := by
    intro ed h
    obtain ⟨rest, hbuf⟩ : ∃ rest, ed.buf.set ed.lineLen 0 = ed.lineText ++ 0 :: rest := by
      rw [List.set_eq_take_append_cons_drop, if_pos (h.size.symm ▸ h.fits)]
      exact ⟨_, rfl⟩
    exact soundOf hbuf h.length.symm h.plain ((List.length_set ..).trans h.size) h.cursor
  have hstring := h.ended_string
  obtain ⟨buf, rfl⟩ := h.exists_buf
  exact ⟨hsound h.sound, hsound h.sound', hstring, rfl⟩

lemma LineAlike.added (line : Bytes) : LineAlike (historyAdd ed line) (historyAdd ed' line) := by
  obtain ⟨buf, rfl⟩ := h.exists_buf
  have hcursor := h.sound.cursor
  rw [historyAdd, historyAdd]
  by_cases hstore : historyShouldStore line = false
  · rw [if_pos hstore, if_pos hstore]
    exact h
  · rw [if_neg hstore, if_neg hstore]
    exact ⟨h.sound.of_line rfl rfl hcursor, h.sound'.of_line rfl rfl hcursor, h.string, rfl⟩

lemma LineAlike.next : LineAlike { ed with lineLen := 0, lineCursor := 0, historyView := none }
    { ed' with lineLen := 0, lineCursor := 0, historyView := none } := by
  obtain ⟨buf, rfl⟩ := h.exists_buf
  exact ⟨soundEmpty h.sound.size rfl rfl, soundEmpty h.sound'.size rfl rfl, h.string, rfl⟩

end Alike

end HyBBX.Session
