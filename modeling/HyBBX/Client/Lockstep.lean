import HyBBX.Client.ReadSegments
import HyBBX.Session.HistoryKeys
import HyBBX.Session.LineKeys

/-! The editor of a client and the editor of a session, fed the same keys: where they stay together and where they part. -/

namespace HyBBX.Client

open HyBBX.Core Lib Lib.Bytes Lib.Text Lib.EarlyReturn ClientEditor Session

/-- The same text with the cursor in the same place. -/
def SameLine (c : ClientEditor) (ed : LineEditor) : Prop := c.lineText = ed.lineText ∧ c.lineCursor = ed.lineCursor

instance SameLine.decidable (c : ClientEditor) (ed : LineEditor) : Decidable (SameLine c ed) :=
  inferInstanceAs (Decidable (c.lineText = ed.lineText ∧ c.lineCursor = ed.lineCursor))

structure ClientSound (c : ClientEditor) : Prop where
  size : c.line.length = lineSize
  fits : c.lineLen < lineSize
  cursor : c.lineCursor ≤ c.lineLen

section Client

variable {c : ClientEditor}

lemma ClientSound.moved (h : ClientSound c) {k : ℕ} (hk : k ≤ c.lineLen) (written : Bytes) :
    ClientSound { c with lineCursor := k, written := written } := ⟨h.size, h.fits, hk⟩

lemma ClientSound.cut (h : ClientSound c) (hlt : c.lineCursor < c.lineLen) (written : Bytes) :
    ClientSound { c.cutAtCursor with written := written } := by
  have hsize := h.size
  have hfits := h.fits
  refine ⟨?_, (Nat.sub_le _ 1).trans_lt hfits, ?_⟩
  · exact (List.length_set ..).trans ((memmove_length _ _ _ _ (by omega) (by omega)).trans hsize)
  · have hle : c.lineCursor ≤ c.lineLen - 1 := by omega
    exact hle

lemma ClientSound.put (h : ClientSound c) (hroom : c.lineLen + 1 < lineSize) (byte : UInt8) (written : Bytes) :
    ClientSound { c.putAtCursor byte with written := written } := by
  have hsize := h.size
  refine ⟨?_, hroom, Nat.succ_le_succ h.cursor⟩
  rw [ClientEditor.putAtCursor]
  dsimp only
  split_ifs
  · rw [List.length_set, List.length_set, memmove_length _ _ _ _ (by omega) (by omega), hsize]
  · rw [List.length_set, List.length_set, hsize]

lemma ClientSound.put_text (h : ClientSound c) (hroom : c.lineLen + 1 < lineSize) (byte : UInt8) :
    (c.putAtCursor byte).lineText = c.lineText.take c.lineCursor ++ byte :: c.lineText.drop c.lineCursor := by
  have hsize := h.size
  have hcur := h.cursor
  obtain ⟨rest, hbuf⟩ := @put_take c.line c.lineCursor c.lineLen hcur (by omega) byte
  have hlen : c.lineText.length = c.lineLen := by
    rw [ClientEditor.lineText, List.length_take]
    omega
  have hlength : (c.putAtCursor byte).lineLen =
      (c.lineText.take c.lineCursor ++ byte :: c.lineText.drop c.lineCursor).length := by
    rw [List.length_append, List.length_cons, List.length_take, List.length_drop, hlen, ClientEditor.putAtCursor]
    dsimp only
    omega
  rw [ClientEditor.lineText, hlength]
  exact (congrArg (List.take _) hbuf).trans List.take_left

lemma ClientSound.replaced (h : ClientSound c) (line written : Bytes) :
    ClientSound { replaced c line with written := written } := by
  have hsize := h.size
  refine ⟨?_, ?_, le_refl _⟩
  · refine (List.length_set ..).trans ?_
    rw [List.length_append, List.length_take, List.length_drop, hsize]
    omega
  · have hlt : min line.length (lineSize - 1) < lineSize := by
      have hpos : 0 < lineSize := by decide
      omega
    exact hlt

end Client

section Reached

variable {outLen : ℕ} {c : ClientEditor}

/-- A client whose output works. -/
structure Ready (c : ClientEditor) : Prop where
  works : Works c
  sound : ClientSound c

lemma replace_sound (h : Ready c) (view : Option ℕ) (saved : CText lineSize) (line : Bytes) :
    ClientSound (ClientEditor.lineReplace { c with historyView := view, historySaved := saved } line).2 := by
  have hviewing : ClientSound { c with historyView := view, historySaved := saved } :=
    ⟨h.sound.size, h.sound.fits, h.sound.cursor⟩
  obtain ⟨written, he⟩ := @replace_eq { c with historyView := view, historySaved := saved } h.works line
  rw [he]
  exact hviewing.replaced line written

lemma press_sound (h : Ready c) (key : EditKey) : ClientSound (pressClient key c).2 := by
  have hcursor := h.sound.cursor
  cases key with
  | up =>
    rw [pressClient, ClientEditor.historyUp]
    split_ifs
    · exact h.sound
    · split
      · exact replace_sound h (some 0) (.copy c.line) _
      · rename_i view _
        dsimp only
        split_ifs
        · exact replace_sound h (some (view + 1)) c.historySaved _
        · exact h.sound
  | down =>
    rw [pressClient, ClientEditor.historyDown]
    split
    · exact h.sound
    · exact replace_sound h none c.historySaved _
    · rename_i view _
      exact replace_sound h (some view) c.historySaved _
  | right =>
    obtain ⟨written, he⟩ := right_eq h.works
    rw [pressClient, he]
    refine h.sound.moved ?_ written
    split_ifs <;> omega
  | left =>
    obtain ⟨written, he⟩ := left_eq h.works
    rw [pressClient, he]
    exact h.sound.moved (by omega) written
  | home =>
    obtain ⟨written, he⟩ := home_eq h.works
    rw [pressClient, he]
    exact h.sound.moved hcursor written
  | toEnd =>
    obtain ⟨written, he⟩ := end_eq h.works
    rw [pressClient, he]
    exact h.sound.moved (by omega) written
  | delete =>
    obtain ⟨written, he⟩ := delete_eq h.works
    rw [pressClient, he]
    split_ifs with hlt
    · exact h.sound.cut hlt written
    · exact h.sound.moved hcursor written
  | other => exact h.sound

lemma filter_sound (h : Ready c) (byte : UInt8) : ClientSound (ClientEditor.filterEscapeByte c byte).2 := by
  have hstate : ∀ state csi, ClientSound { c with escState := state, csi := csi } :=
    fun state csi => ⟨h.sound.size, h.sound.fits, h.sound.cursor⟩
  rw [ClientEditor.filterEscapeByte]
  split
  · split_ifs
    · exact hstate .csi []
    · exact hstate .esc c.csi
    · exact h.sound
  · split_ifs
    · exact hstate .csi []
    · exact hstate .ss3 c.csi
    · exact hstate .plain []
  · rw [applySs3_eq]
    have hkey := press_sound h (ss3EditKey byte)
    exact ⟨hkey.size, hkey.fits, hkey.cursor⟩
  · split_ifs
    · exact hstate .plain []
    · have hreset : Ready (escapeReset c) := ⟨h.works, hstate .plain []⟩
      rw [applyCsi_eq]
      exact press_sound hreset _
    · exact hstate c.escState (c.csi ++ [byte])

lemma takeLine_sound (h : ClientSound c) : ClientSound (takeLine c) := by
  have hadd : (ClientEditor.historyAdd c (cstr c.line)).line = c.line := by
    rw [ClientEditor.historyAdd]
    split_ifs <;> rfl
  have hpos : 0 < lineSize := by decide
  refine ⟨?_, hpos, le_refl 0⟩
  refine (List.length_set ..).trans ?_
  rw [hadd]
  exact h.size

lemma pollByte_ready (h : Ready c) (ch : UInt8) : Ready (pollByte outLen c ch).1 := by
  refine ⟨(@pollByte_scan c outLen _ ⟨h.works, rfl⟩ ch).1.1, ?_⟩
  have hfilter : Ready (ClientEditor.filterEscapeByte c ch).2 := ⟨(filter_scan h.works ch).2.1, filter_sound h ch⟩
  rw [pollByte]
  revert hfilter
  generalize ClientEditor.filterEscapeByte c ch = r
  obtain ⟨taken, c'⟩ := r
  intro hfilter
  have hcursor := hfilter.sound.cursor
  cases taken with
  | true => exact hfilter.sound
  | false =>
    dsimp only at hfilter hcursor ⊢
    by_cases hback : ch = 0x08 ∨ ch = 0x7F
    · obtain ⟨written, he⟩ := backspace_eq hfilter.works
      rw [if_pos hback, checked, he]
      dsimp only
      split_ifs
      · exact hfilter.sound.moved hcursor written
      · have hleft := hfilter.sound.moved (Nat.sub_le c'.lineCursor 1 |>.trans hcursor) c'.written
        have hlt : c'.lineCursor - 1 < c'.lineLen := by omega
        exact hleft.cut hlt written
    rw [if_neg hback]
    by_cases hend : ch = cr ∨ ch = nl
    · obtain ⟨written, he⟩ := newline_eq hfilter.works
      rw [if_pos hend, he]
      exact takeLine_sound (hfilter.sound.moved hcursor written)
    · obtain ⟨written, he⟩ := insert_eq hfilter.works ch
      rw [if_neg hend, checked, he]
      dsimp only
      split_ifs with htakes
      · have hroom : c'.lineLen + 1 < lineSize := of_decide_eq_true (Bool.and_eq_true_iff.mp htakes).2
        exact hfilter.sound.put hroom ch written
      · exact hfilter.sound.moved hcursor written

lemma editorPolls_ready (reads : List ReadResult) (h : Ready c) : Ready (editorPolls outLen c reads).1 := by
  induction reads generalizing c with
  | nil => exact h
  | cons read reads ih =>
    apply ih
    cases read with
    | interrupted => exact h
    | failed => exact h
    | eof => exact h
    | bytes data =>
      rw [(editorPoll_bytes c data).1]
      have hstep : ∀ c ch, Ready c → Ready (pollByte outLen c ch).1 := fun c ch hc => pollByte_ready hc ch
      exact call_invariant hstep data.1 h

end Reached

/-- A session that has not been used views a first entry, of none; otherwise both view the same entry. -/
def ViewsMeet (c : ClientEditor) (ed : LineEditor) : Prop :=
  c.historyView = ed.historyView ∨ c.historyView = none ∧ ed.historyView = some 0 ∧ ed.historyCount = 0

/-- Two editors with the same line, the same history and the same way through an escape sequence. -/
structure Together (c : ClientEditor) (ed : LineEditor) : Prop where
  works : Works c
  quiet : Quiet ed
  client : ClientSound c
  session : EditorSound ed
  text : c.lineText = ed.lineText
  len : c.lineLen = ed.lineLen
  cursor : c.lineCursor = ed.lineCursor
  history : c.history = ed.history
  historyCount : c.historyCount = ed.historyCount
  historyNext : c.historyNext = ed.historyNext
  views : ViewsMeet c ed
  escState : c.escState = ed.escState
  csi : c.csi = ed.csi

/-- The two keys that can part the editors: Home, which moves the cursor of the session only, and Down out of the history,
which gives back what each of them has saved. -/
def KeyAgrees (key : EditKey) (c : ClientEditor) (ed : LineEditor) : Prop :=
  match key with
  | .home => ed.lineCursor = 0
  | .down => ed.historyView = some 0 →
    if c.historyView = none then ed.historySaved.text = ed.lineText ∧ ed.lineCursor = ed.lineLen
    else c.historySaved.text = ed.historySaved.text
  | _ => True

instance KeyAgrees.decidable (key : EditKey) (c : ClientEditor) (ed : LineEditor) : Decidable (KeyAgrees key c ed) :=
  match key with
  | .home => inferInstanceAs (Decidable (ed.lineCursor = 0))
  | .down => inferInstanceAs (Decidable (ed.historyView = some 0 →
      if c.historyView = none then ed.historySaved.text = ed.lineText ∧ ed.lineCursor = ed.lineLen
      else c.historySaved.text = ed.historySaved.text))
  | .up | .right | .left | .toEnd | .delete | .other => .isTrue trivial

section Edits

variable {c : ClientEditor} {ed : LineEditor} (h : Together c ed)

include h

lemma Together.sameLine : SameLine c ed := ⟨h.text, h.cursor⟩

/-- What a step that cannot part the editors comes to. -/
lemma Together.keeps : (SameLine c ed ↔ True) ∧ (True → Together c ed) := ⟨iff_true_intro h.sameLine, fun _ => h⟩

lemma Together.moved {k k' : ℕ} (hk : k ≤ ed.lineLen) (hsame : k' = k) (written sent : Bytes) :
    Together { c with lineCursor := k', written := written } { ed with lineCursor := k, sent := sent } := by
  refine { h with client := ⟨h.client.size, h.client.fits, ?_⟩, session := h.session.of_line rfl rfl hk, cursor := hsame }
  rw [hsame, h.len]
  exact hk

lemma Together.cut (hlt : ed.lineCursor < ed.lineLen) (written sent : Bytes) :
    Together { c.cutAtCursor with written := written } { ed.cutAtCursor with sent := sent } := by
  have hsize := h.client.size
  have hfits := h.client.fits
  have hlen := h.len
  have hcursor := h.cursor
  have hcut := h.session.cut hlt
  refine { h with
    client := h.client.cut (by omega) written
    session := hcut.of_line rfl rfl hcut.cursor
    text := ?_
    len := congrArg (· - 1) h.len }
  have htake := @cut_take c.line c.lineCursor c.lineLen (c.lineLen - c.lineCursor) (by omega) (by omega) (by omega)
  refine Eq.trans htake ?_
  rw [← ClientEditor.lineText, h.text, hcursor]
  exact (h.session.cut_text hlt).symm

lemma Together.put (hroom : ed.lineLen < lineSize - 1) {byte : UInt8} (hbyte : byte ≠ 0) (written sent : Bytes) :
    Together { c.putAtCursor byte with written := written } { ed.putAtCursor byte with sent := sent } := by
  have hsize := h.client.size
  have hlen := h.len
  have hcursor := h.cursor
  have hcur := h.client.cursor
  have hput := h.session.put hroom hbyte
  refine { h with
    client := h.client.put (by omega) byte written
    session := hput.of_line rfl rfl hput.cursor
    text := ?_
    len := congrArg (· + 1) h.len
    cursor := congrArg (· + 1) h.cursor }
  refine (h.client.put_text (by omega) byte).trans ?_
  rw [h.text, hcursor]
  exact (h.session.put_text hroom byte).symm

lemma Together.replaced (line : CText lineSize) (written sent : Bytes) :
    Together { replaced c line.text with written := written } { replacedLine ed line.text with sent := sent } := by
  have hfits := line.fits
  have hsound := h.session.replace line
  obtain ⟨sent', he⟩ := quiet_replace h.quiet line.text
  rw [he] at hsound
  exact { h with
    client := h.client.replaced line.text written
    session := hsound.of_line rfl rfl hsound.cursor
    text := (replaced_text line c.line).trans (replaced_text line ed.buf).symm
    len := rfl
    cursor := rfl }

lemma Together.viewing (view : Option ℕ) (saved saved' : CText lineSize) :
    Together { c with historyView := view, historySaved := saved } { ed with historyView := view, historySaved := saved' } :=
  { h with
    client := ⟨h.client.size, h.client.fits, h.client.cursor⟩
    session := h.session.of_line rfl rfl h.session.cursor
    views := .inl rfl }

lemma Together.replace (line : CText lineSize) :
    Together (ClientEditor.lineReplace c line.text).2 (LineEditor.lineReplace ed line.text).2 := by
  obtain ⟨written, hc⟩ := replace_eq h.works line.text
  obtain ⟨sent, he⟩ := quiet_replace h.quiet line.text
  rw [hc, he]
  exact h.replaced line written sent

lemma Together.entry (view : ℕ) : c.entry view = ed.entry view := by
  rw [ClientEditor.entry, LineEditor.entry, h.history, h.historyNext]

lemma Together.showEntry (view' : Option ℕ) (saved saved' : CText lineSize) (view : ℕ) :
    Together (ClientEditor.lineReplace { c with historyView := view', historySaved := saved } (c.entry view).text).2
      (LineEditor.lineReplace { ed with historyView := view', historySaved := saved' } (ed.entry view).text).2 := by
  rw [h.entry view]
  exact (h.viewing view' saved saved').replace (ed.entry view)

lemma Together.up : Together (ClientEditor.historyUp c).2 (LineEditor.historyUp ed).2 := by
  have hcount := h.historyCount
  rw [ClientEditor.historyUp, LineEditor.historyUp]
  by_cases h0 : ed.historyCount = 0
  · rw [if_pos h0, if_pos (hcount.trans h0)]
    exact h
  rw [if_neg h0, if_neg (hcount.trans_ne h0)]
  have hview : c.historyView = ed.historyView := h.views.resolve_right fun hfresh => h0 hfresh.2.2
  rw [hview]
  cases ed.historyView with
  | none => exact h.showEntry (some 0) (.copy c.line) (.copy ed.buf) 0
  | some view =>
    dsimp only
    by_cases hmore : view + 1 < ed.historyCount
    · rw [if_pos hmore, if_pos (hcount.symm ▸ hmore)]
      exact h.showEntry (some (view + 1)) c.historySaved ed.historySaved (view + 1)
    · rw [if_neg hmore, if_neg (hcount.symm ▸ hmore)]
      exact h

/-- Where both show the line that each of them has saved, these have to be the same. -/
lemma Together.showSaved (hsaved : c.historySaved.text = ed.historySaved.text) :
    Together (ClientEditor.lineReplace { c with historyView := none } c.historySaved.text).2
      (LineEditor.lineReplace { ed with historyView := none } ed.historySaved.text).2 := by
  rw [hsaved]
  exact (h.viewing none c.historySaved ed.historySaved).replace ed.historySaved

lemma Together.replace_line (view : Option ℕ) (line line' : CText lineSize) :
    (ClientEditor.lineReplace { c with historyView := view } line.text).2.lineText = line.text ∧
      (ClientEditor.lineReplace { c with historyView := view } line.text).2.lineCursor = line.text.length ∧
      (LineEditor.lineReplace { ed with historyView := view } line'.text).2.lineText = line'.text ∧
      (LineEditor.lineReplace { ed with historyView := view } line'.text).2.lineCursor = line'.text.length := by
  have hfits := line.fits
  have hfits' := line'.fits
  obtain ⟨written, hc⟩ := @replace_eq { c with historyView := view } h.works line.text
  obtain ⟨sent, he⟩ := @quiet_replace { ed with historyView := view } h.quiet line'.text
  rw [hc, he]
  refine ⟨replaced_text line c.line, ?_, replaced_text line' ed.buf, ?_⟩
  · have hmin : min line.text.length (lineSize - 1) = line.text.length := by omega
    exact hmin
  · have hmin : min line'.text.length (lineSize - 1) = line'.text.length := by omega
    exact hmin

/-- The down key in a session that has not been used: the session shows what it has saved, the client nothing. -/
lemma Together.down_fresh (hc : c.historyView = none) (he : ed.historyView = some 0) :
    (SameLine c (LineEditor.lineReplace { ed with historyView := none } ed.historySaved.text).2 ↔ KeyAgrees .down c ed) ∧
      (KeyAgrees .down c ed → Together c (LineEditor.lineReplace { ed with historyView := none } ed.historySaved.text).2) := by
  have hsound := (h.session.viewing none ed.historySaved).replace ed.historySaved
  obtain ⟨-, -, htext, hcursor⟩ := h.replace_line none ed.historySaved ed.historySaved
  have hlen := h.session.length
  have hagrees : KeyAgrees .down c ed ↔ ed.historySaved.text = ed.lineText ∧ ed.lineCursor = ed.lineLen := by
    rw [KeyAgrees, he, hc, if_pos rfl]
    exact forall_prop_of_true rfl
  have hview := (lineReplace_view { ed with historyView := none } ed.historySaved.text).1
  have hframe := @replace_framed { ed with historyView := none } h.quiet none ed.historySaved ed.historySaved.text
  have hquiet : Quiet (LineEditor.lineReplace { ed with historyView := none } ed.historySaved.text).2 :=
    hframe.quiet h.quiet
  change Framed _ (LineEditor.lineReplace { ed with historyView := none } ed.historySaved.text).2 at hframe
  rw [hagrees]
  generalize (LineEditor.lineReplace { ed with historyView := none } ed.historySaved.text).2 = ed'
    at hsound htext hcursor hview hframe hquiet ⊢
  have hsame : SameLine c ed' ↔ ed.historySaved.text = ed.lineText ∧ ed.lineCursor = ed.lineLen := by
    rw [SameLine, htext, hcursor, h.text, h.cursor, ← hlen]
    constructor
    · rintro ⟨ht, hk⟩
      exact ⟨ht.symm, hk.trans (congrArg List.length ht.symm)⟩
    · rintro ⟨ht, hk⟩
      exact ⟨ht.symm, hk.trans (congrArg List.length ht.symm)⟩
  refine ⟨hsame, fun hagree => ?_⟩
  obtain ⟨ht, hk⟩ := hsame.mpr hagree
  refine ⟨h.works, hquiet, h.client, hsound, ht, ?_, hk, h.history.trans hframe.history.symm,
    h.historyCount.trans hframe.historyCount.symm, h.historyNext.trans hframe.historyNext.symm,
      .inl (hc.trans hview.symm),
    h.escState.trans hframe.escState.symm, h.csi.trans hframe.csi.symm⟩
  rw [h.len, ← hlen, ← hsound.length, ← h.text, ht]

lemma Together.down :
    (SameLine (ClientEditor.historyDown c).2 (LineEditor.historyDown ed).2 ↔ KeyAgrees .down c ed) ∧
      (KeyAgrees .down c ed → Together (ClientEditor.historyDown c).2 (LineEditor.historyDown ed).2) := by
  rw [ClientEditor.historyDown, LineEditor.historyDown]
  rcases h.views with hview | ⟨hc, he, -⟩
  · rw [hview]
    cases hv : ed.historyView with
    | none => exact ⟨iff_of_true h.sameLine fun h0 => absurd (hv.symm.trans h0) (Option.some_ne_none 0).symm, fun _ => h⟩
    | some view =>
      cases view with
      | zero =>
        obtain ⟨htext, hcursor, htext', hcursor'⟩ := h.replace_line none c.historySaved ed.historySaved
        have hagrees : KeyAgrees .down c ed ↔ c.historySaved.text = ed.historySaved.text := by
          rw [KeyAgrees, hv, if_neg (by rw [hview, hv]; exact Option.some_ne_none 0)]
          exact forall_prop_of_true rfl
        rw [hagrees]
        refine ⟨?_, h.showSaved⟩
        change SameLine (ClientEditor.lineReplace { c with historyView := none } c.historySaved.text).2
          (LineEditor.lineReplace { ed with historyView := none } ed.historySaved.text).2 ↔ _
        rw [SameLine, htext, hcursor, htext', hcursor']
        exact ⟨fun hsame => hsame.1, fun hsame => ⟨hsame, congrArg List.length hsame⟩⟩
      | succ view =>
        have hshow := h.showEntry (some view) c.historySaved ed.historySaved view
        refine ⟨iff_of_true hshow.sameLine fun h0 => ?_, fun _ => hshow⟩
        exact absurd (Option.some_inj.mp (hv.symm.trans h0)) (Nat.succ_ne_zero view)
  · rw [hc, he]
    exact h.down_fresh hc he

/-- Home leaves the cursor of the client where it is. -/
lemma Together.home :
    (SameLine (ClientEditor.cursorHome c).2 (LineEditor.cursorHome ed).2 ↔ KeyAgrees .home c ed) ∧
      (KeyAgrees .home c ed → Together (ClientEditor.cursorHome c).2 (LineEditor.cursorHome ed).2) := by
  obtain ⟨written, hc⟩ := home_eq h.works
  obtain ⟨sent, he⟩ := quiet_home h.quiet
  rw [hc, he]
  have hsame : SameLine { c with written := written } { ed with lineCursor := 0, sent := sent } ↔
      ed.lineCursor = 0 := by
    rw [← h.cursor]
    exact and_iff_right h.text
  refine ⟨hsame, fun h0 => ?_⟩
  exact h.moved (Nat.zero_le _) (h.cursor.trans h0) written sent

/-- A key keeps the editors together, unless it is one of the two. -/
lemma Together.press (key : EditKey) :
    (SameLine (pressClient key c).2 (pressKey key ed).2 ↔ KeyAgrees key c ed) ∧
      (KeyAgrees key c ed → Together (pressClient key c).2 (pressKey key ed).2) := by
  have hcursor := h.cursor
  have hlen := h.len
  have hcur := h.session.cursor
  cases key with
  | up => exact Together.keeps h.up
  | down => exact h.down
  | right =>
    obtain ⟨written, hc⟩ := right_eq h.works
    obtain ⟨sent, he⟩ := quiet_right h.quiet
    rw [pressClient, pressKey, hc, he]
    refine Together.keeps (h.moved ?_ ?_ written sent)
    · split_ifs <;> omega
    · rw [hcursor, hlen]
  | left =>
    obtain ⟨written, hc⟩ := left_eq h.works
    obtain ⟨sent, he⟩ := quiet_left h.quiet
    rw [pressClient, pressKey, hc, he]
    exact Together.keeps (h.moved (by omega) (congrArg (· - 1) hcursor) written sent)
  | home => exact h.home
  | toEnd =>
    obtain ⟨written, hc⟩ := end_eq h.works
    obtain ⟨sent, he⟩ := quiet_end h.quiet
    rw [pressClient, pressKey, hc, he]
    refine Together.keeps (h.moved (by omega) ?_ written sent)
    rw [hcursor, hlen]
  | delete =>
    obtain ⟨written, hc⟩ := delete_eq h.works
    obtain ⟨sent, he⟩ := quiet_delete h.quiet
    rw [pressClient, pressKey, hc, he]
    by_cases hlt : ed.lineCursor < ed.lineLen
    · rw [if_pos hlt, if_pos (by omega)]
      exact Together.keeps (h.cut hlt written sent)
    · rw [if_neg hlt, if_neg (by omega)]
      exact Together.keeps (h.moved hcur hcursor written sent)
  | other => exact Together.keeps h

lemma Together.filtering (state : EscState) (csi : Bytes) :
    Together { c with escState := state, csi := csi } { ed with escState := state, csi := csi } :=
  { h with
    client := ⟨h.client.size, h.client.fits, h.client.cursor⟩
    session := h.session.of_line rfl rfl h.session.cursor
    escState := rfl
    csi := rfl }

/-- The escape filters agree, and what they complete is a key of both. -/
lemma Together.filter (byte : UInt8) :
    (ClientEditor.filterEscapeByte c byte).1 = (LineEditor.filterEscapeByte ed byte).1 ∧
      ((LineEditor.filterEscapeByte ed byte).1 = false → completedKey ed.escState ed.csi byte = .other) ∧
      (SameLine (ClientEditor.filterEscapeByte c byte).2 (LineEditor.filterEscapeByte ed byte).2 ↔
        KeyAgrees (completedKey ed.escState ed.csi byte) c ed) ∧
      (KeyAgrees (completedKey ed.escState ed.csi byte) c ed →
        Together (ClientEditor.filterEscapeByte c byte).2 (LineEditor.filterEscapeByte ed byte).2) := by
  have hstate := h.escState
  have hcsi := h.csi
  rw [ClientEditor.filterEscapeByte, LineEditor.filterEscapeByte, hstate, hcsi]
  cases hs : ed.escState with
  | plain =>
    dsimp only
    split_ifs
    · exact ⟨rfl, fun _ => rfl, Together.keeps (h.filtering .csi [])⟩
    · exact ⟨rfl, fun _ => rfl, Together.keeps (h.filtering .esc ed.csi)⟩
    · exact ⟨rfl, fun _ => rfl, Together.keeps h⟩
  | esc =>
    dsimp only
    split_ifs
    · exact ⟨rfl, fun _ => rfl, Together.keeps (h.filtering .csi [])⟩
    · exact ⟨rfl, fun _ => rfl, Together.keeps (h.filtering .ss3 ed.csi)⟩
    · exact ⟨rfl, fun _ => rfl, Together.keeps (h.filtering .plain [])⟩
  | ss3 =>
    obtain ⟨hsame, htogether⟩ := h.press (ss3EditKey byte)
    dsimp only
    rw [applySs3_eq, ss3Key_eq]
    exact ⟨rfl, fun h0 => Bool.noConfusion h0, hsame, fun hk => (htogether hk).filtering .plain []⟩
  | csi =>
    obtain ⟨hsame, htogether⟩ := (h.filtering .plain []).press (csiEditKey (cstr ed.csi) byte)
    rw [completedKey]
    dsimp only
    split_ifs
    · exact ⟨rfl, fun _ => rfl, Together.keeps (h.filtering .plain [])⟩
    · rw [applyCsi_eq, csiKey_eq]
      exact ⟨rfl, False.elim, hsame, htogether⟩
    · exact ⟨rfl, fun _ => rfl, Together.keeps (h.filtering .csi (ed.csi ++ [byte]))⟩

lemma Together.backspaced : Together (backspaceChar c).2 (LineEditor.backspace ed).2 := by
  have hcursor := h.cursor
  have hcur := h.session.cursor
  obtain ⟨written, hc⟩ := backspace_eq h.works
  obtain ⟨sent, he⟩ := quiet_backspace h.quiet
  rw [hc, he]
  by_cases h0 : ed.lineCursor = 0
  · rw [if_pos h0, if_pos (hcursor.trans h0)]
    exact h.moved hcur hcursor written sent
  · rw [if_neg h0, if_neg (hcursor.trans_ne h0)]
    have hleft := @Together.moved c ed h (ed.lineCursor - 1) (c.lineCursor - 1) (by omega) (congrArg (· - 1) hcursor) c.written ed.sent
    have hlt : ed.lineCursor - 1 < ed.lineLen := by omega
    exact hleft.cut hlt written sent

lemma Together.inserted {byte : UInt8} (htake : takes c byte = lineTakes ed byte) :
    Together (ClientEditor.insertChar c byte).2 (LineEditor.insertChar ed byte).2 := by
  have hmax := lineMaxLen_le ed
  obtain ⟨written, hc⟩ := insert_eq h.works byte
  obtain ⟨sent, he⟩ := quiet_insert h.quiet byte
  rw [hc, he, htake]
  by_cases hputs : lineTakes ed byte = true
  · rw [if_pos hputs, if_pos hputs]
    obtain ⟨hecho, hroom⟩ := Bool.and_eq_true_iff.mp hputs
    have hbyte : byte ≠ 0 := by
      rintro rfl
      exact absurd hecho (by decide)
    have hless : ed.lineLen < ed.lineMaxLen := of_decide_eq_true hroom
    exact h.put (by omega) hbyte written sent
  · rw [if_neg hputs, if_neg hputs]
    exact h.moved h.session.cursor h.cursor written sent

end Edits

/-- The byte is to be put into the line, and there is no room for it. -/
def refuses (ed : LineEditor) (byte : UInt8) : Bool :=
  let r := LineEditor.filterEscapeByte ed byte
  !r.1 && LineEditor.charEchoable byte && r.2.lineMaxLen ≤ r.2.lineLen

def clientRefuses (c : ClientEditor) (byte : UInt8) : Bool :=
  let r := ClientEditor.filterEscapeByte c byte
  !r.1 && LineEditor.charEchoable byte && lineSize ≤ r.2.lineLen + 1

/-- What the loop of a poll makes of the editor. -/
def typeChar (outLen : ℕ) (c : ClientEditor) (ch : UInt8) : ClientEditor := (pollByte outLen c ch).1

/-- The next byte does not part the editors. -/
def ByteAgrees (c : ClientEditor) (ed : LineEditor) (byte : UInt8) : Prop :=
  KeyAgrees (completedKey ed.escState ed.csi byte) c ed

instance ByteAgrees.decidable (c : ClientEditor) (ed : LineEditor) (byte : UInt8) : Decidable (ByteAgrees c ed byte) :=
  inferInstanceAs (Decidable (KeyAgrees (completedKey ed.escState ed.csi byte) c ed))

section Typing

variable {outLen : ℕ} {c : ClientEditor} {ed : LineEditor}

lemma Together.byte (h : Together c ed) {byte : UInt8} (hcr : byte ≠ cr) (hnl : byte ≠ nl)
    (hroom : refuses ed byte = false) (hroom' : clientRefuses c byte = false) :
    (SameLine (typeChar outLen c byte) (typeByte ed byte) ↔ ByteAgrees c ed byte) ∧
      (ByteAgrees c ed byte → Together (typeChar outLen c byte) (typeByte ed byte)) := by
  obtain ⟨htaken, hother, hsame, htogether⟩ := h.filter byte
  rw [refuses] at hroom
  rw [clientRefuses, htaken] at hroom'
  rw [typeChar, pollByte, typeByte, ByteAgrees]
  revert htaken hother hsame htogether hroom hroom'
  generalize completedKey ed.escState ed.csi byte = key
  generalize LineEditor.filterEscapeByte ed byte = r
  generalize ClientEditor.filterEscapeByte c byte = q
  obtain ⟨taken, ed'⟩ := r
  obtain ⟨taken', c'⟩ := q
  rintro hroom hroom' rfl hother hsame htogether
  cases taken' with
  | true => exact ⟨hsame, htogether⟩
  | false =>
    obtain rfl : key = .other := hother rfl
    have h' : Together c' ed' := htogether trivial
    have htake : takes c' byte = lineTakes ed' byte := by
      rw [takes, lineTakes]
      cases hecho : LineEditor.charEchoable byte with
      | false => rfl
      | true =>
        rw [hecho] at hroom hroom'
        have hmore : ed'.lineLen < ed'.lineMaxLen := by simpa using hroom
        have hmore' : c'.lineLen + 1 < lineSize := by simpa using hroom'
        rw [decide_eq_true hmore, decide_eq_true hmore']
    have hends : ¬(byte = cr ∨ byte = nl) := not_or.mpr ⟨hcr, hnl⟩
    dsimp only
    rw [if_neg Bool.false_ne_true, if_neg hends]
    by_cases h0 : byte = 0
    · rw [if_pos h0, if_neg (by rw [h0]; decide), h0]
      obtain ⟨written, hc⟩ := insert_eq h'.works 0
      rw [checked, hc, if_neg (by simp [takes, LineEditor.charEchoable])]
      exact Together.keeps (h'.moved h'.session.cursor h'.cursor written ed'.sent)
    rw [if_neg h0]
    by_cases hback : byte = 0x08 ∨ byte = 0x7F
    · rw [if_pos hback, if_pos hback]
      exact Together.keeps h'.backspaced
    · rw [if_neg hback, if_neg hback]
      exact Together.keeps (h'.inserted htake)

/-- Up to the first byte that parts them, the editors have the same line. -/
lemma Together.bytes (h : Together c ed) {data : Bytes} (hdata : ∀ b ∈ data, b ≠ cr ∧ b ≠ nl)
    (hroom : ∀ before b, before ++ [b] <+: data →
      refuses (before.foldl typeByte ed) b = false ∧ clientRefuses (before.foldl (typeChar outLen) c) b = false) :
    (∀ before, before <+: data → SameLine (before.foldl (typeChar outLen) c) (before.foldl typeByte ed)) ↔
      ∀ before b, before ++ [b] <+: data →
          ByteAgrees (before.foldl (typeChar outLen) c) (before.foldl typeByte ed) b := by
  induction data generalizing c ed with
  | nil =>
    refine ⟨fun _ before b hb => ?_, fun _ before hb => ?_⟩
    · exact absurd (List.prefix_nil.mp hb) (List.append_ne_nil_of_right_ne_nil before (List.cons_ne_nil b []))
    · rw [List.prefix_nil.mp hb]
      exact h.sameLine
  | cons byte data ih =>
    rw [List.forall_mem_cons] at hdata
    have hfirst : [] ++ [byte] <+: byte :: data := ⟨data, rfl⟩
    obtain ⟨hroom₁, hroom₂⟩ := hroom [] byte hfirst
    obtain ⟨hsame, htogether⟩ := @Together.byte outLen c ed h byte hdata.1.1 hdata.1.2 hroom₁ hroom₂
    have hcons : ∀ {before : Bytes}, byte :: before <+: byte :: data ↔ before <+: data := by
      intro before
      exact List.prefix_cons_inj byte
    have hrest : ByteAgrees c ed byte → ((∀ before, before <+: data →
        SameLine (before.foldl (typeChar outLen) (typeChar outLen c byte)) (before.foldl typeByte (typeByte ed byte))) ↔
        ∀ before b, before ++ [b] <+: data → ByteAgrees (before.foldl (typeChar outLen) (typeChar outLen c byte))
          (before.foldl typeByte (typeByte ed byte)) b) := by
      intro hagrees
      apply ih (htogether hagrees) hdata.2
      intro before b hb
      exact hroom (byte :: before) b (hcons.mpr hb)
    constructor
    · intro hall before b hb
      have hagrees : ByteAgrees c ed byte := hsame.mp (hall [byte] ⟨data, rfl⟩)
      cases before with
      | nil =>
        obtain rfl := (List.cons_prefix_cons.mp hb).1
        exact hagrees
      | cons other before =>
        obtain ⟨rfl, htail⟩ := List.cons_prefix_cons.mp hb
        exact (hrest hagrees).mp (fun before' hb' => hall (other :: before') (hcons.mpr hb')) before b htail
    · intro hall before hb
      have hagrees : ByteAgrees c ed byte := hall [] byte hfirst
      cases before with
      | nil => exact h.sameLine
      | cons other before =>
        obtain ⟨rfl, htail⟩ := List.cons_prefix_cons.mp hb
        exact (hrest hagrees).mpr (fun before' b hb' => hall (other :: before') b (hcons.mpr hb')) before htail

end Typing

def bytesOf (reads : List ClientRead) : Bytes := (reads.map Subtype.val).flatten

def polled (outLen : ℕ) (c : ClientEditor) (reads : List ClientRead) : ClientEditor :=
  (editorPolls outLen c (reads.map .bytes)).1

/-- Both lines are empty, and the histories and the escape filters are the same. -/
structure SameStart (c : ClientEditor) (ed : LineEditor) : Prop where
  clientEmpty : c.lineLen = 0
  sessionEmpty : ed.lineLen = 0
  history : c.history = ed.history
  historyCount : c.historyCount = ed.historyCount
  historyNext : c.historyNext = ed.historyNext
  views : ViewsMeet c ed
  escState : c.escState = ed.escState
  csi : c.csi = ed.csi

lemma SameStart.together {c : ClientEditor} {ed : LineEditor} (h : SameStart c ed) (hc : Ready c) (hquiet : Quiet ed)
    (hed : EditorSound ed) : Together c ed := by
  have hempty := h.clientEmpty
  have hempty' := h.sessionEmpty
  have hcursor := hc.sound.cursor
  have hcursor' := hed.cursor
  refine ⟨hc.works, hquiet, hc.sound, hed, ?_, hempty.trans hempty'.symm,
    by omega, h.history, h.historyCount, h.historyNext,
    h.views, h.escState, h.csi⟩
  rw [ClientEditor.lineText, LineEditor.lineText, hempty, hempty', List.take_zero, List.take_zero]

section Polled

variable {outLen : ℕ} {c : ClientEditor}

/-- Reads without a line end are typed, byte by byte. -/
lemma call_typed {data : Bytes} (hdata : ∀ b ∈ data, b ≠ cr ∧ b ≠ nl) (h : Works c) :
    (call (pollByte outLen) c data).1 = data.foldl (typeChar outLen) c ∧ Works (data.foldl (typeChar outLen) c) := by
  induction data generalizing c with
  | nil => exact ⟨rfl, h⟩
  | cons b data ih =>
    rw [List.forall_mem_cons] at hdata
    obtain ⟨hnext, hiff⟩ := @pollByte_scan c outLen _ ⟨h, rfl⟩ b
    have hsilent : Silent (pollByte outLen) c b := by
      apply hiff.mpr
      apply if_neg
      rintro ⟨-, hend⟩
      exact hend.elim hdata.1.1 hdata.1.2
    rw [call_silent hsilent]
    exact ih hdata.2 hnext.1

lemma polled_typed {reads : List ClientRead} (hdata : ∀ b ∈ bytesOf reads, b ≠ cr ∧ b ≠ nl) (h : Works c) :
    polled outLen c reads = (bytesOf reads).foldl (typeChar outLen) c := by
  induction reads generalizing c with
  | nil => rfl
  | cons read reads ih =>
    have hall : ∀ b ∈ read.1 ++ bytesOf reads, b ≠ cr ∧ b ≠ nl := hdata
    rw [List.forall_mem_append] at hall
    obtain ⟨hcall, hnext⟩ := @call_typed outLen c read.1 hall.1 h
    have hflat : bytesOf (read :: reads) = read.1 ++ bytesOf reads := rfl
    have hpoll : polled outLen c (read :: reads) = polled outLen (editorPoll outLen c (.bytes read)).1 reads := rfl
    rw [hflat, List.foldl_append, hpoll, (editorPoll_bytes c read).1, hcall]
    exact ih hall.2 hnext

lemma bytesOf_oneByte (data : Bytes) : bytesOf (data.map oneByte) = data := by
  induction data with
  | nil => rfl
  | cons b data ih => exact congrArg (b :: ·) ih

end Polled

/-- The editor of a client after any reads. -/
def clientAfter (outLen : ℕ) (rawEnabled : Bool) (outcomes : List Bool) (reads : List ReadResult) : ClientEditor :=
  (editorPolls outLen (started rawEnabled outcomes) reads).1

/-- However a client and a session have come to an empty line and the same history: fed bytes without a line end that find
room, in whatever reads, they hold the same line and cursor exactly if no byte completes a key that parts them. -/
theorem editors_agree_iff (commands : EditorSession → Bytes → CommandEffect) (effect : CommandEffect)
    (events : List SessionEvent) (outLen : ℕ) (rawEnabled : Bool) (outcomes : List Bool) (reads : List ReadResult)
    (data : Bytes)
    (hworks : rawEnabled = true → outcomes = []) (hquiet : Quiet (editorAfter commands effect events))
    (hstart : SameStart (clientAfter outLen rawEnabled outcomes reads) (editorAfter commands effect events))
    (hdata : cr ∉ data ∧ nl ∉ data)
    (hroom : ∀ before b, before ++ [b] <+: data →
      refuses (handleBytes (editorWork commands) (editorRun commands (openedSession effect) events) before).session.rest b = false ∧
        clientRefuses (polled outLen (clientAfter outLen rawEnabled outcomes reads) (before.map oneByte)) b = false) :
    (∀ typed, bytesOf typed <+: data → SameLine (polled outLen (clientAfter outLen rawEnabled outcomes reads) typed)
        (handleBytes (editorWork commands) (editorRun commands (openedSession effect) events) (bytesOf typed)).session.rest) ↔
      ∀ before b, before ++ [b] <+: data →
        ByteAgrees (polled outLen (clientAfter outLen rawEnabled outcomes reads) (before.map oneByte))
          (handleBytes (editorWork commands) (editorRun commands (openedSession effect) events) before).session.rest b := by
  have hsound : EditorSound (editorAfter commands effect events) := editorRun_sound events (opened_sound effect)
  have hready : Ready (clientAfter outLen rawEnabled outcomes reads) := by
    apply editorPolls_ready
    have hpos : 0 < lineSize := by decide
    exact ⟨hworks, List.length_replicate, hpos, le_refl 0⟩
  have htogether := hstart.together hready hquiet hsound
  generalize clientAfter outLen rawEnabled outcomes reads = c at hready hstart hroom htogether ⊢
  have hends : ∀ before, before <+: data → ∀ b ∈ before, b ≠ cr ∧ b ≠ nl := by
    intro before hbefore b hb
    have hmem := hbefore.subset hb
    exact ⟨ne_of_mem_of_not_mem hmem hdata.1, ne_of_mem_of_not_mem hmem hdata.2⟩
  have hsession : ∀ before, before <+: data →
      (handleBytes (editorWork commands) (editorRun commands (openedSession effect) events) before).session.rest =
        before.foldl typeByte (editorAfter commands effect events) :=
    fun before hbefore => handleBytes_typed (hends before hbefore) hquiet
  have hclient : ∀ typed, bytesOf typed <+: data → polled outLen c typed = (bytesOf typed).foldl (typeChar outLen) c :=
    fun typed htyped => polled_typed (hends _ htyped) hready.works
  have hclient' : ∀ before, before <+: data →
      polled outLen c (before.map oneByte) = before.foldl (typeChar outLen) c := by
    intro before hbefore
    have h := hclient (before.map oneByte)
    rw [bytesOf_oneByte] at h
    exact h hbefore
  have hless : ∀ {before : Bytes} {b : UInt8}, before ++ [b] <+: data → before <+: data :=
    fun hb => (List.prefix_append _ _).trans hb
  have hbytes := @Together.bytes outLen c (editorAfter commands effect events) htogether data (hends data List.prefix_rfl) (by
    intro before b hb
    rw [← hsession before (hless hb), ← hclient' before (hless hb)]
    exact hroom before b hb)
  constructor
  · intro hall before b hb
    rw [hsession before (hless hb), hclient' before (hless hb)]
    refine hbytes.mp (fun before' hbefore => ?_) before b hb
    have hone := hall (before'.map oneByte)
    rw [bytesOf_oneByte] at hone
    rw [← hsession before' hbefore, ← hclient' before' hbefore]
    exact hone hbefore
  · intro hall typed htyped
    rw [hsession _ htyped, hclient typed htyped]
    refine hbytes.mpr (fun before b hb => ?_) _ htyped
    rw [← hsession before (hless hb), ← hclient' before (hless hb)]
    exact hall before b hb

section Example

/-- What holds at every byte of some data, by the bytes before it. -/
lemma forall_before {P : Bytes → UInt8 → Prop} {data : Bytes} (h : ∀ before ∈ data.inits, ∀ b ∈ data, P before b)
    (before : Bytes) (b : UInt8) (hb : before ++ [b] <+: data) : P before b := by
  apply h
  · exact (List.mem_inits before data).mpr ((List.prefix_append _ _).trans hb)
  · exact hb.subset (List.mem_append_right before (List.mem_singleton_self b))

theorem editors_agree_hi :
    SameLine (polled 80 (clientAfter 80 true [] []) ((ofString "hi").map oneByte))
      (handleBytes (editorWork fun _ _ => quietCommand) (editorRun (fun _ _ => quietCommand) (openedSession quietCommand) [])
        (bytesOf ((ofString "hi").map oneByte))).session.rest :=
  (editors_agree_iff (fun _ _ => quietCommand) quietCommand [] 80 true [] [] (ofString "hi") (fun _ => rfl) (fun _ => rfl)
    ⟨rfl, rfl, rfl, rfl, rfl, .inr ⟨rfl, rfl, rfl⟩, rfl, rfl⟩ (by decide +kernel)
    (forall_before (by decide +kernel))).mpr (forall_before (by decide +kernel)) _ (by decide +kernel)

/-- `abc`, the home key and `x`: the session has `xabc`, the client `abcx`. -/
theorem home_parts_editors :
    let s := editorRun (fun _ _ => quietCommand) (openedSession quietCommand) []
    let c := clientAfter 80 true [] []
    let keys : ClientRead := ⟨ofString "abc\x1b[Hx", by decide⟩
    SameStart c s.rest ∧ cr ∉ keys.1 ∧ nl ∉ keys.1 ∧
      (handleBytes (editorWork fun _ _ => quietCommand) s keys.1).session.rest.lineText = ofString "xabc" ∧
      (polled 80 c [keys]).lineText = ofString "abcx" ∧
      ¬SameLine (polled 80 c [keys]) (handleBytes (editorWork fun _ _ => quietCommand) s keys.1).session.rest := by
  intro s c keys
  refine ⟨⟨rfl, rfl, rfl, rfl, rfl, .inr ⟨rfl, rfl, rfl⟩, rfl, rfl⟩, ?_⟩
  decide +kernel

end Example

end HyBBX.Client
