import HyBBX.Client.Lockstep
import HyBBX.Command.Dispatch
import HyBBX.Session.PasswordHistory

/-! Which lines the editor of a client keeps in its history, and which of them carry passwords. -/

namespace HyBBX.Client

open HyBBX.Core Lib Lib.Bytes Lib.Text Lib.EarlyReturn ClientEditor
open Session (lineSize EscState EditKey ss3EditKey NoSecrets SecretSpelling InHistory shouldStore_iff noSecrets_stored noSecrets_empty
  cstr_short submittedLine submitLine editorRun openedSession session_secret_iff quietCommand)
open Command (PasswordLine passwordLine_ne_nil)

/-- What holds of the editor of a client whatever becomes of its writes. -/
structure Discreet (c : ClientEditor) : Prop where
  sound : ClientSound c
  ended : 0 ∈ c.line
  secrets : NoSecrets c.history

def echoed (c : ClientEditor) : Bool × ClientEditor := if c.rawEnabled then writeAll c [cr, nl] else (true, c)

/-- The editor when the line end has been shown and the line is taken. -/
def submitted (c : ClientEditor) : ClientEditor := takeLine (echoed c).2

section Keeps

variable {c : ClientEditor}

section Moves

variable {P : ClientEditor → Prop}

lemma writtenThen {r : Bool × ClientEditor} {next : ClientEditor → Bool × ClientEditor} (h : P r.2)
    (hnext : ∀ c, P c → P (next c).2) :
    P (match r with
      | (true, c) => next c
      | r => r).2 := by
  obtain ⟨ok, c⟩ := r
  cases ok with
  | true => exact hnext c h
  | false => exact h

lemma rightsKeep (hright : ∀ c, P c → P (cursorRight c).2) (n : ℕ) {c : ClientEditor} (h : P c) :
    P (moveRights n c).2 := by
  induction n generalizing c with
  | zero => exact h
  | succ n ih => exact writtenThen (hright c h) fun _ => ih

end Moves

variable (h : Discreet c)

include h

lemma Discreet.same {c' : ClientEditor} (hline : c'.line = c.line) (hlen : c'.lineLen = c.lineLen)
    (hcursor : c'.lineCursor ≤ c.lineLen) (hhistory : c'.history = c.history) : Discreet c' :=
  ⟨⟨hline ▸ h.sound.size, hlen ▸ h.sound.fits, hlen ▸ hcursor⟩, hline ▸ h.ended, hhistory ▸ h.secrets⟩

lemma Discreet.write (data : Bytes) : Discreet (writeAll c data).2 := by
  have hcursor := h.sound.cursor
  rw [writeAll]
  split <;> exact h.same rfl rfl hcursor rfl

lemma Discreet.refresh : Discreet (refreshSuffix c).2 := by
  rw [refreshSuffix]
  split_ifs
  · exact h
  · exact h.write _

lemma Discreet.left : Discreet (cursorLeft c).2 := by
  have hmoved : Discreet { c with lineCursor := c.lineCursor - 1 } :=
    h.same rfl rfl ((Nat.sub_le _ 1).trans h.sound.cursor) rfl
  rw [cursorLeft]
  dsimp only
  split_ifs
  · exact h
  · exact hmoved.write _
  · exact hmoved

lemma Discreet.right : Discreet (cursorRight c).2 := by
  rw [cursorRight]
  split_ifs with hend
  · exact h
  · exact h.same rfl rfl (not_le.mp hend) rfl
  · have hwrite := h.write [c.line.getD c.lineCursor 0]
    have hsame : (writeAll c [c.line.getD c.lineCursor 0]).2.lineLen = c.lineLen ∧
        (writeAll c [c.line.getD c.lineCursor 0]).2.lineCursor = c.lineCursor := by
      rw [writeAll]
      split <;> exact ⟨rfl, rfl⟩
    generalize writeAll c [c.line.getD c.lineCursor 0] = r at hwrite hsame ⊢
    obtain ⟨ok, c'⟩ := r
    cases ok with
    | true => exact hwrite.same rfl rfl (by dsimp only at hsame ⊢; omega) rfl
    | false => exact hwrite

lemma Discreet.home : Discreet (cursorHome c).2 := by
  rw [cursorHome, moveBack]
  split_ifs
  · exact h
  · exact h.write _

lemma Discreet.cut (hlt : c.lineCursor < c.lineLen) : Discreet (cutAtCursor c) := by
  refine ⟨h.sound.cut hlt c.written, ?_, h.secrets⟩
  have hsize := h.sound.size
  have hfits := h.sound.fits
  refine List.mem_set ?_ 0
  rw [Session.memmove_length _ _ _ _ (by omega) (by omega)]
  omega

lemma Discreet.delete : Discreet (deleteForward c).2 := by
  rw [deleteForward]
  split_ifs with hend
  · exact h
  · exact (h.cut (not_le.mp hend)).refresh

lemma Discreet.backspace : Discreet (backspaceChar c).2 := by
  have hcursor := h.sound.cursor
  rw [backspaceChar]
  by_cases h0 : c.lineCursor = 0
  · rw [if_pos h0]
    exact h
  rw [if_neg h0]
  have hmoved : Discreet { c with lineCursor := c.lineCursor - 1 } :=
    h.same rfl rfl ((Nat.sub_le _ 1).trans hcursor) rfl
  have hcut := hmoved.cut (by dsimp only; omega)
  dsimp only
  split_ifs
  · exact hcut.refresh
  · exact writtenThen (hcut.write _) fun _ h => h.refresh

lemma Discreet.insert (ch : UInt8) : Discreet (insertChar c ch).2 := by
  rw [insertChar]
  by_cases hplain : ch < 0x20 ∨ ch = 0x7F
  · rw [if_pos hplain]
    exact h
  rw [if_neg hplain]
  by_cases hfull : lineSize ≤ c.lineLen + 1
  · rw [if_pos hfull]
    exact h
  rw [if_neg hfull]
  have hsound := h.sound.put (not_le.mp hfull) ch c.written
  have hput : Discreet (putAtCursor c ch) := by
    refine ⟨hsound, List.mem_set ?_ 0, h.secrets⟩
    have hsize : ((putAtCursor c ch).line).length = lineSize := hsound.size
    rw [putAtCursor] at hsize
    dsimp only at hsize
    rw [List.length_set] at hsize
    rw [hsize]
    exact not_le.mp hfull
  dsimp only
  split_ifs
  · exact hput
  · exact writtenThen (hput.write _) fun _ h => h.refresh

lemma Discreet.replace (view : Option ℕ) (saved : CText lineSize) (line : Bytes) :
    Discreet (lineReplace { c with historyView := view, historySaved := saved } line).2 := by
  have hviewing : Discreet { c with historyView := view, historySaved := saved } := h.same rfl rfl h.sound.cursor rfl
  generalize { c with historyView := view, historySaved := saved } = c at hviewing
  have hwritten : ∀ data, Discreet (if c.rawEnabled then writeAll c data else (true, c)).2 := by
    intro data
    split_ifs
    · exact hviewing.write data
    · exact hviewing
  rw [lineReplace]
  have hwritten := hwritten (backspaces c.lineCursor ++ line.take (min line.length (lineSize - 1)) ++ Session.LineEditor.eraseToEnd)
  generalize (if c.rawEnabled then writeAll c
    (backspaces c.lineCursor ++ line.take (min line.length (lineSize - 1)) ++ Session.LineEditor.eraseToEnd) else (true, c)) = r
    at hwritten ⊢
  obtain ⟨ok, c'⟩ := r
  dsimp only at hwritten ⊢
  split_ifs
  · exact hwritten
  · refine ⟨hwritten.sound.replaced line c'.written, List.mem_set ?_ 0, hwritten.secrets⟩
    have hsize := hwritten.sound.size
    have hpos : 0 < lineSize := by decide
    rw [List.length_append, List.length_take, List.length_drop]
    omega

lemma Discreet.up : Discreet (historyUp c).2 := by
  rw [historyUp]
  split_ifs
  · exact h
  · split
    · exact h.replace (some 0) (.copy c.line) _
    · rename_i view _
      dsimp only
      split_ifs
      · exact h.replace (some (view + 1)) c.historySaved _
      · exact h

lemma Discreet.down : Discreet (historyDown c).2 := by
  rw [historyDown]
  split
  · exact h
  · exact h.replace none c.historySaved _
  · rename_i view _
    exact h.replace (some view) c.historySaved _

lemma Discreet.press (key : EditKey) : Discreet (pressClient key c).2 := by
  cases key with
  | up => exact h.up
  | down => exact h.down
  | right => exact h.right
  | left => exact h.left
  | home => exact h.home
  | toEnd => exact rightsKeep (fun _ h => h.right) _ h
  | delete => exact h.delete
  | other => exact h

lemma Discreet.filter (byte : UInt8) : Discreet (filterEscapeByte c byte).2 := by
  have hstate : ∀ state csi, Discreet { c with escState := state, csi := csi } :=
    fun state csi => h.same rfl rfl h.sound.cursor rfl
  rw [filterEscapeByte]
  split
  · split_ifs
    · exact hstate .csi []
    · exact hstate .esc c.csi
    · exact h
  · split_ifs
    · exact hstate .csi []
    · exact hstate .ss3 c.csi
    · exact hstate .plain []
  · rw [applySs3_eq]
    have hkey := h.press (ss3EditKey byte)
    exact hkey.same rfl rfl hkey.sound.cursor rfl
  · split_ifs
    · exact hstate .plain []
    · rw [applyCsi_eq]
      exact Discreet.press (hstate .plain []) _
    · exact hstate c.escState (c.csi ++ [byte])

lemma Discreet.take : Discreet (takeLine c) := by
  have hkept : (historyAdd c (cstr c.line)).line = c.line ∧ NoSecrets (historyAdd c (cstr c.line)).history := by
    rw [historyAdd]
    by_cases hstore : historyShouldStore (cstr c.line) = false
    · rw [if_pos hstore]
      exact ⟨rfl, h.secrets⟩
    · rw [if_neg hstore]
      exact ⟨rfl, noSecrets_stored h.secrets (Bool.eq_true_of_not_eq_false hstore) _⟩
  refine ⟨takeLine_sound h.sound, List.mem_set ?_ 0, hkept.2⟩
  rw [hkept.1, h.sound.size]
  decide

lemma Discreet.echo : Discreet (echoed c).2 := by
  rw [echoed]
  split_ifs
  · exact h.write _
  · exact h

lemma Discreet.byte (outLen : ℕ) (ch : UInt8) : Discreet (pollByte outLen c ch).1 := by
  have hfilter := h.filter ch
  rw [pollByte]
  generalize filterEscapeByte c ch = r at hfilter ⊢
  obtain ⟨taken, c'⟩ := r
  cases taken with
  | true => exact hfilter
  | false =>
    dsimp only at hfilter ⊢
    by_cases hback : ch = 0x08 ∨ ch = 0x7F
    · rw [if_pos hback]
      exact hfilter.backspace
    rw [if_neg hback]
    by_cases hend : ch = cr ∨ ch = nl
    · rw [if_pos hend, ← echoed]
      by_cases hfailed : (echoed c').1 = false
      · rw [if_pos hfailed]
        exact hfilter.echo
      · rw [if_neg hfailed]
        exact hfilter.echo.take
    · rw [if_neg hend]
      exact hfilter.insert ch

lemma Discreet.polls (outLen : ℕ) (reads : List ReadResult) : Discreet (editorPolls outLen c reads).1 := by
  induction reads generalizing c with
  | nil => exact h
  | cons read reads ih =>
    apply ih
    cases read with
    | interrupted => exact h
    | failed => exact h
    | eof => exact h
    | bytes data =>
      rw [(editorPoll_bytes c data).1]
      have hstep : ∀ c ch, Discreet c → Discreet (pollByte outLen c ch).1 := fun c ch hc => hc.byte outLen ch
      exact call_invariant hstep data.1 h

end Keeps

lemma clientAfter_discreet (outLen : ℕ) (rawEnabled : Bool) (outcomes : List Bool) (reads : List ReadResult) :
    Discreet (clientAfter outLen rawEnabled outcomes reads) := by
  have hpos : 0 < lineSize := by decide
  refine Discreet.polls ⟨⟨List.length_replicate, hpos, le_refl 0⟩, ?_, noSecrets_empty⟩ outLen reads
  exact List.mem_replicate.mpr ⟨hpos.ne', rfl⟩

lemma echoed_line (c : ClientEditor) : (echoed c).2.line = c.line := by
  rw [echoed]
  split_ifs
  · rw [writeAll]
    split <;> rfl
  · rfl

lemma client_secret_iff {c : ClientEditor} (h : Discreet c) (outLen : ℕ) (hne : cstr c.line ≠ []) :
    (∀ later, ¬InHistory (editorPolls outLen (submitted c) later).1.history (cstr c.line)) ↔
      SecretSpelling (cstr c.line) := by
  have hecho := h.echo
  rw [← echoed_line] at hne ⊢
  constructor
  · intro hnever
    by_contra hplain
    have hstore : ¬historyShouldStore (cstr (echoed c).2.line) = false := by
      rw [historyShouldStore, (shouldStore_iff hne).mpr hplain]
      decide
    refine hnever [] ⟨(echoed c).2.historyNext, ?_⟩
    rw [editorPolls, submitted, takeLine, historyAdd, if_neg hstore]
    dsimp only
    rw [Function.update_self]
    exact CText.copy_text (zero_notMem_cstr _) ((cstr_short hecho.ended).trans_eq hecho.sound.size)
  · rintro hsecret later ⟨i, hi⟩
    exact (hecho.take.polls outLen later).secrets i (hi ▸ hsecret)

/-- Whatever editor a password line is submitted in, it stays out of the history exactly if it has one of the spellings left
out: not in other letters, behind a blank or an alias, nor under the second name of `userchange`. -/
theorem password_history_iff (line : Bytes) (hline : PasswordLine line) :
    (∀ commands effect events, submittedLine (editorRun commands (openedSession effect) events).rest = line →
      ((∀ later, ¬InHistory (editorRun commands (submitLine commands (editorRun commands (openedSession effect) events)) later).rest.history
        line) ↔ SecretSpelling line)) ∧
    ∀ outLen rawEnabled outcomes reads, cstr (clientAfter outLen rawEnabled outcomes reads).line = line →
      ((∀ later, ¬InHistory (editorPolls outLen (submitted (clientAfter outLen rawEnabled outcomes reads)) later).1.history line) ↔
        SecretSpelling line) := by
  have hne := passwordLine_ne_nil hline
  constructor
  · rintro commands effect events rfl
    exact session_secret_iff effect events hne
  · rintro outLen rawEnabled outcomes reads rfl
    exact client_secret_iff (clientAfter_discreet outLen rawEnabled outcomes reads) outLen hne

section Example

def shoutedLogin : Bytes := ofString "/LOGIN bob x"

def loginLine : Bytes := ofString "/login bob x"

lemma loginLine_password : PasswordLine loginLine :=
  ⟨.scopeHybbx, ⟨ofString "login", [ofString "bob", ofString "x"]⟩, .login, by decide +kernel, by decide +kernel, rfl⟩

theorem password_history_iff_login :
    ¬InHistory (editorRun (fun _ _ => quietCommand) (submitLine (fun _ _ => quietCommand)
      (editorRun (fun _ _ => quietCommand) (openedSession quietCommand) [.input 0 loginLine])) []).rest.history loginLine :=
  ((password_history_iff loginLine loginLine_password).1 (fun _ _ => quietCommand) quietCommand [.input 0 loginLine]
    (by decide +kernel)).mpr ⟨"/login ", by decide, by decide⟩ []

/-- In capitals, both editors keep it. -/
theorem shouted_login_kept :
    PasswordLine shoutedLogin ∧
      let s := editorRun (fun _ _ => quietCommand) (openedSession quietCommand) [.input 0 shoutedLogin]
      let c := clientAfter 80 true [] (shoutedLogin.map fun b => .bytes (oneByte b))
      submittedLine s.rest = shoutedLogin ∧
        InHistory (submitLine (fun _ _ => quietCommand) s).rest.history shoutedLogin ∧
        cstr c.line = shoutedLogin ∧ InHistory (submitted c).history shoutedLogin := by
  refine ⟨⟨.scopeHybbx, ⟨ofString "LOGIN", [ofString "bob", ofString "x"]⟩, .login, by decide +kernel, by decide +kernel, rfl⟩, ?_⟩
  refine ⟨by decide +kernel, ⟨0, by decide +kernel⟩, by decide +kernel, ⟨0, by decide +kernel⟩⟩

end Example

end HyBBX.Client
