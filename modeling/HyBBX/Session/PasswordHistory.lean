import HyBBX.Session.LineEditor

/-! Which lines the editor of a session keeps in its history. -/

namespace HyBBX.Session

open HyBBX.Core Lib Lib.Bytes Lib.Text LineEditor

/-- The spellings that the editors leave out. -/
def SecretSpelling (line : Bytes) : Prop := ∃ c ∈ secretCommands, ofString c <+: line

def InHistory (history : ℕ → CText lineSize) (line : Bytes) : Prop := ∃ i, (history i).text = line

def NoSecrets (history : ℕ → CText lineSize) : Prop := ∀ i, ¬SecretSpelling (history i).text

lemma shouldStore_iff {line : Bytes} (hne : line ≠ []) : historyShouldStore line = true ↔ ¬SecretSpelling line := by
  simp [historyShouldStore, SecretSpelling, hne, ← Bool.not_eq_true, List.isPrefixOf_iff_prefix]

lemma noSecrets_empty : NoSecrets fun _ => .empty := by
  rintro i ⟨c, hc, hprefix⟩
  have hall : ∀ c ∈ secretCommands, ofString c ≠ [] := by decide
  exact hall c hc (List.prefix_nil.mp hprefix)

lemma noSecrets_stored {history : ℕ → CText lineSize} (h : NoSecrets history) {line : Bytes}
    (hstore : historyShouldStore line = true)
    (i : ℕ) : NoSecrets (Function.update history i (.copy line)) := by
  intro j
  by_cases hj : j = i
  · subst hj
    rw [Function.update_self]
    rintro ⟨c, hc, hprefix⟩
    have hcopy : (CText.copy line : CText lineSize).text <+: line :=
      (List.take_prefix _ _).trans (List.takeWhile_prefix _)
    have hne : line ≠ [] := by
      rintro rfl
      cases hstore
    exact (shouldStore_iff hne).mp hstore ⟨c, hc, hprefix.trans hcopy⟩
  · rw [Function.update_of_ne hj]
    exact h j

/-- The history is as it was, and so is the saved line unless there is something to go up to. -/
def HistoryKept (kept ed : LineEditor) : Prop :=
  ed.history = kept.history ∧ ed.historyCount = kept.historyCount ∧ ed.historyNext = kept.historyNext ∧
    (kept.historyCount = 0 → ed.historySaved = kept.historySaved)

lemma HistoryKept.refl (ed : LineEditor) : HistoryKept ed ed := ⟨rfl, rfl, rfl, fun _ => rfl⟩

section Kept

variable {kept ed : LineEditor} (h : HistoryKept kept ed)

include h

lemma write_keeps (data : Bytes) : HistoryKept kept (writeTransport ed data).2 := by
  rw [writeTransport]
  split <;> exact h

lemma refresh_keeps : HistoryKept kept (refreshSuffix ed).2 := by
  rw [refreshSuffix]
  split_ifs
  · exact h
  · exact write_keeps h _

lemma left_keeps : HistoryKept kept (cursorLeft ed).2 := by
  rw [cursorLeft]
  dsimp only
  split_ifs
  · exact h
  · exact h
  · exact @write_keeps kept { ed with lineCursor := ed.lineCursor - 1 } h _

lemma right_keeps : HistoryKept kept (cursorRight ed).2 := by
  rw [cursorRight]
  split_ifs
  · exact h
  · exact h
  · exact @keepsThen (HistoryKept kept) _ _ (write_keeps h _) fun _ h => h

lemma backspace_keeps : HistoryKept kept (backspace ed).2 := by
  have hcut : HistoryKept kept (cutAtCursor { ed with lineCursor := ed.lineCursor - 1 }) := h
  rw [backspace]
  dsimp only
  split_ifs
  · exact h
  · exact hcut
  · exact @keepsThen (HistoryKept kept) _ _ (write_keeps hcut _) fun _ h => refresh_keeps h

lemma delete_keeps : HistoryKept kept (deleteForward ed).2 := by
  have hcut : HistoryKept kept (cutAtCursor ed) := h
  rw [deleteForward]
  split_ifs
  · exact h
  · exact refresh_keeps hcut

lemma insert_keeps (byte : UInt8) : HistoryKept kept (insertChar ed byte).2 := by
  have hput : HistoryKept kept (putAtCursor ed byte) := h
  have hwrite := write_keeps hput [byte]
  rw [insertChar]
  dsimp only
  split_ifs
  · exact h
  · exact h
  · exact hput
  · generalize writeTransport (putAtCursor ed byte) [byte] = r at hwrite ⊢
    obtain ⟨rc, ed'⟩ := r
    cases rc with
    | ok => exact refresh_keeps hwrite
    | errInvalid => exact hwrite
    | errIo => exact hwrite

lemma replace_keeps (line : Bytes) : HistoryKept kept (lineReplace ed line).2 := by
  have hwritten : ∀ data, HistoryKept kept (if ed.around.inputEcho then writeTransport ed data else (.ok, ed)).2 := by
    intro data
    split_ifs
    · exact write_keeps h data
    · exact h
  rw [lineReplace]
  have hwritten := hwritten (moveBack ed.lineCursor ++ line.take (min line.length (lineSize - 1)) ++ eraseToEnd)
  generalize (if ed.around.inputEcho then writeTransport ed
    (moveBack ed.lineCursor ++ line.take (min line.length (lineSize - 1)) ++ eraseToEnd) else (.ok, ed)) = r at hwritten ⊢
  obtain ⟨rc, ed'⟩ := r
  dsimp only at hwritten ⊢
  split_ifs <;> exact hwritten

lemma up_keeps : HistoryKept kept (historyUp ed).2 := by
  rw [historyUp]
  split_ifs with hnone
  · exact h
  · have hsome : kept.historyCount ≠ 0 := fun h0 => hnone (h.2.1.trans h0)
    split
    · exact @replace_keeps kept { ed with historySaved := .copy ed.buf, historyView := some 0 }
        ⟨h.1, h.2.1, h.2.2.1, fun h0 => absurd h0 hsome⟩ _
    · rename_i view _
      dsimp only
      split_ifs
      · exact @replace_keeps kept { ed with historyView := some (view + 1) } h _
      · exact h

lemma down_keeps : HistoryKept kept (historyDown ed).2 := by
  rw [historyDown]
  split
  · exact h
  · exact @replace_keeps kept { ed with historyView := none } h _
  · rename_i view _
    exact @replace_keeps kept { ed with historyView := some view } h _

lemma press_keeps (key : EditKey) : HistoryKept kept (pressKey key ed).2 := by
  cases key with
  | up => exact up_keeps h
  | down => exact down_keeps h
  | right => exact right_keeps h
  | left => exact left_keeps h
  | home => exact @movesKeep (HistoryKept kept) _ (fun _ h => left_keeps h) _ _ h
  | toEnd => exact @movesKeep (HistoryKept kept) _ (fun _ h => right_keeps h) _ _ h
  | delete => exact delete_keeps h
  | other => exact h

lemma filter_keeps (byte : UInt8) : HistoryKept kept (filterEscapeByte ed byte).2 := by
  have hreset : HistoryKept kept (escapeReset ed) := h
  rw [filterEscapeByte]
  split
  · split_ifs <;> exact h
  · split_ifs <;> exact h
  · rw [ss3Key_eq]
    exact press_keeps h _
  · split_ifs
    · exact h
    · rw [csiKey_eq]
      exact press_keeps hreset _
    · exact h

end Kept

section Session

variable {commands : EditorSession → Bytes → CommandEffect}

lemma historyAdd_noSecrets {ed : LineEditor} (h : NoSecrets ed.history) (line : Bytes) :
    NoSecrets (historyAdd ed line).history := by
  rw [historyAdd]
  by_cases hstore : historyShouldStore line = false
  · rw [if_pos hstore]
    exact h
  · rw [if_neg hstore]
    exact noSecrets_stored h (Bool.eq_true_of_not_eq_false hstore) _

lemma effect_history (e : CommandEffect) (s : EditorSession) : (e.apply s).rest.history = s.rest.history := by
  rw [CommandEffect.apply]
  dsimp only
  split_ifs <;> rfl

lemma processLine_history (s : EditorSession) (line : Bytes) :
    (processLine commands s line).rest.history = s.rest.history := by
  rw [processLine]
  split_ifs
  · rfl
  · exact effect_history _ s

def submittedLine (ed : LineEditor) : Bytes := cstr (ed.buf.set ed.lineLen 0)

lemma submitLine_history (s : EditorSession) :
    (submitLine commands s).rest.history =
      (historyAdd { s.rest with buf := s.rest.buf.set s.rest.lineLen 0 } (submittedLine s.rest)).history :=
  processLine_history _ _

lemma editorWork_noSecrets : WorkKeeps (editorWork commands) fun ed => NoSecrets ed.history where
  filterEscape _ byte h := (filter_keeps (.refl _) byte).1.symm ▸ h
  backspace _ h := (backspace_keeps (.refl _)).1.symm ▸ h
  insertChar _ byte h := (insert_keeps (.refl _) byte).1.symm ▸ h
  submitLine s h := by
    change NoSecrets (submitLine commands s).rest.history
    rw [submitLine_history]
    exact @historyAdd_noSecrets { s.rest with buf := s.rest.buf.set s.rest.lineLen 0 } h _

lemma editorRun_noSecrets (events : List SessionEvent) {s : EditorSession} (h : NoSecrets s.rest.history) :
    NoSecrets (editorRun commands s events).rest.history := by
  induction events generalizing s with
  | nil => exact h
  | cons event events ih =>
    apply ih
    cases event with
    | input now data => exact handleInput_keeps editorWork_noSecrets now data h
    | affected effect => exact (effect_history { effect with clears := false } s).symm ▸ h

lemma opened_noSecrets (effect : CommandEffect) : NoSecrets (openedSession effect).rest.history := by
  rw [openedSession, effect_history]
  exact noSecrets_empty

lemma historyAdd_plain {ed : LineEditor} {line : Bytes} (hne : line ≠ []) (hplain : ¬SecretSpelling line) :
    (historyAdd ed line).history ed.historyNext = .copy line := by
  have hstore : ¬historyShouldStore line = false := by
    rw [(shouldStore_iff hne).mpr hplain]
    decide
  rw [historyAdd, if_neg hstore]
  exact Function.update_self ..

lemma cstr_short {buf : Bytes} (h : 0 ∈ buf) : (cstr buf).length < buf.length := by
  refine (List.takeWhile_prefix _).length_le.lt_of_ne fun hlen => ?_
  have hall : cstr buf = buf := (List.takeWhile_prefix _).eq_of_length hlen
  have hnone := zero_notMem_cstr buf
  rw [hall] at hnone
  exact hnone h

lemma submitted_fits {ed : LineEditor} (h : EditorSound ed) : (submittedLine ed).length < lineSize := by
  have hmem : (0 : UInt8) ∈ ed.buf.set ed.lineLen 0 := List.mem_set (h.size ▸ h.fits) 0
  exact (cstr_short hmem).trans_eq ((List.length_set ..).trans h.size)

/-- However the line has come into the buffer, and whatever follows. -/
lemma session_secret_iff (effect : CommandEffect) (events : List SessionEvent)
    (hne : submittedLine (editorRun commands (openedSession effect) events).rest ≠ []) :
    (∀ later, ¬InHistory (editorRun commands (submitLine commands (editorRun commands (openedSession effect) events)) later).rest.history
        (submittedLine (editorRun commands (openedSession effect) events).rest)) ↔
      SecretSpelling (submittedLine (editorRun commands (openedSession effect) events).rest) := by
  have hsound : EditorSound (editorRun commands (openedSession effect) events).rest :=
    editorRun_sound events (opened_sound effect)
  have hold := @editorRun_noSecrets commands events _ (opened_noSecrets effect)
  generalize editorRun commands (openedSession effect) events = s at hne hsound hold ⊢
  constructor
  · intro hnever
    by_contra hplain
    refine hnever [] ⟨s.rest.historyNext, ?_⟩
    rw [editorRun, List.foldl_nil, submitLine_history,
      @historyAdd_plain { s.rest with buf := s.rest.buf.set s.rest.lineLen 0 } _ hne hplain]
    exact CText.copy_text (zero_notMem_cstr _) (submitted_fits hsound)
  · rintro hsecret later ⟨i, hi⟩
    refine editorRun_noSecrets later ?_ i (hi ▸ hsecret)
    exact editorWork_noSecrets.submitLine s hold

end Session

end HyBBX.Session
