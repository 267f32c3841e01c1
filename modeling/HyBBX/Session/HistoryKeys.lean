import HyBBX.Session.LineEditor

/-! Walking up the history of submitted lines and down again. -/

namespace HyBBX.Session

open HyBBX.Core Lib Lib.Bytes Lib.Text LineEditor

def historyUps (n : ℕ) (ed : LineEditor) : LineEditor := (fun ed => (historyUp ed).2)^[n] ed

def historyDowns (n : ℕ) (ed : LineEditor) : LineEditor := (fun ed => (historyDown ed).2)^[n] ed

/-- How many entries are browsed: none while the line itself is shown. -/
def position (ed : LineEditor) : ℕ :=
  match ed.historyView with
  | none => 0
  | some view => view + 1

/-- How many of the keys up show a further entry. -/
def entriesBrowsed (ed : LineEditor) (k : ℕ) : ℕ := position (historyUps k ed) - position ed

/-- The keys up, and as many down as entries were browsed. -/
def browse (ed : LineEditor) (k : ℕ) : LineEditor := historyDowns (entriesBrowsed ed k) (historyUps k ed)

/-- What is shown at a position, from the state in which the browsing starts. -/
def lineAt (ed : LineEditor) : ℕ → CText lineSize
  | 0 => match ed.historyView with
    | none => .copy ed.buf
    | some _ => ed.historySaved
  | n + 1 => ed.entry n

/-- The redraws of a browsing over `b` entries. -/
def redraws (ed : LineEditor) (b : ℕ) : List (CText lineSize) :=
  ((List.range b).map fun i => lineAt ed (position ed + 1 + i)) ++
    (List.range b).map fun i => lineAt ed (position ed + b - 1 - i)

/-- Whether the transport takes the redraw after `n` others. -/
def redrawTaken (ed : LineEditor) (n : ℕ) : Bool := !ed.around.inputEcho || ed.around.answers.getD n .ok = .ok

/-- The last line of these redraws that the transport takes. -/
def lastShown (ed : LineEditor) (lines : List (CText lineSize)) : Option Bytes :=
  ((lines.zipIdx.filter fun t => redrawTaken ed t.2).getLast?).map fun t => t.1.text

/-- The line is what the history or the buffer holds for it: an entry that is viewed is not edited, and no submitted line
is left over in the buffer of an empty one. -/
def KeptLine (ed : LineEditor) : Prop :=
  match ed.historyView with
  | none => ed.lineLen ≠ 0 ∨ ed.buf.head? = some 0
  | some view => lineText ed = (ed.entry view).text

/-- An editor some redraws later. -/
structure Redrawn (ed ed' : LineEditor) (lines : List (CText lineSize)) : Prop where
  history : ed'.history = ed.history
  next : ed'.historyNext = ed.historyNext
  count : ed'.historyCount = ed.historyCount
  echo : ed'.around.inputEcho = ed.around.inputEcho
  answers : ed.around.inputEcho = true → ed'.around.answers = ed.around.answers.drop lines.length
  text : lineText ed' = (lastShown ed lines).getD (lineText ed)

section Redraw

variable {ed ed' : LineEditor} {lines : List (CText lineSize)}

lemma Redrawn.refl (ed : LineEditor) : Redrawn ed ed [] := ⟨rfl, rfl, rfl, rfl, fun _ => rfl, rfl⟩

lemma lastShown_concat (ed : LineEditor) (lines : List (CText lineSize)) (line : CText lineSize) :
    lastShown ed (lines ++ [line]) = if redrawTaken ed lines.length then some line.text else lastShown ed lines := by
  rw [lastShown, List.zipIdx_append, List.filter_append]
  by_cases ht : redrawTaken ed lines.length = true
  · rw [if_pos ht]
    simp [List.zipIdx_cons, ht]
  · rw [if_neg ht]
    simp [List.zipIdx_cons, ht, lastShown]

lemma Redrawn.taken (h : Redrawn ed ed' lines) : redrawTaken ed' 0 = redrawTaken ed lines.length := by
  rw [redrawTaken, redrawTaken, h.echo]
  cases hecho : ed.around.inputEcho with
  | false => rfl
  | true => rw [h.answers hecho, List.getD_eq_getElem?_getD, List.getD_eq_getElem?_getD, List.getElem?_drop, Nat.add_zero]

lemma lastShown_single (ed : LineEditor) (line : CText lineSize) :
    lastShown ed [line] = if redrawTaken ed 0 then some line.text else none :=
  lastShown_concat ed [] line

lemma Redrawn.concat {ed'' : LineEditor} {line : CText lineSize} (h : Redrawn ed ed' lines)
    (h' : Redrawn ed' ed'' [line]) :
    Redrawn ed ed'' (lines ++ [line]) where
  history := h'.history.trans h.history
  next := h'.next.trans h.next
  count := h'.count.trans h.count
  echo := h'.echo.trans h.echo
  answers hecho := by
    rw [h'.answers (h.echo.trans hecho), h.answers hecho, List.drop_drop, List.length_append]
  text := by
    rw [h'.text, h.text, lastShown_single, h.taken, lastShown_concat]
    split_ifs <;> rfl

lemma Redrawn.seen (h : Redrawn ed ed' lines) (view : Option ℕ) (saved : CText lineSize) :
    Redrawn ed { ed' with historyView := view, historySaved := saved } lines :=
  ⟨h.history, h.next, h.count, h.echo, h.answers, h.text⟩

/-- The buffer holds the line behind a redraw that is taken. -/
lemma replaced_text (line : CText lineSize) (buf : Bytes) :
    ((line.text.take (min line.text.length (lineSize - 1)) ++ buf.drop (min line.text.length (lineSize - 1))).set
      (min line.text.length (lineSize - 1)) 0).take (min line.text.length (lineSize - 1)) = line.text := by
  have hfits := line.fits
  have hlen : min line.text.length (lineSize - 1) = line.text.length := min_eq_left (by omega)
  rw [hlen, List.take_set_of_le (le_refl _), List.take_length, List.take_left]

lemma lineReplace_redrawn (ed : LineEditor) (line : CText lineSize) :
    Redrawn ed (lineReplace ed line.text).2 [line] := by
  rw [lineReplace]
  cases hecho : ed.around.inputEcho with
  | false =>
    refine ⟨rfl, rfl, rfl, rfl, fun h => absurd (hecho.symm.trans h) Bool.false_ne_true, ?_⟩
    rw [lastShown_single, redrawTaken, hecho]
    exact replaced_text line ed.buf
  | true =>
    rw [writeTransport]
    cases hanswers : ed.around.answers with
    | nil =>
      refine ⟨rfl, rfl, rfl, rfl, fun _ => ?_, ?_⟩
      · rw [hanswers]
        exact hanswers
      · rw [lastShown_single, redrawTaken, hanswers]
        simp only [List.getD_nil, decide_true, Bool.or_true, if_true]
        exact replaced_text line ed.buf
    | cons answer answers =>
      have htail : ed.around.answers.drop [line].length = answers := by rw [hanswers]; rfl
      cases answer with
      | ok =>
        refine ⟨rfl, rfl, rfl, rfl, fun _ => htail.symm, ?_⟩
        rw [lastShown_single, redrawTaken, hanswers]
        simp only [List.getD_cons_zero, decide_true, Bool.or_true, if_true]
        exact replaced_text line ed.buf
      | errInvalid =>
        refine ⟨rfl, rfl, rfl, rfl, fun _ => htail.symm, ?_⟩
        rw [lastShown_single, redrawTaken, hanswers, hecho]
        rfl
      | errIo =>
        refine ⟨rfl, rfl, rfl, rfl, fun _ => htail.symm, ?_⟩
        rw [lastShown_single, redrawTaken, hanswers, hecho]
        rfl

lemma lineReplace_view (ed : LineEditor) (line : Bytes) :
    (lineReplace ed line).2.historyView = ed.historyView ∧ (lineReplace ed line).2.historySaved = ed.historySaved := by
  rw [lineReplace, writeTransport]
  dsimp only
  cases ed.around.inputEcho with
  | false => exact ⟨rfl, rfl⟩
  | true => cases ed.around.answers with
    | nil => exact ⟨rfl, rfl⟩
    | cons answer answers => cases answer <;> exact ⟨rfl, rfl⟩

end Redraw

section Keys

variable {ed ed' : LineEditor} {lines : List (CText lineSize)}

/-- A key up shows the next entry, if there is one. -/
lemma historyUp_eq (h : position ed < ed.historyCount) : (historyUp ed).2 =
    (lineReplace { ed with historyView := some (position ed), historySaved := lineAt ed 0 } (ed.entry (position ed)).text).2 := by
  have hcount : ed.historyCount ≠ 0 := by omega
  rw [historyUp, if_neg hcount]
  cases hv : ed.historyView with
  | none => simp only [position, lineAt, hv]; rfl
  | some view =>
    have hmore : view + 1 < ed.historyCount := by simpa [position, hv] using h
    simp only [position, lineAt, hv, if_pos hmore]
    rfl

lemma historyUp_stays (h : ed.historyCount ≤ position ed) : (historyUp ed).2 = ed := by
  rw [historyUp]
  by_cases hcount : ed.historyCount = 0
  · rw [if_pos hcount]
  · rw [if_neg hcount]
    cases hv : ed.historyView with
    | none =>
      rw [position, hv] at h
      exact absurd (Nat.le_zero.mp h) hcount
    | some view =>
      rw [position, hv] at h
      dsimp only at h ⊢
      rw [if_neg (by omega)]

/-- A key down shows what is one position nearer to the line. -/
lemma historyDown_eq {n : ℕ} (h : position ed = n + 1) : (historyDown ed).2 =
    (lineReplace { ed with historyView := if n = 0 then none else some (n - 1) } (lineAt ed n).text).2 := by
  rw [historyDown]
  cases hv : ed.historyView with
  | none => simp [position, hv] at h
  | some view =>
    obtain rfl : view = n := by simpa [position, hv] using h
    cases view with
    | zero => simp only [lineAt, hv, if_true]
    | succ view => simp [lineAt]; rfl

/-- The editor behind a key that shows a line at a position. -/
lemma shown_position (view : Option ℕ) (saved line : CText lineSize) :
    position (lineReplace { ed with historyView := view, historySaved := saved } line.text).2 =
        (match view with | none => 0 | some v => v + 1) ∧
      (view ≠ none → lineAt (lineReplace { ed with historyView := view, historySaved := saved } line.text).2 0 = saved) := by
  obtain ⟨hview, hsaved⟩ := lineReplace_view { ed with historyView := view, historySaved := saved } line.text
  refine ⟨by rw [position, hview], fun hne => ?_⟩
  rw [lineAt, hview, hsaved]
  cases view with
  | none => exact absurd rfl hne
  | some v => rfl

lemma saved_of_position (h : position ed ≠ 0) : lineAt ed 0 = ed.historySaved := by
  cases hv : ed.historyView with
  | none =>
    rw [position, hv] at h
    exact absurd rfl h
  | some view => rw [lineAt, hv]

/-- The entries are those of the start while nothing is submitted. -/
lemma Redrawn.entry (h : Redrawn ed ed' lines) (n : ℕ) : ed'.entry n = ed.entry n := by
  rw [LineEditor.entry, LineEditor.entry, h.history, h.next]

lemma Redrawn.lineAt (h : Redrawn ed ed' lines) (hzero : lineAt ed' 0 = lineAt ed 0) (n : ℕ) :
    Session.lineAt ed' n = Session.lineAt ed n := by
  cases n with
  | zero => exact hzero
  | succ n => exact h.entry n

lemma historyUps_redrawn (ed : LineEditor) {n : ℕ} (hn : position ed + n ≤ ed.historyCount ∨ n = 0) :
    Redrawn ed (historyUps n ed) ((List.range n).map fun i => lineAt ed (position ed + 1 + i)) ∧
      position (historyUps n ed) = position ed + n ∧ lineAt (historyUps n ed) 0 = lineAt ed 0 := by
  induction n with
  | zero => exact ⟨.refl ed, rfl, rfl⟩
  | succ n ih =>
    obtain ⟨hred, hpos, hzero⟩ := ih (.inl (by omega))
    have hmore : position (historyUps n ed) < (historyUps n ed).historyCount := by
      rw [hpos, hred.count]
      omega
    have hstep : historyUps (n + 1) ed = (historyUp (historyUps n ed)).2 := Function.iterate_succ_apply' _ n ed
    have hshown := @shown_position (historyUps n ed) (some (position (historyUps n ed))) (lineAt (historyUps n ed) 0)
      ((historyUps n ed).entry (position (historyUps n ed)))
    rw [hstep, historyUp_eq hmore]
    refine ⟨?_, by rw [hshown.1, hpos]; rfl, (hshown.2 (by simp)).trans hzero⟩
    rw [List.range_succ, List.map_append, List.map_singleton]
    have hline : (historyUps n ed).entry (position (historyUps n ed)) = lineAt ed (position ed + 1 + n) := by
      rw [hpos, hred.entry, show position ed + 1 + n = position ed + n + 1 by omega]
      rfl
    rw [← hline]
    exact (hred.seen _ _).concat (lineReplace_redrawn _ _)

lemma historyDowns_redrawn {m : ℕ} (h : Redrawn ed ed' lines) (hpos : position ed' = m)
    (hzero : lineAt ed' 0 = lineAt ed 0)
    {n : ℕ} (hn : n ≤ m) :
    Redrawn ed (historyDowns n ed') (lines ++ (List.range n).map fun i => lineAt ed (m - 1 - i)) ∧
      position (historyDowns n ed') = m - n ∧ (n < m → lineAt (historyDowns n ed') 0 = lineAt ed 0) := by
  induction n with
  | zero => exact ⟨by simpa [historyDowns] using h, hpos, fun _ => hzero⟩
  | succ n ih =>
    obtain ⟨hred, hpos', hzero'⟩ := ih (by omega)
    have hstep : historyDowns (n + 1) ed' = (historyDown (historyDowns n ed')).2 := Function.iterate_succ_apply' _ n ed'
    have hnext : position (historyDowns n ed') = (m - 1 - n) + 1 := by omega
    have hline : lineAt (historyDowns n ed') (m - 1 - n) = lineAt ed (m - 1 - n) := hred.lineAt (hzero' (by omega)) _
    have hshown := @shown_position (historyDowns n ed') (if m - 1 - n = 0 then none else some (m - 1 - n - 1))
      (historyDowns n ed').historySaved (lineAt ed (m - 1 - n))
    rw [hstep, historyDown_eq hnext, hline]
    refine ⟨?_, ?_, fun hlt => ?_⟩
    · rw [List.range_succ, List.map_append, List.map_singleton, ← List.append_assoc]
      exact (hred.seen _ _).concat (lineReplace_redrawn _ _)
    · rw [hshown.1]
      split_ifs with h0
      · dsimp only
        omega
      · dsimp only
        omega
    · have hview : (if m - 1 - n = 0 then none else some (m - 1 - n - 1)) ≠ none := by
        rw [if_neg (by omega)]
        exact Option.some_ne_none _
      rw [hshown.2 hview, ← hzero' (by omega)]
      exact (saved_of_position (by omega)).symm

/-- Keys up beyond the oldest entry change nothing. -/
lemma historyUps_eq (ed : LineEditor) (k : ℕ) :
    historyUps k ed = historyUps (min k (ed.historyCount - position ed)) ed := by
  rcases Nat.le_total k (ed.historyCount - position ed) with hk | hk
  · rw [min_eq_left hk]
  · rw [min_eq_right hk]
    obtain ⟨m, rfl⟩ := Nat.exists_eq_add_of_le hk
    obtain ⟨hred, hpos, -⟩ := @historyUps_redrawn ed (ed.historyCount - position ed) (by omega)
    have hfixed : (historyUp (historyUps (ed.historyCount - position ed) ed)).2 =
        historyUps (ed.historyCount - position ed) ed := by
      apply historyUp_stays
      rw [hred.count, hpos]
      omega
    rw [historyUps, Nat.add_comm, Function.iterate_add_apply]
    exact Function.iterate_fixed hfixed m

lemma entriesBrowsed_eq (ed : LineEditor) (k : ℕ) : entriesBrowsed ed k = min k (ed.historyCount - position ed) := by
  obtain ⟨-, hpos, -⟩ := @historyUps_redrawn ed (min k (ed.historyCount - position ed)) (by omega)
  rw [entriesBrowsed, historyUps_eq, hpos, Nat.add_sub_cancel_left]

/-- A browsing leaves the line that the last redraw taken has shown. -/
lemma browse_text (ed : LineEditor) (k : ℕ) :
    lineText (browse ed k) = (lastShown ed (redraws ed (entriesBrowsed ed k))).getD (lineText ed) := by
  obtain ⟨hred, hpos, hzero⟩ := @historyUps_redrawn ed (entriesBrowsed ed k) (by rw [entriesBrowsed_eq]; omega)
  have hups : historyUps k ed = historyUps (entriesBrowsed ed k) ed := by rw [entriesBrowsed_eq, ← historyUps_eq]
  obtain ⟨hback, -, -⟩ := historyDowns_redrawn hred hpos hzero (Nat.le_add_left (entriesBrowsed ed k) (position ed))
  rw [browse, hups, hback.text, redraws]

/-- With a transport that takes all redraws the last one counts: that of the position the browsing started at. -/
lemma lastShown_redraws (htaken : ∀ n, redrawTaken ed n = true) (b : ℕ) :
    lastShown ed (redraws ed b) = if b = 0 then none else some (lineAt ed (position ed)).text := by
  cases b with
  | zero => rfl
  | succ b =>
    rw [redraws, List.range_succ, List.map_append, List.map_append, List.map_singleton, List.map_singleton,
      ← List.append_assoc,
      lastShown_concat, if_pos (htaken _), if_neg (Nat.succ_ne_zero b)]
    rw [show position ed + (b + 1) - 1 - b = position ed by omega]

lemma lineAt_position_iff (h : EditorSound ed) : (lineAt ed (position ed)).text = lineText ed ↔ KeptLine ed := by
  rw [KeptLine, position]
  cases hv : ed.historyView with
  | some view => exact eq_comm
  | none =>
    have hcopy : (lineAt ed 0).text = strlcpy lineSize (cstr ed.buf) := by rw [lineAt, hv]; rfl
    have hlen := h.length
    have hfits := h.fits
    dsimp only
    rw [hcopy, ← h.string_iff]
    constructor
    · intro hsame
      by_cases hne : ed.lineLen = 0
      · have hempty : ed.lineText = [] := List.eq_nil_of_length_eq_zero (hlen.trans hne)
        rw [hempty, strlcpy, List.take_eq_nil_iff] at hsame
        rw [hempty]
        exact hsame.resolve_left (by decide)
      · exact h.string_iff.mpr (.inl hne)
    · intro hsame
      rw [hsame]
      exact strlcpy_of_fits (by omega)

end Keys

/-- The editor of a session after any input and other events. -/
def editorAfter (commands : EditorSession → Bytes → CommandEffect) (effect : CommandEffect)
    (events : List SessionEvent) :
    LineEditor := (editorRun commands (openedSession effect) events).rest

/-- In every state that a session can reach, browsing gives back the line exactly if the last redraw that is taken shows
it; if all are taken, exactly if no entry is browsed or the line is what the history or the buffer holds for it. -/
theorem browse_restores_iff (commands : EditorSession → Bytes → CommandEffect) (effect : CommandEffect)
    (events : List SessionEvent) (k : ℕ) :
    (lineText (browse (editorAfter commands effect events) k) = lineText (editorAfter commands effect events) ↔
      ∀ shown ∈ lastShown (editorAfter commands effect events)
          (redraws (editorAfter commands effect events) (entriesBrowsed (editorAfter commands effect events) k)),
        shown = lineText (editorAfter commands effect events)) ∧
      ((∀ n, redrawTaken (editorAfter commands effect events) n = true) →
        (lineText (browse (editorAfter commands effect events) k) = lineText (editorAfter commands effect events) ↔
          entriesBrowsed (editorAfter commands effect events) k = 0 ∨
              KeptLine (editorAfter commands effect events))) := by
  have hsound : EditorSound (editorAfter commands effect events) := editorRun_sound events (opened_sound effect)
  generalize editorAfter commands effect events = ed at hsound ⊢
  have hiff : lineText (browse ed k) = lineText ed ↔
      ∀ shown ∈ lastShown ed (redraws ed (entriesBrowsed ed k)), shown = lineText ed := by
    rw [browse_text]
    cases lastShown ed (redraws ed (entriesBrowsed ed k)) with
    | none => exact iff_of_true rfl (fun _ h => nomatch h)
    | some shown => simp
  refine ⟨hiff, fun htaken => ?_⟩
  rw [hiff, lastShown_redraws htaken, ← lineAt_position_iff hsound]
  split_ifs with hb
  · exact iff_of_true (fun _ h => nomatch h) (.inl hb)
  · rw [or_iff_right hb]
    simp

/-- A history key is an escape sequence of three bytes. -/
lemma filter_historyKey {ed : LineEditor} (h : ed.escState = .plain) :
    (filterEscapeByte (filterEscapeByte (filterEscapeByte ed 0x1B).2 0x5B).2 0x41).2 =
      (historyUp { ed with csi := [] }).2 ∧
      (filterEscapeByte (filterEscapeByte (filterEscapeByte ed 0x1B).2 0x5B).2 0x42).2 =
        (historyDown { ed with csi := [] }).2 := by
  have hesc : (filterEscapeByte ed 0x1B).2 = { ed with escState := .esc } := by rw [filterEscapeByte, h]; rfl
  have hcsi : (filterEscapeByte { ed with escState := .esc } 0x5B).2 = { ed with escState := .csi, csi := [] } := rfl
  have hplain : escapeReset { ed with escState := .csi, csi := [] } = { ed with csi := [] } := by rw [escapeReset, ← h]
  rw [hesc, hcsi]
  constructor
  · rw [← hplain]
    rfl
  · rw [← hplain]
    rfl

section Example

def echoing : Surroundings := ⟨true, .main, ⟨72, by decide⟩, [], .ok⟩

def quietCommand : CommandEffect := ⟨true, false, false, false, 0, echoing, false⟩

/-- After `abc` is submitted the line is empty; one key up and one down put `abc` into it. -/
theorem browse_restores_submitted :
    lineText (editorAfter (fun _ _ => quietCommand) quietCommand [.input 0 (ofString "abc\r")]) = [] ∧
      entriesBrowsed (editorAfter (fun _ _ => quietCommand) quietCommand [.input 0 (ofString "abc\r")]) 1 = 1 ∧
      lineText (browse (editorAfter (fun _ _ => quietCommand) quietCommand [.input 0 (ofString "abc\r")]) 1) =
        ofString "abc" := by
  refine ⟨by decide +kernel, by decide +kernel, by decide +kernel⟩

end Example

end HyBBX.Session
