import HyBBX.Client.ClientLine

/-! What the reads do to the lines of a client: a poll returns at a line end, and drops what it has read behind it. -/

namespace HyBBX.Client

open HyBBX.Core Lib Lib.Bytes Lib.Text Lib.Transducer Lib.EarlyReturn ClientEditor
open Session (EscState csiBufMax)
open Session.LineEditor (csiIsFinal)

abbrev ClientRead := { data : Bytes // data ≠ [] ∧ data.length ≤ readMax }

def oneByte (b : UInt8) : ClientRead := ⟨[b], List.cons_ne_nil b [], by simp [readMax]⟩

def oneByteReads (reads : List ClientRead) : List ClientRead := (reads.map Subtype.val).flatten.map oneByte

section Reads

variable (outLen : ℕ)

def linesRead (ed : ClientEditor) (reads : List ClientRead) : List Bytes :=
  (editorPolls outLen ed (reads.map .bytes)).2.1

def bytesDropped (ed : ClientEditor) (reads : List ClientRead) : Bytes := (editorPolls outLen ed (reads.map .bytes)).2.2

end Reads

/-- What an escape sequence makes of a byte: whether it is part of one, and the state and length behind it. -/
def escapeNext (state : EscState) (len : ℕ) (byte : UInt8) : Bool × EscState × ℕ :=
  match state with
  | .plain => if byte = 0x9B then (true, .csi, 0) else if byte = 0x1B then (true, .esc, len) else (false, .plain, len)
  | .esc => if byte = 0x5B then (true, .csi, 0) else if byte = 0x4F then (true, .ss3, len) else (false, .plain, 0)
  | .ss3 => (true, .plain, 0)
  | .csi =>
    if csiBufMax ≤ len + 1 then (true, .plain, 0) else if csiIsFinal byte then (true, .plain, 0) else (true, .csi, len + 1)

/-- Input as far as line ends go: a return or newline outside of an escape sequence ends a line. -/
def lineEnds (state : EscState × ℕ) (byte : UInt8) : (EscState × ℕ) × Option Unit :=
  let r := escapeNext state.1 state.2 byte
  (r.2, if r.1 = false ∧ (byte = cr ∨ byte = nl) then some () else none)

/-- In every read, only the last byte ends a line. -/
def LineEndsLast (state : EscState × ℕ) (reads : List ClientRead) : Prop :=
  EndsLast lineEnds state (reads.map Subtype.val)

def PollEnd.text : PollEnd → Option Bytes
  | .line text => some text
  | .failed => none

section Calls

variable {outLen : ℕ}

lemma editorPoll_bytes (ed : ClientEditor) (read : ClientRead) :
    (editorPoll outLen ed (.bytes read)).1 = (call (pollByte outLen) ed read.1).1 ∧
      (editorPoll outLen ed (.bytes read)).2.line = (call (pollByte outLen) ed read.1).2.1.bind PollEnd.text ∧
      (editorPoll outLen ed (.bytes read)).2.dropped = (call (pollByte outLen) ed read.1).2.2 := by
  rw [editorPoll]
  generalize call (pollByte outLen) ed read.1 = r
  obtain ⟨ed', answer, dropped⟩ := r
  cases answer with
  | none => exact ⟨rfl, rfl, rfl⟩
  | some answer => cases answer <;> exact ⟨rfl, rfl, rfl⟩

lemma editorPolls_bytes (reads : List ClientRead) (ed : ClientEditor) :
    linesRead outLen ed reads = (calls (pollByte outLen) ed (reads.map Subtype.val)).2.1.filterMap PollEnd.text ∧
      bytesDropped outLen ed reads = (calls (pollByte outLen) ed (reads.map Subtype.val)).2.2 := by
  induction reads generalizing ed with
  | nil => exact ⟨rfl, rfl⟩
  | cons read reads ih =>
    obtain ⟨hed, hline, hdropped⟩ := @editorPoll_bytes outLen ed read
    obtain ⟨hlines, hrest⟩ := ih (editorPoll outLen ed (.bytes read)).1
    rw [linesRead] at hlines ⊢
    rw [bytesDropped] at hrest ⊢
    rw [List.map_cons, List.map_cons, editorPolls, calls]
    dsimp only
    rw [hlines, hrest, hed, hline, hdropped, List.filterMap_append]
    refine ⟨?_, rfl⟩
    congr 1
    cases (call (pollByte outLen) ed read.1).2.1 with
    | none => rfl
    | some answer => cases answer <;> rfl

lemma oneByteReads_val (reads : List ClientRead) :
    (oneByteReads reads).map Subtype.val = (reads.map Subtype.val).flatten.map fun b => [b] := by
  rw [oneByteReads, List.map_map]
  rfl

end Calls

/-- What a key leaves alone: the escape filter, the output and the history. -/
structure Steady (ed ed' : ClientEditor) : Prop where
  escState : ed'.escState = ed.escState
  csi : ed'.csi = ed.csi
  rawEnabled : ed'.rawEnabled = ed.rawEnabled
  outcomes : ed'.outcomes = ed.outcomes
  history : ed'.history = ed.history
  historyCount : ed'.historyCount = ed.historyCount
  historyNext : ed'.historyNext = ed.historyNext

section Keys

variable {ed ed' : ClientEditor}

lemma Steady.works (hs : Steady ed ed') (h : Works ed) : Works ed' := by
  rw [Works, hs.rawEnabled, hs.outcomes]
  exact h

variable (h : Works ed)

include h

lemma backspace_steady : (backspaceChar ed).1 = true ∧ Steady ed (backspaceChar ed).2 := by
  obtain ⟨written, he⟩ := backspace_eq h
  rw [he]
  refine ⟨rfl, ?_⟩
  split_ifs <;> exact ⟨rfl, rfl, rfl, rfl, rfl, rfl, rfl⟩

lemma insert_steady (ch : UInt8) : (insertChar ed ch).1 = true ∧ Steady ed (insertChar ed ch).2 := by
  obtain ⟨written, he⟩ := insert_eq h ch
  rw [he]
  refine ⟨rfl, ?_⟩
  split_ifs <;> exact ⟨rfl, rfl, rfl, rfl, rfl, rfl, rfl⟩

lemma right_steady : Steady ed (cursorRight ed).2 := by
  obtain ⟨written, he⟩ := right_eq h
  rw [he]
  exact ⟨rfl, rfl, rfl, rfl, rfl, rfl, rfl⟩

lemma left_steady : Steady ed (cursorLeft ed).2 := by
  obtain ⟨written, he⟩ := left_eq h
  rw [he]
  exact ⟨rfl, rfl, rfl, rfl, rfl, rfl, rfl⟩

lemma home_steady : Steady ed (cursorHome ed).2 := by
  obtain ⟨written, he⟩ := home_eq h
  rw [he]
  exact ⟨rfl, rfl, rfl, rfl, rfl, rfl, rfl⟩

lemma end_steady : Steady ed (cursorEnd ed).2 := by
  obtain ⟨written, he⟩ := end_eq h
  rw [he]
  exact ⟨rfl, rfl, rfl, rfl, rfl, rfl, rfl⟩

lemma delete_steady : Steady ed (deleteForward ed).2 := by
  obtain ⟨written, he⟩ := delete_eq h
  rw [he]
  split_ifs <;> exact ⟨rfl, rfl, rfl, rfl, rfl, rfl, rfl⟩

lemma replace_steady (view : Option ℕ) (saved : CText Session.lineSize) (line : Bytes) :
    Steady ed (lineReplace { ed with historyView := view, historySaved := saved } line).2 := by
  obtain ⟨written, he⟩ := @replace_eq { ed with historyView := view, historySaved := saved } h line
  rw [he]
  exact ⟨rfl, rfl, rfl, rfl, rfl, rfl, rfl⟩

omit h in
lemma Steady.refl (ed : ClientEditor) : Steady ed ed := ⟨rfl, rfl, rfl, rfl, rfl, rfl, rfl⟩

lemma up_steady : Steady ed (historyUp ed).2 := by
  rw [historyUp]
  split_ifs
  · exact .refl ed
  · split
    · exact replace_steady h (some 0) (.copy ed.line) _
    · rename_i view _
      dsimp only
      split_ifs
      · exact replace_steady h (some (view + 1)) ed.historySaved _
      · exact .refl ed

lemma down_steady : Steady ed (historyDown ed).2 := by
  rw [historyDown]
  split
  · exact .refl ed
  · exact replace_steady h none ed.historySaved _
  · rename_i view _
    exact replace_steady h (some view) ed.historySaved _

lemma press_steady (key : Session.EditKey) : Steady ed (pressClient key ed).2 := by
  cases key with
  | up => exact up_steady h
  | down => exact down_steady h
  | right => exact right_steady h
  | left => exact left_steady h
  | home => exact home_steady h
  | toEnd => exact end_steady h
  | delete => exact delete_steady h
  | other => exact .refl ed

end Keys

/-- The escape filter of a client whose output works, and how far it has got. -/
def Filtering (ed : ClientEditor) (state : EscState × ℕ) : Prop := Works ed ∧ state = (ed.escState, ed.csi.length)

section Scan

variable {ed : ClientEditor} {outLen : ℕ}

lemma Filtering.steady {ed' : ClientEditor} {state : EscState × ℕ} (h : Filtering ed state) (hs : Steady ed ed') :
    Filtering ed' state := by
  refine ⟨hs.works h.1, h.2.trans ?_⟩
  rw [hs.escState, hs.csi]

lemma filter_scan (h : Works ed) (byte : UInt8) :
    (filterEscapeByte ed byte).1 = (escapeNext ed.escState ed.csi.length byte).1 ∧
      Filtering (filterEscapeByte ed byte).2 (escapeNext ed.escState ed.csi.length byte).2 := by
  rw [filterEscapeByte, escapeNext.eq_def]
  cases hstate : ed.escState with
  | plain =>
    dsimp only
    split_ifs
    · exact ⟨rfl, h, rfl⟩
    · exact ⟨rfl, h, rfl⟩
    · exact ⟨rfl, h, by rw [hstate]⟩
  | esc =>
    dsimp only
    split_ifs
    · exact ⟨rfl, h, rfl⟩
    · exact ⟨rfl, h, rfl⟩
    · exact ⟨rfl, h, rfl⟩
  | ss3 =>
    have hkey := press_steady h (Session.ss3EditKey byte)
    rw [← applySs3_eq] at hkey
    exact ⟨rfl, hkey.works h, rfl⟩
  | csi =>
    have hreset : Works (escapeReset ed) := h
    have hkey := press_steady hreset (Session.csiEditKey (cstr ed.csi) byte)
    rw [← applyCsi_eq] at hkey
    dsimp only
    split_ifs
    · exact ⟨rfl, h, rfl⟩
    · refine ⟨rfl, hkey.works hreset, ?_⟩
      rw [hkey.escState, hkey.csi]
      rfl
    · refine ⟨rfl, h, ?_⟩
      exact congrArg (Prod.mk EscState.csi) (@List.length_append _ ed.csi [byte]).symm

lemma newline_eq (h : Works ed) : ∃ written, (if ed.rawEnabled then writeAll ed [cr, nl] else (true, ed)) =
    (true, { ed with written := written }) := by
  by_cases hraw : ed.rawEnabled = true
  · rw [if_pos hraw]
    exact ⟨_, write_eq h hraw _⟩
  · rw [if_neg hraw]
    exact ⟨ed.written, rfl⟩

lemma takeLine_filtering {state : EscState × ℕ} (h : Filtering ed state) (written : Bytes) :
    Filtering (takeLine { ed with written := written }) state := by
  rw [takeLine, historyAdd]
  split_ifs <;> exact h

/-- A client returns at a byte exactly if it ends a line. -/
lemma pollByte_scan {state : EscState × ℕ} (h : Filtering ed state) (ch : UInt8) :
    Filtering (pollByte outLen ed ch).1 (lineEnds state ch).1 ∧
      ((pollByte outLen ed ch).2 = none ↔ (lineEnds state ch).2 = none) := by
  obtain ⟨hworks, rfl⟩ := h
  obtain ⟨htaken, hfilter⟩ := filter_scan hworks ch
  rw [pollByte, lineEnds]
  revert htaken hfilter
  generalize filterEscapeByte ed ch = r
  generalize escapeNext ed.escState ed.csi.length ch = q
  obtain ⟨taken, ed'⟩ := r
  rintro rfl hfilter
  change Filtering ed' q.2 at hfilter
  cases hq : q.1 with
  | true =>
    rw [if_neg (by simp)]
    exact ⟨hfilter, iff_of_true rfl rfl⟩
  | false =>
    dsimp only
    by_cases hdel : ch = 0x08 ∨ ch = 0x7F
    · have hno : ¬(ch = cr ∨ ch = nl) := by
        rcases hdel with rfl | rfl
        · decide
        · decide
      have hkey := backspace_steady hfilter.1
      rw [if_pos hdel, if_neg fun hc => hno hc.2, checked, hkey.1]
      exact ⟨hfilter.steady hkey.2, iff_of_true rfl rfl⟩
    rw [if_neg hdel]
    by_cases hend : ch = cr ∨ ch = nl
    · obtain ⟨written, hnewline⟩ := newline_eq hfilter.1
      have hscan : false = false ∧ (ch = cr ∨ ch = nl) := ⟨rfl, hend⟩
      rw [if_pos hend, if_pos hscan, hnewline]
      dsimp only
      rw [if_neg Bool.true_eq_false.mp]
      exact ⟨takeLine_filtering hfilter _, iff_of_false (Option.some_ne_none _) (Option.some_ne_none _)⟩
    · have hkey := insert_steady hfilter.1 ch
      rw [if_neg hend, if_neg fun hc => hend hc.2, checked, hkey.1]
      exact ⟨hfilter.steady hkey.2, iff_of_true rfl rfl⟩

end Scan

/-- For every editor and all reads: the lines are those of the same bytes read one at a time and nothing is dropped exactly
if no read goes on behind a byte at which the poll returns; while the output works, exactly if in every read only the last
byte ends a line. -/
theorem split_reads_iff (outLen : ℕ) (ed : ClientEditor) (reads : List ClientRead) :
    (linesRead outLen ed reads = linesRead outLen ed (oneByteReads reads) ∧ bytesDropped outLen ed reads = [] ↔
        EndsLast (pollByte outLen) ed (reads.map Subtype.val)) ∧
      (Works ed → (linesRead outLen ed reads = linesRead outLen ed (oneByteReads reads) ∧ bytesDropped outLen ed reads = [] ↔
        LineEndsLast (ed.escState, ed.csi.length) reads)) := by
  have hiff : linesRead outLen ed reads = linesRead outLen ed (oneByteReads reads) ∧ bytesDropped outLen ed reads = [] ↔
      EndsLast (pollByte outLen) ed (reads.map Subtype.val) := by
    obtain ⟨hnothing, hsame⟩ := @calls_spec _ _ _ (pollByte outLen) (reads.map Subtype.val) ed
    rw [(editorPolls_bytes reads ed).1, (editorPolls_bytes reads ed).2, (editorPolls_bytes (oneByteReads reads) ed).1,
      oneByteReads_val, calls_singletons, ← hnothing]
    refine ⟨fun h => h.2, fun h => ⟨?_, h⟩⟩
    rw [hsame h]
  refine ⟨hiff, fun hworks => hiff.trans ?_⟩
  exact endsLast_iff (R := Filtering) (fun ed state ch h => pollByte_scan h ch) _ ⟨hworks, rfl⟩

/-- Two lines typed ahead arrive in one read: the second one is dropped. -/
theorem second_line_dropped :
    let ed := ClientEditor.started true []
    let both : List ClientRead := [⟨ofString "a\rb\r", by decide⟩]
    linesRead 80 ed both = [ofString "a"] ∧ linesRead 80 ed (oneByteReads both) = [ofString "a", ofString "b"] ∧
      bytesDropped 80 ed both = ofString "b\r" := by
  decide +kernel

end HyBBX.Client
