import HyBBX.Lib.Bytes

/-! A line with a cursor in it, the keys that edit it, and a terminal that has one line. -/

namespace HyBBX.Lib

/-- What stands before the cursor and what stands behind it. -/
structure CursorLine (α : Type*) where
  left : List α
  right : List α
  deriving DecidableEq, Repr

namespace CursorLine

section Keys

variable {α : Type*} (line : CursorLine α)

def overwrite (x : α) : CursorLine α := ⟨line.left ++ [x], line.right.tail⟩

def erase : CursorLine α := ⟨line.left, []⟩

def moveLeft : CursorLine α :=
  match line.left.getLast? with
  | none => line
  | some x => ⟨line.left.dropLast, x :: line.right⟩

/-- The line split at a cursor. -/
def at' (text : List α) (cursor : ℕ) : CursorLine α := ⟨text.take cursor, text.drop cursor⟩

lemma at_overwrite {text : List α} {cursor : ℕ} (h : cursor < text.length) :
    (at' text cursor).overwrite text[cursor] = at' text (cursor + 1) := by
  rw [overwrite, at', at', List.tail_drop, ← List.take_append_getElem h]

lemma moveLeft_concat (left right : List α) (x : α) :
    (⟨left ++ [x], right⟩ : CursorLine α).moveLeft = ⟨left, x :: right⟩ := by
  rw [moveLeft, List.getLast?_concat, List.dropLast_concat]

lemma at_moveLeft {text : List α} {cursor : ℕ} (h : cursor < text.length) :
    (at' text (cursor + 1)).moveLeft = at' text cursor := by
  rw [at', at', List.drop_eq_getElem_cons h, ← List.take_append_getElem h]
  exact moveLeft_concat _ _ _

end Keys

/-- A byte that a terminal prints. -/
def printable (b : UInt8) : Bool := 0x20 ≤ b && b ≠ 0x7F

inductive TerminalMode
  | plain
  | esc
  | csi
  deriving DecidableEq, Repr

structure Terminal where
  line : CursorLine UInt8
  mode : TerminalMode
  deriving DecidableEq, Repr

namespace Terminal

def showing (line : CursorLine UInt8) : Terminal := ⟨line, .plain⟩

/-- A byte that comes in: printed over what stands at the cursor, or a backspace, or part of a control sequence, of which
there is one that erases the rest of the line. -/
def feed (t : Terminal) (b : UInt8) : Terminal :=
  match t.mode with
  | .plain =>
    if b = 0x1B then { t with mode := .esc }
    else if b = 0x08 then { t with line := t.line.moveLeft }
    else if printable b then { t with line := t.line.overwrite b }
    else t
  | .esc => if b = 0x5B then { t with mode := .csi } else { t with mode := .plain }
  | .csi =>
    if b = 0x4B then ⟨t.line.erase, .plain⟩
    else if 0x40 ≤ b ∧ b ≤ 0x7E then { t with mode := .plain }
    else t

def feedAll (t : Terminal) (data : Bytes) : Terminal := data.foldl feed t

lemma feedAll_append (t : Terminal) (data more : Bytes) : t.feedAll (data ++ more) = (t.feedAll data).feedAll more :=
  List.foldl_append

lemma feed_print {b : UInt8} (h : printable b = true) (line : CursorLine UInt8) :
    (showing line).feed b = showing (line.overwrite b) := by
  have hesc : b ≠ 0x1B := by
    rintro rfl
    exact absurd h (by decide)
  have hback : b ≠ 0x08 := by
    rintro rfl
    exact absurd h (by decide)
  simp only [feed, showing, if_neg hesc, if_neg hback, if_pos h]

lemma feedAll_print {text : Bytes} (h : ∀ b ∈ text, printable b = true) (left right : Bytes) :
    (showing ⟨left, right⟩).feedAll text = showing ⟨left ++ text, right.drop text.length⟩ := by
  induction text generalizing left right with
  | nil => simp [feedAll]
  | cons b text ih =>
    rw [List.forall_mem_cons] at h
    rw [feedAll, List.foldl_cons, feed_print h.1]
    refine (ih h.2 (left ++ [b]) right.tail).trans ?_
    rw [List.append_assoc, List.drop_tail]
    rfl

lemma feedAll_back (left text right : Bytes) :
    (showing ⟨left ++ text, right⟩).feedAll (List.replicate text.length 0x08) = showing ⟨left, text ++ right⟩ := by
  induction text using List.reverseRecOn generalizing right with
  | nil => simp [feedAll]
  | append_singleton text b ih =>
    have hback : (showing ⟨left ++ (text ++ [b]), right⟩).feed 0x08 = showing ⟨left ++ text, b :: right⟩ := by
      rw [← List.append_assoc]
      exact congrArg showing (moveLeft_concat (left ++ text) right b)
    rw [List.length_append, List.length_singleton, List.replicate_succ, feedAll, List.foldl_cons, hback]
    refine (ih (b :: right)).trans ?_
    rw [List.append_assoc, List.singleton_append]

lemma feedAll_erase (left right : Bytes) :
    (showing ⟨left, right⟩).feedAll [0x1B, 0x5B, 0x4B] = showing ⟨left, []⟩ := rfl

/-- What stands behind the cursor is written anew. -/
lemma feedAll_suffix {suffix : Bytes} (h : ∀ b ∈ suffix, printable b = true) (left right : Bytes) :
    (showing ⟨left, right⟩).feedAll (suffix ++ [0x1B, 0x5B, 0x4B] ++ List.replicate suffix.length 0x08) =
      showing ⟨left, suffix⟩ := by
  rw [feedAll_append, feedAll_append, feedAll_print h, feedAll_erase, feedAll_back, List.append_nil]

/-- The whole line is written anew. -/
lemma feedAll_replace {text : Bytes} (h : ∀ b ∈ text, printable b = true) (left right : Bytes) :
    (showing ⟨left, right⟩).feedAll (List.replicate left.length 0x08 ++ text ++ [0x1B, 0x5B, 0x4B]) =
      showing ⟨text, []⟩ := by
  have hhome := feedAll_back [] left right
  rw [List.nil_append] at hhome
  rw [feedAll_append, feedAll_append, hhome, feedAll_print h, feedAll_erase, List.nil_append]

end Terminal

end CursorLine

end HyBBX.Lib
