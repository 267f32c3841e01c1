import HyBBX.Lib.LineReader

/-! Texts of `key=value` pieces with a separator byte between the pieces. -/

namespace HyBBX.Lib.Segments

open Bytes Text LineReader

/-- The value of a piece `key=value`, as much of it as a scratch buffer of `scratchLen` bytes holds. -/
def pieceValue (key : Bytes) (scratchLen : ℕ) (piece : Bytes) : Option Bytes :=
  if equals ∈ piece ∧ piece.takeWhile (· ≠ equals) = key then
    some ((piece.dropWhile (· ≠ equals)).tail.take (scratchLen - 1))
  else none

/-- The first piece with the key decides. -/
def findPiece (sep : UInt8) (text key : Bytes) (scratchLen : ℕ) : Option Bytes :=
  (text.splitOn sep).findSome? (pieceValue key scratchLen)

def pair (key value : Bytes) : Bytes := key ++ equals :: value

variable {sep : UInt8} {key value : Bytes} {scratchLen : ℕ}

lemma pieceValue_pair (hk : equals ∉ key) : pieceValue key scratchLen (pair key value) =
    some (value.take (scratchLen - 1)) := by
  rw [pieceValue, if_pos ⟨by simp [pair], takeWhile_equals hk value⟩, pair, dropWhile_equals hk, List.tail_cons]

lemma pieceValue_of_notMem {piece : Bytes} (h : equals ∉ piece) : pieceValue key scratchLen piece = none :=
  if_neg fun hp => h hp.1

lemma splitOn_subset {text piece : Bytes} (h : piece ∈ text.splitOn sep) : piece ⊆ text := by
  induction text generalizing piece with
  | nil =>
    rw [List.splitOn_nil, List.mem_singleton] at h
    exact h ▸ List.Subset.refl _
  | cons b text ih =>
    rw [List.splitOn_cons_eq_if_modifyHead] at h
    split_ifs at h with hb
    · rcases List.mem_cons.mp h with rfl | h
      · exact List.nil_subset _
      · exact List.subset_cons_of_subset b (ih h)
    · cases hs : text.splitOn sep with
      | nil => exact absurd hs (List.splitOn_ne_nil sep text)
      | cons l ls =>
        rw [hs, List.modifyHead_cons] at h
        rcases List.mem_cons.mp h with rfl | h
        · exact List.cons_subset_cons b (ih (hs ▸ List.mem_cons_self))
        · exact List.subset_cons_of_subset b (ih (hs ▸ List.mem_cons_of_mem l h))

lemma findPiece_of_notMem {text : Bytes} (h : equals ∉ text) : findPiece sep text key scratchLen = none := by
  rw [findPiece, List.findSome?_eq_none_iff]
  intro piece hp
  exact pieceValue_of_notMem fun he => h (splitOn_subset hp he)

lemma findPiece_nil : findPiece sep [] key scratchLen = none := findPiece_of_notMem (by simp)

/-- Text in front of a separator and text behind it are searched one after the other. -/
lemma findPiece_append (text rest : Bytes) :
    findPiece sep (text ++ sep :: rest) key scratchLen =
      (findPiece sep text key scratchLen).or (findPiece sep rest key scratchLen) := by
  rw [findPiece, List.splitOn_append_cons_self, List.findSome?_append]
  rfl

lemma intercalate_cons (text : Bytes) (texts : List Bytes) :
    [sep].intercalate (text :: texts) = text ++ texts.flatMap (sep :: ·) := by
  induction texts generalizing text with
  | nil => simp
  | cons next texts ih => rw [List.intercalate_cons_cons, ih next, List.flatMap_cons, List.append_assoc]; rfl

lemma findPiece_intercalate (texts : List Bytes) :
    findPiece sep ([sep].intercalate texts) key scratchLen =
      texts.findSome? fun text => findPiece sep text key scratchLen := by
  induction texts with
  | nil => exact findPiece_nil
  | cons text texts ih =>
    cases texts with
    | nil => simp
    | cons next texts =>
      rw [List.intercalate_cons_cons, List.append_assoc, List.singleton_append, findPiece_append, ih,
        @List.findSome?_cons _ _ text]
      cases findPiece sep text key scratchLen <;> rfl

lemma sep_notMem_takeWhile (value : Bytes) : sep ∉ value.takeWhile (· ≠ sep) := by
  intro h
  simpa using List.mem_takeWhile_imp h

/-- A pair whose value holds the separator is found up to there. -/
lemma findPiece_pair (hsep : sep ≠ equals) (hk : equals ∉ key) (hs : sep ∉ key) :
    findPiece sep (pair key value) key scratchLen = some ((value.takeWhile (· ≠ sep)).take (scratchLen - 1)) := by
  have hfront : sep ∉ pair key (value.takeWhile (· ≠ sep)) := by
    rw [pair, List.mem_append, List.mem_cons, not_or, not_or]
    exact ⟨hs, hsep, sep_notMem_takeWhile value⟩
  have hone : findPiece sep (pair key (value.takeWhile (· ≠ sep))) key scratchLen =
      some ((value.takeWhile (· ≠ sep)).take (scratchLen - 1)) := by
    rw [findPiece, List.splitOn_eq_singleton hfront, List.findSome?_cons, pieceValue_pair hk]
  have hsplit := List.takeWhile_append_dropWhile (p := (· ≠ sep)) (l := value)
  cases hd : value.dropWhile (· ≠ sep) with
  | nil =>
    rw [hd, List.append_nil] at hsplit
    rw [← hone, hsplit]
  | cons b rest =>
    obtain rfl : b = sep := by
      have h := head_dropWhile (b := b) (p := (· ≠ sep)) (s := value) (by rw [hd]; rfl)
      simpa using h
    have htext : pair key value = pair key (value.takeWhile (· ≠ b)) ++ b :: rest := by
      rw [pair, pair, List.append_assoc, List.cons_append, ← hd, hsplit]
    rw [htext, findPiece_append, hone, Option.some_or]

end HyBBX.Lib.Segments
