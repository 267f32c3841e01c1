import Mathlib.Data.List.Basic
import Mathlib.Tactic

/-! A stream cut into blocks of one length, and what is left behind the last of them. -/

namespace HyBBX.Lib.Blocks

variable {α : Type*}

def blocks (k : ℕ) (l : List α) : List (List α) := (List.range (l.length / k)).map fun i => (l.drop (k * i)).take k

def rest (k : ℕ) (l : List α) : List α := l.drop (k * (l.length / k))

variable {k : ℕ} {l : List α}

lemma blocks_of_lt (h : l.length < k) : blocks k l = [] :=
    by rw [blocks, Nat.div_eq_of_lt h, List.range_zero, List.map_nil]

lemma rest_of_lt (h : l.length < k) : rest k l = l := by rw [rest, Nat.div_eq_of_lt h, Nat.mul_zero, List.drop_zero]

lemma length_rest (k : ℕ) (l : List α) : (rest k l).length = l.length % k := by
  rw [rest, List.length_drop, Nat.mod_def]

lemma count_of_le (hk : 0 < k) (h : k ≤ l.length) : l.length / k = (l.drop k).length / k + 1 := by
  rw [List.length_drop]
  exact Nat.div_eq_sub_div hk h

lemma blocks_of_le (hk : 0 < k) (h : k ≤ l.length) : blocks k l = l.take k :: blocks k (l.drop k) := by
  rw [blocks, count_of_le hk h, List.range_succ_eq_map, List.map_cons, List.map_map, Nat.mul_zero,
    List.drop_zero, blocks]
  congr 1
  apply List.map_congr_left
  intro i _
  rw [Function.comp_apply, List.drop_drop, Nat.mul_succ, Nat.add_comm]

lemma rest_of_le (hk : 0 < k) (h : k ≤ l.length) : rest k l = rest k (l.drop k) := by
  rw [rest, rest, List.drop_drop, count_of_le hk h, Nat.mul_succ, Nat.add_comm]

/-- What comes behind a stream is cut together with what was left of it. -/
lemma blocks_append (hk : 0 < k) (l m : List α) : blocks k (l ++ m) = blocks k l ++ blocks k (rest k l ++ m) := by
  induction hn : l.length using Nat.strong_induction_on generalizing l with
  | _ n ih =>
    by_cases h : l.length < k
    · rw [blocks_of_lt h, rest_of_lt h, List.nil_append]
    · have hle := not_lt.mp h
      have hmore : (l.drop k).length < n := by
        rw [List.length_drop]
        omega
      rw [blocks_of_le hk hle, rest_of_le hk hle, List.cons_append, ← ih _ hmore _ rfl,
        blocks_of_le hk (by rw [List.length_append]; omega), List.take_append_of_le_length hle,
        List.drop_append_of_le_length hle]

lemma rest_append (hk : 0 < k) (l m : List α) : rest k (l ++ m) = rest k (rest k l ++ m) := by
  induction hn : l.length using Nat.strong_induction_on generalizing l with
  | _ n ih =>
    by_cases h : l.length < k
    · rw [rest_of_lt h]
    · have hle := not_lt.mp h
      have hmore : (l.drop k).length < n := by
        rw [List.length_drop]
        omega
      rw [rest_of_le hk hle, ← ih _ hmore _ rfl, rest_of_le hk (by rw [List.length_append]; omega),
        List.drop_append_of_le_length hle]

section Fold

variable {σ : Type*} {f : σ → List α → σ} {start s : σ} {stream left : List α}

/-- A stream folded block by block as it comes: the state after its whole blocks, and what is left behind them. -/
structure Folded (f : σ → List α → σ) (start : σ) (k : ℕ) (stream : List α) (s : σ) (left : List α) : Prop where
  state : s = (blocks k stream).foldl f start
  left : left = rest k stream

lemma folded_nil (f : σ → List α → σ) (start : σ) (hk : 0 < k) : Folded f start k [] start [] where
  state := by rw [blocks_of_lt hk, List.foldl_nil]
  left := by rw [rest_of_lt hk]

/-- More of the stream is cut together with what was left. -/
lemma Folded.append (hk : 0 < k) (h : Folded f start k stream s left) (more : List α) :
    Folded f start k (stream ++ more) ((blocks k (left ++ more)).foldl f s) (rest k (left ++ more)) where
  state := by rw [h.state, h.left, blocks_append hk stream more, List.foldl_append]
  left := by rw [h.left, ← rest_append hk]

lemma Folded.short (hk : 0 < k) (h : Folded f start k stream s left) (more : List α)
    (hlt : left.length + more.length < k) : Folded f start k (stream ++ more) s (left ++ more) := by
  have hshort : (left ++ more).length < k := by rwa [List.length_append]
  have hall := h.append hk more
  rwa [blocks_of_lt hshort, rest_of_lt hshort, List.foldl_nil] at hall

lemma Folded.full (hk : 0 < k) (h : Folded f start k stream s left) (more : List α)
    (heq : left.length + more.length = k) : Folded f start k (stream ++ more) (f s (left ++ more)) [] := by
  have hlen : (left ++ more).length = k := by rwa [List.length_append]
  have hall := h.append hk more
  rwa [blocks_of_le hk hlen.ge, rest_of_le hk hlen.ge, List.take_of_length_le hlen.le, List.drop_of_length_le hlen.le,
    blocks_of_lt hk, rest_of_lt hk, List.foldl_cons, List.foldl_nil] at hall

lemma Folded.length_left (h : Folded f start k stream s left) : left.length = stream.length % k := by
  rw [h.left, length_rest]

end Fold

end HyBBX.Lib.Blocks
