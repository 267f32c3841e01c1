import Mathlib.Data.List.Basic
import Mathlib.Tactic

/-! Words laid out in rows: a row is filled as long as the next word fits behind its separator. -/

namespace HyBBX.Lib.Rows

variable {α : Type*}

/-- The words of a row with the separator between them. -/
def joined (sep : List α) (row : List (List α)) : List α := (row.flatMap (sep ++ ·)).drop sep.length

/-- The words in order, cut into rows that are not empty. -/
structure Cut (rows : List (List (List α))) (words : List (List α)) : Prop where
  flatten : rows.flatten = words
  nonempty : ∀ row ∈ rows, row ≠ []

/-- The rows from one that is begun on: a word that does not fit begins the next. -/
def fillRows (width : ℕ) (sep : List α) : List (List α) → List (List α) → List (List (List α))
  | [], [] => []
  | first :: row, [] => [first :: row]
  | [], word :: words => fillRows width sep [word] words
  | first :: row, word :: words =>
    if width < (joined sep (first :: row ++ [word])).length then (first :: row) :: fillRows width sep [word] words
    else fillRows width sep (first :: row ++ [word]) words

variable {width : ℕ} {sep : List α}

@[simp] lemma joined_nil : joined sep [] = [] := by simp [joined]

@[simp] lemma joined_singleton (word : List α) : joined sep [word] = word := by simp [joined]

lemma joined_concat {row : List (List α)} (hne : row ≠ []) (word : List α) :
    joined sep (row ++ [word]) = joined sep row ++ (sep ++ word) := by
  obtain ⟨first, row, rfl⟩ := List.exists_cons_of_ne_nil hne
  simp [joined, List.append_assoc]

lemma joined_ne_nil {row : List (List α)} (hne : row ≠ []) (hwords : ∀ word ∈ row, word ≠ []) :
    joined sep row ≠ [] := by
  obtain ⟨first, row, rfl⟩ := List.exists_cons_of_ne_nil hne
  simp [joined, hwords first List.mem_cons_self]

/-- Every word takes its own length and that of a separator, but for the first of a row. -/
lemma length_joined {row : List (List α)} (hne : row ≠ []) :
    (joined sep row).length + sep.length = (row.map fun word => sep.length + word.length).sum := by
  obtain ⟨first, row, rfl⟩ := List.exists_cons_of_ne_nil hne
  simp [joined, List.length_flatMap]
  omega

/-- Any cut into so many rows takes the same length. -/
lemma Cut.length {rows : List (List (List α))} {words : List (List α)} (h : Cut rows words) :
    (rows.map fun row => (joined sep row).length).sum + rows.length * sep.length =
      (words.map fun word => sep.length + word.length).sum := by
  obtain ⟨rfl, hne⟩ := h
  induction rows with
  | nil => simp
  | cons row rows ih =>
    obtain ⟨hrow, hrows⟩ := List.forall_mem_cons.mp hne
    have hlen : (joined sep row).length + sep.length = _ := length_joined hrow
    have hmore := ih hrows
    rw [List.flatten_cons, List.map_append, List.sum_append, ← hlen, ← hmore, List.map_cons, List.sum_cons,
      List.length_cons, Nat.succ_mul]
    omega

/-- What separators do not count for, no cut changes. -/
lemma countP_joined (p : α → Bool) (hsep : sep.countP p = 0) (row : List (List α)) :
    (joined sep row).countP p = (row.map fun word => word.countP p).sum := by
  cases row with
  | nil => simp
  | cons first row =>
    have htail : (row.flatMap (sep ++ ·)).countP p = (row.map fun word => word.countP p).sum := by
      rw [List.countP_flatMap]
      congr 1
      exact List.map_congr_left fun word _ => by simp [hsep]
    rw [joined, List.flatMap_cons, List.append_assoc, List.drop_left, List.countP_append, htail, List.map_cons,
      List.sum_cons]

lemma countP_cut (p : α → Bool) (hsep : sep.countP p = 0) (rows : List (List (List α))) :
    (rows.map fun row => (joined sep row).countP p).sum = (rows.flatten.map fun word => word.countP p).sum := by
  induction rows with
  | nil => rfl
  | cons row rows ih => rw [List.map_cons, List.sum_cons, ih, countP_joined p hsep, List.flatten_cons, List.map_append,
      List.sum_append]

section Fill

lemma fillRows_begin (words : List (List α)) {row : List (List α)} (hne : row ≠ []) (word : List α) :
    fillRows width sep row (word :: words) = if width < (joined sep row).length + (sep.length + word.length)
      then row :: fillRows width sep [word] words else fillRows width sep (row ++ [word]) words := by
  obtain ⟨first, row, rfl⟩ := List.exists_cons_of_ne_nil hne
  rw [fillRows, joined_concat hne, List.length_append, List.length_append]

lemma fillRows_cut (row words : List (List α)) : Cut (fillRows width sep row words) (row ++ words) := by
  induction words generalizing row with
  | nil =>
    cases row with
    | nil => exact ⟨rfl, by rintro _ ⟨⟩⟩
    | cons first row => exact ⟨rfl, by simp [fillRows]⟩
  | cons word words ih =>
    cases row with
    | nil => exact ih [word]
    | cons first row =>
      rw [fillRows]
      split_ifs
      · obtain ⟨hflatten, hne⟩ := ih [word]
        refine ⟨by rw [List.flatten_cons, hflatten]; rfl, ?_⟩
        intro other hother
        rcases List.mem_cons.mp hother with rfl | hother
        · exact List.cons_ne_nil _ _
        · exact hne other hother
      · have h := ih (first :: row ++ [word])
        rwa [List.append_assoc] at h

/-- A row is no longer than it may be, if every word fits into one. -/
lemma fillRows_fits {row words : List (List α)} (hrow : (joined sep row).length ≤ width)
    (hwords : ∀ word ∈ words, word.length ≤ width) :
    ∀ filled ∈ fillRows width sep row words, (joined sep filled).length ≤ width := by
  induction words generalizing row with
  | nil =>
    cases row with
    | nil => rintro _ ⟨⟩
    | cons first row =>
      intro filled hfilled
      rw [List.mem_singleton.mp hfilled]
      exact hrow
  | cons word words ih =>
    obtain ⟨hword, hwords⟩ := List.forall_mem_cons.mp hwords
    have hsingle : (joined sep [word]).length ≤ width := by rwa [joined_singleton]
    cases row with
    | nil => exact ih hsingle hwords
    | cons first row =>
      rw [fillRows]
      split_ifs with hlong
      · intro filled hfilled
        rcases List.mem_cons.mp hfilled with rfl | hfilled
        · exact hrow
        · exact ih hsingle hwords filled hfilled
      · exact ih (not_lt.mp hlong) hwords

end Fill

end HyBBX.Lib.Rows
