import Mathlib.Data.List.Sort
import Mathlib.Tactic

/-! The place of an element in a sorted list is the number of elements before it. -/

namespace HyBBX.Lib.Rank

variable {α : Type*} {before : α → α → Prop} [DecidableRel before]

lemma countP_before (hasymm : ∀ a b, before a b → ¬before b a) {s : List α} (hs : s.Pairwise before) {i : ℕ} {x : α}
    (hx : s[i]? = some x) : s.countP (fun y => before y x) = i := by
  induction s generalizing i with
  | nil => simp at hx
  | cons a s ih =>
    obtain ⟨ha, hs⟩ := List.pairwise_cons.mp hs
    cases i with
    | zero =>
      obtain rfl : a = x := by simpa using hx
      rw [List.countP_eq_zero]
      intro y hy
      rcases List.mem_cons.mp hy with rfl | hy
      · simpa using fun h => hasymm y y h h
      · simpa using hasymm a y (ha y hy)
    | succ i =>
      have hx : s[i]? = some x := by simpa using hx
      rw [List.countP_cons_of_pos (by simpa using ha x (List.mem_of_getElem? hx)), ih hs hx]

/-- The first `n` of the sorted list are those with fewer than `n` before them. -/
lemma mem_take_iff (hasymm : ∀ a b, before a b → ¬before b a) {l s : List α} (hs : s.Pairwise before) (hp : l.Perm s)
    (n : ℕ) (x : α) : x ∈ s.take n ↔ x ∈ l ∧ l.countP (fun y => before y x) < n := by
  rw [hp.mem_iff, hp.countP_eq]
  constructor
  · intro h
    obtain ⟨i, hi⟩ := List.mem_iff_getElem?.mp h
    rw [List.getElem?_take] at hi
    split_ifs at hi with hin
    exact ⟨List.mem_of_getElem? hi, by rwa [countP_before hasymm hs hi]⟩
  · rintro ⟨h, hlt⟩
    obtain ⟨i, hi⟩ := List.mem_iff_getElem?.mp h
    rw [countP_before hasymm hs hi] at hlt
    apply List.mem_iff_getElem?.mpr
    exact ⟨i, by rw [List.getElem?_take, if_pos hlt, hi]⟩

end HyBBX.Lib.Rank
