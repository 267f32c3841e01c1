import Mathlib.Data.List.Basic
import Mathlib.Data.List.Range
import Mathlib.Data.Nat.ModEq
import Mathlib.Logic.Function.Basic

/-! A ring of `n` slots: the cells from `head` on, `count` of them, wrapping at `n`. -/

namespace HyBBX.Lib

structure Ring (α : Type*) (n : ℕ) where
  slots : ℕ → α
  head : ℕ
  count : ℕ
  head_lt : head < n
  count_le : count ≤ n

namespace Ring

variable {α : Type*} {n : ℕ}

def index (r : Ring α n) (i : ℕ) : ℕ := (r.head + i) % n

def toList (r : Ring α n) : List α := (List.range r.count).map fun i => r.slots (r.index i)

-- the cells keep what they hold
def clear (r : Ring α n) : Ring α n where
  slots := r.slots
  head := 0
  count := 0
  head_lt := by have := r.head_lt; omega
  count_le := by omega

def push (r : Ring α n) (x : α) : Ring α n :=
  if h : r.count < n then
    { r with slots := Function.update r.slots (r.index r.count) x, count := r.count + 1, count_le := h }
  else r

def front (r : Ring α n) : Option α := if r.count = 0 then none else some (r.slots r.head)

def pop (r : Ring α n) : Ring α n where
  slots := r.slots
  head := (r.head + 1) % n
  count := r.count - 1
  head_lt := Nat.mod_lt _ (by have := r.head_lt; omega)
  count_le := by have := r.count_le; omega

@[simp] lemma toList_clear (r : Ring α n) : r.clear.toList = [] := rfl

@[simp] lemma length_toList (r : Ring α n) : r.toList.length = r.count := by
  simp [toList]

lemma index_injective (r : Ring α n) {i j : ℕ} (hi : i < n) (hj : j < n)
    (h : r.index i = r.index j) : i = j := by
  have hm : Nat.ModEq n i j := Nat.ModEq.add_left_cancel' r.head h
  exact Nat.ModEq.eq_of_lt_of_lt hm hi hj

lemma toList_push (r : Ring α n) (x : α) (h : r.count < n) : (r.push x).toList = r.toList ++ [x] := by
  rw [push, dif_pos h, toList, toList, List.range_succ, List.map_append, List.map_singleton]
  congr 1
  · apply List.map_congr_left
    intro i hi
    have hi' : i < r.count := List.mem_range.mp hi
    apply Function.update_of_ne
    intro he
    have := r.index_injective (by omega) h he
    omega
  · rw [List.singleton_inj]
    exact Function.update_self ..

lemma toList_pop (r : Ring α n) {x : α} (h : r.front = some x) : r.toList = x :: r.pop.toList := by
  rw [front] at h
  split_ifs at h with hc
  obtain ⟨k, hk⟩ := Nat.exists_eq_succ_of_ne_zero hc
  have hx : r.slots (r.index 0) = x := by
    rw [index, Nat.add_zero, Nat.mod_eq_of_lt r.head_lt]
    exact Option.some.inj h
  have hp : r.pop.count = k := by
    change r.count - 1 = k
    omega
  rw [toList, toList, hp, hk, List.range_succ_eq_map, List.map_cons, hx, List.map_map]
  congr 1
  apply List.map_congr_left
  intro i _
  simp only [Function.comp_apply, index, pop, Nat.mod_add_mod]
  congr 2
  omega

lemma toList_of_front_none (r : Ring α n) (h : r.front = none) : r.toList = [] := by
  rw [front] at h
  split_ifs at h with hc
  rw [toList, hc]
  rfl

end Ring

end HyBBX.Lib
