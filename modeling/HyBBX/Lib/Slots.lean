import Mathlib.Data.List.Basic
import Mathlib.Data.List.Count
import Mathlib.Logic.Function.Basic
import Mathlib.Tactic

/-! Slots that are marked as taken, and those who hold them. -/

namespace HyBBX.Lib

/-- A slot is marked if and only if one of the holders, and no other, has it; `free` stands for no slot. -/
def SlotsHeld {κ : Type*} [DecidableEq κ] (free : κ) (inUse : κ → Bool) (holders : List κ) : Prop :=
  ∀ k, k ≠ free → holders.count k = (inUse k).toNat

namespace SlotsHeld

variable {κ : Type*} [DecidableEq κ] {free k : κ} {inUse : κ → Bool} {holders a b : List κ}

lemma inUse_iff (h : SlotsHeld free inUse holders) (hk : k ≠ free) : inUse k = true ↔ holders.count k = 1 := by
  rw [h k hk]
  cases inUse k <;> simp

lemma of_perm (h : SlotsHeld free inUse a) (hp : a.Perm b) : SlotsHeld free inUse b :=
  fun k hk => (hp.count_eq k).symm.trans (h k hk)

lemma cons_free (h : SlotsHeld free inUse holders) : SlotsHeld free inUse (free :: holders) := by
  intro k hk
  rw [List.count_cons_of_ne hk.symm]
  exact h k hk

lemma of_cons_free (h : SlotsHeld free inUse (free :: holders)) : SlotsHeld free inUse holders := by
  intro k hk
  rw [← h k hk, List.count_cons_of_ne hk.symm]

lemma take (h : SlotsHeld free inUse holders) (hk : k ≠ free) (hfree : inUse k = false) :
    SlotsHeld free (Function.update inUse k true) (k :: holders) := by
  intro j hj
  by_cases hjk : j = k
  · subst hjk
    rw [List.count_cons_self, h j hj, hfree, Function.update_self]
    rfl
  · rw [List.count_cons_of_ne (Ne.symm hjk), h j hj, Function.update_of_ne hjk]

lemma release (h : SlotsHeld free inUse (k :: holders)) (hk : k ≠ free) :
    SlotsHeld free (Function.update inUse k false) holders := by
  intro j hj
  have hcount := h j hj
  by_cases hjk : j = k
  · subst hjk
    rw [List.count_cons_self] at hcount
    rw [Function.update_self]
    have hle := Bool.toNat_le (inUse j)
    rw [Bool.toNat_false]
    omega
  · rw [List.count_cons_of_ne (Ne.symm hjk)] at hcount
    rw [Function.update_of_ne hjk, hcount]

lemma nodup (h : SlotsHeld free inUse holders) : (holders.filter (· ≠ free)).Nodup := by
  rw [List.nodup_iff_count_le_one]
  intro k
  by_cases hk : k = free
  · rw [List.count_eq_zero.mpr]
    · exact Nat.zero_le 1
    · intro hm
      simpa [hk] using (List.mem_filter.mp hm).2
  · rw [List.count_filter (by simpa using hk), h k hk]
    exact Bool.toNat_le _

end SlotsHeld

section Handles

variable {α : Type*}

/-- A list of pairs with different keys, around one of them. -/
lemma forall_mem_removed {P : α → Prop} {x : α} {a b : List α} (h : ∀ p ∈ a ++ x :: b, P p) : ∀ p ∈ a ++ b, P p := by
  rw [List.forall_mem_append, List.forall_mem_cons] at h
  exact List.forall_mem_append.mpr ⟨h.1, h.2.2⟩

lemma forall_mem_replaced {P : α → Prop} {x y : α} {a b : List α} (h : ∀ p ∈ a ++ x :: b, P p) (hy : P y) :
    ∀ p ∈ a ++ y :: b, P p := by
  rw [List.forall_mem_append, List.forall_mem_cons] at h ⊢
  exact ⟨h.1, hy, h.2.2⟩

lemma lookup_around {key : ℕ} {val : α} {ps : List (ℕ × α)} (hnodup : (ps.map Prod.fst).Nodup)
    (h : ps.lookup key = some val) :
    ∃ a b, ps = a ++ (key, val) :: b ∧ ps.eraseP (fun p => p.1 = key) = a ++ b ∧
      ∀ val', ps.map (fun p => if p.1 = key then (key, val') else p) = a ++ (key, val') :: b := by
  induction ps with
  | nil => cases h
  | cons p ps ih =>
    rw [List.map_cons, List.nodup_cons] at hnodup
    rw [List.lookup_cons] at h
    by_cases hp : p.1 = key
    · rw [beq_iff_eq.mpr hp.symm] at h
      obtain rfl := Option.some.inj h
      have hrest : ∀ val' : α, ps.map (fun p => if p.1 = key then (key, val') else p) = ps := by
        intro val'
        refine (List.map_congr_left (g := id) fun q hq => ?_).trans (List.map_id ps)
        rw [if_neg]
        · rfl
        · intro hqk
          exact hnodup.1 (hp ▸ hqk ▸ List.mem_map_of_mem hq)
      refine ⟨[], ps, by rw [← hp]; rfl, by rw [List.eraseP_cons_of_pos (by simpa using hp)]; rfl, fun val' => ?_⟩
      rw [List.map_cons, if_pos hp, hrest]
      rfl
    · rw [beq_false_of_ne (Ne.symm hp)] at h
      obtain ⟨a, b, hps, herase, hmap⟩ := ih hnodup.2 h
      refine ⟨p :: a, b, by rw [hps]; rfl, ?_, fun val' => ?_⟩
      · rw [List.eraseP_cons_of_neg (by simpa using hp), herase]
        rfl
      · rw [List.map_cons, if_neg hp, hmap]
        rfl

end Handles

end HyBBX.Lib
