import Mathlib.Data.List.Forall2

/-! Lists that are related item by item. -/

namespace HyBBX.Lib.Pairs

open List

variable {α β : Type} {R : α → β → Prop}

lemma split_append {as : List α} {bs cs : List β} (h : Forall₂ R as (bs ++ cs)) :
    ∃ xs ys, as = xs ++ ys ∧ Forall₂ R xs bs ∧ Forall₂ R ys cs :=
  ⟨_, _, (take_append_drop bs.length as).symm, forall₂_take_append as bs cs h, forall₂_drop_append as bs cs h⟩

lemma split_cons {as : List α} {b : β} {bs : List β} (h : Forall₂ R as (b :: bs)) :
    ∃ a xs, as = a :: xs ∧ R a b ∧ Forall₂ R xs bs := by
  cases h with
  | cons hab hrest => exact ⟨_, _, rfl, hab, hrest⟩

/-- The lists around an item of the second list. -/
lemma split_middle {as : List α} {bs cs : List β} {b : β} (h : Forall₂ R as (bs ++ b :: cs)) :
    ∃ xs a ys, as = xs ++ a :: ys ∧ Forall₂ R xs bs ∧ R a b ∧ Forall₂ R ys cs := by
  obtain ⟨xs, zs, rfl, hbefore, hrest⟩ := split_append h
  obtain ⟨a, ys, rfl, hab, hbehind⟩ := split_cons hrest
  exact ⟨xs, a, ys, rfl, hbefore, hab, hbehind⟩

lemma mem_left {as : List α} {bs : List β} (h : Forall₂ R as bs) {a : α} (ha : a ∈ as) : ∃ b ∈ bs, R a b := by
  induction h with
  | nil => cases ha
  | cons hab hrest ih =>
    rcases mem_cons.mp ha with rfl | ha
    · exact ⟨_, mem_cons_self, hab⟩
    · obtain ⟨b, hb, hr⟩ := ih ha
      exact ⟨b, mem_cons_of_mem _ hb, hr⟩

lemma mem_right {as : List α} {bs : List β} (h : Forall₂ R as bs) {b : β} (hb : b ∈ bs) : ∃ a ∈ as, R a b := by
  obtain ⟨a, ha, hr⟩ := mem_left h.flip hb
  exact ⟨a, ha, hr⟩

/-- What related items agree in, the lists agree in. -/
lemma map_eq {γ : Type} {f : α → γ} {g : β → γ} (hfg : ∀ a b, R a b → f a = g b) {as : List α} {bs : List β}
    (h : Forall₂ R as bs) : as.map f = bs.map g := by
  induction h with
  | nil => rfl
  | cons hab hrest ih => rw [map_cons, map_cons, hfg _ _ hab, ih]

end HyBBX.Lib.Pairs
