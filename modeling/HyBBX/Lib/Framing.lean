import Mathlib.Data.List.Basic
import Mathlib.Tactic

/-! Streams of encoded items: wherever a stream is cut, the front is whole items and a part of the next one. -/

namespace HyBBX.Lib.Framing

variable {α β : Type*} (encode : α → List β)

/-- The encoding of `a` up to before its end. -/
def Part (a : α) (part : List β) : Prop := part <+: encode a ∧ part.length < (encode a).length

/-- The item that comes behind `items`, of which `next` is the last. -/
def upcoming (items : List α) (next : α) : α := items.head?.getD next

variable {encode}

lemma part_of_shorter {a : α} {part more : List β} (h : Part encode a (part ++ more)) : Part encode a part := by
  refine ⟨(List.prefix_append part more).trans h.1, ?_⟩
  have hlen := h.2
  rw [List.length_append] at hlen
  omega

lemma cut {items : List α} {next : α} {front more part : List β} (hpart : Part encode next part)
    (h : front ++ more = items.flatMap encode ++ part) :
    ∃ done left front', items = done ++ left ∧ front = done.flatMap encode ++ front' ∧
      Part encode (upcoming left next) front' ∧ front' ++ more = left.flatMap encode ++ part := by
  induction items generalizing front with
  | nil =>
    rw [List.flatMap_nil, List.nil_append] at h
    exact ⟨[], [], front, rfl, rfl, part_of_shorter (h ▸ hpart), h⟩
  | cons item items ih =>
    rw [List.flatMap_cons, List.append_assoc] at h
    by_cases hlen : front.length < (encode item).length
    · refine ⟨[], item :: items, front, rfl, rfl, ⟨?_, hlen⟩, ?_⟩
      · have hfront := List.prefix_append front more
        rw [h] at hfront
        exact List.prefix_of_prefix_length_le hfront (List.prefix_append _ _) (Nat.le_of_lt hlen)
      · rw [List.flatMap_cons, List.append_assoc]
        exact h
    · obtain ⟨rest, rfl⟩ : encode item <+: front := by
        have hfront : front <+: encode item ++ (items.flatMap encode ++ part) := by
          rw [← h]
          exact List.prefix_append front more
        exact List.prefix_of_prefix_length_le (List.prefix_append _ _) hfront (not_lt.mp hlen)
      rw [List.append_assoc] at h
      obtain ⟨done, left, front', rfl, rfl, hfront', hrest⟩ := ih (List.append_cancel_left h)
      exact ⟨item :: done, left, front', rfl, by rw [List.flatMap_cons, List.append_assoc], hfront', hrest⟩

end HyBBX.Lib.Framing
