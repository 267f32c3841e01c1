import Mathlib.Data.List.Basic
import Mathlib.Tactic

/-! A fixed array of slots as a finite map: a key is looked up among the active slots and a new one takes
the first inactive slot. -/

namespace HyBBX.Lib

structure Slot (κ α : Type*) where
  key : κ
  val : α
  active : Bool

abbrev SlotTable (κ α : Type*) := List (Slot κ α)

namespace SlotTable

variable {κ α : Type*} [DecidableEq κ]

def holds (k : κ) (s : Slot κ α) : Bool := s.active && s.key = k

def find (t : SlotTable κ α) (k : κ) : Option ℕ := t.findIdx? (holds k)

def free (t : SlotTable κ α) : Option ℕ := t.findIdx? fun s => !s.active

def lookup (t : SlotTable κ α) (k : κ) : Option α := (t.find? (holds k)).map Slot.val

def store (t : SlotTable κ α) (i : ℕ) (k : κ) (v : α) : SlotTable κ α := t.set i ⟨k, v, true⟩

def drop (t : SlotTable κ α) (i : ℕ) : SlotTable κ α := t.modify i fun s => { s with active := false }

/-- A full table stays as it is. -/
def put (t : SlotTable κ α) (k : κ) (v : α) : SlotTable κ α :=
  match t.find k with
  | some i => t.store i k v
  | none => match t.free with
    | some i => t.store i k v
    | none => t

def release (t : SlotTable κ α) (k : κ) : SlotTable κ α :=
  match t.find k with
  | some i => t.drop i
  | none => t

/-- Every active slot is kept with a new value or dropped. -/
def sweep (g : κ → α → Option α) (t : SlotTable κ α) : SlotTable κ α :=
  t.map fun s =>
    if s.active then match g s.key s.val with
      | some v => { s with val := v }
      | none => { s with active := false }
    else s

def HasFree (t : SlotTable κ α) : Prop := ∃ s ∈ t, s.active = false

/-- No key has two active slots. -/
def Unique (t : SlotTable κ α) : Prop :=
  ∀ (i j : ℕ) (s s' : Slot κ α), t[i]? = some s → t[j]? = some s' → s.active = true → s'.active = true →
    s.key = s'.key → i = j

lemma holds_iff {k : κ} {s : Slot κ α} : holds k s = true ↔ s.active = true ∧ s.key = k := by
  simp [holds]

lemma find_some {t : SlotTable κ α} {k : κ} {i : ℕ} (h : t.find k = some i) :
    ∃ s : Slot κ α, t[i]? = some s ∧ s.active = true ∧ s.key = k := by
  obtain ⟨hi, hp, -⟩ := List.findIdx?_eq_some_iff_getElem.mp h
  exact ⟨t[i], List.getElem?_eq_getElem hi, holds_iff.mp hp⟩

lemma find_none {t : SlotTable κ α} {k : κ} (h : t.find k = none) {i : ℕ} {s : Slot κ α} (hi : t[i]? = some s)
    (ha : s.active = true) : s.key ≠ k := by
  intro hk
  have := List.findIdx?_eq_none_iff.mp h s (List.mem_of_getElem? hi)
  rw [holds_iff.mpr ⟨ha, hk⟩] at this
  simp at this

omit [DecidableEq κ] in
lemma free_some {t : SlotTable κ α} {i : ℕ} (h : t.free = some i) :
    ∃ s : Slot κ α, t[i]? = some s ∧ s.active = false := by
  obtain ⟨hi, hp, -⟩ := List.findIdx?_eq_some_iff_getElem.mp h
  exact ⟨t[i], List.getElem?_eq_getElem hi, by simpa using hp⟩

omit [DecidableEq κ] in
lemma HasFree.free {t : SlotTable κ α} (h : HasFree t) : ∃ i, t.free = some i := by
  obtain ⟨s, hs, ha⟩ := h
  cases hf : t.free with
  | some i => exact ⟨i, rfl⟩
  | none =>
    have := List.findIdx?_eq_none_iff.mp hf s hs
    simp [ha] at this

lemma room_iff {t : SlotTable κ α} {k : κ} :
    ¬(t.lookup k = none ∧ t.free = none) ↔ t.lookup k ≠ none ∨ HasFree t := by
  constructor
  · intro h
    by_cases hl : t.lookup k = none
    · right
      cases hf : t.free with
      | none => exact absurd ⟨hl, hf⟩ h
      | some i =>
        obtain ⟨s, hi, ha⟩ := free_some hf
        exact ⟨s, List.mem_of_getElem? hi, ha⟩
    · exact .inl hl
  · rintro (h | h) ⟨hl, hf⟩
    · exact h hl
    · obtain ⟨i, hi⟩ := h.free
      simp [hf] at hi

lemma lookup_eq_none_iff {t : SlotTable κ α} {k : κ} :
    t.lookup k = none ↔ ∀ (i : ℕ) (s : Slot κ α), t[i]? = some s → s.active = true → s.key ≠ k := by
  rw [lookup, Option.map_eq_none_iff, List.find?_eq_none]
  constructor
  · intro h i s hi ha hk
    exact h s (List.mem_of_getElem? hi) (holds_iff.mpr ⟨ha, hk⟩)
  · intro h s hs hp
    obtain ⟨i, hi⟩ := List.mem_iff_getElem?.mp hs
    obtain ⟨ha, hk⟩ := holds_iff.mp hp
    exact h i s hi ha hk

lemma lookup_some {t : SlotTable κ α} {k : κ} {v : α} (h : t.lookup k = some v) :
    ∃ (i : ℕ) (s : Slot κ α), t[i]? = some s ∧ s.active = true ∧ s.key = k ∧ s.val = v := by
  obtain ⟨s, hs, rfl⟩ := Option.map_eq_some_iff.mp h
  obtain ⟨i, hi⟩ := List.mem_iff_getElem?.mp (List.mem_of_find?_eq_some hs)
  obtain ⟨ha, hk⟩ := holds_iff.mp (List.find?_some hs)
  exact ⟨i, s, hi, ha, hk, rfl⟩

lemma Unique.lookup {t : SlotTable κ α} (h : Unique t) {i : ℕ} {s : Slot κ α} (hi : t[i]? = some s)
    (ha : s.active = true) : t.lookup s.key = some s.val := by
  cases hl : t.lookup s.key with
  | none => exact absurd rfl (lookup_eq_none_iff.mp hl i s hi ha)
  | some v =>
    obtain ⟨j, s', hj, ha', hk, rfl⟩ := lookup_some hl
    obtain rfl := h i j s s' hi hj ha ha' hk.symm
    rw [hi] at hj
    rw [Option.some.inj hj]

/-- Two tables with the same active slots, some keys apart, answer alike on the other keys. -/
lemma lookup_congr {t u : SlotTable κ α} (hu : Unique u) {k : κ}
    (h : ∀ (i : ℕ) (s : Slot κ α), s.active = true → s.key = k → (t[i]? = some s ↔ u[i]? = some s)) :
    t.lookup k = u.lookup k := by
  cases hl : t.lookup k with
  | none =>
    rw [eq_comm, lookup_eq_none_iff]
    intro i s hi ha hk
    exact lookup_eq_none_iff.mp hl i s ((h i s ha hk).mpr hi) ha hk
  | some v =>
    obtain ⟨i, s, hi, ha, rfl, rfl⟩ := lookup_some hl
    exact (hu.lookup ((h i s ha rfl).mp hi) ha).symm

omit [DecidableEq κ] in
lemma getElem?_store {t : SlotTable κ α} {i : ℕ} {s₀ : Slot κ α} (hi : t[i]? = some s₀) (k : κ) (v : α) (j : ℕ) :
    (t.store i k v)[j]? = if j = i then some ⟨k, v, true⟩ else t[j]? := by
  have hlt : i < t.length := (List.getElem?_eq_some_iff.mp hi).1
  rw [store, List.getElem?_set]
  by_cases hj : i = j
  · subst hj
    rw [if_pos rfl, if_pos hlt, if_pos rfl]
  · rw [if_neg hj, if_neg (Ne.symm hj)]

section Store

variable {t : SlotTable κ α} (h : Unique t) {i : ℕ} {k : κ} {s₀ : Slot κ α} (hi : t[i]? = some s₀)
  (hk : ∀ (j : ℕ) (s : Slot κ α), j ≠ i → t[j]? = some s → s.active = true → s.key ≠ k) (v : α)
include h hi hk

omit [DecidableEq κ] in
lemma unique_store : Unique (t.store i k v) := by
  intro a b s s' ha hb hsa hsb he
  rw [getElem?_store hi] at ha hb
  split_ifs at ha hb with hai hbi hbi
  · rw [hai, hbi]
  · obtain rfl := Option.some.inj ha
    exact absurd he.symm (hk b s' hbi hb hsb)
  · obtain rfl := Option.some.inj hb
    exact absurd he (hk a s hai ha hsa)
  · exact h a b s s' ha hb hsa hsb he

lemma lookup_store (hs : s₀.active = true → s₀.key = k) (k' : κ) :
    (t.store i k v).lookup k' = if k' = k then some v else t.lookup k' := by
  have hu := unique_store h hi hk v
  split_ifs with hkk
  · subst hkk
    exact hu.lookup (i := i) (s := ⟨k', v, true⟩) (by rw [getElem?_store hi, if_pos rfl]) rfl
  · apply lookup_congr h
    intro j s ha hks
    rw [getElem?_store hi]
    split_ifs with hj
    · subst hj
      rw [hi]
      constructor
      · intro he
        obtain rfl := Option.some.inj he
        exact absurd hks.symm hkk
      · intro he
        obtain rfl := Option.some.inj he
        exact absurd (hks.symm.trans (hs ha)) hkk
    · exact Iff.rfl

end Store

lemma find_eq_none_iff {t : SlotTable κ α} {k : κ} : t.find k = none ↔ t.lookup k = none := by
  rw [lookup_eq_none_iff]
  constructor
  · intro h i s hi ha
    exact find_none h hi ha
  · intro h
    rw [find, List.findIdx?_eq_none_iff]
    intro s hs
    obtain ⟨i, hi⟩ := List.mem_iff_getElem?.mp hs
    cases ha : s.active with
    | false => simp [holds, ha]
    | true => simp [holds, ha, h i s hi ha]

lemma put_spec {t : SlotTable κ α} (h : Unique t) {k : κ} (hroom : t.lookup k ≠ none ∨ HasFree t) (v : α) :
    Unique (t.put k v) ∧ ∀ k', (t.put k v).lookup k' = if k' = k then some v else t.lookup k' := by
  rw [put]
  cases hf : t.find k with
  | some i =>
    obtain ⟨s, hi, ha, hk⟩ := find_some hf
    have hother : ∀ (j : ℕ) (s' : Slot κ α), j ≠ i → t[j]? = some s' → s'.active = true → s'.key ≠ k := by
      intro j s' hj hj' ha' hk'
      exact hj (h j i s' s hj' hi ha' ha (hk'.trans hk.symm))
    exact ⟨unique_store h hi hother v, lookup_store h hi hother v fun _ => hk⟩
  | none =>
    have hn := find_eq_none_iff.mp hf
    obtain ⟨i, hfree⟩ := (hroom.resolve_left fun hne => hne hn).free
    obtain ⟨s, hi, ha⟩ := free_some hfree
    have hother : ∀ (j : ℕ) (s' : Slot κ α), j ≠ i → t[j]? = some s' → s'.active = true → s'.key ≠ k :=
      fun j s' _ hj' ha' => lookup_eq_none_iff.mp hn j s' hj' ha'
    simp only [hfree]
    exact ⟨unique_store h hi hother v, lookup_store h hi hother v fun ha' => by rw [ha] at ha'; simp at ha'⟩

lemma unique_put {t : SlotTable κ α} (h : Unique t) (k : κ) (v : α) : Unique (t.put k v) := by
  by_cases hroom : t.lookup k ≠ none ∨ HasFree t
  · exact (put_spec h hroom v).1
  · obtain ⟨hl, hfree⟩ := not_or.mp hroom
    have hf : t.free = none := by
      cases hf : t.free with
      | none => rfl
      | some i =>
        obtain ⟨s, hi, ha⟩ := free_some hf
        exact absurd ⟨s, List.mem_of_getElem? hi, ha⟩ hfree
    rw [put, find_eq_none_iff.mpr (not_not.mp hl), hf]
    exact h

omit [DecidableEq κ] in
lemma getElem?_drop (t : SlotTable κ α) (i j : ℕ) :
    (t.drop i)[j]? = (t[j]?).map fun s => if j = i then { s with active := false } else s := by
  rw [drop, List.getElem?_modify]
  by_cases hj : i = j
  · simp [hj]
  · simp [hj, Ne.symm hj]

lemma release_spec {t : SlotTable κ α} (h : Unique t) (k : κ) :
    Unique (t.release k) ∧ ∀ k', (t.release k).lookup k' = if k' = k then none else t.lookup k' := by
  rw [release]
  cases hf : t.find k with
  | none =>
    refine ⟨h, fun k' => ?_⟩
    split_ifs with hk
    · rw [hk]
      exact find_eq_none_iff.mp hf
    · rfl
  | some i =>
    obtain ⟨s₀, hi, ha₀, hk₀⟩ := find_some hf
    have hsame : ∀ (j : ℕ) (s : Slot κ α), s.active = true → ((t.drop i)[j]? = some s ↔ j ≠ i ∧ t[j]? = some s) := by
      intro j s ha
      rw [getElem?_drop]
      by_cases hj : j = i
      · simp only [hj, if_true, ne_eq, not_true_eq_false, false_and, iff_false, Option.map_eq_some_iff,
          not_exists, not_and]
        rintro s' - rfl
        simp at ha
      · simp [hj]
    have hu : Unique (t.drop i) := by
      intro a b s s' hsa hsb ha hb he
      exact h a b s s' ((hsame a s ha).mp hsa).2 ((hsame b s' hb).mp hsb).2 ha hb he
    refine ⟨hu, fun k' => ?_⟩
    split_ifs with hk
    · rw [lookup_eq_none_iff]
      intro j s hj ha hks
      obtain ⟨hne, hj'⟩ := (hsame j s ha).mp hj
      exact hne (h j i s s₀ hj' hi ha ha₀ (hks.trans (hk.trans hk₀.symm)))
    · apply lookup_congr h
      intro j s ha hks
      rw [hsame j s ha]
      refine ⟨fun hj => hj.2, fun hj => ⟨?_, hj⟩⟩
      rintro rfl
      rw [hi] at hj
      obtain rfl := Option.some.inj hj
      exact hk (hks.symm.trans hk₀)

lemma hasFree_release {t : SlotTable κ α} {k : κ} (h : t.lookup k ≠ none) : HasFree (t.release k) := by
  rw [release]
  cases hf : t.find k with
  | none => exact absurd (find_eq_none_iff.mp hf) h
  | some i =>
    obtain ⟨s, hi, -, -⟩ := find_some hf
    refine ⟨{ s with active := false }, List.mem_of_getElem? (i := i) ?_, rfl⟩
    rw [getElem?_drop, hi]
    simp

lemma sweep_spec {t : SlotTable κ α} (h : Unique t) (g : κ → α → Option α) :
    Unique (t.sweep g) ∧ ∀ k, (t.sweep g).lookup k = (t.lookup k).bind (g k) := by
  have hget : ∀ (j : ℕ) (s : Slot κ α), s.active = true → ((t.sweep g)[j]? = some s ↔
      ∃ v, t[j]? = some ⟨s.key, v, true⟩ ∧ g s.key v = some s.val) := by
    intro j s ha
    rw [sweep, List.getElem?_map, Option.map_eq_some_iff]
    constructor
    · rintro ⟨s', hj, rfl⟩
      split_ifs at ha ⊢ with ha'
      · cases hg : g s'.key s'.val with
        | none => simp [hg] at ha
        | some v =>
          simp only
          exact ⟨s'.val, by rw [hj, ← ha'], hg⟩
      · exact absurd ha ha'
    · rintro ⟨v, hj, hg⟩
      refine ⟨_, hj, ?_⟩
      simp only [if_true, hg]
      rw [← ha]
  have hu : Unique (t.sweep g) := by
    intro a b s s' hsa hsb ha hb he
    obtain ⟨v, hv, -⟩ := (hget a s ha).mp hsa
    obtain ⟨w, hw, -⟩ := (hget b s' hb).mp hsb
    exact h a b _ _ hv hw rfl rfl he
  refine ⟨hu, fun k => ?_⟩
  cases hl : t.lookup k with
  | none =>
    rw [Option.bind_none, lookup_eq_none_iff]
    intro j s hj ha hk
    obtain ⟨v, hv, -⟩ := (hget j s ha).mp hj
    exact lookup_eq_none_iff.mp hl j _ hv rfl hk
  | some v =>
    obtain ⟨i, s, hi, ha, rfl, rfl⟩ := lookup_some hl
    rw [Option.bind_some]
    cases hg : g s.key s.val with
    | some w =>
      refine hu.lookup (i := i) (s := ⟨s.key, w, true⟩) ?_ rfl
      exact (hget i ⟨s.key, w, true⟩ rfl).mpr ⟨s.val, by rw [hi, ← ha], hg⟩
    | none =>
      rw [lookup_eq_none_iff]
      intro j s' hj ha' hk
      obtain ⟨v, hv, hg'⟩ := (hget j s' ha').mp hj
      obtain rfl := h i j s _ hi hv ha rfl hk.symm
      rw [hi] at hv
      obtain rfl := Option.some.inj hv
      simp [hg] at hg'

omit [DecidableEq κ] in
lemma length_store (t : SlotTable κ α) (i : ℕ) (k : κ) (v : α) : (t.store i k v).length = t.length :=
  List.length_set

lemma length_put (t : SlotTable κ α) (k : κ) (v : α) : (t.put k v).length = t.length := by
  rw [put]
  cases t.find k with
  | some i => exact length_store t i k v
  | none =>
    cases t.free with
    | some i => exact length_store t i k v
    | none => rfl

lemma length_release (t : SlotTable κ α) (k : κ) : (t.release k).length = t.length := by
  rw [release]
  cases t.find k with
  | some i => exact List.length_modify ..
  | none => rfl

/-- A table with more slots than keys in use has a free one. -/
lemma hasFree_of_card {t : SlotTable κ α} (h : Unique t) (ks : Finset κ)
    (hks : ∀ k, t.lookup k ≠ none → k ∈ ks) (hc : ks.card < t.length) : HasFree t := by
  by_contra hfull
  have hactive : ∀ i : Fin t.length, t[i].active = true := by
    intro i
    cases ha : t[i].active with
    | true => rfl
    | false => exact absurd ⟨t[i], List.getElem_mem i.isLt, ha⟩ hfull
  have hget : ∀ i : Fin t.length, t[i.val]? = some t[i] := fun i => List.getElem?_eq_getElem i.isLt
  have hle : (Finset.univ : Finset (Fin t.length)).card ≤ ks.card := by
    apply Finset.card_le_card_of_injOn fun i => t[i].key
    · intro i _
      apply hks
      rw [h.lookup (hget i) (hactive i)]
      simp
    · intro i _ j _ he
      exact Fin.ext (h i j _ _ (hget i) (hget j) (hactive i) (hactive j) he)
  rw [Finset.card_univ, Fintype.card_fin] at hle
  omega

end SlotTable

end HyBBX.Lib
