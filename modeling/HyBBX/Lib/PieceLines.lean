import HyBBX.Lib.LineReader

/-! The lines of a text that was put together from pieces, and what is left of a text when some pieces are not written. -/

namespace HyBBX.Lib.PieceLines

open Bytes Text

/-- The lines of a text, each with its newline. -/
def rawLines : Bytes → List Bytes
  | [] => []
  | b :: bs =>
    if b = nl then [nl] :: rawLines bs
    else match rawLines bs with
      | [] => [[b]]
      | l :: ls => (b :: l) :: ls

/-- What gets into a file when writing `k`, `k + 1`, … succeed as told. -/
def written (put : ℕ → Bool) : ℕ → List Bytes → List Bytes
  | _, [] => []
  | k, p :: ps => if put k then p :: written put (k + 1) ps else written put (k + 1) ps

/-- A piece ends its line or leaves it open. -/
def Closed (p : Bytes) : Prop := ∃ l, nl ∉ l ∧ p = l ++ [nl]

def Open (p : Bytes) : Prop := nl ∉ p ∧ p ≠ []

section Lines

lemma flatten_rawLines (text : Bytes) : (rawLines text).flatten = text := by
  induction text with
  | nil => rfl
  | cons b bs ih =>
    rw [rawLines]
    split_ifs with hb
    · rw [List.flatten_cons, ih, hb, List.singleton_append]
    · split
      · rename_i h
        rw [h] at ih
        rw [← ih]
        rfl
      · rename_i l ls h
        rw [h] at ih
        rw [← ih]
        rfl

lemma ne_nil_of_mem_rawLines {text l : Bytes} (h : l ∈ rawLines text) : l ≠ [] := by
  induction text generalizing l with
  | nil => cases h
  | cons b bs ih =>
    rw [rawLines] at h
    split_ifs at h
    · rcases List.mem_cons.mp h with rfl | h
      · simp
      · exact ih h
    · split at h
      · rw [List.mem_singleton.mp h]
        simp
      · rename_i k ks hk
        rcases List.mem_cons.mp h with rfl | h
        · simp
        · exact ih (hk ▸ List.mem_cons_of_mem k h)

lemma rawLines_closed {p : Bytes} (hp : Closed p) (rest : Bytes) : rawLines (p ++ rest) = p :: rawLines rest := by
  obtain ⟨l, hl, rfl⟩ := hp
  induction l with
  | nil => rfl
  | cons b l ih =>
    have hb : b ≠ nl := fun h => hl (h ▸ List.mem_cons_self)
    have hr := ih fun h => hl (List.mem_cons_of_mem b h)
    rw [List.cons_append, List.cons_append, rawLines, if_neg hb, hr]

/-- What follows an open piece goes on with its line. -/
lemma rawLines_open {p : Bytes} (hp : Open p) (rest : Bytes) :
    rawLines (p ++ rest) = match rawLines rest with | [] => [p] | l :: ls => (p ++ l) :: ls := by
  obtain ⟨hn, hne⟩ := hp
  induction p with
  | nil => exact absurd rfl hne
  | cons b p ih =>
    have hb : b ≠ nl := fun h => hn (h ▸ List.mem_cons_self)
    rw [List.cons_append, rawLines, if_neg hb]
    cases p with
    | nil =>
      rw [List.nil_append]
      cases rawLines rest <;> rfl
    | cons c p =>
      rw [ih (fun h => hn (List.mem_cons_of_mem b h)) (by simp)]
      cases rawLines rest <;> rfl

lemma rawLines_append {a : Bytes} (ha : a = [] ∨ a.getLast? = some nl) (rest : Bytes) :
    rawLines (a ++ rest) = rawLines a ++ rawLines rest := by
  induction a with
  | nil => rfl
  | cons b a ih =>
    have htail : a = [] ∨ a.getLast? = some nl := by
      cases a with
      | nil => exact .inl rfl
      | cons c a => exact .inr (by simpa using ha)
    rw [List.cons_append, rawLines, rawLines, ih htail]
    split_ifs with hb
    · rfl
    · cases hl : rawLines a with
      | nil =>
        have hnil : a = [] := by
          rw [← flatten_rawLines a, hl]
          rfl
        rw [hnil] at ha
        exact absurd (by simpa using ha) hb
      | cons l ls => rfl

/-- The lines that start with a piece, and behind them all lines of the rest, or all but the first of them. -/
lemma rawLines_pieces {P : Bytes → Prop} {ps : List Bytes} (hshape : ∀ p ∈ ps, Closed p ∨ Open p)
    (hP : ∀ p ∈ ps, P p ∧ (Open p → ∀ x, P (p ++ x))) (rest : Bytes) :
    (rawLines (ps.flatten ++ rest) = rawLines ps.flatten ++ rawLines rest ∧ ∀ l ∈ rawLines ps.flatten, P l) ∨
      ∃ l ls first others, rawLines rest = first :: others ∧ rawLines (ps.flatten ++ rest) = l :: ls ++ others ∧
        ∀ k ∈ l :: ls, P k := by
  induction ps with
  | nil => exact .inl ⟨rfl, by simp [rawLines]⟩
  | cons p ps ih =>
    obtain ⟨hp, hps⟩ := List.forall_mem_cons.mp hshape
    obtain ⟨⟨hPp, hopen⟩, hPps⟩ := List.forall_mem_cons.mp hP
    rw [List.flatten_cons, List.append_assoc]
    rcases hp with hp | hp
    · rw [rawLines_closed hp, rawLines_closed hp]
      rcases ih hps hPps with ⟨he, hall⟩ | ⟨l, ls, first, others, hrest, he, hall⟩
      · exact .inl ⟨by rw [he, List.cons_append], List.forall_mem_cons.mpr ⟨hPp, hall⟩⟩
      · exact .inr ⟨p, l :: ls, first, others, hrest, by rw [he]; rfl, List.forall_mem_cons.mpr ⟨hPp, hall⟩⟩
    · rw [rawLines_open hp, rawLines_open hp]
      rcases ih hps hPps with ⟨he, hall⟩ | ⟨l, ls, first, others, hrest, he, hall⟩
      · cases hl : rawLines ps.flatten with
        | nil =>
          rw [hl, List.nil_append] at he
          rw [he]
          cases hr : rawLines rest with
          | nil => exact .inl ⟨rfl, by simpa using hPp⟩
          | cons first others =>
            exact .inr ⟨p ++ first, [], first, others, rfl, rfl, by simpa using hopen hp first⟩
        | cons l ls =>
          rw [hl] at he hall
          rw [he]
          obtain ⟨-, hls⟩ := List.forall_mem_cons.mp hall
          exact .inl ⟨rfl, List.forall_mem_cons.mpr ⟨hopen hp l, hls⟩⟩
      · rw [he]
        obtain ⟨-, hls⟩ := List.forall_mem_cons.mp hall
        exact .inr ⟨p ++ l, ls, first, others, hrest, rfl, List.forall_mem_cons.mpr ⟨hopen hp l, hls⟩⟩

end Lines

section Written

variable {put : ℕ → Bool}

lemma written_append (k : ℕ) (ps qs : List Bytes) :
    written put k (ps ++ qs) = written put k ps ++ written put (k + ps.length) qs := by
  induction ps generalizing k with
  | nil => rfl
  | cons p ps ih =>
    rw [List.cons_append, written, written, ih, List.length_cons, Nat.add_right_comm, Nat.add_assoc k]
    split_ifs <;> rfl

lemma written_sublist (k : ℕ) (ps : List Bytes) : (written put k ps).Sublist ps := by
  induction ps generalizing k with
  | nil => exact .slnil
  | cons p ps ih =>
    rw [written]
    split_ifs
    · exact (ih (k + 1)).cons_cons p
    · exact (ih (k + 1)).cons p

lemma written_eq_self_iff {k : ℕ} {ps : List Bytes} : written put k ps = ps ↔ ∀ i < ps.length, put (k + i) = true := by
  induction ps generalizing k with
  | nil => simp [written]
  | cons p ps ih =>
    rw [written]
    constructor
    · intro h i hi
      split_ifs at h with hk
      · cases i with
        | zero => exact hk
        | succ i =>
          have := ih.mp (List.cons.inj h).2 i (by simpa using hi)
          rwa [Nat.add_right_comm] at this
      · have hlen := (@written_sublist put (k + 1) ps).length_le
        rw [h, List.length_cons] at hlen
        omega
    · intro h
      have hk : put k = true := h 0 (by simp)
      rw [if_pos hk, ih.mpr]
      intro i hi
      have := h (i + 1) (by simpa using hi)
      rwa [Nat.add_right_comm]

/-- Nothing is missing from a text whose length is that of all the pieces. -/
lemma sublist_eq_of_length {ps qs : List Bytes} (h : ps.Sublist qs) (hne : ∀ q ∈ qs, q ≠ [])
    (hlen : qs.flatten.length ≤ ps.flatten.length) : ps = qs := by
  induction h with
  | slnil => rfl
  | cons q h ih =>
    exfalso
    have hq := List.length_pos_of_ne_nil (hne q List.mem_cons_self)
    have hle := (h.flatten).length_le
    rw [List.flatten_cons, List.length_append] at hlen
    omega
  | cons_cons q h ih =>
    rw [List.flatten_cons, List.flatten_cons, List.length_append, List.length_append] at hlen
    rw [ih (fun q' hq' => hne q' (List.mem_cons_of_mem q hq')) (by omega)]

end Written

end HyBBX.Lib.PieceLines
