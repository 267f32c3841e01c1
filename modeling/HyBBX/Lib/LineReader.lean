import HyBBX.Lib.Numeral
import HyBBX.Lib.Text

/-! Reading a text file line by line through a fixed buffer, and trimming what was read. -/

namespace HyBBX.Lib.LineReader

open Bytes Text Numeral

/-- The pieces `fgets` returns from a buffer of `size` bytes, with room for `k` more in the current one. -/
def fgetsFrom (size : ℕ) : ℕ → Bytes → List Bytes
  | _, [] => []
  | k, b :: bs =>
    if b = nl ∨ k ≤ 1 then [b] :: fgetsFrom size (size - 1) bs
    else match fgetsFrom size (k - 1) bs with
      | [] => [[b]]
      | c :: cs => (b :: c) :: cs

def fgets (size : ℕ) (file : Bytes) : List Bytes := fgetsFrom size (size - 1) file

def trim (s : Bytes) : Bytes := (s.dropWhile isSpace).rdropWhile isSpace

/-- What a line that fits the buffer reads as. -/
lemma fgetsFrom_line (size : ℕ) {k : ℕ} {l : Bytes} (hn : nl ∉ l) (hl : l.length + 1 ≤ k) (rest : Bytes) :
    fgetsFrom size k (l ++ nl :: rest) = (l ++ [nl]) :: fgetsFrom size (size - 1) rest := by
  induction l generalizing k with
  | nil => simp [fgetsFrom]
  | cons b l ih =>
    have hb : b ≠ nl := fun h => hn (h ▸ List.mem_cons_self)
    rw [List.length_cons] at hl
    rw [List.cons_append, fgetsFrom, if_neg (by simp only [hb, false_or]; omega),
      ih (fun h => hn (List.mem_cons_of_mem b h)) (by omega)]
    rfl

lemma fgets_line {size : ℕ} {l : Bytes} (hn : nl ∉ l) (hl : l.length + 1 < size) (rest : Bytes) :
    fgets size (l ++ nl :: rest) = (l ++ [nl]) :: fgets size rest :=
  fgetsFrom_line size hn (by omega) rest

/-- What the first part of a line that fills the buffer reads as. -/
lemma fgetsFrom_full (size : ℕ) {k : ℕ} {l : Bytes} (hn : nl ∉ l) (hl : l.length = k) (hk : 1 ≤ k) (rest : Bytes) :
    fgetsFrom size k (l ++ rest) = l :: fgetsFrom size (size - 1) rest := by
  induction l generalizing k with
  | nil => exact absurd hl (by simp; omega)
  | cons b l ih =>
    have hb : b ≠ nl := fun h => hn (h ▸ List.mem_cons_self)
    rw [List.length_cons] at hl
    rw [List.cons_append, fgetsFrom]
    cases l with
    | nil =>
      rw [List.length_nil] at hl
      rw [if_pos (.inr (by omega)), List.nil_append]
    | cons c l =>
      rw [List.length_cons] at hl
      rw [if_neg (by simp only [hb, false_or]; omega),
        ih (fun h => hn (List.mem_cons_of_mem b h)) (by rw [List.length_cons]; omega) (by omega)]

lemma fgets_full {size : ℕ} {l : Bytes} (hn : nl ∉ l) (hl : l.length + 1 = size) (hpos : 2 ≤ size) (rest : Bytes) :
    fgets size (l ++ rest) = l :: fgets size rest :=
  fgetsFrom_full size hn (by omega) (by omega) rest

lemma flatten_fgetsFrom (size k : ℕ) (file : Bytes) : (fgetsFrom size k file).flatten = file := by
  induction file generalizing k with
  | nil => rfl
  | cons b bs ih =>
    rw [fgetsFrom]
    split_ifs
    · rw [List.flatten_cons, ih, List.singleton_append]
    · have hrest := ih (k - 1)
      split
      · rename_i h
        rw [h] at hrest
        rw [← hrest]
        rfl
      · rename_i c cs h
        rw [h] at hrest
        rw [← hrest]
        rfl

/-- The first piece of a file, and the rest: a piece stops at a newline, at the end of the buffer or of the file. -/
lemma fgetsFrom_cons {size k : ℕ} {file p : Bytes} {ps : List Bytes} (h : fgetsFrom size k file = p :: ps) :
    ∃ rest, file = p ++ rest ∧ ps = fgets size rest ∧ (nl ∈ p ∨ k ≤ p.length ∨ rest = []) := by
  induction file generalizing k p with
  | nil => cases h
  | cons b bs ih =>
    rw [fgetsFrom] at h
    split_ifs at h with hb
    · obtain ⟨rfl, rfl⟩ := List.cons.inj h
      refine ⟨bs, rfl, rfl, ?_⟩
      rcases hb with rfl | hk
      · exact .inl List.mem_cons_self
      · exact .inr (.inl hk)
    · cases hr : fgetsFrom size (k - 1) bs with
      | nil =>
        rw [hr] at h
        obtain ⟨rfl, rfl⟩ := List.cons.inj h
        have hnil : bs = [] := by
          rw [← flatten_fgetsFrom size (k - 1) bs, hr]
          rfl
        exact ⟨[], by rw [hnil]; rfl, rfl, .inr (.inr rfl)⟩
      | cons c cs =>
        rw [hr] at h
        obtain ⟨rfl, rfl⟩ := List.cons.inj h
        obtain ⟨rest, hfile, hps, hend⟩ := ih hr
        refine ⟨rest, by rw [hfile]; rfl, hps, ?_⟩
        rcases hend with hn | hlen | hnil
        · exact .inl (List.mem_cons_of_mem b hn)
        · exact .inr (.inl (by rw [List.length_cons]; omega))
        · exact .inr (.inr hnil)

lemma ne_nil_of_mem_fgets {size k : ℕ} {file p : Bytes} (h : p ∈ fgetsFrom size k file) : p ≠ [] := by
  induction file generalizing k p with
  | nil => cases h
  | cons b bs ih =>
    rw [fgetsFrom] at h
    split_ifs at h
    · rcases List.mem_cons.mp h with rfl | h
      · simp
      · exact ih h
    · split at h
      · rw [List.mem_singleton.mp h]
        simp
      · rename_i c cs hc
        rcases List.mem_cons.mp h with rfl | h
        · simp
        · exact ih (hc ▸ List.mem_cons_of_mem c h)

lemma subset_of_mem_fgets {size : ℕ} {file p : Bytes} (h : p ∈ fgets size file) : p ⊆ file := by
  intro b hb
  rw [← flatten_fgetsFrom size (size - 1) file]
  exact List.mem_flatten_of_mem h hb

/-- A newline ends the piece it is in. -/
lemma fgetsFrom_newline (size k : ℕ) (file : Bytes) {c : Bytes} (hc : c ∈ fgetsFrom size k file) :
    ∃ l, nl ∉ l ∧ (c = l ∨ c = l ++ [nl]) := by
  induction file generalizing k c with
  | nil => cases hc
  | cons b bs ih =>
    rw [fgetsFrom] at hc
    split_ifs at hc with h
    · rcases List.mem_cons.mp hc with rfl | hc
      · by_cases hb : b = nl
        · exact ⟨[], by simp, .inr (by rw [hb]; rfl)⟩
        · exact ⟨[b], by simpa using Ne.symm hb, .inl rfl⟩
      · exact ih _ hc
    · have hb : b ≠ nl := fun h0 => h (.inl h0)
      split at hc
      · obtain rfl : c = [b] := by simpa using hc
        exact ⟨[b], by simpa using Ne.symm hb, .inl rfl⟩
      · rename_i d ds hd
        rcases List.mem_cons.mp hc with rfl | hc
        · obtain ⟨l, hl, hcase⟩ := ih (k - 1) (hd ▸ List.mem_cons_self)
          refine ⟨b :: l, by simpa using ⟨Ne.symm hb, hl⟩, ?_⟩
          rcases hcase with rfl | rfl
          · exact .inl rfl
          · exact .inr rfl
        · exact ih (k - 1) (hd ▸ List.mem_cons_of_mem d hc)

lemma rdropWhile_append_of_last {p : UInt8 → Bool} {a : Bytes} (ha : ∀ b ∈ a.getLast?, p b = false) (x : Bytes) :
    (a ++ x).rdropWhile p = a ++ x.rdropWhile p := by
  induction x using List.reverseRecOn with
  | nil => simpa using rdropWhile_of_last ha
  | append_singleton x b ih =>
    rw [← List.append_assoc, List.rdropWhile_concat, List.rdropWhile_concat]
    split_ifs
    · exact ih
    · rw [List.append_assoc]

lemma dropWhile_rdropWhile (p : UInt8 → Bool) (x : Bytes) :
    (x.rdropWhile p).dropWhile p = (x.dropWhile p).rdropWhile p := by
  induction x using List.reverseRecOn with
  | nil => rfl
  | append_singleton x b ih =>
    rw [List.rdropWhile_concat, List.dropWhile_append]
    by_cases hb : p b = true
    · rw [if_pos hb, ih]
      cases hx : x.dropWhile p with
      | nil => simp [hb]
      | cons c cs => rw [List.isEmpty_cons, if_neg (by simp), List.rdropWhile_concat, if_pos hb]
    · rw [if_neg hb, List.dropWhile_append]
      cases hx : x.dropWhile p with
      | nil => simp [List.rdropWhile, hb]
      | cons c cs => rw [List.isEmpty_cons, if_neg (by simp), List.rdropWhile_concat, if_neg hb]

lemma trim_rdropWhile (x : Bytes) : trim (x.rdropWhile isSpace) = trim x := by
  rw [trim, dropWhile_rdropWhile, trim, List.rdropWhile_idempotent]

lemma trim_append_nl (x : Bytes) : trim (x ++ [nl]) = trim x := by
  rw [← trim_rdropWhile, List.rdropWhile_concat, if_pos (by decide), trim_rdropWhile]

lemma trim_cons_blank (x : Bytes) : trim (blank :: x) = trim x := by
  rw [trim, List.dropWhile_cons_of_pos (by decide)]
  rfl

/-- No white space at either end. -/
def Trimmed (s : Bytes) : Prop := (∀ b ∈ s.head?, isSpace b = false) ∧ ∀ b ∈ s.getLast?, isSpace b = false

lemma trim_of_trimmed {s : Bytes} (h : Trimmed s) : trim s = s := by
  rw [trim, dropWhile_of_head h.1, rdropWhile_of_last h.2]

lemma head_dropWhile {p : UInt8 → Bool} {s : Bytes} {b : UInt8} (h : b ∈ (s.dropWhile p).head?) : p b = false := by
  have := List.head?_dropWhile_not p s
  rw [Option.mem_def.mp h] at this
  simpa using this

lemma trimmed_trim (s : Bytes) : Trimmed (trim s) := by
  constructor
  · intro b hb
    rw [trim, ← dropWhile_rdropWhile] at hb
    exact head_dropWhile hb
  · intro b hb
    rw [trim, List.rdropWhile, List.getLast?_reverse] at hb
    exact head_dropWhile hb

lemma trim_subset (s : Bytes) : trim s ⊆ s :=
  List.Subset.trans (List.rdropWhile_prefix _ _).subset (List.dropWhile_suffix _).subset

lemma trim_length_le (s : Bytes) : (trim s).length ≤ s.length :=
  le_trans (List.rdropWhile_prefix _ _).length_le (List.dropWhile_suffix _).length_le

lemma trim_eq_self_iff (s : Bytes) : trim s = s ↔ Trimmed s :=
  ⟨fun h => h ▸ trimmed_trim s, trim_of_trimmed⟩

/-- A piece read from a file holds no newline once it is trimmed. -/
lemma nl_notMem_trim_piece {size : ℕ} {file c : Bytes} (hc : c ∈ fgets size file) : nl ∉ trim (cstr c) := by
  obtain ⟨l, hl, rfl | rfl⟩ := fgetsFrom_newline size (size - 1) file hc
  · exact fun h => hl ((List.takeWhile_subset _) (trim_subset _ h))
  · by_cases h0 : (0 : UInt8) ∈ l
    · have hcut : cstr (l ++ [nl]) = cstr l := by
        rw [cstr, List.takeWhile_append, if_neg]
        · rfl
        · intro hlen
          have := List.takeWhile_eq_self_iff.mp ((List.takeWhile_prefix _).eq_of_length hlen) 0 h0
          simp at this
      rw [hcut]
      exact fun h => hl ((List.takeWhile_subset _) (trim_subset _ h))
    · rw [cstr_of_notMem (by simpa using ⟨h0, by decide⟩), trim_append_nl]
      exact fun h => hl (trim_subset _ h)

end HyBBX.Lib.LineReader
