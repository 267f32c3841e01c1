import Mathlib.Data.List.TakeWhile
import Mathlib.Tactic

/-! The words of a line: what stands between separators. -/

namespace HyBBX.Lib

variable {α : Type*} {p : α → Bool}

def wordsOf (p : α → Bool) (line : List α) : List (List α) := (line.splitOnP p).filter (· ≠ [])

lemma plain_of_mem_splitOnP {line piece : List α} (h : piece ∈ line.splitOnP p) : ∀ b ∈ piece, p b = false := by
  induction line generalizing piece with
  | nil =>
    obtain rfl : piece = [] := by simpa using h
    rintro b ⟨⟩
  | cons a line ih =>
    rw [List.splitOnP_cons_eq_if_modifyHead] at h
    split_ifs at h with ha
    · rcases List.mem_cons.mp h with rfl | h
      · rintro b ⟨⟩
      · exact ih h
    · cases hs : line.splitOnP p with
      | nil => exact absurd hs (List.splitOnP_ne_nil p line)
      | cons first pieces =>
        rw [hs] at ih h
        rcases List.mem_cons.mp h with rfl | h
        · exact List.forall_mem_cons.mpr ⟨by simpa using ha, ih List.mem_cons_self⟩
        · exact ih (List.mem_cons_of_mem first h)

/-- A word is not empty and has no separator in it. -/
lemma plain_of_mem_wordsOf {line word : List α} (h : word ∈ wordsOf p line) : word ≠ [] ∧ ∀ b ∈ word, p b = false := by
  obtain ⟨hpiece, hne⟩ := List.mem_filter.mp h
  exact ⟨by simpa using hne, plain_of_mem_splitOnP hpiece⟩

lemma wordsOf_nil : wordsOf p [] = [] := rfl

lemma wordsOf_separator {b : α} (hb : p b = true) (line : List α) : wordsOf p (b :: line) = wordsOf p line := by
  rw [wordsOf, List.splitOnP_cons_eq_if_modifyHead, if_pos hb, List.filter_cons_of_neg (by simp)]
  rfl

lemma wordsOf_separators {seps : List α} (hseps : ∀ b ∈ seps, p b = true) (line : List α) :
    wordsOf p (seps ++ line) = wordsOf p line := by
  induction seps with
  | nil => rfl
  | cons b seps ih =>
    rw [List.cons_append, wordsOf_separator (hseps b List.mem_cons_self)]
    exact ih fun c hc => hseps c (List.mem_cons_of_mem b hc)

lemma wordsOf_dropWhile (line : List α) : wordsOf p (line.dropWhile p) = wordsOf p line := by
  conv_rhs => rw [← List.takeWhile_append_dropWhile (p := p) (l := line)]
  rw [wordsOf_separators fun b hb => List.mem_takeWhile_imp hb]

lemma wordsOf_word {word : List α} (hne : word ≠ []) (hword : ∀ b ∈ word, p b = false) {rest : List α}
    (hrest : ∀ b ∈ rest.head?, p b = true) : wordsOf p (word ++ rest) = word :: wordsOf p rest := by
  cases rest with
  | nil => rw [wordsOf, List.append_nil, List.splitOnP_eq_singleton hword, List.filter_cons_of_pos (by simpa using hne)]; rfl
  | cons b rest =>
    have hb : p b = true := hrest b rfl
    rw [wordsOf, List.splitOnP_append_cons_of_forall_mem hword b hb, List.filter_cons_of_pos (by simpa using hne),
      wordsOf_separator hb]
    rfl

/-- The first word of a line is determined by the line. -/
lemma word_unique {word word' rest rest' : List α} (hword : ∀ b ∈ word, p b = false) (hword' : ∀ b ∈ word', p b = false)
    (hrest : ∀ b ∈ rest.head?, p b = true) (hrest' : ∀ b ∈ rest'.head?, p b = true)
    (h : word ++ rest = word' ++ rest') :
    word = word' := by
  have htake : ∀ {w r : List α}, (∀ b ∈ w, p b = false) → (∀ b ∈ r.head?, p b = true) →
      (w ++ r).takeWhile (fun b => !p b) = w := by
    intro w r hw hr
    rw [List.takeWhile_append_of_pos fun b hb => by simp [hw b hb]]
    cases r with
    | nil => rw [List.takeWhile_nil, List.append_nil]
    | cons b r => rw [List.takeWhile_cons_of_neg (by simp [hr b rfl]), List.append_nil]
  rw [← htake hword hrest, h, htake hword' hrest']

/-- A line without words is all separators; else there is a first word, and a separator or nothing behind it. -/
lemma words_cases (line : List α) : ((∀ b ∈ line, p b = true) ∧ wordsOf p line = []) ∨
    ∃ word rest, line.dropWhile p = word ++ rest ∧ word ≠ [] ∧ (∀ b ∈ word, p b = false) ∧
      (∀ b ∈ rest.head?, p b = true) ∧
      wordsOf p line = word :: wordsOf p rest := by
  cases hline : line.dropWhile p with
  | nil =>
    refine .inl ⟨List.dropWhile_eq_nil_iff.mp hline, ?_⟩
    rw [← wordsOf_dropWhile, hline, wordsOf_nil]
  | cons b more =>
    have hb : p b = false := by
      have := List.head?_dropWhile_not p line
      rw [hline] at this
      simpa using this
    have hsplit := List.takeWhile_append_dropWhile (p := fun c => !p c) (l := b :: more)
    have hne : (b :: more).takeWhile (fun c => !p c) ≠ [] := by
      rw [List.takeWhile_cons_of_pos (by simp [hb])]
      simp
    have hword : ∀ c ∈ (b :: more).takeWhile (fun c => !p c), p c = false := fun c hc => by
      simpa using List.mem_takeWhile_imp hc
    have hrest : ∀ c ∈ ((b :: more).dropWhile fun c => !p c).head?, p c = true := by
      intro c hc
      have := List.head?_dropWhile_not (fun c => !p c) (b :: more)
      rw [Option.mem_def.mp hc] at this
      simpa using this
    refine .inr ⟨_, _, hsplit.symm, hne, hword, hrest, ?_⟩
    rw [← wordsOf_word hne hword hrest, hsplit, ← hline, wordsOf_dropWhile]

end HyBBX.Lib
