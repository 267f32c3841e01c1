import HyBBX.Lib.Numeral

/-! Conversions of `scanf`: each reads a prefix of its input and hands on the rest. -/

namespace HyBBX.Lib.Scan

open Bytes Text Numeral

/-- `%llu`. -/
def ulong (s : Bytes) : Option (ℕ × Bytes) := if (strtoul s).2 = s then none else some (strtoul s)

/-- `%lld`. -/
def long (s : Bytes) : Option (ℤ × Bytes) := if (strtoul s).2 = s then none else some (strtol s, (strtoul s).2)

/-- A character of the format itself. -/
def literal (c : UInt8) : Bytes → Option Bytes
  | [] => none
  | b :: s => if b = c then some s else none

/-- `%n[^c]`. -/
def upTo (c : UInt8) (n : ℕ) (s : Bytes) : Option (Bytes × Bytes) :=
  let t := (s.take n).takeWhile (· ≠ c)
  if t = [] then none else some (t, s.drop t.length)

/-- The fields behind their separators, until one cannot be read. -/
def fields (c : UInt8) : List ℕ → Bytes → List Bytes
  | [], _ => []
  | n :: ns, s =>
    match literal c s with
    | none => []
    | some s =>
      match upTo c n s with
      | none => []
      | some (t, rest) => t :: fields c ns rest

lemma ne_of_digits {ds rest : Bytes} (h : ds ≠ []) : rest ≠ ds ++ rest := by
  intro he
  exact h (List.self_eq_append_left.mp he)

lemma ulong_decimal {n : ℕ} (h : n < 2 ^ 64) {rest : Bytes} (hr : ∀ b ∈ rest.head?, isDigit b = false) :
    ulong (decimal n ++ rest) = some (n, rest) := by
  rw [ulong, strtoul_decimal h rest hr, if_neg (ne_of_digits (decimal_ne_nil n))]

lemma long_decimalInt {n : ℤ} (hlo : -2 ^ 63 ≤ n) (hhi : n < 2 ^ 63) {rest : Bytes}
    (hr : ∀ b ∈ rest.head?, isDigit b = false) : long (decimalInt n ++ rest) = some (n, rest) := by
  have hne : decimalInt n ≠ [] := by
    rw [decimalInt]
    split
    · simp
    · exact decimal_ne_nil _
  rw [long, strtoul_decimalInt hlo hhi hr, if_neg (ne_of_digits hne), strtol_decimalInt_append hlo hhi hr]

lemma literal_cons (c : UInt8) (s : Bytes) : literal c (c :: s) = some s := if_pos rfl

/-- A separator follows, or nothing. -/
def Ends (c : UInt8) (rest : Bytes) : Prop := ∀ b ∈ rest.head?, b = c

lemma upTo_text {c : UInt8} {n : ℕ} {t rest : Bytes} (hc : c ∉ t) (hl : t.length ≤ n) (hr : Ends c rest) :
    upTo c n (t ++ rest) = if t = [] then none else some (t, rest) := by
  have hstop : (rest.take (n - t.length)).takeWhile (· ≠ c) = [] := by
    cases rest with
    | nil => simp
    | cons b rest =>
      obtain rfl : b = c := hr b rfl
      cases n - t.length with
      | zero => rfl
      | succ k => simp
  have htext : ((t ++ rest).take n).takeWhile (· ≠ c) = t := by
    have hall : ∀ b ∈ t, decide (b ≠ c) = true := by
      intro b hb
      rw [decide_eq_true_eq]
      rintro rfl
      exact hc hb
    rw [List.take_append, List.take_of_length_le hl, List.takeWhile_append_of_pos hall, hstop, List.append_nil]
  rw [upTo, htext, List.drop_left]

lemma ends_fields (c : UInt8) (ts : List Bytes) : Ends c (ts.flatMap (c :: ·)) := by
  cases ts with
  | nil =>
    intro b hb
    cases hb
  | cons t ts =>
    intro b hb
    exact (Option.some.inj hb).symm

/-- The fields of a written list are those in front of the first empty one. -/
lemma fields_flatMap {c : UInt8} {ns : List ℕ} {ts : List Bytes}
    (h : List.Forall₂ (fun n t => c ∉ t ∧ t.length ≤ n) ns ts) :
    fields c ns (ts.flatMap (c :: ·)) = ts.takeWhile (· ≠ []) := by
  induction h with
  | nil => rfl
  | @cons n t ns ts ht hrest ih =>
    rw [List.flatMap_cons, List.cons_append, fields, literal_cons]
    dsimp only
    rw [upTo_text ht.1 ht.2 (ends_fields c ts)]
    cases t with
    | nil => rfl
    | cons b t =>
      rw [if_neg (List.cons_ne_nil b t), List.takeWhile_cons_of_pos (by simp)]
      dsimp only
      rw [ih]

end HyBBX.Lib.Scan
