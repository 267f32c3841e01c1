import HyBBX.Lib.Bytes

/-! Text held in byte buffers: lines, `key=value` lines, bounded copies, letter case. -/

namespace HyBBX.Lib.Text

open Bytes

abbrev nl : UInt8 := 0x0A
abbrev cr : UInt8 := 0x0D
abbrev blank : UInt8 := 0x20
abbrev tab : UInt8 := 0x09
abbrev equals : UInt8 := 0x3D

/-- The lines of a buffer; a final newline does not open another line. -/
def lines : Bytes → List Bytes
  | [] => []
  | b :: bs =>
    if b = nl then [] :: lines bs
    else match lines bs with
      | [] => [[b]]
      | l :: ls => (b :: l) :: ls

lemma lines_append_nl {l : Bytes} (hl : nl ∉ l) (rest : Bytes) :
    lines (l ++ nl :: rest) = l :: lines rest := by
  induction l with
  | nil => simp [lines]
  | cons b l ih =>
    have hb : b ≠ nl := fun h => hl (h ▸ List.mem_cons_self)
    have hr := ih fun h => hl (List.mem_cons_of_mem b h)
    simp only [List.cons_append, lines, if_neg hb, hr]

lemma lines_of_notMem {l : Bytes} (hl : nl ∉ l) (hne : l ≠ []) : lines l = [l] := by
  induction l with
  | nil => exact absurd rfl hne
  | cons b l ih =>
    have hb : b ≠ nl := fun h => hl (h ▸ List.mem_cons_self)
    cases l with
    | nil => simp [lines, hb]
    | cons c l =>
      have hr := ih (fun h => hl (List.mem_cons_of_mem b h)) (by simp)
      rw [lines, if_neg hb, hr]

lemma nl_notMem_of_mem_lines {s l : Bytes} (h : l ∈ lines s) : nl ∉ l := by
  induction s generalizing l with
  | nil => simp [lines] at h
  | cons b s ih =>
    rw [lines] at h
    split at h
    · rcases List.mem_cons.mp h with rfl | h
      · simp
      · exact ih h
    · rename_i hb
      split at h
      · obtain rfl : l = [b] := by simpa using h
        simpa using Ne.symm hb
      · rename_i k ks hk
        rcases List.mem_cons.mp h with rfl | h
        · have hn := ih (l := k) (hk ▸ List.mem_cons_self)
          simpa using ⟨Ne.symm hb, hn⟩
        · exact ih (hk ▸ List.mem_cons_of_mem k h)

/-- Bounded string copy into a buffer of `size` bytes. -/
def strlcpy (size : ℕ) (src : Bytes) : Bytes := src.take (size - 1)

lemma strlcpy_of_fits {size : ℕ} {src : Bytes} (h : src.length < size) : strlcpy size src = src :=
  List.take_of_length_le (by omega)

/-- Formatted output after what a buffer of `cap` bytes already holds; `none` when it is cut. -/
def snappend (cap : ℕ) (acc piece : Bytes) : Option Bytes :=
  if cap ≤ acc.length + piece.length then none else some (acc ++ piece)

def isTrailing (b : UInt8) : Bool := b = cr || b = nl || b = blank

/-- The value of a line `key=value`, without trailing CR, LF and blanks, as the string that a scratch
buffer of `scratchLen` bytes then holds. -/
def kvLine (key : Bytes) (scratchLen : ℕ) (line : Bytes) : Option Bytes :=
  if equals ∈ line ∧ line.takeWhile (· ≠ equals) = key then
    some (cstr (((line.dropWhile (· ≠ equals)).tail.rdropWhile isTrailing).take (scratchLen - 1)))
  else none

/-- The first line with the key decides. -/
def findKvLine (payload key : Bytes) (scratchLen : ℕ) : Option Bytes :=
  (lines payload).findSome? (kvLine key scratchLen)

lemma takeWhile_equals {key : Bytes} (hk : equals ∉ key) (value : Bytes) :
    (key ++ equals :: value).takeWhile (· ≠ equals) = key := by
  induction key with
  | nil => simp
  | cons b key ih =>
    have hb : b ≠ equals := fun h => hk (h ▸ List.mem_cons_self)
    have hr := ih fun h => hk (List.mem_cons_of_mem b h)
    rw [List.cons_append, List.takeWhile_cons_of_pos (by simpa using hb), hr]

lemma dropWhile_equals {key : Bytes} (hk : equals ∉ key) (value : Bytes) :
    (key ++ equals :: value).dropWhile (· ≠ equals) = equals :: value := by
  induction key with
  | nil => simp
  | cons b key ih =>
    have hb : b ≠ equals := fun h => hk (h ▸ List.mem_cons_self)
    have hr := ih fun h => hk (List.mem_cons_of_mem b h)
    rw [List.cons_append, List.dropWhile_cons_of_pos (by simpa using hb), hr]

/-- A value that neither overflows the scratch buffer nor loses trailing bytes. -/
def PlainValue (scratchLen : ℕ) (v : Bytes) : Prop :=
  nl ∉ v ∧ 0 ∉ v ∧ v.length < scratchLen ∧ ∀ b ∈ v.getLast?, isTrailing b = false

instance (scratchLen : ℕ) (v : Bytes) : Decidable (PlainValue scratchLen v) :=
  inferInstanceAs (Decidable (nl ∉ v ∧ 0 ∉ v ∧ v.length < scratchLen ∧ ∀ b ∈ v.getLast?, isTrailing b = false))

lemma rdropWhile_of_last {p : UInt8 → Bool} {v : Bytes} (h : ∀ b ∈ v.getLast?, p b = false) :
    v.rdropWhile p = v := by
  rcases List.eq_nil_or_concat v with rfl | ⟨u, b, rfl⟩
  · simp
  · have hb : p b = false := h b (by simp)
    simp [hb]

lemma dropWhile_of_head {p : UInt8 → Bool} {s : Bytes} (h : ∀ b ∈ s.head?, p b = false) : s.dropWhile p = s := by
  cases s with
  | nil => rfl
  | cons b s => exact List.dropWhile_cons_of_neg (by simp [h b rfl])

lemma kvLine_hit {key value : Bytes} {scratchLen : ℕ} (hk : equals ∉ key)
    (hv : PlainValue scratchLen value) : kvLine key scratchLen (key ++ equals :: value) = some value := by
  obtain ⟨_, hv0, hvl, hve⟩ := hv
  rw [kvLine, if_pos ⟨by simp, takeWhile_equals hk value⟩, dropWhile_equals hk, List.tail_cons,
    rdropWhile_of_last hve, List.take_of_length_le (by omega), cstr_of_notMem hv0]

lemma kvLine_skip {key other value : Bytes} {scratchLen : ℕ} (hk : equals ∉ other) (hne : other ≠ key) :
    kvLine key scratchLen (other ++ equals :: value) = none := by
  rw [kvLine, if_neg]
  rintro ⟨_, h⟩
  exact hne ((takeWhile_equals hk value).symm.trans h)

lemma nl_notMem_kv {key value : Bytes} (hk : nl ∉ key) (hv : nl ∉ value) : nl ∉ key ++ equals :: value := by
  simp only [List.mem_append, List.mem_cons, not_or]
  exact ⟨hk, by decide, hv⟩

lemma findKvLine_hit {key value : Bytes} {scratchLen : ℕ} (hk : equals ∉ key) (hn : nl ∉ key)
    (hv : PlainValue scratchLen value) (rest : Bytes) :
    findKvLine (key ++ equals :: value ++ nl :: rest) key scratchLen = some value := by
  rw [findKvLine, lines_append_nl (nl_notMem_kv hn hv.1), List.findSome?_cons, kvLine_hit hk hv]

lemma findKvLine_skip {key other value : Bytes} {scratchLen : ℕ} (hk : equals ∉ other) (hn : nl ∉ other)
    (hv : nl ∉ value) (hne : other ≠ key) (rest : Bytes) :
    findKvLine (other ++ equals :: value ++ nl :: rest) key scratchLen =
      findKvLine rest key scratchLen := by
  rw [findKvLine, lines_append_nl (nl_notMem_kv hn hv), List.findSome?_cons, kvLine_skip hk hne]
  rfl

lemma findKvLine_string {payload key value : Bytes} {scratchLen : ℕ}
    (h : findKvLine payload key scratchLen = some value) : nl ∉ value ∧ 0 ∉ value := by
  obtain ⟨line, hl, hv⟩ := List.exists_of_findSome?_eq_some h
  have hn := nl_notMem_of_mem_lines hl
  rw [kvLine] at hv
  split at hv
  · obtain rfl := Option.some.inj hv
    refine ⟨fun hm => hn ?_, zero_notMem_cstr _⟩
    have h1 := List.mem_of_mem_take (List.takeWhile_subset _ hm)
    have h2 := List.mem_of_mem_tail ((List.rdropWhile_prefix isTrailing _).subset h1)
    exact (List.dropWhile_suffix _).subset h2
  · simp at hv

/-- ASCII case-insensitive equality. -/
def lower (b : UInt8) : UInt8 := if 0x41 ≤ b ∧ b ≤ 0x5A then b + 0x20 else b

lemma lower_lower (b : UInt8) : lower (lower b) = lower b := by
  revert b
  apply forall_byte
  decide +kernel

def strIeq (a b : Bytes) : Bool := a.map lower = b.map lower

end HyBBX.Lib.Text

/-! Strings in fixed buffers: NUL-free and shorter than the buffer by construction. -/

namespace HyBBX.Lib

open Bytes Text

structure CText (size : ℕ) where
  text : Bytes
  string : 0 ∉ text
  fits : text.length < size
  deriving DecidableEq

-- the usual sizes, so that a copy into one of them has no proof of its own
instance neZero32 : NeZero 32 := ⟨by decide⟩
instance neZero64 : NeZero 64 := ⟨by decide⟩
instance neZero96 : NeZero 96 := ⟨by decide⟩
instance neZero128 : NeZero 128 := ⟨by decide⟩

namespace CText

variable {size : ℕ}

@[ext] lemma ext {a b : CText size} (h : a.text = b.text) : a = b := by
  cases a
  cases b
  simp_all

/-- A bounded copy of the string in a buffer. -/
def copy [NeZero size] (src : Bytes) : CText size where
  text := strlcpy size (cstr src)
  string h := zero_notMem_cstr src (List.mem_of_mem_take h)
  fits := by
    rw [strlcpy, List.length_take]
    have h := NeZero.pos size
    omega

lemma copy_text [NeZero size] {src : Bytes} (h0 : 0 ∉ src) (hl : src.length < size) :
    (copy src : CText size).text = src := by
  have hcopy : (copy src : CText size).text = strlcpy size (cstr src) := rfl
  rw [hcopy, cstr_of_notMem h0, strlcpy_of_fits hl]

lemma copy_self [NeZero size] (t : CText size) : copy t.text = t := CText.ext (copy_text t.string t.fits)

def empty [NeZero size] : CText size := ⟨[], by simp, NeZero.pos size⟩

lemma lower_ne_zero {b : UInt8} (h : b ≠ 0) : Text.lower b ≠ 0 := by
  rw [Text.lower]
  split_ifs with hb
  · intro h0
    have h1 := UInt8.le_iff_toNat_le.mp hb.1
    have h2 := UInt8.le_iff_toNat_le.mp hb.2
    have h3 := congrArg UInt8.toNat h0
    rw [UInt8.toNat_add] at h3
    simp only [UInt8.toNat_ofNat] at h1 h2 h3
    omega
  · exact h

/-- The string in lower case, in place. -/
def lower (t : CText size) : CText size where
  text := t.text.map Text.lower
  string h := by
    obtain ⟨b, hb, h0⟩ := List.mem_map.mp h
    exact lower_ne_zero (fun hb0 => t.string (hb0 ▸ hb)) h0
  fits := by
    rw [List.length_map]
    exact t.fits

end CText

end HyBBX.Lib
