import HyBBX.Mains.Proxymail

/-! Paths of the configuration: the home directory in front, the install root in front, the parent directory. -/

namespace HyBBX.Config

open HyBBX.Core Lib Lib.Bytes Lib.Text FileTree
open Mains (pathMax pathJoin joined sizeOk)
open Mail (pathComponentValid)

def dirData : Bytes := ofString "data"
def tilde : UInt8 := 0x7E

/-- A conversion to `int`. -/
def cInt (n : ℕ) : ℤ := if n % 2 ^ 32 < 2 ^ 31 then n % 2 ^ 32 else n % 2 ^ 32 - 2 ^ 32

/-- What `snprintf` returns for a text of this length. -/
def snprintfResult (total : ℕ) : ℤ := if total < 2 ^ 31 then total else -1

/-- What `hybbx_strlcpy` returns: the length of the copy, not that of the source. -/
def strlcpyResult (size : ℕ) (src : Bytes) : ℕ := if size ≤ src.length then size - 1 else src.length

/-- A copy with the check that every caller makes. -/
def copyPath (outLen : ℕ) (src : Bytes) : Except HybbxResult Bytes :=
  if outLen ≤ strlcpyResult outLen src then .error .errInvalid else .ok (strlcpy outLen src)

def defaultUserDataPath (outLen : ℕ) : Except HybbxResult Bytes :=
  if outLen = 0 then .error .errInvalid else copyPath outLen dirData

/-- NULL and an unset variable are empty strings. -/
def pathExpand (home path : Bytes) (outLen : ℕ) : Except HybbxResult Bytes :=
  if outLen = 0 then .error .errInvalid
  else match path with
    | [] => defaultUserDataPath outLen
    | c :: rest =>
      if c ≠ tilde then copyPath outLen (c :: rest)
      else if rest ≠ [] ∧ rest.head? ≠ some slash then .error .errInvalid
      else if home = [] then
        if rest = [] then defaultUserDataPath outLen else copyPath outLen rest.tail
      else if rest = [] then copyPath outLen home
      else if cInt outLen ≤ snprintfResult (home ++ rest).length then .error .errInvalid
      else .ok ((home ++ rest).take (outLen - 1))

def pathIsAbsolute (path : Bytes) : Bool := path.head? = some slash

def pathResolve (root home path : Bytes) (outLen : ℕ) : Except HybbxResult Bytes :=
  if outLen = 0 then .error .errInvalid
  else match pathExpand home path pathMax with
    | .error rc => .error rc
    | .ok expanded =>
      if pathIsAbsolute expanded then copyPath outLen expanded
      else if root ≠ [] then
        match pathJoin outLen root expanded with
        | none => .error .errInvalid
        | some out => .ok out
      else copyPath outLen expanded

/-- What is in front of the last slash. -/
def beforeSlash (path : Bytes) : Bytes := (path.rdropWhile (· ≠ slash)).dropLast

def pathDirname (path : Bytes) (outLen : ℕ) : Except HybbxResult Bytes :=
  if outLen = 0 then .error .errInvalid
  else match copyPath pathMax path with
    | .error rc => .error rc
    | .ok copy =>
      if slash ∉ copy then copyPath outLen (ofString ".")
      else if beforeSlash copy = [] then copyPath outLen (ofString "/")
      else copyPath outLen (beforeSlash copy)

/-! What the paths are, whatever their length. -/

/-- The rest behind `~` goes behind the home directory. -/
def JoinsHome (home path : Bytes) : Prop := home ≠ [] ∧ path.head? = some tilde ∧ path.tail ≠ []

instance (home path : Bytes) : Decidable (JoinsHome home path) :=
  inferInstanceAs (Decidable (home ≠ [] ∧ path.head? = some tilde ∧ path.tail ≠ []))

/-- Another user's home directory is not known. -/
def expandedPath (home path : Bytes) : Option Bytes :=
  match path with
  | [] => some dirData
  | c :: rest =>
    if c ≠ tilde then some (c :: rest)
    else if rest ≠ [] ∧ rest.head? ≠ some slash then none
    else if home = [] then some (if rest = [] then dirData else rest.tail)
    else some (home ++ rest)

def resolvedPath (root home path : Bytes) : Option Bytes :=
  (expandedPath home path).map fun e => if pathIsAbsolute e ∨ root = [] then e else joined root e

def parentPath (path : Bytes) : Bytes :=
  if slash ∉ path then ofString "." else if beforeSlash path = [] then ofString "/" else beforeSlash path

/-- A call that succeeds leaves the whole path, and one that has no room for it fails. -/
def Complete (result : Except HybbxResult Bytes) (full : Option Bytes) (outLen : ℕ) : Prop :=
  (∀ out, result = .ok out → full = some out) ∧ ∀ p, full = some p → outLen ≤ p.length → result = .error .errInvalid

/-- The check of a copy never fails. -/
lemma copyPath_eq {outLen : ℕ} (h : outLen ≠ 0) (src : Bytes) : copyPath outLen src = .ok (strlcpy outLen src) := by
  rw [copyPath, if_neg]
  rw [strlcpyResult]
  split_ifs <;> omega

lemma strlcpy_eq_self_iff {outLen : ℕ} (h : outLen ≠ 0) {src : Bytes} : strlcpy outLen src = src ↔
    src.length < outLen := by
  rw [strlcpy, List.take_eq_self_iff]
  omega

lemma complete_copy {outLen : ℕ} (h : outLen ≠ 0) (src : Bytes) :
    Complete (copyPath outLen src) (some src) outLen ↔ src.length < outLen := by
  rw [copyPath_eq h, Complete]
  constructor
  · intro hc
    exact (strlcpy_eq_self_iff h).mp (Option.some.inj (hc.1 _ rfl)).symm
  · intro hlt
    constructor
    · intro out ho
      rw [← Except.ok.inj ho, strlcpy_of_fits hlt]
    · intro p hp hle
      obtain rfl := Option.some.inj hp
      omega

lemma complete_error (full : Option Bytes) (outLen : ℕ) : Complete (.error .errInvalid) full outLen :=
  ⟨fun _ h => (nomatch h), fun _ _ _ => rfl⟩

lemma cInt_le (n : ℕ) : cInt n ≤ n := by
  rw [cInt]
  split_ifs <;> omega

/-- Whether a full path survives the call that writes it: through `snprintf` it is checked, up to a length
that an `int` can hold; a copy is not. -/
def Survives (home path : Bytes) (outLen : ℕ) (full : Bytes) : Prop :=
  full.length < outLen ∨ JoinsHome home path ∧ (full.length < 2 ^ 31 ∨ cInt outLen < 0)

def ExpandKeeps (home path : Bytes) (outLen : ℕ) : Prop :=
  outLen = 0 ∨ ∀ full ∈ expandedPath home path, Survives home path outLen full

def ResolveKeeps (root home path : Bytes) (outLen : ℕ) : Prop :=
  outLen = 0 ∨ ∀ e ∈ expandedPath home path,
    if e.length < pathMax then pathIsAbsolute e = true ∨ root = [] → e.length < outLen
    else JoinsHome home path ∧ e.length < 2 ^ 31 ∨
      pathIsAbsolute e = false ∧ root ≠ [] ∧ pathJoin outLen root (e.take (pathMax - 1)) = none

def DirnameKeeps (path : Bytes) (outLen : ℕ) : Prop :=
  outLen = 0 ∨ slash ∉ path.drop (pathMax - 1) ∧ (parentPath path).length < outLen

section Expand

variable {home path : Bytes} {outLen : ℕ}

/-- The call in terms of the full path. -/
lemma pathExpand_eq (h : outLen ≠ 0) : pathExpand home path outLen =
    match expandedPath home path with
    | none => .error .errInvalid
    | some full =>
      if JoinsHome home path ∧ cInt outLen ≤ snprintfResult full.length then .error .errInvalid
      else .ok (full.take (outLen - 1)) := by
  have hdefault : defaultUserDataPath outLen = .ok (dirData.take (outLen - 1)) := by
    rw [defaultUserDataPath, if_neg h, copyPath_eq h, strlcpy]
  rw [pathExpand.eq_def, if_neg h]
  cases path with
  | nil =>
    rw [expandedPath]
    simp only [JoinsHome, List.head?_nil, reduceCtorEq, false_and, and_false, if_false]
    exact hdefault
  | cons c rest =>
    rw [expandedPath]
    simp only [JoinsHome, List.head?_cons, Option.some.injEq, List.tail_cons]
    by_cases hc : c = tilde
    · subst hc
      simp only [ne_eq, not_true_eq_false, if_false, true_and]
      by_cases huser : rest ≠ [] ∧ rest.head? ≠ some slash
      · rw [if_pos huser, if_pos huser]
      · rw [if_neg huser, if_neg huser]
        by_cases hhome : home = []
        · simp only [hhome, if_true, not_true_eq_false, false_and, if_false]
          by_cases hrest : rest = []
          · rw [if_pos hrest, if_pos hrest]
            exact hdefault
          · rw [if_neg hrest, if_neg hrest, copyPath_eq h, strlcpy]
        · simp only [hhome, if_false, not_false_eq_true, true_and]
          by_cases hrest : rest = []
          · simp only [hrest, if_true, not_true_eq_false, false_and, if_false, List.append_nil]
            rw [copyPath_eq h, strlcpy]
          · simp only [hrest, if_false, not_false_eq_true, true_and]
    · simp only [ne_eq, hc, not_false_eq_true, if_true, false_and, and_false, if_false]
      rw [copyPath_eq h, strlcpy]

lemma snprintfResult_ge_iff {total : ℕ} : cInt outLen ≤ snprintfResult total ↔
    if total < 2 ^ 31 then cInt outLen ≤ total else cInt outLen < 0 := by
  rw [snprintfResult]
  split_ifs <;> omega

/-- A call that wrote less than the whole path said so, or it did not write less. -/
lemma survives_iff {full : Bytes} : Survives home path outLen full ↔
    JoinsHome home path ∧ cInt outLen ≤ snprintfResult full.length ∨ full.length < outLen := by
  have hint := cInt_le outLen
  rw [Survives, snprintfResult_ge_iff]
  split_ifs with hlong
  · constructor
    · rintro (hfit | ⟨hj, -⟩)
      · exact .inr hfit
      · by_cases hfit : full.length < outLen
        · exact .inr hfit
        · exact .inl ⟨hj, by omega⟩
    · rintro (⟨hj, -⟩ | hfit)
      · exact .inr ⟨hj, .inl hlong⟩
      · exact .inl hfit
  · constructor
    · rintro (hfit | ⟨hj, hl | hn⟩)
      · exact .inr hfit
      · exact absurd hl hlong
      · exact .inl ⟨hj, hn⟩
    · rintro (⟨hj, hn⟩ | hfit)
      · exact .inr ⟨hj, .inr hn⟩
      · exact .inl hfit

lemma pathExpand_complete_iff : Complete (pathExpand home path outLen) (expandedPath home path) outLen ↔
    ExpandKeeps home path outLen := by
  by_cases h : outLen = 0
  · rw [pathExpand.eq_def, if_pos h]
    exact iff_of_true (complete_error _ _) (.inl h)
  · rw [ExpandKeeps, or_iff_right h, pathExpand_eq h]
    cases he : expandedPath home path with
    | none => exact iff_of_true (complete_error _ _) fun _ hf => (nomatch hf)
    | some full =>
      simp only [Option.mem_some_iff, forall_eq', survives_iff]
      by_cases hj : JoinsHome home path ∧ cInt outLen ≤ snprintfResult full.length
      · rw [if_pos hj]
        exact iff_of_true (complete_error _ _) (.inl hj)
      · rw [if_neg hj, or_iff_right hj, ← complete_copy h, copyPath_eq h, strlcpy]

end Expand

section Resolve

variable {root home path : Bytes} {outLen : ℕ}

lemma pathIsAbsolute_take (e : Bytes) : pathIsAbsolute (e.take (pathMax - 1)) = pathIsAbsolute e := by
  cases e <;> rfl

lemma pathJoin_length {base name out : Bytes} (h : pathJoin outLen base name = some out) :
    out = joined base name ∧ out.length < outLen := by
  rw [pathJoin] at h
  split_ifs at h with _ hlen
  obtain rfl := Option.some.inj h
  exact ⟨rfl, not_le.mp hlen⟩

lemma joined_left_cancel {base a b : Bytes} (h : joined base a = joined base b) : a = b := by
  rw [joined, joined] at h
  have h' := List.append_cancel_left h
  split_ifs at h'
  · exact (List.cons.inj h').2
  · exact h'

/-- What is done with the expanded path, which may have been cut. -/
lemma pathResolve_expanded {x : Bytes} (h : outLen ≠ 0) (hx : pathExpand home path pathMax = .ok x) :
    pathResolve root home path outLen =
      if pathIsAbsolute x = true ∨ root = [] then .ok (x.take (outLen - 1))
      else match pathJoin outLen root x with
        | none => .error .errInvalid
        | some out => .ok out := by
  rw [pathResolve, if_neg h, hx]
  dsimp only
  by_cases ha : pathIsAbsolute x = true
  · rw [if_pos ha, if_pos (.inl ha), copyPath_eq h, strlcpy]
  · rw [if_neg ha]
    by_cases hr : root = []
    · rw [if_neg (not_not.mpr hr), if_pos (.inr hr), copyPath_eq h, strlcpy]
    · rw [if_pos hr, if_neg (by tauto)]

/-- An expanded path that was not cut. -/
lemma resolve_complete_of_fits {e : Bytes} (h : outLen ≠ 0) (he : expandedPath home path = some e)
    (hx : pathExpand home path pathMax = .ok e) :
    Complete (pathResolve root home path outLen) (resolvedPath root home path) outLen ↔
      (pathIsAbsolute e = true ∨ root = [] → e.length < outLen) := by
  rw [pathResolve_expanded h hx, resolvedPath, he, Option.map_some]
  by_cases ha : pathIsAbsolute e = true ∨ root = []
  · rw [if_pos ha, if_pos ha, ← strlcpy, ← copyPath_eq h, complete_copy h]
    exact ⟨fun hlt _ => hlt, fun hlt => hlt ha⟩
  · rw [if_neg ha, if_neg ha]
    refine iff_of_true ?_ fun ha' => absurd ha' ha
    cases hj : pathJoin outLen root e with
    | none => exact complete_error _ _
    | some out =>
      obtain ⟨rfl, hlen⟩ := pathJoin_length hj
      refine ⟨fun out' ho => by rw [Except.ok.inj ho], fun p hp hle => ?_⟩
      obtain rfl := Option.some.inj hp
      omega

/-- One that was cut is never taken for a failure, unless the join refuses it. -/
lemma resolve_complete_of_cut {e : Bytes} (h : outLen ≠ 0) (he : expandedPath home path = some e)
    (hlong : pathMax ≤ e.length) (hx : pathExpand home path pathMax = .ok (e.take (pathMax - 1))) :
    Complete (pathResolve root home path outLen) (resolvedPath root home path) outLen ↔
      pathIsAbsolute e = false ∧ root ≠ [] ∧ pathJoin outLen root (e.take (pathMax - 1)) = none := by
  have hmax : pathMax = 512 := rfl
  rw [pathResolve_expanded h hx, resolvedPath, he, Option.map_some, pathIsAbsolute_take]
  by_cases ha : pathIsAbsolute e = true ∨ root = []
  · rw [if_pos ha, if_pos ha]
    refine iff_of_false (fun hc => ?_) fun hr => ?_
    · have hlen := congrArg List.length (Option.some.inj (hc.1 _ rfl))
      rw [List.length_take, List.length_take] at hlen
      omega
    · rcases ha with ha | ha
      · rw [hr.1] at ha
        exact nomatch ha
      · exact hr.2.1 ha
  · rw [if_neg ha, if_neg ha]
    rw [not_or, Bool.not_eq_true] at ha
    cases hj : pathJoin outLen root (e.take (pathMax - 1)) with
    | none => exact iff_of_true (complete_error _ _) ⟨ha.1, ha.2, rfl⟩
    | some out =>
      obtain ⟨rfl, -⟩ := pathJoin_length hj
      refine iff_of_false (fun hc => ?_) fun hr => (nomatch hr.2.2)
      have hlen := congrArg List.length (joined_left_cancel (Option.some.inj (hc.1 _ rfl)))
      rw [List.length_take] at hlen
      omega

lemma pathResolve_complete_iff : Complete (pathResolve root home path outLen) (resolvedPath root home path) outLen ↔
    ResolveKeeps root home path outLen := by
  have hmax : pathMax = 512 := rfl
  have hint : cInt pathMax = 512 := by decide
  by_cases h : outLen = 0
  · rw [pathResolve, if_pos h]
    exact iff_of_true (complete_error _ _) (.inl h)
  · rw [ResolveKeeps, or_iff_right h]
    have hexp := @pathExpand_eq home path pathMax (by decide)
    cases he : expandedPath home path with
    | none =>
      rw [he] at hexp
      rw [pathResolve, if_neg h, hexp]
      exact iff_of_true (complete_error _ _) fun _ hf => (nomatch hf)
    | some e =>
      rw [he] at hexp
      dsimp only at hexp
      rw [hint, hmax] at hexp
      simp only [Option.mem_some_iff, forall_eq']
      by_cases hlen : e.length < pathMax
      · have hx : pathExpand home path pathMax = .ok e := by
          rw [hmax] at hlen ⊢
          rw [hexp, if_neg, List.take_of_length_le (by omega)]
          rintro ⟨-, hle⟩
          rw [snprintfResult, if_pos (by omega)] at hle
          omega
        rw [if_pos hlen]
        exact resolve_complete_of_fits h he hx
      · rw [if_neg hlen]
        by_cases hj : JoinsHome home path ∧ e.length < 2 ^ 31
        · have hle : (512 : ℤ) ≤ snprintfResult e.length := by
            rw [snprintfResult, if_pos hj.2]
            omega
          rw [if_pos ⟨hj.1, hle⟩] at hexp
          rw [pathResolve, if_neg h, hmax, hexp]
          exact iff_of_true (complete_error _ _) (.inl hj)
        · have hx : pathExpand home path pathMax = .ok (e.take (pathMax - 1)) := by
            rw [hmax, hexp, if_neg]
            rintro ⟨hjoin, hle⟩
            rw [snprintfResult, if_neg fun hlt => hj ⟨hjoin, hlt⟩] at hle
            omega
          rw [or_iff_right hj]
          exact resolve_complete_of_cut h he (not_lt.mp hlen) hx

end Resolve

section Dirname

variable {path : Bytes} {outLen : ℕ}

lemma beforeSlash_append (a : Bytes) {b : Bytes} (hb : slash ∉ b) : beforeSlash (a ++ slash :: b) = a := by
  have hdrop : (a ++ slash :: b).rdropWhile (· ≠ slash) = a ++ [slash] := by
    rw [List.rdropWhile, List.reverse_append, List.reverse_cons, List.append_assoc,
      List.dropWhile_append_of_pos fun c hc => ?_]
    · simp
    · simpa using fun h0 : c = slash => hb (h0 ▸ List.mem_reverse.mp hc)
  rw [beforeSlash, hdrop, List.dropLast_concat]

/-- A path with a slash, cut at the last one. -/
lemma split_last_slash {p : Bytes} (h : slash ∈ p) : ∃ a b, p = a ++ slash :: b ∧ slash ∉ b := by
  obtain ⟨a, b, hab, ha⟩ := List.eq_append_cons_of_mem (List.mem_reverse.mpr h)
  refine ⟨b.reverse, a.reverse, ?_, fun hs => ha (List.mem_reverse.mp hs)⟩
  rw [← List.reverse_reverse p, hab]
  simp

/-- What is cut off behind the last slash does not matter. -/
lemma parentPath_take {n : ℕ} (h : slash ∉ path.drop n) : parentPath (path.take n) = parentPath path := by
  rw [parentPath, parentPath]
  by_cases hs : slash ∈ path.take n
  · obtain ⟨a, b, hab, hb⟩ := split_last_slash hs
    have hpath : path = a ++ slash :: (b ++ path.drop n) := by
      conv_lhs => rw [← List.take_append_drop n path, hab]
      simp
    have hrest : slash ∉ b ++ path.drop n := by
      rw [List.mem_append, not_or]
      exact ⟨hb, h⟩
    have hbefore : beforeSlash path = a := by
      rw [hpath]
      exact beforeSlash_append a hrest
    rw [if_neg (not_not.mpr hs), if_neg (not_not.mpr (List.mem_of_mem_take hs)), hbefore, hab, beforeSlash_append a hb]
  · have hnone : slash ∉ path := by
      rw [← List.take_append_drop n path, List.mem_append, not_or]
      exact ⟨hs, h⟩
    rw [if_pos hs, if_pos hnone]

lemma parentPath_long {n : ℕ} (hn : 0 < n) (h : slash ∈ path.drop n) : n ≤ (parentPath path).length := by
  obtain ⟨a, b, hab, hb⟩ := split_last_slash h
  have hpath : path = path.take n ++ a ++ slash :: b := by
    conv_lhs => rw [← List.take_append_drop n path, hab]
    simp
  have hbefore : beforeSlash path = path.take n ++ a := by
    conv_lhs => rw [hpath]
    exact beforeSlash_append _ hb
  have hlen : n ≤ (path.take n ++ a).length := by
    have hdrop := List.length_pos_of_mem h
    rw [List.length_drop] at hdrop
    rw [List.length_append, List.length_take]
    omega
  have hne : path.take n ++ a ≠ [] := by
    intro h0
    rw [h0, List.length_nil] at hlen
    omega
  rw [parentPath, if_neg (not_not.mpr (List.mem_of_mem_drop h)), hbefore, if_neg hne]
  exact hlen

lemma parentPath_short {n : ℕ} (hn : 1 < n) (h : path.length ≤ n) : (parentPath path).length < n := by
  rw [parentPath]
  by_cases hs : slash ∈ path
  · obtain ⟨a, b, rfl, hb⟩ := split_last_slash hs
    rw [if_neg (not_not.mpr hs), beforeSlash_append a hb]
    rw [List.length_append, List.length_cons] at h
    split_ifs
    · exact hn
    · omega
  · rw [if_pos hs]
    exact hn

lemma pathDirname_eq (h : outLen ≠ 0) :
    pathDirname path outLen = copyPath outLen (parentPath (path.take (pathMax - 1))) := by
  rw [pathDirname, if_neg h, copyPath_eq (show pathMax ≠ 0 by decide), strlcpy, parentPath]
  dsimp only
  split_ifs <;> rfl

lemma pathDirname_complete_iff : Complete (pathDirname path outLen) (some (parentPath path)) outLen ↔
    DirnameKeeps path outLen := by
  by_cases h : outLen = 0
  · rw [pathDirname, if_pos h]
    exact iff_of_true (complete_error _ _) (.inl h)
  · rw [DirnameKeeps, or_iff_right h, pathDirname_eq h]
    by_cases hs : slash ∈ path.drop (pathMax - 1)
    · refine iff_of_false (fun hc => ?_) fun hk => hk.1 hs
      have hlong := parentPath_long (show 0 < pathMax - 1 by decide) hs
      have hshort := @parentPath_short (path.take (pathMax - 1)) (pathMax - 1) (by decide) (List.length_take_le _ _)
      have heq := Option.some.inj (hc.1 _ (copyPath_eq h _))
      rw [heq, strlcpy, List.length_take] at hlong
      omega
    · rw [parentPath_take hs, complete_copy h]
      exact ⟨fun hlt => ⟨hs, hlt⟩, fun hk => hk.2⟩

end Dirname

/-- Exactly when the three functions leave a whole path or fail: whatever goes through the bounded copy is cut
without a word. -/
theorem paths_complete_iff (root home path : Bytes) (outLen : ℕ) :
    (Complete (pathExpand home path outLen) (expandedPath home path) outLen ↔ ExpandKeeps home path outLen) ∧
      (Complete (pathResolve root home path outLen) (resolvedPath root home path) outLen ↔
        ResolveKeeps root home path outLen) ∧
      (Complete (pathDirname path outLen) (some (parentPath path)) outLen ↔ DirnameKeeps path outLen) :=
  ⟨pathExpand_complete_iff, pathResolve_complete_iff, pathDirname_complete_iff⟩

/-- A path that does not fit is cut, and the call succeeds. -/
theorem path_cut_without_error :
    pathExpand [] (ofString "/srv/hybbx") 5 = .ok (ofString "/srv") ∧
      ¬Complete (pathExpand [] (ofString "/srv/hybbx") 5) (expandedPath [] (ofString "/srv/hybbx")) 5 ∧
      pathDirname (ofString "/srv/hybbx/data") 5 = .ok (ofString "/srv") := by
  have hcut : pathExpand [] (ofString "/srv/hybbx") 5 = .ok (ofString "/srv") := by decide
  refine ⟨hcut, fun h => ?_, by decide⟩
  have hfull := h.1 _ hcut
  revert hfull
  decide

end HyBBX.Config
