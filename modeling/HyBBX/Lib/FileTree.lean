import HyBBX.Lib.Bytes
import Mathlib.Logic.Function.Basic

/-! A tree of files under path names, the calls that change it, and what a sequence of calls changed. -/

namespace HyBBX.Lib

inductive Node
  | dir
  | file (text : Bytes)
  deriving DecidableEq, Repr

abbrev FileTree := Bytes → Option Node

/-- Which calls the operating system grants. -/
structure FileIo where
  mkdir : FileTree → Bytes → Bool
  read : FileTree → Bytes → Bool
  write : FileTree → Bytes → Bool

namespace FileTree

def slash : UInt8 := 0x2F

-- a name that exists is as good as a directory made
def mkdir (io : FileIo) (tree : FileTree) (path : Bytes) : Option FileTree :=
  if (tree path).isSome then some tree
  else if io.mkdir tree path then some (Function.update tree path (some .dir))
  else none

def read (io : FileIo) (tree : FileTree) (path : Bytes) : Option Bytes :=
  match tree path with
  | some (.file text) => if io.read tree path then some text else none
  | _ => none

def write (io : FileIo) (tree : FileTree) (path text : Bytes) : Option FileTree :=
  if tree path ≠ some .dir ∧ io.write tree path then some (Function.update tree path (some (.file text))) else none

/-- The directories that a path goes through, the outermost first. -/
def ancestors (path : Bytes) : List Bytes :=
  (path.inits.filter fun p => p ≠ [] ∧ p ++ [slash] <+: path)

def dirsTo (path : Bytes) : List Bytes := ancestors path ++ [path]

/-- Make directories one after the other; those made before a refusal stay. -/
def mkdirAll (io : FileIo) : FileTree → List Bytes → Bool × FileTree
  | tree, [] => (true, tree)
  | tree, path :: paths =>
    match mkdir io tree path with
    | none => (false, tree)
    | some tree' => mkdirAll io tree' paths

/-- Whatever differs between two trees is a path of the given kind. -/
def Only (P : Bytes → Prop) (before after : FileTree) : Prop := ∀ path, after path ≠ before path → P path

section Only

variable {P Q : Bytes → Prop} {a b c : FileTree}

lemma Only.refl (P : Bytes → Prop) (a : FileTree) : Only P a a := fun _ h => absurd rfl h

lemma Only.trans (hab : Only P a b) (hbc : Only P b c) : Only P a c := by
  intro path h
  by_cases hb : b path = a path
  · apply hbc
    rwa [hb]
  · exact hab path hb

lemma Only.mono (h : Only P a b) (hPQ : ∀ path, P path → Q path) : Only Q a b :=
  fun path hp => hPQ path (h path hp)

lemma only_update (a : FileTree) (path : Bytes) (node : Option Node) :
    Only (· = path) a (Function.update a path node) := by
  intro other h
  by_contra hne
  exact h (Function.update_of_ne hne _ _)

lemma mkdir_only {io : FileIo} {path : Bytes} (h : mkdir io a path = some b) : Only (· = path) a b := by
  rw [mkdir] at h
  split_ifs at h
  · obtain rfl := Option.some.inj h
    exact Only.refl _ _
  · obtain rfl := Option.some.inj h
    exact only_update _ _ _

lemma write_only {io : FileIo} {path text : Bytes} (h : write io a path text = some b) : Only (· = path) a b := by
  rw [write] at h
  split_ifs at h
  obtain rfl := Option.some.inj h
  exact only_update _ _ _

lemma mkdirAll_only (io : FileIo) (paths : List Bytes) (a : FileTree) :
    Only (· ∈ paths) a (mkdirAll io a paths).2 := by
  induction paths generalizing a with
  | nil => exact Only.refl _ _
  | cons path paths ih =>
    rw [mkdirAll]
    cases hm : mkdir io a path with
    | none => exact Only.refl _ _
    | some b =>
      have hfirst : Only (· ∈ path :: paths) a b := (mkdir_only hm).mono fun _ h => h ▸ List.mem_cons_self
      have hrest : Only (· ∈ path :: paths) b (mkdirAll io b paths).2 :=
        (ih b).mono fun _ h => List.mem_cons_of_mem path h
      exact hfirst.trans hrest

end Only

section Paths

variable {p base name : Bytes}

lemma mem_ancestors : p ∈ ancestors base ↔ p ≠ [] ∧ p ++ [slash] <+: base := by
  simp only [ancestors, List.mem_filter, List.mem_inits, decide_eq_true_eq, and_iff_right_iff_imp]
  rintro ⟨_, h⟩
  exact (List.prefix_append p [slash]).trans h

/-- Going one name further passes through the base, and through nothing else that is new. -/
lemma mem_ancestors_child (hname : slash ∉ name) (h : p ∈ ancestors (base ++ slash :: name)) : p ∈ dirsTo base := by
  obtain ⟨hne, t, ht⟩ := mem_ancestors.mp h
  rw [List.append_assoc, List.singleton_append] at ht
  rcases List.append_eq_append_iff.mp ht with ⟨u, hbase, hu⟩ | ⟨u, hp, hu⟩
  · cases u with
    | nil =>
      rw [hbase, List.append_nil]
      exact List.mem_append_right _ (List.mem_singleton_self p)
    | cons b u =>
      obtain ⟨rfl, -⟩ := List.cons.inj hu
      exact List.mem_append_left _ (mem_ancestors.mpr ⟨hne, u, by rw [hbase]; simp⟩)
  · cases u with
    | nil =>
      rw [hp, List.append_nil]
      exact List.mem_append_right _ (List.mem_singleton_self base)
    | cons b u =>
      have hs : slash ∈ name := by
        rw [(List.cons.inj hu).2]
        simp
      exact absurd hs hname

end Paths

end FileTree

end HyBBX.Lib

/-! Path names as the system resolves them from a working directory (no symbolic links), and the calls on a tree of
files under such names. -/

namespace HyBBX.Lib.FileTree

/-- The names that lead to a directory from the root, the last one first. -/
abbrev Names := List Bytes

def dot : Bytes := [0x2E]
def dotdot : Bytes := [0x2E, 0x2E]

def enter (dir : Names) (name : Bytes) : Names :=
  if name = [] ∨ name = dot then dir else if name = dotdot then dir.tail else name :: dir

def resolve (cwd : Names) (path : Bytes) : Names :=
  (path.splitOn slash).foldl enter (if path.head? = some slash then [] else cwd)

def absolute (names : Names) : Bytes := names.reverse.flatMap (slash :: ·)

/-- The name under which the tree has what a path leads to. -/
def place (cwd : Names) (path : Bytes) : Bytes := absolute (resolve cwd path)

/-- A path ending in a slash is what a name is joined to. -/
lemma resolve_append (cwd : Names) (base name : Bytes) :
    resolve cwd (base ++ slash :: name) = (name.splitOn slash).foldl enter (resolve cwd (base ++ [slash])) := by
  have hhead : (base ++ slash :: name).head? = (base ++ [slash]).head? := by cases base <;> rfl
  rw [resolve, resolve, List.splitOn_append_cons_self, List.splitOn_append_cons_self, List.foldl_append,
    List.foldl_append,
    hhead, List.splitOn_nil]
  rfl

lemma resolve_child (cwd : Names) (base : Bytes) {name : Bytes} (hslash : slash ∉ name) (hname : name ≠ [])
    (hdot : name ≠ dot) (hdots : name ≠ dotdot) :
    resolve cwd (base ++ slash :: name) = name :: resolve cwd (base ++ [slash]) := by
  rw [resolve_append, List.splitOn_eq_singleton hslash, List.foldl_cons, List.foldl_nil, enter,
    if_neg (not_or.mpr ⟨hname, hdot⟩), if_neg hdots]

section Calls

variable (io : FileIo) (cwd : Names)

-- the system is asked with the path as it is written: the directories it passes through have to be there
def mkdirAt (tree : FileTree) (path : Bytes) : Option FileTree :=
  if (tree (place cwd path)).isSome then some tree
  else if io.mkdir tree path then some (Function.update tree (place cwd path) (some .dir))
  else none

def mkdirAllAt : FileTree → List Bytes → FileTree
  | tree, [] => tree
  | tree, path :: paths =>
    match mkdirAt io cwd tree path with
    | none => tree
    | some tree' => mkdirAllAt tree' paths

def readAt (tree : FileTree) (path : Bytes) : Option Bytes :=
  match tree (place cwd path) with
  | some (.file text) => if io.read tree path then some text else none
  | _ => none

def writeAt (tree : FileTree) (path text : Bytes) : Option FileTree :=
  if tree (place cwd path) ≠ some .dir ∧ io.write tree path then
    some (Function.update tree (place cwd path) (some (.file text)))
  else none

end Calls

/-- Whatever differs between two trees is a name of the given kind or a new directory. -/
def Grows (P : Bytes → Prop) (before after : FileTree) : Prop :=
  ∀ name, after name ≠ before name → P name ∨ (before name = none ∧ after name = some .dir)

section Grows

variable {P Q : Bytes → Prop} {a b c : FileTree}

lemma Grows.refl (P : Bytes → Prop) (a : FileTree) : Grows P a a := fun _ h => absurd rfl h

lemma Grows.trans (hab : Grows P a b) (hbc : Grows P b c) : Grows P a c := by
  intro name h
  by_cases hb : b name = a name
  · rw [← hb] at h ⊢
    exact hbc name h
  · rcases hab name hb with hp | ⟨hnone, hdir⟩
    · exact .inl hp
    · by_cases hc : c name = b name
      · exact .inr ⟨hnone, hc.trans hdir⟩
      · rcases hbc name hc with hp | ⟨hnone', -⟩
        · exact .inl hp
        · rw [hdir] at hnone'
          cases hnone'

lemma Grows.mono (h : Grows P a b) (hPQ : ∀ name, P name → Q name) : Grows Q a b :=
  fun name hne => (h name hne).imp_left (hPQ name)

variable {io : FileIo} {cwd : Names}

lemma mkdirAt_grows {path : Bytes} (h : mkdirAt io cwd a path = some b) : Grows P a b := by
  rw [mkdirAt] at h
  split_ifs at h with hsome
  · obtain rfl := Option.some.inj h
    exact Grows.refl P a
  · obtain rfl := Option.some.inj h
    intro name hne
    obtain rfl : name = place cwd path := by
      by_contra hother
      exact hne (Function.update_of_ne hother _ _)
    exact .inr ⟨Option.not_isSome_iff_eq_none.mp hsome, Function.update_self _ _ _⟩

lemma mkdirAllAt_grows (io : FileIo) (cwd : Names) (P : Bytes → Prop) (paths : List Bytes) (a : FileTree) :
    Grows P a (mkdirAllAt io cwd a paths) := by
  induction paths generalizing a with
  | nil => exact Grows.refl P a
  | cons path paths ih =>
    rw [mkdirAllAt]
    cases hm : mkdirAt io cwd a path with
    | none => exact Grows.refl P a
    | some b => exact (mkdirAt_grows hm).trans (ih b)

lemma writeAt_grows {path text : Bytes} (h : writeAt io cwd a path text = some b) :
    Grows (· = place cwd path) a b := by
  rw [writeAt] at h
  split_ifs at h
  obtain rfl := Option.some.inj h
  exact fun name hne => .inl (only_update a (place cwd path) _ name hne)

end Grows

end HyBBX.Lib.FileTree
