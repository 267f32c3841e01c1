import Mathlib.Data.Finset.Lattice.Fold
import Mathlib.Data.Finset.Erase
import Mathlib.Tactic

/-! The descriptors a component holds: those it has opened and not closed since, and the closes of anything else. -/

namespace HyBBX.Lib.Descriptors

structure Ledger where
  owned : Finset ℕ
  stray : List ℕ
  deriving DecidableEq

namespace Ledger

variable (l : Ledger)

def empty : Ledger := ⟨∅, []⟩

/-- The number a new descriptor gets: the one asked for, unless that one is in use. -/
def fresh (want : ℕ) : ℕ := if want ∈ l.owned then l.owned.sup id + 1 else want

def opened (want : ℕ) : Ledger := { l with owned := insert (l.fresh want) l.owned }

def closed (fd : ℕ) : Ledger :=
  if fd ∈ l.owned then { l with owned := l.owned.erase fd } else { l with stray := l.stray ++ [fd] }

/-- A field is closed if it holds a descriptor. -/
def release : Option ℕ → Ledger
  | none => l
  | some fd => l.closed fd

/-- Everything that was closed had been opened. -/
def Clean : Prop := l.stray = []

instance : Decidable l.Clean := inferInstanceAs (Decidable (l.stray = []))

variable {l} {fd other want : ℕ}

lemma fresh_notMem : l.fresh want ∉ l.owned := by
  rw [fresh]
  split_ifs with h
  · intro hmem
    have hle := Finset.le_sup (f := id) hmem
    exact Nat.not_succ_le_self _ hle
  · exact h

@[simp] lemma mem_opened : other ∈ (l.opened want).owned ↔ other = l.fresh want ∨ other ∈ l.owned := Finset.mem_insert

@[simp] lemma stray_opened : (l.opened want).stray = l.stray := rfl

lemma closed_of_mem (h : fd ∈ l.owned) : l.closed fd = { l with owned := l.owned.erase fd } := if_pos h

lemma closed_of_notMem (h : fd ∉ l.owned) : l.closed fd = { l with stray := l.stray ++ [fd] } := if_neg h

lemma mem_closed : other ∈ (l.closed fd).owned ↔ other ≠ fd ∧ other ∈ l.owned := by
  rw [closed]
  split_ifs with h
  · exact Finset.mem_erase
  · refine ⟨fun hmem => ⟨?_, hmem⟩, fun hmem => hmem.2⟩
    rintro rfl
    exact h hmem

lemma stray_closed (h : fd ∈ l.owned) : (l.closed fd).stray = l.stray := by rw [closed_of_mem h]

lemma clean_closed_iff : (l.closed fd).Clean ↔ l.Clean ∧ fd ∈ l.owned := by
  rw [closed]
  split_ifs with h
  · exact ⟨fun hc => ⟨hc, h⟩, fun hc => hc.1⟩
  · exact ⟨fun hnil => absurd (List.append_eq_nil_iff.mp hnil).2 (List.cons_ne_nil _ _), fun hc => absurd hc.2 h⟩

/-- The descriptors held, each of them in one place. -/
structure Keeps (l : Ledger) (fds : List ℕ) : Prop where
  nodup : fds.Nodup
  mem : ∀ fd, fd ∈ l.owned ↔ fd ∈ fds

variable {fds fds' : List ℕ}

lemma Keeps.perm (h : l.Keeps fds) (hperm : fds.Perm fds') : l.Keeps fds' :=
  ⟨hperm.nodup_iff.mp h.nodup, fun fd => (h.mem fd).trans hperm.mem_iff⟩

lemma Keeps.open (h : l.Keeps fds) (want : ℕ) : (l.opened want).Keeps (l.fresh want :: fds) := by
  constructor
  · refine List.nodup_cons.mpr ⟨?_, h.nodup⟩
    intro hmem
    exact fresh_notMem ((h.mem _).mpr hmem)
  · intro fd
    rw [mem_opened, List.mem_cons, h.mem]

lemma Keeps.close (h : l.Keeps (fd :: fds)) : (l.closed fd).Keeps fds := by
  obtain ⟨hnot, hnodup⟩ := List.nodup_cons.mp h.nodup
  refine ⟨hnodup, ?_⟩
  intro other
  rw [mem_closed, h.mem, List.mem_cons]
  constructor
  · rintro ⟨hne, rfl | hmem⟩
    · exact absurd rfl hne
    · exact hmem
  · intro hmem
    refine ⟨?_, .inr hmem⟩
    rintro rfl
    exact hnot hmem

lemma Keeps.stray_close (h : l.Keeps (fd :: fds)) : (l.closed fd).stray = l.stray :=
  stray_closed ((h.mem fd).mpr List.mem_cons_self)

/-- With nothing held, every close is one of something else. -/
lemma Keeps.close_nil (h : l.Keeps []) (fd : ℕ) : l.closed fd = { l with stray := l.stray ++ [fd] } := by
  apply closed_of_notMem
  intro hmem
  exact List.not_mem_nil ((h.mem fd).mp hmem)

end Ledger

end HyBBX.Lib.Descriptors
